import SquidServer.Interaction

namespace Handles
open Interaction
set_option autoImplicit true

/-- Which handle an event opens, and which it closes. -/
structure Use (E : Effect) (ι : Type) where
  opens : Event E → Option ι
  closes : Event E → Option ι

variable {E : Effect} {ι : Type} [DecidableEq ι] {U : Use E ι}

/-- The handles that are open after an event. -/
def Use.step (U : Use E ι) (held : List ι) (e : Event E) : List ι :=
  match U.opens e with
  | some h => h :: held
  | none =>
    match U.closes e with
    | some h => held.erase h
    | none => held

/-- The handles that a trace has opened and not closed. -/
def openAfter (U : Use E ι) (held : List ι) (t : List (Event E)) : List ι := t.foldl U.step held

/-- Every handle that is opened is one that is not open. -/
def Fresh (U : Use E ι) : List ι → List (Event E) → Prop
  | _, [] => True
  | held, e :: t => (∀ h, U.opens e = some h → h ∉ held) ∧ Fresh U (U.step held e) t

/-- Every handle that is closed is one that is open. -/
def ClosesOnce (U : Use E ι) : List ι → List (Event E) → Prop
  | _, [] => True
  | held, e :: t => (∀ h, U.closes e = some h → h ∈ held) ∧ ClosesOnce U (U.step held e) t

theorem openAfter_append (held : List ι) (t u : List (Event E)) :
    openAfter U held (t ++ u) = openAfter U (openAfter U held t) u := List.foldl_append ..

theorem fresh_append : Fresh U held (t ++ u) ↔ Fresh U held t ∧ Fresh U (openAfter U held t) u := by
  induction t generalizing held with
  | nil => simp [Fresh, openAfter]
  | cons e t ih =>
    simp only [List.cons_append, Fresh, ih, and_assoc]
    rfl

theorem closesOnce_append :
    ClosesOnce U held (t ++ u) ↔ ClosesOnce U held t ∧ ClosesOnce U (openAfter U held t) u := by
  induction t generalizing held with
  | nil => simp [ClosesOnce, openAfter]
  | cons e t ih =>
    simp only [List.cons_append, ClosesOnce, ih, and_assoc]
    rfl

/-- A trace that closes no handle twice and leaves these handles open, as long as the handles it
opens are new. -/
def Keeps (U : Use E ι) (held : List ι) (t : List (Event E)) (held' : List ι) : Prop :=
  Fresh U held t → openAfter U held t = held' ∧ ClosesOnce U held t

theorem Keeps.append (h : Keeps U held t held') (h' : Fresh U held t → Keeps U held' u held'') :
    Keeps U held (t ++ u) held'' := by
  intro hfresh
  obtain ⟨ht, hu⟩ := fresh_append.1 hfresh
  obtain ⟨hopen, hcloses⟩ := h ht
  rw [hopen] at hu
  obtain ⟨hopen', hcloses'⟩ := h' ht hu
  refine ⟨?_, ?_⟩
  · rw [openAfter_append, hopen]
    exact hopen'
  · rw [closesOnce_append, hopen]
    exact ⟨hcloses, hcloses'⟩

theorem Keeps.nil (held : List ι) : Keeps U held [] held := fun _ => ⟨rfl, trivial⟩

theorem Keeps.quiet (held : List ι) (h : ∀ e ∈ t, U.opens e = none ∧ U.closes e = none) :
    Keeps U held t held := by
  intro hfresh
  induction t with
  | nil => exact ⟨rfl, trivial⟩
  | cons e t ih =>
    obtain ⟨hopens, hcloses⟩ := h e List.mem_cons_self
    have hstep : U.step held e = held := by
      rw [Use.step, hopens]
      dsimp only
      rw [hcloses]
    have hrest : Fresh U held t := hstep ▸ hfresh.2
    have ih := ih (fun e' he' => h e' (List.mem_cons_of_mem e he')) hrest
    refine ⟨?_, ?_, ?_⟩
    · rw [openAfter, List.foldl_cons, hstep]
      exact ih.1
    · intro h' hh'
      cases hcloses.symm.trans hh'
    · rw [hstep]
      exact ih.2

theorem Keeps.opened {e : Event E} (hopens : U.opens e = some h) (hcloses : U.closes e = none)
    (held : List ι) : Keeps U held [e] (h :: held) := by
  intro _
  have hstep : U.step held e = h :: held := by rw [Use.step, hopens]
  refine ⟨hstep, ?_, trivial⟩
  intro h' hh'
  cases hcloses.symm.trans hh'

theorem Keeps.closed {e : Event E} (hopens : U.opens e = none) (hcloses : U.closes e = some h)
    (hmem : h ∈ held) : Keeps U held [e] (held.erase h) := by
  intro _
  have hstep : U.step held e = held.erase h := by
    rw [Use.step, hopens]
    dsimp only
    rw [hcloses]
  refine ⟨hstep, ?_, trivial⟩
  intro h' hh'
  cases hcloses.symm.trans hh'
  exact hmem

/-- A server whose every exchange leaves open what its state says is open, from one request to the
next. -/
theorem keeps_conversation {handle : σ → ι' → Program E (ο × σ)} (owned : σ → List ι)
    (h : Conversation C handle s xs s')
    (hstep : ∀ x ∈ xs,
      Exec (recording C) [] (handle x.before x.request) x.events (x.reply, x.after) →
      Keeps U (owned x.before) x.events (owned x.after))
    (hfresh : Fresh U (owned s) (xs.flatMap (·.events))) :
    ClosesOnce U (owned s) (xs.flatMap (·.events)) ∧
    ∀ prior x later, xs = prior ++ x :: later →
      Exec (recording C) [] (handle x.before x.request) x.events (x.reply, x.after) ∧
      Fresh U (owned x.before) x.events ∧
      openAfter U (owned s) (prior.flatMap (·.events)) = owned x.before ∧
      openAfter U (owned s) ((prior ++ [x]).flatMap (·.events)) = owned x.after := by
  induction h with
  | nil s => exact ⟨trivial, by simp⟩
  | @cons xs s' y he _ ih =>
    rw [List.flatMap_cons, fresh_append] at hfresh
    obtain ⟨hopen, hcloses⟩ := hstep y List.mem_cons_self he hfresh.1
    rw [hopen] at hfresh
    obtain ⟨hrest, hall⟩ := ih (fun x hx => hstep x (List.mem_cons_of_mem y hx)) hfresh.2
    refine ⟨?_, ?_⟩
    · rw [List.flatMap_cons, closesOnce_append, hopen]
      exact ⟨hcloses, hrest⟩
    · intro prior x later hxs
      cases prior with
      | nil =>
        obtain ⟨rfl, rfl⟩ := List.cons.inj hxs
        exact ⟨he, hfresh.1, rfl, by simpa using hopen⟩
      | cons z prior =>
        obtain ⟨rfl, hxs'⟩ := List.cons.inj hxs
        have hsplit := hall prior x later hxs'
        simpa only [List.cons_append, List.flatMap_cons, openAfter_append, hopen] using hsplit

/-- The environment that gives any answer, but opens no handle that is open already, and keeps the
handles that are open; it is in no state any more once a handle is used that is not open. -/
def tracking (U : Use E ι) (uses : E.Op → List ι) : Environment E (Option (List ι)) :=
  fun s op r s' =>
    (∀ held h, s = some held → U.opens ⟨op, r⟩ = some h → h ∉ held) ∧
    s' = s.bind fun held =>
      if ∀ h ∈ uses op, h ∈ held then some (U.step held ⟨op, r⟩) else none

section
variable {uses : E.Op → List ι} {held : List ι}

theorem tracking_step {op : E.Op} {r : E.Ans op} (h : tracking U uses (some held) op r s')
    (huses : ∀ h ∈ uses op, h ∈ held) : s' = some (U.step held ⟨op, r⟩) := by
  rw [h.2, Option.bind_some, if_pos huses]

theorem ensures_tracking_use {op : E.Op} (huses : ∀ h ∈ uses op, h ∈ held)
    (hquiet : ∀ r, U.opens ⟨op, r⟩ = none ∧ U.closes ⟨op, r⟩ = none) :
    Ensures (tracking U uses) (.ask op) (fun _ s => s = some held) (some held) := by
  refine ensures_ask fun r s hs => ?_
  rw [tracking_step hs huses, Use.step, (hquiet r).1]
  dsimp only
  rw [(hquiet r).2]

theorem ensures_tracking_close {op : E.Op} {h : ι} (huses : ∀ i ∈ uses op, i = h)
    (hmem : h ∈ held) (hcloses : ∀ r, U.opens ⟨op, r⟩ = none ∧ U.closes ⟨op, r⟩ = some h) :
    Ensures (tracking U uses) (.ask op) (fun _ s => s = some (held.erase h)) (some held) := by
  refine ensures_ask fun r s hs => ?_
  rw [tracking_step hs (fun i hi => huses i hi ▸ hmem), Use.step, (hcloses r).1]
  dsimp only
  rw [(hcloses r).2]

end

end Handles

import SquidServer.Interaction
import Mathlib.Data.Multiset.OrderedMonoid

namespace Leases
open Interaction
set_option autoImplicit true

/-- What a call needs to have in hand, what it takes, and what it gives back. -/
structure Lease (E : Effect) (ι : Type) where
  needs : E.Op → List ι
  takes : Event E → List ι
  returns : Event E → List ι

variable {E F : Effect} {ι : Type} {L : Lease F ι} {held : Multiset ι}

theorem needs_none {op : F.Op} (h : L.needs op = []) : ∀ i ∈ L.needs op, i ∈ held := by
  rw [h]
  exact fun _ hi => absurd hi List.not_mem_nil

variable [DecidableEq ι]

/-- What is in hand after an event. -/
def Lease.step (L : Lease F ι) (held : Multiset ι) (e : Event F) : Multiset ι :=
  held - (L.returns e : Multiset ι) + (L.takes e : Multiset ι)

/-- The environment that gives any answer. It is in no state any more once a call is made without
what the call needs. -/
def leasing (L : Lease F ι) : Environment F (Option (Multiset ι)) :=
  fun s op r s' => s' = s.bind fun held =>
    if ∀ i ∈ L.needs op, i ∈ held then some (L.step held ⟨op, r⟩) else none

/-- A program that makes no call without what it needs, and what it has in hand at its end. -/
def Leased (L : Lease F ι) (p : Program F α) (Q : α → Multiset ι → Prop) (held : Multiset ι) :
    Prop :=
  Ensures (leasing L) p (fun a s => ∃ held', s = some held' ∧ Q a held') (some held)

theorem leased_pure {Q : α → Multiset ι → Prop} (h : Q a held) : Leased L (.pure a) Q held :=
  ensures_pure.2 ⟨held, rfl, h⟩

theorem Leased.mono {Q R : α → Multiset ι → Prop} {p : Program F α} (h : Leased L p Q held)
    (hQ : ∀ a held', Q a held' → R a held') : Leased L p R held := by
  refine Ensures.mono h ?_
  rintro a s ⟨held', hs, ha⟩
  exact ⟨held', hs, hQ a held' ha⟩

theorem leased_bind {Q : α → Multiset ι → Prop} {R : β → Multiset ι → Prop} {p : Program F α}
    {f : α → Program F β} (h : Leased L p Q held)
    (hf : ∀ a held', Q a held' → Leased L (f a) R held') : Leased L (p.bind f) R held := by
  refine ensures_bind.2 (Ensures.mono h ?_)
  rintro a s ⟨held', rfl, ha⟩
  exact hf a held' ha

theorem leased_ask {op : F.Op} {Q : F.Ans op → Multiset ι → Prop}
    (hneeds : ∀ i ∈ L.needs op, i ∈ held) (h : ∀ r, Q r (L.step held ⟨op, r⟩)) :
    Leased L (.ask op) Q held := by
  refine ensures_ask ?_
  rintro r _ rfl
  rw [Option.bind_some, if_pos hneeds]
  exact ⟨_, rfl, h r⟩

theorem Lease.step_quiet {e : Event F} (htakes : L.takes e = []) (hreturns : L.returns e = []) :
    L.step held e = held := by
  rw [Lease.step, htakes, hreturns, Multiset.coe_nil, tsub_zero, add_zero]

theorem Lease.step_takes {e : Event F} (hreturns : L.returns e = []) :
    L.step held e = held + (L.takes e : Multiset ι) := by
  rw [Lease.step, hreturns, Multiset.coe_nil, tsub_zero]

theorem Lease.step_returns {e : Event F} (htakes : L.takes e = []) (more : Multiset ι)
    (hreturns : more = L.returns e) : L.step (held + more) e = held := by
  rw [Lease.step, htakes, ← hreturns, add_tsub_cancel_right, Multiset.coe_nil, add_zero]

/-- The invariant rule for bounded loops. -/
theorem leased_loop {body : τ → Program F (τ ⊕ α)} {Q : Option α → Multiset ι → Prop}
    (I : τ → Multiset ι → Prop) (hzero : ∀ t held, I t held → Q none held)
    (hstep : ∀ t held, I t held → Leased L (body t) (fun x held' =>
      match x with
      | .inl t' => I t' held'
      | .inr a => Q (some a) held') held)
    (n : Nat) (hi : I t held) : Leased L (Program.loop body n t) Q held := by
  induction n generalizing t held with
  | zero => exact leased_pure (hzero t held hi)
  | succ n ih =>
    refine leased_bind (hstep t held hi) ?_
    rintro (t' | a) held' hx
    · exact ih hx
    · exact leased_pure hx

theorem Leased.recorded {Q : α → Multiset ι → Prop} {R : α → List (Event F) → Prop}
    {C : Event F → Prop} {p : Program F α} (h : Leased L p Q held) (hC : ∀ e, C e)
    (hR : Ensures (recording C) p R []) :
    Leased L p (fun a held' => Q a held' ∧ ∃ t, R a t) held := by
  intro s' a he
  obtain ⟨held', hs, hQ⟩ := h s' a he
  obtain ⟨t, hexec⟩ := exec_recorded (fun _ _ _ _ _ => hC _) he []
  exact ⟨held', hs, hQ, t, hR _ _ hexec⟩

/-- What a program gives with what it needs in hand, it gives wherever it runs. -/
theorem Leased.anywhere {Q : α → Multiset ι → Prop} {H : Environment F σ} {p : Program F α}
    (h : Leased L p Q held) (he : Exec H s p s' a) : ∃ held', Q a held' := by
  have hreplay : ∀ t, ∃ t', Exec (leasing L) t p t' a := by
    clear h
    induction he with
    | pure s a => exact fun t => ⟨t, .pure t a⟩
    | call _ _ ih =>
      intro t
      obtain ⟨t', hexec⟩ := ih _
      exact ⟨t', .call rfl hexec⟩
  obtain ⟨t', hexec⟩ := hreplay (some held)
  obtain ⟨held', -, ha⟩ := h _ _ hexec
  exact ⟨held', ha⟩

/-- A program whose calls are carried out by programs that keep what is in hand. -/
theorem leased_implement {P : E.Op → Prop} {Q : α → Prop} {p : Program E α} (hp : Performs P Q p)
    {f : τ → (op : E.Op) → Program F (Option (E.Ans op × τ))} (I : τ → Multiset ι → Prop)
    (h : ∀ t held op, P op → I t held → Leased L (f t op)
      (fun x held' => ∀ r t', x = some (r, t') → I t' held') held) (hi : I t held) :
    Leased L (p.implement f t)
      (fun x held' => ∀ a t', x = some (a, t') → Q a ∧ I t' held') held := by
  refine (hp.ensures_implement (fun t s => ∃ held, s = some held ∧ I t held)
    (fun s => ∃ held, s = some held) ?_ ⟨held, rfl, hi⟩).mono ?_
  · rintro t _ op hop ⟨held, rfl, hi⟩
    refine Ensures.mono (h t held op hop hi) ?_
    rintro (_ | ⟨r, t'⟩) s' ⟨held', hs, hx⟩
    · exact ⟨held', hs⟩
    · exact ⟨held', hs, hx r t' rfl⟩
  · rintro (_ | ⟨a, t'⟩) s' hx
    · obtain ⟨held', hs⟩ := hx
      exact ⟨held', hs, fun _ _ h => absurd h.symm (Option.some_ne_none _)⟩
    · obtain ⟨ha, held', hs, hi'⟩ := hx
      refine ⟨held', hs, ?_⟩
      rintro _ _ ⟨⟩
      exact ⟨ha, hi'⟩

theorem leased_lift {M : Lease E ι} {inj : E.Op → F.Op} {ans : ∀ op, F.Ans (inj op) → E.Ans op}
    (hneeds : ∀ op, L.needs (inj op) = M.needs op)
    (hstep : ∀ op r held, L.step held ⟨inj op, r⟩ = M.step held ⟨op, ans op r⟩)
    {p : Program E α} {Q : α → Multiset ι → Prop} (h : Leased M p Q held) :
    Leased L (p.lift inj ans) Q held := by
  refine ensures_lift ?_ h
  rintro s op r _ rfl
  exact congrArg (Option.bind s) (funext fun held => by rw [hneeds, hstep])

end Leases

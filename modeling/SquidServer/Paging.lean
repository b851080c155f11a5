import SquidServer.Interaction

namespace Paging
open Interaction
set_option autoImplicit true

/-- One page of a list that is read in pages: its entries and, unless it is the last one, the
cursor to ask for the next page with. -/
structure Answer (ρ : Type) where
  entries : List ρ
  next : Option Nat
deriving DecidableEq

/-- The pages of a list of items, each of which may have any number of entries. A cursor counts
items. -/
def PageOf (items : List (List ρ)) (cursor : Nat) (answer : Answer ρ) : Prop :=
  match answer.next with
  | none => answer.entries = (items.drop cursor).flatten
  | some n => cursor < n ∧ n < items.length ∧
      answer.entries = ((items.drop cursor).take (n - cursor)).flatten

/-- What a reader has: the state of the other side, the cursor of the next page, and the
entries of the pages so far. -/
structure Reader (σ ρ : Type) where
  state : σ
  cursor : Nat
  entries : List ρ

variable {E : Effect} {σ τ ρ : Type}

/-- Ask for one page; `none` stands for an answer that is not a page. -/
def readPage (ask : σ → Nat → Program E (Option (Answer ρ) × σ)) (r : Reader σ ρ) :
    Program E (Reader σ ρ ⊕ Option (List ρ)) := do
  let (answer, state) ← ask r.state r.cursor
  match answer with
  | none => return .inr none
  | some answer =>
    match answer.next with
    | none => return .inr (some (r.entries ++ answer.entries))
    | some n => return .inl ⟨state, n, r.entries ++ answer.entries⟩

/-- Ask for page after page from the start, at most `fuel` pages; `none` when this is not
enough. -/
def traverse (ask : σ → Nat → Program E (Option (Answer ρ) × σ)) (fuel : Nat) (state : σ) :
    Program E (Option (Option (List ρ))) :=
  Program.loop (readPage ask) fuel ⟨state, 0, []⟩

theorem take_flatten_append (items : List (List ρ)) (h : c < n) :
    (items.take c).flatten ++ ((items.drop c).take (n - c)).flatten = (items.take n).flatten := by
  have hsplit := List.take_append_drop c (items.take n)
  rw [List.take_take, Nat.min_eq_left (Nat.le_of_lt h), List.drop_take] at hsplit
  rw [← hsplit, List.flatten_append]

/-- If every answer is a page of the list, reading page after page gives the whole list, each
entry once and in order, after at most one page for each item and one more. What the answers keep
holds at the end. -/
theorem traverse_keeps {H : Environment E τ} {items : List (List ρ)}
    {ask : σ → Nat → Program E (Option (Answer ρ) × σ)} (I : σ → τ → Prop)
    (hask : ∀ s t c, I s t → c = 0 ∨ c < items.length → Ensures H (ask s c)
      (fun r t' => I r.2 t' ∧ ∃ answer, r.1 = some answer ∧ PageOf items c answer) t)
    (hi : I s t) (hfuel : items.length < fuel) :
    Ensures H (traverse ask fuel s)
      (fun r t' => r = some (some items.flatten) ∧ ∃ s', I s' t') t := by
  -- The reader has the entries of all items before the cursor, and fuel for those behind it.
  refine ensures_loop (fun n (r : Reader σ ρ) t' => I r.state t' ∧
    (r.cursor = 0 ∨ r.cursor < items.length) ∧ items.length - r.cursor < n ∧
    r.entries = (items.take r.cursor).flatten) ?_ ?_ ⟨hi, .inl rfl, hfuel, rfl⟩
  · intro r t' h
    exact absurd h.2.2.1 (Nat.not_lt_zero _)
  · intro n r t' h
    obtain ⟨hi, hcursor, hn, hentries⟩ := h
    refine ensures_bind.2 ((hask r.state t' r.cursor hi hcursor).mono ?_)
    rintro ⟨answer, state⟩ t'' ⟨hi'', a, ha, hpage⟩
    dsimp only at hi'' ha ⊢
    subst ha
    rw [PageOf] at hpage
    cases hnext : a.next with
    | none =>
      rw [hnext] at hpage
      simp only [hnext, Program.pure_eq, ensures_pure]
      rw [hentries, hpage, ← List.flatten_append, List.take_append_drop]
      exact ⟨rfl, state, hi''⟩
    | some m =>
      rw [hnext] at hpage
      obtain ⟨hlt, hinside, hpage⟩ := hpage
      simp only [hnext, Program.pure_eq, ensures_pure]
      refine ⟨hi'', .inr hinside, by omega, ?_⟩
      rw [hentries, hpage, take_flatten_append items hlt]

theorem traverse_ensures {H : Environment E τ} {items : List (List ρ)}
    {ask : σ → Nat → Program E (Option (Answer ρ) × σ)} (I : σ → τ → Prop)
    (hask : ∀ s t c, I s t → c = 0 ∨ c < items.length → Ensures H (ask s c)
      (fun r t' => I r.2 t' ∧ ∃ answer, r.1 = some answer ∧ PageOf items c answer) t)
    (hi : I s t) (hfuel : items.length < fuel) :
    Ensures H (traverse ask fuel s) (fun r _ => r = some (some items.flatten)) t :=
  (traverse_keeps I hask hi hfuel).mono fun _ _ h => h.1

end Paging

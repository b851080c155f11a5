import SquidServer.Interaction
import Mathlib.Data.List.DropRight

namespace Loads
open Interaction
set_option autoImplicit true

/-- The effect of loading a byte from its address. -/
abbrev Loading : Effect := ⟨Nat, fun _ => UInt8⟩

/-- The bytes of an address space. -/
abbrev Memory := Nat → UInt8

def load (address : Nat) : Program Loading UInt8 := .ask address

/-- A memory answers with its bytes, and the addresses are written down. -/
def answer (memory : Memory) (loads : List Nat) (address : Nat) : UInt8 × List Nat :=
  (memory address, loads ++ [address])

def result (memory : Memory) (p : Program Loading α) : α := (p.run (answer memory) []).1

/-- The addresses that a program loads from, in order. -/
def addresses (memory : Memory) (p : Program Loading α) : List Nat :=
  (p.run (answer memory) []).2

section
variable {memory : Memory} {α β : Type}

theorem run_answer (memory : Memory) (p : Program Loading α) (loads : List Nat) :
    p.run (answer memory) loads = (result memory p, loads ++ addresses memory p) := by
  induction p generalizing loads with
  | pure a => rw [Program.run_pure, addresses, Program.run_pure, List.append_nil, result,
      Program.run_pure]
  | call address k ih =>
    have hrun (loads : List Nat) : (Program.call address k).run (answer memory) loads =
        (result memory (k (memory address)), loads ++ [address] ++
          addresses memory (k (memory address))) := ih (memory address) (loads ++ [address])
    rw [hrun]
    change _ = (((Program.call address k).run (answer memory) []).1,
      loads ++ ((Program.call address k).run (answer memory) []).2)
    rw [hrun, List.nil_append, List.append_assoc]

@[simp] theorem result_pure (a : α) : result memory (.pure a) = a := rfl

@[simp] theorem addresses_pure (a : α) : addresses memory (.pure a) = [] := rfl

@[simp] theorem result_bind (p : Program Loading α) (f : α → Program Loading β) :
    result memory (p.bind f) = result memory (f (result memory p)) := by
  rw [result, Program.run_bind, run_answer memory p, run_answer]

@[simp] theorem addresses_bind (p : Program Loading α) (f : α → Program Loading β) :
    addresses memory (p.bind f) =
      addresses memory p ++ addresses memory (f (result memory p)) := by
  rw [addresses, Program.run_bind, run_answer memory p, run_answer, List.nil_append]

@[simp] theorem result_load (address : Nat) : result memory (load address) = memory address := rfl

@[simp] theorem addresses_load (address : Nat) : addresses memory (load address) = [address] := rfl

/-- A program loads only from the addresses from `start` to before `stop`, and what it returns
satisfies `Q`. -/
def Within (memory : Memory) (start stop : Nat) (p : Program Loading α) (Q : α → Prop) : Prop :=
  (∀ address ∈ addresses memory p, start ≤ address ∧ address < stop) ∧ Q (result memory p)

variable {start stop : Nat} {p : Program Loading α} {f : α → Program Loading β} {Q R : α → Prop}

@[simp] theorem within_pure {a : α} : Within memory start stop (.pure a) Q ↔ Q a := by
  simp [Within]

theorem within_load {Q : UInt8 → Prop} :
    Within memory start stop (load address) Q ↔
      (start ≤ address ∧ address < stop) ∧ Q (memory address) := by
  simp [Within]

theorem within_bind {Q : β → Prop} : Within memory start stop (p.bind f) Q ↔
    Within memory start stop p fun a => Within memory start stop (f a) Q := by
  rw [Within, addresses_bind, result_bind]
  constructor
  · intro h
    obtain ⟨haddresses, hQ⟩ := h
    exact ⟨fun address h => haddresses address (List.mem_append_left _ h),
      fun address h => haddresses address (List.mem_append_right _ h), hQ⟩
  · intro h
    obtain ⟨hfirst, hsecond, hQ⟩ := h
    refine ⟨?_, hQ⟩
    intro address haddress
    rcases List.mem_append.1 haddress with hmem | hmem
    · exact hfirst address hmem
    · exact hsecond address hmem

theorem Within.mono (h : Within memory start stop p Q) (hQ : ∀ a, Q a → R a) :
    Within memory start stop p R :=
  ⟨h.1, hQ _ h.2⟩

theorem Within.widen (h : Within memory start stop p Q) (hstart : start' ≤ start)
    (hstop : stop ≤ stop') : Within memory start' stop' p Q := by
  refine ⟨fun address haddress => ?_, h.2⟩
  have hbounds := h.1 address haddress
  omega

/-- The invariant rule for bounded loops. -/
theorem within_loop {σ : Type} {body : σ → Program Loading (σ ⊕ α)} {Q : Option α → Prop} {s : σ}
    (I : Nat → σ → Prop) (hzero : ∀ s, I 0 s → Q none)
    (hstep : ∀ n s, I (n + 1) s → Within memory start stop (body s) (fun x =>
      (∀ s', x = .inl s' → I n s') ∧ ∀ a, x = .inr a → Q (some a)))
    (hi : I n s) : Within memory start stop (Program.loop body n s) Q := by
  induction n generalizing s with
  | zero => exact within_pure.2 (hzero s hi)
  | succ n ih =>
    refine within_bind.2 ((hstep n s hi).mono ?_)
    intro x hx
    cases x with
    | inl s' => exact ih (hx.1 s' rfl)
    | inr a => exact within_pure.2 (hx.2 a rfl)

/-- The bytes from `start` to before `stop`. -/
def bytesBetween (memory : Memory) (start stop : Nat) : List UInt8 :=
  (List.range' start (stop - start)).map memory

@[simp] theorem length_bytesBetween : (bytesBetween memory start stop).length = stop - start := by
  simp [bytesBetween]

theorem bytesBetween_cons (h : start < stop) :
    bytesBetween memory start stop = memory start :: bytesBetween memory (start + 1) stop := by
  rw [bytesBetween, show stop - start = (stop - (start + 1)) + 1 by omega, List.range'_succ]
  rfl

theorem bytesBetween_nil (h : stop ≤ start) : bytesBetween memory start stop = [] :=
  List.eq_nil_of_length_eq_zero (by rw [length_bytesBetween]; omega)

theorem bytesBetween_append (h : start ≤ middle) (h' : middle ≤ stop) :
    bytesBetween memory start stop =
      bytesBetween memory start middle ++ bytesBetween memory middle stop := by
  simp only [bytesBetween, ← List.map_append]
  have hsplit := List.range'_append_1 (s := start) (m := middle - start) (n := stop - middle)
  rw [show start + (middle - start) = middle by omega,
    show middle - start + (stop - middle) = stop - start by omega] at hsplit
  rw [hsplit]

theorem take_bytesBetween (h : start + n ≤ stop) :
    (bytesBetween memory start stop).take n = bytesBetween memory start (start + n) := by
  rw [bytesBetween_append (Nat.le_add_right start n) h, List.take_left' (by simp)]

theorem drop_bytesBetween (h : start + n ≤ stop) :
    (bytesBetween memory start stop).drop n = bytesBetween memory (start + n) stop := by
  rw [bytesBetween_append (Nat.le_add_right start n) h, List.drop_left' (by simp)]

theorem getElem_bytesBetween (h : i < (bytesBetween memory start stop).length) :
    (bytesBetween memory start stop)[i] = memory (start + i) := by
  simp [bytesBetween]

end

/-- The next `n` bytes, one after the other. -/
def loadBytes : Nat → Nat → Program Loading (List UInt8)
  | 0, _ => return []
  | n + 1, address => do
    let c ← load address
    let rest ← loadBytes n (address + 1)
    return c :: rest

theorem within_loadBytes {memory : Memory} {Q : List UInt8 → Prop} (hlow : low ≤ address)
    (hstop : address + n ≤ stop) (h : Q (bytesBetween memory address (address + n))) :
    Within memory low stop (loadBytes n address) Q := by
  induction n generalizing address Q with
  | zero =>
    rw [Nat.add_zero, bytesBetween_nil (Nat.le_refl _)] at h
    exact within_pure.2 h
  | succ n ih =>
    rw [bytesBetween_cons (by omega)] at h
    refine within_bind.2 (within_load.2 ⟨by omega, within_bind.2 ?_⟩)
    apply ih (by omega) (by omega)
    rw [Nat.add_right_comm]
    exact within_pure.2 h

/-- The first address before `stop` whose byte does not satisfy `p`. -/
def skipWhile (p : UInt8 → Bool) (stop cursor : Nat) : Program Loading Nat :=
  if cursor < stop then do
    if p (← load cursor) then skipWhile p stop (cursor + 1) else return cursor
  else return cursor
termination_by stop - cursor

theorem within_skipWhile {memory : Memory} {p : UInt8 → Bool} {Q : Nat → Prop}
    (hlow : low ≤ cursor) (hle : cursor ≤ stop)
    (h : ∀ next, cursor ≤ next → next ≤ stop →
      (bytesBetween memory cursor stop).dropWhile p = bytesBetween memory next stop → Q next) :
    Within memory low stop (skipWhile p stop cursor) Q := by
  induction hn : stop - cursor generalizing cursor with
  | zero =>
    rw [skipWhile, if_neg (by omega)]
    refine within_pure.2 (h cursor (Nat.le_refl _) hle ?_)
    rw [bytesBetween_nil (by omega)]
    rfl
  | succ n ih =>
    have hlt : cursor < stop := by omega
    rw [skipWhile, if_pos hlt]
    refine within_bind.2 (within_load.2 ⟨⟨hlow, hlt⟩, ?_⟩)
    rw [bytesBetween_cons hlt] at h
    split
    · rename_i hp
      refine ih (by omega) (by omega) ?_ (by omega)
      intro next hnext hstop hskip
      apply h next (by omega) hstop
      rw [List.dropWhile_cons_of_pos hp]
      exact hskip
    · rename_i hp
      refine within_pure.2 (h cursor (Nat.le_refl _) hle ?_)
      rw [List.dropWhile_cons_of_neg hp, bytesBetween_cons hlt]

/-- The first address from the cursor on whose byte does not satisfy `p`, with a bound on the turns
of the loop; `none` when the bound is used up. -/
def scanWhile (p : UInt8 → Bool) : Nat → Nat → Program Loading (Option Nat)
  | 0, _ => return none
  | n + 1, cursor => do
    if p (← load cursor) then scanWhile p n (cursor + 1) else return some cursor

theorem within_scanWhile {memory : Memory} {p : UInt8 → Bool} {Q : Option Nat → Prop}
    (hend : p (memory stop) = false) (hlow : low ≤ cursor) (hle : cursor ≤ stop)
    (hn : stop - cursor < n)
    (h : ∀ next, cursor ≤ next → next ≤ stop →
      (bytesBetween memory cursor stop).dropWhile p = bytesBetween memory next stop →
      Q (some next)) :
    Within memory low (stop + 1) (scanWhile p n cursor) Q := by
  induction n generalizing cursor with
  | zero => exact absurd hn (Nat.not_lt_zero _)
  | succ n ih =>
    refine within_bind.2 (within_load.2 ⟨by omega, ?_⟩)
    split
    · rename_i hp
      have hlt : cursor < stop := by
        apply Nat.lt_of_le_of_ne hle
        rintro rfl
        rw [hend] at hp
        cases hp
      rw [bytesBetween_cons hlt] at h
      refine ih (by omega) (by omega) (by omega) ?_
      intro next hnext hstop hskip
      apply h next (by omega) hstop
      rw [List.dropWhile_cons_of_pos hp]
      exact hskip
    · rename_i hp
      refine within_pure.2 (h cursor (Nat.le_refl _) hle ?_)
      by_cases hlt : cursor < stop
      · rw [bytesBetween_cons hlt, List.dropWhile_cons_of_neg hp]
      · rw [bytesBetween_nil (Nat.le_of_not_lt hlt)]
        rfl

theorem scan_split {memory : Memory} {p : UInt8 → Bool} (hstart : start ≤ next)
    (hstop : next ≤ stop)
    (h : (bytesBetween memory start stop).dropWhile p = bytesBetween memory next stop) :
    (bytesBetween memory start stop).takeWhile p = bytesBetween memory start next ∧
      ∀ cursor, start ≤ cursor → cursor ≤ next →
        (bytesBetween memory cursor stop).dropWhile p = bytesBetween memory next stop := by
  have hpassed : (bytesBetween memory start stop).takeWhile p = bytesBetween memory start next := by
    have hsplit := List.takeWhile_append_dropWhile (p := p) (l := bytesBetween memory start stop)
    rw [h] at hsplit
    exact List.append_cancel_right (hsplit.trans (bytesBetween_append hstart hstop))
  refine ⟨hpassed, ?_⟩
  intro cursor hcursor hnext
  have hall : ∀ c ∈ bytesBetween memory cursor next, p c = true := by
    intro c hc
    have hmem : c ∈ bytesBetween memory start next := by
      rw [bytesBetween_append hcursor hnext]
      exact List.mem_append_right _ hc
    rw [← hpassed] at hmem
    exact List.mem_takeWhile_imp hmem
  rw [bytesBetween_append hnext hstop, List.dropWhile_append_of_pos hall, ← h]
  exact List.dropWhile_idempotent p _

/-- The address behind the last byte of so many that does not satisfy `p`. -/
def scanBack (p : UInt8 → Bool) (start : Nat) : Nat → Program Loading Nat
  | 0 => return start
  | n + 1 => do
    if p (← load (start + n)) then scanBack p start n else return start + n + 1

theorem within_scanBack {memory : Memory} {p : UInt8 → Bool} {Q : Nat → Prop} (hlow : low ≤ start)
    (hstop : start + n ≤ stop)
    (h : ∀ next, start ≤ next → next ≤ start + n → bytesBetween memory start next =
      ((bytesBetween memory start (start + n)).reverse.dropWhile p).reverse → Q next) :
    Within memory low stop (scanBack p start n) Q := by
  induction n with
  | zero =>
    refine within_pure.2 (h start (Nat.le_refl _) (Nat.le_refl _) ?_)
    rw [Nat.add_zero, bytesBetween_nil (Nat.le_refl _)]
    rfl
  | succ n ih =>
    have hlast : bytesBetween memory start (start + (n + 1)) =
        bytesBetween memory start (start + n) ++ [memory (start + n)] := by
      rw [bytesBetween_append (Nat.le_add_right start n) (by omega),
        bytesBetween_cons (show start + n < start + (n + 1) by omega),
        bytesBetween_nil (show start + (n + 1) ≤ start + n + 1 by omega)]
    rw [hlast, List.reverse_append, List.reverse_singleton, List.singleton_append] at h
    refine within_bind.2 (within_load.2 ⟨by omega, ?_⟩)
    split
    · rename_i hp
      rw [List.dropWhile_cons_of_pos hp] at h
      exact ih (by omega) fun next hnext hle hbytes => h next hnext (by omega) hbytes
    · rename_i hp
      rw [List.dropWhile_cons_of_neg hp, List.reverse_cons, List.reverse_reverse, ← hlast] at h
      exact within_pure.2 (h (start + n + 1) (by omega) (Nat.le_refl _) rfl)

end Loads

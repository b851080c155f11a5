import Mathlib.Algebra.Group.Nat.Defs
import SquidServer.Loads

namespace Stores
open Interaction Loads
set_option autoImplicit true

/-- What a program that fills a buffer does: it stores a byte at an address, and it takes one
unsigned size from another. -/
inductive Op where
  | store (address : Nat) (byte : UInt8)
  | subtract (a b : Nat)

def Op.Ans : Op → Type
  | .store _ _ => Unit
  | .subtract _ _ => Nat

/-- The effect of storing bytes and subtracting sizes. -/
abbrev Storing : Effect := ⟨Op, Op.Ans⟩

def store (address : Nat) (byte : UInt8) : Program Storing Unit :=
  .ask (E := Storing) (Op.store address byte)

def subtract (a b : Nat) : Program Storing Nat :=
  .ask (E := Storing) (Op.subtract a b)

/-- The bytes one after the other, from an address on. -/
def storeBytes : Nat → List UInt8 → Program Storing Unit
  | _, [] => return ()
  | address, c :: bytes => do
    store address c
    storeBytes (address + 1) bytes

/-- A memory with other bytes from an address on. -/
def place (memory : Memory) (start : Nat) (bytes : List UInt8) : Memory := fun address =>
  if start ≤ address then bytes.getD (address - start) (memory address) else memory address

/-- What an operation answers, and the memory after it; a difference below zero wraps around. -/
def perform (memory : Memory) : (op : Op) → op.Ans × Memory
  | .store address byte => ((), place memory address [byte])
  | .subtract a b => (if b ≤ a then a - b else a + 2 ^ 64 - b, memory)

/-- A store is to one of the addresses from `start` to before `stop`, and no difference wraps. -/
def Allowed (start stop : Nat) : Op → Prop
  | .store address _ => start ≤ address ∧ address < stop
  | .subtract a b => b ≤ a

/-- A program makes only stores and subtractions that are allowed, and what it returns and leaves
satisfies `Q`. -/
def Keeps (start stop : Nat) : Program Storing α → (α → Memory → Prop) → Memory → Prop
  | .pure a, Q, memory => Q a memory
  | .call op k, Q, memory =>
    Allowed start stop op ∧ Keeps start stop (k (perform memory op).1) Q (perform memory op).2

section
variable {memory : Memory} {start stop : Nat} {α β : Type} {p : Program Storing α}
  {f : α → Program Storing β}

@[simp] theorem keeps_pure {Q : α → Memory → Prop} :
    Keeps start stop (.pure a) Q memory ↔ Q a memory := Iff.rfl

theorem keeps_bind {Q : β → Memory → Prop} : Keeps start stop (p.bind f) Q memory ↔
    Keeps start stop p (fun a => Keeps start stop (f a) Q) memory := by
  induction p generalizing memory with
  | pure a => exact Iff.rfl
  | call op k ih => exact and_congr_right fun _ => ih _

theorem Keeps.mono {Q R : α → Memory → Prop} (h : Keeps start stop p Q memory)
    (hQ : ∀ a memory, Q a memory → R a memory) : Keeps start stop p R memory := by
  induction p generalizing memory with
  | pure a => exact hQ a memory h
  | call op k ih => exact ⟨h.1, ih _ h.2⟩

theorem Keeps.widen {Q : α → Memory → Prop} (h : Keeps start stop p Q memory)
    (hstart : start' ≤ start) (hstop : stop ≤ stop') : Keeps start' stop' p Q memory := by
  induction p generalizing memory with
  | pure a => exact h
  | call op k ih =>
    refine ⟨?_, ih _ h.2⟩
    have hallowed := h.1
    cases op with
    | store address byte =>
      obtain ⟨hlow, hhigh⟩ := hallowed
      exact ⟨Nat.le_trans hstart hlow, Nat.lt_of_lt_of_le hhigh hstop⟩
    | subtract a b => exact hallowed

theorem keeps_store {Q : Unit → Memory → Prop} : Keeps start stop (store address byte) Q memory ↔
    (start ≤ address ∧ address < stop) ∧ Q () (place memory address [byte]) := Iff.rfl

theorem keeps_subtract {Q : Nat → Memory → Prop} (h : b ≤ a) :
    Keeps start stop (subtract a b) Q memory ↔ Q (a - b) memory := by
  change b ≤ a ∧ Q (if b ≤ a then a - b else a + 2 ^ 64 - b) memory ↔ _
  rw [if_pos h]
  exact and_iff_right h

theorem place_nil : place memory start [] = memory := by
  funext address
  simp [place]

theorem place_place (first second : List UInt8) (h : next = start + first.length) :
    place (place memory start first) next second = place memory start (first ++ second) := by
  subst h
  funext address
  simp only [place, List.getD_eq_getElem?_getD, List.getElem?_append]
  by_cases hsecond : start + first.length ≤ address
  · have hfirst : first[address - start]? = none := List.getElem?_eq_none (by omega)
    rw [if_pos hsecond, if_pos (by omega), if_pos (by omega), if_neg (by omega), hfirst,
      Nat.sub_add_eq]
    rfl
  · rw [if_neg hsecond]
    split
    · rw [if_pos (by omega)]
    · rfl

theorem place_before (h : address < start) : place memory start bytes address = memory address := by
  rw [place, if_neg (Nat.not_le.2 h)]

theorem place_behind (h : start + bytes.length ≤ address) :
    place memory start bytes address = memory address := by
  rw [place, List.getD_eq_getElem?_getD, List.getElem?_eq_none (by omega)]
  exact ite_self _

theorem place_congr {memory' : Memory} (h : memory address = memory' address) :
    place memory start bytes address = place memory' start bytes address := by
  rw [place, place, h]

theorem place_add (h : i < bytes.length) : place memory start bytes (start + i) = bytes[i] := by
  rw [place, if_pos (Nat.le_add_right start i), Nat.add_sub_cancel_left,
    List.getD_eq_getElem?_getD, List.getElem?_eq_getElem h]
  rfl

theorem place_between (first second : List UInt8) (h : middle = start + first.length) :
    place (place (place memory start first) (middle + 1) second) middle [byte] =
      place memory start (first ++ byte :: second) := by
  have hfill : place memory start (first ++ byte :: second) =
      place (place (place memory start first) middle [byte]) (middle + 1) second := by
    rw [place_place first [byte] h, place_place _ second (by simp [h]; omega), List.append_assoc]
    rfl
  rw [hfill]
  generalize place memory start first = memory
  funext address
  by_cases hhere : address = middle
  · subst hhere
    have hbyte : ∀ memory, place memory address [byte] address = byte := by
      intro memory
      simp [place]
    rw [hbyte, place_before (Nat.lt_succ_self _), hbyte]
  · have hother : ∀ memory, place memory middle [byte] address = memory address := by
      intro memory
      by_cases hbefore : address < middle
      · exact place_before hbefore
      · exact place_behind (by simp; omega)
    rw [hother]
    exact place_congr (hother memory).symm

theorem keeps_storeBytes {Q : Unit → Memory → Prop} (hlow : start ≤ address)
    (hstop : address + bytes.length ≤ stop) (h : Q () (place memory address bytes)) :
    Keeps start stop (storeBytes address bytes) Q memory := by
  induction bytes generalizing address memory with
  | nil =>
    rw [place_nil] at h
    exact h
  | cons c bytes ih =>
    rw [List.length_cons] at hstop
    refine keeps_bind.2 (keeps_store.2 ⟨⟨hlow, by omega⟩, ih (by omega) (by omega) ?_⟩)
    have hplace : place (place memory address [c]) (address + 1) bytes =
        place memory address (c :: bytes) := place_place [c] bytes rfl
    rw [hplace]
    exact h

end

end Stores

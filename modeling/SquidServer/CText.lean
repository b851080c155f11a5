import Mathlib.Data.Nat.Find
import Mathlib.Data.List.Basic
import Mathlib.Data.List.TakeWhile
import Mathlib.Tactic.Common
import Mathlib.Algebra.Group.Nat.Defs
import Mathlib.Algebra.Group.Int.Defs

namespace CText
set_option autoImplicit true

/-- A C string, as the bytes before its terminating NUL. -/
structure CString where
  bytes : List UInt8
  nulFree : 0 ∉ bytes
deriving DecidableEq

/-- The C string that starts where the given bytes start. -/
def CString.ofBytes (bytes : List UInt8) : CString where
  bytes := bytes.takeWhile (· ≠ 0)
  nulFree := by
    intro h
    exact absurd (List.mem_takeWhile_imp h) (by decide)

def CString.empty : CString := ⟨[], List.not_mem_nil⟩

/-- The bytes of a text literal without characters above U+007F. -/
def ascii (text : String) : List UInt8 := text.toList.map fun c => UInt8.ofNat c.toNat

-- The character classes of the C locale.

def isSpace (c : UInt8) : Bool := c = 0x20 ∨ 0x09 ≤ c ∧ c ≤ 0x0D

def isDigit (c : UInt8) : Bool := 0x30 ≤ c ∧ c ≤ 0x39

def isXDigit (c : UInt8) : Bool := isDigit c ∨ 0x41 ≤ c ∧ c ≤ 0x46 ∨ 0x61 ≤ c ∧ c ≤ 0x66

def toLower (c : UInt8) : UInt8 := if 0x41 ≤ c ∧ c ≤ 0x5A then c + 0x20 else c

/-- A text with the difference between upper and lower case taken away. -/
def foldCase (text : List UInt8) : List UInt8 := text.map toLower

@[simp] theorem length_foldCase (text : List UInt8) : (foldCase text).length = text.length :=
  List.length_map _

def textEqualsCaseInsensitive (left right : List UInt8) : Bool :=
  left.length = right.length ∧
    (left.zip right).all fun characters => toLower characters.1 = toLower characters.2

theorem textEqualsCaseInsensitive_iff :
    textEqualsCaseInsensitive left right = true ↔ foldCase left = foldCase right := by
  rw [textEqualsCaseInsensitive, decide_eq_true_iff]
  induction left generalizing right with
  | nil => cases right <;> simp [foldCase]
  | cons l left ih =>
    cases right with
    | nil => simp [foldCase]
    | cons r right =>
      have ih := @ih right
      simp only [foldCase, List.map_cons, List.cons.injEq, List.length_cons,
        Nat.add_right_cancel_iff, List.zip_cons_cons, List.all_cons, Bool.and_eq_true,
        decide_eq_true_eq] at ih ⊢
      rw [← ih]
      exact and_left_comm

/-- The bytes of a UTF-8 character after its first one. -/
def isContinuation (c : UInt8) : Bool := c &&& 0xC0 = 0x80

/-- Cutting a text after `n` bytes splits no character. -/
def Boundary (text : List UInt8) (n : Nat) : Prop :=
  n = 0 ∨ n = text.length ∨ n < text.length ∧ isContinuation (text.getD n 0) = false

instance (text : List UInt8) : DecidablePred (Boundary text) := fun n =>
  inferInstanceAs (Decidable (n = 0 ∨ n = text.length ∨
    n < text.length ∧ isContinuation (text.getD n 0) = false))

/-- The longest prefix of at most `limit` bytes that splits no character. -/
def longestPrefix (text : List UInt8) (limit : Nat) : List UInt8 :=
  text.take (Nat.findGreatest (Boundary text) limit)

/-- Step back from `n` to the start of the character that stands there. -/
def stepBack (text : List UInt8) : Nat → Nat
  | 0 => 0
  | n + 1 => if isContinuation (text.getD (n + 1) 0) then stepBack text n else n + 1

/-- Cut a text down to `limit` bytes, and further to the start of a character. -/
def shorten (text : List UInt8) (limit : Nat) : Nat :=
  if limit < text.length then stepBack text limit else text.length

theorem stepBack_eq_findGreatest (h : n < text.length) :
    stepBack text n = Nat.findGreatest (Boundary text) n := by
  induction n with
  | zero => rfl
  | succ n ih =>
    rw [stepBack, Nat.findGreatest_succ, ih (Nat.lt_of_succ_lt h)]
    cases hc : isContinuation (text.getD (n + 1) 0) with
    | true =>
      have hnot : ¬ Boundary text (n + 1) := by
        intro hb
        rcases hb with hb | hb | hb
        · cases hb
        · omega
        · cases hc.symm.trans hb.2
      rw [if_pos rfl, if_neg hnot]
    | false =>
      rw [if_neg Bool.false_ne_true, if_pos (.inr (.inr ⟨h, hc⟩))]

theorem take_shorten (text : List UInt8) (limit : Nat) :
    text.take (shorten text limit) = longestPrefix text limit := by
  rw [shorten, longestPrefix]
  split
  · rename_i h
    rw [stepBack_eq_findGreatest h]
  · rename_i h
    have hle : text.length ≤ Nat.findGreatest (Boundary text) limit :=
      Nat.le_findGreatest (Nat.le_of_not_lt h) (.inr (.inl rfl))
    rw [List.take_length, List.take_of_length_le hle]

theorem stepBack_length (text : List UInt8) : stepBack text text.length = text.length := by
  cases hn : text.length with
  | zero => rfl
  | succ n =>
    have hend : text.getD (n + 1) 0 = 0 := by
      rw [List.getD_eq_getElem?_getD, List.getElem?_eq_none (Nat.le_of_eq hn)]
      rfl
    rw [stepBack, hend, if_neg (by decide)]

theorem take_stepBack_min (text : List UInt8) (limit : Nat) :
    text.take (stepBack text (min text.length limit)) = longestPrefix text limit := by
  rw [← take_shorten, shorten]
  split
  · rename_i h
    rw [Nat.min_eq_right (Nat.le_of_lt h)]
  · rename_i h
    rw [Nat.min_eq_left (Nat.le_of_not_lt h), stepBack_length]

theorem longestPrefix_of_length_le (h : text.length ≤ limit) : longestPrefix text limit = text := by
  rw [← take_shorten, shorten, if_neg (Nat.not_lt.2 h), List.take_length]

theorem length_longestPrefix_le (text : List UInt8) (limit : Nat) :
    (longestPrefix text limit).length ≤ limit := by
  rw [longestPrefix, List.length_take]
  exact (Nat.min_le_left _ _).trans (Nat.findGreatest_le limit)

theorem stepBack_le (text : List UInt8) (n : Nat) : stepBack text n ≤ n := by
  induction n with
  | zero => exact Nat.le_refl 0
  | succ n ih =>
    rw [stepBack]
    split
    · exact Nat.le_succ_of_le ih
    · exact Nat.le_refl _

theorem shorten_le (text : List UInt8) (limit : Nat) : shorten text limit ≤ limit := by
  rw [shorten]
  split
  · exact stepBack_le text limit
  · omega

theorem shorten_le_length (text : List UInt8) (limit : Nat) :
    shorten text limit ≤ text.length := by
  rw [shorten]
  split
  · have := stepBack_le text limit
    omega
  · exact Nat.le_refl _

end CText

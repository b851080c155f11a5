import Mathlib.Data.List.Basic
import Mathlib.Data.Nat.ModEq
import Mathlib.Tactic.Common

namespace RingBuffer
set_option autoImplicit true

variable {n : Nat}

theorem get_set (cells : Vector α n) (i j : Fin n) (a : α) :
    (cells.set i.val a i.isLt).get j = if i = j then a else cells.get j := by
  change (cells.set i.val a i.isLt)[j.val] = if i = j then a else cells[j.val]
  rw [Vector.getElem_set]
  simp only [Fin.ext_iff]

variable [NeZero n]

/-- The `count` elements of a ring from `head` on, in the order in which they were put there. -/
def contents (cells : Vector α n) (head count : Nat) : List α :=
  (List.range count).map fun i => cells.get (Fin.ofNat n (head + i))

@[simp] theorem length_contents (cells : Vector α n) (head count : Nat) :
    (contents cells head count).length = count := by
  rw [contents, List.length_map, List.length_range]

@[simp] theorem contents_zero (cells : Vector α n) (head : Nat) : contents cells head 0 = [] := rfl

theorem getElem?_contents (cells : Vector α n) (h : i < count) :
    (contents cells head count)[i]? = some (cells.get (Fin.ofNat n (head + i))) := by
  rw [contents, List.getElem?_map, List.getElem?_range h]
  rfl

/-- Two places of a ring that are less than its size apart differ. -/
theorem ofNat_ne (h : i < j) (hj : j < n) : Fin.ofNat n (head + i) ≠ Fin.ofNat n (head + j) := by
  intro heq
  have hmod : head + i ≡ head + j [MOD n] := congrArg Fin.val heq
  have hij : i ≡ j [MOD n] := Nat.ModEq.add_left_cancel' head hmod
  rw [Nat.ModEq, Nat.mod_eq_of_lt (h.trans hj), Nat.mod_eq_of_lt hj] at hij
  exact Nat.ne_of_lt h hij

theorem contents_set (cells : Vector α n) (h : count < n) (a : α) :
    contents (cells.set (Fin.ofNat n (head + count)).val a (Fin.isLt _)) head (count + 1) =
      contents cells head count ++ [a] := by
  rw [contents, List.range_succ, List.map_append, List.map_singleton, get_set, if_pos rfl, contents]
  congr 1
  apply List.map_congr_left
  intro i hi
  rw [get_set, if_neg (ofNat_ne (List.mem_range.1 hi) h).symm]

theorem contents_drop (cells : Vector α n) (head count k : Nat) :
    contents cells ((head + k) % n) (count - k) = (contents cells head count).drop k := by
  apply List.ext_getElem?
  intro i
  rw [List.getElem?_drop]
  by_cases hi : i < count - k
  · have hplace : Fin.ofNat n ((head + k) % n + i) = Fin.ofNat n (head + (k + i)) := by
      apply Fin.ext
      change ((head + k) % n + i) % n = (head + (k + i)) % n
      rw [Nat.mod_add_mod, Nat.add_assoc]
    rw [getElem?_contents cells hi, getElem?_contents cells (by omega), hplace]
  · rw [List.getElem?_eq_none (by rw [length_contents]; omega),
      List.getElem?_eq_none (by rw [length_contents]; omega)]

theorem contents_take (cells : Vector α n) (hcount : k ≤ count) (h : head + k ≤ n) :
    (contents cells head count).take k = (cells.toList.drop head).take k := by
  apply List.ext_getElem?
  intro i
  by_cases hi : i < k
  · have hplace : (Fin.ofNat n (head + i)).val = head + i := Nat.mod_eq_of_lt (by omega)
    rw [List.getElem?_take_of_lt hi, List.getElem?_take_of_lt hi, List.getElem?_drop,
      getElem?_contents cells (by omega),
      List.getElem?_eq_getElem (by rw [Vector.length_toList]; omega), Vector.getElem_toList]
    change some cells[(Fin.ofNat n (head + i)).val] = _
    simp only [hplace]
  · rw [List.getElem?_take_eq_none (by omega), List.getElem?_take_eq_none (by omega)]

end RingBuffer

import SquidServer.Filesystem
import SquidServer.PosixRooted
import Mathlib.Data.List.TakeWhile

namespace SquidServer.Filesystem
open Interaction Posix Wire
set_option autoImplicit true

theorem splitSlash_ne_nil (path : Name) : splitSlash path ≠ [] := by
  cases path with
  | nil => simp [splitSlash]
  | cons c rest =>
    rw [splitSlash]
    split
    · simp
    · split <;> simp

theorem splitSlash_slash (a b : Name) :
    splitSlash (a ++ 0x2F :: b) = splitSlash a ++ splitSlash b := by
  induction a with
  | nil => simp [splitSlash]
  | cons c rest ih =>
    rw [List.cons_append, splitSlash, ih, splitSlash]
    split
    · rfl
    · cases hr : splitSlash rest with
      | nil => exact absurd hr (splitSlash_ne_nil rest)
      | cons piece pieces => rfl

theorem slash_not_mem_piece (h : piece ∈ splitSlash path) : 0x2F ∉ piece := by
  induction path generalizing piece with
  | nil =>
    rw [splitSlash, List.mem_singleton] at h
    simp [h]
  | cons c rest ih =>
    rw [splitSlash] at h
    split at h
    · rcases List.mem_cons.1 h with rfl | h
      · simp
      · exact ih h
    · rename_i hc
      cases hr : splitSlash rest with
      | nil => exact absurd hr (splitSlash_ne_nil rest)
      | cons p ps =>
        rw [hr] at h ih
        rcases List.mem_cons.1 h with rfl | h
        · intro hm
          rcases List.mem_cons.1 hm with hm | hm
          · exact hc hm.symm
          · exact ih List.mem_cons_self hm
        · exact ih (List.mem_cons_of_mem p h)

/-- The loop of `path_is_valid` accepts a path when every piece between slashes is good. -/
theorem copyPath_eq_some (hc : 0x2F ∉ component) : copyPath component input = some path ↔
    path = input ∧ 0 ∉ input ∧ ∀ piece ∈ splitSlash (component ++ input), ¬ BadComponent piece := by
  induction input generalizing component path with
  | nil =>
    rw [copyPath, List.append_nil, splitSlash_of_not_mem hc]
    by_cases hb : BadComponent component
    · simp [hb]
    · simp [hb, eq_comm]
  | cons c rest ih =>
    rw [copyPath]
    by_cases hslash : c = 0x2F
    · subst hslash
      have hsplit : splitSlash (component ++ 0x2F :: rest) = component :: splitSlash rest := by
        rw [splitSlash_slash, splitSlash_of_not_mem hc]
        rfl
      rw [if_neg (by simp), hsplit]
      by_cases hb : BadComponent component
      · simp [hb]
      · rw [if_neg hb, Option.map_eq_some_iff]
        have hnone : (0x2F : UInt8) ∉ ([] : Name) := by simp
        simp only [ih hnone, List.nil_append]
        constructor
        · intro h
          obtain ⟨p, ⟨rfl, hz, hp⟩, rfl⟩ := h
          refine ⟨rfl, by simpa using hz, ?_⟩
          simpa [hb] using hp
        · intro h
          obtain ⟨rfl, hz, hp⟩ := h
          refine ⟨rest, ⟨rfl, by simpa using hz, ?_⟩, rfl⟩
          exact fun piece hm => hp piece (List.mem_cons_of_mem _ hm)
    · rw [if_pos hslash]
      have hc' : 0x2F ∉ component ++ [c] := by
        simpa [hc] using Ne.symm hslash
      by_cases hzero : c = 0
      · simp [hzero]
      · rw [if_neg hzero, Option.map_eq_some_iff]
        simp only [ih hc', List.append_assoc, List.singleton_append]
        constructor
        · intro h
          obtain ⟨p, ⟨rfl, hz, hp⟩, rfl⟩ := h
          refine ⟨rfl, ?_, hp⟩
          simpa [hz] using Ne.symm hzero
        · intro h
          obtain ⟨rfl, hz, hp⟩ := h
          exact ⟨rest, ⟨rfl, fun hm => hz (List.mem_cons_of_mem _ hm), hp⟩, rfl⟩

/-- A nonempty path that `path_is_valid` accepts. -/
structure ValidPath (path : Name) : Prop where
  size : 0 < path.length ∧ path.length ≤ squidFsPathMax
  noNul : 0 ∉ path
  pieces : ∀ piece ∈ splitSlash path, ¬ BadComponent piece

theorem pathIsValid_spec (h : pathIsValid input allowEmpty = some path) :
    path = input ∧ (path = [] ∧ allowEmpty = true ∨ ValidPath path) := by
  rw [pathIsValid] at h
  split at h
  · rename_i hempty
    cases h
    exact ⟨hempty.1.symm, .inl ⟨rfl, hempty.2⟩⟩
  · split at h
    · cases h
    · rename_i hrules
      obtain ⟨rfl, hz, hp⟩ := (copyPath_eq_some (by simp)).1 h
      refine ⟨rfl, .inr ⟨⟨?_, ?_⟩, hz, hp⟩⟩
      · exact List.length_pos_of_ne_nil fun he => hrules (.inl he)
      · exact Nat.le_of_not_lt fun hl => hrules (.inr (.inl hl))

theorem ValidPath.components_eq (h : ValidPath path) : components path = splitSlash path := by
  rw [Posix.components, List.filter_eq_self]
  intro piece hp
  apply decide_eq_true
  exact fun hn => h.pieces piece hp (.inl hn)

theorem isComponent_of_mem (h : piece ∈ components path) : IsComponent piece := by
  obtain ⟨hmem, hne⟩ := List.mem_filter.1 h
  exact ⟨of_decide_eq_true hne, slash_not_mem_piece hmem⟩

theorem slash_not_mem_leafOf (path : Name) : 0x2F ∉ leafOf path := by
  intro h
  have hm := List.mem_takeWhile_imp (List.mem_reverse.1 h)
  simp at hm

theorem parentOf_leafOf (h : 0x2F ∈ path) : path = parentOf path ++ 0x2F :: leafOf path := by
  have hsplit := List.takeWhile_append_dropWhile (p := (· ≠ (0x2F : UInt8))) (l := path.reverse)
  have hdrop : path.reverse.dropWhile (· ≠ (0x2F : UInt8)) ≠ [] := by
    intro hn
    have hall := List.dropWhile_eq_nil_iff.1 hn 0x2F (List.mem_reverse.2 h)
    simp at hall
  obtain ⟨c, rest, hr⟩ := List.exists_cons_of_ne_nil hdrop
  have hc : c = 0x2F := by
    have hhead := List.head_dropWhile_not (· ≠ (0x2F : UInt8)) hdrop
    simp only [hr, List.head_cons] at hhead
    simpa using hhead
  rw [hr, hc] at hsplit
  have hpath : path = rest.reverse ++ 0x2F :: leafOf path := by
    conv_lhs => rw [← path.reverse_reverse, ← hsplit]
    rw [List.reverse_append, List.reverse_cons, leafOf, List.append_assoc, List.singleton_append]
  have hparent : parentOf path = rest.reverse := by
    have hlen := congrArg List.length hpath
    rw [List.length_append, List.length_cons] at hlen
    rw [parentOf, show path.length - (leafOf path).length - 1 = rest.reverse.length by omega]
    conv_lhs => rw [hpath]
    exact List.take_left
  rw [hparent]
  exact hpath

theorem leafOf_of_not_mem (h : 0x2F ∉ path) : leafOf path = path ∧ parentOf path = [] := by
  have hleaf : leafOf path = path := by
    rw [leafOf, List.takeWhile_eq_self_iff.2, List.reverse_reverse]
    intro c hc
    exact decide_eq_true fun he => h (he ▸ List.mem_reverse.1 hc)
  refine ⟨hleaf, ?_⟩
  rw [parentOf, hleaf, Nat.sub_self, Nat.zero_sub, List.take_zero]

/-- The walk to the parent and the leaf after it are the components of the path. -/
theorem ValidPath.parent_leaf (h : ValidPath path) :
    components (parentOf path) ++ [leafOf path] = components path := by
  by_cases hs : 0x2F ∈ path
  · have hpath := parentOf_leafOf hs
    have hsplit : splitSlash path = splitSlash (parentOf path) ++ [leafOf path] := by
      conv_lhs => rw [hpath]
      rw [splitSlash_slash, splitSlash_of_not_mem (slash_not_mem_leafOf path)]
    have hleaf : leafOf path ≠ [] := by
      intro hn
      exact h.pieces (leafOf path) (by rw [hsplit]; simp) (.inl hn)
    conv_rhs => rw [Posix.components, hsplit, List.filter_append]
    simp [Posix.components, hleaf]
  · obtain ⟨hleaf, hparent⟩ := leafOf_of_not_mem hs
    rw [hparent, hleaf, h.components_eq, splitSlash_of_not_mem hs]
    rfl

theorem ValidPath.leaf (h : ValidPath path) : IsComponent (leafOf path) := by
  have hmem : leafOf path ∈ components path := by
    rw [← h.parent_leaf]
    simp
  exact isComponent_of_mem hmem

end SquidServer.Filesystem

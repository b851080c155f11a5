import Mathlib.Data.List.Basic
import Mathlib.Tactic.Common

namespace Framing
set_option autoImplicit true

/-- A frame on the wire: one length byte, then the body. -/
def frame (body : List UInt8) : List UInt8 := UInt8.ofNat body.length :: body

/-- The complete frames of a byte stream, and the partial frame left at its end.
A zero length byte outside a frame is skipped. -/
def split : List UInt8 → List (List UInt8) × List UInt8
  | [] => ([], [])
  | n :: rest =>
    if n = 0 then split rest
    else if n.toNat ≤ rest.length then
      let (bodies, tail) := split (rest.drop n.toNat)
      (rest.take n.toNat :: bodies, tail)
    else ([], n :: rest)
termination_by s => s.length
decreasing_by all_goals simp only [List.length_cons, List.length_drop]; omega

def frames (s : List UInt8) : List (List UInt8) := (split s).1

def partialFrame (s : List UInt8) : List UInt8 := (split s).2

@[simp] theorem split_nil : split [] = ([], []) := by
  rw [split]

@[simp] theorem split_zero (rest : List UInt8) : split (0 :: rest) = split rest := by
  rw [split, if_pos rfl]

theorem split_complete (hn : n ≠ 0) (hb : body.length = n.toNat) (rest : List UInt8) :
    split (n :: body ++ rest) = (body :: (split rest).1, (split rest).2) := by
  have hle : n.toNat ≤ (body ++ rest).length := by
    rw [List.length_append]
    omega
  rw [List.cons_append, split, if_neg hn, if_pos hle, ← hb]
  simp only [List.drop_left, List.take_left]

theorem split_partial (body : List UInt8) (hn : n ≠ 0) (hb : body.length < n.toNat) :
    split (n :: body) = ([], n :: body) := by
  rw [split, if_neg hn, if_neg (Nat.not_le.2 hb)]

/-- Decoding can stop and resume anywhere: only the partial frame has to be kept. -/
theorem split_append (s t : List UInt8) :
    split (s ++ t) =
      (frames s ++ frames (partialFrame s ++ t), partialFrame (partialFrame s ++ t)) := by
  simp only [frames, partialFrame]
  fun_induction split s with
  | case1 => rfl
  | case2 rest ih =>
    rw [List.cons_append, split_zero]
    exact ih
  | case3 n rest hn hle bodies tail he ih =>
    have hl : (rest.take n.toNat).length = n.toNat := List.length_take_of_le hle
    have hr : n :: rest ++ t = n :: rest.take n.toNat ++ (rest.drop n.toNat ++ t) := by
      simp only [List.cons_append, ← List.append_assoc, List.take_append_drop]
    rw [hr, split_complete hn hl, ih, he]
    rfl
  | case4 n rest hn hle => rfl

theorem frames_append (s t : List UInt8) :
    frames (s ++ t) = frames s ++ frames (partialFrame s ++ t) := by
  rw [frames, split_append]

theorem partialFrame_append (s t : List UInt8) :
    partialFrame (s ++ t) = partialFrame (partialFrame s ++ t) := by
  conv_lhs => rw [partialFrame, split_append]

@[simp] theorem frames_nil : frames [] = [] := by
  rw [frames, split_nil]

@[simp] theorem partialFrame_nil : partialFrame [] = [] := by
  rw [partialFrame, split_nil]

theorem partialFrame_suffix (s : List UInt8) : partialFrame s <:+ s := by
  rw [partialFrame]
  fun_induction split s with
  | case1 => exact List.suffix_rfl
  | case2 rest ih => exact ih.trans (List.suffix_cons _ _)
  | case3 n rest hn hle bodies tail he ih =>
    rw [he] at ih
    exact (ih.trans (List.drop_suffix _ _)).trans (List.suffix_cons _ _)
  | case4 n rest hn hle => exact List.suffix_rfl

/-- `Stream bodies tail s`: `s` is made of exactly the frames of `bodies` in order, stray zero
bytes between them, and the partial frame `tail` at the end. -/
inductive Stream : List (List UInt8) → List UInt8 → List UInt8 → Prop
  | done : partialFrame tail = tail → Stream [] tail tail
  | zero : Stream bodies tail s → Stream bodies tail (0 :: s)
  | frame : body ≠ [] → body.length ≤ 255 → Stream bodies tail s →
      Stream (body :: bodies) tail (frame body ++ s)

theorem frame_length_byte (hb : body.length = n.toNat) : n :: body = frame body := by
  rw [frame, hb, UInt8.ofNat_toNat]

theorem stream_split (s : List UInt8) : Stream (frames s) (partialFrame s) s := by
  unfold frames partialFrame
  fun_induction split s with
  | case1 => exact .done partialFrame_nil
  | case2 rest ih => exact ih.zero
  | case3 n rest hn hle bodies tail he ih =>
    rw [he] at ih
    have hl : (rest.take n.toNat).length = n.toNat := List.length_take_of_le hle
    have hpos : n.toNat ≠ 0 := fun h => hn (UInt8.toNat_inj.1 h)
    have hlt := n.toNat_lt
    have hne : rest.take n.toNat ≠ [] := by
      intro h
      rw [h] at hl
      exact hpos hl.symm
    have hs := Stream.frame hne (by omega) ih
    rw [← frame_length_byte hl, List.cons_append, List.take_append_drop] at hs
    exact hs
  | case4 n rest hn hle =>
    apply Stream.done
    rw [partialFrame, split_partial rest hn (Nat.lt_of_not_le hle)]

theorem frame_length_le (h : body ∈ frames s) : (frame body).length ≤ s.length := by
  rw [frames] at h
  fun_induction split s with
  | case1 => cases h
  | case2 rest ih => exact Nat.le_trans (ih h) (Nat.le_succ _)
  | case3 n rest hn hle bodies tail he ih =>
    rcases List.mem_cons.1 h with hb | hb
    · rw [hb, frame, List.length_cons, List.length_cons, List.length_take]
      omega
    · have hi := ih (by rw [he]; exact hb)
      rw [List.length_drop] at hi
      rw [List.length_cons]
      omega
  | case4 n rest hn hle => cases h

/-- A frame completed after a whole number of frames lies in what came after them. -/
theorem frame_suffix_of_split (ha : partialFrame a = [])
    (hf : frames (a ++ b) = frames a ++ (xs ++ [x])) (hs : frame x <:+ a ++ b) :
    frame x <:+ b := by
  rw [frames_append, ha, List.nil_append] at hf
  have hb := List.append_cancel_left hf
  have hmem : x ∈ frames b := by
    rw [hb]
    simp
  exact List.suffix_of_suffix_length_le hs (List.suffix_append a b) (frame_length_le hmem)

end Framing

import SquidServer.CText

namespace Utf8
open CText
set_option autoImplicit true

/-- A text that is the bytes of characters. -/
def Valid (text : List UInt8) : Prop :=
  ∃ chars : List Char, text = chars.flatMap String.utf8EncodeChar

/-- The longest of the prefixes of a text that are valid and have at most `room` bytes. -/
structure IsLongest (text : List UInt8) (room : Nat) (part : List UInt8) : Prop where
  begins : part <+: text
  valid : Valid part
  fits : part.length ≤ room
  longest : ∀ other, other <+: text → Valid other → other.length ≤ room →
    other.length ≤ part.length

theorem valid_nil : Valid [] := ⟨[], rfl⟩

theorem valid_char (c : Char) : Valid (String.utf8EncodeChar c) :=
  ⟨[c], (List.flatMap_singleton ..).symm⟩

theorem Valid.append (h : Valid first) (h' : Valid second) : Valid (first ++ second) := by
  obtain ⟨chars, rfl⟩ := h
  obtain ⟨chars', rfl⟩ := h'
  exact ⟨chars ++ chars', List.flatMap_append.symm⟩

theorem valid_ascii {text : List UInt8} (h : ∀ b ∈ text, b.toNat < 0x80) : Valid text := by
  induction text with
  | nil => exact valid_nil
  | cons b text ih =>
    have hb := h b List.mem_cons_self
    have hchar : String.utf8EncodeChar (.ofNat b.toNat) = [b] := by
      have hvalue : (Char.ofNat b.toNat).val.toNat = b.toNat := by
        have hscalar : Nat.isValidChar b.toNat := .inl (Nat.lt_trans hb (by decide))
        rw [Char.ofNat, dif_pos hscalar]
        rfl
      rw [String.utf8EncodeChar, hvalue, if_pos (Nat.le_of_lt_succ hb), UInt8.ofNat_toNat]
    have hfirst := valid_char (.ofNat b.toNat)
    rw [hchar] at hfirst
    exact hfirst.append (ih fun c hc => h c (List.mem_cons_of_mem b hc))

theorem isContinuation_ofNat : ∀ n < 256,
    isContinuation (UInt8.ofNat n) = decide (0x80 ≤ n ∧ n < 0xC0) := by decide +kernel

theorem utf8EncodeChar_bytes (c : Char) : ∃ first rest, String.utf8EncodeChar c = first :: rest ∧
    isContinuation first = false ∧ ∀ b ∈ rest, isContinuation b = true := by
  have hstarts : ∀ n < 256, ¬ (0x80 ≤ n ∧ n < 0xC0) → isContinuation (UInt8.ofNat n) = false := by
    intro n hn hrange
    rw [isContinuation_ofNat n hn, decide_eq_false hrange]
  have hcontinues : ∀ n, isContinuation (UInt8.ofNat (n % 0x40 + 0x80)) = true := by
    intro n
    rw [isContinuation_ofNat _ (by omega), decide_eq_true_iff]
    omega
  rw [String.utf8EncodeChar]
  split
  · exact ⟨_, _, rfl, hstarts _ (by omega) (by omega), by simp⟩
  · split
    · refine ⟨_, _, rfl, hstarts _ (by omega) (by omega), ?_⟩
      simp only [List.mem_cons, List.not_mem_nil, or_false, forall_eq]
      exact hcontinues _
    · split
      · refine ⟨_, _, rfl, hstarts _ (by omega) (by omega), ?_⟩
        simp only [List.mem_cons, List.not_mem_nil, or_false, forall_eq_or_imp, forall_eq]
        exact ⟨hcontinues _, hcontinues _⟩
      · refine ⟨_, _, rfl, hstarts _ (by omega) (by omega), ?_⟩
        simp only [List.mem_cons, List.not_mem_nil, or_false, forall_eq_or_imp, forall_eq]
        exact ⟨hcontinues _, hcontinues _, hcontinues _⟩

/-- Cutting a valid text where no character is split leaves a valid text. -/
theorem Valid.take (h : Valid text) (hb : Boundary text n) : Valid (text.take n) := by
  obtain ⟨chars, rfl⟩ := h
  induction chars generalizing n with
  | nil => exact ⟨[], List.take_nil⟩
  | cons c chars ih =>
    obtain ⟨first, rest, hc, -, hrest⟩ := utf8EncodeChar_bytes c
    rw [List.flatMap_cons] at hb ⊢
    generalize hcode : String.utf8EncodeChar c = code at hc hb ⊢
    generalize htail : chars.flatMap String.utf8EncodeChar = tail at ih hb ⊢
    have hlength : code.length = rest.length + 1 := by rw [hc, List.length_cons]
    have hvalid : Valid code := hcode ▸ valid_char c
    by_cases hzero : n = 0
    · rw [hzero, List.take_zero]
      exact valid_nil
    by_cases hinside : n < code.length
    · -- The byte at the cut continues the first character.
      exfalso
      rcases hb with hb | hb | ⟨-, hb⟩
      · exact hzero hb
      · rw [List.length_append] at hb
        omega
      · rw [List.getD_eq_getElem?_getD, List.getElem?_append_left hinside, hc,
          List.getElem?_cons, if_neg hzero, List.getElem?_eq_getElem (by omega)] at hb
        cases (hrest _ (List.getElem_mem _)).symm.trans hb
    · have htake : (code ++ tail).take n = code ++ tail.take (n - code.length) := by
        rw [List.take_append, List.take_of_length_le (Nat.le_of_not_lt hinside)]
      rw [htake]
      refine hvalid.append (ih ?_)
      rcases hb with hb | hb | ⟨hlt, hb⟩
      · exact absurd hb hzero
      · rw [List.length_append] at hb
        exact .inr (.inl (by omega))
      · rw [List.length_append] at hlt
        rw [List.getD_eq_getElem?_getD, List.getElem?_append_right (Nat.le_of_not_lt hinside)] at hb
        exact .inr (.inr ⟨by omega, hb⟩)

theorem Valid.of_append (h : Valid (first ++ second)) (hfirst : Valid first) : Valid second := by
  obtain ⟨chars, hchars⟩ := h
  obtain ⟨front, rfl⟩ := hfirst
  have hencode : front.utf8Encode ++ second.toByteArray = chars.utf8Encode := by
    rw [List.utf8Encode, List.utf8Encode, ← List.toByteArray_append, hchars]
  obtain ⟨back, rfl⟩ := List.isPrefix_of_utf8Encode_append_eq_utf8Encode _ hencode
  rw [List.flatMap_append] at hchars
  exact ⟨back, List.append_cancel_left hchars⟩

theorem Valid.boundary (h : Valid text) (htake : Valid (text.take n)) (hn : n ≤ text.length) :
    Boundary text n := by
  have hdrop : Valid (text.drop n) := by
    rw [← List.take_append_drop n text] at h
    exact h.of_append htake
  obtain ⟨chars, hchars⟩ := hdrop
  cases chars with
  | nil =>
    have hend := congrArg List.length hchars
    rw [List.length_drop, List.flatMap_nil, List.length_nil] at hend
    exact .inr (.inl (by omega))
  | cons c chars =>
    obtain ⟨first, rest, hc, hfirst, -⟩ := utf8EncodeChar_bytes c
    rw [List.flatMap_cons, hc, List.cons_append] at hchars
    have hhead : text[n]? = some first := by
      rw [← List.head?_drop, hchars, List.head?_cons]
    obtain ⟨hlt, -⟩ := List.getElem?_eq_some_iff.1 hhead
    refine .inr (.inr ⟨hlt, ?_⟩)
    rw [List.getD_eq_getElem?_getD, hhead]
    exact hfirst

/-- For a valid text, splitting no character and being valid are the same. -/
theorem longestPrefix_isLongest (h : Valid text) (room : Nat) :
    IsLongest text room (longestPrefix text room) where
  begins := List.take_prefix _ text
  valid := by
    have hcut : Boundary text (Nat.findGreatest (Boundary text) room) :=
      Nat.findGreatest_spec (Nat.zero_le room) (.inl rfl)
    exact h.take hcut
  fits := length_longestPrefix_le text room
  longest := by
    intro other hother hvalid hroom
    obtain ⟨rest, hrest⟩ := hother
    have htake : text.take other.length = other := by rw [← hrest, List.take_left]
    have hlength : other.length ≤ text.length := by
      rw [← hrest, List.length_append]
      exact Nat.le_add_right _ _
    have hcut : Boundary text other.length := h.boundary (by rw [htake]; exact hvalid) hlength
    rw [longestPrefix, List.length_take]
    exact le_min (Nat.le_findGreatest hroom hcut) hlength

end Utf8

import Mathlib.Data.List.DropRight
import SquidServer.Json
import SquidServer.RetroVaultJson

namespace SquidServer.RetroVault
open CText Json
set_option autoImplicit true

theorem isSpace_of_space (h : Space text) (hc : c ∈ text) : isSpace c = true := by
  rcases h c hc with rfl | rfl | rfl | rfl <;> decide

@[simp] theorem skipSpace_append (h : Space before) (text : List UInt8) :
    skipSpace (before ++ text) = skipSpace text := by
  rw [skipSpace, List.dropWhile_append_of_pos fun _ hc => isSpace_of_space h hc, skipSpace]

theorem skipSpace_space (h : Space text) : skipSpace text = [] :=
  List.dropWhile_eq_nil_iff.2 fun _ hc => isSpace_of_space h hc

theorem skipSpace_cons (h : isSpace c = false) (rest : List UInt8) :
    skipSpace (c :: rest) = c :: rest := by
  rw [skipSpace, List.dropWhile_cons_of_neg (by rw [h]; decide)]

theorem skipSpace_skipSpace (text : List UInt8) : skipSpace (skipSpace text) = skipSpace text := by
  rw [skipSpace, skipSpace, List.dropWhile_idempotent isSpace text]

theorem hexDigit_value (h : HexDigit c n) : isXDigit c = true ∧ hexValue c = some n := by
  have hall : (∀ n < 10, isXDigit (UInt8.ofNat (0x30 + n)) = true ∧
        hexValue (UInt8.ofNat (0x30 + n)) = some n) ∧
      ∀ n < 16, 10 ≤ n → (isXDigit (UInt8.ofNat (0x57 + n)) = true ∧
        hexValue (UInt8.ofNat (0x57 + n)) = some n) ∧
        isXDigit (UInt8.ofNat (0x37 + n)) = true ∧
        hexValue (UInt8.ofNat (0x37 + n)) = some n := by decide
  rcases h with ⟨hn, rfl⟩ | ⟨hlow, hn, rfl | rfl⟩
  · exact hall.1 n hn
  · exact (hall.2 n hn hlow).1
  · exact (hall.2 n hn hlow).2

theorem decodeHexQuad_quad (h : HexQuad quad n) (rest : List UInt8) :
    decodeHexQuad (quad ++ rest) = some (n, rest) := by
  obtain ⟨h₁, h₂, h₃, h₄⟩ := h
  simp only [List.cons_append, List.nil_append, decodeHexQuad, (hexDigit_value h₁).2,
    (hexDigit_value h₂).2, (hexDigit_value h₃).2, (hexDigit_value h₄).2, Option.bind_eq_bind,
    Option.bind_some, Option.some.injEq, Prod.mk.injEq, and_true]
  omega

theorem shortEscapes_simple (h : (e, c) ∈ shortEscapes) :
    isEscape e = true ∧ simpleEscape e = some (UInt8.ofNat c.toNat) ∧ c.toNat ≤ 0x7F := by
  have hall : ∀ p ∈ shortEscapes, isEscape p.1 = true ∧
    simpleEscape p.1 = some (UInt8.ofNat p.2.toNat) ∧ p.2.toNat ≤ 0x7F := by decide
  exact hall (e, c) h

theorem scanString_plain {bytes : List UInt8}
    (h : ∀ c ∈ bytes, 0x20 ≤ c ∧ c ≠ 0x22 ∧ c ≠ 0x5C) (rest : List UInt8) :
    scanString (bytes ++ rest) = scanString rest := by
  induction bytes with
  | nil => rfl
  | cons c bytes ih =>
    obtain ⟨hlow, hquote, hescape⟩ := h c List.mem_cons_self
    rw [List.cons_append, scanString.eq_def]
    dsimp only
    rw [if_neg hquote, if_neg (UInt8.not_lt.2 hlow), if_neg hescape]
    exact ih fun d hd => h d (List.mem_cons_of_mem c hd)

theorem scanString_unicode (h : HexQuad quad n) (rest : List UInt8) :
    scanString (0x5C :: 0x75 :: (quad ++ rest)) = scanString rest := by
  obtain ⟨h₁, h₂, h₃, h₄⟩ := h
  have hescape : isEscape 0x75 = false := by decide
  simp [scanString, hescape, (hexDigit_value h₁).1, (hexDigit_value h₂).1, (hexDigit_value h₃).1,
    (hexDigit_value h₄).1]

/-- The scanner finds the end of a string, however it is written. -/
theorem scanString_spells (h : Spells text bytes) (rest : List UInt8) :
    scanString (bytes ++ 0x22 :: rest) = some rest := by
  induction h with
  | nil =>
    rw [List.nil_append, scanString.eq_def]
    rfl
  | raw hlow hquote hescape _ ih =>
    rw [List.append_assoc, scanString_plain (raw_plain hlow hquote hescape), ih]
  | short hmem _ ih =>
    rw [List.cons_append, List.cons_append, scanString.eq_def]
    dsimp only
    rw [if_neg (by decide), if_neg (by decide), if_pos rfl, if_pos (shortEscapes_simple hmem).1, ih]
  | unicode hquad _ ih =>
    rw [List.cons_append, List.cons_append, List.append_assoc, scanString_unicode hquad, ih]
  | pair hquad hquad' _ _ _ _ ih =>
    simp only [List.cons_append, List.append_assoc]
    rw [scanString_unicode hquad, scanString_unicode hquad', ih]
  | half hquad _ _ _ ih =>
    rw [List.cons_append, List.cons_append, List.append_assoc, scanString_unicode hquad, ih]

theorem encodeUtf8_eq (c : Char) : encodeUtf8 c.toNat = String.utf8EncodeChar c := by
  have hmax : c.toNat < 0x110000 := by
    rcases c.valid with h | h
    · exact Nat.lt_trans h (by decide)
    · exact h.2
  have hval : c.val.toNat = c.toNat := rfl
  have hlast : ∀ n : Nat, 0x80 ||| n &&& 0x3F = n % 0x40 + 0x80 := by
    intro n
    have hall : ∀ k < 64, 0x80 ||| k = k + 0x80 := by decide
    rw [show 0x3F = 2 ^ 6 - 1 from rfl, Nat.and_two_pow_sub_one_eq_mod]
    exact hall (n % 64) (Nat.mod_lt n (by decide))
  rw [encodeUtf8, String.utf8EncodeChar, hval]
  simp only [hlast, Nat.shiftRight_eq_div_pow, Nat.reducePow]
  split
  · rfl
  · split
    · have hall : ∀ k < 32, 0xC0 ||| k = k % 0x20 + 0xC0 := by decide
      rw [hall (c.toNat / 64) (by omega)]
    · split
      · have hall : ∀ k < 16, 0xE0 ||| k = k % 0x10 + 0xE0 := by decide
        rw [hall (c.toNat / 4096) (by omega)]
      · have hall : ∀ k < 8, 0xF0 ||| k = k % 8 + 0xF0 := by decide
        rw [hall (c.toNat / 262144) (by omega)]

theorem isHighSurrogate_iff : isHighSurrogate n = true ↔ IsHigh n := decide_eq_true_iff

theorem isLowSurrogate_iff : isLowSurrogate n = true ↔ IsLow n := decide_eq_true_iff

theorem decodeUnicode_char {c : Char} (h : HexQuad quad c.toNat) (rest : List UInt8) :
    decodeUnicode (quad ++ rest) = some (c.toNat, rest) := by
  obtain ⟨hhigh, hlow⟩ := not_surrogate c
  have hnotHigh : isHighSurrogate c.toNat = false :=
    Bool.eq_false_iff.2 fun h => hhigh (isHighSurrogate_iff.1 h)
  have hnotLow : isLowSurrogate c.toNat = false :=
    Bool.eq_false_iff.2 fun h => hlow (isLowSurrogate_iff.1 h)
  simp [decodeUnicode, decodeHexQuad_quad h, hnotHigh, hnotLow]

theorem decodeUnicode_pair {c : Char} (h : HexQuad quad high) (h' : HexQuad quad' low)
    (hhigh : IsHigh high) (hlow : IsLow low)
    (hc : c.toNat = 0x10000 + (high - 0xD800) * 0x400 + (low - 0xDC00))
    (rest : List UInt8) :
    decodeUnicode (quad ++ 0x5C :: 0x75 :: (quad' ++ rest)) = some (c.toNat, rest) := by
  obtain ⟨hnotHigh, hnotLow⟩ := not_surrogate c
  have hisHigh : isHighSurrogate high = true := isHighSurrogate_iff.2 hhigh
  have hisLow : isLowSurrogate low = true := isLowSurrogate_iff.2 hlow
  have hpair : lowSurrogate (0x5C :: 0x75 :: (quad' ++ rest)) = some (low, rest) := by
    simp [lowSurrogate, decodeHexQuad_quad h', hisLow]
  rw [decodeUnicode, decodeHexQuad_quad h]
  simp only [Option.bind_eq_bind, Option.bind_some, hisHigh, if_true, hpair, ← hc]
  rw [if_neg]
  rintro (h | h)
  · exact hnotHigh (isHighSurrogate_iff.1 h)
  · exact hnotLow (isLowSurrogate_iff.1 h)

theorem hexDigit_of_value (h : hexValue c = some n) : HexDigit c n := by
  have hsame : ∀ m : Nat, m = c.toNat → c = UInt8.ofNat m := by
    rintro m rfl
    exact UInt8.ofNat_toNat.symm
  rw [hexValue] at h
  split at h
  · rename_i hc
    have hlow : 0x30 ≤ c.toNat := hc.1
    have hhigh : c.toNat ≤ 0x39 := hc.2
    rw [← Option.some.inj h]
    exact .inl ⟨by omega, hsame _ (by omega)⟩
  · split at h
    · rename_i hc
      have hlow : 0x61 ≤ c.toNat := hc.1
      have hhigh : c.toNat ≤ 0x66 := hc.2
      rw [← Option.some.inj h]
      exact .inr ⟨by omega, by omega, .inl (hsame _ (by omega))⟩
    · split at h
      · rename_i hc
        have hlow : 0x41 ≤ c.toNat := hc.1
        have hhigh : c.toNat ≤ 0x46 := hc.2
        rw [← Option.some.inj h]
        exact .inr ⟨by omega, by omega, .inr (hsame _ (by omega))⟩
      · cases h

theorem quad_of_decodeHexQuad (h : decodeHexQuad bytes = some (n, rest)) :
    ∃ quad, HexQuad quad n ∧ bytes = quad ++ rest := by
  rw [decodeHexQuad.eq_def] at h
  split at h
  · rename_i c₁ c₂ c₃ c₄ rest'
    obtain ⟨n₁, h₁, h⟩ := Option.bind_eq_some_iff.1 h
    obtain ⟨n₂, h₂, h⟩ := Option.bind_eq_some_iff.1 h
    obtain ⟨n₃, h₃, h⟩ := Option.bind_eq_some_iff.1 h
    obtain ⟨n₄, h₄, h⟩ := Option.bind_eq_some_iff.1 h
    obtain ⟨rfl, rfl⟩ := Prod.mk.inj (Option.some.inj h)
    refine ⟨[c₁, c₂, c₃, c₄], ?_, rfl⟩
    have hquad := HexQuad.intro (hexDigit_of_value h₁) (hexDigit_of_value h₂)
      (hexDigit_of_value h₃) (hexDigit_of_value h₄)
    rwa [show ((n₁ * 16 + n₂) * 16 + n₃) * 16 + n₄ = (n₁ * 16 + n₂) * 256 + n₃ * 16 + n₄ by omega]
      at hquad
  · cases h

/-- Half a pair is decoded as U+FFFD. -/
theorem decodeUnicode_half (h : HexQuad quad unit) (hunit : IsHigh unit ∨ IsLow unit)
    (hrest : IsHigh unit → ∀ quad' low rest', HexQuad quad' low → IsLow low →
      rest ≠ 0x5C :: 0x75 :: (quad' ++ rest')) :
    decodeUnicode (quad ++ rest) = some (0xFFFD, rest) := by
  have halone : (if isHighSurrogate unit then lowSurrogate rest else none) = none := by
    split
    · rename_i hhigh
      cases hlow : lowSurrogate rest with
      | none => rfl
      | some pair =>
        rw [lowSurrogate.eq_def] at hlow
        split at hlow
        · obtain ⟨⟨low, rest'⟩, hdecode, hlow⟩ := Option.bind_eq_some_iff.1 hlow
          dsimp only at hlow
          split at hlow
          · rename_i hislow
            obtain ⟨quad', hquad', rfl⟩ := quad_of_decodeHexQuad hdecode
            exact absurd rfl (hrest (isHighSurrogate_iff.1 hhigh) quad' low rest' hquad'
              (isLowSurrogate_iff.1 hislow))
          · cases hlow
        · cases hlow
    · rfl
  have hsurrogate : isHighSurrogate unit = true ∨ isLowSurrogate unit = true :=
    hunit.imp isHighSurrogate_iff.2 isLowSurrogate_iff.2
  rw [decodeUnicode, decodeHexQuad_quad h]
  simp only [Option.bind_eq_bind, Option.bind_some, halone]
  rw [if_pos hsurrogate]

theorem decodeString_unicode (h : decodeUnicode bytes = some (codepoint, rest))
    (hrest : decodeString n rest = some decoded) :
    decodeString (n + 1) (0x5C :: 0x75 :: bytes) = some (encodeUtf8 codepoint ++ decoded) := by
  have hsimple : simpleEscape 0x75 = none := by decide
  rw [decodeString, if_neg (by simp)]
  dsimp only
  rw [hsimple]
  dsimp only
  rw [if_pos rfl, h]
  simp only [Option.bind_eq_bind, Option.bind_some, hrest]
  rfl

/-- Decoding gives the bytes that a string stands for. -/
theorem decodeString_unescapes (h : Unescapes literal bytes) (hn : literal.length ≤ n) :
    decodeString n literal = some bytes := by
  induction h generalizing n with
  | nil =>
    cases n with
    | zero => rfl
    | succ n => rfl
  | @raw b literal bytes hlow hquote hescape _ ih =>
    obtain ⟨m, rfl, hm⟩ : ∃ m, n = m + 1 ∧ literal.length ≤ m := ⟨n - 1, by grind, by grind⟩
    rw [decodeString.eq_def]
    dsimp only
    rw [if_pos hescape, ih hm]
    rfl
  | @short e c literal bytes hmem _ ih =>
    obtain ⟨-, hsimple, hascii⟩ := shortEscapes_simple hmem
    have hbytes : String.utf8EncodeChar c = [UInt8.ofNat c.toNat] := by
      rcases utf8EncodeChar_cases c with ⟨-, h⟩ | ⟨h, -⟩
      · exact h
      · omega
    obtain ⟨m, rfl, hm⟩ : ∃ m, n = m + 1 ∧ literal.length ≤ m := ⟨n - 1, by grind, by grind⟩
    rw [decodeString, if_neg (by simp)]
    dsimp only
    rw [hsimple, ih hm, hbytes]
    rfl
  | @unicode quad literal bytes c hquad _ ih =>
    obtain ⟨m, rfl, hm⟩ : ∃ m, n = m + 1 ∧ literal.length ≤ m := ⟨n - 1, by grind, by grind⟩
    rw [decodeString_unicode (decodeUnicode_char hquad literal) (ih hm), encodeUtf8_eq]
  | @pair quad high quad' low literal bytes c hquad hquad' hhigh hlow hc _ ih =>
    obtain ⟨m, rfl, hm⟩ : ∃ m, n = m + 1 ∧ literal.length ≤ m := ⟨n - 1, by grind, by grind⟩
    rw [decodeString_unicode (decodeUnicode_pair hquad hquad' hhigh hlow hc literal) (ih hm),
      encodeUtf8_eq]
  | @half quad unit literal bytes hquad hunit hrest _ ih =>
    obtain ⟨m, rfl, hm⟩ : ∃ m, n = m + 1 ∧ literal.length ≤ m := ⟨n - 1, by grind, by grind⟩
    have hreplaced := encodeUtf8_eq (.ofNat 0xFFFD)
    rw [show (Char.ofNat 0xFFFD).toNat = 0xFFFD from rfl] at hreplaced
    rw [decodeString_unicode (decodeUnicode_half hquad hunit hrest) (ih hm), hreplaced]

theorem inner_brackets (start last : UInt8) (body : List UInt8) (type : JsonType) :
    JsonValue.inner ⟨start :: (body ++ [last]), type⟩ = body :=
  List.dropLast_concat

theorem duplicateJsonString_unescapes (h : Unescapes literal bytes) :
    duplicateJsonString ⟨0x22 :: (literal ++ [0x22]), .string⟩ = some bytes := by
  rw [duplicateJsonString, if_neg (by simp), inner_brackets]
  exact decodeString_unescapes h (Nat.le_refl _)

end SquidServer.RetroVault

import SquidServer.RetroVaultStrings
import SquidServer.Stores
import SquidServer.Utf8

namespace SquidServer.RetroVault
open Interaction CText Json Loads Stores
set_option autoImplicit true

/-- The loop of `duplicate_retro_vault_json_string`, storing to the bytes behind `result`; `none`
where it returns NULL. -/
def decodeStringAt (result : Nat) : Nat → Nat → List UInt8 → Program Storing (Option Nat)
  | _, outputSize, [] => return some outputSize
  | 0, _, _ :: _ => return none
  | n + 1, outputSize, c :: cursor =>
    if c ≠ 0x5C then do
      store (result + outputSize) c
      decodeStringAt result n (outputSize + 1) cursor
    else match cursor with
      | [] => return none
      | e :: cursor =>
        match simpleEscape e with
        | some d => do
          store (result + outputSize) d
          decodeStringAt result n (outputSize + 1) cursor
        | none =>
          if e = 0x75 then
            match decodeUnicode cursor with
            | none => return none
            | some (codepoint, cursor) => do
              storeBytes (result + outputSize) (encodeUtf8 codepoint)
              decodeStringAt result n (outputSize + (encodeUtf8 codepoint).length) cursor
          else return none

/-- `duplicate_retro_vault_json_string` with the block that `malloc` gave it; it returns the number
of bytes before the NUL. -/
def duplicateJsonStringAt (value : JsonValue) (result : Nat) : Program Storing (Option Nat) := do
  if value.type ≠ .string ∨ value.text.length < 2 then return none
  else match ← decodeStringAt result value.inner.length 0 value.inner with
    | none => return none
    | some outputSize =>
      store (result + outputSize) 0
      return some outputSize

theorem hexQuad_bounds (h : HexQuad quad n) : quad.length = 4 ∧ n ≤ 0xFFFF := by
  obtain ⟨h₁, h₂, h₃, h₄⟩ := h
  have hdigit : ∀ c n, HexDigit c n → n < 16 := by
    rintro c n (⟨hlt, -⟩ | ⟨-, hlt, -⟩)
    · omega
    · exact hlt
  have hlt₁ := hdigit _ _ h₁
  have hlt₂ := hdigit _ _ h₂
  have hlt₃ := hdigit _ _ h₃
  have hlt₄ := hdigit _ _ h₄
  exact ⟨rfl, by omega⟩

theorem decodeHexQuad_bounds (h : decodeHexQuad cursor = some (unit, rest)) :
    unit ≤ 0xFFFF ∧ cursor.length = 4 + rest.length := by
  obtain ⟨quad, hquad, rfl⟩ := quad_of_decodeHexQuad h
  obtain ⟨hlength, hunit⟩ := hexQuad_bounds hquad
  rw [List.length_append, hlength]
  exact ⟨hunit, rfl⟩

theorem length_encodeUtf8_le (codepoint : Nat) : (encodeUtf8 codepoint).length ≤ 4 := by
  rw [encodeUtf8]
  split
  · simp
  · split
    · simp
    · split
      · simp
      · simp

theorem length_encodeUtf8_unit (h : codepoint ≤ 0xFFFF) : (encodeUtf8 codepoint).length ≤ 3 := by
  rw [encodeUtf8]
  split
  · simp
  · split
    · simp
    · simp

theorem lowSurrogate_bounds (h : lowSurrogate cursor = some (low, rest)) :
    cursor.length = 6 + rest.length := by
  rw [lowSurrogate.eq_def] at h
  split at h
  · obtain ⟨⟨unit, after⟩, hdecode, h⟩ := Option.bind_eq_some_iff.1 h
    dsimp only at h
    split at h
    · cases h
      have hlength := (decodeHexQuad_bounds hdecode).2
      rw [List.length_cons, List.length_cons]
      omega
    · cases h
  · cases h

/-- What an escape for a code unit, or for a pair of them, stands for takes no more room than its
digits. -/
theorem decodeUnicode_bounds (h : decodeUnicode cursor = some (codepoint, rest)) :
    (encodeUtf8 codepoint).length + rest.length ≤ cursor.length := by
  obtain ⟨⟨unit, after⟩, hdecode, h⟩ := Option.bind_eq_some_iff.1 h
  obtain ⟨hunit, hlength⟩ := decodeHexQuad_bounds hdecode
  dsimp only at h
  cases hpair : (if isHighSurrogate unit then lowSurrogate after else none) with
  | some pair =>
    obtain ⟨low, behind⟩ := pair
    rw [hpair] at h
    obtain ⟨-, hrest⟩ := Prod.mk.inj (Option.some.inj h)
    dsimp only at hrest
    subst hrest
    have hfour := length_encodeUtf8_le codepoint
    have hafter : after.length = 6 + behind.length := by
      split at hpair
      · exact lowSurrogate_bounds hpair
      · cases hpair
    omega
  | none =>
    rw [hpair] at h
    obtain ⟨hcodepoint, hrest⟩ := Prod.mk.inj (Option.some.inj h)
    dsimp only at hcodepoint hrest
    subst hrest
    have hthree : (encodeUtf8 codepoint).length ≤ 3 := by
      apply length_encodeUtf8_unit
      rw [← hcodepoint]
      split
      · decide
      · exact hunit
    omega

section
variable {memory : Memory} {result outputSize size : Nat}

/-- What the loop of the decoder leaves behind `result`. -/
def Decodes (memory : Memory) (result outputSize size : Nat) (decoded : Option (List UInt8))
    (r : Option Nat) (memory' : Memory) : Prop :=
  match decoded with
  | none => r = none
  | some bytes => r = some (outputSize + bytes.length) ∧ outputSize + bytes.length ≤ size ∧
      memory' = place memory (result + outputSize) bytes

theorem Decodes.after {bytes : List UInt8} {decoded : Option (List UInt8)}
    (h : Decodes (place memory (result + outputSize) bytes) result (outputSize + bytes.length) size
      decoded r memory') :
    Decodes memory result outputSize size (decoded.bind fun rest => some (bytes ++ rest)) r
      memory' := by
  cases decoded with
  | none => exact h
  | some rest =>
    obtain ⟨hr, hsize, hmemory⟩ := h
    refine ⟨?_, ?_, ?_⟩
    · rw [hr, List.length_append, Nat.add_assoc]
    · rw [List.length_append]
      omega
    · rw [hmemory]
      exact place_place bytes rest (Nat.add_assoc _ _ _).symm

/-- The decoder never writes more bytes than it has read. -/
theorem decodeStringAt_decodes (h : outputSize + cursor.length ≤ size) :
    Keeps result (result + size) (decodeStringAt result n outputSize cursor)
      (Decodes memory result outputSize size (decodeString n cursor)) memory := by
  induction n generalizing outputSize cursor memory with
  | zero =>
    cases cursor with
    | nil =>
      refine keeps_pure.2 ⟨rfl, h, ?_⟩
      rw [place_nil]
    | cons c cursor => exact keeps_pure.2 rfl
  | succ n ih =>
    cases cursor with
    | nil =>
      refine keeps_pure.2 ⟨rfl, h, ?_⟩
      rw [place_nil]
    | cons c cursor =>
      rw [List.length_cons] at h
      rw [decodeStringAt.eq_def, decodeString.eq_def]
      dsimp only
      split
      · refine keeps_bind.2 (keeps_store.2 ⟨by omega, ?_⟩)
        exact (ih (by omega)).mono fun r memory' hr => hr.after
      · cases cursor with
        | nil => exact keeps_pure.2 rfl
        | cons e cursor =>
          rw [List.length_cons] at h
          dsimp only
          cases hsimple : simpleEscape e with
          | some d =>
            refine keeps_bind.2 (keeps_store.2 ⟨by omega, ?_⟩)
            exact (ih (by omega)).mono fun r memory' hr => hr.after
          | none =>
            dsimp only
            split
            · cases hunicode : decodeUnicode cursor with
              | none => exact keeps_pure.2 rfl
              | some decoded =>
                obtain ⟨codepoint, rest⟩ := decoded
                have hbounds := decodeUnicode_bounds hunicode
                refine keeps_bind.2 (keeps_storeBytes (by omega) (by omega) ?_)
                exact (ih (by omega)).mono fun r memory' hr => hr.after
            · exact keeps_pure.2 rfl

theorem duplicateJsonStringAt_decodes (memory : Memory) (value : JsonValue) (result : Nat) :
    Keeps result (result + value.text.length) (duplicateJsonStringAt value result)
      (fun r memory' => match duplicateJsonString value with
        | none => r = none
        | some bytes => r = some bytes.length ∧ bytes.length + 1 ≤ value.text.length ∧
          memory' = place memory result (bytes ++ [0])) memory := by
  rw [duplicateJsonStringAt, duplicateJsonString]
  split
  · exact keeps_pure.2 rfl
  rename_i hvalue
  have hinner : value.inner.length + 2 = value.text.length := by
    have hlength : 2 ≤ value.text.length := Nat.le_of_not_lt (not_or.1 hvalue).2
    rw [JsonValue.inner, List.length_dropLast, List.length_tail]
    omega
  have hloop : Keeps result (result + value.inner.length) _ _ memory :=
    decodeStringAt_decodes (n := value.inner.length)
      (show 0 + value.inner.length ≤ value.inner.length by omega)
  refine keeps_bind.2 ((hloop.widen (Nat.le_refl _) (by omega)).mono ?_)
  intro r memory' hr
  cases hdecoded : decodeString value.inner.length value.inner with
  | none =>
    rw [hdecoded] at hr
    rw [show r = none from hr]
    exact keeps_pure.2 rfl
  | some bytes =>
    rw [hdecoded] at hr
    obtain ⟨rfl, hsize, rfl⟩ := hr
    rw [Nat.zero_add] at hsize ⊢
    refine keeps_bind.2 (keeps_store.2 ⟨by omega, ?_⟩)
    refine keeps_pure.2 ⟨rfl, by omega, ?_⟩
    exact place_place bytes [0] rfl

end

/-- The literal between two quotes. -/
def quoted (literal : List UInt8) : JsonValue := ⟨0x22 :: (literal ++ [0x22]), .string⟩

/-- The copy of a string is the bytes that it stands for and a NUL, and it fits in the room that the
string takes; the copy of UTF-8 is UTF-8. -/
theorem json_string_decoded (literal bytes : List UInt8) (h : Unescapes literal bytes)
    (memory : Memory) (result : Nat) :
    Keeps result (result + (quoted literal).text.length)
      (duplicateJsonStringAt (quoted literal) result)
      (fun r memory' => r = some bytes.length ∧
        (bytes ++ [0]).length ≤ (quoted literal).text.length ∧
        memory' = place memory result (bytes ++ [0])) memory ∧
    (Utf8.Valid literal → Utf8.Valid bytes) := by
  refine ⟨?_, h.valid⟩
  refine (duplicateJsonStringAt_decodes memory (quoted literal) result).mono ?_
  intro r memory' hr
  rw [quoted, duplicateJsonString_unescapes h] at hr
  obtain ⟨hsize, hfits, hmemory⟩ := hr
  refine ⟨hsize, ?_, hmemory⟩
  rw [List.length_append]
  exact hfits

/-- A name with Š as an escape, as half of a pair and as it is. -/
def escapedName : List UInt8 := ascii "\\u0160\\ud83d" ++ [0xC5, 0xA0]

theorem escapedName_unescapes :
    Unescapes escapedName [0xC5, 0xA0, 0xEF, 0xBF, 0xBD, 0xC5, 0xA0] := by
  have hraw : Unescapes [0xC5, 0xA0] [0xC5, 0xA0] :=
    .raw (by decide) (by decide) (by decide) (.raw (by decide) (by decide) (by decide) .nil)
  have hdigit : ∀ n < 10, HexDigit (UInt8.ofNat (0x30 + n)) n := fun n hn => .inl ⟨hn, rfl⟩
  have hd : HexDigit 0x64 13 := .inr ⟨by decide, by decide, .inl rfl⟩
  have hhalf : HexQuad [0x64, 0x38, 0x33, 0x64] 0xD83D :=
    .intro hd (hdigit 8 (by decide)) (hdigit 3 (by decide)) hd
  have hletter : HexQuad [0x30, 0x31, 0x36, 0x30] (Char.ofNat 0x160).toNat :=
    .intro (hdigit 0 (by decide)) (hdigit 1 (by decide)) (hdigit 6 (by decide))
      (hdigit 0 (by decide))
  have halone : IsHigh 0xD83D → ∀ quad' low rest, HexQuad quad' low → IsLow low →
      ([0xC5, 0xA0] : List UInt8) ≠ 0x5C :: 0x75 :: (quad' ++ rest) := by
    intro _ quad' low rest _ _ h
    exact absurd (List.cons.inj h).1 (by decide)
  exact .unicode hletter (.half hhalf (.inl ⟨by decide, by decide⟩) halone hraw)

theorem json_string_decoded_name :
    Unescapes escapedName [0xC5, 0xA0, 0xEF, 0xBF, 0xBD, 0xC5, 0xA0] ∧
    Keeps 0 16 (duplicateJsonStringAt (quoted escapedName) 0)
      (fun r memory' => r = some 7 ∧ 8 ≤ 16 ∧
        memory' = place (fun _ => 0) 0 [0xC5, 0xA0, 0xEF, 0xBF, 0xBD, 0xC5, 0xA0, 0])
      (fun _ => 0) :=
  ⟨escapedName_unescapes, (json_string_decoded _ _ escapedName_unescapes (fun _ => 0) 0).1⟩

end SquidServer.RetroVault

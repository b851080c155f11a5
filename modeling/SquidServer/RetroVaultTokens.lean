import SquidServer.RetroVaultJsonBounds

namespace SquidServer.RetroVault
open CText Json
set_option autoImplicit true

/-- A value of a type begins so, and so much stands behind it; `levels` levels of nesting are left
for what is in it. -/
inductive Begins (levels : Nat) : List UInt8 → JsonType → List UInt8 → Prop
  | string : scanString rest = some after → Begins levels (0x22 :: rest) .string after
  | emptyObject : skipSpace rest = 0x7D :: after → Begins levels (0x7B :: rest) .object after
  | object : (skipSpace rest).head? ≠ some 0x7D →
      objectEnd (afterValue levels) (rest.length + 1) (skipSpace rest) = some after →
      Begins levels (0x7B :: rest) .object after
  | emptyArray : skipSpace rest = 0x5D :: after → Begins levels (0x5B :: rest) .array after
  | array : (skipSpace rest).head? ≠ some 0x5D →
      arrayEnd (afterValue levels) (rest.length + 1) (skipSpace rest) = some after →
      Begins levels (0x5B :: rest) .array after
  | boolean (value : Bool) (after : List UInt8) :
      Begins levels (ascii (if value then "true" else "false") ++ after) .boolean after
  | null (after : List UInt8) : Begins levels (ascii "null" ++ after) .null after
  | number : c = 0x2D ∨ isDigit c = true →
      Begins levels (c :: rest) .number (rest.dropWhile isNumberCharacter)

theorem word_drop {word : List UInt8} (h : word.isPrefixOf start = true) :
    start = word ++ start.drop word.length := by
  obtain ⟨after, rfl⟩ := List.isPrefixOf_iff_prefix.1 h
  rw [List.drop_left]

theorem opened_cases {loop : Option (List UInt8)}
    (h : (if (skipSpace rest).head? = some bracket then some (skipSpace rest).tail else loop) =
      some after) :
    skipSpace rest = bracket :: after ∨
      (skipSpace rest).head? ≠ some bracket ∧ loop = some after := by
  split at h
  · rename_i hhead
    obtain ⟨more, hmore⟩ := List.head?_eq_some_iff.1 hhead
    rw [hmore, List.tail_cons] at h
    rw [hmore, Option.some.inj h]
    exact .inl rfl
  · rename_i hhead
    exact .inr ⟨hhead, h⟩

theorem begins_of_parse (h : parseValueInternal (levels + 1) cursor = some (value, after)) :
    ∃ type, Begins levels (skipSpace cursor) type after ∧
      (value, after) = valueBetween type (skipSpace cursor) after := by
  have hmap {type : JsonType} {start : List UInt8} {r : Option (List UInt8)}
      (h : r.map (valueBetween type start) = some (value, after)) :
      r = some after ∧ (value, after) = valueBetween type start after := by
    obtain ⟨after', hr, hvalue⟩ := Option.map_eq_some_iff.1 h
    obtain rfl : after' = after := congrArg Prod.snd hvalue
    exact ⟨hr, hvalue.symm⟩
  have hword (word : List UInt8) {type : JsonType} {start : List UInt8}
      (h : some (valueBetween type start (start.drop word.length)) = some (value, after)) :
      start.drop word.length = after ∧ (value, after) = valueBetween type start after := by
    have hafter : start.drop word.length = after := congrArg Prod.snd (Option.some.inj h)
    exact ⟨hafter, hafter ▸ (Option.some.inj h).symm⟩
  cases hstart : skipSpace cursor with
  | nil =>
    rw [parseValueInternal, hstart] at h
    cases h
  | cons c rest =>
    by_cases hobject : c = 0x7B
    · subst hobject
      rw [parseValueInternal_opensObject hstart] at h
      obtain ⟨hend, hvalue⟩ := hmap h
      rcases opened_cases hend with hclose | ⟨hopen, hend⟩
      · exact ⟨_, .emptyObject hclose, hvalue⟩
      · exact ⟨_, .object hopen hend, hvalue⟩
    by_cases harray : c = 0x5B
    · subst harray
      rw [parseValueInternal_opensArray hstart] at h
      obtain ⟨hend, hvalue⟩ := hmap h
      rcases opened_cases hend with hclose | ⟨hopen, hend⟩
      · exact ⟨_, .emptyArray hclose, hvalue⟩
      · exact ⟨_, .array hopen hend, hvalue⟩
    rw [parseValueInternal, hstart] at h
    dsimp only at h
    rw [if_neg hobject, if_neg harray] at h
    split at h
    · rename_i hc
      subst hc
      obtain ⟨hend, hvalue⟩ := hmap h
      exact ⟨_, .string hend, hvalue⟩
    split at h
    · rename_i hprefix
      obtain ⟨hafter, hvalue⟩ := hword (ascii "true") h
      refine ⟨_, ?_, hvalue⟩
      rw [word_drop hprefix, hafter]
      exact .boolean true after
    split at h
    · rename_i hprefix
      obtain ⟨hafter, hvalue⟩ := hword (ascii "false") h
      refine ⟨_, ?_, hvalue⟩
      rw [word_drop hprefix, hafter]
      exact .boolean false after
    split at h
    · rename_i hprefix
      obtain ⟨hafter, hvalue⟩ := hword (ascii "null") h
      refine ⟨_, ?_, hvalue⟩
      rw [word_drop hprefix, hafter]
      exact .null after
    split at h
    · rename_i hc
      cases h
      exact ⟨_, .number hc, rfl⟩
    · cases h

theorem parse_of_begins (h : Begins levels (skipSpace cursor) type after) :
    parseValueInternal (levels + 1) cursor = some (valueBetween type (skipSpace cursor) after) := by
  generalize hstart : skipSpace cursor = start at h
  cases h with
  | string hend =>
    rw [parseValueInternal, hstart]
    dsimp only
    rw [if_pos rfl, parseStringEnd, if_pos rfl, hend, Option.map_some]
  | emptyObject hclose =>
    rw [parseValueInternal_opensObject hstart, hclose, List.head?_cons, if_pos rfl]
    rfl
  | object hopen hend =>
    rw [parseValueInternal_opensObject hstart, if_neg hopen, hend]
    rfl
  | emptyArray hclose =>
    rw [parseValueInternal_opensArray hstart, hclose, List.head?_cons, if_pos rfl]
    rfl
  | array hopen hend =>
    rw [parseValueInternal_opensArray hstart, if_neg hopen, hend]
    rfl
  | boolean value after =>
    rw [← parseValueInternal_skipSpace, hstart, parseValueInternal_boolean, valueBetween_append]
  | null after =>
    rw [← parseValueInternal_skipSpace, hstart, parseValueInternal_null, valueBetween_append]
  | number hc => rw [← parseValueInternal_skipSpace, hstart, parseValueInternal_sign hc]

/-- What the scanner passes between the quotes of a string; `clean` is false if it has taken a NUL
for the end of an escape. -/
inductive Passed : Bool → List UInt8 → Prop
  | nil : Passed true []
  | plain : 0x20 ≤ c → c ≠ 0x22 → c ≠ 0x5C → Passed clean text → Passed clean (c :: text)
  | short : e ∈ ascii "\"\\/bfnrt" → Passed clean text → Passed clean (0x5C :: e :: text)
  | nul : Passed clean text → Passed false (0x5C :: 0 :: text)
  | unicode : isXDigit h₁ = true → isXDigit h₂ = true → isXDigit h₃ = true → isXDigit h₄ = true →
      Passed clean text → Passed clean (0x5C :: 0x75 :: h₁ :: h₂ :: h₃ :: h₄ :: text)

theorem scanString_passed (h : scanString cursor = some after) :
    ∃ clean text, cursor = text ++ 0x22 :: after ∧ Passed clean text := by
  fun_induction scanString cursor with
  | case2 rest =>
    cases h
    exact ⟨true, [], rfl, .nil⟩
  | case5 e rest hescape _ _ ih =>
    obtain ⟨clean, text, rfl, htext⟩ := ih h
    have hcases : e ∈ ascii "\"\\/bfnrt" ∨ e = 0 := of_decide_eq_true hescape
    rcases hcases with hmem | rfl
    · exact ⟨clean, 0x5C :: e :: text, rfl, .short hmem htext⟩
    · exact ⟨false, 0x5C :: 0 :: text, rfl, .nul htext⟩
  | case6 h₁ h₂ h₃ h₄ rest hdigits _ _ _ ih =>
    obtain ⟨clean, text, rfl, htext⟩ := ih h
    obtain ⟨hd₁, hd₂, hd₃, hd₄⟩ := hdigits
    exact ⟨clean, 0x5C :: 0x75 :: h₁ :: h₂ :: h₃ :: h₄ :: text, rfl,
      .unicode hd₁ hd₂ hd₃ hd₄ htext⟩
  | case10 c rest hquote hlow hescape ih =>
    obtain ⟨clean, text, rfl, htext⟩ := ih h
    exact ⟨clean, c :: text, rfl, .plain (UInt8.not_lt.1 hlow) hquote hescape htext⟩
  | _ => cases h

theorem Passed.scanString (h : Passed clean text) (rest : List UInt8) :
    scanString (text ++ 0x22 :: rest) = some rest := by
  induction h with
  | nil =>
    rw [List.nil_append, RetroVault.scanString.eq_def]
    rfl
  | plain hlow hquote hescape _ ih =>
    rw [List.cons_append, RetroVault.scanString.eq_def]
    dsimp only
    rw [if_neg hquote, if_neg (UInt8.not_lt.2 hlow), if_neg hescape, ih]
  | short hmem _ ih =>
    rename_i e _ _ _
    have hescape : isEscape e = true := decide_eq_true (.inl hmem)
    rw [List.cons_append, List.cons_append, RetroVault.scanString.eq_def]
    dsimp only
    rw [if_neg (by decide), if_neg (by decide), if_pos rfl, if_pos hescape, ih]
  | nul _ ih =>
    rw [List.cons_append, List.cons_append, RetroVault.scanString.eq_def]
    dsimp only
    rw [if_neg (by decide), if_neg (by decide), if_pos rfl, if_pos (by decide), ih]
  | unicode hd₁ hd₂ hd₃ hd₄ _ ih =>
    have hnot : isEscape 0x75 = false := by decide
    simp [RetroVault.scanString, hnot, hd₁, hd₂, hd₃, hd₄, ih]

/-- Every backslash starts an escape. -/
inductive WellEscaped : List UInt8 → Prop
  | nil : WellEscaped []
  | plain : c ≠ 0x5C → WellEscaped text → WellEscaped (c :: text)
  | short : e ∈ ascii "\"\\/bfnrt" → WellEscaped text → WellEscaped (0x5C :: e :: text)
  | unicode : isXDigit h₁ = true → isXDigit h₂ = true → isXDigit h₃ = true → isXDigit h₄ = true →
      WellEscaped text → WellEscaped (0x5C :: 0x75 :: h₁ :: h₂ :: h₃ :: h₄ :: text)

/-- Behind an opening quote, a backslash stands before a NUL in the string. -/
def escapesNul : List UInt8 → Bool
  | [] => false
  | c :: rest =>
    if c = 0x22 then false
    else if c = 0x5C then
      match rest with
      | [] => false
      | e :: rest => e = 0 || escapesNul rest
    else escapesNul rest

theorem isXDigit_plain (h : isXDigit c = true) : c ≠ 0x22 ∧ c ≠ 0x5C := by
  constructor
  · rintro rfl
    exact absurd h (by decide)
  · rintro rfl
    exact absurd h (by decide)

theorem escapesNul_cons (hquote : c ≠ 0x22) (hescape : c ≠ 0x5C) (rest : List UInt8) :
    escapesNul (c :: rest) = escapesNul rest := by
  rw [escapesNul.eq_def]
  dsimp only
  rw [if_neg hquote, if_neg hescape]

theorem escapesNul_escape (e : UInt8) (rest : List UInt8) :
    escapesNul (0x5C :: e :: rest) = (decide (e = 0) || escapesNul rest) := by
  rw [escapesNul.eq_def]
  dsimp only
  rw [if_neg (by decide), if_pos rfl]

theorem Passed.escapesNul_eq (h : Passed clean text) (rest : List UInt8) :
    escapesNul (text ++ 0x22 :: rest) = !clean := by
  induction h with
  | nil =>
    rw [List.nil_append, escapesNul.eq_def]
    rfl
  | plain _ hquote hescape _ ih => rw [List.cons_append, escapesNul_cons hquote hescape, ih]
  | short hmem _ ih =>
    rename_i e _ _ _
    have hne : e ≠ 0 := by
      rintro rfl
      exact absurd hmem (by decide)
    rw [List.cons_append, List.cons_append, escapesNul_escape, decide_eq_false hne, ih,
      Bool.false_or]
  | nul _ _ => rw [List.cons_append, List.cons_append, escapesNul_escape]; rfl
  | unicode hd₁ hd₂ hd₃ hd₄ _ ih =>
    simp only [List.cons_append, escapesNul_escape,
      escapesNul_cons (isXDigit_plain hd₁).1 (isXDigit_plain hd₁).2,
      escapesNul_cons (isXDigit_plain hd₂).1 (isXDigit_plain hd₂).2,
      escapesNul_cons (isXDigit_plain hd₃).1 (isXDigit_plain hd₃).2,
      escapesNul_cons (isXDigit_plain hd₄).1 (isXDigit_plain hd₄).2, ih]
    rfl

theorem WellEscaped.tail (h : WellEscaped (c :: text)) (hc : c ≠ 0x5C) : WellEscaped text := by
  cases h with
  | plain _ htext => exact htext
  | short => exact absurd rfl hc
  | unicode => exact absurd rfl hc

theorem WellEscaped.escape (h : WellEscaped (0x5C :: e :: text)) :
    e ∈ ascii "\"\\/bfnrt" ∧ WellEscaped text ∨
      e = 0x75 ∧ ∃ h₁ h₂ h₃ h₄ rest, text = h₁ :: h₂ :: h₃ :: h₄ :: rest ∧ WellEscaped rest := by
  cases h with
  | plain hc => exact absurd rfl hc
  | short hmem htext => exact .inl ⟨hmem, htext⟩
  | unicode _ _ _ _ htext => exact .inr ⟨rfl, _, _, _, _, _, rfl, htext⟩

theorem Passed.wellEscaped_iff (h : Passed clean text) : WellEscaped text ↔ clean = true := by
  induction h with
  | nil => exact iff_of_true .nil rfl
  | plain _ _ hescape _ ih =>
    rw [← ih]
    exact ⟨fun htext => htext.tail hescape, .plain hescape⟩
  | short hmem _ ih =>
    rename_i e _ _ _
    rw [← ih]
    refine ⟨fun htext => ?_, .short hmem⟩
    rcases htext.escape with ⟨-, htext⟩ | ⟨rfl, -⟩
    · exact htext
    · exact absurd hmem (by decide)
  | nul _ _ =>
    refine iff_of_false ?_ Bool.false_ne_true
    intro htext
    rcases htext.escape with ⟨hmem, -⟩ | ⟨hzero, -⟩
    · exact absurd hmem (by decide)
    · cases hzero
  | unicode hd₁ hd₂ hd₃ hd₄ _ ih =>
    rw [← ih]
    refine ⟨fun htext => ?_, .unicode hd₁ hd₂ hd₃ hd₄⟩
    rcases htext.escape with ⟨hmem, -⟩ | ⟨-, _, _, _, _, _, heq, hrest⟩
    · exact absurd hmem (by decide)
    · cases heq
      exact hrest

theorem hexValue_of_isXDigit (h : isXDigit c = true) : ∃ n, hexValue c = some n := by
  have hdigit := of_decide_eq_true h
  rw [isDigit, decide_eq_true_iff] at hdigit
  rw [hexValue]
  rcases hdigit with hdigit | hdigit | hdigit
  · exact ⟨_, if_pos hdigit⟩
  · split
    · exact ⟨_, rfl⟩
    · split
      · exact ⟨_, rfl⟩
      · exact ⟨_, rfl⟩
  · split
    · exact ⟨_, rfl⟩
    · exact ⟨_, rfl⟩

theorem decodeUnicode_wellEscaped (hd₁ : isXDigit h₁ = true) (hd₂ : isXDigit h₂ = true)
    (hd₃ : isXDigit h₃ = true) (hd₄ : isXDigit h₄ = true) (htext : WellEscaped text) :
    ∃ codepoint rest, decodeUnicode (h₁ :: h₂ :: h₃ :: h₄ :: text) = some (codepoint, rest) ∧
      WellEscaped rest ∧ rest.length ≤ text.length := by
  obtain ⟨n₁, hn₁⟩ := hexValue_of_isXDigit hd₁
  obtain ⟨n₂, hn₂⟩ := hexValue_of_isXDigit hd₂
  obtain ⟨n₃, hn₃⟩ := hexValue_of_isXDigit hd₃
  obtain ⟨n₄, hn₄⟩ := hexValue_of_isXDigit hd₄
  have hquad : decodeHexQuad (h₁ :: h₂ :: h₃ :: h₄ :: text) =
      some ((n₁ * 16 + n₂) * 256 + n₃ * 16 + n₄, text) := by
    simp [decodeHexQuad, hn₁, hn₂, hn₃, hn₄]
  generalize (n₁ * 16 + n₂) * 256 + n₃ * 16 + n₄ = unit at hquad
  rw [decodeUnicode, hquad]
  simp only [Option.bind_eq_bind, Option.bind_some]
  cases hpair : (if isHighSurrogate unit then lowSurrogate text else none) with
  | none => exact ⟨_, _, rfl, htext, Nat.le_refl _⟩
  | some pair =>
    obtain ⟨low, rest⟩ := pair
    have hlow : lowSurrogate text = some (low, rest) := by
      split at hpair
      · exact hpair
      · cases hpair
    refine ⟨_, _, rfl, ?_⟩
    rw [lowSurrogate.eq_def] at hlow
    split at hlow
    · obtain ⟨⟨low', rest'⟩, hdecode, hlow⟩ := Option.bind_eq_some_iff.1 hlow
      dsimp only at hlow
      split at hlow
      · cases hlow
        obtain ⟨quad, ⟨_, _, _, _⟩, rfl⟩ := quad_of_decodeHexQuad hdecode
        refine ⟨?_, by simp; omega⟩
        rcases htext.escape with ⟨hmem, -⟩ | ⟨-, _, _, _, _, _, heq, hrest⟩
        · exact absurd hmem (by decide)
        · cases heq
          exact hrest
      · cases hlow
    · cases hlow

theorem WellEscaped.decodeString (h : WellEscaped text) (hn : text.length ≤ n) :
    ∃ bytes, decodeString n text = some bytes := by
  induction n generalizing text with
  | zero =>
    rw [List.length_eq_zero_iff.1 (Nat.le_zero.1 hn)]
    exact ⟨[], rfl⟩
  | succ n ih =>
    cases h with
    | nil => exact ⟨[], rfl⟩
    | plain hc htext =>
      obtain ⟨bytes, hbytes⟩ := ih htext (Nat.le_of_succ_le_succ hn)
      rw [RetroVault.decodeString.eq_def]
      dsimp only
      rw [if_pos hc, hbytes]
      exact ⟨_, rfl⟩
    | short hmem htext =>
      rename_i e text
      obtain ⟨bytes, hbytes⟩ := ih htext (by simp only [List.length_cons] at hn; omega)
      have hall : (ascii "\"\\/bfnrt").all (fun e => (simpleEscape e).isSome) = true := by decide
      obtain ⟨d, hd⟩ := Option.isSome_iff_exists.1 (List.all_eq_true.1 hall e hmem)
      rw [RetroVault.decodeString, if_neg (by simp)]
      dsimp only
      rw [hd, hbytes]
      exact ⟨_, rfl⟩
    | unicode hd₁ hd₂ hd₃ hd₄ htext =>
      obtain ⟨codepoint, rest, hunicode, hrest, hlength⟩ :=
        decodeUnicode_wellEscaped hd₁ hd₂ hd₃ hd₄ htext
      obtain ⟨bytes, hbytes⟩ := ih hrest (by simp only [List.length_cons] at hn; omega)
      exact ⟨_, decodeString_unicode hunicode hbytes⟩

theorem span_of_valueBetween (h : (value, after) = valueBetween type (text ++ after) after) :
    value = ⟨text, type⟩ := by
  rw [valueBetween_append] at h
  exact congrArg Prod.fst h

/-- What the scanner accepts as a string is decoded unless a NUL is escaped in it. -/
theorem string_token (h : Begins levels start type after)
    (hvalue : (value, after) = valueBetween type start after) (hstring : value.type = .string) :
    (WellEscaped value.inner ∧ duplicateJsonString value ≠ none) ↔
      escapesNul start.tail = false := by
  obtain rfl : value.type = type := congrArg (fun r => r.1.type) hvalue
  rw [hstring] at h hvalue
  cases h with
  | string hend =>
    obtain ⟨clean, text, rfl, htext⟩ := scanString_passed hend
    have htoken : 0x22 :: (text ++ 0x22 :: after) = 0x22 :: (text ++ [0x22]) ++ after := by simp
    rw [htoken] at hvalue
    obtain rfl := span_of_valueBetween hvalue
    rw [List.tail_cons, htext.escapesNul_eq, Bool.not_eq_false', ← htext.wellEscaped_iff,
      inner_brackets]
    constructor
    · intro hboth
      exact hboth.1
    · intro hescaped
      refine ⟨hescaped, ?_⟩
      obtain ⟨bytes, hbytes⟩ := hescaped.decodeString (Nat.le_refl _)
      rw [duplicateJsonString, if_neg (by simp), inner_brackets, hbytes]
      exact Option.some_ne_none bytes

/-- The characters of numbers after the first. -/
def isNumeral (c : UInt8) : Bool := c ∈ ascii "0123456789.eE+-"

/-- A minus sign or a digit, and behind it only characters of numbers. -/
def IsNumberToken (text : List UInt8) : Prop :=
  ∃ c rest, text = c :: rest ∧ (c = 0x2D ∨ isDigit c = true) ∧ ∀ d ∈ rest, isNumeral d = true

theorem isNumberCharacter_eq (c : UInt8) : isNumberCharacter c = (isNumeral c || decide (c = 0)) :=
  Bool.decide_or _ _

/-- The scanner passes numerals only unless the first byte behind them is a NUL. -/
theorem numerals_iff (rest : List UInt8) :
    (∀ d ∈ rest.takeWhile isNumberCharacter, isNumeral d = true) ↔
      (rest.dropWhile isNumeral).head? ≠ some 0 := by
  induction rest with
  | nil => exact iff_of_true nofun nofun
  | cons c rest ih =>
    cases hc : isNumeral c with
    | true =>
      have hpass : isNumberCharacter c = true := by rw [isNumberCharacter_eq, hc, Bool.true_or]
      rw [List.takeWhile_cons_of_pos hpass, List.dropWhile_cons_of_pos hc, ← ih,
        List.forall_mem_cons, hc, eq_self, true_and]
    | false =>
      rw [List.dropWhile_cons_of_neg (by rw [hc]; exact Bool.false_ne_true), List.head?_cons]
      by_cases hzero : c = 0
      · have hpass : isNumberCharacter c = true := by rw [hzero]; decide
        rw [List.takeWhile_cons_of_pos hpass, List.forall_mem_cons, hc, hzero]
        simp
      · have hstop : ¬ isNumberCharacter c = true := by
          rw [isNumberCharacter_eq, hc, decide_eq_false hzero]
          exact Bool.false_ne_true
        rw [List.takeWhile_cons_of_neg hstop]
        exact iff_of_true nofun fun h => hzero (Option.some.inj h)

theorem number_token (h : Begins levels start type after)
    (hvalue : (value, after) = valueBetween type start after) (hnumber : value.type = .number) :
    IsNumberToken value.text ↔ (start.tail.dropWhile isNumeral).head? ≠ some 0 := by
  obtain rfl : value.type = type := congrArg (fun r => r.1.type) hvalue
  rw [hnumber] at h hvalue
  cases h with
  | number hc =>
    rename_i c rest
    have htoken : c :: rest = c :: rest.takeWhile isNumberCharacter ++
        rest.dropWhile isNumberCharacter := by
      rw [List.cons_append, List.takeWhile_append_dropWhile]
    rw [htoken] at hvalue
    obtain rfl := span_of_valueBetween hvalue
    rw [List.tail_cons, ← numerals_iff, IsNumberToken]
    constructor
    · rintro ⟨d, digits, heq, -, hdigits⟩
      cases heq
      exact hdigits
    · intro hdigits
      exact ⟨c, _, rfl, hc, hdigits⟩

/-- What the scanner accepts as a string or a number is a token of the language, and a string that
can be decoded, except where `strchr` has found the NUL that ends its list: in a string an escaped
NUL, in a number a NUL behind its characters. -/
theorem tokens_accepted (h : parseValueInternal levels cursor = some (value, after)) :
    (value.type = .string → (WellEscaped value.inner ∧ duplicateJsonString value ≠ none ↔
      escapesNul (skipSpace cursor).tail = false)) ∧
    (value.type = .number → (IsNumberToken value.text ↔
      ((skipSpace cursor).tail.dropWhile isNumeral).head? ≠ some 0)) := by
  cases levels with
  | zero => cases h
  | succ levels =>
    obtain ⟨type, hbegins, hvalue⟩ := begins_of_parse h
    exact ⟨string_token hbegins hvalue, number_token hbegins hvalue⟩

/-- The string "a\n" before a comma, and the number -12.5e3 before a bracket. -/
theorem tokens_accepted_examples :
    (WellEscaped [0x61, 0x5C, 0x6E] ∧
      duplicateJsonString ⟨[0x22, 0x61, 0x5C, 0x6E, 0x22], .string⟩ ≠ none) ∧
    IsNumberToken [0x2D, 0x31, 0x32, 0x2E, 0x35, 0x65, 0x33] := by
  have hstring : parseValueInternal 1 [0x20, 0x22, 0x61, 0x5C, 0x6E, 0x22, 0x2C] =
      some (⟨[0x22, 0x61, 0x5C, 0x6E, 0x22], .string⟩, [0x2C]) := by decide
  have hnumber : parseValueInternal 1 [0x2D, 0x31, 0x32, 0x2E, 0x35, 0x65, 0x33, 0x5D] =
      some (⟨[0x2D, 0x31, 0x32, 0x2E, 0x35, 0x65, 0x33], .number⟩, [0x5D]) := by decide
  exact ⟨((tokens_accepted hstring).1 rfl).2 (by decide),
    ((tokens_accepted hnumber).2 rfl).2 (by decide)⟩

/-- A string with an escaped NUL and a number with a NUL behind its digit are accepted. -/
theorem nul_accepted :
    (∃ after, parseValue [0x22, 0x5C, 0, 0x22] =
        some (⟨[0x22, 0x5C, 0, 0x22], .string⟩, after) ∧
      ¬ WellEscaped [0x5C, 0] ∧ duplicateJsonString ⟨[0x22, 0x5C, 0, 0x22], .string⟩ = none) ∧
    ∃ after, parseValue [0x31, 0] = some (⟨[0x31, 0], .number⟩, after) ∧
      ¬ IsNumberToken [0x31, 0] := by
  refine ⟨⟨[], by decide, ?_, by decide⟩, [], by decide, ?_⟩
  · intro hescaped
    rcases hescaped.escape with ⟨hmem, -⟩ | ⟨hzero, -⟩
    · exact absurd hmem (by decide)
    · cases hzero
  · rintro ⟨c, rest, heq, -, hrest⟩
    cases heq
    exact absurd (hrest 0 List.mem_cons_self) (by decide)

end SquidServer.RetroVault

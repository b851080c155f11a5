import SquidServer.RetroVaultStrings

namespace SquidServer.RetroVault
open CText Json
set_option autoImplicit true

/-- The type of a value. -/
def typeOf : Value → JsonType
  | .null => .null
  | .boolean _ => .boolean
  | .number _ => .number
  | .string _ => .string
  | .array _ => .array
  | .object _ => .object

/-- What comes next is no part of a number. -/
def Stops (rest : List UInt8) : Prop := ∀ c ∈ rest.head?, isNumberCharacter c = false

theorem stops_cons (h : isNumberCharacter c = false) (rest : List UInt8) : Stops (c :: rest) := by
  intro d hd
  obtain rfl : c = d := Option.some.inj hd
  exact h

theorem stops_append (h : Space before) (hrest : Stops rest) : Stops (before ++ rest) := by
  cases before with
  | nil => exact hrest
  | cons c before =>
    refine stops_cons ?_ _
    rcases h c List.mem_cons_self with rfl | rfl | rfl | rfl <;> decide

theorem valueBetween_append (type : JsonType) (text rest : List UInt8) :
    valueBetween type (text ++ rest) rest = (⟨text, type⟩, rest) := by
  rw [valueBetween, List.length_append, Nat.add_sub_cancel, List.take_left]

theorem isNumberCharacter_of_isDigit (h : isDigit c = true) : isNumberCharacter c = true := by
  have hall : ∀ k < 10, isNumberCharacter (UInt8.ofNat (0x30 + k)) = true := by decide
  have hdigit : 0x30 ≤ c ∧ c ≤ 0x39 := of_decide_eq_true h
  have hlow : 0x30 ≤ c.toNat := hdigit.1
  have hhigh : c.toNat ≤ 0x39 := hdigit.2
  have hc := hall (c.toNat - 0x30) (by omega)
  rwa [Nat.add_sub_cancel' hlow, UInt8.ofNat_toNat] at hc

theorem isNumber_characters (h : IsNumber text) :
    ∃ c rest, text = c :: rest ∧ (c = 0x2D ∨ isDigit c = true) ∧
      ∀ d ∈ rest, isNumberCharacter d = true := by
  obtain ⟨sign, integer, fraction, exponent, hsign, ⟨⟨hne, hinteger⟩, -⟩, hfraction, hexponent,
    rfl⟩ := h
  have hfractionAll : ∀ d ∈ fraction, isNumberCharacter d = true := by
    intro d hd
    rcases hfraction with rfl | ⟨digits, ⟨-, hdigits⟩, rfl⟩
    · cases hd
    · rcases List.mem_cons.1 hd with rfl | hd
      · decide
      · exact isNumberCharacter_of_isDigit (hdigits d hd)
  have hexponentAll : ∀ d ∈ exponent, isNumberCharacter d = true := by
    intro d hd
    rcases hexponent with rfl | ⟨e, mark, digits, he, hmark, ⟨-, hdigits⟩, rfl⟩
    · cases hd
    · rcases List.mem_cons.1 hd with rfl | hd
      · rcases he with rfl | rfl <;> decide
      · rcases List.mem_append.1 hd with hd | hd
        · rcases hmark with rfl | rfl | rfl
          · cases hd
          · rw [List.mem_singleton.1 hd]
            decide
          · rw [List.mem_singleton.1 hd]
            decide
        · exact isNumberCharacter_of_isDigit (hdigits d hd)
  have hrest : ∀ d ∈ fraction ++ exponent, isNumberCharacter d = true := by
    intro d hd
    exact (List.mem_append.1 hd).elim (hfractionAll d) (hexponentAll d)
  obtain ⟨c, more, rfl⟩ := List.exists_cons_of_ne_nil hne
  have hmore : ∀ d ∈ more ++ (fraction ++ exponent), isNumberCharacter d = true := by
    intro d hd
    rcases List.mem_append.1 hd with hd | hd
    · exact isNumberCharacter_of_isDigit (hinteger d (List.mem_cons_of_mem c hd))
    · exact hrest d hd
  have hc := hinteger c List.mem_cons_self
  rcases hsign with rfl | rfl
  · exact ⟨c, more ++ (fraction ++ exponent), rfl, .inr hc, hmore⟩
  · refine ⟨0x2D, c :: (more ++ (fraction ++ exponent)), rfl, .inl rfl, ?_⟩
    intro d hd
    rcases List.mem_cons.1 hd with rfl | hd
    · exact isNumberCharacter_of_isDigit hc
    · exact hmore d hd

theorem dropWhile_stops (h : ∀ d ∈ text, isNumberCharacter d = true) (hrest : Stops rest) :
    (text ++ rest).dropWhile isNumberCharacter = rest := by
  rw [List.dropWhile_append_of_pos h]
  cases rest with
  | nil => rfl
  | cons c rest => exact List.dropWhile_cons_of_neg (by rw [hrest c rfl]; decide)

theorem parseValueInternal_skipSpace (levels : Nat) (cursor : List UInt8) :
    parseValueInternal levels (skipSpace cursor) = parseValueInternal levels cursor := by
  cases levels with
  | zero => rfl
  | succ levels => rw [parseValueInternal, parseValueInternal, skipSpace_skipSpace]

theorem parseValueInternal_space (h : Space before) (levels : Nat) (cursor : List UInt8) :
    parseValueInternal levels (before ++ cursor) = parseValueInternal levels cursor := by
  rw [← parseValueInternal_skipSpace, skipSpace_append h, parseValueInternal_skipSpace]

/-- A scanner with so many levels finds the end of such values. -/
def Scans (levels : Nat) (Child : Value → List UInt8 → Prop) : Prop :=
  ∀ value text, Child value text → ∀ rest, Stops rest →
    parseValueInternal levels (text ++ rest) = some (⟨text, typeOf value⟩, rest)

theorem Scans.item (h : Scans levels Child) (hitem : Child value body) (hbefore : Space before)
    (hafter : Space after) (hrest : Stops rest) :
    parseValueInternal levels (before ++ (body ++ after) ++ rest) =
      some (⟨body, typeOf value⟩, after ++ rest) := by
  rw [List.append_assoc, List.append_assoc, parseValueInternal_space hbefore]
  exact h value body hitem (after ++ rest) (stops_append hafter hrest)

theorem parseValueInternal_string (h : Spells string body) (levels : Nat) (rest : List UInt8) :
    parseValueInternal (levels + 1) (0x22 :: (body ++ [0x22]) ++ rest) =
      some (⟨0x22 :: (body ++ [0x22]), .string⟩, rest) := by
  have htext : 0x22 :: (body ++ [0x22]) ++ rest = 0x22 :: (body ++ 0x22 :: rest) := by simp
  have hend : parseStringEnd (0x22 :: (body ++ 0x22 :: rest)) = some rest :=
    scanString_spells h rest
  rw [htext, parseValueInternal, skipSpace_cons (by decide)]
  dsimp only
  rw [if_pos rfl, hend, Option.map_some, ← htext, valueBetween_append]

theorem true_head : (ascii "true").head? = some 0x74 := rfl

theorem false_head : (ascii "false").head? = some 0x66 := rfl

theorem null_head : (ascii "null").head? = some 0x6E := rfl

theorem not_isPrefixOf {word : List UInt8} (hword : word.head? = some d) (h : c ≠ d)
    (rest : List UInt8) : ¬ word.isPrefixOf (c :: rest) = true := by
  obtain ⟨more, rfl⟩ := List.head?_eq_some_iff.1 hword
  rw [List.isPrefixOf_cons_cons, beq_false_of_ne h.symm, Bool.false_and]
  exact Bool.false_ne_true

theorem parseValueInternal_sign (hc : c = 0x2D ∨ isDigit c = true) (levels : Nat)
    (rest : List UInt8) : parseValueInternal (levels + 1) (c :: rest) =
      some (valueBetween .number (c :: rest) (rest.dropWhile isNumberCharacter)) := by
  have hstart : c.toNat = 0x2D ∨ 0x30 ≤ c.toNat ∧ c.toNat ≤ 0x39 := by
    rcases hc with rfl | hc
    · exact .inl rfl
    · exact .inr (of_decide_eq_true hc)
  have hne : ∀ d : UInt8, d.toNat < 0x2D ∨ 0x39 < d.toNat → c ≠ d := by
    rintro d hd rfl
    omega
  have hspace : isSpace c = false := by
    rw [isSpace, decide_eq_false_iff_not, UInt8.le_iff_toNat_le, UInt8.le_iff_toNat_le]
    rintro (rfl | h)
    · exact absurd hstart (by decide)
    · simp only [UInt8.reduceToNat] at h
      omega
  rw [parseValueInternal, skipSpace_cons hspace]
  dsimp only
  rw [if_neg (hne _ (by decide)), if_neg (hne _ (by decide)), if_neg (hne _ (by decide)),
    if_neg (not_isPrefixOf true_head (hne _ (by decide)) _),
    if_neg (not_isPrefixOf false_head (hne _ (by decide)) _),
    if_neg (not_isPrefixOf null_head (hne _ (by decide)) _), if_pos hc]

theorem parseValueInternal_number (h : IsNumber text) (levels : Nat) (hrest : Stops rest) :
    parseValueInternal (levels + 1) (text ++ rest) = some (⟨text, .number⟩, rest) := by
  obtain ⟨c, more, rfl, hc, hmore⟩ := isNumber_characters h
  rw [List.cons_append, parseValueInternal_sign hc, dropWhile_stops hmore hrest,
    ← List.cons_append, valueBetween_append]

theorem parseValueInternal_null (levels : Nat) (rest : List UInt8) :
    parseValueInternal (levels + 1) (ascii "null" ++ rest) =
      some (⟨ascii "null", .null⟩, rest) := by
  have htext : ascii "null" ++ rest = 0x6E :: (ascii "ull" ++ rest) := rfl
  have hword : (ascii "null").isPrefixOf (0x6E :: (ascii "ull" ++ rest)) = true := rfl
  rw [htext, parseValueInternal, skipSpace_cons (by decide)]
  dsimp only
  rw [if_neg (by decide), if_neg (by decide), if_neg (by decide),
    if_neg (not_isPrefixOf true_head (by decide) _),
    if_neg (not_isPrefixOf false_head (by decide) _), if_pos hword, ← htext]
  exact congrArg some (valueBetween_append .null (ascii "null") rest)

theorem parseValueInternal_boolean (value : Bool) (levels : Nat) (rest : List UInt8) :
    parseValueInternal (levels + 1) (ascii (if value then "true" else "false") ++ rest) =
      some (⟨ascii (if value then "true" else "false"), .boolean⟩, rest) := by
  cases value with
  | true =>
    have htext : ascii "true" ++ rest = 0x74 :: (ascii "rue" ++ rest) := rfl
    have hword : (ascii "true").isPrefixOf (0x74 :: (ascii "rue" ++ rest)) = true := rfl
    rw [if_pos rfl, htext, parseValueInternal, skipSpace_cons (by decide)]
    dsimp only
    rw [if_neg (by decide), if_neg (by decide), if_neg (by decide), if_pos hword, ← htext]
    exact congrArg some (valueBetween_append .boolean (ascii "true") rest)
  | false =>
    have htext : ascii "false" ++ rest = 0x66 :: (ascii "alse" ++ rest) := rfl
    have hword : (ascii "false").isPrefixOf (0x66 :: (ascii "alse" ++ rest)) = true := rfl
    rw [if_neg Bool.false_ne_true, htext, parseValueInternal, skipSpace_cons (by decide)]
    dsimp only
    rw [if_neg (by decide), if_neg (by decide), if_neg (by decide),
      if_neg (not_isPrefixOf true_head (by decide) _), if_pos hword, ← htext]
    exact congrArg some (valueBetween_append .boolean (ascii "false") rest)

theorem parseValueInternal_bracket (levels : Nat) (rest : List UInt8) :
    parseValueInternal levels (0x5D :: rest) = none := by
  cases levels with
  | zero => rfl
  | succ levels =>
    rw [parseValueInternal, skipSpace_cons (by decide)]
    dsimp only
    rw [if_neg (by decide), if_neg (by decide), if_neg (by decide),
      if_neg (not_isPrefixOf true_head (by decide) _),
      if_neg (not_isPrefixOf false_head (by decide) _),
      if_neg (not_isPrefixOf null_head (by decide) _), if_neg (by decide)]

/-- What follows a value of an array or an object. -/
def afterValue (levels : Nat) (current : List UInt8) : Option (List UInt8) :=
  (parseValueInternal levels current).map Prod.snd

theorem arrayEnd_skipSpace (levels n : Nat) (current : List UInt8) :
    arrayEnd (afterValue levels) n (skipSpace current) =
      arrayEnd (afterValue levels) n current := by
  cases n with
  | zero => rfl
  | succ n => rw [arrayEnd, arrayEnd, afterValue, afterValue, parseValueInternal_skipSpace]

theorem objectEnd_skipSpace (levels n : Nat) (current : List UInt8) :
    objectEnd (afterValue levels) n (skipSpace current) =
      objectEnd (afterValue levels) n current := by
  cases n with
  | zero => rfl
  | succ n => rw [objectEnd, objectEnd, skipSpace_skipSpace]

theorem arrayEnd_item (hchild : Scans levels Child) (h : Item Child value text)
    (hc : c = 0x2C ∨ c = 0x5D) (n : Nat) (rest : List UInt8) :
    arrayEnd (afterValue levels) (n + 1) (text ++ c :: rest) =
      if c = 0x2C then arrayEnd (afterValue levels) n rest else some rest := by
  obtain ⟨before, body, after, hbefore, hvalue, hafter, rfl⟩ := h
  have hspace : isSpace c = false := by rcases hc with rfl | rfl <;> decide
  have hstops : Stops (c :: rest) := stops_cons (by rcases hc with rfl | rfl <;> decide) rest
  rw [arrayEnd, afterValue, hchild.item hvalue hbefore hafter hstops]
  simp only [Option.map_some, Option.bind_eq_bind, Option.bind_some, skipSpace_append hafter,
    skipSpace_cons hspace]
  rcases hc with rfl | rfl
  · rfl
  · rfl

theorem arrayEnd_joined (hchild : Scans levels Child) (h : Joined (Item Child) items body)
    (hn : body.length < n) (rest : List UInt8) :
    arrayEnd (afterValue levels) n (body ++ 0x5D :: rest) = some rest := by
  induction h generalizing n with
  | one hitem =>
    obtain ⟨m, rfl⟩ := Nat.exists_eq_succ_of_ne_zero (Nat.ne_zero_of_lt hn)
    rw [arrayEnd_item hchild hitem (.inr rfl), if_neg (by decide)]
  | more hitem _ ih =>
    obtain ⟨m, rfl⟩ := Nat.exists_eq_succ_of_ne_zero (Nat.ne_zero_of_lt hn)
    rw [List.append_assoc, List.cons_append, arrayEnd_item hchild hitem (.inl rfl), if_pos rfl]
    exact ih (by grind)

theorem skipSpace_member (h : Space before) (key between rest : List UInt8) :
    skipSpace (before ++ 0x22 :: (key ++ 0x22 :: (between ++ 0x3A :: item)) ++ rest) =
      0x22 :: (key ++ 0x22 :: (between ++ 0x3A :: (item ++ rest))) := by
  rw [List.append_assoc, skipSpace_append h, List.cons_append, skipSpace_cons (by decide)]
  simp only [List.append_assoc, List.cons_append]

theorem objectEnd_member (hchild : Scans levels Child) (h : Member Child member text)
    (hc : c = 0x2C ∨ c = 0x7D) (n : Nat) (rest : List UInt8) :
    objectEnd (afterValue levels) (n + 1) (text ++ c :: rest) =
      if c = 0x2C then objectEnd (afterValue levels) n rest else some rest := by
  obtain ⟨before, key, between, item, hbefore, hkey, hbetween, hitem, rfl⟩ := h
  obtain ⟨before', body, after, hbefore', hvalue, hafter, rfl⟩ := hitem
  have hspace : isSpace c = false := by rcases hc with rfl | rfl <;> decide
  have hstops : Stops (c :: rest) := stops_cons (by rcases hc with rfl | rfl <;> decide) rest
  have hkeyEnd := scanString_spells hkey (between ++ 0x3A ::
    (before' ++ (body ++ after) ++ c :: rest))
  rw [objectEnd, skipSpace_member hbefore, parseStringEnd, if_pos rfl, hkeyEnd]
  simp only [Option.bind_eq_bind, Option.bind_some, skipSpace_append hbetween]
  rw [skipSpace_cons (by decide)]
  simp only [afterValue, hchild.item hvalue hbefore' hafter hstops, Option.map_some,
    Option.bind_some, skipSpace_append hafter, skipSpace_cons hspace]
  rcases hc with rfl | rfl
  · rfl
  · rfl

theorem objectEnd_joined (hchild : Scans levels Child) (h : Joined (Member Child) members body)
    (hn : body.length < n) (rest : List UInt8) :
    objectEnd (afterValue levels) n (body ++ 0x7D :: rest) = some rest := by
  induction h generalizing n with
  | one hmember =>
    obtain ⟨m, rfl⟩ := Nat.exists_eq_succ_of_ne_zero (Nat.ne_zero_of_lt hn)
    rw [objectEnd_member hchild hmember (.inr rfl), if_neg (by decide)]
  | more hmember _ ih =>
    obtain ⟨m, rfl⟩ := Nat.exists_eq_succ_of_ne_zero (Nat.ne_zero_of_lt hn)
    rw [List.append_assoc, List.cons_append, objectEnd_member hchild hmember (.inl rfl),
      if_pos rfl]
    exact ih (by grind)

/-- The first value of an array does not look like its end. -/
theorem skipSpace_joined_ne (hchild : Scans levels Child) (h : Joined (Item Child) items body)
    (rest after : List UInt8) : skipSpace (body ++ 0x5D :: rest) ≠ 0x5D :: after := by
  intro hskip
  have hnone : afterValue levels (body ++ 0x5D :: rest) = none := by
    rw [afterValue, ← parseValueInternal_skipSpace, hskip, parseValueInternal_bracket]
    rfl
  have hend := arrayEnd_joined hchild h (Nat.lt_succ_self _) rest
  rw [arrayEnd, hnone] at hend
  cases hend

theorem parseValueInternal_array (hchild : Scans levels Child)
    (h : Listed (Item Child) items body) (rest : List UInt8) :
    parseValueInternal (levels + 1) (0x5B :: (body ++ [0x5D]) ++ rest) =
      some (⟨0x5B :: (body ++ [0x5D]), .array⟩, rest) := by
  have htext : 0x5B :: (body ++ [0x5D]) ++ rest = 0x5B :: (body ++ 0x5D :: rest) := by simp
  rw [htext, parseValueInternal, skipSpace_cons (by decide)]
  dsimp only
  rw [if_neg (by decide), if_neg (by decide), if_pos rfl]
  rcases h with ⟨-, hspace⟩ | hjoined
  · rw [skipSpace_append hspace, skipSpace_cons (by decide), ← htext, ← valueBetween_append]
    rfl
  · have hend := arrayEnd_joined hchild hjoined (n := (body ++ 0x5D :: rest).length + 1)
      (by grind) rest
    split
    · rename_i after hskip
      exact absurd hskip (skipSpace_joined_ne hchild hjoined rest after)
    · have hloop := arrayEnd_skipSpace levels ((body ++ 0x5D :: rest).length + 1)
        (body ++ 0x5D :: rest)
      rw [hend] at hloop
      rw [show (fun current => (parseValueInternal levels current).map Prod.snd) =
        afterValue levels from rfl, hloop, Option.map_some, ← htext, valueBetween_append]

theorem skipSpace_members_ne {Child : Value → List UInt8 → Prop}
    (h : Joined (Member Child) members body) (rest after : List UInt8) :
    skipSpace (body ++ rest) ≠ 0x7D :: after := by
  have hmember : ∀ text member (rest : List UInt8), Member Child member text →
      skipSpace (text ++ rest) ≠ 0x7D :: after := by
    rintro _ member rest ⟨before, key, between, item, hbefore, -, -, -, rfl⟩ hskip
    rw [skipSpace_member hbefore] at hskip
    exact absurd (List.cons.inj hskip).1 (by decide)
  cases h with
  | one hfirst => exact hmember _ _ rest hfirst
  | more hfirst _ =>
    rw [List.append_assoc]
    exact hmember _ _ _ hfirst

theorem parseValueInternal_object (hchild : Scans levels Child)
    (h : Listed (Member Child) members body) (rest : List UInt8) :
    parseValueInternal (levels + 1) (0x7B :: (body ++ [0x7D]) ++ rest) =
      some (⟨0x7B :: (body ++ [0x7D]), .object⟩, rest) := by
  have htext : 0x7B :: (body ++ [0x7D]) ++ rest = 0x7B :: (body ++ 0x7D :: rest) := by simp
  rw [htext, parseValueInternal, skipSpace_cons (by decide)]
  dsimp only
  rw [if_neg (by decide), if_pos rfl]
  rcases h with ⟨-, hspace⟩ | hjoined
  · rw [skipSpace_append hspace, skipSpace_cons (by decide), ← htext, ← valueBetween_append]
    rfl
  · have hend := objectEnd_joined hchild hjoined (n := (body ++ 0x7D :: rest).length + 1)
      (by grind) rest
    split
    · rename_i after hskip
      exact absurd hskip (skipSpace_members_ne hjoined _ after)
    · have hloop := objectEnd_skipSpace levels ((body ++ 0x7D :: rest).length + 1)
        (body ++ 0x7D :: rest)
      rw [hend] at hloop
      rw [show (fun current => (parseValueInternal levels current).map Prod.snd) =
        afterValue levels from rfl, hloop, Option.map_some, ← htext, valueBetween_append]

/-- One more level of the scanner is one more level of values. -/
theorem Scans.rendersWith (h : Scans levels Child) : Scans (levels + 1) (RendersWith Child) := by
  intro value text htext rest hrest
  cases value with
  | null =>
    obtain rfl : text = ascii "null" := htext
    exact parseValueInternal_null levels rest
  | boolean value =>
    obtain rfl : text = ascii (if value then "true" else "false") := htext
    exact parseValueInternal_boolean value levels rest
  | number number =>
    obtain ⟨hnumber, rfl⟩ := htext
    exact parseValueInternal_number hnumber levels hrest
  | string string =>
    obtain ⟨body, hbody, rfl⟩ := htext
    exact parseValueInternal_string hbody levels rest
  | array items =>
    obtain ⟨body, hbody, rfl⟩ := htext
    exact parseValueInternal_array h hbody rest
  | object members =>
    obtain ⟨body, hbody, rfl⟩ := htext
    exact parseValueInternal_object h hbody rest

/-- The scanner finds the end of every value that has fewer levels than it may go down. -/
theorem scans_renders (h : n < levels) : Scans levels (Renders n) := by
  induction n generalizing levels with
  | zero =>
    obtain ⟨levels, rfl⟩ := Nat.exists_eq_succ_of_ne_zero (Nat.ne_zero_of_lt h)
    apply Scans.rendersWith
    intro value text htext
    exact absurd htext id
  | succ n ih =>
    obtain ⟨levels, rfl⟩ := Nat.exists_eq_succ_of_ne_zero (Nat.ne_zero_of_lt h)
    exact (ih (Nat.lt_of_succ_lt_succ h)).rendersWith

end SquidServer.RetroVault

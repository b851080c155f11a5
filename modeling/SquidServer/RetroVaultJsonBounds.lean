import SquidServer.RetroVaultScanner
import SquidServer.Loads

namespace SquidServer.RetroVault
open Interaction CText Json Loads
set_option autoImplicit true

/-- `struct retro_vault_json_value`, with the addresses that `start` and `end` point to. -/
structure JsonSpan where
  start : Nat
  stop : Nat
  type : JsonType
deriving DecidableEq

section
variable (stop : Nat)

-- The functions of the scanner on addresses; `stop` is their `end`.

def skipSpaceAt : Nat → Program Loading Nat := skipWhile isSpace stop

/-- Whether the byte at the cursor is a certain one. -/
def byteIs (c : UInt8) (cursor : Nat) : Program Loading Bool := do
  if cursor < stop then return (← load cursor) = c else return false

def hexDigitsAt : Nat → Nat → Program Loading Bool
  | 0, _ => return true
  | n + 1, cursor => do
    if isXDigit (← load cursor) then hexDigitsAt n (cursor + 1) else return false

def scanStringAt (cursor : Nat) : Program Loading (Option Nat) :=
  if cursor < stop then do
    let character ← load cursor
    if character = 0x22 then return some (cursor + 1)
    else if character < 0x20 then return none
    else if character = 0x5C then
      if stop ≤ cursor + 1 then return none
      else
        let character ← load (cursor + 1)
        if isEscape character then scanStringAt (cursor + 2)
        else if character = 0x75 then
          if stop - (cursor + 2) < 4 then return none
          else if ← hexDigitsAt 4 (cursor + 2) then scanStringAt (cursor + 6)
          else return none
        else return none
    else scanStringAt (cursor + 1)
  else return none
termination_by stop - cursor

def parseStringEndAt (cursor : Nat) : Program Loading (Option Nat) := do
  if ← byteIs stop 0x22 cursor then scanStringAt stop (cursor + 1) else return none

/-- The comparison with a word of the language. -/
def wordAt (word : List UInt8) (cursor : Nat) : Program Loading Bool := do
  if stop - cursor < word.length then return false
  else return (← loadBytes word.length cursor) = word

def numberEndAt : Nat → Program Loading Nat := skipWhile isNumberCharacter stop

/-- What the scanner returns: `none` when the bound on a loop is used up, `some none` for -1, and
else the value, whose end is the place to go on from. -/
abbrev Scanned := Option (Option JsonSpan)

/-- What stands behind a value: a comma, and `next` goes on behind it, or the bracket that ends the
value that began at `start`. -/
def afterChildAt (type : JsonType) (bracket : UInt8) (start cursor : Nat)
    (next : Nat → Program Loading Scanned) : Program Loading Scanned := do
  let current ← skipSpaceAt stop cursor
  if ← byteIs stop 0x2C current then next (current + 1)
  else if ← byteIs stop bracket current then return some (some ⟨start, current + 1, type⟩)
  else return some none

variable (child : Nat → Program Loading Scanned)

/-- The loop over the members of an object. -/
def objectEndAt (start : Nat) : Nat → Nat → Program Loading Scanned
  | 0, _ => return none
  | n + 1, current => do
    match ← parseStringEndAt stop (← skipSpaceAt stop current) with
    | none => return some none
    | some keyEnd =>
      let current ← skipSpaceAt stop keyEnd
      if ← byteIs stop 0x3A current then
        match ← child (current + 1) with
        | some (some value) =>
          afterChildAt stop .object 0x7D start value.stop (objectEndAt start n)
        | failed => return failed
      else return some none

/-- The loop over the elements of an array. -/
def arrayEndAt (start : Nat) : Nat → Nat → Program Loading Scanned
  | 0, _ => return none
  | n + 1, current => do
    match ← child current with
    | some (some value) => afterChildAt stop .array 0x5D start value.stop (arrayEndAt start n)
    | failed => return failed

end

/-- `parse_value_internal` with `levels` levels of nesting left. -/
def parseValueInternalAt (stop : Nat) : Nat → Nat → Program Loading Scanned
  | 0, cursor => do
    let _ ← skipSpaceAt stop cursor
    return some none
  | levels + 1, cursor => do
    let start ← skipSpaceAt stop cursor
    if stop ≤ start then return some none
    else
      let c ← load start
      if c = 0x22 then
        return some ((← parseStringEndAt stop start).map (⟨start, ·, .string⟩))
      else if c = 0x7B then
        let current ← skipSpaceAt stop (start + 1)
        if ← byteIs stop 0x7D current then return some (some ⟨start, current + 1, .object⟩)
        else objectEndAt stop (parseValueInternalAt stop levels) start (stop - start) current
      else if c = 0x5B then
        let current ← skipSpaceAt stop (start + 1)
        if ← byteIs stop 0x5D current then return some (some ⟨start, current + 1, .array⟩)
        else arrayEndAt stop (parseValueInternalAt stop levels) start (stop - start) current
      else if ← wordAt stop (ascii "true") start then
        return some (some ⟨start, start + 4, .boolean⟩)
      else if ← wordAt stop (ascii "false") start then
        return some (some ⟨start, start + 5, .boolean⟩)
      else if ← wordAt stop (ascii "null") start then
        return some (some ⟨start, start + 4, .null⟩)
      else if c = 0x2D ∨ isDigit c then
        return some (some ⟨start, ← numberEndAt stop (start + 1), .number⟩)
      else return some none

/-- `parse_retro_vault_json`, for pointers that are not NULL. -/
def parseRetroVaultJsonAt (data size : Nat) : Program Loading Scanned := do
  let stop := data + size
  match ← parseValueInternalAt stop (retroVaultJsonMaxDepth + 1) data with
  | some (some value) =>
    if (← skipSpaceAt stop value.stop) = stop then return some (some value) else return some none
  | failed => return failed

section
variable {memory : Memory} {low stop cursor : Nat}

theorem skipSpaceAt_spec {Q : Nat → Prop} (hlow : low ≤ cursor) (hle : cursor ≤ stop)
    (h : ∀ next, cursor ≤ next → next ≤ stop →
      skipSpace (bytesBetween memory cursor stop) = bytesBetween memory next stop → Q next) :
    Within memory low stop (skipSpaceAt stop cursor) Q :=
  within_skipWhile hlow hle h

theorem byteIs_spec {Q : Bool → Prop} (hlow : low ≤ cursor)
    (htrue : cursor < stop →
      bytesBetween memory cursor stop = c :: bytesBetween memory (cursor + 1) stop → Q true)
    (hfalse : (bytesBetween memory cursor stop).head? ≠ some c → Q false) :
    Within memory low stop (byteIs stop c cursor) Q := by
  rw [byteIs]
  split
  · rename_i hlt
    rw [bytesBetween_cons hlt] at htrue hfalse
    refine within_bind.2 (within_load.2 ⟨⟨hlow, hlt⟩, within_pure.2 ?_⟩)
    by_cases hc : memory cursor = c
    · rw [decide_eq_true hc]
      exact htrue hlt (by rw [hc])
    · rw [decide_eq_false hc]
      exact hfalse fun h => hc (Option.some.inj h)
  · rename_i hend
    rw [bytesBetween_nil (Nat.not_lt.1 hend)] at hfalse
    exact within_pure.2 (hfalse nofun)

/-- The end of a string, on addresses and in the bytes of the text. -/
inductive StringEnds (memory : Memory) (cursor stop : Nat) :
    Option Nat → Option (List UInt8) → Prop
  | rejected : StringEnds memory cursor stop none none
  | accepted : cursor < after → after ≤ stop →
      StringEnds memory cursor stop (some after) (some (bytesBetween memory after stop))

theorem StringEnds.mono (h : StringEnds memory cursor stop r m) (hle : cursor' ≤ cursor) :
    StringEnds memory cursor' stop r m := by
  cases h with
  | rejected => exact .rejected
  | accepted hlt hstop => exact .accepted (Nat.lt_of_le_of_lt hle hlt) hstop

theorem hexDigitsAt_spec {Q : Bool → Prop} (hlow : low ≤ cursor) (hle : cursor + n ≤ stop)
    (h : Q ((bytesBetween memory cursor (cursor + n)).all isXDigit)) :
    Within memory low stop (hexDigitsAt n cursor) Q := by
  induction n generalizing cursor Q with
  | zero =>
    rw [Nat.add_zero, bytesBetween_nil (Nat.le_refl _)] at h
    exact within_pure.2 h
  | succ n ih =>
    rw [bytesBetween_cons (by omega), List.all_cons] at h
    refine within_bind.2 (within_load.2 ⟨by omega, ?_⟩)
    split
    · rename_i hdigit
      apply ih (by omega) (by omega)
      rw [hdigit, Bool.true_and] at h
      rwa [Nat.add_right_comm]
    · rename_i hdigit
      rw [Bool.eq_false_iff.2 hdigit, Bool.false_and] at h
      exact within_pure.2 h

theorem scanString_escape (rest : List UInt8) : scanString (0x5C :: 0x75 :: rest) =
    if 4 ≤ rest.length ∧ (rest.take 4).all isXDigit = true then scanString (rest.drop 4)
    else none := by
  rw [scanString.eq_def]
  dsimp only
  rw [if_neg (by decide), if_neg (by decide), if_pos rfl, if_neg (by decide), if_pos rfl]
  split
  · rename_i h₁ h₂ h₃ h₄ rest
    simp
  · rename_i hshort
    rw [if_neg]
    rintro ⟨hlength, -⟩
    match rest, hlength with
    | h₁ :: h₂ :: h₃ :: h₄ :: rest, _ => exact hshort h₁ h₂ h₃ h₄ rest rfl

theorem scanStringAt_spec (hlow : low ≤ cursor) (hle : cursor ≤ stop) :
    Within memory low stop (scanStringAt stop cursor) fun r =>
      StringEnds memory cursor stop r (scanString (bytesBetween memory cursor stop)) := by
  induction hn : stop - cursor using Nat.strong_induction_on generalizing cursor with
  | _ n ih =>
    -- Where the loop goes on, it does so from a cursor further on.
    have hloop (next : Nat) (hlt : cursor < next) (hnext : next ≤ stop) :
        Within memory low stop (scanStringAt stop next) fun r =>
          StringEnds memory cursor stop r (scanString (bytesBetween memory next stop)) := by
      refine (ih (stop - next) (by omega) (by omega) hnext rfl).mono ?_
      intro r hr
      exact hr.mono (Nat.le_of_lt hlt)
    rw [scanStringAt]
    split
    · rename_i hlt
      rw [bytesBetween_cons hlt]
      refine within_bind.2 (within_load.2 ⟨⟨hlow, hlt⟩, ?_⟩)
      by_cases hquote : memory cursor = 0x22
      · rw [hquote, if_pos rfl, scanString.eq_def]
        dsimp only
        rw [if_pos rfl]
        exact within_pure.2 (.accepted (Nat.lt_succ_self cursor) hlt)
      rw [if_neg hquote]
      by_cases hcontrol : memory cursor < 0x20
      · rw [if_pos hcontrol, scanString.eq_def]
        dsimp only
        rw [if_neg hquote, if_pos hcontrol]
        exact within_pure.2 .rejected
      rw [if_neg hcontrol]
      by_cases hescape : memory cursor = 0x5C
      · rw [if_pos hescape, hescape]
        split
        · rename_i hend
          rw [bytesBetween_nil hend]
          exact within_pure.2 .rejected
        rename_i hmore
        refine within_bind.2 (within_load.2 ⟨by omega, ?_⟩)
        rw [bytesBetween_cons (show cursor + 1 < stop by omega)]
        by_cases hone : isEscape (memory (cursor + 1)) = true
        · rw [if_pos hone, scanString.eq_def]
          dsimp only
          rw [if_neg (by decide), if_neg (by decide), if_pos rfl, if_pos hone]
          exact hloop (cursor + 2) (by omega) (by omega)
        rw [if_neg hone]
        by_cases hunicode : memory (cursor + 1) = 0x75
        · rw [if_pos hunicode, hunicode, scanString_escape, length_bytesBetween]
          by_cases hroom : stop - (cursor + 2) < 4
          · rw [if_pos hroom, if_neg (by omega)]
            exact within_pure.2 .rejected
          rw [if_neg hroom, take_bytesBetween (by omega), drop_bytesBetween (by omega)]
          refine within_bind.2 (hexDigitsAt_spec (by omega) (by omega) ?_)
          by_cases hdigits : (bytesBetween memory (cursor + 2) (cursor + 2 + 4)).all isXDigit = true
          · rw [if_pos hdigits, if_pos ⟨by omega, hdigits⟩]
            exact hloop (cursor + 6) (by omega) (by omega)
          · rw [if_neg hdigits, if_neg fun h => hdigits h.2]
            exact within_pure.2 .rejected
        · rw [if_neg hunicode, scanString.eq_def]
          dsimp only
          rw [if_neg (by decide), if_neg (by decide), if_pos rfl, if_neg hone, if_neg hunicode]
          exact within_pure.2 .rejected
      · rw [if_neg hescape, scanString.eq_def]
        dsimp only
        rw [if_neg hquote, if_neg hcontrol, if_neg hescape]
        exact hloop (cursor + 1) (Nat.lt_succ_self cursor) hlt
    · rename_i hend
      rw [bytesBetween_nil (by omega), scanString]
      exact within_pure.2 .rejected

theorem parseStringEndAt_spec (hlow : low ≤ cursor) :
    Within memory low stop (parseStringEndAt stop cursor) fun r =>
      StringEnds memory cursor stop r (parseStringEnd (bytesBetween memory cursor stop)) := by
  refine within_bind.2 (byteIs_spec hlow ?_ ?_)
  · intro hlt hbytes
    rw [if_pos rfl, hbytes, parseStringEnd, if_pos rfl]
    refine (scanStringAt_spec (by omega) hlt).mono ?_
    intro r hr
    exact hr.mono (Nat.le_succ cursor)
  · intro hhead
    have hnone : parseStringEnd (bytesBetween memory cursor stop) = none := by
      cases hbytes : bytesBetween memory cursor stop with
      | nil => rfl
      | cons c rest =>
        rw [hbytes] at hhead
        exact if_neg fun hc => hhead (congrArg some hc)
    rw [if_neg Bool.false_ne_true, hnone]
    exact within_pure.2 .rejected

theorem wordAt_spec {Q : Bool → Prop} (hlow : low ≤ cursor) (hle : cursor ≤ stop)
    (h : Q (word.isPrefixOf (bytesBetween memory cursor stop))) :
    Within memory low stop (wordAt stop word cursor) Q := by
  rw [wordAt]
  split
  · rename_i hshort
    refine within_pure.2 ?_
    have hnot : word.isPrefixOf (bytesBetween memory cursor stop) = false := by
      rw [Bool.eq_false_iff, ne_eq, List.isPrefixOf_iff_prefix]
      intro hword
      have hlength := hword.length_le
      rw [length_bytesBetween] at hlength
      omega
    rwa [hnot] at h
  · rename_i hroom
    refine within_bind.2 (within_loadBytes hlow (by omega) (within_pure.2 ?_))
    have hsame : decide (bytesBetween memory cursor (cursor + word.length) = word) =
        word.isPrefixOf (bytesBetween memory cursor stop) := by
      rw [Bool.eq_iff_iff, decide_eq_true_iff, List.isPrefixOf_iff_prefix,
        List.prefix_iff_eq_take, take_bytesBetween (by omega), eq_comm]
    rwa [hsame]

/-- The end of a value that begins at `start`. -/
inductive Ends (memory : Memory) (start stop : Nat) (type : JsonType) :
    Scanned → Option (List UInt8) → Prop
  | rejected : Ends memory start stop type (some none) none
  | accepted : start < after → after ≤ stop →
      Ends memory start stop type (some (some ⟨start, after, type⟩))
        (some (bytesBetween memory after stop))

/-- A value and what stands behind it, on addresses and in the bytes of the text. -/
inductive Agrees (memory : Memory) (cursor stop : Nat) :
    Scanned → Option (JsonValue × List UInt8) → Prop
  | rejected : Agrees memory cursor stop (some none) none
  | accepted : cursor ≤ start → start < after → after ≤ stop →
      Agrees memory cursor stop (some (some ⟨start, after, type⟩))
        (some (⟨bytesBetween memory start after, type⟩, bytesBetween memory after stop))

theorem Ends.agrees (h : Ends memory start stop type r m) (hle : cursor ≤ start) :
    Agrees memory cursor stop r (m.map (valueBetween type (bytesBetween memory start stop))) := by
  cases h with
  | rejected => exact .rejected
  | accepted hlt hstop =>
    rename_i after
    have hvalue : valueBetween type (bytesBetween memory start stop)
        (bytesBetween memory after stop) =
          (⟨bytesBetween memory start after, type⟩, bytesBetween memory after stop) := by
      rw [bytesBetween_append (Nat.le_of_lt hlt) hstop, valueBetween_append]
    rw [Option.map_some, hvalue]
    exact .accepted hle hlt hstop

/-- What stands behind the value of a member or an element, in the bytes of the text. -/
def afterChild (bracket : UInt8) (next : List UInt8 → Option (List UInt8)) (rest : List UInt8) :
    Option (List UInt8) :=
  if (skipSpace rest).head? = some 0x2C then next (skipSpace rest).tail
  else if (skipSpace rest).head? = some bracket then some (skipSpace rest).tail
  else none

theorem afterChild_comma (h : skipSpace rest = 0x2C :: current) :
    afterChild bracket next rest = next current := by
  rw [afterChild, h, List.head?_cons, if_pos rfl, List.tail_cons]

theorem afterChild_bracket (h : skipSpace rest = bracket :: after) (hb : bracket ≠ 0x2C) :
    afterChild bracket next rest = some after := by
  rw [afterChild, h, List.head?_cons, if_neg fun hc => hb (Option.some.inj hc), if_pos rfl,
    List.tail_cons]

theorem afterChild_other (hcomma : ∀ current, skipSpace rest ≠ 0x2C :: current)
    (hbracket : ∀ after, skipSpace rest ≠ bracket :: after) :
    afterChild bracket next rest = none := by
  rw [afterChild]
  cases hrest : skipSpace rest with
  | nil => rfl
  | cons c more =>
    rw [if_neg fun h => hcomma more (by rw [hrest, Option.some.inj h]),
      if_neg fun h => hbracket more (by rw [hrest, Option.some.inj h])]

theorem arrayEnd_succ (child : List UInt8 → Option (List UInt8)) (n : Nat)
    (current : List UInt8) :
    arrayEnd child (n + 1) current = (child current).bind (afterChild 0x5D (arrayEnd child n)) := by
  rw [arrayEnd]
  cases child current with
  | none => rfl
  | some rest =>
    simp only [Option.bind_eq_bind, Option.bind_some]
    split
    · rename_i hcomma
      rw [afterChild_comma hcomma]
    · rename_i hbracket
      rw [afterChild_bracket hbracket (by decide)]
    · rename_i hcomma hbracket
      rw [afterChild_other hcomma hbracket]

theorem objectEnd_succ (child : List UInt8 → Option (List UInt8)) (n : Nat)
    (current : List UInt8) :
    objectEnd child (n + 1) current = (parseStringEnd (skipSpace current)).bind fun keyEnd =>
      if (skipSpace keyEnd).head? = some 0x3A then
        (child (skipSpace keyEnd).tail).bind (afterChild 0x7D (objectEnd child n))
      else none := by
  rw [objectEnd]
  cases parseStringEnd (skipSpace current) with
  | none => rfl
  | some keyEnd =>
    simp only [Option.bind_eq_bind, Option.bind_some]
    split
    · rename_i current hcolon
      rw [hcolon, List.head?_cons, if_pos rfl, List.tail_cons]
      cases child current with
      | none => rfl
      | some rest =>
        simp only [Option.bind_some]
        split
        · rename_i hcomma
          rw [afterChild_comma hcomma]
        · rename_i hbracket
          rw [afterChild_bracket hbracket (by decide)]
        · rename_i hcomma hbracket
          rw [afterChild_other hcomma hbracket]
    · rename_i hcolon
      cases hkey : skipSpace keyEnd with
      | nil => rfl
      | cons c rest =>
        rw [if_neg fun h => hcolon rest (by rw [hkey, Option.some.inj h])]

theorem head_tail {bytes rest : List UInt8} (h : bytes = c :: rest) :
    bytes.head? = some c ∧ bytes.tail = rest := by
  rw [h]
  exact ⟨rfl, rfl⟩

theorem afterChildAt_spec {start : Nat} {next : List UInt8 → Option (List UInt8)}
    {nextAt : Nat → Program Loading Scanned} (hlow : low ≤ cursor) (hstart : start < cursor)
    (hle : cursor ≤ stop)
    (hnext : ∀ current, cursor < current → current ≤ stop →
      Within memory low stop (nextAt current) fun r =>
        Ends memory start stop type r (next (bytesBetween memory current stop))) :
    Within memory low stop (afterChildAt stop type bracket start cursor nextAt) fun r =>
      Ends memory start stop type r
        (afterChild bracket next (bytesBetween memory cursor stop)) := by
  refine within_bind.2 (skipSpaceAt_spec hlow hle ?_)
  intro current hcurrent hstop hskip
  rw [afterChild, hskip]
  refine within_bind.2 (byteIs_spec (by omega) ?_ ?_)
  · intro hlt hbytes
    obtain ⟨hhead, htail⟩ := head_tail hbytes
    rw [if_pos rfl, hhead, if_pos rfl, htail]
    exact hnext (current + 1) (by omega) hlt
  · intro hcomma
    rw [if_neg Bool.false_ne_true, if_neg hcomma]
    refine within_bind.2 (byteIs_spec (by omega) ?_ ?_)
    · intro hlt hbytes
      obtain ⟨hhead, htail⟩ := head_tail hbytes
      rw [if_pos rfl, hhead, if_pos rfl, htail]
      exact within_pure.2 (.accepted (by omega) hlt)
    · intro hbracket
      rw [if_neg Bool.false_ne_true, if_neg hbracket]
      exact within_pure.2 .rejected

/-- A scanner on addresses does what one on the bytes of a text does, and loads no other bytes. -/
def Follows (memory : Memory) (low stop : Nat) (childAt : Nat → Program Loading Scanned)
    (child : List UInt8 → Option (JsonValue × List UInt8)) : Prop :=
  ∀ cursor, low ≤ cursor → cursor ≤ stop → Within memory low stop (childAt cursor) fun r =>
    Agrees memory cursor stop r (child (bytesBetween memory cursor stop))

section
variable {childAt : Nat → Program Loading Scanned}
  {child : List UInt8 → Option (JsonValue × List UInt8)} {start n : Nat}

theorem arrayEndAt_spec (hchild : Follows memory low stop childAt child) (hlow : low ≤ cursor)
    (hstart : start < cursor) (hle : cursor ≤ stop) (hn : stop - cursor < n) :
    Within memory low stop (arrayEndAt stop childAt start n cursor) fun r =>
      Ends memory start stop .array r
        (arrayEnd (fun current => (child current).map Prod.snd) n
          (bytesBetween memory cursor stop)) := by
  induction n generalizing cursor with
  | zero => exact absurd hn (Nat.not_lt_zero _)
  | succ n ih =>
    rw [arrayEnd_succ]
    refine within_bind.2 ((hchild cursor hlow hle).mono ?_)
    intro r hr
    generalize child (bytesBetween memory cursor stop) = m at hr
    cases hr with
    | rejected => exact within_pure.2 .rejected
    | accepted hbegin hlt hstop =>
      refine afterChildAt_spec (by dsimp only; omega) (by dsimp only; omega) hstop ?_
      intro current hcurrent hcurrentStop
      dsimp only at hcurrent
      exact ih (by omega) (by omega) hcurrentStop (by omega)

theorem objectEndAt_spec (hchild : Follows memory low stop childAt child) (hlow : low ≤ cursor)
    (hstart : start < cursor) (hle : cursor ≤ stop) (hn : stop - cursor < n) :
    Within memory low stop (objectEndAt stop childAt start n cursor) fun r =>
      Ends memory start stop .object r
        (objectEnd (fun current => (child current).map Prod.snd) n
          (bytesBetween memory cursor stop)) := by
  induction n generalizing cursor with
  | zero => exact absurd hn (Nat.not_lt_zero _)
  | succ n ih =>
    rw [objectEnd_succ]
    refine within_bind.2 (skipSpaceAt_spec hlow hle ?_)
    intro key hkey hkeyStop hskip
    rw [hskip]
    refine within_bind.2 ((parseStringEndAt_spec (by omega)).mono ?_)
    intro r hr
    generalize parseStringEnd (bytesBetween memory key stop) = m at hr
    cases hr with
    | rejected => exact within_pure.2 .rejected
    | accepted hlt hstop =>
      rename_i keyEnd
      refine within_bind.2 (skipSpaceAt_spec (by omega) hstop ?_)
      intro colon hcolon hcolonStop hskip
      rw [Option.bind_some, hskip]
      refine within_bind.2 (byteIs_spec (by omega) ?_ ?_)
      · intro hlt hbytes
        obtain ⟨hhead, htail⟩ := head_tail hbytes
        rw [if_pos rfl, hhead, if_pos rfl, htail]
        refine within_bind.2 ((hchild (colon + 1) (by omega) hlt).mono ?_)
        intro r hr
        generalize child (bytesBetween memory (colon + 1) stop) = m at hr
        cases hr with
        | rejected => exact within_pure.2 .rejected
        | accepted hbegin hlt hstop =>
          refine afterChildAt_spec (by dsimp only; omega) (by dsimp only; omega) hstop ?_
          intro current hcurrent hcurrentStop
          dsimp only at hcurrent
          exact ih (by omega) (by omega) hcurrentStop (by omega)
      · intro hhead
        rw [if_neg Bool.false_ne_true, if_neg hhead]
        exact within_pure.2 .rejected

end

end

theorem parseValueInternal_opensObject (h : skipSpace cursor = 0x7B :: rest) (levels : Nat) :
    parseValueInternal (levels + 1) cursor =
      (if (skipSpace rest).head? = some 0x7D then some (skipSpace rest).tail
        else objectEnd (afterValue levels) (rest.length + 1) (skipSpace rest)).map
          (valueBetween .object (0x7B :: rest)) := by
  rw [parseValueInternal, h]
  dsimp only
  rw [if_neg (by decide), if_pos rfl]
  split
  · rename_i after hclose
    rw [hclose]
    rfl
  · rename_i hopen
    cases hrest : skipSpace rest with
    | nil => rfl
    | cons c more =>
      rw [if_neg fun hc => hopen more (by rw [hrest, Option.some.inj hc])]
      rfl

theorem parseValueInternal_opensArray (h : skipSpace cursor = 0x5B :: rest) (levels : Nat) :
    parseValueInternal (levels + 1) cursor =
      (if (skipSpace rest).head? = some 0x5D then some (skipSpace rest).tail
        else arrayEnd (afterValue levels) (rest.length + 1) (skipSpace rest)).map
          (valueBetween .array (0x5B :: rest)) := by
  rw [parseValueInternal, h]
  dsimp only
  rw [if_neg (by decide), if_neg (by decide), if_pos rfl]
  split
  · rename_i after hclose
    rw [hclose]
    rfl
  · rename_i hopen
    cases hrest : skipSpace rest with
    | nil => rfl
    | cons c more =>
      rw [if_neg fun hc => hopen more (by rw [hrest, Option.some.inj hc])]
      rfl

section
variable {memory : Memory} {low stop : Nat}

theorem opened_spec {start : Nat} {loop : List UInt8 → Option (List UInt8)}
    {loopAt : Nat → Program Loading Scanned} (hlow : low ≤ start) (hlt : start < stop)
    (hloop : ∀ current, start < current → current ≤ stop →
      Within memory low stop (loopAt current) fun r =>
        Ends memory start stop type r (loop (bytesBetween memory current stop))) :
    Within memory low stop (do
      let current ← skipSpaceAt stop (start + 1)
      if ← byteIs stop bracket current then return some (some ⟨start, current + 1, type⟩)
      else loopAt current) fun r =>
        Ends memory start stop type r
          (if (skipSpace (bytesBetween memory (start + 1) stop)).head? = some bracket then
            some (skipSpace (bytesBetween memory (start + 1) stop)).tail
          else loop (skipSpace (bytesBetween memory (start + 1) stop))) := by
  refine within_bind.2 (skipSpaceAt_spec (by omega) hlt ?_)
  intro current hcurrent hstop hskip
  rw [hskip]
  refine within_bind.2 (byteIs_spec (by omega) ?_ ?_)
  · intro hlt hbytes
    obtain ⟨hhead, htail⟩ := head_tail hbytes
    rw [if_pos rfl, hhead, if_pos rfl, htail]
    exact within_pure.2 (.accepted (by omega) hlt)
  · intro hhead
    rw [if_neg Bool.false_ne_true, if_neg hhead]
    exact hloop current hcurrent hstop

theorem StringEnds.ends (h : StringEnds memory start stop r m) :
    Ends memory start stop type (some (r.map (⟨start, ·, type⟩))) m := by
  cases h with
  | rejected => exact .rejected
  | accepted hlt hstop => exact .accepted hlt hstop

theorem agrees_word {cursor start n : Nat} (type : JsonType) (hle : cursor ≤ start) (hn : 0 < n)
    (hroom : start + n ≤ stop) :
    Agrees memory cursor stop (some (some ⟨start, start + n, type⟩))
      (some (valueBetween type (bytesBetween memory start stop)
        ((bytesBetween memory start stop).drop n))) := by
  rw [drop_bytesBetween hroom]
  exact Ends.agrees (.accepted (by omega) hroom) hle

theorem room_of_isPrefixOf {word : List UInt8} {start : Nat}
    (h : word.isPrefixOf (bytesBetween memory start stop) = true) (hle : start ≤ stop) :
    start + word.length ≤ stop := by
  have hlength := (List.isPrefixOf_iff_prefix.1 h).length_le
  rw [length_bytesBetween] at hlength
  omega

/-- The scanner on addresses is the scanner on the bytes of the text. -/
theorem parseValueInternalAt_follows (levels : Nat) :
    Follows memory low stop (parseValueInternalAt stop levels) (parseValueInternal levels) := by
  induction levels with
  | zero =>
    intro cursor hlow hle
    refine within_bind.2 (skipSpaceAt_spec hlow hle ?_)
    intro start _ _ _
    exact within_pure.2 .rejected
  | succ levels ih =>
    intro cursor hlow hle
    rw [parseValueInternalAt]
    refine within_bind.2 (skipSpaceAt_spec hlow hle ?_)
    intro start hstart hstop hskip
    split
    · rename_i hend
      rw [parseValueInternal, hskip, bytesBetween_nil hend]
      exact within_pure.2 .rejected
    rename_i hmore
    have hlt : start < stop := Nat.not_le.1 hmore
    have hcons : bytesBetween memory start stop = _ := bytesBetween_cons hlt
    have hskip' := hskip.trans hcons
    have hloopSize : (bytesBetween memory (start + 1) stop).length + 1 = stop - start := by
      rw [length_bytesBetween]
      omega
    refine within_bind.2 (within_load.2 ⟨⟨by omega, hlt⟩, ?_⟩)
    by_cases hquote : memory start = 0x22
    · rw [if_pos hquote, parseValueInternal, hskip']
      dsimp only
      rw [if_pos hquote, ← hcons]
      refine within_bind.2 ((parseStringEndAt_spec (by omega)).mono ?_)
      intro r hr
      exact within_pure.2 (hr.ends.agrees hstart)
    rw [if_neg hquote]
    by_cases hobject : memory start = 0x7B
    · rw [if_pos hobject]
      rw [hobject] at hskip' hcons
      rw [parseValueInternal_opensObject hskip', hloopSize, ← hcons]
      refine (opened_spec (by omega) hlt ?_).mono fun r hr => hr.agrees hstart
      intro current hcurrent hcurrentStop
      exact objectEndAt_spec ih (by omega) hcurrent hcurrentStop (by omega)
    rw [if_neg hobject]
    by_cases harray : memory start = 0x5B
    · rw [if_pos harray]
      rw [harray] at hskip' hcons
      rw [parseValueInternal_opensArray hskip', hloopSize, ← hcons]
      refine (opened_spec (by omega) hlt ?_).mono fun r hr => hr.agrees hstart
      intro current hcurrent hcurrentStop
      exact arrayEndAt_spec ih (by omega) hcurrent hcurrentStop (by omega)
    rw [if_neg harray, parseValueInternal, hskip']
    dsimp only
    rw [if_neg hquote, if_neg hobject, if_neg harray, ← hcons]
    refine within_bind.2 (wordAt_spec (by omega) hstop ?_)
    by_cases htrue : (ascii "true").isPrefixOf (bytesBetween memory start stop) = true
    · rw [if_pos htrue, if_pos htrue]
      exact within_pure.2 (agrees_word .boolean hstart (by decide) (room_of_isPrefixOf htrue hstop))
    rw [if_neg htrue, if_neg htrue]
    refine within_bind.2 (wordAt_spec (by omega) hstop ?_)
    by_cases hfalse : (ascii "false").isPrefixOf (bytesBetween memory start stop) = true
    · rw [if_pos hfalse, if_pos hfalse]
      exact within_pure.2
        (agrees_word .boolean hstart (by decide) (room_of_isPrefixOf hfalse hstop))
    rw [if_neg hfalse, if_neg hfalse]
    refine within_bind.2 (wordAt_spec (by omega) hstop ?_)
    by_cases hnull : (ascii "null").isPrefixOf (bytesBetween memory start stop) = true
    · rw [if_pos hnull, if_pos hnull]
      exact within_pure.2 (agrees_word .null hstart (by decide) (room_of_isPrefixOf hnull hstop))
    rw [if_neg hnull, if_neg hnull]
    split
    · refine within_bind.2 (within_skipWhile (by omega) hlt ?_)
      intro next hnext hnextStop hdigits
      rw [hdigits]
      exact within_pure.2 (Ends.agrees (.accepted hnext hnextStop) hstart)
    · exact within_pure.2 .rejected

end

/-- The bytes that a span stands for. -/
def JsonSpan.value (memory : Memory) (span : JsonSpan) : JsonValue :=
  ⟨bytesBetween memory span.start span.stop, span.type⟩

/-- What the reader returns for the text from `data` to before `stop`. -/
structure Reads (memory : Memory) (data stop : Nat) (outcome : Option JsonSpan) : Prop where
  inside : ∀ span ∈ outcome, data ≤ span.start ∧ span.start < span.stop ∧ span.stop ≤ stop
  value : outcome.map (JsonSpan.value memory) =
    parseRetroVaultJson (bytesBetween memory data stop)
  behind : ∀ span ∈ outcome, parseValue (bytesBetween memory data stop) =
    some (span.value memory, bytesBetween memory span.stop stop)

theorem parseRetroVaultJsonAt_reads (memory : Memory) (data size : Nat) :
    Within memory data (data + size) (parseRetroVaultJsonAt data size) fun r =>
      ∃ outcome, r = some outcome ∧ Reads memory data (data + size) outcome := by
  have hfollows : Follows memory data (data + size) _ _ :=
    parseValueInternalAt_follows (retroVaultJsonMaxDepth + 1)
  have hscan := hfollows data (Nat.le_refl data) (Nat.le_add_right data size)
  refine within_bind.2 (hscan.mono ?_)
  intro r hr
  have hroot : parseRetroVaultJson (bytesBetween memory data (data + size)) =
      (parseValueInternal (retroVaultJsonMaxDepth + 1)
        (bytesBetween memory data (data + size))).bind fun value =>
          if skipSpace value.2 = [] then some value.1 else none := rfl
  have hvalue : parseValue (bytesBetween memory data (data + size)) =
      parseValueInternal (retroVaultJsonMaxDepth + 1)
        (bytesBetween memory data (data + size)) := rfl
  generalize parseValueInternal (retroVaultJsonMaxDepth + 1)
    (bytesBetween memory data (data + size)) = m at hr hroot hvalue
  cases hr with
  | rejected => exact within_pure.2 ⟨none, rfl, nofun, hroot.symm, nofun⟩
  | accepted hbegin hlt hstop =>
    rename_i start after type
    refine within_bind.2 (skipSpaceAt_spec (by dsimp only; omega) hstop ?_)
    intro next hnext hnextStop hskip
    rw [Option.bind_some, hskip] at hroot
    have hend : bytesBetween memory next (data + size) = [] ↔ next = data + size := by
      rw [← List.length_eq_zero_iff, length_bytesBetween]
      omega
    split
    · rename_i hfull
      rw [if_pos (hend.2 hfull)] at hroot
      refine within_pure.2 ⟨_, rfl, ?_, hroot.symm, ?_⟩
      · rintro span ⟨⟩
        exact ⟨hbegin, hlt, hstop⟩
      · rintro span ⟨⟩
        exact hvalue
    · rename_i hrest
      rw [if_neg fun h => hrest (hend.1 h)] at hroot
      exact within_pure.2 ⟨none, rfl, nofun, hroot.symm, nofun⟩

/-- The reader accepts every text that is one value with no more than 32 levels of values in it, and
whatever the text is, it ends, loads no other bytes, and returns a part of the text. -/
theorem json_reader_complete (memory : Memory) (data size : Nat) :
    (∀ value before body after, Space before → Renders 32 value body → Space after →
      bytesBetween memory data (data + size) = before ++ (body ++ after) →
      result memory (parseRetroVaultJsonAt data size) = some (some
        ⟨data + before.length, data + before.length + body.length, typeOf value⟩)) ∧
    Within memory data (data + size) (parseRetroVaultJsonAt data size) fun r =>
      ∃ outcome, r = some outcome ∧ ∀ span ∈ outcome,
        data ≤ span.start ∧ span.start < span.stop ∧ span.stop ≤ data + size := by
  have hreads := parseRetroVaultJsonAt_reads memory data size
  constructor
  · intro value before body after hbefore hbody hafter hbytes
    have hparse : parseValue (before ++ (body ++ after) ++ []) =
        some (⟨body, typeOf value⟩, after ++ []) :=
      (scans_renders (by decide)).item hbody hbefore hafter fun c hc => by cases hc
    rw [List.append_nil, List.append_nil, ← hbytes] at hparse
    have hroot : parseRetroVaultJson (bytesBetween memory data (data + size)) =
        some ⟨body, typeOf value⟩ := by
      rw [parseRetroVaultJson, hparse]
      simp only [Option.bind_eq_bind, Option.bind_some, skipSpace_space hafter]
      rfl
    obtain ⟨outcome, houtcome, hinside, hvalue, hbehind⟩ := hreads.2
    rw [hroot] at hvalue
    obtain ⟨span, rfl, hspan⟩ := Option.map_eq_some_iff.1 hvalue
    obtain ⟨hlow, hlt, hstop⟩ := hinside span rfl
    have hafterValue := (hbehind span rfl).symm.trans hparse
    -- The lengths of the three parts say where the span is.
    have hbodyLength := congrArg (List.length ∘ JsonValue.text) hspan
    have hafterLength := congrArg (List.length ∘ Prod.snd) (Option.some.inj hafterValue)
    have hlength := congrArg List.length hbytes
    simp only [Function.comp_apply, JsonSpan.value, length_bytesBetween, List.length_append]
      at hbodyLength hafterLength hlength
    have htype : span.type = typeOf value := congrArg JsonValue.type hspan
    rw [houtcome]
    congr 2
    have hstart : span.start = data + before.length := by omega
    have hend : span.stop = data + before.length + body.length := by omega
    rw [← hend, ← hstart, ← htype]
  · refine hreads.mono ?_
    rintro r ⟨outcome, rfl, houtcome⟩
    exact ⟨outcome, rfl, houtcome.inside⟩

/-- An array of an empty array and null, with a blank before it and a newline behind it. -/
def paddedMemory : Memory := fun address =>
  ([0x20] ++ (ascii "[[],null]" ++ [0x0A])).getD (address - 100) 0

theorem json_reader_complete_padded : Renders 32 (.array [.array [], .null]) (ascii "[[],null]") ∧
    result paddedMemory (parseRetroVaultJsonAt 100 11) = some (some ⟨101, 110, .array⟩) := by
  have hempty : Renders 31 (.array []) [0x5B, 0x5D] := ⟨[], .inl ⟨rfl, space_nil⟩, rfl⟩
  have hnull : Renders 31 .null (ascii "null") := renders_leaf 31 rfl
  have harray : Renders 32 (.array [.array [], .null]) (ascii "[[],null]") :=
    ⟨_, .inr (.more (item_bare hempty) (.one (item_bare hnull))), rfl⟩
  have hbefore : Space [0x20] := List.forall_mem_singleton.2 (by decide)
  have hafter : Space [0x0A] := List.forall_mem_singleton.2 (by decide)
  exact ⟨harray, (json_reader_complete paddedMemory 100 11).1 _ [0x20] _ [0x0A] hbefore harray
    hafter (by decide +kernel)⟩

end SquidServer.RetroVault

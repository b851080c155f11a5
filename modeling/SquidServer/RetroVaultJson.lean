import SquidServer.CText

namespace SquidServer.RetroVault
open CText
set_option autoImplicit true

inductive JsonType where
  | object | array | string | number | boolean | null
deriving DecidableEq

/-- A value of the text, as the bytes from its `start` to its `end`. -/
structure JsonValue where
  text : List UInt8
  type : JsonType
deriving DecidableEq

abbrev retroVaultJsonMaxDepth : Nat := 32

def skipSpace (cursor : List UInt8) : List UInt8 := cursor.dropWhile isSpace

/-- The characters `strchr` finds in the list of one-character escapes; it also finds the NUL
that ends the list. -/
def isEscape (c : UInt8) : Bool := c ∈ ascii "\"\\/bfnrt" ∨ c = 0

/-- The loop of `parse_string_end`, after the opening quote. -/
def scanString : List UInt8 → Option (List UInt8)
  | [] => none
  | c :: rest =>
    if c = 0x22 then some rest
    else if c < 0x20 then none
    else if c = 0x5C then
      match rest with
      | [] => none
      | e :: rest =>
        if isEscape e then scanString rest
        else if e = 0x75 then
          match rest with
          | h₁ :: h₂ :: h₃ :: h₄ :: rest =>
            if isXDigit h₁ ∧ isXDigit h₂ ∧ isXDigit h₃ ∧ isXDigit h₄ then scanString rest else none
          | _ => none
        else none
    else scanString rest

def parseStringEnd (cursor : List UInt8) : Option (List UInt8) :=
  match cursor with
  | [] => none
  | c :: rest => if c = 0x22 then scanString rest else none

/-- The loop over the members of an object; `child` gives what follows a value. Every turn
takes at least one byte, so that a bound above the size of the text is never reached. -/
def objectEnd (child : List UInt8 → Option (List UInt8)) : Nat → List UInt8 → Option (List UInt8)
  | 0, _ => none
  | n + 1, current => do
    let keyEnd ← parseStringEnd (skipSpace current)
    match skipSpace keyEnd with
    | 0x3A :: current =>
      match skipSpace (← child current) with
      | 0x2C :: current => objectEnd child n current
      | 0x7D :: after => some after
      | _ => none
    | _ => none

/-- The loop over the elements of an array. -/
def arrayEnd (child : List UInt8 → Option (List UInt8)) : Nat → List UInt8 → Option (List UInt8)
  | 0, _ => none
  | n + 1, current => do
    match skipSpace (← child current) with
    | 0x2C :: current => arrayEnd child n current
    | 0x5D :: after => some after
    | _ => none

/-- The characters of a number after the first; `strchr` finds the NUL here, too. -/
def isNumberCharacter (c : UInt8) : Bool := c ∈ ascii "0123456789.eE+-" ∨ c = 0

/-- The value of a type between two places of the text, with what follows it. -/
def valueBetween (type : JsonType) (start after : List UInt8) : JsonValue × List UInt8 :=
  (⟨start.take (start.length - after.length), type⟩, after)

/-- `parse_value_internal` with `levels` levels of nesting left. -/
def parseValueInternal : Nat → List UInt8 → Option (JsonValue × List UInt8)
  | 0, _ => none
  | levels + 1, cursor =>
    let start := skipSpace cursor
    let child := fun current => (parseValueInternal levels current).map Prod.snd
    match start with
    | [] => none
    | c :: rest =>
      if c = 0x22 then (parseStringEnd start).map (valueBetween .string start)
      else if c = 0x7B then
        match skipSpace rest with
        | 0x7D :: after => some (valueBetween .object start after)
        | current => (objectEnd child (rest.length + 1) current).map (valueBetween .object start)
      else if c = 0x5B then
        match skipSpace rest with
        | 0x5D :: after => some (valueBetween .array start after)
        | current => (arrayEnd child (rest.length + 1) current).map (valueBetween .array start)
      else if (ascii "true").isPrefixOf start then
        some (valueBetween .boolean start (start.drop 4))
      else if (ascii "false").isPrefixOf start then
        some (valueBetween .boolean start (start.drop 5))
      else if (ascii "null").isPrefixOf start then
        some (valueBetween .null start (start.drop 4))
      else if c = 0x2D ∨ isDigit c then
        some (valueBetween .number start (rest.dropWhile isNumberCharacter))
      else none

/-- `parse_value_internal` at depth 0. -/
def parseValue (cursor : List UInt8) : Option (JsonValue × List UInt8) :=
  parseValueInternal (retroVaultJsonMaxDepth + 1) cursor

def parseRetroVaultJson (data : List UInt8) : Option JsonValue := do
  let (value, after) ← parseValue data
  if skipSpace after = [] then some value else none

def hexValue (c : UInt8) : Option Nat :=
  if 0x30 ≤ c ∧ c ≤ 0x39 then some (c.toNat - 0x30)
  else if 0x61 ≤ c ∧ c ≤ 0x66 then some (c.toNat - 0x61 + 10)
  else if 0x41 ≤ c ∧ c ≤ 0x46 then some (c.toNat - 0x41 + 10)
  else none

/-- The four digits after `\u`, and what follows them. -/
def decodeHexQuad : List UInt8 → Option (Nat × List UInt8)
  | h₁ :: h₂ :: h₃ :: h₄ :: rest => do
    some (((← hexValue h₁) * 16 + (← hexValue h₂)) * 256 + (← hexValue h₃) * 16 + (← hexValue h₄),
      rest)
  | _ => none

def encodeUtf8 (codepoint : Nat) : List UInt8 :=
  if codepoint ≤ 0x7F then [UInt8.ofNat codepoint]
  else if codepoint ≤ 0x7FF then
    [UInt8.ofNat (0xC0 ||| codepoint >>> 6), UInt8.ofNat (0x80 ||| codepoint &&& 0x3F)]
  else if codepoint ≤ 0xFFFF then
    [UInt8.ofNat (0xE0 ||| codepoint >>> 12), UInt8.ofNat (0x80 ||| codepoint >>> 6 &&& 0x3F),
      UInt8.ofNat (0x80 ||| codepoint &&& 0x3F)]
  else
    [UInt8.ofNat (0xF0 ||| codepoint >>> 18), UInt8.ofNat (0x80 ||| codepoint >>> 12 &&& 0x3F),
      UInt8.ofNat (0x80 ||| codepoint >>> 6 &&& 0x3F), UInt8.ofNat (0x80 ||| codepoint &&& 0x3F)]

/-- The escapes of one character. -/
def simpleEscape (c : UInt8) : Option UInt8 :=
  if c = 0x22 ∨ c = 0x5C ∨ c = 0x2F then some c
  else if c = 0x62 then some 0x08
  else if c = 0x66 then some 0x0C
  else if c = 0x6E then some 0x0A
  else if c = 0x72 then some 0x0D
  else if c = 0x74 then some 0x09
  else none

def isHighSurrogate (codepoint : Nat) : Bool := 0xD800 ≤ codepoint ∧ codepoint ≤ 0xDBFF

def isLowSurrogate (codepoint : Nat) : Bool := 0xDC00 ≤ codepoint ∧ codepoint ≤ 0xDFFF

/-- The second half of a surrogate pair, and what follows it. -/
def lowSurrogate : List UInt8 → Option (Nat × List UInt8)
  | 0x5C :: 0x75 :: cursor => do
    let (low, rest) ← decodeHexQuad cursor
    if isLowSurrogate low then some (low, rest) else none
  | _ => none

/-- One `\u` escape, after the `u`: the code point and what follows it. -/
def decodeUnicode (cursor : List UInt8) : Option (Nat × List UInt8) := do
  let (codepoint, cursor) ← decodeHexQuad cursor
  let (codepoint, cursor) :=
    match if isHighSurrogate codepoint then lowSurrogate cursor else none with
    | some (low, rest) => (0x10000 + (codepoint - 0xD800) * 0x400 + (low - 0xDC00), rest)
    | none => (codepoint, cursor)
  some (if isHighSurrogate codepoint ∨ isLowSurrogate codepoint then 0xFFFD else codepoint, cursor)

/-- The loop of `duplicate_retro_vault_json_string`, with a bound on its turns. -/
def decodeString : Nat → List UInt8 → Option (List UInt8)
  | _, [] => some []
  | 0, _ :: _ => none
  | n + 1, c :: cursor => do
    if c ≠ 0x5C then return c :: (← decodeString n cursor)
    else match cursor with
      | [] => none
      | e :: cursor =>
        match simpleEscape e with
        | some d => return d :: (← decodeString n cursor)
        | none =>
          if e = 0x75 then
            let (codepoint, cursor) ← decodeUnicode cursor
            return encodeUtf8 codepoint ++ (← decodeString n cursor)
          else none

/-- The text without its first and its last byte. -/
def JsonValue.inner (value : JsonValue) : List UInt8 := value.text.tail.dropLast

/-- The bytes before the NUL that `duplicate_retro_vault_json_string` writes at the end; a
`\u0000` may have put a NUL among them. -/
def duplicateJsonString (value : JsonValue) : Option (List UInt8) :=
  if value.type ≠ .string ∨ value.text.length < 2 then none
  else decodeString value.inner.length value.inner

def jsonStringMatches (value : JsonValue) (text : List UInt8) : Bool :=
  match duplicateJsonString value with
  | none => false
  | some decoded => (CString.ofBytes decoded).bytes = text

/-- The loop of `get_retro_vault_json_member`; `none` stands for -1, `some none` for 0. -/
def findMember (name : List UInt8) : Nat → List UInt8 → Option (Option JsonValue)
  | 0, _ => none
  | n + 1, cursor =>
    match skipSpace cursor with
    | [] => some none
    | cursor => do
      let (key, after) ← parseValue cursor
      if key.type ≠ .string then none
      else match skipSpace after with
        | 0x3A :: cursor =>
          let (member, after) ← parseValue cursor
          if jsonStringMatches key name then some (some member)
          else match skipSpace after with
            | 0x2C :: cursor => findMember name n cursor
            | [] => some none
            | _ => none
        | _ => none

def getJsonMember (object : JsonValue) (name : List UInt8) : Option (Option JsonValue) :=
  if object.type ≠ .object then none
  else findMember name (object.inner.length + 1) object.inner

structure JsonIterator where
  cursor : List UInt8
  finished : Bool

def initJsonArrayIterator (array : JsonValue) : Option JsonIterator :=
  if array.type ≠ .array then none else some ⟨array.inner, false⟩

/-- `next_retro_vault_json_array_value`; `none` stands for -1, `some none` for 0. -/
def nextJsonArrayValue (iterator : JsonIterator) : Option (Option (JsonValue × JsonIterator)) :=
  if iterator.finished then some none
  else match skipSpace iterator.cursor with
    | [] => some none
    | cursor => do
      let (value, after) ← parseValue cursor
      match skipSpace after with
      | [] => some (some (value, ⟨[], true⟩))
      | c :: cursor => if c ≠ 0x2C then none else some (some (value, ⟨cursor, false⟩))

/-- A loop over the values of an array, as the callers of the iterator write it: it fails when
the iterator or the body does. -/
def foldJsonArray (body : σ → JsonValue → Option σ) : Nat → JsonIterator → σ → Option σ
  | 0, _, _ => none
  | n + 1, iterator, s => do
    match ← nextJsonArrayValue iterator with
    | none => some s
    | some (value, iterator) => foldJsonArray body n iterator (← body s value)

/-- `strtoull` in base 10: the number and the bytes after it; `none` when it is out of range. -/
def strtoull (text : List UInt8) : Option UInt64 × List UInt8 :=
  let start := skipSpace text
  let (negative, digits) :=
    match start with
    | 0x2D :: rest => (true, rest)
    | 0x2B :: rest => (false, rest)
    | rest => (false, rest)
  let number := (digits.takeWhile isDigit).foldl (fun n c => n * 10 + (c.toNat - 0x30)) 0
  if digits.takeWhile isDigit = [] then (some 0, text)
  else
    (if number < 2 ^ 64 then
      some (if negative then -UInt64.ofNat number else UInt64.ofNat number) else none,
      digits.dropWhile isDigit)

def getJsonUint64 (value : JsonValue) : Option UInt64 :=
  if value.type ≠ .number then none
  else if value.text.length = 0 ∨ 32 ≤ value.text.length ∨ value.text.head? = some 0x2D then none
  else match strtoull value.text with
    | (some number, []) => some number
    | _ => none

end SquidServer.RetroVault

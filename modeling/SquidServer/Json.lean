import SquidServer.Utf8

namespace Json
open CText
set_option autoImplicit true

/-- The characters of a string. `none` is an escape for half a surrogate pair, without the other
half. -/
abbrev Text := List (Option Char)

/-- A JSON value. A number is kept as it is written, and the members of an object in their order. -/
inductive Value where
  | null
  | boolean (value : Bool)
  | number (text : List UInt8)
  | string (text : Text)
  | array (items : List Value)
  | object (members : List (Text × Value))

def Space (text : List UInt8) : Prop := ∀ c ∈ text, c = 0x20 ∨ c = 0x09 ∨ c = 0x0A ∨ c = 0x0D

/-- A hexadecimal digit, in either case, and its value. -/
def HexDigit (c : UInt8) (value : Nat) : Prop :=
  value < 10 ∧ c = UInt8.ofNat (0x30 + value) ∨
    10 ≤ value ∧ value < 16 ∧ (c = UInt8.ofNat (0x57 + value) ∨ c = UInt8.ofNat (0x37 + value))

/-- The four digits behind a `\u`, and the code unit they stand for. -/
inductive HexQuad : List UInt8 → Nat → Prop
  | intro : HexDigit c₁ n₁ → HexDigit c₂ n₂ → HexDigit c₃ n₃ → HexDigit c₄ n₄ →
      HexQuad [c₁, c₂, c₃, c₄] (((n₁ * 16 + n₂) * 16 + n₃) * 16 + n₄)

def IsHigh (unit : Nat) : Prop := 0xD800 ≤ unit ∧ unit ≤ 0xDBFF

def IsLow (unit : Nat) : Prop := 0xDC00 ≤ unit ∧ unit ≤ 0xDFFF

/-- The characters that have an escape of two bytes, behind the byte it ends with. -/
def shortEscapes : List (UInt8 × Char) :=
  [(0x22, .ofNat 0x22), (0x5C, .ofNat 0x5C), (0x2F, .ofNat 0x2F), (0x62, .ofNat 0x08),
    (0x66, .ofNat 0x0C), (0x6E, .ofNat 0x0A), (0x72, .ofNat 0x0D), (0x74, .ofNat 0x09)]

/-- The ways to write the characters of a string between its quotes. -/
inductive Spells : Text → List UInt8 → Prop
  | nil : Spells [] []
  | raw {c : Char} : 0x20 ≤ c.toNat → c.toNat ≠ 0x22 → c.toNat ≠ 0x5C → Spells text bytes →
      Spells (some c :: text) (String.utf8EncodeChar c ++ bytes)
  | short : (e, c) ∈ shortEscapes → Spells text bytes →
      Spells (some c :: text) (0x5C :: e :: bytes)
  | unicode {c : Char} : HexQuad quad c.toNat → Spells text bytes →
      Spells (some c :: text) (0x5C :: 0x75 :: (quad ++ bytes))
  | pair {c : Char} : HexQuad quad high → HexQuad quad' low → IsHigh high → IsLow low →
      c.toNat = 0x10000 + (high - 0xD800) * 0x400 + (low - 0xDC00) → Spells text bytes →
      Spells (some c :: text) (0x5C :: 0x75 :: (quad ++ 0x5C :: 0x75 :: (quad' ++ bytes)))
  | half : HexQuad quad unit → IsHigh unit ∨ IsLow unit →
      (IsHigh unit → ∀ quad' low rest, HexQuad quad' low → IsLow low →
        bytes ≠ 0x5C :: 0x75 :: (quad' ++ rest)) → Spells text bytes →
      Spells (none :: text) (0x5C :: 0x75 :: (quad ++ bytes))

/-- The bytes that a string between its quotes stands for. The bytes that are written as they are
may be any, also ones that are no UTF-8. -/
inductive Unescapes : List UInt8 → List UInt8 → Prop
  | nil : Unescapes [] []
  | raw : 0x20 ≤ b → b ≠ 0x22 → b ≠ 0x5C → Unescapes literal bytes →
      Unescapes (b :: literal) (b :: bytes)
  | short : (e, c) ∈ shortEscapes → Unescapes literal bytes →
      Unescapes (0x5C :: e :: literal) (String.utf8EncodeChar c ++ bytes)
  | unicode {c : Char} : HexQuad quad c.toNat → Unescapes literal bytes →
      Unescapes (0x5C :: 0x75 :: (quad ++ literal)) (String.utf8EncodeChar c ++ bytes)
  | pair {c : Char} : HexQuad quad high → HexQuad quad' low → IsHigh high → IsLow low →
      c.toNat = 0x10000 + (high - 0xD800) * 0x400 + (low - 0xDC00) → Unescapes literal bytes →
      Unescapes (0x5C :: 0x75 :: (quad ++ 0x5C :: 0x75 :: (quad' ++ literal)))
        (String.utf8EncodeChar c ++ bytes)
  | half : HexQuad quad unit → IsHigh unit ∨ IsLow unit →
      (IsHigh unit → ∀ quad' low rest, HexQuad quad' low → IsLow low →
        literal ≠ 0x5C :: 0x75 :: (quad' ++ rest)) → Unescapes literal bytes →
      Unescapes (0x5C :: 0x75 :: (quad ++ literal))
        (String.utf8EncodeChar (.ofNat 0xFFFD) ++ bytes)

def IsDigits (text : List UInt8) : Prop := text ≠ [] ∧ ∀ c ∈ text, isDigit c = true

/-- An integer without a sign has no zero in front of other digits. -/
def IsInteger (text : List UInt8) : Prop := IsDigits text ∧ (text.head? = some 0x30 → text = [0x30])

def IsFraction (text : List UInt8) : Prop := ∃ digits, IsDigits digits ∧ text = 0x2E :: digits

def IsExponent (text : List UInt8) : Prop :=
  ∃ e sign digits, (e = 0x65 ∨ e = 0x45) ∧ (sign = [] ∨ sign = [0x2B] ∨ sign = [0x2D]) ∧
    IsDigits digits ∧ text = e :: (sign ++ digits)

def IsNumber (text : List UInt8) : Prop :=
  ∃ sign integer fraction exponent, (sign = [] ∨ sign = [0x2D]) ∧ IsInteger integer ∧
    (fraction = [] ∨ IsFraction fraction) ∧ (exponent = [] ∨ IsExponent exponent) ∧
    text = sign ++ (integer ++ (fraction ++ exponent))

/-- The number that plain digits stand for. -/
def digitsValue (text : List UInt8) : Nat := text.foldl (fun n c => n * 10 + (c.toNat - 0x30)) 0

/-- One or more parts with commas between them. -/
inductive Joined (Part : α → List UInt8 → Prop) : List α → List UInt8 → Prop
  | one : Part a text → Joined Part [a] text
  | more : Part a text → Joined Part as rest → Joined Part (a :: as) (text ++ 0x2C :: rest)

/-- What stands between the brackets of an array or an object. -/
def Listed (Part : α → List UInt8 → Prop) (as : List α) (text : List UInt8) : Prop :=
  (as = [] ∧ Space text) ∨ Joined Part as text

section
variable (Child : Value → List UInt8 → Prop)

/-- A value with white space around it. -/
def Item (value : Value) (text : List UInt8) : Prop :=
  ∃ before body after, Space before ∧ Child value body ∧ Space after ∧
    text = before ++ (body ++ after)

/-- A key, a colon and a value. -/
def Member (member : Text × Value) (text : List UInt8) : Prop :=
  ∃ before key between item, Space before ∧ Spells member.1 key ∧ Space between ∧
    Item Child member.2 item ∧ text = before ++ 0x22 :: (key ++ 0x22 :: (between ++ 0x3A :: item))

/-- The ways to write a value, given those to write the values in it. -/
def RendersWith : Value → List UInt8 → Prop
  | .null, text => text = ascii "null"
  | .boolean value, text => text = ascii (if value then "true" else "false")
  | .number number, text => IsNumber number ∧ text = number
  | .string string, text => ∃ body, Spells string body ∧ text = 0x22 :: (body ++ [0x22])
  | .array items, text => ∃ body, Listed (Item Child) items body ∧ text = 0x5B :: (body ++ [0x5D])
  | .object members, text =>
    ∃ body, Listed (Member Child) members body ∧ text = 0x7B :: (body ++ [0x7D])

end

/-- The ways to write a value that has at most so many levels of values in it. -/
def Renders : Nat → Value → List UInt8 → Prop
  | 0 => RendersWith fun _ _ => False
  | n + 1 => RendersWith (Renders n)

/-- A text that is one value. -/
def IsDocument (levels : Nat) (value : Value) (data : List UInt8) : Prop :=
  Item (Renders levels) value data

theorem Joined.mono_mem {Part Part' : α → List UInt8 → Prop} (h : Joined Part as text)
    (hpart : ∀ a ∈ as, ∀ text, Part a text → Part' a text) : Joined Part' as text := by
  induction h with
  | one hfirst => exact .one (hpart _ List.mem_cons_self _ hfirst)
  | more hfirst _ ih =>
    exact .more (hpart _ List.mem_cons_self _ hfirst)
      (ih fun a ha => hpart a (List.mem_cons_of_mem _ ha))

theorem Listed.mono_mem {Part Part' : α → List UInt8 → Prop} (h : Listed Part as text)
    (hpart : ∀ a ∈ as, ∀ text, Part a text → Part' a text) : Listed Part' as text :=
  h.imp id fun hjoined => hjoined.mono_mem hpart

/-- Something holds of the values in a value. -/
def HoldsInside (Holds : Value → Prop) : Value → Prop
  | .array items => ∀ item ∈ items, Holds item
  | .object members => ∀ member ∈ members, Holds member.2
  | _ => True

/-- A value has at most so many levels of values in it. -/
def Nests : Nat → Value → Prop
  | 0 => HoldsInside fun _ => False
  | n + 1 => HoldsInside (Nests n)

theorem holdsInside_of_forall {Holds : Value → Prop} (h : ∀ value, Holds value) (value : Value) :
    HoldsInside Holds value := by
  cases value with
  | array items => exact fun item _ => h item
  | object members => exact fun member _ => h member.2
  | _ => trivial

section
variable {Child Child' : Value → List UInt8 → Prop} {Holds : Value → Prop}

theorem space_nil : Space [] := by
  intro c hc
  cases hc

theorem item_bare (h : Child value text) : Item Child value text :=
  ⟨[], text, [], space_nil, h, space_nil, (List.append_nil text).symm⟩

theorem member_bare (hkey : Spells key body) (h : Child value text) :
    Member Child (key, value) (0x22 :: (body ++ 0x22 :: 0x3A :: text)) :=
  ⟨[], body, [], text, space_nil, hkey, space_nil, item_bare h, rfl⟩

theorem Item.mono (h : Item Child value text)
    (hchild : ∀ text, Child value text → Child' value text) : Item Child' value text := by
  obtain ⟨before, body, after, hbefore, hbody, hafter, htext⟩ := h
  exact ⟨before, body, after, hbefore, hchild _ hbody, hafter, htext⟩

theorem Member.mono (h : Member Child member text)
    (hchild : ∀ text, Child member.2 text → Child' member.2 text) : Member Child' member text := by
  obtain ⟨before, key, between, item, hbefore, hkey, hbetween, hitem, htext⟩ := h
  exact ⟨before, key, between, item, hbefore, hkey, hbetween, hitem.mono hchild, htext⟩

theorem RendersWith.mono_inside (h : RendersWith Child value text)
    (hinside : HoldsInside Holds value)
    (hchild : ∀ value text, Holds value → Child value text → Child' value text) :
    RendersWith Child' value text := by
  cases value with
  | null => exact h
  | boolean value => exact h
  | number number => exact h
  | string string => exact h
  | array items =>
    obtain ⟨body, hbody, htext⟩ := h
    refine ⟨body, hbody.mono_mem ?_, htext⟩
    intro item hmem _ hitem
    exact hitem.mono fun text => hchild item text (hinside item hmem)
  | object members =>
    obtain ⟨body, hbody, htext⟩ := h
    refine ⟨body, hbody.mono_mem ?_, htext⟩
    intro member hmem _ hmember
    exact hmember.mono fun text => hchild member.2 text (hinside member hmem)

theorem RendersWith.mono (h : RendersWith Child value text)
    (hchild : ∀ value text, Child value text → Child' value text) :
    RendersWith Child' value text :=
  h.mono_inside (holdsInside_of_forall (fun _ => trivial) value)
    fun value text _ => hchild value text

end

theorem renders_leaf (n : Nat) (h : RendersWith (fun _ _ => False) value text) :
    Renders n value text := by
  cases n with
  | zero => exact h
  | succ n => exact h.mono fun _ _ hnone => absurd hnone id

/-- How a value is written does not depend on how many levels it may have. -/
theorem Renders.of_nests (h : Renders m value text) (hnests : Nests n value) :
    Renders n value text := by
  induction n generalizing m value text with
  | zero =>
    cases m with
    | zero => exact h
    | succ m => exact RendersWith.mono_inside h hnests fun _ _ hnone => absurd hnone id
  | succ n ih =>
    cases m with
    | zero => exact RendersWith.mono h fun _ _ hnone => absurd hnone id
    | succ m => exact RendersWith.mono_inside h hnests fun _ _ hinner htext => ih htext hinner

theorem Renders.inner (h : Renders n value text) : RendersWith (Renders n) value text := by
  induction n generalizing value text with
  | zero => exact RendersWith.mono h fun _ _ hnone => absurd hnone id
  | succ n ih => exact RendersWith.mono h fun _ _ hinner => ih hinner

/-- The bytes of a string. Half a pair is no character, and U+FFFD takes its place. -/
def encode (text : Text) : List UInt8 :=
  text.flatMap fun c => String.utf8EncodeChar (c.getD (.ofNat 0xFFFD))

theorem encode_cons (c : Option Char) (text : Text) :
    encode (c :: text) = String.utf8EncodeChar (c.getD (.ofNat 0xFFFD)) ++ encode text := rfl

theorem utf8EncodeChar_cases (c : Char) :
    (c.toNat ≤ 0x7F ∧ String.utf8EncodeChar c = [UInt8.ofNat c.toNat]) ∨
      0x80 ≤ c.toNat ∧ ∀ b ∈ String.utf8EncodeChar c, 0x80 ≤ b := by
  have hval : c.val.toNat = c.toNat := rfl
  have hhigh : ∀ n : Nat, 0x80 ≤ n → n < 0x100 → (0x80 : UInt8) ≤ UInt8.ofNat n := by
    intro n hn hlt
    rw [UInt8.le_iff_toNat_le, UInt8.toNat_ofNat_of_lt' (show n < 256 by omega)]
    exact hn
  rw [String.utf8EncodeChar, hval]
  split
  · rename_i hle
    exact .inl ⟨hle, rfl⟩
  · refine .inr ⟨by omega, ?_⟩
    split
    · simp only [List.mem_cons, List.not_mem_nil, or_false, forall_eq_or_imp, forall_eq]
      refine ⟨hhigh _ ?_ ?_, hhigh _ ?_ ?_⟩
      all_goals omega
    · split
      · simp only [List.mem_cons, List.not_mem_nil, or_false, forall_eq_or_imp, forall_eq]
        refine ⟨hhigh _ ?_ ?_, hhigh _ ?_ ?_, hhigh _ ?_ ?_⟩
        all_goals omega
      · simp only [List.mem_cons, List.not_mem_nil, or_false, forall_eq_or_imp, forall_eq]
        refine ⟨hhigh _ ?_ ?_, hhigh _ ?_ ?_, hhigh _ ?_ ?_, hhigh _ ?_ ?_⟩
        all_goals omega

theorem raw_plain (hlow : 0x20 ≤ c.toNat) (hquote : c.toNat ≠ 0x22) (hescape : c.toNat ≠ 0x5C) :
    ∀ b ∈ String.utf8EncodeChar c, 0x20 ≤ b ∧ b ≠ 0x22 ∧ b ≠ 0x5C := by
  intro b hb
  rcases utf8EncodeChar_cases c with ⟨hascii, hbytes⟩ | ⟨-, hbytes⟩
  · rw [hbytes, List.mem_singleton] at hb
    have hvalue : b.toNat = c.toNat := by
      rw [hb]
      exact UInt8.toNat_ofNat_of_lt' (show c.toNat < 256 by omega)
    refine ⟨UInt8.le_iff_toNat_le.2 (by rw [hvalue]; exact hlow), ?_, ?_⟩
    · rintro rfl
      exact hquote hvalue.symm
    · rintro rfl
      exact hescape hvalue.symm
  · have hhigh := UInt8.le_iff_toNat_le.1 (hbytes b hb)
    refine ⟨UInt8.le_iff_toNat_le.2 (Nat.le_trans (by decide) hhigh), ?_, ?_⟩
    · rintro rfl
      exact absurd hhigh (by decide)
    · rintro rfl
      exact absurd hhigh (by decide)

theorem Unescapes.plain (h : Unescapes literal bytes)
    (hplain : ∀ b ∈ front, 0x20 ≤ b ∧ b ≠ 0x22 ∧ b ≠ 0x5C) :
    Unescapes (front ++ literal) (front ++ bytes) := by
  induction front with
  | nil => exact h
  | cons b front ih =>
    obtain ⟨hlow, hquote, hescape⟩ := hplain b List.mem_cons_self
    exact .raw hlow hquote hescape (ih fun d hd => hplain d (List.mem_cons_of_mem b hd))

/-- Every way to write a text stands for its bytes. -/
theorem Spells.unescapes (h : Spells text literal) : Unescapes literal (encode text) := by
  induction h with
  | nil => exact .nil
  | raw hlow hquote hescape _ ih => exact ih.plain (raw_plain hlow hquote hescape)
  | short hmem _ ih => exact .short hmem ih
  | unicode hquad _ ih => exact .unicode hquad ih
  | pair hquad hquad' hhigh hlow hc _ ih => exact .pair hquad hquad' hhigh hlow hc ih
  | half hquad hunit hrest _ ih => exact .half hquad hunit hrest ih

theorem HexQuad.ascii (h : HexQuad quad n) : ∀ b ∈ quad, b.toNat < 0x80 := by
  have hdigit : ∀ c n, HexDigit c n → c.toNat < 0x80 := by
    have hall : (∀ n < 10, (UInt8.ofNat (0x30 + n)).toNat < 0x80) ∧ ∀ n < 16,
      (UInt8.ofNat (0x57 + n)).toNat < 0x80 ∧ (UInt8.ofNat (0x37 + n)).toNat < 0x80 := by decide
    rintro c n (⟨hn, rfl⟩ | ⟨-, hn, rfl | rfl⟩)
    · exact hall.1 n hn
    · exact (hall.2 n hn).1
    · exact (hall.2 n hn).2
  obtain ⟨h₁, h₂, h₃, h₄⟩ := h
  simp only [List.mem_cons, List.not_mem_nil, or_false, forall_eq_or_imp, forall_eq]
  exact ⟨hdigit _ _ h₁, hdigit _ _ h₂, hdigit _ _ h₃, hdigit _ _ h₄⟩

theorem Unescapes.after_plain (h : Unescapes (front ++ literal) bytes)
    (hfront : ∀ b ∈ front, b ≠ 0x5C) : ∃ rest, bytes = front ++ rest ∧ Unescapes literal rest := by
  induction front generalizing bytes with
  | nil => exact ⟨bytes, rfl, h⟩
  | cons b front ih =>
    have hb := hfront b List.mem_cons_self
    rw [List.cons_append] at h
    generalize htail : front ++ literal = tail at h
    cases h with
    | raw _ _ _ hrest =>
      subst htail
      obtain ⟨rest, rfl, hbehind⟩ := ih hrest fun d hd => hfront d (List.mem_cons_of_mem b hd)
      exact ⟨rest, rfl, hbehind⟩
    | short => exact absurd rfl hb
    | unicode => exact absurd rfl hb
    | pair => exact absurd rfl hb
    | half => exact absurd rfl hb

/-- The bytes of an escape are no part of a longer character. -/
theorem valid_after_escape {digits literal : List UInt8}
    (h : Utf8.Valid (0x5C :: 0x75 :: (digits ++ literal)))
    (hdigits : ∀ b ∈ digits, b.toNat < 0x80) : Utf8.Valid literal := by
  have hescape : Utf8.Valid (0x5C :: 0x75 :: digits) := by
    apply Utf8.valid_ascii
    simp only [List.mem_cons, forall_eq_or_imp]
    exact ⟨by decide, by decide, hdigits⟩
  exact Utf8.Valid.of_append h hescape

/-- A string whose bytes are UTF-8 stands for UTF-8. -/
theorem Unescapes.valid (h : Unescapes literal bytes) (hliteral : Utf8.Valid literal) :
    Utf8.Valid bytes := by
  induction hn : literal.length using Nat.strong_induction_on generalizing literal bytes with
  | _ n ih =>
  subst hn
  cases h with
  | nil => exact hliteral
  | @raw b _ _ hlow hquote hescape htail =>
    -- The byte starts a character, whose other bytes are written as they are, too.
    obtain ⟨chars, hchars⟩ := hliteral
    cases chars with
    | nil => cases hchars
    | cons c chars =>
      obtain ⟨first, more, hc, -, hmore⟩ := Utf8.utf8EncodeChar_bytes c
      rw [List.flatMap_cons, hc, List.cons_append] at hchars
      obtain ⟨rfl, rfl⟩ := List.cons.inj hchars
      have hplain : ∀ b ∈ more, b ≠ 0x5C := by
        rintro b hb rfl
        exact absurd (hmore _ hb) (by decide)
      obtain ⟨rest, rfl, hrest⟩ := htail.after_plain hplain
      have hlength : (chars.flatMap String.utf8EncodeChar).length <
          (b :: (more ++ chars.flatMap String.utf8EncodeChar)).length := by
        rw [List.length_cons, List.length_append]
        omega
      have hchar := Utf8.valid_char c
      rw [hc] at hchar
      exact hchar.append (ih _ hlength hrest ⟨chars, rfl⟩ rfl)
  | short hmem htail =>
    rename_i e c literal bytes
    have hascii : ∀ p ∈ shortEscapes, p.1.toNat < 0x80 := by decide
    have hescape : Utf8.Valid [0x5C, e] := by
      apply Utf8.valid_ascii
      simp only [List.mem_cons, List.not_mem_nil, or_false, forall_eq_or_imp, forall_eq]
      exact ⟨by decide, hascii _ hmem⟩
    refine (Utf8.valid_char c).append (ih _ ?_ htail ?_ rfl)
    · simp only [List.length_cons]
      omega
    · exact Utf8.Valid.of_append hliteral hescape
  | unicode hquad htail =>
    refine (Utf8.valid_char _).append (ih _ ?_ htail (valid_after_escape hliteral hquad.ascii) rfl)
    simp only [List.length_cons, List.length_append]
    omega
  | pair hquad hquad' hhigh hlow hc htail =>
    have hbehind := valid_after_escape (valid_after_escape hliteral hquad.ascii) hquad'.ascii
    refine (Utf8.valid_char _).append (ih _ ?_ htail hbehind rfl)
    simp only [List.length_cons, List.length_append]
    omega
  | half hquad hunit hrest htail =>
    refine (Utf8.valid_char _).append (ih _ ?_ htail (valid_after_escape hliteral hquad.ascii) rfl)
    simp only [List.length_cons, List.length_append]
    omega

theorem not_surrogate (c : Char) : ¬ IsHigh c.toNat ∧ ¬ IsLow c.toNat := by
  have hvalid : c.toNat < 0xD800 ∨ 0xDFFF < c.toNat ∧ c.toNat < 0x110000 := c.valid
  constructor
  · rintro ⟨hlow, hhigh⟩
    omega
  · rintro ⟨hlow, hhigh⟩
    omega

theorem IsNumber.integer (h : IsNumber text) (hdigits : IsDigits text) : IsInteger text := by
  obtain ⟨sign, integer, fraction, exponent, hsign, hinteger, hfraction, hexponent, rfl⟩ := h
  have hall := hdigits.2
  have hsign : sign = [] := by
    rcases hsign with rfl | rfl
    · rfl
    · exact absurd (hall 0x2D (by simp)) (by decide)
  have hfraction : fraction = [] := by
    rcases hfraction with rfl | ⟨digits, -, rfl⟩
    · rfl
    · exact absurd (hall 0x2E (by simp)) (by decide)
  have hexponent : exponent = [] := by
    rcases hexponent with rfl | ⟨e, mark, digits, he, -, -, rfl⟩
    · rfl
    · have hmem := hall e (by simp)
      rcases he with rfl | rfl
      · exact absurd hmem (by decide)
      · exact absurd hmem (by decide)
  rw [hsign, hfraction, hexponent, List.append_nil, List.append_nil]
  exact hinteger

theorem digits_foldl_le (digits : List UInt8) (n : Nat) :
    n * 10 ^ digits.length ≤ digits.foldl (fun n c => n * 10 + (c.toNat - 0x30)) n := by
  induction digits generalizing n with
  | nil => simp
  | cons c digits ih =>
    rw [List.foldl_cons, List.length_cons]
    calc n * 10 ^ (digits.length + 1) = (n * 10) * 10 ^ digits.length := by
          rw [Nat.pow_succ, Nat.mul_comm _ 10, Nat.mul_assoc]
      _ ≤ (n * 10 + (c.toNat - 0x30)) * 10 ^ digits.length :=
          Nat.mul_le_mul_right _ (Nat.le_add_right _ _)
      _ ≤ _ := ih _

theorem IsInteger.le_value (h : IsInteger text) (hlength : 1 < text.length) :
    10 ^ (text.length - 1) ≤ digitsValue text := by
  obtain ⟨⟨-, hall⟩, hzero⟩ := h
  cases text with
  | nil => cases hlength
  | cons c digits =>
    have hdigit : 0x30 ≤ c ∧ c ≤ 0x39 := of_decide_eq_true (hall c List.mem_cons_self)
    have hlow : 0x30 ≤ c.toNat := hdigit.1
    have hne : c.toNat ≠ 0x30 := by
      intro hc
      have hsame : c = 0x30 := UInt8.toNat_inj.1 hc
      rw [hzero (congrArg some hsame)] at hlength
      exact absurd hlength (by decide)
    have hfold := digits_foldl_le digits (0 * 10 + (c.toNat - 0x30))
    rw [digitsValue, List.foldl_cons, List.length_cons, Nat.add_sub_cancel]
    calc 10 ^ digits.length = 1 * 10 ^ digits.length := (Nat.one_mul _).symm
      _ ≤ (0 * 10 + (c.toNat - 0x30)) * 10 ^ digits.length := Nat.mul_le_mul_right _ (by omega)
      _ ≤ _ := hfold

end Json

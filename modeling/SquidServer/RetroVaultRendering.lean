import Mathlib.Data.List.Forall2
import SquidServer.RetroVaultScanner
import SquidServer.RetroVaultCatalog

namespace SquidServer.RetroVault
open CText Json
set_option autoImplicit true

/-- The name of a member as a C string has it, which ends at a U+0000. -/
def cName (key : Text) : Text := key.takeWhile (· ≠ some (Char.ofNat 0))

def nameText (name : String) : Text := name.toList.map some

/-- The value of the first member with a name, where `nameOf` gives the name that a key stands
for. -/
def memberNamed (nameOf : Text → Text) (members : List (Text × Value)) (name : String) :
    Option Value :=
  (members.find? fun member => nameOf member.1 = nameText name).map Prod.snd

/-- The names that the parser looks up. -/
def IsName (name : String) : Prop := ∀ c ∈ name.toList, c.toNat < 0x80

theorem utf8EncodeChar_nul (c : Char) (hc : c ≠ Char.ofNat 0) :
    ∀ b ∈ String.utf8EncodeChar c, b ≠ 0 := by
  rintro b hb rfl
  rcases utf8EncodeChar_cases c with ⟨hascii, hbytes⟩ | ⟨-, hbytes⟩
  · rw [hbytes, List.mem_singleton] at hb
    have hzero : c.toNat = 0 := by
      have hvalue : (UInt8.ofNat c.toNat).toNat = c.toNat :=
        UInt8.toNat_ofNat_of_lt' (show c.toNat < 256 by omega)
      rw [← hb] at hvalue
      exact hvalue.symm
    exact hc (by rw [← hzero, Char.ofNat_toNat])
  · exact absurd (hbytes 0 hb) (by decide)

theorem takeWhile_encode (text : Text) :
    (encode text).takeWhile (· ≠ 0) = encode (cName text) := by
  induction text with
  | nil => rfl
  | cons c text ih =>
    by_cases hc : c = some (Char.ofNat 0)
    · rw [hc]
      rfl
    · have hbytes : ∀ b ∈ String.utf8EncodeChar (c.getD (.ofNat 0xFFFD)),
          decide (b ≠ 0) = true := by
        intro b hb
        rw [decide_eq_true_iff]
        refine utf8EncodeChar_nul _ ?_ b hb
        cases c with
        | none => decide
        | some c => exact fun h => hc (congrArg some h)
      have hcut : cName (c :: text) = c :: cName text :=
        List.takeWhile_cons_of_pos (by rw [decide_eq_true_iff]; exact hc)
      rw [encode_cons, List.takeWhile_append_of_pos hbytes, ih, hcut, encode_cons]

theorem encode_ascii (chars : List Char) (h : ∀ c ∈ chars, c.toNat < 0x80) :
    encode (chars.map some) = chars.map fun c => UInt8.ofNat c.toNat := by
  induction chars with
  | nil => rfl
  | cons c chars ih =>
    have htail := ih fun d hd => h d (List.mem_cons_of_mem c hd)
    rw [List.map_cons, List.map_cons, encode_cons, htail, Option.getD_some]
    rcases utf8EncodeChar_cases c with ⟨-, hbytes⟩ | ⟨hhigh, -⟩
    · rw [hbytes]
      rfl
    · exact absurd (h c List.mem_cons_self) (Nat.not_lt.2 hhigh)

theorem text_of_encode_ascii {text : Text} {chars : List Char}
    (h : ∀ c ∈ chars, c.toNat < 0x80)
    (hencode : encode text = chars.map fun c => UInt8.ofNat c.toNat) : text = chars.map some := by
  induction text generalizing chars with
  | nil =>
    cases chars with
    | nil => rfl
    | cons e chars => cases hencode
  | cons c text ih =>
    obtain ⟨b, more, hbytes⟩ :=
      List.exists_cons_of_ne_nil (@String.utf8EncodeChar_ne_nil (c.getD (.ofNat 0xFFFD)))
    rw [encode_cons, hbytes] at hencode
    cases chars with
    | nil => cases hencode
    | cons e chars =>
      obtain ⟨hfirst, htail⟩ := List.cons.inj hencode
      have he := h e List.mem_cons_self
      have hvalue : b.toNat = e.toNat := by
        rw [hfirst]
        exact UInt8.toNat_ofNat_of_lt' (show e.toNat < 256 by omega)
      rcases utf8EncodeChar_cases (c.getD (.ofNat 0xFFFD)) with ⟨hascii, hone⟩ | ⟨-, hhigh⟩
      · rw [hbytes] at hone
        obtain ⟨rfl, rfl⟩ := List.cons.inj hone
        have hsame : (c.getD (.ofNat 0xFFFD)).toNat = e.toNat := by
          rw [← hvalue]
          exact (UInt8.toNat_ofNat_of_lt' (show _ < 256 by omega)).symm
        have hc : c = some e := by
          cases c with
          | none => exact absurd hascii (by decide)
          | some d =>
            rw [Option.getD_some] at hsame
            rw [← Char.ofNat_toNat d, hsame, Char.ofNat_toNat]
        rw [hc, List.map_cons, ih (fun d hd => h d (List.mem_cons_of_mem e hd)) htail]
      · have hb : 0x80 ≤ b.toNat := hhigh b (by rw [hbytes]; exact List.mem_cons_self)
        omega

theorem duplicateJsonString_spells (h : Spells text body) :
    duplicateJsonString ⟨0x22 :: (body ++ [0x22]), .string⟩ = some (encode text) :=
  duplicateJsonString_unescapes h.unescapes

theorem jsonStringMatches_spells (h : Spells key body) (name : List UInt8) :
    jsonStringMatches ⟨0x22 :: (body ++ [0x22]), .string⟩ name =
      decide ((CString.ofBytes (encode key)).bytes = name) := by
  rw [jsonStringMatches, duplicateJsonString_spells h]

theorem keyBytes_iff (key : Text) (hname : IsName name) :
    (CString.ofBytes (encode key)).bytes = ascii name ↔ cName key = nameText name := by
  have hcut : (CString.ofBytes (encode key)).bytes = encode (cName key) := takeWhile_encode key
  rw [hcut]
  constructor
  · exact text_of_encode_ascii hname
  · intro hsame
    rw [hsame]
    exact encode_ascii name.toList hname

section
variable {Child : Value → List UInt8 → Prop}

/-- What follows an item or a member inside its brackets: nothing, or a comma and more. -/
def Continues (rest : List UInt8) : Prop := rest = [] ∨ ∃ more, rest = 0x2C :: more

theorem Continues.stops (h : Continues rest) : Stops rest := by
  rcases h with rfl | ⟨more, rfl⟩
  · intro c hc
    cases hc
  · exact stops_cons (by decide) more

theorem Continues.skipSpace (h : Continues rest) : skipSpace rest = rest := by
  rcases h with rfl | ⟨more, rfl⟩
  · rfl
  · exact skipSpace_cons (by decide) more

theorem findMember_member (hchild : Scans (retroVaultJsonMaxDepth + 1) Child)
    (h : Member Child member text) (hrest : Continues rest) (name : List UInt8) (n : Nat) :
    ∃ body, Child member.2 body ∧ findMember name (n + 1) (text ++ rest) =
      if (CString.ofBytes (encode member.1)).bytes = name then
        some (some ⟨body, typeOf member.2⟩)
      else if rest = [] then some none
      else findMember name n rest.tail := by
  obtain ⟨before, key, between, item, hbefore, hkey, hbetween, hitem, rfl⟩ := h
  obtain ⟨before', body, after, hbefore', hvalue, hafter, rfl⟩ := hitem
  refine ⟨body, hvalue, ?_⟩
  have hkeyText : 0x22 :: (key ++ 0x22 :: (between ++ 0x3A :: (before' ++ (body ++ after) ++
      rest))) = 0x22 :: (key ++ [0x22]) ++ (between ++ 0x3A :: (before' ++ (body ++ after) ++
      rest)) := by simp
  have hkeyValue : parseValue (0x22 :: (key ++ 0x22 :: (between ++ 0x3A :: (before' ++
      (body ++ after) ++ rest)))) = some (⟨0x22 :: (key ++ [0x22]), .string⟩,
        between ++ 0x3A :: (before' ++ (body ++ after) ++ rest)) := by
    rw [hkeyText]
    exact parseValueInternal_string hkey _ _
  have hmember : parseValue (before' ++ (body ++ after) ++ rest) =
      some (⟨body, typeOf member.2⟩, after ++ rest) :=
    hchild.item hvalue hbefore' hafter hrest.stops
  rw [findMember, skipSpace_member hbefore]
  simp only [hkeyValue, Option.bind_eq_bind, Option.bind_some, ne_eq, not_true_eq_false, if_false,
    skipSpace_append hbetween]
  rw [skipSpace_cons (by decide)]
  simp only [hmember, Option.bind_some, jsonStringMatches_spells hkey, decide_eq_true_eq,
    skipSpace_append hafter, hrest.skipSpace]
  split
  · rfl
  · rcases hrest with rfl | ⟨more, rfl⟩
    · rfl
    · rfl

/-- The result of looking up a member is that member, as it is written. -/
def Finds (Child : Value → List UInt8 → Prop) (value : Option Value)
    (result : Option (Option JsonValue)) : Prop :=
  match value with
  | none => result = some none
  | some value => ∃ text, Child value text ∧ result = some (some ⟨text, typeOf value⟩)

/-- The loop of `get_retro_vault_json_member` finds the first member with a name. -/
theorem findMember_joined (hchild : Scans (retroVaultJsonMaxDepth + 1) Child)
    (h : Joined (Member Child) members body) (hname : IsName name) (hn : body.length < n) :
    Finds Child (memberNamed cName members name) (findMember (ascii name) n body) := by
  induction h generalizing n with
  | @one member text hmember =>
    obtain ⟨m, rfl⟩ := Nat.exists_eq_succ_of_ne_zero (Nat.ne_zero_of_lt hn)
    obtain ⟨value, hvalue, hfind⟩ := findMember_member hchild hmember (.inl rfl) (ascii name) m
    simp only [List.append_nil, keyBytes_iff member.1 hname] at hfind
    rw [hfind, memberNamed]
    by_cases hsame : cName member.1 = nameText name
    · rw [if_pos hsame, List.find?_cons_of_pos (by simpa using hsame)]
      exact ⟨value, hvalue, rfl⟩
    · rw [if_neg hsame, List.find?_cons_of_neg (by simpa using hsame)]
      rfl
  | @more member text members later hmember _ ih =>
    obtain ⟨m, rfl⟩ := Nat.exists_eq_succ_of_ne_zero (Nat.ne_zero_of_lt hn)
    obtain ⟨value, hvalue, hfind⟩ := findMember_member hchild hmember
      (.inr ⟨later, rfl⟩) (ascii name) m
    simp only [keyBytes_iff member.1 hname] at hfind
    rw [hfind, memberNamed]
    by_cases hsame : cName member.1 = nameText name
    · rw [if_pos hsame, List.find?_cons_of_pos (by simpa using hsame)]
      exact ⟨value, hvalue, rfl⟩
    · rw [if_neg hsame, if_neg (by simp), List.find?_cons_of_neg (by simpa using hsame)]
      exact ih (by grind)

theorem getJsonMember_rendered (hchild : Scans (retroVaultJsonMaxDepth + 1) Child)
    (h : RendersWith Child (.object members) text) (hname : IsName name) :
    Finds Child (memberNamed cName members name) (getJsonMember ⟨text, .object⟩ (ascii name)) := by
  obtain ⟨body, hbody, rfl⟩ := h
  rw [getJsonMember, if_neg (by simp), inner_brackets]
  rcases hbody with ⟨rfl, hspace⟩ | hjoined
  · rw [findMember, skipSpace_space hspace]
    rfl
  · exact findMember_joined hchild hjoined hname (Nat.lt_succ_self _)

theorem nextJsonArrayValue_item (hchild : Scans (retroVaultJsonMaxDepth + 1) Child)
    (h : Item Child value text) (hrest : Continues rest) :
    ∃ body, Child value body ∧ body ≠ [] ∧ body.length ≤ text.length ∧
      nextJsonArrayValue ⟨text ++ rest, false⟩ = some (some (⟨body, typeOf value⟩,
        if rest = [] then ⟨[], true⟩ else ⟨rest.tail, false⟩)) := by
  obtain ⟨before, body, after, hbefore, hvalue, hafter, rfl⟩ := h
  have hparse : parseValue (before ++ (body ++ after) ++ rest) =
      some (⟨body, typeOf value⟩, after ++ rest) :=
    hchild.item hvalue hbefore hafter hrest.stops
  have hbody : body ≠ [] := by
    rintro rfl
    have hempty := hchild value [] hvalue [] fun c hc => by cases hc
    cases hempty
  refine ⟨body, hvalue, hbody, by grind, ?_⟩
  rw [parseValue, ← parseValueInternal_skipSpace] at hparse
  rw [nextJsonArrayValue, if_neg (by simp)]
  dsimp only
  split
  · rename_i hnone
    rw [hnone] at hparse
    cases hparse
  · rw [parseValue, hparse]
    simp only [Option.bind_eq_bind, Option.bind_some, skipSpace_append hafter, hrest.skipSpace]
    rcases hrest with rfl | ⟨more, rfl⟩
    · rfl
    · rfl

section
variable {body : σ → JsonValue → Option σ} {Describes : α → Value → Prop}
  {state : List α → σ} {items : List α}

/-- What the body of a loop does with the item that comes next. `state` tells what the loop has
made of the items before. -/
def Advances (Child : Value → List UInt8 → Prop) (body : σ → JsonValue → Option σ)
    (Describes : α → Value → Prop) (state : List α → σ) (items : List α) : Prop :=
  ∀ done item later value text, items = done ++ item :: later → Describes item value →
    Child value text → body (state done) ⟨text, typeOf value⟩ = some (state (done ++ [item]))

theorem foldJsonArray_joined (hchild : Scans (retroVaultJsonMaxDepth + 1) Child)
    (hbody : Advances Child body Describes state items) (h : Joined (Item Child) values text)
    (hitems : items = done ++ later) (hvalues : List.Forall₂ Describes later values)
    (hn : text.length < n) :
    foldJsonArray body n ⟨text, false⟩ (state done) = some (state items) := by
  induction h generalizing n done later with
  | @one value text hitem =>
    obtain ⟨item, rest, hitem', hrest, rfl⟩ := List.forall₂_cons_right_iff.1 hvalues
    obtain rfl := List.forall₂_nil_right_iff.1 hrest
    obtain ⟨m, rfl⟩ := Nat.exists_eq_succ_of_ne_zero (Nat.ne_zero_of_lt hn)
    obtain ⟨part, hpart, hne, hlength, hnext⟩ := nextJsonArrayValue_item hchild hitem (.inl rfl)
    have hpos := List.length_pos_iff.2 hne
    obtain ⟨k, rfl⟩ := Nat.exists_eq_succ_of_ne_zero (show m ≠ 0 by omega)
    rw [List.append_nil] at hnext
    rw [foldJsonArray, hnext, hitems]
    simp only [Option.bind_eq_bind, Option.bind_some, if_true,
      hbody done item [] value part hitems hitem' hpart]
    rfl
  | @more value text values later' hitem _ ih =>
    obtain ⟨item, rest, hitem', hrest, rfl⟩ := List.forall₂_cons_right_iff.1 hvalues
    obtain ⟨m, rfl⟩ := Nat.exists_eq_succ_of_ne_zero (Nat.ne_zero_of_lt hn)
    obtain ⟨part, hpart, -, -, hnext⟩ := nextJsonArrayValue_item hchild hitem
      (.inr ⟨later', rfl⟩)
    have hassoc : items = (done ++ [item]) ++ rest := by
      rw [hitems, List.append_assoc]
      rfl
    have hlater : foldJsonArray body m ⟨later', false⟩ (state (done ++ [item])) =
        some (state items) := ih hassoc hrest (by grind)
    rw [foldJsonArray, hnext]
    simp only [Option.bind_eq_bind, Option.bind_some, if_neg (List.cons_ne_nil _ _),
      hbody done item rest value part hitems hitem' hpart]
    exact hlater

theorem foldJsonArray_rendered (hchild : Scans (retroVaultJsonMaxDepth + 1) Child)
    (hbody : Advances Child body Describes state items)
    (h : RendersWith Child (.array values) text) (hvalues : List.Forall₂ Describes items values) :
    ∃ iterator, initJsonArrayIterator ⟨text, .array⟩ = some iterator ∧
      foldJsonArray body (text.length + 1) iterator (state []) = some (state items) := by
  obtain ⟨inside, hinside, rfl⟩ := h
  refine ⟨⟨inside, false⟩, ?_, ?_⟩
  · rw [initJsonArrayIterator, if_neg (by simp), inner_brackets]
  · rcases hinside with ⟨rfl, hspace⟩ | hjoined
    · obtain rfl := List.forall₂_nil_right_iff.1 hvalues
      rw [foldJsonArray, nextJsonArrayValue, if_neg (by simp), skipSpace_space hspace]
      rfl
    · exact foldJsonArray_joined hchild hbody hjoined rfl hvalues (by grind)

end

end

end SquidServer.RetroVault

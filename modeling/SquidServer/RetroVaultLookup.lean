import SquidServer.RetroVaultDocuments

namespace SquidServer.RetroVault
open CText Json
set_option autoImplicit true

/-- The value of the first member whose key has the bytes of a name. -/
def firstNamed (name : List UInt8) (members : List (Text × Value)) : Option Value :=
  (members.find? fun member => encode member.1 = name).map Prod.snd

/-- The members up to the first one whose key has the bytes of a name, or all of them. -/
def membersUpTo (name : List UInt8) : List (Text × Value) → List (Text × Value)
  | [] => []
  | member :: members =>
    if encode member.1 = name then [member] else member :: membersUpTo name members

theorem head_membersUpTo (name : List UInt8) (member : Text × Value)
    (members : List (Text × Value)) : member ∈ membersUpTo name (member :: members) := by
  rw [membersUpTo]
  split
  · exact List.mem_singleton_self member
  · exact List.mem_cons_self

/-- As a C string a key is a name only if it has the bytes of that name, unless it has a U+0000
behind them. -/
theorem ofBytes_iff (name : CString) (hkey : ¬ name.bytes ++ [0] <+: bytes) :
    (CString.ofBytes bytes).bytes = name.bytes ↔ bytes = name.bytes := by
  have hplain : name.bytes.takeWhile (· ≠ 0) = name.bytes := by
    rw [List.takeWhile_eq_self_iff]
    intro c hc
    rw [decide_eq_true_iff]
    rintro rfl
    exact name.nulFree hc
  constructor
  · intro hcut
    have hsplit := List.takeWhile_append_dropWhile (p := (· ≠ 0)) (l := bytes)
    rw [show bytes.takeWhile (· ≠ 0) = name.bytes from hcut] at hsplit
    cases hrest : bytes.dropWhile (· ≠ 0) with
    | nil => rw [← hsplit, hrest, List.append_nil]
    | cons c rest =>
      have hne : bytes.dropWhile (· ≠ 0) ≠ [] := by
        rw [hrest]
        exact List.cons_ne_nil c rest
      have hhead : (bytes.dropWhile (· ≠ 0)).head hne = c := by simp only [hrest, List.head_cons]
      have hc := List.head_dropWhile_not (fun c : UInt8 => decide (c ≠ 0)) hne
      rw [hhead, decide_eq_false_iff_not, not_not] at hc
      refine absurd ⟨rest, ?_⟩ hkey
      rw [← hsplit, hrest, hc, List.append_assoc, List.singleton_append]
  · intro hsame
    rw [hsame]
    exact hplain

/-- A member that the search may come to: its value is not too deep, and its key does not go on with
a U+0000 behind the name. -/
def Searchable (name : CString) (member : Text × Value) : Prop :=
  Nests retroVaultJsonMaxDepth member.2 ∧ ¬ name.bytes ++ [0] <+: encode member.1

theorem findMember_searchable {name : CString} (h : Member (Renders levels) member text)
    (hmember : Searchable name member) (hrest : Continues rest) (n : Nat) :
    ∃ body, Renders retroVaultJsonMaxDepth member.2 body ∧
      findMember name.bytes (n + 1) (text ++ rest) =
        if encode member.1 = name.bytes then some (some ⟨body, typeOf member.2⟩)
        else if rest = [] then some none
        else findMember name.bytes n rest.tail := by
  obtain ⟨hnests, hkey⟩ := hmember
  have hfits : Member (Renders retroVaultJsonMaxDepth) member text :=
    h.mono fun _ hvalue => hvalue.of_nests hnests
  obtain ⟨body, hbody, hfind⟩ :=
    findMember_member (scans_renders (Nat.lt_succ_self _)) hfits hrest name.bytes n
  simp only [ofBytes_iff name hkey] at hfind
  exact ⟨body, hbody, hfind⟩

theorem findMember_exact {name : CString} (h : Joined (Member (Renders levels)) members body)
    (hmembers : ∀ member ∈ membersUpTo name.bytes members, Searchable name member)
    (hn : body.length < n) :
    Finds (Renders retroVaultJsonMaxDepth) (firstNamed name.bytes members)
      (findMember name.bytes n body) := by
  induction h generalizing n with
  | @one member text hmember =>
    obtain ⟨m, rfl⟩ := Nat.exists_eq_succ_of_ne_zero (Nat.ne_zero_of_lt hn)
    have hsearch : Searchable name member := hmembers member (head_membersUpTo _ _ _)
    obtain ⟨value, hvalue, hfind⟩ := findMember_searchable hmember hsearch (.inl rfl) m
    rw [List.append_nil] at hfind
    rw [hfind, firstNamed]
    by_cases hsame : encode member.1 = name.bytes
    · rw [if_pos hsame, List.find?_cons_of_pos (by simpa using hsame)]
      exact ⟨value, hvalue, rfl⟩
    · rw [if_neg hsame, List.find?_cons_of_neg (by simpa using hsame)]
      rfl
  | @more member text members later hmember _ ih =>
    obtain ⟨m, rfl⟩ := Nat.exists_eq_succ_of_ne_zero (Nat.ne_zero_of_lt hn)
    have hsearch : Searchable name member := hmembers member (head_membersUpTo _ _ _)
    obtain ⟨value, hvalue, hfind⟩ := findMember_searchable hmember hsearch (.inr ⟨later, rfl⟩) m
    rw [hfind, firstNamed]
    by_cases hsame : encode member.1 = name.bytes
    · rw [if_pos hsame, List.find?_cons_of_pos (by simpa using hsame)]
      exact ⟨value, hvalue, rfl⟩
    · rw [membersUpTo, if_neg hsame] at hmembers
      rw [if_neg hsame, if_neg (List.cons_ne_nil _ _), List.tail_cons,
        List.find?_cons_of_neg (by simpa using hsame)]
      exact ih (fun member hmem => hmembers member (List.mem_cons_of_mem _ hmem)) (by grind)

/-- A search in an object finds the value of the first member whose key is the name. -/
theorem member_found_exactly {name : CString} (h : Renders levels (.object members) text)
    (hmembers : ∀ member ∈ membersUpTo name.bytes members, Searchable name member) :
    Finds (Renders retroVaultJsonMaxDepth) (firstNamed name.bytes members)
      (getJsonMember ⟨text, .object⟩ name.bytes) := by
  obtain ⟨body, hbody, rfl⟩ := h.inner
  rw [getJsonMember, if_neg (by simp), inner_brackets]
  rcases hbody with ⟨rfl, hspace⟩ | hjoined
  · rw [findMember, skipSpace_space hspace]
    rfl
  · exact findMember_exact hjoined hmembers (Nat.lt_succ_self _)

def idName : CString := ⟨ascii "id", by decide⟩

/-- The members of an object that has `id` behind another name. -/
def idMembers : List (Text × Value) :=
  [(nameText "ids", .array []), (nameText "id", .null), (nameText "id", .object [])]

def idObject : List UInt8 := ascii "\x7b\"ids\":[],\"id\":null,\"id\":\x7b\x7d\x7d"

theorem member_found_exactly_second : Renders 1 (.object idMembers) idObject ∧
    Finds (Renders retroVaultJsonMaxDepth) (some .null)
      (getJsonMember ⟨idObject, .object⟩ idName.bytes) := by
  have hobject : Renders 1 (.object idMembers) idObject := by
    have hids : Renders 0 (.array []) [0x5B, 0x5D] := ⟨[], .inl ⟨rfl, space_nil⟩, rfl⟩
    have hlast : Renders 0 (.object []) [0x7B, 0x7D] := ⟨[], .inl ⟨rfl, space_nil⟩, rfl⟩
    exact ⟨_, .inr (.more (member_bare (spells_name (by decide)) hids)
      (.more (member_bare (spells_name (by decide)) (renders_leaf 0 rfl))
        (.one (member_bare (spells_name (by decide)) hlast)))), rfl⟩
  have hmembers : ∀ member ∈ membersUpTo idName.bytes idMembers, Searchable idName member := by
    intro member hmember
    -- the search ends at the first `id`
    have hupTo : membersUpTo idName.bytes idMembers =
        [(nameText "ids", .array []), (nameText "id", .null)] := rfl
    rw [hupTo] at hmember
    rcases List.mem_pair.1 hmember with rfl | rfl
    · exact ⟨List.forall_mem_nil _, by decide⟩
    · exact ⟨trivial, by decide⟩
  exact ⟨hobject, member_found_exactly hobject hmembers⟩

/-- So many arrays in an array. -/
def nestedArrays : Nat → Value
  | 0 => .array []
  | n + 1 => .array [nestedArrays n]

def nestedText : Nat → List UInt8
  | 0 => [0x5B, 0x5D]
  | n + 1 => 0x5B :: (nestedText n ++ [0x5D])

theorem renders_nested (n : Nat) : Renders n (nestedArrays n) (nestedText n) := by
  induction n with
  | zero => exact ⟨[], .inl ⟨rfl, space_nil⟩, rfl⟩
  | succ n ih => exact ⟨_, .inr (.one (item_bare ih)), rfl⟩

/-- `id` with a U+0000 behind it. -/
def nulKey : Text := nameText "id" ++ [some (Char.ofNat 0)]

/-- A member is found by another name if its key goes on with a U+0000, and no member is found
whose value is too deep. -/
theorem lookup_not_exact :
    (∃ text, Renders 1 (.object [(nulKey, .null)]) text ∧
      firstNamed idName.bytes [(nulKey, .null)] = none ∧
      getJsonMember ⟨text, .object⟩ idName.bytes = some (some ⟨ascii "null", .null⟩)) ∧
    ∃ text, Renders 34 (.object [(nameText "id", nestedArrays 33)]) text ∧
      getJsonMember ⟨text, .object⟩ idName.bytes = none := by
  have hkey : Spells nulKey (ascii "id\\u0000") := by
    have hzero : HexDigit 0x30 0 := .inl ⟨by decide, rfl⟩
    have hnul : Spells [some (Char.ofNat 0)] (0x5C :: 0x75 :: ([0x30, 0x30, 0x30, 0x30] ++ [])) :=
      .unicode (.intro hzero hzero hzero hzero) .nil
    exact .raw (by decide) (by decide) (by decide) (.raw (by decide) (by decide) (by decide) hnul)
  constructor
  · exact ⟨_, ⟨_, .inr (.one (member_bare hkey (renders_leaf 0 rfl))), rfl⟩, by decide,
      by decide +kernel⟩
  · exact ⟨_, ⟨_, .inr (.one (member_bare (spells_name (by decide)) (renders_nested 33))), rfl⟩,
      by decide +kernel⟩

end SquidServer.RetroVault

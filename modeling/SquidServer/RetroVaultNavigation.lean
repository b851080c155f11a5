import SquidServer.RetroVaultInteriors

namespace SquidServer.RetroVault
open Interaction CText Json Loads
set_option autoImplicit true

/-- `struct retro_vault_json_iterator`, with the addresses that `cursor` and `end` point to. -/
structure JsonIteratorAt where
  cursor : Nat
  stop : Nat
  finished : Bool
deriving DecidableEq

def initJsonArrayIteratorAt (array : JsonSpan) : Option JsonIteratorAt :=
  if array.type ≠ .array then none else some ⟨array.start + 1, array.stop - 1, false⟩

/-- `next_retro_vault_json_array_value`, with the iterator as it leaves it: `none` when the bound on
a loop is used up, `some none` for -1, `some (some none)` for 0. -/
def nextJsonArrayValueAt (iterator : JsonIteratorAt) :
    Program Loading (Option (Option (Option JsonSpan) × JsonIteratorAt)) := do
  if iterator.finished then return some (some none, iterator)
  else
    let cursor ← skipSpaceAt iterator.stop iterator.cursor
    if iterator.stop ≤ cursor then
      return some (some none, { iterator with cursor, finished := true })
    else
      match ← parseValueInternalAt iterator.stop (retroVaultJsonMaxDepth + 1) cursor with
      | none => return none
      | some none => return some (none, { iterator with cursor })
      | some (some value) =>
        let cursor ← skipSpaceAt iterator.stop value.stop
        if cursor < iterator.stop then
          if (← load cursor) ≠ 0x2C then return some (none, { iterator with cursor })
          else return some (some (some value), { iterator with cursor := cursor + 1 })
        else return some (some (some value), { iterator with cursor, finished := true })

def jsonStringMatchesAt (value : JsonSpan) (text : List UInt8) : Program Loading Bool := do
  let bytes ← loadBytes (value.stop - value.start) value.start
  return jsonStringMatches ⟨bytes, value.type⟩ text

/-- The loop of `get_retro_vault_json_member`, with a bound on its turns: `none` when a bound is
used up, `some none` for -1, `some (some none)` for 0. -/
def findMemberAt (stop : Nat) (name : List UInt8) :
    Nat → Nat → Program Loading (Option (Option (Option JsonSpan)))
  | 0, _ => return none
  | n + 1, cursor => do
    let cursor ← skipSpaceAt stop cursor
    if stop ≤ cursor then return some (some none)
    else
      match ← parseValueInternalAt stop (retroVaultJsonMaxDepth + 1) cursor with
      | none => return none
      | some none => return some none
      | some (some key) =>
        if key.type ≠ .string then return some none
        else
          let cursor ← skipSpaceAt stop key.stop
          if ← byteIs stop 0x3A cursor then
            match ← parseValueInternalAt stop (retroVaultJsonMaxDepth + 1) (cursor + 1) with
            | none => return none
            | some none => return some none
            | some (some member) =>
              if ← jsonStringMatchesAt key name then return some (some (some member))
              else
                let cursor ← skipSpaceAt stop member.stop
                if ← byteIs stop 0x2C cursor then findMemberAt stop name n (cursor + 1)
                else if cursor = stop then return some (some none)
                else return some none
          else return some none

/-- `get_retro_vault_json_member`, for pointers that are not NULL. -/
def getJsonMemberAt (object : JsonSpan) (name : List UInt8) :
    Program Loading (Option (Option (Option JsonSpan))) :=
  if object.type ≠ .object then return some none
  else findMemberAt (object.stop - 1) name (object.stop - object.start) (object.start + 1)

/-- A value with the values of its elements or members. -/
structure JsonNode where
  span : JsonSpan
  children : List JsonNode

section
variable (stop : Nat) (type : JsonType) (bracket : UInt8) (start : Nat)
  (child : Nat → Program Loading (Option (Option JsonNode)))

-- The scanner once more, with a note of the values that it passes.

def afterChildNoted (cursor : Nat) (children : List JsonNode)
    (next : Nat → Program Loading (Option (Option JsonNode))) :
    Program Loading (Option (Option JsonNode)) := do
  let current ← skipSpaceAt stop cursor
  if ← byteIs stop 0x2C current then next (current + 1)
  else if ← byteIs stop bracket current then
    return some (some ⟨⟨start, current + 1, type⟩, children⟩)
  else return some none

def objectEndNoted : Nat → List JsonNode → Nat → Program Loading (Option (Option JsonNode))
  | 0, _, _ => return none
  | n + 1, children, current => do
    match ← parseStringEndAt stop (← skipSpaceAt stop current) with
    | none => return some none
    | some keyEnd =>
      let current ← skipSpaceAt stop keyEnd
      if ← byteIs stop 0x3A current then
        match ← child (current + 1) with
        | some (some value) =>
          afterChildNoted stop .object 0x7D start value.span.stop (children ++ [value])
            (objectEndNoted n (children ++ [value]))
        | failed => return failed
      else return some none

def arrayEndNoted : Nat → List JsonNode → Nat → Program Loading (Option (Option JsonNode))
  | 0, _, _ => return none
  | n + 1, children, current => do
    match ← child current with
    | some (some value) =>
      afterChildNoted stop .array 0x5D start value.span.stop (children ++ [value])
        (arrayEndNoted n (children ++ [value]))
    | failed => return failed

end

/-- `parseValueInternalAt`, with the values in the value. -/
def parseValueInternalNoted (stop : Nat) :
    Nat → Nat → Program Loading (Option (Option JsonNode))
  | 0, cursor => do
    let _ ← skipSpaceAt stop cursor
    return some none
  | levels + 1, cursor => do
    let start ← skipSpaceAt stop cursor
    if stop ≤ start then return some none
    else
      let c ← load start
      if c = 0x22 then
        return some ((← parseStringEndAt stop start).map fun after => ⟨⟨start, after, .string⟩, []⟩)
      else if c = 0x7B then
        let current ← skipSpaceAt stop (start + 1)
        if ← byteIs stop 0x7D current then
          return some (some ⟨⟨start, current + 1, .object⟩, []⟩)
        else
          objectEndNoted stop start (parseValueInternalNoted stop levels) (stop - start) [] current
      else if c = 0x5B then
        let current ← skipSpaceAt stop (start + 1)
        if ← byteIs stop 0x5D current then
          return some (some ⟨⟨start, current + 1, .array⟩, []⟩)
        else
          arrayEndNoted stop start (parseValueInternalNoted stop levels) (stop - start) [] current
      else if ← wordAt stop (ascii "true") start then
        return some (some ⟨⟨start, start + 4, .boolean⟩, []⟩)
      else if ← wordAt stop (ascii "false") start then
        return some (some ⟨⟨start, start + 5, .boolean⟩, []⟩)
      else if ← wordAt stop (ascii "null") start then
        return some (some ⟨⟨start, start + 4, .null⟩, []⟩)
      else if c = 0x2D ∨ isDigit c then
        return some (some ⟨⟨start, ← numberEndAt stop (start + 1), .number⟩, []⟩)
      else return some none

/-- What the scanner says of what the scanner with notes has found. -/
def spanOf (r : Option (Option JsonNode)) : Scanned := r.map (Option.map JsonNode.span)

section
variable {memory : Memory} {stop : Nat}

theorem afterChildNoted_span {next : Nat → Program Loading (Option (Option JsonNode))}
    (hnext : ∀ current, spanOf (result memory (next current)) = result memory (nextAt current)) :
    spanOf (result memory (afterChildNoted stop type bracket start cursor children next)) =
      result memory (afterChildAt stop type bracket start cursor nextAt) := by
  simp only [afterChildNoted, afterChildAt, Program.bind_eq, Program.pure_eq, result_bind]
  split
  · exact hnext _
  · simp only [result_bind]
    split
    · rfl
    · rfl

variable {child : Nat → Program Loading (Option (Option JsonNode))}
  {childAt : Nat → Program Loading Scanned}

theorem arrayEndNoted_span
    (hchild : ∀ current, spanOf (result memory (child current)) = result memory (childAt current))
    (n : Nat) (children : List JsonNode) (current : Nat) :
    spanOf (result memory (arrayEndNoted stop start child n children current)) =
      result memory (arrayEndAt stop childAt start n current) := by
  induction n generalizing children current with
  | zero => rfl
  | succ n ih =>
    simp only [arrayEndNoted, arrayEndAt, Program.bind_eq, Program.pure_eq, result_bind,
      ← hchild]
    rcases result memory (child current) with - | - | value
    · rfl
    · rfl
    · exact afterChildNoted_span fun current => ih _ current

theorem objectEndNoted_span
    (hchild : ∀ current, spanOf (result memory (child current)) = result memory (childAt current))
    (n : Nat) (children : List JsonNode) (current : Nat) :
    spanOf (result memory (objectEndNoted stop start child n children current)) =
      result memory (objectEndAt stop childAt start n current) := by
  induction n generalizing children current with
  | zero => rfl
  | succ n ih =>
    simp only [objectEndNoted, objectEndAt, Program.bind_eq, Program.pure_eq, result_bind]
    cases result memory (parseStringEndAt stop (result memory (skipSpaceAt stop current))) with
    | none => rfl
    | some keyEnd =>
      simp only [result_bind]
      split
      · simp only [result_bind, ← hchild]
        rcases result memory (child _) with - | - | value
        · rfl
        · rfl
        · exact afterChildNoted_span fun current => ih _ current
      · rfl

/-- Apart from the notes, the scanner with notes is the scanner. -/
theorem parseValueInternalNoted_span (levels cursor : Nat) :
    spanOf (result memory (parseValueInternalNoted stop levels cursor)) =
      result memory (parseValueInternalAt stop levels cursor) := by
  induction levels generalizing cursor with
  | zero =>
    simp only [parseValueInternalNoted, parseValueInternalAt, Program.bind_eq, Program.pure_eq,
      result_bind]
    rfl
  | succ levels ih =>
    rw [parseValueInternalNoted, parseValueInternalAt]
    simp only [Program.bind_eq, Program.pure_eq, result_bind]
    generalize result memory (skipSpaceAt stop cursor) = start
    by_cases hend : stop ≤ start
    · rw [if_pos hend, if_pos hend]
      rfl
    rw [if_neg hend, if_neg hend]
    simp only [result_bind]
    generalize (result memory (load start) : UInt8) = c
    by_cases hquote : c = 0x22
    · rw [if_pos hquote, if_pos hquote]
      simp only [result_bind, result_pure]
      cases result memory (parseStringEndAt stop start) with
      | none => rfl
      | some after => rfl
    rw [if_neg hquote, if_neg hquote]
    by_cases hobject : c = 0x7B
    · rw [if_pos hobject, if_pos hobject]
      simp only [result_bind]
      split
      · rfl
      · exact objectEndNoted_span ih _ _ _
    rw [if_neg hobject, if_neg hobject]
    by_cases harray : c = 0x5B
    · rw [if_pos harray, if_pos harray]
      simp only [result_bind]
      split
      · rfl
      · exact arrayEndNoted_span ih _ _ _
    rw [if_neg harray, if_neg harray]
    simp only [result_bind]
    split
    · rfl
    simp only [result_bind]
    split
    · rfl
    simp only [result_bind]
    split
    · rfl
    split
    · simp only [result_bind]
      rfl
    · rfl

end

section
variable {memory : Memory} {stop : Nat}

/-- Where the scanner stands when it has skipped the space. -/
def spaceEnd (memory : Memory) (stop cursor : Nat) : Nat := result memory (skipSpaceAt stop cursor)

theorem spaceEnd_spec (memory : Memory) (hle : cursor ≤ stop) :
    cursor ≤ spaceEnd memory stop cursor ∧ spaceEnd memory stop cursor ≤ stop ∧
      skipSpace (bytesBetween memory cursor stop) =
        bytesBetween memory (spaceEnd memory stop cursor) stop := by
  have hspec : Within memory 0 stop (skipSpaceAt stop cursor) fun next => cursor ≤ next ∧
      next ≤ stop ∧ skipSpace (bytesBetween memory cursor stop) = bytesBetween memory next stop :=
    skipSpaceAt_spec (Nat.zero_le _) hle fun _ h₁ h₂ h₃ => ⟨h₁, h₂, h₃⟩
  exact hspec.2

theorem start_unique (h : bytesBetween memory start stop = bytesBetween memory start' stop)
    (hle : start ≤ stop) (hle' : start' ≤ stop) : start = start' := by
  have hlength := congrArg List.length h
  rw [length_bytesBetween, length_bytesBetween] at hlength
  omega

theorem spaceEnd_unique (hle : cursor ≤ stop) (hnext : next ≤ stop)
    (h : skipSpace (bytesBetween memory cursor stop) = bytesBetween memory next stop) :
    spaceEnd memory stop cursor = next := by
  obtain ⟨-, hstop, hskip⟩ := spaceEnd_spec memory hle
  exact start_unique (hskip.symm.trans h) hstop hnext

theorem spaceEnd_idem (memory : Memory) (hle : cursor ≤ stop) :
    spaceEnd memory stop (spaceEnd memory stop cursor) = spaceEnd memory stop cursor := by
  obtain ⟨-, hstop, hskip⟩ := spaceEnd_spec memory hle
  exact spaceEnd_unique hstop hstop (by rw [← hskip, skipSpace_skipSpace])

theorem spaceEnd_cut (hle : cursor ≤ stop) (hnext : spaceEnd memory stop cursor = next)
    (hlast : next ≤ last) (hstop : last ≤ stop) : spaceEnd memory last cursor = next := by
  obtain ⟨hcursor, -, hskip⟩ := spaceEnd_spec memory hle
  rw [hnext] at hcursor hskip
  apply spaceEnd_unique (Nat.le_trans hcursor hlast) hlast
  rw [bytesBetween_append (Nat.le_trans hcursor hlast) hstop,
    bytesBetween_append hlast hstop] at hskip
  exact dropWhile_cut hskip

theorem result_byteIs (c : UInt8) (cursor : Nat) :
    result memory (byteIs stop c cursor) = true ↔ cursor < stop ∧ memory cursor = c := by
  rw [byteIs]
  split
  · rename_i hlt
    rw [and_iff_right hlt]
    exact decide_eq_true_iff
  · rename_i hend
    exact iff_of_false Bool.false_ne_true fun h => hend h.1

theorem parseAt_spec (hle : cursor ≤ stop)
    (h : result memory (parseValueInternalAt stop levels cursor) = some (some span)) :
    cursor ≤ span.start ∧ span.start < span.stop ∧ span.stop ≤ stop ∧
      parseValueInternal levels (bytesBetween memory cursor stop) =
        some (span.value memory, bytesBetween memory span.stop stop) := by
  have hscan : Follows memory 0 stop _ _ := parseValueInternalAt_follows levels
  have hfollows := (hscan cursor (Nat.zero_le _) hle).2
  rw [h] at hfollows
  generalize hm : parseValueInternal levels (bytesBetween memory cursor stop) = m at hfollows
  cases hfollows with
  | accepted hbegin hlt hstop => exact ⟨hbegin, hlt, hstop, rfl⟩

theorem parseAt_of_parse (hle : cursor ≤ stop) (hlt : span.start < span.stop)
    (hstop : span.stop ≤ stop) (h : parseValueInternal levels (bytesBetween memory cursor stop) =
      some (span.value memory, bytesBetween memory span.stop stop)) :
    result memory (parseValueInternalAt stop levels cursor) = some (some span) := by
  have hscan : Follows memory 0 stop _ _ := parseValueInternalAt_follows levels
  have hfollows := (hscan cursor (Nat.zero_le _) hle).2
  rw [h] at hfollows
  generalize hr : result memory (parseValueInternalAt stop levels cursor) = r at hfollows
  generalize hm : some (span.value memory, bytesBetween memory span.stop stop) = m at hfollows
  cases hfollows with
  | rejected => cases hm
  | accepted hbegin hlt' hstop' =>
    rename_i start after type
    obtain ⟨hvalue, hafter⟩ := Prod.mk.inj (Option.some.inj hm)
    obtain ⟨htext, htype⟩ := JsonValue.mk.inj hvalue
    have hend := start_unique hafter hstop hstop'
    have hlength := congrArg List.length htext
    rw [length_bytesBetween, length_bytesBetween] at hlength
    have hstart : span.start = start := by omega
    rw [← htype, ← hend, ← hstart]

/-- The scanner accepts the same value, before and behind the space, where the text ends earlier,
but not before the value does, and more levels are left. -/
theorem parseAt_cut (hle : cursor ≤ stop)
    (h : result memory (parseValueInternalAt stop levels cursor) = some (some span))
    (hlast : span.stop ≤ last) (hstop : last ≤ stop) (hlevels : levels ≤ levels') :
    result memory (parseValueInternalAt last levels' cursor) = some (some span) ∧
      spaceEnd memory last cursor < last ∧
      result memory (parseValueInternalAt last levels' (spaceEnd memory last cursor)) =
        some (some span) := by
  obtain ⟨hbegin, hlt, -, hparse⟩ := parseAt_spec hle h
  have hcursor : cursor ≤ last := by omega
  obtain ⟨-, hspace, hskip⟩ := spaceEnd_spec memory hcursor
  rw [bytesBetween_append hcursor hstop, bytesBetween_append hlast hstop] at hparse
  have hcut := parseValueInternal_cut hparse hlevels
  have hbefore := parseAt_of_parse hcursor hlt hlast hcut
  rw [← parseValueInternal_skipSpace, hskip] at hcut
  have hresult := parseAt_of_parse hspace hlt hlast hcut
  refine ⟨hbefore, ?_, hresult⟩
  obtain ⟨hstart, -, -, -⟩ := parseAt_spec hspace hresult
  omega

/-- `child` passes a value from a place of the text on. -/
abbrev Passing (memory : Memory) (child : Nat → Program Loading (Option (Option JsonNode)))
    (cursor : Nat) (value : JsonNode) : Prop :=
  result memory (child cursor) = some (some value)

/-- A member: a key, a colon, and a value. -/
def PassingMember (memory : Memory) (stop : Nat)
    (child : Nat → Program Loading (Option (Option JsonNode))) (cursor : Nat) (value : JsonNode) :
    Prop :=
  ∃ keyEnd colon,
    result memory (parseStringEndAt stop (spaceEnd memory stop cursor)) = some keyEnd ∧
    spaceEnd memory stop keyEnd = colon ∧ colon < stop ∧ memory colon = 0x3A ∧
    Passing memory child (colon + 1) value

/-- A loop passes these values from `cursor` on, with a comma between two of them, and the bracket
behind the last stands at `last`. -/
inductive Listing (memory : Memory) (stop : Nat) (bracket : UInt8)
    (Item : Nat → JsonNode → Prop) : Nat → List JsonNode → Nat → Prop
  | one : Item cursor value → spaceEnd memory stop value.span.stop = last → last < stop →
      memory last = bracket → Listing memory stop bracket Item cursor [value] last
  | more : Item cursor value → spaceEnd memory stop value.span.stop = comma → comma < stop →
      memory comma = 0x2C → Listing memory stop bracket Item (comma + 1) values last →
      Listing memory stop bracket Item cursor (value :: values) last

/-- Behind the bracket that opens it, a value has these values in it. -/
inductive Opened (memory : Memory) (stop : Nat) (bracket : UInt8)
    (Item : Nat → JsonNode → Prop) (cursor : Nat) : List JsonNode → Nat → Prop
  | empty : spaceEnd memory stop cursor = last → last < stop → memory last = bracket →
      Opened memory stop bracket Item cursor [] last
  | items : Listing memory stop bracket Item (spaceEnd memory stop cursor) values last →
      Opened memory stop bracket Item cursor values last

theorem afterChildNoted_some {next : Nat → Program Loading (Option (Option JsonNode))}
    (h : result memory (afterChildNoted stop type bracket start cursor children next) =
      some (some node)) :
    ∃ current, spaceEnd memory stop cursor = current ∧ current < stop ∧
      (memory current = 0x2C ∧ result memory (next (current + 1)) = some (some node) ∨
        memory current = bracket ∧ node = ⟨⟨start, current + 1, type⟩, children⟩) := by
  refine ⟨_, rfl, ?_⟩
  simp only [afterChildNoted, Program.bind_eq, Program.pure_eq, result_bind] at h
  split at h
  · rename_i hcomma
    obtain ⟨hlt, hcomma⟩ := (result_byteIs _ _).1 hcomma
    exact ⟨hlt, .inl ⟨hcomma, h⟩⟩
  · simp only [result_bind] at h
    split at h
    · rename_i hbracket
      obtain ⟨hlt, hbracket⟩ := (result_byteIs _ _).1 hbracket
      exact ⟨hlt, .inr ⟨hbracket, (Option.some.inj (Option.some.inj h)).symm⟩⟩
    · cases h

variable {child : Nat → Program Loading (Option (Option JsonNode))}

theorem arrayEndNoted_listing
    (h : result memory (arrayEndNoted stop start child n children current) = some (some node)) :
    ∃ values last, Listing memory stop 0x5D (Passing memory child) current values last ∧
      node = ⟨⟨start, last + 1, .array⟩, children ++ values⟩ := by
  induction n generalizing children current with
  | zero => cases h
  | succ n ih =>
    simp only [arrayEndNoted, Program.bind_eq, Program.pure_eq, result_bind] at h
    generalize hvalue : result memory (child current) = r at h
    rcases r with - | - | value
    · cases h
    · cases h
    · obtain ⟨next, hnext, hlt, ⟨hcomma, h⟩ | ⟨hbracket, rfl⟩⟩ := afterChildNoted_some h
      · obtain ⟨values, last, hlisting, rfl⟩ := ih h
        refine ⟨value :: values, last, .more hvalue hnext hlt hcomma hlisting, ?_⟩
        rw [List.append_assoc, List.singleton_append]
      · exact ⟨[value], next, .one hvalue hnext hlt hbracket, rfl⟩

theorem objectEndNoted_listing
    (h : result memory (objectEndNoted stop start child n children current) = some (some node)) :
    ∃ values last, Listing memory stop 0x7D (PassingMember memory stop child) current values last ∧
      node = ⟨⟨start, last + 1, .object⟩, children ++ values⟩ := by
  induction n generalizing children current with
  | zero => cases h
  | succ n ih =>
    simp only [objectEndNoted, Program.bind_eq, Program.pure_eq, result_bind] at h
    generalize hkey :
      result memory (parseStringEndAt stop (result memory (skipSpaceAt stop current))) = r at h
    cases r with
    | none => cases h
    | some keyEnd =>
      simp only [result_bind] at h
      split at h
      · rename_i hcolon
        obtain ⟨hcolonStop, hcolon⟩ := (result_byteIs _ _).1 hcolon
        simp only [result_bind] at h
        generalize hvalue : result memory (child (result memory (skipSpaceAt stop keyEnd) + 1))
          = r at h
        rcases r with - | - | value
        · cases h
        · cases h
        · have hmember : PassingMember memory stop child current value :=
            ⟨keyEnd, _, hkey, rfl, hcolonStop, hcolon, hvalue⟩
          obtain ⟨next, hnext, hlt, ⟨hcomma, h⟩ | ⟨hbracket, rfl⟩⟩ := afterChildNoted_some h
          · obtain ⟨values, last, hlisting, rfl⟩ := ih h
            refine ⟨value :: values, last, .more hmember hnext hlt hcomma hlisting, ?_⟩
            rw [List.append_assoc, List.singleton_append]
          · exact ⟨[value], next, .one hmember hnext hlt hbracket, rfl⟩
      · cases h

/-- What the scanner with notes says of a value: an array and an object have in them what the loops
have passed, and no other value has anything in it. -/
inductive Noted (memory : Memory) (stop : Nat)
    (child : Nat → Program Loading (Option (Option JsonNode))) : JsonNode → Prop
  | array : Opened memory stop 0x5D (Passing memory child) (start + 1) values last →
      Noted memory stop child ⟨⟨start, last + 1, .array⟩, values⟩
  | object : Opened memory stop 0x7D (PassingMember memory stop child) (start + 1) values last →
      Noted memory stop child ⟨⟨start, last + 1, .object⟩, values⟩
  | plain : span.type ≠ .array → span.type ≠ .object → Noted memory stop child ⟨span, []⟩

theorem parseValueInternalNoted_noted
    (h : result memory (parseValueInternalNoted stop (levels + 1) cursor) = some (some node)) :
    Noted memory stop (parseValueInternalNoted stop levels) node := by
  rw [parseValueInternalNoted] at h
  simp only [Program.bind_eq, Program.pure_eq, result_bind] at h
  generalize result memory (skipSpaceAt stop cursor) = start at h
  have hplain {span : JsonSpan} (h : some (some (JsonNode.mk span [])) = some (some node))
      (htype : span.type ≠ .array ∧ span.type ≠ .object) :
      Noted memory stop (parseValueInternalNoted stop levels) node := by
    rw [← Option.some.inj (Option.some.inj h)]
    exact .plain htype.1 htype.2
  by_cases hend : stop ≤ start
  · rw [if_pos hend] at h
    cases h
  rw [if_neg hend] at h
  simp only [result_bind] at h
  generalize (result memory (load start) : UInt8) = c at h
  by_cases hquote : c = 0x22
  · rw [if_pos hquote] at h
    simp only [result_bind, result_pure] at h
    cases hafter : result memory (parseStringEndAt stop start) with
    | none =>
      rw [hafter] at h
      cases h
    | some after =>
      rw [hafter] at h
      exact hplain h ⟨nofun, nofun⟩
  rw [if_neg hquote] at h
  by_cases hobject : c = 0x7B
  · rw [if_pos hobject] at h
    simp only [result_bind] at h
    split at h
    · rename_i hclose
      obtain ⟨hlt, hclose⟩ := (result_byteIs _ _).1 hclose
      rw [← Option.some.inj (Option.some.inj h)]
      exact .object (.empty rfl hlt hclose)
    · obtain ⟨values, last, hlisting, rfl⟩ := objectEndNoted_listing h
      exact .object (.items hlisting)
  rw [if_neg hobject] at h
  by_cases harray : c = 0x5B
  · rw [if_pos harray] at h
    simp only [result_bind] at h
    split at h
    · rename_i hclose
      obtain ⟨hlt, hclose⟩ := (result_byteIs _ _).1 hclose
      rw [← Option.some.inj (Option.some.inj h)]
      exact .array (.empty rfl hlt hclose)
    · obtain ⟨values, last, hlisting, rfl⟩ := arrayEndNoted_listing h
      exact .array (.items hlisting)
  rw [if_neg harray] at h
  simp only [result_bind] at h
  split at h
  · exact hplain h ⟨nofun, nofun⟩
  simp only [result_bind] at h
  split at h
  · exact hplain h ⟨nofun, nofun⟩
  simp only [result_bind] at h
  split at h
  · exact hplain h ⟨nofun, nofun⟩
  split at h
  · simp only [result_bind] at h
    exact hplain h ⟨nofun, nofun⟩
  · cases h

theorem parseValueInternalNoted_spaceEnd (hle : cursor ≤ stop)
    (h : result memory (parseValueInternalNoted stop levels (spaceEnd memory stop cursor)) =
      some (some node)) :
    result memory (parseValueInternalNoted stop levels cursor) = some (some node) := by
  cases levels with
  | zero =>
    simp only [parseValueInternalNoted, Program.bind_eq, Program.pure_eq, result_bind] at h
    cases h
  | succ levels =>
    have hidem := spaceEnd_idem memory hle
    rw [parseValueInternalNoted] at h ⊢
    simp only [Program.bind_eq, Program.pure_eq, result_bind] at h ⊢
    rw [show result memory (skipSpaceAt stop (spaceEnd memory stop cursor)) =
      result memory (skipSpaceAt stop cursor) from hidem] at h
    exact h

theorem parseAt_of_noted
    (h : Passing memory (parseValueInternalNoted stop levels) cursor value) :
    result memory (parseValueInternalAt stop levels cursor) = some (some value.span) := by
  rw [← parseValueInternalNoted_span, h]
  rfl

theorem parseAt_key (hle : cursor ≤ stop)
    (h : result memory (parseStringEndAt stop (spaceEnd memory stop cursor)) = some keyEnd) :
    spaceEnd memory stop cursor < keyEnd ∧ keyEnd ≤ stop ∧
      result memory (parseValueInternalAt stop 1 cursor) =
        some (some ⟨spaceEnd memory stop cursor, keyEnd, .string⟩) := by
  obtain ⟨-, -, hskip⟩ := spaceEnd_spec memory hle
  generalize spaceEnd memory stop cursor = key at h hskip
  have hspec : Within memory 0 stop (parseStringEndAt stop key) _ :=
    parseStringEndAt_spec (Nat.zero_le _)
  have hends := hspec.2
  rw [h] at hends
  generalize hparse : parseStringEnd (bytesBetween memory key stop) = m at hends
  cases hends with
  | accepted hlt hstop =>
    obtain ⟨rest, hquote, hscan⟩ := parseStringEnd_some hparse
    have hbegins : Begins 0 (skipSpace (bytesBetween memory cursor stop)) .string
        (bytesBetween memory keyEnd stop) := by
      rw [hskip, hquote]
      exact .string hscan
    have hvalue := parse_of_begins hbegins
    rw [hskip, bytesBetween_append (Nat.le_of_lt hlt) hstop, valueBetween_append] at hvalue
    have hspan : result memory (parseValueInternalAt stop 1 cursor) =
        some (some ⟨key, keyEnd, .string⟩) := parseAt_of_parse hle hlt hstop hvalue
    exact ⟨hlt, hstop, hspan⟩

/-- Such items are values that `child` passes, further on in the text. -/
def Locates (memory : Memory) (stop : Nat)
    (child : Nat → Program Loading (Option (Option JsonNode))) (Item : Nat → JsonNode → Prop) :
    Prop :=
  ∀ cursor value, cursor ≤ stop → Item cursor value →
    cursor < value.span.stop ∧ value.span.stop ≤ stop ∧
      ∃ start, start ≤ stop ∧ Passing memory child start value

theorem locates_passing (memory : Memory) (stop levels : Nat) :
    Locates memory stop (parseValueInternalNoted stop levels)
      (Passing memory (parseValueInternalNoted stop levels)) := by
  intro cursor value hle h
  obtain ⟨hbegin, hlt, hstop, -⟩ := parseAt_spec hle (parseAt_of_noted h)
  exact ⟨by omega, hstop, cursor, hle, h⟩

theorem locates_member (memory : Memory) (stop levels : Nat) :
    Locates memory stop (parseValueInternalNoted stop levels)
      (PassingMember memory stop (parseValueInternalNoted stop levels)) := by
  rintro cursor value hle ⟨keyEnd, colon, hkey, hcolon, hcolonStop, -, h⟩
  obtain ⟨hcursor, -, -⟩ := spaceEnd_spec memory hle
  obtain ⟨hlt, hkeyStop, -⟩ := parseAt_key hle hkey
  obtain ⟨hkeyEnd, -, -⟩ := spaceEnd_spec memory hkeyStop
  obtain ⟨hbegin, hvalue, hstop, -⟩ := parseAt_spec hcolonStop (parseAt_of_noted h)
  exact ⟨by omega, hstop, colon + 1, hcolonStop, h⟩

section
variable {Item : Nat → JsonNode → Prop}

theorem Listing.bounds (hitem : Locates memory stop child Item)
    (h : Listing memory stop bracket Item cursor values last) (hle : cursor ≤ stop) :
    cursor < last ∧ last < stop := by
  induction h with
  | one h hspace hlast _ =>
    obtain ⟨hlt, hstop, -⟩ := hitem _ _ hle h
    obtain ⟨hend, -, -⟩ := spaceEnd_spec memory hstop
    exact ⟨by omega, hlast⟩
  | more h hspace hcomma _ _ ih =>
    obtain ⟨hlt, hstop, -⟩ := hitem _ _ hle h
    obtain ⟨hend, -, -⟩ := spaceEnd_spec memory hstop
    obtain ⟨hnext, hlast⟩ := ih hcomma
    exact ⟨by omega, hlast⟩

theorem Listing.mem (hitem : Locates memory stop child Item)
    (h : Listing memory stop bracket Item cursor values last) (hle : cursor ≤ stop) :
    ∀ value ∈ values, ∃ start, start ≤ stop ∧ Passing memory child start value := by
  induction h with
  | one h _ _ _ =>
    intro value hvalue
    rw [List.mem_singleton.1 hvalue]
    exact (hitem _ _ hle h).2.2
  | more h _ hcomma _ _ ih =>
    intro value hvalue
    rcases List.mem_cons.1 hvalue with rfl | hvalue
    · exact (hitem _ _ hle h).2.2
    · exact ih hcomma value hvalue

theorem Listing.spaceEnd (hskip : ∀ value, Item (spaceEnd memory stop cursor) value →
      Item cursor value)
    (h : Listing memory stop bracket Item (RetroVault.spaceEnd memory stop cursor) values last) :
    Listing memory stop bracket Item cursor values last := by
  cases h with
  | one h hspace hlast hbracket => exact .one (hskip _ h) hspace hlast hbracket
  | more h hspace hlast hcomma hlisting => exact .more (hskip _ h) hspace hlast hcomma hlisting

theorem Opened.mem (hitem : Locates memory stop child Item)
    (h : Opened memory stop bracket Item cursor values last) (hle : cursor ≤ stop) :
    ∀ value ∈ values, ∃ start, start ≤ stop ∧ Passing memory child start value := by
  cases h with
  | empty _ _ _ => exact nofun
  | items hlisting => exact hlisting.mem hitem (spaceEnd_spec memory hle).2.1

end

theorem passing_spaceEnd (hle : cursor ≤ stop) (value : JsonNode)
    (h : Passing memory (parseValueInternalNoted stop levels) (spaceEnd memory stop cursor) value) :
    Passing memory (parseValueInternalNoted stop levels) cursor value :=
  parseValueInternalNoted_spaceEnd hle h

theorem member_spaceEnd (hle : cursor ≤ stop) (value : JsonNode)
    (h : PassingMember memory stop child (spaceEnd memory stop cursor) value) :
    PassingMember memory stop child cursor value := by
  rwa [PassingMember, spaceEnd_idem memory hle] at h

end

/-- Call after call the iterator gives these values, and then it is finished. -/
def Yields (memory : Memory) : JsonIteratorAt → List JsonSpan → Prop
  | iterator, [] => ∃ iterator', result memory (nextJsonArrayValueAt iterator) =
      some (some none, iterator') ∧ iterator'.finished = true
  | iterator, value :: values => ∃ iterator', result memory (nextJsonArrayValueAt iterator) =
      some (some (some value), iterator') ∧ Yields memory iterator' values

section
variable {memory : Memory} {stop : Nat}

theorem nextJsonArrayValueAt_value (hle : cursor ≤ stop) (hlevels : levels ≤ 33)
    (h : Passing memory (parseValueInternalNoted stop levels) cursor value)
    (hspace : spaceEnd memory stop value.span.stop = next) (hnext : next ≤ last)
    (hlast : last < stop) (hcomma : next < last → memory next = 0x2C) :
    result memory (nextJsonArrayValueAt ⟨cursor, last, false⟩) =
      some (some (some value.span), if next < last then ⟨next + 1, last, false⟩
        else ⟨next, last, true⟩) := by
  have hparse := parseAt_of_noted h
  obtain ⟨-, -, hstop, -⟩ := parseAt_spec hle hparse
  obtain ⟨hend, -, -⟩ := spaceEnd_spec memory hstop
  obtain ⟨-, hmore, hcut⟩ := parseAt_cut hle hparse (by omega) (Nat.le_of_lt hlast) hlevels
  have hspace' := spaceEnd_cut hstop hspace hnext (Nat.le_of_lt hlast)
  rw [spaceEnd] at hmore hcut hspace'
  rw [nextJsonArrayValueAt, if_neg Bool.false_ne_true]
  simp only [Program.bind_eq, Program.pure_eq, result_bind]
  rw [if_neg (Nat.not_le.2 hmore)]
  simp only [result_bind, hcut, hspace']
  split
  · rename_i hlt
    simp only [result_bind, result_load, hcomma hlt]
    rfl
  · rfl

theorem yields_of_listing (hlevels : levels ≤ 33)
    (h : Listing memory stop 0x5D (Passing memory (parseValueInternalNoted stop levels)) cursor
      values last) (hle : cursor ≤ stop) :
    Yields memory ⟨cursor, last, false⟩ (values.map JsonNode.span) := by
  induction h with
  | one h hspace hlast _ =>
    have hcall := nextJsonArrayValueAt_value hle hlevels h hspace (Nat.le_refl _) hlast
      fun hlt => absurd hlt (Nat.lt_irrefl _)
    rw [if_neg (Nat.lt_irrefl _)] at hcall
    exact ⟨_, hcall, _, rfl, rfl⟩
  | more h hspace hstop hcomma hlisting ih =>
    obtain ⟨hlt, hlast⟩ := hlisting.bounds (locates_passing memory stop levels) hstop
    have hcall := nextJsonArrayValueAt_value hle hlevels h hspace (by omega) hlast fun _ => hcomma
    rw [if_pos (by omega)] at hcall
    exact ⟨_, hcall, ih hstop⟩

theorem yields_of_opened (hlevels : levels ≤ 33)
    (h : Opened memory stop 0x5D (Passing memory (parseValueInternalNoted stop levels)) cursor
      values last) (hle : cursor ≤ stop) :
    Yields memory ⟨cursor, last, false⟩ (values.map JsonNode.span) := by
  cases h with
  | empty hspace hlast _ =>
    have hspace' := spaceEnd_cut hle hspace (Nat.le_refl _) (Nat.le_of_lt hlast)
    rw [spaceEnd] at hspace'
    refine ⟨⟨last, last, true⟩, ?_, rfl⟩
    rw [nextJsonArrayValueAt, if_neg Bool.false_ne_true]
    simp only [Program.bind_eq, Program.pure_eq, result_bind, hspace']
    rw [if_pos (Nat.le_refl _)]
    rfl
  | items hlisting =>
    exact yields_of_listing hlevels (hlisting.spaceEnd (passing_spaceEnd hle)) hle

theorem findMemberAt_member (name : List UInt8) (n : Nat) (hle : cursor ≤ stop)
    (hlevels : levels ≤ 33)
    (h : PassingMember memory stop (parseValueInternalNoted stop levels) cursor value)
    (hspace : spaceEnd memory stop value.span.stop = next) (hnext : next ≤ last)
    (hlast : last < stop) (hcomma : next < last → memory next = 0x2C) :
    result memory (findMemberAt last name (n + 1) cursor) = some (some (some value.span)) ∨
      result memory (findMemberAt last name (n + 1) cursor) =
        if next < last then result memory (findMemberAt last name n (next + 1))
          else some (some none) := by
  obtain ⟨keyEnd, colon, hkey, hcolon, hcolonStop, hcolonByte, hvalue⟩ := h
  have hparse := parseAt_of_noted hvalue
  obtain ⟨hlt, hkeyStop, hkeyParse⟩ := parseAt_key hle hkey
  obtain ⟨hkeyEnd, -, -⟩ := spaceEnd_spec memory hkeyStop
  obtain ⟨hbegin, hmember, hstop, -⟩ := parseAt_spec hcolonStop hparse
  obtain ⟨hend, -, -⟩ := spaceEnd_spec memory hstop
  have hlast' := Nat.le_of_lt hlast
  obtain ⟨-, hmore, hkeyCut⟩ := parseAt_cut hle hkeyParse (by dsimp only; omega) hlast'
    (show 1 ≤ retroVaultJsonMaxDepth + 1 by omega)
  obtain ⟨hvalueCut, -, -⟩ := parseAt_cut hcolonStop hparse (by omega) hlast' hlevels
  have hcolon' := spaceEnd_cut hkeyStop hcolon (by omega) hlast'
  have hspace' := spaceEnd_cut hstop hspace hnext hlast'
  have hcolonIs : result memory (byteIs last 0x3A colon) = true :=
    (result_byteIs _ _).2 ⟨by omega, hcolonByte⟩
  rw [spaceEnd] at hmore hkeyCut hcolon' hspace'
  rw [findMemberAt]
  simp only [Program.bind_eq, Program.pure_eq, result_bind]
  rw [if_neg (Nat.not_le.2 hmore)]
  simp only [result_bind, hkeyCut]
  rw [if_neg (not_not.2 rfl)]
  simp only [result_bind, hcolon', hcolonIs, if_true, hvalueCut]
  split
  · exact .inl rfl
  refine .inr ?_
  simp only [result_bind, hspace']
  by_cases hnextLast : next < last
  · rw [if_pos hnextLast, if_pos ((result_byteIs _ _).2 ⟨hnextLast, hcomma hnextLast⟩)]
  · rw [if_neg hnextLast, if_neg fun h => hnextLast ((result_byteIs _ _).1 h).1,
      if_pos (Nat.le_antisymm hnext (Nat.not_lt.1 hnextLast)), result_pure]

theorem findMemberAt_listing (name : List UInt8) (hlevels : levels ≤ 33)
    (h : Listing memory stop 0x7D
      (PassingMember memory stop (parseValueInternalNoted stop levels)) cursor values last)
    (hle : cursor ≤ stop) (hn : last - cursor < n) :
    ∃ found, result memory (findMemberAt last name n cursor) = some (some found) ∧
      ∀ member ∈ found, ∃ value ∈ values, value.span = member := by
  induction h generalizing n with
  | one h hspace hlast _ =>
    obtain ⟨n, rfl⟩ := Nat.exists_eq_succ_of_ne_zero (Nat.ne_zero_of_lt hn)
    rcases findMemberAt_member name n hle hlevels h hspace (Nat.le_refl _) hlast
      fun hlt => absurd hlt (Nat.lt_irrefl _) with hfound | hnone
    · refine ⟨_, hfound, ?_⟩
      rintro member ⟨⟩
      exact ⟨_, List.mem_singleton_self _, rfl⟩
    · rw [if_neg (Nat.lt_irrefl _)] at hnone
      exact ⟨none, hnone, nofun⟩
  | more h hspace hstop hcomma hlisting ih =>
    obtain ⟨n, rfl⟩ := Nat.exists_eq_succ_of_ne_zero (Nat.ne_zero_of_lt hn)
    have hitem := locates_member memory stop levels
    obtain ⟨hlt, hlast⟩ := hlisting.bounds hitem hstop
    obtain ⟨hcursor, hvalueStop, -⟩ := hitem _ _ hle h
    obtain ⟨hnext, -, -⟩ := spaceEnd_spec memory hvalueStop
    rcases findMemberAt_member name n hle hlevels h hspace (by omega) hlast fun _ => hcomma
      with hfound | hmore
    · refine ⟨_, hfound, ?_⟩
      rintro member ⟨⟩
      exact ⟨_, List.mem_cons_self, rfl⟩
    · rw [if_pos (by omega)] at hmore
      obtain ⟨found, hfound, hmember⟩ := ih (n := n) hstop (by omega)
      refine ⟨found, hmore.trans hfound, ?_⟩
      intro member hfound
      obtain ⟨value, hvalue, hspan⟩ := hmember member hfound
      exact ⟨value, List.mem_cons_of_mem _ hvalue, hspan⟩

theorem findMemberAt_opened (name : List UInt8) (hlevels : levels ≤ 33)
    (h : Opened memory stop 0x7D
      (PassingMember memory stop (parseValueInternalNoted stop levels)) cursor values last)
    (hle : cursor ≤ stop) (hn : last - cursor < n) :
    ∃ found, result memory (findMemberAt last name n cursor) = some (some found) ∧
      ∀ member ∈ found, ∃ value ∈ values, value.span = member := by
  cases h with
  | empty hspace hlast _ =>
    obtain ⟨n, rfl⟩ := Nat.exists_eq_succ_of_ne_zero (Nat.ne_zero_of_lt hn)
    have hspace' := spaceEnd_cut hle hspace (Nat.le_refl _) (Nat.le_of_lt hlast)
    rw [spaceEnd] at hspace'
    refine ⟨none, ?_, nofun⟩
    rw [findMemberAt]
    simp only [Program.bind_eq, Program.pure_eq, result_bind, hspace']
    rw [if_pos (Nat.le_refl _), result_pure]
  | items hlisting =>
    exact findMemberAt_listing name hlevels (hlisting.spaceEnd (member_spaceEnd hle)) hle hn

/-- A value of the text, at any depth of another. -/
inductive Inside : JsonNode → JsonNode → Prop
  | self (root : JsonNode) : Inside root root
  | child : Inside parent root → node ∈ parent.children → Inside node root

/-- The iterator of an array gives its elements, one after the other, and then it is finished; in an
object every search ends, and what it finds is the value of a member. -/
structure Navigates (memory : Memory) (node : JsonNode) : Prop where
  array : node.span.type = .array → ∃ iterator, initJsonArrayIteratorAt node.span = some iterator ∧
    Yields memory iterator (node.children.map JsonNode.span)
  object : node.span.type = .object → ∀ name, ∃ found,
    result memory (getJsonMemberAt node.span name) = some (some found) ∧
      ∀ member ∈ found, ∃ value ∈ node.children, value.span = member

theorem Noted.navigates (h : Noted memory stop (parseValueInternalNoted stop levels) node)
    (hlevels : levels ≤ 33) (hstart : node.span.start < node.span.stop)
    (hstop : node.span.stop ≤ stop) : Navigates memory node := by
  cases h with
  | array hopened =>
    exact ⟨fun _ => ⟨_, rfl, yields_of_opened hlevels hopened (Nat.le_trans hstart hstop)⟩, nofun⟩
  | object hopened =>
    rename_i start values last
    refine ⟨nofun, fun _ name => ?_⟩
    have hlast : start < last + 1 := hstart
    have hturns : last - (start + 1) < last + 1 - start := by omega
    exact findMemberAt_opened name hlevels hopened (Nat.le_trans hlast hstop) hturns
  | plain harray hobject => exact ⟨fun h => absurd h harray, fun h => absurd h hobject⟩

theorem Noted.children (h : Noted memory stop (parseValueInternalNoted stop levels) node)
    (hstop : node.span.start < stop) : ∀ value ∈ node.children, ∃ cursor, cursor ≤ stop ∧
      Passing memory (parseValueInternalNoted stop levels) cursor value := by
  cases h with
  | array hopened => exact hopened.mem (locates_passing memory stop levels) hstop
  | object hopened => exact hopened.mem (locates_member memory stop levels) hstop
  | plain _ _ => exact nofun

theorem Passing.levels_pos (h : Passing memory (parseValueInternalNoted stop levels) cursor node) :
    levels ≠ 0 := by
  rintro rfl
  rw [Passing, parseValueInternalNoted] at h
  simp only [Program.bind_eq, Program.pure_eq, result_bind] at h
  cases h

/-- Every value in a value that the scanner passes is one that it passes, with fewer levels left. -/
theorem Inside.passing (h : Inside node root) (hle : cursor ≤ stop)
    (hroot : Passing memory (parseValueInternalNoted stop levels) cursor root) :
    ∃ levels' cursor', levels' ≤ levels ∧ cursor' ≤ stop ∧
      Passing memory (parseValueInternalNoted stop levels') cursor' node := by
  induction h with
  | self => exact ⟨levels, cursor, Nat.le_refl _, hle, hroot⟩
  | child _ hmem ih =>
    obtain ⟨levels', cursor', hlevels, hcursor, hparent⟩ := ih hroot
    obtain ⟨-, hstart, hstop, -⟩ := parseAt_spec hcursor (parseAt_of_noted hparent)
    obtain ⟨levels', rfl⟩ := Nat.exists_eq_succ_of_ne_zero hparent.levels_pos
    obtain ⟨cursor'', hcursor, hnode⟩ :=
      (parseValueInternalNoted_noted hparent).children (by omega) _ hmem
    exact ⟨levels', cursor'', by omega, hcursor, hnode⟩

end

/-- In every text that the reader accepts, the iterator and the search agree with the scanner: on
each array and object in it, at any depth, they do not fail, and they give the values that the
scanner has passed. -/
theorem navigation_agrees (memory : Memory) (data size : Nat) (span : JsonSpan)
    (h : result memory (parseRetroVaultJsonAt data size) = some (some span)) :
    ∃ root,
      result memory (parseValueInternalNoted (data + size) (retroVaultJsonMaxDepth + 1) data) =
        some (some root) ∧
      root.span = span ∧ ∀ node, Inside node root → Navigates memory node := by
  have hscan :
      result memory (parseValueInternalAt (data + size) (retroVaultJsonMaxDepth + 1) data) =
        some (some span) := by
    rw [parseRetroVaultJsonAt] at h
    simp only [Program.bind_eq, Program.pure_eq, result_bind] at h
    split at h
    · rename_i value hvalue
      simp only [result_bind] at h
      split at h
      · exact hvalue.trans h
      · cases h
    · exact h
  have hspan := hscan
  rw [← parseValueInternalNoted_span] at hspan
  obtain ⟨outcome, hnoted, houtcome⟩ := Option.map_eq_some_iff.1 hspan
  obtain ⟨root, rfl, rfl⟩ := Option.map_eq_some_iff.1 houtcome
  refine ⟨root, hnoted, rfl, ?_⟩
  intro node hinside
  obtain ⟨levels, cursor, hlevels, hcursor, hnode⟩ :=
    hinside.passing (Nat.le_add_right data size) hnoted
  obtain ⟨levels, rfl⟩ := Nat.exists_eq_succ_of_ne_zero hnode.levels_pos
  obtain ⟨-, hstart, hstop, -⟩ := parseAt_spec hcursor (parseAt_of_noted hnode)
  exact (parseValueInternalNoted_noted hnode).navigates
    (Nat.le_trans (Nat.le_succ levels) hlevels) hstart hstop

/-- The object {"a":[1,2]}. -/
def nestedMemory : Memory := fun address =>
  ([0x7B, 0x22, 0x61, 0x22, 0x3A, 0x5B, 0x31, 0x2C, 0x32, 0x5D, 0x7D] : List UInt8).getD address 0

theorem navigation_agrees_nested :
    ∃ root, result nestedMemory (parseValueInternalNoted (0 + 11) (retroVaultJsonMaxDepth + 1) 0) =
        some (some root) ∧
      root.span = ⟨0, 11, .object⟩ ∧ ∀ node, Inside node root → Navigates nestedMemory node := by
  apply navigation_agrees
  have hparse : parseValueInternal (retroVaultJsonMaxDepth + 1) (bytesBetween nestedMemory 0 11) =
      some (JsonSpan.value nestedMemory ⟨0, 11, .object⟩, bytesBetween nestedMemory 11 11) := by
    decide +kernel
  have hscan : result nestedMemory (parseValueInternalAt 11 (retroVaultJsonMaxDepth + 1) 0) =
      some (some ⟨0, 11, .object⟩) :=
    parseAt_of_parse (by decide) (by decide) (by decide) hparse
  have hspace : result nestedMemory (skipSpaceAt 11 11) = 11 :=
    spaceEnd_unique (Nat.le_refl 11) (Nat.le_refl 11) rfl
  rw [parseRetroVaultJsonAt]
  simp only [Program.bind_eq, Program.pure_eq, result_bind, Nat.zero_add, hscan, hspace]
  rfl

end SquidServer.RetroVault

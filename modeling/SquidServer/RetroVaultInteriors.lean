import SquidServer.RetroVaultTokens

namespace SquidServer.RetroVault
open CText Json
set_option autoImplicit true

/-- What is found behind a part of the text is the end of the text. -/
def Passes (f : List UInt8 → Option (List UInt8)) : Prop :=
  ∀ cursor after, f cursor = some after → after <:+ cursor

/-- When the text ends earlier, but not before what is found, then `g` finds what `f` has found. -/
def Cuts (f g : List UInt8 → Option (List UInt8)) : Prop :=
  ∀ front tail back, f (front ++ back) = some (tail ++ back) → g front = some tail

theorem dropWhile_cut {p : UInt8 → Bool} {front tail back : List UInt8}
    (h : (front ++ back).dropWhile p = tail ++ back) : front.dropWhile p = tail := by
  rw [List.dropWhile_append] at h
  split at h
  · rename_i hempty
    have hlength := (List.dropWhile_suffix (l := back) p).length_le
    rw [h, List.length_append] at hlength
    rw [List.isEmpty_iff.1 hempty, List.eq_nil_of_length_eq_zero (show tail.length = 0 by omega)]
  · exact List.append_cancel_right h

theorem skipSpace_suffix (cursor : List UInt8) : skipSpace cursor <:+ cursor :=
  List.dropWhile_suffix isSpace

theorem skipped_suffix (h : skipSpace rest = c :: after) : after <:+ rest := by
  have hsuffix := skipSpace_suffix rest
  rw [h] at hsuffix
  exact (List.suffix_cons c after).trans hsuffix

theorem split_of_suffix (h : tail ++ back <:+ text) : ∃ front : List UInt8, text = front ++ back ∧
    tail <:+ front := by
  obtain ⟨before, rfl⟩ := h
  exact ⟨before ++ tail, (List.append_assoc _ _ _).symm, before, rfl⟩

theorem cons_cut {front : List UInt8} (h : front ++ back = c :: rest)
    (hsuffix : tail ++ back <:+ rest) :
    ∃ rest', front = c :: rest' ∧ rest = rest' ++ back ∧ tail <:+ rest' := by
  obtain ⟨rest', rfl, htail⟩ := split_of_suffix hsuffix
  rw [← List.cons_append] at h
  exact ⟨rest', List.append_cancel_right h, rfl, htail⟩

theorem opened_cut {start rest : List UInt8} (h : start ++ back = bracket :: rest)
    (hopen : (skipSpace rest).head? ≠ some c) (hsuffix : tail ++ back <:+ skipSpace rest) :
    ∃ rest', start = bracket :: rest' ∧ (skipSpace rest').head? ≠ some c ∧
      (skipSpace rest').length < rest'.length + 1 ∧ skipSpace rest = skipSpace rest' ++ back := by
  obtain ⟨rest, rfl, rfl, -⟩ := cons_cut h (hsuffix.trans (skipSpace_suffix rest))
  obtain ⟨current, hcurrent, -⟩ := split_of_suffix hsuffix
  have hskip : skipSpace rest = current := dropWhile_cut hcurrent
  rw [← hskip] at hcurrent
  refine ⟨rest, rfl, ?_, Nat.lt_succ_of_le (skipSpace_suffix rest).length_le, hcurrent⟩
  intro hhead
  obtain ⟨more, hmore⟩ := List.head?_eq_some_iff.1 hhead
  rw [hcurrent, hmore] at hopen
  exact hopen rfl

theorem scanString_suffix (h : scanString cursor = some after) : 0x22 :: after <:+ cursor := by
  obtain ⟨clean, text, rfl, -⟩ := scanString_passed h
  exact List.suffix_append text _

theorem scanString_passes : Passes scanString := fun _ _ h =>
  (List.suffix_cons _ _).trans (scanString_suffix h)

theorem scanString_cuts : Cuts scanString scanString := by
  intro front tail back h
  obtain ⟨clean, text, heq, htext⟩ := scanString_passed h
  have hsplit : front ++ back = text ++ 0x22 :: tail ++ back := by rw [heq]; simp
  rw [List.append_cancel_right hsplit]
  exact htext.scanString tail

theorem parseStringEnd_some (h : parseStringEnd cursor = some after) :
    ∃ rest, cursor = 0x22 :: rest ∧ scanString rest = some after := by
  rw [parseStringEnd.eq_def] at h
  split at h
  · cases h
  · split at h
    · rename_i hc
      subst hc
      exact ⟨_, rfl, h⟩
    · cases h

theorem parseStringEnd_passes : Passes parseStringEnd := by
  intro cursor after h
  obtain ⟨rest, rfl, hscan⟩ := parseStringEnd_some h
  exact (scanString_passes rest after hscan).trans (List.suffix_cons _ _)

theorem parseStringEnd_cuts : Cuts parseStringEnd parseStringEnd := by
  intro front tail back h
  obtain ⟨rest, heq, hscan⟩ := parseStringEnd_some h
  obtain ⟨rest', rfl, rfl, -⟩ := cons_cut heq (scanString_passes _ _ hscan)
  rw [parseStringEnd, if_pos rfl]
  exact scanString_cuts _ _ _ hscan

theorem afterChild_some (h : afterChild bracket next rest = some after) :
    (∃ current, skipSpace rest = 0x2C :: current ∧ next current = some after) ∨
      skipSpace rest = bracket :: after := by
  rw [afterChild] at h
  split at h
  · rename_i hcomma
    obtain ⟨current, hcurrent⟩ := List.head?_eq_some_iff.1 hcomma
    rw [hcurrent, List.tail_cons] at h
    exact .inl ⟨current, hcurrent, h⟩
  · split at h
    · rename_i hbracket
      obtain ⟨current, hcurrent⟩ := List.head?_eq_some_iff.1 hbracket
      rw [hcurrent, List.tail_cons] at h
      rw [hcurrent, Option.some.inj h]
      exact .inr rfl
    · cases h

theorem afterChild_cut (hpasses : Passes next) (hb : bracket ≠ 0x2C)
    (hnext : ∀ current, current.length < front.length →
      next (current ++ back) = some (tail ++ back) → next' current = some tail)
    (h : afterChild bracket next (front ++ back) = some (tail ++ back)) :
    afterChild bracket next' front = some tail := by
  rcases afterChild_some h with ⟨current, hskip, hcurrent⟩ | hskip
  · obtain ⟨current, rfl, -⟩ := split_of_suffix (hpasses _ _ hcurrent)
    have hcomma : skipSpace front = 0x2C :: current := dropWhile_cut hskip
    have hlength := (skipSpace_suffix front).length_le
    rw [hcomma, List.length_cons] at hlength
    rw [afterChild_comma hcomma]
    exact hnext current hlength hcurrent
  · exact afterChild_bracket (dropWhile_cut hskip) hb

theorem afterChild_suffix (hpasses : Passes next) (h : afterChild bracket next rest = some after) :
    after <:+ rest := by
  rcases afterChild_some h with ⟨current, hskip, hcurrent⟩ | hskip
  · exact (hpasses _ _ hcurrent).trans (skipped_suffix hskip)
  · exact skipped_suffix hskip

section
variable {child child' : List UInt8 → Option (List UInt8)}

theorem arrayEnd_passes (hchild : Passes child) (n : Nat) : Passes (arrayEnd child n) := by
  induction n with
  | zero => exact nofun
  | succ n ih =>
    intro cursor after h
    rw [arrayEnd_succ] at h
    obtain ⟨behind, hbehind, hafter⟩ := Option.bind_eq_some_iff.1 h
    exact (afterChild_suffix ih hafter).trans (hchild _ _ hbehind)

theorem arrayEnd_cut (hchild : Passes child) (hcuts : Cuts child child')
    (h : arrayEnd child n (front ++ back) = some (tail ++ back)) (hm : front.length < m) :
    arrayEnd child' m front = some tail := by
  induction n generalizing front m with
  | zero => cases h
  | succ n ih =>
    obtain ⟨m, rfl⟩ := Nat.exists_eq_succ_of_ne_zero (Nat.ne_zero_of_lt hm)
    rw [arrayEnd_succ] at h
    obtain ⟨behind, hbehind, hafter⟩ := Option.bind_eq_some_iff.1 h
    obtain ⟨behind, rfl, -⟩ := split_of_suffix (afterChild_suffix (arrayEnd_passes hchild n) hafter)
    have hlength := (hchild _ _ hbehind).length_le
    rw [List.length_append, List.length_append] at hlength
    rw [arrayEnd_succ, hcuts _ _ _ hbehind, Option.bind_some]
    apply afterChild_cut (arrayEnd_passes hchild n) (by decide) _ hafter
    intro current hcurrent hnext
    exact ih hnext (by omega)

theorem objectEnd_some (h : objectEnd child (n + 1) current = some after) :
    ∃ keyEnd current' behind, parseStringEnd (skipSpace current) = some keyEnd ∧
      skipSpace keyEnd = 0x3A :: current' ∧ child current' = some behind ∧
      afterChild 0x7D (objectEnd child n) behind = some after := by
  rw [objectEnd_succ] at h
  obtain ⟨keyEnd, hkey, h⟩ := Option.bind_eq_some_iff.1 h
  split at h
  · rename_i hcolon
    obtain ⟨current', hcurrent⟩ := List.head?_eq_some_iff.1 hcolon
    rw [hcurrent, List.tail_cons] at h
    obtain ⟨behind, hbehind, hafter⟩ := Option.bind_eq_some_iff.1 h
    exact ⟨keyEnd, current', behind, hkey, hcurrent, hbehind, hafter⟩
  · cases h

theorem member_suffixes (hchild : Passes child)
    (hkey : parseStringEnd (skipSpace current) = some keyEnd)
    (hcolon : skipSpace keyEnd = 0x3A :: current') (hbehind : child current' = some behind) :
    behind <:+ current' ∧ 0x3A :: current' <:+ keyEnd ∧ keyEnd <:+ current := by
  refine ⟨hchild _ _ hbehind, ?_, ?_⟩
  · rw [← hcolon]
    exact skipSpace_suffix keyEnd
  · exact (parseStringEnd_passes _ _ hkey).trans (skipSpace_suffix current)

theorem objectEnd_passes (hchild : Passes child) (n : Nat) : Passes (objectEnd child n) := by
  induction n with
  | zero => exact nofun
  | succ n ih =>
    intro cursor after h
    obtain ⟨keyEnd, current, behind, hkey, hcolon, hbehind, hafter⟩ := objectEnd_some h
    obtain ⟨h₁, h₂, h₃⟩ := member_suffixes hchild hkey hcolon hbehind
    exact (afterChild_suffix ih hafter).trans
      (h₁.trans ((List.suffix_cons _ _).trans (h₂.trans h₃)))

theorem objectEnd_cut (hchild : Passes child) (hcuts : Cuts child child')
    (h : objectEnd child n (front ++ back) = some (tail ++ back)) (hm : front.length < m) :
    objectEnd child' m front = some tail := by
  induction n generalizing front m with
  | zero => cases h
  | succ n ih =>
    obtain ⟨m, rfl⟩ := Nat.exists_eq_succ_of_ne_zero (Nat.ne_zero_of_lt hm)
    obtain ⟨keyEnd, current, behind, hkey, hcolon, hbehind, hafter⟩ := objectEnd_some h
    obtain ⟨hs₁, hs₂, hs₃⟩ := member_suffixes hchild hkey hcolon hbehind
    -- All of them end with what stands behind the shorter text.
    obtain ⟨behind, rfl, -⟩ :=
      split_of_suffix (afterChild_suffix (objectEnd_passes hchild n) hafter)
    obtain ⟨current, rfl, -⟩ := split_of_suffix hs₁
    rw [← List.cons_append] at hcolon hs₂
    obtain ⟨keyEnd, rfl, -⟩ := split_of_suffix hs₂
    obtain ⟨key, hkeyStart, -⟩ := split_of_suffix (parseStringEnd_passes _ _ hkey)
    have hskip : skipSpace front = key := dropWhile_cut hkeyStart
    rw [hkeyStart] at hkey
    have hkey' : parseStringEnd (skipSpace front) = some keyEnd := by
      rw [hskip]
      exact parseStringEnd_cuts _ _ _ hkey
    have hcolon' : skipSpace keyEnd = 0x3A :: current := dropWhile_cut hcolon
    have h₁ := hs₁.length_le
    have h₂ := hs₂.length_le
    have h₃ := hs₃.length_le
    simp only [List.length_append, List.length_cons] at h₁ h₂ h₃
    rw [objectEnd_succ, hkey', Option.bind_some, hcolon', List.head?_cons, if_pos rfl,
      List.tail_cons, hcuts _ _ _ hbehind, Option.bind_some]
    apply afterChild_cut (objectEnd_passes hchild n) (by decide) _ hafter
    intro current hcurrent hnext
    exact ih hnext (by omega)

end

theorem Begins.passes (hchild : Passes (afterValue levels)) (h : Begins levels start type after) :
    ∃ c rest, start = c :: rest ∧ after <:+ rest := by
  cases h with
  | string hend => exact ⟨_, _, rfl, scanString_passes _ _ hend⟩
  | emptyObject hclose => exact ⟨_, _, rfl, skipped_suffix hclose⟩
  | object _ hend =>
    exact ⟨_, _, rfl, (objectEnd_passes hchild _ _ _ hend).trans (skipSpace_suffix _)⟩
  | emptyArray hclose => exact ⟨_, _, rfl, skipped_suffix hclose⟩
  | array _ hend =>
    exact ⟨_, _, rfl, (arrayEnd_passes hchild _ _ _ hend).trans (skipSpace_suffix _)⟩
  | boolean value after =>
    cases value with
    | true => exact ⟨0x74, ascii "rue" ++ after, rfl, List.suffix_append _ _⟩
    | false => exact ⟨0x66, ascii "alse" ++ after, rfl, List.suffix_append _ _⟩
  | null after => exact ⟨0x6E, ascii "ull" ++ after, rfl, List.suffix_append _ _⟩
  | number _ => exact ⟨_, _, rfl, List.dropWhile_suffix _⟩

theorem afterValue_passes (levels : Nat) : Passes (afterValue levels) := by
  induction levels with
  | zero => exact nofun
  | succ levels ih =>
    intro cursor after h
    obtain ⟨⟨value, after'⟩, hparse, rfl⟩ := Option.map_eq_some_iff.1 h
    obtain ⟨type, hbegins, -⟩ := begins_of_parse hparse
    obtain ⟨c, rest, hstart, hsuffix⟩ := hbegins.passes ih
    exact hsuffix.trans (skipped_suffix hstart)

theorem Begins.cut (hcuts : Cuts (afterValue levels) (afterValue levels'))
    (h : Begins levels (start ++ back) type (tail ++ back)) : Begins levels' start type tail := by
  have hchild := afterValue_passes levels
  generalize hstart : start ++ back = start' at h
  generalize hafter : tail ++ back = after at h
  cases h with
  | string hend =>
    subst hafter
    obtain ⟨rest, rfl, rfl, -⟩ := cons_cut hstart (scanString_passes _ _ hend)
    exact .string (scanString_cuts _ _ _ hend)
  | emptyObject hclose =>
    subst hafter
    obtain ⟨rest, rfl, rfl, -⟩ := cons_cut hstart (skipped_suffix hclose)
    exact .emptyObject (dropWhile_cut hclose)
  | object hopen hend =>
    subst hafter
    have hsuffix := objectEnd_passes hchild _ _ _ hend
    obtain ⟨rest, rfl, hopen, hlength, hskip⟩ := opened_cut hstart hopen hsuffix
    rw [hskip] at hend
    exact .object hopen (objectEnd_cut hchild hcuts hend hlength)
  | emptyArray hclose =>
    subst hafter
    obtain ⟨rest, rfl, rfl, -⟩ := cons_cut hstart (skipped_suffix hclose)
    exact .emptyArray (dropWhile_cut hclose)
  | array hopen hend =>
    subst hafter
    have hsuffix := arrayEnd_passes hchild _ _ _ hend
    obtain ⟨rest, rfl, hopen, hlength, hskip⟩ := opened_cut hstart hopen hsuffix
    rw [hskip] at hend
    exact .array hopen (arrayEnd_cut hchild hcuts hend hlength)
  | boolean value after =>
    rw [← hafter, ← List.append_assoc] at hstart
    rw [List.append_cancel_right hstart]
    exact .boolean value tail
  | null after =>
    rw [← hafter, ← List.append_assoc] at hstart
    rw [List.append_cancel_right hstart]
    exact .null tail
  | number hc =>
    have hsuffix := List.dropWhile_suffix (l := ‹List UInt8›) isNumberCharacter
    rw [← hafter] at hsuffix
    obtain ⟨rest, rfl, rfl, -⟩ := cons_cut hstart hsuffix
    rw [← dropWhile_cut hafter.symm]
    exact .number hc

/-- A value is scanned the same where the text ends earlier, but not before the value does, and more
levels are left. -/
theorem parseValueInternal_cut
    (h : parseValueInternal levels (front ++ back) = some (value, tail ++ back))
    (hlevels : levels ≤ levels') : parseValueInternal levels' front = some (value, tail) := by
  induction levels generalizing levels' front value tail back with
  | zero => cases h
  | succ levels ih =>
    obtain ⟨levels', rfl⟩ := Nat.exists_eq_succ_of_ne_zero (Nat.ne_zero_of_lt hlevels)
    have hcuts : Cuts (afterValue levels) (afterValue levels') := by
      intro front tail back h
      obtain ⟨⟨value, after⟩, hparse, rfl⟩ := Option.map_eq_some_iff.1 h
      rw [afterValue, ih hparse (Nat.le_of_succ_le_succ hlevels)]
      rfl
    obtain ⟨type, hbegins, hvalue⟩ := begins_of_parse h
    obtain ⟨c, rest, hstart, hsuffix⟩ := hbegins.passes (afterValue_passes levels)
    obtain ⟨start, hfront, htext⟩ := split_of_suffix (hsuffix.trans (List.suffix_cons c rest))
    rw [← hstart] at hfront
    have hskip : skipSpace front = start := dropWhile_cut hfront
    rw [hfront] at hbegins hvalue
    obtain ⟨text, rfl⟩ := htext
    rw [List.append_assoc] at hvalue
    rw [← hskip] at hbegins
    rw [parse_of_begins (hbegins.cut hcuts), hskip, valueBetween_append,
      span_of_valueBetween hvalue]

end SquidServer.RetroVault

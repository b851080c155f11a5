import SquidServer.TcpProxyAllowlist
import SquidServer.Loads

namespace SquidServer.TcpProxy
open Interaction Sockets Wire CText Loads
set_option autoImplicit true

-- The functions of the list on addresses. A loop over a text ends where the text does; `none`
-- stands for one that has used up its bound on the turns.

/-- The loop of `text_equals_case_insensitive`. -/
def textEqualsFrom : Nat → List UInt8 → Program Loading Bool
  | _, [] => return true
  | left, c :: right => do
    if toLower (← load left) ≠ toLower c then return false else textEqualsFrom (left + 1) right

def textEqualsAt (left leftSize : Nat) (right : List UInt8) : Program Loading Bool :=
  if leftSize ≠ right.length then return false else textEqualsFrom left right

/-- The bytes that the loops over one entry pass. -/
def isEntryByte (c : UInt8) : Bool := c ≠ 0 ∧ c ≠ 0x2C

/-- The loop of `host_is_allowed`; no loop in it takes more than `turns` turns. -/
def hostIsListedAt (turns : Nat) (host : List UInt8) : Nat → Nat → Program Loading (Option Bool)
  | 0, _ => return none
  | n + 1, cursor => do
    if (← load cursor) = 0 then return some false
    else match ← scanWhile isSpace turns cursor with
      | none => return none
      | some start =>
        match ← scanWhile isEntryByte turns start with
        | none => return none
        | some stop =>
          let stop ← scanBack isSpace start (stop - start)
          if ← textEqualsAt start (stop - start) host then return some true
          else match ← scanWhile isEntryByte turns stop with
            | none => return none
            | some cursor =>
              if (← load cursor) = 0x2C then hostIsListedAt turns host n (cursor + 1)
              else hostIsListedAt turns host n cursor

/-- `host_is_allowed` with the list of the context at an address. -/
def hostIsAllowedAt (turns list : Nat) (host : List UInt8) : Program Loading (Option Bool) := do
  let first ← load list
  if first = 0 then return some true
  else if first = 0x2A then
    if (← load (list + 1)) = 0 then return some true
    else hostIsListedAt turns host turns list
  else hostIsListedAt turns host turns list

/-- A memory has a C string at an address. -/
structure HoldsText (memory : Memory) (address : Nat) (text : CString) : Prop where
  bytes : bytesBetween memory address (address + text.bytes.length) = text.bytes
  stop : memory (address + text.bytes.length) = 0

section
variable {memory : Memory} {low stop : Nat}

theorem textEqualsFrom_spec (hlow : low ≤ left) (hstop : left + right.length ≤ stop) :
    Within memory low stop (textEqualsFrom left right) fun r =>
      (r = true ↔ foldCase (bytesBetween memory left (left + right.length)) = foldCase right) := by
  induction right generalizing left with
  | nil =>
    refine within_pure.2 (iff_of_true rfl ?_)
    rw [List.length_nil, Nat.add_zero, bytesBetween_nil (Nat.le_refl _)]
  | cons c right ih =>
    rw [List.length_cons] at hstop
    rw [List.length_cons, bytesBetween_cons (by omega)]
    refine within_bind.2 (within_load.2 ⟨by omega, ?_⟩)
    rw [foldCase, foldCase, List.map_cons, List.map_cons, List.cons.injEq]
    split
    · rename_i hdiffer
      refine within_pure.2 ?_
      simp [hdiffer]
    · rename_i hsame
      have hlow' : low ≤ left + 1 := by omega
      have hnext := ih hlow' (by omega)
      rw [show left + 1 + right.length = left + (right.length + 1) by omega] at hnext
      refine hnext.mono ?_
      intro r hr
      rw [hr, not_not.1 hsame]
      simp [foldCase]

theorem textEqualsAt_spec (hlow : low ≤ left) (hle : left ≤ last) (hstop : last ≤ stop) :
    Within memory low stop (textEqualsAt left (last - left) right) fun r =>
      r = textEqualsCaseInsensitive (bytesBetween memory left last) right := by
  rw [textEqualsAt]
  split
  · rename_i hsize
    refine within_pure.2 (Eq.symm ?_)
    rw [Bool.eq_false_iff]
    intro hequal
    rw [textEqualsCaseInsensitive_iff] at hequal
    have hlength := congrArg List.length hequal
    rw [length_foldCase, length_foldCase, length_bytesBetween] at hlength
    exact hsize hlength
  · rename_i hsize
    have hlast : last = left + right.length := by omega
    subst hlast
    refine (textEqualsFrom_spec hlow hstop).mono ?_
    intro r hr
    rw [Bool.eq_iff_iff, hr, textEqualsCaseInsensitive_iff]

theorem dropWhile_isEntryByte {text : List UInt8} (h : 0 ∉ text) :
    text.dropWhile isEntryByte = text.dropWhile (fun c => decide (c ≠ 0x2C)) := by
  induction text with
  | nil => rfl
  | cons c text ih =>
    have hc : c ≠ 0 := fun hc => h (hc ▸ List.mem_cons_self)
    rw [List.dropWhile_cons, List.dropWhile_cons, ih fun hmem => h (List.mem_cons_of_mem c hmem)]
    simp [isEntryByte, hc]

theorem takeWhile_isEntryByte {text : List UInt8} (h : 0 ∉ text) :
    text.takeWhile isEntryByte = text.takeWhile (fun c => decide (c ≠ 0x2C)) := by
  have hsplit := List.takeWhile_append_dropWhile (p := isEntryByte) (l := text)
  rw [dropWhile_isEntryByte h] at hsplit
  exact List.append_cancel_right (hsplit.trans List.takeWhile_append_dropWhile.symm)

theorem not_mem_bytesBetween (h : 0 ∉ bytesBetween memory cursor stop) (hle : cursor ≤ start)
    (hstop : start ≤ stop) : 0 ∉ bytesBetween memory start stop := by
  rw [bytesBetween_append hle hstop, List.mem_append, not_or] at h
  exact h.2

theorem bytesBetween_inj (h : bytesBetween memory start stop = bytesBetween memory start' stop)
    (hle : start ≤ stop) (hle' : start' ≤ stop) : start = start' := by
  have hlength := congrArg List.length h
  rw [length_bytesBetween, length_bytesBetween] at hlength
  omega

/-- The loop on addresses takes the turns of the loop on what is left of the list. -/
theorem hostIsListedAt_spec (hzero : memory stop = 0) (hlow : low ≤ cursor) (hle : cursor ≤ stop)
    (htext : 0 ∉ bytesBetween memory cursor stop) (hturns : stop - low < turns)
    (hn : stop - cursor < n) :
    Within memory low (stop + 1) (hostIsListedAt turns host n cursor) fun r =>
      r = some (hostIsListed host n (bytesBetween memory cursor stop)) := by
  induction n generalizing cursor with
  | zero => exact absurd hn (Nat.not_lt_zero _)
  | succ n ih =>
    refine within_bind.2 (within_load.2 ⟨by omega, ?_⟩)
    by_cases hlt : cursor < stop
    case neg =>
      have hend : cursor = stop := by omega
      subst hend
      rw [if_pos hzero, bytesBetween_nil (Nat.le_refl _)]
      exact within_pure.2 rfl
    have hcons : bytesBetween memory cursor stop = _ := bytesBetween_cons hlt
    have hbyte : memory cursor ≠ 0 := by
      rintro hbyte
      rw [hcons, hbyte] at htext
      exact htext List.mem_cons_self
    rw [if_neg hbyte, hcons, hostIsListed, ← hcons]
    -- The blanks before the entry.
    refine within_bind.2 (within_scanWhile (by rw [hzero]; decide) hlow hle (by omega) ?_)
    intro start hstart hstartStop hskip
    have hstartText := not_mem_bytesBetween htext hstart hstartStop
    dsimp only
    rw [hskip]
    -- The entry, and the blanks behind it.
    refine within_bind.2 (within_scanWhile (by rw [hzero]; decide) (by omega) hstartStop
      (by omega) ?_)
    intro comma hcomma hcommaStop hentry
    obtain ⟨hpassed, hagain⟩ := scan_split hcomma hcommaStop hentry
    rw [dropWhile_isEntryByte hstartText] at hentry
    rw [takeWhile_isEntryByte hstartText] at hpassed
    have hrest : (bytesBetween memory start stop).drop (bytesBetween memory start comma).length =
        bytesBetween memory comma stop := by
      rw [bytesBetween_append hcomma hcommaStop, List.drop_left]
    rw [hpassed, hrest]
    refine within_bind.2 (within_scanBack (by omega) (by omega) ?_)
    intro last hlast hlastComma hlastBytes
    rw [show start + (comma - start) = comma by omega] at hlastComma hlastBytes
    refine within_bind.2 ((textEqualsAt_spec (by omega) hlast (by omega)).mono ?_)
    rintro equal rfl
    rw [hlastBytes, trimEnd]
    split
    · exact within_pure.2 rfl
    refine within_bind.2 (within_scanWhile (by rw [hzero]; decide) (by omega) (by omega)
      (by omega) ?_)
    intro next _ hnextStop hnext
    have hsame := bytesBetween_inj (hnext.symm.trans (hagain last hlast hlastComma)) hnextStop
      hcommaStop
    subst hsame
    dsimp only
    refine within_bind.2 (within_load.2 ⟨by omega, ?_⟩)
    by_cases hmore : next < stop
    · have hcomma : memory next = 0x2C := by
        have hhead := List.head?_dropWhile_not (fun c : UInt8 => decide (c ≠ 0x2C))
          (bytesBetween memory start stop)
        rw [hentry, bytesBetween_cons hmore] at hhead
        simpa using hhead
      rw [if_pos hcomma, bytesBetween_cons hmore, List.drop_one, List.tail_cons]
      exact ih (by omega) hmore (not_mem_bytesBetween htext (by omega) hmore) (by omega)
    · have hend : next = stop := by omega
      subst hend
      rw [if_neg (by rw [hzero]; decide)]
      have hnil : (bytesBetween memory next next).drop 1 = bytesBetween memory next next := by
        rw [bytesBetween_nil (Nat.le_refl _)]
        rfl
      rw [hnil]
      exact ih (by omega) (Nat.le_refl _) (not_mem_bytesBetween htext (by omega) (Nat.le_refl _))
        (by omega)

theorem HoldsText.first (h : HoldsText memory list text) (hbytes : text.bytes = c :: rest) :
    memory list = c ∧ (memory (list + 1) = 0 ↔ rest = []) := by
  obtain ⟨htext, hzero⟩ := h
  have hnul := text.nulFree
  rw [hbytes] at htext hzero hnul
  rw [List.length_cons] at htext hzero
  rw [bytesBetween_cons (by omega)] at htext
  obtain ⟨hc, hrest⟩ := List.cons.inj htext
  refine ⟨hc, ?_⟩
  cases rest with
  | nil => exact iff_of_true hzero rfl
  | cons d rest =>
    rw [List.length_cons, bytesBetween_cons (by omega)] at hrest
    rw [(List.cons.inj hrest).1]
    refine iff_of_false ?_ (List.cons_ne_nil d rest)
    rintro rfl
    exact hnul (List.mem_cons_of_mem c List.mem_cons_self)

theorem hostIsAllowedAt_spec (h : HoldsText memory list context.allowedHosts) (hhost : host ≠ [])
    (hturns : context.allowedHosts.bytes.length < turns) :
    Within memory list (list + context.allowedHosts.bytes.length + 1)
      (hostIsAllowedAt turns list host) fun r => r = some (hostIsAllowed context host) := by
  simp only [hostIsAllowed]
  generalize context.allowedHosts = text at h hturns
  have hnul : 0 ∉ bytesBetween memory list (list + text.bytes.length) := by
    rw [h.bytes]
    exact text.nulFree
  have hlist : Within memory list (list + text.bytes.length + 1)
      (hostIsListedAt turns host turns list) fun r =>
        r = some (hostIsListed host (text.bytes.length + 1) text.bytes) := by
    refine (hostIsListedAt_spec h.stop (Nat.le_refl _) (Nat.le_add_right _ _) hnul (by omega)
      (by omega)).mono ?_
    rintro r rfl
    rw [h.bytes, Option.some.injEq, Bool.eq_iff_iff, hostIsListed_iff hhost hturns,
      hostIsListed_iff hhost (Nat.lt_succ_self _)]
  refine within_bind.2 (within_load.2 ⟨by omega, ?_⟩)
  cases hbytes : text.bytes with
  | nil =>
    have hzero := h.stop
    rw [hbytes, List.length_nil, Nat.add_zero] at hzero
    rw [if_pos hzero]
    exact within_pure.2 rfl
  | cons c rest =>
    obtain ⟨hc, hstar⟩ := h.first hbytes
    have hne : c ≠ 0 := by
      rintro rfl
      exact text.nulFree (hbytes ▸ List.mem_cons_self)
    rw [hbytes] at hlist
    rw [hc, if_neg hne]
    split
    · rename_i hasterisk
      have hlength : 0 < text.bytes.length := by
        rw [hbytes]
        exact Nat.zero_lt_succ _
      refine within_bind.2 (within_load.2 ⟨by rw [← hbytes]; omega, ?_⟩)
      by_cases hrest : rest = []
      · rw [if_pos (hstar.2 hrest), if_pos (.inr (by rw [hrest, hasterisk]; rfl))]
        exact within_pure.2 rfl
      · rw [if_neg fun hend => hrest (hstar.1 hend), if_neg]
        · exact hlist
        · rintro (hnil | hsame)
          · cases hnil
          · exact hrest (List.cons.inj hsame).2
    · rename_i hother
      rw [if_neg]
      · exact hlist
      · rintro (hnil | hsame)
        · cases hnil
        · exact hother (List.cons.inj hsame).1

end

/-- A host is allowed exactly if nothing or only a star is in the list, or if the host stands in it
between two commas, in whatever case and with whatever blanks around it; the loops end. -/
theorem allowed_hosts_decided (text : CString) (hsize : text.bytes.length ≤ 1023)
    (host : List UInt8) (hhost : host ≠ []) (memory : Memory) (list : Nat)
    (hstored : HoldsText memory list text) :
    Within memory list (list + text.bytes.length + 1) (hostIsAllowedAt 1024 list host) fun r =>
      ∃ allowed, r = some allowed ∧ (allowed = true ↔
        text.bytes = [] ∨ text.bytes = ascii "*" ∨ Lists text.bytes host) := by
  obtain ⟨context, hcontext⟩ : ∃ context : SquidTcpContext, context.allowedHosts = text :=
    ⟨{ socketFd := none, connectTimeoutMs := 0, writeTimeoutMs := 0, allowedHosts := text }, rfl⟩
  subst hcontext
  refine (hostIsAllowedAt_spec hstored hhost (by omega)).mono ?_
  rintro r rfl
  refine ⟨_, rfl, ?_⟩
  simp only [hostIsAllowed]
  split
  · rename_i hall
    exact iff_of_true rfl (hall.imp_right .inl)
  · rename_i hset
    obtain ⟨hnil, hstar⟩ := not_or.1 hset
    rw [hostIsListed_iff hhost (Nat.lt_succ_self _)]
    constructor
    · intro hlists
      exact .inr (.inr hlists)
    · rintro (h | h | h)
      · exact absurd h hnil
      · exact absurd h hstar
      · exact h

/-- A list with an empty entry and with blanks. -/
def blankList : CString := ⟨ascii ", Gateway.LAN ", by decide⟩

theorem allowed_hosts_decided_blanks :
    Within (fun address => blankList.bytes.getD address 0) 0 15
      (hostIsAllowedAt 1024 0 (ascii "gateway.lan")) fun r =>
        ∃ allowed, r = some allowed ∧ (allowed = true ↔ blankList.bytes = [] ∨
          blankList.bytes = ascii "*" ∨ Lists blankList.bytes (ascii "gateway.lan")) :=
  allowed_hosts_decided blankList (by decide) (ascii "gateway.lan") (by decide) _ 0
    ⟨by decide, by decide⟩

end SquidServer.TcpProxy

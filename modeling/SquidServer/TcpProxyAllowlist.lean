import SquidServer.TcpProxySessions

namespace SquidServer.TcpProxy
open Interaction Sockets Wire CText
open Posix (Fd Errno)
set_option autoImplicit true

/-- A text less the white space on either side. -/
def trim (text : List UInt8) : List UInt8 := trimEnd (text.dropWhile isSpace)

/-- The entries of a comma-separated list. -/
def entriesOf (list : List UInt8) : List (List UInt8) := (list.splitOn 0x2C).map trim

/-- A host is an entry of a list, in whatever case. -/
def Lists (list host : List UInt8) : Prop :=
  ∃ entry ∈ entriesOf list, foldCase entry = foldCase host

instance (list : List UInt8) : DecidablePred (Lists list) := fun host =>
  List.decidableBEx (fun entry => foldCase entry = foldCase host) (entriesOf list)

theorem lists_comma (first : List UInt8) (rest : List UInt8) (h : 0x2C ∉ first) :
    Lists (first ++ 0x2C :: rest) host ↔
      foldCase (trim first) = foldCase host ∨ Lists rest host := by
  rw [Lists, entriesOf, List.splitOn_append_cons_self_of_not_mem h, List.map_cons]
  simp only [List.mem_cons, or_and_right, exists_or, exists_eq_left]
  rfl

theorem lists_single (h : 0x2C ∉ first) :
    Lists first host ↔ foldCase (trim first) = foldCase host := by
  rw [Lists, entriesOf, List.splitOn_eq_singleton h, List.map_cons, List.map_nil]
  simp

theorem foldCase_ne_nil (h : host ≠ []) : foldCase [] ≠ foldCase host := by
  intro hnil
  have hlength := congrArg List.length hnil
  rw [length_foldCase, length_foldCase] at hlength
  exact h (List.length_eq_zero_iff.1 hlength.symm)

theorem not_lists_nil (h : host ≠ []) : ¬ Lists [] host := by
  rw [lists_single List.not_mem_nil]
  exact foldCase_ne_nil h

/-- White space is not a comma, so the blanks before an entry belong to it. -/
theorem dropWhile_isSpace_comma (h : 0x2C ∉ first) (rest : List UInt8) :
    (first ++ 0x2C :: rest).dropWhile isSpace = first.dropWhile isSpace ++ 0x2C :: rest := by
  induction first with
  | nil => rfl
  | cons c first ih =>
    have htail : 0x2C ∉ first := fun hmem => h (List.mem_cons_of_mem c hmem)
    rw [List.cons_append, List.dropWhile_cons, List.dropWhile_cons]
    split
    · exact ih htail
    · rfl

theorem takeWhile_last {last : List UInt8} (h : 0x2C ∉ last) :
    last.takeWhile (fun c => decide (c ≠ 0x2C)) = last := by
  rw [List.takeWhile_eq_self_iff]
  intro c hc
  rw [decide_eq_true_iff]
  rintro rfl
  exact h hc

theorem takeWhile_comma (h : 0x2C ∉ first) (rest : List UInt8) :
    (first ++ 0x2C :: rest).takeWhile (fun c => decide (c ≠ 0x2C)) = first := by
  have hall := List.takeWhile_eq_self_iff.1 (takeWhile_last h)
  rw [List.takeWhile_append_of_pos hall, List.takeWhile_cons_of_neg (by decide), List.append_nil]

theorem comma_cases (list : List UInt8) :
    0x2C ∉ list ∨ ∃ first rest, 0x2C ∉ first ∧ list = first ++ 0x2C :: rest := by
  by_cases h : 0x2C ∈ list
  · obtain ⟨first, rest, hlist, hfirst⟩ := List.eq_append_cons_of_mem h
    exact .inr ⟨first, rest, hfirst, hlist⟩
  · exact .inl h

theorem hostIsListed_nil (host : List UInt8) (n : Nat) : hostIsListed host n [] = false := by
  cases n with
  | zero => rfl
  | succ n => rfl

/-- The loop over the list finds the host exactly where it is one of the entries. -/
theorem hostIsListed_iff (hhost : host ≠ []) (hn : text.length < n) :
    hostIsListed host n text = true ↔ Lists text host := by
  induction n generalizing text with
  | zero => exact absurd hn (Nat.not_lt_zero _)
  | succ n ih =>
    cases text with
    | nil => simpa [hostIsListed] using not_lists_nil hhost
    | cons c cursor =>
      rw [hostIsListed]
      rcases comma_cases (c :: cursor) with hcomma | ⟨first, rest, hfirst, hlist⟩
      · have hstart : 0x2C ∉ (c :: cursor).dropWhile isSpace :=
          fun hmem => hcomma ((List.dropWhile_suffix isSpace).subset hmem)
        rw [takeWhile_last hstart, List.drop_length, List.drop_nil, hostIsListed_nil,
          lists_single hcomma, ← textEqualsCaseInsensitive_iff, trim]
        simp
      · have hlength : rest.length < n := by
          rw [hlist, List.length_append, List.length_cons] at hn
          omega
        have hstart : 0x2C ∉ first.dropWhile isSpace :=
          fun hmem => hfirst ((List.dropWhile_suffix isSpace).subset hmem)
        rw [hlist, dropWhile_isSpace_comma hfirst, takeWhile_comma hstart, List.drop_left,
          List.drop_one, List.tail_cons, lists_comma first rest hfirst, ← ih hlength,
          ← textEqualsCaseInsensitive_iff, trim]
        simp

-- A text that is cut off somewhere loses the entries from that place on, and the one that stands
-- there may become another.

/-- What is left of the entry that a list breaks off in. -/
def cutEntry (front : List UInt8) : List UInt8 :=
  (front.reverse.takeWhile (· ≠ 0x2C)).reverse

theorem cutEntry_cases (front : List UInt8) :
    0x2C ∉ cutEntry front ∧
      (front = cutEntry front ∨ ∃ before, front = before ++ 0x2C :: cutEntry front) := by
  have hentry : 0x2C ∉ cutEntry front := by
    intro hmem
    have hmem := List.mem_takeWhile_imp (List.mem_reverse.1 hmem)
    exact absurd hmem (by decide)
  refine ⟨hentry, ?_⟩
  have hsplit := List.takeWhile_append_dropWhile
    (p := fun c : UInt8 => decide (c ≠ 0x2C)) (l := front.reverse)
  have hfront : front = (front.reverse.dropWhile (· ≠ 0x2C)).reverse ++ cutEntry front := by
    rw [cutEntry, ← List.reverse_append, hsplit, List.reverse_reverse]
  cases hrest : front.reverse.dropWhile (· ≠ 0x2C) with
  | nil =>
    left
    rw [hrest] at hfront
    exact hfront
  | cons c before =>
    right
    have hc : c = 0x2C := by
      have hhead := List.head?_dropWhile_not (fun c : UInt8 => decide (c ≠ 0x2C)) front.reverse
      rw [hrest] at hhead
      simpa using hhead
    refine ⟨before.reverse, ?_⟩
    rw [hrest, List.reverse_cons, List.append_assoc, hc] at hfront
    exact hfront

theorem entriesOf_cut (front : List UInt8) :
    ∃ kept, entriesOf front = kept ++ [trim (cutEntry front)] ∧
      ∀ back, entriesOf (front ++ back) = kept ++ entriesOf (cutEntry front ++ back) := by
  obtain ⟨hentry, hfront⟩ := cutEntry_cases front
  generalize cutEntry front = entry at hentry hfront
  rcases hfront with rfl | ⟨before, rfl⟩
  · refine ⟨[], ?_, ?_⟩
    · rw [entriesOf, List.splitOn_eq_singleton hentry]
      rfl
    · intro back
      rfl
  · refine ⟨entriesOf before, ?_, ?_⟩
    · rw [entriesOf, List.splitOn_append_cons_self, List.splitOn_eq_singleton hentry,
        List.map_append]
      rfl
    · intro back
      rw [entriesOf, List.append_assoc, List.cons_append, List.splitOn_append_cons_self,
        List.map_append]
      rfl

theorem toLower_special (c : UInt8) :
    (toLower c = 0 ∨ isSpace (toLower c) ∨ toLower c = 0x2F ∨ toLower c = 0x5C) ↔
      (c = 0 ∨ isSpace c ∨ c = 0x2F ∨ c = 0x5C) := by
  rw [toLower]
  split
  · rename_i h
    simp only [UInt8.le_iff_toNat_le, isSpace, ← UInt8.toNat_inj, UInt8.toNat_add,
      UInt8.reduceToNat, decide_eq_true_iff] at h ⊢
    omega
  · rfl

theorem hostIsValid_foldCase (host : List UInt8) :
    hostIsValid (foldCase host) = hostIsValid host := by
  simp only [hostIsValid, foldCase, List.all_map, Function.comp_def, toLower_special,
    List.length_map, ne_eq, List.map_eq_nil_iff]

theorem hostIsValid_congr (h : foldCase left = foldCase right) :
    hostIsValid left = hostIsValid right := by
  rw [← hostIsValid_foldCase left, h, hostIsValid_foldCase]

theorem lists_congr (h : foldCase left = foldCase right) (list : List UInt8) :
    Lists list left ↔ Lists list right := by
  rw [Lists, h, ← Lists]

/-- Past the cut, a list has only entries that stand before it as well, and what is left of the
entry at the cut is one of the list's own entries; entries that no host can have do not count. -/
structure CutHarmless (size : Nat) (list : List UInt8) : Prop where
  none_added : hostIsValid (trim (cutEntry (list.take size))) →
    Lists list (trim (cutEntry (list.take size)))
  none_lost : ∀ entry ∈ entriesOf (cutEntry (list.take size) ++ list.drop size),
    hostIsValid entry → Lists (list.take size) entry

/-- Cutting a list off is harmless exactly where it lists the same hosts as before. -/
theorem cutHarmless_iff (size : Nat) (list : List UInt8) :
    CutHarmless size list ↔
      ∀ host, hostIsValid host → (Lists (list.take size) host ↔ Lists list host) := by
  obtain ⟨kept, hfront, hwhole⟩ := entriesOf_cut (list.take size)
  have hlist := hwhole (list.drop size)
  rw [List.take_append_drop] at hlist
  constructor
  · intro h host hhost
    constructor
    · rintro ⟨entry, hentry, hfold⟩
      rw [hfront, List.mem_append, List.mem_singleton] at hentry
      rcases hentry with hentry | rfl
      · exact ⟨entry, by rw [hlist]; exact List.mem_append_left _ hentry, hfold⟩
      · rw [← lists_congr hfold]
        exact h.none_added (by rw [hostIsValid_congr hfold]; exact hhost)
    · rintro ⟨entry, hentry, hfold⟩
      rw [hlist, List.mem_append] at hentry
      rcases hentry with hentry | hentry
      · exact ⟨entry, by rw [hfront]; exact List.mem_append_left _ hentry, hfold⟩
      · rw [← lists_congr hfold]
        exact h.none_lost entry hentry (by rw [hostIsValid_congr hfold]; exact hhost)
  · intro h
    constructor
    case none_added =>
      intro hvalid
      refine (h _ hvalid).1 ⟨_, ?_, rfl⟩
      rw [hfront]
      exact List.mem_append_right kept (List.mem_singleton_self _)
    case none_lost =>
      intro entry hentry hvalid
      refine (h entry hvalid).2 ⟨entry, ?_, rfl⟩
      rw [hlist]
      exact List.mem_append_right kept hentry

theorem cutHarmless_of_length_le (h : list.length ≤ size) : CutHarmless size list := by
  rw [cutHarmless_iff]
  intro host _
  rw [List.take_of_length_le h]

theorem copyText_ne_nil (h : given.bytes ≠ []) :
    (copyText given squidTcpAllowlistMax).bytes ≠ [] := by
  cases hgiven : given.bytes with
  | nil => exact absurd hgiven h
  | cons c rest =>
    change given.bytes.take 1023 ≠ []
    rw [hgiven]
    exact List.cons_ne_nil _ _

theorem copyText_ne_star (h : given.bytes ≠ ascii "*") :
    (copyText given squidTcpAllowlistMax).bytes ≠ ascii "*" := by
  intro hstar
  have hlength := congrArg List.length hstar
  change (given.bytes.take 1023).length = 1 at hlength
  rw [List.length_take] at hlength
  have hwhole : given.bytes.take 1023 = given.bytes := List.take_of_length_le (by omega)
  exact h (hwhole.symm.trans hstar)

theorem hostIsAllowed_iff (hnil : given.bytes ≠ []) (hstar : given.bytes ≠ ascii "*")
    (hcontext : context.allowedHosts = copyText given squidTcpAllowlistMax) (hhost : host ≠ []) :
    hostIsAllowed context host = true ↔ Lists (given.bytes.take 1023) host := by
  have hset : ¬ (context.allowedHosts.bytes = [] ∨ context.allowedHosts.bytes = ascii "*") := by
    rw [hcontext]
    exact not_or.2 ⟨copyText_ne_nil hnil, copyText_ne_star hstar⟩
  simp only [hostIsAllowed]
  rw [if_neg hset, hostIsListed_iff hhost (Nat.lt_succ_self _), hcontext]
  rfl

/-- The calls that reach out to a host. -/
def Outgoing : Call → Prop
  | .getaddrinfo _ _ _ => True
  | .socket _ _ _ => True
  | .connect _ _ => True
  | _ => False

/-- A call that looks up no other host. -/
def MadeFor (host : List UInt8) : Call → Prop
  | .getaddrinfo name _ _ => name = host
  | _ => True

theorem closeConnection_calls {P : Call → Prop} (h : ∀ fd, P (.close fd))
    (context : SquidTcpContext) : Calls (E := Network) P (closeConnection context) := by
  rw [closeConnection]
  split
  · exact .pure _
  · exact (Calls.ask (h _)).bind fun _ => .pure _

theorem waitForSocket_calls {P : Call → Prop}
    (h : ∀ fd events timeout, P (.poll fd events timeout)) (fuel : Nat) (socketFd : Fd)
    (events timeoutMs : Nat) :
    Calls (E := Network) P (waitForSocket fuel socketFd events timeoutMs) := by
  refine Calls.loop ?_ fuel ()
  intro _
  refine (Calls.ask (h _ _ _)).bind ?_
  intro result
  cases result with
  | error e =>
    dsimp only
    split
    · exact .pure _
    · exact .pure _
  | ok result =>
    cases result with
    | none => exact .pure _
    | some revents =>
      dsimp only
      split
      · exact .pure _
      · exact .pure _

theorem closing_calls (context : SquidTcpContext) (reply : Response) :
    Calls (E := Network) (fun op => ¬ Outgoing op)
      ((closeConnection context).bind fun c => .pure (reply, c)) :=
  (closeConnection_calls (fun _ h => h) context).bind fun _ => .pure _

theorem handleWrite_calls (fuel : Nat) (context : SquidTcpContext) (opcode : UInt8)
    (request : List UInt8) (responseCapacity : Nat) :
    Calls (E := Network) (fun op => ¬ Outgoing op)
      (handleWrite fuel context opcode request responseCapacity) := by
  rw [handleWrite]
  split
  · exact .pure _
  · split
    · exact .pure _
    · refine (waitForSocket_calls (fun _ _ _ h => h) _ _ _ _).bind ?_
      intro outcome
      split
      · exact .pure _
      · exact .pure _
      · exact closing_calls context _
      · refine (Calls.ask (fun h => h)).bind ?_
        intro sent
        split
        · exact .pure _
        · exact closing_calls context _
        · exact closing_calls context _
        · split
          · exact .pure _
          · exact .pure _

theorem handleRead_calls (fuel : Nat) (context : SquidTcpContext) (opcode : UInt8)
    (request : List UInt8) (responseCapacity : Nat) :
    Calls (E := Network) (fun op => ¬ Outgoing op)
      (handleRead fuel context opcode request responseCapacity) := by
  rw [handleRead]
  split
  · exact .pure _
  · split
    · exact .pure _
    · split
      · exact .pure _
      · dsimp only
        split
        · exact .pure _
        · refine (waitForSocket_calls (fun _ _ _ h => h) _ _ _ _).bind ?_
          intro outcome
          split
          · exact .pure _
          · exact closing_calls context _
          · exact .pure _
          · refine (Calls.ask (fun h => h)).bind ?_
            intro received
            split
            · exact closing_calls context _
            · exact .pure _
            · exact .pure _
            · exact closing_calls context _

theorem connectAddress_calls (fuel : Nat) (address : Address) (timeoutMs : UInt32)
    (host : List UInt8) :
    Calls (E := Network) (MadeFor host) (connectAddress fuel address timeoutMs) := by
  have hfailed : ∀ socketFd e, Calls (E := Network) (MadeFor host)
      ((closeFailed socketFd e).bind fun e => .pure (some (.error e : Except Errno Fd))) := by
    intro socketFd e
    refine Calls.bind ?_ fun _ => .pure _
    refine (Calls.ask trivial).bind ?_
    intro left
    cases left with
    | none => exact .pure _
    | some e => exact .pure _
  refine (Calls.ask trivial).bind ?_
  intro opened
  cases opened with
  | error e => exact .pure _
  | ok socketFd =>
    have hnonblocking : Calls (E := Network) (MadeFor host) (setNonblocking socketFd) := by
      refine (Calls.ask trivial).bind ?_
      intro flags
      cases flags with
      | error e => exact .pure _
      | ok flags => exact Calls.ask trivial
    refine hnonblocking.bind ?_
    intro nonblocking
    cases nonblocking with
    | error e => exact hfailed socketFd e
    | ok _ =>
      refine (Calls.ask trivial).bind ?_
      intro result
      cases result with
      | ok _ => exact .pure _
      | error e =>
        dsimp only
        split
        · exact hfailed socketFd e
        · refine (waitForSocket_calls (fun _ _ _ => trivial) _ _ _ _).bind ?_
          intro outcome
          split
          · exact .pure _
          · exact hfailed socketFd _
          · exact hfailed socketFd _
          · refine (Calls.ask trivial).bind ?_
            intro pending
            split
            · exact hfailed socketFd _
            · exact hfailed socketFd _
            · exact .pure _

theorem connectAddresses_calls (fuel : Nat) (timeoutMs : UInt32) (host : List UInt8)
    (addresses : List Address) (errno : Errno) :
    Calls (E := Network) (MadeFor host) (connectAddresses fuel timeoutMs addresses errno) := by
  induction addresses generalizing errno with
  | nil => exact .pure _
  | cons address rest ih =>
    rw [connectAddresses]
    refine (connectAddress_calls fuel address timeoutMs host).bind ?_
    intro r
    split
    · exact .pure _
    · exact .pure _
    · exact ih _

theorem handleConnect_calls (fuel : Nat) (context : SquidTcpContext) (opcode : UInt8)
    (request : List UInt8) (responseCapacity : Nat)
    (hparse : parseConnect request = some (port, host)) :
    Calls (E := Network) (MadeFor host)
      (handleConnect fuel context opcode request responseCapacity) := by
  rw [handleConnect, hparse]
  dsimp only
  split
  · exact .pure _
  · refine Calls.bind (Calls.ask rfl) ?_
    intro lookup
    split
    · exact .pure _
    · refine (connectAddresses_calls fuel _ host _ _).bind ?_
      intro connected
      split
      · exact .pure _
      · refine Calls.bind (Calls.ask trivial) ?_
        intro changed
        rw [answerConnect.eq_def]
        split
        · exact .pure _
        · split
          · exact (Calls.ask trivial).bind fun _ => .pure _
          · exact (closeConnection_calls (fun _ => trivial) context).bind fun _ => .pure _

-- No request changes the list.

variable {σ : Type} {H : Environment Network σ} {s : σ}

theorem closeConnection_allowedHosts (context : SquidTcpContext) :
    Ensures H (closeConnection context) (fun r _ => r.allowedHosts = context.allowedHosts) s := by
  rw [closeConnection]
  split
  · exact ensures_pure.2 rfl
  · exact ensures_bind_any fun _ _ => ensures_pure.2 rfl

theorem closing_allowedHosts (context : SquidTcpContext) (reply : Response) :
    Ensures H ((closeConnection context).bind fun c => .pure (reply, c))
      (fun r _ => r.2.allowedHosts = context.allowedHosts) s :=
  ensures_bind.2 ((closeConnection_allowedHosts context).mono fun _ _ h => ensures_pure.2 h)

theorem handleConnect_allowedHosts (fuel : Nat) (context : SquidTcpContext) (opcode : UInt8)
    (request : List UInt8) (responseCapacity : Nat) :
    Ensures H (handleConnect fuel context opcode request responseCapacity)
      (fun r _ => r.2.allowedHosts = context.allowedHosts) s := by
  rw [handleConnect]
  split
  · exact ensures_pure.2 rfl
  · split
    · exact ensures_pure.2 rfl
    · refine ensures_bind_any ?_
      intro lookup _
      split
      · exact ensures_pure.2 rfl
      · refine ensures_bind_any ?_
        intro connected _
        split
        · exact ensures_pure.2 rfl
        · refine ensures_bind_any ?_
          intro changed _
          rw [answerConnect.eq_def]
          split
          · exact ensures_pure.2 rfl
          · split
            · exact ensures_bind_any fun _ _ => ensures_pure.2 rfl
            · refine ensures_bind.2 ((closeConnection_allowedHosts context).mono ?_)
              intro context' _ h
              exact ensures_pure.2 h

theorem handleWrite_allowedHosts (fuel : Nat) (context : SquidTcpContext) (opcode : UInt8)
    (request : List UInt8) (responseCapacity : Nat) :
    Ensures H (handleWrite fuel context opcode request responseCapacity)
      (fun r _ => r.2.allowedHosts = context.allowedHosts) s := by
  rw [handleWrite]
  split
  · exact ensures_pure.2 rfl
  · split
    · exact ensures_pure.2 rfl
    · refine ensures_bind_any ?_
      intro outcome _
      split
      · exact ensures_pure.2 rfl
      · exact ensures_pure.2 rfl
      · exact closing_allowedHosts context _
      · refine ensures_bind_any ?_
        intro sent _
        split
        · exact ensures_pure.2 rfl
        · exact closing_allowedHosts context _
        · exact closing_allowedHosts context _
        · split
          · exact ensures_pure.2 rfl
          · exact ensures_pure.2 rfl

theorem handleRead_allowedHosts (fuel : Nat) (context : SquidTcpContext) (opcode : UInt8)
    (request : List UInt8) (responseCapacity : Nat) :
    Ensures H (handleRead fuel context opcode request responseCapacity)
      (fun r _ => r.2.allowedHosts = context.allowedHosts) s := by
  rw [handleRead]
  split
  · exact ensures_pure.2 rfl
  · split
    · exact ensures_pure.2 rfl
    · split
      · exact ensures_pure.2 rfl
      · dsimp only
        split
        · exact ensures_pure.2 rfl
        · refine ensures_bind_any ?_
          intro outcome _
          split
          · exact ensures_pure.2 rfl
          · exact closing_allowedHosts context _
          · exact ensures_pure.2 rfl
          · refine ensures_bind_any ?_
            intro received _
            split
            · exact closing_allowedHosts context _
            · exact ensures_pure.2 rfl
            · exact ensures_pure.2 rfl
            · exact closing_allowedHosts context _

/-- The host of a CONNECT request that is well formed. -/
def requestedHost (request : List UInt8) : Option (List UInt8) :=
  if request.head? = some squidTcpOpConnect then (parseConnect request).map Prod.snd else none

theorem requestedHost_connect (rest : List UInt8) :
    requestedHost (squidTcpOpConnect :: rest) =
      (parseConnect (squidTcpOpConnect :: rest)).map Prod.snd := rfl

theorem parseConnect_valid (h : parseConnect request = some (port, host)) : hostIsValid host := by
  rw [parseConnect] at h
  split at h
  · cases h
  · dsimp only at h
    split at h
    · cases h
    · rename_i hvalid
      simp only [Option.some.injEq, Prod.mk.injEq] at h
      simp only [not_or, not_not] at hvalid
      rw [← h.2]
      exact hvalid.2.2

theorem hostIsValid_ne_nil (h : hostIsValid host) : host ≠ [] := by
  rw [hostIsValid, decide_eq_true_iff] at h
  exact h.1

theorem serve_allowedHosts (fuel : Nat) (context : SquidTcpContext) (request : List UInt8) :
    Ensures H (serve fuel context request)
      (fun r _ => r.2.allowedHosts = context.allowedHosts) s := by
  cases request with
  | nil => exact ensures_pure.2 rfl
  | cons opcode rest =>
    rw [serve, handleSquidTcpRequest, if_neg (by decide)]
    split
    · split
      · exact ensures_pure.2 rfl
      · exact ensures_pure.2 rfl
    · split
      · exact handleConnect_allowedHosts fuel context opcode _ 255
      · split
        · exact handleWrite_allowedHosts fuel context opcode _ 255
        · split
          · exact handleRead_allowedHosts fuel context opcode _ 255
          · split
            · split
              · exact ensures_pure.2 rfl
              · exact closing_allowedHosts context _
            · split
              · split
                · exact ensures_pure.2 rfl
                · exact ensures_pure.2 rfl
              · exact ensures_pure.2 rfl

/-- Only CONNECT reaches out. -/
theorem serve_calls (fuel : Nat) (context : SquidTcpContext)
    (h : request.head? ≠ some squidTcpOpConnect) :
    Calls (E := Network) (fun op => ¬ Outgoing op) (serve fuel context request) := by
  cases request with
  | nil => exact .pure _
  | cons opcode rest =>
    have hop : opcode ≠ squidTcpOpConnect := fun hop => h (congrArg some hop)
    rw [serve, handleSquidTcpRequest, if_neg (by decide)]
    split
    · split
      · exact .pure _
      · exact .pure _
    · split
      · exact handleWrite_calls fuel context opcode _ 255
      · split
        · exact handleRead_calls fuel context opcode _ 255
        · split
          · split
            · exact .pure _
            · exact closing_calls context _
          · split
            · split
              · exact .pure _
              · exact .pure _
            · exact .pure _

theorem serve_connect (fuel : Nat) (context : SquidTcpContext) (rest : List UInt8) :
    serve fuel context (squidTcpOpConnect :: rest) =
      handleConnect fuel context squidTcpOpConnect (squidTcpOpConnect :: rest) 255 := rfl

theorem handleConnect_unparsed (fuel : Nat) (context : SquidTcpContext) (opcode : UInt8)
    (responseCapacity : Nat) (h : parseConnect request = none) :
    handleConnect fuel context opcode request responseCapacity =
      .pure (writeStatus opcode .badRequest responseCapacity, context) := by
  rw [handleConnect, h]
  rfl

theorem handleConnect_denied (fuel : Nat) (context : SquidTcpContext) (opcode : UInt8)
    (responseCapacity : Nat) (h : parseConnect request = some (port, host))
    (hdenied : hostIsAllowed context host = false) :
    handleConnect fuel context opcode request responseCapacity =
      .pure (writeStatus opcode .denied responseCapacity, context) := by
  rw [handleConnect, h]
  dsimp only
  rw [if_pos (by simp [hdenied])]
  rfl

theorem handleConnect_not_denied (fuel : Nat) (context : SquidTcpContext) (opcode : UInt8)
    (h : parseConnect request = some (port, host)) (hallowed : hostIsAllowed context host = true) :
    Ensures H (handleConnect fuel context opcode request 255)
      (fun r _ => statusOf r.1 ≠ some SquidTcpStatus.denied.code) s := by
  rw [handleConnect, h]
  dsimp only
  rw [if_neg (by simp [hallowed])]
  refine ensures_bind_any ?_
  intro lookup _
  split
  · exact ensures_pure.2 (statusOf_writeStatus_ne opcode (by decide))
  · refine ensures_bind_any ?_
    intro connected _
    split
    · exact ensures_pure.2 (by simp [statusOf])
    · refine ensures_bind_any ?_
      intro changed _
      rw [answerConnect.eq_def]
      split
      · refine ensures_pure.2 (statusOf_writeStatus_ne opcode ?_)
        split
        · decide
        · decide
      · rw [if_neg (by decide)]
        refine ensures_bind_any ?_
        intro context' _
        refine ensures_pure.2 ?_
        intro hstatus
        cases hstatus

/-- The list is kept to in one request: a call that reaches out is made for a host that is listed,
and a host that is listed is not turned away. -/
structure Enforced (list : List UInt8) (x : Served) : Prop where
  outgoing : ∀ e ∈ x.events, Outgoing e.op →
    ∃ host, requestedHost x.request = some host ∧ MadeFor host e.op ∧ Lists list host
  admitted : ∀ host, requestedHost x.request = some host → Lists list host →
    statusOf x.reply ≠ some SquidTcpStatus.denied.code

theorem serve_enforced (hnil : given.bytes ≠ []) (hstar : given.bytes ≠ ascii "*")
    (hcut : CutHarmless 1023 given.bytes) (fuel : Nat)
    (hcontext : context.allowedHosts = copyText given squidTcpAllowlistMax)
    (request : List UInt8) :
    Ensures (recording C) (serve fuel context request)
      (fun r u => Enforced given.bytes ⟨context, request, u, r.1, r.2⟩) [] := by
  by_cases hop : request.head? = some squidTcpOpConnect
  · obtain ⟨rest, rfl⟩ : ∃ rest, request = squidTcpOpConnect :: rest := by
      cases request with
      | nil => cases hop
      | cons opcode rest => exact ⟨rest, by rw [Option.some.inj hop]⟩
    have hrequested := requestedHost_connect rest
    rw [serve_connect]
    cases hparse : parseConnect (squidTcpOpConnect :: rest) with
    | none =>
      rw [hparse] at hrequested
      rw [handleConnect_unparsed fuel context _ _ hparse]
      refine ensures_pure.2 ⟨by simp, ?_⟩
      intro host hhost
      cases hrequested.symm.trans hhost
    | some parsed =>
      obtain ⟨port, host⟩ := parsed
      rw [hparse] at hrequested
      have hvalid := parseConnect_valid hparse
      have hlists : hostIsAllowed context host = true ↔ Lists given.bytes host := by
        rw [hostIsAllowed_iff hnil hstar hcontext (hostIsValid_ne_nil hvalid)]
        exact (cutHarmless_iff 1023 given.bytes).1 hcut host hvalid
      cases hallowed : hostIsAllowed context host with
      | false =>
        rw [handleConnect_denied fuel context _ _ hparse hallowed]
        refine ensures_pure.2 ⟨by simp, ?_⟩
        intro other hother hlisted
        cases hrequested.symm.trans hother
        rw [← hlists, hallowed] at hlisted
        cases hlisted
      | true =>
        refine ((handleConnect_calls fuel context _ _ 255 hparse).events.and
          (handleConnect_not_denied fuel context _ hparse hallowed)).mono ?_
        rintro r u ⟨hcalls, hstatus⟩
        refine ⟨?_, fun _ _ _ => hstatus⟩
        intro e he _
        exact ⟨host, hrequested, hcalls e he, hlists.1 hallowed⟩
  · refine (serve_calls fuel context hop).events.mono ?_
    intro r u hcalls
    refine ⟨?_, ?_⟩
    · intro e he hout
      exact absurd hout (hcalls e he)
    · intro host hhost
      rw [requestedHost, if_neg hop] at hhost
      cases hhost

/-- A CONNECT request for a host. -/
def connectRequest (host : List UInt8) : List UInt8 :=
  [squidTcpOpConnect, 80, 0] ++ countedText host

theorem parseConnect_connectRequest (h : hostIsValid host) :
    parseConnect (connectRequest host) = some (80, host) := by
  have hvalid := h
  rw [hostIsValid, decide_eq_true_iff] at hvalid
  obtain ⟨hnil, hsize, -⟩ := hvalid
  have hpos : 0 < host.length := List.length_pos_iff.2 hnil
  have hlength : (connectRequest host).length = host.length + 4 := by
    simp [connectRequest, countedText]
  have hport : readU16 (connectRequest host) 1 = 80 := by
    change readU16 [squidTcpOpConnect, 80, 0] 1 = 80
    decide
  have hcount : (byteAt (connectRequest host) 3).toNat = host.length :=
    UInt8.toNat_ofNat_of_lt' (Nat.lt_of_le_of_lt hsize (by decide))
  have hhost : (connectRequest host).drop 4 = host := rfl
  rw [parseConnect, hlength, if_neg (by omega)]
  dsimp only
  rw [hport, hcount, hhost, if_neg]
  simp [h]

/-- Where the list and its first 1023 bytes do not agree on a host, asking for it shows it. -/
theorem exists_not_enforced (hnil : given.bytes ≠ []) (hstar : given.bytes ≠ ascii "*")
    (connectTimeoutMs writeTimeoutMs : UInt32) (hvalid : hostIsValid host)
    (hdiffer : ¬ (Lists (given.bytes.take 1023) host ↔ Lists given.bytes host)) :
    ∃ x, Conversation (fun _ => True) (serve 1)
        (initSquidTcpContext (some given) connectTimeoutMs writeTimeoutMs) [x] x.after ∧
      ¬ Enforced given.bytes x := by
  generalize hcontext : initSquidTcpContext (some given) connectTimeoutMs writeTimeoutMs = context
  have hlist : context.allowedHosts = copyText given squidTcpAllowlistMax := by
    rw [← hcontext]
    rfl
  have hparse := parseConnect_connectRequest hvalid
  have hrequested : requestedHost (connectRequest host) = some host := by
    change requestedHost (squidTcpOpConnect :: ([80, 0] ++ countedText host)) = some host
    rw [requestedHost_connect]
    change (parseConnect (connectRequest host)).map Prod.snd = some host
    rw [hparse]
    rfl
  have hallowed := hostIsAllowed_iff hnil hstar hlist (hostIsValid_ne_nil hvalid)
  cases hcase : hostIsAllowed context host with
  | true =>
    rw [hcase] at hallowed
    let lookup : Event Network :=
      ⟨Call.getaddrinfo host (ascii (toString (80 : UInt16).toNat)) connectHints,
        Lookup.mk (.error 0) .eio⟩
    let x : Served := ⟨context, connectRequest host, [lookup],
      writeStatus squidTcpOpConnect .dnsFailed 255, context⟩
    refine ⟨x, Conversation.single (x := x) ?_, ?_⟩
    · change Exec _ _ (handleConnect 1 context squidTcpOpConnect (connectRequest host) 255) _ _
      rw [handleConnect, hparse]
      dsimp only
      rw [if_neg (by simp [hcase])]
      exact .call (r := Lookup.mk (.error 0) .eio) ⟨trivial, rfl⟩ (.pure _ _)
    · intro henforced
      obtain ⟨host', hhost', -, hlists⟩ := henforced.outgoing lookup List.mem_cons_self trivial
      cases hrequested.symm.trans hhost'
      exact hdiffer ⟨fun _ => hlists, fun _ => hallowed.1 rfl⟩
  | false =>
    rw [hcase] at hallowed
    let x : Served := ⟨context, connectRequest host, [],
      writeStatus squidTcpOpConnect .denied 255, context⟩
    refine ⟨x, Conversation.single (x := x) ?_, ?_⟩
    · change Exec _ _ (handleConnect 1 context squidTcpOpConnect (connectRequest host) 255) _ _
      rw [handleConnect_denied 1 context _ _ hparse hcase]
      exact .pure _ _
    · intro henforced
      have hnot : ¬ Lists given.bytes host := fun h => henforced.admitted host hrequested h rfl
      refine hdiffer ⟨fun h => ?_, fun h => absurd h hnot⟩
      cases hallowed.2 h

/-- Whatever is asked of the proxy, the list it was given is enforced, exactly if nothing of it is
lost or added where its copy breaks off. -/
theorem allowlist_enforced_iff (given : CString) (hnil : given.bytes ≠ [])
    (hstar : given.bytes ≠ ascii "*") (connectTimeoutMs writeTimeoutMs : UInt32) :
    (∀ fuel served final, Conversation (fun _ => True) (serve fuel)
        (initSquidTcpContext (some given) connectTimeoutMs writeTimeoutMs) served final →
      ∀ x ∈ served, Enforced given.bytes x) ↔ CutHarmless 1023 given.bytes := by
  constructor
  · intro h
    rw [cutHarmless_iff]
    intro host hvalid
    by_contra hdiffer
    obtain ⟨x, hx, hnot⟩ :=
      exists_not_enforced hnil hstar connectTimeoutMs writeTimeoutMs hvalid hdiffer
    exact hnot (h 1 [x] x.after hx x List.mem_cons_self)
  · intro hcut fuel served final hserved
    refine (hserved.invariant
      (fun context => context.allowedHosts = copyText given squidTcpAllowlistMax)
      (Enforced given.bytes) ?_ rfl).2
    intro context request hcontext
    refine ((serve_allowedHosts fuel context request).and
      (serve_enforced hnil hstar hcut fuel hcontext request)).mono ?_
    rintro r u ⟨hsame, henforced⟩
    exact ⟨hsame.trans hcontext, henforced⟩

/-- A list of two hosts, the second in capitals and with a blank before it. -/
def twoHosts : CString := ⟨ascii "gateway.lan, ROUTER.lan", by decide⟩

theorem allowlist_enforced_twoHosts : CutHarmless 1023 twoHosts.bytes ∧
    Lists twoHosts.bytes (ascii "gateway.lan") ∧ Lists twoHosts.bytes (ascii "router.lan") ∧
    ¬ Lists twoHosts.bytes (ascii "lan") ∧
    ∀ fuel served final, Conversation (fun _ => True) (serve fuel)
        (initSquidTcpContext (some twoHosts) 0 0) served final →
      ∀ x ∈ served, Enforced twoHosts.bytes x := by
  have hcut : CutHarmless 1023 twoHosts.bytes := cutHarmless_of_length_le (by decide)
  have henforced := (allowlist_enforced_iff twoHosts (by decide) (by decide) 0 0).2 hcut
  exact ⟨hcut, by decide, by decide, by decide, henforced⟩

/-- An entry with its comma, as often as it is repeated. -/
def manyTimes (n : Nat) : List UInt8 := (List.replicate n (ascii "example.org,")).flatten

theorem length_manyTimes (n : Nat) : (manyTimes n).length = 12 * n := by
  induction n with
  | zero => rfl
  | succ n ih =>
    have hsucc : manyTimes (n + 1) = ascii "example.org," ++ manyTimes n := rfl
    rw [hsucc, List.length_append, ih]
    change 12 + 12 * n = 12 * (n + 1)
    omega

theorem lists_manyTimes (n : Nat) (text : List UInt8)
    (h : foldCase (ascii "example.org") ≠ foldCase host) :
    Lists (manyTimes n ++ text) host ↔ Lists text host := by
  induction n with
  | zero => rfl
  | succ n ih =>
    have hsucc : manyTimes (n + 1) ++ text =
        ascii "example.org" ++ 0x2C :: (manyTimes n ++ text) := rfl
    have htrim : trim (ascii "example.org") = ascii "example.org" := by decide
    rw [hsucc, lists_comma _ _ (by decide), htrim, ih]
    exact or_iff_right h

/-- A list of 1026 bytes, whose last entry does not fit. -/
def longList : CString where
  bytes := manyTimes 84 ++ ascii "router.lan.example"
  nulFree := by
    intro h
    rcases List.mem_append.1 h with h | h
    · obtain ⟨entry, hentry, hzero⟩ := List.mem_flatten.1 h
      rw [List.eq_of_mem_replicate hentry] at hzero
      exact absurd hzero (by decide)
    · exact absurd h (by decide)

theorem take_longList :
    longList.bytes.take 1023 = manyTimes 84 ++ ascii "router.lan.exam" := by
  change (manyTimes 84 ++ ascii "router.lan.example").take 1023 = _
  rw [List.take_append, length_manyTimes, List.take_of_length_le (by rw [length_manyTimes]; decide)]
  rfl

theorem longList_not_enforced :
    longList.bytes ≠ [] ∧ longList.bytes ≠ ascii "*" ∧
    ¬ ∀ fuel served final, Conversation (fun _ => True) (serve fuel)
        (initSquidTcpContext (some longList) 0 0) served final →
      ∀ x ∈ served, Enforced longList.bytes x := by
  have hlength : longList.bytes.length = 1026 := by
    change (manyTimes 84 ++ ascii "router.lan.example").length = 1026
    rw [List.length_append, length_manyTimes]
    rfl
  have hnil : longList.bytes ≠ [] := by
    intro h
    rw [h] at hlength
    cases hlength
  have hstar : longList.bytes ≠ ascii "*" := by
    intro h
    rw [h] at hlength
    cases hlength
  have hdiffer : ¬ (Lists (longList.bytes.take 1023) (ascii "router.lan.example") ↔
      Lists longList.bytes (ascii "router.lan.example")) := by
    rw [take_longList, lists_manyTimes 84 _ (by decide)]
    change ¬ (_ ↔ Lists (manyTimes 84 ++ _) _)
    rw [lists_manyTimes 84 _ (by decide), lists_single (by decide), lists_single (by decide)]
    decide
  refine ⟨hnil, hstar, ?_⟩
  intro h
  obtain ⟨x, hx, hnot⟩ := exists_not_enforced hnil hstar 0 0 (by decide) hdiffer
  exact hnot (h 1 [x] x.after hx x List.mem_cons_self)

end SquidServer.TcpProxy

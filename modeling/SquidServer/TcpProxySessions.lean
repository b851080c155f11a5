import SquidServer.Handles
import SquidServer.Envelopes

namespace SquidServer.TcpProxy
open Interaction Handles Sockets Wire CText
open Posix (Fd Errno)
set_option autoImplicit true

/-- The sockets that an event opens and closes. -/
def sockets : Use Network Fd where
  opens e :=
    match e with
    | ⟨.socket _ _ _, .ok fd⟩ => some fd
    | _ => none
  closes e :=
    match e with
    | ⟨.close fd, _⟩ => some fd
    | _ => none

/-- The socket that a call is about. -/
def actsOn : Call → Option Fd
  | .getaddrinfo _ _ _ => none
  | .freeaddrinfo => none
  | .socket _ _ _ => none
  | .fcntlGetfl fd => some fd
  | .fcntlSetfl fd _ => some fd
  | .connect fd _ => some fd
  | .poll fd _ _ => some fd
  | .getsockoptError fd => some fd
  | .send fd _ => some fd
  | .recv fd _ => some fd
  | .close fd => some fd

/-- No call of a trace is about a socket. -/
def Untouched (fd : Fd) (t : List (Event Network)) : Prop := ∀ e ∈ t, actsOn e.op ≠ some fd

/-- How often a wait has been interrupted. -/
def interruptions (t : List (Event Network)) : Nat := (t.filter isInterrupted).length

@[simp] theorem interruptions_append (t u : List (Event Network)) :
    interruptions (t ++ u) = interruptions t + interruptions u := by
  simp [interruptions]

theorem Untouched.append (h : Untouched fd t) (h' : Untouched fd u) : Untouched fd (t ++ u) := by
  intro e he
  rcases List.mem_append.1 he with he | he
  · exact h e he
  · exact h' e he

/-- A trace uses no socket but one, and neither opens nor closes any. -/
def On (fd : Fd) (t : List (Event Network)) : Prop :=
  ∀ e ∈ t, (sockets.opens e = none ∧ sockets.closes e = none) ∧
    ∀ other, actsOn e.op = some other → other = fd

theorem On.append (h : On fd t) (h' : On fd u) : On fd (t ++ u) := by
  intro e he
  rcases List.mem_append.1 he with he | he
  · exact h e he
  · exact h' e he

theorem on_single (hopens : sockets.opens e = none) (hcloses : sockets.closes e = none)
    (h : ∀ other, actsOn e.op = some other → other = fd) : On fd [e] := by
  intro e' he'
  rw [List.mem_singleton.1 he']
  exact ⟨⟨hopens, hcloses⟩, h⟩

theorem On.keeps (h : On fd t) (held : List Fd) : Keeps sockets held t held :=
  Keeps.quiet held fun e he => (h e he).1

theorem On.untouched (h : On fd t) (hne : other ≠ fd) : Untouched other t :=
  fun e he ho => hne ((h e he).2 other ho)

/-- The loop of `wait_for_socket` only polls, and has no result only after as many interruptions as
it may make turns. -/
theorem waitForSocket_polls (fuel : Nat) (socketFd : Fd) (events timeoutMs : Nat) :
    Ensures (recording C) (waitForSocket fuel socketFd events timeoutMs)
      (fun r u => On socketFd u ∧ (r = none → fuel ≤ interruptions u)) [] := by
  refine ensures_loop (fun n _ u => On socketFd u ∧ fuel ≤ n + interruptions u) ?_ ?_
    ⟨by simp [On], by simp [interruptions]⟩
  · rintro _ u ⟨hon, hfuel⟩
    exact ⟨hon, fun _ => by omega⟩
  · rintro n _ u ⟨hon, hfuel⟩
    refine ensures_bind.2 (ensures_ask ?_)
    rintro result _ ⟨-, rfl⟩
    have hon' : On socketFd (u ++ [⟨Call.poll socketFd events timeoutMs, result⟩]) :=
      hon.append (on_single rfl rfl fun other h => (Option.some.inj h).symm)
    cases result with
    | error e =>
      dsimp only
      split
      · rename_i he
        refine ensures_pure.2 ⟨hon', ?_⟩
        rw [interruptions_append]
        have hone : interruptions [⟨Call.poll socketFd events timeoutMs, .error e⟩] = 1 := by
          simp [interruptions, isInterrupted, he]
        omega
      · exact ensures_pure.2 ⟨hon', fun h => by cases h⟩
    | ok result =>
      cases result with
      | none => exact ensures_pure.2 ⟨hon', fun h => by cases h⟩
      | some revents =>
        dsimp only
        split
        · exact ensures_pure.2 ⟨hon', fun h => by cases h⟩
        · exact ensures_pure.2 ⟨hon', fun h => by cases h⟩

/-- What becomes of a socket that has just been opened: it is connected or closed. -/
def Ends (fuel : Nat) (fd : Fd) (r : Option (Except Errno Fd)) (u : List (Event Network)) : Prop :=
  match r with
  | none => fuel ≤ interruptions u
  | some (.error _) => ∃ w left, u = w ++ [⟨Call.close fd, left⟩] ∧ On fd w
  | some (.ok fd') => fd' = fd ∧ On fd u

theorem Ends.after (h : Ends fuel fd r u) (hw : On fd w) : Ends fuel fd r (w ++ u) := by
  match r with
  | none =>
    have h : fuel ≤ interruptions u := h
    change fuel ≤ interruptions (w ++ u)
    rw [interruptions_append]
    omega
  | some (.error _) =>
    obtain ⟨w', left, rfl, hw'⟩ := h
    exact ⟨w ++ w', left, by rw [List.append_assoc], hw.append hw'⟩
  | some (.ok _) => exact ⟨h.1, hw.append h.2⟩

theorem closeFailed_ends (fuel : Nat) (socketFd : Fd) (e : Errno) :
    Ensures (recording C) ((closeFailed socketFd e).bind fun e => .pure (some (.error e)))
      (Ends fuel socketFd) [] := by
  refine ensures_recording_bind (P := fun _ u => ∃ left, u = [⟨Call.close socketFd, left⟩])
    (ensures_recording_bind (ensures_recording_ask (P := fun r u => u = [⟨_, r⟩]) fun _ _ => rfl)
      ?_) ?_
  · rintro left _ rfl
    cases left with
    | none => exact ensures_pure.2 ⟨none, rfl⟩
    | some e => exact ensures_pure.2 ⟨some e, rfl⟩
  · rintro e _ ⟨left, rfl⟩
    exact ensures_pure.2 ⟨[], left, rfl, by simp [On]⟩

theorem ensures_ends_bind {p : Program Network α} {f : α → Program Network _}
    (h : Ensures (recording C) p (fun _ u => On fd u) [])
    (h' : ∀ a, Ensures (recording C) (f a) (Ends fuel fd) []) :
    Ensures (recording C) (p.bind f) (Ends fuel fd) [] := by
  refine ensures_recording_bind h ?_
  intro a u hu
  exact (h' a).mono fun r v hv => hv.after hu

theorem setNonblocking_on (socketFd : Fd) :
    Ensures (recording C) (setNonblocking socketFd) (fun _ u => On socketFd u) [] := by
  refine ensures_recording_bind (P := fun _ u => On socketFd u) (ensures_recording_ask ?_) ?_
  · intro r _
    exact on_single rfl rfl fun other h => (Option.some.inj h).symm
  · intro r u hu
    cases r with
    | error e => exact ensures_pure.2 (by simpa using hu)
    | ok flags =>
      refine ensures_recording_ask ?_
      intro r _
      exact hu.append (on_single rfl rfl fun other h => (Option.some.inj h).symm)

/-- What a try to connect does beside the sockets that are open: it leaves one more of them, or
nothing. -/
def Tried (fuel : Nat) (held : List Fd) (r : Option (Except Errno Fd)) (u : List (Event Network)) :
    Prop :=
  match r with
  | none => fuel ≤ interruptions u
  | some (.error _) =>
    Keeps sockets held u held ∧ (Fresh sockets held u → ∀ fd ∈ held, Untouched fd u)
  | some (.ok fd) =>
    Keeps sockets held u (fd :: held) ∧ (Fresh sockets held u → fd ∉ held) ∧
      ∃ e ∈ u, sockets.opens e = some fd

theorem Ends.tried {e : Event Network} (h : Ends fuel fd r u) (hopens : sockets.opens e = some fd)
    (hcloses : sockets.closes e = none) (hacts : actsOn e.op = none) (held : List Fd) :
    Tried fuel held r ([e] ++ u) := by
  have hopened := Keeps.opened hopens hcloses held
  have hnew : ∀ v, Fresh sockets held ([e] ++ v) → fd ∉ held := by
    intro v hfresh
    exact (fresh_append.1 hfresh).1.1 fd hopens
  match r with
  | none =>
    have h : fuel ≤ interruptions u := h
    change fuel ≤ interruptions ([e] ++ u)
    rw [interruptions_append]
    omega
  | some (.error _) =>
    obtain ⟨w, left, rfl, hw⟩ := h
    have hclosed : Keeps sockets (fd :: held) [⟨Call.close fd, left⟩] held := by
      have herase := Keeps.closed (U := sockets) (e := ⟨Call.close fd, left⟩) (h := fd) rfl rfl
        (List.mem_cons_self (l := held))
      rwa [List.erase_cons_head] at herase
    refine ⟨hopened.append fun _ => (hw.keeps _).append fun _ => hclosed, ?_⟩
    intro hfresh other hother
    have hne : other ≠ fd := by
      rintro rfl
      exact hnew _ hfresh hother
    refine Untouched.append ?_ (Untouched.append (hw.untouched hne) ?_)
    · intro e' he' hacts'
      rw [List.mem_singleton.1 he', hacts] at hacts'
      cases hacts'
    · intro e' he' hacts'
      rw [List.mem_singleton.1 he'] at hacts'
      exact hne (Option.some.inj hacts').symm
  | some (.ok _) =>
    obtain ⟨rfl, hu⟩ := h
    exact ⟨hopened.append fun _ => hu.keeps _, hnew u, e, by simp, hopens⟩

theorem connectAddress_tried (fuel : Nat) (address : Address) (timeoutMs : UInt32)
    (held : List Fd) :
    Ensures (recording C) (connectAddress fuel address timeoutMs) (Tried fuel held) [] := by
  refine ensures_recording_bind
    (ensures_recording_ask (P := fun r u => u = [⟨_, r⟩]) fun _ _ => rfl) ?_
  rintro opened _ rfl
  cases opened with
  | error e =>
    refine ensures_pure.2 ⟨Keeps.quiet held (by simp [sockets]), ?_⟩
    intro _ fd _
    simp [Untouched, actsOn]
  | ok socketFd =>
    suffices h : Ensures (recording C) _ (Ends fuel socketFd) [] from
      h.mono fun r u hu => hu.tried rfl rfl rfl held
    refine ensures_ends_bind (setNonblocking_on socketFd) ?_
    intro nonblocking
    cases nonblocking with
    | error e => exact closeFailed_ends fuel socketFd e
    | ok _ =>
      refine ensures_ends_bind (ensures_recording_ask fun r _ =>
        on_single rfl rfl fun other h => (Option.some.inj h).symm) ?_
      intro result
      cases result with
      | ok _ => exact ensures_pure.2 ⟨rfl, by simp [On]⟩
      | error e =>
        dsimp only
        split
        · exact closeFailed_ends fuel socketFd e
        · refine ensures_recording_bind (waitForSocket_polls fuel socketFd _ _) ?_
          rintro outcome u ⟨hon, hnone⟩
          match outcome with
          | none => exact ensures_pure.2 (by simpa [Ends] using hnone rfl)
          | some .timeout =>
            exact (closeFailed_ends fuel socketFd _).mono fun r v hv => hv.after hon
          | some (.failed e) =>
            exact (closeFailed_ends fuel socketFd e).mono fun r v hv => hv.after hon
          | some .ready =>
            suffices h : Ensures (recording C) _ (Ends fuel socketFd) [] from
              h.mono fun r v hv => hv.after hon
            refine ensures_ends_bind (ensures_recording_ask fun r _ =>
              on_single rfl rfl fun other h => (Option.some.inj h).symm) ?_
            intro pending
            match pending with
            | .error e => exact closeFailed_ends fuel socketFd e
            | .ok (some e) => exact closeFailed_ends fuel socketFd e
            | .ok none => exact ensures_pure.2 ⟨rfl, by simp [On]⟩

theorem Tried.next (h : Tried fuel held (some (.error e)) u) (h' : Tried fuel held r v) :
    Tried fuel held r (u ++ v) := by
  obtain ⟨hkeeps, huntouched⟩ := h
  have hsplit : Fresh sockets held (u ++ v) → Fresh sockets held u ∧ Fresh sockets held v := by
    intro hfresh
    obtain ⟨hu, hv⟩ := fresh_append.1 hfresh
    rw [(hkeeps hu).1] at hv
    exact ⟨hu, hv⟩
  match r with
  | none =>
    have h' : fuel ≤ interruptions v := h'
    change fuel ≤ interruptions (u ++ v)
    rw [interruptions_append]
    omega
  | some (.error _) =>
    refine ⟨hkeeps.append fun _ => h'.1, ?_⟩
    intro hfresh fd hfd
    obtain ⟨hu, hv⟩ := hsplit hfresh
    exact (huntouched hu fd hfd).append (h'.2 hv fd hfd)
  | some (.ok fd) =>
    obtain ⟨hkeeps', hnew, e, he, hopens⟩ := h'
    refine ⟨hkeeps.append fun _ => hkeeps', fun hfresh => hnew (hsplit hfresh).2, e, ?_, hopens⟩
    exact List.mem_append_right u he

theorem connectAddresses_tried (fuel : Nat) (timeoutMs : UInt32) (held : List Fd)
    (addresses : List Address) (errno : Errno) :
    Ensures (recording C) (connectAddresses fuel timeoutMs addresses errno)
      (fun r u => Tried fuel held (r.map fun x => x.map Prod.fst) u) [] := by
  induction addresses generalizing errno with
  | nil => exact ensures_pure.2 ⟨Keeps.nil held, fun _ fd _ => by simp [Untouched]⟩
  | cons address rest ih =>
    rw [connectAddresses]
    refine ensures_recording_bind (connectAddress_tried fuel address timeoutMs held) ?_
    intro r u hu
    cases r with
    | none => exact ensures_pure.2 (by simpa using hu)
    | some connected =>
      cases connected with
      | ok connectedFd =>
        refine ensures_pure.2 ?_
        rw [List.append_nil]
        exact hu
      | error e => exact (ih e).mono fun r v hv => hu.next hv

theorem closeConnection_closes (context : SquidTcpContext) :
    Ensures (recording C) (closeConnection context) (fun r u =>
      r = { context with socketFd := none } ∧
      (∀ others, (∀ fd ∈ others, context.socketFd ≠ some fd) →
        Keeps sockets (others ++ context.socketFd.toList) u others) ∧
      ∀ fd, context.socketFd = some fd → ∃ e ∈ u, sockets.closes e = some fd) [] := by
  cases hsocket : context.socketFd with
  | none =>
    have hsame : closeConnection context = .pure context := by
      simp only [closeConnection, hsocket, Program.pure_eq]
    rw [hsame]
    refine ensures_pure.2 ⟨?_, ?_, fun fd h => by cases h⟩
    · rw [← hsocket]
    · intro others _
      rw [Option.toList_none, List.append_nil]
      exact Keeps.nil others
  | some socketFd =>
    have hclose : closeConnection context =
        (close socketFd).bind fun _ => .pure { context with socketFd := none } := by
      simp only [closeConnection, hsocket, Program.pure_eq, Program.bind_eq]
    rw [hclose]
    refine ensures_recording_bind
      (ensures_recording_ask (P := fun r u => u = [⟨_, r⟩]) fun _ _ => rfl) ?_
    rintro left _ rfl
    refine ensures_pure.2 ⟨rfl, ?_, ?_⟩
    · intro others hothers
      rw [List.append_nil, Option.toList_some]
      have hmem : socketFd ∉ others := fun h => hothers socketFd h rfl
      have herase := Keeps.closed (U := sockets) (e := ⟨Call.close socketFd, left⟩)
        (h := socketFd) rfl rfl (List.mem_append_right others (List.mem_singleton_self socketFd))
      rwa [List.erase_append_right _ hmem, List.erase_cons_head, List.append_nil] at herase
    · intro fd hfd
      exact ⟨⟨Call.close socketFd, left⟩, by simp, hfd⟩

/-- One request to the proxy, with a response buffer of 255 bytes. -/
abbrev Served := Exchange Network SquidTcpContext (List UInt8) Response

def serve (fuel : Nat) (context : SquidTcpContext) (request : List UInt8) :
    Program Network (Response × SquidTcpContext) :=
  handleSquidTcpRequest fuel context request 255

/-- The status byte of a reply. -/
def statusOf (reply : Response) : Option UInt8 := reply.bind (·[1]?)

/-- A READ answer that reports the end of the stream. -/
def reportsEof (reply : Response) : Bool :=
  match reply with
  | some (_ :: status :: flags :: _) =>
    status = SquidTcpStatus.ok.code ∧ flags &&& squidTcpReadEof ≠ 0
  | _ => false

/-- READ or WRITE tells that the connection is lost. -/
def ReportsLoss (request : List UInt8) (reply : Response) : Prop :=
  statusOf reply = some SquidTcpStatus.ioError.code ∨
    request.head? = some squidTcpOpRead ∧ reportsEof reply

/-- A WRITE request for some data, or a READ request that waits no longer than it may. -/
inductive WellFormed : List UInt8 → Prop
  | write (data : List UInt8) : data ≠ [] → data.length ≤ 255 →
      WellFormed (squidTcpOpWrite :: countedText data)
  | read (waitMs : UInt16) (maximumBytes : UInt8) : waitMs ≤ squidTcpReadWaitMaxMs →
      WellFormed ([squidTcpOpRead] ++ writeU16 waitMs ++ [maximumBytes])

/-- A CONNECT request that fails leaves the connection and its stream alone; one that succeeds puts
a new socket in its place. -/
structure ConnectIsExact (x : Served) : Prop where
  replies : x.reply ≠ none
  refused : statusOf x.reply ≠ some SquidTcpStatus.ok.code →
    x.after = x.before ∧ ∀ fd, x.before.socketFd = some fd → Untouched fd x.events
  installed : statusOf x.reply = some SquidTcpStatus.ok.code →
    ∃ fd, x.after = { x.before with socketFd := some fd } ∧
      (∃ e ∈ x.events, sockets.opens e = some fd) ∧
      ∀ old, x.before.socketFd = some old →
        old ≠ fd ∧ ∃ e ∈ x.events, sockets.closes e = some old

/-- READ and WRITE lose the connection exactly where they say so. -/
structure UseIsExact (x : Served) : Prop where
  replies : x.reply ≠ none
  lost : ReportsLoss x.request x.reply → x.after = { x.before with socketFd := none }
  kept : ¬ ReportsLoss x.request x.reply → x.after = x.before
  notConnected : WellFormed x.request →
    (statusOf x.reply = some SquidTcpStatus.notConnected.code ↔ x.before.socketFd = none)

/-- The state machine of the proxy, for one request. -/
structure StepIsExact (x : Served) : Prop where
  connect : x.request.head? = some squidTcpOpConnect → ConnectIsExact x
  use : x.request.head? = some squidTcpOpWrite ∨ x.request.head? = some squidTcpOpRead →
    UseIsExact x
  close : x.request = [squidTcpOpClose] →
    statusOf x.reply = some SquidTcpStatus.ok.code ∧ x.after = { x.before with socketFd := none }
  status : x.request = [squidTcpOpStatus] →
    x.reply = some [squidTcpOpStatus ||| squidTcpResponseBit, SquidTcpStatus.ok.code,
      if x.before.socketFd.isSome then 1 else 0]
  other : x.request.head? ≠ some squidTcpOpConnect → x.request.head? ≠ some squidTcpOpWrite →
    x.request.head? ≠ some squidTcpOpRead → x.request ≠ [squidTcpOpClose] →
    x.after = x.before ∧ x.events = []

theorem statusOf_writeStatus_ne (opcode : UInt8) {status other : SquidTcpStatus}
    (h : status.code ≠ other.code) :
    statusOf (writeStatus opcode status 255) ≠ some other.code :=
  fun h' => h (Option.some.inj h')

/-- What the sockets of the proxy are, after a request that was not interrupted too often. -/
def Serves (fuel : Nat) (P : Served → Prop) (context : SquidTcpContext) (request : List UInt8)
    (r : Response × SquidTcpContext) (u : List (Event Network)) : Prop :=
  interruptions u < fuel →
    Keeps sockets context.socketFd.toList u r.2.socketFd.toList ∧
      (Fresh sockets context.socketFd.toList u → P ⟨context, request, u, r.1, r.2⟩)

theorem serves_refused (request : List UInt8)
    (hkeeps : Keeps sockets context.socketFd.toList u context.socketFd.toList)
    (huntouched : Fresh sockets context.socketFd.toList u →
      ∀ fd ∈ context.socketFd.toList, Untouched fd u)
    (opcode : UInt8) (hstatus : status ≠ .ok) :
    Serves fuel ConnectIsExact context request (writeStatus opcode status 255, context) u := by
  have hcode : status.code ≠ SquidTcpStatus.ok.code := by
    cases status <;> first | exact absurd rfl hstatus | decide
  intro _
  refine ⟨hkeeps, ?_⟩
  intro hfresh
  constructor
  case replies => simp [writeStatus]
  case refused =>
    intro _
    refine ⟨rfl, ?_⟩
    intro fd hfd
    exact huntouched hfresh fd (by rw [hfd]; simp)
  case installed =>
    intro hok
    exact absurd hok (statusOf_writeStatus_ne opcode hcode)

theorem answerConnect_serves (fuel : Nat) (context : SquidTcpContext) (request : List UInt8)
    (opcode : UInt8) (connected : Except Errno (Fd × Family))
    (htried : Tried fuel context.socketFd.toList (some (connected.map Prod.fst)) u) :
    Ensures (recording C) (answerConnect context opcode connected 255)
      (fun r v => Serves fuel ConnectIsExact context request r (u ++ v)) [] := by
  cases connected with
  | error errno =>
    refine ensures_pure.2 ?_
    rw [List.append_nil]
    refine serves_refused request htried.1 htried.2 opcode ?_
    split
    · decide
    · decide
  | ok connected =>
    obtain ⟨connectedFd, family⟩ := connected
    obtain ⟨hkeeps, hnew, e, he, hopens⟩ := htried
    rw [answerConnect, if_neg (by decide)]
    refine ensures_recording_bind (closeConnection_closes context) ?_
    rintro _ v ⟨rfl, hcloses, hold⟩
    refine ensures_pure.2 ?_
    rw [List.append_nil]
    have hne : Fresh sockets context.socketFd.toList u →
        ∀ fd ∈ [connectedFd], context.socketFd ≠ some fd := by
      intro hfresh fd hfd hsocket
      rw [List.mem_singleton.1 hfd] at hsocket
      exact hnew hfresh (by rw [hsocket]; simp)
    intro _
    refine ⟨hkeeps.append fun hfresh => hcloses [connectedFd] (hne hfresh), ?_⟩
    intro hfresh
    constructor
    case replies => simp
    case refused =>
      intro hstatus
      exact absurd rfl hstatus
    case installed =>
      intro _
      refine ⟨connectedFd, rfl, ⟨e, List.mem_append_left v he, hopens⟩, ?_⟩
      intro old holdfd
      obtain ⟨e', he', hcloses'⟩ := hold old holdfd
      refine ⟨?_, e', List.mem_append_right u he', hcloses'⟩
      rintro rfl
      exact hne (fresh_append.1 hfresh).1 old (List.mem_singleton_self old) holdfd

theorem Tried.lookedUp {connected : Except Errno (Fd × Family)}
    (h : Tried fuel held (some (connected.map Prod.fst)) u) (host service : List UInt8)
    (hints : Hints) (lookup : Lookup) (changed : Option Errno) (f : Errno → Errno) :
    Tried fuel held (some ((connected.mapError f).map Prod.fst))
      ([⟨Call.getaddrinfo host service hints, lookup⟩] ++
        (u ++ [⟨Call.freeaddrinfo, changed⟩])) := by
  have hbefore : Tried fuel held (some (.error .eio))
      [⟨Call.getaddrinfo host service hints, lookup⟩] :=
    ⟨Keeps.quiet held (by simp [sockets]), fun _ fd _ => by simp [Untouched, actsOn]⟩
  refine hbefore.next ?_
  cases connected with
  | error e =>
    refine ⟨h.1.append fun _ => Keeps.quiet held (by simp [sockets]), ?_⟩
    intro hfresh fd hfd
    exact (h.2 (fresh_append.1 hfresh).1 fd hfd).append (by simp [Untouched, actsOn])
  | ok fd =>
    obtain ⟨hkeeps, hnew, e, he, hopens⟩ := h
    refine ⟨hkeeps.append fun _ => Keeps.quiet _ (by simp [sockets]), ?_, ?_⟩
    · intro hfresh
      exact hnew (fresh_append.1 hfresh).1
    · exact ⟨e, List.mem_append_left _ he, hopens⟩

theorem handleConnect_serves (fuel : Nat) (context : SquidTcpContext) (opcode : UInt8)
    (request : List UInt8) :
    Ensures (recording C) (handleConnect fuel context opcode request 255)
      (Serves fuel ConnectIsExact context request) [] := by
  have hnothing : ∀ status, status ≠ .ok → Serves fuel ConnectIsExact context request
      (writeStatus opcode status 255, context) [] :=
    fun status h =>
      serves_refused request (Keeps.nil _) (fun _ fd _ => by simp [Untouched]) opcode h
  rw [handleConnect]
  split
  · exact ensures_pure.2 (hnothing _ (by decide))
  · rename_i port host _
    split
    · exact ensures_pure.2 (hnothing _ (by decide))
    · refine ensures_recording_bind
        (ensures_recording_ask (P := fun r u => u = [⟨_, r⟩]) fun _ _ => rfl) ?_
      rintro lookup _ rfl
      split
      · refine ensures_pure.2 (serves_refused request (Keeps.quiet _ (by simp [sockets])) ?_ opcode
          (by decide))
        intro _ fd _
        simp [Untouched, actsOn]
      · refine ensures_recording_bind
          (connectAddresses_tried fuel _ context.socketFd.toList _ _) ?_
        intro r u htried
        cases r with
        | none =>
          refine ensures_pure.2 ?_
          intro hsignals
          have htried : fuel ≤ interruptions u := htried
          simp only [interruptions_append, List.append_nil] at hsignals
          omega
        | some connected =>
          refine ensures_recording_bind
            (ensures_recording_ask (P := fun r u => u = [⟨_, r⟩]) fun _ _ => rfl) ?_
          rintro changed _ rfl
          refine (answerConnect_serves fuel context request opcode _
            (Tried.lookedUp htried host (ascii (toString port.toNat)) connectHints lookup
              changed _)).mono ?_
          intro r v hv
          simpa only [List.append_assoc] using hv

theorem serves_kept (hkeeps : Keeps sockets context.socketFd.toList u context.socketFd.toList)
    (hreply : reply ≠ none) (hloss : ¬ ReportsLoss request reply)
    (hstatus : WellFormed request →
      (statusOf reply = some SquidTcpStatus.notConnected.code ↔ context.socketFd = none)) :
    Serves fuel UseIsExact context request (reply, context) u := by
  intro _
  refine ⟨hkeeps, ?_⟩
  intro _
  exact ⟨hreply, fun h => absurd h hloss, fun _ => rfl, hstatus⟩

theorem closeConnection_serves
    (hkeeps : Keeps sockets context.socketFd.toList u context.socketFd.toList)
    (hsocket : context.socketFd = some socketFd) (hreply : reply ≠ none)
    (hloss : ReportsLoss request reply)
    (hstatus : statusOf reply ≠ some SquidTcpStatus.notConnected.code) :
    Ensures (recording C) ((closeConnection context).bind fun c => .pure (reply, c))
      (fun r v => Serves fuel UseIsExact context request r (u ++ v)) [] := by
  refine ensures_recording_bind (closeConnection_closes context) ?_
  rintro _ v ⟨rfl, hcloses, -⟩
  refine ensures_pure.2 ?_
  rw [List.append_nil]
  intro _
  have hclosed := hcloses [] (by simp)
  refine ⟨hkeeps.append fun _ => hclosed, ?_⟩
  intro _
  refine ⟨hreply, fun _ => rfl, fun h => absurd hloss h, ?_⟩
  intro _
  constructor
  · intro h
    exact absurd h hstatus
  · intro h
    cases hsocket.symm.trans h

theorem ioError_serves (hon : On socketFd u) (hsocket : context.socketFd = some socketFd) :
    Ensures (recording C)
      ((closeConnection context).bind fun c => .pure (writeStatus opcode .ioError 255, c))
      (fun r v => Serves fuel UseIsExact context request r (u ++ v)) [] :=
  closeConnection_serves (hon.keeps _) hsocket (by simp [writeStatus]) (.inl rfl)
    (statusOf_writeStatus_ne opcode (by decide))

theorem not_reportsLoss_writeStatus (request : List UInt8) (opcode : UInt8)
    (h : status.code ≠ SquidTcpStatus.ioError.code) :
    ¬ ReportsLoss request (writeStatus opcode status 255) := by
  rintro (hstatus | ⟨-, heof⟩)
  · exact statusOf_writeStatus_ne opcode h hstatus
  · cases heof

theorem WellFormed.parseWrite_ne_none (h : WellFormed request)
    (hop : request.head? = some squidTcpOpWrite) : parseWrite request ≠ none := by
  cases h with
  | write data hdata hsize =>
    have hcount : (UInt8.ofNat data.length).toNat = data.length := UInt8.toNat_ofNat_of_lt' (by
      exact Nat.lt_succ_of_le hsize)
    have hpos : 0 < data.length := List.length_pos_iff.2 hdata
    have hzero : UInt8.ofNat data.length ≠ 0 := by
      intro h
      rw [h] at hcount
      exact absurd hcount (by simp; omega)
    have hbyte : byteAt (squidTcpOpWrite :: countedText data) 1 = UInt8.ofNat data.length := rfl
    rw [parseWrite, hbyte, hcount, if_neg]
    · exact Option.some_ne_none _
    · rintro (h | h | h)
      · simp only [countedText, List.length_cons] at h
        omega
      · exact h (by simp [countedText])
      · exact hzero h
  | read waitMs maximumBytes hwait => cases hop

theorem handleWrite_serves (fuel : Nat) (context : SquidTcpContext) (opcode : UInt8)
    (request : List UInt8) (hop : request.head? = some squidTcpOpWrite) :
    Ensures (recording C) (handleWrite fuel context opcode request 255)
      (Serves fuel UseIsExact context request) [] := by
  rw [handleWrite]
  split
  · rename_i hparse
    refine ensures_pure.2 (serves_kept (Keeps.nil _) (by simp [writeStatus])
      (not_reportsLoss_writeStatus request opcode (by decide)) ?_)
    intro hwell
    exact absurd hparse (hwell.parseWrite_ne_none hop)
  · split
    · rename_i data _ _ hsocket
      refine ensures_pure.2 (serves_kept (Keeps.nil _) (by simp [writeStatus])
        (not_reportsLoss_writeStatus request opcode (by decide)) ?_)
      intro _
      exact ⟨fun _ => hsocket, fun _ => rfl⟩
    · rename_i data _ _ socketFd hsocket
      have hconnected : ∀ reply : Response,
          statusOf reply ≠ some SquidTcpStatus.notConnected.code → WellFormed request →
          (statusOf reply = some SquidTcpStatus.notConnected.code ↔ context.socketFd = none) := by
        intro reply hreply _
        rw [hsocket]
        exact ⟨fun h => absurd h hreply, fun h => by cases h⟩
      refine ensures_recording_bind (waitForSocket_polls fuel socketFd _ _) ?_
      rintro outcome u ⟨hon, hnone⟩
      have htimeout : ∀ v, On socketFd v →
          Serves fuel UseIsExact context request (writeStatus opcode .timeout 255, context) v :=
        fun v hv => serves_kept (hv.keeps _) (by simp [writeStatus])
          (not_reportsLoss_writeStatus request opcode (by decide))
          (hconnected _ (statusOf_writeStatus_ne opcode (by decide)))
      cases outcome with
      | none =>
        refine ensures_pure.2 ?_
        intro hsignals
        rw [List.append_nil] at hsignals
        exact absurd hsignals (Nat.not_lt.2 (hnone rfl))
      | some outcome =>
        cases outcome with
        | timeout =>
          refine ensures_pure.2 ?_
          rw [List.append_nil]
          exact htimeout u hon
        | failed e => exact ioError_serves hon hsocket
        | ready =>
          refine ensures_recording_bind
            (ensures_recording_ask (P := fun r u => u = [⟨_, r⟩]) fun _ _ => rfl) ?_
          rintro sent _ rfl
          have hon' : On socketFd (u ++ [⟨Call.send socketFd data, sent⟩]) :=
            hon.append (on_single rfl rfl fun other h => (Option.some.inj h).symm)
          simp only [← List.append_assoc]
          split
          · refine ensures_pure.2 ?_
            rw [List.append_nil]
            exact htimeout _ hon'
          · exact ioError_serves hon' hsocket
          · exact ioError_serves hon' hsocket
          · rw [if_neg (by decide)]
            refine ensures_pure.2 ?_
            rw [List.append_nil]
            refine serves_kept (hon'.keeps _) (by simp) ?_
              (hconnected _ (by simp [statusOf]; decide))
            rintro (hstatus | ⟨hread, -⟩)
            · cases hstatus
            · cases hop.symm.trans hread

theorem readSocket_serves (fuel : Nat) (context : SquidTcpContext) (opcode : UInt8)
    (request : List UInt8) (hop : request.head? = some squidTcpOpRead)
    (hsocket : context.socketFd = some socketFd) (waitMs : UInt16) (maximumBytes : UInt8) :
    Ensures (recording C) (readSocket fuel context opcode socketFd waitMs maximumBytes 255)
      (Serves fuel UseIsExact context request) [] := by
  refine ensures_recording_bind (waitForSocket_polls fuel socketFd _ _) ?_
  rintro outcome u ⟨hon, hnone⟩
  have hkept : ∀ v data, On socketFd v →
      Serves fuel UseIsExact context request (some (readResponse opcode 0 data), context) v := by
    intro v data hv
    refine serves_kept (hv.keeps _) (by simp) ?_ ?_
    · rintro (hstatus | ⟨-, heof⟩)
      · cases hstatus
      · cases heof
    · intro _
      rw [hsocket]
      constructor
      · intro h
        cases h
      · intro h
        cases h
  match outcome with
  | none =>
    refine ensures_pure.2 ?_
    intro hsignals
    rw [List.append_nil] at hsignals
    exact absurd hsignals (Nat.not_lt.2 (hnone rfl))
  | some .timeout =>
    refine ensures_pure.2 ?_
    rw [List.append_nil]
    exact hkept u [] hon
  | some (.failed e) => exact ioError_serves hon hsocket
  | some .ready =>
    refine ensures_recording_bind
      (ensures_recording_ask (P := fun r u => u = [⟨_, r⟩]) fun _ _ => rfl) ?_
    rintro received _ rfl
    have hon' : On socketFd (u ++ [⟨Call.recv socketFd (readDataCapacity 255 maximumBytes.toNat),
        received⟩]) :=
      hon.append (on_single rfl rfl fun other h => (Option.some.inj h).symm)
    simp only [← List.append_assoc]
    split
    · exact closeConnection_serves (hon'.keeps _) hsocket (by simp) (.inr ⟨hop, rfl⟩)
        (fun h => by cases h)
    · refine ensures_pure.2 ?_
      rw [List.append_nil]
      exact hkept _ _ hon'
    · refine ensures_pure.2 ?_
      rw [List.append_nil]
      exact hkept _ [] hon'
    · exact ioError_serves hon' hsocket

theorem WellFormed.read_request (h : WellFormed request)
    (hop : request.head? = some squidTcpOpRead) :
    request.length = 4 ∧ ¬ squidTcpReadWaitMaxMs < readU16 request 1 := by
  cases h with
  | write data hdata hsize => cases hop
  | read waitMs maximumBytes hwait =>
    refine ⟨rfl, ?_⟩
    have hread := readU16_writeU16 [squidTcpOpRead] waitMs [maximumBytes]
    rw [List.length_singleton] at hread
    rw [hread]
    exact UInt16.not_lt.2 hwait

theorem handleRead_serves (fuel : Nat) (context : SquidTcpContext) (opcode : UInt8)
    (request : List UInt8) (hop : request.head? = some squidTcpOpRead) :
    Ensures (recording C) (handleRead fuel context opcode request 255)
      (Serves fuel UseIsExact context request) [] := by
  have hbad : ¬ WellFormed request →
      Serves fuel UseIsExact context request (writeStatus opcode .badRequest 255, context) [] :=
    fun hwell => serves_kept (Keeps.nil _) (by simp [writeStatus])
      (not_reportsLoss_writeStatus request opcode (by decide)) fun h => absurd h hwell
  rw [handleRead]
  split
  · rename_i hsize
    exact ensures_pure.2 (hbad fun h => hsize (h.read_request hop).1)
  · split
    · rename_i hsocket
      refine ensures_pure.2 (serves_kept (Keeps.nil _) (by simp [writeStatus])
        (not_reportsLoss_writeStatus request opcode (by decide)) ?_)
      intro _
      exact ⟨fun _ => hsocket, fun _ => rfl⟩
    · rename_i socketFd hsocket
      rw [if_neg (by decide)]
      dsimp only
      split
      · rename_i hwait
        exact ensures_pure.2 (hbad fun h => (h.read_request hop).2 hwait)
      · exact readSocket_serves fuel context opcode request hop hsocket _ _

theorem Serves.mono (h : Serves fuel P context request r u)
    (hP : ∀ x : Served, x.request = request → P x → Q x) :
    Serves fuel Q context request r u := by
  intro hsignals
  obtain ⟨hkeeps, hx⟩ := h hsignals
  exact ⟨hkeeps, fun hfresh => hP _ rfl (hx hfresh)⟩

theorem ConnectIsExact.step (h : ConnectIsExact x)
    (hop : x.request.head? = some squidTcpOpConnect) : StepIsExact x := by
  constructor
  case connect => exact fun _ => h
  case use =>
    rintro (h' | h')
    · cases hop.symm.trans h'
    · cases hop.symm.trans h'
  case close =>
    intro h'
    rw [h'] at hop
    cases hop
  case status =>
    intro h'
    rw [h'] at hop
    cases hop
  case other => exact fun h' => absurd hop h'

theorem UseIsExact.step (h : UseIsExact x)
    (hop : x.request.head? = some squidTcpOpWrite ∨ x.request.head? = some squidTcpOpRead) :
    StepIsExact x := by
  have hhead : ∀ opcode, opcode ≠ squidTcpOpWrite → opcode ≠ squidTcpOpRead →
      x.request.head? ≠ some opcode := by
    intro opcode hwrite hread h'
    rw [h'] at hop
    exact hop.elim (fun h => hwrite (Option.some.inj h)) fun h => hread (Option.some.inj h)
  constructor
  case connect => exact fun h' => absurd h' (hhead _ (by decide) (by decide))
  case use => exact fun _ => h
  case close =>
    intro h'
    exact absurd (congrArg List.head? h') (hhead _ (by decide) (by decide))
  case status =>
    intro h'
    exact absurd (congrArg List.head? h') (hhead _ (by decide) (by decide))
  case other =>
    intro _ hwrite hread
    exact absurd hop (not_or.2 ⟨hwrite, hread⟩)

theorem serves_idle (hconnect : request.head? ≠ some squidTcpOpConnect)
    (hwrite : request.head? ≠ some squidTcpOpWrite) (hread : request.head? ≠ some squidTcpOpRead)
    (hclose : request ≠ [squidTcpOpClose])
    (hstatus : request = [squidTcpOpStatus] → reply = handleStatus context squidTcpOpStatus 255) :
    Serves fuel StepIsExact context request (reply, context) [] := by
  intro _
  refine ⟨Keeps.nil _, ?_⟩
  intro _
  constructor
  case connect => exact fun h => absurd h hconnect
  case use => exact fun h => absurd h (not_or.2 ⟨hwrite, hread⟩)
  case close => exact fun h => absurd h hclose
  case status => exact hstatus
  case other => exact fun _ _ _ _ => ⟨rfl, rfl⟩

theorem serves_close (fuel : Nat) (context : SquidTcpContext) :
    Ensures (recording C)
      ((closeConnection context).bind fun c => .pure (writeStatus squidTcpOpClose .ok 255, c))
      (Serves fuel StepIsExact context [squidTcpOpClose]) [] := by
  refine ensures_recording_bind (closeConnection_closes context) ?_
  rintro _ u ⟨rfl, hcloses, -⟩
  refine ensures_pure.2 ?_
  rw [List.append_nil]
  intro _
  refine ⟨hcloses [] (by simp), ?_⟩
  intro _
  constructor
  case connect => exact fun h => by cases h
  case use => exact fun h => by rcases h with h | h <;> cases h
  case close => exact fun _ => ⟨rfl, rfl⟩
  case status => exact fun h => by cases h
  case other => exact fun _ _ _ h => absurd rfl h

/-- What one request does to the connection. -/
theorem serve_exact (fuel : Nat) (context : SquidTcpContext) (request : List UInt8) :
    Ensures (recording C) (serve fuel context request)
      (Serves fuel StepIsExact context request) [] := by
  rw [serve]
  cases request with
  | nil => exact ensures_pure.2 (serves_idle (by simp) (by simp) (by simp) (by simp) (by simp))
  | cons opcode rest =>
    rw [handleSquidTcpRequest, if_neg (by decide)]
    by_cases hconnect : opcode = squidTcpOpConnect
    · subst hconnect
      refine (handleConnect_serves fuel context _ _).mono ?_
      intro r u h
      exact h.mono fun x hx h => h.step (by rw [hx]; rfl)
    by_cases hwrite : opcode = squidTcpOpWrite
    · subst hwrite
      refine (handleWrite_serves fuel context _ _ rfl).mono ?_
      intro r u h
      exact h.mono fun x hx h => h.step (.inl (by rw [hx]; rfl))
    by_cases hread : opcode = squidTcpOpRead
    · subst hread
      refine (handleRead_serves fuel context _ _ rfl).mono ?_
      intro r u h
      exact h.mono fun x hx h => h.step (.inr (by rw [hx]; rfl))
    have hidle : ∀ reply, opcode :: rest ≠ [squidTcpOpClose] →
        (opcode :: rest = [squidTcpOpStatus] →
          reply = handleStatus context squidTcpOpStatus 255) →
        Serves fuel StepIsExact context (opcode :: rest) (reply, context) [] :=
      fun reply => serves_idle (by simpa using hconnect) (by simpa using hwrite)
        (by simpa using hread)
    rw [if_neg hconnect, if_neg hwrite, if_neg hread]
    split
    · rename_i hop
      subst hop
      split
      · exact ensures_pure.2 (hidle _ (fun h => by cases h) (fun h => by cases h))
      · exact ensures_pure.2 (hidle _ (fun h => by cases h) (fun h => by cases h))
    · split
      · rename_i hop
        subst hop
        split
        · rename_i hsize
          refine ensures_pure.2 (hidle _ ?_ (fun h => by cases h))
          intro h
          exact hsize (congrArg List.length h)
        · rename_i hsize
          obtain rfl : rest = [] := by simpa using hsize
          exact serves_close fuel context
      · rename_i hclose
        have hne : opcode :: rest ≠ [squidTcpOpClose] := fun h => hclose (List.cons.inj h).1
        split
        · rename_i hop
          subst hop
          split
          · rename_i hsize
            exact ensures_pure.2 (hidle _ hne fun h => absurd (congrArg List.length h) hsize)
          · exact ensures_pure.2 (hidle _ hne fun _ => rfl)
        · rename_i hstatus
          exact ensures_pure.2 (hidle _ hne fun h => absurd (List.cons.inj h).1 hstatus)

/-- The proxy owns at most one socket, the one of its context, and never closes a socket twice; and
every request does to the connection exactly what it says. The names of new sockets are not in use,
and no wait is interrupted more often than its loop may turn. -/
theorem socket_ownership (allowedHosts : Option CString) (connectTimeoutMs writeTimeoutMs : UInt32)
    (fuel : Nat) (served : List Served) (final : SquidTcpContext)
    (h : Conversation (fun _ => True) (serve fuel)
      (initSquidTcpContext allowedHosts connectTimeoutMs writeTimeoutMs) served final)
    (hfresh : Fresh sockets [] (served.flatMap (·.events)))
    (hsignals : ∀ x ∈ served, interruptions x.events < fuel) :
    ClosesOnce sockets [] (served.flatMap (·.events)) ∧
    ∀ prior x later, served = prior ++ x :: later →
      openAfter sockets [] (prior.flatMap (·.events)) = x.before.socketFd.toList ∧
      openAfter sockets [] ((prior ++ [x]).flatMap (·.events)) = x.after.socketFd.toList ∧
      StepIsExact x := by
  obtain ⟨hcloses, hall⟩ := keeps_conversation (U := sockets)
    (fun context : SquidTcpContext => context.socketFd.toList) h
    (fun x hx he => (serve_exact fuel x.before x.request _ _ he (hsignals x hx)).1) hfresh
  refine ⟨hcloses, ?_⟩
  intro prior x later hserved
  obtain ⟨he, hnew, hbefore, hafter⟩ := hall prior x later hserved
  have hx : x ∈ served := by
    rw [hserved]
    simp
  exact ⟨hbefore, hafter, (serve_exact fuel x.before x.request _ _ he (hsignals x hx)).2 hnew⟩

/-- A connection to a host that hangs up at once: CONNECT, then READ, then WRITE. -/
def hangUp : List Served :=
  let context := initSquidTcpContext none 0 0
  let connected := { context with socketFd := some 3 }
  [{ before := context
     request := [squidTcpOpConnect, 7, 0, 1, 0x61]
     events := [
       ⟨Call.getaddrinfo (ascii "a") (ascii "7") connectHints,
         Lookup.mk (.ok [Address.mk .inet sockStream ipprotoTcp []]) .eio⟩,
       ⟨Call.socket .inet sockStream ipprotoTcp, Except.ok 3⟩,
       ⟨Call.fcntlGetfl 3, Except.ok 0⟩,
       ⟨Call.fcntlSetfl 3 oNonblock, Except.ok ()⟩,
       ⟨Call.connect 3 [], Except.ok ()⟩,
       ⟨Call.freeaddrinfo, none⟩]
     reply := some [0x81, 0, squidTcpFamilyIpv4]
     after := connected },
   { before := connected
     request := [squidTcpOpRead, 0, 0, 0]
     events := [
       ⟨Call.poll 3 pollIn 0, Except.ok (some pollIn)⟩,
       ⟨Call.recv 3 251, Except.ok []⟩,
       ⟨Call.close 3, none⟩]
     reply := some [0x83, 0, squidTcpReadEof, 0]
     after := context },
   { before := context
     request := [squidTcpOpWrite, 1, 9]
     events := []
     reply := some [0x82, 2]
     after := context }]

theorem conversation_hangUp : Conversation (fun _ => True) (serve 1)
    (initSquidTcpContext none 0 0) hangUp (initSquidTcpContext none 0 0) := by
  have hexec : ∀ x ∈ hangUp, Exec (recording fun _ => True) [] (serve 1 x.before x.request)
      x.events (x.reply, x.after) := by
    intro x hx
    have hreplay : (serve 1 x.before x.request).replay x.events = some (x.reply, x.after) := by
      revert x
      simp only [hangUp, List.forall_mem_cons]
      exact ⟨rfl, rfl, rfl, by simp⟩
    exact exec_of_replay hreplay (steps_recording (fun _ _ => trivial) [])
  exact .cons (hexec _ List.mem_cons_self)
    (.cons (hexec _ (List.mem_cons_of_mem _ List.mem_cons_self))
      (.cons (hexec _ (List.mem_cons_of_mem _ (List.mem_cons_of_mem _ List.mem_cons_self)))
        (.nil _)))

theorem socket_ownership_hangUp :
    Fresh sockets [] (hangUp.flatMap (·.events)) ∧
    (∀ x ∈ hangUp, interruptions x.events < 1) ∧
    ClosesOnce sockets [] (hangUp.flatMap (·.events)) := by
  have hfresh : Fresh sockets [] (hangUp.flatMap (·.events)) := by
    simp [hangUp, Fresh, Use.step, sockets]
  have hsignals : ∀ x ∈ hangUp, interruptions x.events < 1 := by
    simp [hangUp, interruptions, isInterrupted]
  exact ⟨hfresh, hsignals,
    (socket_ownership none 0 0 1 hangUp _ conversation_hangUp hfresh hsignals).1⟩

end SquidServer.TcpProxy

import SquidServer.ServerHost

namespace SquidServer.Server
open Interaction Leases PluginConfig Posix
open SquidServer.SerialTransport (ServerSerialTransport flushOutput mapBaudRate pollErr pollHup
  pollIn pollNval pollTurn serialTransportTxCapacity serialTransportWait)
set_option autoImplicit true

abbrev localTransportSocketPathMax : Nat := 108

structure ServerLocalTransport where
  listenFd : Int
  clientFd : Int
  socketPath : Buffer localTransportSocketPathMax

def localTransportListen (transport : ServerLocalTransport) (socketPath : List UInt8) :
    Program Host (Int × ServerLocalTransport) :=
  if h : socketPath.length < localTransportSocketPathMax then do
    let transport : ServerLocalTransport := ⟨-1, -1, ⟨socketPath, h⟩⟩
    let fd ← call .socket
    if fd < 0 then return (-1, transport)
    else
      -- A stale socket file is removed so that bind does not fail.
      let _ ← call (.unlink socketPath)
      if (← call (.bind fd socketPath)) ≠ 0 then
        let _ ← call (.close fd)
        return (-1, transport)
      else if (← call (.listen fd)) ≠ 0 then
        let _ ← call (.close fd)
        let _ ← call (.unlink socketPath)
        return (-1, transport)
      else return (0, { transport with listenFd := fd })
  else return (-1, transport)

def localTransportAccept (transport : ServerLocalTransport) :
    Program Host (Int × ServerLocalTransport) := do
  if transport.listenFd < 0 then return (-1, transport)
  else
    let fd ← call (.accept transport.listenFd)
    if fd < 0 then return (-1, transport)
    else return (0, { transport with clientFd := fd })

/-- `none` when the loop over `poll` is cut off. -/
def localTransportWait (fuel : Nat) (transport : ServerLocalTransport) (timeoutMs : Int) :
    Program Host (Option Int) := do
  if transport.clientFd < 0 then return some (-1)
  else
    match ← fromTty (.loop (fun _ => pollTurn transport.clientFd pollIn timeoutMs) fuel ()) with
    | none => return none
    | some (.error _) => return some (-1)
    | some (.ok none) => return some 0
    | some (.ok (some revents)) =>
      if revents &&& (pollErr ||| pollHup ||| pollNval) ≠ 0 then return some (-1)
      else return some 1

/-- The first half of `local_transport_close`. -/
def closeClient (transport : ServerLocalTransport) : Program Host ServerLocalTransport := do
  if 0 ≤ transport.clientFd then
    let _ ← call (.close transport.clientFd)
    return { transport with clientFd := -1 }
  else return transport

def localTransportClose (transport : ServerLocalTransport) :
    Program Host ServerLocalTransport := do
  let transport ← closeClient transport
  if 0 ≤ transport.listenFd then
    let _ ← call (.close transport.listenFd)
    let _ ← call (.unlink transport.socketPath.1)
    return { transport with listenFd := -1 }
  else return transport

abbrev serialTransportDevicePathMax : Nat := 64

abbrev csize : UInt32 := 0x30
abbrev cs7 : UInt32 := 0x20
abbrev cs8 : UInt32 := 0x30
abbrev cstopb : UInt32 := 0x40
abbrev cread : UInt32 := 0x80
abbrev parenb : UInt32 := 0x100
abbrev parodd : UInt32 := 0x200
abbrev clocal : UInt32 := 0x800
abbrev crtscts : UInt32 := 0x80000000
abbrev inlcr : UInt32 := 0x40
abbrev icrnl : UInt32 := 0x100
abbrev ixon : UInt32 := 0x400
abbrev ixany : UInt32 := 0x800
abbrev ixoff : UInt32 := 0x1000
abbrev isig : UInt32 := 0x01
abbrev icanon : UInt32 := 0x02
abbrev echo : UInt32 := 0x08
abbrev echoe : UInt32 := 0x10
abbrev opost : UInt32 := 0x01
abbrev onlcr : UInt32 := 0x04

structure SerialTransportConfig where
  device : List UInt8
  baud : Int
  databits : Int
  parity : Int
  stopbits : Int
  flow : Int

/-- The transport together with the settings to restore on close. -/
structure SerialLine where
  transport : ServerSerialTransport
  savedTty : Termios

section
variable (cfg : SerialTransportConfig)

def databitsFlag : UInt32 := if cfg.databits = 7 then cs7 else cs8

def parityFlags : UInt32 :=
  if cfg.parity = 1 then parenb else if cfg.parity = 2 then parenb ||| parodd else 0

def stopbitsFlag : UInt32 := if cfg.stopbits = 2 then cstopb else 0

/-- The settings that `configure_port` makes of the saved ones. -/
def configuredTty (saved : Termios) : Termios where
  cIflag := (saved.cIflag &&& ~~~ (ixon ||| ixoff ||| ixany ||| icrnl ||| inlcr)) |||
    (if cfg.flow = 2 then ixon ||| ixoff else 0)
  cOflag := saved.cOflag &&& ~~~ (opost ||| onlcr)
  cCflag := (saved.cCflag &&& ~~~ (csize ||| parenb ||| parodd ||| cstopb ||| crtscts)) |||
    (cread ||| clocal) ||| databitsFlag cfg ||| parityFlags cfg ||| stopbitsFlag cfg |||
    (if cfg.flow = 1 then crtscts else 0)
  cLflag := saved.cLflag &&& ~~~ (icanon ||| echo ||| echoe ||| isig)
  inputSpeed := (mapBaudRate cfg.baud).rate
  outputSpeed := (mapBaudRate cfg.baud).rate
  vmin := 0
  vtime := 0

/-- The result, and what is left in `saved_tty`. -/
def configurePort (fd : Int) (savedTty : Termios) : Program Host (Int × Termios) := do
  match ← call (.tcgetattr fd) with
  | none => return (-1, savedTty)
  | some saved =>
    let result ← call (.tcsetattr fd (configuredTty cfg saved))
    return (result, saved)

/-- `init_transport_fields`: an empty queue and no descriptor. -/
def initSerialLine : SerialLine where
  transport := ⟨-1, Vector.replicate serialTransportTxCapacity 0, 0, 0⟩
  savedTty := ⟨0, 0, 0, 0, 0, 0, 0, 0⟩

def serialTransportOpen (line : SerialLine) : Program Host (Int × SerialLine) := do
  if serialTransportDevicePathMax ≤ cfg.device.length then return (-1, line)
  else
    let fd ← call (.openDevice cfg.device)
    if fd < 0 then return (-1, initSerialLine)
    else
      let (result, savedTty) ← configurePort cfg fd initSerialLine.savedTty
      if result ≠ 0 then
        let _ ← call (.close fd)
        return (-1, { initSerialLine with savedTty })
      else return (0, ⟨{ initSerialLine.transport with fd }, savedTty⟩)

end

def serialTransportClose (line : SerialLine) : Program Host SerialLine := do
  if 0 ≤ line.transport.fd then
    let _ ← call (.tcsetattr line.transport.fd line.savedTty)
    let _ ← call (.close line.transport.fd)
    return { line with transport := { line.transport with fd := -1 } }
  else return line

/-- What a transport has in hand. -/
def ServerLocalTransport.resources (transport : ServerLocalTransport) : Multiset Resource :=
  opened .descriptor transport.clientFd +
    if 0 ≤ transport.listenFd then
      {Resource.descriptor transport.listenFd} + {Resource.socketFile transport.socketPath.1}
    else 0

def SerialLine.resources (line : SerialLine) : Multiset Resource :=
  opened .descriptor line.transport.fd

section
variable {held : Multiset Resource} {transport : ServerLocalTransport}

theorem mem_add_singleton (held : Multiset Resource) (i : Resource) : i ∈ held + {i} :=
  Multiset.mem_add.2 (.inr (Multiset.mem_singleton_self i))

theorem needs_singleton {i : Resource} (h : i ∈ held) : ∀ j ∈ [i], j ∈ held :=
  fun _ hj => List.mem_singleton.1 hj ▸ h

theorem call_quiet (op : Call) (hneeds : ∀ i ∈ hostLease.needs op, i ∈ held)
    (hquiet : ∀ r, hostLease.takes ⟨op, r⟩ = [] ∧ hostLease.returns ⟨op, r⟩ = []) :
    Leased hostLease (call op) (fun _ held' => held' = held) held :=
  leased_ask hneeds fun r => Lease.step_quiet (hquiet r).1 (hquiet r).2

theorem call_returns (op : Call) (i : Resource) (hneeds : hostLease.needs op = [i])
    (hreturns : ∀ r, hostLease.takes ⟨op, r⟩ = [] ∧ hostLease.returns ⟨op, r⟩ = [i]) :
    Leased hostLease (call op) (fun _ held' => held' = held) (held + {i}) := by
  refine leased_ask ?_ fun r => Lease.step_returns (hreturns r).1 {i} ?_
  · rw [hneeds]
    exact needs_singleton (mem_add_singleton held i)
  · rw [(hreturns r).2]
    rfl

theorem opened_nonneg (resource : Int → Resource) (h : 0 ≤ fd) :
    (opened resource fd : Multiset Resource) = {resource fd} := by
  rw [opened, if_pos h]
  rfl

theorem opened_neg (resource : Int → Resource) (h : fd < 0) :
    (opened resource fd : Multiset Resource) = 0 := by
  rw [opened, if_neg (Int.not_le.2 h)]
  rfl

/-- A call that gives a descriptor, or fails. -/
def Opening (resource : Int → Resource) (held : Multiset Resource) (fd : Int)
    (held' : Multiset Resource) : Prop :=
  (fd < 0 ∧ held' = held) ∨ (0 ≤ fd ∧ held' = held + {resource fd})

theorem opening_step (resource : Int → Resource) (held : Multiset Resource) (fd : Int) :
    Opening resource held fd (held + (opened resource fd : Multiset Resource)) := by
  by_cases h : 0 ≤ fd
  · exact .inr ⟨h, by rw [opened_nonneg _ h]⟩
  · exact .inl ⟨Int.not_le.1 h, by rw [opened_neg _ (Int.not_le.1 h), add_zero]⟩

theorem socket_leased : Leased hostLease (call .socket) (Opening .descriptor held) held := by
  refine leased_ask (needs_none rfl) fun fd => ?_
  rw [Lease.step_takes rfl]
  exact opening_step _ held fd

theorem accept_leased {fd : Int} (h : Resource.descriptor fd ∈ held) :
    Leased hostLease (call (.accept fd)) (Opening .descriptor held) held := by
  refine leased_ask (needs_singleton h) fun client => ?_
  rw [Lease.step_takes rfl]
  exact opening_step _ held client

theorem openDevice_leased (path : List UInt8) :
    Leased hostLease (call (.openDevice path)) (Opening .descriptor held) held := by
  refine leased_ask (needs_none rfl) fun fd => ?_
  rw [Lease.step_takes rfl]
  exact opening_step _ held fd

theorem bind_leased {fd : Int} (path : List UInt8) (h : Resource.descriptor fd ∈ held) :
    Leased hostLease (call (.bind fd path)) (fun result held' =>
      (result ≠ 0 ∧ held' = held) ∨ (result = 0 ∧ held' = held + {.socketFile path})) held := by
  refine leased_ask (needs_singleton h) fun result => ?_
  have htakes : hostLease.takes ⟨.bind fd path, result⟩ =
      if result = 0 then [.socketFile path] else [] := rfl
  rw [Lease.step_takes rfl, htakes]
  by_cases hresult : result = 0
  · rw [if_pos hresult]
    exact .inr ⟨hresult, rfl⟩
  · rw [if_neg hresult]
    exact .inl ⟨hresult, add_zero held⟩

theorem close_leased (fd : Int) :
    Leased hostLease (call (.close fd)) (fun _ held' => held' = held)
      (held + {.descriptor fd}) := call_returns _ _ rfl fun _ => ⟨rfl, rfl⟩

theorem unlink_leased (path : List UInt8) :
    Leased hostLease (call (.unlink path)) (fun _ held' => held' = held)
      (held + {.socketFile path}) :=
  leased_ask (needs_none rfl) fun _ => Lease.step_returns rfl {Resource.socketFile path} rfl

/-- Removing a file that is none of the server's. -/
theorem unlink_stale {path : List UInt8} (h : Resource.socketFile path ∉ held) :
    Leased hostLease (call (.unlink path)) (fun _ held' => held' = held) held := by
  refine leased_ask (needs_none rfl) fun r => ?_
  have hsame : held - {Resource.socketFile path} = held := by
    rw [Multiset.sub_singleton, Multiset.erase_of_notMem h]
  exact (add_zero _).trans hsame

/-- A transport that listens, and has not yet a client. -/
structure ServerLocalTransport.Listening (transport : ServerLocalTransport) : Prop where
  listenFd : 0 ≤ transport.listenFd
  clientFd : transport.clientFd = -1

theorem ServerLocalTransport.Listening.resources (h : transport.Listening) :
    transport.resources =
      {.descriptor transport.listenFd} + {.socketFile transport.socketPath.1} := by
  rw [ServerLocalTransport.resources, h.clientFd, opened_neg _ (by decide), zero_add,
    if_pos h.listenFd]

theorem localTransportListen_leased {path : List UInt8}
    (hfile : Resource.socketFile path ∉ held) :
    Leased hostLease (localTransportListen transport path) (fun x held' =>
      (x.1 = -1 ∧ held' = held) ∨ (x.1 = 0 ∧ x.2.Listening ∧ held' = held + x.2.resources))
      held := by
  rw [localTransportListen]
  split
  · refine leased_bind socket_leased ?_
    rintro fd _ (⟨hfd, rfl⟩ | ⟨hfd, rfl⟩)
    · rw [if_pos hfd]
      exact leased_pure (.inl ⟨rfl, rfl⟩)
    · rw [if_neg (Int.not_lt.2 hfd)]
      have hmem := mem_add_singleton held (.descriptor fd)
      have hfile' : Resource.socketFile path ∉ held + {Resource.descriptor fd} := by
        rw [Multiset.mem_add, Multiset.mem_singleton]
        rintro (h | ⟨⟨⟩⟩)
        exact hfile h
      refine leased_bind (unlink_stale hfile') ?_
      rintro _ _ rfl
      refine leased_bind (bind_leased path hmem) ?_
      rintro result _ (⟨hresult, rfl⟩ | ⟨hresult, rfl⟩)
      · rw [if_pos hresult]
        refine leased_bind (close_leased fd) ?_
        rintro _ _ rfl
        exact leased_pure (.inl ⟨rfl, rfl⟩)
      · rw [if_neg (not_not.2 hresult)]
        refine leased_bind (call_quiet (.listen fd)
          (needs_singleton (Multiset.mem_add.2 (.inl hmem))) fun _ => ⟨rfl, rfl⟩) ?_
        rintro listening _ rfl
        split
        · rw [add_right_comm]
          refine leased_bind (close_leased fd) ?_
          rintro _ _ rfl
          refine leased_bind (unlink_leased path) ?_
          rintro _ _ rfl
          exact leased_pure (.inl ⟨rfl, rfl⟩)
        · have hlistening : (ServerLocalTransport.mk fd (-1) ⟨path, ‹_›⟩).Listening := ⟨hfd, rfl⟩
          refine leased_pure (.inr ⟨rfl, hlistening, ?_⟩)
          rw [hlistening.resources, add_assoc]
  · exact leased_pure (.inl ⟨rfl, rfl⟩)

theorem localTransportAccept_leased (h : transport.Listening) :
    Leased hostLease (localTransportAccept transport) (fun x held' =>
      (x.1 = -1 ∨ x.1 = 0 ∧ 0 ≤ x.2.clientFd) ∧ 0 ≤ x.2.listenFd ∧ held' = held + x.2.resources)
      (held + transport.resources) := by
  rw [localTransportAccept, if_neg (Int.not_lt.2 h.listenFd)]
  have hmem : Resource.descriptor transport.listenFd ∈ held + transport.resources := by
    rw [h.resources]
    simp
  refine leased_bind (accept_leased hmem) ?_
  rintro fd _ (⟨hfd, rfl⟩ | ⟨hfd, rfl⟩)
  · rw [if_pos hfd]
    exact leased_pure ⟨.inl rfl, h.listenFd, rfl⟩
  · rw [if_neg (Int.not_lt.2 hfd)]
    refine leased_pure ⟨.inr ⟨rfl, hfd⟩, h.listenFd, ?_⟩
    rw [h.resources, ServerLocalTransport.resources, opened_nonneg _ hfd, if_pos h.listenFd,
      add_assoc, add_comm (_ + _) {Resource.descriptor fd}]

theorem ttyCall_leased (op : SerialTransport.Call) (hneeds : ∀ i ∈ ttyLease.needs op, i ∈ held) :
    Leased ttyLease (.ask op) (fun _ held' => held' = held) held :=
  leased_ask hneeds fun _ => Lease.step_quiet rfl rfl

theorem pollLoop_leased (fuel : Nat) (events : Nat) (timeoutMs : Int)
    (h : Resource.descriptor fd ∈ held) :
    Leased ttyLease (.loop (fun _ => pollTurn fd events timeoutMs) fuel ())
      (fun _ held' => held' = held) held := by
  refine leased_loop (fun _ held' => held' = held) (fun _ _ h => h) ?_ fuel rfl
  rintro ⟨⟩ _ rfl
  rw [pollTurn]
  refine leased_bind (ttyCall_leased (.poll fd events timeoutMs) (needs_singleton h)) ?_
  rintro (e | result) _ rfl
  · dsimp only
    split <;> exact leased_pure rfl
  · exact leased_pure rfl

theorem localTransportWait_leased (fuel : Nat) (timeoutMs : Int)
    (h : Resource.descriptor transport.clientFd ∈ held) :
    Leased hostLease (localTransportWait fuel transport timeoutMs) (fun _ held' => held' = held)
      held := by
  rw [localTransportWait]
  split
  · exact leased_pure rfl
  · refine leased_bind (fromTty_leased (pollLoop_leased fuel pollIn timeoutMs h)) ?_
    rintro (_ | _ | _ | revents) _ rfl
    · exact leased_pure rfl
    · exact leased_pure rfl
    · exact leased_pure rfl
    · dsimp only
      split <;> exact leased_pure rfl

theorem closeClient_leased :
    Leased hostLease (closeClient transport) (fun transport' held' =>
      transport' = { transport with clientFd := transport'.clientFd } ∧ held' = held)
      (held + (opened .descriptor transport.clientFd : Multiset Resource)) := by
  rw [closeClient]
  split
  · rename_i hfd
    rw [opened_nonneg _ hfd]
    refine leased_bind (close_leased transport.clientFd) ?_
    rintro _ _ rfl
    exact leased_pure ⟨rfl, rfl⟩
  · rename_i hfd
    rw [opened_neg _ (Int.not_le.1 hfd), add_zero]
    exact leased_pure ⟨rfl, rfl⟩

/-- Closing gives back whatever the transport has in hand. -/
theorem localTransportClose_leased :
    Leased hostLease (localTransportClose transport) (fun _ held' => held' = held)
      (held + transport.resources) := by
  rw [localTransportClose, ServerLocalTransport.resources, add_left_comm, add_comm]
  refine leased_bind closeClient_leased ?_
  rintro transport' _ ⟨htransport, rfl⟩
  have hfd : transport'.listenFd = transport.listenFd := by rw [htransport]
  have hpath : transport'.socketPath = transport.socketPath := by rw [htransport]
  rw [hfd, hpath]
  split
  · rw [add_comm {Resource.descriptor transport.listenFd}, ← add_assoc]
    refine leased_bind (close_leased transport.listenFd) ?_
    rintro _ _ rfl
    refine leased_bind (unlink_leased transport.socketPath.1) ?_
    rintro _ _ rfl
    exact leased_pure rfl
  · rw [add_zero]
    exact leased_pure rfl

theorem configurePort_leased (cfg : SerialTransportConfig) (savedTty : Termios)
    (h : Resource.descriptor fd ∈ held) :
    Leased hostLease (configurePort cfg fd savedTty) (fun _ held' => held' = held) held := by
  rw [configurePort]
  refine leased_bind (call_quiet (.tcgetattr fd) (needs_singleton h) fun _ => ⟨rfl, rfl⟩) ?_
  rintro (_ | saved) _ rfl
  · exact leased_pure rfl
  · refine leased_bind (call_quiet (.tcsetattr fd (configuredTty cfg saved)) (needs_singleton h)
      fun _ => ⟨rfl, rfl⟩) ?_
    rintro result _ rfl
    exact leased_pure rfl

theorem serialTransportOpen_leased (cfg : SerialTransportConfig) (line : SerialLine) :
    Leased hostLease (serialTransportOpen cfg line) (fun x held' =>
      (x.1 = -1 ∧ held' = held) ∨
        (x.1 = 0 ∧ 0 ≤ x.2.transport.fd ∧ held' = held + x.2.resources)) held := by
  rw [serialTransportOpen]
  split
  · exact leased_pure (.inl ⟨rfl, rfl⟩)
  · refine leased_bind (openDevice_leased cfg.device) ?_
    rintro fd _ (⟨hfd, rfl⟩ | ⟨hfd, rfl⟩)
    · rw [if_pos hfd]
      exact leased_pure (.inl ⟨rfl, rfl⟩)
    · rw [if_neg (Int.not_lt.2 hfd)]
      refine leased_bind (configurePort_leased cfg _ (mem_add_singleton held _)) ?_
      rintro ⟨result, savedTty⟩ _ rfl
      dsimp only
      split
      · refine leased_bind (close_leased fd) ?_
        rintro _ _ rfl
        exact leased_pure (.inl ⟨rfl, rfl⟩)
      · refine leased_pure (.inr ⟨rfl, hfd, ?_⟩)
        rw [SerialLine.resources, opened_nonneg _ hfd]

theorem flushOutput_leased (fuel : Nat) {line : ServerSerialTransport}
    (h : Resource.descriptor line.fd ∈ held) :
    Leased ttyLease (flushOutput fuel line) (fun x held' => x.2.fd = line.fd ∧ held' = held)
      held := by
  induction fuel generalizing line with
  | zero => exact leased_pure ⟨rfl, rfl⟩
  | succ fuel ih =>
    rw [flushOutput]
    split
    · exact leased_pure ⟨rfl, rfl⟩
    · refine leased_bind (ttyCall_leased (.write line.fd _) (needs_singleton h)) ?_
      rintro (e | written) _ rfl
      · dsimp only
        split
        · exact ih h
        · split <;> exact leased_pure ⟨rfl, rfl⟩
      · dsimp only
        split
        · exact ih h
        · exact leased_pure ⟨rfl, rfl⟩

theorem serialTransportWait_leased (fuel : Nat) (timeoutMs : Int) {line : ServerSerialTransport}
    (h : Resource.descriptor line.fd ∈ held) :
    Leased hostLease (fromTty (serialTransportWait fuel line timeoutMs))
      (fun x held' => x.2.fd = line.fd ∧ held' = held) held := by
  refine fromTty_leased ?_
  rw [serialTransportWait]
  split
  · exact leased_pure ⟨rfl, rfl⟩
  · refine leased_bind (pollLoop_leased fuel _ timeoutMs h) ?_
    rintro (_ | _ | _ | revents) _ rfl
    · exact leased_pure ⟨rfl, rfl⟩
    · exact leased_pure ⟨rfl, rfl⟩
    · exact leased_pure ⟨rfl, rfl⟩
    · dsimp only
      split
      · refine leased_bind (flushOutput_leased fuel h) ?_
        rintro ⟨_ | result, line'⟩ _ ⟨hfd, rfl⟩
        · exact leased_pure ⟨hfd, rfl⟩
        · dsimp only at hfd ⊢
          split
          · exact leased_pure ⟨hfd, rfl⟩
          · split <;> exact leased_pure ⟨hfd, rfl⟩
      · split <;> exact leased_pure ⟨rfl, rfl⟩

theorem serialTransportClose_leased (line : SerialLine) :
    Leased hostLease (serialTransportClose line) (fun _ held' => held' = held)
      (held + line.resources) := by
  rw [serialTransportClose, SerialLine.resources]
  split
  · rename_i hfd
    rw [opened_nonneg _ hfd]
    refine leased_bind (call_quiet (.tcsetattr line.transport.fd line.savedTty)
      (needs_singleton (mem_add_singleton held _)) fun _ => ⟨rfl, rfl⟩) ?_
    rintro _ _ rfl
    refine leased_bind (close_leased line.transport.fd) ?_
    rintro _ _ rfl
    exact leased_pure rfl
  · rename_i hfd
    rw [opened_neg _ (Int.not_le.1 hfd), add_zero]
    exact leased_pure rfl

end

end SquidServer.Server

import SquidServer.Sockets
import SquidServer.Wire
import SquidServer.CText

namespace SquidServer.TcpProxy
open Interaction Posix Sockets Wire CText
set_option autoImplicit true

abbrev squidTcpProtocolVersion : UInt8 := 1
abbrev squidTcpOpCapabilities : UInt8 := 0x00
abbrev squidTcpOpConnect : UInt8 := 0x01
abbrev squidTcpOpWrite : UInt8 := 0x02
abbrev squidTcpOpRead : UInt8 := 0x03
abbrev squidTcpOpClose : UInt8 := 0x04
abbrev squidTcpOpStatus : UInt8 := 0x05
abbrev squidTcpResponseBit : UInt8 := 0x80

inductive SquidTcpStatus where
  | ok | badRequest | notConnected | dnsFailed | connectFailed | ioError | timeout | denied
deriving DecidableEq

def SquidTcpStatus.code : SquidTcpStatus → UInt8
  | .ok => 0x00
  | .badRequest => 0x01
  | .notConnected => 0x02
  | .dnsFailed => 0x03
  | .connectFailed => 0x04
  | .ioError => 0x05
  | .timeout => 0x06
  | .denied => 0x07

abbrev squidTcpFeatureIpv4 : UInt8 := 0x01
abbrev squidTcpFeatureIpv6 : UInt8 := 0x02
abbrev squidTcpFeatureDns : UInt8 := 0x04

abbrev squidTcpFamilyIpv4 : UInt8 := 0x04
abbrev squidTcpFamilyIpv6 : UInt8 := 0x06

abbrev squidTcpReadEof : UInt8 := 0x01

abbrev squidTcpHostMax : Nat := 240
abbrev squidTcpReadHeaderSize : Nat := 4
abbrev squidTcpReadWaitMaxMs : UInt16 := 10000

abbrev squidTcpDefaultConnectTimeoutMs : UInt32 := 5000
abbrev squidTcpDefaultWriteTimeoutMs : UInt32 := 5000
abbrev squidTcpTimeoutMaxMs : UInt32 := 60000
abbrev squidTcpAllowlistMax : Nat := 1024

/-- `struct squid_tcp_context`; `socketFd` is `none` when there is no connection. -/
structure SquidTcpContext where
  socketFd : Option Fd
  connectTimeoutMs : UInt32
  writeTimeoutMs : UInt32
  allowedHosts : CString

/-- A timeout as it is configured; zero stands for the default. -/
def effectiveTimeout (configured standard : UInt32) : UInt32 :=
  let timeout := if configured = 0 then standard else configured
  if squidTcpTimeoutMaxMs < timeout then squidTcpTimeoutMaxMs else timeout

/-- A copy of a text into a buffer of `size` bytes, which cuts it off where it does not fit. -/
def copyText (text : CString) (size : Nat) : CString where
  bytes := text.bytes.take (size - 1)
  nulFree := fun h => text.nulFree (List.mem_of_mem_take h)

def initSquidTcpContext (allowedHosts : Option CString) (connectTimeoutMs writeTimeoutMs : UInt32) :
    SquidTcpContext where
  socketFd := none
  connectTimeoutMs := effectiveTimeout connectTimeoutMs squidTcpDefaultConnectTimeoutMs
  writeTimeoutMs := effectiveTimeout writeTimeoutMs squidTcpDefaultWriteTimeoutMs
  allowedHosts := allowedHosts.elim .empty (copyText · squidTcpAllowlistMax)

def writeStatus (opcode : UInt8) (status : SquidTcpStatus) (responseCapacity : Nat) : Response :=
  if responseCapacity < 2 then none else some [opcode ||| squidTcpResponseBit, status.code]

def closeConnection (context : SquidTcpContext) : Program Network SquidTcpContext :=
  match context.socketFd with
  | none => return context
  | some socketFd => do
    let _ ← close socketFd
    return { context with socketFd := none }

/-- A text less the white space at its end. -/
def trimEnd (text : List UInt8) : List UInt8 := (text.reverse.dropWhile isSpace).reverse

/-- The loop of `host_is_allowed` over what is left of the list. Every turn passes at least one
character, so that a bound above the size of the list is never reached. -/
def hostIsListed (host : List UInt8) : Nat → List UInt8 → Bool
  | 0, _ => false
  | _ + 1, [] => false
  | n + 1, c :: cursor =>
    let start := (c :: cursor).dropWhile isSpace
    let entry := start.takeWhile (· ≠ 0x2C)
    if textEqualsCaseInsensitive (trimEnd entry) host then true
    else hostIsListed host n ((start.drop entry.length).drop 1)

def hostIsAllowed (context : SquidTcpContext) (host : List UInt8) : Bool :=
  let allowedHosts := context.allowedHosts.bytes
  if allowedHosts = [] ∨ allowedHosts = ascii "*" then true
  else hostIsListed host (allowedHosts.length + 1) allowedHosts

def hostIsValid (host : List UInt8) : Bool :=
  host ≠ [] ∧ host.length ≤ squidTcpHostMax ∧
    host.all fun c => ¬ (c = 0 ∨ isSpace c ∨ c = 0x2F ∨ c = 0x5C)

def setNonblocking (socketFd : Fd) : Program Network (Except Errno Unit) := do
  match ← fcntlGetfl socketFd with
  | .error e => return .error e
  | .ok flags => fcntlSetfl socketFd (flags ||| oNonblock)

/-- The results of `wait_for_socket`, with the `errno` of a failure. -/
inductive Ready where
  | timeout
  | ready
  | failed (e : Errno)

/-- One turn of the loop of `wait_for_socket`. -/
def pollSocket (socketFd : Fd) (events timeoutMs : Nat) : Program Network (Unit ⊕ Ready) := do
  match ← poll socketFd events timeoutMs with
  | .error e => if e = .eintr then return .inl () else return .inr (.failed e)
  | .ok none => return .inr .timeout
  | .ok (some revents) =>
    if revents &&& (pollErr ||| pollNval) ≠ 0 then return .inr (.failed .eio)
    else return .inr .ready

/-- `wait_for_socket`; the loop is cut off after `fuel` turns, and then there is no result. -/
def waitForSocket (fuel : Nat) (socketFd : Fd) (events timeoutMs : Nat) :
    Program Network (Option Ready) :=
  Program.loop (fun _ => pollSocket socketFd events timeoutMs) fuel ()

/-- Close a descriptor on the way out, and tell which `errno` is left. -/
def closeFailed (socketFd : Fd) (errno : Errno) : Program Network Errno := do
  match ← close socketFd with
  | some e => return e
  | none => return errno

/-- `connect_address`, with the `errno` of a failure; `none` where it does not return. -/
def connectAddress (fuel : Nat) (address : Address) (timeoutMs : UInt32) :
    Program Network (Option (Except Errno Fd)) := do
  match ← socket address.aiFamily address.aiSocktype address.aiProtocol with
  | .error e => return some (.error e)
  | .ok socketFd =>
    match ← setNonblocking socketFd with
    | .error e => return some (.error (← closeFailed socketFd e))
    | .ok () =>
      match ← connect socketFd address.aiAddr with
      | .ok () => return some (.ok socketFd)
      | .error e =>
        if e ≠ .einprogress then return some (.error (← closeFailed socketFd e))
        else
          match ← waitForSocket fuel socketFd pollOut timeoutMs.toNat with
          | none => return none
          | some .timeout => return some (.error (← closeFailed socketFd .etimedout))
          | some (.failed e) => return some (.error (← closeFailed socketFd e))
          | some .ready =>
            match ← getsockoptError socketFd with
            | .error e => return some (.error (← closeFailed socketFd e))
            | .ok (some e) => return some (.error (← closeFailed socketFd e))
            | .ok none => return some (.ok socketFd)

/-- The loop of `handle_connect` over the addresses, with the `errno` it leaves behind. -/
def connectAddresses (fuel : Nat) (timeoutMs : UInt32) :
    List Address → Errno → Program Network (Option (Except Errno (Fd × Family)))
  | [], errno => return some (.error errno)
  | address :: rest, _ => do
    match ← connectAddress fuel address timeoutMs with
    | none => return none
    | some (.ok connectedFd) => return some (.ok (connectedFd, address.aiFamily))
    | some (.error e) => connectAddresses fuel timeoutMs rest e

def handleCapabilities (opcode : UInt8) (responseCapacity : Nat) : Response :=
  if responseCapacity < 7 then none
  else some [opcode ||| squidTcpResponseBit, SquidTcpStatus.ok.code, squidTcpProtocolVersion,
    squidTcpFeatureIpv4 ||| squidTcpFeatureIpv6 ||| squidTcpFeatureDns,
    UInt8.ofNat squidTcpHostMax,
    if squidTcpReadHeaderSize < responseCapacity then
      UInt8.ofNat (responseCapacity - squidTcpReadHeaderSize) else 0,
    if 2 < responseCapacity then UInt8.ofNat (responseCapacity - 2) else 0]

/-- The port and the host of a CONNECT request. -/
def parseConnect (request : List UInt8) : Option (UInt16 × List UInt8) :=
  if request.length < 5 then none
  else
    let port := readU16 request 1
    let hostSize := (byteAt request 3).toNat
    if port = 0 ∨ hostSize ≠ request.length - 4 ∨ ¬ hostIsValid (request.drop 4) then none
    else some (port, request.drop 4)

/-- What `handle_connect` asks a lookup for. -/
def connectHints : Hints where
  aiFamily := .unspec
  aiSocktype := sockStream
  aiProtocol := ipprotoTcp

/-- The part of `handle_connect` after the addresses have been tried and freed. -/
def answerConnect (context : SquidTcpContext) (opcode : UInt8)
    (connected : Except Errno (Fd × Family)) (responseCapacity : Nat) :
    Program Network (Response × SquidTcpContext) := do
  match connected with
  | .error errno =>
    return (writeStatus opcode (if errno = .etimedout then .timeout else .connectFailed)
      responseCapacity, context)
  | .ok (connectedFd, family) =>
    if responseCapacity < 3 then
      let _ ← close connectedFd
      return (none, context)
    else
      let context ← closeConnection context
      return (some [opcode ||| squidTcpResponseBit, SquidTcpStatus.ok.code,
          if family = .inet6 then squidTcpFamilyIpv6 else squidTcpFamilyIpv4],
        { context with socketFd := some connectedFd })

def handleConnect (fuel : Nat) (context : SquidTcpContext) (opcode : UInt8) (request : List UInt8)
    (responseCapacity : Nat) : Program Network (Response × SquidTcpContext) := do
  match parseConnect request with
  | none => return (writeStatus opcode .badRequest responseCapacity, context)
  | some (port, host) =>
    if ¬ hostIsAllowed context host then
      return (writeStatus opcode .denied responseCapacity, context)
    else
      let lookup ← getaddrinfo host (ascii (toString port.toNat)) connectHints
      match lookup.result with
      | .error _ => return (writeStatus opcode .dnsFailed responseCapacity, context)
      | .ok addresses =>
        match ← connectAddresses fuel context.connectTimeoutMs addresses lookup.errno with
        | none => return (none, context)
        | some connected =>
          let changed ← freeaddrinfo
          answerConnect context opcode
            (connected.mapError fun errno => changed.getD errno) responseCapacity

/-- The data of a WRITE request. -/
def parseWrite (request : List UInt8) : Option (List UInt8) :=
  if request.length < 3 ∨ (byteAt request 1).toNat ≠ request.length - 2 ∨ byteAt request 1 = 0 then
    none
  else some (request.drop 2)

def handleWrite (fuel : Nat) (context : SquidTcpContext) (opcode : UInt8) (request : List UInt8)
    (responseCapacity : Nat) : Program Network (Response × SquidTcpContext) := do
  match parseWrite request with
  | none => return (writeStatus opcode .badRequest responseCapacity, context)
  | some data =>
    match context.socketFd with
    | none => return (writeStatus opcode .notConnected responseCapacity, context)
    | some socketFd =>
      match ← waitForSocket fuel socketFd pollOut context.writeTimeoutMs.toNat with
      | none => return (none, context)
      | some .timeout => return (writeStatus opcode .timeout responseCapacity, context)
      | some (.failed _) =>
        return (writeStatus opcode .ioError responseCapacity, ← closeConnection context)
      | some .ready =>
        match ← send socketFd data with
        | .error .eagain => return (writeStatus opcode .timeout responseCapacity, context)
        | .error _ | .ok 0 =>
          return (writeStatus opcode .ioError responseCapacity, ← closeConnection context)
        | .ok written =>
          if responseCapacity < 3 then return (none, context)
          else return (some [opcode ||| squidTcpResponseBit, SquidTcpStatus.ok.code,
            UInt8.ofNat written], context)

/-- The number of bytes `handle_read` asks for. -/
def readDataCapacity (responseCapacity maximumBytes : Nat) : Nat :=
  let dataCapacity := responseCapacity - squidTcpReadHeaderSize
  let dataCapacity :=
    if 0 < maximumBytes ∧ maximumBytes < dataCapacity then maximumBytes else dataCapacity
  if 255 < dataCapacity then 255 else dataCapacity

def readResponse (opcode flags : UInt8) (data : List UInt8) : List UInt8 :=
  [opcode ||| squidTcpResponseBit, SquidTcpStatus.ok.code, flags, UInt8.ofNat data.length] ++ data

/-- The part of `handle_read` after the request has been checked. -/
def readSocket (fuel : Nat) (context : SquidTcpContext) (opcode : UInt8) (socketFd : Fd)
    (waitMs : UInt16) (maximumBytes : UInt8) (responseCapacity : Nat) :
    Program Network (Response × SquidTcpContext) := do
  match ← waitForSocket fuel socketFd pollIn waitMs.toNat with
  | none => return (none, context)
  | some (.failed _) =>
    return (writeStatus opcode .ioError responseCapacity, ← closeConnection context)
  | some .timeout => return (some (readResponse opcode 0 []), context)
  | some .ready =>
    match ← recv socketFd (readDataCapacity responseCapacity maximumBytes.toNat) with
    | .ok [] => return (some (readResponse opcode squidTcpReadEof []), ← closeConnection context)
    | .ok data => return (some (readResponse opcode 0 data), context)
    | .error .eagain => return (some (readResponse opcode 0 []), context)
    | .error _ =>
      return (writeStatus opcode .ioError responseCapacity, ← closeConnection context)

def handleRead (fuel : Nat) (context : SquidTcpContext) (opcode : UInt8) (request : List UInt8)
    (responseCapacity : Nat) : Program Network (Response × SquidTcpContext) :=
  if request.length ≠ 4 then
    return (writeStatus opcode .badRequest responseCapacity, context)
  else match context.socketFd with
  | none => return (writeStatus opcode .notConnected responseCapacity, context)
  | some socketFd =>
    if responseCapacity < squidTcpReadHeaderSize then return (none, context)
    else
      let waitMs := readU16 request 1
      if squidTcpReadWaitMaxMs < waitMs then
        return (writeStatus opcode .badRequest responseCapacity, context)
      else readSocket fuel context opcode socketFd waitMs (byteAt request 3) responseCapacity

def handleStatus (context : SquidTcpContext) (opcode : UInt8) (responseCapacity : Nat) : Response :=
  if responseCapacity < 3 then none
  else some [opcode ||| squidTcpResponseBit, SquidTcpStatus.ok.code,
    if context.socketFd.isSome then 1 else 0]

/-- `handle_squid_tcp_request` for a context, a request and a response that are not NULL. -/
def handleSquidTcpRequest (fuel : Nat) (context : SquidTcpContext) (request : List UInt8)
    (responseCapacity : Nat) : Program Network (Response × SquidTcpContext) :=
  match request with
  | [] => return (none, context)
  | opcode :: _ =>
    if responseCapacity < 2 then return (none, context)
    else if opcode = squidTcpOpCapabilities then
      if request.length ≠ 1 then
        return (writeStatus opcode .badRequest responseCapacity, context)
      else return (handleCapabilities opcode responseCapacity, context)
    else if opcode = squidTcpOpConnect then
      handleConnect fuel context opcode request responseCapacity
    else if opcode = squidTcpOpWrite then
      handleWrite fuel context opcode request responseCapacity
    else if opcode = squidTcpOpRead then handleRead fuel context opcode request responseCapacity
    else if opcode = squidTcpOpClose then
      if request.length ≠ 1 then
        return (writeStatus opcode .badRequest responseCapacity, context)
      else do
        let context ← closeConnection context
        return (writeStatus opcode .ok responseCapacity, context)
    else if opcode = squidTcpOpStatus then
      if request.length ≠ 1 then
        return (writeStatus opcode .badRequest responseCapacity, context)
      else return (handleStatus context opcode responseCapacity, context)
    else return (writeStatus opcode .badRequest responseCapacity, context)

end SquidServer.TcpProxy

import SquidServer.Interaction
import SquidServer.Framing

namespace SquidServer.Runtime
open Interaction
set_option autoImplicit true

/-- The port slots 0-15; wire channel `n` is bound to port `n`, and port 0 is not on the wire. -/
abbrev Port := Fin 16

instance neZero_ports : @NeZero Nat Zero.ofOfNat0 16 := ⟨by decide⟩

/-- `server_packet_max`: one byte in every socket message carries the packet length. -/
abbrev serverPacketMax : Nat := 255

/-- A plugin descriptor. The flags say which callbacks are not NULL; what a callback does
belongs to the environment. -/
structure ServerPlugin where
  pluginName : Option String
  start : Bool
  stop : Bool
  handlePacket : Bool
deriving DecidableEq

structure ServerPluginRegistry where
  slots : Port → Option ServerPlugin

def findServerPlugin (registry : ServerPluginRegistry) (port : Port) : Option ServerPlugin :=
  registry.slots port

/-- What a plugin's `handle_packet` leaves behind: its result, the 255 bytes of the response
buffer it was given, the `packet_size` it set, and whether it redirected `packet_data`. -/
structure PluginReply where
  result : Int
  packetData : Vector UInt8 255
  redirected : Bool
  packetSize : Nat
deriving DecidableEq

inductive Call where
  | keepRunning
  | clearKeepRunning
  | snetLinkIsUp
  | snetBurst
  | transportWait
  | squidRecv (port : Port) (maximum : Nat)
  | squidSend (port : Port) (data : List UInt8)
  | handlePacket (port : Port) (request : List UInt8)
deriving DecidableEq

/-- `squid_recv` answers `none` for a negative result; `squid_send` answers whether the
bytes were queued. -/
abbrev Call.Ans : Call → Type
  | .keepRunning => Bool
  | .clearKeepRunning => Unit
  | .snetLinkIsUp => Bool
  | .snetBurst => Unit
  | .transportWait => Int
  | .squidRecv _ _ => Option (List UInt8)
  | .squidSend _ _ => Bool
  | .handlePacket _ _ => PluginReply

abbrev LibSquid : Effect := ⟨Call, Call.Ans⟩

def keepRunning : Program LibSquid Bool := .ask (E := LibSquid) Call.keepRunning

def clearKeepRunning : Program LibSquid Unit := .ask (E := LibSquid) Call.clearKeepRunning

def snetLinkIsUp : Program LibSquid Bool := .ask (E := LibSquid) Call.snetLinkIsUp

def snetBurst : Program LibSquid Unit := .ask (E := LibSquid) Call.snetBurst

def transportWait : Program LibSquid Int := .ask (E := LibSquid) Call.transportWait

def squidRecv (port : Port) (maximum : Nat) : Program LibSquid (Option (List UInt8)) :=
  .ask (E := LibSquid) (Call.squidRecv port maximum)

def squidSend (port : Port) (data : List UInt8) : Program LibSquid Bool :=
  .ask (E := LibSquid) (Call.squidSend port data)

def handlePacket (port : Port) (request : List UInt8) : Program LibSquid PluginReply :=
  .ask (E := LibSquid) (Call.handlePacket port request)

/-- The slots of one port in the per-port arrays of `struct server_runtime`.
`requestPacket` holds the received bytes of `request_packets[port]`. -/
structure PortState where
  squidFd : Int
  requestPacket : List UInt8
  requestPacketSize : Nat
  requestPacketExpected : Nat
  pendingResponse : Vector UInt8 256
  pendingResponseSize : Nat

structure ServerRuntime where
  pluginRegistry : ServerPluginRegistry
  ports : Port → PortState

def ServerRuntime.setPort (runtime : ServerRuntime) (port : Port) (st : PortState) :
    ServerRuntime :=
  { runtime with ports := Function.update runtime.ports port st }

@[simp] theorem ServerRuntime.setPort_registry (runtime : ServerRuntime) (port : Port)
    (st : PortState) : (runtime.setPort port st).pluginRegistry = runtime.pluginRegistry := rfl

@[simp] theorem ServerRuntime.setPort_same (runtime : ServerRuntime) (port : Port)
    (st : PortState) : (runtime.setPort port st).ports port = st :=
  Function.update_self ..

theorem ServerRuntime.setPort_other (runtime : ServerRuntime) (st : PortState)
    (h : q ≠ p) : (runtime.setPort p st).ports q = runtime.ports q :=
  Function.update_of_ne h ..

/-- Every slot starts closed and empty. -/
def initServerRuntime (registry : ServerPluginRegistry) : ServerRuntime where
  pluginRegistry := registry
  ports := fun _ => {
    squidFd := -1
    requestPacket := []
    requestPacketSize := 0
    requestPacketExpected := 0
    pendingResponse := Vector.replicate 256 0
    pendingResponseSize := 0 }

/-- The slot of a port once `open_plugin_sockets` has bound a socket for it. -/
def ServerRuntime.bindSocket (runtime : ServerRuntime) (port : Port) (fd : Int) : ServerRuntime :=
  runtime.setPort port { runtime.ports port with squidFd := fd }

/-- The bytes of `pending_responses[port]` that wait to be sent. -/
def PortState.retained (st : PortState) : List UInt8 :=
  st.pendingResponse.toList.take st.pendingResponseSize

/-- The second half of `receive_plugin_packet`, once the length byte is known. -/
def receiveBody (port : Port) (st : PortState) : Program LibSquid (Int × PortState) :=
  let ready (st : PortState) : Int :=
    if st.requestPacketSize = st.requestPacketExpected then 1 else 0
  if st.requestPacketSize < st.requestPacketExpected then do
    match ← squidRecv port (st.requestPacketExpected - st.requestPacketSize) with
    | none => return (-1, st)
    | some bytes =>
      let st := { st with
        requestPacket := st.requestPacket.take st.requestPacketSize ++ bytes
        requestPacketSize := st.requestPacketSize + bytes.length }
      return (ready st, st)
  else return (ready st, st)

/-- Read only the bytes needed for one packet. A zero length byte is dropped and reported as
an error, so that the next pass reads the byte after it. -/
def receivePluginPacket (port : Port) (st : PortState) : Program LibSquid (Int × PortState) :=
  if st.requestPacketExpected = 0 then do
    match ← squidRecv port 1 with
    | none => return (-1, st)
    | some [] => return (0, st)
    | some (wireSize :: _) =>
      if wireSize = 0 then return (-1, st)
      else
        let st := { st with
          requestPacketExpected := wireSize.toNat
          requestPacketSize := 0 }
        receiveBody port st
  else receiveBody port st

/-- What the dispatcher does with the buffer a plugin filled: an invalid response is
discarded, a valid one is framed and kept only if the socket refuses it. -/
def queueResponse (port : Port) (st : PortState) (reply : PluginReply) :
    Program LibSquid PortState :=
  let st := { st with pendingResponse := #v[st.pendingResponse.head] ++ reply.packetData }
  if reply.result = 0 then
    if 0 < reply.packetSize ∧ (reply.redirected ∨ serverPacketMax < reply.packetSize) then
      return st
    else if 0 < reply.packetSize then do
      let framedSize := reply.packetSize + 1
      let st := { st with
        pendingResponse := st.pendingResponse.set 0 (UInt8.ofNat reply.packetSize) }
      if ← squidSend port (st.pendingResponse.toList.take framedSize) then
        return { st with pendingResponseSize := 0 }
      else
        return { st with pendingResponseSize := framedSize }
    else return st
  else return st

/-- The part of a pass after the pending reply has been dealt with. -/
def servePort (registry : ServerPluginRegistry) (port : Port) (st : PortState) :
    Program LibSquid PortState := do
  let (packetReady, st) ← receivePluginPacket port st
  if packetReady ≤ 0 then return st
  else match findServerPlugin registry port with
    | none => return st
    | some plugin =>
      if plugin.handlePacket then do
        let reply ← handlePacket port (st.requestPacket.take st.requestPacketSize)
        let st ← queueResponse port st reply
        return { st with requestPacketSize := 0, requestPacketExpected := 0 }
      else return st

/-- One turn of the loop of `dispatch_received_packets`. -/
def dispatchPort (registry : ServerPluginRegistry) (port : Port) (st : PortState) :
    Program LibSquid PortState :=
  if st.squidFd < 0 then return st
  else if 0 < st.pendingResponseSize then do
    if ← squidSend port st.retained then
      servePort registry port { st with pendingResponseSize := 0 }
    else return st
  else servePort registry port st

/-- Ports `server_plugin_port_min` to `server_plugin_port_max`. -/
def pluginPorts : List Port := [1, 2, 3, 4, 5, 6, 7, 8, 9, 10, 11, 12, 13, 14, 15]

def dispatchPorts : List Port → ServerRuntime → Program LibSquid ServerRuntime
  | [], runtime => return runtime
  | port :: ports, runtime => do
    let st ← dispatchPort runtime.pluginRegistry port (runtime.ports port)
    dispatchPorts ports (runtime.setPort port st)

def dispatchReceivedPackets (runtime : ServerRuntime) : Program LibSquid ServerRuntime :=
  dispatchPorts pluginPorts runtime

/-- A run of `n` dispatch passes. -/
def dispatchPasses : Nat → ServerRuntime → Program LibSquid ServerRuntime
  | 0, runtime => return runtime
  | n + 1, runtime => do dispatchPasses n (← dispatchReceivedPackets runtime)

/-- `wait_for_transport`: an error ends the server. -/
def waitForTransport : Program LibSquid Unit := do
  if (← transportWait) < 0 then clearKeepRunning

/-- Wait for the first client or a replacement client's handshake. -/
def awaitHandshake (fuel : Nat) : Program LibSquid (Option Unit) :=
  .loop (fun _ => do
    if ← keepRunning then
      if ← snetLinkIsUp then return .inr ()
      else do
        snetBurst
        waitForTransport
        return .inl ()
    else return .inr ()) fuel ()

def serveLink (fuel : Nat) (runtime : ServerRuntime) : Program LibSquid (Option ServerRuntime) :=
  .loop (fun runtime => do
    if ← keepRunning then
      if ← snetLinkIsUp then do
        snetBurst
        let runtime ← dispatchReceivedPackets runtime
        snetBurst
        waitForTransport
        return .inl runtime
      else return .inr runtime
    else return .inr runtime) fuel runtime

def PortState.reset (st : PortState) : PortState :=
  { st with requestPacketSize := 0, requestPacketExpected := 0, pendingResponseSize := 0 }

def resetPorts : List Port → ServerRuntime → ServerRuntime
  | [], runtime => runtime
  | port :: ports, runtime => resetPorts ports (runtime.setPort port (runtime.ports port).reset)

/-- One turn of the outer loop of `run_dispatch_loop`. -/
def dispatchTurn (fuel : Nat) (runtime : ServerRuntime) :
    Program LibSquid (ServerRuntime ⊕ Option ServerRuntime) := do
  if ← keepRunning then
    match ← awaitHandshake fuel with
    | none => return .inr none
    | some () =>
      if ← keepRunning then
        match ← serveLink fuel runtime with
        | none => return .inr none
        | some runtime =>
          if ← snetLinkIsUp then return .inl runtime
          else return .inl (resetPorts pluginPorts runtime)
      else return .inr (some runtime)
  else return .inr (some runtime)

/-- `run_dispatch_loop`, each of its three loops cut off after `fuel` turns; the result is
`none` or `some none` when one of them was. -/
def runDispatchLoop (fuel : Nat) (runtime : ServerRuntime) :
    Program LibSquid (Option (Option ServerRuntime)) :=
  .loop (dispatchTurn fuel) fuel runtime

end SquidServer.Runtime

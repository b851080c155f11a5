import SquidServer.ServerTransports

namespace SquidServer.Server
open Interaction Leases CText PluginConfig Posix
open SquidServer.PluginLoader (PluginPointer Tables)
open SquidServer.Runtime (PluginReply Port PortState pluginPorts)
open SquidServer.SerialTransport (ServerSerialTransport serialSendChar serialTransportWait)
set_option autoImplicit true

inductive ServerRunMode
  | console
  | daemon
deriving DecidableEq

structure ServerConfig where
  runMode : ServerRunMode
  configPath : Buffer serverPluginPathMax
deriving DecidableEq

structure ServerRuntime where
  config : ServerConfig
  pluginConfig : ServerPluginConfigFile
  tables : Tables
  transport : ServerLocalTransport
  serialTransport : SerialLine
  ports : Port → PortState

/-- The runtime as the dispatch loop looks at it. -/
def ServerRuntime.dispatched (runtime : ServerRuntime) : Runtime.ServerRuntime :=
  ⟨runtime.tables.registered, runtime.ports⟩

/-- `init_server_runtime` clears the transports. -/
def initServerRuntime (config : ServerConfig) : ServerRuntime where
  config := config
  pluginConfig := initServerPluginConfigFile
  tables := PluginLoader.emptyTables
  transport := ⟨0, 0, ⟨[], by decide⟩⟩
  serialTransport := { initSerialLine with transport.fd := 0 }
  ports := (Runtime.initServerRuntime ⟨fun _ => none⟩).ports

/-- `none` when the process has ended by `_exit(0)`. -/
def daemonizeProcess : Program Host (Option Int) := do
  let processId ← call .fork
  if processId < 0 then return some (-1)
  else if 0 < processId then return some 0
  else if (← call .setsid) < 0 then return some (-1)
  else
    let processId ← call .fork
    if processId < 0 then return some (-1)
    else if 0 < processId then return none
    else if (← call (.chdir (ascii "/"))) ≠ 0 then return some (-1)
    else
      call .umask
      if !(← call (.freopen "stdin")) then return some (-1)
      else if !(← call (.freopen "stdout")) then return some (-1)
      else if !(← call (.freopen "stderr")) then return some (-1)
      else return some 1

def installSignalHandlers : Program Host Int := do
  if !(← call (.signal "SIGINT")) then return -1
  else if !(← call (.signal "SIGTERM")) then return -1
  else return 0

def initServerLog (runMode : ServerRunMode) : Program Host Unit :=
  if runMode = .daemon then call .openlog else return ()

def closeServerLog (runMode : ServerRunMode) : Program Host Unit :=
  if runMode = .daemon then call .closelog else return ()

abbrev serverSystemPort : UInt8 := 0

/-- The size of `load_error`. -/
abbrev loadErrorSize : Nat := 512

def loadServerPlugin (tables : Tables) (portNumber : UInt8)
    (pluginPath : Buffer serverPluginPathMax) : Program Host (Int × Tables) := do
  let loading ← fromLibraries
    (PluginLoader.loadServerPlugin loadErrorSize tables portNumber (some pluginPath.1))
  return (loading.result, loading.tables)

/-- The loop of `load_configured_plugins`. -/
def loadMappings : List ServerPluginMapping → Tables → Program Host (Int × Tables)
  | [], tables => return (0, tables)
  | mapping :: mappings, tables => do
    let (result, tables) ← loadServerPlugin tables mapping.portNumber mapping.pluginPath
    if result ≠ 0 then return (-1, tables)
    else loadMappings mappings tables

/-- `load_configured_plugins` once the configuration has been read. -/
def loadPlugins (pluginConfig : ServerPluginConfigFile) (tables : Tables) :
    Program Host (Int × Tables) := do
  let (result, tables) ← loadServerPlugin tables serverSystemPort pluginConfig.systemPluginPath
  if result ≠ 0 then return (-1, tables)
  else loadMappings pluginConfig.mappings tables

def loadConfiguredPlugins (runtime : ServerRuntime) : Program Host (Int × ServerRuntime) := do
  let file ← call (.readConfig runtime.config.configPath.1)
  match parseServerPluginConfigFile file with
  | .error _ => return (-1, runtime)
  | .ok pluginConfig =>
    let (result, tables) ← loadPlugins pluginConfig runtime.tables
    return (result, { runtime with pluginConfig, tables })

def unloadServerPlugins (runtime : ServerRuntime) : Program Host Tables :=
  fromLibraries (PluginLoader.unloadServerPlugins runtime.tables)

abbrev serverSquidQueueCapacity : Nat := Runtime.serverPacketMax + 1

/-- One turn of `open_plugin_sockets`, for a port that has a plugin. -/
def openPluginSocket (port : Port) : Program Host Int := do
  let fd ← call (.squidOpen serverSquidQueueCapacity serverSquidQueueCapacity)
  if fd < 0 then return fd
  else if (← call (.squidBind fd port)) ≠ 0 then
    call (.squidClose fd)
    return -1
  else return fd

def openPluginSockets : List Port → Runtime.ServerRuntime → Program Host Runtime.ServerRuntime
  | [], runtime => return runtime
  | port :: ports, runtime =>
    match Runtime.findServerPlugin runtime.pluginRegistry port with
    | none => openPluginSockets ports runtime
    | some _ => do
      let fd ← openPluginSocket port
      openPluginSockets ports (runtime.bindSocket port fd)

def closePluginSockets : List Port → Runtime.ServerRuntime → Program Host Runtime.ServerRuntime
  | [], runtime => return runtime
  | port :: ports, runtime => do
    if 0 ≤ (runtime.ports port).squidFd then
      call (.squidClose (runtime.ports port).squidFd)
      closePluginSockets ports (runtime.bindSocket port (-1))
    else closePluginSockets ports runtime

/-- The transport behind the hooks of libsquid. -/
inductive ActiveTransport
  | localSocket (transport : ServerLocalTransport)
  | serial (transport : ServerSerialTransport)

/-- libsquid sends on the transport. On a socket every byte leaves at once; on a serial line it is
queued. -/
def snetBurst : ActiveTransport → Program Host ActiveTransport
  | .localSocket transport => do
    let _ ← call (.snetBurst transport.clientFd)
    return .localSocket transport
  | .serial transport => do
    let bytes ← call (.snetBurst transport.fd)
    return .serial (bytes.foldl (fun transport c =>
      (serialSendChar (some transport) c).2.getD transport) transport)

/-- `wait_for_transport`; `none` when one of its loops is cut off. -/
def transportWait (fuel : Nat) : ActiveTransport → Program Host (Option (Int × ActiveTransport))
  | .localSocket transport => do
    let result ← localTransportWait fuel transport 20
    return result.map fun result => (result, .localSocket transport)
  | .serial transport => do
    let (result, transport) ← fromTty (serialTransportWait fuel transport 20)
    return result.map fun result => (result, .serial transport)

/-- What the calls of the dispatch loop do. -/
def dispatchCall (fuel : Nat) (registry : Port → Option PluginPointer) (fds : Port → Int)
    (active : ActiveTransport) :
    (op : Runtime.Call) → Program Host (Option (op.Ans × ActiveTransport))
  | .keepRunning => do return some (← call .keepRunning, active)
  | .clearKeepRunning => do return some (← call .clearKeepRunning, active)
  | .snetLinkIsUp => do return some (← call .snetLinkIsUp, active)
  | .snetBurst => do return some ((), ← snetBurst active)
  | .transportWait => transportWait fuel active
  | .squidRecv port maximum => do return some (← call (.squidRecv (fds port) maximum), active)
  | .squidSend port data => do return some (← call (.squidSend (fds port) data), active)
  | .handlePacket port request =>
    match registry port with
    | none => return none
    | some plugin => do return some (← call (.handlePacket plugin port request), active)

/-- From `open_plugin_sockets` to `close_plugin_sockets`; `none` when the dispatch loop is cut
off. -/
def serve (fuel : Nat) (tables : Tables) (runtime : Runtime.ServerRuntime)
    (active : ActiveTransport) : Program Host (Option ActiveTransport) := do
  let runtime ← openPluginSockets pluginPorts runtime
  match ← (Runtime.runDispatchLoop fuel runtime).implement
      (dispatchCall fuel tables.registry.slots fun port => (runtime.ports port).squidFd) active with
  | some (some (some runtime), active) =>
    let _ ← closePluginSockets pluginPorts runtime
    return some active
  | _ => return none

/-- The end of every run that has loaded plugins. -/
def shutDown (runtime : ServerRuntime) (result : Int) : Program Host (Option Int) := do
  let _ ← unloadServerPlugins runtime
  closeServerLog runtime.config.runMode
  return some result

def serialConfig (pluginConfig : ServerPluginConfigFile) :
    SerialTransportConfig where
  device := pluginConfig.serialDevice.1
  baud := pluginConfig.serialBaud
  databits := pluginConfig.serialDatabits
  parity := pluginConfig.serialParity
  stopbits := pluginConfig.serialStopbits
  flow := pluginConfig.serialFlow

/-- `run_server_runtime` with a serial device. -/
def serveSerial (fuel : Nat) (runtime : ServerRuntime) : Program Host (Option Int) := do
  let (result, line) ← serialTransportOpen (serialConfig runtime.pluginConfig)
    runtime.serialTransport
  if result ≠ 0 then shutDown runtime 1
  else
    call (.snetInit (UInt8.ofNat runtime.pluginConfig.squidPayload.toNat))
    match ← serve fuel runtime.tables runtime.dispatched (.serial line.transport) with
    | some (.serial transport) =>
      let _ ← serialTransportClose { line with transport }
      shutDown runtime 0
    | _ => return none

def localTransportDefaultSocketPath : List UInt8 := ascii "/tmp/squid_server.sock"

/-- `run_server_runtime` without one. -/
def serveLocal (fuel : Nat) (runtime : ServerRuntime) : Program Host (Option Int) := do
  let (result, transport) ← localTransportListen runtime.transport localTransportDefaultSocketPath
  if result ≠ 0 then shutDown runtime 1
  else
    let (result, transport) ← localTransportAccept transport
    if result ≠ 0 then
      let _ ← localTransportClose transport
      shutDown runtime 1
    else
      call (.snetInit (UInt8.ofNat runtime.pluginConfig.squidPayload.toNat))
      match ← serve fuel runtime.tables runtime.dispatched (.localSocket transport) with
      | some (.localSocket transport) =>
        let _ ← localTransportClose transport
        shutDown runtime 0
      | _ => return none

/-- `run_server_runtime` once the process is the one that serves. -/
def runServer (fuel : Nat) (runtime : ServerRuntime) : Program Host (Option Int) := do
  initServerLog runtime.config.runMode
  if (← installSignalHandlers) ≠ 0 then
    closeServerLog runtime.config.runMode
    return some 1
  else
    let (result, runtime) ← loadConfiguredPlugins runtime
    if result ≠ 0 then shutDown runtime 1
    else if runtime.pluginConfig.serialDevice.1 ≠ [] then serveSerial fuel runtime
    else serveLocal fuel runtime

/-- The exit status; `none` when one of the loops is cut off, which each is after `fuel` turns. -/
def runServerRuntime (fuel : Nat) (runtime : ServerRuntime) : Program Host (Option Int) := do
  if runtime.config.runMode = .daemon then
    match ← daemonizeProcess with
    | none => return some 0
    | some daemonResult =>
      if daemonResult < 0 then return some 1
      -- The original parent exits at once.
      else if daemonResult = 0 then return some 0
      else runServer fuel runtime
  else runServer fuel runtime

end SquidServer.Server

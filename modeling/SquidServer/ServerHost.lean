import SquidServer.Leases
import SquidServer.PluginLoader
import SquidServer.SerialTransport

namespace SquidServer.Server
open Interaction Leases PluginConfig
open SquidServer.PluginLoader (PluginPointer Libraries)
open SquidServer.Runtime (Port PluginReply)
open SquidServer.SerialTransport (Tty)
set_option autoImplicit true

/-- The settings of a terminal. The speeds are the rates they stand for, and the two entries of
`c_cc` are those that `configure_port` sets. -/
structure Termios where
  cIflag : UInt32
  cOflag : UInt32
  cCflag : UInt32
  cLflag : UInt32
  inputSpeed : Int
  outputSpeed : Int
  vmin : UInt8
  vtime : UInt8
deriving DecidableEq

/-- What the server calls: the operating system, its own plugins and libsquid. A call that gives a
descriptor or a result gives it as the function of C does. `readConfig` gives the text of the file
that `parse_server_plugin_config_file` reads, and `snetBurst` runs libsquid on the descriptor of the
hooks and gives the bytes that it has handed to `send_char`. -/
inductive Call where
  | fork
  | setsid
  | chdir (path : List UInt8)
  | umask
  | freopen (stream : String)
  | signal (name : String)
  | openlog
  | closelog
  | readConfig (path : List UInt8)
  | library (call : PluginLoader.Call)
  | socket
  | unlink (path : List UInt8)
  | bind (fd : Int) (path : List UInt8)
  | listen (fd : Int)
  | accept (fd : Int)
  | openDevice (path : List UInt8)
  | tcgetattr (fd : Int)
  | tcsetattr (fd : Int) (tty : Termios)
  | close (fd : Int)
  | tty (call : SerialTransport.Call)
  | snetInit (payloadBytes : UInt8)
  | snetLinkIsUp
  | snetBurst (fd : Int)
  | squidOpen (rxCapacity txCapacity : Nat)
  | squidBind (fd : Int) (port : Port)
  | squidClose (fd : Int)
  | squidRecv (fd : Int) (maximum : Nat)
  | squidSend (fd : Int) (data : List UInt8)
  | handlePacket (plugin : PluginPointer) (port : Port) (request : List UInt8)
  | keepRunning
  | clearKeepRunning

abbrev Call.Ans : Call → Type
  | .fork => Int
  | .setsid => Int
  | .chdir _ => Int
  | .umask => Unit
  | .freopen _ => Bool
  | .signal _ => Bool
  | .openlog => Unit
  | .closelog => Unit
  | .readConfig _ => Option (List UInt8)
  | .library call => call.Ans
  | .socket => Int
  | .unlink _ => Int
  | .bind _ _ => Int
  | .listen _ => Int
  | .accept _ => Int
  | .openDevice _ => Int
  | .tcgetattr _ => Option Termios
  | .tcsetattr _ _ => Int
  | .close _ => Int
  | .tty call => call.Ans
  | .snetInit _ => Unit
  | .snetLinkIsUp => Bool
  | .snetBurst _ => List UInt8
  | .squidOpen _ _ => Int
  | .squidBind _ _ => Int
  | .squidClose _ => Unit
  | .squidRecv _ _ => Option (List UInt8)
  | .squidSend _ _ => Bool
  | .handlePacket _ _ _ => PluginReply
  | .keepRunning => Bool
  | .clearKeepRunning => Unit

abbrev Host : Effect := ⟨Call, Call.Ans⟩

def call (op : Call) : Program Host op.Ans := .ask (E := Host) op

/-- The calls of the plugin loader. -/
def fromLibraries (p : Program Libraries α) : Program Host α :=
  p.lift (F := Host) Call.library fun _ r => r

/-- The calls on the terminal. -/
def fromTty (p : Program Tty α) : Program Host α := p.lift (F := Host) Call.tty fun _ r => r

/-- What the server can have in hand. A plugin with both callbacks is running from its successful
start to its stop. -/
inductive Resource where
  | log
  | library (handle : PluginLoader.Handle)
  | running (plugin : PluginPointer)
  | descriptor (fd : Int)
  | socketFile (path : List UInt8)
  | stream (fd : Int)
deriving DecidableEq

/-- A plugin that is started and stopped. -/
def startsAndStops (plugin : PluginPointer) : Bool := plugin.plugin.start && plugin.plugin.stop

def runningPlugin (plugin : PluginPointer) : List Resource :=
  if startsAndStops plugin then [.running plugin] else []

/-- What a call that gives a descriptor has opened. -/
def opened (resource : Int → Resource) (fd : Int) : List Resource :=
  if 0 ≤ fd then [resource fd] else []

def libraryLease : Lease Libraries Resource where
  needs
    | .dlsym handle _ => [.library handle]
    | .stop plugin => runningPlugin plugin
    | .dlclose handle => [.library handle]
    | _ => []
  takes
    | ⟨.dlopen _, some handle⟩ => [.library handle]
    | ⟨.start plugin, result⟩ => if result = 0 then runningPlugin plugin else []
    | _ => []
  returns
    | ⟨.stop plugin, _⟩ => runningPlugin plugin
    | ⟨.dlclose handle, _⟩ => [.library handle]
    | _ => []

def ttyLease : Lease Tty Resource where
  needs
    | .write fd _ => [.descriptor fd]
    | .poll fd _ _ => [.descriptor fd]
  takes := fun _ => []
  returns := fun _ => []

def hostLease : Lease Host Resource where
  needs
    | .closelog => [.log]
    | .library call => libraryLease.needs call
    | .bind fd _ => [.descriptor fd]
    | .listen fd => [.descriptor fd]
    | .accept fd => [.descriptor fd]
    | .tcgetattr fd => [.descriptor fd]
    | .tcsetattr fd _ => [.descriptor fd]
    | .close fd => [.descriptor fd]
    | .tty call => ttyLease.needs call
    | .snetBurst fd => [.descriptor fd]
    | .squidBind fd _ => [.stream fd]
    | .squidClose fd => [.stream fd]
    | .squidRecv fd _ => [.stream fd]
    | .squidSend fd _ => [.stream fd]
    | .handlePacket plugin _ _ => runningPlugin plugin
    | _ => []
  takes
    | ⟨.openlog, _⟩ => [.log]
    | ⟨.library call, r⟩ => libraryLease.takes ⟨call, r⟩
    | ⟨.socket, fd⟩ => opened .descriptor fd
    | ⟨.bind _ path, result⟩ => if result = 0 then [.socketFile path] else []
    | ⟨.accept _, fd⟩ => opened .descriptor fd
    | ⟨.openDevice _, fd⟩ => opened .descriptor fd
    | ⟨.squidOpen _ _, fd⟩ => opened .stream fd
    | _ => []
  returns
    | ⟨.closelog, _⟩ => [.log]
    | ⟨.library call, r⟩ => libraryLease.returns ⟨call, r⟩
    | ⟨.unlink path, _⟩ => [.socketFile path]
    | ⟨.close fd, _⟩ => [.descriptor fd]
    | ⟨.squidClose fd, _⟩ => [.stream fd]
    | _ => []

theorem fromLibraries_leased {p : Program Libraries α} {Q : α → Multiset Resource → Prop}
    (h : Leased libraryLease p Q held) : Leased hostLease (fromLibraries p) Q held :=
  leased_lift (L := hostLease) (M := libraryLease) (fun _ => rfl) (fun _ _ _ => rfl) h

theorem fromTty_leased {p : Program Tty α} {Q : α → Multiset Resource → Prop}
    (h : Leased ttyLease p Q held) : Leased hostLease (fromTty p) Q held :=
  leased_lift (L := hostLease) (M := ttyLease) (fun _ => rfl) (fun _ _ _ => rfl) h

end SquidServer.Server

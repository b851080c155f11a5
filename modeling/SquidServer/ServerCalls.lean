import SquidServer.ServerRuntime

namespace SquidServer.Server
open Interaction PluginConfig
open SquidServer.PluginLoader (Tables)
open SquidServer.Runtime (Port)
set_option autoImplicit true

/-- The calls that neither read the configuration, nor have to do with the settings of a terminal,
nor run libsquid or a plugin on a packet. -/
def Plain : Call → Prop
  | .readConfig _ => False
  | .tcgetattr _ => False
  | .tcsetattr _ _ => False
  | .snetBurst _ => False
  | .handlePacket _ _ _ => False
  | _ => True

/-- The calls that have nothing to do with a plugin. -/
def Beside : Call → Prop
  | .library _ => False
  | .handlePacket _ _ _ => False
  | _ => True

/-- The calls that are plain and have nothing to do with a plugin. -/
def Idle : Call → Prop
  | .readConfig _ => False
  | .library _ => False
  | .tcgetattr _ => False
  | .tcsetattr _ _ => False
  | .snetBurst _ => False
  | .handlePacket _ _ _ => False
  | _ => True

theorem Idle.plain {op : Call} (h : Idle op) : Plain op := by
  cases op <;> first | exact False.elim h | exact trivial

theorem Idle.beside {op : Call} (h : Idle op) : Beside op := by
  cases op <;> first | exact False.elim h | exact trivial

theorem calls_lift {E F : Effect} {inj : E.Op → F.Op} {ans : ∀ op, F.Ans (inj op) → E.Ans op}
    {P : F.Op → Prop} (h : ∀ op, P (inj op)) (p : Program E α) : Calls P (p.lift inj ans) := by
  induction p with
  | pure a => exact .pure a
  | call op k ih => exact .call (h op) fun r => ih _

theorem calls_call {P : Call → Prop} (op : Call) (h : P op) : Calls P (call op) := .ask h

theorem unloadServerPlugins_calls (runtime : ServerRuntime) :
    Calls Plain (unloadServerPlugins runtime) := calls_lift (fun _ => trivial) _

theorem initServerLog_calls (runMode : ServerRunMode) : Calls Idle (initServerLog runMode) := by
  rw [initServerLog]
  split
  · exact calls_call .openlog trivial
  · exact .pure _

theorem installSignalHandlers_calls : Calls Idle installSignalHandlers := by
  refine (calls_call (.signal _) trivial).bind ?_
  rintro (_ | _)
  · exact .pure _
  · refine (calls_call (.signal _) trivial).bind ?_
    rintro (_ | _) <;> exact .pure _

theorem closeServerLog_calls (runMode : ServerRunMode) :
    Calls Idle (closeServerLog runMode) := by
  rw [closeServerLog]
  split
  · exact .ask trivial
  · exact .pure _

theorem shutDown_calls (runtime : ServerRuntime) (result : Int) :
    Calls Plain (shutDown runtime result) :=
  (unloadServerPlugins_calls runtime).bind fun _ =>
    ((closeServerLog_calls runtime.config.runMode).mono fun _ h => h.plain).bind fun _ => .pure _

theorem loadServerPlugin_calls (tables : Tables) (portNumber : UInt8)
    (pluginPath : Buffer serverPluginPathMax) :
    Calls Plain (loadServerPlugin tables portNumber pluginPath) :=
  (calls_lift (fun _ => trivial) _).bind fun _ => .pure _

theorem loadMappings_calls (mappings : List ServerPluginMapping) (tables : Tables) :
    Calls Plain (loadMappings mappings tables) := by
  induction mappings generalizing tables with
  | nil => exact .pure _
  | cons mapping mappings ih =>
    refine (loadServerPlugin_calls tables mapping.portNumber mapping.pluginPath).bind ?_
    rintro ⟨result, tables₁⟩
    dsimp only
    split
    · exact .pure _
    · exact ih tables₁

theorem loadPlugins_calls (pluginConfig : ServerPluginConfigFile) (tables : Tables) :
    Calls Plain (loadPlugins pluginConfig tables) := by
  refine (loadServerPlugin_calls tables serverSystemPort pluginConfig.systemPluginPath).bind ?_
  rintro ⟨result, tables₁⟩
  dsimp only
  split
  · exact .pure _
  · exact loadMappings_calls pluginConfig.mappings tables₁

theorem openPluginSockets_calls (ports : List Port) (runtime : Runtime.ServerRuntime) :
    Calls Idle (openPluginSockets ports runtime) := by
  induction ports generalizing runtime with
  | nil => exact .pure _
  | cons port ports ih =>
    rw [openPluginSockets]
    split
    · exact ih runtime
    · have hsocket : Calls Idle (openPluginSocket port) := by
        refine (Calls.ask trivial).bind fun fd => ?_
        split
        · exact .pure _
        · refine (Calls.ask trivial).bind fun result => ?_
          split
          · exact (Calls.ask trivial).bind fun _ => .pure _
          · exact .pure _
      exact hsocket.bind fun fd => ih _

theorem closePluginSockets_calls (ports : List Port) (runtime : Runtime.ServerRuntime) :
    Calls Idle (closePluginSockets ports runtime) := by
  induction ports generalizing runtime with
  | nil => exact .pure _
  | cons port ports ih =>
    rw [closePluginSockets]
    split
    · exact (Calls.ask trivial).bind fun _ => ih _
    · exact ih runtime

theorem localTransportListen_calls (transport : ServerLocalTransport) (path : List UInt8) :
    Calls Idle (localTransportListen transport path) := by
  rw [localTransportListen]
  split
  · refine (Calls.ask trivial).bind fun fd => ?_
    split
    · exact .pure _
    · refine (Calls.ask trivial).bind fun _ => (Calls.ask trivial).bind fun bound => ?_
      split
      · exact (Calls.ask trivial).bind fun _ => .pure _
      · refine (Calls.ask trivial).bind fun listening => ?_
        split
        · exact (Calls.ask trivial).bind fun _ => (Calls.ask trivial).bind fun _ => .pure _
        · exact .pure _
  · exact .pure _

theorem localTransportAccept_calls (transport : ServerLocalTransport) :
    Calls Idle (localTransportAccept transport) := by
  rw [localTransportAccept]
  split
  · exact .pure _
  · refine (Calls.ask trivial).bind fun fd => ?_
    split <;> exact .pure _

theorem localTransportClose_calls (transport : ServerLocalTransport) :
    Calls Idle (localTransportClose transport) := by
  have hclient : Calls Idle (closeClient transport) := by
    rw [closeClient]
    split
    · exact (Calls.ask trivial).bind fun _ => .pure _
    · exact .pure _
  refine hclient.bind fun transport₁ => ?_
  split
  · exact (Calls.ask trivial).bind fun _ => (Calls.ask trivial).bind fun _ => .pure _
  · exact .pure _

theorem daemonizeProcess_calls : Calls Idle daemonizeProcess := by
  refine (calls_call .fork trivial).bind fun processId => ?_
  split
  · exact .pure _
  · split
    · exact .pure _
    · refine (calls_call .setsid trivial).bind fun session => ?_
      split
      · exact .pure _
      · refine (calls_call .fork trivial).bind fun processId' => ?_
        split
        · exact .pure _
        · split
          · exact .pure _
          · refine (calls_call (.chdir _) trivial).bind fun changed => ?_
            split
            · exact .pure _
            · refine (calls_call .umask trivial).bind fun _ => ?_
              refine (calls_call (.freopen _) trivial).bind ?_
              rintro (_ | _)
              · exact .pure _
              · refine (calls_call (.freopen _) trivial).bind ?_
                rintro (_ | _)
                · exact .pure _
                · refine (calls_call (.freopen _) trivial).bind ?_
                  rintro (_ | _) <;> exact .pure _

theorem transportWait_calls {active : ActiveTransport} (fuel : Nat) :
    Calls Idle (transportWait fuel active) := by
  cases active with
  | localSocket transport =>
    have hwait : Calls Idle (localTransportWait fuel transport 20) := by
      rw [localTransportWait]
      split
      · exact .pure _
      · refine (calls_lift (fun _ => trivial) _).bind ?_
        rintro (_ | _ | _ | revents)
        · exact .pure _
        · exact .pure _
        · exact .pure _
        · dsimp only
          split <;> exact .pure _
    exact hwait.bind fun _ => .pure _
  | serial transport => exact (calls_lift (fun _ => trivial) _).bind fun _ => .pure _

end SquidServer.Server

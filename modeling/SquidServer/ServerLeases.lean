import SquidServer.RuntimeSockets
import SquidServer.ServerRuntime

namespace SquidServer.Server
open Interaction Leases PluginConfig
open SquidServer.PluginLoader (Handle InStep Libraries LoadedServerPlugin Loading PluginPointer
  Tables loadFromFactory loadFromLibrary resolvePluginPath unloadEntries)
open SquidServer.Runtime (Dispatches Port pluginPorts)
open SquidServer.SerialTransport (ServerSerialTransport serialSendChar)
set_option autoImplicit true

/-- What a loaded plugin keeps in hand. -/
def pluginResources (entry : LoadedServerPlugin) : Multiset Resource :=
  {Resource.library entry.libraryHandle} + (runningPlugin entry.plugin : Multiset Resource)

def tableResources (tables : Tables) : Multiset Resource :=
  (tables.loadedPlugins.map pluginResources).sum

section
variable {held : Multiset Resource} {tables : Tables}

theorem libraryCall_quiet (op : PluginLoader.Call) (hneeds : ∀ i ∈ libraryLease.needs op, i ∈ held)
    (hquiet : ∀ r, libraryLease.takes ⟨op, r⟩ = [] ∧ libraryLease.returns ⟨op, r⟩ = []) :
    Leased libraryLease (.ask op) (fun _ held' => held' = held) held :=
  leased_ask hneeds fun r => Lease.step_quiet (hquiet r).1 (hquiet r).2

theorem dlclose_leased (handle : Handle) :
    Leased libraryLease (PluginLoader.dlclose handle) (fun _ held' => held' = held)
      (held + {.library handle}) :=
  leased_ask (needs_singleton (mem_add_singleton held _)) fun _ =>
    Lease.step_returns rfl {Resource.library handle} rfl

theorem callStart_leased (plugin : PluginPointer) :
    Leased libraryLease (PluginLoader.callStart plugin) (fun result held' =>
      (result ≠ 0 ∧ held' = held) ∨
        (result = 0 ∧ held' = held + (runningPlugin plugin : Multiset Resource))) held := by
  refine leased_ask (needs_none rfl) fun result => ?_
  have htakes : libraryLease.takes ⟨.start plugin, result⟩ =
      if result = 0 then runningPlugin plugin else [] := rfl
  rw [Lease.step_takes rfl, htakes]
  by_cases hresult : result = 0
  · rw [if_pos hresult]
    exact .inr ⟨hresult, rfl⟩
  · rw [if_neg hresult]
    exact .inl ⟨hresult, add_zero held⟩

theorem callStop_leased (plugin : PluginPointer) :
    Leased libraryLease (PluginLoader.callStop plugin) (fun _ held' => held' = held)
      (held + (runningPlugin plugin : Multiset Resource)) :=
  leased_ask (fun _ h => Multiset.mem_add.2 (.inr h)) fun _ => Lease.step_returns rfl _ rfl

/-- A load either leaves everything as it was or has one more plugin in hand. -/
def LoadLeased (tables : Tables) (held : Multiset Resource) (loading : Loading)
    (held' : Multiset Resource) : Prop :=
  (loading.result = -1 ∧ loading.tables.loadedPlugins = tables.loadedPlugins ∧ held' = held) ∨
    (loading.result = 0 ∧ ∃ entry,
      loading.tables.loadedPlugins = entry :: tables.loadedPlugins ∧
        held' = held + pluginResources entry)

theorem loadFromFactory_leased :
    Leased libraryLease
      (loadFromFactory errorBufferSize tables portNumber pluginPath handle factory)
      (LoadLeased tables held) (held + {.library handle}) := by
  have hfailed : ∀ message tables', tables'.loadedPlugins = tables.loadedPlugins →
      Leased libraryLease ((PluginLoader.dlclose handle).bind fun _ =>
        .pure (PluginLoader.failed errorBufferSize message tables')) (LoadLeased tables held)
        (held + {.library handle}) := by
    intro message tables' htables
    refine leased_bind (dlclose_leased handle) ?_
    rintro _ _ rfl
    exact leased_pure (.inl ⟨rfl, htables, rfl⟩)
  have hrecorded : ∀ plugin registry held',
      held' = held + {.library handle} + (runningPlugin plugin : Multiset Resource) →
      Leased libraryLease (.pure (PluginLoader.recordPlugin errorBufferSize tables portNumber
        pluginPath handle plugin registry)) (LoadLeased tables held) held' := by
    rintro plugin registry _ rfl
    exact leased_pure (.inr ⟨rfl, _, rfl, add_assoc _ _ _⟩)
  rw [loadFromFactory]
  refine leased_bind (libraryCall_quiet (.factory factory) (needs_none rfl) fun _ => ⟨rfl, rfl⟩) ?_
  rintro (_ | plugin) _ rfl
  · exact hfailed _ tables rfl
  · dsimp only
    split
    · exact hfailed _ tables rfl
    · split
      · exact hfailed _ tables rfl
      · split
        · rename_i hstart
          refine leased_bind (callStart_leased plugin) ?_
          rintro result _ (⟨hresult, rfl⟩ | ⟨hresult, rfl⟩)
          · rw [if_pos hresult]
            exact hfailed _ _ rfl
          · rw [if_neg (not_not.2 hresult)]
            exact hrecorded plugin _ _ rfl
        · rename_i hstart
          refine hrecorded plugin _ _ ?_
          have hnone : runningPlugin plugin = [] := by
            rw [runningPlugin, if_neg]
            simp [startsAndStops, hstart]
          rw [hnone, Multiset.coe_nil, add_zero]

theorem loadFromLibrary_leased :
    Leased libraryLease (loadFromLibrary errorBufferSize tables portNumber pluginPath handle)
      (LoadLeased tables held) (held + {.library handle}) := by
  rw [loadFromLibrary]
  refine leased_bind (libraryCall_quiet .dlerror (needs_none rfl) fun _ => ⟨rfl, rfl⟩) ?_
  rintro _ _ rfl
  refine leased_bind (libraryCall_quiet (.dlsym handle "get_server_plugin")
    (needs_singleton (mem_add_singleton held _)) fun _ => ⟨rfl, rfl⟩) ?_
  rintro factory _ rfl
  refine leased_bind (libraryCall_quiet .dlerror (needs_none rfl) fun _ => ⟨rfl, rfl⟩) ?_
  rintro dlError _ rfl
  split
  · exact loadFromFactory_leased
  · refine leased_bind (dlclose_leased handle) ?_
    rintro _ _ rfl
    exact leased_pure (.inl ⟨rfl, rfl, rfl⟩)

theorem resolvePluginPath_leased (path : List UInt8) (size : Nat) :
    Leased libraryLease (resolvePluginPath path size) (fun _ held' => held' = held) held := by
  rw [resolvePluginPath]
  refine leased_bind (libraryCall_quiet (.getenv _) (needs_none rfl) fun _ => ⟨rfl, rfl⟩) ?_
  rintro (_ | stageRoot) _ rfl
  · exact leased_pure rfl
  · dsimp only
    split
    · split <;> exact leased_pure rfl
    · exact leased_pure rfl

theorem dlopen_leased (path : List UInt8) :
    Leased libraryLease (PluginLoader.dlopen path) (fun answer held' =>
      (answer = none ∧ held' = held) ∨
        ∃ handle, answer = some handle ∧ held' = held + {.library handle}) held := by
  refine leased_ask (needs_none rfl) ?_
  rintro (_ | handle)
  · exact .inl ⟨rfl, Lease.step_quiet rfl rfl⟩
  · exact .inr ⟨handle, rfl, Lease.step_takes rfl⟩

theorem loaderLoad_leased :
    Leased libraryLease
      (PluginLoader.loadServerPlugin errorBufferSize tables portNumber pluginPath)
      (LoadLeased tables held) held := by
  cases pluginPath with
  | none => exact leased_pure (.inl ⟨rfl, rfl, rfl⟩)
  | some pluginPath =>
    rw [PluginLoader.loadServerPlugin]
    split
    · exact leased_pure (.inl ⟨rfl, rfl, rfl⟩)
    · split
      · exact leased_pure (.inl ⟨rfl, rfl, rfl⟩)
      · refine leased_bind (resolvePluginPath_leased _ _) ?_
        rintro (_ | path) _ rfl
        · exact leased_pure (.inl ⟨rfl, rfl, rfl⟩)
        · refine leased_bind (dlopen_leased path) ?_
          rintro _ _ (⟨rfl, rfl⟩ | ⟨handle, rfl, rfl⟩)
          · refine leased_bind (libraryCall_quiet .dlerror (needs_none rfl) fun _ => ⟨rfl, rfl⟩) ?_
            rintro _ _ rfl
            exact leased_pure (.inl ⟨rfl, rfl, rfl⟩)
          · exact loadFromLibrary_leased

theorem unloadEntries_leased (entries : List LoadedServerPlugin)
    (registry : PluginLoader.ServerPluginRegistry) :
    Leased libraryLease (unloadEntries entries registry) (fun _ held' => held' = held)
      (held + (entries.map pluginResources).sum) := by
  induction entries generalizing registry with
  | nil => exact leased_pure (add_zero held)
  | cons entry entries ih =>
    rw [unloadEntries, List.map_cons, List.sum_cons, pluginResources, add_comm _ (List.sum _),
      ← add_assoc, ← add_assoc]
    have hclose : Leased libraryLease
        ((PluginLoader.dlclose entry.libraryHandle).bind fun _ =>
          unloadEntries entries (PluginLoader.clearPluginSlot registry entry.portNumber))
        (fun _ held' => held' = held)
        (held + (entries.map pluginResources).sum + {.library entry.libraryHandle}) := by
      refine leased_bind (dlclose_leased entry.libraryHandle) ?_
      rintro _ _ rfl
      exact ih _
    split
    · refine leased_bind (callStop_leased entry.plugin) ?_
      rintro _ _ rfl
      exact hclose
    · rename_i hstop
      have hnone : runningPlugin entry.plugin = [] := by
        rw [runningPlugin, if_neg]
        simp [startsAndStops, hstop]
      rw [hnone, Multiset.coe_nil, add_zero]
      exact hclose

end

/-- The sockets of some ports. -/
def socketResources (ports : List Port) (runtime : Runtime.ServerRuntime) : Multiset Resource :=
  (ports.map fun port =>
    (opened .stream (runtime.ports port).squidFd : Multiset Resource)).sum

section
variable {held : Multiset Resource} {runtime : Runtime.ServerRuntime} {port : Port}

theorem squidClose_leased (fd : Int) :
    Leased hostLease (call (.squidClose fd)) (fun _ held' => held' = held)
      (held + {.stream fd}) := call_returns _ _ rfl fun _ => ⟨rfl, rfl⟩

theorem openPluginSocket_leased (port : Port) :
    Leased hostLease (openPluginSocket port) (fun fd held' =>
      held' = held + (opened .stream fd : Multiset Resource)) held := by
  rw [openPluginSocket]
  have hopen : Leased hostLease
      (call (.squidOpen serverSquidQueueCapacity serverSquidQueueCapacity))
      (Opening .stream held) held := by
    refine leased_ask (needs_none rfl) fun fd => ?_
    rw [Lease.step_takes rfl]
    exact opening_step _ held fd
  refine leased_bind hopen ?_
  rintro fd _ (⟨hfd, rfl⟩ | ⟨hfd, rfl⟩)
  · rw [if_pos hfd]
    refine leased_pure ?_
    rw [opened_neg _ hfd, add_zero]
  · rw [if_neg (Int.not_lt.2 hfd)]
    refine leased_bind (call_quiet (.squidBind fd port)
      (needs_singleton (mem_add_singleton held _)) fun _ => ⟨rfl, rfl⟩) ?_
    rintro result _ rfl
    split
    · refine leased_bind (squidClose_leased fd) ?_
      rintro _ _ rfl
      exact leased_pure (add_zero _).symm
    · refine leased_pure ?_
      rw [opened_nonneg _ hfd]

theorem socketResources_congr {runtime' : Runtime.ServerRuntime} {ports : List Port}
    (h : ∀ port ∈ ports, (runtime.ports port).squidFd = (runtime'.ports port).squidFd) :
    socketResources ports runtime = socketResources ports runtime' := by
  rw [socketResources, socketResources]
  refine congrArg List.sum (List.map_congr_left fun port hport => ?_)
  rw [h port hport]

theorem openPluginSockets_leased {ports : List Port} (hnodup : ports.Nodup)
    (hclosed : ∀ port ∈ ports, (runtime.ports port).squidFd < 0) :
    Leased hostLease (openPluginSockets ports runtime) (fun runtime' held' =>
      held' = held + socketResources ports runtime' ∧
        runtime'.pluginRegistry = runtime.pluginRegistry ∧
          ∀ port, port ∉ ports → runtime'.ports port = runtime.ports port) held := by
  induction ports generalizing runtime held with
  | nil => exact leased_pure ⟨(add_zero held).symm, rfl, fun _ _ => rfl⟩
  | cons port ports ih =>
    obtain ⟨hfresh, hnodup⟩ := List.nodup_cons.1 hnodup
    have hrest : ∀ (runtime₁ : Runtime.ServerRuntime),
        (∀ port ∈ ports, (runtime₁.ports port).squidFd < 0) →
        Leased hostLease (openPluginSockets ports runtime₁) (fun runtime' held' =>
          held' = held + socketResources (port :: ports) runtime' ∧
            runtime'.pluginRegistry = runtime₁.pluginRegistry ∧
              ∀ q, q ∉ ports → runtime'.ports q = runtime₁.ports q)
          (held + (opened .stream (runtime₁.ports port).squidFd : Multiset Resource)) := by
      intro runtime₁ hclosed₁
      refine (ih hnodup hclosed₁).mono ?_
      rintro runtime' _ ⟨rfl, hregistry, hsame⟩
      refine ⟨?_, hregistry, hsame⟩
      have hsum : socketResources (port :: ports) runtime' =
          (opened .stream (runtime'.ports port).squidFd : Multiset Resource) +
            socketResources ports runtime' := List.sum_cons
      rw [hsum, hsame port hfresh, ← add_assoc]
    rw [openPluginSockets]
    cases Runtime.findServerPlugin runtime.pluginRegistry port with
    | none =>
      have hnone := hrest runtime fun q hq => hclosed q (List.mem_cons_of_mem _ hq)
      rw [opened_neg _ (hclosed port List.mem_cons_self), add_zero] at hnone
      refine hnone.mono ?_
      rintro runtime' held' ⟨hheld, hregistry, hsame⟩
      exact ⟨hheld, hregistry, fun q hq => hsame q fun h => hq (List.mem_cons_of_mem _ h)⟩
    | some plugin =>
      refine leased_bind (openPluginSocket_leased port) ?_
      rintro fd _ rfl
      have hother : ∀ q, q ≠ port → (runtime.bindSocket port fd).ports q = runtime.ports q :=
        fun q hq => Runtime.ServerRuntime.setPort_other runtime _ hq
      have hsome := hrest (runtime.bindSocket port fd) fun q hq => by
        rw [hother q fun h => hfresh (h ▸ hq)]
        exact hclosed q (List.mem_cons_of_mem _ hq)
      rw [Runtime.ServerRuntime.bindSocket, Runtime.ServerRuntime.setPort_same] at hsome
      refine hsome.mono ?_
      rintro runtime' held' ⟨hheld, hregistry, hsame⟩
      refine ⟨hheld, hregistry, fun q hq => ?_⟩
      rw [hsame q fun h => hq (List.mem_cons_of_mem _ h)]
      exact hother q fun h => hq (h ▸ List.mem_cons_self)

theorem closePluginSockets_leased {ports : List Port} (hnodup : ports.Nodup) :
    Leased hostLease (closePluginSockets ports runtime) (fun _ held' => held' = held)
      (held + socketResources ports runtime) := by
  induction ports generalizing runtime held with
  | nil => exact leased_pure (add_zero held)
  | cons port ports ih =>
    obtain ⟨hfresh, hnodup⟩ := List.nodup_cons.1 hnodup
    rw [closePluginSockets, socketResources, List.map_cons, List.sum_cons,
      add_comm _ (List.sum _), ← add_assoc]
    split
    · rename_i hfd
      rw [opened_nonneg _ hfd]
      refine leased_bind (squidClose_leased _) ?_
      rintro _ _ rfl
      have hsame : socketResources ports runtime =
          socketResources ports (runtime.bindSocket port (-1)) := by
        refine socketResources_congr fun q hq => ?_
        have hother : q ≠ port := fun h => hfresh (h ▸ hq)
        rw [Runtime.ServerRuntime.bindSocket, Runtime.ServerRuntime.setPort_other runtime _ hother]
      change Leased _ _ _ (_ + socketResources ports runtime)
      rw [hsame]
      exact ih hnodup
    · rename_i hfd
      rw [opened_neg _ (Int.not_le.1 hfd), add_zero]
      exact ih hnodup

theorem mem_sum_map {l : List β} {f : β → Multiset Resource} (hb : b ∈ l) (hi : i ∈ f b) :
    i ∈ (l.map f).sum := by
  induction l with
  | nil => exact absurd hb List.not_mem_nil
  | cons c l ih =>
    rw [List.map_cons, List.sum_cons, Multiset.mem_add]
    rcases List.mem_cons.1 hb with rfl | hb
    · exact .inl hi
    · exact .inr (ih hb)

theorem of_mem_sum_map {l : List β} {f : β → Multiset Resource} (h : i ∈ (l.map f).sum) :
    ∃ b ∈ l, i ∈ f b := by
  induction l with
  | nil => exact absurd h (Multiset.notMem_zero i)
  | cons c l ih =>
    rw [List.map_cons, List.sum_cons, Multiset.mem_add] at h
    rcases h with h | h
    · exact ⟨c, List.mem_cons_self, h⟩
    · obtain ⟨b, hb, hi⟩ := ih h
      exact ⟨b, List.mem_cons_of_mem _ hb, hi⟩

theorem mem_socketResources {ports : List Port} (hport : port ∈ ports)
    (hfd : 0 ≤ (runtime.ports port).squidFd) :
    .stream (runtime.ports port).squidFd ∈ socketResources ports runtime := by
  refine mem_sum_map hport ?_
  rw [opened_nonneg _ hfd]
  exact Multiset.mem_singleton_self _

theorem mem_tableResources {tables : Tables} (hstep : InStep tables) {plugin : PluginPointer}
    (h : tables.registry.slots port = some plugin) :
    ∀ i ∈ runningPlugin plugin, i ∈ tableResources tables := by
  obtain ⟨entry, hentry, -, rfl⟩ := (hstep.slots port plugin).1 h
  intro i hi
  exact mem_sum_map hentry (Multiset.mem_add.2 (.inr hi))

end

/-- What libsquid's hooks work on. -/
def ActiveTransport.fd : ActiveTransport → Int
  | .localSocket transport => transport.clientFd
  | .serial transport => transport.fd

/-- The transport is the same one; only the queue of a serial line may have changed. -/
def ActiveTransport.Same : ActiveTransport → ActiveTransport → Prop
  | .localSocket transport, .localSocket transport' => transport' = transport
  | .serial transport, .serial transport' => transport'.fd = transport.fd
  | _, _ => False

theorem ActiveTransport.Same.refl (active : ActiveTransport) : active.Same active := by
  cases active <;> rfl

theorem ActiveTransport.Same.fd {active active' : ActiveTransport} (h : active.Same active') :
    active'.fd = active.fd := by
  cases active <;> cases active'
  · exact congrArg ServerLocalTransport.clientFd h
  · exact h.elim
  · exact h.elim
  · exact h

theorem ActiveTransport.Same.trans {active₁ active₂ active₃ : ActiveTransport}
    (h : active₁.Same active₂) (h' : active₂.Same active₃) : active₁.Same active₃ := by
  cases active₁ <;> cases active₂ <;> cases active₃ <;>
    first | exact False.elim h | exact False.elim h' | exact Eq.trans h' h

theorem serialSendChar_fd (transport : ServerSerialTransport) (c : UInt8) :
    ((serialSendChar (some transport) c).2.getD transport).fd = transport.fd := by
  rw [serialSendChar]
  split <;> rfl

theorem foldl_serialSendChar_fd (bytes : List UInt8) (transport : ServerSerialTransport) :
    (bytes.foldl (fun transport c => (serialSendChar (some transport) c).2.getD transport)
      transport).fd = transport.fd := by
  induction bytes generalizing transport with
  | nil => rfl
  | cons c bytes ih => exact (ih _).trans (serialSendChar_fd transport c)

section
variable {held : Multiset Resource} {active : ActiveTransport}

theorem snetBurst_leased (h : .descriptor active.fd ∈ held) :
    Leased hostLease (snetBurst active) (fun active' held' =>
      active.Same active' ∧ held' = held) held := by
  cases active with
  | localSocket transport =>
    refine leased_bind (call_quiet (.snetBurst transport.clientFd) (needs_singleton h)
      fun _ => ⟨rfl, rfl⟩) ?_
    rintro _ _ rfl
    exact leased_pure ⟨rfl, rfl⟩
  | serial transport =>
    refine leased_bind (call_quiet (.snetBurst transport.fd) (needs_singleton h)
      fun _ => ⟨rfl, rfl⟩) ?_
    rintro bytes _ rfl
    exact leased_pure ⟨foldl_serialSendChar_fd bytes transport, rfl⟩

theorem transportWait_leased (fuel : Nat) (h : .descriptor active.fd ∈ held) :
    Leased hostLease (transportWait fuel active) (fun x held' =>
      held' = held ∧ ∀ result active', x = some (result, active') → active.Same active') held := by
  cases active with
  | localSocket transport =>
    refine leased_bind (localTransportWait_leased fuel 20 h) ?_
    rintro (_ | result) _ rfl
    · exact leased_pure ⟨rfl, fun _ _ h => absurd h.symm (Option.some_ne_none _)⟩
    · refine leased_pure ⟨rfl, ?_⟩
      rintro _ _ ⟨⟩
      exact rfl
  | serial transport =>
    refine leased_bind (serialTransportWait_leased fuel 20 h) ?_
    rintro ⟨_ | result, transport'⟩ _ ⟨hfd, rfl⟩
    · exact leased_pure ⟨rfl, fun _ _ h => absurd h.symm (Option.some_ne_none _)⟩
    · refine leased_pure ⟨rfl, ?_⟩
      rintro _ _ ⟨⟩
      exact hfd

end

section
variable {held : Multiset Resource} {tables : Tables} {active : ActiveTransport}

theorem dispatchQuiet_leased (op : Call) (hneeds : ∀ i ∈ hostLease.needs op, i ∈ held)
    (hquiet : ∀ r, hostLease.takes ⟨op, r⟩ = [] ∧ hostLease.returns ⟨op, r⟩ = []) :
    Leased hostLease ((call op).bind fun r => .pure (some (r, active))) (fun x held' =>
      held' = held ∧ ∀ r active', x = some (r, active') → active.Same active') held := by
  refine leased_bind (call_quiet op hneeds hquiet) ?_
  rintro r _ rfl
  refine leased_pure ⟨rfl, ?_⟩
  rintro _ _ ⟨⟩
  exact .refl active

/-- The dispatch loop has in hand whatever its calls need. -/
theorem dispatchCall_leased {fds : Port → Int} {op : Runtime.Call} (fuel : Nat)
    (hstep : InStep tables) (hop : Dispatches tables.registered fds op)
    (hplugins : ∀ i ∈ tableResources tables, i ∈ held)
    (hsockets : ∀ port, 0 ≤ fds port → .stream (fds port) ∈ held)
    (hfd : .descriptor active.fd ∈ held) :
    Leased hostLease (dispatchCall fuel tables.registry.slots fds active op) (fun x held' =>
      held' = held ∧ ∀ r active', x = some (r, active') → active.Same active') held := by
  cases op with
  | keepRunning => exact dispatchQuiet_leased .keepRunning (needs_none rfl) fun _ => ⟨rfl, rfl⟩
  | clearKeepRunning =>
    exact dispatchQuiet_leased .clearKeepRunning (needs_none rfl) fun _ => ⟨rfl, rfl⟩
  | snetLinkIsUp => exact dispatchQuiet_leased .snetLinkIsUp (needs_none rfl) fun _ => ⟨rfl, rfl⟩
  | snetBurst =>
    refine leased_bind (snetBurst_leased hfd) ?_
    rintro active₁ _ ⟨hsame, rfl⟩
    refine leased_pure ⟨rfl, ?_⟩
    rintro _ _ ⟨⟩
    exact hsame
  | transportWait => exact transportWait_leased fuel hfd
  | squidRecv port maximum =>
    exact dispatchQuiet_leased (.squidRecv (fds port) maximum)
      (needs_singleton (hsockets port hop)) fun _ => ⟨rfl, rfl⟩
  | squidSend port data =>
    exact dispatchQuiet_leased (.squidSend (fds port) data)
      (needs_singleton (hsockets port hop)) fun _ => ⟨rfl, rfl⟩
  | handlePacket port request =>
    rw [dispatchCall]
    cases hslot : tables.registry.slots port with
    | none => exact leased_pure ⟨rfl, fun _ _ h => absurd h.symm (Option.some_ne_none _)⟩
    | some plugin =>
      exact dispatchQuiet_leased (.handlePacket plugin port request)
        (fun i hi => hplugins i (mem_tableResources hstep hslot i hi)) fun _ => ⟨rfl, rfl⟩

/-- What the sockets were opened for is over when they are closed; nothing else has changed
hands. -/
theorem serve_leased {runtime : Runtime.ServerRuntime} (fuel : Nat) (hstep : InStep tables)
    (hregistry : runtime.pluginRegistry = tables.registered)
    (hclosed : ∀ port, (runtime.ports port).squidFd < 0)
    (hplugins : ∀ i ∈ tableResources tables, i ∈ held)
    (hfd : .descriptor active.fd ∈ held) :
    Leased hostLease (serve fuel tables runtime active) (fun x held' =>
      ∀ active', x = some active' → active.Same active' ∧ held' = held) held := by
  have hnodup : pluginPorts.Nodup := by decide
  rw [serve]
  refine leased_bind (openPluginSockets_leased hnodup fun port _ => hclosed port) ?_
  rintro runtime₁ _ ⟨rfl, hregistry₁, hother⟩
  generalize hfds : (fun port => (runtime₁.ports port).squidFd) = fds
  have hwired : runtime₁.Wired tables.registered fds :=
    ⟨hregistry₁.trans hregistry, fun port => hfds ▸ rfl⟩
  have hsockets : ∀ port, 0 ≤ fds port →
      .stream (fds port) ∈ held + socketResources pluginPorts runtime₁ := by
    intro port hopen
    rw [← hwired.fds] at hopen ⊢
    refine Multiset.mem_add.2 (.inr (mem_socketResources ?_ hopen))
    by_contra hport
    rw [hother port hport] at hopen
    exact absurd (hclosed port) (Int.not_lt.2 hopen)
  have hloop := leased_implement (Runtime.runDispatchLoop_performs fuel hwired)
    (fun active' held' => active.Same active' ∧
      held' = held + socketResources pluginPorts runtime₁)
    (f := dispatchCall fuel tables.registry.slots fds) (L := hostLease) ?_
    ⟨.refl active, rfl⟩
  · refine leased_bind hloop ?_
    rintro (_ | ⟨_ | _ | runtime₂, active₁⟩) held₁ hend
    · exact leased_pure fun _ h => absurd h.symm (Option.some_ne_none _)
    · exact leased_pure fun _ h => absurd h.symm (Option.some_ne_none _)
    · exact leased_pure fun _ h => absurd h.symm (Option.some_ne_none _)
    · obtain ⟨hwired₂, hsame, rfl⟩ := hend _ _ rfl
      have hsame₂ : socketResources pluginPorts runtime₁ = socketResources pluginPorts runtime₂ :=
        socketResources_congr fun port _ => by rw [hwired.fds, (hwired₂ _ rfl).fds]
      rw [hsame₂]
      refine leased_bind (closePluginSockets_leased hnodup) ?_
      rintro _ _ rfl
      refine leased_pure ?_
      rintro _ ⟨⟩
      exact ⟨hsame, rfl⟩
  · rintro active₁ _ op hop ⟨hsame, rfl⟩
    refine (dispatchCall_leased fuel hstep hop
      (fun i hi => Multiset.mem_add.2 (.inl (hplugins i hi))) hsockets
      (Multiset.mem_add.2 (.inl (hsame.fd ▸ hfd)))).mono ?_
    rintro x _ ⟨rfl, hx⟩ r active₂ hsome
    exact ⟨hsame.trans (hx r active₂ hsome), rfl⟩

theorem loadServerPlugin_leased (hstep : InStep tables) (portNumber : UInt8)
    (pluginPath : Buffer serverPluginPathMax) :
    Leased hostLease (loadServerPlugin tables portNumber pluginPath) (fun x held' =>
      InStep x.2 ∧ held' = held + tableResources x.2) (held + tableResources tables) := by
  have hload : Leased libraryLease (PluginLoader.loadServerPlugin loadErrorSize tables portNumber
      (some pluginPath.1)) (LoadLeased tables (held + tableResources tables))
      (held + tableResources tables) := loaderLoad_leased
  refine leased_bind (fromLibraries_leased
    (hload.recorded (fun _ => trivial) PluginLoader.loadServerPlugin_done)) ?_
  rintro loading _ ⟨hleased, t, hdone⟩
  refine leased_pure ⟨?_, ?_⟩
  · rcases hdone with ⟨-, hport, hroom, -, entry, rfl, -, -, hfree, htables⟩ | ⟨-, htables, -⟩
    · rw [htables]
      exact hstep.add hport hroom hfree
    · rw [htables]
      exact hstep
  · rcases hleased with ⟨-, htables, rfl⟩ | ⟨-, entry, htables, rfl⟩
    · rw [tableResources, tableResources, htables]
    · rw [add_assoc, tableResources, tableResources, htables, List.map_cons, List.sum_cons,
        add_comm (pluginResources entry)]

theorem loadMappings_leased (hstep : InStep tables) (mappings : List ServerPluginMapping) :
    Leased hostLease (loadMappings mappings tables) (fun x held' =>
      InStep x.2 ∧ held' = held + tableResources x.2) (held + tableResources tables) := by
  induction mappings generalizing tables with
  | nil => exact leased_pure ⟨hstep, rfl⟩
  | cons mapping mappings ih =>
    refine leased_bind (loadServerPlugin_leased hstep mapping.portNumber mapping.pluginPath) ?_
    rintro ⟨result, tables₁⟩ _ ⟨hstep₁, rfl⟩
    dsimp only at hstep₁ ⊢
    split
    · exact leased_pure ⟨hstep₁, rfl⟩
    · exact ih hstep₁

theorem loadConfiguredPlugins_leased {runtime : ServerRuntime} (hstep : InStep runtime.tables) :
    Leased hostLease (loadConfiguredPlugins runtime) (fun x held' =>
      InStep x.2.tables ∧ x.2.config = runtime.config ∧ x.2.ports = runtime.ports ∧
        held' = held + tableResources x.2.tables) (held + tableResources runtime.tables) := by
  rw [loadConfiguredPlugins]
  refine leased_bind (call_quiet (.readConfig _) (needs_none rfl) fun _ => ⟨rfl, rfl⟩) ?_
  rintro file _ rfl
  split
  · exact leased_pure ⟨hstep, rfl, rfl, rfl⟩
  · rename_i pluginConfig _
    have hplugins : Leased hostLease (loadPlugins pluginConfig runtime.tables) (fun x held' =>
        InStep x.2 ∧ held' = held + tableResources x.2) (held + tableResources runtime.tables) := by
      rw [loadPlugins]
      refine leased_bind (loadServerPlugin_leased hstep _ _) ?_
      rintro ⟨result, tables₁⟩ _ ⟨hstep₁, rfl⟩
      dsimp only at hstep₁ ⊢
      split
      · exact leased_pure ⟨hstep₁, rfl⟩
      · exact loadMappings_leased hstep₁ pluginConfig.mappings
    refine leased_bind hplugins ?_
    rintro ⟨result, tables₁⟩ _ ⟨hstep₁, rfl⟩
    exact leased_pure ⟨hstep₁, rfl, rfl, rfl⟩

/-- The log of the system is open while a daemon runs. -/
def logResources (runMode : ServerRunMode) : Multiset Resource :=
  if runMode = .daemon then {.log} else 0

theorem initServerLog_leased (runMode : ServerRunMode) :
    Leased hostLease (initServerLog runMode) (fun _ held' => held' = held + logResources runMode)
      held := by
  rw [initServerLog, logResources]
  split
  · exact leased_ask (needs_none rfl) fun _ => Lease.step_takes rfl
  · exact leased_pure (add_zero held).symm

theorem closeServerLog_leased (runMode : ServerRunMode) :
    Leased hostLease (closeServerLog runMode) (fun _ held' => held' = held)
      (held + logResources runMode) := by
  rw [closeServerLog, logResources]
  split
  · exact call_returns .closelog .log rfl fun _ => ⟨rfl, rfl⟩
  · exact leased_pure (add_zero held)

theorem shutDown_leased (runtime : ServerRuntime) (result : Int) :
    Leased hostLease (shutDown runtime result) (fun x held' => x = some result ∧ held' = held)
      (held + logResources runtime.config.runMode + tableResources runtime.tables) := by
  refine leased_bind (fromLibraries_leased (unloadEntries_leased _ _)) ?_
  rintro _ _ rfl
  refine leased_bind (closeServerLog_leased runtime.config.runMode) ?_
  rintro _ _ rfl
  exact leased_pure ⟨rfl, rfl⟩

end

section
variable {runtime : ServerRuntime} {held : Multiset Resource}

theorem socketFile_notMem (runMode : ServerRunMode) (tables : Tables) (path : List UInt8) :
    Resource.socketFile path ∉ logResources runMode + tableResources tables := by
  rw [Multiset.mem_add]
  rintro (hlog | htables)
  · rw [logResources] at hlog
    split at hlog
    · cases Multiset.mem_singleton.1 hlog
    · exact Multiset.notMem_zero _ hlog
  · obtain ⟨entry, -, hentry⟩ := of_mem_sum_map htables
    rcases Multiset.mem_add.1 hentry with hlibrary | hrunning
    · cases Multiset.mem_singleton.1 hlibrary
    · rw [runningPlugin] at hrunning
      split at hrunning
      · cases List.mem_singleton.1 hrunning
      · exact List.not_mem_nil hrunning

/-- What a server that has loaded its plugins has in hand. -/
def ServerRuntime.resources (runtime : ServerRuntime) : Multiset Resource :=
  logResources runtime.config.runMode + tableResources runtime.tables

theorem shutDown_resources (result : Int) :
    Leased hostLease (shutDown runtime result) (fun x held' => x = some result ∧ held' = 0)
      runtime.resources := by
  have hleased : Leased hostLease (shutDown runtime result)
      (fun x held' => x = some result ∧ held' = 0)
      (0 + logResources runtime.config.runMode + tableResources runtime.tables) :=
    shutDown_leased runtime result
  rwa [zero_add] at hleased

theorem tables_mem_resources (more : Multiset Resource) :
    ∀ i ∈ tableResources runtime.tables, i ∈ runtime.resources + more := by
  intro i hi
  exact Multiset.mem_add.2 (.inl (Multiset.mem_add.2 (.inr hi)))

theorem serveSerial_leased (fuel : Nat) (hstep : InStep runtime.tables)
    (hclosed : ∀ port, (runtime.ports port).squidFd < 0) :
    Leased hostLease (serveSerial fuel runtime) (fun x held' => ∀ result, x = some result →
      (result = 0 ∨ result = 1) ∧ held' = 0) runtime.resources := by
  rw [serveSerial]
  refine leased_bind (serialTransportOpen_leased _ _) ?_
  rintro ⟨opening, line⟩ _ (⟨rfl, rfl⟩ | ⟨rfl, hfd, rfl⟩)
  · dsimp only
    rw [if_pos (by decide)]
    refine (shutDown_resources 1).mono ?_
    rintro x held' ⟨rfl, rfl⟩ _ ⟨⟩
    exact ⟨.inr rfl, rfl⟩
  · dsimp only at hfd ⊢
    rw [if_neg (by decide)]
    refine leased_bind (call_quiet (.snetInit _) (needs_none rfl) fun _ => ⟨rfl, rfl⟩) ?_
    rintro _ _ rfl
    have hline : Resource.descriptor line.transport.fd ∈ runtime.resources + line.resources := by
      rw [SerialLine.resources, opened_nonneg _ hfd]
      exact mem_add_singleton _ _
    refine leased_bind (serve_leased fuel hstep rfl hclosed (tables_mem_resources _) hline) ?_
    rintro (_ | _ | transport) held' hserved
    · exact leased_pure fun _ h => absurd h.symm (Option.some_ne_none _)
    · exact leased_pure fun _ h => absurd h.symm (Option.some_ne_none _)
    · obtain ⟨hsame, rfl⟩ := hserved _ rfl
      have hresources : line.resources = SerialLine.resources { line with transport } := by
        rw [SerialLine.resources, SerialLine.resources]
        exact congrArg (fun fd => (opened .descriptor fd : Multiset Resource)) hsame.symm
      rw [hresources]
      refine leased_bind (serialTransportClose_leased _) ?_
      rintro _ _ rfl
      refine (shutDown_resources 0).mono ?_
      rintro x held' ⟨rfl, rfl⟩ _ ⟨⟩
      exact ⟨.inl rfl, rfl⟩

theorem serveLocal_leased (fuel : Nat) (hstep : InStep runtime.tables)
    (hclosed : ∀ port, (runtime.ports port).squidFd < 0) :
    Leased hostLease (serveLocal fuel runtime) (fun x held' => ∀ result, x = some result →
      (result = 0 ∨ result = 1) ∧ held' = 0) runtime.resources := by
  have hfailed : Leased hostLease (shutDown runtime 1) (fun x held' => ∀ result,
      x = some result → (result = 0 ∨ result = 1) ∧ held' = 0) runtime.resources := by
    refine (shutDown_resources 1).mono ?_
    rintro x held' ⟨rfl, rfl⟩ _ ⟨⟩
    exact ⟨.inr rfl, rfl⟩
  rw [serveLocal]
  refine leased_bind (localTransportListen_leased (socketFile_notMem _ _ _)) ?_
  rintro ⟨listening, transport⟩ _ (⟨rfl, rfl⟩ | ⟨rfl, hlistening, rfl⟩)
  · dsimp only
    rw [if_pos (by decide)]
    exact hfailed
  · dsimp only at hlistening ⊢
    rw [if_neg (by decide)]
    refine leased_bind (localTransportAccept_leased hlistening) ?_
    rintro ⟨accepting, transport₁⟩ _ ⟨rfl | ⟨rfl, hfd⟩, -, rfl⟩
    · dsimp only
      rw [if_pos (by decide)]
      refine leased_bind localTransportClose_leased ?_
      rintro _ _ rfl
      exact hfailed
    · dsimp only at hfd ⊢
      rw [if_neg (by decide)]
      refine leased_bind (call_quiet (.snetInit _) (needs_none rfl) fun _ => ⟨rfl, rfl⟩) ?_
      rintro _ _ rfl
      have hclient : Resource.descriptor transport₁.clientFd ∈
          runtime.resources + transport₁.resources := by
        rw [ServerLocalTransport.resources, opened_nonneg _ hfd]
        exact Multiset.mem_add.2 (.inr (Multiset.mem_add.2
          (.inl (Multiset.mem_singleton_self _))))
      refine leased_bind (serve_leased fuel hstep rfl hclosed (tables_mem_resources _) hclient) ?_
      rintro (_ | transport₂ | _) held' hserved
      · exact leased_pure fun _ h => absurd h.symm (Option.some_ne_none _)
      · obtain ⟨hsame, rfl⟩ := hserved _ rfl
        obtain rfl : transport₂ = transport₁ := hsame
        refine leased_bind localTransportClose_leased ?_
        rintro _ _ rfl
        refine (shutDown_resources 0).mono ?_
        rintro x held' ⟨rfl, rfl⟩ _ ⟨⟩
        exact ⟨.inl rfl, rfl⟩
      · exact leased_pure fun _ h => absurd h.symm (Option.some_ne_none _)

theorem runServer_leased (fuel : Nat) (htables : runtime.tables = PluginLoader.emptyTables)
    (hclosed : ∀ port, (runtime.ports port).squidFd < 0) :
    Leased hostLease (runServer fuel runtime) (fun x held' => ∀ result, x = some result →
      (result = 0 ∨ result = 1) ∧ held' = 0) 0 := by
  have hstep : InStep runtime.tables := htables ▸ PluginLoader.inStep_empty
  rw [runServer]
  refine leased_bind (initServerLog_leased runtime.config.runMode) ?_
  rintro _ _ rfl
  have hsignals : Leased hostLease installSignalHandlers
      (fun _ held' => held' = 0 + logResources runtime.config.runMode)
      (0 + logResources runtime.config.runMode) := by
    rw [installSignalHandlers]
    refine leased_bind (call_quiet (.signal _) (needs_none rfl) fun _ => ⟨rfl, rfl⟩) ?_
    rintro (_ | _) _ rfl
    · exact leased_pure rfl
    · refine leased_bind (call_quiet (.signal _) (needs_none rfl) fun _ => ⟨rfl, rfl⟩) ?_
      rintro (_ | _) _ rfl <;> exact leased_pure rfl
  refine leased_bind hsignals ?_
  rintro installed _ rfl
  split
  · refine leased_bind (closeServerLog_leased runtime.config.runMode) ?_
    rintro _ _ rfl
    refine leased_pure ?_
    rintro _ ⟨⟩
    exact ⟨.inr rfl, rfl⟩
  · have hloaded : Leased hostLease (loadConfiguredPlugins runtime) (fun x held' =>
        InStep x.2.tables ∧ x.2.config = runtime.config ∧ x.2.ports = runtime.ports ∧
          held' = logResources runtime.config.runMode + tableResources x.2.tables)
        (logResources runtime.config.runMode + tableResources runtime.tables) :=
      loadConfiguredPlugins_leased hstep
    have hnothing : tableResources runtime.tables = 0 := by
      rw [htables]
      rfl
    rw [hnothing, add_zero] at hloaded
    rw [zero_add]
    refine leased_bind hloaded ?_
    rintro ⟨result, runtime₁⟩ _ ⟨hstep₁, hconfig, hports, rfl⟩
    dsimp only at hstep₁ hconfig hports ⊢
    rw [← hconfig]
    have hclosed₁ : ∀ port, (runtime₁.ports port).squidFd < 0 := hports ▸ hclosed
    split
    · refine (shutDown_resources 1).mono ?_
      rintro x held' ⟨rfl, rfl⟩ _ ⟨⟩
      exact ⟨.inr rfl, rfl⟩
    · split
      · exact serveSerial_leased fuel hstep₁ hclosed₁
      · exact serveLocal_leased fuel hstep₁ hclosed₁

theorem daemonizeProcess_leased :
    Leased hostLease daemonizeProcess (fun _ held' => held' = held) held := by
  have hquiet : ∀ op : Call, hostLease.needs op = [] →
      (∀ r, hostLease.takes ⟨op, r⟩ = [] ∧ hostLease.returns ⟨op, r⟩ = []) →
        Leased hostLease (call op) (fun _ held' => held' = held) held := by
    intro op hneeds hquiet
    exact call_quiet op (needs_none hneeds) hquiet
  rw [daemonizeProcess]
  refine leased_bind (hquiet .fork rfl fun _ => ⟨rfl, rfl⟩) ?_
  rintro processId _ rfl
  split
  · exact leased_pure rfl
  · split
    · exact leased_pure rfl
    · refine leased_bind (hquiet .setsid rfl fun _ => ⟨rfl, rfl⟩) ?_
      rintro session _ rfl
      split
      · exact leased_pure rfl
      · refine leased_bind (hquiet .fork rfl fun _ => ⟨rfl, rfl⟩) ?_
        rintro processId' _ rfl
        split
        · exact leased_pure rfl
        · split
          · exact leased_pure rfl
          · refine leased_bind (hquiet (.chdir _) rfl fun _ => ⟨rfl, rfl⟩) ?_
            rintro changed _ rfl
            split
            · exact leased_pure rfl
            · refine leased_bind (hquiet .umask rfl fun _ => ⟨rfl, rfl⟩) ?_
              rintro _ _ rfl
              refine leased_bind (hquiet (.freopen _) rfl fun _ => ⟨rfl, rfl⟩) ?_
              rintro (_ | _) _ rfl
              · exact leased_pure rfl
              · refine leased_bind (hquiet (.freopen _) rfl fun _ => ⟨rfl, rfl⟩) ?_
                rintro (_ | _) _ rfl
                · exact leased_pure rfl
                · refine leased_bind (hquiet (.freopen _) rfl fun _ => ⟨rfl, rfl⟩) ?_
                  rintro (_ | _) _ rfl <;> exact leased_pure rfl

end

/-- Whatever the system, libsquid and the plugins answer, the server uses no descriptor, socket,
library or running plugin that it does not have, and when it ends it has given back every one. -/
theorem server_gives_back (fuel : Nat) (config : ServerConfig) :
    Leased hostLease (runServerRuntime fuel (initServerRuntime config)) (fun x held' =>
      ∀ result, x = some result → (result = 0 ∨ result = 1) ∧ held' = 0) 0 := by
  have hserver : Leased hostLease (runServer fuel (initServerRuntime config)) (fun x held' =>
      ∀ result, x = some result → (result = 0 ∨ result = 1) ∧ held' = 0) 0 :=
    runServer_leased fuel rfl fun _ => show (-1 : Int) < 0 by decide
  rw [runServerRuntime]
  split
  · refine leased_bind daemonizeProcess_leased ?_
    rintro (_ | daemonResult) _ rfl
    · refine leased_pure ?_
      rintro _ ⟨⟩
      exact ⟨.inl rfl, rfl⟩
    · dsimp only
      split
      · refine leased_pure ?_
        rintro _ ⟨⟩
        exact ⟨.inr rfl, rfl⟩
      · split
        · refine leased_pure ?_
          rintro _ ⟨⟩
          exact ⟨.inl rfl, rfl⟩
        · exact hserver
  · exact hserver

end SquidServer.Server

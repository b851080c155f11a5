import SquidServer.ServerCalls
import SquidServer.ServerLeases

namespace SquidServer.PluginLoader
open Interaction CText PluginConfig
set_option autoImplicit true

/-- What the loader opens for the path of a plugin: the path itself, or one below the directory that
the environment names. -/
inductive Resolves (u : List (Event Libraries)) (path : List UInt8) : List UInt8 → Prop
  | plain : Resolves u path path
  | staged (stageRoot : List UInt8) :
      ⟨.getenv "SQUID_SERVER_STAGE_ROOT", some stageRoot⟩ ∈ u →
      Resolves u path (stageRoot ++ path)

/-- A plugin that the factory of the library at a path has returned, and that has started. -/
structure LoadedFrom (u : List (Event Libraries)) (path : List UInt8) (plugin : PluginPointer) :
    Prop where
  made : ∃ resolved handle factory, Resolves u path resolved ∧
    ⟨.dlopen resolved, some handle⟩ ∈ u ∧
    ⟨.dlsym handle "get_server_plugin", some factory⟩ ∈ u ∧
    ⟨.factory factory, some plugin⟩ ∈ u
  started : plugin.plugin.start = true → ⟨.start plugin, (0 : Int)⟩ ∈ u

theorem Resolves.mono (h : Resolves u path resolved) (hu : u ⊆ v) : Resolves v path resolved := by
  cases h with
  | plain => exact .plain
  | staged stageRoot hroot => exact .staged stageRoot (hu hroot)

theorem LoadedFrom.mono (h : LoadedFrom u path plugin) (hu : u ⊆ v) :
    LoadedFrom v path plugin where
  made := by
    obtain ⟨resolved, handle, factory, hresolved, hopen, hsym, hmade⟩ := h.made
    exact ⟨resolved, handle, factory, hresolved.mono hu, hu hopen, hu hsym, hu hmade⟩
  started := fun hstart => hu (h.started hstart)

/-- A load leaves the tables as they are or adds a plugin of the library. -/
def Adds (tables : Tables) (portNumber : UInt8) (pluginPath : List UInt8)
    (P : PluginPointer → List (Event Libraries) → Prop) (loading : Loading)
    (u : List (Event Libraries)) : Prop :=
  loading.result = -1 ∨ ∃ entry, loading.tables = tables.add entry ∧
    entry.portNumber = portNumber ∧ entry.pluginPath.1 = pluginPath ∧ P entry.plugin u

section
variable {tables : Tables} {pluginPath : List UInt8}

theorem loadFromFactory_adds (hport : isValidServerPort portNumber = true)
    (hpath : pluginPath.length < serverPluginPathMax) :
    Ensures (recording AnyAnswer)
      (loadFromFactory errorBufferSize tables portNumber pluginPath libraryHandle factory)
      (Adds tables portNumber pluginPath fun plugin u => ⟨.factory factory, some plugin⟩ ∈ u ∧
        (plugin.plugin.start = true → ⟨.start plugin, (0 : Int)⟩ ∈ u)) [] := by
  have hclose : ∀ loading e, loading.result = -1 →
      Ensures (recording AnyAnswer) ((dlclose libraryHandle).bind fun _ => .pure loading)
        (fun loading t => Adds tables portNumber pluginPath (fun plugin u =>
          ⟨.factory factory, some plugin⟩ ∈ u ∧
            (plugin.plugin.start = true → ⟨.start plugin, (0 : Int)⟩ ∈ u)) loading (e ++ t)) [] :=
    fun loading e hresult => ensures_recording_ask_bind fun _ _ => ensures_pure.2 (.inl hresult)
  have hrecord : ∀ plugin registry e,
      registerServerPlugin tables.registry portNumber plugin = some registry →
      ⟨.factory factory, some plugin⟩ ∈ e →
      (plugin.plugin.start = true → ⟨.start plugin, (0 : Int)⟩ ∈ e) →
        Adds tables portNumber pluginPath (fun plugin u =>
          ⟨.factory factory, some plugin⟩ ∈ u ∧
            (plugin.plugin.start = true → ⟨.start plugin, (0 : Int)⟩ ∈ u))
          (recordPlugin errorBufferSize tables portNumber pluginPath libraryHandle plugin registry)
          e := by
    intro plugin registry e hregister hmade hstarted
    obtain ⟨-, rfl⟩ := (registerServerPlugin_iff hport).1 hregister
    refine .inr ⟨⟨portNumber, libraryHandle, plugin, ⟨pluginPath, hpath⟩⟩, ?_, rfl, rfl, hmade,
      hstarted⟩
    simp only [recordPlugin, copyText, dif_pos hpath, Option.getD_some, Tables.add]
  rw [loadFromFactory, callFactory]
  refine ensures_recording_ask_bind fun plugin _ => ?_
  cases plugin with
  | none => exact hclose _ [_] rfl
  | some plugin =>
    dsimp only
    split
    · exact hclose _ [_] rfl
    · split
      · exact hclose _ [_] rfl
      · rename_i registry hregister
        split
        · rw [Program.bind_eq, callStart]
          refine ensures_recording_ask_bind fun result _ => ?_
          split
          · exact hclose _ [_, _] rfl
          · rename_i hresult
            obtain rfl := not_not.1 hresult
            exact ensures_pure.2 (hrecord plugin registry [_, _] hregister List.mem_cons_self
              fun _ => List.mem_cons_of_mem _ List.mem_cons_self)
        · rename_i hstart
          exact ensures_pure.2 (hrecord plugin registry [_] hregister List.mem_cons_self
            fun h => absurd h hstart)

theorem resolvePluginPath_resolves (size : Nat) :
    Ensures (recording AnyAnswer) (resolvePluginPath pluginPath size)
      (fun resolved u => ∀ path, resolved = some path → Resolves u pluginPath path) [] := by
  have hplain : ∀ u path, (copyText size pluginPath).map Subtype.val = some path →
      Resolves u pluginPath path := by
    intro u path hcopy
    obtain ⟨text, htext, rfl⟩ := Option.map_eq_some_iff.1 hcopy
    rw [copyText] at htext
    split at htext
    · cases htext
      exact .plain
    · cases htext
  rw [resolvePluginPath, Program.bind_eq, getenv]
  refine ensures_recording_ask_bind fun stageRoot _ => ?_
  split
  · exact ensures_pure.2 (hplain _)
  · split
    · split
      · exact ensures_pure.2 fun _ h => absurd h.symm (Option.some_ne_none _)
      · refine ensures_pure.2 ?_
        rintro _ ⟨⟩
        exact .staged _ List.mem_cons_self
    · exact ensures_pure.2 (hplain _)

theorem loadFromLibrary_adds (hport : isValidServerPort portNumber = true)
    (hpath : pluginPath.length < serverPluginPathMax) :
    Ensures (recording AnyAnswer)
      (loadFromLibrary errorBufferSize tables portNumber pluginPath libraryHandle)
      (Adds tables portNumber pluginPath fun plugin u => ∃ factory,
        ⟨.dlsym libraryHandle "get_server_plugin", some factory⟩ ∈ u ∧
          ⟨.factory factory, some plugin⟩ ∈ u ∧
            (plugin.plugin.start = true → ⟨.start plugin, (0 : Int)⟩ ∈ u)) [] := by
  rw [loadFromLibrary, Program.bind_eq, dlerror]
  refine ensures_recording_ask_bind fun cleared _ => ?_
  rw [Program.bind_eq, dlsym]
  refine ensures_recording_ask_bind fun found _ => ?_
  rw [Program.bind_eq]
  refine ensures_recording_ask_bind fun dlError _ => ?_
  split
  · rename_i factory _ _
    refine (loadFromFactory_adds hport hpath).mono ?_
    rintro loading u (hfailed | ⟨entry, htables, hnumber, hname, hmade, hstarted⟩)
    · exact .inl hfailed
    · refine .inr ⟨entry, htables, hnumber, hname, factory, ?_, ?_, fun hstart => ?_⟩
      · exact List.mem_cons_of_mem _ List.mem_cons_self
      · exact List.mem_cons_of_mem _ (List.mem_cons_of_mem _ (List.mem_cons_of_mem _ hmade))
      · exact List.mem_cons_of_mem _ (List.mem_cons_of_mem _ (List.mem_cons_of_mem _
          (hstarted hstart)))
  · exact ensures_recording_ask_bind fun _ _ => ensures_pure.2 (.inl rfl)

theorem loadServerPlugin_adds (hpath : pluginPath.length < serverPluginPathMax) :
    Ensures (recording AnyAnswer)
      (loadServerPlugin errorBufferSize tables portNumber (some pluginPath))
      (Adds tables portNumber pluginPath fun plugin u => LoadedFrom u pluginPath plugin) [] := by
  rw [loadServerPlugin]
  split
  · exact ensures_pure.2 (.inl rfl)
  · rename_i hport
    rw [not_not] at hport
    split
    · exact ensures_pure.2 (.inl rfl)
    · refine ensures_recording_bind (resolvePluginPath_resolves _) ?_
      intro resolved u hresolve
      split
      · exact ensures_pure.2 (.inl rfl)
      · rename_i path
        rw [Program.bind_eq, dlopen]
        refine ensures_recording_ask_bind fun answer _ => ?_
        cases answer with
        | none => exact ensures_recording_ask_bind fun _ _ => ensures_pure.2 (.inl rfl)
        | some handle =>
          refine (loadFromLibrary_adds hport hpath).mono ?_
          rintro loading v (hfailed |
            ⟨entry, htables, hnumber, hname, factory, hsym, hmade, hstarted⟩)
          · exact .inl hfailed
          · have hbehind : ∀ e, e ∈ v → e ∈ u ++ ⟨.dlopen path, some handle⟩ :: v := fun e he =>
              List.mem_append_right u (List.mem_cons_of_mem _ he)
            refine .inr ⟨entry, htables, hnumber, hname,
              ⟨path, handle, factory, ?_, ?_, ?_, ?_⟩, ?_⟩
            · exact (hresolve path rfl).mono (List.subset_append_left _ _)
            · exact List.mem_append_right u List.mem_cons_self
            · exact hbehind _ hsym
            · exact hbehind _ hmade
            · exact fun hstart => hbehind _ (hstarted hstart)

end

end SquidServer.PluginLoader

namespace SquidServer.Server
open Interaction PluginConfig
open SquidServer.PluginLoader (AnyAnswer InStep Libraries LoadedFrom PluginPointer Tables endings
  slotIndex)
open SquidServer.Runtime (Dispatches Port pluginPorts)
set_option autoImplicit true

/-- The calls of the plugin loader among those of the server. -/
def libraryEvents (t : List (Event Host)) : List (Event Libraries) :=
  t.filterMap fun
    | ⟨.library call, r⟩ => some ⟨call, r⟩
    | _ => none

def libraryEvent (e : Event Libraries) : Event Host := ⟨.library e.op, e.ans⟩

theorem libraryEvents_append (t u : List (Event Host)) :
    libraryEvents (t ++ u) = libraryEvents t ++ libraryEvents u := List.filterMap_append

theorem libraryEvents_map (u : List (Event Libraries)) :
    libraryEvents (u.map libraryEvent) = u := by
  rw [libraryEvents, List.filterMap_map]
  exact List.filterMap_some

/-- Every answer of the system, of libsquid and of the plugins may be given. -/
def AnyHost (_ : Event Host) : Prop := True

theorem exec_fromLibraries {p : Program Libraries α}
    (h : Exec (recording AnyHost) t (fromLibraries p) t' a) :
    ∃ u, t' = t ++ u.map libraryEvent ∧ Exec (recording AnyAnswer) [] p u a := by
  have hsteps : ∀ v, ∃ u, t' = t ++ u.map libraryEvent ∧
      Exec (recording AnyAnswer) v p (v ++ u) a := by
    induction p generalizing t with
    | pure b =>
      obtain ⟨rfl, rfl⟩ := exec_pure.1 h
      exact fun v => ⟨[], by simp, by simp⟩
    | call op k ih =>
      obtain ⟨r, _, ⟨-, rfl⟩, hk⟩ := exec_call.1 h
      intro v
      obtain ⟨u, hu, he⟩ := ih r hk (v ++ [⟨op, r⟩])
      rw [List.append_assoc] at he
      refine ⟨⟨op, r⟩ :: u, ?_, .call ⟨trivial, rfl⟩ he⟩
      rw [hu, List.append_assoc]
      rfl
  exact hsteps []

/-- The configuration that the server has read gives a port to a plugin that it has loaded. -/
structure Assigned (config : ServerConfig) (t : List (Event Host)) (port : Port)
    (plugin : PluginPointer) : Prop where
  mapped : ∃ file pluginConfig mapping, ⟨.readConfig config.configPath.1, file⟩ ∈ t ∧
    parseServerPluginConfigFile file = .ok pluginConfig ∧ mapping ∈ pluginConfig.mappings ∧
      slotIndex mapping.portNumber = port ∧
        LoadedFrom (libraryEvents t) mapping.pluginPath.1 plugin

/-- Every packet has gone, on a port other than that of the system, to the plugin that this port was
assigned to, and no plugin had been stopped or closed by then. -/
def Proper (config : ServerConfig) (t : List (Event Host)) : Prop :=
  ∀ pre plugin port request reply post,
    t = pre ++ ⟨.handlePacket plugin port request, reply⟩ :: post →
      port ≠ 0 ∧ Assigned config pre port plugin ∧ endings (libraryEvents pre) = []

/-- A server that can serve these ports: all plugins have been loaded, and none has been stopped. -/
structure Serving (config : ServerConfig) (slots : Port → Option PluginPointer)
    (t : List (Event Host)) : Prop where
  proper : Proper config t
  assigned : ∀ port plugin, port ≠ 0 → slots port = some plugin → Assigned config t port plugin
  running : endings (libraryEvents t) = []

theorem Assigned.append {config : ServerConfig} (h : Assigned config t port plugin)
    (u : List (Event Host)) : Assigned config (t ++ u) port plugin := by
  obtain ⟨file, pluginConfig, mapping, hread, hparse, hmapping, hport, hloaded⟩ := h.mapped
  refine ⟨file, pluginConfig, mapping, List.mem_append_left u hread, hparse, hmapping, hport, ?_⟩
  rw [libraryEvents_append]
  exact hloaded.mono (List.subset_append_left _ _)

section
variable {config : ServerConfig} {t : List (Event Host)} {slots : Port → Option PluginPointer}

theorem proper_nil (config : ServerConfig) : Proper config [] := by
  intro pre plugin port request reply post h
  simp at h

theorem Proper.snoc (h : Proper config t) {e : Event Host}
    (he : ∀ plugin port request reply, e = ⟨.handlePacket plugin port request, reply⟩ →
      port ≠ 0 ∧ Assigned config t port plugin ∧ endings (libraryEvents t) = []) :
    Proper config (t ++ [e]) := by
  intro pre plugin port request reply post hcut
  rcases append_eq_append_cons hcut with ⟨post', ht⟩ | ⟨v₁, hpre, hv⟩
  · exact h pre plugin port request reply post' ht
  · cases v₁ with
    | nil =>
      rw [List.append_nil] at hpre
      rw [List.nil_append, List.cons.injEq] at hv
      rw [hpre]
      exact he plugin port request reply hv.1
    | cons e' v₁ =>
      rw [List.cons_append, List.cons.injEq] at hv
      exact absurd hv.2.symm (by simp)

theorem Proper.plain (h : Proper config t) {p : Program Host α} (hp : Calls Plain p) :
    Ensures (recording AnyHost) p (fun _ t' => Proper config t') t := by
  refine hp.invariant (Proper config) ?_ h
  rintro t op r _ hop ht ⟨-, rfl⟩
  refine ht.snoc ?_
  rintro plugin port request reply ⟨⟩
  exact hop.elim

theorem libraryEvents_beside {op : Call} (hop : Beside op) (r : op.Ans) :
    libraryEvents [⟨op, r⟩] = [] := by
  cases op <;> first | exact False.elim hop | rfl

theorem ensures_untouched (hproper : Proper config t) (hnone : libraryEvents t = [])
    {p : Program Host α} (hp : Calls Idle p) : Ensures (recording AnyHost) p
      (fun _ t' => Proper config t' ∧ libraryEvents t' = []) t := by
  refine hp.invariant (fun t => Proper config t ∧ libraryEvents t = []) ?_ ⟨hproper, hnone⟩
  rintro t op r _ hop ⟨ht, hnone⟩ ⟨-, rfl⟩
  refine ⟨ht.snoc ?_, ?_⟩
  · rintro plugin port request reply ⟨⟩
    exact hop.plain.elim
  · rw [libraryEvents_append, hnone, libraryEvents_beside hop.beside]
    rfl

theorem Serving.beside_step (h : Serving config slots t) {op : Call} (hop : Beside op)
    (r : op.Ans) : Serving config slots (t ++ [⟨op, r⟩]) where
  proper := by
    refine h.proper.snoc ?_
    rintro plugin port request reply ⟨⟩
    exact hop.elim
  assigned := fun port plugin hport hslot => (h.assigned port plugin hport hslot).append _
  running := by
    rw [libraryEvents_append, libraryEvents_beside hop, List.append_nil]
    exact h.running

theorem Serving.beside (h : Serving config slots t) {p : Program Host α} (hp : Calls Beside p) :
    Ensures (recording AnyHost) p (fun _ t' => Serving config slots t') t := by
  refine hp.invariant (Serving config slots) ?_ h
  rintro t op r _ hop ht ⟨-, rfl⟩
  exact ht.beside_step hop r

theorem Serving.packet (h : Serving config slots t) (hport : port ≠ 0)
    (hslot : slots port = some plugin) (request : List UInt8) (reply : Runtime.PluginReply) :
    Serving config slots (t ++ [⟨.handlePacket plugin port request, reply⟩]) where
  proper := by
    refine h.proper.snoc ?_
    rintro _ _ _ _ ⟨⟩
    exact ⟨hport, h.assigned port plugin hport hslot, h.running⟩
  assigned := fun port plugin hport hslot => (h.assigned port plugin hport hslot).append _
  running := by
    rw [libraryEvents_append]
    exact (List.append_nil _).symm ▸ h.running

end

/-- What the loader has loaded without having stopped or closed anything. -/
structure Plugged (mappings : List ServerPluginMapping) (t : List (Event Host)) (tables : Tables) :
    Prop where
  inStep : InStep tables
  running : endings (libraryEvents t) = []
  entries : ∀ entry ∈ tables.loadedPlugins, entry.portNumber = serverSystemPort ∨
    ∃ mapping ∈ mappings, entry.portNumber = mapping.portNumber ∧
      LoadedFrom (libraryEvents t) mapping.pluginPath.1 entry.plugin

section
variable {mappings : List ServerPluginMapping} {t : List (Event Host)} {tables : Tables}

theorem loadServerPlugin_plugged (h : Plugged mappings t tables) {portNumber : UInt8}
    {pluginPath : Buffer serverPluginPathMax}
    (hport : portNumber = serverSystemPort ∨ ⟨portNumber, pluginPath⟩ ∈ mappings) :
    Ensures (recording AnyHost) (loadServerPlugin tables portNumber pluginPath)
      (fun x t' => x.1 = 0 → Plugged mappings t' x.2) t := by
  refine ensures_bind.2 ?_
  intro t' loading hload
  obtain ⟨u, rfl, hexec⟩ := exec_fromLibraries hload
  refine ensures_pure.2 ?_
  intro hresult
  have hnever : ¬ loading.result = -1 := by
    have hzero : loading.result = 0 := hresult
    rw [hzero]
    decide
  obtain ⟨-, hvalid, hroom, hend, entry', hnumber', -, -, hfree, -⟩ :=
    (PluginLoader.loadServerPlugin_done _ _ hexec).resolve_right fun hfailed => hnever hfailed.1
  obtain ⟨entry, htables, hnumber, hpath, hloaded⟩ :=
    (PluginLoader.loadServerPlugin_adds pluginPath.2 _ _ hexec).resolve_left hnever
  have hevents : libraryEvents (t ++ u.map libraryEvent) = libraryEvents t ++ u := by
    rw [libraryEvents_append, libraryEvents_map]
  dsimp only
  rw [htables]
  refine ⟨?_, ?_, ?_⟩
  · exact h.inStep.add (hnumber.symm ▸ hvalid) hroom (hnumber.symm ▸ hfree)
  · rw [hevents, PluginLoader.endings_append, h.running, hend]
    rfl
  · rw [hevents]
    intro other hother
    rcases List.mem_cons.1 hother with rfl | hother
    · rcases hport with hsystem | hmapping
      · exact .inl (hnumber.trans hsystem)
      · exact .inr ⟨_, hmapping, hnumber, hloaded.mono (List.subset_append_right _ _)⟩
    · rcases h.entries other hother with hsystem | ⟨mapping, hmapping, hsame, hbefore⟩
      · exact .inl hsystem
      · exact .inr ⟨mapping, hmapping, hsame, hbefore.mono (List.subset_append_left _ _)⟩

theorem loadMappings_plugged (h : Plugged mappings t tables) {rest : List ServerPluginMapping}
    (hrest : rest ⊆ mappings) :
    Ensures (recording AnyHost) (loadMappings rest tables)
      (fun x t' => x.1 = 0 → Plugged mappings t' x.2) t := by
  induction rest generalizing tables t with
  | nil => exact ensures_pure.2 fun _ => h
  | cons mapping rest ih =>
    obtain ⟨hmapping, hrest⟩ := List.cons_subset.1 hrest
    refine ensures_bind.2 ((loadServerPlugin_plugged h (.inr hmapping)).mono ?_)
    rintro ⟨result, tables₁⟩ t₁ hplugged
    dsimp only at hplugged ⊢
    split
    · exact ensures_pure.2 fun h => absurd h (show (-1 : Int) ≠ 0 by decide)
    · rename_i hresult
      exact ih (hplugged (not_not.1 hresult)) hrest

theorem loadPlugins_plugged (pluginConfig : ServerPluginConfigFile)
    (h : Plugged pluginConfig.mappings t tables) :
    Ensures (recording AnyHost) (loadPlugins pluginConfig tables)
      (fun x t' => x.1 = 0 → Plugged pluginConfig.mappings t' x.2) t := by
  refine ensures_bind.2 ((loadServerPlugin_plugged h (.inl rfl)).mono ?_)
  rintro ⟨result, tables₁⟩ t₁ hplugged
  dsimp only at hplugged ⊢
  split
  · exact ensures_pure.2 fun h => absurd h (show (-1 : Int) ≠ 0 by decide)
  · rename_i hresult
    exact loadMappings_plugged (hplugged (not_not.1 hresult)) (List.Subset.refl _)

end

section
variable {config : ServerConfig} {t : List (Event Host)} {runtime : ServerRuntime}

theorem loadConfiguredPlugins_serving (hrun : runtime.config = config)
    (hinit : runtime.tables = PluginLoader.emptyTables) (hproper : Proper config t)
    (hnone : libraryEvents t = []) :
    Ensures (recording AnyHost) (loadConfiguredPlugins runtime) (fun x t' => Proper config t' ∧
      (x.1 = 0 → Serving config x.2.tables.registry.slots t')) t := by
  rw [loadConfiguredPlugins, hrun, hinit]
  refine ensures_bind.2 (ensures_ask ?_)
  rintro file _ ⟨-, rfl⟩
  have hproper₁ : Proper config (t ++ [⟨.readConfig config.configPath.1, file⟩]) := by
    refine hproper.snoc ?_
    rintro plugin port request reply ⟨⟩
  split
  · exact ensures_pure.2 ⟨hproper₁, fun h => absurd h (show (-1 : Int) ≠ 0 by decide)⟩
  · rename_i pluginConfig hparse
    have hplugged : Plugged pluginConfig.mappings (t ++ [⟨.readConfig config.configPath.1, file⟩])
        PluginLoader.emptyTables := by
      refine ⟨PluginLoader.inStep_empty, ?_, fun _ hentry => absurd hentry List.not_mem_nil⟩
      rw [libraryEvents_append, hnone]
      rfl
    refine ensures_bind.2 ?_
    intro t₁ x hload
    have hproper' := hproper₁.plain (loadPlugins_calls _ _) _ _ hload
    refine ensures_pure.2 ⟨hproper', fun hresult => ?_⟩
    obtain ⟨u, rfl⟩ := exec_recording_prefix hload
    have hloaded := loadPlugins_plugged pluginConfig hplugged _ _ hload hresult
    refine ⟨hproper', ?_, hloaded.running⟩
    intro port plugin hport hregistered
    obtain ⟨entry, hentry, hslot, rfl⟩ := (hloaded.inStep.slots port plugin).1 hregistered
    rcases hloaded.entries entry hentry with hsystem | ⟨mapping, hmapping, hsame, hfrom⟩
    · rw [hsystem] at hslot
      exact absurd hslot.symm hport
    · refine ⟨file, pluginConfig, mapping, ?_, hparse, hmapping, hsame ▸ hslot, hfrom⟩
      simp

theorem loadConfiguredPlugins_ports
    (h : Exec (recording AnyHost) t (loadConfiguredPlugins runtime) t' x) :
    x.2.ports = runtime.ports := by
  rw [loadConfiguredPlugins] at h
  obtain ⟨t₁, file, -, hparsed⟩ := exec_bind.1 h
  split at hparsed
  · obtain ⟨-, rfl⟩ := exec_pure.1 hparsed
    rfl
  · obtain ⟨t₂, loaded, -, hend⟩ := exec_bind.1 hparsed
    obtain ⟨-, rfl⟩ := exec_pure.1 hend
    rfl

end

section
variable {config : ServerConfig} {t : List (Event Host)} {slots : Port → Option PluginPointer}
  {active : ActiveTransport}

theorem dispatchCall_serving (h : Serving config slots t) {fds : Port → Int} (hsystem : fds 0 < 0)
    (fuel : Nat) {op : Runtime.Call} (hop : Dispatches registry fds op) :
    Ensures (recording AnyHost) (dispatchCall fuel slots fds active op)
      (fun _ t' => Serving config slots t') t := by
  cases op with
  | keepRunning => exact h.beside ((Calls.ask trivial).bind fun _ => .pure _)
  | clearKeepRunning => exact h.beside ((Calls.ask trivial).bind fun _ => .pure _)
  | snetLinkIsUp => exact h.beside ((Calls.ask trivial).bind fun _ => .pure _)
  | snetBurst =>
    have hburst : Calls Beside (snetBurst active) := by
      cases active <;> exact (calls_call (.snetBurst _) trivial).bind fun _ => .pure _
    exact h.beside (hburst.bind fun _ => .pure _)
  | transportWait => exact h.beside ((transportWait_calls fuel).mono fun _ hidle => hidle.beside)
  | squidRecv port maximum => exact h.beside ((Calls.ask trivial).bind fun _ => .pure _)
  | squidSend port data => exact h.beside ((Calls.ask trivial).bind fun _ => .pure _)
  | handlePacket port request =>
    have hport : port ≠ 0 := by
      rintro rfl
      exact Int.not_lt.2 hop.1 hsystem
    rw [dispatchCall]
    cases hslot : slots port with
    | none => exact ensures_pure.2 h
    | some plugin =>
      refine ensures_bind.2 (ensures_ask ?_)
      rintro reply _ ⟨-, rfl⟩
      exact ensures_pure.2 (h.packet hport hslot request reply)

theorem serve_serving {tables : Tables} (h : Serving config tables.registry.slots t)
    {runtime : Runtime.ServerRuntime} (hclosed : ∀ port, (runtime.ports port).squidFd < 0)
    (fuel : Nat) :
    Ensures (recording AnyHost) (serve fuel tables runtime active)
      (fun _ t' => Serving config tables.registry.slots t') t := by
  rw [serve]
  refine ensures_bind.2 ?_
  intro t₁ runtime₁ hopen
  have h₁ := h.beside ((openPluginSockets_calls _ _).mono fun _ hidle => hidle.beside) _ _ hopen
  have hleased : Leases.Leased hostLease (openPluginSockets pluginPorts runtime)
      (fun runtime' held => held = 0 + socketResources pluginPorts runtime' ∧
        runtime'.pluginRegistry = runtime.pluginRegistry ∧
          ∀ port, port ∉ pluginPorts → runtime'.ports port = runtime.ports port) 0 :=
    openPluginSockets_leased (by decide) fun port _ => hclosed port
  obtain ⟨held, -, -, hother⟩ := hleased.anywhere hopen
  have hsystem : (runtime₁.ports 0).squidFd < 0 := by
    rw [hother 0 (by decide)]
    exact hclosed 0
  have hwired : runtime₁.Wired runtime₁.pluginRegistry
      (fun port => (runtime₁.ports port).squidFd) := ⟨rfl, fun _ => rfl⟩
  refine ensures_bind.2 (((Runtime.runDispatchLoop_performs fuel hwired).ensures_implement
    (fun _ t' => Serving config tables.registry.slots t')
    (fun t' => Serving config tables.registry.slots t') ?_ h₁).mono ?_)
  · intro active₁ t₂ op hop h₂
    refine (dispatchCall_serving h₂ hsystem fuel hop).mono ?_
    rintro (_ | _) t₃ h₃ <;> exact h₃
  · rintro (_ | ⟨_ | _ | runtime₂, active₂⟩) t₂ hend
    · exact ensures_pure.2 hend
    · exact ensures_pure.2 hend.2
    · exact ensures_pure.2 hend.2
    · exact hend.2.beside (((closePluginSockets_calls _ _).mono fun _ hidle => hidle.beside).bind
        fun _ => .pure _)

theorem serialTransportOpen_beside (cfg : SerialTransportConfig) (line : SerialLine) :
    Calls Beside (serialTransportOpen cfg line) := by
  rw [serialTransportOpen]
  split
  · exact .pure _
  · refine (calls_call (.openDevice _) trivial).bind fun fd => ?_
    split
    · exact .pure _
    · have hconfigure : Calls Beside (configurePort cfg fd initSerialLine.savedTty) := by
        refine (calls_call (.tcgetattr _) trivial).bind ?_
        rintro (_ | saved)
        · exact .pure _
        · exact (calls_call (.tcsetattr _ _) trivial).bind fun _ => .pure _
      refine hconfigure.bind ?_
      rintro ⟨result, savedTty⟩
      dsimp only
      split
      · exact (calls_call (.close _) trivial).bind fun _ => .pure _
      · exact .pure _

theorem serialTransportClose_beside (line : SerialLine) :
    Calls Beside (serialTransportClose line) := by
  rw [serialTransportClose]
  split
  · exact (calls_call (.tcsetattr _ _) trivial).bind fun _ =>
      (calls_call (.close _) trivial).bind fun _ => .pure _
  · exact .pure _

end

section
variable {config : ServerConfig} {t : List (Event Host)} {runtime : ServerRuntime}

theorem serveSerial_proper (h : Serving config runtime.tables.registry.slots t)
    (hclosed : ∀ port, (runtime.ports port).squidFd < 0) (fuel : Nat) :
    Ensures (recording AnyHost) (serveSerial fuel runtime) (fun _ t' => Proper config t') t := by
  rw [serveSerial]
  refine ensures_bind.2 ((h.beside (serialTransportOpen_beside _ _)).mono ?_)
  rintro ⟨result, line⟩ t₁ h₁
  dsimp only
  split
  · exact h₁.proper.plain (shutDown_calls _ _)
  · refine ensures_bind.2 ((h₁.beside (calls_call (.snetInit _) trivial)).mono ?_)
    intro _ t₂ h₂
    refine ensures_bind.2 ((serve_serving h₂ hclosed fuel).mono ?_)
    rintro (_ | _ | transport) t₃ h₃
    · exact ensures_pure.2 h₃.proper
    · exact ensures_pure.2 h₃.proper
    · refine ensures_bind.2 ((h₃.beside (serialTransportClose_beside _)).mono ?_)
      intro _ t₄ h₄
      exact h₄.proper.plain (shutDown_calls _ _)

theorem serveLocal_proper (h : Serving config runtime.tables.registry.slots t)
    (hclosed : ∀ port, (runtime.ports port).squidFd < 0) (fuel : Nat) :
    Ensures (recording AnyHost) (serveLocal fuel runtime) (fun _ t' => Proper config t') t := by
  have hclose : ∀ {t₁ : List (Event Host)} (transport : ServerLocalTransport) (result : Int),
      Serving config runtime.tables.registry.slots t₁ →
      Ensures (recording AnyHost) ((localTransportClose transport).bind fun _ =>
        shutDown runtime result) (fun _ t' => Proper config t') t₁ := by
    intro t₁ transport result h₁
    exact h₁.proper.plain (((localTransportClose_calls _).mono fun _ hidle => hidle.plain).bind
      fun _ => shutDown_calls _ _)
  rw [serveLocal]
  refine ensures_bind.2 ((h.beside ((localTransportListen_calls _ _).mono
    fun _ hidle => hidle.beside)).mono ?_)
  rintro ⟨listening, transport⟩ t₁ h₁
  dsimp only
  split
  · exact h₁.proper.plain (shutDown_calls _ _)
  · refine ensures_bind.2 ((h₁.beside ((localTransportAccept_calls _).mono
      fun _ hidle => hidle.beside)).mono ?_)
    rintro ⟨accepting, transport₁⟩ t₂ h₂
    dsimp only
    split
    · exact hclose transport₁ 1 h₂
    · refine ensures_bind.2 ((h₂.beside (calls_call (.snetInit _) trivial)).mono ?_)
      intro _ t₃ h₃
      refine ensures_bind.2 ((serve_serving h₃ hclosed fuel).mono ?_)
      rintro (_ | transport₂ | _) t₄ h₄
      · exact ensures_pure.2 h₄.proper
      · exact hclose transport₂ 0 h₄
      · exact ensures_pure.2 h₄.proper

theorem runServer_proper (hrun : runtime.config = config)
    (hinit : runtime.tables = PluginLoader.emptyTables)
    (hclosed : ∀ port, (runtime.ports port).squidFd < 0) (fuel : Nat)
    (hproper : Proper config t) (hnone : libraryEvents t = []) :
    Ensures (recording AnyHost) (runServer fuel runtime) (fun _ t' => Proper config t') t := by
  rw [runServer]
  refine ensures_bind.2 ((ensures_untouched hproper hnone (initServerLog_calls _)).mono ?_)
  rintro _ t₁ ⟨hproper₁, hnone₁⟩
  refine ensures_bind.2 ((ensures_untouched hproper₁ hnone₁ installSignalHandlers_calls).mono ?_)
  rintro installed t₂ ⟨hproper₂, hnone₂⟩
  split
  · exact hproper₂.plain (((closeServerLog_calls _).mono fun _ hidle => hidle.plain).bind
      fun _ => .pure _)
  · refine ensures_bind.2 ?_
    intro t₃ loaded hload
    obtain ⟨hproper₃, hserving⟩ :=
      loadConfiguredPlugins_serving hrun hinit hproper₂ hnone₂ _ _ hload
    have hports := loadConfiguredPlugins_ports hload
    obtain ⟨result, runtime₁⟩ := loaded
    dsimp only at hserving hports ⊢
    split
    · exact hproper₃.plain (shutDown_calls _ _)
    · rename_i hresult
      have hserving₁ := hserving (not_not.1 hresult)
      split
      · exact serveSerial_proper hserving₁ (hports ▸ hclosed) fuel
      · exact serveLocal_proper hserving₁ (hports ▸ hclosed) fuel

end

/-- Whatever the system, libsquid and the plugins answer, a packet goes to a plugin only on the port
that the configuration file maps to it, never on that of the system, once the loader has got it from
the library of that mapping and it has started, and before any plugin is stopped or closed. -/
theorem packets_reach_configured (fuel : Nat) (config : ServerConfig) :
    Ensures (recording AnyHost) (runServerRuntime fuel (initServerRuntime config))
      (fun _ t => ∀ pre plugin port request reply post,
        t = pre ++ ⟨.handlePacket plugin port request, reply⟩ :: post →
          port ≠ 0 ∧ Assigned config pre port plugin ∧ endings (libraryEvents pre) = []) [] := by
  have hserver : ∀ t, Proper config t → libraryEvents t = [] →
      Ensures (recording AnyHost) (runServer fuel (initServerRuntime config))
        (fun _ t' => Proper config t') t := fun t hproper hnone =>
    runServer_proper rfl rfl (fun _ => show (-1 : Int) < 0 by decide) fuel hproper hnone
  rw [runServerRuntime]
  split
  · refine ensures_bind.2 ((ensures_untouched (proper_nil config) rfl daemonizeProcess_calls).mono
      ?_)
    rintro (_ | daemonResult) t ⟨hproper, hnone⟩
    · exact ensures_pure.2 hproper
    · dsimp only
      split
      · exact ensures_pure.2 hproper
      · split
        · exact ensures_pure.2 hproper
        · exact hserver t hproper hnone
  · exact hserver [] (proper_nil config) rfl

end SquidServer.Server

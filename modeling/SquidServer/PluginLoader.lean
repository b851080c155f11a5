import SquidServer.PluginConfig
import SquidServer.RuntimeProgress

namespace SquidServer.PluginLoader
open Interaction CText PluginConfig
open SquidServer.Runtime (Port ServerPlugin)
set_option autoImplicit true

abbrev serverPortMax : UInt8 := 15
abbrev serverPortCount : Nat := 16

/-- A library that `dlopen` has opened. -/
abbrev Handle := Nat

/-- A `const struct server_plugin *`, with what it points to. -/
structure PluginPointer where
  address : Nat
  plugin : ServerPlugin
deriving DecidableEq

inductive Call where
  | getenv (name : String)
  | dlopen (path : List UInt8)
  | dlerror
  | dlsym (handle : Handle) (symbol : String)
  | factory (address : Nat)
  | start (plugin : PluginPointer)
  | stop (plugin : PluginPointer)
  | dlclose (handle : Handle)

/-- `none` is a NULL pointer. `dlsym` gives the address of the function. -/
abbrev Call.Ans : Call → Type
  | .getenv _ => Option (List UInt8)
  | .dlopen _ => Option Handle
  | .dlerror => Option (List UInt8)
  | .dlsym _ _ => Option Nat
  | .factory _ => Option PluginPointer
  | .start _ => Int
  | .stop _ => Int
  | .dlclose _ => Int

abbrev Libraries : Effect := ⟨Call, Call.Ans⟩

def getenv (name : String) : Program Libraries (Option (List UInt8)) :=
  .ask (E := Libraries) (Call.getenv name)

def dlopen (path : List UInt8) : Program Libraries (Option Handle) :=
  .ask (E := Libraries) (Call.dlopen path)

def dlerror : Program Libraries (Option (List UInt8)) := .ask (E := Libraries) Call.dlerror

def dlsym (handle : Handle) (symbol : String) : Program Libraries (Option Nat) :=
  .ask (E := Libraries) (Call.dlsym handle symbol)

def callFactory (address : Nat) : Program Libraries (Option PluginPointer) :=
  .ask (E := Libraries) (Call.factory address)

def callStart (plugin : PluginPointer) : Program Libraries Int :=
  .ask (E := Libraries) (Call.start plugin)

def callStop (plugin : PluginPointer) : Program Libraries Int :=
  .ask (E := Libraries) (Call.stop plugin)

def dlclose (handle : Handle) : Program Libraries Int := .ask (E := Libraries) (Call.dlclose handle)

structure LoadedServerPlugin where
  portNumber : UInt8
  libraryHandle : Handle
  plugin : PluginPointer
  pluginPath : Buffer serverPluginPathMax
deriving DecidableEq

structure ServerPluginRegistry where
  slots : Port → Option PluginPointer

/-- The loader, as its first `loaded_count` entries with the newest one first, and the registry. -/
structure Tables where
  loadedPlugins : List LoadedServerPlugin
  registry : ServerPluginRegistry

def isValidServerPort (portNumber : UInt8) : Bool := portNumber ≤ serverPortMax

/-- The slot of a port number. -/
def slotIndex (portNumber : UInt8) : Port := Fin.ofNat serverPortCount portNumber.toNat

def registerServerPlugin (registry : ServerPluginRegistry) (portNumber : UInt8)
    (plugin : PluginPointer) : Option ServerPluginRegistry :=
  if ¬ isValidServerPort portNumber then none
  else match registry.slots (slotIndex portNumber) with
    | some _ => none
    | none => some ⟨Function.update registry.slots (slotIndex portNumber) (some plugin)⟩

def clearPluginSlot (registry : ServerPluginRegistry) (portNumber : UInt8) :
    ServerPluginRegistry :=
  if ¬ isValidServerPort portNumber then registry
  else ⟨Function.update registry.slots (slotIndex portNumber) none⟩

def copyText (destinationSize : Nat) (source : List UInt8) : Option (Buffer destinationSize) :=
  if h : source.length < destinationSize then some ⟨source, h⟩ else none

/-- What stands in the error buffer; `none` when there is none to write to. -/
def setErrorText (errorBufferSize : Nat) (message : List UInt8) : Option (List UInt8) :=
  if errorBufferSize = 0 then none
  else match copyText errorBufferSize message with
    | none => some []
    | some text => some text.1

def resolvePluginPath (pluginPath : List UInt8) (resolvedPathSize : Nat) :
    Program Libraries (Option (List UInt8)) := do
  match ← getenv "SQUID_SERVER_STAGE_ROOT" with
  | none => return (copyText resolvedPathSize pluginPath).map Subtype.val
  | some stageRoot =>
    if pluginPath.head? = some 0x2F then
      if resolvedPathSize ≤ (stageRoot ++ pluginPath).length then return none
      else return some (stageRoot ++ pluginPath)
    else return (copyText resolvedPathSize pluginPath).map Subtype.val

/-- What `load_server_plugin` returns and leaves behind. -/
structure Loading where
  result : Int
  errorText : Option (List UInt8)
  tables : Tables

section
variable (errorBufferSize : Nat) (tables : Tables) (portNumber : UInt8) (pluginPath : List UInt8)

def failed (message : List UInt8) (tables : Tables) : Loading :=
  ⟨-1, setErrorText errorBufferSize message, tables⟩

/-- The end of `load_server_plugin`, once the plugin has started. -/
def recordPlugin (libraryHandle : Handle) (plugin : PluginPointer)
    (registry : ServerPluginRegistry) : Loading :=
  let pluginPath := (copyText serverPluginPathMax pluginPath).getD ⟨[], by decide⟩
  ⟨0, setErrorText errorBufferSize [],
    ⟨⟨portNumber, libraryHandle, plugin, pluginPath⟩ :: tables.loadedPlugins, registry⟩⟩

/-- `load_server_plugin` from the call of the factory on. -/
def loadFromFactory (libraryHandle : Handle) (factory : Nat) : Program Libraries Loading := do
  match ← callFactory factory with
  | none =>
    let _ ← dlclose libraryHandle
    return failed errorBufferSize (ascii "plugin factory returned no plugin") tables
  | some plugin =>
    if plugin.plugin.pluginName = none then
      let _ ← dlclose libraryHandle
      return failed errorBufferSize (ascii "plugin factory returned no plugin") tables
    else match registerServerPlugin tables.registry portNumber plugin with
      | none =>
        let _ ← dlclose libraryHandle
        return failed errorBufferSize (ascii "plugin port is already assigned") tables
      | some registry =>
        if plugin.plugin.start then
          let result ← callStart plugin
          if result ≠ 0 then
            let _ ← dlclose libraryHandle
            return failed errorBufferSize (ascii "plugin start callback failed")
              { tables with registry := clearPluginSlot registry portNumber }
          else
            return recordPlugin errorBufferSize tables portNumber pluginPath libraryHandle plugin
              registry
        else
          return recordPlugin errorBufferSize tables portNumber pluginPath libraryHandle plugin
            registry

/-- `load_server_plugin` from the lookup of the factory on. -/
def loadFromLibrary (libraryHandle : Handle) : Program Libraries Loading := do
  let _ ← dlerror
  let factory ← dlsym libraryHandle "get_server_plugin"
  let dlError ← dlerror
  match factory, dlError with
  | some factory, none =>
    loadFromFactory errorBufferSize tables portNumber pluginPath libraryHandle factory
  | _, _ =>
    let _ ← dlclose libraryHandle
    return failed errorBufferSize (dlError.getD (ascii "missing get_server_plugin symbol")) tables

def loadServerPlugin (pluginPath : Option (List UInt8)) : Program Libraries Loading :=
  match pluginPath with
  | none => return failed errorBufferSize (ascii "invalid plugin loader input") tables
  | some pluginPath => do
    if ¬ isValidServerPort portNumber then
      return failed errorBufferSize (ascii "invalid plugin port") tables
    else if serverPortCount ≤ tables.loadedPlugins.length then
      return failed errorBufferSize (ascii "plugin loader is full") tables
    else match ← resolvePluginPath pluginPath serverPluginPathMax with
      | none => return failed errorBufferSize (ascii "failed to resolve plugin path") tables
      | some resolvedPluginPath =>
        match ← dlopen resolvedPluginPath with
        | none =>
          let dlError ← dlerror
          return failed errorBufferSize (dlError.getD (ascii "failed to open plugin library"))
            tables
        | some libraryHandle =>
          loadFromLibrary errorBufferSize tables portNumber pluginPath libraryHandle

end

/-- The loop of `unload_server_plugins`. -/
def unloadEntries : List LoadedServerPlugin → ServerPluginRegistry → Program Libraries Tables
  | [], registry => return ⟨[], registry⟩
  | loadedPlugin :: rest, registry => do
    if loadedPlugin.plugin.plugin.stop then
      let _ ← callStop loadedPlugin.plugin
    let registry := clearPluginSlot registry loadedPlugin.portNumber
    let _ ← dlclose loadedPlugin.libraryHandle
    unloadEntries rest registry

def unloadServerPlugins (tables : Tables) : Program Libraries Tables :=
  unloadEntries tables.loadedPlugins tables.registry

/-- The libraries that have been opened. -/
def openedHandles (t : List (Event Libraries)) : List Handle :=
  t.filterMap fun
    | ⟨.dlopen _, handle⟩ => handle
    | _ => none

/-- What is done to get rid of plugins. -/
inductive Ending
  | stop (plugin : PluginPointer)
  | close (handle : Handle)

def endings (t : List (Event Libraries)) : List Ending :=
  t.filterMap fun
    | ⟨.stop plugin, _⟩ => some (.stop plugin)
    | ⟨.dlclose handle, _⟩ => some (.close handle)
    | _ => none

theorem openedHandles_append (t u : List (Event Libraries)) :
    openedHandles (t ++ u) = openedHandles t ++ openedHandles u := List.filterMap_append

theorem endings_append (t u : List (Event Libraries)) :
    endings (t ++ u) = endings t ++ endings u := List.filterMap_append

/-- Every answer may be given. -/
def AnyAnswer (_ : Event Libraries) : Prop := True

def Tables.add (tables : Tables) (loadedPlugin : LoadedServerPlugin) : Tables :=
  ⟨loadedPlugin :: tables.loadedPlugins,
    ⟨Function.update tables.registry.slots (slotIndex loadedPlugin.portNumber)
      (some loadedPlugin.plugin)⟩⟩

/-- A load from an open library keeps the library for a new entry, or closes it and changes
nothing. -/
def Settled (tables : Tables) (portNumber : UInt8) (libraryHandle : Handle) (loading : Loading)
    (t : List (Event Libraries)) : Prop :=
  openedHandles t = [] ∧
    ((loading.result = 0 ∧ endings t = [] ∧ ∃ loadedPlugin : LoadedServerPlugin,
        loadedPlugin.portNumber = portNumber ∧ loadedPlugin.libraryHandle = libraryHandle ∧
          loadedPlugin.plugin.plugin.pluginName ≠ none ∧
            tables.registry.slots (slotIndex portNumber) = none ∧
              loading.tables = tables.add loadedPlugin) ∨
      (loading.result = -1 ∧ endings t = [.close libraryHandle] ∧ loading.tables = tables))

theorem registerServerPlugin_iff (hport : isValidServerPort portNumber = true) :
    registerServerPlugin registry portNumber plugin = some registry' ↔
      registry.slots (slotIndex portNumber) = none ∧
        registry' = ⟨Function.update registry.slots (slotIndex portNumber) (some plugin)⟩ := by
  rw [registerServerPlugin, if_neg (not_not.2 hport)]
  cases registry.slots (slotIndex portNumber) with
  | none =>
    dsimp only
    rw [Option.some.injEq]
    exact ⟨fun h => ⟨rfl, h.symm⟩, fun h => h.2.symm⟩
  | some other => exact ⟨fun h => (Option.some_ne_none _ h.symm).elim,
      fun h => (Option.some_ne_none _ h.1).elim⟩

theorem clearPluginSlot_register (hport : isValidServerPort portNumber = true)
    (h : registerServerPlugin registry portNumber plugin = some registry') :
    clearPluginSlot registry' portNumber = registry := by
  obtain ⟨hfree, rfl⟩ := (registerServerPlugin_iff hport).1 h
  rw [clearPluginSlot, if_neg (not_not.2 hport), Function.update_idem, ← hfree,
    Function.update_eq_self]

section
variable {tables : Tables}

theorem loadFromFactory_settled (hport : isValidServerPort portNumber = true) :
    Ensures (recording AnyAnswer)
      (loadFromFactory errorBufferSize tables portNumber pluginPath libraryHandle factory)
      (Settled tables portNumber libraryHandle) [] := by
  have hclose : ∀ loading e, loading.result = -1 → loading.tables = tables →
      openedHandles e = [] → endings e = [] →
        Ensures (recording AnyAnswer) ((dlclose libraryHandle).bind fun _ => .pure loading)
          (fun loading t => Settled tables portNumber libraryHandle loading (e ++ t)) [] := by
    intro loading e hresult htables hopened hendings
    refine ensures_recording_ask_bind fun r _ => ensures_pure.2 ⟨?_, .inr ⟨hresult, ?_, htables⟩⟩
    · rw [openedHandles_append, hopened]
      rfl
    · rw [endings_append, hendings]
      rfl
  have hrecord : ∀ plugin registry e, openedHandles e = [] → endings e = [] →
      plugin.plugin.pluginName ≠ none →
      registerServerPlugin tables.registry portNumber plugin = some registry →
        Settled tables portNumber libraryHandle
          (recordPlugin errorBufferSize tables portNumber pluginPath libraryHandle plugin registry)
          e := by
    intro plugin registry e hopened hendings hname hregister
    obtain ⟨hfree, rfl⟩ := (registerServerPlugin_iff hport).1 hregister
    exact ⟨hopened, .inl ⟨rfl, hendings, ⟨_, rfl, rfl, hname, hfree, rfl⟩⟩⟩
  rw [loadFromFactory, callFactory]
  refine ensures_recording_ask_bind fun plugin _ => ?_
  cases plugin with
  | none => exact hclose _ [_] rfl rfl rfl rfl
  | some plugin =>
    dsimp only
    split
    · exact hclose _ [_] rfl rfl rfl rfl
    · rename_i hname
      split
      · exact hclose _ [_] rfl rfl rfl rfl
      · rename_i registry hregister
        split
        · rw [Program.bind_eq, callStart]
          refine ensures_recording_ask_bind fun result _ => ?_
          split
          · refine hclose _ [_, _] rfl ?_ rfl rfl
            dsimp only [failed]
            rw [clearPluginSlot_register hport hregister]
          · exact ensures_pure.2 (hrecord plugin registry [_, _] rfl rfl hname hregister)
        · exact ensures_pure.2 (hrecord plugin registry [_] rfl rfl hname hregister)

theorem Settled.append (h : Settled tables portNumber libraryHandle loading t)
    (hopened : openedHandles e = []) (hendings : endings e = []) :
    Settled tables portNumber libraryHandle loading (e ++ t) := by
  rwa [Settled, openedHandles_append, hopened, List.nil_append, endings_append, hendings,
    List.nil_append]

theorem loadFromLibrary_settled (hport : isValidServerPort portNumber = true) :
    Ensures (recording AnyAnswer)
      (loadFromLibrary errorBufferSize tables portNumber pluginPath libraryHandle)
      (Settled tables portNumber libraryHandle) [] := by
  rw [loadFromLibrary, Program.bind_eq, dlerror]
  refine ensures_recording_ask_bind fun cleared _ => ?_
  rw [Program.bind_eq, dlsym]
  refine ensures_recording_ask_bind fun factory _ => ?_
  rw [Program.bind_eq]
  refine ensures_recording_ask_bind fun dlError _ => ?_
  split
  · refine (loadFromFactory_settled hport).mono ?_
    intro loading t h
    exact h.append (e := [_, _, _]) rfl rfl
  · exact ensures_recording_ask_bind fun _ _ => ensures_pure.2 ⟨rfl, .inr ⟨rfl, rfl, rfl⟩⟩

/-- What a load does: it adds an entry for the library it has opened, or it closes what it has
opened and changes nothing. -/
def LoadDone (tables : Tables) (portNumber : UInt8) (loading : Loading)
    (t : List (Event Libraries)) : Prop :=
  (loading.result = 0 ∧ isValidServerPort portNumber = true ∧
    tables.loadedPlugins.length < serverPortCount ∧ endings t = [] ∧
      ∃ loadedPlugin : LoadedServerPlugin, loadedPlugin.portNumber = portNumber ∧
        openedHandles t = [loadedPlugin.libraryHandle] ∧
          loadedPlugin.plugin.plugin.pluginName ≠ none ∧
            tables.registry.slots (slotIndex portNumber) = none ∧
              loading.tables = tables.add loadedPlugin) ∨
  (loading.result = -1 ∧ loading.tables = tables ∧ endings t = (openedHandles t).map .close)

theorem loadServerPlugin_done :
    Ensures (recording AnyAnswer) (loadServerPlugin errorBufferSize tables portNumber pluginPath)
      (LoadDone tables portNumber) [] := by
  have hresolve : ∀ path size, Ensures (recording AnyAnswer) (resolvePluginPath path size)
      (fun _ t => openedHandles t = [] ∧ endings t = []) [] := by
    intro path size
    rw [resolvePluginPath, Program.bind_eq, getenv]
    refine ensures_recording_ask_bind fun stageRoot _ => ?_
    split
    · exact ensures_pure.2 ⟨rfl, rfl⟩
    · split
      · split <;> exact ensures_pure.2 ⟨rfl, rfl⟩
      · exact ensures_pure.2 ⟨rfl, rfl⟩
  cases pluginPath with
  | none => exact ensures_pure.2 (.inr ⟨rfl, rfl, rfl⟩)
  | some pluginPath =>
    rw [loadServerPlugin]
    split
    · exact ensures_pure.2 (.inr ⟨rfl, rfl, rfl⟩)
    · rename_i hport
      rw [not_not] at hport
      split
      · exact ensures_pure.2 (.inr ⟨rfl, rfl, rfl⟩)
      · rename_i hroom
        refine ensures_recording_bind (hresolve _ _) ?_
        rintro resolved u ⟨hopened, hendings⟩
        split
        · refine ensures_pure.2 (.inr ⟨rfl, rfl, ?_⟩)
          rw [List.append_nil, hopened, hendings]
          rfl
        · rename_i path
          rw [Program.bind_eq, dlopen]
          refine ensures_recording_ask_bind fun answer _ => ?_
          cases answer with
          | none =>
            refine ensures_recording_ask_bind fun dlError _ => ensures_pure.2 (.inr ⟨rfl, rfl, ?_⟩)
            rw [endings_append, openedHandles_append, hopened, hendings]
            rfl
          | some handle =>
            refine (loadFromLibrary_settled hport).mono ?_
            intro loading t hsettled
            have hopened' : openedHandles (u ++ ⟨.dlopen path, some handle⟩ :: t) =
                handle :: openedHandles t := by
              rw [openedHandles_append, hopened]
              rfl
            have hendings' : endings (u ++ ⟨.dlopen path, some handle⟩ :: t) = endings t := by
              rw [endings_append, hendings]
              rfl
            obtain ⟨hnone, ⟨hresult, hend, entry, hport', hhandle, hname, hfree, htables⟩ |
              ⟨hresult, hend, htables⟩⟩ := hsettled
            · refine .inl ⟨hresult, hport, Nat.not_le.1 hroom, hendings'.trans hend, entry, hport',
                ?_, hname, hfree, htables⟩
              rw [hopened', hnone, hhandle]
            · refine .inr ⟨hresult, htables, ?_⟩
              rw [hendings', hend, hopened', hnone]
              rfl

end

/-- What getting rid of a loaded plugin takes. -/
def LoadedServerPlugin.endings (loadedPlugin : LoadedServerPlugin) : List Ending :=
  if loadedPlugin.plugin.plugin.stop then
    [.stop loadedPlugin.plugin, .close loadedPlugin.libraryHandle]
  else [.close loadedPlugin.libraryHandle]

theorem unloadEntries_ensures (loadedPlugins : List LoadedServerPlugin)
    (registry : ServerPluginRegistry) :
    Ensures (recording AnyAnswer) (unloadEntries loadedPlugins registry) (fun tables t =>
      endings t = loadedPlugins.flatMap LoadedServerPlugin.endings ∧
        tables = ⟨[], loadedPlugins.foldl
          (fun registry loadedPlugin => clearPluginSlot registry loadedPlugin.portNumber)
          registry⟩) [] := by
  induction loadedPlugins generalizing registry with
  | nil => exact ensures_pure.2 ⟨rfl, rfl⟩
  | cons loadedPlugin rest ih =>
    rw [unloadEntries]
    split
    · rename_i hstop
      rw [Program.bind_eq, callStop]
      refine ensures_recording_ask_bind fun _ _ => ?_
      dsimp only
      rw [Program.bind_eq, dlclose]
      refine ensures_recording_ask_bind fun _ _ => (ih _).mono ?_
      rintro _ t ⟨hend, rfl⟩
      refine ⟨?_, rfl⟩
      rw [List.flatMap_cons, LoadedServerPlugin.endings, if_pos hstop, ← hend]
      rfl
    · rename_i hstop
      dsimp only
      rw [Program.bind_eq, dlclose]
      refine ensures_recording_ask_bind fun _ _ => (ih _).mono ?_
      rintro _ t ⟨hend, rfl⟩
      refine ⟨?_, rfl⟩
      rw [List.flatMap_cons, LoadedServerPlugin.endings, if_neg hstop, ← hend]
      rfl

def emptyTables : Tables := ⟨[], ⟨fun _ => none⟩⟩

def findServerPlugin (registry : ServerPluginRegistry) (portNumber : UInt8) :
    Option PluginPointer :=
  if ¬ isValidServerPort portNumber then none else registry.slots (slotIndex portNumber)

/-- The two tables say the same: every entry has a port of its own, and the slots hold the plugins
of the entries. -/
structure InStep (tables : Tables) : Prop where
  length : tables.loadedPlugins.length ≤ serverPortCount
  ports : (tables.loadedPlugins.map LoadedServerPlugin.portNumber).Nodup
  valid : ∀ loadedPlugin ∈ tables.loadedPlugins, isValidServerPort loadedPlugin.portNumber = true
  slots : ∀ port plugin, tables.registry.slots port = some plugin ↔
    ∃ loadedPlugin ∈ tables.loadedPlugins, slotIndex loadedPlugin.portNumber = port ∧
      loadedPlugin.plugin = plugin

theorem inStep_empty : InStep emptyTables where
  length := Nat.zero_le _
  ports := List.nodup_nil
  valid := fun _ h => absurd h List.not_mem_nil
  slots := by
    intro port plugin
    apply iff_of_false
    · exact Option.some_ne_none plugin ∘ Eq.symm
    · rintro ⟨_, h, -⟩
      exact absurd h List.not_mem_nil

theorem isValidServerPort_iff : isValidServerPort portNumber = true ↔ portNumber.toNat < 16 := by
  rw [isValidServerPort, decide_eq_true_iff, UInt8.le_iff_toNat_le]
  exact Nat.lt_succ_iff.symm

theorem slotIndex_inj (h : isValidServerPort left = true) (h' : isValidServerPort right = true)
    (heq : slotIndex left = slotIndex right) : left = right := by
  have hval : left.toNat % 16 = right.toNat % 16 := congrArg Fin.val heq
  rw [Nat.mod_eq_of_lt (isValidServerPort_iff.1 h),
    Nat.mod_eq_of_lt (isValidServerPort_iff.1 h')] at hval
  exact UInt8.toNat_inj.1 hval

theorem InStep.add (h : InStep tables) {loadedPlugin : LoadedServerPlugin}
    (hport : isValidServerPort loadedPlugin.portNumber = true)
    (hroom : tables.loadedPlugins.length < serverPortCount)
    (hfree : tables.registry.slots (slotIndex loadedPlugin.portNumber) = none) :
    InStep (tables.add loadedPlugin) where
  length := hroom
  ports := by
    refine List.nodup_cons.2 ⟨?_, h.ports⟩
    intro hmem
    obtain ⟨other, hother, hsame⟩ := List.mem_map.1 hmem
    have hsome := (h.slots (slotIndex loadedPlugin.portNumber) other.plugin).2
      ⟨other, hother, congrArg slotIndex hsame, rfl⟩
    rw [hfree] at hsome
    cases hsome
  valid := by
    intro other hother
    rcases List.mem_cons.1 hother with rfl | hother
    · exact hport
    · exact h.valid other hother
  slots := by
    intro port plugin
    dsimp only [Tables.add]
    by_cases hslot : port = slotIndex loadedPlugin.portNumber
    · rw [hslot, Function.update_self, Option.some.injEq]
      constructor
      · intro hplugin
        exact ⟨loadedPlugin, List.mem_cons_self, rfl, hplugin⟩
      · rintro ⟨other, hother, hsame, rfl⟩
        rcases List.mem_cons.1 hother with rfl | hother
        · rfl
        · have hsome := (h.slots _ other.plugin).2 ⟨other, hother, hsame, rfl⟩
          rw [hfree] at hsome
          cases hsome
    · rw [Function.update_of_ne hslot, h.slots]
      constructor
      · rintro ⟨other, hother, hrest⟩
        exact ⟨other, List.mem_cons_of_mem _ hother, hrest⟩
      · rintro ⟨other, hother, hsame, hrest⟩
        rcases List.mem_cons.1 hother with rfl | hother
        · exact absurd hsame.symm hslot
        · exact ⟨other, hother, hsame, hrest⟩

theorem InStep.pop (h : InStep ⟨loadedPlugin :: rest, registry⟩) :
    InStep ⟨rest, clearPluginSlot registry loadedPlugin.portNumber⟩ := by
  have hvalid := h.valid loadedPlugin List.mem_cons_self
  obtain ⟨hfresh, hports⟩ := List.nodup_cons.1 h.ports
  have hother : ∀ other ∈ rest,
      slotIndex other.portNumber ≠ slotIndex loadedPlugin.portNumber := by
    intro other hmem hsame
    have hport := slotIndex_inj (h.valid other (List.mem_cons_of_mem _ hmem)) hvalid hsame
    exact hfresh (List.mem_map.2 ⟨other, hmem, hport⟩)
  refine ⟨Nat.le_of_succ_le h.length, hports,
    fun other hmem => h.valid other (List.mem_cons_of_mem _ hmem), ?_⟩
  intro port plugin
  rw [clearPluginSlot, if_neg (not_not.2 hvalid)]
  dsimp only
  by_cases hslot : port = slotIndex loadedPlugin.portNumber
  · rw [hslot, Function.update_self]
    apply iff_of_false
    · exact Option.some_ne_none plugin ∘ Eq.symm
    · rintro ⟨other, hmem, hsame, -⟩
      exact hother other hmem hsame
  · rw [Function.update_of_ne hslot]
    apply (h.slots port plugin).trans
    constructor
    · rintro ⟨other, hmem, hsame, hrest⟩
      rcases List.mem_cons.1 hmem with rfl | hmem
      · exact absurd hsame.symm hslot
      · exact ⟨other, hmem, hsame, hrest⟩
    · rintro ⟨other, hmem, hrest⟩
      exact ⟨other, List.mem_cons_of_mem _ hmem, hrest⟩

theorem InStep.cleared (h : InStep ⟨loadedPlugins, registry⟩) : loadedPlugins.foldl
    (fun registry loadedPlugin => clearPluginSlot registry loadedPlugin.portNumber) registry =
      ⟨fun _ => none⟩ := by
  induction loadedPlugins generalizing registry with
  | nil =>
    have hslots : registry.slots = fun _ => none := by
      funext port
      apply Option.eq_none_iff_forall_ne_some.2
      intro plugin hsome
      obtain ⟨_, hmem, -⟩ := (h.slots port plugin).1 hsome
      exact List.not_mem_nil hmem
    rw [List.foldl_nil, ← hslots]
  | cons loadedPlugin rest ih => exact ih h.pop

/-- The tables after any calls of `load_server_plugin` and `unload_server_plugins`, whatever the
libraries and their plugins answer. -/
inductive Reachable : Tables → Prop
  | init : Reachable emptyTables
  | load (h : Reachable tables) (errorBufferSize : Nat) (portNumber : UInt8)
      (pluginPath : Option (List UInt8))
      (hload : Exec (recording AnyAnswer) []
        (loadServerPlugin errorBufferSize tables portNumber pluginPath) t loading) :
      Reachable loading.tables
  | unload (h : Reachable tables)
      (hunload : Exec (recording AnyAnswer) [] (unloadServerPlugins tables) t tables') :
      Reachable tables'

theorem InStep.unload (h : InStep tables)
    (hunload : Exec (recording AnyAnswer) [] (unloadServerPlugins tables) t tables') :
    endings t = tables.loadedPlugins.flatMap LoadedServerPlugin.endings ∧
      tables' = emptyTables := by
  obtain ⟨hendings, rfl⟩ := unloadEntries_ensures _ _ _ _ hunload
  exact ⟨hendings, by rw [h.cleared, emptyTables]⟩

theorem Reachable.inStep (h : Reachable tables) : InStep tables := by
  induction h with
  | init => exact inStep_empty
  | load _ errorBufferSize portNumber pluginPath hload ih =>
    rcases loadServerPlugin_done _ _ hload with
      ⟨-, hport, hroom, -, entry, rfl, -, -, hfree, htables⟩ | ⟨-, htables, -⟩
    · rw [htables]
      exact ih.add hport hroom hfree
    · rw [htables]
      exact ih
  | unload _ hunload ih =>
    rw [(ih.unload hunload).2]
    exact inStep_empty

theorem InStep.find_iff (h : InStep tables) (portNumber : UInt8) (plugin : PluginPointer) :
    findServerPlugin tables.registry portNumber = some plugin ↔
      ∃ loadedPlugin ∈ tables.loadedPlugins, loadedPlugin.portNumber = portNumber ∧
        loadedPlugin.plugin = plugin := by
  rw [findServerPlugin]
  by_cases hport : isValidServerPort portNumber = true
  · rw [if_neg (not_not.2 hport), h.slots]
    apply exists_congr
    intro loadedPlugin
    apply and_congr_right
    intro hmem
    apply and_congr_left'
    constructor
    · exact slotIndex_inj (h.valid loadedPlugin hmem) hport
    · exact congrArg slotIndex
  · rw [if_pos hport]
    apply iff_of_false
    · exact Option.some_ne_none plugin ∘ Eq.symm
    · rintro ⟨loadedPlugin, hmem, rfl, -⟩
      exact hport (h.valid loadedPlugin hmem)

theorem countP_eq_one_iff {loadedPlugins : List LoadedServerPlugin}
    (h : (loadedPlugins.map LoadedServerPlugin.portNumber).Nodup)
    (portNumber : UInt8) (plugin : PluginPointer) :
    loadedPlugins.countP (fun entry => entry.portNumber = portNumber ∧ entry.plugin = plugin) = 1 ↔
      ∃ entry ∈ loadedPlugins, entry.portNumber = portNumber ∧ entry.plugin = plugin := by
  induction loadedPlugins with
  | nil =>
    apply iff_of_false
    · exact Nat.zero_ne_one
    · rintro ⟨_, hmem, -⟩
      exact List.not_mem_nil hmem
  | cons first rest ih =>
    obtain ⟨hfresh, hports⟩ := List.nodup_cons.1 h
    by_cases hfirst : first.portNumber = portNumber ∧ first.plugin = plugin
    · have hnone : rest.countP
          (fun entry => entry.portNumber = portNumber ∧ entry.plugin = plugin) = 0 := by
        apply List.countP_eq_zero.2
        intro entry hmem hentry
        have hport := (of_decide_eq_true hentry).1.trans hfirst.1.symm
        exact hfresh (List.mem_map.2 ⟨entry, hmem, hport⟩)
      rw [List.countP_cons, if_pos (decide_eq_true hfirst), hnone]
      exact iff_of_true rfl ⟨first, List.mem_cons_self, hfirst⟩
    · rw [List.countP_cons_of_neg (by simpa using hfirst), ih hports]
      constructor
      · rintro ⟨entry, hmem, hentry⟩
        exact ⟨entry, List.mem_cons_of_mem _ hmem, hentry⟩
      · rintro ⟨entry, hmem, hentry⟩
        rcases List.mem_cons.1 hmem with rfl | hmem
        · exact absurd hentry hfirst
        · exact ⟨entry, hmem, hentry⟩

/-- The loader and the registry stay in step, whatever is loaded and unloaded. -/
theorem loader_in_step (h : Reachable tables) :
    tables.loadedPlugins.length ≤ 16 ∧
    (∀ portNumber plugin, findServerPlugin tables.registry portNumber = some plugin ↔
      tables.loadedPlugins.countP
        (fun entry => entry.portNumber = portNumber ∧ entry.plugin = plugin) = 1) ∧
    (∀ errorBufferSize portNumber pluginPath t loading,
      Exec (recording AnyAnswer) []
        (loadServerPlugin errorBufferSize tables portNumber pluginPath) t loading →
      loading.result ≠ 0 →
        loading.tables = tables ∧ endings t = (openedHandles t).map .close) ∧
    (∀ t tables', Exec (recording AnyAnswer) [] (unloadServerPlugins tables) t tables' →
      endings t = tables.loadedPlugins.flatMap LoadedServerPlugin.endings ∧
        tables' = emptyTables) := by
  have hstep := h.inStep
  refine ⟨hstep.length, ?_, ?_, ?_⟩
  · intro portNumber plugin
    rw [hstep.find_iff, countP_eq_one_iff hstep.ports]
  · intro errorBufferSize portNumber pluginPath t loading hload hresult
    rcases loadServerPlugin_done _ _ hload with ⟨hzero, -⟩ | ⟨-, htables, hendings⟩
    · exact absurd hzero hresult
    · exact ⟨htables, hendings⟩
  · intro t tables' hunload
    exact hstep.unload hunload

/-- A plugin with a stop callback and no start callback. -/
def echoPlugin : PluginPointer := ⟨0x1000, ⟨some "echo", false, true, true⟩⟩

def echoPath : Buffer serverPluginPathMax := ⟨ascii "/p", by decide⟩

/-- A plugin without a stop callback. -/
def clockPlugin : PluginPointer := ⟨0x1100, ⟨some "clock", false, false, true⟩⟩

/-- The tables with one plugin on port 1 and another on port 2. -/
def twoLoaded : Tables :=
  (emptyTables.add ⟨1, 7, echoPlugin, echoPath⟩).add ⟨2, 8, clockPlugin, echoPath⟩

theorem twoLoaded_reachable : Reachable twoLoaded := by
  have hfirst : ∃ t, Exec (recording AnyAnswer) []
      (loadServerPlugin 0 emptyTables 1 (some (ascii "/p"))) t
        ⟨0, none, emptyTables.add ⟨1, 7, echoPlugin, echoPath⟩⟩ := by
    apply Exists.intro
    apply Exec.call (r := (none : Option (List UInt8))) ⟨trivial, rfl⟩
    apply Exec.call (r := (some 7 : Option Handle)) ⟨trivial, rfl⟩
    apply Exec.call (r := (none : Option (List UInt8))) ⟨trivial, rfl⟩
    apply Exec.call (r := (some 0x2000 : Option Nat)) ⟨trivial, rfl⟩
    apply Exec.call (r := (none : Option (List UInt8))) ⟨trivial, rfl⟩
    exact .call (r := some echoPlugin) ⟨trivial, rfl⟩ (.pure _ _)
  have hsecond : ∃ t, Exec (recording AnyAnswer) []
      (loadServerPlugin 0 (emptyTables.add ⟨1, 7, echoPlugin, echoPath⟩) 2 (some (ascii "/p"))) t
        ⟨0, none, twoLoaded⟩ := by
    apply Exists.intro
    apply Exec.call (r := (none : Option (List UInt8))) ⟨trivial, rfl⟩
    apply Exec.call (r := (some 8 : Option Handle)) ⟨trivial, rfl⟩
    apply Exec.call (r := (none : Option (List UInt8))) ⟨trivial, rfl⟩
    apply Exec.call (r := (some 0x2100 : Option Nat)) ⟨trivial, rfl⟩
    apply Exec.call (r := (none : Option (List UInt8))) ⟨trivial, rfl⟩
    exact .call (r := some clockPlugin) ⟨trivial, rfl⟩ (.pure _ _)
  obtain ⟨t₁, hexec₁⟩ := hfirst
  obtain ⟨t₂, hexec₂⟩ := hsecond
  exact .load (.load .init 0 1 _ hexec₁) 0 2 _ hexec₂

/-- Each plugin is found on its own port, and stopping them closes both libraries. -/
theorem loader_in_step_twoLoaded : Reachable twoLoaded ∧
    findServerPlugin twoLoaded.registry 1 = some echoPlugin ∧
    findServerPlugin twoLoaded.registry 2 = some clockPlugin ∧
    findServerPlugin twoLoaded.registry 2 ≠ some echoPlugin ∧
    ∀ t tables', Exec (recording AnyAnswer) [] (unloadServerPlugins twoLoaded) t tables' →
      endings t = twoLoaded.loadedPlugins.flatMap LoadedServerPlugin.endings ∧
        tables' = emptyTables := by
  obtain ⟨-, hfind, -, hunload⟩ := loader_in_step twoLoaded_reachable
  exact ⟨twoLoaded_reachable, (hfind 1 echoPlugin).2 (by decide +kernel),
    (hfind 2 clockPlugin).2 (by decide +kernel),
    fun h => absurd ((hfind 2 echoPlugin).1 h) (by decide +kernel), hunload⟩

/-- The registry as the runtime looks at it. -/
def Tables.registered (tables : Tables) : SquidServer.Runtime.ServerPluginRegistry :=
  ⟨fun port => (tables.registry.slots port).map PluginPointer.plugin⟩

theorem registered_add (tables : Tables) {entry : LoadedServerPlugin}
    (hname : entry.plugin.plugin.pluginName ≠ none)
    (hfree : tables.registry.slots (slotIndex entry.portNumber) = none) :
    SquidServer.Runtime.loadServerPlugin tables.registered (slotIndex entry.portNumber)
      (some entry.plugin.plugin) 0 = .ok (tables.add entry).registered := by
  have hnone : tables.registered.slots (slotIndex entry.portNumber) = none :=
    congrArg (Option.map PluginPointer.plugin) hfree
  have hslots : Function.update tables.registered.slots (slotIndex entry.portNumber)
      (some entry.plugin.plugin) = (tables.add entry).registered.slots := by
    funext port
    dsimp only [Tables.registered, Tables.add]
    by_cases hslot : port = slotIndex entry.portNumber
    · rw [hslot, Function.update_self, Function.update_self, Option.map_some]
    · rw [Function.update_of_ne hslot, Function.update_of_ne hslot]
  rw [SquidServer.Runtime.loadServerPlugin, if_neg hname,
    SquidServer.Runtime.registerServerPlugin, hnone]
  dsimp only
  rw [if_neg fun hstart => hstart.2 rfl, hslots]

/-- The registries that the loader leaves are the ones that the runtime expects. -/
theorem Reachable.loaded (h : Reachable tables) :
    SquidServer.Runtime.Loaded tables.registered := by
  induction h with
  | init => exact .empty
  | load _ errorBufferSize portNumber pluginPath hload ih =>
    rcases loadServerPlugin_done _ _ hload with
      ⟨-, -, -, -, entry, rfl, -, hname, hfree, htables⟩ | ⟨-, htables, -⟩
    · rw [htables]
      exact .load ih (registered_add _ hname hfree)
    · rw [htables]
      exact ih
  | unload hreach hunload ih =>
    rw [(hreach.inStep.unload hunload).2]
    exact .empty

end SquidServer.PluginLoader

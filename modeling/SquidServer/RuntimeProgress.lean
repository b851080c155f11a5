import SquidServer.LinkSessions

namespace SquidServer.Runtime
open Interaction
set_option autoImplicit true

/-- A port takes one plugin. -/
def registerServerPlugin (registry : ServerPluginRegistry) (port : Port) (plugin : ServerPlugin) :
    Option ServerPluginRegistry :=
  match registry.slots port with
  | some _ => none
  | none => some ⟨Function.update registry.slots port (some plugin)⟩

/-- The end of `load_server_plugin`, from what the library's factory returned on and with the
result its start callback gives. A refused plugin does not stay in the registry. -/
def loadServerPlugin (registry : ServerPluginRegistry) (port : Port)
    (plugin : Option ServerPlugin) (startResult : Int) : Except String ServerPluginRegistry :=
  match plugin with
  | none => .error "plugin factory returned no plugin"
  | some plugin =>
    if plugin.pluginName = none then .error "plugin factory returned no plugin"
    else match registerServerPlugin registry port plugin with
      | none => .error "plugin port is already assigned"
      | some registry =>
        if plugin.start ∧ startResult ≠ 0 then .error "plugin start callback failed"
        else .ok registry

/-- The registries the loader can build. -/
inductive Loaded : ServerPluginRegistry → Prop
  | empty : Loaded ⟨fun _ => none⟩
  | load : Loaded registry → loadServerPlugin registry port plugin startResult = .ok registry' →
      Loaded registry'

/-- `open_plugin_sockets`: a port with a plugin gets the descriptor of its socket, which is
negative when the socket could not be opened or bound. -/
def openPluginSockets (fds : Port → Int) : List Port → ServerRuntime → ServerRuntime
  | [], runtime => runtime
  | port :: ports, runtime =>
    match findServerPlugin runtime.pluginRegistry port with
    | none => openPluginSockets fds ports runtime
    | some _ => openPluginSockets fds ports (runtime.bindSocket port (fds port))

/-- The states between the dispatch passes of a server: its sockets have been opened, and any
number of passes and link losses have followed. -/
inductive Reached (registry : ServerPluginRegistry) : ServerRuntime → Prop
  | opened (fds : Port → Int) :
      Reached registry (openPluginSockets fds pluginPorts (initServerRuntime registry))
  | pass : Reached registry runtime →
      Exec (recording RecvBounded) [] (dispatchReceivedPackets runtime) t runtime' →
      Reached registry runtime'
  | linkLost : Reached registry runtime → Reached registry (resetPorts pluginPorts runtime)

/-- The counters of a port on which no complete request is left behind. -/
structure PortState.Going (st : PortState) : Prop where
  expected : st.requestPacketExpected ≤ 255
  size : st.requestPacketSize ≤ st.requestPacketExpected
  pending : st.pendingResponseSize ≤ 256
  framed : st.pendingResponseSize ≠ 0 →
    st.pendingResponseSize = 1 + st.pendingResponse.head.toNat
  dispatched : st.requestPacketExpected = 0 ∨ st.requestPacketSize < st.requestPacketExpected

/-- With no reply pending, the port's next turn asks its receive queue for more bytes. -/
def Drains (registry : ServerPluginRegistry) (p : Port) (st : PortState) : Prop :=
  st.pendingResponseSize = 0 → ∃ maximum k, 0 < maximum ∧
    dispatchPort registry p st = .call (.squidRecv p maximum) k

/-- No open port is stuck. -/
def Unwedged (registry : ServerPluginRegistry) (runtime : ServerRuntime) : Prop :=
  ∀ p ∈ pluginPorts, 0 ≤ (runtime.ports p).squidFd →
    (runtime.ports p).Going ∧ Drains registry p (runtime.ports p)

/-- Every plugin behind a socket has a `handle_packet` callback. -/
def AllHandle (registry : ServerPluginRegistry) : Prop :=
  ∀ p ∈ pluginPorts, ∀ plugin, findServerPlugin registry p = some plugin →
    plugin.handlePacket = true

theorem PortState.Going.drains (h : st.Going) (hfd : 0 ≤ st.squidFd)
    (registry : ServerPluginRegistry) (p : Port) : Drains registry p st := by
  intro hidle
  rw [dispatchPort, if_neg (Int.not_lt.2 hfd), if_neg (by omega), servePort, receivePluginPacket]
  rcases h.dispatched with hz | hlt
  · rw [if_pos hz]
    exact ⟨1, _, Nat.one_pos, rfl⟩
  · rw [if_neg (by omega), receiveBody, if_pos hlt]
    exact ⟨_, _, Nat.sub_pos_of_lt hlt, rfl⟩

theorem PortState.going_of_empty {st : PortState} (he : st.requestPacketExpected = 0)
    (hs : st.requestPacketSize = 0) (hp : st.pendingResponseSize = 0) : st.Going where
  expected := by rw [he]; omega
  size := by rw [hs]; exact Nat.zero_le _
  pending := by rw [hp]; omega
  framed := fun hne => absurd hp hne
  dispatched := .inl he

theorem receiveBody_going (h : st.Going) :
    Ensures (recording RecvBounded) (receiveBody p st) (fun x _ => x.1 ≤ 0 → x.2.Going) t := by
  rw [receiveBody]
  split
  · rename_i hlt
    refine ensures_bind.2 (ensures_call.2 ?_)
    rintro (_ | bytes) t' ⟨hb, -⟩
    · exact ensures_pure.2 (ensures_pure.2 fun _ => h)
    · refine ensures_pure.2 (ensures_pure.2 ?_)
      change bytes.length ≤ _ at hb
      dsimp only
      split
      · intro hpos
        exact absurd hpos (by decide)
      · rename_i hne
        intro _
        exact {
          expected := h.expected
          size := by dsimp only; omega
          pending := h.pending
          framed := h.framed
          dispatched := .inr (by dsimp only at hne ⊢; omega) }
  · exact ensures_pure.2 fun _ => h

theorem receivePluginPacket_going (h : st.Going) :
    Ensures (recording RecvBounded) (receivePluginPacket p st) (fun x _ => x.1 ≤ 0 → x.2.Going)
      t := by
  rw [receivePluginPacket]
  split
  · refine ensures_bind.2 (ensures_call.2 ?_)
    rintro (_ | _ | ⟨wireSize, rest⟩) t' -
    · exact ensures_pure.2 (ensures_pure.2 fun _ => h)
    · exact ensures_pure.2 (ensures_pure.2 fun _ => h)
    · refine ensures_pure.2 ?_
      dsimp only
      split
      · exact ensures_pure.2 fun _ => h
      · rename_i hne
        have hpos : 0 < wireSize.toNat := by
          apply Nat.pos_of_ne_zero
          intro hz
          exact hne (UInt8.toNat_inj.1 hz)
        have hlt := wireSize.toNat_lt
        apply receiveBody_going
        exact {
          expected := by dsimp only; omega
          size := Nat.zero_le _
          pending := h.pending
          framed := h.framed
          dispatched := .inr hpos }
  · exact receiveBody_going h

theorem queueResponse_going (H : Environment LibSquid σ) (s : σ)
    (hidle : st.pendingResponseSize = 0) (reply : PluginReply) :
    Ensures H (queueResponse p st reply) (fun st' _ =>
      ({ st' with requestPacketSize := 0, requestPacketExpected := 0 } : PortState).Going) s := by
  have hfresh : ∀ st' : PortState, st'.pendingResponseSize = 0 →
      ({ st' with requestPacketSize := 0, requestPacketExpected := 0 } : PortState).Going := by
    intro st' hs
    exact PortState.going_of_empty rfl rfl hs
  unfold queueResponse
  split
  · split
    · exact ensures_pure.2 (hfresh _ hidle)
    · rename_i hgood
      split
      · rename_i hpos
        have hmax : reply.packetSize ≤ serverPacketMax := by
          by_contra h
          exact hgood ⟨hpos, .inr (Nat.lt_of_not_le h)⟩
        have hto : (UInt8.ofNat reply.packetSize).toNat = reply.packetSize :=
          UInt8.toNat_ofNat_of_lt' (Nat.lt_succ_of_le hmax)
        refine ensures_bind.2 (ensures_call.2 fun sent s' _ => ensures_pure.2 ?_)
        cases sent with
        | true => exact ensures_pure.2 (hfresh _ rfl)
        | false =>
          refine ensures_pure.2 ?_
          exact {
            expected := Nat.zero_le _
            size := Nat.le_refl 0
            pending := Nat.succ_le_succ hmax
            framed := by
              intro _
              simp only [Vector.head, Vector.getElem_set_self, hto]
              omega
            dispatched := .inl rfl }
      · exact ensures_pure.2 (hfresh _ hidle)
  · exact ensures_pure.2 (hfresh _ hidle)

theorem servePort_going (h : st.Going) (hidle : st.pendingResponseSize = 0)
    (hplugin : findServerPlugin registry p = some plugin) (hh : plugin.handlePacket = true) :
    Ensures (recording RecvBounded) (servePort registry p st) (fun st' _ => st'.Going) t := by
  unfold servePort
  refine ensures_bind.2 (((receivePluginPacket_going h).and
    (receivePluginPacket_frame _ t p st)).mono ?_)
  rintro ⟨packetReady, st'⟩ t' ⟨hwait, -, hpending⟩
  dsimp only
  split
  · rename_i hle
    exact ensures_pure.2 (hwait hle)
  · simp only [hplugin, hh, if_true]
    refine ensures_bind.2 (ensures_call.2 fun reply t'' _ => ensures_pure.2 ?_)
    refine ensures_bind.2 ((queueResponse_going _ t'' (hpending.trans hidle) reply).mono ?_)
    intro st'' _ hgoing
    exact ensures_pure.2 hgoing

/-- A turn keeps its port going, whichever way it leaves the loop body. -/
theorem dispatchPort_going (h : st.Going) (hs : Served registry p st) :
    Ensures (recording RecvBounded) (dispatchPort registry p st) (fun st' _ => st'.Going) t := by
  unfold dispatchPort
  split
  · exact ensures_pure.2 h
  · rename_i hfd
    obtain ⟨plugin, hplugin, hh⟩ := hs (Int.not_lt.1 hfd)
    split
    · refine ensures_bind.2 (ensures_call.2 fun sent t' _ => ensures_pure.2 ?_)
      cases sent with
      | false => exact ensures_pure.2 h
      | true =>
        have hgoing : ({ st with pendingResponseSize := 0 } : PortState).Going := {
          expected := h.expected
          size := h.size
          pending := Nat.zero_le _
          framed := fun hne => absurd rfl hne
          dispatched := h.dispatched }
        exact servePort_going hgoing rfl hplugin hh
    · exact servePort_going h (by omega) hplugin hh

theorem openPluginSockets_spec (fds : Port → Int) (ports : List Port) (runtime : ServerRuntime) :
    (openPluginSockets fds ports runtime).pluginRegistry = runtime.pluginRegistry ∧
    ∀ p, (p ∈ ports ∧ (findServerPlugin runtime.pluginRegistry p).isSome ∧
        (openPluginSockets fds ports runtime).ports p =
          { runtime.ports p with squidFd := fds p }) ∨
      (¬ (p ∈ ports ∧ (findServerPlugin runtime.pluginRegistry p).isSome) ∧
        (openPluginSockets fds ports runtime).ports p = runtime.ports p) := by
  induction ports generalizing runtime with
  | nil => exact ⟨rfl, fun p => .inr ⟨fun h => List.not_mem_nil h.1, rfl⟩⟩
  | cons port ports ih =>
    rw [openPluginSockets]
    split
    · rename_i hnone
      refine ⟨(ih runtime).1, fun p => ?_⟩
      rcases (ih runtime).2 p with ⟨hp, hsome, heq⟩ | ⟨hnot, heq⟩
      · exact .inl ⟨List.mem_cons_of_mem port hp, hsome, heq⟩
      · refine .inr ⟨fun h => ?_, heq⟩
        rcases List.mem_cons.1 h.1 with rfl | hp
        · rw [hnone] at h
          exact Bool.false_ne_true h.2
        · exact hnot ⟨hp, h.2⟩
    · rename_i plugin hsome
      refine ⟨(ih _).1, fun p => ?_⟩
      have hrest := (ih (runtime.bindSocket port (fds port))).2 p
      rw [ServerRuntime.bindSocket, ServerRuntime.setPort_registry] at hrest
      by_cases hp : p = port
      · subst hp
        refine .inl ⟨List.mem_cons_self, by rw [hsome]; rfl, ?_⟩
        rcases hrest with ⟨-, -, heq⟩ | ⟨-, heq⟩
        · rw [ServerRuntime.bindSocket, heq]
          simp
        · rw [ServerRuntime.bindSocket, heq]
          simp
      · rw [ServerRuntime.setPort_other _ _ hp] at hrest
        rcases hrest with ⟨hmem, hfound, heq⟩ | ⟨hnot, heq⟩
        · exact .inl ⟨List.mem_cons_of_mem port hmem, hfound, heq⟩
        · refine .inr ⟨fun h => hnot ⟨?_, h.2⟩, heq⟩
          exact (List.mem_cons.1 h.1).resolve_left hp

theorem resetPorts_ports (ports : List Port) (runtime : ServerRuntime) (p : Port) :
    (p ∈ ports ∧ (resetPorts ports runtime).ports p = (runtime.ports p).reset) ∨
      (p ∉ ports ∧ (resetPorts ports runtime).ports p = runtime.ports p) := by
  induction ports generalizing runtime with
  | nil => exact .inr ⟨List.not_mem_nil, rfl⟩
  | cons port ports ih =>
    rw [resetPorts]
    have hrest := ih (runtime.setPort port (runtime.ports port).reset)
    by_cases hp : p = port
    · subst hp
      refine .inl ⟨List.mem_cons_self, ?_⟩
      rcases hrest with ⟨-, heq⟩ | ⟨-, heq⟩
      · rw [heq]
        simp [PortState.reset]
      · rw [heq]
        simp [PortState.reset]
    · rw [ServerRuntime.setPort_other _ _ hp] at hrest
      rcases hrest with ⟨hmem, heq⟩ | ⟨hnot, heq⟩
      · exact .inl ⟨List.mem_cons_of_mem port hmem, heq⟩
      · exact .inr ⟨fun h => (List.mem_cons.1 h).elim hp hnot, heq⟩

/-- What holds in every state a server with handlers reaches: sockets belong to plugins, and
every port is going. -/
structure RuntimeInv (registry : ServerPluginRegistry) (runtime : ServerRuntime) : Prop where
  plugins : runtime.pluginRegistry = registry
  opened : ∀ p, 0 ≤ (runtime.ports p).squidFd → (findServerPlugin registry p).isSome
  going : ∀ p ∈ pluginPorts, (runtime.ports p).Going

theorem RuntimeInv.served (h : RuntimeInv registry runtime) (hh : AllHandle registry)
    (hp : p ∈ pluginPorts) : Served registry p (runtime.ports p) := by
  intro hfd
  obtain ⟨plugin, hplugin⟩ := Option.isSome_iff_exists.1 (h.opened p hfd)
  exact ⟨plugin, hplugin, hh p hp plugin hplugin⟩

theorem runtimeInv_opened (registry : ServerPluginRegistry) (fds : Port → Int) :
    RuntimeInv registry (openPluginSockets fds pluginPorts (initServerRuntime registry)) where
  plugins := (openPluginSockets_spec _ _ _).1
  opened := by
    intro p hfd
    rcases (openPluginSockets_spec fds pluginPorts (initServerRuntime registry)).2 p with
      ⟨-, hsome, -⟩ | ⟨-, heq⟩
    · exact hsome
    · rw [heq] at hfd
      change (0 : Int) ≤ -1 at hfd
      omega
  going := by
    intro p _
    rcases (openPluginSockets_spec fds pluginPorts (initServerRuntime registry)).2 p with
      ⟨-, -, heq⟩ | ⟨-, heq⟩
    · rw [heq]
      exact PortState.going_of_empty rfl rfl rfl
    · rw [heq]
      exact PortState.going_of_empty rfl rfl rfl

theorem RuntimeInv.pass (h : RuntimeInv registry runtime) (hh : AllHandle registry)
    (he : Exec (recording RecvBounded) t (dispatchReceivedPackets runtime) t' runtime') :
    RuntimeInv registry runtime' where
  plugins := (dispatchPorts_project pluginPorts_nodup he 0).1.trans h.plugins
  opened := by
    intro p hfd
    obtain ⟨-, hin, hout⟩ := dispatchPorts_project pluginPorts_nodup he p
    apply h.opened p
    by_cases hp : p ∈ pluginPorts
    · rwa [dispatchPort_squidFd _ _ _ _ _ _ _ (hin hp)] at hfd
    · rwa [(hout hp).2] at hfd
  going := by
    intro p hp
    obtain ⟨-, hin, -⟩ := dispatchPorts_project pluginPorts_nodup he p
    have hrun := hin hp
    rw [h.plugins] at hrun
    exact dispatchPort_going (h.going p hp) (h.served hh hp) _ _ hrun

theorem RuntimeInv.linkLost (h : RuntimeInv registry runtime) :
    RuntimeInv registry (resetPorts pluginPorts runtime) where
  plugins := (resetPorts_registry _ _).trans h.plugins
  opened := by
    intro p hfd
    apply h.opened p
    rcases resetPorts_ports pluginPorts runtime p with ⟨-, heq⟩ | ⟨-, heq⟩
    · rw [heq] at hfd
      exact hfd
    · rwa [heq] at hfd
  going := by
    intro p hp
    rcases resetPorts_ports pluginPorts runtime p with ⟨-, heq⟩ | ⟨hnot, -⟩
    · rw [heq]
      exact PortState.going_of_empty rfl rfl rfl
    · exact absurd hp hnot

theorem Reached.inv (h : Reached registry runtime) (hh : AllHandle registry) :
    RuntimeInv registry runtime := by
  induction h with
  | opened fds => exact runtimeInv_opened registry fds
  | pass _ he ih => exact ih.pass hh he
  | linkLost _ ih => exact ih.linkLost

/-- A peer whose every byte is 1, so that every request is one byte long, and plugins that fail. -/
def onesAnswers : (op : LibSquid.Op) → LibSquid.Ans op
  | .keepRunning => true
  | .clearKeepRunning => ()
  | .snetLinkIsUp => true
  | .snetBurst => ()
  | .transportWait => 0
  | .squidRecv _ maximum => some (List.replicate maximum 1)
  | .squidSend _ _ => true
  | .handlePacket _ _ => ⟨-1, Vector.replicate 255 0, false, 0⟩

def IsOnes : Event LibSquid → Prop
  | ⟨op, r⟩ => r = onesAnswers op

theorem IsOnes.recvBounded (h : IsOnes e) : RecvBounded e := by
  rcases e with ⟨op, r⟩
  rw [show r = onesAnswers op from h]
  cases op with
  | squidRecv p maximum => exact Nat.le_of_eq List.length_replicate
  | _ => trivial

theorem exec_ones (p : Program LibSquid α) (t : Trace) :
    ∃ t' a, Exec (recording IsOnes) t p t' a := by
  induction p generalizing t with
  | pure a => exact ⟨t, a, .pure _ _⟩
  | call op k ih =>
    obtain ⟨t', a, he⟩ := ih (onesAnswers op) (t ++ [⟨op, onesAnswers op⟩])
    exact ⟨t', a, .call ⟨rfl, rfl⟩ he⟩

/-- Without a handler the first request stays where it was received. -/
theorem dispatchPort_leaves (he : st.requestPacketExpected = 0) (hp : st.pendingResponseSize = 0)
    (hfd : 0 ≤ st.squidFd) (hplugin : findServerPlugin registry p = some plugin)
    (hh : plugin.handlePacket = false) :
    Ensures (recording IsOnes) (dispatchPort registry p st) (fun st' _ =>
      st'.requestPacketExpected = 1 ∧ st'.requestPacketSize = 1 ∧
      st'.pendingResponseSize = 0) t := by
  rw [dispatchPort, if_neg (Int.not_lt.2 hfd), if_neg (by omega), servePort, receivePluginPacket,
    if_pos he]
  refine ensures_bind.2 (ensures_bind.2 (ensures_call.2 ?_))
  rintro _ t₁ ⟨rfl, -⟩
  refine ensures_pure.2 (ensures_bind.2 (ensures_call.2 ?_))
  rintro _ t₂ ⟨rfl, -⟩
  refine ensures_pure.2 (ensures_pure.2 ?_)
  simp only [hplugin, hh]
  exact ensures_pure.2 ⟨rfl, rfl, hp⟩

/-- From then on its turns do nothing: they do not even ask for more bytes. -/
theorem dispatchPort_stuck {st : PortState} (he : st.requestPacketExpected = 1)
    (hs : st.requestPacketSize = 1) (hp : st.pendingResponseSize = 0) (hfd : 0 ≤ st.squidFd)
    (hplugin : findServerPlugin registry p = some plugin) (hh : plugin.handlePacket = false) :
    dispatchPort registry p st = .pure st := by
  rw [dispatchPort, if_neg (Int.not_lt.2 hfd), if_neg (by omega), servePort, receivePluginPacket,
    if_neg (by omega), receiveBody, if_neg (by omega)]
  simp [hplugin, hh]

theorem reached_wedged (hp : p ∈ pluginPorts) (hplugin : findServerPlugin registry p = some plugin)
    (hh : plugin.handlePacket = false) :
    ∃ runtime, Reached registry runtime ∧ (runtime.ports p).squidFd = 0 ∧
      (runtime.ports p).requestPacketExpected = 1 ∧ (runtime.ports p).requestPacketSize = 1 ∧
      (runtime.ports p).pendingResponseSize = 0 := by
  let start := openPluginSockets (fun _ => 0) pluginPorts (initServerRuntime registry)
  have hspec := openPluginSockets_spec (fun _ => 0) pluginPorts (initServerRuntime registry)
  have hst : start.ports p = { (initServerRuntime registry).ports p with squidFd := 0 } := by
    have hfound : findServerPlugin (initServerRuntime registry).pluginRegistry p = some plugin :=
      hplugin
    rcases hspec.2 p with ⟨-, -, heq⟩ | ⟨hnot, -⟩
    · exact heq
    · refine absurd ⟨hp, ?_⟩ hnot
      rw [hfound]
      rfl
  obtain ⟨t, runtime, he⟩ := exec_ones (dispatchReceivedPackets start) []
  obtain ⟨-, hin, -⟩ := dispatchPorts_project pluginPorts_nodup he p
  have hrun := hin hp
  rw [hspec.1, hst] at hrun
  have hfd := dispatchPort_squidFd _ _ _ _ _ _ _ hrun
  have hleft := dispatchPort_leaves rfl rfl (Int.le_refl 0) hplugin hh _ _ hrun
  exact ⟨runtime, .pass (.opened _) (exec_recording_mono (fun _ => IsOnes.recvBounded) he), hfd,
    hleft⟩

/-- No run of dispatch passes wedges a port exactly when every plugin on a port has a handler. -/
theorem unwedged_iff_allHandle (registry : ServerPluginRegistry) :
    (∀ runtime, Reached registry runtime → Unwedged registry runtime) ↔ AllHandle registry := by
  constructor
  · intro h p hp plugin hplugin
    cases hh : plugin.handlePacket with
    | true => rfl
    | false =>
      obtain ⟨runtime, hr, hfd, he, hs, -⟩ := reached_wedged hp hplugin hh
      obtain ⟨hgoing, -⟩ := h runtime hr p hp (Int.le_of_eq hfd.symm)
      have hd := hgoing.dispatched
      omega
  · intro hh runtime hr p hp hfd
    have hgoing := (hr.inv hh).going p hp
    exact ⟨hgoing, hgoing.drains hfd registry p⟩

/-- A registry with one named plugin on port 1 that has no callbacks. -/
def idleRegistry : ServerPluginRegistry :=
  ⟨Function.update (fun _ => none) 1 (some ⟨some "idle", false, false, false⟩)⟩

/-- The loader admits a plugin without callbacks. Its port then keeps a completely received
request, and its turns change nothing any more. -/
theorem idleRegistry_wedges : Loaded idleRegistry ∧
    ∃ runtime, Reached idleRegistry runtime ∧ ¬ Unwedged idleRegistry runtime ∧
      dispatchPort idleRegistry 1 (runtime.ports 1) = .pure (runtime.ports 1) := by
  have hport : (1 : Port) ∈ pluginPorts := by decide
  have hplugin : findServerPlugin idleRegistry 1 = some ⟨some "idle", false, false, false⟩ := rfl
  have hload : loadServerPlugin ⟨fun _ => none⟩ 1 (some ⟨some "idle", false, false, false⟩) 0 =
    .ok idleRegistry := rfl
  refine ⟨.load .empty hload, ?_⟩
  obtain ⟨runtime, hr, hfd, he, hs, hp⟩ := reached_wedged hport hplugin rfl
  have hopen : 0 ≤ (runtime.ports 1).squidFd := Int.le_of_eq hfd.symm
  refine ⟨runtime, hr, ?_, dispatchPort_stuck he hs hp hopen hplugin rfl⟩
  intro hu
  have hd := (hu 1 hport hopen).1.dispatched
  omega

end SquidServer.Runtime

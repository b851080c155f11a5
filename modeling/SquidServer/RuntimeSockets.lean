import SquidServer.Leases
import SquidServer.Runtime

namespace SquidServer.Runtime
open Interaction
set_option autoImplicit true

/-- What the dispatch loop calls: the sockets that are open, and the plugins that are registered. -/
def Dispatches (registry : ServerPluginRegistry) (fds : Port → Int) : Call → Prop
  | .squidRecv port _ => 0 ≤ fds port
  | .squidSend port _ => 0 ≤ fds port
  | .handlePacket port _ => 0 ≤ fds port ∧ ∃ plugin,
      findServerPlugin registry port = some plugin ∧ plugin.handlePacket = true
  | _ => True

/-- A runtime with this registry and these sockets. -/
structure ServerRuntime.Wired (registry : ServerPluginRegistry) (fds : Port → Int)
    (runtime : ServerRuntime) : Prop where
  registry : runtime.pluginRegistry = registry
  fds : ∀ port, (runtime.ports port).squidFd = fds port

section
variable {registry : ServerPluginRegistry} {fds : Port → Int} {port : Port} {st : PortState}

theorem receiveBody_performs (hfd : 0 ≤ fds port) :
    Performs (Dispatches registry fds) (fun x => x.2.squidFd = st.squidFd)
      (receiveBody port st) := by
  rw [receiveBody]
  split
  · refine Performs.call hfd ?_
    rintro (_ | bytes)
    · exact .pure _ rfl
    · exact .pure _ rfl
  · exact .pure _ rfl

theorem receivePluginPacket_performs (hfd : 0 ≤ fds port) :
    Performs (Dispatches registry fds) (fun x => x.2.squidFd = st.squidFd)
      (receivePluginPacket port st) := by
  rw [receivePluginPacket]
  split
  · refine Performs.call hfd ?_
    rintro (_ | _ | ⟨wireSize, rest⟩)
    · exact .pure _ rfl
    · exact .pure _ rfl
    · change Performs _ _ (if wireSize = 0 then _ else _)
      split
      · exact .pure _ rfl
      · exact (receiveBody_performs hfd).mono (fun _ h => h) fun _ hst => hst
  · exact receiveBody_performs hfd

theorem queueResponse_performs (hfd : 0 ≤ fds port) (reply : PluginReply) :
    Performs (Dispatches registry fds) (fun st' => st'.squidFd = st.squidFd)
      (queueResponse port st reply) := by
  rw [queueResponse]
  split
  · split
    · exact .pure _ rfl
    · split
      · refine Performs.call hfd ?_
        rintro (_ | _)
        · exact .pure _ rfl
        · exact .pure _ rfl
      · exact .pure _ rfl
  · exact .pure _ rfl

theorem servePort_performs (hfd : 0 ≤ fds port) :
    Performs (Dispatches registry fds) (fun st' => st'.squidFd = st.squidFd)
      (servePort registry port st) := by
  rw [servePort]
  refine (receivePluginPacket_performs hfd).bind ?_
  rintro ⟨packetReady, st₁⟩ hst₁
  dsimp only at hst₁ ⊢
  split
  · exact .pure _ hst₁
  · cases hplugin : findServerPlugin registry port with
    | none => exact .pure _ hst₁
    | some plugin =>
      dsimp only
      split
      · rename_i hhandle
        refine Performs.call ⟨hfd, plugin, hplugin, hhandle⟩ fun reply => ?_
        refine (queueResponse_performs hfd reply).bind ?_
        intro st₂ hst₂
        exact .pure _ (hst₂.trans hst₁)
      · exact .pure _ hst₁

theorem dispatchPort_performs (h : st.squidFd = fds port) :
    Performs (Dispatches registry fds) (fun st' => st'.squidFd = fds port)
      (dispatchPort registry port st) := by
  rw [← h, dispatchPort]
  split
  · exact .pure _ rfl
  · rename_i hopen
    have hfd : 0 ≤ fds port := h ▸ Int.not_lt.1 hopen
    split
    · refine Performs.call hfd ?_
      rintro (_ | _)
      · exact .pure _ rfl
      · exact (servePort_performs hfd).mono (fun _ h => h) fun _ hst => hst
    · exact servePort_performs hfd

variable {runtime : ServerRuntime}

theorem ServerRuntime.Wired.setPort (h : runtime.Wired registry fds)
    (hst : st.squidFd = fds port) : (runtime.setPort port st).Wired registry fds where
  registry := h.registry
  fds := by
    intro q
    by_cases hq : q = port
    · rw [hq, ServerRuntime.setPort_same, hst]
    · rw [ServerRuntime.setPort_other runtime st hq, h.fds]

theorem dispatchPorts_performs (ports : List Port) (h : runtime.Wired registry fds) :
    Performs (Dispatches registry fds) (ServerRuntime.Wired registry fds)
      (dispatchPorts ports runtime) := by
  induction ports generalizing runtime with
  | nil => exact .pure _ h
  | cons port ports ih =>
    rw [dispatchPorts, h.registry]
    exact (dispatchPort_performs (h.fds port)).bind fun st hst => ih (h.setPort hst)

theorem ServerRuntime.Wired.resetPorts (ports : List Port) (h : runtime.Wired registry fds) :
    (resetPorts ports runtime).Wired registry fds := by
  induction ports generalizing runtime with
  | nil => exact h
  | cons port ports ih => exact ih (h.setPort (h.fds port))

theorem waitForTransport_performs :
    Performs (Dispatches registry fds) (fun _ => True) waitForTransport := by
  refine Performs.call trivial fun result => ?_
  change Performs _ _ (if result < 0 then _ else _)
  split
  · exact Performs.call trivial fun _ => .pure _ trivial
  · exact .pure _ trivial

theorem awaitHandshake_performs (fuel : Nat) :
    Performs (Dispatches registry fds) (fun _ => True) (awaitHandshake fuel) := by
  refine (Performs.loop (Q := fun _ => True) (fun _ => True) ?_ fuel trivial).mono
    (fun _ h => h) fun _ _ => trivial
  rintro ⟨⟩ -
  refine Performs.call trivial ?_
  rintro (_ | _)
  · exact .pure _ trivial
  · refine Performs.call trivial ?_
    rintro (_ | _)
    · refine Performs.call trivial fun _ => ?_
      exact waitForTransport_performs.bind fun _ _ => .pure _ trivial
    · exact .pure _ trivial

theorem serveLink_performs (fuel : Nat) (h : runtime.Wired registry fds) :
    Performs (Dispatches registry fds) (fun x => ∀ r, x = some r → r.Wired registry fds)
      (serveLink fuel runtime) := by
  refine Performs.loop (ServerRuntime.Wired registry fds) ?_ fuel h
  intro runtime h
  refine Performs.call trivial ?_
  rintro (_ | _)
  · exact .pure _ h
  · refine Performs.call trivial ?_
    rintro (_ | _)
    · exact .pure _ h
    · refine Performs.call trivial fun _ => ?_
      refine (dispatchPorts_performs pluginPorts h).bind fun runtime h => ?_
      refine Performs.call trivial fun _ => ?_
      exact waitForTransport_performs.bind fun _ _ => .pure _ h

/-- Whatever happens on the link, the dispatch loop calls only what the runtime has, and leaves it
there. -/
theorem runDispatchLoop_performs (fuel : Nat) (h : runtime.Wired registry fds) :
    Performs (Dispatches registry fds)
      (fun x => ∀ r, x = some (some r) → r.Wired registry fds) (runDispatchLoop fuel runtime) := by
  refine (Performs.loop (Q := fun x => ∀ r, x = some r → r.Wired registry fds)
    (ServerRuntime.Wired registry fds) ?_ fuel h).mono (fun _ h => h)
    fun _ hx r hr => hx _ hr _ rfl
  intro runtime h
  refine Performs.call trivial ?_
  rintro (_ | _)
  · refine .pure _ ?_
    rintro _ ⟨⟩
    exact h
  · refine (awaitHandshake_performs fuel).bind ?_
    rintro (_ | _) -
    · exact .pure _ fun _ h => absurd h.symm (Option.some_ne_none _)
    · refine Performs.call trivial ?_
      rintro (_ | _)
      · refine .pure _ ?_
        rintro _ ⟨⟩
        exact h
      · refine (serveLink_performs fuel h).bind ?_
        rintro (_ | runtime) hruntime
        · exact .pure _ fun _ h => absurd h.symm (Option.some_ne_none _)
        · refine Performs.call trivial ?_
          rintro (_ | _)
          · exact .pure _ ((hruntime _ rfl).resetPorts pluginPorts)
          · exact .pure _ (hruntime _ rfl)

end

end SquidServer.Runtime

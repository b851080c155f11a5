import SquidServer.ClientCalls
import SquidServer.ClientWire
import SquidServer.RuntimeStreams

namespace SquidServer.Remote
open Interaction Framing Client SquidServer.Runtime
set_option autoImplicit true

/-- A plugin as its callers see it: it answers a request with a reply and moves on. -/
abbrev Plugin (σ : Type) := σ → List UInt8 → List UInt8 → σ → Prop

def Packet (bytes : List UInt8) : Prop := 0 < bytes.length ∧ bytes.length ≤ 255

/-- In the states `I` it answers the requests that are asked, each with a packet. -/
structure Plugin.Answering (plugin : Plugin σ) (I : σ → Prop) (asks : List UInt8 → Prop) :
    Prop where
  request : ∀ request, asks request → Packet request
  total : ∀ s request, I s → asks request → ∃ reply s', plugin s request reply s'
  reply : ∀ s request reply s', I s → asks request → plugin s request reply s' →
    Packet reply ∧ I s'

inductive AnswersAll (plugin : Plugin σ) :
    σ → List (List UInt8) → List (List UInt8) → σ → Prop
  | nil (s : σ) : AnswersAll plugin s [] [] s
  | cons : plugin s request reply s₁ → AnswersAll plugin s₁ requests answers s₂ →
      AnswersAll plugin s (request :: requests) (reply :: answers) s₂

theorem AnswersAll.of_nil (h : AnswersAll plugin s [] answers s') : answers = [] ∧ s' = s := by
  cases h
  exact ⟨rfl, rfl⟩

theorem AnswersAll.of_no_answer (h : AnswersAll plugin s requests [] s') :
    requests = [] ∧ s' = s := by
  cases h
  exact ⟨rfl, rfl⟩

theorem AnswersAll.append (h : AnswersAll plugin s requests answers s₁)
    (h' : AnswersAll plugin s₁ requests' answers' s₂) :
    AnswersAll plugin s (requests ++ requests') (answers ++ answers') s₂ := by
  induction h with
  | nil => exact h'
  | cons hfirst _ ih => exact .cons hfirst (ih h')

theorem AnswersAll.split (h : AnswersAll plugin s (requests ++ requests') answers s₂) :
    ∃ first later s₁, answers = first ++ later ∧ AnswersAll plugin s requests first s₁ ∧
      AnswersAll plugin s₁ requests' later s₂ := by
  induction requests generalizing s answers with
  | nil => exact ⟨[], answers, s, rfl, .nil s, h⟩
  | cons request requests ih =>
    cases h with
    | cons hfirst hrest =>
      obtain ⟨first, later, s₁, rfl, hmiddle, hlast⟩ := ih hrest
      exact ⟨_ :: first, later, s₁, rfl, .cons hfirst hmiddle, hlast⟩

section
variable {plugin : Plugin σ} {I : σ → Prop} {asks : List UInt8 → Prop}

theorem Plugin.Answering.all (h : plugin.Answering I asks)
    (hrequests : ∀ request ∈ requests, asks request) (hs : I s) :
    ∃ answers s', AnswersAll plugin s requests answers s' := by
  induction requests generalizing s with
  | nil => exact ⟨[], s, .nil s⟩
  | cons request requests ih =>
    have hasked := hrequests request List.mem_cons_self
    obtain ⟨reply, s₁, hfirst⟩ := h.total s request hs hasked
    obtain ⟨answers, s', hrest⟩ :=
      ih (fun request hmem => hrequests request (List.mem_cons_of_mem _ hmem))
        (h.reply _ _ _ _ hs hasked hfirst).2
    exact ⟨reply :: answers, s', .cons hfirst hrest⟩

theorem Plugin.Answering.invariant (h : plugin.Answering I asks)
    (hanswers : AnswersAll plugin s requests answers s')
    (hrequests : ∀ request ∈ requests, asks request) (hs : I s) : I s' := by
  induction hanswers with
  | nil => exact hs
  | cons hfirst _ ih =>
    exact ih (fun request hmem => hrequests request (List.mem_cons_of_mem _ hmem))
      (h.reply _ _ _ _ hs (hrequests _ List.mem_cons_self) hfirst).2

end

/-- A plugin that is called directly: each request is answered when it is sent. -/
structure Attended (σ : Type) where
  server : σ
  unread : List UInt8
  stalls : Nat

/-- `stalls` counts the receives that find nothing, and `mayCancel` says whether the idle callback
may ask to cancel. -/
def attended (plugin : Plugin σ) (mayCancel : Prop) (epoch : UInt8) :
    Environment ClientLib (Attended σ)
  | s, .snetLinkIsUp, up, s' => up = true ∧ s' = s
  | s, .snetLinkEpoch, answer, s' => answer = epoch ∧ s' = s
  | s, .squidSend data, queued, s' => queued = true ∧ ∃ request reply, data = frame request ∧
      plugin s.server request reply s'.server ∧ s'.unread = s.unread ++ frame reply ∧
      s'.stalls = s.stalls
  | s, .squidRecv maximum, some bytes, s' => bytes.length ≤ maximum ∧ s'.server = s.server ∧
      s.unread = bytes ++ s'.unread ∧ s.stalls = s'.stalls + if bytes = [] then 1 else 0
  | _, .squidRecv _, none, _ => False
  | s, .idle, stop, s' => (stop = true → mayCancel) ∧ s' = s

/-- The two byte streams of a socket, the plugin behind it, and what the server has called. -/
structure Wire (σ : Type) where
  toServer : List UInt8
  toClient : List UInt8
  plugin : σ
  calls : Trace

/-- The server's end of a port. Its other ports get any answers. -/
def serving (port : Port) (plugin : Plugin σ) : Environment LibSquid (Wire σ) := fun w op r w' =>
  RecvBounded ⟨op, r⟩ ∧ w.toServer = receivedBy port ⟨op, r⟩ ++ w'.toServer ∧
    w'.toClient = w.toClient ++ acceptedBy port ⟨op, r⟩ ∧
    AnswersAll plugin w.plugin (handedBy port ⟨op, r⟩) (repliesBy port ⟨op, r⟩) w'.plugin ∧
    w'.calls = w.calls ++ [⟨op, r⟩]

structure Session (σ : Type) where
  runtime : ServerRuntime
  wire : Wire σ
  stalls : Nat

/-- The server makes any number of dispatch passes. -/
def Passes (port : Port) (plugin : Plugin σ) (s s' : Session σ) : Prop :=
  ∃ n, Exec (serving port plugin) s.wire (dispatchPasses n s.runtime) s'.wire s'.runtime ∧
    s'.stalls = s.stalls

/-- The client's end of the socket, on one link session. -/
def ClientEnd (mayCancel : Prop) (epoch : UInt8) (s : Session σ) :
    (op : ClientLib.Op) → ClientLib.Ans op → Session σ → Prop
  | .snetLinkIsUp, up, s' => up = true ∧ s' = s
  | .snetLinkEpoch, answer, s' => answer = epoch ∧ s' = s
  | .squidSend data, queued, s' => queued = true ∧
      s' = { s with wire := { s.wire with toServer := s.wire.toServer ++ data } }
  | .squidRecv maximum, some bytes, s' => bytes.length ≤ maximum ∧ ∃ rest stalls,
      s.wire.toClient = bytes ++ rest ∧ s.stalls = stalls + (if bytes = [] then 1 else 0) ∧
      s' = ⟨s.runtime, { s.wire with toClient := rest }, stalls⟩
  | .squidRecv _, none, _ => False
  | .idle, stop, s' => (stop = true → mayCancel) ∧ s' = s

/-- Client and server together: before each call of the client the server makes dispatch passes. -/
def session (port : Port) (plugin : Plugin σ) (mayCancel : Prop) (epoch : UInt8) :
    Environment ClientLib (Session σ) := fun s op r s' =>
  ∃ s₁, Passes port plugin s s₁ ∧ ClientEnd mayCancel epoch s₁ op r s'

/-- A client sends whole requests only. -/
def Sends (asks : List UInt8 → Prop) : ClientLib.Op → Prop
  | .squidSend data => ∃ request, data = frame request ∧ asks request
  | _ => True

/-- The requests the plugin has not been given yet. -/
def Session.waiting (port : Port) (s : Session σ) : List (List UInt8) :=
  frames ((s.runtime.ports port).heldFrame ++ s.wire.toServer)

structure SessionInv (port : Port) (I : σ → Prop) (asks : List UInt8 → Prop) (s : Session σ) :
    Prop where
  dispatched : PortInv port (s.runtime.ports port) (eventsOf (OnPort port) s.wire.calls)
  served : Served s.runtime.pluginRegistry port (s.runtime.ports port)
  whole : partialFrame ((s.runtime.ports port).heldFrame ++ s.wire.toServer) = []
  plugin : I s.wire.plugin
  asked : ∀ request ∈ s.waiting port, asks request

/-- The attended plugin is ahead by the requests that still wait. -/
def Ahead (port : Port) (plugin : Plugin σ) (s : Session σ) (a : Attended σ) : Prop :=
  ∃ answers, AnswersAll plugin s.wire.plugin (s.waiting port) answers a.server ∧
    a.unread = s.wire.toClient ++ (s.runtime.ports port).retained ++ answers.flatMap frame ∧
    a.stalls = s.stalls

theorem exec_serving {p : Program LibSquid α} (h : Exec (serving port plugin) w p w' a) :
    ∃ u, w'.calls = w.calls ++ u ∧ Exec (recording RecvBounded) w.calls p w'.calls a ∧
      w.toServer = received port u ++ w'.toServer ∧
      w'.toClient = w.toClient ++ accepted port u ∧
      AnswersAll plugin w.plugin (handed port u) (replies port u) w'.plugin := by
  induction h with
  | pure w a =>
    refine ⟨[], (List.append_nil _).symm, .pure _ _, rfl, (List.append_nil _).symm, .nil _⟩
  | call hcall _ ih =>
    obtain ⟨hbounded, hserver, hclient, hplugin, hcalls⟩ := hcall
    obtain ⟨u, hcalls₁, hexec, hserver₁, hclient₁, hplugin₁⟩ := ih
    refine ⟨_ :: u, ?_, .call ⟨hbounded, hcalls⟩ hexec, ?_, ?_, hplugin.append hplugin₁⟩
    · rw [hcalls₁, hcalls, List.append_assoc, List.singleton_append]
    · rw [hserver, hserver₁, ← List.append_assoc]
      rfl
    · rw [hclient₁, hclient, List.append_assoc]
      rfl

theorem portPasses_squidFd (H : Environment LibSquid τ) (s : τ) (registry : ServerPluginRegistry)
    (p : Port) (n : Nat) (st : PortState) :
    Ensures H (portPasses registry p n st) (fun st' _ => st'.squidFd = st.squidFd) s := by
  induction n generalizing st s with
  | zero => exact ensures_pure.2 rfl
  | succ n ih =>
    refine ensures_bind.2 ((dispatchPort_squidFd H s registry p st).mono ?_)
    intro st₁ s₁ hfd
    refine (ih s₁ st₁).mono ?_
    intro st₂ _ hfd₂
    exact hfd₂.trans hfd

theorem dispatchPasses_registry
    (he : Exec (recording C) t (dispatchPasses n runtime) t' runtime') :
    runtime'.pluginRegistry = runtime.pluginRegistry := by
  induction n generalizing t runtime with
  | zero =>
    obtain ⟨-, rfl⟩ := exec_pure.1 he
    rfl
  | succ n ih =>
    obtain ⟨t₁, runtime₁, hpass, hrest⟩ := exec_bind.1 he
    exact (ih hrest).trans (dispatchPorts_project pluginPorts_nodup hpass 1).1

section
variable {σ : Type} {plugin : Plugin σ} {port : Port} {s s' : Session σ} {a : Attended σ}
  {I : σ → Prop} {asks : List UInt8 → Prop}

/-- What the passes leave is what waited, less what they handed over. -/
theorem Passes.spec (hport : port ∈ pluginPorts) (hplugin : plugin.Answering I asks)
    (hi : SessionInv port I asks s) (h : Passes port plugin s s') :
    SessionInv port I asks s' ∧ ∃ requests answers,
      s.waiting port = requests ++ s'.waiting port ∧
      AnswersAll plugin s.wire.plugin requests answers s'.wire.plugin ∧
      s'.wire.toClient ++ (s'.runtime.ports port).retained =
        s.wire.toClient ++ (s.runtime.ports port).retained ++ answers.flatMap frame ∧
      s'.stalls = s.stalls := by
  obtain ⟨n, hexec, hstalls⟩ := h
  obtain ⟨u, hcalls, hrecorded, hserver, hclient, hanswers⟩ := exec_serving hexec
  have hpasses := dispatchPasses_project hport hrecorded
  have hinv := portPasses_ensures hi.dispatched hi.served _ _ hpasses
  have hfd := portPasses_squidFd _ _ _ _ _ _ _ _ hpasses
  have hframes := hinv.frames
  rw [hcalls, eventsOf_append, received_append, handed_append, frames_append, hi.dispatched.held,
    received_eventsOf port u, handed_eventsOf port u, hi.dispatched.frames] at hframes
  have hhanded := List.append_cancel_left hframes
  have hheld := hinv.held
  rw [hcalls, eventsOf_append, received_append, partialFrame_append, hi.dispatched.held,
    received_eventsOf port u] at hheld
  have hsent := hinv.sent
  rw [hcalls, eventsOf_append, accepted_append, owed_append, accepted_eventsOf port u,
    owed_eventsOf port u, ← hi.dispatched.sent, List.append_assoc, List.append_assoc] at hsent
  have howed := List.append_cancel_left hsent
  have hwaiting : s.waiting port = handed port u ++ s'.waiting port := by
    rw [Session.waiting, Session.waiting, hserver, ← List.append_assoc, frames_append, hhanded,
      hheld]
  have hasked := hi.asked
  rw [hwaiting] at hasked
  refine ⟨⟨hinv, ?_, ?_, ?_, ?_⟩, handed port u, replies port u, hwaiting, hanswers, ?_, hstalls⟩
  · intro hopen
    rw [dispatchPasses_registry hrecorded]
    exact hi.served (hfd ▸ hopen)
  · have hwhole := hi.whole
    rw [hserver, ← List.append_assoc, partialFrame_append, hheld] at hwhole
    exact hwhole
  · exact hplugin.invariant hanswers
      (fun request hmem => hasked request (List.mem_append_left _ hmem)) hi.plugin
  · exact fun request hmem => hasked request (List.mem_append_right _ hmem)
  · rw [hclient, List.append_assoc, List.append_assoc, howed, owed]

theorem Passes.ahead (hport : port ∈ pluginPorts) (hplugin : plugin.Answering I asks)
    (hi : SessionInv port I asks s) (h : Passes port plugin s s')
    (ha : Ahead port plugin s' a) : Ahead port plugin s a := by
  obtain ⟨-, requests, answered, hwaiting, hanswers, hbytes, hstalls⟩ := h.spec hport hplugin hi
  obtain ⟨answers, hlater, hunread, hcount⟩ := ha
  refine ⟨answered ++ answers, ?_, ?_, hcount.trans hstalls⟩
  · rw [hwaiting]
    exact hanswers.append hlater
  · rw [hunread, hbytes, List.flatMap_append, List.append_assoc]

theorem split_frame (h : Packet request) : split (frame request) = ([request], []) := by
  obtain ⟨hpos, hmax⟩ := h
  have hbyte : (UInt8.ofNat request.length).toNat = request.length :=
    UInt8.toNat_ofNat_of_lt' (Nat.lt_succ_of_le hmax)
  have hne : UInt8.ofNat request.length ≠ 0 := by
    intro hzero
    rw [hzero] at hbyte
    exact absurd hbyte.symm (Nat.ne_of_gt hpos)
  have hsplit := split_complete hne hbyte.symm []
  rwa [List.append_nil, split_nil] at hsplit

theorem frames_frame (h : Packet request) : frames (frame request) = [request] :=
  congrArg Prod.fst (split_frame h)

theorem partialFrame_frame (h : Packet request) : partialFrame (frame request) = [] :=
  congrArg Prod.snd (split_frame h)

/-- The session once the client has sent a request. -/
def Session.send (s : Session σ) (request : List UInt8) : Session σ :=
  { s with wire := { s.wire with toServer := s.wire.toServer ++ frame request } }

theorem SessionInv.waiting_send (hi : SessionInv port I asks s) (h : Packet request) :
    (s.send request).waiting port = s.waiting port ++ [request] := by
  rw [Session.waiting, Session.waiting, Session.send, ← List.append_assoc, frames_append, hi.whole,
    List.nil_append, frames_frame h]

theorem SessionInv.send (hi : SessionInv port I asks s) (hplugin : plugin.Answering I asks)
    (h : asks request) : SessionInv port I asks (s.send request) where
  dispatched := hi.dispatched
  served := hi.served
  whole := by
    rw [Session.send, ← List.append_assoc, partialFrame_append, hi.whole, List.nil_append,
      partialFrame_frame (hplugin.request _ h)]
  plugin := hi.plugin
  asked := by
    intro other hmem
    rw [hi.waiting_send (hplugin.request _ h)] at hmem
    rcases List.mem_append.1 hmem with hmem | hmem
    · exact hi.asked other hmem
    · exact List.mem_singleton.1 hmem ▸ h

theorem ClientEnd.inv {op : ClientLib.Op} {r : ClientLib.Ans op}
    (hplugin : plugin.Answering I asks) (hop : Sends asks op) (hi : SessionInv port I asks s)
    (h : ClientEnd mayCancel epoch s op r s') : SessionInv port I asks s' := by
  cases op with
  | snetLinkIsUp => exact h.2 ▸ hi
  | snetLinkEpoch => exact h.2 ▸ hi
  | idle => exact h.2 ▸ hi
  | squidSend data =>
    obtain ⟨request, rfl, hrequest⟩ := hop
    rw [h.2]
    exact hi.send hplugin hrequest
  | squidRecv maximum =>
    cases r with
    | none => exact absurd h id
    | some bytes =>
      obtain ⟨-, rest, stalls, -, -, rfl⟩ := h
      exact ⟨hi.dispatched, hi.served, hi.whole, hi.plugin, hi.asked⟩

/-- A call of the client is matched by the plugin called directly. The reply to a request is the
one the plugin is going to give. -/
theorem ClientEnd.ahead {op : ClientLib.Op} {r : ClientLib.Ans op}
    (hplugin : plugin.Answering I asks) (hop : Sends asks op) (hi : SessionInv port I asks s)
    (h : ClientEnd mayCancel epoch s op r s') (ha : Ahead port plugin s' a) :
    ∃ a₀, attended plugin mayCancel epoch a₀ op r a ∧ Ahead port plugin s a₀ := by
  cases op with
  | snetLinkIsUp =>
    obtain ⟨hup, rfl⟩ := h
    exact ⟨a, ⟨hup, rfl⟩, ha⟩
  | snetLinkEpoch =>
    obtain ⟨hepoch, rfl⟩ := h
    exact ⟨a, ⟨hepoch, rfl⟩, ha⟩
  | idle =>
    obtain ⟨hstop, rfl⟩ := h
    exact ⟨a, ⟨hstop, rfl⟩, ha⟩
  | squidSend data =>
    obtain ⟨request, rfl, hrequest⟩ := hop
    obtain ⟨hqueued, rfl⟩ := h
    obtain ⟨answers, hanswers, hunread, hstalls⟩ := ha
    have hwaiting : (s.send request).waiting port = s.waiting port ++ [request] :=
      hi.waiting_send (hplugin.request _ hrequest)
    rw [Session.send] at hwaiting
    rw [hwaiting] at hanswers
    obtain ⟨first, later, server, rfl, hfirst, hlast⟩ := hanswers.split
    cases hlast with
    | cons hreply hnone =>
      cases hnone
      refine ⟨⟨server, s.wire.toClient ++ (s.runtime.ports port).retained ++ first.flatMap frame,
        s.stalls⟩, ⟨hqueued, request, _, rfl, hreply, ?_, hstalls⟩,
        first, hfirst, rfl, rfl⟩
      rw [hunread, List.flatMap_append, ← List.append_assoc, List.flatMap_singleton]
  | squidRecv maximum =>
    cases r with
    | none => exact absurd h id
    | some bytes =>
      obtain ⟨hmaximum, rest, stalls, hbytes, hstalls, rfl⟩ := h
      obtain ⟨answers, hanswers, hunread, hcount⟩ := ha
      refine ⟨⟨a.server, bytes ++ a.unread, s.stalls⟩, ⟨hmaximum, rfl, rfl, ?_⟩,
        answers, hanswers, ?_, rfl⟩
      · rw [hcount]
        exact hstalls
      · calc bytes ++ a.unread
            = bytes ++ (rest ++ (s.runtime.ports port).retained ++ answers.flatMap frame) :=
              congrArg (bytes ++ ·) hunread
          _ = s.wire.toClient ++ (s.runtime.ports port).retained ++ answers.flatMap frame := by
              rw [hbytes, List.append_assoc, List.append_assoc, List.append_assoc]

/-- A run of a client against the server is a run against the plugin called directly, whatever
passes the server makes meanwhile and however the streams are cut. -/
theorem session_attended (hport : port ∈ pluginPorts) (hplugin : plugin.Answering I asks)
    {p : Program ClientLib α} (hp : Calls (Sends asks) p) (hi : SessionInv port I asks s)
    (h : Exec (session port plugin mayCancel epoch) s p s' x) :
    SessionInv port I asks s' ∧ ∃ a a', Ahead port plugin s a ∧
      Exec (attended plugin mayCancel epoch) a p a' x ∧ Ahead port plugin s' a' := by
  have hinv : ∀ s op r s₁, Sends asks op → SessionInv port I asks s →
      session port plugin mayCancel epoch s op r s₁ → SessionInv port I asks s₁ := by
    rintro s op r s₁ hop hi ⟨s₀, hpasses, hend⟩
    exact hend.inv hplugin hop (hpasses.spec hport hplugin hi).1
  have hstep : ∀ s op r s₁ a₁, Sends asks op → SessionInv port I asks s →
      session port plugin mayCancel epoch s op r s₁ → Ahead port plugin s₁ a₁ →
      ∃ a, attended plugin mayCancel epoch a op r a₁ ∧ Ahead port plugin s a := by
    rintro s op r s₁ a₁ hop hi ⟨s₀, hpasses, hend⟩ ha
    obtain ⟨a₀, hcall, ha₀⟩ := hend.ahead hplugin hop (hpasses.spec hport hplugin hi).1 ha
    exact ⟨a₀, hcall, hpasses.ahead hport hplugin hi ha₀⟩
  have hi' : SessionInv port I asks s' := hp.invariant (SessionInv port I asks) hinv hi _ _ h
  obtain ⟨answers, server, hanswers⟩ := hplugin.all hi'.asked hi'.plugin
  have hlast : Ahead port plugin s' ⟨server, s'.wire.toClient ++
      (s'.runtime.ports port).retained ++ answers.flatMap frame, s'.stalls⟩ :=
    ⟨answers, hanswers, rfl, rfl⟩
  obtain ⟨a, hexec, ha⟩ := hp.simulate_backward _ (Ahead port plugin) hinv hstep hi h hlast
  exact ⟨hi', a, _, ha, hexec, hlast⟩

end

theorem receiving_receiveResponse (fuel : Nat) (client : SquidClient) (epoch : UInt8) :
    Calls Receiving (receiveResponse fuel client epoch) := by
  refine Calls.bind (receiving_receiveBytes fuel client 1 epoch) fun x => ?_
  cases x with
  | none => exact .pure _
  | some x =>
    dsimp only
    split
    · split
      · exact .pure _
      · split
        · exact receiving_drainResponse fuel client _ epoch
        · refine Calls.bind (receiving_receiveBytes fuel client _ epoch) fun y => ?_
          cases y <;> exact .pure _
    · exact .pure _

theorem sends_of_receiving {op : ClientLib.Op} (h : Receiving op) (asks : List UInt8 → Prop) :
    Sends asks op := by
  cases op with
  | squidSend data => exact False.elim h
  | _ => trivial

theorem sends_exchange {asks : List UInt8 → Prop} (fuel : Nat) (client : SquidClient)
    (h : client.packetCapacity ≤ 255 → request.length ≤ client.packetCapacity → asks request) :
    Calls (Sends asks) (squidClientExchange fuel (client.fill request) request.length) := by
  rw [squidClientExchange]
  split
  · exact .pure _
  · rename_i haccepted
    simp only [not_or, Nat.not_lt] at haccepted
    obtain ⟨hfilled, -, hmax, -, hfits⟩ := haccepted
    have hpacket : client.packet ≠ none := fun hnone => hfilled (Option.map_eq_none_iff.2 hnone)
    refine Calls.bind (.ask trivial) fun up => ?_
    split
    · refine Calls.bind (.ask trivial) fun answer => ?_
      dsimp only
      rw [client.fill_frame hpacket]
      refine Calls.bind (.ask ⟨request, rfl, h hmax hfits⟩) fun queued => ?_
      split
      · exact (receiving_receiveResponse fuel _ answer).mono fun op hop =>
          sends_of_receiving hop asks
      · exact .pure _
    · exact .pure _

theorem sends_transact {asks : List UInt8 → Prop} (fuel : Nat) (client : Option SquidClient)
    (accepted : Bool) (opcode : UInt8) (arguments : List UInt8) (minimumSize : Nat)
    (read : List UInt8 → Option α)
    (h : accepted = true → (opcode :: arguments).length ≤ 255 → asks (opcode :: arguments)) :
    Calls (Sends asks) (transact fuel client accepted opcode arguments minimumSize read) := by
  cases client with
  | none => exact .pure _
  | some client =>
    rw [transact]
    split
    · exact .pure _
    · rename_i haccepted
      simp only [not_or, Decidable.not_not, Nat.not_lt] at haccepted
      obtain ⟨-, haccepted, -⟩ := haccepted
      refine Calls.bind (Calls.bind ?_ ?_) ?_
      · exact sends_exchange fuel client fun hmax hfits => h haccepted (hfits.trans hmax)
      · rintro (_ | ⟨size, client'⟩) <;> exact .pure _
      · rintro (_ | ⟨checked, client'⟩) <;> exact .pure _

/-- A call leaves the client's settings alone. -/
structure SameClient (client client' : SquidClient) : Prop where
  packet : client'.packet = none ↔ client.packet = none
  capacity : client'.packetCapacity = client.packetCapacity

theorem SameClient.trans (h : SameClient c c') (h' : SameClient c' c'') : SameClient c c'' where
  packet := h'.packet.trans h.packet
  capacity := h'.capacity.trans h.capacity

theorem sameClient_store (client : SquidClient) (bytes : List UInt8) :
    SameClient client (client.store bytes) where
  packet := by rw [SquidClient.store_packet, Option.map_eq_none_iff]
  capacity := rfl

theorem sameClient_fill (client : SquidClient) (request : List UInt8) :
    SameClient client (client.fill request) where
  packet := by rw [SquidClient.fill, Option.map_eq_none_iff]
  capacity := rfl

theorem sameClient_refl (client : SquidClient) : SameClient client client := ⟨Iff.rfl, rfl⟩

section
variable {H : Environment ClientLib τ} {t : τ}

theorem drainResponse_client (fuel : Nat) (client : SquidClient) (size : Nat) (epoch : UInt8) :
    Ensures H (drainResponse fuel client size epoch) (fun x _ =>
      ∀ result client', x = some (result, client') → SameClient client client') t := by
  refine ensures_bind.2 (Ensures.mono (Q := fun x _ => ∀ result client',
    x.join = some (result, client') → SameClient client client') ?_ fun x t h => ensures_pure.2 h)
  refine ensures_loop (fun _ turn _ => SameClient client turn.2) ?_ ?_ (sameClient_refl client)
  · intro turn t _ result client' hx
    cases hx
  · rintro _ ⟨remaining, client₁⟩ t hsame
    dsimp only
    split
    · refine ensures_bind_any fun x t₁ => ?_
      cases x with
      | none =>
        refine ensures_pure.2 ?_
        intro result client' hx
        cases hx
      | some x =>
        have hstored := hsame.trans (sameClient_store client₁ x.2)
        dsimp only
        split
        · exact ensures_pure.2 hstored
        · refine ensures_pure.2 ?_
          intro result client' hx
          cases hx
          exact hstored
    · refine ensures_pure.2 ?_
      intro result client' hx
      cases hx
      exact hsame

theorem receiveResponse_client (fuel : Nat) (client : SquidClient) (epoch : UInt8) :
    Ensures H (receiveResponse fuel client epoch) (fun x _ =>
      ∀ result client', x = some (result, client') → SameClient client client') t := by
  refine ensures_bind_any fun x t₁ => ?_
  cases x with
  | none =>
    refine ensures_pure.2 ?_
    intro result client' hx
    cases hx
  | some x =>
    have hsame : ∀ size : Int, ∀ result client', some (size, client) = some (result, client') →
        SameClient client client' := by
      intro size result client' hx
      cases hx
      exact sameClient_refl client
    dsimp only
    split
    · split
      · exact ensures_pure.2 (hsame _)
      · split
        · exact drainResponse_client fuel client _ epoch
        · refine ensures_bind_any fun y t₂ => ?_
          cases y with
          | none =>
            refine ensures_pure.2 ?_
            intro result client' hx
            cases hx
          | some y =>
            refine ensures_pure.2 ?_
            intro result client' hx
            cases hx
            exact sameClient_store client y.2
    · exact ensures_pure.2 (hsame _)

end

section
variable {plugin : Plugin σ} {epoch : UInt8} {s : Attended σ}

theorem exec_receiving {p : Program ClientLib α} (hp : Calls Receiving p)
    (h : Exec (attended plugin False epoch) s p s' x) :
    s'.server = s.server ∧ s'.stalls ≤ s.stalls ∧ ∀ serves,
      Exec (verbatim serves epoch) ⟨[], s.unread, s.stalls⟩ p ⟨[], s'.unread, s'.stalls⟩ x := by
  have hstep : ∀ a op r a', Receiving op → a.server = s.server ∧ a.stalls ≤ s.stalls →
      attended plugin False epoch a op r a' → (a'.server = s.server ∧ a'.stalls ≤ s.stalls) ∧
        ∀ serves, verbatim serves epoch ⟨[], a.unread, a.stalls⟩ op r
          ⟨[], a'.unread, a'.stalls⟩ := by
    intro a op r a' hop ha hcall
    cases op with
    | squidSend data => exact False.elim hop
    | snetLinkIsUp => exact ⟨hcall.2 ▸ ha, fun _ => ⟨hcall.1, by rw [hcall.2]⟩⟩
    | snetLinkEpoch => exact ⟨hcall.2 ▸ ha, fun _ => ⟨hcall.1, by rw [hcall.2]⟩⟩
    | idle =>
      have hstop : r = false := Bool.eq_false_iff.2 hcall.1
      exact ⟨hcall.2 ▸ ha, fun _ => ⟨hstop, by rw [hcall.2]⟩⟩
    | squidRecv maximum =>
      cases r with
      | none => exact absurd hcall id
      | some bytes =>
        obtain ⟨hmaximum, hserver, hunread, hstalls⟩ := hcall
        refine ⟨⟨hserver.trans ha.1, ?_⟩, fun _ => ⟨hmaximum, _, hunread, rfl, rfl, hstalls⟩⟩
        have hle := ha.2
        omega
  have hinv : s'.server = s.server ∧ s'.stalls ≤ s.stalls :=
    hp.invariant (fun a => a.server = s.server ∧ a.stalls ≤ s.stalls)
      (fun a op r a' hop ha hcall => (hstep a op r a' hop ha hcall).1) ⟨rfl, le_rfl⟩ _ _ h
  refine ⟨hinv.1, hinv.2, fun serves => ?_⟩
  have hline : ∀ (a : Attended σ) (line : Line) op r a', Receiving op →
      (a.server = s.server ∧ a.stalls ≤ s.stalls) ∧ line = ⟨[], a.unread, a.stalls⟩ →
      attended plugin False epoch a op r a' → ∃ line', verbatim serves epoch line op r line' ∧
        (a'.server = s.server ∧ a'.stalls ≤ s.stalls) ∧ line' = ⟨[], a'.unread, a'.stalls⟩ := by
    rintro a _ op r a' hop ⟨ha, rfl⟩ hcall
    obtain ⟨ha', hline⟩ := hstep a op r a' hop ha hcall
    exact ⟨_, hline serves, ha', rfl⟩
  obtain ⟨line, hexec, -, rfl⟩ := hp.simulate
    (fun (a : Attended σ) (line : Line) => (a.server = s.server ∧ a.stalls ≤ s.stalls) ∧
      line = ⟨[], a.unread, a.stalls⟩) hline ⟨⟨rfl, le_rfl⟩, rfl⟩ h
  exact hexec

/-- A transaction has the plugin's answer to its own request. -/
structure Answered (plugin : Plugin σ) (s : Attended σ) (client : SquidClient)
    (request reply : List UInt8) (s' : Attended σ) (client' : SquidClient) : Prop where
  answer : plugin s.server request reply s'.server
  unread : s'.unread = []
  stalls : s'.stalls ≤ s.stalls
  same : SameClient client client'

/-- A client between two calls, with a workspace and nothing left to read. -/
structure Ready (fuel : Nat) (client : SquidClient) (s : Attended σ) : Prop where
  packet : client.packet ≠ none
  capacity : client.packetCapacity ≤ 255
  unread : s.unread = []
  fuel : 256 + s.stalls < fuel

theorem Answered.ready (h : Answered plugin s client request reply s' client')
    (hs : Ready fuel client s) : Ready fuel client' s' where
  packet := fun hnone => hs.packet (h.same.packet.1 hnone)
  capacity := h.same.capacity ▸ hs.capacity
  unread := h.unread
  fuel := Nat.lt_of_le_of_lt (Nat.add_le_add_left h.stalls 256) hs.fuel

theorem squidClientExchange_attended (hs : Ready fuel client s) (hrequest : 0 < request.length)
    (hfits : request.length ≤ client.packetCapacity)
    (hreply : ∀ reply server, plugin s.server request reply server → Packet reply) :
    Ensures (attended plugin False epoch)
      (squidClientExchange fuel (client.fill request) request.length) (fun x s' =>
        ∃ reply client', Answered plugin s client request reply s' client' ∧
          x = some (if client.packetCapacity < reply.length then squidClientErrorOverflow
            else reply.length, client') ∧
          (reply.length ≤ client.packetCapacity → client'.bytes reply.length = reply)) s := by
  obtain ⟨hpacket, hmax, hunread, hfuel⟩ := hs
  have hfilled : (client.fill request).packet ≠ none :=
    fun h => hpacket ((sameClient_fill client request).packet.1 h)
  have haccepted : ¬ ((client.fill request).packet = none ∨
      (client.fill request).packetCapacity = 0 ∨
      squidClientPacketMax < (client.fill request).packetCapacity ∨ request.length = 0 ∨
      (client.fill request).packetCapacity < request.length) := by
    rw [(sameClient_fill client request).capacity]
    rintro (h | h)
    · exact hfilled h
    · have hlimit : squidClientPacketMax = 255 := rfl
      omega
  rw [squidClientExchange, if_neg haccepted]
  refine ensures_bind.2 (ensures_ask fun up s₁ h₁ => ?_)
  obtain ⟨rfl, rfl⟩ := h₁
  refine ensures_bind.2 (ensures_ask fun answer s₂ h₂ => ?_)
  obtain ⟨rfl, rfl⟩ := h₂
  dsimp only
  rw [client.fill_frame hpacket]
  refine ensures_bind.2 (ensures_ask fun queued s₃ h₃ => ?_)
  obtain ⟨rfl, request', reply, hframe, hanswer, hunread₃, hstalls₃⟩ := h₃
  obtain rfl : request = request' := (List.cons.inj hframe).2
  obtain ⟨hpos, hsize⟩ := hreply reply _ hanswer
  have hstored := (sameClient_fill client request).trans
    (sameClient_store _ [UInt8.ofNat request.length])
  rw [if_pos rfl]
  intro s' x hexec
  obtain ⟨hserver, hstalls, hverbatim⟩ := exec_receiving (receiving_receiveResponse _ _ _) hexec
  rw [hunread, List.nil_append] at hunread₃
  have hfuel₃ : 256 + s₃.stalls < fuel := hstalls₃ ▸ hfuel
  obtain ⟨-, hempty, client', rfl, hbytes⟩ := receiveResponse_verbatim _
    (fun h => hpacket (hstored.packet.1 h)) (by rw [hstored.capacity]; omega) hpos hsize hunread₃
    hfuel₃ _ _ (hverbatim fun _ _ => True)
  rw [hstored.capacity] at hbytes
  refine ⟨reply, client', ⟨hserver ▸ hanswer, hempty, hstalls.trans (Nat.le_of_eq hstalls₃), ?_⟩,
    rfl, hbytes⟩
  exact hstored.trans (receiveResponse_client fuel _ answer _ _ hexec _ _ rfl)

theorem transact_attended {accepted : Bool} (hs : Ready fuel client s) (haccepted : accepted = true)
    (opcode : UInt8) (arguments : List UInt8) (minimumSize : Nat) (read : List UInt8 → Option α)
    (hfits : (opcode :: arguments).length ≤ client.packetCapacity)
    (hreply : ∀ reply server, plugin s.server (opcode :: arguments) reply server → Packet reply) :
    Ensures (attended plugin False epoch)
      (transact fuel (some client) accepted opcode arguments minimumSize read) (fun x s' =>
        ∃ reply client', Answered plugin s client (opcode :: arguments) reply s' client' ∧
          x = some ⟨(understand client.packetCapacity opcode minimumSize read reply).1,
            (understand client.packetCapacity opcode minimumSize read reply).2,
            some client'⟩) s := by
  have hsent : ¬ (client.packet = none ∨ ¬ accepted = true ∨
      client.packetCapacity < (opcode :: arguments).length) := by
    rintro (h | h | h)
    · exact hs.packet h
    · exact h haccepted
    · omega
  rw [transact]
  dsimp only
  rw [if_neg hsent]
  have hrequest : 0 < (opcode :: arguments).length := Nat.zero_lt_succ _
  refine ensures_bind.2 (ensures_bind.2 ((squidClientExchange_attended hs hrequest hfits
    hreply).mono ?_))
  rintro _ s' ⟨reply, client', hanswered, rfl, hbytes⟩
  refine ensures_pure.2 (ensures_pure.2 ⟨reply, client', hanswered, ?_⟩)
  by_cases hroom : client.packetCapacity < reply.length
  · rw [understand, if_pos hroom, if_pos hroom]
    rfl
  · have hwhole := hbytes (Nat.not_lt.1 hroom)
    rw [understand, if_neg hroom, if_neg hroom, Int.toNat_natCast, hwhole]
    rw [bytes_eq_take hwhole (checkResponse_size opcode minimumSize reply.length reply)]

end

end SquidServer.Remote

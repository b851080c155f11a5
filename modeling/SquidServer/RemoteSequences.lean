import SquidServer.RemoteCalls

namespace SquidServer.Remote
open Interaction Framing Client SquidServer.Runtime
set_option autoImplicit true

/-- The start of a link session: nothing is on the way, and the plugin has its socket. -/
structure Session.Started (port : Port) (I : σ → Prop) (s : Session σ) : Prop where
  fresh : (s.runtime.ports port).Fresh
  served : Served s.runtime.pluginRegistry port (s.runtime.ports port)
  toServer : s.wire.toServer = []
  toClient : s.wire.toClient = []
  calls : s.wire.calls = []
  plugin : I s.wire.plugin

theorem PortState.Fresh.held {st : PortState} (h : st.Fresh) : st.heldFrame = [] := if_pos h.1

section
variable {σ : Type} {plugin : Plugin σ} {port : Port} {s s' : Session σ} {a : Attended σ}
  {I : σ → Prop} {asks : List UInt8 → Prop}

theorem Session.Started.waiting (h : s.Started port I) : s.waiting port = [] := by
  rw [Session.waiting, PortState.Fresh.held h.fresh, h.toServer, List.nil_append, frames_nil]

theorem Session.Started.inv (h : s.Started port I) (asks : List UInt8 → Prop) :
    SessionInv port I asks s where
  dispatched := by
    rw [h.calls]
    exact h.fresh.inv port
  served := h.served
  whole := by rw [PortState.Fresh.held h.fresh, h.toServer, List.nil_append, partialFrame_nil]
  plugin := h.plugin
  asked := by
    rw [h.waiting]
    intro request hmem
    cases hmem

/-- At the start the attended plugin is the plugin itself. -/
theorem Session.Started.attended (h : s.Started port I) (ha : Ahead port plugin s a) :
    a = ⟨s.wire.plugin, [], s.stalls⟩ := by
  obtain ⟨answers, hanswers, hunread, hstalls⟩ := ha
  rw [h.waiting] at hanswers
  obtain ⟨rfl, hserver⟩ := hanswers.of_nil
  rw [h.toClient, retained_of_idle h.fresh.2] at hunread
  cases a
  cases hserver
  cases hunread
  cases hstalls
  rfl

/-- Nothing is on the way, and nothing waits for the plugin. -/
structure Session.Settled (port : Port) (s : Session σ) : Prop where
  waiting : s.waiting port = []
  retained : (s.runtime.ports port).retained = []
  toClient : s.wire.toClient = []

/-- A client that has read all its replies leaves nothing behind. -/
theorem Ahead.settled (ha : Ahead port plugin s a) (h : a.unread = []) :
    s.Settled port ∧ s.wire.plugin = a.server := by
  obtain ⟨answers, hanswers, hunread, -⟩ := ha
  rw [h, List.append_assoc] at hunread
  obtain ⟨hclient, hrest⟩ := List.append_eq_nil_iff.1 hunread.symm
  obtain ⟨hretained, hframes⟩ := List.append_eq_nil_iff.1 hrest
  cases answers with
  | cons reply answers => cases hframes
  | nil =>
    obtain ⟨hwaiting, hserver⟩ := hanswers.of_no_answer
    exact ⟨⟨hwaiting, hretained, hclient⟩, hserver.symm⟩

/-- What a client program ensures against the plugin called directly it ensures over the link. -/
theorem ensures_session (hport : port ∈ pluginPorts) (hplugin : plugin.Answering I asks)
    {p : Program ClientLib α} (hp : Calls (Sends asks) p) (hs : s.Started port I)
    (h : Ensures (attended plugin mayCancel epoch) p Q ⟨s.wire.plugin, [], s.stalls⟩) :
    Ensures (session port plugin mayCancel epoch) p
      (fun x s' => ∃ a, Q x a ∧ Ahead port plugin s' a) s := by
  intro s' x hexec
  obtain ⟨-, a, a', ha, hrun, ha'⟩ := session_attended hport hplugin hp (hs.inv asks) hexec
  rw [hs.attended ha] at hrun
  exact ⟨a', h _ _ hrun, ha'⟩

/-- The dispatch loop and the link are transparent: however the server's passes fall between the
client's calls, however the byte streams are cut, and whatever the other ports do, a client's run
is one in which each request is answered at once by the plugin itself. At its end the server is
behind by the requests it has not handled and the replies the client has not read. -/
theorem session_refines_plugin (hport : port ∈ pluginPorts) (hplugin : plugin.Answering I asks)
    {p : Program ClientLib α} (hp : Calls (Sends asks) p) (hs : s.Started port I)
    (h : Exec (session port plugin mayCancel epoch) s p s' x) :
    ∃ a, Exec (attended plugin mayCancel epoch) ⟨s.wire.plugin, [], s.stalls⟩ p a x ∧
      Ahead port plugin s' a := by
  obtain ⟨-, a, a', ha, hrun, ha'⟩ := session_attended hport hplugin hp (hs.inv asks) h
  rw [hs.attended ha] at hrun
  exact ⟨a', hrun, ha'⟩

end

/-- A client that makes one exchange after the other, and keeps what each has returned. -/
def callAll (fuel : Nat) : List (List UInt8) → SquidClient →
    Program ClientLib (Option (List (Int × List UInt8)))
  | [], _ => return some []
  | request :: requests, client => do
    match ← squidClientExchange fuel (client.fill request) request.length with
    | none => return none
    | some (result, client) =>
      match ← callAll fuel requests client with
      | none => return none
      | some results => return some ((result, client.bytes result.toNat) :: results)

/-- How an exchange returns a reply to a workspace of that capacity. -/
def returnedReply (capacity : Nat) (reply : List UInt8) : Int × List UInt8 :=
  if capacity < reply.length then (squidClientErrorOverflow, []) else (reply.length, reply)

section
variable {σ : Type} {plugin : Plugin σ} {port : Port} {s : Session σ} {a : Attended σ}
  {I : σ → Prop} {asks : List UInt8 → Prop} {requests : List (List UInt8)}

theorem sends_callAll (fuel : Nat) (hrequests : ∀ request ∈ requests, asks request)
    (client : SquidClient) :
    Calls (Sends asks) (callAll fuel requests client) := by
  induction requests generalizing client with
  | nil => exact .pure _
  | cons request requests ih =>
    have hasked := hrequests request List.mem_cons_self
    refine Calls.bind ?_ ?_
    · exact sends_exchange fuel client fun _ _ => hasked
    · rintro (_ | ⟨result, client'⟩)
      · exact .pure _
      · refine Calls.bind (ih (fun r hmem => hrequests r (List.mem_cons_of_mem _ hmem)) client') ?_
        rintro (_ | results) <;> exact .pure _

theorem callAll_attended (hplugin : plugin.Answering I asks) (hi : I a.server)
    (hrequests : ∀ request ∈ requests, asks request ∧ request.length ≤ client.packetCapacity)
    (hready : Ready fuel client a) :
    Ensures (attended plugin False epoch) (callAll fuel requests client) (fun x a' =>
      ∃ answers, AnswersAll plugin a.server requests answers a'.server ∧ a'.unread = [] ∧
        x = some (answers.map (returnedReply client.packetCapacity))) a := by
  induction requests generalizing a client with
  | nil => exact ensures_pure.2 ⟨[], .nil _, hready.unread, rfl⟩
  | cons request requests ih =>
    obtain ⟨hasked, hfits⟩ := hrequests request List.mem_cons_self
    refine ensures_bind.2 ((squidClientExchange_attended hready (hplugin.request _ hasked).1 hfits
      fun reply server hreply => (hplugin.reply _ _ _ _ hi hasked hreply).1).mono ?_)
    rintro _ a₁ ⟨reply, client₁, hanswered, rfl, hbytes⟩
    have hlater : ∀ r ∈ requests, asks r ∧ r.length ≤ client₁.packetCapacity := by
      intro r hmem
      rw [hanswered.same.capacity]
      exact hrequests r (List.mem_cons_of_mem _ hmem)
    have hi₁ := (hplugin.reply _ _ _ _ hi hasked hanswered.answer).2
    refine ensures_bind.2 ((ih hi₁ hlater (hanswered.ready hready)).mono ?_)
    rintro _ a₂ ⟨answers, hanswers, hunread₂, rfl⟩
    refine ensures_pure.2 ⟨reply :: answers, .cons hanswered.answer hanswers, hunread₂, ?_⟩
    rw [hanswered.same.capacity, List.map_cons]
    congr 2
    rw [returnedReply]
    split
    · rfl
    · rename_i hroom
      rw [Int.toNat_natCast, hbytes (Nat.not_lt.1 hroom)]

/-- Every request of a sequence of calls reaches the plugin exactly once and in order, and every
call returns the answer to its own request. Nothing is left on the way. -/
theorem calls_answered_once (hport : port ∈ pluginPorts) (hplugin : plugin.Answering I asks)
    (hs : s.Started port I)
    (hrequests : ∀ request ∈ requests, asks request ∧ request.length ≤ client.packetCapacity)
    (hpacket : client.packet ≠ none) (hmax : client.packetCapacity ≤ 255)
    (hfuel : 256 + s.stalls < fuel) :
    Ensures (session port plugin False epoch) (callAll fuel requests client) (fun x s' =>
      ∃ answers, AnswersAll plugin s.wire.plugin requests answers s'.wire.plugin ∧
        x = some (answers.map (returnedReply client.packetCapacity)) ∧ s'.Settled port) s := by
  have hsends := sends_callAll fuel (fun r hmem => (hrequests r hmem).1) client
  refine (ensures_session hport hplugin hsends hs (callAll_attended hplugin hs.plugin hrequests
    ⟨hpacket, hmax, rfl, hfuel⟩)).mono ?_
  rintro x s' ⟨a, ⟨answers, hanswers, hunread, rfl⟩, hahead⟩
  obtain ⟨hsettled, hserver⟩ := hahead.settled hunread
  exact ⟨answers, hserver ▸ hanswers, rfl, hsettled⟩

end

theorem Passes.refl (port : Port) (plugin : Plugin σ) (s : Session σ) : Passes port plugin s s :=
  ⟨0, .pure _ _, rfl⟩

/-- A reply that the plugin has written to the buffer it was given. -/
def replied (reply : List UInt8) : PluginReply where
  result := 0
  packetData := Vector.ofFn fun i => reply.getD i 0
  redirected := false
  packetSize := reply.length

theorem bodies_replied (h : Packet reply) : (replied reply).bodies = [reply] := by
  have hdata : (replied reply).packetData.toList.take reply.length = reply := by
    refine List.ext_getElem ?_ ?_
    · have hmax := h.2
      rw [List.length_take, Vector.length_toList]
      omega
    · intro i hi hi'
      rw [List.getElem_take, Vector.getElem_toList]
      refine (Vector.getElem_ofFn _).trans ?_
      rw [List.getD_eq_getElem?_getD, List.getElem?_eq_getElem hi', Option.getD_some]
  have hvalid : (replied reply).result = 0 ∧ (replied reply).redirected = false ∧
      0 < (replied reply).packetSize ∧ (replied reply).packetSize ≤ serverPacketMax :=
    ⟨by rw [replied], by rw [replied], h.1, h.2⟩
  rw [PluginReply.bodies, if_pos hvalid]
  exact congrArg (fun body => [body]) hdata

/-- What a dispatch pass calls on a port that has a request to answer. -/
def passEvents (port : Port) (request reply : List UInt8) : Trace :=
  [⟨.squidRecv port 1, some [UInt8.ofNat request.length]⟩,
    ⟨.squidRecv port request.length, some request⟩,
    ⟨.handlePacket port request, replied reply⟩, ⟨.squidSend port (frame reply), true⟩]

/-- A session between two exchanges. -/
def resting (runtime : ServerRuntime) (server : σ) (calls : Trace) : Session σ :=
  ⟨runtime, ⟨[], [], server, calls⟩, 0⟩

theorem steps_passEvents {plugin : Plugin σ} (h : plugin server request reply server')
    (hreply : Packet reply) (port : Port) (calls : Trace) :
    Steps (serving port plugin) ⟨frame request, [], server, calls⟩ (passEvents port request reply)
      ⟨[], frame reply, server', calls ++ passEvents port request reply⟩ := by
  refine .via ⟨request, [], server, calls ++ (passEvents port request reply).take 1⟩
    ⟨Nat.le_refl 1, ?_, rfl, .nil _, rfl⟩ ?_
  · rw [receivedBy, if_pos rfl]
    rfl
  refine .via ⟨[], [], server, calls ++ (passEvents port request reply).take 2⟩
    ⟨Nat.le_refl _, ?_, rfl, .nil _, ?_⟩ ?_
  · rw [receivedBy, if_pos rfl, List.append_nil]
  · rw [List.append_assoc]
    rfl
  refine .via ⟨[], [], server', calls ++ (passEvents port request reply).take 3⟩
    ⟨trivial, rfl, rfl, ?_, ?_⟩ ?_
  · rw [handedBy, if_pos rfl, repliesBy, if_pos rfl, bodies_replied hreply]
    exact .cons h (.nil _)
  · rw [List.append_assoc]
    rfl
  refine .via ⟨[], frame reply, server', calls ++ passEvents port request reply⟩
    ⟨trivial, rfl, ?_, .nil _, ?_⟩ (.nil _)
  · rw [acceptedBy, if_pos rfl, List.nil_append]
  · rw [List.append_assoc]
    rfl

/-- An exchange in which the server's pass comes between the client's send and its receives. -/
theorem steps_exchange {plugin : Plugin σ} (h : plugin server request reply server')
    (hreply : Packet reply)
    (hpass : (dispatchPasses 1 runtime).replay (passEvents port request reply) = some runtime')
    (mayCancel : Prop) (calls : Trace) :
    Steps (session port plugin mayCancel 0) (resting runtime server calls)
      (callEvents request reply)
      (resting runtime' server' (calls ++ passEvents port request reply)) := by
  have hexec := exec_of_replay hpass (steps_passEvents h hreply port calls)
  refine .via (resting runtime server calls) ⟨_, Passes.refl _ _ _, rfl, rfl⟩ ?_
  refine .via (resting runtime server calls) ⟨_, Passes.refl _ _ _, rfl, rfl⟩ ?_
  refine .via ⟨runtime, ⟨frame request, [], server, calls⟩, 0⟩
    ⟨_, Passes.refl _ _ _, rfl, rfl⟩ ?_
  refine .via ⟨runtime', ⟨[], reply, server', calls ++ passEvents port request reply⟩, 0⟩
    ⟨⟨runtime', ⟨[], frame reply, server', _⟩, 0⟩, ⟨1, hexec, rfl⟩, Nat.le_refl 1, reply, 0, rfl,
      rfl, rfl⟩ ?_
  have hne : reply ≠ [] := List.ne_nil_of_length_pos hreply.1
  refine .cons ⟨_, Passes.refl _ _ _, Nat.le_refl _, [], 0, (List.append_nil _).symm, ?_, rfl⟩
    (.nil _)
  rw [if_neg hne]

/-- The server after such a pass. -/
def passed (port : Port) (runtime : ServerRuntime) (request reply : List UInt8) : ServerRuntime :=
  ((dispatchPasses 1 runtime).replay (passEvents port request reply)).getD runtime

theorem steps_passed {plugin : Plugin σ} (h : plugin server request reply server')
    (hreply : Packet reply)
    (hpass : ((dispatchPasses 1 runtime).replay (passEvents port request reply)).isSome = true)
    (mayCancel : Prop) (calls : Trace) :
    Steps (session port plugin mayCancel 0) (resting runtime server calls)
      (callEvents request reply)
      (resting (passed port runtime request reply) server'
        (calls ++ passEvents port request reply)) := by
  obtain ⟨runtime', hruntime⟩ := Option.isSome_iff_exists.1 hpass
  rw [passed, hruntime]
  exact steps_exchange h hreply hruntime mayCancel calls

theorem exec_exchange {plugin : Plugin σ} (port : Port) (runtime : ServerRuntime)
    (p : Program ClientLib α) (x : α) (h : plugin server request reply server')
    (hreply : Packet reply)
    (hpass : ((dispatchPasses 1 runtime).replay (passEvents port request reply)).isSome = true)
    (hcall : p.replay (callEvents request reply) = some x) (mayCancel : Prop) (calls : Trace) :
    Exec (session port plugin mayCancel 0) (resting runtime server calls) p
      (resting (passed port runtime request reply) server'
        (calls ++ passEvents port request reply)) x :=
  exec_of_replay hcall (steps_passed h hreply hpass mayCancel calls)

/-- A client program that makes two exchanges. -/
theorem exec_twoExchanges {plugin : Plugin σ} (port : Port) (runtime : ServerRuntime)
    (p : Program ClientLib α) (x : α) (h₁ : plugin server request₁ reply₁ server₁)
    (h₂ : plugin server₁ request₂ reply₂ server₂) (hreply₁ : Packet reply₁)
    (hreply₂ : Packet reply₂)
    (hpass₁ : ((dispatchPasses 1 runtime).replay (passEvents port request₁ reply₁)).isSome = true)
    (hpass₂ : ((dispatchPasses 1 (passed port runtime request₁ reply₁)).replay
      (passEvents port request₂ reply₂)).isSome = true)
    (hcall : p.replay (callEvents request₁ reply₁ ++ callEvents request₂ reply₂) = some x)
    (mayCancel : Prop) (calls : Trace) :
    Exec (session port plugin mayCancel 0) (resting runtime server calls) p
      (resting (passed port (passed port runtime request₁ reply₁) request₂ reply₂) server₂
        (calls ++ passEvents port request₁ reply₁ ++ passEvents port request₂ reply₂)) x :=
  exec_of_replay hcall ((steps_passed h₁ hreply₁ hpass₁ mayCancel calls).append
    (steps_passed h₂ hreply₂ hpass₂ mayCancel _))

theorem resting_started {I : σ → Prop} (server : σ) (h : I server) :
    (resting echoRuntime server []).Started 1 I where
  fresh := echoRuntime_fresh 1
  served := fun _ => ⟨_, rfl, rfl⟩
  toServer := rfl
  toClient := rfl
  calls := rfl
  plugin := h

def echoPlugin : Plugin Unit := fun _ request reply _ => reply = request

theorem echoPlugin_answering : echoPlugin.Answering (fun _ => True) Packet where
  request := fun _ h => h
  total := fun _ request _ _ => ⟨request, (), rfl⟩
  reply := fun _ _ _ _ _ hasked hreply => ⟨hreply ▸ hasked, trivial⟩

def echoSession : Session Unit := resting echoRuntime () []

theorem echoSession_started : echoSession.Started 1 (fun _ => True) := resting_started () trivial

def echoRequests : List (List UInt8) := [[7], [8, 9]]

theorem exec_echoCalls : ∃ s', Exec (session 1 echoPlugin False 0) echoSession
    (callAll 257 echoRequests (smallClient 9)) s' (some [(1, [7]), (2, [8, 9])]) :=
  ⟨_, exec_twoExchanges 1 echoRuntime (callAll 257 echoRequests (smallClient 9)) _
    (show echoPlugin () [7] [7] () from rfl) (show echoPlugin () [8, 9] [8, 9] () from rfl)
    ⟨by decide, by decide⟩ ⟨by decide, by decide⟩ (by decide +kernel) (by decide +kernel)
    (by decide +kernel) False []⟩

theorem echoRequests_fit : ∀ request ∈ echoRequests,
    Packet request ∧ request.length ≤ (smallClient 9).packetCapacity := by
  intro request hmem
  rcases List.mem_pair.1 hmem with rfl | rfl
  · exact ⟨⟨by decide, by decide⟩, by decide⟩
  · exact ⟨⟨by decide, by decide⟩, by decide⟩

theorem session_refines_plugin_echo : ∃ s' x a,
    Exec (session 1 echoPlugin False 0) echoSession (callAll 257 echoRequests (smallClient 9))
      s' x ∧
    Exec (attended echoPlugin False 0) ⟨(), [], 0⟩ (callAll 257 echoRequests (smallClient 9))
      a x ∧
    Ahead 1 echoPlugin s' a := by
  obtain ⟨s', hexec⟩ := exec_echoCalls
  obtain ⟨a, hattended, hahead⟩ := session_refines_plugin (by decide) echoPlugin_answering
    (sends_callAll 257 (fun request hmem => (echoRequests_fit request hmem).1) _)
    echoSession_started hexec
  exact ⟨s', _, a, hexec, hattended, hahead⟩

theorem calls_answered_once_echo : ∃ s' x,
    Exec (session 1 echoPlugin False 0) echoSession (callAll 257 echoRequests (smallClient 9))
      s' x ∧
    x = some [(1, [7]), (2, [8, 9])] ∧ s'.Settled 1 := by
  obtain ⟨s', hexec⟩ := exec_echoCalls
  obtain ⟨-, -, -, hsettled⟩ := calls_answered_once (by decide) echoPlugin_answering
    echoSession_started echoRequests_fit (by decide) (by decide) (by decide) _ _ hexec
  exact ⟨s', _, hexec, rfl, hsettled⟩

end SquidServer.Remote

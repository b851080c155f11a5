import SquidServer.Runtime

namespace SquidServer.Runtime
open Interaction Framing
set_option autoImplicit true

abbrev Trace := List (Event LibSquid)

/-- `squid_recv` never returns more bytes than it was asked for. -/
def RecvBounded : Event LibSquid → Prop
  | ⟨.squidRecv _ maximum, some bytes⟩ => bytes.length ≤ maximum
  | _ => True

def receivedBy (p : Port) : Event LibSquid → List UInt8
  | ⟨.squidRecv port _, some bytes⟩ => if port = p then bytes else []
  | _ => []

def handedBy (p : Port) : Event LibSquid → List (List UInt8)
  | ⟨.handlePacket port request, _⟩ => if port = p then [request] else []
  | _ => []

def acceptedBy (p : Port) : Event LibSquid → List UInt8
  | ⟨.squidSend port data, true⟩ => if port = p then data else []
  | _ => []

/-- A reply counts when the handler returned 0 with 1 to 255 bytes in the supplied buffer. -/
def PluginReply.bodies (reply : PluginReply) : List (List UInt8) :=
  if reply.result = 0 ∧ reply.redirected = false ∧ 0 < reply.packetSize ∧
      reply.packetSize ≤ serverPacketMax then
    [reply.packetData.toList.take reply.packetSize]
  else []

def repliesBy (p : Port) : Event LibSquid → List (List UInt8)
  | ⟨.handlePacket port _, reply⟩ => if port = p then reply.bodies else []
  | _ => []

/-- The bytes of a port's stream that `squid_recv` has taken off. -/
def received (p : Port) (t : Trace) : List UInt8 := t.flatMap (receivedBy p)

/-- The requests handed to a port's plugin. -/
def handed (p : Port) (t : Trace) : List (List UInt8) := t.flatMap (handedBy p)

/-- The bytes `squid_send` has accepted on a port. -/
def accepted (p : Port) (t : Trace) : List UInt8 := t.flatMap (acceptedBy p)

/-- The replies a port's plugin has produced. -/
def replies (p : Port) (t : Trace) : List (List UInt8) := t.flatMap (repliesBy p)

/-- The replies of a port as they go on the wire. -/
def owed (p : Port) (t : Trace) : List UInt8 := (replies p t).flatMap frame

@[simp] theorem received_append (p : Port) (t u : Trace) :
    received p (t ++ u) = received p t ++ received p u := List.flatMap_append

@[simp] theorem handed_append (p : Port) (t u : Trace) :
    handed p (t ++ u) = handed p t ++ handed p u := List.flatMap_append

@[simp] theorem accepted_append (p : Port) (t u : Trace) :
    accepted p (t ++ u) = accepted p t ++ accepted p u := List.flatMap_append

@[simp] theorem replies_append (p : Port) (t u : Trace) :
    replies p (t ++ u) = replies p t ++ replies p u := List.flatMap_append

@[simp] theorem owed_append (p : Port) (t u : Trace) :
    owed p (t ++ u) = owed p t ++ owed p u := by
  rw [owed, replies_append, List.flatMap_append]
  rfl

/-- What the events before a call on port `p` have to look like: a request is handed over when
its last byte has just come in and no reply is unsent, and a send carries all that is unsent. -/
def EventOk (p : Port) (pre : Trace) : Event LibSquid → Prop
  | ⟨.handlePacket port request, _⟩ => port = p →
      frames (received p pre) = handed p pre ++ [request] ∧
      frame request <:+ received p pre ∧ accepted p pre = owed p pre
  | ⟨.squidSend port data, _⟩ => port = p → data ≠ [] ∧ accepted p pre ++ data = owed p pre
  | _ => True

def Orderly (p : Port) (t : Trace) : Prop :=
  ∀ pre e post, t = pre ++ e :: post → EventOk p pre e

/-- The partial frame a port holds: its length byte and the body bytes so far. -/
def PortState.heldFrame (st : PortState) : List UInt8 :=
  if st.requestPacketExpected = 0 then []
  else UInt8.ofNat st.requestPacketExpected :: st.requestPacket.take st.requestPacketSize

/-- What a port's slots record between two passes, against the events so far. -/
structure PortInv (p : Port) (st : PortState) (t : Trace) : Prop where
  frames : frames (received p t) = handed p t
  held : partialFrame (received p t) = st.heldFrame
  sent : accepted p t ++ st.retained = owed p t
  orderly : Orderly p t
  room : st.requestPacketExpected ≠ 0 → st.requestPacketExpected ≤ 255 ∧
    st.requestPacketSize < st.requestPacketExpected ∧
    st.requestPacketSize ≤ st.requestPacket.length

/-- The same in the middle of a pass, when a whole request has been received. -/
structure RequestReady (p : Port) (st : PortState) (t : Trace) : Prop where
  frames : frames (received p t) =
    handed p t ++ [st.requestPacket.take st.requestPacketSize]
  held : partialFrame (received p t) = []
  last : frame (st.requestPacket.take st.requestPacketSize) <:+ received p t
  sent : accepted p t = owed p t
  orderly : Orderly p t
  idle : st.pendingResponseSize = 0

theorem Orderly.snoc (h : Orderly p t) (he : EventOk p t e) : Orderly p (t ++ [e]) := by
  intro pre e' post hs
  rcases append_eq_append_cons hs with ⟨post', ht⟩ | ⟨v, hpre, hv⟩
  · exact h pre e' post' ht
  · cases v with
    | nil =>
      cases hv
      rw [hpre, List.append_nil]
      exact he
    | cons y v => simp at hv

theorem retained_of_idle {st : PortState} (h : st.pendingResponseSize = 0) :
    st.retained = [] := by
  rw [PortState.retained, h, List.take_zero]

/-- Appending a received chunk to a held frame decodes like the port's bookkeeping. -/
theorem split_held_append {n : Nat} (hn : n ≠ 0) (hle : n ≤ 255) (hb : (body ++ bytes).length ≤ n) :
    frames (UInt8.ofNat n :: body ++ bytes) =
        (if (body ++ bytes).length = n then [body ++ bytes] else []) ∧
      partialFrame (UInt8.ofNat n :: body ++ bytes) =
        if (body ++ bytes).length = n then [] else UInt8.ofNat n :: (body ++ bytes) := by
  have hto : (UInt8.ofNat n).toNat = n :=
    UInt8.toNat_ofNat_of_lt' (by simp only [UInt8.size]; omega)
  have hz : UInt8.ofNat n ≠ 0 := by
    intro h
    rw [h, UInt8.toNat_zero] at hto
    exact hn hto.symm
  by_cases he : (body ++ bytes).length = n
  · have hs := split_complete hz (he.trans hto.symm) []
    rw [List.append_nil, split_nil] at hs
    simp only [frames, partialFrame, List.cons_append, hs, if_pos he, and_self]
  · have hs := split_partial (body ++ bytes) hz (by omega)
    simp only [frames, partialFrame, List.cons_append, hs, if_neg he, and_self]

theorem PortInv.silent (hi : PortInv p st t) (he : EventOk p t e) (hr : receivedBy p e = [])
    (hh : handedBy p e = []) (ha : acceptedBy p e = []) (ho : repliesBy p e = []) :
    PortInv p st (t ++ [e]) where
  frames := by simpa [received, handed, hr, hh] using hi.frames
  held := by simpa [received, hr] using hi.held
  sent := by simpa [accepted, owed, replies, ha, ho] using hi.sent
  orderly := hi.orderly.snoc he
  room := hi.room

@[simp] theorem received_recv (p : Port) (t : Trace) (m : Nat) (bytes : List UInt8) :
    received p (t ++ [⟨.squidRecv p m, some bytes⟩]) = received p t ++ bytes := by
  simp [received, receivedBy]

theorem PortInv.recv {bytes : List UInt8} (hi : PortInv p st t) (hret : st'.retained = st.retained)
    (hf : Framing.frames (st.heldFrame ++ bytes) = [])
    (hp : partialFrame (st.heldFrame ++ bytes) = st'.heldFrame)
    (hroom : st'.requestPacketExpected ≠ 0 → st'.requestPacketExpected ≤ 255 ∧
      st'.requestPacketSize < st'.requestPacketExpected ∧
      st'.requestPacketSize ≤ st'.requestPacket.length) :
    PortInv p st' (t ++ [⟨.squidRecv p m, some bytes⟩]) where
  frames := by
    rw [received_recv, frames_append, hi.frames, hi.held, hf]
    simp [handed, handedBy]
  held := by rw [received_recv, partialFrame_append, hi.held, hp]
  sent := by simpa [accepted, acceptedBy, owed, replies, repliesBy, hret] using hi.sent
  orderly := hi.orderly.snoc trivial
  room := hroom

theorem PortInv.complete {bytes : List UInt8} (hi : PortInv p st t)
    (hidle : st.pendingResponseSize = 0) (hidle' : st'.pendingResponseSize = 0)
    (hw : st.heldFrame ++ bytes = frame (st'.requestPacket.take st'.requestPacketSize))
    (hf : Framing.frames (st.heldFrame ++ bytes) = [st'.requestPacket.take st'.requestPacketSize])
    (hp : partialFrame (st.heldFrame ++ bytes) = []) :
    RequestReady p st' (t ++ [⟨.squidRecv p m, some bytes⟩]) where
  frames := by
    rw [received_recv, frames_append, hi.frames, hi.held, hf]
    simp [handed, handedBy]
  held := by rw [received_recv, partialFrame_append, hi.held, hp]
  last := by
    obtain ⟨u, hu⟩ := partialFrame_suffix (received p t)
    rw [hi.held] at hu
    exact ⟨u, by rw [received_recv, ← hw, ← List.append_assoc, hu]⟩
  sent := by
    have hsent := hi.sent
    rw [retained_of_idle hidle, List.append_nil] at hsent
    simpa [accepted, acceptedBy, owed, replies, repliesBy] using hsent
  orderly := hi.orderly.snoc trivial
  idle := hidle'

theorem receiveBody_ensures (hi : PortInv p st t) (hn : st.requestPacketExpected ≠ 0)
    (hidle : st.pendingResponseSize = 0) :
    Ensures (recording RecvBounded) (receiveBody p st) (fun x t' =>
      (x.1 ≤ 0 → PortInv p x.2 t') ∧ (0 < x.1 → RequestReady p x.2 t')) t := by
  obtain ⟨hle, hlt, hlen⟩ := hi.room hn
  have hheld : st.heldFrame =
      UInt8.ofNat st.requestPacketExpected :: st.requestPacket.take st.requestPacketSize := by
    rw [PortState.heldFrame, if_neg hn]
  unfold receiveBody
  rw [if_pos hlt]
  simp only [squidRecv, Program.ask, Program.bind_eq, Program.pure_eq, ensures_bind, ensures_call,
    ensures_pure]
  rintro (_ | bytes) t' ⟨hb, rfl⟩
  · exact ensures_pure.2 ⟨fun _ => hi.silent trivial rfl rfl rfl rfl, fun h => absurd h (by simp)⟩
  · have hlen' : (st.requestPacket.take st.requestPacketSize ++ bytes).length =
        st.requestPacketSize + bytes.length := by
      rw [List.length_append, List.length_take_of_le hlen]
    have hbound : st.requestPacketSize + bytes.length ≤ st.requestPacketExpected := by
      change bytes.length ≤ _ at hb
      omega
    obtain ⟨hf, hp⟩ := split_held_append hn hle (hlen'.symm ▸ hbound)
    rw [hlen'] at hf hp
    simp only [ensures_pure]
    by_cases he : st.requestPacketSize + bytes.length = st.requestPacketExpected
    · rw [if_pos he] at hf hp ⊢
      have hwhole : (st.requestPacket.take st.requestPacketSize ++ bytes).take
          (st.requestPacketSize + bytes.length) =
          st.requestPacket.take st.requestPacketSize ++ bytes := by
        rw [← hlen', List.take_length]
      refine ⟨fun h => absurd h (by simp), fun _ => hi.complete hidle hidle ?_ ?_ (hheld ▸ hp)⟩
      · rw [hwhole, hheld, frame, hlen', he, List.cons_append]
      · rw [hwhole, hheld, hf]
    · rw [if_neg he] at hf hp ⊢
      refine ⟨fun _ => hi.recv rfl (hheld ▸ hf) ?_ ?_, fun h => absurd h (by simp)⟩
      · rw [hheld, hp, PortState.heldFrame, if_neg hn, ← hlen', List.take_length]
      · intro _
        exact ⟨hle, Nat.lt_of_le_of_ne hbound he, Nat.le_of_eq hlen'.symm⟩

theorem receivePluginPacket_ensures (hi : PortInv p st t) (hidle : st.pendingResponseSize = 0) :
    Ensures (recording RecvBounded) (receivePluginPacket p st) (fun x t' =>
      (x.1 ≤ 0 → PortInv p x.2 t') ∧ (0 < x.1 → RequestReady p x.2 t')) t := by
  unfold receivePluginPacket
  split
  · rename_i hz
    have hheld : st.heldFrame = [] := by rw [PortState.heldFrame, if_pos hz]
    simp only [squidRecv, Program.ask, Program.bind_eq, Program.pure_eq, ensures_bind,
      ensures_call, ensures_pure]
    rintro (_ | _ | ⟨wireSize, rest⟩) t' ⟨hb, rfl⟩
    · exact ensures_pure.2 ⟨fun _ => hi.silent trivial rfl rfl rfl rfl, fun h => absurd h (by simp)⟩
    · refine ensures_pure.2 ⟨fun _ => hi.silent trivial ?_ rfl rfl rfl, fun h => absurd h (by simp)⟩
      simp [receivedBy]
    · have hrest : rest = [] := by
        change (wireSize :: rest).length ≤ 1 at hb
        simpa using hb
      subst hrest
      dsimp only
      split
      · rename_i hzero
        subst hzero
        refine ensures_pure.2 ⟨fun _ => hi.recv rfl ?_ ?_ hi.room, fun h => absurd h (by simp)⟩
        · rw [hheld, List.nil_append, frames, split_zero, split_nil]
        · rw [hheld, List.nil_append, partialFrame, split_zero, split_nil]
      · rename_i hne
        have hto : wireSize.toNat ≠ 0 := by
          intro h
          exact hne (UInt8.toNat_inj.1 h)
        have hs := split_partial [] hne (by simpa using Nat.pos_of_ne_zero hto)
        refine receiveBody_ensures (hi.recv rfl ?_ ?_ ?_) hto hidle
        · rw [hheld, List.nil_append, frames, hs]
        · rw [hheld, List.nil_append, partialFrame, hs, PortState.heldFrame, if_neg hto]
          simp
        · intro _
          have hlt := wireSize.toNat_lt
          exact ⟨by simp only; omega, Nat.pos_of_ne_zero hto, Nat.zero_le _⟩
  · rename_i hn
    exact receiveBody_ensures hi hn hidle

theorem framed_buffer (header : UInt8) (buffer : Vector UInt8 255) (n : Nat) :
    (Vector.set (#v[header] ++ buffer : Vector UInt8 256) 0 (UInt8.ofNat n)).toList =
      UInt8.ofNat n :: buffer.toList := by
  have happend : (#v[header] ++ buffer : Vector UInt8 256).toList = header :: buffer.toList := by
    change (#[header] ++ buffer.toArray).toList = _
    rw [Array.toList_append]
    rfl
  rw [Vector.toList_set, happend, List.set_cons_zero]

theorem RequestReady.handover (hr : RequestReady p st t) (reply : PluginReply) (st' : PortState)
    (hret : st'.retained = reply.bodies.flatMap frame) (hexp : st'.requestPacketExpected = 0) :
    PortInv p st' (t ++ [⟨.handlePacket p (st.requestPacket.take st.requestPacketSize), reply⟩])
    where
  frames := by
    rw [received_append, handed_append]
    simpa [received, receivedBy, handed, handedBy] using hr.frames
  held := by
    have hheld := hr.held
    rw [PortState.heldFrame, if_pos hexp]
    simpa [received, receivedBy] using hheld
  sent := by
    rw [accepted_append, owed_append, hr.sent, hret]
    simp [accepted, acceptedBy, owed, replies, repliesBy]
  orderly := hr.orderly.snoc (fun _ => ⟨hr.frames, hr.last, hr.sent⟩)
  room := fun h => absurd hexp h

theorem retained_ne_nil (st : PortState) (h : 0 < st.pendingResponseSize) :
    st.retained ≠ [] := by
  intro hn
  have hl := congrArg List.length hn
  rw [PortState.retained, List.length_take, Vector.length_toList, List.length_nil] at hl
  omega

theorem PortInv.refuse (hi : PortInv p st t) (hne : st.retained ≠ []) :
    PortInv p st (t ++ [⟨.squidSend p st.retained, false⟩]) :=
  hi.silent (fun _ => ⟨hne, hi.sent⟩) rfl rfl rfl rfl

theorem PortInv.accept (hi : PortInv p st t) (hne : st.retained ≠ []) (hst : st'.retained = [])
    (hheld : st'.heldFrame = st.heldFrame)
    (hroom : st'.requestPacketExpected ≠ 0 → st'.requestPacketExpected ≤ 255 ∧
      st'.requestPacketSize < st'.requestPacketExpected ∧
      st'.requestPacketSize ≤ st'.requestPacket.length) :
    PortInv p st' (t ++ [⟨.squidSend p st.retained, true⟩]) where
  frames := by simpa [received, receivedBy, handed, handedBy] using hi.frames
  held := by simpa [received, receivedBy, hheld] using hi.held
  sent := by
    rw [accepted_append, owed_append, hst, ← hi.sent]
    simp [accepted, acceptedBy, owed, replies, repliesBy]
  orderly := hi.orderly.snoc (fun _ => ⟨hne, hi.sent⟩)
  room := hroom

theorem PluginReply.bodies_of_failed {reply : PluginReply} (h : reply.result ≠ 0) :
    reply.bodies = [] := by
  rw [PluginReply.bodies, if_neg]
  exact fun hb => h hb.1

theorem queueResponse_ensures (hr : RequestReady p st t) (reply : PluginReply) :
    Ensures (recording RecvBounded) (queueResponse p st reply)
      (fun st' t' => PortInv p { st' with requestPacketSize := 0, requestPacketExpected := 0 } t')
      (t ++ [⟨.handlePacket p (st.requestPacket.take st.requestPacketSize), reply⟩]) := by
  have hdrop : ∀ st' : PortState, st'.pendingResponseSize = 0 → st'.requestPacketExpected = 0 →
      reply.bodies = [] → PortInv p st'
        (t ++ [⟨.handlePacket p (st.requestPacket.take st.requestPacketSize), reply⟩]) := by
    intro st' hs he hb
    apply hr.handover reply st' _ he
    rw [retained_of_idle hs, hb, List.flatMap_nil]
  unfold queueResponse
  split
  · rename_i hzero
    split
    · rename_i hbad
      refine ensures_pure.2 (hdrop _ hr.idle rfl ?_)
      rw [PluginReply.bodies, if_neg]
      rintro ⟨-, hred, -, hmax⟩
      rcases hbad.2 with h | h
      · exact absurd (hred.symm.trans h) (by decide)
      · omega
    · rename_i hgood
      split
      · rename_i hpos
        have hred : reply.redirected = false := by
          cases hc : reply.redirected with
          | false => rfl
          | true => exact absurd ⟨hpos, .inl hc⟩ hgood
        have hmax : reply.packetSize ≤ serverPacketMax := by
          by_contra h
          exact hgood ⟨hpos, .inr (Nat.lt_of_not_le h)⟩
        have hbody : reply.bodies = [reply.packetData.toList.take reply.packetSize] := by
          rw [PluginReply.bodies, if_pos ⟨hzero, hred, hpos, hmax⟩]
        have hlen : (reply.packetData.toList.take reply.packetSize).length = reply.packetSize := by
          rw [List.length_take, Vector.length_toList]
          exact Nat.min_eq_left hmax
        have hwire : (Vector.set (#v[st.pendingResponse.head] ++ reply.packetData :
            Vector UInt8 256) 0 (UInt8.ofNat reply.packetSize)).toList.take
              (reply.packetSize + 1) = reply.bodies.flatMap frame := by
          rw [framed_buffer, List.take_succ_cons, hbody, List.flatMap_singleton, frame, hlen]
        have hi : PortInv p { st with
            pendingResponse := Vector.set (#v[st.pendingResponse.head] ++ reply.packetData :
              Vector UInt8 256) 0 (UInt8.ofNat reply.packetSize)
            pendingResponseSize := reply.packetSize + 1
            requestPacketSize := 0
            requestPacketExpected := 0 } _ := hr.handover reply _ hwire rfl
        simp only [squidSend, Program.ask, Program.bind_eq, Program.pure_eq, ensures_bind,
          ensures_call, ensures_pure]
        intro sent t' hs
        obtain ⟨-, rfl⟩ := hs
        cases sent with
        | false => exact ensures_pure.2 (hi.refuse (retained_ne_nil _ (Nat.succ_pos _)))
        | true =>
          exact ensures_pure.2 (hi.accept (retained_ne_nil _ (Nat.succ_pos _))
            (retained_of_idle rfl) rfl (fun h => absurd rfl h))
      · rename_i hnone
        refine ensures_pure.2 (hdrop _ hr.idle rfl ?_)
        rw [PluginReply.bodies, if_neg]
        exact fun h => hnone h.2.2.1
  · rename_i hfail
    exact ensures_pure.2 (hdrop _ hr.idle rfl (PluginReply.bodies_of_failed hfail))

/-- The plugin of an open port handles packets. -/
def Served (registry : ServerPluginRegistry) (p : Port) (st : PortState) : Prop :=
  0 ≤ st.squidFd → ∃ plugin, findServerPlugin registry p = some plugin ∧
    plugin.handlePacket = true

theorem servePort_ensures (hi : PortInv p st t) (hidle : st.pendingResponseSize = 0)
    (hplugin : findServerPlugin registry p = some plugin) (hh : plugin.handlePacket = true) :
    Ensures (recording RecvBounded) (servePort registry p st) (PortInv p) t := by
  unfold servePort
  simp only [Program.bind_eq, ensures_bind]
  refine (receivePluginPacket_ensures hi hidle).mono ?_
  rintro ⟨packetReady, st'⟩ t' ⟨hwait, hready⟩
  dsimp only
  split
  · rename_i hle
    exact ensures_pure.2 (hwait hle)
  · rename_i hgt
    simp only [hplugin, hh, if_true, handlePacket, Program.ask, Program.pure_eq, ensures_bind,
      ensures_call, ensures_pure]
    rintro reply t'' ⟨-, rfl⟩
    exact queueResponse_ensures (hready (Int.lt_of_not_ge hgt)) reply

theorem dispatchPort_ensures (hi : PortInv p st t) (hs : Served registry p st) :
    Ensures (recording RecvBounded) (dispatchPort registry p st) (PortInv p) t := by
  unfold dispatchPort
  split
  · exact ensures_pure.2 hi
  · rename_i hfd
    obtain ⟨plugin, hplugin, hh⟩ := hs (Int.not_lt.1 hfd)
    split
    · rename_i hpending
      have hne := retained_ne_nil st hpending
      simp only [squidSend, Program.ask, Program.bind_eq, Program.pure_eq, ensures_bind,
        ensures_call, ensures_pure]
      intro sent t' hsend
      obtain ⟨-, rfl⟩ := hsend
      cases sent with
      | false => exact ensures_pure.2 (hi.refuse hne)
      | true =>
        have hi' : PortInv p { st with pendingResponseSize := 0 } _ :=
          hi.accept hne (retained_of_idle rfl) rfl hi.room
        exact servePort_ensures hi' rfl hplugin hh
    · rename_i hidle
      exact servePort_ensures hi (by omega) hplugin hh

/-- The passes of one port on its own. -/
def portPasses (registry : ServerPluginRegistry) (p : Port) :
    Nat → PortState → Program LibSquid PortState
  | 0, st => .pure st
  | n + 1, st => (dispatchPort registry p st).bind (portPasses registry p n)

def callPort : Call → Option Port
  | .squidRecv port _ => some port
  | .squidSend port _ => some port
  | .handlePacket port _ => some port
  | _ => none

def OnPort (p : Port) (op : LibSquid.Op) : Prop := callPort op = some p

instance (p : Port) : DecidablePred (OnPort p) := fun op =>
  inferInstanceAs (Decidable (callPort op = some p))

theorem calls_receiveBody {P : LibSquid.Op → Prop} (h : ∀ m, P (.squidRecv p m))
    (st : PortState) : Calls P (receiveBody p st) := by
  rw [receiveBody]
  split
  · apply Calls.bind (.ask (h _))
    intro r
    cases r <;> exact .pure _
  · exact .pure _

theorem calls_receivePluginPacket {P : LibSquid.Op → Prop} (h : ∀ m, P (.squidRecv p m))
    (st : PortState) : Calls P (receivePluginPacket p st) := by
  rw [receivePluginPacket]
  split
  · apply Calls.bind (.ask (h _))
    intro r
    rcases r with _ | _ | ⟨wireSize, rest⟩
    · exact .pure _
    · exact .pure _
    · dsimp only
      split
      · exact .pure _
      · exact calls_receiveBody h _
  · exact calls_receiveBody h st

theorem onPort_queueResponse (p : Port) (st : PortState) (reply : PluginReply) :
    Calls (OnPort p) (queueResponse p st reply) := by
  unfold queueResponse
  split
  · split
    · exact .pure _
    · split
      · refine Calls.bind (.ask rfl) ?_
        intro sent
        cases sent <;> exact .pure _
      · exact .pure _
  · exact .pure _

theorem onPort_servePort (registry : ServerPluginRegistry) (p : Port) (st : PortState) :
    Calls (OnPort p) (servePort registry p st) := by
  unfold servePort
  apply (calls_receivePluginPacket (fun _ => rfl) st).bind
  rintro ⟨packetReady, st'⟩
  dsimp only
  split
  · exact .pure _
  · split
    · exact .pure _
    · split
      · refine Calls.bind (.ask rfl) ?_
        intro reply
        exact (onPort_queueResponse p st' reply).bind (fun st => .pure _)
      · exact .pure _

theorem onPort_dispatchPort (registry : ServerPluginRegistry) (p : Port) (st : PortState) :
    Calls (OnPort p) (dispatchPort registry p st) := by
  unfold dispatchPort
  split
  · exact .pure _
  · split
    · refine Calls.bind (.ask rfl) ?_
      intro sent
      cases sent with
      | false => exact .pure _
      | true => exact onPort_servePort registry p _
    · exact onPort_servePort registry p st

section
variable (H : Environment LibSquid σ) (s : σ)

theorem receiveBody_frame (p : Port) (st : PortState) :
    Ensures H (receiveBody p st) (fun x _ => x.2.squidFd = st.squidFd ∧
      x.2.pendingResponseSize = st.pendingResponseSize) s := by
  rw [receiveBody]
  split
  · refine ensures_bind.2 (ensures_call.2 fun r s' _ => ensures_pure.2 ?_)
    cases r <;> exact ensures_pure.2 ⟨rfl, rfl⟩
  · exact ensures_pure.2 ⟨rfl, rfl⟩

theorem receivePluginPacket_frame (p : Port) (st : PortState) :
    Ensures H (receivePluginPacket p st) (fun x _ => x.2.squidFd = st.squidFd ∧
      x.2.pendingResponseSize = st.pendingResponseSize) s := by
  rw [receivePluginPacket]
  split
  · refine ensures_bind.2 (ensures_call.2 fun r s' _ => ensures_pure.2 ?_)
    rcases r with _ | _ | ⟨wireSize, rest⟩
    · exact ensures_pure.2 ⟨rfl, rfl⟩
    · exact ensures_pure.2 ⟨rfl, rfl⟩
    · dsimp only
      split
      · exact ensures_pure.2 ⟨rfl, rfl⟩
      · exact receiveBody_frame H s' p _
  · exact receiveBody_frame H s p st

theorem queueResponse_squidFd (p : Port) (st : PortState) (reply : PluginReply) :
    Ensures H (queueResponse p st reply) (fun st' _ => st'.squidFd = st.squidFd) s := by
  unfold queueResponse
  split
  · split
    · exact ensures_pure.2 rfl
    · split
      · refine ensures_bind.2 (ensures_call.2 fun r s' _ => ensures_pure.2 ?_)
        cases r <;> exact ensures_pure.2 rfl
      · exact ensures_pure.2 rfl
  · exact ensures_pure.2 rfl

theorem servePort_squidFd (registry : ServerPluginRegistry) (p : Port) (st : PortState) :
    Ensures H (servePort registry p st) (fun st' _ => st'.squidFd = st.squidFd) s := by
  unfold servePort
  refine ensures_bind.2 ((receivePluginPacket_frame H s p st).mono ?_)
  rintro ⟨packetReady, st'⟩ s' ⟨hfd, -⟩
  dsimp only
  split
  · exact ensures_pure.2 hfd
  · split
    · exact ensures_pure.2 hfd
    · split
      · refine ensures_bind.2 (ensures_call.2 fun r s'' _ => ensures_pure.2 ?_)
        refine ensures_bind.2 ((queueResponse_squidFd H s'' p st' r).mono ?_)
        intro st'' _ hfd'
        exact ensures_pure.2 (hfd'.trans hfd)
      · exact ensures_pure.2 hfd

theorem dispatchPort_squidFd (registry : ServerPluginRegistry) (p : Port) (st : PortState) :
    Ensures H (dispatchPort registry p st) (fun st' _ => st'.squidFd = st.squidFd) s := by
  unfold dispatchPort
  split
  · exact ensures_pure.2 rfl
  · split
    · refine ensures_bind.2 (ensures_call.2 fun r s' _ => ensures_pure.2 ?_)
      cases r with
      | false => exact ensures_pure.2 rfl
      | true => exact servePort_squidFd H s' registry p _
    · exact servePort_squidFd H s registry p st

end

theorem portPasses_congr {registry registry' : ServerPluginRegistry}
    (h : findServerPlugin registry p = findServerPlugin registry' p) (n : Nat) (st : PortState) :
    portPasses registry p n st = portPasses registry' p n st := by
  have hd : dispatchPort registry p = dispatchPort registry' p := by
    funext st
    simp only [dispatchPort, servePort, h]
  induction n generalizing st with
  | zero => rfl
  | succ n ih =>
    rw [portPasses, portPasses, hd]
    congr 1
    funext st'
    exact ih st'

theorem portPasses_ensures (hi : PortInv p st t) (hs : Served registry p st) :
    Ensures (recording RecvBounded) (portPasses registry p n st) (PortInv p) t := by
  induction n generalizing st t with
  | zero => exact ensures_pure.2 hi
  | succ n ih =>
    refine ensures_bind.2 (((dispatchPort_ensures hi hs).and
      (dispatchPort_squidFd _ t registry p st)).mono ?_)
    rintro st' t' ⟨hi', hfd⟩
    refine ih hi' (fun h => hs ?_)
    rwa [hfd] at h

theorem dispatchPorts_project (hd : ports.Nodup)
    (he : Exec (recording C) t (dispatchPorts ports runtime) t' runtime') (p : Port) :
    runtime'.pluginRegistry = runtime.pluginRegistry ∧
    (p ∈ ports → Exec (recording C) (eventsOf (OnPort p) t)
      (dispatchPort runtime.pluginRegistry p (runtime.ports p)) (eventsOf (OnPort p) t')
      (runtime'.ports p)) ∧
    (p ∉ ports → eventsOf (OnPort p) t' = eventsOf (OnPort p) t ∧
      runtime'.ports p = runtime.ports p) := by
  induction ports generalizing t runtime with
  | nil =>
    obtain ⟨rfl, rfl⟩ := exec_pure.1 he
    simp
  | cons q ports ih =>
    obtain ⟨t₁, st, hq, hrest⟩ := exec_bind.1 he
    obtain ⟨hnot, hd⟩ := List.nodup_cons.1 hd
    obtain ⟨hreg, hin, hout⟩ := ih hd hrest
    have hcalls := onPort_dispatchPort runtime.pluginRegistry q (runtime.ports q)
    refine ⟨hreg, ?_, ?_⟩
    · intro hp
      by_cases hpq : p = q
      · subst hpq
        obtain ⟨hev, hst⟩ := hout hnot
        rw [hev, hst, ServerRuntime.setPort_same]
        exact hcalls.exec_eventsOf hq
      · have hp' := hin (List.mem_of_ne_of_mem hpq hp)
        rw [ServerRuntime.setPort_other _ _ hpq, ServerRuntime.setPort_registry,
          hcalls.eventsOf_other (fun op h h' => hpq (Option.some.inj (h'.symm.trans h))) hq] at hp'
        exact hp'
    · intro hp
      have hpq : p ≠ q := fun h => hp (h ▸ List.mem_cons_self)
      have hp' : p ∉ ports := fun h => hp (List.mem_cons_of_mem q h)
      obtain ⟨hev, hst⟩ := hout hp'
      rw [hev, hst, ServerRuntime.setPort_other _ _ hpq]
      exact ⟨hcalls.eventsOf_other (fun op h h' => hpq (Option.some.inj (h'.symm.trans h))) hq, rfl⟩

theorem pluginPorts_nodup : pluginPorts.Nodup := by decide

/-- Seen from one port, a run of the dispatcher is a run of that port alone. -/
theorem dispatchPasses_project (hp : p ∈ pluginPorts)
    (he : Exec (recording C) t (dispatchPasses n runtime) t' runtime') :
    Exec (recording C) (eventsOf (OnPort p) t)
      (portPasses runtime.pluginRegistry p n (runtime.ports p)) (eventsOf (OnPort p) t')
      (runtime'.ports p) := by
  induction n generalizing t runtime with
  | zero =>
    obtain ⟨rfl, rfl⟩ := exec_pure.1 he
    exact .pure _ _
  | succ n ih =>
    obtain ⟨t₁, runtime₁, hpass, hrest⟩ := exec_bind.1 he
    obtain ⟨hreg, hin, -⟩ := dispatchPorts_project pluginPorts_nodup hpass p
    have hrest' := ih hrest
    rw [hreg] at hrest'
    exact exec_bind.2 ⟨_, _, hin hp, hrest'⟩

/-- At the start of a link session no port holds a request or a reply. -/
def PortState.Fresh (st : PortState) : Prop :=
  st.requestPacketExpected = 0 ∧ st.pendingResponseSize = 0

theorem PortState.Fresh.inv (h : st.Fresh) (p : Port) : PortInv p st [] where
  frames := frames_nil
  held := by rw [PortState.heldFrame, if_pos h.1]; exact partialFrame_nil
  sent := by rw [retained_of_idle h.2]; rfl
  orderly := by
    intro pre e post hs
    simp at hs
  room := fun hn => absurd h.1 hn

theorem receivedBy_other (h : ¬ OnPort p e.op) : receivedBy p e = [] := by
  rcases e with ⟨op, r⟩
  cases op with
  | squidRecv port m =>
    cases r with
    | none => rfl
    | some bytes => exact if_neg fun hp => h (congrArg some hp)
  | _ => rfl

theorem handedBy_other (h : ¬ OnPort p e.op) : handedBy p e = [] := by
  rcases e with ⟨op, r⟩
  cases op with
  | handlePacket port request => exact if_neg fun hp => h (congrArg some hp)
  | _ => rfl

theorem acceptedBy_other (h : ¬ OnPort p e.op) : acceptedBy p e = [] := by
  rcases e with ⟨op, r⟩
  cases op with
  | squidSend port data =>
    cases r with
    | false => rfl
    | true => exact if_neg fun hp => h (congrArg some hp)
  | _ => rfl

theorem repliesBy_other (h : ¬ OnPort p e.op) : repliesBy p e = [] := by
  rcases e with ⟨op, r⟩
  cases op with
  | handlePacket port request => exact if_neg fun hp => h (congrArg some hp)
  | _ => rfl

section
variable (p : Port) (t : Trace)

theorem received_eventsOf : received p (eventsOf (OnPort p) t) = received p t :=
  flatMap_eventsOf (fun _ => receivedBy_other) t

theorem handed_eventsOf : handed p (eventsOf (OnPort p) t) = handed p t :=
  flatMap_eventsOf (fun _ => handedBy_other) t

theorem accepted_eventsOf : accepted p (eventsOf (OnPort p) t) = accepted p t :=
  flatMap_eventsOf (fun _ => acceptedBy_other) t

theorem owed_eventsOf : owed p (eventsOf (OnPort p) t) = owed p t :=
  congrArg (List.flatMap frame) (flatMap_eventsOf (fun _ => repliesBy_other) t)

end

/-- At every hand-over to the plugin of port `p`, nothing of an earlier reply is unsent. -/
def QuietHandovers (p : Port) (t : Trace) : Prop :=
  ∀ pre request reply post, t = pre ++ ⟨.handlePacket p request, reply⟩ :: post →
    accepted p pre = owed p pre

theorem Orderly.quiet (h : Orderly p (eventsOf (OnPort p) t)) : QuietHandovers p t := by
  intro pre request reply post hs
  have hq := h (eventsOf (OnPort p) pre) ⟨.handlePacket p request, reply⟩
    (eventsOf (OnPort p) post) (by
      rw [hs, eventsOf_append]
      simp [eventsOf, OnPort, callPort])
  have hquiet := (hq rfl).2.2
  rwa [accepted_eventsOf, owed_eventsOf] at hquiet

/-- Within one link session every port is a faithful packet channel: its plugin gets exactly
the frames of the port's stream, the client gets exactly the framed replies, no request is
handed over before the last reply is out, and both sequences are the same whatever the other
ports do. -/
theorem dispatchPasses_streams
    (he : Exec (recording RecvBounded) [] (dispatchPasses n runtime) t runtime')
    (hserved : ∀ p, Served runtime.pluginRegistry p (runtime.ports p))
    (hfresh : ∀ p, (runtime.ports p).Fresh) (hp : p ∈ pluginPorts) :
    frames (received p t) = handed p t ∧
    Stream (handed p t) (runtime'.ports p).heldFrame (received p t) ∧
    accepted p t ++ (runtime'.ports p).retained = owed p t ∧
    QuietHandovers p t ∧
    ∀ (other other' : ServerRuntime) (u : Trace)
      (o : Trace → (op : LibSquid.Op) → LibSquid.Ans op),
      Exec (recording RecvBounded) [] (dispatchPasses n other) u other' →
      other.ports p = runtime.ports p →
      findServerPlugin other.pluginRegistry p = findServerPlugin runtime.pluginRegistry p →
      Follows o (eventsOf (OnPort p) t) → Follows o (eventsOf (OnPort p) u) →
      handed p u = handed p t ∧ accepted p u = accepted p t := by
  have hport := dispatchPasses_project hp he
  have hi := portPasses_ensures ((hfresh p).inv p) (hserved p) _ _ hport
  have hframes := hi.frames
  have hheld := hi.held
  have hsent := hi.sent
  rw [received_eventsOf] at hframes hheld
  rw [handed_eventsOf] at hframes
  rw [accepted_eventsOf, owed_eventsOf] at hsent
  refine ⟨hframes, ?_, hsent, hi.orderly.quiet, ?_⟩
  · rw [← hframes, ← hheld]
    exact stream_split _
  · intro other other' u o hother hst hplugin hf hf'
    have hport' := dispatchPasses_project hp hother
    rw [hst, portPasses_congr hplugin] at hport'
    obtain ⟨heq, -⟩ := exec_follows_unique hport hport' hf hf'
    rw [← handed_eventsOf p u, ← handed_eventsOf p t, ← accepted_eventsOf p u,
      ← accepted_eventsOf p t, heq]
    exact ⟨rfl, rfl⟩

/-- A server with one plugin, on port 1. -/
def echoRuntime : ServerRuntime :=
  let registry : ServerPluginRegistry :=
    ⟨fun p => if p = 1 then some ⟨some "echo", false, false, true⟩ else none⟩
  (initServerRuntime registry).bindSocket 1 0

/-- Two passes that serve one one-byte request; the socket refuses the reply at first. -/
def echoTrace : Trace :=
  [⟨.squidRecv 1 1, some [1]⟩, ⟨.squidRecv 1 1, some [7]⟩,
    ⟨.handlePacket 1 [7], ⟨0, Vector.replicate 255 7, false, 1⟩⟩, ⟨.squidSend 1 [1, 7], false⟩,
    ⟨.squidSend 1 [1, 7], true⟩, ⟨.squidRecv 1 1, some []⟩]

theorem echoRuntime_fresh (p : Port) : (echoRuntime.ports p).Fresh := by
  by_cases hp : p = 1
  · subst hp
    exact ⟨rfl, rfl⟩
  · rw [echoRuntime, ServerRuntime.bindSocket, ServerRuntime.setPort_other _ _ hp]
    exact ⟨rfl, rfl⟩

theorem dispatchPasses_streams_echo :
    ∃ runtime', Exec (recording RecvBounded) [] (dispatchPasses 2 echoRuntime) echoTrace runtime' ∧
      Stream [[7]] (runtime'.ports 1).heldFrame [1, 7] ∧
      [1, 7] ++ (runtime'.ports 1).retained = frame [7] := by
  have hsome : ((dispatchPasses 2 echoRuntime).replay echoTrace).isSome = true := by decide +kernel
  obtain ⟨runtime', hr⟩ := Option.isSome_iff_exists.1 hsome
  have hbound : ∀ e ∈ echoTrace, RecvBounded e := by
    simp [echoTrace, RecvBounded]
  have he := exec_of_replay hr (steps_recording hbound [])
  rw [List.nil_append] at he
  have hserved : ∀ p, Served echoRuntime.pluginRegistry p (echoRuntime.ports p) := by
    intro p hfd
    by_cases hp : p = 1
    · subst hp
      exact ⟨_, rfl, rfl⟩
    · rw [echoRuntime, ServerRuntime.bindSocket, ServerRuntime.setPort_other _ _ hp] at hfd
      change (0 : Int) ≤ -1 at hfd
      omega
  obtain ⟨-, hstream, hsent, -⟩ := dispatchPasses_streams he hserved echoRuntime_fresh (p := 1)
    (by decide)
  exact ⟨runtime', he, hstream, hsent⟩

end SquidServer.Runtime

import SquidServer.ClientExchange
import Mathlib.Data.Nat.Find

namespace SquidServer.Client
open Interaction
set_option autoImplicit true

/-- The socket as one transaction sees it: a link that is up in one epoch or down, a queue that
takes what is sent or not, and the incoming bytes. `sizes` fragments them: it says how many
bytes the next calls of `squid_recv` may return, which is none when an entry is 0. -/
structure SocketView where
  up : Bool
  epoch : UInt8
  sends : Bool
  sent : List (List UInt8)
  unread : List UInt8
  sizes : Nat → Nat

def SocketView.count (w : SocketView) (maximum : Nat) : Nat := min (w.sizes 0) maximum

def SocketView.recv (w : SocketView) (maximum : Nat) : SocketView :=
  { w with unread := w.unread.drop (w.count maximum), sizes := fun i => w.sizes (i + 1) }

def SocketView.send (w : SocketView) (data : List UInt8) : SocketView :=
  { w with sent := w.sent ++ [data] }

/-- Bytes that have come in are handed out sooner or later. -/
def Fair (sizes : Nat → Nat) : Prop := ∀ i, ∃ j, 0 < sizes (i + j)

theorem Fair.first (h : Fair sizes) : ∃ k, 0 < sizes k ∧ ∀ i < k, sizes i = 0 := by
  have hex : ∃ k, 0 < sizes k := by
    obtain ⟨j, hj⟩ := h 0
    exact ⟨_, hj⟩
  refine ⟨Nat.find hex, Nat.find_spec hex, fun i hi => ?_⟩
  exact Nat.eq_zero_of_not_pos (Nat.find_min hex hi)

/-- An idle callback, if there is one, always returns 0. -/
def wireAnswers (w : SocketView) : (op : ClientLib.Op) → ClientLib.Ans op × SocketView
  | .snetLinkIsUp => (w.up, w)
  | .snetLinkEpoch => (w.epoch, w)
  | .squidSend data => (w.sends, w.send data)
  | .squidRecv maximum => (some (w.unread.take (w.count maximum)), w.recv maximum)
  | .idle => (false, w)

/-- `squid_client_exchange` with its check for a NULL client. -/
def squidClientExchangeAt (fuel : Nat) (client : Option SquidClient) (requestSize : Nat) :
    Program ClientLib (Option (Int × Option SquidClient)) :=
  match client with
  | none => return some (squidClientErrorArgument, none)
  | some client => do
    match ← squidClientExchange fuel client requestSize with
    | none => return none
    | some (result, client) => return some (result, some client)

/-- What is left of a transaction: its result, the messages handed to `squid_send`, the bytes
that stay unread, and the reply. -/
structure Settlement where
  result : Int
  sent : List (List UInt8)
  unread : List UInt8
  reply : List UInt8

/-- The reply at the head of a stream; `none` while it is not complete. -/
def settleReply (capacity : Nat) (sent : List (List UInt8)) : List UInt8 → Option Settlement
  | [] => none
  | size :: rest =>
    if size = 0 then some ⟨squidClientErrorProtocol, sent, rest, []⟩
    else if rest.length < size.toNat then none
    else if capacity < size.toNat then
      some ⟨squidClientErrorOverflow, sent, rest.drop size.toNat, []⟩
    else some ⟨size.toNat, sent, rest.drop size.toNat, rest.take size.toNat⟩

/-- What a transaction is to come to, whatever the fragmentation. -/
def settle (client : Option SquidClient) (requestSize : Nat) (w : SocketView) : Option Settlement :=
  match client with
  | none => some ⟨squidClientErrorArgument, w.sent, w.unread, []⟩
  | some client =>
    if client.packet = none ∨ client.packetCapacity = 0 ∨
        squidClientPacketMax < client.packetCapacity ∨ requestSize = 0 ∨
        client.packetCapacity < requestSize then
      some ⟨squidClientErrorArgument, w.sent, w.unread, []⟩
    else if w.up then
      let request := (client.store [UInt8.ofNat requestSize]).bytes (requestSize + 1)
      if w.sends then settleReply client.packetCapacity (w.sent ++ [request]) w.unread
      else some ⟨squidClientErrorIo, w.sent ++ [request], w.unread, []⟩
    else some ⟨squidClientErrorLink, w.sent, w.unread, []⟩

/-- `w'` is `w` after some calls of `squid_recv` that have taken the bytes `taken`. -/
structure SocketView.Reads (w : SocketView) (taken : List UInt8) (w' : SocketView) : Prop where
  up : w'.up = w.up
  epoch : w'.epoch = w.epoch
  sent : w'.sent = w.sent
  unread : w.unread = taken ++ w'.unread
  sizes : ∃ k, ∀ i, w'.sizes i = w.sizes (k + i)

theorem SocketView.Reads.trans (h : SocketView.Reads w b w') (h' : SocketView.Reads w' b' w'') :
    SocketView.Reads w (b ++ b') w'' where
  up := h'.up.trans h.up
  epoch := h'.epoch.trans h.epoch
  sent := h'.sent.trans h.sent
  unread := by rw [h.unread, h'.unread, List.append_assoc]
  sizes := by
    obtain ⟨k, hk⟩ := h.sizes
    obtain ⟨k', hk'⟩ := h'.sizes
    exact ⟨k + k', fun i => by rw [hk', hk, Nat.add_assoc]⟩

theorem SocketView.reads_recv (w : SocketView) (maximum : Nat) :
    w.Reads (w.unread.take (w.count maximum)) (w.recv maximum) where
  up := rfl
  epoch := rfl
  sent := rfl
  unread := (List.take_append_drop _ _).symm
  sizes := ⟨1, fun i => by rw [Nat.add_comm]; rfl⟩

theorem SocketView.Reads.unread_length (h : SocketView.Reads w b w') :
    w.unread.length = b.length + w'.unread.length := by
  rw [h.unread, List.length_append]

theorem SocketView.Reads.fair (h : SocketView.Reads w b w') (hf : Fair w.sizes) :
    Fair w'.sizes := by
  obtain ⟨k, hk⟩ := h.sizes
  intro i
  obtain ⟨j, hj⟩ := hf (k + i)
  exact ⟨j, by rwa [hk, ← Nat.add_assoc]⟩

/-- The calls of the receiving half of a transaction. -/
def Receiving : ClientLib.Op → Prop
  | .squidSend _ => False
  | _ => True

theorem receiving_waitForProgress (client : SquidClient) (epoch : UInt8) :
    Calls Receiving (waitForProgress client epoch) := by
  have hlink : Calls Receiving (checkLink epoch) := by
    refine Calls.bind (.ask trivial) fun up => ?_
    split
    · refine Calls.bind (.ask trivial) fun e => ?_
      split <;> exact .pure _
    · exact .pure _
  rw [waitForProgress]
  split
  · refine Calls.bind (.ask trivial) fun stop => ?_
    split
    · exact .pure _
    · exact hlink
  · exact hlink

theorem receiving_receiveBytes (fuel : Nat) (client : SquidClient) (size : Nat) (epoch : UInt8) :
    Calls Receiving (receiveBytes fuel client size epoch) := by
  refine Calls.loop (fun received => ?_) fuel []
  split
  · refine Calls.bind (.ask trivial) fun r => ?_
    cases r with
    | none => exact .pure _
    | some bytes =>
      dsimp only
      split
      · exact .pure _
      · refine Calls.bind (receiving_waitForProgress client epoch) fun result => ?_
        split <;> exact .pure _
  · exact .pure _

theorem receiving_drainResponse (fuel : Nat) (client : SquidClient) (size : Nat) (epoch : UInt8) :
    Calls Receiving (drainResponse fuel client size epoch) := by
  refine Calls.bind (Calls.loop (fun turn => ?_) fuel _) fun result => .pure _
  dsimp only
  split
  · refine Calls.bind (receiving_receiveBytes fuel _ _ epoch) fun x => ?_
    cases x with
    | none => exact .pure _
    | some x =>
      dsimp only
      split <;> exact .pure _
  · exact .pure _

def SocketView.channel (w : SocketView) : Channel := ⟨w.up, w.epoch, [], w.unread⟩

/-- While it only receives, a wire is a channel that is never lost. -/
theorem exec_channel {p : Program ClientLib α} (hp : Calls Receiving p)
    (he : Exec (answering wireAnswers) w p w' a) : Exec (channel False) w.channel p w'.channel a ∧
      w'.up = w.up ∧ w'.epoch = w.epoch ∧ w'.sent = w.sent ∧
        ∃ k, ∀ i, w'.sizes i = w.sizes (k + i) := by
  let R : SocketView → Channel → Prop := fun x c => c = x.channel ∧ x.up = w.up ∧
    x.epoch = w.epoch ∧ x.sent = w.sent ∧ ∃ k, ∀ i, x.sizes i = w.sizes (k + i)
  have hstep : ∀ x c op r x', Receiving op → R x c → answering wireAnswers x op r x' →
      ∃ c', channel False c op r c' ∧ R x' c' := by
    intro x c op r x' hop hR hx
    obtain ⟨rfl, hup, hepoch, hsent, k, hk⟩ := hR
    cases op with
    | squidSend data => exact False.elim hop
    | snetLinkIsUp =>
      cases hx
      exact ⟨_, ⟨id, rfl⟩, rfl, hup, hepoch, hsent, k, hk⟩
    | snetLinkEpoch =>
      cases hx
      exact ⟨_, ⟨rfl, rfl⟩, rfl, hup, hepoch, hsent, k, hk⟩
    | squidRecv maximum =>
      cases hx
      refine ⟨_, ⟨?_, _, (List.take_append_drop _ _).symm, rfl⟩, rfl, hup, hepoch, hsent, k + 1,
        fun i => ?_⟩
      · rw [List.length_take, SocketView.count]
        omega
      · rw [Nat.add_assoc, Nat.add_comm 1 i]
        exact hk (i + 1)
    | idle =>
      cases hx
      exact ⟨_, ⟨fun h => absurd h Bool.false_ne_true, rfl⟩, rfl, hup, hepoch, hsent, k, hk⟩
  obtain ⟨c', he', hc', hrest⟩ := hp.simulate R hstep ⟨rfl, rfl, rfl, rfl, 0, fun i => by simp⟩ he
  subst hc'
  exact ⟨he', hrest⟩

theorem receiveBytes_wire (client : SquidClient) (size : Nat) (hup : w.up = true) :
    Ensures (answering wireAnswers) (receiveBytes fuel client size w.epoch) (fun x w' =>
      ∀ result bytes, x = some (result, bytes) →
        result = 0 ∧ bytes.length = size ∧ w.Reads bytes w') w := by
  intro w' x he result bytes hx
  obtain ⟨hc, hup', hepoch, hsent, hsizes⟩ := exec_channel (receiving_receiveBytes _ _ _ _) he
  obtain ⟨-, -, h⟩ := receiveBytes_ensures client size rfl _ _ hc
  rcases h result bytes hx with ⟨hr, hlen, hunread⟩ | ⟨-, hdown⟩ | ⟨-, hcancel⟩
  · exact ⟨hr, hlen, hup', hepoch, hsent, hunread, hsizes⟩
  · exact absurd (hdown.symm.trans (hup'.trans hup)) Bool.false_ne_true
  · exact False.elim hcancel

theorem drainResponse_wire (client : SquidClient) (size : Nat) (hup : w.up = true) :
    Ensures (answering wireAnswers) (drainResponse fuel client size w.epoch) (fun x w' =>
      ∀ result client', x = some (result, client') → result = squidClientErrorOverflow ∧
        ∃ dropped, dropped.length = size ∧ w.Reads dropped w') w := by
  intro w' x he result client' hx
  obtain ⟨hc, hup', hepoch, hsent, hsizes⟩ := exec_channel (receiving_drainResponse _ _ _ _) he
  rcases drainResponse_ensures client size rfl _ _ hc result client' hx with
    ⟨hr, dropped, hlen, hunread⟩ | ⟨-, hdown⟩ | ⟨-, hcancel⟩
  · exact ⟨hr, dropped, hlen, hup', hepoch, hsent, hunread, hsizes⟩
  · exact absurd (hdown.symm.trans (hup'.trans hup)) Bool.false_ne_true
  · exact False.elim hcancel

/-- A transaction with result `r` has come to what it is to come to, on the wire and, where there
is a reply, at the start of the workspace. -/
structure Settles (settlement : Settlement) (r : Int) (w : SocketView) (packet : Nat → List UInt8) :
    Prop where
  result : r = settlement.result
  sent : w.sent = settlement.sent
  unread : w.unread = settlement.unread
  reply : 0 ≤ r → packet r.toNat = settlement.reply

theorem settles_error (r : Int) (h : r < 0) (w : SocketView) (packet : Nat → List UInt8) :
    Settles ⟨r, w.sent, w.unread, []⟩ r w packet where
  result := rfl
  sent := rfl
  unread := rfl
  reply := fun hr => absurd hr (by omega)

theorem receiveResponse_settles (client : SquidClient) (hp : client.packet ≠ none)
    (hup : w.up = true) :
    Ensures (answering wireAnswers) (receiveResponse fuel client w.epoch) (fun x w' =>
      ∀ result client', x = some (result, client') →
        ∃ settlement, settleReply client.packetCapacity w.sent w.unread = some settlement ∧
          Settles settlement result w' client'.bytes) w := by
  refine ensures_bind.2 ((receiveBytes_wire client 1 hup).mono ?_)
  intro x w₁ h₁
  rcases x with _ | ⟨result₁, bytes⟩
  · refine ensures_pure.2 ?_
    intro _ _ hx
    cases hx
  · obtain ⟨rfl, hone, hread⟩ := h₁ _ _ rfl
    obtain ⟨size, rfl⟩ := List.length_eq_one_iff.1 hone
    have hsettle : ∀ capacity, settleReply capacity w.sent w.unread =
        settleReply capacity w.sent (size :: w₁.unread) := by
      intro capacity
      rw [hread.unread]
      rfl
    simp only [if_true, hsettle]
    have hup₁ : w₁.up = true := hread.up.trans hup
    split
    · rename_i hzero
      have hz : size = 0 := UInt8.toNat_inj.1 hzero
      refine ensures_pure.2 ?_
      intro result client' hx
      cases hx
      refine ⟨_, by rw [settleReply, if_pos hz], ?_⟩
      rw [← hread.sent]
      exact settles_error _ (by decide) _ _
    · rename_i hzero
      have hz : size ≠ 0 := fun h => hzero (by rw [h]; rfl)
      rw [← hread.epoch]
      split
      · rename_i hbig
        refine (drainResponse_wire client size.toNat hup₁).mono ?_
        intro x w₂ h₂ result client' hx
        obtain ⟨rfl, dropped, hlen, hread₂⟩ := h₂ result client' hx
        have henough : size.toNat ≤ w₁.unread.length := by
          rw [hread₂.unread_length]
          omega
        refine ⟨_, by rw [settleReply, if_neg hz, if_neg (by omega), if_pos (by exact hbig)], ?_⟩
        rw [hread₂.unread, ← hlen, List.drop_left, ← hread.sent, ← hread₂.sent]
        exact settles_error _ (by decide) _ _
      · rename_i hfits
        refine ensures_bind.2 ((receiveBytes_wire client size.toNat hup₁).mono ?_)
        intro x w₂ h₂
        rcases x with _ | ⟨result₂, reply⟩
        · refine ensures_pure.2 ?_
          intro _ _ hx
          cases hx
        · obtain ⟨rfl, hlen, hread₂⟩ := h₂ _ _ rfl
          refine ensures_pure.2 ?_
          intro result client' hx
          cases hx
          have henough : size.toNat ≤ w₁.unread.length := by
            rw [hread₂.unread_length]
            omega
          refine ⟨_, by rw [settleReply, if_neg hz, if_neg (by omega), if_neg (by exact hfits)],
            ?_⟩
          have hres : (if (0 : Int) = 0 then (([size].headD 0).toNat : Int) else 0) =
              reply.length := by
            rw [if_pos rfl, hlen]
            rfl
          rw [hread₂.unread, ← hlen, List.drop_left, List.take_left, ← hread.sent, ← hread₂.sent,
            hres]
          exact {
            result := rfl
            sent := rfl
            unread := rfl
            reply := fun _ => client.store_bytes hp reply }

theorem squidClientExchange_settles (client : SquidClient) (requestSize : Nat) (w : SocketView) :
    Ensures (answering wireAnswers) (squidClientExchange fuel client requestSize) (fun x w' =>
      ∀ result client', x = some (result, client') →
        ∃ settlement, settle (some client) requestSize w = some settlement ∧
          Settles settlement result w' client'.bytes) w := by
  rw [squidClientExchange, settle]
  dsimp only
  split
  · refine ensures_pure.2 ?_
    intro result client' hx
    cases hx
    exact ⟨_, rfl, settles_error _ (by decide) _ _⟩
  · rename_i hargs
    refine ensures_bind.2 (ensures_call.2 fun up w₁ h₁ => ensures_pure.2 ?_)
    cases h₁
    cases hup : w.up with
    | false =>
      refine ensures_pure.2 ?_
      intro result client' hx
      cases hx
      exact ⟨_, rfl, settles_error _ (by decide) _ _⟩
    | true =>
      refine ensures_bind.2 (ensures_call.2 fun epoch w₂ h₂ => ensures_pure.2 ?_)
      cases h₂
      refine ensures_bind.2 (ensures_call.2 fun sent w₃ h₃ => ensures_pure.2 ?_)
      cases h₃
      cases hsends : w.sends with
      | false =>
        refine ensures_pure.2 ?_
        intro result client' hx
        cases hx
        exact ⟨_, rfl, settles_error _ (by decide) (w.send _) _⟩
      | true =>
        have hpacket : (client.store [UInt8.ofNat requestSize]).packet ≠ none := by
          rw [SquidClient.store_packet, Ne, Option.map_eq_none_iff]
          exact fun h => hargs (.inl h)
        exact receiveResponse_settles _ hpacket hup

/-- The bytes at the start of the workspace, if there is a client. -/
def packetBytes (client : Option SquidClient) (n : Nat) : List UInt8 :=
  match client with
  | none => []
  | some client => client.bytes n

/-- Whatever the fragmentation, a call that returns has settled its transaction. -/
theorem squidClientExchangeAt_settles
    (h : (squidClientExchangeAt fuel client requestSize).run wireAnswers w =
      (some (result, client'), w')) :
    ∃ settlement, settle client requestSize w = some settlement ∧
      Settles settlement result w' (packetBytes client') := by
  cases client with
  | none =>
    cases h
    exact ⟨_, rfl, settles_error _ (by decide) _ _⟩
  | some client =>
    have he := exec_answering.2 h
    obtain ⟨w₁, x, hcall, hrest⟩ := exec_bind.1 he
    have hs := squidClientExchange_settles client requestSize w _ _ hcall
    rcases x with _ | ⟨r, c⟩
    · obtain ⟨-, hx⟩ := exec_pure.1 hrest
      cases hx
    · obtain ⟨rfl, hx⟩ := exec_pure.1 hrest
      cases hx
      exact hs _ _ rfl

theorem waitForProgress_wire (client : SquidClient) (w : SocketView) (hup : w.up = true) :
    (waitForProgress client w.epoch).run wireAnswers w = (0, w) := by
  have hlink : (checkLink w.epoch).run wireAnswers w = (0, w) := by
    simp [checkLink, snetLinkIsUp, snetLinkEpoch, Program.ask, Program.run, wireAnswers, hup]
  rw [waitForProgress]
  split
  · exact hlink
  · exact hlink

/-- One turn of the loop of `receive_bytes`. -/
def receiveTurn (client : SquidClient) (size : Nat) (epoch : UInt8) (received : List UInt8) :
    Program ClientLib (List UInt8 ⊕ (Int × List UInt8)) := do
  if received.length < size then
    match ← squidRecv (size - received.length) with
    | none => return .inr (squidClientErrorIo, received)
    | some bytes =>
      if (received ++ bytes).length = size then return .inr (0, received ++ bytes)
      else do
        let waitResult ← waitForProgress client epoch
        if waitResult = 0 then return .inl (received ++ bytes)
        else return .inr (waitResult, received ++ bytes)
  else return .inr (0, received)

section
variable {client : SquidClient} {size : Nat} {received : List UInt8} {w w' : SocketView}

/-- What a turn has received, given what the fragmentation hands out. -/
def receivedAfter (w : SocketView) (size : Nat) (received : List UInt8) : List UInt8 :=
  received ++ w.unread.take (w.count (size - received.length))

theorem receiveTurn_last (hlt : received.length < size)
    (hall : (receivedAfter w size received).length = size) :
    (receiveTurn client size w.epoch received).run wireAnswers w =
      (.inr (0, receivedAfter w size received), w.recv (size - received.length)) := by
  rw [receiveTurn, if_pos hlt, squidRecv, Program.bind_eq, Program.run_bind, Program.run_ask,
    wireAnswers]
  rw [receivedAfter] at hall ⊢
  dsimp only
  rw [if_pos hall]
  rfl

theorem receiveTurn_more (hup : w.up = true) (hlt : received.length < size)
    (hmore : (receivedAfter w size received).length ≠ size) :
    (receiveTurn client size w.epoch received).run wireAnswers w =
      (.inl (receivedAfter w size received), w.recv (size - received.length)) := by
  have hwait := waitForProgress_wire client (w.recv (size - received.length)) hup
  rw [receiveTurn, if_pos hlt, squidRecv, Program.bind_eq, Program.run_bind, Program.run_ask,
    wireAnswers]
  rw [receivedAfter] at hmore ⊢
  dsimp only
  rw [if_neg hmore, Program.bind_eq, Program.run_bind, show w.epoch = (w.recv _).epoch from rfl,
    hwait]
  rfl

theorem length_receivedAfter (w : SocketView) (hlt : received.length < size) :
    (receivedAfter w size received).length ≤ size := by
  rw [receivedAfter, List.length_append, List.length_take, SocketView.count]
  omega

/-- With bytes enough and a fair fragmentation the loop ends. The induction is on the bytes
that are missing and, within it, on the turn that hands out the next of them. -/
theorem loop_receiveTurn_returns (client : SquidClient) (received : List UInt8)
    (hup : w.up = true) (hlt : received.length < size) (hf : Fair w.sizes)
    (hmore : size ≤ received.length + w.unread.length) :
    ∃ n x w', ∀ fuel, n ≤ fuel →
      (Program.loop (receiveTurn client size w.epoch) fuel received).run wireAnswers w =
        (some x, w') := by
  induction hm : size - received.length using Nat.strong_induction_on generalizing received w with
  | _ missing ihm =>
    obtain ⟨k, hk, hbefore⟩ := hf.first
    induction k generalizing w with
    | zero =>
      by_cases hall : (receivedAfter w size received).length = size
      · refine ⟨1, (0, receivedAfter w size received), w.recv (size - received.length), ?_⟩
        intro fuel hfuel
        obtain ⟨n, rfl⟩ := Nat.exists_eq_add_of_le' hfuel
        exact Program.run_loop_inr (receiveTurn_last hlt hall) n
      · have hlt' := Nat.lt_of_le_of_ne (length_receivedAfter w hlt) hall
        have hgrow : received.length < (receivedAfter w size received).length := by
          rw [receivedAfter, List.length_append, List.length_take, SocketView.count]
          omega
        have hrest : size ≤ (receivedAfter w size received).length +
            (w.recv (size - received.length)).unread.length := by
          rw [receivedAfter, SocketView.recv, List.length_append, List.length_take,
            List.length_drop]
          omega
        have hup' : (w.recv (size - received.length)).up = true := hup
        have hf' : Fair (w.recv (size - received.length)).sizes := (w.reads_recv _).fair hf
        obtain ⟨n, x, w', hrun⟩ := ihm _ (by omega) _ hup' hlt' hf' hrest rfl
        refine ⟨n + 1, x, w', fun fuel hfuel => ?_⟩
        obtain ⟨m, rfl⟩ := Nat.exists_eq_add_of_le' (Nat.le_of_add_left_le hfuel)
        rw [Program.run_loop_inl (receiveTurn_more hup hlt hall)]
        exact hrun m (by omega)
    | succ k ihk =>
      have hzero : w.count (size - received.length) = 0 := by
        rw [SocketView.count, hbefore 0 (Nat.succ_pos k), Nat.zero_min]
      have hsame : receivedAfter w size received = received := by
        rw [receivedAfter, hzero, List.take_zero, List.append_nil]
      have hup' : (w.recv (size - received.length)).up = true := hup
      have hf' : Fair (w.recv (size - received.length)).sizes := (w.reads_recv _).fair hf
      have hrest : size ≤ received.length + (w.recv (size - received.length)).unread.length := by
        rw [SocketView.recv, hzero, List.drop_zero]
        exact hmore
      obtain ⟨n, x, w', hrun⟩ := ihk hup' hf' hrest hk
        (fun i hi => hbefore (i + 1) (Nat.succ_lt_succ hi))
      refine ⟨n + 1, x, w', fun fuel hfuel => ?_⟩
      obtain ⟨m, rfl⟩ := Nat.exists_eq_add_of_le' (Nat.le_of_add_left_le hfuel)
      rw [Program.run_loop_inl (receiveTurn_more hup hlt (by rw [hsame]; omega)), hsame]
      exact hrun m (by omega)

theorem receiveBytes_returns (client : SquidClient) (size : Nat) (hup : w.up = true)
    (hpos : 0 < size) (hf : Fair w.sizes) (henough : size ≤ w.unread.length) :
    ∃ n bytes w', (∀ fuel, n ≤ fuel →
      (receiveBytes fuel client size w.epoch).run wireAnswers w = (some (0, bytes), w')) ∧
      bytes.length = size ∧ w.Reads bytes w' := by
  obtain ⟨n, ⟨r, bytes⟩, w', hrun⟩ := loop_receiveTurn_returns client [] hup hpos hf
    (by simpa using henough)
  have he := exec_answering.2 (hrun n (Nat.le_refl n))
  obtain ⟨rfl, hlen, hread⟩ := receiveBytes_wire client size hup _ _ he r bytes rfl
  exact ⟨n, bytes, w', hrun, hlen, hread⟩

end

/-- One turn of the loop that reads and drops a reply. -/
def drainTurn (fuel : Nat) (epoch : UInt8) (turn : Nat × SquidClient) :
    Program ClientLib ((Nat × SquidClient) ⊕ Option (Int × SquidClient)) := do
  if 0 < turn.1 then
    let part := min turn.1 turn.2.packetCapacity
    match ← receiveBytes fuel turn.2 part epoch with
    | none => return .inr none
    | some (result, bytes) =>
      if result = 0 then return .inl (turn.1 - part, turn.2.store bytes)
      else return .inr (some (result, turn.2.store bytes))
  else return .inr (some (squidClientErrorOverflow, turn.2))

theorem drainResponse_eq (fuel : Nat) (client : SquidClient) (size : Nat) (epoch : UInt8) :
    drainResponse fuel client size epoch =
      (Program.loop (drainTurn fuel epoch) fuel (size, client)).bind fun x => .pure x.join := rfl

theorem loop_drainTurn_returns (remaining : Nat) (client : SquidClient)
    (hcap : 0 < client.packetCapacity) (hup : w.up = true) (hf : Fair w.sizes)
    (henough : remaining ≤ w.unread.length) :
    ∃ n x w', ∀ fuel m, n ≤ fuel → n ≤ m →
      (Program.loop (drainTurn fuel w.epoch) m (remaining, client)).run wireAnswers w =
        (some (some x), w') := by
  induction remaining using Nat.strong_induction_on generalizing client w with
  | _ remaining ih =>
    by_cases hpos : 0 < remaining
    · obtain ⟨n₁, bytes, w₁, hrun, hlen, hread⟩ := receiveBytes_returns client
        (min remaining client.packetCapacity) hup (by omega) hf (by omega)
      have hrest : remaining - min remaining client.packetCapacity ≤ w₁.unread.length := by
        rw [hread.unread_length] at henough
        omega
      obtain ⟨n₂, x, w', hloop⟩ := ih _ (by omega) (client.store bytes) hcap
        (hread.up.trans hup) (hread.fair hf) hrest
      refine ⟨max n₁ (n₂ + 1), x, w', fun fuel m hfuel hm => ?_⟩
      obtain ⟨m, rfl⟩ : ∃ k, m = k + 1 := ⟨m - 1, by omega⟩
      have hturn : (drainTurn fuel w.epoch (remaining, client)).run wireAnswers w =
          (.inl (remaining - min remaining client.packetCapacity, client.store bytes), w₁) := by
        rw [drainTurn, if_pos hpos, Program.bind_eq, Program.run_bind, hrun fuel (by omega)]
        rfl
      rw [Program.run_loop_inl hturn, ← hread.epoch]
      exact hloop fuel m (by omega) (by omega)
    · refine ⟨1, (squidClientErrorOverflow, client), w, fun fuel m _ hm => ?_⟩
      obtain ⟨m, rfl⟩ : ∃ k, m = k + 1 := ⟨m - 1, by omega⟩
      have hturn : (drainTurn fuel w.epoch (remaining, client)).run wireAnswers w =
          (.inr (some (squidClientErrorOverflow, client)), w) := by
        rw [drainTurn, if_neg hpos]
        rfl
      exact Program.run_loop_inr hturn m

theorem receiveResponse_returns (client : SquidClient) (hcap : 0 < client.packetCapacity)
    (hup : w.up = true) (hf : Fair w.sizes)
    (hsettle : settleReply client.packetCapacity sent w.unread ≠ none) :
    ∃ n x w', ∀ fuel, n ≤ fuel →
      (receiveResponse fuel client w.epoch).run wireAnswers w = (some x, w') := by
  cases hunread : w.unread with
  | nil =>
    rw [hunread] at hsettle
    exact absurd rfl hsettle
  | cons size rest =>
    obtain ⟨n₁, bytes, w₁, hrun, hone, hread⟩ := receiveBytes_returns client 1 hup Nat.one_pos hf
      (by rw [hunread, List.length_cons]; omega)
    obtain ⟨b, rfl⟩ := List.length_eq_one_iff.1 hone
    have hhead := hread.unread
    rw [hunread, List.singleton_append, List.cons.injEq] at hhead
    obtain ⟨rfl, rfl⟩ := hhead
    have hup₁ := hread.up.trans hup
    have hf₁ := hread.fair hf
    rw [hunread, settleReply] at hsettle
    by_cases hzero : size.toNat = 0
    · refine ⟨n₁, (squidClientErrorProtocol, client), w₁, fun fuel hfuel => ?_⟩
      rw [receiveResponse, Program.bind_eq, Program.run_bind, hrun fuel hfuel]
      dsimp only
      rw [if_pos rfl, if_pos (by exact hzero)]
      rfl
    · rw [if_neg (fun h => hzero (by rw [h]; rfl))] at hsettle
      have henough : size.toNat ≤ w₁.unread.length := by
        by_contra hless
        rw [if_pos (Nat.lt_of_not_le hless)] at hsettle
        exact hsettle rfl
      by_cases hbig : client.packetCapacity < size.toNat
      · obtain ⟨n₂, x, w', hloop⟩ := loop_drainTurn_returns size.toNat client hcap hup₁ hf₁ henough
        refine ⟨max n₁ n₂, x, w', fun fuel hfuel => ?_⟩
        rw [receiveResponse, Program.bind_eq, Program.run_bind, hrun fuel (by omega)]
        dsimp only
        rw [if_pos rfl, if_neg (by exact hzero), if_pos (by exact hbig), drainResponse_eq,
          Program.run_bind, ← hread.epoch, show ([size].headD 0).toNat = size.toNat from rfl,
          hloop fuel fuel (by omega) (by omega)]
        rfl
      · obtain ⟨n₂, reply, w', hrun₂, -⟩ := receiveBytes_returns client size.toNat hup₁
          (Nat.pos_of_ne_zero hzero) hf₁ henough
        refine ⟨max n₁ n₂, (size.toNat, client.store reply), w', fun fuel hfuel => ?_⟩
        rw [receiveResponse, Program.bind_eq, Program.run_bind, hrun fuel (by omega)]
        dsimp only
        rw [if_pos rfl, if_neg (by exact hzero), if_neg (by exact hbig), Program.bind_eq,
          Program.run_bind, ← hread.epoch, show ([size].headD 0).toNat = size.toNat from rfl,
          hrun₂ fuel (by omega)]
        rfl

theorem squidClientExchangeAt_returns (client : Option SquidClient) (requestSize : Nat)
    (hf : Fair w.sizes) (hsettle : settle client requestSize w ≠ none) :
    ∃ fuel x w', (squidClientExchangeAt fuel client requestSize).run wireAnswers w =
      (some x, w') := by
  cases client with
  | none => exact ⟨0, _, _, rfl⟩
  | some client =>
    have hat : ∀ fuel x w', (squidClientExchange fuel client requestSize).run wireAnswers w =
        (some x, w') → ∃ fuel x w',
          (squidClientExchangeAt fuel (some client) requestSize).run wireAnswers w =
            (some x, w') := by
      intro fuel x w' h
      refine ⟨fuel, (x.1, some x.2), w', ?_⟩
      rw [squidClientExchangeAt, Program.bind_eq, Program.run_bind, h]
      rfl
    rw [settle] at hsettle
    dsimp only at hsettle
    by_cases hargs : client.packet = none ∨ client.packetCapacity = 0 ∨
        squidClientPacketMax < client.packetCapacity ∨ requestSize = 0 ∨
        client.packetCapacity < requestSize
    · apply hat 0 (squidClientErrorArgument, client) w
      rw [squidClientExchange, if_pos hargs]
      rfl
    · rw [if_neg hargs] at hsettle
      cases hup : w.up with
      | false =>
        apply hat 0 (squidClientErrorLink, client) w
        rw [squidClientExchange, if_neg hargs]
        simp [snetLinkIsUp, Program.ask, Program.run, wireAnswers, hup]
      | true =>
        cases hsends : w.sends with
        | false =>
          apply hat 0 (squidClientErrorIo, client.store [UInt8.ofNat requestSize]) (w.send _)
          rw [squidClientExchange, if_neg hargs]
          simp [snetLinkIsUp, snetLinkEpoch, squidSend, Program.ask, Program.run, wireAnswers, hup,
            hsends]
          rfl
        | true =>
          rw [hup, hsends] at hsettle
          let client' := client.store [UInt8.ofNat requestSize]
          let w₁ := w.send (client'.bytes (requestSize + 1))
          have hcap : 0 < client'.packetCapacity := by
            apply Nat.pos_of_ne_zero
            exact fun h => hargs (.inr (.inl h))
          have hup₁ : w₁.up = true := hup
          obtain ⟨n, x, w', hrun⟩ := receiveResponse_returns client' hcap hup₁ hf hsettle
          apply hat n x w'
          rw [← hrun n (Nat.le_refl n), squidClientExchange, if_neg hargs]
          simp [snetLinkIsUp, snetLinkEpoch, squidSend, Program.ask, Program.run, wireAnswers, hup,
            hsends]
          rfl

end SquidServer.Client

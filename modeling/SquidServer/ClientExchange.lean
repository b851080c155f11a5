import SquidServer.Interaction
import SquidServer.Framing

namespace SquidServer.Client
open Interaction Framing
set_option autoImplicit true

abbrev squidClientPacketMax : Nat := 255
abbrev squidClientErrorArgument : Int := -1
abbrev squidClientErrorLink : Int := -2
abbrev squidClientErrorIo : Int := -3
abbrev squidClientErrorProtocol : Int := -4
abbrev squidClientErrorOverflow : Int := -5
abbrev squidClientErrorCancelled : Int := -6

inductive Call where
  | snetLinkIsUp
  | snetLinkEpoch
  | squidSend (data : List UInt8)
  | squidRecv (maximum : Nat)
  | idle
deriving DecidableEq

/-- `squid_recv` answers `none` for a negative result, `squid_send` whether the bytes were
queued, and the idle callback whether the call is to be cancelled. -/
abbrev Call.Ans : Call → Type
  | .snetLinkIsUp => Bool
  | .snetLinkEpoch => UInt8
  | .squidSend _ => Bool
  | .squidRecv _ => Option (List UInt8)
  | .idle => Bool

abbrev ClientLib : Effect := ⟨Call, Call.Ans⟩

def snetLinkIsUp : Program ClientLib Bool := .ask (E := ClientLib) Call.snetLinkIsUp

def snetLinkEpoch : Program ClientLib UInt8 := .ask (E := ClientLib) Call.snetLinkEpoch

def squidSend (data : List UInt8) : Program ClientLib Bool :=
  .ask (E := ClientLib) (Call.squidSend data)

def squidRecv (maximum : Nat) : Program ClientLib (Option (List UInt8)) :=
  .ask (E := ClientLib) (Call.squidRecv maximum)

def idle : Program ClientLib Bool := .ask (E := ClientLib) Call.idle

/-- `struct squid_client`, as pointed to by a `client` that is not NULL. The workspace must hold
`packet_capacity + 1` bytes; `idle` says whether the callback is set. -/
structure SquidClient where
  packet : Option (List UInt8)
  packetCapacity : Nat
  idle : Bool
  room : ∀ workspace ∈ packet, packetCapacity < workspace.length

/-- Store bytes at the start of the workspace. -/
def SquidClient.store (client : SquidClient) (bytes : List UInt8) : SquidClient where
  packet := client.packet.map fun workspace => bytes ++ workspace.drop bytes.length
  packetCapacity := client.packetCapacity
  idle := client.idle
  room := by
    intro workspace hw
    obtain ⟨w, hmem, rfl⟩ := Option.map_eq_some_iff.1 hw
    have hroom := client.room w hmem
    rw [List.length_append, List.length_drop]
    omega

@[simp] theorem SquidClient.store_packet (client : SquidClient) (bytes : List UInt8) :
    (client.store bytes).packet =
      client.packet.map fun workspace => bytes ++ workspace.drop bytes.length := rfl

def SquidClient.bytes (client : SquidClient) (size : Nat) : List UInt8 :=
  (client.packet.getD []).take size

/-- The link check at the end of `wait_for_progress`. -/
def checkLink (epoch : UInt8) : Program ClientLib Int := do
  if ← snetLinkIsUp then
    if (← snetLinkEpoch) = epoch then return 0 else return squidClientErrorLink
  else return squidClientErrorLink

def waitForProgress (client : SquidClient) (epoch : UInt8) : Program ClientLib Int :=
  if client.idle then do
    if ← idle then return squidClientErrorCancelled else checkLink epoch
  else checkLink epoch

/-- `receive_bytes`, with the bytes it has stored at its destination. It may wait for ever, so
it is cut off after `fuel` turns. -/
def receiveBytes (fuel : Nat) (client : SquidClient) (size : Nat) (epoch : UInt8) :
    Program ClientLib (Option (Int × List UInt8)) :=
  .loop (fun received => do
    if received.length < size then
      match ← squidRecv (size - received.length) with
      | none => return .inr (squidClientErrorIo, received)
      | some bytes =>
        if (received ++ bytes).length = size then return .inr (0, received ++ bytes)
        else do
          let waitResult ← waitForProgress client epoch
          if waitResult = 0 then return .inl (received ++ bytes)
          else return .inr (waitResult, received ++ bytes)
    else return .inr (0, received)) fuel []

/-- Read and drop a reply that does not fit the workspace. -/
def drainResponse (fuel : Nat) (client : SquidClient) (responseSize : Nat) (epoch : UInt8) :
    Program ClientLib (Option (Int × SquidClient)) :=
  .loop (fun (remaining, client) => do
    if 0 < remaining then
      let part := min remaining client.packetCapacity
      match ← receiveBytes fuel client part epoch with
      | none => return .inr none
      | some (result, bytes) =>
        if result = 0 then return .inl (remaining - part, client.store bytes)
        else return .inr (some (result, client.store bytes))
    else return .inr (some (squidClientErrorOverflow, client))) fuel (responseSize, client)
  >>= fun result => return result.join

/-- `squid_client_exchange` once the request is queued. -/
def receiveResponse (fuel : Nat) (client : SquidClient) (epoch : UInt8) :
    Program ClientLib (Option (Int × SquidClient)) := do
  match ← receiveBytes fuel client 1 epoch with
  | none => return none
  | some (result, bytes) =>
    if result = 0 then
      let responseSize := (bytes.headD 0).toNat
      if responseSize = 0 then return some (squidClientErrorProtocol, client)
      else if client.packetCapacity < responseSize then
        drainResponse fuel client responseSize epoch
      else
        match ← receiveBytes fuel client responseSize epoch with
        | none => return none
        | some (result, bytes) =>
          return some (if result = 0 then responseSize else result, client.store bytes)
    else return some (result, client)

/-- `squid_client_exchange`; `none` when a receive was cut off. -/
def squidClientExchange (fuel : Nat) (client : SquidClient) (requestSize : Nat) :
    Program ClientLib (Option (Int × SquidClient)) := do
  if client.packet = none ∨ client.packetCapacity = 0 ∨
      squidClientPacketMax < client.packetCapacity ∨ requestSize = 0 ∨
      client.packetCapacity < requestSize then
    return some (squidClientErrorArgument, client)
  else if ← snetLinkIsUp then
    let epoch ← snetLinkEpoch
    let client := client.store [UInt8.ofNat requestSize]
    if ← squidSend (client.bytes (requestSize + 1)) then receiveResponse fuel client epoch
    else return some (squidClientErrorIo, client)
  else return some (squidClientErrorLink, client)

/-- The far side of the socket: the replies the server has given, one for each request it got,
and those of their bytes the client has not read yet. A link that is down stays down, as a new
session would have another epoch. -/
structure Channel where
  up : Bool
  epoch : UInt8
  replies : List (List UInt8)
  unread : List UInt8

/-- A lossless channel to a server that answers every request with one nonempty reply.
`mayCancel` says whether the idle callback may ask to cancel. -/
def channel (mayCancel : Prop) : Environment ClientLib Channel
  | s, .snetLinkIsUp, up, s' => (up = true → s.up = true) ∧ s' = { s with up := up }
  | s, .snetLinkEpoch, epoch, s' => epoch = s.epoch ∧ s' = s
  | s, .squidSend _, true, s' => ∃ reply : List UInt8, 0 < reply.length ∧ reply.length ≤ 255 ∧
      s' = { s with replies := s.replies ++ [reply], unread := s.unread ++ frame reply }
  | s, .squidSend _, false, s' => s' = s
  | s, .squidRecv maximum, some bytes, s' => bytes.length ≤ maximum ∧
      ∃ rest, s.unread = bytes ++ rest ∧ s' = { s with unread := rest }
  | _, .squidRecv _, none, _ => False
  | s, .idle, stop, s' => (stop = true → mayCancel) ∧ s' = s

/-- A call that returns a size has received the reply to the request it has sent itself. -/
def OwnReply (s s' : Channel) (result : Int) (client : SquidClient) : Prop :=
  0 ≤ result → ∃ reply : List UInt8, s'.replies = s.replies ++ [reply] ∧ result = reply.length ∧
    client.bytes reply.length = reply

/-- A sequence of calls on one client. Between two calls the caller may leave anything in the
client's workspace. -/
def exchanges (fuel : Nat) : List (SquidClient × Nat) → Program ClientLib (Option Unit)
  | [] => return some ()
  | (client, requestSize) :: calls => do
    match ← squidClientExchange fuel client requestSize with
    | none => return none
    | some _ => exchanges fuel calls

/-- Why a call may stop while it waits: the link is gone for good, or it was cancelled. -/
def Stopped (mayCancel : Prop) (result : Int) (s : Channel) : Prop :=
  (result = squidClientErrorLink ∧ s.up = false) ∨ (result = squidClientErrorCancelled ∧ mayCancel)

theorem Stopped.neg (h : Stopped mayCancel result s) : result < 0 := by
  rcases h with ⟨rfl, -⟩ | ⟨rfl, -⟩ <;> decide

section
variable {mayCancel : Prop} {s : Channel} {epoch : UInt8}

theorem checkLink_ensures (he : s.epoch = epoch) :
    Ensures (channel mayCancel) (checkLink epoch) (fun result s' =>
      s'.epoch = epoch ∧ s'.replies = s.replies ∧
        ((result = 0 ∧ s' = s) ∨ Stopped mayCancel result s')) s := by
  refine ensures_bind.2 (ensures_call.2 fun up s₁ h₁ => ensures_pure.2 ?_)
  obtain ⟨hup, rfl⟩ := h₁
  cases up with
  | false => exact ensures_pure.2 ⟨he, rfl, .inr (.inl ⟨rfl, rfl⟩)⟩
  | true =>
    refine ensures_bind.2 (ensures_call.2 fun e s₂ h₂ => ensures_pure.2 ?_)
    obtain ⟨rfl, rfl⟩ := h₂
    rw [if_pos he]
    refine ensures_pure.2 ⟨he, rfl, .inl ⟨rfl, ?_⟩⟩
    rw [← hup rfl]

theorem waitForProgress_ensures (client : SquidClient) (he : s.epoch = epoch) :
    Ensures (channel mayCancel) (waitForProgress client epoch) (fun result s' =>
      s'.epoch = epoch ∧ s'.replies = s.replies ∧
        ((result = 0 ∧ s' = s) ∨ Stopped mayCancel result s')) s := by
  rw [waitForProgress]
  split
  · refine ensures_bind.2 (ensures_call.2 fun stop s₁ h₁ => ensures_pure.2 ?_)
    obtain ⟨hstop, rfl⟩ := h₁
    cases stop with
    | true => exact ensures_pure.2 ⟨he, rfl, .inr (.inr ⟨rfl, hstop rfl⟩)⟩
    | false => exact checkLink_ensures he
  · exact checkLink_ensures he

theorem receiveBytes_ensures (client : SquidClient) (size : Nat) (he : s.epoch = epoch) :
    Ensures (channel mayCancel) (receiveBytes fuel client size epoch) (fun x s' =>
      s'.epoch = epoch ∧ s'.replies = s.replies ∧ ∀ result bytes, x = some (result, bytes) →
        (result = 0 ∧ bytes.length = size ∧ s.unread = bytes ++ s'.unread) ∨
          Stopped mayCancel result s') s := by
  refine ensures_loop (fun _ received t => t.epoch = epoch ∧ t.replies = s.replies ∧
    s.unread = received ++ t.unread ∧ received.length ≤ size) ?_ ?_
    ⟨he, rfl, rfl, Nat.zero_le _⟩
  · intro received t hi
    exact ⟨hi.1, hi.2.1, fun _ _ hx => nomatch hx⟩
  · intro _ received t hi
    obtain ⟨hepoch, hreplies, hunread, hlen⟩ := hi
    split
    · refine ensures_bind.2 (ensures_call.2 fun r t₁ h₁ => ensures_pure.2 ?_)
      cases r with
      | none => exact absurd h₁ id
      | some bytes =>
        obtain ⟨hmax, rest, hbytes, rfl⟩ := h₁
        have hunread₁ : s.unread = (received ++ bytes) ++ rest := by
          rw [hunread, hbytes, List.append_assoc]
        have hlen₁ : (received ++ bytes).length ≤ size := by
          rw [List.length_append]
          omega
        dsimp only
        split
        · rename_i hall
          refine ensures_pure.2 ⟨hepoch, hreplies, ?_⟩
          intro result b hx
          cases hx
          exact .inl ⟨rfl, hall, hunread₁⟩
        · have hwait : ({ t with unread := rest } : Channel).epoch = epoch := hepoch
          refine ensures_bind.2 ((waitForProgress_ensures client hwait).mono ?_)
          intro result t₂ h₂
          obtain ⟨hepoch₂, hreplies₂, h₂⟩ := h₂
          split
          · rename_i hzero
            rcases h₂ with ⟨-, rfl⟩ | h₂
            · exact ensures_pure.2 ⟨hepoch, hreplies, hunread₁, hlen₁⟩
            · exact absurd h₂.neg (by omega)
          · rename_i hne
            refine ensures_pure.2 ⟨hepoch₂, hreplies₂.trans hreplies, ?_⟩
            intro r b hx
            cases hx
            rcases h₂ with ⟨hzero, -⟩ | h₂
            · exact absurd hzero hne
            · exact .inr h₂
    · refine ensures_pure.2 ⟨hepoch, hreplies, ?_⟩
      intro result b hx
      cases hx
      exact .inl ⟨rfl, by omega, hunread⟩

theorem drainResponse_ensures (client : SquidClient) (size : Nat) (he : s.epoch = epoch) :
    Ensures (channel mayCancel) (drainResponse fuel client size epoch) (fun x s' =>
      ∀ result client', x = some (result, client') → (result = squidClientErrorOverflow ∧
        ∃ dropped, dropped.length = size ∧ s.unread = dropped ++ s'.unread) ∨
          Stopped mayCancel result s') s := by
  refine ensures_bind.2 (Ensures.mono (Q := fun x s' =>
    ∀ result client', x = some (some (result, client')) → (result = squidClientErrorOverflow ∧
        ∃ dropped, dropped.length = size ∧ s.unread = dropped ++ s'.unread) ∨
          Stopped mayCancel result s') ?_ ?_)
  · refine ensures_loop (fun _ turn t => t.epoch = epoch ∧
      ∃ dropped, s.unread = dropped ++ t.unread ∧ dropped.length + turn.1 = size) ?_ ?_
      ⟨he, [], rfl, Nat.zero_add _⟩
    · intro turn t _ _ _ hx
      cases hx
    · intro _ turn t hi
      obtain ⟨remaining, client₁⟩ := turn
      obtain ⟨hepoch, dropped, hunread, hlen⟩ := hi
      dsimp only
      split
      · refine ensures_bind.2 ((receiveBytes_ensures client₁ _ hepoch).mono ?_)
        intro x t₁ h₁
        obtain ⟨hepoch₁, -, h₁⟩ := h₁
        rcases x with _ | ⟨result, bytes⟩
        · refine ensures_pure.2 ?_
          intro _ _ hx
          cases hx
        · dsimp only
          split
          · rename_i hzero
            rcases h₁ result bytes rfl with ⟨-, hsize, hbytes⟩ | h₁
            · refine ensures_pure.2 ⟨hepoch₁, dropped ++ bytes, ?_, ?_⟩
              · rw [hunread, hbytes, List.append_assoc]
              · rw [List.length_append]
                omega
            · exact absurd h₁.neg (by omega)
          · rename_i hne
            refine ensures_pure.2 ?_
            intro r c hx
            cases hx
            rcases h₁ _ bytes rfl with ⟨hzero, -⟩ | h₁
            · exact absurd hzero hne
            · exact .inr h₁
      · refine ensures_pure.2 ?_
        intro r c hx
        cases hx
        exact .inl ⟨rfl, dropped, by omega, hunread⟩
  · intro x t h
    refine ensures_pure.2 ?_
    intro result client' hx
    rcases x with _ | _ | x
    · cases hx
    · cases hx
    · cases hx
      exact h result client' rfl

theorem SquidClient.store_bytes (client : SquidClient) (h : client.packet ≠ none)
    (bytes : List UInt8) : (client.store bytes).bytes bytes.length = bytes := by
  obtain ⟨workspace, hw⟩ := Option.ne_none_iff_exists'.1 h
  have hstore : (client.store bytes).packet = some (bytes ++ workspace.drop bytes.length) := by
    rw [SquidClient.store_packet, hw, Option.map_some]
  rw [SquidClient.bytes, hstore, Option.getD_some, List.take_left]

/-- What a call leaves behind: a size means its own reply, and unless it was cancelled nothing
of the reply stays unread while the link is up. -/
def Exchanged (mayCancel : Prop) (s s' : Channel) (result : Int) (client : SquidClient) : Prop :=
  OwnReply s s' result client ∧ (¬ mayCancel → s'.up = true → s'.unread = [])

theorem Stopped.exchanged (h : Stopped mayCancel result s') (s : Channel) (client : SquidClient) :
    Exchanged mayCancel s s' result client := by
  constructor
  · intro hr
    exact absurd h.neg (by omega)
  · intro hc hup
    rcases h with ⟨-, hdown⟩ | ⟨-, hcancel⟩
    · exact absurd (hdown.symm.trans hup) Bool.false_ne_true
    · exact absurd hcancel hc

theorem read_whole {reply : List UInt8} (h : reply = unread) (hall : unread = bytes ++ rest)
    (hlen : bytes.length = reply.length) : bytes = reply ∧ rest = [] := by
  subst h
  have hl := congrArg List.length hall
  rw [List.length_append, hlen] at hl
  have hrest : rest = [] := List.length_eq_zero_iff.1 (by omega)
  rw [hrest, List.append_nil] at hall
  exact ⟨hall.symm, hrest⟩

theorem receiveResponse_ensures (client : SquidClient) (hp : client.packet ≠ none)
    (he : s₁.epoch = epoch) (hreplies : s₁.replies = s.replies ++ [reply])
    (hunread : s₁.unread = frame reply) (hpos : 0 < reply.length) (hmax : reply.length ≤ 255) :
    Ensures (channel mayCancel) (receiveResponse fuel client epoch) (fun x s' =>
      ∀ result client', x = some (result, client') → Exchanged mayCancel s s' result client')
      s₁ := by
  refine ensures_bind.2 ((receiveBytes_ensures client 1 he).mono ?_)
  intro x s₂ h₂
  obtain ⟨he₂, hreplies₂, h₂⟩ := h₂
  rcases x with _ | ⟨result, bytes⟩
  · refine ensures_pure.2 ?_
    intro _ _ hx
    cases hx
  · dsimp only
    split
    · rename_i hzero
      rcases h₂ result bytes rfl with ⟨-, hsize, hbytes⟩ | h₂
      · rw [hunread, frame] at hbytes
        obtain ⟨b, rfl⟩ := List.length_eq_one_iff.1 hsize
        rw [List.singleton_append, List.cons.injEq] at hbytes
        obtain ⟨rfl, hrest⟩ := hbytes
        have hlen : (UInt8.ofNat reply.length).toNat = reply.length :=
          UInt8.toNat_ofNat_of_lt' (by simp only [UInt8.size]; omega)
        simp only [List.headD_cons, hlen, Nat.ne_of_gt hpos, if_false]
        split
        · refine (drainResponse_ensures client reply.length he₂).mono ?_
          intro x s₃ h₃ result client' hx
          rcases h₃ result client' hx with ⟨rfl, dropped, hdrop, hall⟩ | h₃
          · exact ⟨fun hr => absurd hr (by decide), fun _ _ => (read_whole hrest hall hdrop).2⟩
          · exact h₃.exchanged s client'
        · refine ensures_bind.2 ((receiveBytes_ensures client reply.length he₂).mono ?_)
          intro x s₃ h₃
          obtain ⟨-, hreplies₃, h₃⟩ := h₃
          rcases x with _ | ⟨result₃, bytes₃⟩
          · refine ensures_pure.2 ?_
            intro _ _ hx
            cases hx
          · refine ensures_pure.2 ?_
            intro r c hx
            cases hx
            rcases h₃ _ bytes₃ rfl with ⟨rfl, hsize₃, hall⟩ | h₃
            · obtain ⟨rfl, hnone⟩ := read_whole hrest hall hsize₃
              refine ⟨fun _ => ⟨bytes₃, ?_, if_pos rfl, client.store_bytes hp bytes₃⟩,
                fun _ _ => hnone⟩
              rw [hreplies₃, hreplies₂, hreplies]
            · rw [if_neg (by have := h₃.neg; omega)]
              exact h₃.exchanged s _
      · exact absurd h₂.neg (by omega)
    · rename_i hne
      refine ensures_pure.2 ?_
      intro r c hx
      cases hx
      rcases h₂ _ bytes rfl with ⟨hzero, -⟩ | h₂
      · exact absurd hzero hne
      · exact h₂.exchanged s client

theorem squidClientExchange_ensures (client : SquidClient) (requestSize : Nat)
    (hempty : s.up = true → s.unread = []) :
    Ensures (channel mayCancel) (squidClientExchange fuel client requestSize) (fun x s' =>
      ∀ result client', x = some (result, client') → Exchanged mayCancel s s' result client')
      s := by
  have hfail : ∀ result, result < 0 → ∀ s' : Channel, (s'.up = true → s'.unread = []) →
      ∀ client', Exchanged mayCancel s s' result client' := by
    intro result hr s' he client'
    exact ⟨fun h => absurd hr (by omega), fun _ hup => he hup⟩
  rw [squidClientExchange]
  split
  · refine ensures_pure.2 ?_
    intro r c hx
    cases hx
    exact hfail _ (by decide) s hempty client
  · rename_i hargs
    refine ensures_bind.2 (ensures_call.2 fun up s₁ h₁ => ensures_pure.2 ?_)
    obtain ⟨hup, rfl⟩ := h₁
    cases up with
    | false =>
      refine ensures_pure.2 ?_
      intro r c hx
      cases hx
      exact hfail _ (by decide) _ (fun h => absurd h Bool.false_ne_true) client
    | true =>
      have hnone : s.unread = [] := hempty (hup rfl)
      refine ensures_bind.2 (ensures_call.2 fun e s₂ h₂ => ensures_pure.2 ?_)
      obtain ⟨rfl, rfl⟩ := h₂
      refine ensures_bind.2 (ensures_call.2 fun sent s₃ h₃ => ensures_pure.2 ?_)
      cases sent with
      | false =>
        cases h₃
        refine ensures_pure.2 ?_
        intro r c hx
        cases hx
        refine hfail squidClientErrorIo (by decide) _ ?_ _
        intro _
        exact hnone
      | true =>
        obtain ⟨reply, hpos, hmax, rfl⟩ := h₃
        have hpacket : (client.store [UInt8.ofNat requestSize]).packet ≠ none := by
          rw [SquidClient.store_packet, Ne, Option.map_eq_none_iff]
          exact fun h => hargs (.inl h)
        apply receiveResponse_ensures _ hpacket rfl rfl _ hpos hmax
        change s.unread ++ frame reply = frame reply
        rw [hnone, List.nil_append]

/-- Calls that are not cancelled leave nothing of their replies behind. -/
theorem exchanges_ensures (calls : List (SquidClient × Nat))
    (hempty : s.up = true → s.unread = []) :
    Ensures (channel False) (exchanges fuel calls)
      (fun x s' => x = some () → s'.up = true → s'.unread = []) s := by
  induction calls generalizing s with
  | nil => exact ensures_pure.2 fun _ => hempty
  | cons call calls ih =>
    refine ensures_bind.2 ((squidClientExchange_ensures call.1 call.2 hempty).mono ?_)
    intro x s₁ h₁
    rcases x with _ | ⟨result, client⟩
    · exact ensures_pure.2 (fun hx => nomatch hx)
    · exact ih ((h₁ result client rfl).2 id)

end

/-- After any calls that were not cancelled, a call that returns a size has its own reply in
the workspace, whatever the idle callback does during this one. -/
theorem squidClientExchange_ownReply
    (hcalls : Exec (channel False) ⟨up, epoch, [], []⟩ (exchanges fuel calls) s (some ()))
    (hcall : Exec (channel True) s (squidClientExchange fuel client requestSize) s'
      (some (result, client'))) : OwnReply s s' result client' := by
  have hempty := exchanges_ensures calls (fun _ => rfl) _ _ hcalls rfl
  exact (squidClientExchange_ensures client requestSize hempty _ _ hcall _ _ rfl).1

/-- A client with a workspace of four bytes, about to send the request `[b]`. -/
def smallClient (b : UInt8) : SquidClient where
  packet := some [0, b, 0, 0]
  packetCapacity := 3
  idle := true
  room := by simp

/-- The start of a call that sends the request `[b]`. -/
def requestSent (b : UInt8) : List (Event ClientLib) :=
  [⟨.snetLinkIsUp, true⟩, ⟨.snetLinkEpoch, 4⟩, ⟨.squidSend [1, b], true⟩]

/-- The end of a call that gets the reply `[b]` one byte at a time. -/
def replyRead (b : UInt8) : List (Event ClientLib) :=
  [⟨.squidRecv 1, some [1]⟩, ⟨.squidRecv 1, some [b]⟩]

theorem steps_requestSent (mayCancel : Prop) (b reply : UInt8) (replies : List (List UInt8))
    (unread : List UInt8) (hu : Steps (channel mayCancel)
      ⟨true, 4, replies ++ [[reply]], unread ++ [1, reply]⟩ u s') :
    Steps (channel mayCancel) ⟨true, 4, replies, unread⟩ (requestSent b ++ u) s' := by
  refine .cons ⟨fun _ => rfl, rfl⟩ ?_
  refine .cons ⟨rfl, rfl⟩ ?_
  exact .cons ⟨[reply], by simp, by simp, rfl⟩ hu

theorem steps_replyRead (mayCancel : Prop) (b : UInt8) (replies : List (List UInt8))
    (unread : List UInt8) : Steps (channel mayCancel) ⟨true, 4, replies, 1 :: b :: unread⟩
      (replyRead b) ⟨true, 4, replies, unread⟩ := by
  refine .cons ⟨Nat.le_refl 1, _, rfl, rfl⟩ ?_
  exact .cons ⟨Nat.le_refl 1, _, rfl, rfl⟩ (.nil _)

theorem exec_smallClient (b reply : UInt8) (hs : Steps (channel True) s
    (requestSent b ++ replyRead reply) s') (hr : ((squidClientExchange 2 (smallClient b) 1).replay
      (requestSent b ++ replyRead reply)).map (Option.map fun x => (x.1, x.2.bytes 1)) =
        some (some (1, [reply]))) :
    ∃ client', Exec (channel True) s (squidClientExchange 2 (smallClient b) 1) s'
      (some (1, client')) ∧ client'.bytes 1 = [reply] := by
  obtain ⟨x, hx, hmap⟩ := Option.map_eq_some_iff.1 hr
  obtain ⟨⟨result, client'⟩, rfl, hpair⟩ := Option.map_eq_some_iff.1 hmap
  rw [Prod.mk.injEq] at hpair
  obtain ⟨rfl, hbytes⟩ := hpair
  exact ⟨client', exec_of_replay hx hs, hbytes⟩

theorem squidClientExchange_ownReply_second :
    ∃ s s' client', Exec (channel False) ⟨true, 4, [], []⟩ (exchanges 2 [(smallClient 9, 1)]) s
        (some ()) ∧
      Exec (channel True) s (squidClientExchange 2 (smallClient 8) 1) s' (some (1, client')) ∧
      OwnReply s s' 1 client' := by
  have hfirst : (exchanges 2 [(smallClient 9, 1)]).replay (requestSent 9 ++ replyRead 65) =
      some (some ()) := by decide +kernel
  have hcalls := exec_of_replay hfirst
    (steps_requestSent False 9 65 [] [] (steps_replyRead False 65 _ []))
  obtain ⟨client', hcall, -⟩ := exec_smallClient 8 66
    (steps_requestSent True 8 66 [[65]] [] (steps_replyRead True 66 _ [])) (by decide +kernel)
  exact ⟨_, _, client', hcalls, hcall, squidClientExchange_ownReply hcalls hcall⟩

/-- A call that is cancelled before its reply has come leaves the reply to the next call. -/
theorem squidClientExchange_stale_reply :
    ∃ s s' client', Exec (channel True) ⟨true, 4, [], []⟩ (exchanges 2 [(smallClient 9, 1)]) s
        (some ()) ∧
      Exec (channel True) s (squidClientExchange 2 (smallClient 8) 1) s' (some (1, client')) ∧
      s'.replies = [[65], [66]] ∧ client'.bytes 1 = [65] ∧ ¬ OwnReply s s' 1 client' := by
  have hfirst : (exchanges 2 [(smallClient 9, 1)]).replay
      (requestSent 9 ++ [⟨.squidRecv 1, some []⟩, ⟨.idle, true⟩]) = some (some ()) := by
    decide +kernel
  have hcancel : Steps (channel True) ⟨true, 4, [[65]], [1, 65]⟩
      [⟨.squidRecv 1, some []⟩, ⟨.idle, true⟩] ⟨true, 4, [[65]], [1, 65]⟩ := by
    refine .cons ⟨Nat.zero_le 1, _, rfl, rfl⟩ ?_
    exact .cons ⟨fun _ => trivial, rfl⟩ (.nil _)
  have hcalls := exec_of_replay hfirst (steps_requestSent True 9 65 [] [] hcancel)
  obtain ⟨client', hcall, hbytes⟩ := exec_smallClient 8 65
    (steps_requestSent True 8 66 [[65]] [1, 65] (steps_replyRead True 65 _ [1, 66]))
    (by decide +kernel)
  refine ⟨_, _, client', hcalls, hcall, rfl, hbytes, ?_⟩
  intro h
  obtain ⟨reply, hreplies, hlen, hown⟩ := h (by decide)
  have hreply : [66] = reply := by simpa using hreplies
  subst hreply
  rw [List.length_singleton, hbytes] at hown
  exact absurd hown (by decide)

end SquidServer.Client

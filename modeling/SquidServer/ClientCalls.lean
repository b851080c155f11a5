import SquidServer.ClientExchange
import SquidServer.CText
import SquidServer.Wire

namespace SquidServer.Client
open Interaction Framing Wire CText
set_option autoImplicit true

abbrev squidClientReadU16 (bytes : List UInt8) (index : Nat) : UInt16 := readU16 bytes index

abbrev squidClientReadU32 (bytes : List UInt8) (index : Nat) : UInt32 := readU32 bytes index

abbrev squidClientWriteU16 (value : UInt16) : List UInt8 := writeU16 value

abbrev squidClientWriteU32 (value : UInt32) : List UInt8 := writeU32 value

/-- The bytes of a text; NULL has none. -/
def textBytes (text : Option CString) : List UInt8 := text.elim [] CString.bytes

/-- `squid_client_text_size`; NULL counts as empty. -/
def squidClientTextSize (text : Option CString) (maximum : Nat) : Int :=
  if maximum < (textBytes text).length then squidClientErrorArgument else (textBytes text).length

/-- A pointer and a size as a caller passes them; where the pointer is not NULL, that many bytes are
behind it. -/
structure Buffer where
  data : Option (List UInt8)
  size : UInt8
  room : ∀ bytes ∈ data, size.toNat ≤ bytes.length

/-- What `squid_client_copy` takes from a buffer. -/
def Buffer.copied (buffer : Buffer) : List UInt8 := (buffer.data.getD []).take buffer.size.toNat

theorem Buffer.length_copied (buffer : Buffer) (h : buffer.data = none → buffer.size = 0) :
    buffer.copied.length = buffer.size.toNat := by
  rw [Buffer.copied]
  cases hdata : buffer.data with
  | none =>
    rw [h hdata]
    rfl
  | some bytes => exact List.length_take_of_le (buffer.room bytes hdata)

/-- Fill in a request, behind the byte for its size. -/
def SquidClient.fill (client : SquidClient) (request : List UInt8) : SquidClient where
  packet := client.packet.map fun workspace =>
    workspace.take 1 ++ request ++ workspace.drop (1 + request.length)
  packetCapacity := client.packetCapacity
  idle := client.idle
  room := by
    intro workspace hw
    obtain ⟨w, hmem, rfl⟩ := Option.map_eq_some_iff.1 hw
    have hroom := client.room w hmem
    simp only [List.length_append, List.length_take, List.length_drop]
    omega

/-- The part of `squid_client_response` after the exchange: the result, and the size of a response
that is OK. -/
def checkResponse (opcode : UInt8) (minimumSize : Nat) (size : Int) (packet : List UInt8) :
    Int × Nat :=
  if size < 0 then (size, 0)
  else if size < 2 ∨ byteAt packet 0 ≠ opcode ||| 0x80 then (squidClientErrorProtocol, 0)
  else if byteAt packet 1 ≠ 0 then ((byteAt packet 1).toNat, 0)
  else if size < minimumSize then (squidClientErrorProtocol, 0)
  else (0, size.toNat)

def squidClientResponse (fuel : Nat) (client : SquidClient) (requestSize : Nat) (opcode : UInt8)
    (minimumSize : Nat) : Program ClientLib (Option ((Int × Nat) × SquidClient)) := do
  match ← squidClientExchange fuel client requestSize with
  | none => return none
  | some (size, client) =>
    return some (checkResponse opcode minimumSize size (client.bytes size.toNat), client)

/-- The end of a call. `read` gives `none` where the call returns a protocol error. -/
def conclude (read : List UInt8 → Option α) (result : Int) (response : List UInt8) :
    Int × Option α :=
  if result ≠ 0 then (result, none)
  else match read response with
    | none => (squidClientErrorProtocol, none)
    | some value => (0, some value)

/-- What a call returns, and what it has stored through its output pointer. -/
structure Returned (α : Type) where
  result : Int
  value : Option α
  client : Option SquidClient

/-- The course of every call: check the arguments, fill in the request, exchange it for a response
and read that. -/
def transact (fuel : Nat) (client : Option SquidClient) (accepted : Bool) (opcode : UInt8)
    (arguments : List UInt8) (minimumSize : Nat) (read : List UInt8 → Option α) :
    Program ClientLib (Option (Returned α)) :=
  match client with
  | none => return some ⟨squidClientErrorArgument, none, none⟩
  | some client => do
    let request := opcode :: arguments
    if client.packet = none ∨ ¬ accepted ∨ client.packetCapacity < request.length then
      return some ⟨squidClientErrorArgument, none, client⟩
    else
      match ← squidClientResponse fuel (client.fill request) request.length opcode minimumSize with
      | none => return none
      | some (checked, client) =>
        let concluded := conclude read checked.1 (client.bytes checked.2)
        return some ⟨concluded.1, concluded.2, client⟩

/-- A line to a server: the requests it has got, the bytes of its replies that are still to be read,
and how often a receive may still come back empty. -/
structure Line where
  sent : List (List UInt8)
  unread : List UInt8
  stalls : Nat

/-- A line that delivers every request and every reply verbatim, in pieces of any size. `serves`
tells which replies the server may give to a request. -/
def verbatim (serves : List UInt8 → List UInt8 → Prop) (epoch : UInt8) :
    Environment ClientLib Line
  | s, .snetLinkIsUp, up, s' => up = true ∧ s' = s
  | s, .snetLinkEpoch, answer, s' => answer = epoch ∧ s' = s
  | s, .squidSend data, queued, s' => queued = true ∧ ∃ request reply, data = frame request ∧
      serves request reply ∧
      s' = { s with sent := s.sent ++ [request], unread := s.unread ++ frame reply }
  | s, .squidRecv maximum, some bytes, s' => bytes.length ≤ maximum ∧
      ∃ rest, s.unread = bytes ++ rest ∧ s'.sent = s.sent ∧ s'.unread = rest ∧
        s.stalls = s'.stalls + if bytes = [] then 1 else 0
  | _, .squidRecv _, none, _ => False
  | s, .idle, stop, s' => stop = false ∧ s' = s

section
variable {serves : List UInt8 → List UInt8 → Prop} {epoch : UInt8} {s : Line}

theorem waitForProgress_verbatim (client : SquidClient) :
    Ensures (verbatim serves epoch) (waitForProgress client epoch)
      (fun result s' => result = 0 ∧ s' = s) s := by
  have hlink : Ensures (verbatim serves epoch) (checkLink epoch)
      (fun result s' => result = 0 ∧ s' = s) s := by
    refine ensures_bind.2 (ensures_ask fun up s₁ h₁ => ?_)
    obtain ⟨rfl, rfl⟩ := h₁
    refine ensures_bind.2 (ensures_ask fun answer s₂ h₂ => ?_)
    obtain ⟨rfl, rfl⟩ := h₂
    rw [if_pos rfl]
    exact ensures_pure.2 ⟨rfl, rfl⟩
  rw [waitForProgress]
  split
  · refine ensures_bind.2 (ensures_ask fun stop s₁ h₁ => ?_)
    obtain ⟨rfl, rfl⟩ := h₁
    exact hlink
  · exact hlink

/-- What a receive has taken from the line. -/
structure Took (s s' : Line) (bytes : List UInt8) : Prop where
  sent : s'.sent = s.sent
  unread : s.unread = bytes ++ s'.unread
  stalls : s'.stalls ≤ s.stalls

/-- A receive gets all the bytes it asks for: every turn takes a byte or one of the stalls. -/
theorem receiveBytes_verbatim (client : SquidClient) (size : Nat)
    (hfuel : size + s.stalls < fuel) :
    Ensures (verbatim serves epoch) (receiveBytes fuel client size epoch) (fun x s' =>
      ∃ bytes, x = some (0, bytes) ∧ bytes.length = size ∧ Took s s' bytes) s := by
  refine ensures_loop (fun fuel received t => received.length ≤ size ∧ Took s t received ∧
    size - received.length + t.stalls < fuel) ?_ ?_
    ⟨Nat.zero_le _, ⟨rfl, rfl, Nat.le_refl _⟩, by simpa using hfuel⟩
  · rintro received t ⟨-, -, h⟩
    exact absurd h (Nat.not_lt_zero _)
  · rintro fuel received t ⟨hlen, htook, hleft⟩
    split
    · refine ensures_bind.2 (ensures_ask fun answer t₁ h₁ => ?_)
      cases answer with
      | none => exact absurd h₁ id
      | some bytes =>
        obtain ⟨hmax, rest, hunread, hsent, hrest, hstalls⟩ := h₁
        have hlen₁ : (received ++ bytes).length ≤ size := by
          rw [List.length_append]
          omega
        have htook₁ : Took s t₁ (received ++ bytes) := by
          refine ⟨hsent.trans htook.sent, ?_, ?_⟩
          · rw [htook.unread, hunread, hrest, List.append_assoc]
          · have := htook.stalls
            omega
        dsimp only
        split
        · rename_i hall
          exact ensures_pure.2 ⟨_, rfl, hall, htook₁⟩
        · refine ensures_bind.2 ((waitForProgress_verbatim client).mono ?_)
          rintro result t₂ ⟨rfl, rfl⟩
          rw [if_pos rfl]
          refine ensures_pure.2 ⟨hlen₁, htook₁, ?_⟩
          split at hstalls
          · rename_i hempty
            rw [hempty, List.append_nil]
            omega
          · rename_i hmore
            have hpos := List.length_pos_iff.2 hmore
            rw [List.length_append] at hlen₁ ⊢
            omega
    · exact ensures_pure.2 ⟨received, rfl, by omega, htook⟩

theorem Took.trans (h : Took s s₁ bytes) (h' : Took s₁ s₂ bytes') : Took s s₂ (bytes ++ bytes') :=
  ⟨h'.sent.trans h.sent, by rw [h.unread, h'.unread, List.append_assoc], h'.stalls.trans h.stalls⟩

theorem drainResponse_verbatim (client : SquidClient) (hroom : 0 < client.packetCapacity)
    (hfuel : size + s.stalls < fuel) :
    Ensures (verbatim serves epoch) (drainResponse fuel client size epoch) (fun x s' =>
      ∃ client' bytes, x = some (squidClientErrorOverflow, client') ∧ bytes.length = size ∧
        Took s s' bytes) s := by
  refine ensures_bind.2 (Ensures.mono (Q := fun x s' => ∃ client' bytes,
    x = some (some (squidClientErrorOverflow, client')) ∧ bytes.length = size ∧ Took s s' bytes)
    ?_ ?_)
  · refine ensures_loop (fun turns turn t => 0 < turn.2.packetCapacity ∧ turn.1 < turns ∧
      ∃ bytes, bytes.length + turn.1 = size ∧ Took s t bytes) ?_ ?_
      ⟨hroom, by omega, [], Nat.zero_add _, rfl, rfl, Nat.le_refl _⟩
    · rintro turn t ⟨-, h, -⟩
      exact absurd h (Nat.not_lt_zero _)
    · rintro turns ⟨remaining, client₁⟩ t ⟨hroom₁, hturns, bytes, hlen, htook⟩
      dsimp only at hroom₁ hturns hlen ⊢
      split
      · have hstalls := htook.stalls
        have hpart : min remaining client₁.packetCapacity + t.stalls < fuel := by omega
        refine ensures_bind.2 ((receiveBytes_verbatim client₁ _ hpart).mono ?_)
        rintro _ t₁ ⟨part, rfl, hsize, htook₁⟩
        refine ensures_pure.2 ⟨hroom₁, ?_, bytes ++ part, ?_, htook.trans htook₁⟩
        · dsimp only
          omega
        · rw [List.length_append]
          dsimp only
          omega
      · exact ensures_pure.2 ⟨client₁, bytes, rfl, by omega, htook⟩
  · rintro _ t ⟨client', bytes, rfl, hlen, htook⟩
    exact ensures_pure.2 ⟨client', bytes, rfl, hlen, htook⟩

theorem receiveResponse_verbatim (client : SquidClient) (hpacket : client.packet ≠ none)
    (hroom : 0 < client.packetCapacity) (hpos : 0 < reply.length) (hmax : reply.length ≤ 255)
    (hunread : s.unread = frame reply) (hfuel : 256 + s.stalls < fuel) :
    Ensures (verbatim serves epoch) (receiveResponse fuel client epoch) (fun x s' =>
      s'.sent = s.sent ∧ s'.unread = [] ∧ ∃ client',
        x = some (if client.packetCapacity < reply.length then squidClientErrorOverflow
          else reply.length, client') ∧
        (reply.length ≤ client.packetCapacity → client'.bytes reply.length = reply)) s := by
  refine ensures_bind.2 ((receiveBytes_verbatim client 1 (by omega)).mono ?_)
  rintro _ s₁ ⟨bytes, rfl, hone, hsent, hrest, hstalls⟩
  obtain ⟨b, rfl⟩ := List.length_eq_one_iff.1 hone
  rw [hunread, frame, List.singleton_append, List.cons.injEq] at hrest
  obtain ⟨rfl, hrest⟩ := hrest
  have hcount : (UInt8.ofNat reply.length).toNat = reply.length :=
    UInt8.toNat_ofNat_of_lt' (by simp only [UInt8.size]; omega)
  simp only [List.headD_cons, hcount, Nat.ne_of_gt hpos, if_false, if_true]
  split
  · rename_i hover
    refine (drainResponse_verbatim client hroom (by omega)).mono ?_
    rintro _ s₂ ⟨client', bytes, rfl, hlen, hsent₂, hunread₂, -⟩
    refine ⟨hsent₂.trans hsent, (read_whole hrest hunread₂ hlen).2, client', rfl, ?_⟩
    intro hle
    exact absurd hover (Nat.not_lt.2 hle)
  · refine ensures_bind.2 ((receiveBytes_verbatim client reply.length (by omega)).mono ?_)
    rintro _ s₂ ⟨bytes, rfl, hlen, hsent₂, hunread₂, -⟩
    obtain ⟨rfl, hnone⟩ := read_whole hrest hunread₂ hlen
    exact ensures_pure.2 ⟨hsent₂.trans hsent, hnone, _, rfl, fun _ => client.store_bytes hpacket _⟩

theorem SquidClient.fill_frame (client : SquidClient) (hpacket : client.packet ≠ none)
    (request : List UInt8) :
    ((client.fill request).store [UInt8.ofNat request.length]).bytes (request.length + 1) =
      frame request := by
  obtain ⟨workspace, hw⟩ := Option.ne_none_iff_exists'.1 hpacket
  have hroom := client.room workspace hw
  obtain ⟨b, rest, rfl⟩ : ∃ b rest, workspace = b :: rest :=
    List.exists_cons_of_length_pos (Nat.zero_lt_of_lt hroom)
  simp [SquidClient.bytes, SquidClient.store, SquidClient.fill, hw, frame]

theorem squidClientExchange_verbatim (client : SquidClient) (hpacket : client.packet ≠ none)
    (hmax : client.packetCapacity ≤ 255) (hrequest : 0 < request.length)
    (hfits : request.length ≤ client.packetCapacity)
    (hserves : ∀ reply, serves request reply → 0 < reply.length ∧ reply.length ≤ 255)
    (hunread : s.unread = []) (hfuel : 256 + s.stalls < fuel) :
    Ensures (verbatim serves epoch)
      (squidClientExchange fuel (client.fill request) request.length) (fun x s' =>
        ∃ reply client', serves request reply ∧ s'.sent = s.sent ++ [request] ∧ s'.unread = [] ∧
          x = some (if client.packetCapacity < reply.length then squidClientErrorOverflow
            else reply.length, client') ∧
          (reply.length ≤ client.packetCapacity → client'.bytes reply.length = reply)) s := by
  have hfilled : (client.fill request).packet ≠ none := by
    rw [SquidClient.fill, Ne, Option.map_eq_none_iff]
    exact hpacket
  have hcapacity : (client.fill request).packetCapacity = client.packetCapacity := rfl
  have haccepted : ¬ ((client.fill request).packet = none ∨
      (client.fill request).packetCapacity = 0 ∨
      squidClientPacketMax < (client.fill request).packetCapacity ∨ request.length = 0 ∨
      (client.fill request).packetCapacity < request.length) := by
    rw [hcapacity]
    rintro (h | h)
    · exact hfilled h
    · have hlimit : squidClientPacketMax = 255 := rfl
      omega
  rw [squidClientExchange, if_neg haccepted]
  refine ensures_bind.2 (ensures_ask fun up s₁ h₁ => ?_)
  obtain ⟨rfl, rfl⟩ := h₁
  refine ensures_bind.2 (ensures_ask fun answer s₂ h₂ => ?_)
  obtain ⟨rfl, rfl⟩ := h₂
  dsimp only
  rw [client.fill_frame hpacket]
  refine ensures_bind.2 (ensures_ask fun queued s₃ h₃ => ?_)
  obtain ⟨rfl, request', reply, hframe, hreply, rfl⟩ := h₃
  obtain rfl : request = request' := (List.cons.inj hframe).2
  obtain ⟨hpos, hsize⟩ := hserves reply hreply
  have hstored : ((client.fill request).store [UInt8.ofNat request.length]).packet ≠ none := by
    rw [SquidClient.store_packet, Ne, Option.map_eq_none_iff]
    exact hfilled
  rw [if_pos rfl]
  refine (receiveResponse_verbatim _ hstored (Nat.lt_of_lt_of_le hrequest hfits) hpos hsize ?_
    ?_).mono ?_
  · dsimp only
    rw [hunread, List.nil_append]
  · exact hfuel
  · rintro x s' ⟨hsent, hread, client', rfl, hbytes⟩
    exact ⟨reply, client', hreply, hsent, hread, rfl, hbytes⟩

end

/-- What a call makes of a reply: its result, and what it stores. -/
def understand (capacity : Nat) (opcode : UInt8) (minimumSize : Nat)
    (read : List UInt8 → Option α) (reply : List UInt8) : Int × Option α :=
  if capacity < reply.length then (squidClientErrorOverflow, none)
  else
    let checked := checkResponse opcode minimumSize reply.length reply
    conclude read checked.1 (reply.take checked.2)

theorem checkResponse_size (opcode : UInt8) (minimumSize size : Nat) (packet : List UInt8) :
    (checkResponse opcode minimumSize size packet).2 ≤ size := by
  rw [checkResponse]
  repeat' split
  all_goals simp

theorem bytes_eq_take {client : SquidClient} {reply : List UInt8}
    (h : client.bytes reply.length = reply) (hn : n ≤ reply.length) :
    client.bytes n = reply.take n := by
  rw [SquidClient.bytes] at h
  rw [SquidClient.bytes, ← h, List.take_take, Nat.min_eq_left hn]

section
variable {serves : List UInt8 → List UInt8 → Prop} {epoch : UInt8} {s : Line}

theorem transact_verbatim (client : Option SquidClient) (accepted : Bool) (opcode : UInt8)
    (arguments : List UInt8) (minimumSize : Nat) (read : List UInt8 → Option α)
    (hserves : accepted = true → ∀ reply, serves (opcode :: arguments) reply →
      0 < reply.length ∧ reply.length ≤ 255)
    (hunread : s.unread = []) (hfuel : 256 + s.stalls < fuel) :
    Ensures (verbatim serves epoch)
      (transact fuel client accepted opcode arguments minimumSize read) (fun x s' =>
        ∃ client', (x = some ⟨squidClientErrorArgument, none, client'⟩ ∧ s' = s) ∨
          accepted = true ∧ (opcode :: arguments).length ≤ 255 ∧
          ∃ capacity reply, client.map (·.packetCapacity) = some capacity ∧
            serves (opcode :: arguments) reply ∧ s'.sent = s.sent ++ [opcode :: arguments] ∧
            s'.unread = [] ∧
            x = some ⟨(understand capacity opcode minimumSize read reply).1,
              (understand capacity opcode minimumSize read reply).2, client'⟩) s := by
  cases client with
  | none => exact ensures_pure.2 ⟨none, .inl ⟨rfl, rfl⟩⟩
  | some client =>
    rw [transact]
    split
    · exact ensures_pure.2 ⟨some client, .inl ⟨rfl, rfl⟩⟩
    · rename_i haccepted
      simp only [not_or, Decidable.not_not, Nat.not_lt] at haccepted
      obtain ⟨hpacket, haccepted, hfits⟩ := haccepted
      have hrequest : 0 < (opcode :: arguments).length := Nat.zero_lt_succ _
      by_cases hmax : client.packetCapacity ≤ 255
      · refine ensures_bind.2 (ensures_bind.2 ((squidClientExchange_verbatim client hpacket hmax
          hrequest hfits (hserves haccepted) hunread hfuel).mono ?_))
        rintro _ s' ⟨reply, client', hreply, hsent, hread, rfl, hbytes⟩
        refine ensures_pure.2 (ensures_pure.2 ⟨some client', .inr ⟨haccepted, hfits.trans hmax,
          client.packetCapacity, reply, rfl, hreply, hsent, hread, ?_⟩⟩)
        by_cases hroom : client.packetCapacity < reply.length
        · rw [understand, if_pos hroom, if_pos hroom]
          rfl
        · have hpacket := hbytes (Nat.not_lt.1 hroom)
          rw [understand, if_neg hroom, if_neg hroom, Int.toNat_natCast, hpacket]
          rw [bytes_eq_take hpacket (checkResponse_size opcode minimumSize reply.length reply)]
      · have hrefused : squidClientExchange fuel (client.fill (opcode :: arguments))
            (opcode :: arguments).length =
            .pure (some (squidClientErrorArgument, client.fill (opcode :: arguments))) :=
          if_pos (.inr (.inr (.inl (Nat.not_le.1 hmax))))
        dsimp only
        rw [squidClientResponse, hrefused]
        exact ensures_pure.2 ⟨_, .inl ⟨rfl, rfl⟩⟩

end

theorem checkResponse_start {reply : List UInt8} (hstart : reply.take 1 = [opcode ||| 0x80])
    (hlength : 2 ≤ reply.length) (minimumSize : Nat) :
    checkResponse opcode minimumSize reply.length reply =
      if byteAt reply 1 ≠ 0 then (((byteAt reply 1).toNat : Int), 0)
      else if reply.length < minimumSize then (squidClientErrorProtocol, 0)
      else (0, reply.length) := by
  have hfirst : byteAt reply 0 = opcode ||| 0x80 := by
    obtain ⟨b, rest, rfl⟩ := List.exists_cons_of_length_pos (Nat.zero_lt_of_lt hlength)
    exact (List.cons.inj hstart).1
  rw [checkResponse, if_neg (by omega), if_neg]
  · simp only [Int.ofNat_lt, Int.toNat_natCast]
  · rintro (h | h)
    · omega
    · exact h hfirst

theorem understand_status {status : UInt8} (hroom : 2 ≤ capacity) (hstatus : status ≠ 0)
    (opcode : UInt8) (minimumSize : Nat) (read : List UInt8 → Option α) :
    understand capacity opcode minimumSize read [opcode ||| 0x80, status] =
      ((status.toNat : Int), none) := by
  have hresult : (status.toNat : Int) ≠ 0 := by
    intro h
    exact hstatus (UInt8.toNat_inj.1 (Int.ofNat_inj.1 h))
  have hsecond : byteAt [opcode ||| 0x80, status] 1 = status := rfl
  have hstart : [opcode ||| 0x80, status].take 1 = [opcode ||| 0x80] := rfl
  rw [understand, if_neg]
  · simp only [checkResponse_start hstart (Nat.le_refl 2), hsecond, if_pos hstatus]
    rw [conclude, if_pos hresult]
  · exact Nat.not_lt.2 hroom

theorem understand_ok {read : List UInt8 → Option α} (hroom : reply.length ≤ capacity)
    (hstart : reply.take 2 = [opcode ||| 0x80, 0]) (hsize : minimumSize ≤ reply.length)
    (hread : read reply = some value) :
    understand capacity opcode minimumSize read reply = (0, some value) := by
  obtain ⟨body, hreply⟩ : ∃ body, reply = (opcode ||| 0x80) :: 0 :: body :=
    ⟨reply.drop 2, by
      have htake := List.take_append_drop 2 reply
      rw [hstart] at htake
      exact htake.symm⟩
  have hone : reply.take 1 = [opcode ||| 0x80] := by
    rw [hreply]
    rfl
  have hsecond : byteAt reply 1 = 0 := by
    rw [hreply]
    rfl
  have hlength : 2 ≤ reply.length := by
    rw [hreply]
    simp
  rw [understand, if_neg (Nat.not_lt.2 hroom)]
  simp only [checkResponse_start hone hlength, hsecond, ne_eq, not_true_eq_false, if_false,
    if_neg (Nat.not_lt.2 hsize), List.take_length]
  rw [conclude, if_neg (by simp), hread]

/-- A reply is a bare status that is not OK, or what an OK reply is. -/
def Answers (opcode : UInt8) (ok : List UInt8 → Prop) (response : Response) : Prop :=
  ∀ reply, response = some reply →
    (∃ status : UInt8, status ≠ 0 ∧ reply = [opcode ||| 0x80, status]) ∨ ok reply

/-- A call and the server agree. The call refuses its arguments and sends nothing; or the server's
parser recovers what was passed, and where there is room for the reply the call returns its status
and, where that is OK, stores what the reply encodes. -/
def Agrees (serves : List UInt8 → List UInt8 → Prop) (client : Option SquidClient) (s : Line)
    (opcode : UInt8) (recovers : List UInt8 → Prop) (encodes : α → List UInt8 → Prop)
    (x : Option (Returned α)) (s' : Line) : Prop :=
  ∃ returned, x = some returned ∧
    ((returned.result = squidClientErrorArgument ∧ s'.sent = s.sent) ∨
      ∃ request reply, s'.sent = s.sent ++ [request] ∧ serves request reply ∧
        request.head? = some opcode ∧ recovers request ∧
        ∀ c ∈ client, reply.length ≤ c.packetCapacity →
          ∃ status, reply[1]? = some status ∧ returned.result = status.toNat ∧
            (status = 0 → ∃ value, returned.value = some value ∧ encodes value reply))

/-- The rule for a call: what the parser makes of its request, and how it reads the replies that the
server gives. -/
theorem transact_agrees {serves : List UInt8 → List UInt8 → Prop} {s : Line}
    {recovers : List UInt8 → Prop} {encodes : α → List UInt8 → Prop}
    (client : Option SquidClient) {accepted : Bool} {opcode : UInt8} {arguments : List UInt8}
    {minimumSize : Nat} {read : List UInt8 → Option α} (hunread : s.unread = [])
    (hfuel : 256 + s.stalls < fuel)
    (hrecovers : accepted = true → (opcode :: arguments).length ≤ 255 →
      recovers (opcode :: arguments))
    (hanswers : accepted = true → ∀ reply, serves (opcode :: arguments) reply →
      (∃ status : UInt8, status ≠ 0 ∧ reply = [opcode ||| 0x80, status]) ∨
        reply.take 2 = [opcode ||| 0x80, 0] ∧ minimumSize ≤ reply.length ∧ reply.length ≤ 255 ∧
          ∃ value, read reply = some value ∧ encodes value reply) :
    Ensures (verbatim serves epoch)
      (transact fuel client accepted opcode arguments minimumSize read)
      (Agrees serves client s opcode recovers encodes) s := by
  refine (transact_verbatim client accepted opcode arguments minimumSize read ?_ hunread
    hfuel).mono ?_
  · intro haccepted reply hreply
    rcases hanswers haccepted reply hreply with ⟨status, -, rfl⟩ | ⟨hstart, -, hmax, -⟩
    · exact ⟨by simp, by simp⟩
    · refine ⟨List.length_pos_iff.2 ?_, hmax⟩
      rintro rfl
      cases hstart
  · rintro x s' ⟨client', ⟨rfl, rfl⟩ | ⟨haccepted, hlength, capacity, reply, hcapacity, hreply,
      hsent, -, rfl⟩⟩
    · exact ⟨_, rfl, .inl ⟨rfl, rfl⟩⟩
    · refine ⟨_, rfl, .inr ⟨_, reply, hsent, hreply, rfl, hrecovers haccepted hlength, ?_⟩⟩
      rintro c hc hroom
      obtain rfl : capacity = c.packetCapacity := by
        rw [Option.mem_def.1 hc] at hcapacity
        exact (Option.some.inj hcapacity).symm
      rcases hanswers haccepted reply hreply with
        ⟨status, hstatus, rfl⟩ | ⟨hstart, hsize, -, value, hread, hencodes⟩
      · refine ⟨status, rfl, ?_, fun h => absurd h hstatus⟩
        rw [understand_status hroom hstatus]
      · rw [understand_ok hroom hstart hsize hread]
        refine ⟨0, ?_, rfl, fun _ => ⟨value, rfl, hencodes⟩⟩
        have hsecond : (reply.take 2)[1]? = some 0 := by
          rw [hstart]
          rfl
        rwa [List.getElem?_take_of_lt (by decide)] at hsecond

/-- The reply to an operation that reports nothing but its success. -/
def BareReply (opcode : UInt8) (reply : List UInt8) : Prop := reply = [opcode ||| 0x80, 0]

/-- How the calls without a result read a response. -/
def readBare (response : List UInt8) : Option Unit :=
  if response.length = 2 then some () else none

theorem readBare_reply {reply : List UInt8} (h : BareReply opcode reply) :
    reply.take 2 = [opcode ||| 0x80, 0] ∧ 2 ≤ reply.length ∧ reply.length ≤ 255 ∧
      ∃ value, readBare reply = some value ∧ BareReply opcode reply := by
  have hsame : reply = [opcode ||| 0x80, 0] := h
  rw [hsame]
  exact ⟨rfl, Nat.le_refl 2, by simp, (), rfl, rfl⟩

/-- An iterator stores these items one after the other, and then says that there are no more. -/
def Yields (next : σ → Int × Option ε × σ) : σ → List ε → Prop
  | state, [] => (next state).1 = 0
  | state, item :: items => ∃ state', next state = (1, some item, state') ∧ Yields next state' items

theorem yields_items {next : σ → Int × Option ε × σ} (page : UInt8 → List UInt8 → σ)
    {bytes : ε → List UInt8} {P : ε → Prop}
    (hend : (next (page 0 [])).1 = 0)
    (hnext : ∀ left item rest, left ≠ 0 → P item →
      next (page left (bytes item ++ rest)) = (1, some item, page (left - 1) rest))
    (items : List ε) (hitems : ∀ item ∈ items, P item) (hleft : left.toNat = items.length) :
    Yields next (page left (items.flatMap bytes)) items := by
  induction items generalizing left with
  | nil =>
    obtain rfl : left = 0 := UInt8.toNat_inj.1 hleft
    exact hend
  | cons item items ih =>
    have hne : left ≠ 0 := by
      rintro rfl
      cases hleft
    have hone : (1 : UInt8) ≤ left := UInt8.le_iff_toNat_le.2 (by
      rw [hleft]
      exact Nat.succ_pos _)
    refine ⟨_, hnext left item _ hne (hitems item List.mem_cons_self), ?_⟩
    refine ih (fun item' h => hitems item' (List.mem_cons_of_mem item h)) ?_
    rw [UInt8.toNat_sub_of_le _ _ hone, hleft]
    rfl

/-- A call that sends its request and gets the reply whole. -/
def callEvents (request reply : List UInt8) : List (Event ClientLib) :=
  [⟨.snetLinkIsUp, true⟩, ⟨.snetLinkEpoch, 0⟩, ⟨.squidSend (frame request), true⟩,
    ⟨.squidRecv 1, some [UInt8.ofNat reply.length]⟩, ⟨.squidRecv reply.length, some reply⟩]

theorem steps_callEvents {serves : List UInt8 → List UInt8 → Prop} (h : serves request reply)
    (hreply : reply ≠ []) :
    Steps (verbatim serves 0) ⟨[], [], 0⟩ (callEvents request reply) ⟨[request], [], 0⟩ := by
  have hsend : verbatim serves 0 ⟨[], [], 0⟩ (.squidSend (frame request)) true
      ⟨[request], frame reply, 0⟩ := ⟨rfl, request, reply, rfl, h, rfl⟩
  have hsize : verbatim serves 0 ⟨[request], frame reply, 0⟩ (.squidRecv 1)
      (some [UInt8.ofNat reply.length]) ⟨[request], reply, 0⟩ :=
    ⟨Nat.le_refl 1, reply, rfl, rfl, rfl, rfl⟩
  have hbody : verbatim serves 0 ⟨[request], reply, 0⟩ (.squidRecv reply.length) (some reply)
      ⟨[request], [], 0⟩ := by
    refine ⟨Nat.le_refl _, [], (List.append_nil reply).symm, rfl, rfl, ?_⟩
    rw [if_neg hreply]
  exact .cons ⟨rfl, rfl⟩ (.cons ⟨rfl, rfl⟩ (.cons hsend (.cons hsize (.cons hbody (.nil _)))))

theorem not_agrees_of_call {serves : List UInt8 → List UInt8 → Prop}
    {call : Program ClientLib (Option (Returned α))} {recovers : List UInt8 → Prop}
    {encodes : α → List UInt8 → Prop} {client : Option SquidClient} (h : serves request reply)
    (hreply : reply ≠ []) (hcall : call.replay (callEvents request reply) = some x)
    (hresult : x.map Returned.result ≠ some squidClientErrorArgument)
    (hrecovers : ¬ recovers request) :
    ¬ Ensures (verbatim serves 0) call (Agrees serves client ⟨[], [], 0⟩ opcode recovers encodes)
      ⟨[], [], 0⟩ := by
  intro hagrees
  obtain ⟨returned, rfl, ⟨hargument, -⟩ | ⟨request', reply', hsent, -, -, hrecovers', -⟩⟩ :=
    hagrees _ _ (exec_of_replay hcall (steps_callEvents h hreply))
  · rw [Option.map_some, hargument] at hresult
    exact hresult rfl
  · obtain rfl : request' = request := by simpa using hsent.symm
    exact hrecovers hrecovers'

end SquidServer.Client

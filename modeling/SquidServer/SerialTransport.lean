import SquidServer.Posix
import SquidServer.RingBuffer

namespace SquidServer.SerialTransport
open Interaction Posix RingBuffer
set_option autoImplicit true

abbrev serialTransportTxCapacity : Nat := 4096

abbrev pollIn : Nat := 0x01
abbrev pollOut : Nat := 0x04
abbrev pollErr : Nat := 0x08
abbrev pollHup : Nat := 0x10
abbrev pollNval : Nat := 0x20

/-- The line speeds of `termios`. -/
inductive Speed
  | b1200 | b2400 | b4800 | b9600 | b19200 | b38400 | b57600 | b115200
deriving DecidableEq

/-- The rate that a line speed stands for. -/
def Speed.rate : Speed → Int
  | .b1200 => 1200
  | .b2400 => 2400
  | .b4800 => 4800
  | .b9600 => 9600
  | .b19200 => 19200
  | .b38400 => 38400
  | .b57600 => 57600
  | .b115200 => 115200

def mapBaudRate (baud : Int) : Speed :=
  if baud = 1200 then .b1200
  else if baud = 2400 then .b2400
  else if baud = 4800 then .b4800
  else if baud = 9600 then .b9600
  else if baud = 19200 then .b19200
  else if baud = 38400 then .b38400
  else if baud = 57600 then .b57600
  else if baud = 115200 then .b115200
  else .b9600

/-- The transport, as the platform hooks see it. -/
structure ServerSerialTransport where
  fd : Int
  txQueue : Vector UInt8 serialTransportTxCapacity
  txHead : Nat
  txCount : Nat

inductive Call where
  | write (fd : Int) (data : List UInt8)
  | poll (fd : Int) (events : Nat) (timeout : Int)

/-- `poll` gives the returned events, or `none` when the time is over. -/
abbrev Call.Ans : Call → Type
  | .write _ _ => Except Errno Nat
  | .poll _ _ _ => Except Errno (Option Nat)

abbrev Tty : Effect := ⟨Call, Call.Ans⟩

def write (fd : Int) (data : List UInt8) : Program Tty (Except Errno Nat) :=
  .ask (E := Tty) (Call.write fd data)

def poll (fd : Int) (events : Nat) (timeout : Int) : Program Tty (Except Errno (Option Nat)) :=
  .ask (E := Tty) (Call.poll fd events timeout)

/-- `serial_send_char` with the active transport, which may be `NULL`. -/
def serialSendChar (activeTransport : Option ServerSerialTransport) (c : UInt8) :
    Int × Option ServerSerialTransport :=
  match activeTransport with
  | none => (-1, none)
  | some transport =>
    if serialTransportTxCapacity ≤ transport.txCount then (-1, some transport)
    else
      let tail := Fin.ofNat serialTransportTxCapacity (transport.txHead + transport.txCount)
      (0, some { transport with
        txQueue := transport.txQueue.set tail.val c tail.isLt
        txCount := transport.txCount + 1 })

/-- `flush_output` and what it leaves in the transport; `none` when the loop is cut off, which it
is after `fuel` turns. -/
def flushOutput : Nat → ServerSerialTransport → Program Tty (Option Int × ServerSerialTransport)
  | 0, transport => return (none, transport)
  | fuel + 1, transport =>
    if transport.txCount = 0 then return (some 0, { transport with txHead := 0 })
    else do
      let contiguous :=
        if transport.txCount < serialTransportTxCapacity - transport.txHead then transport.txCount
        else serialTransportTxCapacity - transport.txHead
      match ← write transport.fd ((transport.txQueue.toList.drop transport.txHead).take contiguous)
        with
      | .ok written =>
        if 0 < written then
          flushOutput fuel { transport with
            txHead := (transport.txHead + written) % serialTransportTxCapacity
            txCount := transport.txCount - written }
        else return (some (-1), transport)
      | .error e =>
        if e = .eintr then flushOutput fuel transport
        else if e = .eagain then return (some 0, transport)
        else return (some (-1), transport)

/-- The turns of the loop over `poll`; `none` when it is cut off. -/
def pollTurn (fd : Int) (events : Nat) (timeoutMs : Int) :
    Program Tty (Unit ⊕ Except Errno (Option Nat)) := do
  match ← poll fd events timeoutMs with
  | .error e => if e = .eintr then return .inl () else return .inr (.error e)
  | .ok result => return .inr (.ok result)

def serialTransportWait (fuel : Nat) (transport : ServerSerialTransport) (timeoutMs : Int) :
    Program Tty (Option Int × ServerSerialTransport) := do
  if transport.fd < 0 then return (some (-1), transport)
  else
    let events := if transport.txCount ≠ 0 then pollIn ||| pollOut else pollIn
    match ← Program.loop (fun _ => pollTurn transport.fd events timeoutMs) fuel () with
    | none => return (none, transport)
    | some (.error _) => return (some (-1), transport)
    | some (.ok none) => return (some 0, transport)
    | some (.ok (some revents)) =>
      if revents &&& pollOut ≠ 0 then
        match ← flushOutput fuel transport with
        | (none, transport) => return (none, transport)
        | (some result, transport) =>
          if result ≠ 0 then return (some (-1), transport)
          else if revents &&& (pollErr ||| pollHup ||| pollNval) ≠ 0 then
            return (some (-1), transport)
          else return (some 1, transport)
      else if revents &&& (pollErr ||| pollHup ||| pollNval) ≠ 0 then return (some (-1), transport)
      else return (some 1, transport)

/-- The kernel, by the bytes it has accepted: a `write` may take any number of the bytes it is
offered, or fail and take none. -/
def ttyKernel : Environment Tty (List UInt8) := fun accepted op =>
  match op with
  | .write _ data => fun answer accepted' =>
    match answer with
    | .ok n => n ≤ data.length ∧ accepted' = accepted ++ data.take n
    | .error _ => accepted' = accepted
  | .poll _ _ _ => fun _ accepted' => accepted' = accepted

/-- The queue lies within its cells. -/
structure ServerSerialTransport.Valid (transport : ServerSerialTransport) : Prop where
  head : transport.txHead < serialTransportTxCapacity
  count : transport.txCount ≤ serialTransportTxCapacity

/-- The bytes that wait in the queue, the oldest first. -/
def ServerSerialTransport.queued (transport : ServerSerialTransport) : List UInt8 :=
  contents transport.txQueue transport.txHead transport.txCount

section
variable {transport : ServerSerialTransport}

theorem serialSendChar_full (h : transport.txCount = serialTransportTxCapacity) (c : UInt8) :
    serialSendChar (some transport) c = (-1, some transport) := by
  rw [serialSendChar, if_pos (Nat.le_of_eq h.symm)]

theorem serialSendChar_room (hv : transport.Valid)
    (h : transport.txCount ≠ serialTransportTxCapacity) (c : UInt8) :
    ∃ transport', serialSendChar (some transport) c = (0, some transport') ∧ transport'.Valid ∧
      transport'.queued = transport.queued ++ [c] := by
  have hroom : transport.txCount < serialTransportTxCapacity := Nat.lt_of_le_of_ne hv.count h
  rw [serialSendChar, if_neg (Nat.not_le.2 hroom)]
  exact ⟨_, rfl, ⟨hv.head, hroom⟩, contents_set transport.txQueue hroom c⟩

theorem queued_written (hv : transport.Valid)
    (hk : k ≤ transport.txCount) (hfit : k ≤ serialTransportTxCapacity - transport.txHead)
    (hn : n ≤ ((transport.txQueue.toList.drop transport.txHead).take k).length) :
    ((transport.txQueue.toList.drop transport.txHead).take k).take n ++
      contents transport.txQueue ((transport.txHead + n) % serialTransportTxCapacity)
        (transport.txCount - n) = transport.queued := by
  have hhead := hv.head
  have hnk : n ≤ k := by
    rw [List.length_take] at hn
    omega
  rw [contents_drop, List.take_take, Nat.min_eq_left hnk,
    ← contents_take transport.txQueue (hnk.trans hk) (by omega)]
  exact List.take_append_drop n transport.queued

/-- Flushing moves bytes from the queue to the kernel, whatever the writes do and wherever the
loop has got to. -/
theorem flushOutput_ensures (fuel : Nat) (hv : transport.Valid) :
    Ensures ttyKernel (flushOutput fuel transport) (fun result accepted' =>
      result.2.Valid ∧ accepted' ++ result.2.queued = accepted ++ transport.queued) accepted := by
  induction fuel generalizing transport accepted with
  | zero => exact ensures_pure.2 ⟨hv, rfl⟩
  | succ fuel ih =>
    rw [flushOutput]
    split
    · rename_i hempty
      have hv' : { transport with txHead := 0 }.Valid := ⟨Nat.zero_lt_succ _, hv.count⟩
      refine ensures_pure.2 ⟨hv', ?_⟩
      dsimp only [ServerSerialTransport.queued]
      rw [hempty, contents_zero, contents_zero]
    · generalize hk : (if transport.txCount < serialTransportTxCapacity - transport.txHead then
        transport.txCount else serialTransportTxCapacity - transport.txHead) = k
      have hcount : k ≤ transport.txCount ∧ k ≤ serialTransportTxCapacity - transport.txHead := by
        rw [← hk]
        split <;> omega
      dsimp only
      rw [Program.bind_eq, ensures_bind, write]
      apply ensures_ask
      intro answer accepted' hwrite
      cases answer with
      | ok written =>
        obtain ⟨hwritten, rfl⟩ := hwrite
        dsimp only
        split
        · have hmoved := queued_written hv hcount.1 hcount.2 hwritten
          have hv' : (⟨transport.fd, transport.txQueue,
              (transport.txHead + written) % serialTransportTxCapacity,
              transport.txCount - written⟩ : ServerSerialTransport).Valid :=
            ⟨Nat.mod_lt _ (by decide), (Nat.sub_le _ _).trans hv.count⟩
          refine (ih hv').mono ?_
          rintro result accepted' ⟨hvalid, hsame⟩
          refine ⟨hvalid, ?_⟩
          rw [hsame, ← hmoved, List.append_assoc]
          rfl
        · rename_i hzero
          obtain rfl : written = 0 := by omega
          rw [List.take_zero, List.append_nil]
          exact ensures_pure.2 ⟨hv, rfl⟩
      | error e =>
        obtain rfl : accepted' = accepted := hwrite
        dsimp only
        split
        · exact ih hv
        · split
          · exact ensures_pure.2 ⟨hv, rfl⟩
          · exact ensures_pure.2 ⟨hv, rfl⟩

theorem serialTransportWait_ensures (fuel : Nat) (hv : transport.Valid) (timeoutMs : Int) :
    Ensures ttyKernel (serialTransportWait fuel transport timeoutMs) (fun result accepted' =>
      result.2.Valid ∧ accepted' ++ result.2.queued = accepted ++ transport.queued) accepted := by
  rw [serialTransportWait]
  split
  · exact ensures_pure.2 ⟨hv, rfl⟩
  · rw [Program.bind_eq, ensures_bind]
    have hpoll : ∀ events, Ensures ttyKernel
        (Program.loop (fun _ => pollTurn transport.fd events timeoutMs) fuel ())
        (fun _ accepted' => accepted' = accepted) accepted := by
      intro events
      refine ensures_loop (fun _ _ accepted' => accepted' = accepted) (fun _ _ h => h) ?_ rfl
      rintro n ⟨⟩ _ rfl
      rw [pollTurn, Program.bind_eq, ensures_bind, poll]
      apply ensures_ask
      rintro answer _ rfl
      cases answer with
      | ok result => exact ensures_pure.2 rfl
      | error e =>
        dsimp only
        split <;> exact ensures_pure.2 rfl
    refine (hpoll _).mono ?_
    rintro result _ rfl
    split
    · exact ensures_pure.2 ⟨hv, rfl⟩
    · exact ensures_pure.2 ⟨hv, rfl⟩
    · exact ensures_pure.2 ⟨hv, rfl⟩
    · split
      · rw [Program.bind_eq, ensures_bind]
        refine (flushOutput_ensures fuel hv).mono ?_
        rintro ⟨result, transport'⟩ accepted' hflush
        cases result with
        | none => exact ensures_pure.2 hflush
        | some result =>
          dsimp only
          split
          · exact ensures_pure.2 hflush
          · split <;> exact ensures_pure.2 hflush
      · split <;> exact ensures_pure.2 ⟨hv, rfl⟩

end

/-- The transport, the bytes that `serial_send_char` has taken since it was opened, and those that
the kernel has accepted. -/
structure Link where
  transport : ServerSerialTransport
  sent : List UInt8
  accepted : List UInt8

/-- The states that the calls on the active transport reach. A loop of `serial_transport_wait` or
`flush_output` may be looked at after any number of turns. -/
inductive Reachable : Link → Prop
  | opened (fd : Int) (txQueue : Vector UInt8 serialTransportTxCapacity) :
      Reachable ⟨⟨fd, txQueue, 0, 0⟩, [], []⟩
  | send {transport' : ServerSerialTransport} (h : Reachable link) (c : UInt8)
      (hsend : serialSendChar (some link.transport) c = (result, some transport')) :
      Reachable ⟨transport', if result = 0 then link.sent ++ [c] else link.sent, link.accepted⟩
  | flush (h : Reachable link) (fuel : Nat)
      (hflush : Exec ttyKernel link.accepted (flushOutput fuel link.transport) accepted'
        (result, transport')) : Reachable ⟨transport', link.sent, accepted'⟩
  | wait (h : Reachable link) (fuel : Nat) (timeoutMs : Int)
      (hwait : Exec ttyKernel link.accepted (serialTransportWait fuel link.transport timeoutMs)
        accepted' (result, transport')) : Reachable ⟨transport', link.sent, accepted'⟩

theorem Reachable.invariant (h : Reachable link) :
    link.transport.Valid ∧ link.sent = link.accepted ++ link.transport.queued := by
  induction h with
  | opened fd txQueue => exact ⟨⟨Nat.zero_lt_succ _, Nat.zero_le _⟩, rfl⟩
  | @send link result transport' _ c hsend ih =>
    obtain ⟨hv, hsent⟩ := ih
    by_cases hfull : link.transport.txCount = serialTransportTxCapacity
    · rw [serialSendChar_full hfull] at hsend
      cases hsend
      exact ⟨hv, hsent⟩
    · obtain ⟨next, hnext, hvalid, hqueued⟩ := serialSendChar_room hv hfull c
      rw [hnext] at hsend
      cases hsend
      refine ⟨hvalid, ?_⟩
      dsimp only
      rw [if_pos rfl, hqueued, hsent, List.append_assoc]
  | flush _ fuel hflush ih =>
    obtain ⟨hvalid, hsame⟩ := flushOutput_ensures fuel ih.1 _ _ hflush
    exact ⟨hvalid, ih.2.trans hsame.symm⟩
  | wait _ fuel timeoutMs hwait ih =>
    obtain ⟨hvalid, hsame⟩ := serialTransportWait_ensures fuel ih.1 timeoutMs _ _ hwait
    exact ⟨hvalid, ih.2.trans hsame.symm⟩

/-- The transmit queue loses, repeats and reorders nothing, and refuses a byte just when it is
full. -/
theorem serial_queue_fifo (h : Reachable link) :
    link.transport.txHead < 4096 ∧ link.transport.txCount ≤ 4096 ∧
      link.sent = link.accepted ++ link.transport.queued ∧
        ∀ c, ((serialSendChar (some link.transport) c).1 ≠ 0 ↔
            link.transport.queued.length = 4096) ∧
          ((serialSendChar (some link.transport) c).1 ≠ 0 →
            serialSendChar (some link.transport) c = (-1, some link.transport)) := by
  obtain ⟨hv, hsent⟩ := h.invariant
  refine ⟨hv.head, hv.count, hsent, ?_⟩
  intro c
  rw [ServerSerialTransport.queued, length_contents]
  by_cases hfull : link.transport.txCount = serialTransportTxCapacity
  · rw [serialSendChar_full hfull]
    exact ⟨iff_of_true (show (-1 : Int) ≠ 0 by decide) hfull, fun _ => rfl⟩
  · obtain ⟨next, hnext, -, -⟩ := serialSendChar_room hv hfull c
    rw [hnext]
    exact ⟨iff_of_false (fun h => h rfl) hfull, fun h => absurd rfl h⟩

/-- A transport with two bytes in its queue. -/
def twoQueued : ServerSerialTransport :=
  ⟨3, ((Vector.replicate 4096 0).set 0 0x41).set 1 0x42, 0, 2⟩

/-- Two bytes are queued, and a short write takes the first of them. -/
theorem serial_queue_fifo_shortWrite : ∃ link, Reachable link ∧ link.sent = [0x41, 0x42] ∧
    link.accepted = [0x41] ∧ link.transport.queued = [0x42] ∧
    (serialSendChar (some link.transport) 0x43).1 = 0 := by
  have hfirst := Reachable.send (.opened 3 (Vector.replicate 4096 0)) 0x41 rfl
  have hsecond : Reachable ⟨twoQueued, [0x41, 0x42], []⟩ := .send hfirst 0x42 rfl
  have htaken : ttyKernel [] (.write 3 [0x41, 0x42]) (.ok 1) [0x41] := ⟨by decide, rfl⟩
  have hrefused : ttyKernel [0x41] (.write 3 [0x42]) (.error .eagain) [0x41] := rfl
  have hflush : Exec ttyKernel [] (flushOutput 2 twoQueued) [0x41]
      (some 0, { twoQueued with txHead := 1, txCount := 1 }) :=
    .call htaken (.call hrefused (.pure _ _))
  have hlink := Reachable.flush hsecond 2 hflush
  obtain ⟨-, -, hsent, hroom⟩ := serial_queue_fifo hlink
  have hqueued : [0x42] = { twoQueued with txHead := 1, txCount := 1 }.queued :=
    (List.cons.inj hsent).2
  refine ⟨_, hlink, rfl, rfl, hqueued.symm, ?_⟩
  by_contra hfull
  have hlength := (hroom 0x43).1.1 hfull
  dsimp only at hlength
  rw [← hqueued] at hlength
  cases hlength

end SquidServer.SerialTransport

import SquidServer.ClientWire
import SquidServer.Z80

namespace SquidServer.ClientZ80
open Z80 Client
set_option autoImplicit true

abbrev clientFd : UInt16 := 0
abbrev clientPacket : UInt16 := 2
abbrev clientCapacity : UInt16 := 4
abbrev clientIdle : UInt16 := 6
abbrev clientContext : UInt16 := 8

abbrev localEpoch : UInt16 := 0
abbrev localSize : UInt16 := 1
abbrev localDest : UInt16 := 2
abbrev localRemaining : UInt16 := 4
abbrev localBytes : UInt16 := 5

abbrev errorArgument : UInt16 := -1
abbrev errorLink : UInt16 := -2
abbrev errorIo : UInt16 := -3
abbrev errorProtocol : UInt16 := -4
abbrev errorOverflow : UInt16 := -5
abbrev errorCancelled : UInt16 := -6

/-- The global symbols `client.s` calls. -/
inductive Symbol where
  | squidSend
  | squidRecv
  | snetLinkIsUp
  | snetLinkEpoch
  | sdccCallBc

/-- The labels of `client.s`, and one for each comment that opens a part of
`_squid_client_exchange`. -/
inductive Label where
  | alive
  | aliveLink
  | aliveDown
  | receiveRetry
  | receiveWait
  | receiveError
  | exchange
  | validate
  | sendRequest
  | receiveLength
  | checkLength
  | bodyLoop
  | overflowDrain
  | overflowLoop
  | argumentFrame
  | linkError
  | ioError
  | protocolError
  | overflowError
  | finish
  | argument

abbrev Code := List (Instr Label Symbol)

/-- `squid_client_alive`: return 0 while the transaction may continue, otherwise a client
error. -/
def aliveCode : Code :=
  [.op (.ldIndexed .l .ix clientIdle),
    .op (.ldIndexed .h .ix (clientIdle + 1)),
    .op (.ld .a .h),
    .op (.orA .l),
    .jump .z .aliveLink,
    .op (.ld .b .h),
    .op (.ld .c .l),
    .op (.ldIndexed .l .ix clientContext),
    .op (.ldIndexed .h .ix (clientContext + 1)),
    .callExt .sdccCallBc,
    .op (.ld .a .d),
    .op (.orA .e),
    .jump .z .aliveLink,
    .op (.ldPair .de errorCancelled),
    .ret]

def aliveLinkCode : Code :=
  [.callExt .snetLinkIsUp,
    .op (.orA .a),
    .jump .z .aliveDown,
    .callExt .snetLinkEpoch,
    .op (.cpIndexed .iy localEpoch),
    .jump .nz .aliveDown,
    .op (.ldPair .de 0),
    .ret]

def aliveDownCode : Code :=
  [.op (.ldPair .de errorLink),
    .ret]

/-- `squid_client_receive_one`: receive one byte at `LOCAL_DEST`, advancing that pointer on
success. -/
def receiveRetryCode : Code :=
  [.op (.ldIndexed .e .iy localDest),
    .op (.ldIndexed .d .iy (localDest + 1)),
    .op (.ldPair .bc 1),
    .op (.push .bc),
    .op (.ldIndexed .l .ix clientFd),
    .op (.ldIndexed .h .ix (clientFd + 1)),
    .callExt .squidRecv,
    .op (.bit7 .d),
    .jump .nz .receiveError,
    .op (.ld .a .d),
    .op (.orA .e),
    .jump .z .receiveWait,
    .op (.ldIndexed .l .iy localDest),
    .op (.ldIndexed .h .iy (localDest + 1)),
    .op (.incPair .hl),
    .op (.stIndexed .iy localDest .l),
    .op (.stIndexed .iy (localDest + 1) .h),
    .op (.ldPair .de 0),
    .ret]

section
/- The addresses behind the calls of subroutines, as the linker gave them. -/
variable (site : Nat → UInt16)

def receiveWaitCode : Code :=
  [.call (site 0) .alive,
    .op (.ld .a .d),
    .op (.orA .e),
    .jump .z .receiveRetry,
    .ret]

def receiveErrorCode : Code :=
  [.op (.ldPair .de errorIo),
    .ret]

/-- `_squid_client_exchange`, up to the frame it makes. -/
def exchangeCode : Code :=
  [.op (.ld .a .h),
    .op (.orA .l),
    .jump .z .argument,
    .op (.push .ix),
    .op (.push .iy),
    .op (.push .hl),
    .op (.pop .ix),
    .op (.ldPair .hl (-localBytes)),
    .op (.addSp .hl),
    .op (.ldSp .hl),
    .op (.ldPair .iy 0),
    .op (.addSp .iy),
    .next .validate]

/-- Validate workspace, capacity 1..255, and request 1..capacity. -/
def validateCode : Code :=
  [.op (.ldIndexed .l .ix clientPacket),
    .op (.ldIndexed .h .ix (clientPacket + 1)),
    .op (.ld .a .h),
    .op (.orA .l),
    .jump .z .argumentFrame,
    .op (.ldIndexed .a .ix (clientCapacity + 1)),
    .op (.orA .a),
    .jump .nz .argumentFrame,
    .op (.ldIndexed .a .ix clientCapacity),
    .op (.orA .a),
    .jump .z .argumentFrame,
    .op (.ld .a .d),
    .op (.orA .a),
    .jump .nz .argumentFrame,
    .op (.ld .a .e),
    .op (.orA .a),
    .jump .z .argumentFrame,
    .op (.ld .b .a),
    .op (.ldIndexed .a .ix clientCapacity),
    .op (.cp .b),
    .jump .c .argumentFrame,
    .op (.stIndexed .iy localRemaining .b),
    .callExt .snetLinkIsUp,
    .op (.orA .a),
    .jump .z .linkError,
    .callExt .snetLinkEpoch,
    .op (.stIndexed .iy localEpoch .a),
    .next .sendRequest]

/-- Prefix the in-place request and enqueue it in one atomic send. -/
def sendRequestCode : Code :=
  [.op (.ldIndexed .l .ix clientPacket),
    .op (.ldIndexed .h .ix (clientPacket + 1)),
    .op (.ldIndexed .a .iy localRemaining),
    .op (.stHl .a),
    .op (.ld .c .a),
    .op (.ldImm .b 0),
    .op (.incPair .bc),
    .op (.push .bc),
    .op .exDeHl,
    .op (.ldIndexed .l .ix clientFd),
    .op (.ldIndexed .h .ix (clientFd + 1)),
    .callExt .squidSend,
    .op (.bit7 .d),
    .jump .nz .ioError,
    .next .receiveLength]

/-- Read the one-byte response length. -/
def receiveLengthCode : Code :=
  [.op (.push .iy),
    .op (.pop .hl),
    .op (.incPair .hl),
    .op (.stIndexed .iy localDest .l),
    .op (.stIndexed .iy (localDest + 1) .h),
    .call (site 1) .receiveRetry,
    .op (.ld .a .d),
    .op (.orA .e),
    .jump .nz .finish,
    .op (.ldIndexed .a .iy localSize),
    .op (.orA .a),
    .jump .z .protocolError,
    .next .checkLength]

/-- The caller controls the workspace size. Oversized replies are drained so the next
transaction still starts on a packet boundary. -/
def checkLengthCode : Code :=
  [.op (.ld .b .a),
    .op (.ldIndexed .a .ix clientCapacity),
    .op (.cp .b),
    .jump .c .overflowDrain,
    .op (.stIndexed .iy localRemaining .b),
    .op (.ldIndexed .l .ix clientPacket),
    .op (.ldIndexed .h .ix (clientPacket + 1)),
    .op (.stIndexed .iy localDest .l),
    .op (.stIndexed .iy (localDest + 1) .h),
    .next .bodyLoop]

def bodyLoopCode : Code :=
  [.call (site 2) .receiveRetry,
    .op (.ld .a .d),
    .op (.orA .e),
    .jump .nz .finish,
    .op (.decIndexed .iy localRemaining),
    .jump .nz .bodyLoop,
    .op (.ldIndexed .e .iy localSize),
    .op (.ldImm .d 0),
    .jump .always .finish]

def overflowDrainCode : Code :=
  [.op (.stIndexed .iy localRemaining .b),
    .next .overflowLoop]

def overflowLoopCode : Code :=
  [.op (.ldIndexed .l .ix clientPacket),
    .op (.ldIndexed .h .ix (clientPacket + 1)),
    .op (.stIndexed .iy localDest .l),
    .op (.stIndexed .iy (localDest + 1) .h),
    .call (site 3) .receiveRetry,
    .op (.ld .a .d),
    .op (.orA .e),
    .jump .nz .finish,
    .op (.decIndexed .iy localRemaining),
    .jump .nz .overflowLoop,
    .jump .always .overflowError]

/-- An error exit from inside the frame. -/
def errorCode (error : UInt16) : Code :=
  [.op (.ldPair .de error),
    .jump .always .finish]

def finishCode : Code :=
  [.op (.ldSp .iy),
    .op (.ldPair .hl localBytes),
    .op (.addSp .hl),
    .op (.ldSp .hl),
    .op (.pop .iy),
    .op (.pop .ix),
    .ret]

def argumentCode : Code :=
  [.op (.ldPair .de errorArgument),
    .ret]

/-- `client.s`, behind its labels. -/
def code : Label → Code
  | .alive => aliveCode
  | .aliveLink => aliveLinkCode
  | .aliveDown => aliveDownCode
  | .receiveRetry => receiveRetryCode
  | .receiveWait => receiveWaitCode site
  | .receiveError => receiveErrorCode
  | .exchange => exchangeCode
  | .validate => validateCode
  | .sendRequest => sendRequestCode
  | .receiveLength => receiveLengthCode site
  | .checkLength => checkLengthCode
  | .bodyLoop => bodyLoopCode site
  | .overflowDrain => overflowDrainCode
  | .overflowLoop => overflowLoopCode site
  | .argumentFrame => errorCode errorArgument
  | .linkError => errorCode errorLink
  | .ioError => errorCode errorIo
  | .protocolError => errorCode errorProtocol
  | .overflowError => [.op (.ldPair .de errorOverflow), .next .finish]
  | .finish => finishCode
  | .argument => argumentCode

end

/-- Where the objects of a call are: `struct squid_client`, the workspace of `room` bytes, and
the stack bytes from `bottom` on; and the socket and the idle callback of the client. -/
structure Layout where
  client : UInt16
  packet : UInt16
  room : Nat
  bottom : UInt16
  fd : UInt16
  idle : UInt16

/-- An address lies in the block of `n` bytes at `base`. -/
abbrev InBlock (base : UInt16) (n : Nat) (a : UInt16) : Prop := (a - base).toNat < n

/-- How far an address is above the bottom of the stack bytes. There are 17 of them: 15 below
the return address of the call, and that address. -/
abbrev Layout.offset (lay : Layout) (a : UInt16) : Nat := (a - lay.bottom).toNat

/-- The memory of a call that must survive when its stack is used from offset `k` on. -/
def Layout.Live (lay : Layout) (k : Nat) (a : UInt16) : Prop :=
  InBlock lay.client 10 a ∨ InBlock lay.packet lay.room a ∨
    (k ≤ lay.offset a ∧ lay.offset a < 17)

instance (lay : Layout) (k : Nat) : DecidablePred (lay.Live k) := fun a =>
  inferInstanceAs (Decidable (InBlock lay.client 10 a ∨ InBlock lay.packet lay.room a ∨
    (k ≤ lay.offset a ∧ lay.offset a < 17)))

/-- The client structure, the workspace and the stack do not overlap. -/
structure Layout.Apart (lay : Layout) : Prop where
  client : ∀ a, lay.offset a < 17 → ¬ InBlock lay.client 10 a
  packet : ∀ a, lay.offset a < 17 → ¬ InBlock lay.packet lay.room a
  both : ∀ a, InBlock lay.client 10 a → ¬ InBlock lay.packet lay.room a

/-- The wire, and what the coming calls of external functions leave in the registers and the
memory that are theirs to change. -/
structure World where
  wire : SocketView
  junk : Nat → Cpu

def World.next (w : World) (wire : SocketView) : World := ⟨wire, fun i => w.junk (i + 1)⟩

/-- The state after an external function that pops `args` bytes of arguments: it keeps IX and IY
and the memory of its caller. -/
def leave (lay : Layout) (s : Cpu) (args : UInt16) (w : World) : Cpu :=
  { w.junk 0 with
    ix := s.ix
    iy := s.iy
    sp := s.sp + args
    mem := fun a =>
      if lay.Live (lay.offset (s.sp + args)) a then s.mem a else (w.junk 0).mem a }

/-- The external functions, called as `sdcccall(1)` has it: word arguments in HL and DE and then
on the stack, byte results in A and word results in DE. The wire is that of the client's own
socket, and its idle callback returns 0. -/
def external (lay : Layout) : Symbol → Cpu → World → Cpu × World
  | .snetLinkIsUp, s, w =>
    ({ leave lay s 0 w with
      a := if w.wire.up then (if (w.junk 0).a = 0 then 1 else (w.junk 0).a) else 0 },
      w.next w.wire)
  | .snetLinkEpoch, s, w => ({ leave lay s 0 w with a := w.wire.epoch }, w.next w.wire)
  | .squidSend, s, w =>
    if s.hl = lay.fd then
      ({ leave lay s 2 w with
        d := UInt8.ofNat ((w.junk 0).d.toNat % 128 + if w.wire.sends then 0 else 128) },
        w.next (w.wire.send (s.mem.read s.de (s.mem.loadWord s.sp).toNat)))
    else (leave lay s 2 w, w.next w.wire)
  | .squidRecv, s, w =>
    if s.hl = lay.fd then
      let maximum := (s.mem.loadWord s.sp).toNat
      let bytes := w.wire.unread.take (w.wire.count maximum)
      ({ leave lay s 2 w with
        d := high (UInt16.ofNat bytes.length)
        e := low (UInt16.ofNat bytes.length)
        mem := (leave lay s 2 w).mem.write s.de bytes },
        w.next (w.wire.recv maximum))
    else (leave lay s 2 w, w.next w.wire)
  | .sdccCallBc, s, w =>
    if s.bc = lay.idle then ({ leave lay s 0 w with d := 0, e := 0 }, w.next w.wire)
    else (leave lay s 0 w, w.next w.wire)

/-- Memory that agrees where it must. -/
def Layout.Same (lay : Layout) (k : Nat) (m m' : Memory) : Prop := ∀ a, lay.Live k a → m' a = m a

section
variable {lay : Layout} {m m' m'' : Memory} {s : Cpu} {w : World}

theorem Layout.Live.mono (h : lay.Live k a) (hk : j ≤ k) : lay.Live j a := by
  rcases h with h | h | ⟨h, hlt⟩
  · exact .inl h
  · exact .inr (.inl h)
  · exact .inr (.inr ⟨Nat.le_trans hk h, hlt⟩)

theorem Layout.Same.trans (h : lay.Same k m m') (h' : lay.Same k m' m'') : lay.Same k m m'' :=
  fun a ha => (h' a ha).trans (h a ha)

theorem Layout.Same.mono (h : lay.Same j m m') (hk : j ≤ k) : lay.Same k m m' :=
  fun a ha => h a (ha.mono hk)

@[simp] theorem Layout.offset_add (lay : Layout) (d : UInt16) :
    lay.offset (lay.bottom + d) = d.toNat := by
  rw [Layout.offset, UInt16.add_comm, UInt16.add_sub_cancel]

theorem Layout.Apart.same_store (h : lay.Apart) (m : Memory) (v : UInt8) (hd : d.toNat < k)
    (hk : k ≤ 17) : lay.Same k m (m.store (lay.bottom + d) v) := by
  intro a ha
  rw [Memory.store, if_neg]
  rintro rfl
  have hoff := lay.offset_add d
  rcases ha with ha | ha | ⟨ha, -⟩
  · exact h.client _ (by omega) ha
  · exact h.packet _ (by omega) ha
  · omega

theorem Layout.Apart.same_storeWord (h : lay.Apart) (m : Memory) (v : UInt16) (d : UInt16)
    (hd : d.toNat + 1 < k) (hk : k ≤ 17) : lay.Same k m (m.storeWord (lay.bottom + d) v) := by
  have hsucc : (d + 1).toNat = d.toNat + 1 := by
    rw [UInt16.toNat_add]
    exact Nat.mod_eq_of_lt (by simp only [UInt16.reduceToNat]; omega)
  refine Layout.Same.trans (h.same_store m (low v) (d := d) (by omega) hk) ?_
  rw [Memory.storeWord, UInt16.add_assoc]
  exact h.same_store _ _ (by omega) hk

theorem leave_same (hsp : lay.offset (s.sp + args) ≤ k) :
    lay.Same k s.mem (leave lay s args w).mem := by
  intro a ha
  exact if_pos (ha.mono hsp)

/-- Inside the frame, with the stack pointer at offset `k`. -/
structure At (lay : Layout) (k : UInt16) (s : Cpu) : Prop where
  ix : s.ix = lay.client
  iy : s.iy = lay.bottom + 6
  sp : s.sp = lay.bottom + k

theorem At.push {lay : Layout} {s : Cpu} (h : At lay (k + 2) s) (v : UInt16) :
    At lay k (s.push v) where
  ix := h.ix
  iy := h.iy
  sp := by
    change s.sp - 2 = _
    rw [h.sp, ← UInt16.add_assoc, UInt16.add_sub_cancel]

theorem At.field {lay : Layout} {s : Cpu} (h : At lay k s) (m : Memory) (d : UInt16) :
    word (m (s.ix + (d + 1))) (m (s.ix + d)) = m.loadWord (lay.client + d) := by
  rw [h.ix, Memory.loadWord, UInt16.add_assoc]

theorem At.local {lay : Layout} {s : Cpu} (h : At lay k s) (m : Memory) (d : UInt16) :
    word (m (s.iy + (d + 1))) (m (s.iy + d)) = m.loadWord (lay.bottom + (6 + d)) := by
  rw [h.iy, Memory.loadWord, UInt16.add_assoc, UInt16.add_assoc, UInt16.add_assoc,
    UInt16.add_assoc]

/-- What the transaction relies on in memory while it waits. -/
structure Ready (lay : Layout) (w : SocketView) (m : Memory) : Prop where
  up : w.up = true
  epoch : m (lay.bottom + 6) = w.epoch
  fd : m.loadWord (lay.client + clientFd) = lay.fd
  idle : m.loadWord (lay.client + clientIdle) = lay.idle

theorem live_client (lay : Layout) (k : Nat) (hd : d.toNat < 10) : lay.Live k (lay.client + d) := by
  refine .inl ?_
  rw [InBlock, UInt16.add_comm, UInt16.add_sub_cancel]
  exact hd

theorem live_stack (lay : Layout) (hk : k ≤ d.toNat) (hd : d.toNat < 17) :
    lay.Live k (lay.bottom + d) := by
  refine .inr (.inr ?_)
  rw [lay.offset_add]
  exact ⟨hk, hd⟩

theorem Layout.Same.loadWord (h : lay.Same k m m') (ha : lay.Live k a) (ha' : lay.Live k (a + 1)) :
    m'.loadWord a = m.loadWord a := by
  rw [Memory.loadWord, Memory.loadWord, h a ha, h (a + 1) ha']

theorem Layout.Same.clientWord (h : lay.Same k m m') (d : UInt16) (hd : d.toNat < 10)
    (hd' : (d + 1).toNat < 10) : m'.loadWord (lay.client + d) = m.loadWord (lay.client + d) := by
  apply h.loadWord (live_client lay k hd)
  rw [UInt16.add_assoc]
  exact live_client lay k hd'

theorem Layout.Same.stackWord (h : lay.Same k m m') (d : UInt16) (hd : k ≤ d.toNat)
    (hd' : d.toNat + 1 < 17) :
    m'.loadWord (lay.bottom + d) = m.loadWord (lay.bottom + d) := by
  have hsucc : (d + 1).toNat = d.toNat + 1 := by
    rw [UInt16.toNat_add]
    exact Nat.mod_eq_of_lt (by simp only [UInt16.reduceToNat]; omega)
  apply h.loadWord (live_stack lay hd (by omega))
  rw [UInt16.add_assoc]
  exact live_stack lay (by omega) (by omega)

theorem Ready.same {wire : SocketView} (hr : Ready lay wire m) (h : lay.Same k m m') (hk : k ≤ 6) :
    Ready lay wire m' where
  up := hr.up
  epoch := (h _ (live_stack lay (d := 6) hk (by decide))).trans hr.epoch
  fd := (h.clientWord clientFd (by decide) (by decide)).trans hr.fd
  idle := (h.clientWord clientIdle (by decide) (by decide)).trans hr.idle

variable {site : Nat → UInt16} {Q : UInt16 → Cpu → World → Prop} {bound : Nat} {live : Prop}
  {is : Code}

/-- A call puts its return address below the caller's part of the stack. -/
theorem does_callAt (hA : lay.Apart) (hat : At lay (k + 2) s) (hk : k.toNat < 15)
    (h : ∀ s', At lay k s' → s'.mem.loadWord (lay.bottom + k) = r →
      lay.Same (k.toNat + 2) s.mem s'.mem → Does (external lay) (code site) bound live
        (code site l) s' w (fun back s' w' =>
          back = r ∧ Does (external lay) (code site) bound live is s' w' Q)) :
    Does (external lay) (code site) bound live (.call r l :: is) s w Q := by
  have hsp : s.sp - 2 = lay.bottom + k := (hat.push r).sp
  apply does_call
  apply h _ (hat.push r)
  · change (s.mem.storeWord (s.sp - 2) r).loadWord (lay.bottom + k) = r
    rw [hsp, Memory.loadWord_storeWord]
  · change lay.Same _ s.mem (s.mem.storeWord (s.sp - 2) r)
    rw [hsp]
    exact hA.same_storeWord s.mem r k (by omega) (by omega)

theorem does_snetLinkIsUp (hat : At lay k s)
    (h : ∀ s' w', At lay k s' → lay.Same k.toNat s.mem s'.mem → w'.wire = w.wire →
      (s'.a = 0 ↔ w.wire.up = false) → Does (external lay) (code site) bound live is s' w' Q) :
    Does (external lay) (code site) bound live (.callExt .snetLinkIsUp :: is) s w Q := by
  apply does_ext
  apply h
  · exact ⟨hat.ix, hat.iy, (UInt16.add_zero _).trans hat.sp⟩
  · apply leave_same
    rw [UInt16.add_zero, hat.sp, lay.offset_add]
  · rfl
  · cases hup : w.wire.up with
    | false => simp [external, hup]
    | true =>
      simp only [external, hup, if_true]
      split <;> simp [*]

theorem does_snetLinkEpoch (hat : At lay k s)
    (h : ∀ s' w', At lay k s' → lay.Same k.toNat s.mem s'.mem → w'.wire = w.wire →
      s'.a = w.wire.epoch → Does (external lay) (code site) bound live is s' w' Q) :
    Does (external lay) (code site) bound live (.callExt .snetLinkEpoch :: is) s w Q := by
  apply does_ext
  apply h
  · exact ⟨hat.ix, hat.iy, (UInt16.add_zero _).trans hat.sp⟩
  · apply leave_same
    rw [UInt16.add_zero, hat.sp, lay.offset_add]
  · rfl
  · rfl

theorem does_sdccCallBc (hat : At lay k s) (hbc : s.bc = lay.idle)
    (h : ∀ s' w', At lay k s' → lay.Same k.toNat s.mem s'.mem → w'.wire = w.wire →
      s'.d = 0 → s'.e = 0 → Does (external lay) (code site) bound live is s' w' Q) :
    Does (external lay) (code site) bound live (.callExt .sdccCallBc :: is) s w Q := by
  apply does_ext
  rw [external, if_pos hbc]
  apply h
  · exact ⟨hat.ix, hat.iy, (UInt16.add_zero _).trans hat.sp⟩
  · apply leave_same
    rw [UInt16.add_zero, hat.sp, lay.offset_add]
  · rfl
  · rfl
  · rfl

theorem aliveLink_does (hat : At lay 2 s) (hr : Ready lay w.wire s.mem)
    (h : ∀ s' w', At lay 4 s' → s'.d = 0 → s'.e = 0 → lay.Same 2 s.mem s'.mem →
      w'.wire = w.wire → Q (s.mem.loadWord (lay.bottom + 2)) s' w') :
    Does (external lay) (code site) bound live aliveLinkCode s w Q := by
  refine does_snetLinkIsUp hat fun s₁ w₁ hat₁ hsame₁ hw₁ ha₁ => ?_
  apply does_op
  apply does_notTaken
  · have hne : s₁.a ≠ 0 := fun hz => Bool.false_ne_true ((ha₁.1 hz).symm.trans hr.up)
    simpa using hne
  refine does_snetLinkEpoch ⟨hat₁.ix, hat₁.iy, hat₁.sp⟩ fun s₂ w₂ hat₂ hsame₂ hw₂ ha₂ => ?_
  have hsame : lay.Same 2 s.mem s₂.mem := hsame₁.trans hsame₂
  have hwire : w₂.wire = w.wire := hw₂.trans hw₁
  apply does_op
  apply does_notTaken
  · have hepoch : s₂.mem (s₂.iy + localEpoch) = s₂.a := by
      rw [hat₂.iy, UInt16.add_zero, (hr.same hsame (by decide)).epoch, ha₂, hw₁]
    simp only [Cond.holds, Op.exec, Cpu.index, Cpu.compare, hepoch, decide_true, Bool.not_true]
  apply does_op
  apply does_ret
  have hback : s₂.mem.loadWord s₂.sp = s.mem.loadWord (lay.bottom + 2) := by
    rw [hat₂.sp]
    exact hsame.stackWord 2 (by decide) (by decide)
  change Q (s₂.mem.loadWord s₂.sp) _ w₂
  rw [hback]
  refine h _ _ ⟨hat₂.ix, hat₂.iy, ?_⟩ rfl rfl hsame hwire
  change s₂.sp + 2 = _
  rw [hat₂.sp, UInt16.add_assoc]
  rfl

theorem alive_does (hat : At lay 2 s) (hr : Ready lay w.wire s.mem)
    (h : ∀ s' w', At lay 4 s' → s'.d = 0 → s'.e = 0 → lay.Same 2 s.mem s'.mem →
      w'.wire = w.wire → Q (s.mem.loadWord (lay.bottom + 2)) s' w') :
    Does (external lay) (code site) bound live aliveCode s w Q := by
  have hidle : word (s.mem (s.ix + (clientIdle + 1))) (s.mem (s.ix + clientIdle)) = lay.idle :=
    (hat.field s.mem clientIdle).trans hr.idle
  iterate 4 apply does_op
  by_cases hnull : lay.idle = 0
  · apply does_taken
    · simp only [Cond.holds, Op.exec, Cpu.setReg, Cpu.reg, Cpu.index, or_eq_zero_iff, hidle, hnull,
        decide_true]
    exact aliveLink_does ⟨hat.ix, hat.iy, hat.sp⟩ hr h
  · apply does_notTaken
    · simp only [Cond.holds, Op.exec, Cpu.setReg, Cpu.reg, Cpu.index, or_eq_zero_iff, hidle, hnull,
        decide_false]
    iterate 4 apply does_op
    refine does_sdccCallBc ⟨hat.ix, hat.iy, hat.sp⟩ hidle fun s₁ w₁ hat₁ hsame₁ hw₁ hd he => ?_
    iterate 2 apply does_op
    apply does_taken
    · simp [hd, he]
    refine aliveLink_does ⟨hat₁.ix, hat₁.iy, hat₁.sp⟩ ?_ fun s₂ w₂ hat₂ hd₂ he₂ hsame₂ hw₂ => ?_
    · rw [hw₁]
      exact hr.same hsame₁ (by decide)
    · have hback : s₁.mem.loadWord (lay.bottom + 2) = s.mem.loadWord (lay.bottom + 2) :=
        Layout.Same.stackWord hsame₁ 2 (by decide) (by decide)
      change Q (s₁.mem.loadWord (lay.bottom + 2)) s₂ w₂
      rw [hback]
      exact h s₂ w₂ hat₂ hd₂ he₂ (hsame₁.trans hsame₂) (hw₂.trans hw₁)

theorem does_squidRecv (hat : At lay 2 s) (hfd : s.hl = lay.fd)
    (hmax : s.mem.loadWord (lay.bottom + 2) = 1)
    (hnone : w.wire.unread.take (w.wire.count 1) = [] → ∀ s' w', At lay 4 s' →
      lay.Same 4 s.mem s'.mem → w'.wire = w.wire.recv 1 → s'.d = 0 → s'.e = 0 →
      Does (external lay) (code site) bound live is s' w' Q)
    (hone : ∀ b, w.wire.unread.take (w.wire.count 1) = [b] → ∀ s' w', At lay 4 s' →
      lay.Same 4 (s.mem.store s.de b) s'.mem → w'.wire = w.wire.recv 1 → s'.d = 0 → s'.e = 1 →
      Does (external lay) (code site) bound live is s' w' Q) :
    Does (external lay) (code site) bound live (.callExt .squidRecv :: is) s w Q := by
  have hsp : s.sp + 2 = lay.bottom + 4 := by
    rw [hat.sp, UInt16.add_assoc]
    rfl
  have hleave : lay.Same 4 s.mem (leave lay s 2 w).mem := by
    apply leave_same
    rw [hsp, lay.offset_add]
    decide
  have hlen : (w.wire.unread.take (w.wire.count 1)).length ≤ 1 := by
    rw [List.length_take, SocketView.count]
    omega
  apply does_ext
  rw [external, if_pos hfd, hat.sp, hmax]
  cases hbytes : w.wire.unread.take (w.wire.count 1) with
  | nil =>
    have hzero : w.wire.unread.take (w.wire.count (UInt16.toNat 1)) = [] := hbytes
    refine hnone hbytes _ _ ⟨hat.ix, hat.iy, hsp⟩ ?_ rfl ?_ ?_
    · simp only [hzero]
      exact hleave
    · simp only [hzero]
      rfl
    · simp only [hzero]
      rfl
  | cons b rest =>
    have hrest : rest = [] := by
      rw [hbytes] at hlen
      simpa using hlen
    subst hrest
    have hbyte : w.wire.unread.take (w.wire.count (UInt16.toNat 1)) = [b] := hbytes
    refine hone b hbytes _ _ ⟨hat.ix, hat.iy, hsp⟩ ?_ rfl ?_ ?_
    · simp only [hbyte]
      intro a ha
      change (if a = s.de then b else _) = if a = s.de then b else _
      rw [hleave a ha]
    · simp only [hbyte, List.length_singleton]
      decide
    · simp only [hbyte, List.length_singleton]
      decide

/-- The places a byte may be received at. -/
def Slot (lay : Layout) (p : UInt16) : Prop := InBlock lay.packet lay.room p ∨ p = lay.bottom + 7

/-- At the start of `squid_client_receive_one`, which is to return to `r`, with destination `p`. -/
structure Waiting (lay : Layout) (r p : UInt16) (wire : SocketView) (s : Cpu) : Prop where
  inside : At lay 4 s
  ready : Ready lay wire s.mem
  back : s.mem.loadWord (lay.bottom + 4) = r
  dest : s.mem.loadWord (lay.bottom + 8) = p

/-- After `squid_client_receive_one` has stored the byte `b` at `p`, in memory `m`. -/
structure Received (lay : Layout) (p : UInt16) (b : UInt8) (m : Memory) (s : Cpu) : Prop where
  inside : At lay 6 s
  d : s.d = 0
  e : s.e = 0
  byte : s.mem p = b
  dest : s.mem.loadWord (lay.bottom + 8) = p + 1
  others : ∀ a, lay.Live 6 a → a ≠ p → lay.offset a ≠ 8 → lay.offset a ≠ 9 → s.mem a = m a

theorem Waiting.same (h : Waiting lay r p wire s) (hat : At lay 4 s')
    (hm : lay.Same 4 s.mem s'.mem) (hup : wire'.up = wire.up) (he : wire'.epoch = wire.epoch) :
    Waiting lay r p wire' s' where
  inside := hat
  ready := by
    have hr := h.ready.same hm (by decide)
    exact ⟨hup.trans hr.up, hr.epoch.trans he.symm, hr.fd, hr.idle⟩
  back := (hm.stackWord 4 (by decide) (by decide)).trans h.back
  dest := (hm.stackWord 8 (by decide) (by decide)).trans h.dest

theorem Slot.isLive (hp : Slot lay p) (hk : k ≤ 7) : lay.Live k p := by
  rcases hp with hp | rfl
  · exact .inr (.inl hp)
  · exact live_stack lay (d := 7) hk (by decide)

/-- A slot is none of the places that `squid_client_receive_one` itself works with. -/
theorem Slot.offset (hp : Slot lay p) (hA : lay.Apart) : lay.offset p = 7 ∨ 17 ≤ lay.offset p := by
  rcases hp with hp | rfl
  · refine .inr (Nat.le_of_not_lt fun hlt => ?_)
    exact hA.packet p hlt hp
  · exact .inl (lay.offset_add 7)

theorem Slot.stack_ne (hp : Slot lay p) (hA : lay.Apart) (d : UInt16) (hd : d.toNat < 17)
    (h7 : d.toNat ≠ 7) : lay.bottom + d ≠ p := by
  rintro rfl
  have hoff := hp.offset hA
  rw [lay.offset_add] at hoff
  omega

theorem Slot.stackWord (hp : Slot lay p) (hA : lay.Apart)
    (h : ∀ a, lay.Live k a → a ≠ p → m' a = m a) (d : UInt16) (hk : k ≤ d.toNat)
    (hd : d.toNat + 1 < 17) (h7 : d.toNat ≠ 7) (h6 : d.toNat ≠ 6) :
    m'.loadWord (lay.bottom + d) = m.loadWord (lay.bottom + d) := by
  have hsucc : (d + 1).toNat = d.toNat + 1 := by
    rw [UInt16.toNat_add]
    exact Nat.mod_eq_of_lt (by simp only [UInt16.reduceToNat]; omega)
  rw [Memory.loadWord, Memory.loadWord, UInt16.add_assoc,
    h _ (live_stack lay hk (by omega)) (hp.stack_ne hA d (by omega) h7),
    h _ (live_stack lay (by omega) (by omega)) (hp.stack_ne hA (d + 1) (by omega) (by omega))]

theorem receiveWait_turn (hA : lay.Apart) (hw : Waiting lay r p w.wire s)
    (hagain : ∀ s' w', Waiting lay r p w'.wire s' → lay.Same 4 s.mem s'.mem → w'.wire = w.wire →
      Does (external lay) (code site) bound live receiveRetryCode s' w' Q) :
    Does (external lay) (code site) (bound + 1) live (receiveWaitCode site) s w Q := by
  refine does_callAt (k := 2) hA hw.inside (by decide) fun s₁ hat₁ hback hsame₁ => ?_
  refine alive_does hat₁ (hw.ready.same hsame₁ (by decide))
    fun s₂ w₂ hat₂ hd hz hsame₂ hw₂ => ⟨hback, ?_⟩
  have hsame : lay.Same 4 s.mem s₂.mem := Layout.Same.trans hsame₁ (hsame₂.mono (by decide))
  iterate 2 apply does_op
  apply does_jump
  · simp [hd, hz]
  refine hagain _ w₂ ?_ hsame hw₂
  rw [hw₂]
  exact hw.same ⟨hat₂.ix, hat₂.iy, hat₂.sp⟩ hsame rfl rfl

theorem Layout.dest_other (lay : Layout) (m : Memory) (v : UInt16) {a : UInt16}
    (h8 : lay.offset a ≠ 8) (h9 : lay.offset a ≠ 9) : m.storeWord (lay.bottom + 8) v a = m a := by
  apply Memory.storeWord_other
  · rintro rfl
    exact h8 (lay.offset_add 8)
  · rintro rfl
    rw [UInt16.add_assoc] at h9
    exact h9 (lay.offset_add 9)

theorem Layout.dest_back (lay : Layout) (m : Memory) (v : UInt16) :
    (m.storeWord (lay.bottom + 8) v).loadWord (lay.bottom + 4) = m.loadWord (lay.bottom + 4) := by
  rw [Memory.loadWord, Memory.loadWord, UInt16.add_assoc,
    lay.dest_other m v (by rw [lay.offset_add]; decide) (by rw [lay.offset_add]; decide),
    lay.dest_other m v (by rw [lay.offset_add]; decide) (by rw [lay.offset_add]; decide)]

theorem receiveRetry_turn (hA : lay.Apart) (hp : Slot lay p) (hw : Waiting lay r p w.wire s)
    (hagain : w.wire.unread.take (w.wire.count 1) = [] → ∀ s' w',
      Waiting lay r p w'.wire s' → lay.Same 4 s.mem s'.mem → w'.wire = w.wire.recv 1 →
      Does (external lay) (code site) bound live receiveRetryCode s' w' Q)
    (hdone : ∀ b s' w', w.wire.unread.take (w.wire.count 1) = [b] →
      Received lay p b s.mem s' → w'.wire = w.wire.recv 1 → Q r s' w') :
    Does (external lay) (code site) (bound + 1) live receiveRetryCode s w Q := by
  have hat := hw.inside
  have hsp : s.sp - 2 = lay.bottom + 2 := (At.push (k := 2) hat 1).sp
  have hpush : lay.Same 4 s.mem (s.mem.storeWord (s.sp - 2) 1) := by
    rw [hsp]
    exact hA.same_storeWord s.mem 1 2 (by decide) (by decide)
  iterate 6 apply does_op
  simp only [Op.exec, Cpu.setReg, Cpu.index, Cpu.setPair, Cpu.push, Cpu.pair, Cpu.bc,
    word_high_low]
  refine does_squidRecv ⟨hat.ix, hat.iy, hsp⟩ ?_ ?_ ?_ ?_
  · exact (hat.field _ clientFd).trans (hw.ready.same hpush (by decide)).fd
  · change (s.mem.storeWord (s.sp - 2) 1).loadWord (lay.bottom + 2) = 1
    rw [hsp, Memory.loadWord_storeWord]
  · intro hnone s₁ w₁ hat₁ hsame₁ hw₁ hd hz
    have hsame : lay.Same 4 s.mem s₁.mem := hpush.trans hsame₁
    have hwait : Waiting lay r p w₁.wire s₁ := by
      rw [hw₁]
      exact hw.same hat₁ hsame rfl rfl
    apply does_op
    apply does_notTaken
    · simp [hd]
    iterate 2 apply does_op
    apply does_taken
    · simp [hd, hz]
    refine receiveWait_turn (r := r) (p := p) hA ?_ fun s₂ w₂ hwait₂ hsame₂ hw₂ => ?_
    · exact ⟨⟨hat₁.ix, hat₁.iy, hat₁.sp⟩, hwait.ready, hwait.back, hwait.dest⟩
    · exact hagain hnone s₂ w₂ hwait₂ (hsame.trans hsame₂) (hw₂.trans hw₁)
  · intro b hb s₁ w₁ hat₁ hsame₁ hw₁ hd he
    have hp' : word (s.mem (s.iy + (localDest + 1))) (s.mem (s.iy + localDest)) = p :=
      (hat.local s.mem localDest).trans hw.dest
    have hsame₂ : lay.Same 4 ((s.mem.storeWord (s.sp - 2) 1).store p b) s₁.mem := by
      rw [← hp']
      exact hsame₁
    have hbyte : s₁.mem p = b := (hsame₂ p (hp.isLive (by decide))).trans (Memory.store_same _ _ _)
    have hother : ∀ a, lay.Live 4 a → a ≠ p → s₁.mem a = s.mem a := by
      intro a ha hne
      rw [hsame₂ a ha, Memory.store_other _ _ hne, hpush a ha]
    apply does_op
    apply does_notTaken
    · simp [hd]
    iterate 2 apply does_op
    apply does_notTaken
    · simp [hd, he]
    iterate 6 apply does_op
    apply does_ret
    have hdest : s₁.mem.loadWord (lay.bottom + 8) = p :=
      (hp.stackWord hA hother 8 (by decide) (by decide) (by decide) (by decide)).trans hw.dest
    have hback : s₁.mem.loadWord (lay.bottom + 4) = r :=
      (hp.stackWord hA hother 4 (by decide) (by decide) (by decide) (by decide)).trans hw.back
    have hmem : (s₁.mem.store (s₁.iy + localDest) (low (p + 1))).store
        (s₁.iy + (localDest + 1)) (high (p + 1)) = s₁.mem.storeWord (lay.bottom + 8) (p + 1) := by
      rw [hat₁.iy, Memory.storeWord, UInt16.add_assoc, UInt16.add_assoc, UInt16.add_assoc]
      rfl
    simp only [Op.exec, Cpu.setReg, Cpu.index, Cpu.setPair, Cpu.pair, Cpu.hl, Cpu.reg,
      (hat₁.local s₁.mem localDest).trans hdest, hmem]
    have hret : (s₁.mem.storeWord (lay.bottom + 8) (p + 1)).loadWord s₁.sp = r := by
      rw [hat₁.sp, lay.dest_back, hback]
    rw [hret]
    refine hdone b _ w₁ hb ?_ hw₁
    exact {
      inside := ⟨hat₁.ix, hat₁.iy, by
        change s₁.sp + 2 = _
        rw [hat₁.sp, UInt16.add_assoc]
        rfl⟩
      d := rfl
      e := rfl
      byte := by
        have hoff := hp.offset hA
        exact (lay.dest_other _ _ (by omega) (by omega)).trans hbyte
      dest := Memory.loadWord_storeWord _ _ _
      others := by
        intro a ha hne h8 h9
        exact (lay.dest_other _ _ h8 h9).trans (hother a (ha.mono (by decide)) hne) }

theorem Received.same (h : Received lay p b m' s) (hm : lay.Same 4 m m') :
    Received lay p b m s where
  inside := h.inside
  d := h.d
  e := h.e
  byte := h.byte
  dest := h.dest
  others := fun a ha hne h8 h9 =>
    (h.others a ha hne h8 h9).trans (hm a (ha.mono (by decide)))

/-- However often it has to wait, a receive that returns has stored the next byte. -/
theorem receiveOne_safe (hA : lay.Apart) (hp : Slot lay p) (hw : Waiting lay r p w.wire s)
    (h : ∀ b s' w', Received lay p b s.mem s' → w.wire.Reads [b] w'.wire → Q r s' w') :
    Does (external lay) (code site) bound False receiveRetryCode s w Q := by
  induction bound generalizing s w with
  | zero => exact does_zero
  | succ bound ih =>
    have hread := w.wire.reads_recv 1
    refine receiveRetry_turn hA hp hw ?_ ?_
    · intro hnone s₁ w₁ hw₁ hsame hwire
      rw [hnone, ← hwire] at hread
      refine ih hw₁ fun b s₂ w₂ hrecv hread₂ => ?_
      exact h b s₂ w₂ (hrecv.same hsame) (hread.trans hread₂)
    · intro b s₁ w₁ hb hrecv hwire
      rw [hb, ← hwire] at hread
      exact h b s₁ w₁ hrecv hread

theorem receiveOne_returns (hA : lay.Apart) (hp : Slot lay p) (hw : Waiting lay r p w.wire s)
    (hf : Fair w.wire.sizes) (hmore : w.wire.unread ≠ [])
    (h : ∀ b s' w', Received lay p b s.mem s' → w.wire.Reads [b] w'.wire → Q r s' w') :
    Does (external lay) (code site) 0 True receiveRetryCode s w Q := by
  have hdone : ∀ (w : World) (s : Cpu), (∀ b s' w', Received lay p b s.mem s' →
      w.wire.Reads [b] w'.wire → Q r s' w') → ∀ b s' w', w.wire.unread.take (w.wire.count 1) = [b] →
        Received lay p b s.mem s' → w'.wire = w.wire.recv 1 → Q r s' w' := by
    intro w s h b s' w' hb hrecv hwire
    have hread := w.wire.reads_recv 1
    rw [hb, ← hwire] at hread
    exact h b s' w' hrecv hread
  obtain ⟨k, hk, hbefore⟩ := hf.first
  induction k generalizing s w with
  | zero =>
    refine (receiveRetry_turn hA hp hw ?_ (hdone w s h)).weaken
    intro hnone
    obtain ⟨b, rest, hunread⟩ := List.exists_cons_of_ne_nil hmore
    have hcount : w.wire.count 1 = 1 := by
      rw [SocketView.count]
      omega
    rw [hcount, hunread] at hnone
    cases hnone
  | succ k ih =>
    refine (receiveRetry_turn hA hp hw ?_ (hdone w s h)).weaken
    intro hnone s₁ w₁ hw₁ hsame hwire
    have hread := w.wire.reads_recv 1
    rw [hnone, ← hwire] at hread
    refine ih hw₁ (hread.fair hf) ?_ ?_ ?_ ?_
    · rw [hread.unread] at hmore
      exact hmore
    · intro b s₂ w₂ hrecv hread₂
      exact h b s₂ w₂ (hrecv.same hsame) (hread.trans hread₂)
    · rw [hwire]
      exact hk
    · intro i hi
      rw [hwire]
      exact hbefore (i + 1) (Nat.succ_lt_succ hi)

theorem receiveOne_does (hA : lay.Apart) (hp : Slot lay p) (hw : Waiting lay r p w.wire s)
    (hlive : live → Fair w.wire.sizes ∧ w.wire.unread ≠ [])
    (h : ∀ b s' w', Received lay p b s.mem s' → w.wire.Reads [b] w'.wire → Q r s' w') :
    Does (external lay) (code site) bound live receiveRetryCode s w Q := by
  apply Does.of_parts
  · exact receiveOne_safe hA hp hw h
  · intro hl
    obtain ⟨hf, hmore⟩ := hlive hl
    exact receiveOne_returns hA hp hw hf hmore h

end

end SquidServer.ClientZ80

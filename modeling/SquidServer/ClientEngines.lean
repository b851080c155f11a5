import SquidServer.ClientZ80

namespace SquidServer.ClientZ80
open Z80 Client
set_option autoImplicit true

/-- A word as a signed 16-bit integer. -/
def signed (w : UInt16) : Int := if w.toNat < 32768 then w.toNat else w.toNat - 65536

theorem signed_byte (b : UInt8) : signed (word 0 b) = b.toNat := by
  have hlt := b.toNat_lt
  have hword : (word 0 b).toNat = b.toNat := by
    rw [toNat_word, UInt8.toNat_zero]
    omega
  rw [signed, hword, if_pos (by omega)]

/-- The addresses an exchange never writes to once its frame is made: the client structure, the
saved registers and the return address. -/
def Anchor (lay : Layout) (a : UInt16) : Prop :=
  InBlock lay.client 10 a ∨ (11 ≤ lay.offset a ∧ lay.offset a < 17)

/-- Memory in which the frame of a call from `s₀` has been made. -/
structure Based (lay : Layout) (s₀ : Cpu) (base : Memory) : Prop where
  fd : base.loadWord (lay.client + clientFd) = lay.fd
  packet : base.loadWord (lay.client + clientPacket) = lay.packet
  idle : base.loadWord (lay.client + clientIdle) = lay.idle
  iy : base.loadWord (lay.bottom + 11) = s₀.iy
  ix : base.loadWord (lay.bottom + 13) = s₀.ix
  back : base.loadWord (lay.bottom + 15) = s₀.mem.loadWord s₀.sp
  sp : s₀.sp = lay.bottom + 15

/-- In the body of an exchange. -/
structure Framed (lay : Layout) (base : Memory) (s : Cpu) : Prop where
  inside : At lay 6 s
  kept : ∀ a, Anchor lay a → s.mem a = base a

section
variable {lay : Layout} {s₀ s s' : Cpu} {base : Memory} {w : World} {site : Nat → UInt16}
  {Q : UInt16 → Cpu → World → Prop} {bound : Nat} {live : Prop} {is : Code}

theorem anchor_client (lay : Layout) (hd : d.toNat < 10) : Anchor lay (lay.client + d) := by
  refine .inl ?_
  rw [InBlock, UInt16.add_comm, UInt16.add_sub_cancel]
  exact hd

theorem anchor_stack (lay : Layout) (h11 : 11 ≤ d.toNat) (hd : d.toNat < 17) :
    Anchor lay (lay.bottom + d) := by
  refine .inr ?_
  rw [lay.offset_add]
  exact ⟨h11, hd⟩

theorem Framed.clientByte (h : Framed lay base s) (d : UInt16) (hd : d.toNat < 10) :
    s.mem (s.ix + d) = base (lay.client + d) := by
  rw [h.inside.ix]
  exact h.kept _ (anchor_client lay hd)

theorem Framed.clientWord (h : Framed lay base s) (d : UInt16) (hd : d.toNat < 10)
    (hd' : (d + 1).toNat < 10) :
    s.mem.loadWord (lay.client + d) = base.loadWord (lay.client + d) := by
  rw [Memory.loadWord, Memory.loadWord, UInt16.add_assoc, h.kept _ (anchor_client lay hd),
    h.kept _ (anchor_client lay hd')]

theorem Framed.savedWord (h : Framed lay base s) (d : UInt16) (h11 : 11 ≤ d.toNat)
    (h11' : 11 ≤ (d + 1).toNat) (hd : d.toNat < 17) (hd' : (d + 1).toNat < 17) :
    s.mem.loadWord (lay.bottom + d) = base.loadWord (lay.bottom + d) := by
  rw [Memory.loadWord, Memory.loadWord, UInt16.add_assoc, h.kept _ (anchor_stack lay h11 hd),
    h.kept _ (anchor_stack lay h11' hd')]

/-- The way out restores the caller's registers and returns to it. -/
theorem finish_does (hb : Based lay s₀ base) (hf : Framed lay base s)
    (h : ∀ s', s'.d = s.d → s'.e = s.e → s'.mem = s.mem → s'.sp = s₀.sp + 2 → s'.ix = s₀.ix →
      s'.iy = s₀.iy → Q (s₀.mem.loadWord s₀.sp) s' w) :
    Does (external lay) (code site) bound live finishCode s w Q := by
  have hat := hf.inside
  iterate 6 apply does_op
  apply does_ret
  have h11 : localBytes + s.iy = lay.bottom + 11 := by
    rw [hat.iy, UInt16.add_comm, UInt16.add_assoc]
    rfl
  have h13 : lay.bottom + 11 + 2 = lay.bottom + 13 := UInt16.add_assoc _ _ _
  have h15 : lay.bottom + 13 + 2 = lay.bottom + 15 := UInt16.add_assoc _ _ _
  simp only [Op.exec, Cpu.setPair, Cpu.pair, Cpu.hl, word_high_low, h11, h13, h15]
  have hback := hf.savedWord 15 (by decide) (by decide) (by decide) (by decide)
  have hix := hf.savedWord 13 (by decide) (by decide) (by decide) (by decide)
  have hiy := hf.savedWord 11 (by decide) (by decide) (by decide) (by decide)
  rw [hback, hb.back]
  refine h _ rfl rfl rfl ?_ (hix.trans hb.ix) (hiy.trans hb.iy)
  rw [hb.sp]

/-- The call from `s₀` has returned to its caller and settled the transaction. -/
structure Exits (lay : Layout) (s₀ : Cpu) (settlement : Settlement) (r : UInt16) (s : Cpu)
    (w : World) : Prop where
  back : r = s₀.mem.loadWord s₀.sp
  sp : s.sp = s₀.sp + 2
  ix : s.ix = s₀.ix
  iy : s.iy = s₀.iy
  settles : Settles settlement (signed s.de) w.wire (s.mem.read lay.packet)

/-- The transaction comes to what `target` says. -/
def Final (lay : Layout) (s₀ : Cpu) (target : Option Settlement) (r : UInt16) (s : Cpu)
    (w : World) : Prop :=
  ∃ settlement, target = some settlement ∧ Exits lay s₀ settlement r s w

variable {target : Option Settlement}

theorem finish_final (hb : Based lay s₀ base) (hf : Framed lay base s)
    (ht : target = some settlement)
    (hs : Settles settlement (signed s.de) w.wire (s.mem.read lay.packet)) :
    Does (external lay) (code site) bound live finishCode s w (Final lay s₀ target) := by
  refine finish_does hb hf fun s' hd he hm hsp hix hiy => ⟨settlement, ht, rfl, hsp, hix, hiy, ?_⟩
  rw [Cpu.de, hd, he, hm]
  exact hs

theorem error_finish (hb : Based lay s₀ base) (hf : Framed lay base s) (hs : signed error = r)
    (hneg : r < 0) (ht : target = some ⟨r, w.wire.sent, w.wire.unread, []⟩) :
    Does (external lay) (code site) bound live finishCode (Op.exec s (.ldPair .de error)) w
      (Final lay s₀ target) := by
  refine finish_final hb ⟨⟨hf.inside.ix, hf.inside.iy, hf.inside.sp⟩, hf.kept⟩ ht ?_
  simp only [Op.exec, Cpu.setPair, Cpu.de, word_high_low, hs]
  exact settles_error r hneg _ _

theorem error_final (hb : Based lay s₀ base) (hf : Framed lay base s) (hs : signed error = r)
    (hneg : r < 0) (ht : target = some ⟨r, w.wire.sent, w.wire.unread, []⟩) :
    Does (external lay) (code site) bound live (errorCode error) s w (Final lay s₀ target) := by
  apply does_op
  apply does_taken rfl
  exact error_finish hb hf hs hneg ht

theorem Layout.Apart.anchor_offset (hA : lay.Apart) (ha : Anchor lay a) : 11 ≤ lay.offset a := by
  rcases ha with ha | ⟨h11, -⟩
  · have hout : 17 ≤ lay.offset a := Nat.le_of_not_lt fun hlt => hA.client a hlt ha
    omega
  · exact h11

theorem Slot.not_anchor (hp : Slot lay p) (hA : lay.Apart) (ha : Anchor lay a) :
    a ≠ p ∧ lay.offset a ≠ 8 ∧ lay.offset a ≠ 9 ∧ lay.Live 6 a := by
  have hoff := hp.offset hA
  rcases ha with ha | ⟨h11, h17⟩
  · have hout : 17 ≤ lay.offset a := Nat.le_of_not_lt fun hlt => hA.client a hlt ha
    refine ⟨?_, by omega, by omega, .inl ha⟩
    rintro rfl
    rcases hp with hp | rfl
    · exact hA.both _ ha hp
    · rw [lay.offset_add] at hout
      exact absurd hout (by decide)
  · refine ⟨?_, by omega, by omega, .inr (.inr ⟨by omega, h17⟩)⟩
    rintro rfl
    omega

/-- In the body of an exchange, once the request is sent. -/
structure Receives (lay : Layout) (base : Memory) (wire : SocketView) (s : Cpu) : Prop
    extends Framed lay base s where
  up : wire.up = true
  epoch : s.mem (lay.bottom + 6) = wire.epoch

theorem Received.receives (h : Received lay p b s.mem s') (hr : Receives lay base wire s)
    (hA : lay.Apart) (hp : Slot lay p) (hread : wire.Reads [b] wire') :
    Receives lay base wire' s' where
  inside := h.inside
  kept := by
    intro a ha
    obtain ⟨hne, h8, h9, hl⟩ := hp.not_anchor hA ha
    exact (h.others a hl hne h8 h9).trans (hr.kept a ha)
  up := hread.up.trans hr.up
  epoch := by
    have hne := hp.stack_ne hA 6 (by decide) (by decide)
    rw [hread.epoch, ← hr.epoch]
    apply h.others _ (live_stack lay (by decide) (by decide)) hne
    · rw [lay.offset_add]
      decide
    · rw [lay.offset_add]
      decide

theorem does_receiveOne (hA : lay.Apart) (hb : Based lay s₀ base)
    (hr : Receives lay base w.wire s) (hp : Slot lay p)
    (hdest : s.mem.loadWord (lay.bottom + 8) = p)
    (hlive : live → Fair w.wire.sizes ∧ w.wire.unread ≠ [])
    (h : ∀ b s' w', Receives lay base w'.wire s' → Received lay p b s.mem s' →
      w.wire.Reads [b] w'.wire → Does (external lay) (code site) bound live is s' w' Q) :
    Does (external lay) (code site) bound live (.call r .receiveRetry :: .op (.ld .a .d) ::
      .op (.orA .e) :: .jump .nz .finish :: is) s w Q := by
  refine does_callAt (k := 4) hA hr.inside (by decide) fun s₁ hat₁ hback hsame => ?_
  have hsame : lay.Same 6 s.mem s₁.mem := hsame
  have hready : Ready lay w.wire s.mem := by
    refine ⟨hr.up, hr.epoch, ?_, ?_⟩
    · rw [hr.toFramed.clientWord clientFd (by decide) (by decide), hb.fd]
    · rw [hr.toFramed.clientWord clientIdle (by decide) (by decide), hb.idle]
  have hw : Waiting lay r p w.wire s₁ := {
    inside := hat₁
    ready := hready.same hsame (by decide)
    back := hback
    dest := (hsame.stackWord 8 (by decide) (by decide)).trans hdest }
  refine receiveOne_does hA hp hw hlive fun b s₂ w₂ hrecv hread => ⟨rfl, ?_⟩
  iterate 2 apply does_op
  apply does_notTaken
  · simp [hrecv.d, hrecv.e]
  have hrecv' : Received lay p b s.mem (Op.exec (Op.exec s₂ (.ld .a .d)) (.orA .e)) := {
    inside := ⟨hrecv.inside.ix, hrecv.inside.iy, hrecv.inside.sp⟩
    d := hrecv.d
    e := hrecv.e
    byte := hrecv.byte
    dest := hrecv.dest
    others := fun a ha hne h8 h9 => (hrecv.others a ha hne h8 h9).trans (hsame a ha) }
  exact h b _ w₂ (hrecv'.receives hr hA hp hread) hrecv' hread

theorem Framed.store (hf : Framed lay base s) (hA : lay.Apart) (hd : d.toNat < 11)
    (hix : s'.ix = s.ix) (hiy : s'.iy = s.iy) (hsp : s'.sp = s.sp)
    (hm : s'.mem = s.mem.store (lay.bottom + d) v) : Framed lay base s' where
  inside := ⟨hix.trans hf.inside.ix, hiy.trans hf.inside.iy, hsp.trans hf.inside.sp⟩
  kept := by
    intro a ha
    rw [hm, Memory.store_other]
    · exact hf.kept a ha
    · rintro rfl
      have hoff := lay.offset_add d
      rcases ha with ha | ⟨h11, -⟩
      · exact hA.client _ (by omega) ha
      · omega

theorem Receives.store (hr : Receives lay base wire s) (hA : lay.Apart) (hd : d.toNat < 11)
    (h6 : d.toNat ≠ 6) (hix : s'.ix = s.ix) (hiy : s'.iy = s.iy) (hsp : s'.sp = s.sp)
    (hm : s'.mem = s.mem.store (lay.bottom + d) v) : Receives lay base wire s' where
  toFramed := hr.toFramed.store hA hd hix hiy hsp hm
  up := hr.up
  epoch := by
    rw [hm, Memory.store_other]
    · exact hr.epoch
    · intro h
      rw [UInt16.add_right_inj] at h
      rw [← h] at h6
      exact h6 rfl

theorem Receives.storeWord (hr : Receives lay base wire s) (hA : lay.Apart) (d : UInt16)
    (hd : d.toNat < 11) (hd' : (d + 1).toNat < 11) (h6 : d.toNat ≠ 6) (h6' : (d + 1).toNat ≠ 6)
    (hix : s'.ix = s.ix) (hiy : s'.iy = s.iy) (hsp : s'.sp = s.sp)
    (hm : s'.mem = s.mem.storeWord (lay.bottom + d) p) : Receives lay base wire s' := by
  have hlow : Receives lay base wire { s with mem := s.mem.store (lay.bottom + d) (low p) } :=
    hr.store hA hd h6 rfl rfl rfl rfl
  refine hlow.store hA (v := high p) hd' h6' hix hiy hsp ?_
  rw [hm, Memory.storeWord, UInt16.add_assoc]

theorem At.store_dest (h : At lay k s) (m : Memory) (p : UInt16) :
    (m.store (s.iy + localDest) (low p)).store (s.iy + (localDest + 1)) (high p) =
      m.storeWord (lay.bottom + 8) p := by
  rw [h.iy, Memory.storeWord, UInt16.add_assoc, UInt16.add_assoc, UInt16.add_assoc]
  rfl

theorem does_destPacket (hA : lay.Apart) (hb : Based lay s₀ base)
    (hr : Receives lay base w.wire s)
    (h : ∀ s', Receives lay base w.wire s' → s'.mem = s.mem.storeWord (lay.bottom + 8) lay.packet →
      Does (external lay) (code site) bound live is s' w Q) :
    Does (external lay) (code site) bound live (.op (.ldIndexed .l .ix clientPacket) ::
      .op (.ldIndexed .h .ix (clientPacket + 1)) :: .op (.stIndexed .iy localDest .l) ::
      .op (.stIndexed .iy (localDest + 1) .h) :: is) s w Q := by
  have hpacket : word (s.mem (s.ix + (clientPacket + 1))) (s.mem (s.ix + clientPacket)) =
      lay.packet := by
    rw [hr.inside.field, hr.toFramed.clientWord clientPacket (by decide) (by decide), hb.packet]
  have hlow : s.mem (s.ix + clientPacket) = low lay.packet := by rw [← hpacket, low_word]
  have hhigh : s.mem (s.ix + (clientPacket + 1)) = high lay.packet := by rw [← hpacket, high_word]
  have hmem := hr.inside.store_dest s.mem lay.packet
  iterate 4 apply does_op
  simp only [Op.exec, Cpu.setReg, Cpu.index, Cpu.reg, hlow, hhigh, hmem]
  exact h _ (hr.storeWord hA 8 (by decide) (by decide) (by decide) (by decide) rfl rfl rfl rfl) rfl

theorem Received.local {d : UInt16} (h : Received lay p b m s) (hne : p ≠ lay.bottom + d)
    (h6 : 6 ≤ d.toNat) (hd : d.toNat < 17) (h8 : d.toNat ≠ 8) (h9 : d.toNat ≠ 9) :
    s.mem (lay.bottom + d) = m (lay.bottom + d) := by
  apply h.others _ (live_stack lay h6 hd) hne.symm
  · rwa [lay.offset_add]
  · rwa [lay.offset_add]

theorem does_countDown (hA : lay.Apart) (hr : Receives lay base w.wire s)
    (hn : s.mem (lay.bottom + 10) = n)
    (h : ∀ s', Receives lay base w.wire s' → s'.mem = s.mem.store (lay.bottom + 10) (n - 1) →
      s'.zero = decide (n - 1 = 0) → Does (external lay) (code site) bound live is s' w Q) :
    Does (external lay) (code site) bound live (.op (.decIndexed .iy localRemaining) :: is) s w
      Q := by
  have haddr : s.iy + localRemaining = lay.bottom + 10 := by
    rw [hr.inside.iy, UInt16.add_assoc]
    rfl
  apply does_op
  simp only [Op.exec, Cpu.index, haddr, hn]
  exact h _ (hr.store hA (d := 10) (by decide) (by decide) rfl rfl rfl rfl) rfl rfl

theorem sub_one_toNat {n : UInt8} (h : n.toNat = k + 1) : (n - 1).toNat = k := by
  rw [UInt8.toNat_sub_of_le]
  · rw [h]
    rfl
  · rw [UInt8.le_iff_toNat_le, h]
    exact Nat.succ_le_succ (Nat.zero_le k)

theorem zero_countedDown {n : UInt8} (h : n.toNat = k + 1) :
    decide (n - 1 = 0) = decide (k = 0) := by
  have hn := sub_one_toNat h
  refine decide_eq_decide.2 ⟨fun h0 => ?_, fun hk => ?_⟩
  · rw [← hn, h0]
    rfl
  · exact UInt8.toNat_inj.1 (hn.trans hk)

theorem more_of_live {n : UInt8} {view : SocketView} (h : n.toNat = k + 1)
    (hlive : live → Fair view.sizes ∧ n.toNat ≤ view.unread.length) :
    live → Fair view.sizes ∧ view.unread ≠ [] := by
  intro hl
  obtain ⟨hfair, henough⟩ := hlive hl
  exact ⟨hfair, List.ne_nil_of_length_pos (by omega)⟩

theorem slot_packet (hroom : 0 < lay.room) : Slot lay lay.packet := by
  refine .inl ?_
  rw [InBlock, UInt16.sub_self]
  exact hroom

theorem overflowLoop_turn (hA : lay.Apart) (hb : Based lay s₀ base) (hroom : 0 < lay.room)
    (hr : Receives lay base w.wire s) (hn : s.mem (lay.bottom + 10) = n)
    (hlive : live → Fair w.wire.sizes ∧ w.wire.unread ≠ [])
    (h : ∀ b s' w', Receives lay base w'.wire s' → s'.mem (lay.bottom + 10) = n - 1 →
      s'.zero = decide (n - 1 = 0) → w.wire.Reads [b] w'.wire →
      Does (external lay) (code site) bound live
        [.jump .nz .overflowLoop, .jump .always .overflowError] s' w' Q) :
    Does (external lay) (code site) bound live (overflowLoopCode site) s w Q := by
  have hp : Slot lay lay.packet := slot_packet hroom
  have h10 : lay.packet ≠ lay.bottom + 10 := (hp.stack_ne hA 10 (by decide) (by decide)).symm
  refine does_destPacket hA hb hr fun s₁ hr₁ hm₁ => ?_
  have hdest : s₁.mem.loadWord (lay.bottom + 8) = lay.packet := by
    rw [hm₁, Memory.loadWord_storeWord]
  refine does_receiveOne hA hb hr₁ hp hdest hlive fun b s₂ w₂ hr₂ hrecv hread => ?_
  have hn₂ : s₂.mem (lay.bottom + 10) = n := by
    rw [hrecv.local h10 (by decide) (by decide) (by decide) (by decide), hm₁,
      Memory.storeWord_other, hn]
    · simp
    · simp [UInt16.add_assoc]
  refine does_countDown hA hr₂ hn₂ fun s₃ hr₃ hm₃ hz₃ => ?_
  exact h b s₃ w₂ hr₃ (by rw [hm₃, Memory.store_same]) hz₃ hread

/-- An oversized reply is dropped byte by byte, all in the first byte of the workspace. -/
theorem overflowLoop_does (hA : lay.Apart) (hb : Based lay s₀ base) (hroom : 0 < lay.room)
    (hr : Receives lay base w.wire s) (hn : s.mem (lay.bottom + 10) = n) (hk : n.toNat = k + 1)
    (hlive : live → Fair w.wire.sizes ∧ n.toNat ≤ w.wire.unread.length)
    (ht : n.toNat ≤ w.wire.unread.length → target =
      some ⟨squidClientErrorOverflow, w.wire.sent, w.wire.unread.drop n.toNat, []⟩) :
    Does (external lay) (code site) bound live (overflowLoopCode site) s w
      (Final lay s₀ target) := by
  induction k generalizing n s w with
  | zero =>
    refine overflowLoop_turn hA hb hroom hr hn ?_ fun b s₁ w₁ hr₁ hn₁ hz hread => ?_
    · exact more_of_live hk hlive
    · rw [zero_countedDown hk] at hz
      apply does_notTaken
      · simp [hz]
      apply does_taken rfl
      apply does_op
      apply does_next
      have hsigned : signed errorOverflow = squidClientErrorOverflow := by decide
      refine error_finish hb hr₁.toFramed hsigned (by decide) ?_
      rw [ht, hk, hread.unread, List.singleton_append, List.drop_succ_cons, List.drop_zero,
        hread.sent]
      have hlen : w.wire.unread.length = 1 + w₁.wire.unread.length := hread.unread_length
      omega
  | succ k ih =>
    have hn' : (n - 1).toNat = k + 1 := sub_one_toNat hk
    refine overflowLoop_turn hA hb hroom hr hn ?_ fun b s₁ w₁ hr₁ hn₁ hz hread => ?_
    · exact more_of_live hk hlive
    · rw [zero_countedDown hk] at hz
      have hlen : w.wire.unread.length = 1 + w₁.wire.unread.length := hread.unread_length
      apply does_taken
      · simp [hz]
      refine ih hr₁ hn₁ hn' ?_ ?_
      · intro hl
        obtain ⟨hf, henough⟩ := hlive hl
        exact ⟨hread.fair hf, by omega⟩
      · intro henough
        rw [ht (by omega), hread.sent, hk, hn', hread.unread, List.singleton_append,
          List.drop_succ_cons]

/-- The state of the body loop: `got` has been stored, and `n` bytes are to come. -/
structure Body (lay : Layout) (base : Memory) (wire : SocketView) (size : UInt8) (got : List UInt8)
    (n : UInt8) (s : Cpu) : Prop extends Receives lay base wire s where
  length : s.mem (lay.bottom + 7) = size
  remaining : s.mem (lay.bottom + 10) = n
  dest : s.mem.loadWord (lay.bottom + 8) = lay.packet + UInt16.ofNat got.length
  stored : s.mem.read lay.packet got.length = got
  total : got.length + n.toNat = size.toNat

theorem inBlock_packet (lay : Layout) (hi : i < lay.room) (hroom : lay.room ≤ 256) :
    InBlock lay.packet lay.room (lay.packet + UInt16.ofNat i) := by
  rw [InBlock, UInt16.add_comm, UInt16.add_sub_cancel, UInt16.toNat_ofNat_of_lt']
  · exact hi
  · simp only [UInt16.size]
    omega

theorem Layout.Apart.packet_ne (hA : lay.Apart) (ha : InBlock lay.packet lay.room a) (d : UInt16)
    (hd : d.toNat < 17) : a ≠ lay.bottom + d := by
  rintro rfl
  exact hA.packet _ (by rw [lay.offset_add]; exact hd) ha

theorem bodyLoop_turn (hA : lay.Apart) (hb : Based lay s₀ base) (hroom : lay.room ≤ 256)
    (hbody : Body lay base w.wire size got n s) (hfits : got.length < lay.room)
    (hk : n.toNat = k + 1) (hlive : live → Fair w.wire.sizes ∧ w.wire.unread ≠ [])
    (h : ∀ b s' w', Body lay base w'.wire size (got ++ [b]) (n - 1) s' →
      s'.zero = decide (n - 1 = 0) → w.wire.Reads [b] w'.wire →
      Does (external lay) (code site) bound live [.jump .nz .bodyLoop,
        .op (.ldIndexed .e .iy localSize), .op (.ldImm .d 0), .jump .always .finish] s' w' Q) :
    Does (external lay) (code site) bound live (bodyLoopCode site) s w Q := by
  have hp : Slot lay (lay.packet + UInt16.ofNat got.length) := .inl (inBlock_packet lay hfits hroom)
  have hne := hA.packet_ne (inBlock_packet lay hfits hroom)
  refine does_receiveOne hA hb hbody.toReceives hp hbody.dest hlive
    fun b s₁ w₁ hr₁ hrecv hread => ?_
  have hn₁ : s₁.mem (lay.bottom + 10) = n := by
    rw [hrecv.local (hne 10 (by decide)) (by decide) (by decide) (by decide) (by decide),
      hbody.remaining]
  refine does_countDown hA hr₁ hn₁ fun s₂ hr₂ hm₂ hz₂ => h b s₂ w₁ ?_ hz₂ hread
  have hother : ∀ a, a ≠ lay.bottom + 10 → s₂.mem a = s₁.mem a := by
    intro a ha
    rw [hm₂, Memory.store_other _ _ ha]
  have hpacket : ∀ a, InBlock lay.packet lay.room a → s₂.mem a = s₁.mem a :=
    fun a ha => hother a (hA.packet_ne ha 10 (by decide))
  exact {
    toReceives := hr₂
    length := by
      rw [hother _ (by simp), hrecv.local (hne 7 (by decide)) (by decide) (by decide) (by decide)
        (by decide), hbody.length]
    remaining := by rw [hm₂, Memory.store_same]
    dest := by
      rw [Memory.loadWord, hother _ (by simp [UInt16.add_assoc]), hother _ (by simp),
        ← Memory.loadWord, hrecv.dest, List.length_append, List.length_singleton,
        UInt16.ofNat_add, UInt16.add_assoc]
      rfl
    stored := by
      rw [List.length_append, List.length_singleton, Memory.read_snoc,
        hpacket _ (inBlock_packet lay hfits hroom), hrecv.byte]
      congr 1
      rw [← hbody.stored, Memory.length_read]
      apply Memory.read_congr
      intro i hi
      have hin : InBlock lay.packet lay.room (lay.packet + UInt16.ofNat i) :=
        inBlock_packet lay (by omega) hroom
      have hout : 17 ≤ lay.offset (lay.packet + UInt16.ofNat i) :=
        Nat.le_of_not_lt fun hlt => hA.packet _ hlt hin
      rw [hpacket _ hin]
      refine hrecv.others _ (.inr (.inl hin)) ?_ (by omega) (by omega)
      intro heq
      have hnat := congrArg UInt16.toNat ((UInt16.add_right_inj lay.packet).1 heq)
      rw [UInt16.toNat_ofNat_of_lt', UInt16.toNat_ofNat_of_lt'] at hnat
      · omega
      · simp only [UInt16.size]
        omega
      · simp only [UInt16.size]
        omega
    total := by
      rw [List.length_append, List.length_singleton, sub_one_toNat hk, ← hbody.total, hk]
      omega }

theorem bodyLoop_does (hA : lay.Apart) (hb : Based lay s₀ base) (hroom : lay.room ≤ 256)
    (hbody : Body lay base w.wire size got n s) (hfits : size.toNat < lay.room)
    (hk : n.toNat = k + 1)
    (hlive : live → Fair w.wire.sizes ∧ n.toNat ≤ w.wire.unread.length)
    (ht : n.toNat ≤ w.wire.unread.length → target = some ⟨size.toNat, w.wire.sent,
      w.wire.unread.drop n.toNat, got ++ w.wire.unread.take n.toNat⟩) :
    Does (external lay) (code site) bound live (bodyLoopCode site) s w (Final lay s₀ target) := by
  induction k generalizing n s w got with
  | zero =>
    have htotal := hbody.total
    refine bodyLoop_turn hA hb hroom hbody (by omega) hk ?_ fun b s₁ w₁ hbody₁ hz hread => ?_
    · exact more_of_live hk hlive
    · rw [zero_countedDown hk] at hz
      apply does_notTaken
      · simp [hz]
      iterate 2 apply does_op
      apply does_taken rfl
      have hsize : s₁.mem (s₁.iy + localSize) = size := by
        rw [hbody₁.inside.iy, UInt16.add_assoc]
        exact hbody₁.length
      have hlen : w.wire.unread.length = 1 + w₁.wire.unread.length := hread.unread_length
      have hone : n.toNat ≤ w.wire.unread.length := by omega
      have hread' := hbody₁.stored
      rw [List.length_append, List.length_singleton, show got.length + 1 = size.toNat by omega]
        at hread'
      refine finish_final hb ?_ (ht hone) ?_
      · exact ⟨⟨hbody₁.inside.ix, hbody₁.inside.iy, hbody₁.inside.sp⟩, hbody₁.kept⟩
      · simp only [Op.exec, Cpu.setReg, Cpu.index, Cpu.de, hsize, signed_byte]
        exact {
          result := rfl
          sent := hread.sent
          unread := by
            rw [hk, hread.unread]
            rfl
          reply := by
            intro _
            rw [Int.toNat_natCast, hread', hk, hread.unread]
            rfl }
  | succ k ih =>
    have htotal := hbody.total
    have hn' : (n - 1).toNat = k + 1 := sub_one_toNat hk
    refine bodyLoop_turn hA hb hroom hbody (by omega) hk ?_ fun b s₁ w₁ hbody₁ hz hread => ?_
    · exact more_of_live hk hlive
    · rw [zero_countedDown hk] at hz
      have hlen : w.wire.unread.length = 1 + w₁.wire.unread.length := hread.unread_length
      apply does_taken
      · simp [hz]
      refine ih hbody₁ hn' ?_ ?_
      · intro hl
        obtain ⟨hf, henough⟩ := hlive hl
        exact ⟨hread.fair hf, by omega⟩
      · intro henough
        rw [ht (by omega), hread.sent, hk, hn', hread.unread, List.singleton_append,
          List.drop_succ_cons, List.take_succ_cons, List.append_assoc, List.singleton_append]

theorem Framed.capacity (hf : Framed lay base s) (hcap : base (lay.client + clientCapacity) = cap) :
    s.mem (s.ix + clientCapacity) = cap :=
  (hf.clientByte clientCapacity (by decide)).trans hcap

/-- With the length in A, the reply is stored or dropped. -/
theorem checkLength_does (hA : lay.Apart) (hb : Based lay s₀ base)
    (hcap : base (lay.client + clientCapacity) = cap) (hroom : lay.room = cap.toNat + 1)
    (hr : Receives lay base w.wire s) (ha : s.a = size) (hsize : s.mem (lay.bottom + 7) = size)
    (hk : size.toNat = k + 1)
    (hlive : live → Fair w.wire.sizes ∧ size.toNat ≤ w.wire.unread.length)
    (ht : target = settleReply cap.toNat w.wire.sent (size :: w.wire.unread)) :
    Does (external lay) (code site) bound live checkLengthCode s w (Final lay s₀ target) := by
  have hne : size ≠ 0 := by
    rintro rfl
    cases hk
  have hcapacity := hr.toFramed.capacity hcap
  have haddr : s.iy + localRemaining = lay.bottom + 10 := by
    rw [hr.inside.iy, UInt16.add_assoc]
    rfl
  have hcap255 := cap.toNat_lt
  rw [settleReply, if_neg hne] at ht
  iterate 3 apply does_op
  simp only [Op.exec, Cpu.setReg, Cpu.reg, Cpu.index, Cpu.compare, ha, hcapacity]
  by_cases hbig : cap < size
  · apply does_taken
    · simp [hbig]
    apply does_op
    apply does_next
    simp only [Op.exec, Cpu.index, Cpu.reg, haddr]
    refine overflowLoop_does hA hb (by omega) ?_ ?_ hk hlive ?_
    · exact hr.store hA (d := 10) (by decide) (by decide) rfl rfl rfl rfl
    · exact Memory.store_same _ _ _
    · intro henough
      rw [ht, if_neg (by omega), if_pos (UInt8.lt_iff_toNat_lt.1 hbig)]
  · have hle : size.toNat ≤ cap.toNat := by
      rw [UInt8.lt_iff_toNat_lt] at hbig
      omega
    apply does_notTaken
    · simp [hbig]
    apply does_op
    simp only [Op.exec, Cpu.index, Cpu.reg, haddr]
    refine does_destPacket hA hb ?_ fun s₁ hr₁ hm₁ => ?_
    · exact hr.store hA (d := 10) (by decide) (by decide) rfl rfl rfl rfl
    have hm₁ : s₁.mem =
        (s.mem.store (lay.bottom + 10) size).storeWord (lay.bottom + 8) lay.packet := hm₁
    apply does_next
    have hbody : Body lay base w.wire size [] size s₁ := {
      toReceives := hr₁
      length := by
        rw [hm₁, Memory.storeWord_other _ _ (by simp) (by simp [UInt16.add_assoc]),
          Memory.store_other _ _ (by simp), hsize]
      remaining := by
        rw [hm₁, Memory.storeWord_other _ _ (by simp) (by simp [UInt16.add_assoc]),
          Memory.store_same]
      dest := by
        rw [hm₁, Memory.loadWord_storeWord]
        exact (UInt16.add_zero _).symm
      stored := rfl
      total := Nat.zero_add _ }
    refine bodyLoop_does hA hb (by omega) hbody (by omega) hk hlive ?_
    intro henough
    rw [ht, if_neg (by omega), if_neg (by omega), List.nil_append]

theorem receiveLength_does (hA : lay.Apart) (hb : Based lay s₀ base)
    (hcap : base (lay.client + clientCapacity) = cap) (hroom : lay.room = cap.toNat + 1)
    (hr : Receives lay base w.wire s)
    (hlive : live → Fair w.wire.sizes ∧ target ≠ none)
    (ht : target = settleReply cap.toNat w.wire.sent w.wire.unread) :
    Does (external lay) (code site) bound live (receiveLengthCode site) s w
      (Final lay s₀ target) := by
  have hsp : s.sp - 2 = lay.bottom + 4 := by
    have hpush : At lay (4 + 2) s := hr.inside
    exact (hpush.push s.iy).sp
  have hslot : s.iy + 1 = lay.bottom + 7 := by
    rw [hr.inside.iy]
    exact UInt16.add_assoc _ _ _
  have hmem := hr.inside.store_dest (s.mem.storeWord (lay.bottom + 4) s.iy) (lay.bottom + 7)
  iterate 5 apply does_op
  simp only [Op.exec, Cpu.push, Cpu.pair, Cpu.setPair, Cpu.reg, Cpu.index, Cpu.hl, word_high_low,
    Memory.loadWord_storeWord, hsp, hslot, hmem]
  have hr₁ : Receives lay base w.wire { s with mem := s.mem.storeWord (lay.bottom + 4) s.iy } :=
    hr.storeWord hA 4 (by decide) (by decide) (by decide) (by decide) rfl rfl rfl rfl
  refine does_receiveOne (p := lay.bottom + 7) hA hb ?_ (.inr rfl)
    (Memory.loadWord_storeWord _ _ _) ?_ fun size s₂ w₂ hr₂ hrecv hread => ?_
  · refine hr₁.storeWord hA 8 (by decide) (by decide) (by decide) (by decide) rfl rfl ?_ rfl
    exact (UInt16.add_assoc _ _ _).trans hr.inside.sp.symm
  · intro hl
    obtain ⟨hf, hsettle⟩ := hlive hl
    refine ⟨hf, ?_⟩
    intro hnil
    rw [ht, hnil] at hsettle
    exact hsettle rfl
  have hload : s₂.mem (s₂.iy + localSize) = size := by
    rw [hr₂.inside.iy, UInt16.add_assoc]
    exact hrecv.byte
  have ht₂ : target = settleReply cap.toNat w₂.wire.sent (size :: w₂.wire.unread) := by
    rw [ht, hread.unread, hread.sent]
    rfl
  have hr₃ : Receives lay base w₂.wire (Op.exec (Op.exec s₂ (.ldIndexed .a .iy localSize))
      (.orA .a)) :=
    ⟨⟨⟨hr₂.inside.ix, hr₂.inside.iy, hr₂.inside.sp⟩, hr₂.kept⟩, hr₂.up, hr₂.epoch⟩
  iterate 2 apply does_op
  by_cases hzero : size = 0
  · apply does_taken
    · simp [hload, hzero]
    have hsigned : signed errorProtocol = squidClientErrorProtocol := by decide
    refine error_final hb hr₃.toFramed hsigned (by decide) ?_
    rw [ht₂, settleReply, if_pos hzero]
  · apply does_notTaken
    · simp [hload, hzero]
    apply does_next
    obtain ⟨k, hk⟩ : ∃ k, size.toNat = k + 1 := by
      refine ⟨size.toNat - 1, ?_⟩
      have hpos : size.toNat ≠ 0 := fun h => hzero (UInt8.toNat_inj.1 h)
      omega
    refine checkLength_does hA hb hcap hroom hr₃ ?_ hrecv.byte hk ?_ ht₂
    · simp [hload]
    · intro hl
      obtain ⟨hf, hsettle⟩ := hlive hl
      refine ⟨hread.fair hf, Nat.le_of_not_lt fun hless => hsettle ?_⟩
      rw [ht₂, settleReply, if_neg hzero, if_pos hless]

theorem does_squidSend (hat : At lay 4 s) (hfd : s.hl = lay.fd)
    (h : ∀ s' w', At lay 6 s' → lay.Same 6 s.mem s'.mem →
      w'.wire = w.wire.send (s.mem.read s.de (s.mem.loadWord s.sp).toNat) →
      decide (s'.d.toNat < 128) = w.wire.sends →
      Does (external lay) (code site) bound live is s' w' Q) :
    Does (external lay) (code site) bound live (.callExt .squidSend :: is) s w Q := by
  have hsp : s.sp + 2 = lay.bottom + 6 := by
    rw [hat.sp]
    exact UInt16.add_assoc _ _ _
  apply does_ext
  rw [external, if_pos hfd]
  refine h _ _ ⟨hat.ix, hat.iy, hsp⟩ ?_ rfl ?_
  · apply leave_same
    rw [hsp, lay.offset_add]
    decide
  · cases hsends : w.wire.sends with
    | false =>
      dsimp only
      rw [if_neg Bool.false_ne_true, UInt8.toNat_ofNat']
      simp only [decide_eq_false_iff_not]
      omega
    | true =>
      dsimp only
      rw [if_pos rfl, UInt8.toNat_ofNat']
      simp only [decide_eq_true_eq]
      omega

/-- The request as it stands in memory behind its length byte and its size on the stack. -/
theorem read_request (hA : lay.Apart) (hroom : lay.room ≤ 256) (hle : n.toNat < lay.room)
    (m : Memory) (v : UInt16) :
    ((m.store lay.packet n).storeWord (lay.bottom + 4) v).read lay.packet (n.toNat + 1) =
      n :: m.read (lay.packet + 1) n.toNat := by
  have hblock : ∀ i < lay.room, ((m.store lay.packet n).storeWord (lay.bottom + 4) v)
      (lay.packet + UInt16.ofNat i) = (m.store lay.packet n) (lay.packet + UInt16.ofNat i) := by
    intro i hi
    have hin := inBlock_packet lay hi hroom
    apply Memory.storeWord_other _ _ (hA.packet_ne hin 4 (by decide))
    rw [UInt16.add_assoc]
    exact hA.packet_ne hin (4 + 1) (by decide)
  rw [Memory.read]
  congr 1
  · have hfirst := hblock 0 (by omega)
    rw [show UInt16.ofNat 0 = 0 from rfl, UInt16.add_zero] at hfirst
    rw [hfirst, Memory.store_same]
  · apply Memory.read_congr
    intro i hi
    have hnext := hblock (i + 1) (by omega)
    rw [UInt16.ofNat_add, UInt16.add_comm (UInt16.ofNat i), ← UInt16.add_assoc] at hnext
    rw [show UInt16.ofNat 1 = 1 from rfl] at hnext
    rw [hnext, Memory.store_other]
    intro heq
    rw [UInt16.add_assoc, UInt16.add_eq_left] at heq
    have hnat := congrArg UInt16.toNat heq
    rw [UInt16.toNat_add, UInt16.toNat_ofNat_of_lt'] at hnat
    · simp only [UInt16.reduceToNat] at hnat
      omega
    · simp only [UInt16.size]
      omega

theorem request_kept (hA : lay.Apart) (hp : Slot lay lay.packet)
    (ha : Anchor lay a ∨ a = lay.bottom + 6) (m : Memory) (n : UInt8) (v : UInt16) :
    ((m.store lay.packet n).storeWord (lay.bottom + 4) v) a = m a := by
  have hoff : 6 ≤ lay.offset a := by
    rcases ha with ha | rfl
    · exact Nat.le_trans (by decide) (hA.anchor_offset ha)
    · rw [lay.offset_add]
      decide
  have hne : a ≠ lay.packet := by
    rcases ha with ha | rfl
    · exact (hp.not_anchor hA ha).1
    · exact hp.stack_ne hA 6 (by decide) (by decide)
  have hlow : a ≠ lay.bottom + 4 := by
    rintro rfl
    rw [lay.offset_add] at hoff
    exact absurd hoff (by decide)
  have hhigh : a ≠ lay.bottom + 4 + 1 := by
    rintro rfl
    rw [UInt16.add_assoc, lay.offset_add] at hoff
    exact absurd hoff (by decide)
  rw [Memory.storeWord_other _ _ hlow hhigh, Memory.store_other _ _ hne]

theorem sendRequest_does (hA : lay.Apart) (hb : Based lay s₀ base)
    (hcap : base (lay.client + clientCapacity) = cap) (hroom : lay.room = cap.toNat + 1)
    (hr : Receives lay base w.wire s) (hn : s.mem (lay.bottom + 10) = n)
    (hle : n.toNat ≤ cap.toNat) (hlive : live → Fair w.wire.sizes ∧ target ≠ none)
    (ht : target = if w.wire.sends then
        settleReply cap.toNat (w.wire.sent ++ [n :: s.mem.read (lay.packet + 1) n.toNat])
          w.wire.unread
      else some ⟨squidClientErrorIo, w.wire.sent ++ [n :: s.mem.read (lay.packet + 1) n.toNat],
        w.wire.unread, []⟩) :
    Does (external lay) (code site) bound live sendRequestCode s w (Final lay s₀ target) := by
  have hcap255 := cap.toNat_lt
  have hpacket : word (s.mem (s.ix + (clientPacket + 1))) (s.mem (s.ix + clientPacket)) =
      lay.packet := by
    rw [hr.inside.field, hr.toFramed.clientWord clientPacket (by decide) (by decide), hb.packet]
  have hload : s.mem (s.iy + localRemaining) = n := by
    rw [hr.inside.iy, UInt16.add_assoc]
    exact hn
  have hsp : s.sp - 2 = lay.bottom + 4 := by
    have hpush : At lay (4 + 2) s := hr.inside
    exact (hpush.push s.iy).sp
  have hp : Slot lay lay.packet := slot_packet (by omega)
  let m₁ := (s.mem.store lay.packet n).storeWord (lay.bottom + 4) (word 0 n + 1)
  have hm₁ : ∀ a, Anchor lay a ∨ a = lay.bottom + 6 → m₁ a = s.mem a :=
    fun a ha => request_kept hA hp ha s.mem n (word 0 n + 1)
  have hfd : m₁.loadWord (lay.client + clientFd) = lay.fd := by
    rw [Memory.loadWord, UInt16.add_assoc, hm₁ _ (.inl (anchor_client lay (by decide))),
      hm₁ _ (.inl (anchor_client lay (by decide))), ← UInt16.add_assoc]
    exact (hr.toFramed.clientWord clientFd (by decide) (by decide)).trans hb.fd
  iterate 11 apply does_op
  simp only [Op.exec, Cpu.push, Cpu.pair, Cpu.setPair, Cpu.setReg, Cpu.reg, Cpu.index, Cpu.hl,
    Cpu.bc, word_high_low, hpacket, hload, hsp]
  refine does_squidSend ⟨hr.inside.ix, hr.inside.iy, rfl⟩ ((hr.inside.field _ clientFd).trans hfd)
    fun s₂ w₂ hat₂ hsame₂ hw₂ hsends => ?_
  have hsame₂ : lay.Same 6 m₁ s₂.mem := hsame₂
  have hsize : (word 0 n + 1).toNat = n.toNat + 1 := by
    rw [UInt16.toNat_add, toNat_word, UInt8.toNat_zero, UInt16.toNat_one]
    omega
  have hw₂ : w₂.wire = w.wire.send (n :: s.mem.read (lay.packet + 1) n.toNat) := by
    rw [hw₂, ← read_request hA (by omega) (by omega) s.mem (word 0 n + 1), ← hsize]
    simp only [Cpu.de, hpacket, Memory.loadWord_storeWord]
  have hr₂ : Receives lay base w₂.wire s₂ := {
    inside := hat₂
    kept := by
      intro a ha
      rw [hsame₂ a (hp.not_anchor hA ha).2.2.2, hm₁ a (.inl ha), hr.kept a ha]
    up := by
      rw [hw₂]
      exact hr.up
    epoch := by
      rw [hsame₂ _ (live_stack lay (by decide) (by decide)), hm₁ _ (.inr rfl), hr.epoch, hw₂]
      rfl }
  apply does_op
  cases hs : w.wire.sends with
  | false =>
    rw [hs] at hsends ht
    apply does_taken
    · exact congrArg not hsends
    have hsigned : signed errorIo = squidClientErrorIo := by decide
    refine error_final hb ?_ hsigned (by decide) ?_
    · exact ⟨⟨hat₂.ix, hat₂.iy, hat₂.sp⟩, hr₂.kept⟩
    · rw [ht, hw₂]
      rfl
  | true =>
    rw [hs] at hsends ht
    apply does_notTaken
    · exact congrArg not hsends
    apply does_next
    refine receiveLength_does hA hb hcap hroom ?_ ?_ ?_
    · exact ⟨⟨⟨hat₂.ix, hat₂.iy, hat₂.sp⟩, hr₂.kept⟩, hr₂.up, hr₂.epoch⟩
    · intro hl
      rw [hw₂]
      exact hlive hl
    · rw [ht, hw₂]
      rfl

theorem Framed.same (hf : Framed lay base s) (hA : lay.Apart) (hp : Slot lay lay.packet)
    (hat : At lay 6 s') (hm : lay.Same 6 s.mem s'.mem) : Framed lay base s' where
  inside := hat
  kept := fun a ha => (hm a (hp.not_anchor hA ha).2.2.2).trans (hf.kept a ha)

theorem Layout.Same.request (hm : lay.Same k m m') (hroom : lay.room ≤ 256) (hn : n < lay.room) :
    m'.read (lay.packet + 1) n = m.read (lay.packet + 1) n := by
  apply Memory.read_congr
  intro i hi
  have hin : InBlock lay.packet lay.room (lay.packet + UInt16.ofNat (1 + i)) :=
    inBlock_packet lay (by omega) hroom
  rw [UInt16.ofNat_add, ← UInt16.add_assoc] at hin
  exact hm _ (.inr (.inl hin))

/-- With valid arguments, the transaction is the link's. -/
theorem openLink_does (hA : lay.Apart) (hb : Based lay s₀ base)
    (hcap : base (lay.client + clientCapacity) = cap) (hroom : lay.room = cap.toNat + 1)
    (hf : Framed lay base s) (hn : s.mem (lay.bottom + 10) = n) (hle : n.toNat ≤ cap.toNat)
    (hlive : live → Fair w.wire.sizes ∧ target ≠ none)
    (ht : target = if w.wire.up then if w.wire.sends then
          settleReply cap.toNat (w.wire.sent ++ [n :: s.mem.read (lay.packet + 1) n.toNat])
            w.wire.unread
        else some ⟨squidClientErrorIo, w.wire.sent ++ [n :: s.mem.read (lay.packet + 1) n.toNat],
          w.wire.unread, []⟩
      else some ⟨squidClientErrorLink, w.wire.sent, w.wire.unread, []⟩) :
    Does (external lay) (code site) bound live [.callExt .snetLinkIsUp, .op (.orA .a),
      .jump .z .linkError, .callExt .snetLinkEpoch, .op (.stIndexed .iy localEpoch .a),
      .next .sendRequest] s w (Final lay s₀ target) := by
  have hcap255 := cap.toNat_lt
  have hp : Slot lay lay.packet := slot_packet (by omega)
  refine does_snetLinkIsUp hf.inside fun s₁ w₁ hat₁ hsame₁ hw₁ ha₁ => ?_
  have hf₁ : Framed lay base s₁ := hf.same hA hp hat₁ hsame₁
  apply does_op
  cases hup : w.wire.up with
  | false =>
    rw [hup] at ht
    apply does_taken
    · simp [ha₁.2 hup]
    have hsigned : signed errorLink = squidClientErrorLink := by decide
    refine error_final hb ?_ hsigned (by decide) ?_
    · exact ⟨⟨hat₁.ix, hat₁.iy, hat₁.sp⟩, hf₁.kept⟩
    · rw [ht, hw₁]
      rfl
  | true =>
    have hne : s₁.a ≠ 0 := by
      intro h0
      rw [ha₁.1 h0] at hup
      cases hup
    rw [hup, if_pos rfl] at ht
    apply does_notTaken
    · simp [hne]
    have hat₁' : At lay 6 (Op.exec s₁ (.orA .a)) := ⟨hat₁.ix, hat₁.iy, hat₁.sp⟩
    refine does_snetLinkEpoch hat₁' fun s₂ w₂ hat₂ hsame₂ hw₂ ha₂ => ?_
    have hsame : lay.Same 6 s.mem s₂.mem := Layout.Same.trans hsame₁ hsame₂
    have hf₂ : Framed lay base s₂ := hf.same hA hp hat₂ hsame
    have haddr : s₂.iy + localEpoch = lay.bottom + 6 := by
      rw [hat₂.iy]
      exact UInt16.add_zero _
    have hread : (s₂.mem.store (lay.bottom + 6) w₁.wire.epoch).read (lay.packet + 1) n.toNat =
        s.mem.read (lay.packet + 1) n.toNat := by
      have hstore := hA.same_store s₂.mem w₁.wire.epoch (d := 6) (k := 7) (by decide) (by decide)
      rw [hstore.request (by omega) (by omega), hsame.request (by omega) (by omega)]
    apply does_op
    apply does_next
    simp only [Op.exec, Cpu.index, Cpu.reg, haddr, ha₂]
    refine sendRequest_does hA hb hcap hroom ?_ (n := n) ?_ hle ?_ ?_
    · exact {
        toFramed := hf₂.store hA (d := 6) (by decide) rfl rfl rfl rfl
        up := by
          rw [hw₂, hw₁]
          exact hup
        epoch := by
          rw [hw₂]
          exact Memory.store_same _ _ _ }
    · rw [← hn]
      have hother : lay.bottom + 10 ≠ lay.bottom + 6 := by simp
      exact (Memory.store_other _ _ hother).trans (hsame _ (live_stack lay (by decide) (by decide)))
    · intro hl
      rw [hw₂, hw₁]
      exact hlive hl
    · rw [ht, hw₂, hw₁, ← hread, hw₁]

/-- The arguments that an exchange turns down. -/
abbrev Refused (packet capacity requestSize : UInt16) : Prop :=
  packet = 0 ∨ capacity.toNat = 0 ∨ 255 < capacity.toNat ∨ requestSize.toNat = 0 ∨
    capacity.toNat < requestSize.toNat

/-- The checks byte by byte are the checks of the words. -/
theorem refused_word (packet : UInt16) (ch cl rh rl : UInt8) :
    Refused packet (word ch cl) (word rh rl) ↔
      packet = 0 ∨ ch ≠ 0 ∨ cl = 0 ∨ rh ≠ 0 ∨ rl = 0 ∨ cl < rl := by
  have hcl := cl.toNat_lt
  have hrl := rl.toNat_lt
  refine or_congr Iff.rfl ?_
  simp only [toNat_word, ne_eq, ← UInt8.toNat_inj, UInt8.lt_iff_toNat_lt, UInt8.toNat_zero]
  omega

theorem validate_does (hA : lay.Apart) (hb : Based lay s₀ base)
    (hcap : base.loadWord (lay.client + clientCapacity) = word ch cl)
    (hroom : lay.packet ≠ 0 → ch = 0 → lay.room = cl.toNat + 1) (hf : Framed lay base s)
    (hd : s.d = rh) (he : s.e = rl) (hlive : live → Fair w.wire.sizes ∧ target ≠ none)
    (ht : target = if Refused lay.packet (word ch cl) (word rh rl) then
        some ⟨squidClientErrorArgument, w.wire.sent, w.wire.unread, []⟩
      else if w.wire.up then if w.wire.sends then
          settleReply cl.toNat (w.wire.sent ++ [rl :: s.mem.read (lay.packet + 1) rl.toNat])
            w.wire.unread
        else some ⟨squidClientErrorIo, w.wire.sent ++ [rl :: s.mem.read (lay.packet + 1) rl.toNat],
          w.wire.unread, []⟩
      else some ⟨squidClientErrorLink, w.wire.sent, w.wire.unread, []⟩) :
    Does (external lay) (code site) bound live validateCode s w (Final lay s₀ target) := by
  have hsigned : signed errorArgument = squidClientErrorArgument := by decide
  have hrefused := refused_word lay.packet ch cl rh rl
  have hargument : ∀ s', s'.ix = s.ix → s'.iy = s.iy → s'.sp = s.sp → s'.mem = s.mem →
      (lay.packet = 0 ∨ ch ≠ 0 ∨ cl = 0 ∨ rh ≠ 0 ∨ rl = 0 ∨ cl < rl) →
      Does (external lay) (code site) bound live (errorCode errorArgument) s' w
        (Final lay s₀ target) := by
    intro s' hix hiy hsp hm hbad
    refine error_final hb ?_ hsigned (by decide) (by rw [ht, if_pos (hrefused.2 hbad)])
    refine ⟨⟨hix.trans hf.inside.ix, hiy.trans hf.inside.iy, hsp.trans hf.inside.sp⟩, ?_⟩
    rw [hm]
    exact hf.kept
  have hpacket : word (s.mem (s.ix + (clientPacket + 1))) (s.mem (s.ix + clientPacket)) =
      lay.packet := by
    rw [hf.inside.field, hf.clientWord clientPacket (by decide) (by decide), hb.packet]
  have hcapacity : word (s.mem (s.ix + (clientCapacity + 1))) (s.mem (s.ix + clientCapacity)) =
      word ch cl := by
    rw [hf.inside.field, hf.clientWord clientCapacity (by decide) (by decide), hcap]
  have hch : s.mem (s.ix + (clientCapacity + 1)) = ch := by
    rw [← high_word (s.mem _) (s.mem (s.ix + clientCapacity)), hcapacity, high_word]
  have hcl : s.mem (s.ix + clientCapacity) = cl := by
    rw [← low_word (s.mem (s.ix + (clientCapacity + 1))) (s.mem _), hcapacity, low_word]
  have hbase : base (lay.client + clientCapacity) = cl := by
    rw [← hcl, hf.clientByte clientCapacity (by decide)]
  have haddr : s.iy + localRemaining = lay.bottom + 10 := by
    rw [hf.inside.iy, UInt16.add_assoc]
    rfl
  iterate 4 apply does_op
  simp only [Op.exec, Cpu.setReg, Cpu.index, Cpu.reg]
  by_cases h₁ : lay.packet = 0
  · apply does_taken
    · simp only [Cond.holds, or_eq_zero_iff, hpacket, h₁, decide_true]
    exact hargument _ rfl rfl rfl rfl (.inl h₁)
  apply does_notTaken
  · simp only [Cond.holds, or_eq_zero_iff, hpacket, h₁, decide_false]
  iterate 2 apply does_op
  simp only [Op.exec, Cpu.setReg, Cpu.index, Cpu.reg, hch, UInt8.or_self]
  by_cases h₂ : ch = 0
  swap
  · apply does_taken
    · simp [h₂]
    exact hargument _ rfl rfl rfl rfl (.inr (.inl h₂))
  apply does_notTaken
  · simp [h₂]
  iterate 2 apply does_op
  simp only [Op.exec, Cpu.setReg, Cpu.index, Cpu.reg, hcl, UInt8.or_self]
  by_cases h₃ : cl = 0
  · apply does_taken
    · simp [h₃]
    exact hargument _ rfl rfl rfl rfl (.inr (.inr (.inl h₃)))
  apply does_notTaken
  · simp [h₃]
  iterate 2 apply does_op
  simp only [Op.exec, Cpu.setReg, Cpu.reg, hd, UInt8.or_self]
  by_cases h₄ : rh = 0
  swap
  · apply does_taken
    · simp [h₄]
    exact hargument _ rfl rfl rfl rfl (.inr (.inr (.inr (.inl h₄))))
  apply does_notTaken
  · simp [h₄]
  iterate 2 apply does_op
  simp only [Op.exec, Cpu.setReg, Cpu.reg, he, UInt8.or_self]
  by_cases h₅ : rl = 0
  · apply does_taken
    · simp [h₅]
    exact hargument _ rfl rfl rfl rfl (.inr (.inr (.inr (.inr (.inl h₅)))))
  apply does_notTaken
  · simp [h₅]
  iterate 3 apply does_op
  simp only [Op.exec, Cpu.setReg, Cpu.index, Cpu.reg, Cpu.compare, hcl]
  by_cases h₆ : cl < rl
  · apply does_taken
    · simp [h₆]
    exact hargument _ rfl rfl rfl rfl (.inr (.inr (.inr (.inr (.inr h₆)))))
  apply does_notTaken
  · simp [h₆]
  have hgood : ¬ Refused lay.packet (word ch cl) (word rh rl) := by
    rw [hrefused]
    simp [h₁, h₂, h₃, h₄, h₅, h₆]
  rw [if_neg hgood] at ht
  have hroom₁ := hroom h₁ h₂
  have hle : rl.toNat ≤ cl.toNat := Nat.le_of_not_lt h₆
  have hcl255 := cl.toNat_lt
  have hread : (s.mem.store (lay.bottom + 10) rl).read (lay.packet + 1) rl.toNat =
      s.mem.read (lay.packet + 1) rl.toNat := by
    have hstore := hA.same_store s.mem rl (d := 10) (k := 11) (by decide) (by decide)
    exact hstore.request (by omega) (by omega)
  apply does_op
  simp only [Op.exec, Cpu.index, Cpu.reg, haddr]
  refine openLink_does hA hb hbase hroom₁ ?_ (Memory.store_same _ _ _) hle hlive ?_
  · exact hf.store hA (d := 10) (by decide) rfl rfl rfl rfl
  · rw [ht, hread]

/-- The workspace capacity in a client structure. -/
def capacityAt (m : Memory) (p : UInt16) : UInt16 := m.loadWord (p + clientCapacity)

/-- The layout of a call of `_squid_client_exchange`. Only a workspace that the call accepts is
its to use, and that has a byte more than its capacity. -/
def layoutOf (s : Cpu) : Layout where
  client := s.hl
  packet := s.mem.loadWord (s.hl + clientPacket)
  room :=
    if s.mem.loadWord (s.hl + clientPacket) ≠ 0 ∧ (capacityAt s.mem s.hl).toNat ≤ 255 then
      (capacityAt s.mem s.hl).toNat + 1
    else 0
  bottom := s.sp - 15
  fd := s.mem.loadWord (s.hl + clientFd)
  idle := s.mem.loadWord (s.hl + clientIdle)

/-- The client structure at an address, as the portable engine has it. -/
def clientAt (m : Memory) (p : UInt16) : Option SquidClient :=
  if p = 0 then none
  else some {
    packet :=
      if m.loadWord (p + clientPacket) = 0 then none
      else some (m.read (m.loadWord (p + clientPacket)) ((capacityAt m p).toNat + 1))
    packetCapacity := (capacityAt m p).toNat
    idle := m.loadWord (p + clientIdle) ≠ 0
    room := by
      intro workspace hw
      split at hw
      · cases hw
      · cases hw
        rw [Memory.length_read]
        exact Nat.lt_succ_self _ }

theorem layoutOf_room (hp : (layoutOf s).packet ≠ 0) (hh : high (capacityAt s.mem s.hl) = 0) :
    (layoutOf s).room = (low (capacityAt s.mem s.hl)).toNat + 1 := by
  have hlt := (low (capacityAt s.mem s.hl)).toNat_lt
  have hsmall := toNat_of_high_eq_zero hh
  rw [← hsmall]
  exact if_pos ⟨hp, by omega⟩

/-- What a call is to come to, in the terms of the registers and the memory. -/
theorem settle_clientAt (m : Memory) (hp : p ≠ 0) (n : UInt16) (wire : SocketView) :
    settle (clientAt m p) n.toNat wire =
      if Refused (m.loadWord (p + clientPacket)) (capacityAt m p) n then
        some ⟨squidClientErrorArgument, wire.sent, wire.unread, []⟩
      else if wire.up then if wire.sends then
          settleReply (low (capacityAt m p)).toNat (wire.sent ++
            [low n :: m.read (m.loadWord (p + clientPacket) + 1) (low n).toNat]) wire.unread
        else some ⟨squidClientErrorIo, wire.sent ++
          [low n :: m.read (m.loadWord (p + clientPacket) + 1) (low n).toNat], wire.unread, []⟩
      else some ⟨squidClientErrorLink, wire.sent, wire.unread, []⟩ := by
  rw [clientAt, if_neg hp, settle]
  dsimp only
  by_cases hpacket : m.loadWord (p + clientPacket) = 0
  · rw [if_pos (.inl (if_pos hpacket)), if_pos (.inl hpacket)]
  · by_cases hrest : (capacityAt m p).toNat = 0 ∨ 255 < (capacityAt m p).toNat ∨ n.toNat = 0 ∨
        (capacityAt m p).toNat < n.toNat
    · rw [if_pos (.inr hrest), if_pos (.inr hrest)]
    · have hrefused : ¬ Refused (m.loadWord (p + clientPacket)) (capacityAt m p) n :=
        fun h => h.elim hpacket hrest
      have hle : n.toNat ≤ (capacityAt m p).toNat := by omega
      have haccepted : ¬ ((if m.loadWord (p + clientPacket) = 0 then none
          else some (m.read (m.loadWord (p + clientPacket)) ((capacityAt m p).toNat + 1))) = none ∨
            (capacityAt m p).toNat = 0 ∨ squidClientPacketMax < (capacityAt m p).toNat ∨
            n.toNat = 0 ∨ (capacityAt m p).toNat < n.toNat) := by
        rw [if_neg hpacket]
        exact fun h => h.elim (Option.some_ne_none _) hrest
      rw [if_neg hrefused, if_neg haccepted, toNat_low (w := n) (by omega),
        toNat_low (w := capacityAt m p) (by omega)]
      simp only [SquidClient.bytes, SquidClient.store_packet, if_neg hpacket, Option.map_some,
        Option.getD_some, List.length_singleton, Memory.read, List.drop_succ_cons, List.drop_zero,
        List.singleton_append, List.take_succ_cons, Memory.take_read _ _ hle, low]

/-- The memory once the frame of a call is made. -/
def framedMemory (s : Cpu) : Memory :=
  ((s.mem.storeWord (s.sp - 2) s.ix).storeWord (s.sp - 2 - 2) s.iy).storeWord (s.sp - 2 - 2 - 2)
    s.hl

theorem layoutOf_sp (s : Cpu) : s.sp = (layoutOf s).bottom + 15 :=
  (UInt16.sub_add_cancel s.sp 15).symm

theorem framedMemory_eq (s : Cpu) : framedMemory s =
    ((s.mem.storeWord ((layoutOf s).bottom + 13) s.ix).storeWord ((layoutOf s).bottom + 11)
      s.iy).storeWord ((layoutOf s).bottom + 9) s.hl := by
  have hdown : ∀ b d d' : UInt16, d - 2 = d' → b + d - 2 = b + d' := by
    intro b d d' h
    rw [UInt16.sub_eq_add_neg, UInt16.add_assoc, ← UInt16.sub_eq_add_neg, h]
  rw [framedMemory, layoutOf_sp s, hdown _ 15 13 rfl, hdown _ 13 11 rfl, hdown _ 11 9 rfl]

theorem framedMemory_same (hA : (layoutOf s₀).Apart) :
    (layoutOf s₀).Same 15 s₀.mem (framedMemory s₀) := by
  rw [framedMemory_eq]
  refine Layout.Same.trans (hA.same_storeWord s₀.mem s₀.ix 13 (by decide) (by decide)) ?_
  refine Layout.Same.trans (hA.same_storeWord _ s₀.iy 11 (by decide) (by decide)) ?_
  exact hA.same_storeWord _ _ 9 (by decide) (by decide)

theorem based_framedMemory (hA : (layoutOf s₀).Apart) :
    Based (layoutOf s₀) s₀ (framedMemory s₀) where
  fd := (framedMemory_same hA).clientWord clientFd (by decide) (by decide)
  packet := (framedMemory_same hA).clientWord clientPacket (by decide) (by decide)
  idle := (framedMemory_same hA).clientWord clientIdle (by decide) (by decide)
  iy := by
    rw [framedMemory_eq, Memory.loadWord_storeWord_other _ _ (by simp)
      (by simp [UInt16.add_assoc]) (by simp [UInt16.add_assoc]), Memory.loadWord_storeWord]
  ix := by
    rw [framedMemory_eq, Memory.loadWord_storeWord_other _ _ (by simp)
      (by simp [UInt16.add_assoc]) (by simp [UInt16.add_assoc]),
      Memory.loadWord_storeWord_other _ _ (by simp) (by simp [UInt16.add_assoc])
        (by simp [UInt16.add_assoc]), Memory.loadWord_storeWord]
  back := by
    rw [(framedMemory_same hA).stackWord 15 (by decide) (by decide), ← layoutOf_sp]
  sp := layoutOf_sp s₀

theorem exchange_does (hA : (layoutOf s₀).Apart) (hp : s₀.hl ≠ 0)
    (hlive : live → Fair w.wire.sizes ∧ target ≠ none)
    (ht : target = settle (clientAt s₀.mem s₀.hl) s₀.de.toNat w.wire) :
    Does (external (layoutOf s₀)) (code site) bound live exchangeCode s₀ w
      (Final (layoutOf s₀) s₀ target) := by
  iterate 2 apply does_op
  apply does_notTaken
  · simp only [Cond.holds, Op.exec, Cpu.setReg, Cpu.reg, or_eq_zero_iff]
    exact decide_eq_false hp
  iterate 9 apply does_op
  apply does_next
  simp only [Op.exec, Cpu.setReg, Cpu.reg, Cpu.setPair, Cpu.push, Cpu.pair, Cpu.hl, word_high_low,
    Memory.loadWord_storeWord]
  have h6 : -localBytes + (s₀.sp - 2 - 2 - 2 + 2) = (layoutOf s₀).bottom + 6 := by
    rw [UInt16.sub_add_cancel, layoutOf_sp s₀, UInt16.add_comm, UInt16.sub_eq_add_neg,
      UInt16.sub_eq_add_neg, UInt16.add_assoc, UInt16.add_assoc, UInt16.add_assoc]
    rfl
  have h0 : 0 + ((layoutOf s₀).bottom + 6) = (layoutOf s₀).bottom + 6 := UInt16.zero_add _
  simp only [h6, h0]
  have hsame := framedMemory_same hA
  have hcap : (framedMemory s₀).loadWord ((layoutOf s₀).client + clientCapacity) =
      word (high (capacityAt s₀.mem s₀.hl)) (low (capacityAt s₀.mem s₀.hl)) := by
    rw [word_high_low]
    exact hsame.clientWord clientCapacity (by decide) (by decide)
  refine validate_does hA (based_framedMemory hA) hcap ?_ ⟨⟨rfl, rfl, rfl⟩, fun a _ => rfl⟩ rfl rfl
    hlive ?_
  · exact layoutOf_room
  · rw [ht, settle_clientAt _ hp]
    refine ite_congr (by rw [word_high_low]; rfl) (fun _ => rfl) fun hgood => ?_
    have hread : (framedMemory s₀).read ((layoutOf s₀).packet + 1) s₀.e.toNat =
        s₀.mem.read (s₀.mem.loadWord (s₀.hl + clientPacket) + 1) s₀.e.toNat := by
      rw [refused_word] at hgood
      push Not at hgood
      obtain ⟨hpacket, hhigh, -, -, -, hfits⟩ := hgood
      have hle : s₀.e.toNat ≤ (low (capacityAt s₀.mem s₀.hl)).toNat := Nat.le_of_not_lt hfits
      have hroom := layoutOf_room hpacket hhigh
      have hlt := (low (capacityAt s₀.mem s₀.hl)).toNat_lt
      exact hsame.request (by omega) (by omega)
    have hlow : low s₀.de = s₀.e := low_word _ _
    rw [hlow, ← hread]
    rfl

theorem exchange_null (hp : s₀.hl = 0)
    (ht : target = settle (clientAt s₀.mem s₀.hl) s₀.de.toNat w.wire) :
    Does (external lay) (code site) bound live exchangeCode s₀ w (Final lay s₀ target) := by
  iterate 2 apply does_op
  apply does_taken
  · simp only [Cond.holds, Op.exec, Cpu.setReg, Cpu.reg, or_eq_zero_iff]
    exact decide_eq_true hp
  apply does_op
  apply does_ret
  rw [clientAt, if_pos hp] at ht
  refine ⟨_, ht, rfl, rfl, rfl, rfl, ?_⟩
  have hsigned : signed errorArgument = squidClientErrorArgument := by decide
  simp only [Op.exec, Cpu.setPair, Cpu.de, word_high_low, hsigned]
  exact settles_error _ (by decide) _ _

/-- The Z80 engine, whatever the objects of the call are. -/
theorem exchange_settles (h : s₀.hl ≠ 0 → (layoutOf s₀).Apart)
    (hlive : live → Fair w.wire.sizes ∧ settle (clientAt s₀.mem s₀.hl) s₀.de.toNat w.wire ≠ none) :
    Does (external (layoutOf s₀)) (code site) bound live exchangeCode s₀ w
      (Final (layoutOf s₀) s₀ (settle (clientAt s₀.mem s₀.hl) s₀.de.toNat w.wire)) := by
  by_cases hp : s₀.hl = 0
  · exact exchange_null hp rfl
  · exact exchange_does (h hp) hp hlive rfl

/-- The wire with another fragmentation. -/
def fragmented (wire : SocketView) (sizes : Nat → Nat) : SocketView := { wire with sizes := sizes }

theorem settle_fragmented (client : Option SquidClient) (n : Nat) (wire : SocketView)
    (sizes : Nat → Nat) : settle client n (fragmented wire sizes) = settle client n wire := rfl

/-- The two engines agree. With fragmentations that hand every byte out sooner or later, the one
returns if and only if the other does. Under any two fragmentations, what they return is the same
value, after the same messages and with the same bytes unread, and with the same reply at
`client->packet`; and the Z80 engine comes back to its caller, with its stack and its index
registers as they were. -/
theorem squidClientExchange_engines (s₀ : Cpu) (site : Nat → UInt16) (wire : SocketView)
    (sizes : Nat → Nat) (junk : Nat → Cpu) (h : s₀.hl ≠ 0 → (layoutOf s₀).Apart) :
    (Fair wire.sizes → Fair sizes →
      ((∃ fuel x wire', (squidClientExchangeAt fuel (clientAt s₀.mem s₀.hl) s₀.de.toNat).run
          wireAnswers wire = (some x, wire')) ↔
        ∃ n x, run (external (layoutOf s₀)) (code site) n exchangeCode s₀
          ⟨fragmented wire sizes, junk⟩ = some x)) ∧
    ∀ fuel result client wire' n r s w,
      (squidClientExchangeAt fuel (clientAt s₀.mem s₀.hl) s₀.de.toNat).run wireAnswers wire =
        (some (result, client), wire') →
      run (external (layoutOf s₀)) (code site) n exchangeCode s₀ ⟨fragmented wire sizes, junk⟩ =
        some (r, s, w) →
      signed s.de = result ∧ w.wire.sent = wire'.sent ∧ w.wire.unread = wire'.unread ∧
        (0 ≤ result → s.mem.read (layoutOf s₀).packet result.toNat =
          packetBytes client result.toNat) ∧
        r = s₀.mem.loadWord s₀.sp ∧ s.sp = s₀.sp + 2 ∧ s.ix = s₀.ix ∧ s.iy = s₀.iy := by
  have hsafe : ∀ n r s w, run (external (layoutOf s₀)) (code site) n exchangeCode s₀
      ⟨fragmented wire sizes, junk⟩ = some (r, s, w) →
        Final (layoutOf s₀) s₀ (settle (clientAt s₀.mem s₀.hl) s₀.de.toNat wire) r s w := by
    intro n r s w hrun
    have hdoes : Does (external (layoutOf s₀)) (code site) n False exchangeCode s₀
        ⟨fragmented wire sizes, junk⟩ _ := exchange_settles h False.elim
    exact hdoes.safe n r s w (Nat.le_refl n) hrun
  constructor
  · intro hf hf'
    constructor
    · rintro ⟨fuel, ⟨result, client⟩, wire', hrun⟩
      obtain ⟨settlement, hsettle, -⟩ := squidClientExchangeAt_settles hrun
      have hsome : settle (clientAt s₀.mem s₀.hl) s₀.de.toNat (fragmented wire sizes) ≠ none := by
        rw [settle_fragmented, hsettle]
        exact Option.some_ne_none _
      have hdoes : Does (external (layoutOf s₀)) (code site) 0 True exchangeCode s₀
          ⟨fragmented wire sizes, junk⟩ _ := exchange_settles h fun _ => ⟨hf', hsome⟩
      obtain ⟨n, r, s, w, hz, -⟩ := hdoes.returns trivial
      exact ⟨n, _, hz⟩
    · rintro ⟨n, ⟨r, s, w⟩, hrun⟩
      obtain ⟨settlement, hsettle, -⟩ := hsafe n r s w hrun
      apply squidClientExchangeAt_returns _ _ hf
      rw [hsettle]
      exact Option.some_ne_none _
  · intro fuel result client wire' n r s w hc hz
    obtain ⟨settlement, hsettle, hs⟩ := squidClientExchangeAt_settles hc
    obtain ⟨settlement', hsettle', hexit⟩ := hsafe n r s w hz
    rw [hsettle] at hsettle'
    cases hsettle'
    have hs' := hexit.settles
    have hresult : signed s.de = result := hs'.result.trans hs.result.symm
    refine ⟨hresult, hs'.sent.trans hs.sent.symm, hs'.unread.trans hs.unread.symm, ?_, hexit.back,
      hexit.sp, hexit.ix, hexit.iy⟩
    intro hpos
    rw [hs.reply hpos, ← hs'.reply (by rwa [hresult]), hresult]

end

theorem not_inBlock_of_le (h : b.toNat + n ≤ b'.toNat) (h' : b'.toNat + n' ≤ 65536)
    (ha : InBlock b n a) : ¬ InBlock b' n' a := by
  have hlt := a.toNat_lt
  have hb := b.toNat_lt
  have hb' := b'.toNat_lt
  rw [InBlock, UInt16.toNat_sub] at ha ⊢
  omega

/-- A client at 256 with a workspace of four bytes at 512, and a request of one byte in it. -/
def smallCall : Cpu where
  a := 0
  b := 0
  c := 0
  d := 0
  e := 1
  h := 1
  l := 0
  ix := 0
  iy := 0
  sp := 1024
  zero := false
  carry := false
  mem := Memory.write (fun _ => 0) 256 [3, 0, 0, 2, 4]

theorem smallCall_apart : (layoutOf smallCall).Apart where
  client := fun _ ha hb => not_inBlock_of_le (by decide) (by decide) hb ha
  packet := fun _ ha hb => not_inBlock_of_le (by decide) (by decide) hb ha
  both := fun _ ha hb => not_inBlock_of_le (by decide) (by decide) ha hb

/-- Two bytes at a time on the one side, and one or none at a time on the other. -/
theorem squidClientExchange_engines_smallCall : ∃ n r s w,
    run (external (layoutOf smallCall)) (code UInt16.ofNat) n exchangeCode smallCall
      ⟨fragmented ⟨true, 9, true, [], [2, 7, 8, 5], fun _ => 2⟩ fun i => i % 2,
        fun _ => smallCall⟩ = some (r, s, w) ∧
      signed s.de = 2 ∧ w.wire.sent = [[1, 0]] ∧ w.wire.unread = [5] ∧
        s.mem.read 512 2 = [7, 8] := by
  let wire : SocketView := ⟨true, 9, true, [], [2, 7, 8, 5], fun _ => 2⟩
  have hc : ∃ client wire', (squidClientExchangeAt 9 (clientAt smallCall.mem smallCall.hl)
      smallCall.de.toNat).run wireAnswers wire = (some (2, client), wire') ∧
        wire'.sent = [[1, 0]] ∧ wire'.unread = [5] ∧ packetBytes client 2 = [7, 8] :=
    ⟨_, _, rfl, rfl, rfl, rfl⟩
  obtain ⟨client, wire', hrun, hsent, hunread, hbytes⟩ := hc
  have hfair : Fair fun i => i % 2 := by
    intro i
    refine ⟨1 - i % 2, ?_⟩
    dsimp only
    omega
  obtain ⟨hreturns, hagree⟩ := squidClientExchange_engines smallCall UInt16.ofNat wire
    (fun i => i % 2) (fun _ => smallCall) fun _ => smallCall_apart
  obtain ⟨n, ⟨r, s, w⟩, hz⟩ := (hreturns (fun _ => ⟨0, Nat.two_pos⟩) hfair).1 ⟨9, _, _, hrun⟩
  obtain ⟨hde, hs, hu, hreply, -⟩ := hagree 9 2 client wire' n r s w hrun hz
  exact ⟨n, r, s, w, hz, hde, hs.trans hsent, hu.trans hunread, (hreply (by decide)).trans hbytes⟩

end SquidServer.ClientZ80

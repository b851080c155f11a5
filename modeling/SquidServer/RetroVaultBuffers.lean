import SquidServer.Interaction
import Mathlib.Algebra.Group.Nat.Defs
import Mathlib.Data.List.Basic
import Mathlib.Tactic.Common

namespace SquidServer.RetroVault
open Interaction
set_option autoImplicit true

/-- A call of `realloc`, on the block that a pointer stands for and with the size to give it. -/
structure Realloc where
  block : List UInt8
  size : UInt64

/-- The effect of allocating memory: a block, or `none` for NULL. -/
abbrev Allocator : Effect := ⟨Realloc, fun _ => Option (List UInt8)⟩

def realloc (block : List UInt8) (size : UInt64) : Program Allocator (Option (List UInt8)) :=
  .ask (E := Allocator) ⟨block, size⟩

/-- The contract of `realloc`: a block has the size that was asked for, and starts with the bytes of
the old one as far as both go. -/
def Reallocates (e : Event Allocator) : Prop :=
  ∀ block, e.ans = some block → block.length = e.op.size.toNat ∧
    ∀ n ≤ e.op.size.toNat, n ≤ e.op.block.length → block.take n = e.op.block.take n

/-- `struct retro_vault_buffer`, with the block that `data` points to; NULL is the empty block. -/
structure RetroVaultBuffer where
  data : List UInt8
  size : UInt64
  capacity : UInt64
  limit : UInt64
  overflowed : Bool

def retroVaultBufferInit : RetroVaultBuffer where
  data := []
  size := 0
  capacity := 0
  limit := 0
  overflowed := false

/-- The loop that doubles the capacity, with a bound on its turns; `none` when the bound is used
up. -/
def growCapacity (limit required : UInt64) : Nat → UInt64 → Option UInt64
  | 0, _ => none
  | n + 1, capacity =>
    if capacity < required then
      if limit / 2 < capacity then some limit else growCapacity limit required n (capacity * 2)
    else some capacity

/-- The bytes are copied behind those that are there. -/
def RetroVaultBuffer.fill (buffer : RetroVaultBuffer) (bytes : List UInt8) (size : UInt64) :
    RetroVaultBuffer :=
  if 0 < size then
    { buffer with
      data := buffer.data.take buffer.size.toNat ++ (bytes.take size.toNat ++
        buffer.data.drop (buffer.size.toNat + size.toNat))
      size := buffer.size + size }
  else buffer

/-- `retro_vault_buffer_append`, on data that are `none` for NULL: whether it returns 0, and the
buffer behind it; `none` for a loop that does not end in 65 turns. -/
def retroVaultBufferAppend (buffer : RetroVaultBuffer) (data : Option (List UInt8))
    (size : UInt64) : Program Allocator (Option Bool × RetroVaultBuffer) := do
  if data = none ∧ 0 < size then return (some false, buffer)
  else if buffer.limit < size ∨ buffer.limit - size < buffer.size then
    return (some false, { buffer with overflowed := true })
  else
    let bytes := data.getD []
    let required := buffer.size + size
    if buffer.capacity < required then
      match growCapacity buffer.limit required 65
          (if 0 < buffer.capacity then buffer.capacity else 4096) with
      | none => return (none, buffer)
      | some capacity =>
        match ← realloc buffer.data capacity with
        | none => return (some false, buffer)
        | some resized =>
          let buffer := { buffer with data := resized, capacity := capacity }
          return (some true, buffer.fill bytes size)
    else return (some true, buffer.fill bytes size)

abbrev sizeMax : UInt64 := 0xFFFFFFFFFFFFFFFF

/-- `receive_http_data`. -/
def receiveHttpData (buffer : RetroVaultBuffer) (data : Option (List UInt8))
    (elementSize elementCount : UInt64) : Program Allocator (Option UInt64 × RetroVaultBuffer) := do
  if elementSize ≠ 0 ∧ sizeMax / elementSize < elementCount then return (some 0, buffer)
  else
    let dataSize := elementSize * elementCount
    let (appended, buffer) ← retroVaultBufferAppend buffer data dataSize
    return (appended.map fun appended => if appended then dataSize else 0, buffer)

/-- The doubling of a capacity, on whole numbers of any size. -/
inductive Grows (limit required : Nat) : Nat → Nat → Prop
  | enough : required ≤ capacity → Grows limit required capacity capacity
  | jump : capacity < required → limit / 2 < capacity → Grows limit required capacity limit
  | double : capacity < required → capacity ≤ limit / 2 →
      Grows limit required (capacity * 2) grown → Grows limit required capacity grown

theorem Grows.required_le (h : Grows limit required capacity grown) (hlimit : required ≤ limit) :
    required ≤ grown := by
  induction h with
  | enough hle => exact hle
  | jump => exact hlimit
  | double _ _ _ ih => exact ih

/-- The loop ends, and no capacity in it is too large for its type. -/
theorem growCapacity_grows (limit required : UInt64) {capacity : UInt64}
    (h : 2 ^ 64 ≤ 2 ^ n * capacity.toNat) :
    ∃ grown, growCapacity limit required (n + 1) capacity = some grown ∧
      Grows limit.toNat required.toNat capacity.toNat grown.toNat := by
  induction n generalizing capacity with
  | zero =>
    have hlt := capacity.toNat_lt
    omega
  | succ n ih =>
    rw [growCapacity]
    split
    · rename_i hless
      have hless := UInt64.lt_iff_toNat_lt.1 hless
      split
      · rename_i hhalf
        have hhalf := UInt64.lt_iff_toNat_lt.1 hhalf
        rw [UInt64.toNat_div] at hhalf
        exact ⟨limit, rfl, .jump hless hhalf⟩
      · rename_i hhalf
        have hhalf : capacity.toNat ≤ limit.toNat / 2 := by
          have hle := UInt64.le_iff_toNat_le.1 (UInt64.not_lt.1 hhalf)
          rwa [UInt64.toNat_div] at hle
        have hdouble : (capacity * 2).toNat = capacity.toNat * 2 := by
          have hlimit := limit.toNat_lt
          rw [UInt64.toNat_mul]
          exact Nat.mod_eq_of_lt (by change capacity.toNat * 2 < 2 ^ 64; omega)
        have hturns : 2 ^ 64 ≤ 2 ^ n * (capacity * 2).toNat := by
          rw [hdouble, Nat.mul_comm capacity.toNat 2, ← Nat.mul_assoc, ← Nat.pow_succ]
          exact h
        obtain ⟨grown, hgrown, hgrows⟩ := ih hturns
        rw [hdouble] at hgrows
        exact ⟨grown, hgrown, .double hless hhalf hgrows⟩
    · rename_i henough
      exact ⟨capacity, rfl, .enough (UInt64.le_iff_toNat_le.1 (UInt64.not_lt.1 henough))⟩

/-- What stands in a buffer. -/
def RetroVaultBuffer.bytes (buffer : RetroVaultBuffer) : List UInt8 :=
  buffer.data.take buffer.size.toNat

/-- A buffer of a limit, with its size inside its block and inside the limit. -/
structure RetroVaultBuffer.Valid (buffer : RetroVaultBuffer) (limit : UInt64) : Prop where
  sameLimit : buffer.limit = limit
  block : buffer.data.length = buffer.capacity.toNat
  inLimit : buffer.size ≤ limit
  inCapacity : buffer.size ≤ buffer.capacity

/-- Some data, and how many bytes of them are to be appended; NULL goes with no bytes. -/
structure Chunk where
  data : Option (List UInt8)
  size : UInt64
  readable : size.toNat ≤ (data.getD []).length

def Chunk.bytes (chunk : Chunk) : List UInt8 := (chunk.data.getD []).take chunk.size.toNat

theorem Chunk.length_bytes (chunk : Chunk) : chunk.bytes.length = chunk.size.toNat := by
  rw [Chunk.bytes, List.length_take]
  exact Nat.min_eq_left chunk.readable

/-- One call of the function. -/
abbrev Append := Exchange Allocator RetroVaultBuffer Chunk (Option Bool)

/-- A chunk goes beyond the limit. -/
def Append.Exceeds (limit : UInt64) (x : Append) : Prop :=
  limit.toNat < x.before.size.toNat + x.request.size.toNat

/-- A call ends, keeps the buffer in its bounds, appends all of the chunk or nothing, and notes
exactly whether the limit stands against it. -/
structure Append.Sound (limit : UInt64) (x : Append) : Prop where
  ends : x.reply ≠ none
  valid : x.after.Valid limit
  grown : ∀ e ∈ x.events, x.before.size.toNat + x.request.size.toNat ≤ e.op.size.toNat ∧
    Grows limit.toNat (x.before.size.toNat + x.request.size.toNat)
      (if 0 < x.before.capacity then x.before.capacity else 4096).toNat e.op.size.toNat
  appended : x.reply = some true → x.after.bytes = x.before.bytes ++ x.request.bytes
  rejected : x.reply = some false →
    x.after.bytes = x.before.bytes ∧ x.after.size = x.before.size
  overflowed : x.after.overflowed = true ↔ x.before.overflowed = true ∨ x.Exceeds limit
  refused : x.Exceeds limit → x.reply = some false

theorem exceeds_iff {limit size held : UInt64} (h : held ≤ limit) :
    (limit < size ∨ limit - size < held) ↔ limit.toNat < held.toNat + size.toNat := by
  have hheld := UInt64.le_iff_toNat_le.1 h
  rw [UInt64.lt_iff_toNat_lt, UInt64.lt_iff_toNat_lt]
  by_cases hsize : size.toNat ≤ limit.toNat
  · rw [UInt64.toNat_sub_of_le _ _ (UInt64.le_iff_toNat_le.2 hsize)]
    omega
  · omega

theorem toNat_add_of_le {limit size held : UInt64}
    (h : held.toNat + size.toNat ≤ limit.toNat) :
    (held + size).toNat = held.toNat + size.toNat := by
  rw [UInt64.toNat_add]
  exact Nat.mod_eq_of_lt (Nat.lt_of_le_of_lt h limit.toNat_lt)

theorem RetroVaultBuffer.Valid.fill {buffer : RetroVaultBuffer} {limit : UInt64}
    (h : buffer.Valid limit) (chunk : Chunk)
    (hlimit : buffer.size.toNat + chunk.size.toNat ≤ limit.toNat)
    (hcapacity : buffer.size.toNat + chunk.size.toNat ≤ buffer.capacity.toNat) :
    (buffer.fill (chunk.data.getD []) chunk.size).Valid limit ∧
      (buffer.fill (chunk.data.getD []) chunk.size).bytes = buffer.bytes ++ chunk.bytes ∧
      (buffer.fill (chunk.data.getD []) chunk.size).overflowed = buffer.overflowed := by
  have hadded : (buffer.size + chunk.size).toNat = buffer.size.toNat + chunk.size.toNat :=
    toNat_add_of_le hlimit
  have hheld : buffer.size.toNat ≤ buffer.data.length := by
    rw [h.block]
    omega
  rw [RetroVaultBuffer.fill]
  split
  · have htake : (buffer.data.take buffer.size.toNat).length = buffer.size.toNat := by
      rw [List.length_take, Nat.min_eq_left hheld]
    have hchunk := chunk.length_bytes
    rw [Chunk.bytes] at hchunk
    refine ⟨⟨h.sameLimit, ?_, ?_, ?_⟩, ?_, rfl⟩
    · dsimp only
      rw [List.length_append, List.length_append, List.length_drop, htake, hchunk, h.block]
      omega
    · rw [UInt64.le_iff_toNat_le, hadded]
      exact hlimit
    · rw [UInt64.le_iff_toNat_le, hadded]
      exact hcapacity
    · rw [RetroVaultBuffer.bytes, hadded, ← List.append_assoc, List.take_left']
      · rfl
      · rw [List.length_append, htake, hchunk]
  · rename_i hempty
    have hzero : chunk.size.toNat = 0 := by
      have hle := UInt64.le_iff_toNat_le.1 (UInt64.not_lt.1 hempty)
      exact Nat.le_zero.1 hle
    refine ⟨h, ?_, rfl⟩
    rw [Chunk.bytes, hzero, List.take_zero, List.append_nil]

theorem Append.Sound.inside {limit : UInt64} {x : Append} (h : ¬ x.Exceeds limit)
    (hvalid : x.after.Valid limit)
    (hgrown : ∀ e ∈ x.events, x.before.size.toNat + x.request.size.toNat ≤ e.op.size.toNat ∧
      Grows limit.toNat (x.before.size.toNat + x.request.size.toNat)
        (if 0 < x.before.capacity then x.before.capacity else 4096).toNat e.op.size.toNat)
    (hnoted : x.after.overflowed = x.before.overflowed)
    (hreply : x.reply = some true ∧ x.after.bytes = x.before.bytes ++ x.request.bytes ∨
      x.reply = some false ∧ x.after.bytes = x.before.bytes ∧ x.after.size = x.before.size) :
    x.Sound limit where
  ends := by
    rcases hreply with ⟨hreply, -⟩ | ⟨hreply, -⟩
    · rw [hreply]
      exact Option.some_ne_none _
    · rw [hreply]
      exact Option.some_ne_none _
  valid := hvalid
  grown := hgrown
  appended := by
    intro htrue
    rcases hreply with ⟨-, hbytes⟩ | ⟨hfalse, -⟩
    · exact hbytes
    · cases htrue.symm.trans hfalse
  rejected := by
    intro hfalse
    rcases hreply with ⟨htrue, -⟩ | ⟨-, hsame⟩
    · cases htrue.symm.trans hfalse
    · exact hsame
  overflowed := by rw [hnoted, or_iff_left h]
  refused := fun hexceeds => absurd hexceeds h

theorem retroVaultBufferAppend_sound {limit : UInt64} {buffer : RetroVaultBuffer}
    (h : buffer.Valid limit) (chunk : Chunk) :
    Ensures (recording Reallocates) (retroVaultBufferAppend buffer chunk.data chunk.size)
      (fun r t => Append.Sound limit ⟨buffer, chunk, t, r.1, r.2⟩) [] := by
  have hgiven : ¬ (chunk.data = none ∧ 0 < chunk.size) := by
    rintro ⟨hnone, hpos⟩
    have hreadable := chunk.readable
    rw [hnone] at hreadable
    exact absurd (UInt64.lt_iff_toNat_lt.1 hpos) (Nat.not_lt.2 hreadable)
  obtain rfl := h.sameLimit
  rw [retroVaultBufferAppend, if_neg hgiven]
  split
  · rename_i hexceeds
    refine ensures_pure.2 ?_
    constructor
    case ends => exact Option.some_ne_none _
    case valid => exact ⟨rfl, h.block, h.inLimit, h.inCapacity⟩
    case grown => intro e he; cases he
    case appended => intro hreply; cases hreply
    case rejected => exact fun _ => ⟨rfl, rfl⟩
    case overflowed => exact iff_of_true rfl (.inr ((exceeds_iff h.inLimit).1 hexceeds))
    case refused => exact fun _ => rfl
  rename_i hinside
  rw [exceeds_iff h.inLimit] at hinside
  have hlimit : buffer.size.toNat + chunk.size.toNat ≤ buffer.limit.toNat :=
    Nat.le_of_not_lt hinside
  have hadded := toNat_add_of_le hlimit
  dsimp only
  split
  · rename_i hgrow
    generalize hstart : (if 0 < buffer.capacity then buffer.capacity else 4096) = start
    have hpos : 0 < start.toNat := by
      rw [← hstart]
      split
      · rename_i hcapacity
        exact UInt64.lt_iff_toNat_lt.1 hcapacity
      · decide
    obtain ⟨capacity, hcapacity, hgrows⟩ := growCapacity_grows (n := 64) buffer.limit
      (buffer.size + chunk.size) (Nat.le_mul_of_pos_right (2 ^ 64) hpos)
    rw [hadded] at hgrows
    have hroom := hgrows.required_le hlimit
    rw [hcapacity]
    refine ensures_bind.2 (ensures_ask ?_)
    rintro answer t ⟨hcontract, rfl⟩
    have hgrown : ∀ e ∈ [(⟨⟨buffer.data, capacity⟩, answer⟩ : Event Allocator)],
        buffer.size.toNat + chunk.size.toNat ≤ e.op.size.toNat ∧
        Grows buffer.limit.toNat (buffer.size.toNat + chunk.size.toNat)
          (if 0 < buffer.capacity then buffer.capacity else 4096).toNat e.op.size.toNat := by
      intro e he
      rw [List.mem_singleton.1 he, hstart]
      exact ⟨hroom, hgrows⟩
    cases answer with
    | none =>
      exact ensures_pure.2 (.inside hinside h hgrown rfl (.inr ⟨rfl, rfl, rfl⟩))
    | some resized =>
      obtain ⟨hlength, hsame⟩ := hcontract resized rfl
      dsimp only at hlength hsame
      have hheld := UInt64.le_iff_toNat_le.1 h.inCapacity
      have hbytes : resized.take buffer.size.toNat = buffer.data.take buffer.size.toNat :=
        hsame _ (by omega) (by rw [h.block]; exact hheld)
      have hresized : RetroVaultBuffer.Valid { buffer with data := resized, capacity := capacity }
          buffer.limit := ⟨rfl, hlength, h.inLimit, UInt64.le_iff_toNat_le.2 (by dsimp only; omega)⟩
      obtain ⟨hvalid, happended, hnoted⟩ := hresized.fill chunk hlimit hroom
      refine ensures_pure.2 (.inside hinside hvalid hgrown hnoted (.inl ⟨rfl, ?_⟩))
      rw [happended, RetroVaultBuffer.bytes, hbytes]
      rfl
  · rename_i hroom
    have hroom : buffer.size.toNat + chunk.size.toNat ≤ buffer.capacity.toNat := by
      have hle := UInt64.le_iff_toNat_le.1 (UInt64.not_lt.1 hroom)
      rwa [hadded] at hle
    obtain ⟨hvalid, happended, hnoted⟩ := h.fill chunk hlimit hroom
    refine ensures_pure.2 (.inside hinside hvalid ?_ hnoted (.inl ⟨rfl, happended⟩))
    intro e he
    cases he

theorem product_fits {elementSize elementCount : UInt64}
    (h : ¬ (elementSize ≠ 0 ∧ sizeMax / elementSize < elementCount)) :
    (elementSize * elementCount).toNat = elementSize.toNat * elementCount.toNat := by
  rw [UInt64.toNat_mul]
  apply Nat.mod_eq_of_lt
  by_cases hzero : elementSize = 0
  · rw [hzero]
    change 0 * _ < _
    rw [Nat.zero_mul]
    decide
  · have hpos : 0 < elementSize.toNat := by
      apply Nat.pos_of_ne_zero
      intro hn
      exact hzero (UInt64.toNat_inj.1 hn)
    have hle : elementCount.toNat ≤ (2 ^ 64 - 1) / elementSize.toNat := by
      have hnot := UInt64.le_iff_toNat_le.1 (UInt64.not_lt.1 fun hlt => h ⟨hzero, hlt⟩)
      rwa [UInt64.toNat_div] at hnot
    have hmul := (Nat.le_div_iff_mul_le hpos).1 hle
    rw [Nat.mul_comm]
    omega

/-- What is received is appended as a whole, or nothing of it is and 0 tells so. -/
theorem receiveHttpData_sound {limit : UInt64} {buffer : RetroVaultBuffer}
    (h : buffer.Valid limit) (data : List UInt8) (elementSize elementCount : UInt64)
    (hdata : elementSize.toNat * elementCount.toNat ≤ data.length) :
    Ensures (recording Reallocates) (receiveHttpData buffer (some data) elementSize elementCount)
      (fun r _ => r.2.Valid limit ∧
        (r.1 = some (elementSize * elementCount) ∧
            r.2.bytes = buffer.bytes ++ data.take (elementSize.toNat * elementCount.toNat) ∨
          r.1 = some 0 ∧ r.2.bytes = buffer.bytes)) [] := by
  rw [receiveHttpData]
  split
  · exact ensures_pure.2 ⟨h, .inr ⟨rfl, rfl⟩⟩
  rename_i hfits
  have hproduct := product_fits hfits
  let chunk : Chunk := ⟨some data, elementSize * elementCount, by rw [hproduct]; exact hdata⟩
  refine ensures_bind.2 ((retroVaultBufferAppend_sound h chunk).mono ?_)
  rintro ⟨reply, after⟩ t hsound
  refine ensures_pure.2 ⟨hsound.valid, ?_⟩
  cases reply with
  | none => exact absurd rfl hsound.ends
  | some accepted =>
    cases accepted with
    | true =>
      refine .inl ⟨rfl, ?_⟩
      rw [hsound.appended rfl, ← hproduct]
      rfl
    | false => exact .inr ⟨rfl, (hsound.rejected rfl).1⟩

def appendChunk (buffer : RetroVaultBuffer) (chunk : Chunk) :
    Program Allocator (Option Bool × RetroVaultBuffer) :=
  retroVaultBufferAppend buffer chunk.data chunk.size

/-- The chunks whose calls returned 0, one after the other. -/
def acceptedBytes (calls : List Append) : List UInt8 :=
  (calls.filter fun x => x.reply = some true).flatMap fun x => x.request.bytes

theorem acceptedBytes_cons {limit : UInt64} {x : Append} (h : x.Sound limit)
    (calls : List Append) :
    x.before.bytes ++ acceptedBytes (x :: calls) = x.after.bytes ++ acceptedBytes calls := by
  by_cases htrue : x.reply = some true
  · rw [h.appended htrue, acceptedBytes, List.filter_cons_of_pos (by simpa using htrue),
      List.flatMap_cons, ← List.append_assoc]
    rfl
  · have hfalse : x.reply = some false := by
      cases hreply : x.reply with
      | none => exact absurd hreply h.ends
      | some reply =>
        cases reply with
        | true => exact absurd hreply htrue
        | false => rfl
    rw [(h.rejected hfalse).1, acceptedBytes, List.filter_cons_of_neg (by simpa using htrue)]
    rfl

/-- Along any calls, a buffer has the chunks that were accepted behind what it started with. -/
theorem appends_sound {limit : UInt64} {calls : List Append}
    (h : Conversation Reallocates appendChunk buffer calls final) (hvalid : buffer.Valid limit) :
    final.Valid limit ∧ final.bytes = buffer.bytes ++ acceptedBytes calls ∧
      ∀ x ∈ calls, x.Sound limit := by
  induction h with
  | nil buffer => exact ⟨hvalid, (List.append_nil _).symm, by simp⟩
  | cons he hrest ih =>
    rename_i calls final x
    have hsound : Append.Sound limit x := retroVaultBufferAppend_sound hvalid x.request _ _ he
    obtain ⟨hfinal, hbytes, hall⟩ := ih hsound.valid
    refine ⟨hfinal, ?_, ?_⟩
    · rw [acceptedBytes_cons hsound, hbytes]
    · intro y hy
      rcases List.mem_cons.1 hy with rfl | hy
      · exact hsound
      · exact hall y hy

/-- An initialised buffer whose limit is then set. -/
def limitedBuffer (limit : UInt64) : RetroVaultBuffer :=
  { retroVaultBufferInit with limit := limit }

theorem limitedBuffer_valid (limit : UInt64) : (limitedBuffer limit).Valid limit :=
  ⟨rfl, rfl, UInt64.le_iff_toNat_le.2 (Nat.zero_le _), UInt64.le_iff_toNat_le.2 (Nat.zero_le _)⟩

/-- Whatever is appended and whatever `realloc` does, a buffer keeps to its limit and its block, and
has exactly the chunks in it that were accepted. -/
theorem appended_bytes_kept (limit : UInt64) (calls : List Append) (final : RetroVaultBuffer)
    (h : Conversation Reallocates appendChunk (limitedBuffer limit) calls final) :
    final.Valid limit ∧ final.bytes = acceptedBytes calls ∧ ∀ x ∈ calls, x.Sound limit :=
  appends_sound h (limitedBuffer_valid limit)

def oneByte : Chunk := ⟨some [0x2A], 1, by decide⟩

/-- The block that the buffer gets for its first byte. -/
def firstBlock : List UInt8 := List.replicate 4096 0

/-- A call that gets its block. -/
def firstAppend : Append where
  before := limitedBuffer 8
  request := oneByte
  events := [⟨⟨[], 4096⟩, some firstBlock⟩]
  reply := some true
  after := { limitedBuffer 8 with data := firstBlock, capacity := 4096 }.fill [0x2A] 1

/-- A call for which the block is large enough. -/
def secondAppend : Append where
  before := firstAppend.after
  request := ⟨some [0x2B, 0x2C], 2, by decide⟩
  events := []
  reply := some true
  after := firstAppend.after.fill [0x2B, 0x2C] 2

/-- A call that goes beyond the limit. -/
def refusedAppend : Append where
  before := secondAppend.after
  request := ⟨some [0, 0, 0, 0, 0, 0], 6, by decide⟩
  events := []
  reply := some false
  after := { secondAppend.after with overflowed := true }

theorem appended_bytes_kept_three :
    let calls := [firstAppend, secondAppend, refusedAppend]
    Conversation Reallocates appendChunk (limitedBuffer 8) calls refusedAppend.after ∧
    refusedAppend.after.Valid 8 ∧ refusedAppend.after.bytes = [0x2A, 0x2B, 0x2C] ∧
    ∀ x ∈ calls, x.Sound 8 := by
  intro calls
  have hfirst : Exec (recording Reallocates) [] (appendChunk (limitedBuffer 8) oneByte)
      firstAppend.events (some true, firstAppend.after) := by
    have hcall : appendChunk (limitedBuffer 8) oneByte = (realloc [] 4096).bind fun answer =>
        match answer with
        | none => .pure (some false, limitedBuffer 8)
        | some resized => .pure (some true,
            { limitedBuffer 8 with data := resized, capacity := 4096 }.fill [0x2A] 1) := by
      rfl
    rw [hcall]
    refine .call (r := some firstBlock) ⟨?_, rfl⟩ (.pure _ _)
    rintro block ⟨⟩
    refine ⟨List.length_replicate .., ?_⟩
    intro n _ hn
    rw [Nat.le_zero.1 hn]
    rfl
  have hrun : Conversation Reallocates appendChunk (limitedBuffer 8) calls refusedAppend.after := by
    refine .cons (x := firstAppend) hfirst (.cons (x := secondAppend) ?_
      (.single (x := refusedAppend) ?_))
    · exact .pure _ _
    · exact .pure _ _
  obtain ⟨hvalid, hbytes, hsound⟩ := appended_bytes_kept 8 _ _ hrun
  exact ⟨hrun, hvalid, hbytes, hsound⟩

end SquidServer.RetroVault

import Mathlib.Logic.Function.Basic
import Mathlib.Tactic.Common

namespace Z80
set_option autoImplicit true

def word (high low : UInt8) : UInt16 := UInt16.ofNat (high.toNat * 256 + low.toNat)

def high (w : UInt16) : UInt8 := UInt8.ofNat (w.toNat / 256)

def low (w : UInt16) : UInt8 := UInt8.ofNat w.toNat

@[simp] theorem toNat_word (h l : UInt8) : (word h l).toNat = h.toNat * 256 + l.toNat := by
  have hh := h.toNat_lt
  have hl := l.toNat_lt
  rw [word, UInt16.toNat_ofNat_of_lt']
  simp only [UInt16.size]
  omega

@[simp] theorem high_word (h l : UInt8) : high (word h l) = h := by
  apply UInt8.toNat_inj.1
  have hl := l.toNat_lt
  rw [high, toNat_word, show (h.toNat * 256 + l.toNat) / 256 = h.toNat by omega]
  exact UInt8.toNat_ofNat_of_lt' h.toNat_lt

@[simp] theorem low_word (h l : UInt8) : low (word h l) = l := by
  apply UInt8.toNat_inj.1
  have hl := l.toNat_lt
  rw [low, toNat_word, UInt8.toNat_ofNat']
  omega

@[simp] theorem word_high_low (w : UInt16) : word (high w) (low w) = w := by
  apply UInt16.toNat_inj.1
  have hw := w.toNat_lt
  rw [toNat_word, high, low, UInt8.toNat_ofNat', UInt8.toNat_ofNat']
  omega

theorem toNat_of_high_eq_zero (h : high w = 0) : w.toNat = (low w).toNat := by
  conv => lhs; rw [← word_high_low w, h]
  rw [toNat_word, UInt8.toNat_zero, Nat.zero_mul, Nat.zero_add]

theorem toNat_low {w : UInt16} (h : w.toNat < 256) : (low w).toNat = w.toNat :=
  UInt8.toNat_ofNat_of_lt' h

/-- The idiom `ld a,h; or a,l` tests a word for zero. -/
theorem or_eq_zero_iff (h l : UInt8) : h ||| l = 0 ↔ word h l = 0 := by
  rw [UInt8.or_eq_zero_iff, ← UInt16.toNat_inj, toNat_word, ← UInt8.toNat_inj, ← UInt8.toNat_inj,
    UInt8.toNat_zero, UInt16.toNat_zero]
  omega

abbrev Memory := UInt16 → UInt8

def Memory.store (m : Memory) (a : UInt16) (v : UInt8) : Memory :=
  fun x => if x = a then v else m x

def Memory.loadWord (m : Memory) (a : UInt16) : UInt16 := word (m (a + 1)) (m a)

def Memory.storeWord (m : Memory) (a : UInt16) (w : UInt16) : Memory :=
  (m.store a (low w)).store (a + 1) (high w)

/-- The bytes from an address on. -/
def Memory.read (m : Memory) (a : UInt16) : Nat → List UInt8
  | 0 => []
  | n + 1 => m a :: Memory.read m (a + 1) n

theorem Memory.storeWord_other (m : Memory) (w : UInt16) (h : x ≠ a) (h' : x ≠ a + 1) :
    m.storeWord a w x = m x := by
  rw [Memory.storeWord, Memory.store, if_neg h', Memory.store, if_neg h]

@[simp] theorem Memory.loadWord_storeWord (m : Memory) (a w : UInt16) :
    (m.storeWord a w).loadWord a = w := by
  have hne : a ≠ a + 1 := by simp
  simp [Memory.loadWord, Memory.storeWord, Memory.store, hne]

theorem Memory.loadWord_storeWord_other (m : Memory) (w : UInt16) (h : x ≠ a) (h' : x ≠ a + 1)
    (h'' : x + 1 ≠ a) : (m.storeWord a w).loadWord x = m.loadWord x := by
  have hsucc : x + 1 ≠ a + 1 := by rwa [Ne, UInt16.add_left_inj]
  rw [Memory.loadWord, Memory.loadWord, Memory.storeWord_other _ _ h h',
    Memory.storeWord_other _ _ h'' hsucc]

theorem Memory.read_congr (h : ∀ i < n, m' (a + UInt16.ofNat i) = m (a + UInt16.ofNat i)) :
    Memory.read m' a n = Memory.read m a n := by
  induction n generalizing a with
  | zero => rfl
  | succ n ih =>
    rw [Memory.read, Memory.read]
    congr 1
    · have hfirst := h 0 (Nat.succ_pos n)
      rwa [show UInt16.ofNat 0 = 0 from rfl, UInt16.add_zero] at hfirst
    · apply ih
      intro i hi
      have hnext := h (i + 1) (Nat.succ_lt_succ hi)
      rwa [UInt16.ofNat_add, UInt16.add_comm (UInt16.ofNat i), ← UInt16.add_assoc] at hnext

theorem Memory.read_snoc (m : Memory) (a : UInt16) (n : Nat) :
    Memory.read m a (n + 1) = Memory.read m a n ++ [m (a + UInt16.ofNat n)] := by
  induction n generalizing a with
  | zero =>
    rw [show UInt16.ofNat 0 = 0 from rfl, UInt16.add_zero]
    rfl
  | succ n ih =>
    rw [Memory.read, ih, Memory.read, UInt16.ofNat_add, UInt16.add_comm (UInt16.ofNat n),
      ← UInt16.add_assoc]
    rfl

@[simp] theorem Memory.length_read (m : Memory) (a : UInt16) (n : Nat) :
    (Memory.read m a n).length = n := by
  induction n generalizing a with
  | zero => rfl
  | succ n ih => rw [Memory.read, List.length_cons, ih]

theorem Memory.take_read (m : Memory) (a : UInt16) (h : n ≤ k) :
    (Memory.read m a k).take n = Memory.read m a n := by
  induction n generalizing a k with
  | zero => rfl
  | succ n ih =>
    obtain ⟨k, rfl⟩ : ∃ j, k = j + 1 := ⟨k - 1, by omega⟩
    rw [Memory.read, List.take_succ_cons, ih _ (Nat.le_of_succ_le_succ h), Memory.read]

def Memory.write (m : Memory) (a : UInt16) : List UInt8 → Memory
  | [] => m
  | b :: bytes => Memory.write (m.store a b) (a + 1) bytes

theorem Memory.store_same (m : Memory) (a : UInt16) (v : UInt8) : m.store a v a = v := if_pos rfl

theorem Memory.store_other (m : Memory) (v : UInt8) (h : x ≠ a) : m.store a v x = m x := if_neg h

inductive Reg where
  | a | b | c | d | e | h | l

inductive Pair where
  | bc | de | hl | ix | iy

inductive Index where
  | ix | iy

/-- The registers, the two flags the conditional jumps test, and the memory. -/
structure Cpu where
  a : UInt8
  b : UInt8
  c : UInt8
  d : UInt8
  e : UInt8
  h : UInt8
  l : UInt8
  ix : UInt16
  iy : UInt16
  sp : UInt16
  zero : Bool
  carry : Bool
  mem : Memory

def Cpu.bc (s : Cpu) : UInt16 := word s.b s.c

def Cpu.de (s : Cpu) : UInt16 := word s.d s.e

def Cpu.hl (s : Cpu) : UInt16 := word s.h s.l

@[simp] def Cpu.reg (s : Cpu) : Reg → UInt8
  | .a => s.a
  | .b => s.b
  | .c => s.c
  | .d => s.d
  | .e => s.e
  | .h => s.h
  | .l => s.l

@[simp] def Cpu.setReg (s : Cpu) (v : UInt8) : Reg → Cpu
  | .a => { s with a := v }
  | .b => { s with b := v }
  | .c => { s with c := v }
  | .d => { s with d := v }
  | .e => { s with e := v }
  | .h => { s with h := v }
  | .l => { s with l := v }

@[simp] def Cpu.pair (s : Cpu) : Pair → UInt16
  | .bc => s.bc
  | .de => s.de
  | .hl => s.hl
  | .ix => s.ix
  | .iy => s.iy

@[simp] def Cpu.setPair (s : Cpu) (v : UInt16) : Pair → Cpu
  | .bc => { s with b := high v, c := low v }
  | .de => { s with d := high v, e := low v }
  | .hl => { s with h := high v, l := low v }
  | .ix => { s with ix := v }
  | .iy => { s with iy := v }

@[simp] def Cpu.index (s : Cpu) : Index → UInt16
  | .ix => s.ix
  | .iy => s.iy

/-- The instructions that only move and compute. A displacement is taken modulo 2^16. -/
inductive Op where
  | ld (r r' : Reg)
  | ldImm (r : Reg) (n : UInt8)
  | ldIndexed (r : Reg) (x : Index) (d : UInt16)
  | stIndexed (x : Index) (d : UInt16) (r : Reg)
  | stHl (r : Reg)
  | ldPair (p : Pair) (n : UInt16)
  | push (p : Pair)
  | pop (p : Pair)
  | addSp (p : Pair)
  | ldSp (p : Pair)
  | incPair (p : Pair)
  | orA (r : Reg)
  | cp (r : Reg)
  | cpIndexed (x : Index) (d : UInt16)
  | bit7 (r : Reg)
  | decIndexed (x : Index) (d : UInt16)
  | exDeHl

def Cpu.push (s : Cpu) (w : UInt16) : Cpu :=
  { s with sp := s.sp - 2, mem := s.mem.storeWord (s.sp - 2) w }

def Cpu.compare (s : Cpu) (v : UInt8) : Cpu :=
  { s with zero := s.a = v, carry := s.a < v }

@[simp] def Op.exec (s : Cpu) : Op → Cpu
  | .ld r r' => s.setReg (s.reg r') r
  | .ldImm r n => s.setReg n r
  | .ldIndexed r x d => s.setReg (s.mem (s.index x + d)) r
  | .stIndexed x d r => { s with mem := s.mem.store (s.index x + d) (s.reg r) }
  | .stHl r => { s with mem := s.mem.store s.hl (s.reg r) }
  | .ldPair p n => s.setPair n p
  | .push p => s.push (s.pair p)
  | .pop p => { s.setPair (s.mem.loadWord s.sp) p with sp := s.sp + 2 }
  | .addSp p =>
    { s.setPair (s.pair p + s.sp) p with carry := 65536 ≤ (s.pair p).toNat + s.sp.toNat }
  | .ldSp p => { s with sp := s.pair p }
  | .incPair p => s.setPair (s.pair p + 1) p
  | .orA r => { s with a := s.a ||| s.reg r, zero := s.a ||| s.reg r = 0, carry := false }
  | .cp r => s.compare (s.reg r)
  | .cpIndexed x d => s.compare (s.mem (s.index x + d))
  | .bit7 r => { s with zero := (s.reg r).toNat < 128 }
  | .decIndexed x d =>
    { s with
      zero := s.mem (s.index x + d) - 1 = 0
      mem := s.mem.store (s.index x + d) (s.mem (s.index x + d) - 1) }
  | .exDeHl => { s with d := s.h, e := s.l, h := s.d, l := s.e }

inductive Cond where
  | always | z | nz | c

@[simp] def Cond.holds (s : Cpu) : Cond → Bool
  | .always => true
  | .z => s.zero
  | .nz => !s.zero
  | .c => s.carry

/-- Code with labels `L` that calls the external symbols `X`. A `call` carries the address that
the linker gave to the instruction after it, and `next` marks where the code runs into the next
label. -/
inductive Instr (L X : Type) where
  | op (o : Op)
  | jump (test : Cond) (l : L)
  | next (l : L)
  | call (site : UInt16) (l : L)
  | callExt (x : X)
  | ret

/-- How a stretch of code is left. -/
inductive Exit (L X W : Type) where
  | jump (l : L) (s : Cpu) (w : W)
  | call (site : UInt16) (l : L) (rest : List (Instr L X)) (s : Cpu) (w : W)
  | ret (s : Cpu) (w : W)
  | stuck

section
variable {L X W : Type} (ext : X → Cpu → W → Cpu × W) (code : L → List (Instr L X))

/-- Run to the next jump, call or return. External symbols act on the world `W` and come back
at once. -/
def straight : List (Instr L X) → Cpu → W → Exit L X W
  | [], _, _ => .stuck
  | .op o :: is, s, w => straight is (o.exec s) w
  | .jump test l :: is, s, w => if test.holds s then .jump l s w else straight is s w
  | .next l :: _, s, w => .jump l s w
  | .call site l :: is, s, w => .call site l is s w
  | .callExt x :: is, s, w => straight is (ext x s w).1 (ext x s w).2
  | .ret :: _, s, w => .ret s w

/-- Run until the code returns to its caller, at the address it then takes from the stack.
`none` when the fuel is used up, or when a subroutine does not come back to where it was
called. -/
def run : Nat → List (Instr L X) → Cpu → W → Option (UInt16 × Cpu × W)
  | 0, _, _, _ => none
  | n + 1, is, s, w =>
    match straight ext is s w with
    | .jump l s w => run n (code l) s w
    | .call site l rest s w =>
      match run n (code l) (s.push site) w with
      | none => none
      | some (back, s, w) => if back = site then run n rest s w else none
    | .ret s w => some (s.mem.loadWord s.sp, { s with sp := s.sp + 2 }, w)
    | .stuck => none

/-- Whatever the code returns within `bound` satisfies `Q`, and under `live` it does return. -/
structure Does (bound : Nat) (live : Prop) (is : List (Instr L X)) (s : Cpu) (w : W)
    (Q : UInt16 → Cpu → W → Prop) : Prop where
  safe : ∀ n r s' w', n ≤ bound → run ext code n is s w = some (r, s', w') → Q r s' w'
  returns : live → ∃ n r s' w', run ext code n is s w = some (r, s', w') ∧ Q r s' w'

end

section
variable {L X W : Type} {ext : X → Cpu → W → Cpu × W} {code : L → List (Instr L X)}
  {is is' : List (Instr L X)} {s s' : Cpu} {w w' : W} {Q R : UInt16 → Cpu → W → Prop}
  {bound : Nat} {live live' : Prop}

theorem run_mono (h : run ext code n is s w = some x) (hle : n ≤ m) :
    run ext code m is s w = some x := by
  induction n generalizing m is s w x with
  | zero => cases h
  | succ n ih =>
    obtain ⟨m, rfl⟩ : ∃ k, m = k + 1 := ⟨m - 1, by omega⟩
    have hle' : n ≤ m := by omega
    rw [run] at h ⊢
    cases hs : straight ext is s w with
    | jump l s w =>
      rw [hs] at h
      exact ih h hle'
    | call site l rest s w =>
      rw [hs] at h
      dsimp only at h ⊢
      cases hc : run ext code n (code l) (s.push site) w with
      | none =>
        rw [hc] at h
        cases h
      | some y =>
        obtain ⟨back, s₁, w₁⟩ := y
        rw [hc] at h
        rw [ih hc hle']
        dsimp only at h ⊢
        split at h
        · rename_i hb
          rw [if_pos hb]
          exact ih h hle'
        · cases h
    | ret s w =>
      rw [hs] at h
      exact h
    | stuck =>
      rw [hs] at h
      cases h

theorem run_congr (h : straight ext is s w = straight ext is' s' w') (n : Nat) :
    run ext code n is s w = run ext code n is' s' w' := by
  cases n with
  | zero => rfl
  | succ n => rw [run, run, h]

theorem Does.congr (hd : Does ext code bound live is' s' w' Q)
    (h : straight ext is s w = straight ext is' s' w') : Does ext code bound live is s w Q where
  safe := by
    intro n r s₁ w₁ hle hr
    rw [run_congr h] at hr
    exact hd.safe n r s₁ w₁ hle hr
  returns := by
    intro hl
    obtain ⟨n, r, s₁, w₁, hr, hq⟩ := hd.returns hl
    exact ⟨n, r, s₁, w₁, (run_congr h n).trans hr, hq⟩

theorem does_op (hd : Does ext code bound live is (o.exec s) w Q) :
    Does ext code bound live (.op o :: is) s w Q := hd.congr rfl

theorem does_ext (hd : Does ext code bound live is (ext x s w).1 (ext x s w).2 Q) :
    Does ext code bound live (.callExt x :: is) s w Q := hd.congr rfl

theorem does_leave (h : straight ext is s w = .jump l s' w')
    (hd : Does ext code bound live (code l) s' w' Q) :
    Does ext code (bound + 1) live is s w Q where
  safe := by
    intro n r s₁ w₁ hle hr
    cases n with
    | zero => cases hr
    | succ n =>
      rw [run, h] at hr
      exact hd.safe n r s₁ w₁ (Nat.le_of_succ_le_succ hle) hr
  returns := by
    intro hl
    obtain ⟨n, r, s₁, w₁, hr, hq⟩ := hd.returns hl
    refine ⟨n + 1, r, s₁, w₁, ?_, hq⟩
    rw [run, h]
    exact hr

theorem Does.weaken (hd : Does ext code (bound + 1) live is s w Q) :
    Does ext code bound live is s w Q where
  safe := fun n r s' w' hle hr => hd.safe n r s' w' (Nat.le_succ_of_le hle) hr
  returns := hd.returns

theorem does_next (hd : Does ext code bound live (code l) s w Q) :
    Does ext code bound live (.next l :: is) s w Q :=
  (does_leave rfl hd).weaken

theorem does_jump {test : Cond} (hc : test.holds s = true)
    (hd : Does ext code bound live (code l) s w Q) :
    Does ext code (bound + 1) live (.jump test l :: is) s w Q :=
  does_leave (by rw [straight, if_pos hc]) hd

theorem does_taken {test : Cond} (hc : test.holds s = true)
    (hd : Does ext code bound live (code l) s w Q) :
    Does ext code bound live (.jump test l :: is) s w Q :=
  (does_jump hc hd).weaken

theorem does_notTaken {test : Cond} (hc : test.holds s = false)
    (hd : Does ext code bound live is s w Q) :
    Does ext code bound live (.jump test l :: is) s w Q :=
  hd.congr (by rw [straight, if_neg (by rw [hc]; exact Bool.false_ne_true)])

theorem does_ret (h : Q (s.mem.loadWord s.sp) { s with sp := s.sp + 2 } w) :
    Does ext code bound live (.ret :: is) s w Q where
  safe := by
    intro n r s' w' _ hr
    cases n with
    | zero => cases hr
    | succ n =>
      cases hr
      exact h
  returns := fun _ => ⟨1, _, _, _, rfl, h⟩

/-- A call does what its subroutine does, which has to come back behind the call, and then the
rest. -/
theorem does_call (hd : Does ext code bound live (code l) (s.push site) w (fun back s' w' =>
      back = site ∧ Does ext code bound live is s' w' Q)) :
    Does ext code bound live (.call site l :: is) s w Q where
  safe := by
    intro n r s' w' hle hr
    cases n with
    | zero => cases hr
    | succ n =>
      rw [run, straight] at hr
      dsimp only at hr
      cases hc : run ext code n (code l) (s.push site) w with
      | none =>
        rw [hc] at hr
        cases hr
      | some y =>
        obtain ⟨back, s₁, w₁⟩ := y
        obtain ⟨hback, hrest⟩ := hd.safe n back s₁ w₁ (Nat.le_of_succ_le hle) hc
        rw [hc] at hr
        dsimp only at hr
        rw [if_pos hback] at hr
        exact hrest.safe n r s' w' (Nat.le_of_succ_le hle) hr
  returns := by
    intro hl
    obtain ⟨n, back, s₁, w₁, hc, hback, hrest⟩ := hd.returns hl
    obtain ⟨m, r, s₂, w₂, hr, hq⟩ := hrest.returns hl
    refine ⟨max n m + 1, r, s₂, w₂, ?_, hq⟩
    rw [run, straight]
    dsimp only
    rw [run_mono hc (Nat.le_max_left n m)]
    dsimp only
    rw [if_pos hback]
    exact run_mono hr (Nat.le_max_right n m)

theorem does_zero : Does ext code 0 False is s w Q where
  safe := by
    intro n r s' w' hle hr
    rw [Nat.le_zero.1 hle] at hr
    cases hr
  returns := False.elim

/-- Safety and progress may be shown one after the other. -/
theorem Does.of_parts (hs : Does ext code bound False is s w Q)
    (hr : live → Does ext code 0 True is s w Q) : Does ext code bound live is s w Q where
  safe := hs.safe
  returns := fun hl => (hr hl).returns trivial

end

end Z80

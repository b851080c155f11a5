import Mathlib.Logic.Basic
import Mathlib.Tactic.Common

namespace Interaction
set_option autoImplicit true

/-- The calls a program may make, and the type of the answer each call gets. -/
structure Effect where
  Op : Type
  Ans : Op → Type

/-- A program that talks to its surroundings only through the calls of an effect. -/
inductive Program (E : Effect) (α : Type) where
  | pure (a : α)
  | call (op : E.Op) (k : E.Ans op → Program E α)

variable {E : Effect}

def Program.bind : Program E α → (α → Program E β) → Program E β
  | .pure a, f => f a
  | .call op k, f => .call op fun r => (k r).bind f

instance : Monad (Program E) where
  pure := .pure
  bind := .bind

/-- A program that makes a call before it returns. -/
def Program.MakesCall : Program E α → Prop
  | .pure _ => False
  | .call _ _ => True

theorem Program.MakesCall.bind {p : Program E α} (h : p.MakesCall) (f : α → Program E β) :
    (p.bind f).MakesCall := by
  cases p with
  | pure a => exact False.elim h
  | call op k => exact trivial

/-- A single call, returning its answer. -/
def Program.ask (op : E.Op) : Program E (E.Ans op) := .call op .pure

/-- A loop with a bound on its iterations; it returns `none` when the bound is used up. -/
def Program.loop (body : σ → Program E (σ ⊕ α)) : Nat → σ → Program E (Option α)
  | 0, _ => .pure none
  | n + 1, s => (body s).bind fun
    | .inl s' => loop body n s'
    | .inr a => .pure (some a)

/-- An environment answers a call from a state of its own; several answers may be possible. -/
def Environment (E : Effect) (σ : Type) := σ → (op : E.Op) → E.Ans op → σ → Prop

/-- `Exec H s p s' a`: with environment `H` in state `s`, program `p` can end with `a`,
leaving the environment in state `s'`. -/
inductive Exec (H : Environment E σ) : σ → Program E α → σ → α → Prop
  | pure (s : σ) (a : α) : Exec H s (.pure a) s a
  | call {op : E.Op} {r : E.Ans op} {k : E.Ans op → Program E α} :
      H s op r s₁ → Exec H s₁ (k r) s₂ a → Exec H s (.call op k) s₂ a

/-- Every ending of `p` from `s` satisfies `Q`. -/
def Ensures (H : Environment E σ) (p : Program E α) (Q : α → σ → Prop) (s : σ) : Prop :=
  ∀ s' a, Exec H s p s' a → Q a s'

@[simp] theorem Program.pure_eq (a : α) : (Pure.pure a : Program E α) = .pure a := rfl

@[simp] theorem Program.bind_eq (p : Program E α) (f : α → Program E β) :
    (p >>= f) = p.bind f := rfl

@[simp] theorem Program.pure_bind (a : α) (f : α → Program E β) :
    (Program.pure a).bind f = f a := rfl

theorem Program.bind_assoc (p : Program E α) (f : α → Program E β) (g : β → Program E γ) :
    (p.bind f).bind g = p.bind fun a => (f a).bind g := by
  induction p with
  | pure a => rfl
  | call op k ih =>
    simp only [Program.bind]
    congr 1
    funext r
    exact ih r

theorem Exec.mono {H H' : Environment E σ} (h : ∀ s op r s', H s op r s' → H' s op r s')
    (he : Exec H s p s' a) : Exec H' s p s' a := by
  induction he with
  | pure s a => exact .pure s a
  | call hcall _ ih => exact .call (h _ _ _ _ hcall) ih

@[simp] theorem exec_pure : Exec H s (.pure a) s' b ↔ s' = s ∧ b = a := by
  constructor
  · intro h
    cases h
    exact ⟨rfl, rfl⟩
  · rintro ⟨rfl, rfl⟩
    exact .pure _ _

@[simp] theorem exec_call {H : Environment E σ} {k : E.Ans op → Program E α} :
    Exec H s (.call op k) s' b ↔ ∃ r s₁, H s op r s₁ ∧ Exec H s₁ (k r) s' b := by
  constructor
  · intro h
    cases h with
    | call hs hk => exact ⟨_, _, hs, hk⟩
  · rintro ⟨r, s₁, hs, hk⟩
    exact .call hs hk

theorem exec_bind {H : Environment E σ} {p : Program E α} {f : α → Program E β} :
    Exec H s (p.bind f) s' b ↔ ∃ s₁ a, Exec H s p s₁ a ∧ Exec H s₁ (f a) s' b := by
  induction p generalizing s with
  | pure a =>
    constructor
    · intro h
      exact ⟨s, a, .pure _ _, h⟩
    · rintro ⟨s₁, a', hp, hf⟩
      obtain ⟨rfl, rfl⟩ := exec_pure.1 hp
      exact hf
  | call op k ih =>
    simp only [Program.bind, exec_call, ih]
    constructor
    · rintro ⟨r, s₁, hs, s₂, a, hk, hf⟩
      exact ⟨s₂, a, ⟨r, s₁, hs, hk⟩, hf⟩
    · rintro ⟨s₂, a, ⟨r, s₁, hs, hk⟩, hf⟩
      exact ⟨r, s₁, hs, s₂, a, hk, hf⟩

@[simp] theorem ensures_pure : Ensures H (.pure a) Q s ↔ Q a s := by
  constructor
  · intro h
    exact h _ _ (.pure _ _)
  · intro h s' b he
    obtain ⟨rfl, rfl⟩ := exec_pure.1 he
    exact h

@[simp] theorem ensures_call {H : Environment E σ} {k : E.Ans op → Program E α} :
    Ensures H (.call op k) Q s ↔ ∀ r s₁, H s op r s₁ → Ensures H (k r) Q s₁ := by
  constructor
  · intro h r s₁ hs s' b he
    exact h _ _ (.call hs he)
  · intro h s' b he
    obtain ⟨r, s₁, hs, hk⟩ := exec_call.1 he
    exact h r s₁ hs _ _ hk

theorem ensures_ask {H : Environment E σ} (h : ∀ r s₁, H s op r s₁ → Q r s₁) :
    Ensures H (.ask op) Q s :=
  ensures_call.2 fun r s₁ hs => ensures_pure.2 (h r s₁ hs)

@[simp] theorem ensures_bind {H : Environment E σ} {p : Program E α} {f : α → Program E β} :
    Ensures H (p.bind f) Q s ↔ Ensures H p (fun a s₁ => Ensures H (f a) Q s₁) s := by
  constructor
  · intro h s₁ a hp s' b hf
    exact h _ _ (exec_bind.2 ⟨_, _, hp, hf⟩)
  · intro h s' b he
    obtain ⟨s₁, a, hp, hf⟩ := exec_bind.1 he
    exact h _ _ hp _ _ hf

theorem ensures_bind_any {H : Environment E σ} {p : Program E α} {f : α → Program E β}
    (h : ∀ a s₁, Ensures H (f a) Q s₁) : Ensures H (p.bind f) Q s :=
  ensures_bind.2 fun s₁ a _ => h a s₁

theorem Ensures.mono (h : Ensures H p Q s) (hQ : ∀ a s', Q a s' → R a s') :
    Ensures H p R s := by
  intro s' a he
  exact hQ _ _ (h _ _ he)

theorem Ensures.and (h : Ensures H p Q s) (h' : Ensures H p R s) :
    Ensures H p (fun a s' => Q a s' ∧ R a s') s := by
  intro s' a he
  exact ⟨h _ _ he, h' _ _ he⟩

/-- The invariant rule for bounded loops: `I` is kept by every iteration that goes on, and
every iteration that leaves the loop establishes the postcondition. -/
theorem ensures_loop {H : Environment E σ} {body : τ → Program E (τ ⊕ α)}
    {Q : Option α → σ → Prop} (I : Nat → τ → σ → Prop)
    (hzero : ∀ t s, I 0 t s → Q none s)
    (hstep : ∀ n t s, I (n + 1) t s → Ensures H (body t) (fun x s' =>
      match x with
      | .inl t' => I n t' s'
      | .inr a => Q (some a) s') s)
    (hi : I n t s) : Ensures H (Program.loop body n t) Q s := by
  induction n generalizing t s with
  | zero => exact ensures_pure.2 (hzero t s hi)
  | succ n ih =>
    simp only [Program.loop, ensures_bind]
    refine Ensures.mono (hstep n t s hi) ?_
    intro x s' hx
    cases x with
    | inl t' => exact ih hx
    | inr a => exact ensures_pure.2 hx

/-- One call of a program together with the answer it got. -/
structure Event (E : Effect) where
  op : E.Op
  ans : E.Ans op

/-- The environment that gives every answer its contract allows and records the events. -/
def recording (C : Event E → Prop) : Environment E (List (Event E)) :=
  fun t op r t' => C ⟨op, r⟩ ∧ t' = t ++ [⟨op, r⟩]

/-- The environment that gives every answer its contract allows. -/
def obeying (C : Event E → Prop) : Environment E Unit :=
  fun _ op r _ => C ⟨op, r⟩

/-- The environment that keeps to a contract and gives an answer of a certain kind no more than so
many times. -/
def sparing (C : Event E → Prop) (rare : Event E → Bool) : Environment E Nat :=
  fun n op r n' => C ⟨op, r⟩ ∧ n = n' + if rare ⟨op, r⟩ then 1 else 0

theorem exec_sparing_le {p : Program E α} (h : Exec (sparing C rare) n p n' a) : n' ≤ n := by
  induction h with
  | pure s a => exact Nat.le_refl s
  | call hr _ ih =>
    have hspent := hr.2
    omega

theorem Ensures.obeying_mono {C C' : Event E → Prop} {p : Program E α}
    (h : Ensures (obeying C) p Q s) (hC : ∀ e, C' e → C e) : Ensures (obeying C') p Q s := by
  intro s' a he
  apply h
  clear h
  induction he with
  | pure s a => exact .pure s a
  | call hr _ ih => exact .call (hC _ hr) ih

theorem exec_recorded {H : Environment E σ} {C : Event E → Prop} {p : Program E α}
    (hC : ∀ s op r s', H s op r s' → C ⟨op, r⟩) (he : Exec H s p s' a) (t : List (Event E)) :
    ∃ t', Exec (recording C) t p t' a := by
  induction he generalizing t with
  | pure s a => exact ⟨t, .pure t a⟩
  | call hcall _ ih =>
    obtain ⟨t', hexec⟩ := ih (t ++ [_])
    exact ⟨t', .call ⟨hC _ _ _ _ hcall, rfl⟩ hexec⟩

theorem exec_sparing {H : Environment E σ} {C : Event E → Prop} {p : Program E α}
    (h : ∀ s op r s', H s op r s' → C ⟨op, r⟩) (he : Exec H s p s' a) (rare : Event E → Bool) :
    ∃ n, Exec (sparing C rare) n p 0 a := by
  induction he with
  | pure s a => exact ⟨0, .pure 0 a⟩
  | call hcall _ ih =>
    obtain ⟨n, hexec⟩ := ih
    exact ⟨_, .call ⟨h _ _ _ _ hcall, rfl⟩ hexec⟩

theorem append_eq_append_cons {t v pre post : List α} (h : t ++ v = pre ++ x :: post) :
    (∃ post', t = pre ++ x :: post') ∨ ∃ v₁, pre = t ++ v₁ ∧ v = v₁ ++ x :: post := by
  rcases List.append_eq_append_iff.1 h with ⟨w, hpre, hv⟩ | ⟨w, ht, hx⟩
  · exact .inr ⟨w, hpre, hv⟩
  · cases w with
    | nil => exact .inr ⟨[], by rw [ht, List.append_nil, List.append_nil], hx.symm⟩
    | cons y w =>
      rw [List.cons_append, List.cons.injEq] at hx
      exact .inl ⟨w, by rw [ht, hx.1]⟩

/-- Every answer in a trace is the one the oracle gives after the events before it. -/
def Follows (o : List (Event E) → (op : E.Op) → E.Ans op) (t : List (Event E)) : Prop :=
  ∀ pre e post, t = pre ++ e :: post → e.ans = o pre e.op

theorem exec_recording_prefix {p : Program E α} (h : Exec (recording C) t p t' a) :
    ∃ u, t' = t ++ u := by
  induction h with
  | pure s a => exact ⟨[], by simp⟩
  | call hs hk ih =>
    obtain ⟨-, rfl⟩ := hs
    obtain ⟨u, rfl⟩ := ih
    exact ⟨_ :: u, by rw [List.append_assoc]; rfl⟩

theorem exec_recording_mono {C C' : Event E → Prop} {p : Program E α} (hC : ∀ e, C e → C' e)
    (h : Exec (recording C) t p t' a) : Exec (recording C') t p t' a := by
  induction h with
  | pure s a => exact .pure s a
  | call hr _ ih => exact .call ⟨hC _ hr.1, hr.2⟩ ih

theorem exec_recording_start {p : Program E α} (h : Exec (recording C) t p t' a) :
    ∃ u, t' = t ++ u ∧ Exec (recording C) [] p u a := by
  have hsteps : ∀ v, ∃ u, t' = t ++ u ∧ Exec (recording C) v p (v ++ u) a := by
    induction h with
    | pure s a => exact fun v => ⟨[], by simp, by simp⟩
    | @call s s₁ s₂ a op r k hs _ ih =>
      obtain ⟨hC, rfl⟩ := hs
      intro v
      obtain ⟨u, hu, he⟩ := ih (v ++ [⟨op, r⟩])
      rw [List.append_assoc] at he
      exact ⟨⟨op, r⟩ :: u, by rw [hu, List.append_assoc]; rfl, .call ⟨hC, rfl⟩ he⟩
  exact hsteps []

theorem ensures_recording_ask {C : Event E → Prop} {P : E.Ans op → List (Event E) → Prop}
    (h : ∀ r, C ⟨op, r⟩ → P r [⟨op, r⟩]) : Ensures (recording C) (.ask op) P [] := by
  refine ensures_ask ?_
  rintro r _ ⟨hC, rfl⟩
  exact h r hC

theorem ensures_recording_bind {p : Program E α} {f : α → Program E β}
    (h : Ensures (recording C) p P [])
    (h' : ∀ a u, P a u → Ensures (recording C) (f a) (fun b v => Q b (u ++ v)) []) :
    Ensures (recording C) (p.bind f) Q [] := by
  intro t b he
  obtain ⟨u, a, hp, hf⟩ := exec_bind.1 he
  obtain ⟨v, rfl, hf'⟩ := exec_recording_start hf
  exact h' a u (h _ _ hp) _ _ hf'

theorem ensures_recording_ask_bind {f : E.Ans op → Program E β}
    (h : ∀ r, C ⟨op, r⟩ → Ensures (recording C) (f r) (fun b v => Q b (⟨op, r⟩ :: v)) []) :
    Ensures (recording C) ((Program.ask op).bind f) Q [] := by
  refine ensures_recording_bind
    (ensures_recording_ask (P := fun r u => C ⟨op, r⟩ ∧ u = [⟨op, r⟩]) fun r hr => ⟨hr, rfl⟩) ?_
  rintro r _ ⟨hr, rfl⟩
  exact h r hr

/-- A program does the same thing whenever it gets the same answers. -/
theorem exec_follows_unique {p : Program E α} (h : Exec (recording C) t p t₁ a)
    (h' : Exec (recording C') t p t₂ b) (hf : Follows o t₁) (hf' : Follows o t₂) :
    t₁ = t₂ ∧ a = b := by
  induction p generalizing t with
  | pure x =>
    obtain ⟨rfl, rfl⟩ := exec_pure.1 h
    obtain ⟨rfl, rfl⟩ := exec_pure.1 h'
    exact ⟨rfl, rfl⟩
  | call op k ih =>
    obtain ⟨r, _, ⟨-, rfl⟩, hk⟩ := exec_call.1 h
    obtain ⟨r', _, ⟨-, rfl⟩, hk'⟩ := exec_call.1 h'
    obtain ⟨u, rfl⟩ := exec_recording_prefix hk
    obtain ⟨u', rfl⟩ := exec_recording_prefix hk'
    have hr : r = o t op := hf t ⟨op, r⟩ u (by rw [List.append_assoc]; rfl)
    have hr' : r' = o t op := hf' t ⟨op, r'⟩ u' (by rw [List.append_assoc]; rfl)
    subst hr hr'
    exact ih _ hk hk'

/-- Every call a program can make satisfies `P`. -/
inductive Calls (P : E.Op → Prop) : Program E α → Prop
  | pure (a : α) : Calls P (.pure a)
  | call {op : E.Op} {k : E.Ans op → Program E α} :
      P op → (∀ r, Calls P (k r)) → Calls P (.call op k)

theorem Calls.ask {P : E.Op → Prop} (h : P op) : Calls P (.ask op) := .call h (fun r => .pure r)

theorem Calls.bind {P : E.Op → Prop} {p : Program E α} {f : α → Program E β} (h : Calls P p)
    (hf : ∀ a, Calls P (f a)) : Calls P (p.bind f) := by
  induction h with
  | pure a => exact hf a
  | call hop _ ih => exact .call hop ih

theorem Calls.mono {P Q : E.Op → Prop} {p : Program E α} (h : Calls P p)
    (hPQ : ∀ op, P op → Q op) : Calls Q p := by
  induction h with
  | pure a => exact .pure a
  | call hop _ ih => exact .call (hPQ _ hop) ih

theorem Calls.loop {P : E.Op → Prop} {body : σ → Program E (σ ⊕ α)} (h : ∀ s, Calls P (body s))
    (n : Nat) (s : σ) : Calls P (Program.loop body n s) := by
  induction n generalizing s with
  | zero => exact .pure none
  | succ n ih =>
    refine (h s).bind ?_
    intro x
    cases x with
    | inl s' => exact ih s'
    | inr a => exact .pure _

/-- An environment that can match every call of a program can match its whole run. -/
theorem Calls.simulate {P : E.Op → Prop} {H : Environment E σ} {H' : Environment E τ}
    (R : σ → τ → Prop) {p : Program E α} (hp : Calls P p)
    (hstep : ∀ s t op r s₁, P op → R s t → H s op r s₁ → ∃ t₁, H' t op r t₁ ∧ R s₁ t₁)
    (hR : R s t) (he : Exec H s p s' a) : ∃ t', Exec H' t p t' a ∧ R s' t' := by
  induction hp generalizing s t with
  | pure b =>
    obtain ⟨rfl, rfl⟩ := exec_pure.1 he
    exact ⟨t, .pure _ _, hR⟩
  | call hop _ ih =>
    obtain ⟨r, s₁, hs, hk⟩ := exec_call.1 he
    obtain ⟨t₁, ht, hR₁⟩ := hstep _ _ _ _ _ hop hR hs
    obtain ⟨t', hk', hR'⟩ := ih r hR₁ hk
    exact ⟨t', .call ht hk', hR'⟩

/-- The same from the end of the run backwards: what the matching environment has to know of the
future is chosen there. The invariant `I` holds on the way forwards. -/
theorem Calls.simulate_backward {P : E.Op → Prop} {H : Environment E σ} {H' : Environment E τ}
    (I : σ → Prop) (R : σ → τ → Prop) {p : Program E α} (hp : Calls P p)
    (hinv : ∀ s op r s₁, P op → I s → H s op r s₁ → I s₁)
    (hstep : ∀ s op r s₁ t₁, P op → I s → H s op r s₁ → R s₁ t₁ → ∃ t, H' t op r t₁ ∧ R s t)
    (hi : I s) (he : Exec H s p s' a) (hR : R s' t') : ∃ t, Exec H' t p t' a ∧ R s t := by
  induction hp generalizing s with
  | pure b =>
    obtain ⟨rfl, rfl⟩ := exec_pure.1 he
    exact ⟨t', .pure _ _, hR⟩
  | call hop _ ih =>
    obtain ⟨r, s₁, hs, hk⟩ := exec_call.1 he
    obtain ⟨t₁, hk', hR₁⟩ := ih r (hinv _ _ _ _ hop hi hs) hk
    obtain ⟨t, ht, hR'⟩ := hstep _ _ _ _ _ hop hi hs hR₁
    exact ⟨t, .call ht hk', hR'⟩

/-- Every call a program can make satisfies `P`, and every result it can have satisfies `Q`. -/
inductive Performs (P : E.Op → Prop) (Q : α → Prop) : Program E α → Prop
  | pure (a : α) : Q a → Performs P Q (.pure a)
  | call {op : E.Op} {k : E.Ans op → Program E α} :
      P op → (∀ r, Performs P Q (k r)) → Performs P Q (.call op k)

theorem Performs.bind {P : E.Op → Prop} {Q : α → Prop} {R : β → Prop} {p : Program E α}
    {f : α → Program E β} (h : Performs P Q p) (hf : ∀ a, Q a → Performs P R (f a)) :
    Performs P R (p.bind f) := by
  induction h with
  | pure a ha => exact hf a ha
  | call hop _ ih => exact .call hop ih

theorem Performs.mono {P P' : E.Op → Prop} {Q Q' : α → Prop} {p : Program E α}
    (h : Performs P Q p) (hP : ∀ op, P op → P' op) (hQ : ∀ a, Q a → Q' a) : Performs P' Q' p := by
  induction h with
  | pure a ha => exact .pure a (hQ a ha)
  | call hop _ ih => exact .call (hP _ hop) ih

theorem Performs.loop {P : E.Op → Prop} {Q : α → Prop} {body : τ → Program E (τ ⊕ α)}
    (I : τ → Prop)
    (h : ∀ t, I t → Performs P (fun x => match x with | .inl t' => I t' | .inr a => Q a) (body t))
    (n : Nat) (ht : I t) : Performs P (fun x => ∀ a, x = some a → Q a) (Program.loop body n t) := by
  induction n generalizing t with
  | zero => exact .pure none fun _ h => absurd h.symm (Option.some_ne_none _)
  | succ n ih =>
    refine (h t ht).bind ?_
    rintro (t' | a) hx
    · exact ih hx
    · refine .pure _ ?_
      rintro _ ⟨⟩
      exact hx

/-- Run a program on programs that carry out its calls; `none` when one of these is cut off. -/
def Program.implement {F : Effect}
    (f : τ → (op : E.Op) → Program F (Option (E.Ans op × τ))) :
    Program E α → τ → Program F (Option (α × τ))
  | .pure a, t => .pure (some (a, t))
  | .call op k, t => (f t op).bind fun
    | none => .pure none
    | some (r, t') => (k r).implement f t'

/-- Programs that carry out the calls keep what holds between the state that they pass on and the
surroundings; `J` holds where one of them is cut off. -/
theorem Performs.ensures_implement {F : Effect} {P : E.Op → Prop} {Q : α → Prop}
    {p : Program E α} (hp : Performs P Q p) {H : Environment F σ}
    {f : τ → (op : E.Op) → Program F (Option (E.Ans op × τ))} (I : τ → σ → Prop) (J : σ → Prop)
    (h : ∀ t s op, P op → I t s → Ensures H (f t op) (fun x s' =>
      match x with
      | none => J s'
      | some (_, t') => I t' s') s) (hi : I t s) :
    Ensures H (p.implement f t) (fun x s' =>
      match x with
      | none => J s'
      | some (a, t') => Q a ∧ I t' s') s := by
  induction hp generalizing t s with
  | pure a ha => exact ensures_pure.2 ⟨ha, hi⟩
  | call hop _ ih =>
    rw [Program.implement]
    refine ensures_bind.2 ((h _ _ _ hop hi).mono ?_)
    rintro (_ | ⟨r, t'⟩) s' hx
    · exact ensures_pure.2 hx
    · exact ih r hx

/-- A program among calls that its own are a part of. -/
def Program.lift {F : Effect} (inj : E.Op → F.Op) (ans : ∀ op, F.Ans (inj op) → E.Ans op) :
    Program E α → Program F α
  | .pure a => .pure a
  | .call op k => .call (inj op) fun r => (k (ans op r)).lift inj ans

theorem ensures_lift {F : Effect} {inj : E.Op → F.Op} {ans : ∀ op, F.Ans (inj op) → E.Ans op}
    {H : Environment E σ} {H' : Environment F σ}
    (hstep : ∀ s op r s', H' s (inj op) r s' → H s op (ans op r) s') {p : Program E α}
    (h : Ensures H p Q s) : Ensures H' (p.lift inj ans) Q s := by
  induction p generalizing s with
  | pure a => exact ensures_pure.2 (ensures_pure.1 h)
  | call op k ih =>
    refine ensures_call.2 ?_
    intro r s₁ hs
    exact ih _ (ensures_call.1 h _ _ (hstep _ _ _ _ hs))

theorem exists_exec {H : Environment E σ} (h : ∀ s op, ∃ r s₁, H s op r s₁) (p : Program E α)
    (s : σ) : ∃ s' a, Exec H s p s' a := by
  induction p generalizing s with
  | pure a => exact ⟨s, a, .pure _ _⟩
  | call op k ih =>
    obtain ⟨r, s₁, hs⟩ := h s op
    obtain ⟨s', a, hk⟩ := ih r s₁
    exact ⟨s', a, .call hs hk⟩

/-- An environment that also counts the calls. -/
def counting (H : Environment E σ) : Environment E (σ × Nat) :=
  fun s op r s' => H s.1 op r s'.1 ∧ s'.2 = s.2 + 1

theorem ensures_counting {H : Environment E σ} {p : Program E α} (h : Ensures H p Q s) (n : Nat) :
    Ensures (counting H) p (fun a s' => Q a s'.1 ∧ n ≤ s'.2) (s, n) := by
  induction p generalizing s n with
  | pure a => exact ensures_pure.2 ⟨ensures_pure.1 h, Nat.le_refl n⟩
  | call op k ih =>
    refine ensures_call.2 ?_
    rintro r ⟨s₁, m⟩ ⟨hs, rfl⟩
    refine (ih r (ensures_call.1 h r s₁ hs) (n + 1)).mono ?_
    rintro a s' ⟨ha, hcount⟩
    exact ⟨ha, Nat.le_of_succ_le hcount⟩

theorem ensures_counting_call {H : Environment E σ} {p : Program E α} (h : Ensures H p Q s)
    (hp : p.MakesCall) (n : Nat) :
    Ensures (counting H) p (fun a s' => Q a s'.1 ∧ n + 1 ≤ s'.2) (s, n) := by
  cases p with
  | pure a => exact False.elim hp
  | call op k =>
    refine ensures_call.2 ?_
    rintro r ⟨s₁, m⟩ ⟨hs, rfl⟩
    exact ensures_counting (ensures_call.1 h r s₁ hs) (n + 1)

theorem sparing_answers {C : Event E → Prop} {rare : Event E → Bool}
    (h : ∀ op, ∃ r, C ⟨op, r⟩ ∧ rare ⟨op, r⟩ = false) (n : Nat) (op : E.Op) :
    ∃ r n₁, sparing C rare n op r n₁ := by
  obtain ⟨r, hr, hrare⟩ := h op
  exact ⟨r, n, hr, by rw [hrare]; rfl⟩

theorem obeying_answers {C : Event E → Prop} (h : ∀ op, ∃ r, C ⟨op, r⟩) (s : Unit) (op : E.Op) :
    ∃ r s₁, obeying C s op r s₁ := by
  obtain ⟨r, hr⟩ := h op
  exact ⟨r, (), hr⟩

/-- What every call of a program preserves, the program preserves. -/
theorem Calls.invariant {P : E.Op → Prop} {H : Environment E σ} {p : Program E α} (hp : Calls P p)
    (I : σ → Prop) (hstep : ∀ s op r s₁, P op → I s → H s op r s₁ → I s₁) (hi : I s) :
    Ensures H p (fun _ s' => I s') s := by
  induction hp generalizing s with
  | pure a => exact ensures_pure.2 hi
  | call hop _ ih =>
    refine ensures_call.2 ?_
    intro r s₁ hs
    exact ih r (hstep _ _ _ _ hop hi hs)

theorem Calls.events {P : E.Op → Prop} {p : Program E α} (hp : Calls P p) :
    Ensures (recording C) p (fun _ t' => ∀ e ∈ t', P e.op) [] := by
  refine hp.invariant (fun t : List (Event E) => ∀ e ∈ t, P e.op) ?_ (by simp)
  rintro t op r _ hop ht ⟨-, rfl⟩ e he
  rcases List.mem_append.1 he with he | he
  · exact ht e he
  · rw [List.mem_singleton.1 he]
    exact hop

/-- The events of a trace whose calls satisfy `P`. -/
def eventsOf (P : E.Op → Prop) [DecidablePred P] (t : List (Event E)) : List (Event E) :=
  t.filter (fun e => P e.op)

@[simp] theorem eventsOf_append {P : E.Op → Prop} [DecidablePred P] (t u : List (Event E)) :
    eventsOf P (t ++ u) = eventsOf P t ++ eventsOf P u := List.filter_append ..

theorem Calls.exec_eventsOf {P : E.Op → Prop} [DecidablePred P] {p : Program E α} (h : Calls P p)
    (he : Exec (recording C) t p t' a) :
    Exec (recording C) (eventsOf P t) p (eventsOf P t') a := by
  induction h generalizing t with
  | pure a =>
    obtain ⟨rfl, rfl⟩ := exec_pure.1 he
    exact .pure _ _
  | call hop _ ih =>
    obtain ⟨r, _, ⟨hc, rfl⟩, hk⟩ := exec_call.1 he
    have hk' := ih r hk
    rw [eventsOf_append] at hk'
    refine .call ⟨hc, ?_⟩ hk'
    simp [eventsOf, hop]

theorem Calls.eventsOf_other {P Q : E.Op → Prop} [DecidablePred Q] {p : Program E α}
    (h : Calls P p) (hPQ : ∀ op, P op → ¬ Q op)
    (he : Exec (recording C) t p t' a) : eventsOf Q t' = eventsOf Q t := by
  induction h generalizing t with
  | pure a =>
    obtain ⟨rfl, rfl⟩ := exec_pure.1 he
    rfl
  | call hop _ ih =>
    obtain ⟨r, _, ⟨-, rfl⟩, hk⟩ := exec_call.1 he
    rw [ih r hk, eventsOf_append]
    simp [eventsOf, hPQ _ hop]

theorem flatMap_eventsOf {P : E.Op → Prop} [DecidablePred P] {f : Event E → List β}
    (h : ∀ e, ¬ P e.op → f e = []) (t : List (Event E)) :
    (eventsOf P t).flatMap f = t.flatMap f := by
  induction t with
  | nil => rfl
  | cons e t ih =>
    by_cases hP : P e.op
    · simp only [eventsOf, hP, decide_true, List.filter_cons_of_pos, List.flatMap_cons] at ih ⊢
      rw [ih]
    · simp only [eventsOf, hP, decide_false, Bool.false_eq_true, not_false_eq_true,
        List.filter_cons_of_neg, List.flatMap_cons, h e hP, List.nil_append] at ih ⊢
      rw [ih]

/-- Run a program against a function that answers every call. -/
def Program.run (f : σ → (op : E.Op) → E.Ans op × σ) : Program E α → σ → α × σ
  | .pure a, s => (a, s)
  | .call op k, s => (k (f s op).1).run f (f s op).2

@[simp] theorem Program.run_pure (f : σ → (op : E.Op) → E.Ans op × σ) (a : α) (s : σ) :
    (Program.pure a : Program E α).run f s = (a, s) := rfl

@[simp] theorem Program.run_ask (f : σ → (op : E.Op) → E.Ans op × σ) (op : E.Op) (s : σ) :
    (Program.ask op).run f s = f s op := rfl

@[simp] theorem Program.run_bind (f : σ → (op : E.Op) → E.Ans op × σ) (p : Program E α)
    (g : α → Program E β) (s : σ) :
    (p.bind g).run f s = (g (p.run f s).1).run f (p.run f s).2 := by
  induction p generalizing s with
  | pure a => rfl
  | call op k ih => exact ih _ _

theorem Program.run_loop_inl {f : σ → (op : E.Op) → E.Ans op × σ}
    {body : τ → Program E (τ ⊕ α)} (h : (body t).run f s = (.inl t', s')) (n : Nat) :
    (Program.loop body (n + 1) t).run f s = (Program.loop body n t').run f s' := by
  rw [Program.loop, Program.run_bind, h]

theorem Program.run_loop_inr {f : σ → (op : E.Op) → E.Ans op × σ}
    {body : τ → Program E (τ ⊕ α)} (h : (body t).run f s = (.inr a, s')) (n : Nat) :
    (Program.loop body (n + 1) t).run f s = (some a, s') := by
  rw [Program.loop, Program.run_bind, h]
  rfl

/-- The environment that answers every call as a function says. -/
def answering (f : σ → (op : E.Op) → E.Ans op × σ) : Environment E σ :=
  fun s op r s' => f s op = (r, s')

theorem exec_answering {f : σ → (op : E.Op) → E.Ans op × σ} {p : Program E α} :
    Exec (answering f) s p s' a ↔ p.run f s = (a, s') := by
  induction p generalizing s with
  | pure b =>
    rw [exec_pure, Program.run_pure, Prod.mk.injEq]
    constructor
    · rintro ⟨rfl, rfl⟩
      exact ⟨rfl, rfl⟩
    · rintro ⟨rfl, rfl⟩
      exact ⟨rfl, rfl⟩
  | call op k ih =>
    rw [exec_call, Program.run]
    constructor
    · rintro ⟨r, s₁, hs, hk⟩
      rw [ih] at hk
      rw [hs]
      exact hk
    · intro h
      exact ⟨(f s op).1, (f s op).2, rfl, (ih _).2 h⟩

theorem ensures_answering {f : σ → (op : E.Op) → E.Ans op × σ} {p : Program E α} :
    Ensures (answering f) p Q s ↔ Q (p.run f s).1 (p.run f s).2 := by
  constructor
  · intro h
    exact h _ _ (exec_answering.2 rfl)
  · intro h s' a he
    rw [exec_answering] at he
    rw [he] at h
    exact h

theorem Program.exec_run {H : Environment E σ} {f : τ → (op : E.Op) → E.Ans op × τ}
    (R : σ → τ → Prop)
    (hstep : ∀ s t op, R s t → ∃ s₁, H s op (f t op).1 s₁ ∧ R s₁ (f t op).2)
    (p : Program E α) (hR : R s t) :
    ∃ s', Exec H s p s' (p.run f t).1 ∧ R s' (p.run f t).2 := by
  induction p generalizing s t with
  | pure a => exact ⟨s, .pure _ _, hR⟩
  | call op k ih =>
    obtain ⟨s₁, hs, hR₁⟩ := hstep s t op hR
    obtain ⟨s', he, hR'⟩ := ih _ hR₁
    exact ⟨s', .call hs he, hR'⟩

/-- Run a program on the answers of a given trace; `none` when the trace does not fit it. -/
def Program.replay [DecidableEq E.Op] : Program E α → List (Event E) → Option α
  | .pure a, [] => some a
  | .pure _, _ :: _ => none
  | .call _ _, [] => none
  | .call op k, e :: t => if h : e.op = op then (k (h ▸ e.ans)).replay t else none

/-- An environment can give the answers of a trace one after the other. -/
inductive Steps (H : Environment E σ) : σ → List (Event E) → σ → Prop
  | nil (s : σ) : Steps H s [] s
  | cons {e : Event E} : H s e.op e.ans s₁ → Steps H s₁ u s₂ → Steps H s (e :: u) s₂

theorem Steps.via {e : Event E} (s₁ : σ) (h : H s e.op e.ans s₁) (hrest : Steps H s₁ u s₂) :
    Steps H s (e :: u) s₂ := .cons h hrest

theorem Steps.append (h : Steps H s u s₁) (hrest : Steps H s₁ v s₂) : Steps H s (u ++ v) s₂ := by
  induction h with
  | nil s => exact hrest
  | cons he _ ih => exact .cons he (ih hrest)

theorem exec_of_replay [DecidableEq E.Op] {H : Environment E σ} {p : Program E α}
    (h : p.replay u = some a) (hs : Steps H s u s') : Exec H s p s' a := by
  induction p generalizing u s with
  | pure b =>
    cases hs with
    | nil s =>
      cases h
      exact .pure _ _
    | cons hs hu => cases h
  | call op k ih =>
    cases hs with
    | nil s => cases h
    | @cons s s₁ u s₂ e hs hu =>
      rcases e with ⟨op', r⟩
      simp only [Program.replay] at h
      split at h
      · rename_i ho
        subst ho
        exact .call hs (ih r h hu)
      · cases h

theorem steps_obeying {C : Event E → Prop} (hC : ∀ e ∈ u, C e) : Steps (obeying C) () u () := by
  induction u with
  | nil => exact .nil ()
  | cons e u ih =>
    exact .cons (hC e List.mem_cons_self) (ih fun e' he => hC e' (List.mem_cons_of_mem e he))

theorem steps_recording {C : Event E → Prop} (hC : ∀ e ∈ u, C e) (t : List (Event E)) :
    Steps (recording C) t u (t ++ u) := by
  induction u generalizing t with
  | nil =>
    rw [List.append_nil]
    exact .nil t
  | cons e u ih =>
    have hu := ih (fun e he => hC e (List.mem_cons_of_mem _ he)) (t ++ [e])
    rw [← List.append_cons] at hu
    exact .cons ⟨hC e List.mem_cons_self, rfl⟩ hu

/-- One request to a server and its reply, with the state before and after it and what the server
asked of its surroundings. -/
structure Exchange (E : Effect) (σ ι ο : Type) where
  before : σ
  request : ι
  events : List (Event E)
  reply : ο
  after : σ

/-- A server that answers one request after the other. -/
inductive Conversation (C : Event E → Prop) (handle : σ → ι → Program E (ο × σ)) :
    σ → List (Exchange E σ ι ο) → σ → Prop
  | nil (s : σ) : Conversation C handle s [] s
  | cons {x : Exchange E σ ι ο} :
      Exec (recording C) [] (handle x.before x.request) x.events (x.reply, x.after) →
      Conversation C handle x.after xs s → Conversation C handle x.before (x :: xs) s

theorem Conversation.single {handle : σ → ι → Program E (ο × σ)} {x : Exchange E σ ι ο}
    (h : Exec (recording C) [] (handle x.before x.request) x.events (x.reply, x.after)) :
    Conversation C handle x.before [x] x.after := .cons h (.nil _)

/-- What every exchange keeps, and what every exchange shows, along a conversation. -/
theorem Conversation.invariant {handle : σ → ι → Program E (ο × σ)} (I : σ → Prop)
    (P : Exchange E σ ι ο → Prop)
    (hstep : ∀ s request, I s → Ensures (recording C) (handle s request)
      (fun r t => I r.2 ∧ P ⟨s, request, t, r.1, r.2⟩) [])
    (h : Conversation C handle s xs s') (hi : I s) : I s' ∧ ∀ x ∈ xs, P x := by
  induction h with
  | nil s => exact ⟨hi, by simp⟩
  | cons he _ ih =>
    obtain ⟨hafter, hx⟩ := hstep _ _ hi _ _ he
    obtain ⟨hfinal, hall⟩ := ih hafter
    refine ⟨hfinal, ?_⟩
    intro y hy
    rcases List.mem_cons.1 hy with rfl | hy
    · exact hx
    · exact hall y hy

theorem Conversation.split {handle : σ → ι → Program E (ο × σ)} {xs ys : List (Exchange E σ ι ο)}
    (h : Conversation C handle s (xs ++ ys) s') :
    ∃ s₁, Conversation C handle s xs s₁ ∧ Conversation C handle s₁ ys s' := by
  induction xs generalizing s with
  | nil => exact ⟨s, .nil s, h⟩
  | cons x xs ih =>
    cases h with
    | cons he hrest =>
      obtain ⟨s₁, hxs, hys⟩ := ih hrest
      exact ⟨s₁, .cons he hxs, hys⟩

end Interaction

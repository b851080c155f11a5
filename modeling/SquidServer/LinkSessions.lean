import SquidServer.RuntimeStreams

namespace SquidServer.Runtime
open Interaction Framing
set_option autoImplicit true

/-- The libsquid link: whether a session is up, and the number of the last session
(`snet_link_epoch`). -/
structure Link where
  up : Bool
  epoch : Nat

def Link.session (link : Link) : Option Nat := if link.up then some link.epoch else none

/-- What one burst may do: any number of sessions may end and begin, but a session that has
ended does not come back. -/
def Link.Moves (link link' : Link) : Prop :=
  link.epoch ≤ link'.epoch ∧ (link'.epoch = link.epoch → link'.up = true → link.up = true)

/-- The events of a run, each with the session it happened in. -/
abbrev History := List (Option Nat × Event LibSquid)

structure Linked where
  link : Link
  history : History

def sawLinkDown : Event LibSquid → Bool
  | ⟨.snetLinkIsUp, up⟩ => !up
  | _ => false

/-- The events since the loop last saw the link down. -/
def sinceDown (h : History) : Trace :=
  h.foldl (fun t x => if sawLinkDown x.2 then [] else t ++ [x.2]) []

/-- The events of session `i`. -/
def inSession (i : Nat) (h : History) : Trace :=
  (h.filter (fun x => x.1 = some i)).map Prod.snd

def LinkAnswers (allowed : Trace → Prop) (s : Linked) (link' : Link) : Event LibSquid → Prop
  | ⟨.snetBurst, _⟩ => s.link.Moves link' ∧
      (link'.up = true → link'.epoch ≠ s.link.epoch → allowed (sinceDown s.history))
  | ⟨.snetLinkIsUp, up⟩ => link' = s.link ∧ up = s.link.up
  | ⟨.squidRecv _ maximum, some bytes⟩ => link' = s.link ∧ bytes.length ≤ maximum ∧
      (s.link.up = false → bytes = [])
  | _ => link' = s.link

/-- libsquid, where every burst may end sessions and start new ones. The socket queues are
empty without a session. `allowed` restricts the moments at which a new session may be found up. -/
def linked (allowed : Trace → Prop) : Environment LibSquid Linked := fun s op r s' =>
  LinkAnswers allowed s s'.link ⟨op, r⟩ ∧ s'.history = s.history ++ [(s.link.session, ⟨op, r⟩)]

/-- A request handed to a plugin is made of bytes of the session it is handed over in, and the
bytes sent in a session belong to replies to requests of that session. -/
def SessionOk (pre : History) : Option Nat × Event LibSquid → Prop
  | (session, ⟨.handlePacket p request, _⟩) =>
    ∃ i, session = some i ∧ frame request <:+ received p (inSession i pre)
  | (some i, ⟨.squidSend p data, _⟩) => data <:+ owed p (inSession i pre)
  | _ => True

def SessionsApart (h : History) : Prop :=
  ∀ pre x post, h = pre ++ x :: post → SessionOk pre x

def Handles (registry : ServerPluginRegistry) (p : Port) : Prop :=
  ∃ plugin, findServerPlugin registry p = some plugin ∧ plugin.handlePacket = true

/-- No served port holds a partial request or an unsent reply. -/
def Settled (registry : ServerPluginRegistry) (t : Trace) : Prop :=
  ∀ p, Handles registry p → partialFrame (received p t) = [] ∧ accepted p t = owed p t

def PortCall (op : LibSquid.Op) : Prop := (callPort op).isSome = true

theorem sinceDown_snoc (h : History) (x : Option Nat × Event LibSquid) :
    sinceDown (h ++ [x]) = if sawLinkDown x.2 then [] else sinceDown h ++ [x.2] := by
  rw [sinceDown, List.foldl_append]
  rfl

theorem sawLinkDown_portCall (h : PortCall e.op) : sawLinkDown e = false := by
  rcases e with ⟨op, r⟩
  cases op <;> first | rfl | cases h

theorem sinceDown_append (h : History) (hu : ∀ e ∈ u, PortCall e.op) :
    sinceDown (h ++ u.map (session, ·)) = sinceDown h ++ u := by
  induction u generalizing h with
  | nil => simp
  | cons e u ih =>
    have hr := ih (h ++ [(session, e)]) (fun e' he => hu e' (List.mem_cons_of_mem _ he))
    rw [sinceDown_snoc, if_neg (by simp [sawLinkDown_portCall (hu e List.mem_cons_self)])] at hr
    rw [List.map_cons, List.append_cons, hr, List.append_assoc]
    rfl

@[simp] theorem inSession_append (i : Nat) (h k : History) :
    inSession i (h ++ k) = inSession i h ++ inSession i k := by
  rw [inSession, List.filter_append, List.map_append]
  rfl

@[simp] theorem inSession_stamped (i : Nat) (u : Trace) :
    inSession i (u.map (some i, ·)) = u := by
  simp [inSession, List.filter_map, Function.comp_def]

theorem inSession_eq_nil (h : ∀ x ∈ k, ∀ j, x.1 = some j → j < i) : inSession i k = [] := by
  rw [inSession, List.map_eq_nil_iff, List.filter_eq_nil_iff]
  intro x hx hi
  exact Nat.lt_irrefl i (h x hx i (of_decide_eq_true hi))

theorem calls_dispatchPorts (ports : List Port) (runtime : ServerRuntime) :
    Calls PortCall (dispatchPorts ports runtime) := by
  induction ports generalizing runtime with
  | nil => exact .pure _
  | cons port ports ih =>
    apply Calls.bind
    · apply (onPort_dispatchPort runtime.pluginRegistry port _).mono
      intro op h
      rw [PortCall, show callPort op = some port from h]
      rfl
    · intro st
      exact ih _

theorem exec_linked_recording (hp : Calls PortCall p) (he : Exec (linked allowed) s p s' a)
    (t : Trace) : ∃ u, s'.link = s.link ∧ s'.history = s.history ++ u.map (s.link.session, ·) ∧
      (∀ e ∈ u, PortCall e.op) ∧ (s.link.up = false → ∀ e ∈ u, ∀ q, receivedBy q e = []) ∧
      Exec (recording RecvBounded) t p (t ++ u) a := by
  let R : Linked → Trace → Prop := fun x t' => ∃ u, t' = t ++ u ∧ x.link = s.link ∧
    x.history = s.history ++ u.map (s.link.session, ·) ∧ (∀ e ∈ u, PortCall e.op) ∧
    (s.link.up = false → ∀ e ∈ u, ∀ q, receivedBy q e = [])
  have hstep : ∀ x t' op r x', PortCall op → R x t' → linked allowed x op r x' →
      ∃ t₁, recording RecvBounded t' op r t₁ ∧ R x' t₁ := by
    intro x t' op r x' hop hR hx
    obtain ⟨u, rfl, hlink, hhist, hu, hquiet⟩ := hR
    obtain ⟨ha, hh⟩ := hx
    have hall : x'.link = x.link ∧ RecvBounded ⟨op, r⟩ ∧
        (x.link.up = false → ∀ q, receivedBy q ⟨op, r⟩ = []) := by
      cases op with
      | squidRecv q m =>
        cases r with
        | none => exact ⟨ha, trivial, fun _ _ => rfl⟩
        | some bytes =>
          refine ⟨ha.1, ha.2.1, fun hd q' => ?_⟩
          rw [receivedBy, ha.2.2 hd, ite_self]
      | squidSend q data => exact ⟨ha, trivial, fun _ _ => rfl⟩
      | handlePacket q request => exact ⟨ha, trivial, fun _ _ => rfl⟩
      | _ => cases hop
    obtain ⟨hl, hb, hq⟩ := hall
    refine ⟨_, ⟨hb, rfl⟩, u ++ [⟨op, r⟩], List.append_assoc _ _ _, hl.trans hlink, ?_, ?_, ?_⟩
    · rw [hh, hhist, hlink, List.map_append, List.append_assoc]
      rfl
    · intro e he
      rcases List.mem_append.1 he with he | he
      · exact hu e he
      · rw [List.mem_singleton.1 he]
        exact hop
    · intro hd e he
      rcases List.mem_append.1 he with he | he
      · exact hquiet hd e he
      · rw [List.mem_singleton.1 he]
        exact hq (hlink.symm ▸ hd)
  have hstart : R s t := ⟨[], by simp, rfl, by simp, by simp, by simp⟩
  obtain ⟨t', ht, u, rfl, hlink, hhist, hu, hquiet⟩ := hp.simulate R hstep hstart he
  exact ⟨u, hlink, hhist, hu, hquiet, ht⟩

/-- What a port's slots record of the events since the link was last seen down. A plugin
without `handle_packet` never answers, so its port only ever receives. -/
structure PortWell (registry : ServerPluginRegistry) (p : Port) (st : PortState) (t : Trace) :
    Prop where
  handled : Handles registry p → PortInv p st t
  mute : ¬ Handles registry p →
    st.pendingResponseSize = 0 ∧ ∀ e ∈ t, ∃ m, e.op = Call.squidRecv p m

theorem dispatchPort_mute (hn : ¬ Handles registry p) (hidle : st.pendingResponseSize = 0)
    (ht : ∀ e ∈ t, ∃ m, e.op = Call.squidRecv p m) :
    Ensures (recording RecvBounded) (dispatchPort registry p st) (fun st' t' =>
      st'.pendingResponseSize = 0 ∧ ∀ e ∈ t', ∃ m, e.op = Call.squidRecv p m) t := by
  have hcalls : Calls (fun op => ∃ m, op = Call.squidRecv p m) (receivePluginPacket p st) :=
    calls_receivePluginPacket (fun m => ⟨m, rfl⟩) st
  have hrecv := hcalls.invariant (H := recording RecvBounded)
    (fun t => ∀ e ∈ t, ∃ m, e.op = Call.squidRecv p m) (by
      intro t op r t' hop ht hs e he
      obtain ⟨-, rfl⟩ := hs
      rcases List.mem_append.1 he with he | he
      · exact ht e he
      · rw [List.mem_singleton.1 he]
        exact hop) ht
  rw [dispatchPort]
  split
  · exact ensures_pure.2 ⟨hidle, ht⟩
  · rw [if_neg (by omega), servePort]
    refine ensures_bind.2 (((receivePluginPacket_frame _ t p st).and hrecv).mono ?_)
    intro x t' h
    obtain ⟨⟨-, hsize⟩, ht'⟩ := h
    dsimp only
    split
    · exact ensures_pure.2 ⟨hsize.trans hidle, ht'⟩
    · split
      · exact ensures_pure.2 ⟨hsize.trans hidle, ht'⟩
      · rename_i plugin hplugin
        rw [if_neg fun hh => hn ⟨plugin, hplugin, hh⟩]
        exact ensures_pure.2 ⟨hsize.trans hidle, ht'⟩

theorem dispatchPort_portWell (h : PortWell registry p st t) :
    Ensures (recording RecvBounded) (dispatchPort registry p st) (PortWell registry p) t := by
  intro t' st' he
  constructor
  · intro hh
    exact dispatchPort_ensures (h.handled hh) (fun _ => hh) _ _ he
  · intro hn
    obtain ⟨hidle, ht⟩ := h.mute hn
    exact dispatchPort_mute hn hidle ht _ _ he

theorem PortState.Fresh.portWell (h : st.Fresh) (registry : ServerPluginRegistry) (p : Port) :
    PortWell registry p st [] := by
  constructor
  · intro _
    exact h.inv p
  · intro _
    exact ⟨h.2, by simp⟩

/-- On every served port the events `old` are a whole number of requests, all answered. -/
def CaughtUp (registry : ServerPluginRegistry) (old : Trace) : Prop :=
  ∀ p ∈ pluginPorts, Handles registry p → frames (received p old) = handed p old ∧
    partialFrame (received p old) = [] ∧ accepted p old = owed p old

structure HistoryOk (s : Linked) : Prop where
  stamps : ∀ x ∈ s.history, ∀ i, x.1 = some i → i ≤ s.link.epoch
  apart : SessionsApart s.history

/-- The invariant of the dispatch loop. What happened since the link was last seen down ends
with the events of the current session, and whatever came before them has left no trace in
the ports. -/
structure LinkInv (registry : ServerPluginRegistry) (runtime : ServerRuntime) (s : Linked) :
    Prop extends HistoryOk s where
  plugins : runtime.pluginRegistry = registry
  ports : ∀ p ∈ pluginPorts,
    PortWell registry p (runtime.ports p) (eventsOf (OnPort p) (sinceDown s.history))
  split : s.link.up = true → ∃ old, sinceDown s.history = old ++ inSession s.link.epoch s.history ∧
    CaughtUp registry old

/-- While the link is down, dispatching hands nothing over: a request is only handed over when
its last byte has just come in. -/
theorem orderly_link_down (hi : PortInv p st (eventsOf (OnPort p) t))
    (ho : Orderly p (eventsOf (OnPort p) (t ++ u))) (hq : ∀ e ∈ u, receivedBy p e = []) :
    ⟨.handlePacket p request, reply⟩ ∉ u := by
  intro hmem
  obtain ⟨u₁, u₂, rfl⟩ := List.append_of_mem hmem
  have hev := ho (eventsOf (OnPort p) (t ++ u₁)) ⟨.handlePacket p request, reply⟩
    (eventsOf (OnPort p) u₂) (by simp [eventsOf, OnPort, callPort])
  have hquiet : received p u₁ = [] := by
    rw [received, List.flatMap_eq_nil_iff]
    intro e he
    exact hq e (List.mem_append_left _ he)
  have hframes := (hev rfl).1
  have hbefore := hi.frames
  rw [received_eventsOf, handed_eventsOf] at hframes hbefore
  rw [received_append, hquiet, List.append_nil, hbefore, handed_append] at hframes
  have hlen := congrArg List.length hframes
  simp only [List.length_append, List.length_singleton] at hlen
  omega

theorem SessionsApart.append (h : SessionsApart k)
    (hv : ∀ v₁ x v₂, v = v₁ ++ x :: v₂ → SessionOk (k ++ v₁) x) : SessionsApart (k ++ v) := by
  intro pre x post hs
  rcases append_eq_append_cons hs with ⟨post', hk⟩ | ⟨v₁, hpre, hv₁⟩
  · exact h pre x post' hk
  · rw [hpre]
    exact hv v₁ x post hv₁

theorem Link.session_le {link : Link} (h : link.session = some i) : i ≤ link.epoch := by
  rw [Link.session] at h
  split at h
  · exact Nat.le_of_eq (Option.some.inj h).symm
  · cases h

theorem HistoryOk.snoc (h : HistoryOk s) (he : ¬ PortCall e.op)
    (hle : s.link.epoch ≤ link'.epoch) :
    HistoryOk ⟨link', s.history ++ [(s.link.session, e)]⟩ := by
  constructor
  · intro x hx i hi
    rcases List.mem_append.1 hx with hx | hx
    · exact Nat.le_trans (h.stamps x hx i hi) hle
    · rw [List.mem_singleton.1 hx] at hi
      exact Nat.le_trans (Link.session_le hi) hle
  · apply h.apart.append
    intro v₁ x v₂ hv
    cases v₁ with
    | nil =>
      cases hv
      rcases e with ⟨op, r⟩
      cases op with
      | squidSend p data => exact absurd rfl he
      | handlePacket p request => exact absurd rfl he
      | _ => trivial
    | cons y v₁ => simp at hv

theorem eventsOf_onPort_other (he : ¬ PortCall e.op) (p : Port) :
    eventsOf (OnPort p) [e] = [] := by
  rw [eventsOf, List.filter_eq_nil_iff]
  intro x hx hp
  rw [List.mem_singleton.1 hx, decide_eq_true_eq] at hp
  apply he
  rw [PortCall, show callPort e.op = some p from hp]
  rfl

theorem LinkInv.other (h : LinkInv registry runtime s) (he : ¬ PortCall e.op)
    (hd : sawLinkDown e = false) :
    LinkInv registry runtime ⟨s.link, s.history ++ [(s.link.session, e)]⟩ where
  toHistoryOk := h.toHistoryOk.snoc he (Nat.le_refl _)
  plugins := h.plugins
  ports := by
    intro p hp
    rw [sinceDown_snoc, hd, if_neg Bool.false_ne_true, eventsOf_append,
      eventsOf_onPort_other he, List.append_nil]
    exact h.ports p hp
  split := by
    intro hup
    obtain ⟨old, hold, hc⟩ := h.split hup
    refine ⟨old, ?_, hc⟩
    have hs : s.link.session = some s.link.epoch := if_pos hup
    rw [sinceDown_snoc, hd, if_neg Bool.false_ne_true, hold, inSession_append, hs,
      List.append_assoc]
    exact congrArg (fun v => old ++ (inSession s.link.epoch s.history ++ v))
      (inSession_stamped s.link.epoch [e]).symm

theorem Settled.caughtUp (hs : Settled registry (sinceDown s.history))
    (h : LinkInv registry runtime s) : CaughtUp registry (sinceDown s.history) := by
  intro p hp hh
  have hf := ((h.ports p hp).handled hh).frames
  rw [received_eventsOf, handed_eventsOf] at hf
  exact ⟨hf, hs p hh⟩

/-- A burst that starts no session, or starts one while nothing is held back. -/
theorem LinkInv.burst (h : LinkInv registry runtime s) (hm : s.link.Moves link')
    (hs : link'.up = true → link'.epoch ≠ s.link.epoch →
      Settled registry (sinceDown s.history)) :
    LinkInv registry runtime ⟨link', s.history ++ [(s.link.session, ⟨.snetBurst, ()⟩)]⟩ where
  toHistoryOk := h.toHistoryOk.snoc Bool.false_ne_true hm.1
  plugins := h.plugins
  ports := (h.other (e := ⟨.snetBurst, ()⟩) Bool.false_ne_true rfl).ports
  split := by
    intro hup
    by_cases hsame : link'.epoch = s.link.epoch
    · have hsplit := (h.other (e := ⟨.snetBurst, ()⟩) Bool.false_ne_true rfl).split (hm.2 hsame hup)
      rw [← hsame] at hsplit
      exact hsplit
    · have hold :
          inSession link'.epoch (s.history ++ [(s.link.session, ⟨.snetBurst, ()⟩)]) = [] := by
        apply inSession_eq_nil
        intro x hx i hi
        have hok : HistoryOk ⟨s.link, s.history ++ [(s.link.session, ⟨.snetBurst, ()⟩)]⟩ :=
          h.toHistoryOk.snoc Bool.false_ne_true (Nat.le_refl _)
        exact Nat.lt_of_le_of_lt (hok.stamps x hx i hi) (Nat.lt_of_le_of_ne hm.1 (Ne.symm hsame))
      refine ⟨sinceDown s.history ++ [⟨.snetBurst, ()⟩], ?_, ?_⟩
      · rw [hold, List.append_nil, sinceDown_snoc]
        rfl
      · intro p hp hh
        have hc := (hs hup hsame).caughtUp h p hp hh
        simpa [received, receivedBy, handed, handedBy, accepted, acceptedBy, owed, replies,
          repliesBy] using hc

/-- The part of a port's traffic that belongs to the current session stands on its own. -/
theorem CaughtUp.sessionOk (hc : CaughtUp registry old) (hp : p ∈ pluginPorts)
    (hh : Handles registry p) (he : OnPort p e.op) (hi : inSession i pre = v)
    (hev : EventOk p (eventsOf (OnPort p) (old ++ v)) e) : SessionOk pre (some i, e) := by
  obtain ⟨hf, hpart, hsent⟩ := hc p hp hh
  subst hi
  rcases e with ⟨op, r⟩
  cases op with
  | handlePacket q request =>
    cases he
    obtain ⟨hframes, hlast, -⟩ := hev rfl
    rw [received_eventsOf, received_append] at hframes hlast
    rw [handed_eventsOf, handed_append, List.append_assoc, ← hf] at hframes
    exact ⟨i, rfl, frame_suffix_of_split hpart hframes hlast⟩
  | squidSend q data =>
    cases he
    obtain ⟨-, hdata⟩ := hev rfl
    rw [accepted_eventsOf, accepted_append, owed_eventsOf, owed_append, hsent,
      List.append_assoc] at hdata
    exact ⟨_, List.append_cancel_left hdata⟩
  | _ => trivial

theorem sessionOk_recv {e : Event LibSquid} (h : ∃ m, e.op = Call.squidRecv p m) (pre : History)
    (session : Option Nat) : SessionOk pre (session, e) := by
  rcases e with ⟨op, r⟩
  obtain ⟨m, hm⟩ := h
  cases hm
  cases session <;> trivial

theorem sessionOk_down (h : ∀ p request reply, e ≠ ⟨.handlePacket p request, reply⟩) :
    SessionOk pre (none, e) := by
  rcases e with ⟨op, r⟩
  cases op with
  | handlePacket p request => exact absurd rfl (h p request r)
  | _ => trivial

theorem mem_eventsOf_onPort (h : e ∈ u) (he : OnPort p e.op) : e ∈ eventsOf (OnPort p) u :=
  List.mem_filter.2 ⟨h, decide_eq_true he⟩

theorem PortWell.handles (h : PortWell registry p st (eventsOf (OnPort p) (t ++ u))) (hmem : e ∈ u)
    (he : OnPort p e.op) (hr : ∀ m, e.op ≠ Call.squidRecv p m) : Handles registry p := by
  by_contra hn
  obtain ⟨m, hm⟩ := (h.mute hn).2 e (mem_eventsOf_onPort (List.mem_append_right t hmem) he)
  exact hr m hm

theorem dispatchReceivedPackets_linkInv (h : LinkInv registry runtime s) :
    Ensures (linked allowed) (dispatchReceivedPackets runtime) (LinkInv registry) s := by
  intro s' runtime' he
  obtain ⟨u, hlink, hhist, hu, hquiet, hrec⟩ := exec_linked_recording
    (calls_dispatchPorts pluginPorts runtime) he (sinceDown s.history)
  have hsince : sinceDown s'.history = sinceDown s.history ++ u := by
    rw [hhist, sinceDown_append _ hu]
  have hports : ∀ p ∈ pluginPorts,
      PortWell registry p (runtime'.ports p) (eventsOf (OnPort p) (sinceDown s.history ++ u)) := by
    intro p hp
    have hport := (dispatchPorts_project pluginPorts_nodup hrec p).2.1 hp
    rw [h.plugins] at hport
    exact dispatchPort_portWell (h.ports p hp) _ _ hport
  have hopen : ∀ e ∈ u, ∀ p, OnPort p e.op → p ∈ pluginPorts := by
    intro e hmem p he
    by_contra hp
    have hsame := ((dispatchPorts_project pluginPorts_nodup hrec p).2.2 hp).1
    rw [eventsOf_append, List.append_right_eq_self] at hsame
    exact List.not_mem_nil (hsame ▸ mem_eventsOf_onPort hmem he)
  have hnew : ∀ u₁ e u₂, u = u₁ ++ e :: u₂ →
      SessionOk (s.history ++ u₁.map (s.link.session, ·)) (s.link.session, e) := by
    intro u₁ e u₂ hsplit
    have hmem : e ∈ u := by
      rw [hsplit]
      simp
    obtain ⟨p, hp⟩ : ∃ p, OnPort p e.op := Option.isSome_iff_exists.1 (hu e hmem)
    have hwell := hports p (hopen e hmem p hp)
    by_cases hr : ∃ m, e.op = Call.squidRecv p m
    · exact sessionOk_recv hr _ _
    · have hh := hwell.handles hmem hp (fun m hm => hr ⟨m, hm⟩)
      have ho := (hwell.handled hh).orderly
      have hbefore := (h.ports p (hopen e hmem p hp)).handled hh
      cases hup : s.link.up with
      | false =>
        rw [show s.link.session = none by rw [Link.session, hup]; rfl]
        exact sessionOk_down fun q request reply hq => by
          subst hq
          cases hp
          exact orderly_link_down hbefore ho (fun e he => hquiet hup e he _) hmem
      | true =>
        obtain ⟨old, hold, hc⟩ := h.split hup
        have hs : s.link.session = some s.link.epoch := if_pos hup
        rw [hs]
        apply hc.sessionOk (hopen e hmem p hp) hh hp (inSession_append ..)
        rw [inSession_stamped, ← List.append_assoc, ← hold]
        apply ho _ _ (eventsOf (OnPort p) u₂)
        rw [hsplit, ← List.append_assoc, eventsOf_append]
        simp [eventsOf, hp]
  have hstamped : s'.history = s.history ++ u.map (s.link.session, ·) := hhist
  constructor
  · constructor
    · intro x hx i hi
      rw [hlink]
      rw [hstamped] at hx
      rcases List.mem_append.1 hx with hx | hx
      · exact h.stamps x hx i hi
      · obtain ⟨e, -, rfl⟩ := List.mem_map.1 hx
        exact Link.session_le hi
    · rw [hstamped]
      apply h.apart.append
      intro v₁ x v₂ hv
      obtain ⟨u₁, w, hu₁, rfl, hw⟩ := List.map_eq_append_iff.1 hv
      obtain ⟨e, u₂, rfl, rfl, -⟩ := List.map_eq_cons_iff.1 hw
      exact hnew u₁ e u₂ hu₁
  · exact (dispatchPorts_project pluginPorts_nodup hrec 0).1.trans h.plugins
  · rw [hsince]
    exact hports
  · intro hup
    rw [hlink] at hup ⊢
    obtain ⟨old, hold, hc⟩ := h.split hup
    have hs : s.link.session = some s.link.epoch := if_pos hup
    refine ⟨old, ?_, hc⟩
    rw [hsince, hold, hstamped, hs, inSession_append, inSession_stamped, List.append_assoc]

theorem HistoryOk.sawDown (h : HistoryOk s) (hdown : s.link.up = false)
    (hplugins : runtime.pluginRegistry = registry)
    (hfresh : ∀ p ∈ pluginPorts, (runtime.ports p).Fresh) :
    LinkInv registry runtime
      ⟨s.link, s.history ++ [(s.link.session, ⟨.snetLinkIsUp, false⟩)]⟩ where
  toHistoryOk := h.snoc Bool.false_ne_true (Nat.le_refl _)
  plugins := hplugins
  ports := by
    intro p hp
    rw [sinceDown_snoc]
    exact (hfresh p hp).portWell registry p
  split := fun hup => absurd (hdown.symm.trans hup) Bool.false_ne_true

section
variable {registry : ServerPluginRegistry} {runtime : ServerRuntime} {s : Linked}

theorem keepRunning_linkInv (h : LinkInv registry runtime s) :
    Ensures (linked (Settled registry)) keepRunning
      (fun _ s' => LinkInv registry runtime s' ∧ s'.link = s.link) s := by
  intro s' running he
  obtain ⟨r, ⟨link', history'⟩, ⟨hlink, hhist⟩, hk⟩ := exec_call.1 he
  obtain ⟨rfl, -⟩ := exec_pure.1 hk
  cases hlink
  cases hhist
  exact ⟨h.other Bool.false_ne_true rfl, rfl⟩

theorem snetLinkIsUp_ensures :
    Ensures (linked (Settled registry)) snetLinkIsUp (fun up s' => up = s.link.up ∧
      s' = ⟨s.link, s.history ++ [(s.link.session, ⟨.snetLinkIsUp, up⟩)]⟩) s := by
  intro s' up he
  obtain ⟨r, ⟨link', history'⟩, ⟨⟨hlink, hup⟩, hhist⟩, hk⟩ := exec_call.1 he
  obtain ⟨rfl, rfl⟩ := exec_pure.1 hk
  cases hlink
  cases hhist
  exact ⟨hup, rfl⟩

theorem snetBurst_linkInv (h : LinkInv registry runtime s) :
    Ensures (linked (Settled registry)) snetBurst (fun _ => LinkInv registry runtime) s := by
  intro s' _ he
  obtain ⟨r, ⟨link', history'⟩, ⟨⟨hm, hs⟩, hhist⟩, hk⟩ := exec_call.1 he
  obtain ⟨rfl, -⟩ := exec_pure.1 hk
  cases hhist
  exact h.burst hm hs

theorem waitForTransport_linkInv (h : LinkInv registry runtime s) :
    Ensures (linked (Settled registry)) waitForTransport
      (fun _ => LinkInv registry runtime) s := by
  intro s' _ he
  obtain ⟨s₁, result, hwait, hrest⟩ := exec_bind.1 he
  obtain ⟨r, ⟨link₁, history₁⟩, ⟨hlink, hhist⟩, hk⟩ := exec_call.1 hwait
  obtain ⟨rfl, -⟩ := exec_pure.1 hk
  cases hlink
  cases hhist
  have h₁ := h.other (e := ⟨.transportWait, r⟩) Bool.false_ne_true rfl
  split at hrest
  · obtain ⟨r', ⟨link₂, history₂⟩, ⟨hlink, hhist⟩, hk⟩ := exec_call.1 hrest
    obtain ⟨rfl, -⟩ := exec_pure.1 hk
    cases hlink
    cases hhist
    exact h₁.other Bool.false_ne_true rfl
  · obtain ⟨rfl, -⟩ := exec_pure.1 hrest
    exact h₁

theorem awaitHandshake_linkInv (h : LinkInv registry runtime s)
    (hfresh : s.link.up = false → ∀ p ∈ pluginPorts, (runtime.ports p).Fresh) :
    Ensures (linked (Settled registry)) (awaitHandshake fuel)
      (fun _ => LinkInv registry runtime) s := by
  refine ensures_loop (fun _ _ s => LinkInv registry runtime s ∧
    (s.link.up = false → ∀ p ∈ pluginPorts, (runtime.ports p).Fresh)) ?_ ?_ ⟨h, hfresh⟩
  · intro _ s hi
    exact hi.1
  · intro _ _ s hi
    obtain ⟨h, hfresh⟩ := hi
    refine ensures_bind.2 ((keepRunning_linkInv h).mono ?_)
    intro running s₁ h₁
    obtain ⟨h₁, hlink⟩ := h₁
    cases running with
    | false => exact ensures_pure.2 h₁
    | true =>
      refine ensures_bind.2 (snetLinkIsUp_ensures.mono ?_)
      intro up s₂ h₂
      obtain ⟨hup, rfl⟩ := h₂
      cases up with
      | true => exact ensures_pure.2 (h₁.other Bool.false_ne_true rfl)
      | false =>
        have hempty := hfresh (hlink ▸ hup.symm)
        have h₂ := h₁.toHistoryOk.sawDown hup.symm h₁.plugins hempty
        refine ensures_bind.2 ((snetBurst_linkInv h₂).mono ?_)
        intro _ s₃ h₃
        refine ensures_bind.2 ((waitForTransport_linkInv h₃).mono ?_)
        intro _ s₄ h₄
        exact ensures_pure.2 ⟨h₄, fun _ => hempty⟩

/-- The loop that serves a session ends in order, or with the link seen down. -/
theorem serveLink_linkInv (h : LinkInv registry runtime s) :
    Ensures (linked (Settled registry)) (serveLink fuel runtime) (fun x s' => HistoryOk s' ∧
      ∀ runtime', x = some runtime' → runtime'.pluginRegistry = registry ∧
        (s'.link.up = true → LinkInv registry runtime' s')) s := by
  refine ensures_loop (fun _ => LinkInv registry) ?_ ?_ h
  · intro runtime s hi
    exact ⟨hi.toHistoryOk, fun _ hx => nomatch hx⟩
  · intro _ runtime s h
    refine ensures_bind.2 ((keepRunning_linkInv h).mono ?_)
    intro running s₁ h₁
    obtain ⟨h₁, -⟩ := h₁
    cases running with
    | false =>
      refine ensures_pure.2 ⟨h₁.toHistoryOk, ?_⟩
      intro _ hx
      cases hx
      exact ⟨h₁.plugins, fun _ => h₁⟩
    | true =>
      refine ensures_bind.2 (snetLinkIsUp_ensures.mono ?_)
      intro up s₂ h₂
      obtain ⟨hup, rfl⟩ := h₂
      cases up with
      | false =>
        refine ensures_pure.2 ⟨h₁.toHistoryOk.snoc Bool.false_ne_true (Nat.le_refl _), ?_⟩
        intro _ hx
        cases hx
        exact ⟨h₁.plugins, fun hu => absurd (hup.trans hu) Bool.false_ne_true⟩
      | true =>
        have h₂ := h₁.other (e := ⟨.snetLinkIsUp, true⟩) Bool.false_ne_true rfl
        refine ensures_bind.2 ((snetBurst_linkInv h₂).mono ?_)
        intro _ s₃ h₃
        refine ensures_bind.2 ((dispatchReceivedPackets_linkInv h₃).mono ?_)
        intro runtime' s₄ h₄
        refine ensures_bind.2 ((snetBurst_linkInv h₄).mono ?_)
        intro _ s₅ h₅
        refine ensures_bind.2 ((waitForTransport_linkInv h₅).mono ?_)
        intro _ s₆ h₆
        exact ensures_pure.2 h₆

end

theorem resetPorts_registry (ports : List Port) (runtime : ServerRuntime) :
    (resetPorts ports runtime).pluginRegistry = runtime.pluginRegistry := by
  induction ports generalizing runtime with
  | nil => rfl
  | cons port ports ih => rw [resetPorts, ih, ServerRuntime.setPort_registry]

theorem resetPorts_fresh (runtime : ServerRuntime)
    (h : p ∈ ports ∨ (runtime.ports p).Fresh) : ((resetPorts ports runtime).ports p).Fresh := by
  induction ports generalizing runtime with
  | nil =>
    rcases h with h | h
    · cases h
    · exact h
  | cons port ports ih =>
    apply ih
    by_cases hp : p = port
    · subst hp
      rw [ServerRuntime.setPort_same]
      exact .inr ⟨rfl, rfl⟩
    · rw [ServerRuntime.setPort_other _ _ hp]
      rcases h with h | h
      · exact .inl (List.mem_of_ne_of_mem hp h)
      · exact .inr h

/-- One turn of the outer loop: wait for a client, serve it, and clear the ports if it is gone. -/
theorem dispatchTurn_linkInv (h : LinkInv registry runtime s)
    (hfresh : s.link.up = false → ∀ p ∈ pluginPorts, (runtime.ports p).Fresh) :
    Ensures (linked (Settled registry)) (dispatchTurn fuel runtime) (fun x s' => HistoryOk s' ∧
      ∀ runtime', x = .inl runtime' → LinkInv registry runtime' s' ∧
        (s'.link.up = false → ∀ p ∈ pluginPorts, (runtime'.ports p).Fresh)) s := by
  refine ensures_bind.2 ((keepRunning_linkInv h).mono ?_)
  intro running s₁ h₁
  obtain ⟨h₁, hlink⟩ := h₁
  rw [← hlink] at hfresh
  cases running with
  | false => exact ensures_pure.2 ⟨h₁.toHistoryOk, fun _ hx => nomatch hx⟩
  | true =>
    refine ensures_bind.2 ((awaitHandshake_linkInv h₁ hfresh).mono ?_)
    intro found s₂ h₂
    cases found with
    | none => exact ensures_pure.2 ⟨h₂.toHistoryOk, fun _ hx => nomatch hx⟩
    | some found =>
      refine ensures_bind.2 ((keepRunning_linkInv h₂).mono ?_)
      intro running s₃ h₃
      obtain ⟨h₃, -⟩ := h₃
      cases running with
      | false => exact ensures_pure.2 ⟨h₃.toHistoryOk, fun _ hx => nomatch hx⟩
      | true =>
        refine ensures_bind.2 ((serveLink_linkInv h₃).mono ?_)
        intro served s₄ h₄
        obtain ⟨hok, h₄⟩ := h₄
        cases served with
        | none => exact ensures_pure.2 ⟨hok, fun _ hx => nomatch hx⟩
        | some runtime₄ =>
          obtain ⟨hplugins, hinv⟩ := h₄ runtime₄ rfl
          refine ensures_bind.2 (snetLinkIsUp_ensures.mono ?_)
          intro up s₅ h₅
          obtain ⟨hup, rfl⟩ := h₅
          cases up with
          | true =>
            have h₅ := (hinv hup.symm).other (e := ⟨.snetLinkIsUp, true⟩) Bool.false_ne_true rfl
            refine ensures_pure.2 ⟨h₅.toHistoryOk, ?_⟩
            intro _ hx
            cases hx
            exact ⟨h₅, fun hd => absurd (hd.symm.trans hup.symm) Bool.false_ne_true⟩
          | false =>
            have hempty : ∀ p ∈ pluginPorts,
                ((resetPorts pluginPorts runtime₄).ports p).Fresh :=
              fun p hp => resetPorts_fresh runtime₄ (.inl hp)
            have h₅ := hok.sawDown hup.symm
              ((resetPorts_registry pluginPorts runtime₄).trans hplugins) hempty
            refine ensures_pure.2 ⟨h₅.toHistoryOk, ?_⟩
            intro _ hx
            cases hx
            exact ⟨h₅, fun _ => hempty⟩

/-- As long as no session starts while a port holds a partial request or an unsent reply,
nothing of one session reaches another. -/
theorem runDispatchLoop_sessionsApart
    (he : Exec (linked (Settled runtime.pluginRegistry)) ⟨link, []⟩ (runDispatchLoop fuel runtime)
      s result)
    (hfresh : ∀ p ∈ pluginPorts, (runtime.ports p).Fresh) : SessionsApart s.history := by
  have hstart : LinkInv runtime.pluginRegistry runtime ⟨link, []⟩ := {
    stamps := by simp
    apart := by intro pre x post hs; simp at hs
    plugins := rfl
    ports := fun p hp => (hfresh p hp).portWell _ p
    split := fun _ => ⟨[], rfl, fun p _ _ => ⟨frames_nil, partialFrame_nil, rfl⟩⟩ }
  generalize runtime.pluginRegistry = registry at he hstart
  have hloop : Ensures (linked (Settled registry)) (runDispatchLoop fuel runtime)
      (fun _ => HistoryOk) ⟨link, []⟩ := by
    refine ensures_loop (fun _ runtime s => LinkInv registry runtime s ∧
      (s.link.up = false → ∀ p ∈ pluginPorts, (runtime.ports p).Fresh)) ?_ ?_
      ⟨hstart, fun _ => hfresh⟩
    · intro _ s hi
      exact hi.1.toHistoryOk
    · intro _ runtime s hi
      refine (dispatchTurn_linkInv hi.1 hi.2).mono ?_
      intro x s' hx
      cases x with
      | inl runtime' => exact hx.2 runtime' rfl
      | inr _ => exact hx.1
  exact (hloop _ _ he).apart

/-- A run of libsquid given as its events, each with the link after it. -/
def Linked.after (s : Linked) : List (Link × Event LibSquid) → Linked
  | [] => s
  | (link', e) :: u => Linked.after ⟨link', s.history ++ [(s.link.session, e)]⟩ u

def Linked.Allows (allowed : Trace → Prop) (s : Linked) : List (Link × Event LibSquid) → Prop
  | [] => True
  | (link', e) :: u => LinkAnswers allowed s link' e ∧
      Linked.Allows allowed ⟨link', s.history ++ [(s.link.session, e)]⟩ u

theorem Linked.Allows.steps {s : Linked} (h : s.Allows allowed u) :
    Steps (linked allowed) s (u.map Prod.snd) (s.after u) := by
  induction u generalizing s with
  | nil => exact .nil s
  | cons x u ih => exact .cons ⟨h.1, rfl⟩ (ih h.2)

/-- The first turn of the loop over `echoRuntime`, which serves a request in session 1. -/
def firstTurn (sent : Bool) : Trace :=
  [⟨.keepRunning, true⟩, ⟨.keepRunning, true⟩, ⟨.snetLinkIsUp, true⟩, ⟨.keepRunning, true⟩,
    ⟨.keepRunning, true⟩, ⟨.snetLinkIsUp, true⟩, ⟨.snetBurst, ()⟩, ⟨.squidRecv 1 1, some [1]⟩,
    ⟨.squidRecv 1 1, some [7]⟩, ⟨.handlePacket 1 [7], ⟨0, Vector.replicate 255 7, false, 1⟩⟩,
    ⟨.squidSend 1 [1, 7], sent⟩]

/-- The burst that ends session 1 and starts session 2, up to the next dispatch. -/
def replacingBurst : Trace :=
  [⟨.snetBurst, ()⟩, ⟨.transportWait, 0⟩, ⟨.keepRunning, true⟩, ⟨.snetLinkIsUp, true⟩,
    ⟨.snetBurst, ()⟩]

/-- The end of the second turn, with nothing more to read. -/
def idleTurn : Trace := [⟨.squidRecv 1 1, some []⟩, ⟨.snetBurst, ()⟩, ⟨.transportWait, 0⟩]

def replacedClient (sent : Bool) (second : Trace) : List (Link × Event LibSquid) :=
  (firstTurn sent).map (⟨true, 1⟩, ·) ++ (replacingBurst ++ second ++ idleTurn).map (⟨true, 2⟩, ·)

theorem settled_firstTurn : Settled echoRuntime.pluginRegistry (firstTurn true) := by
  intro p hp
  by_cases h : p = 1
  · subst h
    have hlen : [(7 : UInt8)].length = (1 : UInt8).toNat := rfl
    have hs := split_complete (by decide) hlen []
    rw [List.append_nil, split_nil] at hs
    exact ⟨congrArg Prod.snd hs, by decide⟩
  · obtain ⟨plugin, hfind, -⟩ := hp
    change (if p = 1 then _ else none) = some plugin at hfind
    rw [if_neg h] at hfind
    cases hfind

theorem runDispatchLoop_sessionsApart_replaced :
    ∃ s result, Exec (linked (Settled echoRuntime.pluginRegistry)) ⟨⟨true, 1⟩, []⟩
      (runDispatchLoop 2 echoRuntime) s result ∧ SessionsApart s.history := by
  have hsome : ((runDispatchLoop 2 echoRuntime).replay
      ((replacedClient true []).map Prod.snd)).isSome = true := by
    decide +kernel
  obtain ⟨result, hr⟩ := Option.isSome_iff_exists.1 hsome
  have hallows : Linked.Allows (Settled echoRuntime.pluginRegistry) ⟨⟨true, 1⟩, []⟩
      (replacedClient true []) := by
    simp [replacedClient, firstTurn, replacingBurst, idleTurn, Linked.Allows, LinkAnswers,
      Link.Moves]
    exact settled_firstTurn
  have he := exec_of_replay hr hallows.steps
  exact ⟨_, result, he, runDispatchLoop_sessionsApart he (fun p _ => echoRuntime_fresh p)⟩

/-- A reply that waits when a new session replaces the old one between two looks at the link
is sent in the new session. -/
theorem runDispatchLoop_stale_reply :
    ∃ s result, Exec (linked (fun _ => True)) ⟨⟨true, 1⟩, []⟩ (runDispatchLoop 2 echoRuntime)
      s result ∧ (∀ p ∈ pluginPorts, (echoRuntime.ports p).Fresh) ∧ ¬ SessionsApart s.history := by
  have hsome : ((runDispatchLoop 2 echoRuntime).replay
      ((replacedClient false [⟨.squidSend 1 [1, 7], true⟩]).map Prod.snd)).isSome = true := by
    decide +kernel
  obtain ⟨result, hr⟩ := Option.isSome_iff_exists.1 hsome
  have hallows : Linked.Allows (fun _ => True) ⟨⟨true, 1⟩, []⟩
      (replacedClient false [⟨.squidSend 1 [1, 7], true⟩]) := by
    simp [replacedClient, firstTurn, replacingBurst, idleTurn, Linked.Allows, LinkAnswers,
      Link.Moves]
  refine ⟨_, result, exec_of_replay hr hallows.steps, fun p _ => echoRuntime_fresh p, ?_⟩
  intro h
  have hsend := h ((firstTurn false).map (some 1, ·) ++
      (some 1, ⟨.snetBurst, ()⟩) :: replacingBurst.tail.map (some 2, ·))
    (some 2, ⟨.squidSend 1 [1, 7], true⟩) (idleTurn.map (some 2, ·)) rfl
  exact absurd (List.suffix_nil.1 hsend) (by decide)

end SquidServer.Runtime

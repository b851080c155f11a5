import SquidServer.PluginConfigFiles
import SquidServer.ServerCalls
import SquidServer.ServerLeases

namespace SquidServer.Server
open Interaction Leases CText PluginConfig
open SquidServer.PluginLoader (InStep PluginPointer Tables)
open SquidServer.Runtime (Dispatches Port pluginPorts)
open SquidServer.SerialTransport (ServerSerialTransport mapBaudRate serialTransportWait)
set_option autoImplicit true

/-- The terminal behind the serial device: its settings, those that libsquid has found whenever it
has run, and whether the last change was refused. -/
structure Terminal where
  settings : Termios
  found : List Termios
  refused : Bool

/-- The configuration file says `file`, and the device can be given the settings `takes`. A change
that succeeds has been made as a whole where it is to such settings; of others any part may have
been made. All other answers are free. -/
def terminal (file : Option (List UInt8)) (takes : Termios → Prop) : Environment Host Terminal :=
  fun s op => match op with
  | .readConfig _ => fun text s' => text = file ∧ s' = s
  | .tcgetattr _ => fun tty s' => (∀ settings, tty = some settings → settings = s.settings) ∧ s' = s
  | .tcsetattr _ tty => fun result s' =>
    if result = 0 then
      ∃ made, (takes tty → made = tty) ∧ s' = { s with settings := made, refused := false }
    else s' = { s with refused := true }
  | .snetBurst _ => fun _ s' => s' = { s with found := s.found ++ [s.settings] }
  | _ => fun _ s' => s' = s

/-- What a configuration asks of the settings, read back from them: the line is raw and has the
parameters, and whatever has nothing to do with these is as it was saved. -/
structure Configured (cfg : SerialTransportConfig) (saved tty : Termios) : Prop where
  databits : tty.cCflag &&& csize = if cfg.databits = 7 then cs7 else cs8
  parity : tty.cCflag &&& (parenb ||| parodd) =
    if cfg.parity = 1 then parenb else if cfg.parity = 2 then parenb ||| parodd else 0
  stopbits : tty.cCflag &&& cstopb = if cfg.stopbits = 2 then cstopb else 0
  hardwareFlow : tty.cCflag &&& crtscts = if cfg.flow = 1 then crtscts else 0
  softwareFlow : tty.cIflag &&& (ixon ||| ixoff ||| ixany) =
    if cfg.flow = 2 then ixon ||| ixoff else 0
  receives : tty.cCflag &&& (cread ||| clocal) = cread ||| clocal
  rawInput : tty.cIflag &&& (icrnl ||| inlcr) = 0
  rawOutput : tty.cOflag &&& (opost ||| onlcr) = 0
  rawLine : tty.cLflag &&& (icanon ||| echo ||| echoe ||| isig) = 0
  polled : tty.vmin = 0 ∧ tty.vtime = 0
  speed : tty.inputSpeed = cfg.baud ∧ tty.outputSpeed = cfg.baud
  otherControl : tty.cCflag &&& ~~~ (csize ||| parenb ||| parodd ||| cstopb ||| crtscts |||
    cread ||| clocal) = saved.cCflag &&& ~~~ (csize ||| parenb ||| parodd ||| cstopb ||| crtscts |||
    cread ||| clocal)
  otherInput : tty.cIflag &&& ~~~ (ixon ||| ixoff ||| ixany ||| icrnl ||| inlcr) =
    saved.cIflag &&& ~~~ (ixon ||| ixoff ||| ixany ||| icrnl ||| inlcr)
  otherOutput : tty.cOflag &&& ~~~ (opost ||| onlcr) = saved.cOflag &&& ~~~ (opost ||| onlcr)
  otherLine : tty.cLflag &&& ~~~ (icanon ||| echo ||| echoe ||| isig) =
    saved.cLflag &&& ~~~ (icanon ||| echo ||| echoe ||| isig)

theorem masked (x v m : UInt32) (h : n &&& ~~~ m = 0) : ((x &&& ~~~ m) ||| v) &&& n = v &&& n := by
  rw [← UInt32.toBitVec_inj] at h ⊢
  ext i hi
  have hbit := congrArg (fun b => b.getLsbD i) h
  simp [hi] at hbit ⊢
  grind

theorem unmasked (x : UInt32) (h : n &&& m = 0) (hv : v &&& n = 0) :
    ((x &&& ~~~ m) ||| v) &&& n = x &&& n := by
  rw [← UInt32.toBitVec_inj] at h hv ⊢
  ext i hi
  have hbit := congrArg (fun b => b.getLsbD i) h
  have hbit' := congrArg (fun b => b.getLsbD i) hv
  simp [hi] at hbit hbit' ⊢
  grind

theorem settled (x : UInt32) (h : v &&& n = n) : (x ||| v) &&& n = n := by
  rw [← UInt32.toBitVec_inj] at h ⊢
  ext i hi
  have hbit := congrArg (fun b => b.getLsbD i) h
  simp [hi] at hbit ⊢
  grind

/-- The flags that `configure_port` sets in `c_cflag`. -/
def controlFlags (cfg : SerialTransportConfig) : UInt32 :=
  (cread ||| clocal) ||| databitsFlag cfg ||| parityFlags cfg ||| stopbitsFlag cfg |||
    (if cfg.flow = 1 then crtscts else 0)

theorem cCflag_configuredTty (cfg : SerialTransportConfig) (saved : Termios) :
    (configuredTty cfg saved).cCflag =
      (saved.cCflag &&& ~~~ (csize ||| parenb ||| parodd ||| cstopb ||| crtscts)) |||
        controlFlags cfg := by
  simp only [configuredTty, controlFlags, UInt32.or_assoc]

theorem configuredTty_configured (cfg : SerialTransportConfig) (hbaud : cfg.baud ∈ serialRates)
    (saved : Termios) : Configured cfg saved (configuredTty cfg saved) where
  databits := by
    rw [cCflag_configuredTty, masked _ _ _ (by decide)]
    unfold controlFlags databitsFlag parityFlags stopbitsFlag
    split_ifs <;> decide
  parity := by
    rw [cCflag_configuredTty, masked _ _ _ (by decide)]
    unfold controlFlags databitsFlag parityFlags stopbitsFlag
    split_ifs <;> decide
  stopbits := by
    rw [cCflag_configuredTty, masked _ _ _ (by decide)]
    unfold controlFlags databitsFlag parityFlags stopbitsFlag
    split_ifs <;> decide
  hardwareFlow := by
    rw [cCflag_configuredTty, masked _ _ _ (by decide)]
    unfold controlFlags databitsFlag parityFlags stopbitsFlag
    split_ifs <;> decide
  softwareFlow := by
    dsimp only [configuredTty]
    rw [masked _ _ _ (by decide)]
    split_ifs <;> decide
  receives := by
    rw [cCflag_configuredTty]
    refine settled _ ?_
    unfold controlFlags databitsFlag parityFlags stopbitsFlag
    split_ifs <;> decide
  rawInput := by
    dsimp only [configuredTty]
    rw [masked _ _ _ (by decide)]
    split_ifs <;> decide
  rawOutput := by
    dsimp only [configuredTty]
    rw [UInt32.and_assoc, UInt32.not_and_self, UInt32.and_zero]
  rawLine := by
    dsimp only [configuredTty]
    rw [UInt32.and_assoc, UInt32.not_and_self, UInt32.and_zero]
  polled := ⟨rfl, rfl⟩
  speed := ⟨(mem_serialRates hbaud).2.2, (mem_serialRates hbaud).2.2⟩
  otherControl := by
    rw [cCflag_configuredTty, unmasked _ (by decide)]
    unfold controlFlags databitsFlag parityFlags stopbitsFlag
    split_ifs <;> decide
  otherInput := by
    dsimp only [configuredTty]
    rw [unmasked _ (by decide)]
    split_ifs <;> decide
  otherOutput := by
    dsimp only [configuredTty]
    rw [UInt32.and_assoc, UInt32.and_self]
  otherLine := by
    dsimp only [configuredTty]
    rw [UInt32.and_assoc, UInt32.and_self]

section
variable {file : Option (List UInt8)} {takes : Termios → Prop} {s : Terminal}

theorem terminal_plain {op : Call} {r : op.Ans} (hop : Plain op)
    (h : terminal file takes s op r s') : s' = s := by
  cases op <;> first | exact False.elim hop | exact h

/-- A change of the settings succeeds, or leaves them. -/
theorem tcsetattr_cases {result : Int} (h : terminal file takes s (.tcsetattr fd tty) result s') :
    (result = 0 ∧ (takes tty → s'.settings = tty) ∧ s'.found = s.found) ∨
      (result ≠ 0 ∧ s' = { s with refused := true }) := by
  rw [terminal] at h
  split at h
  · rename_i hresult
    obtain ⟨made, hmade, rfl⟩ := h
    exact .inl ⟨hresult, hmade, rfl⟩
  · rename_i hresult
    exact .inr ⟨hresult, h⟩

theorem ensures_plain {p : Program Host α} (hp : Calls Plain p) :
    Ensures (terminal file takes) p (fun _ s' => s = s') s :=
  hp.invariant (s = ·) (fun _ _ _ _ hop hs h => hs.trans (terminal_plain hop h).symm) rfl

theorem ensures_idle {p : Program Host α} (hp : Calls Idle p) :
    Ensures (terminal file takes) p (fun _ s' => s = s') s :=
  ensures_plain (hp.mono fun _ h => h.plain)

end

/-- libsquid may have run, on the settings as they were; these are as they were. -/
structure Terminal.Used (s s' : Terminal) : Prop where
  settings : s'.settings = s.settings
  found : ∀ tty ∈ s'.found, tty ∈ s.found ∨ tty = s.settings

theorem Terminal.Used.refl (s : Terminal) : s.Used s := ⟨rfl, fun _ h => .inl h⟩

theorem Terminal.Used.trans {s₁ s₂ s₃ : Terminal} (h : s₁.Used s₂) (h' : s₂.Used s₃) :
    s₁.Used s₃ where
  settings := h'.settings.trans h.settings
  found := by
    intro tty htty
    rcases h'.found tty htty with hfound | rfl
    · exact h.found tty hfound
    · exact .inr h.settings

section
variable {file : Option (List UInt8)} {takes : Termios → Prop} {s : Terminal}
  {active : ActiveTransport}

theorem snetBurst_terminal :
    Ensures (terminal file takes) (snetBurst active) (fun _ s' => s.Used s') s := by
  have hburst : ∀ fd,
      Ensures (terminal file takes) (call (.snetBurst fd)) (fun _ s' => s.Used s') s := by
    intro fd
    refine ensures_ask ?_
    rintro bytes _ rfl
    refine ⟨rfl, ?_⟩
    intro tty htty
    rcases List.mem_append.1 htty with hfound | hlast
    · exact .inl hfound
    · exact .inr (List.mem_singleton.1 hlast)
  cases active with
  | localSocket transport => exact ensures_bind.2 ((hburst _).mono fun _ _ h => ensures_pure.2 h)
  | serial transport => exact ensures_bind.2 ((hburst _).mono fun _ _ h => ensures_pure.2 h)

theorem dispatchCall_terminal (fuel : Nat) (registry : Port → Option PluginPointer)
    (fds : Port → Int) (op : Runtime.Call) :
    Ensures (terminal file takes) (dispatchCall fuel registry fds active op)
      (fun _ s' => s.Used s') s := by
  have hquiet : ∀ {β : Type} {p : Program Host β}, Calls Plain p →
      Ensures (terminal file takes) p (fun _ s' => s.Used s') s := by
    intro β p hp
    refine (ensures_plain hp).mono ?_
    rintro _ _ rfl
    exact .refl _
  cases op with
  | keepRunning => exact hquiet ((Calls.ask trivial).bind fun _ => .pure _)
  | clearKeepRunning => exact hquiet ((Calls.ask trivial).bind fun _ => .pure _)
  | snetLinkIsUp => exact hquiet ((Calls.ask trivial).bind fun _ => .pure _)
  | snetBurst =>
    exact ensures_bind.2 (snetBurst_terminal.mono fun _ _ h => ensures_pure.2 h)
  | transportWait => exact hquiet ((transportWait_calls fuel).mono fun _ h => h.plain)
  | squidRecv port maximum => exact hquiet ((Calls.ask trivial).bind fun _ => .pure _)
  | squidSend port data => exact hquiet ((Calls.ask trivial).bind fun _ => .pure _)
  | handlePacket port request =>
    rw [dispatchCall]
    cases registry port with
    | none => exact hquiet (.pure _)
    | some plugin =>
      refine ensures_bind.2 (ensures_ask ?_)
      rintro reply _ rfl
      exact ensures_pure.2 (.refl _)

theorem serve_terminal (fuel : Nat) (tables : Tables) (runtime : Runtime.ServerRuntime) :
    Ensures (terminal file takes) (serve fuel tables runtime active) (fun _ s' => s.Used s') s := by
  rw [serve]
  refine ensures_bind.2 ((ensures_idle (openPluginSockets_calls _ _)).mono ?_)
  rintro runtime₁ _ rfl
  have hwired : runtime₁.Wired runtime₁.pluginRegistry
      (fun port => (runtime₁.ports port).squidFd) := ⟨rfl, fun _ => rfl⟩
  refine ensures_bind.2 (((Runtime.runDispatchLoop_performs fuel hwired).ensures_implement
    (fun _ s' => s.Used s') (fun s' => s.Used s') ?_ (.refl s)).mono ?_)
  · rintro active₁ s₁ op - hused
    refine (dispatchCall_terminal fuel _ _ op).mono ?_
    rintro (_ | _) s₂ hused₂ <;> exact hused.trans hused₂
  · rintro (_ | ⟨_ | _ | runtime₂, active₂⟩) s₁ hend
    · exact ensures_pure.2 hend
    · exact ensures_pure.2 hend.2
    · exact ensures_pure.2 hend.2
    · refine ensures_bind.2 ((ensures_idle (closePluginSockets_calls _ _)).mono ?_)
      rintro _ _ rfl
      exact ensures_pure.2 hend.2

/-- Opening gives the line the settings of the configuration and keeps those it had. -/
theorem serialTransportOpen_terminal (cfg : SerialTransportConfig) (line : SerialLine)
    (htakes : takes (configuredTty cfg s.settings)) :
    Ensures (terminal file takes) (serialTransportOpen cfg line) (fun x s' => s'.found = s.found ∧
      ((x.1 = -1 ∧ s'.settings = s.settings) ∨ (x.1 = 0 ∧ 0 ≤ x.2.transport.fd ∧
        x.2.savedTty = s.settings ∧ s'.settings = configuredTty cfg s.settings))) s := by
  rw [serialTransportOpen]
  split
  · exact ensures_pure.2 ⟨rfl, .inl ⟨rfl, rfl⟩⟩
  · refine ensures_bind.2 ((ensures_plain (calls_call (.openDevice cfg.device) trivial)).mono ?_)
    rintro fd _ rfl
    split
    · exact ensures_pure.2 ⟨rfl, .inl ⟨rfl, rfl⟩⟩
    · rename_i hfd
      have hconfigure : Ensures (terminal file takes) (configurePort cfg fd initSerialLine.savedTty)
          (fun x s' => s'.found = s.found ∧ ((x.1 ≠ 0 ∧ s'.settings = s.settings) ∨
            (x.1 = 0 ∧ x.2 = s.settings ∧ s'.settings = configuredTty cfg s.settings))) s := by
        rw [configurePort]
        refine ensures_bind.2 (ensures_ask ?_)
        rintro (_ | saved) _ ⟨hsaved, rfl⟩
        · exact ensures_pure.2 ⟨rfl, .inl ⟨by decide, rfl⟩⟩
        · obtain rfl := hsaved saved rfl
          refine ensures_bind.2 (ensures_ask ?_)
          intro result s₁ hset
          refine ensures_pure.2 ?_
          rcases tcsetattr_cases hset with ⟨hresult, hmade, hfound⟩ | ⟨hresult, rfl⟩
          · exact ⟨hfound, .inr ⟨hresult, rfl, hmade htakes⟩⟩
          · exact ⟨rfl, .inl ⟨hresult, rfl⟩⟩
      refine ensures_bind.2 (hconfigure.mono ?_)
      rintro ⟨result, savedTty⟩ s₁ ⟨hfound, ⟨hresult, hsettings⟩ | ⟨hresult, hsaved, hsettings⟩⟩
      · dsimp only at hresult ⊢
        rw [if_pos hresult]
        refine ensures_bind.2 ((ensures_plain (calls_call (.close fd) trivial)).mono ?_)
        rintro _ _ rfl
        exact ensures_pure.2 ⟨hfound, .inl ⟨rfl, hsettings⟩⟩
      · dsimp only at hresult hsaved ⊢
        rw [if_neg (not_not.2 hresult)]
        exact ensures_pure.2 ⟨hfound, .inr ⟨rfl, Int.not_lt.1 hfd, hsaved, hsettings⟩⟩

theorem serialTransportClose_terminal {line : SerialLine} (hfd : 0 ≤ line.transport.fd)
    (htakes : takes line.savedTty) :
    Ensures (terminal file takes) (serialTransportClose line) (fun _ s' => s'.found = s.found ∧
      (s'.settings = line.savedTty ∨ s'.refused = true)) s := by
  rw [serialTransportClose, if_pos hfd]
  refine ensures_bind.2 (ensures_ask ?_)
  rintro result s₁ hset
  refine ensures_bind.2 ((ensures_plain (calls_call (.close line.transport.fd) trivial)).mono ?_)
  rintro _ _ rfl
  refine ensures_pure.2 ?_
  rcases tcsetattr_cases hset with ⟨-, hmade, hfound⟩ | ⟨-, rfl⟩
  · exact ⟨hfound, .inl (hmade htakes)⟩
  · exact ⟨rfl, .inr rfl⟩

end

/-- What a run on a serial device leaves: libsquid has found the settings of the configuration, and
the line has its own back, unless it has refused them. -/
def Lent (cfg : SerialTransportConfig) (settings : Termios) (x : Option Int) (s' : Terminal) :
    Prop :=
  (∀ tty ∈ s'.found, tty = configuredTty cfg settings) ∧
    (x ≠ none → s'.settings = settings ∨ s'.refused = true)

section
variable {file : Option (List UInt8)} {takes : Termios → Prop} {settings : Termios}
  {runtime : ServerRuntime}

theorem serveSerial_terminal (fuel : Nat) (hstep : InStep runtime.tables)
    (hclosed : ∀ port, (runtime.ports port).squidFd < 0) (refused : Bool)
    (htakes : takes (configuredTty (serialConfig runtime.pluginConfig) settings))
    (hown : takes settings) :
    Ensures (terminal file takes) (serveSerial fuel runtime)
      (Lent (serialConfig runtime.pluginConfig) settings) ⟨settings, [], refused⟩ := by
  have hfinish : ∀ (s : Terminal) (result : Int),
      (∀ tty ∈ s.found, tty = configuredTty (serialConfig runtime.pluginConfig) settings) →
      s.settings = settings ∨ s.refused = true →
      Ensures (terminal file takes) (shutDown runtime result)
        (Lent (serialConfig runtime.pluginConfig) settings) s := by
    intro s result hfound hback
    refine (ensures_plain (shutDown_calls runtime result)).mono ?_
    rintro _ _ rfl
    exact ⟨hfound, fun _ => hback⟩
  rw [serveSerial]
  refine ensures_bind.2 ((serialTransportOpen_terminal _ _ htakes).mono ?_)
  rintro ⟨opening, line⟩ s₁ ⟨hfound, ⟨hopening, hsettings⟩ | ⟨hopening, hfd, hsaved, hsettings⟩⟩
  · dsimp only at hopening ⊢
    rw [hopening, if_pos (by decide)]
    exact hfinish s₁ 1 (by rw [hfound]; exact List.forall_mem_nil _) (.inl hsettings)
  · dsimp only at hopening hfd hsaved ⊢
    rw [hopening, if_neg (by decide)]
    refine ensures_bind.2 ((ensures_plain (calls_call (.snetInit _) trivial)).mono ?_)
    rintro _ _ rfl
    refine ensures_bind.2 ?_
    intro s₂ served hserve
    have hused := serve_terminal fuel _ _ _ _ hserve
    have hfound₂ : ∀ tty ∈ s₂.found,
        tty = configuredTty (serialConfig runtime.pluginConfig) settings := by
      intro tty htty
      rcases hused.found tty htty with hbefore | rfl
      · rw [hfound] at hbefore
        exact absurd hbefore List.not_mem_nil
      · exact hsettings
    -- The descriptor is still the one that was opened, so that the line gets its settings back.
    obtain ⟨held', hsame⟩ := (serve_leased fuel hstep rfl hclosed
      (fun i hi => Multiset.mem_add.2 (.inl hi)) (mem_add_singleton (tableResources runtime.tables)
        (.descriptor line.transport.fd))).anywhere hserve
    rcases served with _ | _ | transport
    · exact ensures_pure.2 ⟨hfound₂, fun h => absurd rfl h⟩
    · exact ensures_pure.2 ⟨hfound₂, fun h => absurd rfl h⟩
    · have hfd' : transport.fd = line.transport.fd := (hsame _ rfl).1
      have hopen : 0 ≤ (SerialLine.mk transport line.savedTty).transport.fd := hfd'.symm ▸ hfd
      refine ensures_bind.2 ((serialTransportClose_terminal hopen (hsaved ▸ hown)).mono ?_)
      rintro _ s₃ ⟨hfound₃, hback⟩
      refine hfinish s₃ 0 (by rw [hfound₃]; exact hfound₂) ?_
      rw [← hsaved]
      exact hback

theorem runServer_terminal (fuel : Nat)
    (hfile : parseServerPluginConfigFile file = .ok pluginConfig)
    (hserial : pluginConfig.serialDevice.1 ≠ []) (hstep : InStep runtime.tables)
    (hclosed : ∀ port, (runtime.ports port).squidFd < 0)
    (htakes : takes (configuredTty (serialConfig pluginConfig) settings))
    (hown : takes settings) :
    Ensures (terminal file takes) (runServer fuel runtime)
      (Lent (serialConfig pluginConfig) settings) ⟨settings, [], false⟩ := by
  have huntouched : ∀ x : Option Int,
      Lent (serialConfig pluginConfig) settings x ⟨settings, [], false⟩ :=
    fun x => ⟨List.forall_mem_nil _, fun _ => .inl rfl⟩
  rw [runServer]
  refine ensures_bind.2 ((ensures_idle (initServerLog_calls _)).mono ?_)
  rintro _ _ rfl
  refine ensures_bind.2 ((ensures_idle installSignalHandlers_calls).mono ?_)
  rintro installed _ rfl
  split
  · refine ensures_bind.2 ((ensures_idle (closeServerLog_calls _)).mono ?_)
    rintro _ _ rfl
    exact ensures_pure.2 (huntouched _)
  · refine ensures_bind.2 ?_
    intro s₁ loaded hload
    have hleased : Leased hostLease (loadConfiguredPlugins runtime) (fun x held' =>
        InStep x.2.tables ∧ x.2.config = runtime.config ∧ x.2.ports = runtime.ports ∧
          held' = 0 + tableResources x.2.tables) (0 + tableResources runtime.tables) :=
      loadConfiguredPlugins_leased hstep
    obtain ⟨held', hstep₁, -, hports, -⟩ := hleased.anywhere hload
    have hconfigured : Ensures (terminal file takes) (loadConfiguredPlugins runtime) (fun x s' =>
        s' = ⟨settings, [], false⟩ ∧ x.2.pluginConfig = pluginConfig)
        ⟨settings, [], false⟩ := by
      rw [loadConfiguredPlugins]
      refine ensures_bind.2 (ensures_ask ?_)
      rintro text _ ⟨rfl, rfl⟩
      rw [hfile]
      refine ensures_bind.2 ((ensures_plain (loadPlugins_calls _ _)).mono ?_)
      rintro ⟨result, tables⟩ _ rfl
      exact ensures_pure.2 ⟨rfl, rfl⟩
    obtain ⟨rfl, hconfig⟩ := hconfigured _ _ hload
    obtain ⟨result, runtime₁⟩ := loaded
    dsimp only at hstep₁ hports hconfig ⊢
    subst hconfig
    split
    · refine (ensures_plain (shutDown_calls runtime₁ 1)).mono ?_
      rintro x _ rfl
      exact huntouched x
    · exact serveSerial_terminal fuel hstep₁ (hports ▸ hclosed) false htakes hown

end

/-- On a serial device that can be given the settings that the configuration file asks for and those
it had, libsquid always finds the former, and when the server ends the line has the latter, unless
it has refused them. -/
theorem serial_line_lent {file : Option (List UInt8)} {takes : Termios → Prop}
    (hfile : parseServerPluginConfigFile file = .ok pluginConfig)
    (hserial : pluginConfig.serialDevice.1 ≠ []) (hbaud : pluginConfig.serialBaud ∈ serialRates)
    (fuel : Nat) (config : ServerConfig) (settings : Termios)
    (htakes : ∀ tty, Configured (serialConfig pluginConfig) settings tty → takes tty)
    (hown : takes settings) :
    Ensures (terminal file takes) (runServerRuntime fuel (initServerRuntime config)) (fun x s' =>
      (∀ tty ∈ s'.found, Configured (serialConfig pluginConfig) settings tty) ∧
        (x ≠ none → s'.settings = settings ∨ s'.refused = true)) ⟨settings, [], false⟩ := by
  have hconfigured : Configured (serialConfig pluginConfig) settings
      (configuredTty (serialConfig pluginConfig) settings) :=
    configuredTty_configured _ hbaud settings
  have hserver : Ensures (terminal file takes) (runServer fuel (initServerRuntime config))
      (Lent (serialConfig pluginConfig) settings) ⟨settings, [], false⟩ :=
    runServer_terminal fuel hfile hserial PluginLoader.inStep_empty
      (fun _ => show (-1 : Int) < 0 by decide) (htakes _ hconfigured) hown
  have hrun : Ensures (terminal file takes) (runServerRuntime fuel (initServerRuntime config))
      (Lent (serialConfig pluginConfig) settings) ⟨settings, [], false⟩ := by
    rw [runServerRuntime]
    split
    · refine ensures_bind.2 ((ensures_idle daemonizeProcess_calls).mono ?_)
      rintro (_ | daemonResult) _ rfl
      · exact ensures_pure.2 ⟨List.forall_mem_nil _, fun _ => .inl rfl⟩
      · dsimp only
        split
        · exact ensures_pure.2 ⟨List.forall_mem_nil _, fun _ => .inl rfl⟩
        · split
          · exact ensures_pure.2 ⟨List.forall_mem_nil _, fun _ => .inl rfl⟩
          · exact hserver
    · exact hserver
  refine hrun.mono ?_
  rintro x s' ⟨hfound, hback⟩
  refine ⟨fun tty htty => ?_, hback⟩
  rw [hfound tty htty]
  exact hconfigured

def lineFile : List UInt8 := ascii "serial_device /d\n"

def lineConfig : ServerPluginConfigFile :=
  { initServerPluginConfigFile with serialDevice := ⟨ascii "/d", by decide⟩ }

theorem lineFile_parses : parseServerPluginConfigFile (some lineFile) = .ok lineConfig := by
  rfl

def consoleConfig : ServerConfig := ⟨.console, ⟨ascii "/c", by decide⟩⟩

/-- A cooked terminal at 1200 baud. -/
def cookedTty : Termios := ⟨0x500, 0x05, 0xBF, 0x8A3B, 1200, 1200, 1, 0⟩

def cookedStart : Terminal × Nat := (⟨cookedTty, [], false⟩, 0)

/-- A device that does as it is told, with one turn of libsquid before the server is stopped. -/
def lineAnswers : Terminal × Nat → (op : Call) → op.Ans × (Terminal × Nat)
  | (s, n), .fork => (0, (s, n))
  | (s, n), .setsid => (0, (s, n))
  | (s, n), .chdir _ => (0, (s, n))
  | (s, n), .umask => ((), (s, n))
  | (s, n), .freopen _ => (true, (s, n))
  | (s, n), .signal _ => (true, (s, n))
  | (s, n), .openlog => ((), (s, n))
  | (s, n), .closelog => ((), (s, n))
  | (s, n), .readConfig _ => (some lineFile, (s, n))
  | (s, n), .library (.getenv _) => (none, (s, n))
  | (s, n), .library (.dlopen _) => (some 7, (s, n))
  | (s, n), .library .dlerror => (none, (s, n))
  | (s, n), .library (.dlsym _ _) => (some 0x2000, (s, n))
  | (s, n), .library (.factory _) => (some PluginLoader.echoPlugin, (s, n))
  | (s, n), .library (.start _) => (0, (s, n))
  | (s, n), .library (.stop _) => (0, (s, n))
  | (s, n), .library (.dlclose _) => (0, (s, n))
  | (s, n), .socket => (3, (s, n))
  | (s, n), .unlink _ => (0, (s, n))
  | (s, n), .bind _ _ => (0, (s, n))
  | (s, n), .listen _ => (0, (s, n))
  | (s, n), .accept _ => (4, (s, n))
  | (s, n), .openDevice _ => (3, (s, n))
  | (s, n), .tcgetattr _ => (some s.settings, (s, n))
  | (s, n), .tcsetattr _ tty => (0, ({ s with settings := tty, refused := false }, n))
  | (s, n), .close _ => (0, (s, n))
  | (s, n), .tty (.write _ data) => (.ok data.length, (s, n))
  | (s, n), .tty (.poll _ _ _) => (.ok none, (s, n))
  | (s, n), .snetInit _ => ((), (s, n))
  | (s, n), .snetLinkIsUp => (false, (s, n))
  | (s, n), .snetBurst _ => ([], ({ s with found := s.found ++ [s.settings] }, n))
  | (s, n), .squidOpen _ _ => (1, (s, n))
  | (s, n), .squidBind _ _ => (0, (s, n))
  | (s, n), .squidClose _ => ((), (s, n))
  | (s, n), .squidRecv _ _ => (none, (s, n))
  | (s, n), .squidSend _ _ => (true, (s, n))
  | (s, n), .handlePacket _ _ _ => (⟨0, Vector.replicate 255 0, false, 0⟩, (s, n))
  | (s, n), .keepRunning => (decide (n < 2), (s, n + 1))
  | (s, n), .clearKeepRunning => ((), (s, n))

theorem serial_line_lent_cooked : ∃ s',
    Exec (terminal (some lineFile) fun _ => True) ⟨cookedTty, [], false⟩
      (runServerRuntime 4 (initServerRuntime consoleConfig)) s' (some 0) ∧
    s'.found.length = 1 ∧
    (∀ tty ∈ s'.found, Configured (serialConfig lineConfig) cookedTty tty) ∧
    (s'.settings = cookedTty ∨ s'.refused = true) := by
  have hstep : ∀ (s : Terminal) (t : Terminal × Nat) (op : Call), s = t.1 →
      ∃ s₁, terminal (some lineFile) (fun _ => True) s op (lineAnswers t op).1 s₁ ∧
        s₁ = (lineAnswers t op).2.1 := by
    rintro _ ⟨s, n⟩ op rfl
    refine ⟨_, ?_, rfl⟩
    cases op with
    | readConfig path => exact ⟨rfl, rfl⟩
    | tcgetattr fd => exact ⟨fun _ h => (Option.some.inj h).symm, rfl⟩
    | tcsetattr fd tty => exact ⟨tty, fun _ => rfl, rfl⟩
    | library call => cases call <;> rfl
    | tty call => cases call <;> rfl
    | _ => rfl
  obtain ⟨s', hexec, hs'⟩ := Program.exec_run (fun (s : Terminal) (t : Terminal × Nat) => s = t.1)
    hstep (runServerRuntime 4 (initServerRuntime consoleConfig))
    (show cookedStart.1 = cookedStart.1 from rfl)
  have hrun : ((runServerRuntime 4 (initServerRuntime consoleConfig)).run lineAnswers
      cookedStart).1 = some 0 := by decide +kernel
  have hfound : ((runServerRuntime 4 (initServerRuntime consoleConfig)).run lineAnswers
      cookedStart).2.1.found.length = 1 := by decide +kernel
  rw [hrun] at hexec
  obtain ⟨hconfigured, hback⟩ := serial_line_lent lineFile_parses (by decide) (by decide) _ _ _
    (fun _ _ => trivial) trivial _ _ hexec
  exact ⟨s', hexec, hs' ▸ hfound, hconfigured, hback (Option.some_ne_none _)⟩

end SquidServer.Server

import SquidServer.PluginConfig
import Mathlib.Data.List.Nodup
import Mathlib.Data.List.Perm.Subperm

namespace SquidServer.PluginConfig
open CText CInput
set_option autoImplicit true

/-- What a configuration has besides its plugin mappings. -/
inductive Setting
  | systemPlugin
  | serialDevice
  | serialBaud
  | serialDatabits
  | serialParity
  | serialStopbits
  | serialFlow
  | squidPayload
deriving DecidableEq

abbrev Setting.Value : Setting → Type
  | .systemPlugin => Buffer serverPluginPathMax
  | .serialDevice => Buffer serverSerialDevicePathMax
  | .serialBaud => Int
  | .serialDatabits => Int
  | .serialParity => Int
  | .serialStopbits => Int
  | .serialFlow => Int
  | .squidPayload => Int

def Setting.keyword : Setting → List UInt8
  | .systemPlugin => ascii "system_plugin"
  | .serialDevice => ascii "serial_device"
  | .serialBaud => ascii "serial_baud"
  | .serialDatabits => ascii "serial_databits"
  | .serialParity => ascii "serial_parity"
  | .serialStopbits => ascii "serial_stopbits"
  | .serialFlow => ascii "serial_flow"
  | .squidPayload => ascii "squid_payload"

/-- A word is one of the choices, and stands for the number beside it. -/
def Chooses (choices : List (String × Int)) (word : List UInt8) (n : Int) : Prop :=
  ∃ choice ∈ choices, word = ascii choice.1 ∧ n = choice.2

/-- The words that a setting may be given, and what each of them means. -/
def Setting.Takes : (setting : Setting) → List UInt8 → setting.Value → Prop
  | .systemPlugin, word, path => path.1 = word
  | .serialDevice, word, path => path.1 = word
  | .serialBaud, word, baud => ∃ n, Numeral word n ∧ 0 < n ∧ baud = toInt (clampLong n)
  | .serialDatabits, word, n => Chooses [("7", 7), ("8", 8)] word n
  | .serialParity, word, n => Chooses [("none", 0), ("even", 1), ("odd", 2)] word n
  | .serialStopbits, word, n => Chooses [("1", 1), ("2", 2)] word n
  | .serialFlow, word, n => Chooses [("none", 0), ("rtscts", 1), ("xonxoff", 2)] word n
  | .squidPayload, word, n => Numeral word n ∧ 16 ≤ n ∧ n ≤ 112

/-- What a line of the file says. -/
inductive Statement
  | nothing
  | set (setting : Setting) (value : setting.Value)
  | plugin (mapping : ServerPluginMapping)

/-- The words of a directive. -/
def Denotes (words : List (List UInt8)) : Statement → Prop
  | .nothing => False
  | .set setting value => ∃ word, words = [setting.keyword, word] ∧ setting.Takes word value
  | .plugin mapping => ∃ word, words = [ascii "plugin", word, mapping.pluginPath.1] ∧
      Numeral word mapping.portNumber.toNat ∧
        1 ≤ mapping.portNumber.toNat ∧ mapping.portNumber.toNat ≤ 15

def trim (line : List UInt8) : List UInt8 := trimLeft (trimRight line)

inductive Reads (line : List UInt8) : Statement → Prop
  | empty (h : trim line = []) : Reads line .nothing
  | comment (h : (trim line).head? = some 0x23) : Reads line .nothing
  | directive (h : Denotes (fields isBlank (trim line)) statement) : Reads line statement

def Statement.mapping : Statement → Option ServerPluginMapping
  | .plugin mapping => some mapping
  | _ => none

def Statement.value (setting : Setting) : Statement → Option setting.Value
  | .set other value => if h : other = setting then some (h ▸ value) else none
  | _ => none

def mappingsOf (statements : List Statement) : List ServerPluginMapping :=
  statements.filterMap Statement.mapping

def portsOf (mappings : List ServerPluginMapping) : List UInt8 :=
  mappings.map ServerPluginMapping.portNumber

def ServerPluginConfigFile.get (configFile : ServerPluginConfigFile) :
    (setting : Setting) → setting.Value
  | .systemPlugin => configFile.systemPluginPath
  | .serialDevice => configFile.serialDevice
  | .serialBaud => configFile.serialBaud
  | .serialDatabits => configFile.serialDatabits
  | .serialParity => configFile.serialParity
  | .serialStopbits => configFile.serialStopbits
  | .serialFlow => configFile.serialFlow
  | .squidPayload => configFile.squidPayload

/-- The value of a setting that the last line about it leaves. -/
def lastValue (setting : Setting) (statements : List Statement) : setting.Value :=
  ((statements.filterMap (Statement.value setting)).getLast?).getD
    (initServerPluginConfigFile.get setting)

def ServerPluginConfigFile.set (configFile : ServerPluginConfigFile) :
    (setting : Setting) → setting.Value → ServerPluginConfigFile
  | .systemPlugin, path => { configFile with systemPluginPath := path }
  | .serialDevice, path => { configFile with serialDevice := path }
  | .serialBaud, n => { configFile with serialBaud := n }
  | .serialDatabits, n => { configFile with serialDatabits := n }
  | .serialParity, n => { configFile with serialParity := n }
  | .serialStopbits, n => { configFile with serialStopbits := n }
  | .serialFlow, n => { configFile with serialFlow := n }
  | .squidPayload, n => { configFile with squidPayload := n }

def ServerPluginConfigFile.apply (configFile : ServerPluginConfigFile) :
    Statement → ServerPluginConfigFile
  | .nothing => configFile
  | .set setting value => configFile.set setting value
  | .plugin mapping => { configFile with mappings := configFile.mappings ++ [mapping] }

theorem get_set_self (configFile : ServerPluginConfigFile) (value : setting.Value) :
    (configFile.set setting value).get setting = value := by
  cases setting <;> rfl

theorem get_set_ne (configFile : ServerPluginConfigFile) (value : setting.Value)
    (h : setting ≠ other) : (configFile.set setting value).get other = configFile.get other := by
  cases setting <;> cases other <;> first | rfl | exact absurd rfl h

theorem mappings_set (configFile : ServerPluginConfigFile) (value : setting.Value) :
    (configFile.set setting value).mappings = configFile.mappings := by
  cases setting <;> rfl

theorem eq_of_get {left right : ServerPluginConfigFile}
    (hmappings : left.mappings = right.mappings)
    (hget : ∀ setting, left.get setting = right.get setting) : left = right := by
  cases left
  cases right
  have h₁ := hget .systemPlugin
  have h₂ := hget .serialDevice
  have h₃ := hget .serialBaud
  have h₄ := hget .serialDatabits
  have h₅ := hget .serialParity
  have h₆ := hget .serialStopbits
  have h₇ := hget .serialFlow
  have h₈ := hget .squidPayload
  dsimp only [ServerPluginConfigFile.get] at hmappings h₁ h₂ h₃ h₄ h₅ h₆ h₇ h₈
  rw [hmappings, h₁, h₂, h₃, h₄, h₅, h₆, h₇, h₈]

theorem mappings_apply (configFile : ServerPluginConfigFile) (statement : Statement) :
    (configFile.apply statement).mappings = configFile.mappings ++ statement.mapping.toList := by
  cases statement with
  | nothing => exact (List.append_nil _).symm
  | set setting value => exact (mappings_set configFile value).trans (List.append_nil _).symm
  | plugin mapping => rfl

theorem get_apply (configFile : ServerPluginConfigFile) (statement : Statement)
    (setting : Setting) : (configFile.apply statement).get setting =
      (statement.value setting).getD (configFile.get setting) := by
  cases statement with
  | nothing => rfl
  | set other value =>
    by_cases h : other = setting
    · subst h
      rw [Statement.value, dif_pos rfl]
      exact get_set_self configFile value
    · rw [Statement.value, dif_neg h]
      exact get_set_ne configFile value h
  | plugin mapping => cases setting <;> rfl

theorem mappings_foldl_apply (statements : List Statement) (configFile : ServerPluginConfigFile) :
    (statements.foldl ServerPluginConfigFile.apply configFile).mappings =
      configFile.mappings ++ mappingsOf statements := by
  induction statements generalizing configFile with
  | nil => exact (List.append_nil _).symm
  | cons statement statements ih =>
    rw [List.foldl_cons, ih, mappings_apply, List.append_assoc, mappingsOf, mappingsOf,
      List.filterMap_cons]
    cases statement.mapping <;> rfl

theorem get_foldl_apply (statements : List Statement) (configFile : ServerPluginConfigFile)
    (setting : Setting) :
    (statements.foldl ServerPluginConfigFile.apply configFile).get setting =
      ((statements.filterMap (Statement.value setting)).getLast?).getD
        (configFile.get setting) := by
  induction statements generalizing configFile with
  | nil => rfl
  | cons statement statements ih =>
    rw [List.foldl_cons, ih, get_apply, List.filterMap_cons]
    cases statement.value setting with
    | none => rfl
    | some value =>
      dsimp only
      rw [List.getLast?_cons]
      cases (statements.filterMap (Statement.value setting)).getLast? <;> rfl

theorem readChoice_iff {choices : List (String × Int)}
    (h : (choices.map fun choice => ascii choice.1).Nodup) :
    readChoice unknown choices word = .ok n ↔ Chooses choices word n := by
  rw [readChoice]
  constructor
  · intro hread
    split at hread
    · cases hread
    · rename_i choice hfind
      cases hread
      have hword := List.find?_some hfind
      exact ⟨choice, List.mem_of_find?_eq_some hfind, of_decide_eq_true hword, rfl⟩
  · rintro ⟨choice, hmem, rfl, rfl⟩
    have hfind : choices.find? (fun other => ascii choice.1 = ascii other.1) = some choice := by
      induction choices with
      | nil => cases hmem
      | cons first rest ih =>
        rw [List.map_cons, List.nodup_cons] at h
        rcases List.mem_cons.1 hmem with rfl | hrest
        · exact List.find?_cons_of_pos (decide_eq_true rfl)
        · have hne : ascii choice.1 ≠ ascii first.1 := by
            intro he
            apply h.1
            rw [← he]
            exact List.mem_map.2 ⟨choice, hrest, rfl⟩
          rw [List.find?_cons_of_neg (by simpa using hne)]
          exact ih h.2 hrest
    rw [hfind]

theorem parsePortNumber_iff :
    parsePortNumber word = some port ↔ ∃ n, Numeral word n ∧ 0 ≤ n ∧ n ≤ 255 ∧
      port = UInt8.ofNat n.toNat := by
  have hclamp : ∀ n : Int, ¬ (clampLong n < 0 ∨ 255 < clampLong n) ↔ 0 ≤ n ∧ n ≤ 255 := by
    intro n
    rw [not_or, Int.not_lt, Int.not_lt, le_clampLong_iff (by decide) (by decide),
      clampLong_le_iff (by decide) (by decide)]
  have hsame : ∀ n : Int, 0 ≤ n → n ≤ 255 → clampLong n = n := by
    intro n hmin hmax
    exact clampLong_of_mem (Int.le_trans (by decide) hmin) (Int.le_trans hmax (by decide))
  rw [parsePortNumber]
  constructor
  · intro h
    split at h
    · rename_i parsedValue hparse
      obtain ⟨n, hn, rfl⟩ := strtol_iff.1 hparse
      split at h
      · cases h
      · rename_i hrange
        obtain ⟨hmin, hmax⟩ := (hclamp n).1 hrange
        rw [hsame n hmin hmax] at h
        exact ⟨n, hn, hmin, hmax, (Option.some.inj h).symm⟩
    · cases h
  · rintro ⟨n, hn, hmin, hmax, rfl⟩
    rw [strtol_iff.2 ⟨n, hn, rfl⟩]
    dsimp only
    rw [if_neg ((hclamp n).2 ⟨hmin, hmax⟩), hsame n hmin hmax]

theorem readPath_iff : readPath size tooLong word = .ok path ↔ path.1 = word := by
  rw [readPath, copyPluginPath]
  constructor
  · intro h
    split at h
    · cases h
    · rename_i copy hcopy
      split at hcopy
      · cases hcopy
        cases h
        rfl
      · cases hcopy
  · rintro rfl
    rw [dif_pos path.2]

theorem readBaud_iff :
    readBaud word = .ok baud ↔ ∃ n, Numeral word n ∧ 0 < n ∧ baud = toInt (clampLong n) := by
  have hclamp : ∀ n : Int, clampLong n ≤ 0 ↔ n ≤ 0 :=
    fun n => clampLong_le_iff (by decide) (by decide)
  rw [readBaud]
  constructor
  · intro h
    split at h
    · rename_i parsedBaud hparse
      obtain ⟨n, hn, rfl⟩ := strtol_iff.1 hparse
      split at h
      · cases h
      · rename_i hpos
        cases h
        exact ⟨n, hn, Int.not_le.1 fun hle => hpos ((hclamp n).2 hle), rfl⟩
    · cases h
  · rintro ⟨n, hn, hpos, rfl⟩
    rw [strtol_iff.2 ⟨n, hn, rfl⟩]
    dsimp only
    rw [if_neg fun hle => Int.not_le.2 hpos ((hclamp n).1 hle)]

theorem toNat_ofNat_toNat {n : Int} (h : n ≤ 255) : (UInt8.ofNat n.toNat).toNat = n.toNat := by
  have hlt : n.toNat < 256 := by omega
  exact UInt8.toNat_ofNat_of_lt hlt

theorem readPayload_iff : readPayload word = .ok n ↔ Numeral word n ∧ 16 ≤ n ∧ n ≤ 112 := by
  rw [readPayload]
  constructor
  · intro h
    split at h
    · cases h
    · rename_i payload hparse
      obtain ⟨m, hm, hmin, hmax, rfl⟩ := parsePortNumber_iff.1 hparse
      split at h
      · cases h
      · rename_i hrange
        have hnat := toNat_ofNat_toNat hmax
        rw [UInt8.lt_iff_toNat_lt, UInt8.lt_iff_toNat_lt, hnat] at hrange
        cases h
        rw [hnat, Int.toNat_of_nonneg hmin]
        change ¬ (m.toNat < 16 ∨ 112 < m.toNat) at hrange
        exact ⟨hm, by omega, by omega⟩
  · rintro ⟨hn, hmin, hmax⟩
    have hnat : (UInt8.ofNat n.toNat).toNat = n.toNat := toNat_ofNat_toNat (by omega)
    rw [parsePortNumber_iff.2 ⟨n, hn, by omega, by omega, rfl⟩]
    dsimp only
    rw [if_neg, hnat, Int.toNat_of_nonneg (by omega)]
    rw [UInt8.lt_iff_toNat_lt, UInt8.lt_iff_toNat_lt, hnat]
    change ¬ (n.toNat < 16 ∨ 112 < n.toNat)
    omega

section
variable {setting : Setting}

/-- The message for a setting without one value. -/
def Setting.invalid : Setting → String
  | .systemPlugin => "invalid system_plugin directive"
  | .serialDevice => "invalid serial_device directive"
  | .serialBaud => "invalid serial_baud directive"
  | .serialDatabits => "serial_databits must be 7 or 8"
  | .serialParity => "invalid serial_parity directive"
  | .serialStopbits => "serial_stopbits must be 1 or 2"
  | .serialFlow => "invalid serial_flow directive"
  | .squidPayload => "squid_payload must be from 16 to 112"

def Setting.read : (setting : Setting) → List UInt8 → Except String setting.Value
  | .systemPlugin => readPath serverPluginPathMax "system plugin path is too long"
  | .serialDevice => readPath serverSerialDevicePathMax "serial device path is too long"
  | .serialBaud => readBaud
  | .serialDatabits => readChoice "serial_databits must be 7 or 8" [("7", 7), ("8", 8)]
  | .serialParity => readChoice "serial_parity must be none, even, or odd"
      [("none", 0), ("even", 1), ("odd", 2)]
  | .serialStopbits => readChoice "serial_stopbits must be 1 or 2" [("1", 1), ("2", 2)]
  | .serialFlow => readChoice "serial_flow must be none, rtscts, or xonxoff"
      [("none", 0), ("rtscts", 1), ("xonxoff", 2)]
  | .squidPayload => readPayload

theorem Setting.read_iff {value : setting.Value} :
    setting.read word = .ok value ↔ setting.Takes word value := by
  cases setting with
  | systemPlugin => exact readPath_iff
  | serialDevice => exact readPath_iff
  | serialBaud => exact readBaud_iff
  | serialDatabits => exact readChoice_iff (by decide)
  | serialParity => exact readChoice_iff (by decide)
  | serialStopbits => exact readChoice_iff (by decide)
  | serialFlow => exact readChoice_iff (by decide)
  | squidPayload => exact readPayload_iff

theorem oneValue_iff {read : List UInt8 → Except String α} :
    oneValue invalid read firstValue secondValue = .ok v ↔
    ∃ word, firstValue = some word ∧ secondValue = none ∧ read word = .ok v := by
  rw [oneValue.eq_def]
  constructor
  · intro h
    split at h
    · cases h
    · rename_i word
      split at h
      · rename_i hnone
        exact ⟨word, rfl, hnone, h⟩
      · cases h
  · rintro ⟨word, rfl, rfl, h⟩
    exact h

theorem parseDirective_setting (setting : Setting) : parseDirective configFile
    (some setting.keyword) firstValue secondValue extraValue =
      (oneValue setting.invalid setting.read firstValue secondValue).map
        (configFile.set setting) := by
  cases setting <;> rfl

theorem parseDirective_plugin : parseDirective configFile (some (ascii "plugin"))
    firstValue secondValue extraValue =
      parsePluginLine configFile firstValue secondValue extraValue := rfl

theorem parseDirective_unknown (hsetting : ∀ setting : Setting, keyword ≠ some setting.keyword)
    (hplugin : keyword ≠ some (ascii "plugin")) :
    parseDirective configFile keyword firstValue secondValue extraValue =
      .error "unknown plugin configuration directive" := by
  apply (if_neg (hsetting .systemPlugin)).trans
  apply (if_neg hplugin).trans
  apply (if_neg (hsetting .serialDevice)).trans
  apply (if_neg (hsetting .serialBaud)).trans
  apply (if_neg (hsetting .serialDatabits)).trans
  apply (if_neg (hsetting .serialParity)).trans
  apply (if_neg (hsetting .serialStopbits)).trans
  apply (if_neg (hsetting .serialFlow)).trans
  exact if_neg (hsetting .squidPayload)

end

/-- No two plugins are on one port, and every port can be assigned. -/
structure Sound (mappings : List ServerPluginMapping) : Prop where
  nodup : (portsOf mappings).Nodup
  assignable : ∀ port ∈ portsOf mappings, 1 ≤ port.toNat ∧ port.toNat ≤ 15

theorem Sound.length_le (h : Sound mappings) : mappings.length ≤ 15 := by
  have hsub : portsOf mappings ⊆ (List.range 15).map fun n => UInt8.ofNat (n + 1) := by
    intro port hport
    obtain ⟨hmin, hmax⟩ := h.assignable port hport
    refine List.mem_map.2 ⟨port.toNat - 1, List.mem_range.2 (by omega), ?_⟩
    rw [Nat.sub_add_cancel hmin, UInt8.ofNat_toNat]
  have hle := (List.subperm_of_subset h.nodup hsub).length_le
  rwa [portsOf, List.length_map, List.length_map, List.length_range] at hle

theorem sound_append : Sound (mappings ++ [mapping]) ↔ Sound mappings ∧
    mapping.portNumber ∉ portsOf mappings ∧
      1 ≤ mapping.portNumber.toNat ∧ mapping.portNumber.toNat ≤ 15 := by
  have hports : portsOf (mappings ++ [mapping]) = portsOf mappings ++ [mapping.portNumber] :=
    List.map_append
  constructor
  · rintro ⟨hnodup, hall⟩
    rw [hports] at hnodup hall
    rw [List.nodup_append] at hnodup
    refine ⟨⟨hnodup.1, fun port hport => hall port (List.mem_append_left _ hport)⟩, ?_, ?_⟩
    · intro hmem
      exact hnodup.2.2 _ hmem _ List.mem_cons_self rfl
    · exact hall _ (List.mem_append_right _ List.mem_cons_self)
  · rintro ⟨⟨hnodup, hall⟩, hfresh, hrange⟩
    constructor
    · rw [hports, ← List.concat_eq_append]
      exact List.Nodup.concat hfresh hnodup
    · rw [hports]
      intro port hport
      rcases List.mem_append.1 hport with hport | hport
      · exact hall port hport
      · rw [List.mem_singleton.1 hport]
        exact hrange

theorem isValidAssignableServerPort_iff :
    isValidAssignableServerPort port = true ↔ 1 ≤ port.toNat ∧ port.toNat ≤ 15 := by
  rw [isValidAssignableServerPort, decide_eq_true_iff, UInt8.le_iff_toNat_le,
    UInt8.le_iff_toNat_le]
  rfl

theorem findPluginMapping_isSome_iff : (findPluginMapping configFile port).isSome = true ↔
    port ∈ portsOf configFile.mappings := by
  rw [findPluginMapping, List.find?_isSome, portsOf, List.mem_map]
  exact exists_congr fun mapping => and_congr_right fun _ => decide_eq_true_iff

theorem Sound.room (h : Sound mappings) (hport : 1 ≤ port.toNat ∧ port.toNat ≤ 15)
    (hfresh : port ∉ portsOf mappings) : mappings.length < 15 := by
  have hmore : Sound (mappings ++ [⟨port, ⟨[], by decide⟩⟩]) := sound_append.2 ⟨h, hfresh, hport⟩
  have hle := hmore.length_le
  rwa [List.length_append] at hle

/-- The table of mappings is never full when a line asks for a mapping in it. -/
theorem parsePluginLine_eq (h : Sound configFile.mappings) :
    parsePluginLine configFile (some portToken) (some pathToken) none =
      match parsePortNumber portToken with
      | none => .error "invalid port number"
      | some port =>
        if ¬ isValidAssignableServerPort port then
          .error "plugin ports must be in the range 1-15"
        else if (findPluginMapping configFile port).isSome then
          .error "duplicate plugin port assignment"
        else (readPath serverPluginPathMax "plugin path is too long" pathToken).map fun path =>
          configFile.apply (.plugin ⟨port, path⟩) := by
  rw [parsePluginLine]
  cases parsePortNumber portToken with
  | none => rfl
  | some port =>
    dsimp only
    split
    · rfl
    · rename_i hvalid
      split
      · rfl
      · rename_i hfresh
        rw [not_not, isValidAssignableServerPort_iff] at hvalid
        rw [findPluginMapping_isSome_iff] at hfresh
        rw [if_neg (Nat.not_le.2 (h.room hvalid hfresh)), readPath]
        cases copyPluginPath serverPluginPathMax pathToken <;> rfl

theorem map_eq_ok {x : Except ε α} {f : α → β} : x.map f = .ok b ↔ ∃ a, x = .ok a ∧ b = f a := by
  cases x with
  | error e =>
    constructor
    · intro h
      cases h
    · rintro ⟨a, h, -⟩
      cases h
  | ok a =>
    constructor
    · intro h
      exact ⟨a, rfl, (Except.ok.inj h).symm⟩
    · rintro ⟨_, h, rfl⟩
      cases h
      rfl

theorem numeral_port : (∃ n, Numeral word n ∧ 0 ≤ n ∧ n ≤ 255 ∧ port = UInt8.ofNat n.toNat) ↔
    Numeral word port.toNat := by
  constructor
  · rintro ⟨n, hn, hmin, hmax, rfl⟩
    rwa [toNat_ofNat_toNat hmax, Int.toNat_of_nonneg hmin]
  · intro h
    have hlt := port.toNat_lt
    refine ⟨port.toNat, h, by omega, by omega, ?_⟩
    rw [Int.toNat_natCast, UInt8.ofNat_toNat]

theorem parsePluginLine_iff (h : Sound configFile.mappings) :
    parsePluginLine configFile firstValue secondValue extraValue = .ok configFile' ↔
      ∃ word mapping, firstValue = some word ∧ secondValue = some mapping.pluginPath.1 ∧
        extraValue = none ∧ Numeral word mapping.portNumber.toNat ∧
          Sound (configFile.mappings ++ [mapping]) ∧
            configFile' = configFile.apply (.plugin mapping) := by
  constructor
  · intro hok
    rw [parsePluginLine.eq_def] at hok
    split at hok
    · rename_i word pathToken
      rw [← parsePluginLine, parsePluginLine_eq h] at hok
      split at hok
      · cases hok
      · rename_i port hport
        split at hok
        · cases hok
        · rename_i hvalid
          split at hok
          · cases hok
          · rename_i hfresh
            rw [not_not, isValidAssignableServerPort_iff] at hvalid
            rw [findPluginMapping_isSome_iff] at hfresh
            obtain ⟨path, hpath, rfl⟩ := map_eq_ok.1 hok
            rw [readPath_iff] at hpath
            rw [parsePortNumber_iff, numeral_port] at hport
            exact ⟨word, ⟨port, path⟩, rfl, congrArg some hpath.symm, rfl, hport,
              sound_append.2 ⟨h, hfresh, hvalid⟩, rfl⟩
    · cases hok
  · rintro ⟨word, mapping, rfl, rfl, rfl, hnumeral, hsound, rfl⟩
    obtain ⟨-, hfresh, hvalid⟩ := sound_append.1 hsound
    rw [parsePluginLine_eq h, parsePortNumber_iff.2 (numeral_port.2 hnumeral)]
    dsimp only
    rw [if_neg (not_not.2 (isValidAssignableServerPort_iff.2 hvalid)),
      if_neg fun hsome => hfresh (findPluginMapping_isSome_iff.1 hsome)]
    exact map_eq_ok.2 ⟨mapping.pluginPath, readPath_iff.2 rfl, rfl⟩

theorem eq_pair {l : List α} (h₀ : l[0]? = some a) (h₁ : l[1]? = some b) (h₂ : l[2]? = none) :
    l = [a, b] := by
  apply List.ext_getElem?
  intro i
  rcases i with _ | _ | i
  · exact h₀
  · exact h₁
  · have hlen := List.getElem?_eq_none_iff.1 h₂
    rw [List.getElem?_eq_none (by omega)]
    rfl

theorem eq_triple {l : List α} (h₀ : l[0]? = some a) (h₁ : l[1]? = some b) (h₂ : l[2]? = some c)
    (h₃ : l[3]? = none) : l = [a, b, c] := by
  obtain ⟨x, l, rfl⟩ : ∃ x l', l = x :: l' := by
    cases l with
    | nil => cases h₀
    | cons x l => exact ⟨x, l, rfl⟩
  rw [eq_pair h₁ h₂ h₃, ← Option.some.inj h₀]

theorem Setting.keyword_inj : ∀ {setting other : Setting},
    setting.keyword = other.keyword → setting = other := by
  intro setting other
  cases setting <;> cases other <;> first | exact fun _ => rfl | exact fun h => absurd h (by decide)

theorem Setting.keyword_ne_plugin (setting : Setting) : setting.keyword ≠ ascii "plugin" := by
  cases setting <;> decide

theorem mappings_apply_set (configFile : ServerPluginConfigFile) (value : setting.Value) :
    (configFile.apply (.set setting value)).mappings = configFile.mappings :=
  mappings_set configFile value

theorem parseDirective_iff (h : Sound configFile.mappings) :
    parseDirective configFile words[0]? words[1]? words[2]? words[3]? = .ok configFile' ↔
      ∃ statement, Denotes words statement ∧ Sound (configFile.apply statement).mappings ∧
        configFile' = configFile.apply statement := by
  by_cases hsetting : ∃ setting : Setting, words[0]? = some setting.keyword
  · obtain ⟨setting, hkeyword⟩ := hsetting
    rw [hkeyword, parseDirective_setting, map_eq_ok]
    constructor
    · rintro ⟨value, hvalue, rfl⟩
      obtain ⟨word, hfirst, hsecond, hread⟩ := oneValue_iff.1 hvalue
      refine ⟨.set setting value, ⟨word, ?_, Setting.read_iff.1 hread⟩, ?_, rfl⟩
      · exact eq_pair hkeyword hfirst hsecond
      · rwa [mappings_apply_set]
    · rintro ⟨statement, hdenotes, -, rfl⟩
      cases statement with
      | nothing => exact hdenotes.elim
      | set other value =>
        obtain ⟨word, rfl, htakes⟩ := hdenotes
        obtain rfl := Setting.keyword_inj (Option.some.inj hkeyword)
        exact ⟨value, oneValue_iff.2 ⟨word, rfl, rfl, Setting.read_iff.2 htakes⟩, rfl⟩
      | plugin mapping =>
        obtain ⟨word, rfl, -⟩ := hdenotes
        exact absurd (Option.some.inj hkeyword).symm setting.keyword_ne_plugin
  · by_cases hplugin : words[0]? = some (ascii "plugin")
    · rw [hplugin, parseDirective_plugin, parsePluginLine_iff h]
      constructor
      · rintro ⟨word, mapping, hfirst, hsecond, hextra, hnumeral, hsound, rfl⟩
        refine ⟨.plugin mapping, ⟨word, ?_, hnumeral, ?_⟩, hsound, rfl⟩
        · exact eq_triple hplugin hfirst hsecond hextra
        · exact (sound_append.1 hsound).2.2
      · rintro ⟨statement, hdenotes, hsound, rfl⟩
        cases statement with
        | nothing => exact hdenotes.elim
        | set setting value =>
          obtain ⟨word, rfl, -⟩ := hdenotes
          exact (hsetting ⟨setting, rfl⟩).elim
        | plugin mapping =>
          obtain ⟨word, rfl, hnumeral, -⟩ := hdenotes
          exact ⟨word, mapping, rfl, rfl, rfl, hnumeral, hsound, rfl⟩
    · rw [parseDirective_unknown (fun setting he => hsetting ⟨setting, he⟩) hplugin]
      constructor
      · intro hok
        cases hok
      · rintro ⟨statement, hdenotes, -, rfl⟩
        cases statement with
        | nothing => exact hdenotes.elim
        | set setting value =>
          obtain ⟨word, rfl, -⟩ := hdenotes
          exact (hsetting ⟨setting, rfl⟩).elim
        | plugin mapping =>
          obtain ⟨word, rfl, -⟩ := hdenotes
          exact (hplugin rfl).elim

theorem parseLine_eq (hline : trim (CString.ofBytes lineBuffer).bytes = line) :
    parseLine configFile lineBuffer =
      if line = [] ∨ line.head? = some 0x23 then .ok configFile
      else parseDirective configFile (fields isBlank line)[0]? (fields isBlank line)[1]?
        (fields isBlank line)[2]? (fields isBlank line)[3]? := by
  rw [parseLine]
  dsimp only
  rw [← trim, hline, strtok_token, strtok_token, strtok_token, strtok_token, strtok_rest,
    strtok_rest, strtok_rest, strtok_rest, strtok_rest, strtok_rest]

theorem Setting.head_keyword (setting : Setting) : setting.keyword.head? ≠ some 0x23 := by
  cases setting <;> decide

theorem Denotes.head (h : Denotes words statement) :
    ∃ word, words[0]? = some word ∧ word.head? ≠ some 0x23 := by
  cases statement with
  | nothing => exact h.elim
  | set setting value =>
    obtain ⟨word, rfl, -⟩ := h
    exact ⟨setting.keyword, rfl, setting.head_keyword⟩
  | plugin mapping =>
    obtain ⟨word, rfl, -⟩ := h
    exact ⟨ascii "plugin", rfl, by decide⟩

theorem Denotes.not_blank (h : Denotes (fields isBlank line) statement) :
    ¬ (line = [] ∨ line.head? = some 0x23) := by
  obtain ⟨word, hword, hhead⟩ := h.head
  intro hline
  cases line with
  | nil => cases hword
  | cons c rest =>
    obtain hc : c = 0x23 := Option.some.inj (hline.resolve_left (List.cons_ne_nil _ _))
    subst hc
    obtain ⟨word', hword'⟩ := fields_head (show isBlank 0x23 = false from rfl) rest
    rw [hword'] at hword
    rw [← Option.some.inj hword] at hhead
    exact hhead rfl

/-- What a turn of the loop does with a line. -/
theorem parseLine_iff (h : Sound configFile.mappings) :
    parseLine configFile lineBuffer = .ok configFile' ↔
      ∃ statement, Reads (CString.ofBytes lineBuffer).bytes statement ∧
        Sound (configFile.apply statement).mappings ∧ configFile' = configFile.apply statement := by
  rw [parseLine_eq rfl]
  by_cases hline : trim (CString.ofBytes lineBuffer).bytes = [] ∨
      (trim (CString.ofBytes lineBuffer).bytes).head? = some 0x23
  · rw [if_pos hline]
    constructor
    · intro hok
      cases hok
      refine ⟨.nothing, ?_, h, rfl⟩
      rcases hline with hempty | hcomment
      · exact .empty hempty
      · exact .comment hcomment
    · rintro ⟨statement, hreads, -, rfl⟩
      cases hreads with
      | empty => rfl
      | comment => rfl
      | directive hdenotes => exact absurd hline hdenotes.not_blank
  · rw [if_neg hline, parseDirective_iff h]
    apply exists_congr
    intro statement
    apply and_congr_left
    intro _
    constructor
    · exact .directive
    · intro hreads
      cases hreads with
      | empty hempty => exact absurd (.inl hempty) hline
      | comment hcomment => exact absurd (.inr hcomment) hline
      | directive hdenotes => exact hdenotes

theorem Reads.assignable (h : Reads line statement) (hmapping : statement.mapping = some mapping) :
    1 ≤ mapping.portNumber.toNat ∧ mapping.portNumber.toNat ≤ 15 := by
  cases h with
  | empty => cases hmapping
  | comment => cases hmapping
  | directive hdenotes =>
    cases statement with
    | nothing => exact hdenotes.elim
    | set => cases hmapping
    | plugin other =>
      obtain ⟨word, -, -, hrange⟩ := hdenotes
      cases hmapping
      exact hrange

/-- What `fgets` has read says a list of statements. -/
abbrev ReadAll (buffers : List (List UInt8)) (statements : List Statement) : Prop :=
  List.Forall₂ (fun buffer => Reads (CString.ofBytes buffer).bytes) buffers statements

theorem ReadAll.reads (h : ReadAll buffers statements) (hmem : statement ∈ statements) :
    ∃ line, Reads line statement := by
  induction h with
  | nil => cases hmem
  | cons hreads _ ih =>
    rcases List.mem_cons.1 hmem with rfl | hmem
    · exact ⟨_, hreads⟩
    · exact ih hmem

theorem ReadAll.sound_iff (h : ReadAll buffers statements) :
    Sound (mappingsOf statements) ↔ (portsOf (mappingsOf statements)).Nodup := by
  constructor
  · exact Sound.nodup
  · intro hnodup
    refine ⟨hnodup, ?_⟩
    intro port hport
    obtain ⟨mapping, hmapping, rfl⟩ := List.mem_map.1 hport
    obtain ⟨statement, hstatement, hsome⟩ := List.mem_filterMap.1 hmapping
    obtain ⟨line, hreads⟩ := h.reads hstatement
    exact hreads.assignable hsome

theorem Sound.of_append (h : Sound (mappings ++ more)) : Sound mappings := by
  have hports : portsOf (mappings ++ more) = portsOf mappings ++ portsOf more := List.map_append
  refine ⟨?_, ?_⟩
  · have hnodup := h.nodup
    rw [hports] at hnodup
    exact hnodup.of_append_left
  · intro port hport
    apply h.assignable
    rw [hports]
    exact List.mem_append_left _ hport

/-- What the loop does with the lines of a file. -/
theorem foldlM_parseLine_iff (h : Sound configFile.mappings) :
    buffers.foldlM parseLine configFile = .ok configFile' ↔
      ∃ statements, ReadAll buffers statements ∧
        Sound (configFile.mappings ++ mappingsOf statements) ∧
          configFile' = statements.foldl ServerPluginConfigFile.apply configFile := by
  induction buffers generalizing configFile with
  | nil =>
    constructor
    · intro hok
      cases hok
      exact ⟨[], .nil, by rwa [mappingsOf, List.filterMap_nil, List.append_nil], rfl⟩
    · rintro ⟨statements, hreads, -, rfl⟩
      cases hreads
      rfl
  | cons buffer buffers ih =>
    have hsplit : ∀ statement statements,
        (configFile.apply statement).mappings ++ mappingsOf statements =
          configFile.mappings ++ mappingsOf (statement :: statements) := by
      intro statement statements
      rw [← mappings_foldl_apply, ← List.foldl_cons, mappings_foldl_apply]
    rw [List.foldlM_cons]
    constructor
    · intro hok
      cases hline : parseLine configFile buffer with
      | error e =>
        rw [hline] at hok
        cases hok
      | ok next =>
        rw [hline] at hok
        obtain ⟨statement, hreads, hsound, rfl⟩ := (parseLine_iff h).1 hline
        obtain ⟨statements, hrest, hall, rfl⟩ := (ih hsound).1 hok
        refine ⟨statement :: statements, .cons hreads hrest, ?_, rfl⟩
        rwa [← hsplit]
    · rintro ⟨statements, hreads, hsound, rfl⟩
      cases hreads with
      | cons hfirst hrest =>
        rw [← hsplit] at hsound
        rw [(parseLine_iff h).2 ⟨_, hfirst, hsound.of_append, rfl⟩]
        exact (ih hsound.of_append).2 ⟨_, hrest, hsound, rfl⟩

theorem sound_init : Sound initServerPluginConfigFile.mappings :=
  ⟨List.nodup_nil, fun _ h => absurd h List.not_mem_nil⟩

theorem parseServerPluginConfigFile_iff :
    parseServerPluginConfigFile (some text) = .ok configFile ↔
      ∃ statements, ReadAll (fgetsLoop 1024 text) statements ∧
        (portsOf (mappingsOf statements)).Nodup ∧ configFile.mappings = mappingsOf statements ∧
          ∀ setting, configFile.get setting = lastValue setting statements := by
  rw [parseServerPluginConfigFile, foldlM_parseLine_iff sound_init]
  apply exists_congr
  intro statements
  apply and_congr_right
  intro hreads
  rw [show initServerPluginConfigFile.mappings = [] from rfl, List.nil_append, hreads.sound_iff]
  apply and_congr_right
  intro _
  constructor
  · rintro rfl
    exact ⟨mappings_foldl_apply statements _, get_foldl_apply statements _⟩
  · rintro ⟨hmappings, hget⟩
    apply eq_of_get
    · exact hmappings.trans (mappings_foldl_apply statements initServerPluginConfigFile).symm
    · intro setting
      exact (hget setting).trans (get_foldl_apply statements _ setting).symm

abbrev tooMany : String := "too many plugin mappings"

theorem readPath_error (h : readPath size tooLong word = .error e) : e = tooLong := by
  rw [readPath] at h
  split at h <;> cases h
  rfl

theorem readChoice_error (h : readChoice unknown choices word = .error e) : e = unknown := by
  rw [readChoice] at h
  split at h <;> cases h
  rfl

theorem readBaud_error (h : readBaud word = .error e) : e = "invalid serial baud rate" := by
  rw [readBaud] at h
  split at h
  · split at h <;> cases h
    rfl
  · cases h
    rfl

theorem readPayload_error (h : readPayload word = .error e) :
    e = "squid_payload must be from 16 to 112" := by
  rw [readPayload] at h
  split at h
  · cases h
    rfl
  · split at h <;> cases h
    rfl

theorem Setting.read_error (setting : Setting) (h : setting.read word = .error e) :
    e ≠ tooMany := by
  cases setting with
  | systemPlugin => rw [readPath_error h]; decide
  | serialDevice => rw [readPath_error h]; decide
  | serialBaud => rw [readBaud_error h]; decide
  | serialDatabits => rw [readChoice_error h]; decide
  | serialParity => rw [readChoice_error h]; decide
  | serialStopbits => rw [readChoice_error h]; decide
  | serialFlow => rw [readChoice_error h]; decide
  | squidPayload => rw [readPayload_error h]; decide

theorem Setting.invalid_ne (setting : Setting) : setting.invalid ≠ tooMany := by
  cases setting <;> decide

theorem map_eq_error {x : Except ε α} {f : α → β} (h : x.map f = .error e) : x = .error e := by
  cases x with
  | error e' =>
    cases h
    rfl
  | ok a => cases h

theorem parsePluginLine_error (h : Sound configFile.mappings)
    (herror : parsePluginLine configFile firstValue secondValue extraValue = .error e) :
    e ≠ tooMany := by
  rw [parsePluginLine.eq_def] at herror
  split at herror
  · rw [← parsePluginLine, parsePluginLine_eq h] at herror
    split at herror
    · cases herror
      decide
    · split at herror
      · cases herror
        decide
      · split at herror
        · cases herror
          decide
        · rw [readPath_error (map_eq_error herror)]
          decide
  · cases herror
    decide

theorem parseLine_error (h : Sound configFile.mappings)
    (herror : parseLine configFile lineBuffer = .error e) : e ≠ tooMany := by
  rw [parseLine_eq rfl] at herror
  split at herror
  · cases herror
  · generalize fields isBlank _ = words at herror
    by_cases hsetting : ∃ setting : Setting, words[0]? = some setting.keyword
    · obtain ⟨setting, hkeyword⟩ := hsetting
      rw [hkeyword, parseDirective_setting] at herror
      have hvalue := map_eq_error herror
      rw [oneValue.eq_def] at hvalue
      split at hvalue
      · cases hvalue
        exact setting.invalid_ne
      · split at hvalue
        · exact setting.read_error hvalue
        · cases hvalue
          exact setting.invalid_ne
    · by_cases hplugin : words[0]? = some (ascii "plugin")
      · rw [hplugin, parseDirective_plugin] at herror
        exact parsePluginLine_error h herror
      · rw [parseDirective_unknown (fun setting he => hsetting ⟨setting, he⟩) hplugin] at herror
        cases herror
        decide

theorem foldlM_parseLine_error {configFile : ServerPluginConfigFile}
    {buffers : List (List UInt8)} (h : Sound configFile.mappings)
    (herror : buffers.foldlM parseLine configFile = .error e) : e ≠ tooMany := by
  induction buffers generalizing configFile with
  | nil => cases herror
  | cons buffer buffers ih =>
    rw [List.foldlM_cons] at herror
    cases hline : parseLine configFile buffer with
    | error e' =>
      rw [hline] at herror
      cases herror
      exact parseLine_error h hline
    | ok next =>
      rw [hline] at herror
      obtain ⟨statement, -, hsound, rfl⟩ := (parseLine_iff h).1 hline
      exact ih hsound herror

end SquidServer.PluginConfig

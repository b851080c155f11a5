import SquidServer.PluginConfigGrammar
import SquidServer.SerialTransport
import Mathlib.Data.List.Perm.Basic

namespace SquidServer.PluginConfig
open CText CInput SerialTransport
set_option autoImplicit true

theorem Reads.congr (h : trim line = trim other) :
    Reads line statement ↔ Reads other statement := by
  have hmp : ∀ {line other : List UInt8}, trim line = trim other →
      Reads line statement → Reads other statement := by
    intro line other h hreads
    cases hreads with
    | empty hempty => exact .empty (h ▸ hempty)
    | comment hcomment => exact .comment (h ▸ hcomment)
    | directive hdenotes => exact .directive (h ▸ hdenotes)
  exact ⟨hmp h, hmp h.symm⟩

theorem trim_newline (line : List UInt8) :
    trim (CString.ofBytes (line ++ [newline])).bytes = trim (CString.ofBytes line).bytes := by
  dsimp only [CString.ofBytes]
  rw [List.takeWhile_append]
  split
  · rename_i hlength
    have hline : line.takeWhile (· ≠ 0) = line :=
      (List.takeWhile_sublist _).eq_of_length hlength
    rw [hline, show [newline].takeWhile (· ≠ 0) = [newline] from rfl, trim, trim, trimRight,
      trimRight, List.rdropWhile_concat_pos _ _ _ (by decide)]
  · rfl

theorem ofBytes_of_nulFree (h : 0 ∉ line) : (CString.ofBytes line).bytes = line := by
  apply List.takeWhile_eq_self_iff.2
  intro c hc
  exact decide_eq_true fun he => h (he ▸ hc)

theorem ReadAll.congr (h : List.Forall₂ (fun buffer line =>
    trim (CString.ofBytes buffer).bytes = trim (CString.ofBytes line).bytes) buffers others) :
    ReadAll buffers statements ↔ ReadAll others statements := by
  induction h generalizing statements with
  | nil => rfl
  | cons hline _ ih =>
    rw [ReadAll, ReadAll, List.forall₂_cons_left_iff, List.forall₂_cons_left_iff]
    apply exists_congr
    intro statement
    apply exists_congr
    intro rest
    exact and_congr (Reads.congr hline) (and_congr_left' ih)

theorem readAll_lines (h : ∀ line ∈ lines text, line.length ≤ 1022) :
    ReadAll (fgetsLoop 1024 text) statements ↔ ReadAll (lines text) statements := by
  have hsize : ∀ line ∈ lines text, line.length + 2 ≤ 1024 := fun line hline =>
    Nat.add_le_add_right (h line hline) 2
  apply ReadAll.congr
  apply (fgetsLoop_lines hsize).imp
  rintro buffer line (rfl | rfl)
  · rfl
  · exact trim_newline line

theorem readAll_nulFree (h : ∀ line ∈ buffers, 0 ∉ line) :
    ReadAll buffers statements ↔ List.Forall₂ Reads buffers statements := by
  induction buffers generalizing statements with
  | nil => rw [ReadAll, List.forall₂_nil_left_iff, List.forall₂_nil_left_iff]
  | cons line buffers ih =>
    rw [ReadAll, List.forall₂_cons_left_iff, List.forall₂_cons_left_iff,
      ofBytes_of_nulFree (h line List.mem_cons_self)]
    apply exists_congr
    intro statement
    apply exists_congr
    intro rest
    exact and_congr_right' (and_congr_left' (ih fun line hline =>
      h line (List.mem_cons_of_mem _ hline)))

/-- The files that are accepted are those of the grammar, and a file sets what its lines say. -/
theorem parseServerPluginConfigFile_grammar (hnul : 0 ∉ text)
    (hlines : ∀ line ∈ lines text, line.length ≤ 1022) :
    (∀ configFile, parseServerPluginConfigFile (some text) = .ok configFile ↔
      ∃ statements, List.Forall₂ Reads (lines text) statements ∧
        (portsOf (mappingsOf statements)).Nodup ∧ configFile.mappings = mappingsOf statements ∧
          ∀ setting, configFile.get setting = lastValue setting statements) ∧
    (∀ configFile, parseServerPluginConfigFile (some text) = .ok configFile →
      configFile.mappings.length ≤ 15 ∧ (portsOf configFile.mappings).Nodup) ∧
    parseServerPluginConfigFile (some text) ≠ .error "too many plugin mappings" := by
  have hfree : ∀ line ∈ lines text, 0 ∉ line :=
    fun line hline hzero => hnul (mem_of_mem_lines hline hzero)
  refine ⟨?_, ?_, ?_⟩
  · intro configFile
    rw [parseServerPluginConfigFile_iff]
    apply exists_congr
    intro statements
    rw [readAll_lines hlines, readAll_nulFree hfree]
  · intro configFile hok
    obtain ⟨statements, hreads, hnodup, hmappings, -⟩ := parseServerPluginConfigFile_iff.1 hok
    rw [hmappings]
    exact ⟨(hreads.sound_iff.2 hnodup).length_le, hnodup⟩
  · intro herror
    exact foldlM_parseLine_error sound_init herror rfl

def portsConfig : List UInt8 := ascii "# ports\nplugin 1 /a\nserial_flow none\n"

def portsConfigFile : ServerPluginConfigFile :=
  { initServerPluginConfigFile with
    mappings := [⟨1, ⟨ascii "/a", by decide⟩⟩]
    serialFlow := 0 }

theorem parseServerPluginConfigFile_grammar_ports :
    0 ∉ portsConfig ∧ (∀ line ∈ lines portsConfig, line.length ≤ 1022) ∧
      ∃ statements, List.Forall₂ Reads (lines portsConfig) statements ∧
        mappingsOf statements = portsConfigFile.mappings ∧
          lastValue .serialFlow statements = (0 : Int) := by
  have hnul : 0 ∉ portsConfig := by decide
  have hlines : ∀ line ∈ lines portsConfig, line.length ≤ 1022 := by decide
  have hok : parseServerPluginConfigFile (some portsConfig) = .ok portsConfigFile := by
    decide +kernel
  obtain ⟨statements, hreads, -, hmappings, hget⟩ :=
    ((parseServerPluginConfigFile_grammar hnul hlines).1 portsConfigFile).1 hok
  exact ⟨hnul, hlines, statements, hreads, hmappings.symm, (hget .serialFlow).symm⟩

/-- What `fgets` has read keeps to the grammar, and no port is assigned twice. -/
def Readable (buffers : List (List UInt8)) : Prop :=
  ∃ statements, ReadAll buffers statements ∧ (portsOf (mappingsOf statements)).Nodup

theorem parse_of_readAll (h : ReadAll (fgetsLoop 1024 text) statements)
    (hnodup : (portsOf (mappingsOf statements)).Nodup) :
    parseServerPluginConfigFile (some text) =
      .ok (statements.foldl ServerPluginConfigFile.apply initServerPluginConfigFile) :=
  (foldlM_parseLine_iff sound_init).2 ⟨statements, h, h.sound_iff.2 hnodup, rfl⟩

theorem parse_error_iff : (∃ message, parseServerPluginConfigFile (some text) = .error message) ↔
    ¬ Readable (fgetsLoop 1024 text) := by
  constructor
  · rintro ⟨message, herror⟩ ⟨statements, hreads, hnodup⟩
    rw [parse_of_readAll hreads hnodup] at herror
    cases herror
  · intro hnot
    cases hparse : parseServerPluginConfigFile (some text) with
    | error message => exact ⟨message, rfl⟩
    | ok configFile =>
      obtain ⟨statements, hreads, hnodup, -⟩ := parseServerPluginConfigFile_iff.1 hparse
      exact absurd ⟨statements, hreads, hnodup⟩ hnot

def Overlong (text : List UInt8) : Prop := ∃ line ∈ lines text, 1023 < line.length

/-- A file with an overlong line is rejected just when its pieces do not happen to be lines. -/
theorem overlong_rejected_iff (text : List UInt8) :
    (Overlong text → ∃ message, parseServerPluginConfigFile (some text) = .error message) ↔
      (Overlong text → ¬ Readable (pieces 1023 text)) := by
  rw [parse_error_iff, fgetsLoop_eq_pieces (by decide)]

/-- A comment line with a directive at its byte 1023. -/
def longComment : List UInt8 := List.replicate 1023 0x23 ++ ascii "plugin 1 /a\n"

theorem longComment_accepted : Overlong longComment ∧
    parseServerPluginConfigFile (some longComment) = .ok { initServerPluginConfigFile with
      mappings := [⟨1, ⟨ascii "/a", by decide⟩⟩] } := by
  constructor
  · have hline : lines longComment = [List.replicate 1023 0x23 ++ ascii "plugin 1 /a"] := by
      decide +kernel
    refine ⟨_, hline ▸ List.mem_cons_self, ?_⟩
    rw [List.length_append, List.length_replicate]
    decide
  · decide +kernel

/-- Two results fail both, or leave the same settings and the same set of mappings. -/
def Agree : Except String ServerPluginConfigFile → Except String ServerPluginConfigFile → Prop
  | .error _, .error _ => True
  | .ok left, .ok right => (∀ setting, left.get setting = right.get setting) ∧
      ∀ mapping, mapping ∈ left.mappings ↔ mapping ∈ right.mappings
  | _, _ => False

section
variable {setting : Setting} {statement : Statement} {statements others : List Statement}

theorem value_eq_some_iff {value : setting.Value} :
    statement.value setting = some value ↔ statement = .set setting value := by
  have hnone : ∀ other : setting.Value, (none : Option setting.Value) ≠ some other :=
    fun other h => Option.some_ne_none other h.symm
  cases statement with
  | nothing => exact iff_of_false (hnone value) Statement.noConfusion
  | plugin mapping => exact iff_of_false (hnone value) Statement.noConfusion
  | set other value' =>
    rw [Statement.value]
    by_cases h : other = setting
    · subst h
      rw [dif_pos rfl, Option.some.injEq, Statement.set.injEq]
      exact ⟨fun h => ⟨rfl, heq_of_eq h⟩, fun h => eq_of_heq h.2⟩
    · rw [dif_neg h]
      apply iff_of_false (hnone value)
      intro hset
      cases hset
      exact h rfl

theorem lastValue_append_set (statements : List Statement) (value : setting.Value) :
    lastValue setting (statements ++ [.set setting value]) = value := by
  have hvalue : (Statement.set setting value).value setting = some value :=
    value_eq_some_iff.2 rfl
  rw [lastValue, List.filterMap_append, List.filterMap_cons_some hvalue, List.filterMap_nil,
    List.getLast?_append, List.getLast?_singleton]
  rfl

theorem lastValue_eq {value : setting.Value} (hmem : .set setting value ∈ statements)
    (hsame : ∀ other, .set setting other ∈ statements → other = value) :
    lastValue setting statements = value := by
  have hvalue : value ∈ statements.filterMap (Statement.value setting) :=
    List.mem_filterMap.2 ⟨_, hmem, value_eq_some_iff.2 rfl⟩
  rw [lastValue, List.getLast?_eq_getLast_of_ne_nil (List.ne_nil_of_mem hvalue)]
  have hlast := List.getLast_mem (List.ne_nil_of_mem hvalue)
  obtain ⟨statement, hstatement, hsome⟩ := List.mem_filterMap.1 hlast
  exact hsame _ (value_eq_some_iff.1 hsome ▸ hstatement)

theorem lastValue_default (h : ∀ value, .set setting value ∉ statements) :
    lastValue setting statements = initServerPluginConfigFile.get setting := by
  have hnil : statements.filterMap (Statement.value setting) = [] := by
    apply List.eq_nil_iff_forall_not_mem.2
    intro value hmem
    obtain ⟨statement, hstatement, hsome⟩ := List.mem_filterMap.1 hmem
    exact h value (value_eq_some_iff.1 hsome ▸ hstatement)
  rw [lastValue, hnil]
  rfl

/-- No setting is given two values. -/
def Consistent (statements : List Statement) : Prop :=
  ∀ (setting : Setting) (value other : setting.Value),
    .set setting value ∈ statements → .set setting other ∈ statements → value = other

theorem Consistent.lastValue_perm (h : Consistent statements) (hperm : others.Perm statements)
    (setting : Setting) : lastValue setting statements = lastValue setting others := by
  by_cases hset : ∃ value, .set setting value ∈ statements
  · obtain ⟨value, hmem⟩ := hset
    rw [lastValue_eq hmem fun other hother => h setting other value hother hmem,
      lastValue_eq (hperm.mem_iff.2 hmem) fun other hother =>
        h setting other value (hperm.mem_iff.1 hother) hmem]
  · have hnone : ∀ value, .set setting value ∉ statements := fun value hmem => hset ⟨value, hmem⟩
    rw [lastValue_default hnone,
      lastValue_default fun value hmem => hnone value (hperm.mem_iff.1 hmem)]

theorem nodup_ports_perm (hperm : others.Perm statements) :
    (portsOf (mappingsOf others)).Nodup ↔ (portsOf (mappingsOf statements)).Nodup :=
  ((hperm.filterMap _).map _).nodup_iff

end

theorem Readable.of_perm (h : Readable buffers) (hperm : others.Perm buffers) :
    Readable others := by
  obtain ⟨statements, hreads, hnodup⟩ := h
  obtain ⟨statements', hreads', hperm'⟩ := List.perm_comp_forall₂ hperm hreads
  exact ⟨statements', hreads', (nodup_ports_perm hperm').2 hnodup⟩

/-- Files with the same lines are read alike, when no setting is given two values. -/
theorem agree_of_perm (hlines : ∀ line ∈ lines text, line.length ≤ 1022)
    (hperm : (lines other).Perm (lines text))
    (h : ∀ statements, ReadAll (lines text) statements →
      (portsOf (mappingsOf statements)).Nodup → Consistent statements) :
    Agree (parseServerPluginConfigFile (some text)) (parseServerPluginConfigFile (some other)) := by
  have hlines' : ∀ line ∈ lines other, line.length ≤ 1022 :=
    fun line hline => hlines line (hperm.mem_iff.1 hline)
  have hreadable : ∀ {text : List UInt8}, (∀ line ∈ lines text, line.length ≤ 1022) →
      (Readable (fgetsLoop 1024 text) ↔ Readable (lines text)) :=
    fun hlines => exists_congr fun _ => and_congr_left' (readAll_lines hlines)
  by_cases hread : Readable (lines text)
  · obtain ⟨statements, hreads, hnodup⟩ := hread
    obtain ⟨others, hothers, hsame⟩ := List.perm_comp_forall₂ hperm hreads
    rw [parse_of_readAll ((readAll_lines hlines).2 hreads) hnodup,
      parse_of_readAll ((readAll_lines hlines').2 hothers) ((nodup_ports_perm hsame).2 hnodup)]
    constructor
    · intro setting
      rw [get_foldl_apply, get_foldl_apply]
      exact (h statements hreads hnodup).lastValue_perm hsame setting
    · intro mapping
      rw [mappings_foldl_apply, mappings_foldl_apply]
      exact ((hsame.filterMap Statement.mapping).mem_iff).symm
  · have hread' : ¬ Readable (lines other) := fun hread' => hread (hread'.of_perm hperm.symm)
    obtain ⟨message, herror⟩ := parse_error_iff.2 fun h => hread ((hreadable hlines).1 h)
    obtain ⟨message', herror'⟩ := parse_error_iff.2 fun h => hread' ((hreadable hlines').1 h)
    rw [herror, herror']
    exact trivial

/-- A line that is moved to the end of its file decides what it sets. -/
theorem exists_perm_last (hlines : ∀ line ∈ lines text, line.length ≤ 1022)
    (hreads : ReadAll (lines text) statements) (hnodup : (portsOf (mappingsOf statements)).Nodup)
    {value : Setting.Value setting} (hmem : .set setting value ∈ statements) :
    ∃ other configFile, (lines other).Perm (lines text) ∧
      parseServerPluginConfigFile (some other) = .ok configFile ∧
        configFile.get setting = value := by
  obtain ⟨before, after, rfl⟩ := List.append_of_mem hmem
  have hperm : (before ++ after ++ [Statement.set setting value]).Perm
      (before ++ Statement.set setting value :: after) := by
    rw [List.append_assoc]
    exact (List.perm_append_singleton _ _).append_left before
  obtain ⟨texts, htexts, hlinesPerm⟩ := List.perm_comp_forall₂ hperm hreads.flip
  have hother : lines (unlines texts) = texts :=
    lines_unlines fun line hline => newline_notMem_of_mem_lines (hlinesPerm.mem_iff.1 hline)
  have hlines' : ∀ line ∈ lines (unlines texts), line.length ≤ 1022 := by
    rw [hother]
    exact fun line hline => hlines line (hlinesPerm.mem_iff.1 hline)
  have hreads' : ReadAll (lines (unlines texts)) (before ++ after ++ [.set setting value]) :=
    hother.symm ▸ htexts.flip
  refine ⟨unlines texts, _, hother.symm ▸ hlinesPerm,
    parse_of_readAll ((readAll_lines hlines').2 hreads') ((nodup_ports_perm hperm).2 hnodup), ?_⟩
  rw [get_foldl_apply]
  exact lastValue_append_set _ value

/-- The order of the lines does not matter just when no setting is given two values in a file
that is accepted. -/
theorem order_independent_iff (hlines : ∀ line ∈ lines text, line.length ≤ 1022) :
    (∀ other, (lines other).Perm (lines text) →
      Agree (parseServerPluginConfigFile (some text))
        (parseServerPluginConfigFile (some other))) ↔
    ∀ statements, ReadAll (lines text) statements →
      (portsOf (mappingsOf statements)).Nodup → Consistent statements := by
  constructor
  · intro hagree statements hreads hnodup setting value other hvalue hother
    have hparse := parse_of_readAll ((readAll_lines hlines).2 hreads) hnodup
    have hsame : ∀ value, .set setting value ∈ statements →
        (statements.foldl ServerPluginConfigFile.apply initServerPluginConfigFile).get setting =
          value := by
      intro value hmem
      obtain ⟨text', configFile, hperm, hok, hget⟩ := exists_perm_last hlines hreads hnodup hmem
      have h := hagree text' hperm
      rw [hparse, hok] at h
      exact (h.1 setting).trans hget
    exact (hsame value hvalue).symm.trans (hsame other hother)
  · intro h other hperm
    exact agree_of_perm hlines hperm h

def twoBauds : List UInt8 := ascii "serial_baud 1200\nserial_baud 2400\n"

def twoBaudsSwapped : List UInt8 := ascii "serial_baud 2400\nserial_baud 1200\n"

theorem parse_twoBauds : parseServerPluginConfigFile (some twoBauds) =
    .ok { initServerPluginConfigFile with serialBaud := 2400 } := by decide +kernel

theorem parse_twoBaudsSwapped : parseServerPluginConfigFile (some twoBaudsSwapped) =
    .ok { initServerPluginConfigFile with serialBaud := 1200 } := by decide +kernel

theorem twoBauds_order : (∀ line ∈ lines twoBauds, line.length ≤ 1022) ∧
    (lines twoBaudsSwapped).Perm (lines twoBauds) ∧
      ¬ Agree (parseServerPluginConfigFile (some twoBauds))
        (parseServerPluginConfigFile (some twoBaudsSwapped)) := by
  refine ⟨by decide, List.Perm.swap _ _ _, ?_⟩
  rw [parse_twoBauds, parse_twoBaudsSwapped]
  intro h
  exact absurd (h.1 .serialBaud) (by decide)

theorem order_independent_iff_twoBauds : (∀ line ∈ lines twoBauds, line.length ≤ 1022) ∧
    ¬ ∀ statements, ReadAll (lines twoBauds) statements →
      (portsOf (mappingsOf statements)).Nodup → Consistent statements := by
  have hlines : ∀ line ∈ lines twoBauds, line.length ≤ 1022 := by decide
  refine ⟨hlines, ?_⟩
  intro h
  have hagree := (order_independent_iff hlines).2 h twoBaudsSwapped (List.Perm.swap _ _ _)
  rw [parse_twoBauds, parse_twoBaudsSwapped] at hagree
  exact absurd (hagree.1 .serialBaud) (by decide)

/-- The word of a `serial_baud` directive. -/
def baudWord (line : List UInt8) : Option (List UInt8) :=
  if (fields isBlank (trim line))[0]? = some Setting.serialBaud.keyword then
    (fields isBlank (trim line))[1]?
  else none

def baudWords (buffers : List (List UInt8)) : List (List UInt8) :=
  buffers.filterMap fun buffer => baudWord (CString.ofBytes buffer).bytes

theorem Reads.baudWord (h : Reads line statement) :
    (baudWord line = none ∧ statement.value .serialBaud = none) ∨
      ∃ word baud, baudWord line = some word ∧ statement = .set .serialBaud baud ∧
        Setting.serialBaud.Takes word baud := by
  have hother : ∀ word, (fields isBlank (trim line))[0]? = some word →
      word ≠ Setting.serialBaud.keyword → PluginConfig.baudWord line = none := by
    intro word hword hne
    rw [PluginConfig.baudWord, if_neg]
    rw [hword]
    exact fun he => hne (Option.some.inj he)
  cases h with
  | empty hempty =>
    refine .inl ⟨?_, rfl⟩
    rw [PluginConfig.baudWord, hempty]
    rfl
  | comment hcomment =>
    refine .inl ⟨?_, rfl⟩
    obtain ⟨rest, hline⟩ := List.head?_eq_some_iff.1 hcomment
    obtain ⟨word, hword⟩ := fields_head (show isBlank 0x23 = false from rfl) rest
    rw [← hline] at hword
    apply hother _ hword
    intro he
    exact Setting.head_keyword .serialBaud (congrArg List.head? he).symm
  | directive hdenotes =>
    cases statement with
    | nothing => exact hdenotes.elim
    | plugin mapping =>
      obtain ⟨word, hwords, -⟩ := hdenotes
      exact .inl ⟨hother _ (congrArg (·[0]?) hwords) (by decide), rfl⟩
    | set setting value =>
      obtain ⟨word, hwords, htakes⟩ := hdenotes
      have hkeyword : (fields isBlank (trim line))[0]? = some setting.keyword :=
        congrArg (·[0]?) hwords
      by_cases hsetting : setting = .serialBaud
      · subst hsetting
        refine .inr ⟨word, value, ?_, rfl, htakes⟩
        rw [PluginConfig.baudWord, if_pos hkeyword, hwords]
        rfl
      · refine .inl ⟨hother _ hkeyword ?_, ?_⟩
        · exact fun he => hsetting (Setting.keyword_inj he)
        · exact dif_neg hsetting

/-- The `serial_baud` directives are the words that are written behind the keyword. -/
theorem ReadAll.bauds (h : ReadAll buffers statements) :
    List.Forall₂ Setting.serialBaud.Takes (baudWords buffers)
      (statements.filterMap (Statement.value .serialBaud)) := by
  induction h with
  | nil => exact .nil
  | @cons buffer statement buffers statements hreads _ ih =>
    rcases hreads.baudWord with ⟨hword, hvalue⟩ | ⟨word, baud, hword, hset, htakes⟩
    · have hwords : baudWords (buffer :: buffers) = baudWords buffers :=
        List.filterMap_cons_none hword
      rw [hwords, List.filterMap_cons_none hvalue]
      exact ih
    · have hwords : baudWords (buffer :: buffers) = word :: baudWords buffers :=
        List.filterMap_cons_some hword
      have hvalue : statement.value .serialBaud = some baud := value_eq_some_iff.2 hset
      rw [hwords, List.filterMap_cons_some hvalue]
      exact .cons htakes ih

/-- The line speeds of the serial port. -/
def serialRates : List Int := [1200, 2400, 4800, 9600, 19200, 38400, 57600, 115200]

theorem rate_mem_serialRates (speed : Speed) : speed.rate ∈ serialRates := by
  cases speed <;> decide

theorem mem_serialRates (h : n ∈ serialRates) :
    0 < n ∧ toInt (clampLong n) = n ∧ (mapBaudRate n).rate = n := by
  revert n
  decide

theorem baudWords_pieces (h : ¬ Overlong text) :
    baudWords (pieces 1023 text) = baudWords (lines text) := by
  rw [← fgetsLoop_eq_pieces (by decide)]
  apply filterMap_fgetsLoop (by decide) rfl
  · intro line
    rw [baudWord, baudWord, trim_newline]
  · intro line hline
    exact Nat.add_le_add_right (Nat.le_of_not_lt fun hlong => h ⟨line, hline, hlong⟩) 1

/-- The number that the last of some `serial_baud` directives leaves in an `int`; without one the
default stays. -/
def LastBaud (words : List (List UInt8)) (n : Int) : Prop :=
  match words.getLast? with
  | none => n = 9600
  | some word => ∃ m, Numeral word m ∧ n = toInt (clampLong m)

theorem lastBaud_iff (hok : parseServerPluginConfigFile (some text) = .ok configFile) :
    configFile.serialBaud = n ↔ LastBaud (baudWords (pieces 1023 text)) n := by
  obtain ⟨statements, hreads, -, -, hget⟩ := parseServerPluginConfigFile_iff.1 hok
  have hstored : configFile.serialBaud =
      ((statements.filterMap (Statement.value .serialBaud)).getLast?).getD 9600 :=
    hget .serialBaud
  have hbauds := List.rel_reverse hreads.bauds
  rw [fgetsLoop_eq_pieces (by decide)] at hbauds
  rw [hstored, LastBaud, ← List.head?_reverse, ← List.head?_reverse]
  generalize (baudWords (pieces 1023 text)).reverse = words at hbauds ⊢
  generalize (statements.filterMap (Statement.value .serialBaud)).reverse = values at hbauds ⊢
  cases hbauds with
  | nil => exact eq_comm
  | cons htakes _ =>
    obtain ⟨m, hm, -, rfl⟩ := htakes
    constructor
    · rintro rfl
      exact ⟨m, hm, rfl⟩
    · rintro ⟨m', hm', rfl⟩
      rw [hm.unique hm']
      rfl

/-- The rate in the file is the rate of the line just when it is a rate that the line can have and,
where a line of the file is longer than the buffer, the pieces of its lines still give it. -/
theorem serial_baud_used_iff (hok : parseServerPluginConfigFile (some text) = .ok configFile)
    (hone : baudWords (lines text) = [word]) (hword : Numeral word n) :
    (0 < configFile.serialBaud ∧ configFile.serialBaud = n ∧
      (mapBaudRate configFile.serialBaud).rate = n) ↔
    n ∈ serialRates ∧ (Overlong text → LastBaud (baudWords (pieces 1023 text)) n) := by
  constructor
  · rintro ⟨-, hsame, hrate⟩
    refine ⟨?_, fun _ => (lastBaud_iff hok).1 hsame⟩
    rw [← hrate]
    exact rate_mem_serialRates _
  · rintro ⟨hmem, hlong⟩
    obtain ⟨hpos, hint, hrate⟩ := mem_serialRates hmem
    have hlast : LastBaud (baudWords (pieces 1023 text)) n := by
      by_cases hoverlong : Overlong text
      · exact hlong hoverlong
      · rw [baudWords_pieces hoverlong, hone]
        exact ⟨n, hword, hint.symm⟩
    have hstored := (lastBaud_iff hok).2 hlast
    rw [hstored]
    exact ⟨hpos, rfl, hrate⟩

/-- A directive, a line with another one behind its byte 1023, and no more. -/
def coveredBaud : List UInt8 :=
  ascii "serial_baud 1200\n" ++ List.replicate 1023 0x23 ++ ascii "serial_baud 1200\n"

/-- The rate of the directive is also that of the piece, and so it is used. -/
theorem serial_baud_used_iff_covered : Overlong coveredBaud ∧
    baudWords (lines coveredBaud) = [ascii "1200"] ∧
    ∃ configFile, parseServerPluginConfigFile (some coveredBaud) = .ok configFile ∧
      0 < configFile.serialBaud ∧ configFile.serialBaud = 1200 ∧
        (mapBaudRate configFile.serialBaud).rate = 1200 := by
  have hnumeral : Numeral (ascii "1200") 1200 := scanNumber_iff.1 (by decide)
  have hok : parseServerPluginConfigFile (some coveredBaud) =
      .ok { initServerPluginConfigFile with serialBaud := 1200 } := by decide +kernel
  have hone : baudWords (lines coveredBaud) = [ascii "1200"] := by decide +kernel
  have hlong : Overlong coveredBaud := by
    refine ⟨List.replicate 1023 0x23 ++ ascii "serial_baud 1200", by decide +kernel, ?_⟩
    rw [List.length_append, List.length_replicate]
    decide
  have hpieces : baudWords (pieces 1023 coveredBaud) = [ascii "1200", ascii "1200"] := by
    decide +kernel
  refine ⟨hlong, hone, _, hok, (serial_baud_used_iff hok hone hnumeral).2 ⟨by decide, ?_⟩⟩
  intro _
  rw [hpieces]
  exact ⟨1200, hnumeral, rfl⟩

/-- A number that does not fit an `int`. -/
def wideBaud : List UInt8 := ascii "serial_baud 4294968496\n"

theorem wideBaud_stored : baudWords (lines wideBaud) = [ascii "4294968496"] ∧
    Numeral (ascii "4294968496") 4294968496 ∧
      parseServerPluginConfigFile (some wideBaud) =
        .ok { initServerPluginConfigFile with serialBaud := 1200 } ∧
          (mapBaudRate 1200).rate ≠ 4294968496 := by
  refine ⟨by decide +kernel, ?_, by decide +kernel, by decide⟩
  exact scanNumber_iff.1 (by decide)

end SquidServer.PluginConfig

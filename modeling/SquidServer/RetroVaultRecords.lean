import SquidServer.RetroVaultInfo
import SquidServer.Stores
import SquidServer.Utf8

namespace SquidServer.RetroVault
open Interaction CText Wire Loads Stores Utf8
set_option autoImplicit true

-- The functions that write one record, on the address of the buffer they write it to. They return
-- the number of bytes, or 0.

def makeListEntryAt (package : RetroVaultPackage) (entry entryCapacity : Nat) :
    Program Storing Nat := do
  let id := package.id.bytes
  let name := package.name.bytes
  if entryCapacity < 2 ∨ 255 < id.length then return 0
  else if (← subtract entryCapacity 2) < id.length then return 0
  else
    let maximumName ← subtract (← subtract entryCapacity id.length) 2
    let nameSize := min (shorten name maximumName) 255
    store entry (UInt8.ofNat id.length)
    storeBytes (entry + 1) id
    store (entry + 1 + id.length) (UInt8.ofNat nameSize)
    storeBytes (entry + 2 + id.length) (name.take nameSize)
    return 2 + id.length + nameSize

def makeStringTlvAt (type : UInt8) (text : CString) (record recordCapacity : Nat) :
    Program Storing Nat := do
  if recordCapacity < 2 then return 0
  else
    let textSize := min (shorten text.bytes (← subtract recordCapacity 2)) 255
    store record type
    store (record + 1) (UInt8.ofNat textSize)
    storeBytes (record + 2) (text.bytes.take textSize)
    return textSize + 2

def appendCountedTextAt (output outputCapacity : Nat) (text : CString) (maximumSize : Nat) :
    Program Storing Nat := do
  if outputCapacity < 1 then return 0
  else
    let room ← subtract outputCapacity 1
    let textSize := stepBack text.bytes (min (min (min text.bytes.length maximumSize) room) 255)
    store output (UInt8.ofNat textSize)
    storeBytes (output + 1) (text.bytes.take textSize)
    return textSize + 1

/-- A text of a download, behind what is written of its record, with five bytes left free. -/
def appendDownloadText (record recordCapacity outputSize : Nat) (text : CString)
    (maximumSize : Nat) : Program Storing Nat := do
  let room ← subtract (← subtract recordCapacity outputSize) 5
  appendCountedTextAt (record + outputSize) room text maximumSize

def makeDownloadTlvAt (download : RetroVaultDownload) (record recordCapacity : Nat) :
    Program Storing Nat := do
  if recordCapacity < 10 then return 0
  else
    store record retroVaultInfoDownload
    let outputSize := 2
    let written ← appendDownloadText record recordCapacity outputSize download.id 64
    if written = 0 then return 0
    let outputSize := outputSize + written
    let written ← appendDownloadText record recordCapacity outputSize download.label 96
    if written = 0 then return 0
    let outputSize := outputSize + written
    let written ← appendDownloadText record recordCapacity outputSize download.format 32
    if written = 0 then return 0
    let outputSize := outputSize + written
    storeBytes (record + outputSize) (writeU32 download.aggregateSize)
    let outputSize := outputSize + 4
    store (record + outputSize) download.fileCount
    let outputSize := outputSize + 1
    store (record + 1) (UInt8.ofNat (← subtract outputSize 2))
    return outputSize

/-- A record is written from an address on, and its size is returned; 0 without one. -/
def Emits (memory : Memory) (record : Nat) (emitted : Option (List UInt8)) (n : Nat)
    (memory' : Memory) : Prop :=
  match emitted with
  | none => n = 0
  | some bytes => n = bytes.length ∧ memory' = place memory record bytes

section
variable {memory : Memory} {package : RetroVaultPackage} {text : CString}
  {entry record output recordCapacity outputCapacity : Nat}

theorem makeListEntryAt_emits (memory : Memory) (package : RetroVaultPackage)
    (entry entryCapacity : Nat) :
    Keeps entry (entry + entryCapacity) (makeListEntryAt package entry entryCapacity)
      (Emits memory entry (makeListEntry package entryCapacity)) memory := by
  rw [makeListEntryAt, makeListEntry]
  dsimp only
  split
  · exact keeps_pure.2 rfl
  rename_i hcapacity
  refine keeps_bind.2 ((keeps_subtract (by omega)).2 ?_)
  split
  · exact keeps_pure.2 rfl
  rename_i hroom
  refine keeps_bind.2 ((keeps_subtract (by omega)).2 ?_)
  refine keeps_bind.2 ((keeps_subtract (by omega)).2 ?_)
  generalize hsize : min (shorten package.name.bytes _) 255 = nameSize
  have hfits := shorten_le package.name.bytes (entryCapacity - package.id.bytes.length - 2)
  have htake : (package.name.bytes.take nameSize).length = nameSize := by
    have hle := shorten_le_length package.name.bytes (entryCapacity - package.id.bytes.length - 2)
    rw [List.length_take]
    omega
  refine keeps_bind.2 (keeps_store.2 ⟨by omega, ?_⟩)
  refine keeps_bind.2 (keeps_storeBytes (by omega) (by omega) ?_)
  refine keeps_bind.2 (keeps_store.2 ⟨by omega, ?_⟩)
  refine keeps_bind.2 (keeps_storeBytes (by omega) (by omega) ?_)
  refine keeps_pure.2 ⟨?_, ?_⟩
  · simp only [List.length_append, List.length_cons, List.length_nil, htake]
    omega
  · rw [place_place _ _ (by simp; omega), place_place _ _ (by simp), place_place _ _ (by simp),
      List.append_assoc, List.append_assoc]

theorem makeStringTlvAt_emits (memory : Memory) (type : UInt8) (text : CString)
    (record recordCapacity : Nat) :
    Keeps record (record + recordCapacity) (makeStringTlvAt type text record recordCapacity)
      (Emits memory record (makeStringTlv type text recordCapacity)) memory := by
  rw [makeStringTlvAt, makeStringTlv]
  split
  · exact keeps_pure.2 rfl
  rename_i hcapacity
  refine keeps_bind.2 ((keeps_subtract (by omega)).2 ?_)
  dsimp only
  generalize hsize : min (shorten text.bytes _) 255 = textSize
  have hfits := shorten_le text.bytes (recordCapacity - 2)
  have htake : (text.bytes.take textSize).length = textSize := by
    have hle := shorten_le_length text.bytes (recordCapacity - 2)
    rw [List.length_take]
    omega
  refine keeps_bind.2 (keeps_store.2 ⟨by omega, ?_⟩)
  refine keeps_bind.2 (keeps_store.2 ⟨by omega, ?_⟩)
  refine keeps_bind.2 (keeps_storeBytes (by omega) (by omega) ?_)
  refine keeps_pure.2 ⟨?_, ?_⟩
  · simp only [List.length_append, List.length_cons, List.length_nil, htake]
    omega
  · rw [place_place _ _ (by simp), place_place _ _ (by simp)]
    rfl

theorem appendCountedTextAt_emits (memory : Memory) (output outputCapacity : Nat) (text : CString)
    (maximumSize : Nat) :
    Keeps output (output + outputCapacity)
      (appendCountedTextAt output outputCapacity text maximumSize)
      (Emits memory output (appendCountedText outputCapacity text maximumSize)) memory := by
  rw [appendCountedTextAt, appendCountedText]
  split
  · exact keeps_pure.2 rfl
  rename_i hcapacity
  refine keeps_bind.2 ((keeps_subtract (by omega)).2 ?_)
  dsimp only
  have hle := stepBack_le text.bytes
    (min (min (min text.bytes.length maximumSize) (outputCapacity - 1)) 255)
  generalize hsize : stepBack text.bytes _ = textSize at hle
  have htake : (text.bytes.take textSize).length = textSize := by
    rw [List.length_take]
    omega
  refine keeps_bind.2 (keeps_store.2 ⟨by omega, ?_⟩)
  refine keeps_bind.2 (keeps_storeBytes (by omega) (by omega) ?_)
  refine keeps_pure.2 ⟨?_, ?_⟩
  · rw [List.length_cons, htake]
  · rw [place_place _ _ (by simp)]
    rfl

theorem appendCountedText_part
    (h : appendCountedText outputCapacity text maximumSize = some counted) :
    ∃ part, part <+: text.bytes ∧ part.length ≤ maximumSize ∧ part.length < outputCapacity ∧
      counted = countedText part := by
  by_cases hcapacity : 1 ≤ outputCapacity
  · rw [appendCountedText_counted hcapacity] at h
    have hfits := length_longestPrefix_le text.bytes
      (min (min maximumSize (outputCapacity - 1)) 255)
    refine ⟨_, List.take_prefix _ text.bytes, ?_, ?_, (Option.some.inj h).symm⟩
    · exact hfits.trans (by omega)
    · exact Nat.lt_of_le_of_lt hfits (by omega)
  · rw [appendCountedText, if_pos (by omega)] at h
    cases h

theorem appendDownloadText_emits (h : outputSize + 5 ≤ recordCapacity) (memory : Memory)
    (record : Nat) (text : CString) (maximumSize : Nat) :
    Keeps record (record + recordCapacity)
      (appendDownloadText record recordCapacity outputSize text maximumSize)
      (Emits memory (record + outputSize)
        (appendCountedText (recordCapacity - outputSize - 5) text maximumSize)) memory := by
  refine keeps_bind.2 ((keeps_subtract (by omega)).2 ?_)
  refine keeps_bind.2 ((keeps_subtract (by omega)).2 ?_)
  exact (appendCountedTextAt_emits memory _ _ text maximumSize).widen (by omega) (by omega)

/-- A text of a download either ends the record or leaves the five bytes behind it free. -/
theorem appendDownloadText_bind {base : Memory} {f : Nat → Program Storing Nat}
    {g : List UInt8 → Option (List UInt8)} (h : outputSize + 5 ≤ recordCapacity)
    (hnext : ∀ part, outputSize + (countedText part).length + 5 ≤ recordCapacity →
      Keeps record (record + recordCapacity) (f (countedText part).length)
        (Emits base record (g (countedText part)))
        (place memory (record + outputSize) (countedText part))) :
    Keeps record (record + recordCapacity)
      ((appendDownloadText record recordCapacity outputSize text maximumSize).bind fun written =>
        if written = 0 then return 0 else f written)
      (Emits base record ((appendCountedText (recordCapacity - outputSize - 5) text
        maximumSize).bind g)) memory := by
  refine keeps_bind.2 ((appendDownloadText_emits h memory record text maximumSize).mono ?_)
  intro written memory' hwritten
  cases htext : appendCountedText (recordCapacity - outputSize - 5) text maximumSize with
  | none =>
    rw [htext] at hwritten
    have hzero : written = 0 := hwritten
    rw [if_pos hzero]
    exact keeps_pure.2 rfl
  | some counted =>
    rw [htext] at hwritten
    obtain ⟨rfl, rfl⟩ := hwritten
    obtain ⟨part, -, -, hfits, rfl⟩ := appendCountedText_part htext
    have hlength : (countedText part).length = part.length + 1 := List.length_cons ..
    rw [if_neg (by omega)]
    exact hnext part (by omega)

theorem makeDownloadTlvAt_emits (memory : Memory) (download : RetroVaultDownload)
    (record recordCapacity : Nat) :
    Keeps record (record + recordCapacity) (makeDownloadTlvAt download record recordCapacity)
      (Emits memory record (makeDownloadTlv download recordCapacity)) memory := by
  rw [makeDownloadTlvAt, makeDownloadTlv]
  split
  · exact keeps_pure.2 rfl
  rename_i hcapacity
  refine keeps_bind.2 (keeps_store.2 ⟨by omega, ?_⟩)
  refine appendDownloadText_bind (by omega) ?_
  intro idPart hid
  refine appendDownloadText_bind hid ?_
  intro labelPart hlabel
  refine appendDownloadText_bind hlabel ?_
  intro formatPart hformat
  have hword : (writeU32 download.aggregateSize).length = 4 := rfl
  dsimp only
  refine keeps_bind.2 (keeps_storeBytes (by omega) (by omega) ?_)
  refine keeps_bind.2 (keeps_store.2 ⟨by omega, ?_⟩)
  refine keeps_bind.2 ((keeps_subtract (by omega)).2 ?_)
  refine keeps_bind.2 (keeps_store.2 ⟨by omega, ?_⟩)
  refine keeps_pure.2 ⟨?_, ?_⟩
  · simp only [List.length_append, List.length_cons, List.length_nil, hword]
    omega
  · -- Everything but the count of the value stands in its order; the count goes between.
    generalize countedText idPart = id
    generalize countedText labelPart = label
    generalize countedText formatPart = format
    generalize writeU32 download.aggregateSize = word at hword
    have hvalue : (id ++ label ++ format ++ word ++ [download.fileCount]).length =
        2 + id.length + label.length + format.length + 4 + 1 - 2 := by
      simp only [List.length_append, List.length_cons, List.length_nil, hword]
      omega
    rw [place_place id label (by omega),
      place_place (id ++ label) format (by rw [List.length_append]; omega),
      place_place (id ++ label ++ format) word (by simp only [List.length_append]; omega),
      place_place (id ++ label ++ format ++ word) [download.fileCount]
        (by simp only [List.length_append]; omega), hvalue]
    exact place_between [retroVaultInfoDownload] _ rfl

/-- The fields of a download's record: three counted texts, the size and the number of files. -/
def downloadFields (download : RetroVaultDownload) (id label format : List UInt8) : List UInt8 :=
  countedText id ++ countedText label ++ countedText format ++ writeU32 download.aggregateSize ++
    [download.fileCount]

theorem makeDownloadTlv_fields (h : makeDownloadTlv download recordCapacity = some bytes) :
    ∃ id label format, (id <+: download.id.bytes ∧ id.length ≤ 64) ∧
      (label <+: download.label.bytes ∧ label.length ≤ 96) ∧
      (format <+: download.format.bytes ∧ format.length ≤ 32) ∧
      bytes = [retroVaultInfoDownload,
        UInt8.ofNat (downloadFields download id label format).length] ++
          downloadFields download id label format ∧ bytes.length ≤ recordCapacity := by
  rw [makeDownloadTlv] at h
  split at h
  · cases h
  rename_i hcapacity
  simp only [Option.bind_eq_bind] at h
  obtain ⟨_, hid, h⟩ := Option.bind_eq_some_iff.1 h
  obtain ⟨_, hlabel, h⟩ := Option.bind_eq_some_iff.1 h
  obtain ⟨_, hformat, h⟩ := Option.bind_eq_some_iff.1 h
  obtain ⟨id, hidPart, hidMax, hidFits, rfl⟩ := appendCountedText_part hid
  obtain ⟨label, hlabelPart, hlabelMax, hlabelFits, rfl⟩ := appendCountedText_part hlabel
  obtain ⟨format, hformatPart, hformatMax, hformatFits, rfl⟩ := appendCountedText_part hformat
  cases h
  refine ⟨id, label, format, ⟨hidPart, hidMax⟩, ⟨hlabelPart, hlabelMax⟩,
    ⟨hformatPart, hformatMax⟩, rfl, ?_⟩
  simp only [countedText, writeU32, List.length_append, List.length_cons, List.length_nil]
    at hlabelFits hformatFits ⊢
  omega

theorem exists_appendCountedText (h : 1 ≤ outputCapacity) (text : CString) (maximumSize : Nat) :
    ∃ part, appendCountedText outputCapacity text maximumSize = some (countedText part) ∧
      part.length ≤ min text.bytes.length maximumSize := by
  have hcounted := appendCountedText_counted h text maximumSize
  obtain ⟨part, hpart, hmaximum, -, heq⟩ := appendCountedText_part hcounted
  exact ⟨part, hcounted.trans (congrArg some heq), Nat.le_min.2 ⟨hpart.length_le, hmaximum⟩⟩

theorem makeDownloadTlv_eq_none (h : makeDownloadTlv download recordCapacity = none) :
    recordCapacity <
      10 + (min download.id.bytes.length 64 + min download.label.bytes.length 96) := by
  by_contra hroom
  have hcounted (part : List UInt8) : (countedText part).length = part.length + 1 :=
    List.length_cons ..
  obtain ⟨id, hid, hidSize⟩ := exists_appendCountedText
    (show 1 ≤ recordCapacity - 2 - 5 by omega) download.id 64
  obtain ⟨label, hlabel, hlabelSize⟩ := exists_appendCountedText
    (show 1 ≤ recordCapacity - (2 + (countedText id).length) - 5 by rw [hcounted]; omega)
    download.label 96
  obtain ⟨format, hformat, -⟩ := exists_appendCountedText
    (show 1 ≤ recordCapacity - (2 + (countedText id).length + (countedText label).length) - 5 by
      rw [hcounted, hcounted]; omega) download.format 32
  simp only [makeDownloadTlv, if_neg (show ¬ recordCapacity < 10 by omega), hid, hlabel, hformat,
    Option.bind_eq_bind, Option.bind_some] at h
  cases h

theorem length_downloadFields (download : RetroVaultDownload) (id label format : List UInt8) :
    (downloadFields download id label format).length =
      id.length + label.length + format.length + 8 := by
  simp only [downloadFields, countedText, writeU32, List.length_append, List.length_cons,
    List.length_nil]
  omega

/-- Whatever the texts and the room, a download's record stays inside of it, no size wraps, and the
fields fill exactly the number of bytes that its second byte counts. There is no record only where
the id and the label do not leave ten bytes free. -/
theorem download_record_counts (download : RetroVaultDownload) (memory : Memory)
    (record recordCapacity : Nat) :
    Keeps record (record + recordCapacity) (makeDownloadTlvAt download record recordCapacity)
      (fun n memory' => (n = 0 ∧ recordCapacity <
          10 + (min download.id.bytes.length 64 + min download.label.bytes.length 96)) ∨
        n ≤ recordCapacity ∧ 2 + (memory' (record + 1)).toNat = n ∧
        ∃ id label format, (id <+: download.id.bytes ∧ id.length ≤ 64) ∧
          (label <+: download.label.bytes ∧ label.length ≤ 96) ∧
          (format <+: download.format.bytes ∧ format.length ≤ 32) ∧
          n = 2 + (downloadFields download id label format).length ∧
          memory' = place memory record (retroVaultInfoDownload :: memory' (record + 1) ::
            downloadFields download id label format)) memory := by
  refine (makeDownloadTlvAt_emits memory download record recordCapacity).mono ?_
  intro n memory' h
  cases hbytes : makeDownloadTlv download recordCapacity with
  | none =>
    rw [hbytes] at h
    exact .inl ⟨h, makeDownloadTlv_eq_none hbytes⟩
  | some bytes =>
    rw [hbytes] at h
    obtain ⟨rfl, rfl⟩ := h
    obtain ⟨id, label, format, hid, hlabel, hformat, rfl, hfits⟩ := makeDownloadTlv_fields hbytes
    have hlength := length_downloadFields download id label format
    obtain ⟨fields, hfields⟩ : ∃ fields, downloadFields download id label format = fields :=
      ⟨_, rfl⟩
    rw [hfields] at hlength hfits ⊢
    have hcount : place memory record ([retroVaultInfoDownload, UInt8.ofNat fields.length] ++
        fields) (record + 1) = UInt8.ofNat fields.length := by
      have hlt : 1 < ([retroVaultInfoDownload, UInt8.ofNat fields.length] ++ fields).length := by
        simp
      exact place_add hlt
    rw [hcount]
    have hsize : (UInt8.ofNat fields.length).toNat = fields.length :=
      UInt8.toNat_ofNat_of_lt' (Nat.lt_of_le_of_lt (m := 200) (by omega) (by decide))
    refine .inr ⟨hfits, ?_, id, label, format, hid, hlabel, hformat, ?_, ?_⟩
    · rw [hsize, List.length_append]
      rfl
    · rw [hfields, List.length_append]
      rfl
    · rw [hfields]
      rfl

def tapeDownload : RetroVaultDownload where
  id := .ofBytes (ascii "tape")
  label := .ofBytes (ascii "Side A")
  format := .ofBytes (ascii "TZX")
  aggregateSize := 0xC000
  fileCount := 2

/-- Twenty bytes are enough for the id, the label and the rest of the record. -/
theorem download_record_counts_tape :
    Keeps 100 120 (makeDownloadTlvAt tapeDownload 100 20) (fun n memory' =>
      n ≤ 20 ∧ 2 + (memory' 101).toNat = n ∧ ∃ id label format,
        memory' = place (fun _ => 0) 100 (retroVaultInfoDownload :: memory' 101 ::
          downloadFields tapeDownload id label format)) (fun _ => 0) := by
  refine (download_record_counts tapeDownload (fun _ => 0) 100 20).mono ?_
  rintro n memory' (⟨-, hroom⟩ | ⟨hfits, hcount, id, label, format, -, -, -, -, hmemory⟩)
  · exact absurd hroom (by decide)
  · exact ⟨hfits, hcount, id, label, format, hmemory⟩

/-- A text is written behind a byte that counts it, as the longest valid part that fits. -/
structure Shortened (memory : Memory) (output : Nat) (before text : List UInt8)
    (room capacity n : Nat) (memory' : Memory) : Prop where
  size : n ≤ capacity
  written : ∃ part count, IsLongest text room part ∧ UInt8.toNat count = part.length ∧
    n = before.length + 1 + part.length ∧
    memory' = place memory output (before ++ count :: part)

theorem Emits.shortened {text : List UInt8} (h : Valid text) (hroom : room ≤ 255)
    (hfits : before.length + 1 + room ≤ capacity)
    (hemitted : Emits memory output (some (before ++ countedText (longestPrefix text room))) n
      memory') : Shortened memory output before text room capacity n memory' := by
  obtain ⟨rfl, rfl⟩ := hemitted
  have hlongest := longestPrefix_isLongest h room
  have hpart := hlongest.fits
  refine ⟨?_, longestPrefix text room, UInt8.ofNat (longestPrefix text room).length, hlongest, ?_,
    ?_, rfl⟩
  · rw [List.length_append, countedText, List.length_cons]
    omega
  · exact UInt8.toNat_ofNat_of_lt' (Nat.lt_of_le_of_lt (hpart.trans hroom) (by decide))
  · rw [List.length_append, countedText, List.length_cons]
    omega

theorem makeListEntry_shortened {capacity : Nat} (hcapacity : 2 ≤ capacity)
    (hhigh : capacity ≤ 250) (hid : package.id.bytes.length ≤ capacity - 2) :
    makeListEntry package capacity = some (countedText package.id.bytes ++
      countedText (longestPrefix package.name.bytes (capacity - package.id.bytes.length - 2))) := by
  have hle := shorten_le package.name.bytes (capacity - package.id.bytes.length - 2)
  have hlength := shorten_le_length package.name.bytes (capacity - package.id.bytes.length - 2)
  rw [makeListEntry, if_neg (by omega), if_neg (by omega), Nat.min_eq_left (by omega),
    ← take_shorten, countedText, countedText, List.length_take, Nat.min_eq_left hlength]
  simp

theorem makeStringTlv_shortened {capacity : Nat} (hcapacity : 2 ≤ capacity)
    (hhigh : capacity ≤ 250) (type : UInt8) (text : CString) :
    makeStringTlv type text capacity =
      some ([type] ++ countedText (longestPrefix text.bytes (capacity - 2))) := by
  have hle := shorten_le text.bytes (capacity - 2)
  have hlength := shorten_le_length text.bytes (capacity - 2)
  rw [makeStringTlv, if_neg (by omega), Nat.min_eq_left (by omega), ← take_shorten, countedText,
    List.length_take, Nat.min_eq_left hlength]
  rfl

/-- The three functions that write a text shorten it as little as the room allows, and split no
character. -/
theorem texts_shortened_least (text : CString) (h : Valid text.bytes) (capacity : Nat)
    (hlow : 2 ≤ capacity) (hhigh : capacity ≤ 250) (memory : Memory) (output : Nat) :
    (∀ package : RetroVaultPackage, package.name = text →
      package.id.bytes.length ≤ capacity - 2 →
      Keeps output (output + capacity) (makeListEntryAt package output capacity)
        (Shortened memory output (countedText package.id.bytes) text.bytes
          (capacity - package.id.bytes.length - 2) capacity) memory) ∧
    (∀ type, Keeps output (output + capacity) (makeStringTlvAt type text output capacity)
      (Shortened memory output [type] text.bytes (capacity - 2) capacity) memory) ∧
    ∀ maximumSize ≤ 255,
      Keeps output (output + capacity) (appendCountedTextAt output capacity text maximumSize)
        (Shortened memory output [] text.bytes (min maximumSize (capacity - 1)) capacity)
        memory := by
  refine ⟨?_, ?_, ?_⟩
  · rintro package rfl hid
    refine (makeListEntryAt_emits memory package output capacity).mono ?_
    intro n memory' hemitted
    rw [makeListEntry_shortened hlow hhigh hid] at hemitted
    refine hemitted.shortened h (by omega) ?_
    rw [countedText, List.length_cons]
    omega
  · intro type
    refine (makeStringTlvAt_emits memory type text output capacity).mono ?_
    intro n memory' hemitted
    rw [makeStringTlv_shortened hlow hhigh] at hemitted
    refine hemitted.shortened h (by omega) ?_
    rw [List.length_singleton]
    omega
  · intro maximumSize hmaximum
    refine (appendCountedTextAt_emits memory output capacity text maximumSize).mono ?_
    intro n memory' hemitted
    rw [appendCountedText_counted (by omega), Nat.min_eq_left (b := 255) (by omega)] at hemitted
    have hfits : ([] : List UInt8).length + 1 + min maximumSize (capacity - 1) ≤ capacity := by
      rw [List.length_nil]
      omega
    exact Emits.shortened h (by omega) hfits hemitted

/-- The letter Ž, which takes two bytes, and an x. -/
def caronText : CString := ⟨[0xC5, 0xBD, 0x78], by decide⟩

theorem texts_shortened_least_caron : Valid caronText.bytes ∧
    Keeps 0 3 (makeStringTlvAt retroVaultInfoName caronText 0 3)
      (Shortened (fun _ => 0) 0 [retroVaultInfoName] caronText.bytes 1 3) (fun _ => 0) ∧
    Keeps 0 3 (appendCountedTextAt 0 3 caronText 255)
      (Shortened (fun _ => 0) 0 [] caronText.bytes 2 3) (fun _ => 0) := by
  have hvalid : Valid caronText.bytes := ⟨['Ž', 'x'], by decide⟩
  obtain ⟨-, htlv, hcounted⟩ :=
    texts_shortened_least caronText hvalid 3 (by decide) (by decide) (fun _ => 0) 0
  exact ⟨hvalid, htlv retroVaultInfoName, hcounted 255 (by decide)⟩

end

end SquidServer.RetroVault

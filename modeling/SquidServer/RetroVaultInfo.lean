import SquidServer.RetroVaultBrowse

namespace SquidServer.RetroVault
open Interaction CText Wire
set_option autoImplicit true

/-- A record of an INFO page: a type and a value behind its size. -/
structure InfoRecord where
  type : UInt8
  value : List UInt8
deriving DecidableEq

def InfoRecord.bytes (record : InfoRecord) : List UInt8 := record.type :: countedText record.value

/-- The value of the record for a download. -/
def downloadValue (download : RetroVaultDownload) : List UInt8 :=
  countedText (longestPrefix download.id.bytes 64) ++
    countedText (longestPrefix download.label.bytes 96) ++
    countedText (longestPrefix download.format.bytes 32) ++
    writeU32 download.aggregateSize ++ [download.fileCount]

/-- The record with a number: the nine metadata records, then one for each download. -/
def infoRecord (package : RetroVaultPackage) : Nat → Option InfoRecord
  | 0 => some ⟨retroVaultInfoId, longestPrefix package.id.bytes 247⟩
  | 1 => some ⟨retroVaultInfoName, longestPrefix package.name.bytes 247⟩
  | 2 => some ⟨retroVaultInfoVendor, longestPrefix package.vendor.bytes 247⟩
  | 3 => some ⟨retroVaultInfoPlatformId, longestPrefix package.platformId.bytes 247⟩
  | 4 => some ⟨retroVaultInfoPlatformName, longestPrefix package.platformName.bytes 247⟩
  | 5 => some ⟨retroVaultInfoVersion, longestPrefix package.version.bytes 247⟩
  | 6 => some ⟨retroVaultInfoYear, writeU16 package.releaseYear⟩
  | 7 => some ⟨retroVaultInfoRating, [package.rating]⟩
  | 8 => some ⟨retroVaultInfoDescription, longestPrefix package.description.bytes 247⟩
  | n + 9 => package.downloads[n]?.map fun download =>
      ⟨retroVaultInfoDownload, downloadValue download⟩

theorem makeStringTlv_eq (type : UInt8) (text : CString) : makeStringTlv type text 249 =
    some (InfoRecord.bytes ⟨type, longestPrefix text.bytes 247⟩) := by
  have hshorten := shorten_le text.bytes 247
  have hlength := shorten_le_length text.bytes 247
  rw [makeStringTlv, if_neg (by decide), show 249 - 2 = 247 from rfl]
  dsimp only
  rw [Nat.min_eq_left (by omega)]
  simp [InfoRecord.bytes, countedText, ← take_shorten, hlength]

theorem appendCountedText_counted (h : 1 ≤ outputCapacity) (text : CString) (maximumSize : Nat) :
    appendCountedText outputCapacity text maximumSize =
      some (countedText (longestPrefix text.bytes
        (min (min maximumSize (outputCapacity - 1)) 255))) := by
  rw [appendCountedText, if_neg (by omega), Nat.min_assoc, Nat.min_assoc, ← Nat.min_assoc
    maximumSize]
  have hle := stepBack_le text.bytes
    (min text.bytes.length (min (min maximumSize (outputCapacity - 1)) 255))
  have hlength := Nat.le_trans hle (Nat.min_le_left _ _)
  rw [countedText, ← take_stepBack_min, List.length_take, Nat.min_eq_left hlength]

theorem appendCountedText_eq (text : CString) (h : maximumSize < outputCapacity)
    (hbyte : maximumSize ≤ 255) : appendCountedText outputCapacity text maximumSize =
      some (countedText (longestPrefix text.bytes maximumSize)) := by
  have hlimit : min (min maximumSize (outputCapacity - 1)) 255 = maximumSize := by omega
  rw [appendCountedText_counted (by omega), hlimit]

theorem length_downloadValue_le (download : RetroVaultDownload) :
    (downloadValue download).length ≤ 200 := by
  have hid := length_longestPrefix_le download.id.bytes 64
  have hlabel := length_longestPrefix_le download.label.bytes 96
  have hformat := length_longestPrefix_le download.format.bytes 32
  simp only [downloadValue, countedText, writeU32, List.length_append, List.length_cons,
    List.length_nil]
  omega

theorem makeDownloadTlv_eq (download : RetroVaultDownload) : makeDownloadTlv download 249 =
    some (InfoRecord.bytes ⟨retroVaultInfoDownload, downloadValue download⟩) := by
  have hid := length_longestPrefix_le download.id.bytes 64
  have hlabel := length_longestPrefix_le download.label.bytes 96
  rw [makeDownloadTlv, if_neg (by decide), appendCountedText_eq _ (by decide) (by decide)]
  simp only [Option.bind_eq_bind, Option.bind_some]
  rw [appendCountedText_eq _ (by simp only [countedText, List.length_cons]; omega) (by decide)]
  simp only [Option.bind_some]
  rw [appendCountedText_eq _ (by simp only [countedText, List.length_cons]; omega) (by decide)]
  rfl

theorem makeInfoRecord_eq (package : RetroVaultPackage) (cursor : UInt16) :
    makeInfoRecord package cursor 249 =
      (infoRecord package cursor.toNat).map InfoRecord.bytes := by
  rw [makeInfoRecord]
  generalize cursor.toNat = n
  split
  all_goals first
    | exact makeStringTlv_eq _ _
    | rfl
    | skip
  rename_i n
  cases hdownload : package.downloads[n]? with
  | none => simp [infoRecord, hdownload]
  | some download => simp [infoRecord, hdownload, makeDownloadTlv_eq]

theorem infoRecord_size (h : infoRecord package n = some record) : record.value.length ≤ 247 := by
  rw [infoRecord.eq_def] at h
  split at h
  all_goals first
    | (cases h; exact length_longestPrefix_le _ _)
    | (cases h; simp [writeU16])
    | skip
  · obtain ⟨download, -, rfl⟩ := Option.map_eq_some_iff.1 h
    exact (length_downloadValue_le download).trans (by decide)

theorem infoRecord_exists {package : RetroVaultPackage} (h : n < 9 + package.downloads.length) :
    ∃ record, infoRecord package n = some record := by
  rw [infoRecord.eq_def]
  split
  all_goals first
    | exact ⟨_, rfl⟩
    | skip
  rename_i n
  rw [List.getElem?_eq_getElem (by omega)]
  exact ⟨_, rfl⟩

theorem infoRecord_download (h : infoRecord package n = some record)
    (htype : record.type = retroVaultInfoDownload) :
    ∃ j download, n = j + 9 ∧ package.downloads[j]? = some download ∧
      record.value = downloadValue download := by
  rw [infoRecord.eq_def] at h
  split at h
  all_goals first
    | (cases h; cases htype)
    | skip
  rename_i j
  obtain ⟨download, hdownload, rfl⟩ := Option.map_eq_some_iff.1 h
  exact ⟨j, download, rfl, hdownload, rfl⟩

/-- The page that holds the given records, the first of which has number `cursor`. The numbers
are those of a 16-bit counter. -/
structure InfoHolds (package : RetroVaultPackage) (cursor : UInt16) (records : List InfoRecord)
    (page : Page) : Prop where
  index : page.index = cursor + UInt16.ofNat records.length
  count : page.count.toNat = records.length
  bytes : page.records = records.flatMap InfoRecord.bytes
  room : page.records.length ≤ 250
  numbers : ∀ (k : Nat) (record : InfoRecord), records[k]? = some record →
    infoRecord package (cursor + UInt16.ofNat k).toNat = some record

theorem InfoRecord.length_bytes (record : InfoRecord) :
    record.bytes.length = record.value.length + 2 := rfl

section
variable {package : RetroVaultPackage} {cursor : UInt16} {records : List InfoRecord} {page : Page}
  {record : InfoRecord}

theorem InfoHolds.count_le (h : InfoHolds package cursor records page) :
    2 * records.length ≤ 250 := by
  have hall : ∀ rs : List InfoRecord, 2 * rs.length ≤ (rs.flatMap InfoRecord.bytes).length := by
    intro rs
    induction rs with
    | nil => simp
    | cons r rs ih =>
      simp only [List.flatMap_cons, List.length_append, List.length_cons, InfoRecord.length_bytes]
      omega
  have := hall records
  rw [← h.bytes] at this
  exact this.trans h.room

theorem InfoHolds.push (h : InfoHolds package cursor records page)
    (hrecord : infoRecord package page.index.toNat = some record)
    (hroom : page.records.length + record.bytes.length ≤ 250) :
    InfoHolds package cursor (records ++ [record]) (page.push record.bytes) := by
  have hcount := h.count_le
  refine ⟨?_, ?_, ?_, ?_, ?_⟩
  · rw [Page.push, h.index, List.length_append, UInt16.ofNat_add, ← UInt16.add_assoc]
    rfl
  · rw [Page.push, u8_toNat_succ (by rw [h.count]; omega), h.count, List.length_append]
    rfl
  · rw [Page.push, h.bytes, List.flatMap_append, List.flatMap_singleton]
  · rw [Page.push, List.length_append]
    exact hroom
  · intro k r hk
    by_cases hlt : k < records.length
    · rw [List.getElem?_append_left hlt] at hk
      exact h.numbers k r hk
    · rw [List.getElem?_append_right (Nat.le_of_not_lt hlt)] at hk
      have hk0 : k - records.length = 0 := by
        by_contra hne
        rw [List.getElem?_eq_none (by rw [List.length_singleton]; omega)] at hk
        cases hk
      rw [hk0] at hk
      cases hk
      rw [show k = records.length by omega, ← h.index]
      exact hrecord

theorem InfoHolds.room_eq (h : InfoHolds package cursor records page) :
    page.room 255 = 250 - page.records.length := by
  have hroom := h.room
  rw [Page.room, show retroVaultPageHeaderSize = 5 from rfl]
  omega

theorem InfoHolds.nonempty (h : InfoHolds package cursor records page)
    (hrecord : infoRecord package n = some record)
    (hfull : page.room 255 < record.bytes.length) : records ≠ [] ∧ page.count ≠ 0 := by
  have hne : records ≠ [] := by
    intro he
    have hsize := infoRecord_size hrecord
    have hempty := h.bytes
    rw [he, List.flatMap_nil] at hempty
    rw [h.room_eq, hempty, List.length_nil, InfoRecord.length_bytes] at hfull
    omega
  refine ⟨hne, ?_⟩
  intro hzero
  apply hne
  rw [← List.length_eq_zero_iff, ← h.count, hzero]
  rfl

/-- Where the loop stops: behind the last record, or before one for which there is no room. -/
def InfoStops (package : RetroVaultPackage) (next : UInt16) (records : List InfoRecord)
    (page : Page) : Prop :=
  next = retroVaultCursorEnd ∧ 9 + package.downloads.length ≤ page.index.toNat ∨
    next = page.index ∧ page.index.toNat < 9 + package.downloads.length ∧ records ≠ []

theorem infoPage_stop (h : InfoHolds package cursor records page)
    (hfuel : 250 - page.records.length < fuel) :
    ∃ next page' records', infoPage package 255 fuel page = .ok (next, page') ∧
      InfoHolds package cursor records' page' ∧ InfoStops package next records' page' := by
  induction fuel generalizing records page with
  | zero => exact absurd hfuel (Nat.not_lt_zero _)
  | succ n ih =>
    rw [infoPage]
    split
    · rename_i hend
      exact ⟨_, page, records, rfl, h, .inl ⟨rfl, hend⟩⟩
    · rename_i hlt
      obtain ⟨record, hrecord⟩ := infoRecord_exists (Nat.lt_of_not_le hlt)
      have hroom := h.room_eq
      have hlength := record.length_bytes
      rw [makeInfoRecord_eq, hrecord]
      dsimp only [Option.map_some]
      split
      · rename_i hfull
        obtain ⟨hne, hcount⟩ := h.nonempty hrecord hfull
        rw [if_neg hcount]
        exact ⟨_, page, records, rfl, h, .inr ⟨rfl, Nat.lt_of_not_le hlt, hne⟩⟩
      · rename_i hfits
        have hpush := h.push hrecord (by omega)
        apply ih hpush
        rw [Page.push, List.length_append]
        omega

end

theorem infoHolds_start (package : RetroVaultPackage) (cursor : UInt16) :
    InfoHolds package cursor [] ⟨cursor, 0, []⟩ := ⟨by simp, rfl, rfl, by simp, by simp⟩

theorem infoPage_start (package : RetroVaultPackage) (cursor : UInt16) :
    ∃ next page records, infoPage package 255 (255 + 1) ⟨cursor, 0, []⟩ = .ok (next, page) ∧
      InfoHolds package cursor records page ∧ InfoStops package next records page :=
  infoPage_stop (infoHolds_start package cursor) (show 250 - 0 < 255 + 1 by decide)

/-- The records of a page, as its count byte announces them. -/
def readRecords : Nat → List UInt8 → Option (List InfoRecord)
  | 0, bytes => if bytes = [] then some [] else none
  | _ + 1, [] => none
  | n + 1, type :: bytes => do
    let (value, bytes) ← readCounted bytes
    return ⟨type, value⟩ :: (← readRecords n bytes)

theorem readRecords_bytes (records : List InfoRecord) (h : ∀ r ∈ records, r.value.length < 256) :
    readRecords records.length (records.flatMap InfoRecord.bytes) = some records := by
  induction records with
  | nil => rfl
  | cons r records ih =>
    rw [List.flatMap_cons, InfoRecord.bytes, List.cons_append, List.length_cons, readRecords,
      readCounted_countedText (h r List.mem_cons_self)]
    simp only [Option.bind_eq_bind, Option.bind_some]
    rw [ih fun r' hr' => h r' (List.mem_cons_of_mem r hr')]
    rfl

/-- The records of an INFO reply that is a page. -/
def readInfoPage (response : Response) : Option (List InfoRecord) := do
  let (_, count, records) ← readPage retroVaultOpInfo response
  readRecords count.toNat records

/-- The records of a page are those that follow its cursor. -/
theorem readInfoPage_writeInfoPage
    (h : readInfoPage (writeInfoPage retroVaultOpInfo package cursor 255) = some records) :
    ∀ (k : Nat) (record : InfoRecord), records[k]? = some record →
      infoRecord package (cursor + UInt16.ofNat k).toNat = some record := by
  rw [writeInfoPage] at h
  split at h
  · cases h
  · obtain ⟨next, page, records', hrun, hholds, -⟩ := infoPage_start package cursor
    rw [hrun, answerPage, readInfoPage, readPage_pageResponse, Option.bind_eq_bind,
      Option.bind_some] at h
    dsimp only at h
    have hread := readRecords_bytes records' (by
      intro r hr
      obtain ⟨k, hk⟩ := List.mem_iff_getElem?.1 hr
      exact Nat.lt_of_le_of_lt (infoRecord_size (hholds.numbers k r hk)) (by decide))
    rw [← hholds.count, ← hholds.bytes] at hread
    cases hread.symm.trans h
    exact hholds.numbers

end SquidServer.RetroVault

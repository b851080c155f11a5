import SquidServer.RetroVaultCoherence

namespace SquidServer.RetroVault
open Interaction CText Wire
set_option autoImplicit true

variable {id : List UInt8}

/-- The records of a package in the order of the protocol: nine records of metadata, then one for
each download. -/
def infoRecords (package : RetroVaultPackage) : List InfoRecord :=
  [⟨retroVaultInfoId, longestPrefix package.id.bytes 247⟩,
    ⟨retroVaultInfoName, longestPrefix package.name.bytes 247⟩,
    ⟨retroVaultInfoVendor, longestPrefix package.vendor.bytes 247⟩,
    ⟨retroVaultInfoPlatformId, longestPrefix package.platformId.bytes 247⟩,
    ⟨retroVaultInfoPlatformName, longestPrefix package.platformName.bytes 247⟩,
    ⟨retroVaultInfoVersion, longestPrefix package.version.bytes 247⟩,
    ⟨retroVaultInfoYear, writeU16 package.releaseYear⟩,
    ⟨retroVaultInfoRating, [package.rating]⟩,
    ⟨retroVaultInfoDescription, longestPrefix package.description.bytes 247⟩] ++
  package.downloads.map fun download => ⟨retroVaultInfoDownload, downloadValue download⟩

theorem length_infoRecords (package : RetroVaultPackage) :
    (infoRecords package).length = 9 + package.downloads.length := by
  simp only [infoRecords, List.length_append, List.length_map, List.length_cons, List.length_nil]

theorem infoRecord_eq_getElem? (package : RetroVaultPackage) (n : Nat) :
    infoRecord package n = (infoRecords package)[n]? := by
  rw [infoRecord.eq_def]
  split
  all_goals first
    | rfl
    | skip
  rename_i n
  rw [infoRecords, List.getElem?_append_right (by simp), List.getElem?_map]
  rfl

/-- What the record of a download says. -/
structure DownloadRecord where
  id : List UInt8
  label : List UInt8
  format : List UInt8
  aggregateSize : UInt32
  fileCount : UInt8
deriving DecidableEq

/-- Read the value of a DOWNLOAD record by its own size bytes. -/
def readDownloadValue (value : List UInt8) : Option DownloadRecord := do
  let (id, value) ← readCounted value
  let (label, value) ← readCounted value
  let (format, value) ← readCounted value
  if value.length = 5 then some ⟨id, label, format, readU32 value 0, byteAt value 4⟩ else none

def downloadRecord (download : RetroVaultDownload) : DownloadRecord where
  id := longestPrefix download.id.bytes 64
  label := longestPrefix download.label.bytes 96
  format := longestPrefix download.format.bytes 32
  aggregateSize := download.aggregateSize
  fileCount := download.fileCount

theorem readDownloadValue_downloadValue (download : RetroVaultDownload) :
    readDownloadValue (downloadValue download) = some (downloadRecord download) := by
  have hid := length_longestPrefix_le download.id.bytes 64
  have hlabel := length_longestPrefix_le download.label.bytes 96
  have hformat := length_longestPrefix_le download.format.bytes 32
  have hsize : readU32 (writeU32 download.aggregateSize ++ [download.fileCount]) 0 =
      download.aggregateSize := by
    have := readU32_writeU32 [] download.aggregateSize [download.fileCount]
    rw [List.nil_append] at this
    exact this
  rw [readDownloadValue, downloadValue, List.append_assoc, List.append_assoc, List.append_assoc,
    readCounted_countedText (by omega)]
  simp only [Option.bind_eq_bind, Option.bind_some]
  rw [readCounted_countedText (by omega)]
  simp only [Option.bind_some]
  rw [readCounted_countedText (by omega)]
  simp only [Option.bind_some]
  rw [hsize]
  rfl

/-- The next cursor and the records of an INFO reply that is a page. -/
def readInfoAnswer (response : Response) : Option (Paging.Answer InfoRecord) := do
  let (nextCursor, count, records) ← readPage retroVaultOpInfo response
  return {
    entries := ← readRecords count.toNat records
    next := if nextCursor = retroVaultCursorEnd then none else some nextCursor.toNat }

section
variable {package : RetroVaultPackage} {cursor : UInt16} {records : List InfoRecord} {page : Page}

theorem InfoHolds.size (h : InfoHolds package cursor records page) :
    ∀ r ∈ records, r.value.length < 256 := by
  intro r hr
  obtain ⟨k, hk⟩ := List.mem_iff_getElem?.1 hr
  exact Nat.lt_of_le_of_lt (infoRecord_size (h.numbers k r hk)) (by decide)

theorem readInfoAnswer_pageResponse (h : InfoHolds package cursor records page)
    (nextCursor : UInt16) :
    readInfoAnswer (some (pageResponse retroVaultOpInfo nextCursor page)) =
      some ⟨records, if nextCursor = retroVaultCursorEnd then none else some nextCursor.toNat⟩ := by
  have hread := readRecords_bytes records h.size
  rw [← h.count, ← h.bytes] at hread
  rw [readInfoAnswer, readPage_pageResponse, Option.bind_eq_bind, Option.bind_some]
  dsimp only
  rw [hread]
  rfl

/-- With the highest cursor out of reach, the numbers on a page are those behind its cursor. -/
theorem InfoHolds.number (h : InfoHolds package cursor records page)
    (hsize : package.downloads.length ≤ 65526) (hk : k ≤ records.length) :
    (cursor + UInt16.ofNat k).toNat = cursor.toNat + k := by
  induction k with
  | zero => simp
  | succ k ih =>
    have hnumber := h.numbers k records[k] (List.getElem?_eq_getElem hk)
    rw [infoRecord_eq_getElem?] at hnumber
    have hlt := (List.getElem?_eq_some_iff.1 hnumber).1
    rw [length_infoRecords] at hlt
    have ih := ih (Nat.le_of_succ_le hk)
    rw [UInt16.ofNat_add, ← UInt16.add_assoc, show UInt16.ofNat 1 = 1 from rfl,
      u16_toNat_succ (by omega), ih, Nat.add_assoc]

theorem InfoHolds.records_eq (h : InfoHolds package cursor records page)
    (hsize : package.downloads.length ≤ 65526) :
    records = ((infoRecords package).drop cursor.toNat).take records.length := by
  apply List.ext_getElem?
  intro k
  by_cases hk : k < records.length
  · have hnumber := h.numbers k records[k] (List.getElem?_eq_getElem hk)
    rw [h.number hsize (Nat.le_of_lt hk), infoRecord_eq_getElem?] at hnumber
    rw [List.getElem?_take_of_lt hk, List.getElem?_drop, hnumber, List.getElem?_eq_getElem hk]
  · rw [List.getElem?_eq_none (Nat.le_of_not_lt hk), List.getElem?_eq_none]
    rw [List.length_take]
    omega

theorem writeInfoPage_pageOf (cursor : UInt16) (hsize : package.downloads.length ≤ 65526)
    (hcursor : cursor.toNat ≤ 9 + package.downloads.length) :
    ∃ answer, readInfoAnswer (writeInfoPage retroVaultOpInfo package cursor 255) = some answer ∧
      Paging.PageOf ((infoRecords package).map ([·])) cursor.toNat answer := by
  obtain ⟨next, page, records, hrun, hholds, hstop⟩ := infoPage_start package cursor
  have hindex := hholds.number hsize (Nat.le_refl _)
  rw [← hholds.index] at hindex
  have hrecords := hholds.records_eq hsize
  have hsingles : ∀ rs : List InfoRecord, (rs.map ([·])).flatten = rs := by
    intro rs
    rw [← List.flatMap_def, List.flatMap_singleton']
  rw [writeInfoPage, if_neg (not_or.2 ⟨by decide, Nat.not_lt.2 hcursor⟩), hrun]
  refine ⟨_, readInfoAnswer_pageResponse hholds next, ?_⟩
  rw [Paging.PageOf]
  rcases hstop with ⟨rfl, hend⟩ | ⟨rfl, hlt, hne⟩
  · rw [if_pos rfl]
    dsimp only
    rw [← List.map_drop, hsingles, hrecords]
    apply List.take_of_length_le
    rw [List.length_drop, length_infoRecords]
    omega
  · have hpos := List.length_pos_iff.2 hne
    have hmore : page.index ≠ retroVaultCursorEnd := by
      intro he
      rw [he] at hlt
      exact absurd hlt (Nat.not_lt.2 (show 9 + package.downloads.length ≤ 65535 by omega))
    rw [if_neg hmore]
    dsimp only
    refine ⟨by omega, by rw [List.length_map, length_infoRecords]; exact hlt, ?_⟩
    rw [← List.map_drop, ← List.map_take, hsingles, hindex, Nat.add_sub_cancel_left]
    exact hrecords

end

/-- Ask for the INFO page at a cursor, and read the reply. -/
def infoBrowse (id : List UInt8) (context : RetroVaultContext) (cursor : Nat) :
    Program Services (Option (Paging.Answer InfoRecord) × RetroVaultContext) := do
  let (reply, context) ← handleRetroVaultRequest context (infoRequest (UInt16.ofNat cursor) id) 255
  return (readInfoAnswer reply, context)

/-- The id of a request is that of the package, and fits a packet. -/
structure InfoFinds (context : RetroVaultContext) (id : List UInt8) (package : RetroVaultPackage) :
    Prop where
  found : (findPackage context.packages id).bind (context.packages[·]?) = some package
  nonempty : id ≠ []
  size : id.length ≤ 251

theorem InfoFinds.reply (h : InfoFinds context id package) (cursor : UInt16) :
    Ensures (obeying (StaysCached context))
      (handleRetroVaultRequest context (infoRequest cursor id) 255)
      (fun r _ => r = (writeInfoPage retroVaultOpInfo package cursor 255, context)) () := by
  refine (handleRetroVaultRequest_info context cursor h.nonempty h.size).mono ?_
  intro r _ hr
  rw [hr, infoReply, h.found]

/-- INFO page by page gives the nine metadata records and one record for each download, each once
and in order; the record of a download can be read by its own size bytes; and the cursors up to
the end of the records are the ones that are accepted. -/
theorem info_traversal (context : RetroVaultContext) (h : InfoFinds context id package)
    (hsize : package.downloads.length ≤ 65526) (hfuel : 9 + package.downloads.length < fuel) :
    Ensures (obeying (StaysCached context)) (Paging.traverse (infoBrowse id) fuel context)
      (fun r _ => r = some (some (infoRecords package))) () ∧
    (∀ download, readDownloadValue (downloadValue download) = some (downloadRecord download)) ∧
    ∀ cursor : UInt16, Ensures (obeying (StaysCached context))
      (handleRetroVaultRequest context (infoRequest cursor id) 255)
      (fun r _ => (cursor.toNat ≤ 9 + package.downloads.length →
          ∃ answer, readInfoAnswer r.1 = some answer) ∧
        (9 + package.downloads.length < cursor.toNat →
          r.1 = some
            [retroVaultOpInfo ||| retroVaultResponseBit, RetroVaultStatus.badRequest.code]))
      () := by
  refine ⟨?_, readDownloadValue_downloadValue, ?_⟩
  · have hitems : infoRecords package = ((infoRecords package).map ([·])).flatten := by
      rw [← List.flatMap_def, List.flatMap_singleton']
    rw [hitems]
    refine Paging.traverse_ensures (fun c _ => c = context) ?_ rfl
      (by rw [List.length_map, length_infoRecords]; exact hfuel)
    intro c _ cursor hc hcursor
    subst hc
    rw [List.length_map, length_infoRecords] at hcursor
    have hnat : (UInt16.ofNat cursor).toNat = cursor :=
      UInt16.toNat_ofNat_of_lt' (show cursor < 65536 by omega)
    refine ensures_bind.2 ((h.reply (UInt16.ofNat cursor)).mono ?_)
    intro r _ hr
    rw [hr]
    have hpage := writeInfoPage_pageOf (UInt16.ofNat cursor) hsize (by omega)
    rw [hnat] at hpage
    exact ensures_pure.2 ⟨rfl, hpage⟩
  · intro cursor
    refine (h.reply cursor).mono ?_
    intro r _ hr
    rw [hr]
    refine ⟨?_, ?_⟩
    · intro hcursor
      obtain ⟨answer, hread, -⟩ := writeInfoPage_pageOf cursor hsize hcursor
      exact ⟨answer, hread⟩
    · intro hcursor
      rw [writeInfoPage, if_pos (.inr hcursor)]
      rfl

/-- The records of a game on a tape. -/
theorem info_traversal_tape :
    let package := samplePackage "pong" "Pong" "idp" [sampleDownload "tape"]
    ∃ r, Exec (obeying (StaysCached (contextOf [package]))) ()
        (Paging.traverse (infoBrowse (ascii "PONG")) 11 (contextOf [package])) () r ∧
      r = some (some (infoRecords package)) := by
  intro package
  obtain ⟨_, r, he⟩ := exists_exec (obeying_answers (staysCached_answers (List.cons_ne_nil _ _)))
    (Paging.traverse (infoBrowse (ascii "PONG")) 11 (contextOf [package])) ()
  have hfinds : InfoFinds (contextOf [package]) (ascii "PONG") package :=
    ⟨by decide, by decide, by decide⟩
  exact ⟨r, he, (info_traversal (contextOf [package]) hfinds (by decide) (by decide)).1 _ _ he⟩

end SquidServer.RetroVault

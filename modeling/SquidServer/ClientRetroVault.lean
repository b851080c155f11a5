import SquidServer.ClientCalls
import SquidServer.RetroVaultTraversal
import SquidServer.RetroVaultDownloads

namespace SquidServer.RetroVault
open Interaction Wire CText
open Client (Answers)
set_option autoImplicit true

theorem RetroVaultStatus.code_ne_zero {status : RetroVaultStatus} (h : status ≠ .ok) :
    status.code ≠ 0 := by
  cases status <;> first | exact absurd rfl h | decide

section
variable {ok : List UInt8 → Prop}

theorem answers_error (opcode : UInt8) (h : status ≠ .ok) :
    Answers opcode ok (writeErrorResponse opcode status 255) := by
  intro reply hreply
  cases hreply
  exact .inl ⟨status.code, status.code_ne_zero h, rfl⟩

theorem answers_reply (h : ok reply) (opcode : UInt8) : Answers opcode ok (some reply) := by
  intro reply' hreply
  cases hreply
  exact .inr h

end

/-- A page of whole records. -/
structure Holds (bytes : ρ → List UInt8) (records : List ρ) (page : Page) : Prop where
  count : page.count.toNat = records.length
  bytes : page.records = records.flatMap bytes
  room : page.records.length ≤ 250

theorem makeListEntry_entry (h : makeListEntry package 249 = some bytes) :
    ∃ entry : CatalogEntry, bytes = entry.bytes ∧ entry.id.length < 256 ∧ entry.name.length < 256 ∧
      2 ≤ bytes.length ∧ bytes.length ≤ 249 := by
  rw [makeListEntry_eq] at h
  obtain ⟨entry, hentry, rfl⟩ := Option.map_eq_some_iff.1 h
  obtain ⟨hid, hname, hmin, hmax⟩ := listedEntries_size (List.mem_of_mem_head? hentry)
  exact ⟨entry, rfl, hid, hname, hmin, hmax⟩

/-- The sizes of an entry fit their bytes. -/
def EntryFits (entry : CatalogEntry) : Prop := entry.id.length < 256 ∧ entry.name.length < 256

theorem Holds.count_le {entries : List CatalogEntry}
    (h : Holds CatalogEntry.bytes entries page) : 2 * entries.length ≤ 250 := by
  have hall : ∀ es : List CatalogEntry, 2 * es.length ≤ (es.flatMap CatalogEntry.bytes).length := by
    intro es
    induction es with
    | nil => simp
    | cons e es ih =>
      simp only [List.flatMap_cons, List.length_append, List.length_cons, CatalogEntry.bytes,
        countedText]
      omega
  have := hall entries
  rw [← h.bytes] at this
  exact this.trans h.room

/-- The end of `write_catalog_page`: a page of whole entries, or no OK. -/
def EndsWithEntries (result : Except RetroVaultStatus (UInt16 × Page)) : Prop :=
  match result with
  | .error status => status ≠ .ok
  | .ok (_, page) =>
    ∃ entries, Holds CatalogEntry.bytes entries page ∧ ∀ e ∈ entries, EntryFits e

/-- The loop of `write_catalog_page` keeps a page of whole entries. -/
theorem catalogPage_holds (filter : CatalogFilter) (cursor : UInt16)
    (packages : List RetroVaultPackage) {page : Page} {entries : List CatalogEntry}
    (h : Holds CatalogEntry.bytes entries page) (hentries : ∀ e ∈ entries, EntryFits e) :
    EndsWithEntries (catalogPage filter cursor 255 packages page) := by
  induction packages generalizing page entries with
  | nil => exact ⟨entries, h, hentries⟩
  | cons package packages ih =>
    have hskip : Holds CatalogEntry.bytes entries page.skip := ⟨h.count, h.bytes, h.room⟩
    rw [catalogPage]
    split
    · exact ih h hentries
    · split
      · exact ih hskip hentries
      · split
        · exact ih hskip hentries
        · rename_i bytes hbytes
          obtain ⟨entry, rfl, hid, hname, hmin, hmax⟩ := makeListEntry_entry hbytes
          have hroom : page.room 255 = 250 - page.records.length := by
            rw [Page.room, show retroVaultPageHeaderSize = 5 from rfl]
            omega
          have hbound := h.room
          split
          · rename_i hfull
            have hcount : page.count ≠ 0 := by
              intro hzero
              have hnone : entries = [] := by
                rw [← List.length_eq_zero_iff, ← h.count, hzero]
                rfl
              have hempty : page.records = [] := by
                rw [h.bytes, hnone]
                rfl
              rw [hroom, hempty, List.length_nil] at hfull
              omega
            rw [if_neg hcount]
            exact ⟨entries, h, hentries⟩
          · rename_i hfits
            rw [hroom] at hfits
            have hle := h.count_le
            have hpush : Holds CatalogEntry.bytes (entries ++ [entry]) (page.push entry.bytes) := by
              refine ⟨?_, ?_, ?_⟩
              · rw [Page.push, u8_toNat_succ (by rw [h.count]; omega), h.count, List.length_append]
                rfl
              · rw [Page.push, h.bytes, List.flatMap_append, List.flatMap_singleton]
              · rw [Page.push, List.length_append]
                omega
            refine ih hpush ?_
            intro e he
            rcases List.mem_append.1 he with he | he
            · exact hentries e he
            · rw [List.mem_singleton.1 he]
              exact ⟨hid, hname⟩

/-- An OK reply to LIST or SEARCH. -/
def CatalogReply (opcode : UInt8) (reply : List UInt8) : Prop :=
  ∃ nextCursor page entries, reply = pageResponse opcode nextCursor page ∧
    Holds CatalogEntry.bytes entries page ∧ ∀ e ∈ entries, EntryFits e

/-- An OK reply to INFO. -/
def InfoReply (opcode : UInt8) (reply : List UInt8) : Prop :=
  ∃ nextCursor page records, reply = pageResponse opcode nextCursor page ∧
    Holds InfoRecord.bytes records page ∧ ∀ r ∈ records, r.value.length < 256

/-- An OK reply to DOWNLOAD. -/
def DownloadReply (opcode : UInt8) (offset : UInt32) (reply : List UInt8) : Prop :=
  ∃ totalSize data, reply = downloadResponse opcode offset totalSize data ∧
    totalSize ≤ 0xFFFFFFFF ∧ data.length ≤ 244

theorem writeCatalogPage_answers (context : RetroVaultContext) (opcode : UInt8) (cursor : UInt16)
    (filter : CatalogFilter) :
    Answers opcode (CatalogReply opcode) (writeCatalogPage context opcode cursor filter 255) := by
  have hstart : Holds CatalogEntry.bytes [] ⟨0, 0, []⟩ := ⟨rfl, rfl, by simp⟩
  have hpage := catalogPage_holds filter cursor context.packages hstart (by simp)
  rw [writeCatalogPage, if_neg (by decide)]
  cases hrun : catalogPage filter cursor 255 context.packages ⟨0, 0, []⟩ with
  | error status =>
    rw [hrun] at hpage
    exact answers_error opcode hpage
  | ok result =>
    obtain ⟨nextCursor, page⟩ := result
    rw [hrun] at hpage
    obtain ⟨entries, hholds, hentries⟩ := hpage
    exact answers_reply ⟨nextCursor, page, entries, rfl, hholds, hentries⟩ opcode

theorem writeInfoPage_answers (opcode : UInt8) (package : RetroVaultPackage) (cursor : UInt16) :
    Answers opcode (InfoReply opcode) (writeInfoPage opcode package cursor 255) := by
  rw [writeInfoPage]
  split
  · exact answers_error opcode (by decide)
  · obtain ⟨nextCursor, page, records, hrun, hholds, -⟩ := infoPage_start package cursor
    rw [hrun]
    refine answers_reply ⟨nextCursor, page, records, rfl, ⟨hholds.count, hholds.bytes,
      hholds.room⟩, ?_⟩ opcode
    exact hholds.size

theorem answerDownload_answers (opcode : UInt8) (fields : DownloadRequest) (data : List UInt8) :
    Answers opcode (DownloadReply opcode fields.offset)
      (answerDownload opcode fields data 255) := by
  rw [answerDownload]
  split
  · exact answers_error opcode (by decide)
  · split
    · exact answers_error opcode (by decide)
    · rename_i hlimit _
      refine answers_reply ⟨_, _, rfl, Nat.not_lt.1 hlimit, ?_⟩ opcode
      have hsize : chunkSize fields.maximumBytes.toNat
          (data.drop fields.offset.toNat).length ≤ 244 := Nat.min_le_left _ _
      rw [downloadDataSize_eq, List.length_take]
      omega

section
variable {H : Environment Services σ} {s : σ}

theorem handleListOrSearch_answers (context : RetroVaultContext) (opcode : UInt8)
    (request : List UInt8) :
    Ensures H (handleListOrSearch context opcode request 255)
      (fun r _ => Answers opcode (CatalogReply opcode) r.1) s := by
  rw [handleListOrSearch]
  split
  · exact ensures_pure.2 (answers_error opcode (by decide))
  · refine ensures_bind_any fun r s => ?_
    split
    split
    · rename_i hstatus
      exact ensures_pure.2 (answers_error opcode hstatus)
    · exact ensures_pure.2 (writeCatalogPage_answers _ opcode _ _)

theorem handleInfo_answers (context : RetroVaultContext) (opcode : UInt8) (request : List UInt8) :
    Ensures H (handleInfo context opcode request 255)
      (fun r _ => Answers opcode (InfoReply opcode) r.1) s := by
  rw [handleInfo]
  split
  · exact ensures_pure.2 (answers_error opcode (by decide))
  · refine ensures_bind_any fun r s => ?_
    split
    split
    · rename_i hstatus
      exact ensures_pure.2 (answers_error opcode hstatus)
    · split
      · exact ensures_pure.2 (answers_error opcode (by decide))
      · exact ensures_pure.2 (writeInfoPage_answers opcode _ _)

theorem handleDownload_answers (context : RetroVaultContext) (opcode : UInt8)
    (request : List UInt8) :
    Ensures H (handleDownload context opcode request 255)
      (fun r _ => Answers opcode
        (fun reply => ∃ fields, parseDownloadRequest request = some fields ∧
          DownloadReply opcode fields.offset reply) r.1) s := by
  rw [handleDownload, if_neg (by decide)]
  split
  · exact ensures_pure.2 (answers_error opcode (by decide))
  · rename_i fields hparse
    refine ensures_bind_any fun r s => ?_
    split
    split
    · rename_i hstatus
      exact ensures_pure.2 (answers_error opcode hstatus)
    · refine ensures_pure.2 ?_
      intro reply hreply
      refine (answerDownload_answers opcode fields _ reply hreply).imp id ?_
      intro hok
      exact ⟨fields, hparse, hok⟩

end

/-- The replies that the server may give to a request, with a response buffer of 255 bytes. The
clock and the web server answer what they will. -/
def RepliesTo (context : RetroVaultContext) (request reply : List UInt8) : Prop :=
  ∃ context', Exec (obeying fun _ => True) () (handleRetroVaultRequest context request 255) ()
    (some reply, context')

theorem RepliesTo.answer {ok : List UInt8 → Prop} (h : RepliesTo context request reply)
    (handle : List UInt8 → Program Services (Response × RetroVaultContext))
    (hdispatch : handleRetroVaultRequest context request 255 = handle request)
    (hanswers : Ensures (obeying fun _ => True) (handle request)
      (fun r _ => Answers opcode ok r.1) ()) :
    (∃ status : UInt8, status ≠ 0 ∧ reply = [opcode ||| 0x80, status]) ∨ ok reply := by
  obtain ⟨context', hexec⟩ := h
  rw [hdispatch] at hexec
  exact hanswers _ _ hexec reply rfl

end SquidServer.RetroVault

namespace SquidServer.Client
open Interaction Framing Wire CText RetroVault
set_option autoImplicit true

def retroTextSize (text : Option CString) : Int := squidClientTextSize text 255

/-- The model at the end of a request; an empty one is left out. -/
def modelField (model : Option CString) : List UInt8 :=
  if 0 < retroTextSize model then countedText (textBytes model) else []

/-- `struct squid_client_retro_list`; `next` holds the bytes between its two pointers. -/
structure SquidClientRetroList where
  nextCursor : UInt16
  entriesLeft : UInt8
  next : List UInt8
deriving DecidableEq

/-- What `retro_page_response` makes of a response. -/
def retroPageResponse (response : List UInt8) : Option SquidClientRetroList :=
  some {
    nextCursor := squidClientReadU16 response 2
    entriesLeft := byteAt response 4
    next := response.drop 5 }

/-- `squid_client_retro_list`; `page` says whether the pointer for the result is not NULL. -/
def squidClientRetroList (fuel : Nat) (client : Option SquidClient)
    (platform model : Option CString) (cursor : UInt16) (page : Bool) :
    Program ClientLib (Option (Returned SquidClientRetroList)) :=
  transact fuel client (page ∧ 0 ≤ retroTextSize platform ∧ 0 ≤ retroTextSize model)
    retroVaultOpList
    (squidClientWriteU16 cursor ++ countedText (textBytes platform) ++ modelField model) 5
    retroPageResponse

def squidClientRetroSearch (fuel : Nat) (client : Option SquidClient)
    (platform model query : Option CString) (cursor : UInt16) (page : Bool) :
    Program ClientLib (Option (Returned SquidClientRetroList)) :=
  transact fuel client
    (page ∧ 0 ≤ retroTextSize platform ∧ 0 ≤ retroTextSize model ∧ 0 ≤ retroTextSize query)
    retroVaultOpSearch
    (squidClientWriteU16 cursor ++ countedText (textBytes platform) ++
      countedText (textBytes query) ++ modelField model) 5
    retroPageResponse

/-- `squid_client_retro_list_next`: its result, the entry it stores and the page it leaves. -/
def squidClientRetroListNext (page : SquidClientRetroList) :
    Int × Option CatalogEntry × SquidClientRetroList :=
  if page.entriesLeft = 0 then
    (if page.next = [] then 0 else squidClientErrorProtocol, none, page)
  else
    let current := page.next
    if current = [] then (squidClientErrorProtocol, none, page)
    else
      let idSize := (byteAt current 0).toNat
      if current.length < 2 + idSize then (squidClientErrorProtocol, none, page)
      else
        let nameSize := (byteAt current (1 + idSize)).toNat
        let needed := 2 + idSize + nameSize
        if current.length < needed then (squidClientErrorProtocol, none, page)
        else (1,
          some {
            id := (current.drop 1).take idSize
            name := (current.drop (2 + idSize)).take nameSize },
          { page with
            next := current.drop needed
            entriesLeft := page.entriesLeft - 1 })

structure SquidClientRetroInfo where
  nextCursor : UInt16
  valuesLeft : UInt8
  next : List UInt8
deriving DecidableEq

def squidClientRetroInfo (fuel : Nat) (client : Option SquidClient) (packageId : Option CString)
    (cursor : UInt16) (page : Bool) : Program ClientLib (Option (Returned SquidClientRetroInfo)) :=
  transact fuel client (page ∧ 0 < retroTextSize packageId) retroVaultOpInfo
    (squidClientWriteU16 cursor ++ countedText (textBytes packageId)) 5 fun response =>
    some {
      nextCursor := squidClientReadU16 response 2
      valuesLeft := byteAt response 4
      next := response.drop 5 }

/-- `squid_client_retro_info_next`; a value is a record of the page. -/
def squidClientRetroInfoNext (page : SquidClientRetroInfo) :
    Int × Option InfoRecord × SquidClientRetroInfo :=
  if page.valuesLeft = 0 then
    (if page.next = [] then 0 else squidClientErrorProtocol, none, page)
  else
    let current := page.next
    if current.length < 2 then (squidClientErrorProtocol, none, page)
    else
      let valueSize := (byteAt current 1).toNat
      if current.length < 2 + valueSize then (squidClientErrorProtocol, none, page)
      else (1,
        some {
          type := byteAt current 0
          value := (current.drop 2).take valueSize },
        { page with
          next := current.drop (2 + valueSize)
          valuesLeft := page.valuesLeft - 1 })

structure SquidClientRetroDownload where
  offset : UInt32
  totalSize : UInt32
  data : List UInt8
deriving DecidableEq

def squidClientRetroDownload (fuel : Nat) (client : Option SquidClient)
    (packageId downloadId : Option CString) (offset : UInt32) (maximumBytes : UInt8)
    (chunk : Bool) : Program ClientLib (Option (Returned SquidClientRetroDownload)) :=
  transact fuel client (chunk ∧ 0 < retroTextSize packageId ∧ 0 < retroTextSize downloadId)
    retroVaultOpDownload
    (squidClientWriteU32 offset ++ [maximumBytes] ++ countedText (textBytes packageId) ++
      countedText (textBytes downloadId)) 11 fun response =>
    let dataSize := (byteAt response 10).toNat
    if response.length ≠ 11 + dataSize then none
    else some {
      offset := squidClientReadU32 response 2
      totalSize := squidClientReadU32 response 6
      data := (response.drop 11).take dataSize }

theorem length_of_retroTextSize (h : 0 ≤ retroTextSize text) : (textBytes text).length ≤ 255 := by
  by_contra hlong
  have hsize : retroTextSize text = squidClientErrorArgument := if_pos (Nat.not_le.1 hlong)
  rw [hsize] at h
  exact absurd h (by decide)

theorem retroTextSize_pos_iff :
    0 < retroTextSize text ↔ textBytes text ≠ [] ∧ (textBytes text).length ≤ 255 := by
  rw [retroTextSize, squidClientTextSize, ← List.length_pos_iff]
  split
  · rename_i hlong
    have hnegative : ¬ 0 < squidClientErrorArgument := by decide
    constructor
    · intro h
      exact absurd h hnegative
    · intro h
      omega
  · omega

/-- What the caller of LIST or SEARCH asks for. -/
def browsed (platform model : Option CString) (query : Option (List UInt8)) : Browse where
  platform := textBytes platform
  query := query
  model := if textBytes model = [] then none else some (textBytes model)

theorem modelField_eq (h : 0 ≤ retroTextSize model) :
    modelField model = (browsed platform model query).model.elim [] countedText := by
  rw [modelField, browsed]
  dsimp only
  by_cases hempty : textBytes model = []
  · rw [if_pos hempty, if_neg]
    · rfl
    · intro hpos
      exact (retroTextSize_pos_iff.1 hpos).1 hempty
  · rw [if_neg hempty, if_pos (retroTextSize_pos_iff.2 ⟨hempty, length_of_retroTextSize h⟩)]
    rfl

theorem browsed_filter (platform model : Option CString) (query : Option (List UInt8)) :
    (browsed platform model query).filter =
      ⟨textBytes platform, textBytes model, query.getD []⟩ := by
  rw [Browse.filter, browsed]
  dsimp only
  by_cases hempty : textBytes model = []
  · rw [if_pos hempty, hempty]
    rfl
  · rw [if_neg hempty]
    rfl

theorem parseListOrSearch_end (opcode : UInt8) (rest : List UInt8) :
    parseListOrSearch opcode (opcode :: (writeU16 retroVaultCursorEnd ++ rest)) = none := by
  have hcursor := readU16_writeU16 [opcode] retroVaultCursorEnd rest
  have hrequest : opcode :: (writeU16 retroVaultCursorEnd ++ rest) =
      [opcode] ++ writeU16 retroVaultCursorEnd ++ rest := rfl
  rw [parseListOrSearch, hrequest]
  split
  · rfl
  · exact if_pos hcursor

theorem parseListOrSearch_noQuery (cursor : UInt16) (hplatform : platform.length ≤ 255)
    (rest : List UInt8) :
    parseListOrSearch retroVaultOpSearch (retroVaultOpSearch :: (writeU16 cursor ++
      countedText platform ++ countedText [] ++ rest)) = none := by
  generalize hrequest : retroVaultOpSearch :: (writeU16 cursor ++ countedText platform ++
    countedText [] ++ rest) = request
  have hcount : (byteAt request 3).toNat = platform.length := by
    rw [← hrequest]
    exact UInt8.toNat_ofNat_of_lt' (show platform.length < 256 by omega)
  have hbyte : byteAt request (4 + platform.length) = 0 := by
    rw [← hrequest, Nat.add_comm]
    simp [byteAt, countedText, writeU16]
  have hquery : parseQuery request (4 + platform.length) = none := by
    rw [parseQuery]
    split
    · rfl
    · rw [hbyte]
      exact if_pos (.inl rfl)
  rw [parseListOrSearch]
  split
  · rfl
  · dsimp only
    split
    · rfl
    · split
      · rfl
      · rw [hcount, hquery, if_pos rfl]

theorem parseDownloadRequest_offset (h : parseDownloadRequest request = some fields) :
    fields.offset = readU32 request 1 := by
  rw [parseDownloadRequest] at h
  split at h
  · cases h
  · dsimp only at h
    split at h
    · cases h
    · split at h
      · cases h
      · split at h
        · cases h
        · rw [← Option.some.inj h]

theorem parseListOrSearch_list (cursor : UInt16) (hmodel : 0 ≤ retroTextSize model)
    (hlength : (retroVaultOpList :: (writeU16 cursor ++ countedText (textBytes platform) ++
      modelField model)).length ≤ 255) :
    parseListOrSearch retroVaultOpList (retroVaultOpList :: (writeU16 cursor ++
      countedText (textBytes platform) ++ modelField model)) =
      if cursor = retroVaultCursorEnd then none
      else some (cursor, ⟨textBytes platform, textBytes model, []⟩) := by
  split
  · rename_i hend
    rw [hend, List.append_assoc]
    exact parseListOrSearch_end retroVaultOpList _
  · rename_i hcursor
    have hrequest : retroVaultOpList :: (writeU16 cursor ++ countedText (textBytes platform) ++
        modelField model) = (browsed platform model none).request cursor := by
      rw [modelField_eq hmodel]
      rfl
    rw [hrequest] at hlength ⊢
    have hfits : (browsed platform model none).Fits := ⟨hlength, by simp [browsed]⟩
    have hfilter := browsed_filter platform model none
    rw [Option.getD_none] at hfilter
    rw [← hfilter]
    exact parseListOrSearch_request hfits.sized hcursor

theorem parseListOrSearch_search (cursor : UInt16) (hplatform : 0 ≤ retroTextSize platform)
    (hmodel : 0 ≤ retroTextSize model)
    (hlength : (retroVaultOpSearch :: (writeU16 cursor ++ countedText (textBytes platform) ++
      countedText (textBytes query) ++ modelField model)).length ≤ 255) :
    parseListOrSearch retroVaultOpSearch (retroVaultOpSearch :: (writeU16 cursor ++
      countedText (textBytes platform) ++ countedText (textBytes query) ++ modelField model)) =
      if cursor = retroVaultCursorEnd ∨ textBytes query = [] then none
      else some (cursor, ⟨textBytes platform, textBytes model, textBytes query⟩) := by
  split
  · rename_i hrefused
    rcases hrefused with hend | hempty
    · rw [hend, List.append_assoc, List.append_assoc]
      exact parseListOrSearch_end retroVaultOpSearch _
    · rw [hempty]
      exact parseListOrSearch_noQuery cursor (length_of_retroTextSize hplatform) _
  · rename_i haccepted
    obtain ⟨hcursor, hquery⟩ := not_or.1 haccepted
    have hrequest : retroVaultOpSearch :: (writeU16 cursor ++ countedText (textBytes platform) ++
        countedText (textBytes query) ++ modelField model) =
        (browsed platform model (some (textBytes query))).request cursor := by
      rw [modelField_eq hmodel, List.append_assoc]
      rfl
    rw [hrequest] at hlength ⊢
    have hfits : (browsed platform model (some (textBytes query))).Fits :=
      ⟨hlength, by simpa [browsed] using hquery⟩
    have hfilter := browsed_filter platform model (some (textBytes query))
    rw [Option.getD_some] at hfilter
    rw [← hfilter]
    exact parseListOrSearch_request hfits.sized hcursor

def EncodesCatalog (opcode : UInt8) (page : SquidClientRetroList) (reply : List UInt8) : Prop :=
  ∃ nextCursor catalogPage entries, reply = pageResponse opcode nextCursor catalogPage ∧
    Holds CatalogEntry.bytes entries catalogPage ∧ page.nextCursor = nextCursor ∧
    Yields squidClientRetroListNext page entries

def EncodesInfo (page : SquidClientRetroInfo) (reply : List UInt8) : Prop :=
  ∃ nextCursor infoPage records, reply = pageResponse retroVaultOpInfo nextCursor infoPage ∧
    Holds InfoRecord.bytes records infoPage ∧ page.nextCursor = nextCursor ∧
    Yields squidClientRetroInfoNext page records

def EncodesDownload (offset : UInt32) (chunk : SquidClientRetroDownload) (reply : List UInt8) :
    Prop :=
  ∃ totalSize data, reply = downloadResponse retroVaultOpDownload offset totalSize data ∧
    chunk.offset = offset ∧ chunk.totalSize.toNat = totalSize ∧ chunk.data = data

theorem byteAt_nameSize (entry : CatalogEntry) (rest : List UInt8) :
    byteAt (entry.bytes ++ rest) (1 + entry.id.length) = UInt8.ofNat entry.name.length := by
  rw [Nat.add_comm]
  simp [byteAt, CatalogEntry.bytes, countedText]

theorem squidClientRetroListNext_entry (nextCursor : UInt16) {entry : CatalogEntry}
    (hleft : left ≠ 0) (hentry : EntryFits entry) (rest : List UInt8) :
    squidClientRetroListNext ⟨nextCursor, left, entry.bytes ++ rest⟩ =
      (1, some entry, ⟨nextCursor, left - 1, rest⟩) := by
  have hlength := entry.length_bytes
  have hsome : entry.bytes ++ rest ≠ [] := by simp [CatalogEntry.bytes, countedText]
  have hidSize : (byteAt (entry.bytes ++ rest) 0).toNat = entry.id.length :=
    UInt8.toNat_ofNat_of_lt' hentry.1
  have hnameSize : (byteAt (entry.bytes ++ rest) (1 + entry.id.length)).toNat =
      entry.name.length := by
    rw [byteAt_nameSize]
    exact UInt8.toNat_ofNat_of_lt' hentry.2
  have hid : ((entry.bytes ++ rest).drop 1).take entry.id.length = entry.id := by
    simp [CatalogEntry.bytes, countedText]
  have hname : ((entry.bytes ++ rest).drop (2 + entry.id.length)).take entry.name.length =
      entry.name := by
    rw [Nat.add_comm]
    simp [CatalogEntry.bytes, countedText]
  have hdrop : (entry.bytes ++ rest).drop (2 + entry.id.length + entry.name.length) = rest := by
    rw [← hlength, List.drop_left]
  simp only [squidClientRetroListNext, if_neg hleft, if_neg hsome, hidSize, hnameSize,
    List.length_append, hlength]
  rw [if_neg (by omega), if_neg (by omega), hid, hname, hdrop]

theorem squidClientRetroInfoNext_record (nextCursor : UInt16) {record : InfoRecord}
    (hleft : left ≠ 0) (hvalue : record.value.length < 256) (rest : List UInt8) :
    squidClientRetroInfoNext ⟨nextCursor, left, record.bytes ++ rest⟩ =
      (1, some record, ⟨nextCursor, left - 1, rest⟩) := by
  have hlength := record.length_bytes
  have hcount : (byteAt (record.bytes ++ rest) 1).toNat = record.value.length :=
    UInt8.toNat_ofNat_of_lt' hvalue
  have htype : byteAt (record.bytes ++ rest) 0 = record.type := rfl
  have hfield : ((record.bytes ++ rest).drop 2).take record.value.length = record.value := by
    simp [InfoRecord.bytes, countedText]
  have hdrop : (record.bytes ++ rest).drop (2 + record.value.length) = rest := by
    rw [Nat.add_comm, ← hlength, List.drop_left]
  simp only [squidClientRetroInfoNext, if_neg hleft, hcount, List.length_append, hlength]
  rw [if_neg (by omega), if_neg (by omega), hfield, hdrop, htype]

section
variable {reply : List UInt8} {opcode : UInt8}

theorem pageResponse_header (opcode : UInt8) (nextCursor : UInt16) (page : Page) :
    (pageResponse opcode nextCursor page).length = 5 + page.records.length ∧
      squidClientReadU16 (pageResponse opcode nextCursor page) 2 = nextCursor := by
  constructor
  · simp only [pageResponse, writeU16, List.length_append, List.length_cons, List.length_nil]
  · rw [pageResponse, List.append_assoc, List.append_assoc]
    exact readU16_writeU16 [_, _] nextCursor _

theorem retroPageResponse_reply (h : CatalogReply opcode reply) :
    reply.take 2 = [opcode ||| 0x80, 0] ∧ 5 ≤ reply.length ∧ reply.length ≤ 255 ∧
      ∃ value, retroPageResponse reply = some value ∧ EncodesCatalog opcode value reply := by
  obtain ⟨nextCursor, page, entries, rfl, hholds, hentries⟩ := h
  obtain ⟨hlength, hcursor⟩ := pageResponse_header opcode nextCursor page
  have hroom := hholds.room
  refine ⟨rfl, by omega, by omega, _, rfl, nextCursor, page, entries, rfl, hholds, hcursor, ?_⟩
  have hyields : Yields squidClientRetroListNext ⟨nextCursor, page.count, page.records⟩
      entries := by
    rw [hholds.bytes]
    refine yields_items (fun left bytes => (⟨nextCursor, left, bytes⟩ : SquidClientRetroList)) rfl
      ?_ entries hentries hholds.count
    intro left entry rest hleft hentry
    exact squidClientRetroListNext_entry nextCursor hleft hentry rest
  rw [hcursor]
  exact hyields

end

section
variable {context : RetroVaultContext} {s : Line}

theorem squidClientRetroList_agrees (client : Option SquidClient)
    (platform model : Option CString) (cursor : UInt16) (page : Bool) (hunread : s.unread = [])
    (hfuel : 256 + s.stalls < fuel) :
    Ensures (verbatim (RepliesTo context) epoch)
      (squidClientRetroList fuel client platform model cursor page)
      (Agrees (RepliesTo context) client s retroVaultOpList
        (fun request => parseListOrSearch retroVaultOpList request =
          if cursor = retroVaultCursorEnd then none
          else some (cursor, ⟨textBytes platform, textBytes model, []⟩))
        (EncodesCatalog retroVaultOpList)) s := by
  refine transact_agrees client hunread hfuel ?_ ?_
  · intro haccepted hlength
    rw [decide_eq_true_iff] at haccepted
    exact parseListOrSearch_list cursor haccepted.2.2 hlength
  · intro _ reply hreply
    refine (hreply.answer (handleListOrSearch context retroVaultOpList · 255) ?_
      (handleListOrSearch_answers context retroVaultOpList _)).imp id retroPageResponse_reply
    rw [handleRetroVaultRequest, if_neg (by decide), if_neg (by decide), if_pos (.inl rfl)]

theorem squidClientRetroSearch_agrees (client : Option SquidClient)
    (platform model query : Option CString) (cursor : UInt16) (page : Bool)
    (hunread : s.unread = []) (hfuel : 256 + s.stalls < fuel) :
    Ensures (verbatim (RepliesTo context) epoch)
      (squidClientRetroSearch fuel client platform model query cursor page)
      (Agrees (RepliesTo context) client s retroVaultOpSearch
        (fun request => parseListOrSearch retroVaultOpSearch request =
          if cursor = retroVaultCursorEnd ∨ textBytes query = [] then none
          else some (cursor, ⟨textBytes platform, textBytes model, textBytes query⟩))
        (EncodesCatalog retroVaultOpSearch)) s := by
  refine transact_agrees client hunread hfuel ?_ ?_
  · intro haccepted hlength
    rw [decide_eq_true_iff] at haccepted
    exact parseListOrSearch_search cursor haccepted.2.1 haccepted.2.2.1 hlength
  · intro _ reply hreply
    refine (hreply.answer (handleListOrSearch context retroVaultOpSearch · 255) ?_
      (handleListOrSearch_answers context retroVaultOpSearch _)).imp id retroPageResponse_reply
    rw [handleRetroVaultRequest, if_neg (by decide), if_neg (by decide), if_pos (.inr rfl)]

/-- The server's checks of an INFO request pass, and it finds these fields. -/
def InfoRecovers (cursor : UInt16) (packageId : List UInt8) (request : List UInt8) : Prop :=
  ¬ (request.length < 4 ∨ (byteAt request 3).toNat = 0 ∨
    (byteAt request 3).toNat ≠ request.length - 4) ∧
    readU16 request 1 = cursor ∧ request.drop 4 = packageId

theorem squidClientRetroInfo_agrees (client : Option SquidClient) (packageId : Option CString)
    (cursor : UInt16) (page : Bool) (hunread : s.unread = []) (hfuel : 256 + s.stalls < fuel) :
    Ensures (verbatim (RepliesTo context) epoch)
      (squidClientRetroInfo fuel client packageId cursor page)
      (Agrees (RepliesTo context) client s retroVaultOpInfo
        (InfoRecovers cursor (textBytes packageId)) EncodesInfo) s := by
  refine transact_agrees client hunread hfuel ?_ ?_
  · intro haccepted _
    rw [decide_eq_true_iff] at haccepted
    obtain ⟨hne, hlong⟩ := retroTextSize_pos_iff.1 haccepted.2
    have hpos := List.length_pos_iff.2 hne
    have hcount : (UInt8.ofNat (textBytes packageId).length).toNat = (textBytes packageId).length :=
      UInt8.toNat_ofNat_of_lt' (show (textBytes packageId).length < 256 by omega)
    refine ⟨?_, readU16_writeU16 [retroVaultOpInfo] cursor _, rfl⟩
    simp only [byteAt, squidClientWriteU16, writeU16, countedText, List.cons_append,
      List.nil_append, List.getD_cons_succ, List.getD_cons_zero, List.length_cons, hcount]
    omega
  · intro _ reply hreply
    refine (hreply.answer (handleInfo context retroVaultOpInfo · 255) ?_
      (handleInfo_answers context retroVaultOpInfo _)).imp id ?_
    · rw [handleRetroVaultRequest, if_neg (by decide), if_neg (by decide), if_neg (by decide),
        if_pos rfl]
    · rintro ⟨nextCursor, page, records, rfl, hholds, hrecords⟩
      obtain ⟨hlength, hcursor⟩ := pageResponse_header retroVaultOpInfo nextCursor page
      have hroom := hholds.room
      refine ⟨rfl, by omega, by omega, _, rfl, nextCursor, page, records, rfl, hholds, hcursor, ?_⟩
      have hyields : Yields squidClientRetroInfoNext ⟨nextCursor, page.count, page.records⟩
          records := by
        rw [hholds.bytes]
        refine yields_items (fun left bytes => (⟨nextCursor, left, bytes⟩ : SquidClientRetroInfo))
          rfl ?_ records hrecords hholds.count
        intro left record rest hleft hrecord
        exact squidClientRetroInfoNext_record nextCursor hleft hrecord rest
      rw [hcursor]
      exact hyields

theorem squidClientRetroDownload_agrees (client : Option SquidClient)
    (packageId downloadId : Option CString) (offset : UInt32) (maximumBytes : UInt8) (chunk : Bool)
    (hunread : s.unread = []) (hfuel : 256 + s.stalls < fuel) :
    Ensures (verbatim (RepliesTo context) epoch)
      (squidClientRetroDownload fuel client packageId downloadId offset maximumBytes chunk)
      (Agrees (RepliesTo context) client s retroVaultOpDownload
        (fun request => parseDownloadRequest request =
          some ⟨offset, maximumBytes, textBytes packageId, textBytes downloadId⟩)
        (EncodesDownload offset)) s := by
  refine transact_agrees client hunread hfuel ?_ ?_
  · intro haccepted hlength
    rw [decide_eq_true_iff] at haccepted
    obtain ⟨hpackage, hpackageSize⟩ := retroTextSize_pos_iff.1 haccepted.2.1
    obtain ⟨hdownload, hdownloadSize⟩ := retroTextSize_pos_iff.1 haccepted.2.2
    have hparse := parseDownloadRequest_request offset maximumBytes
      (Nat.lt_succ_of_le hpackageSize) (Nat.lt_succ_of_le hdownloadSize)
    rw [if_neg (not_or.2 ⟨hpackage, hdownload⟩)] at hparse
    exact hparse
  · intro _ reply hreply
    refine (hreply.answer (handleDownload context retroVaultOpDownload · 255) ?_
      (handleDownload_answers context retroVaultOpDownload _)).imp id ?_
    · exact handleRetroVaultRequest_download context _
    · rintro ⟨fields, hfields, totalSize, data, hreply', htotal, hdata⟩
      have hoffset : fields.offset = offset := by
        have hread := parseDownloadRequest_offset hfields
        rw [hread]
        exact readU32_writeU32 [retroVaultOpDownload] offset _
      rw [hoffset] at hreply'
      have hlength : reply.length = 11 + data.length := by
        rw [hreply']
        simp only [downloadResponse, writeU32, List.length_append, List.length_cons,
          List.length_nil]
      have hcount : (byteAt reply 10).toNat = data.length := by
        rw [hreply']
        exact UInt8.toNat_ofNat_of_lt' (show data.length < 256 by omega)
      have hfirst : squidClientReadU32 reply 2 = offset := by
        rw [hreply', downloadResponse, List.append_assoc, List.append_assoc]
        exact readU32_writeU32 [_, _] offset _
      have hsecond : squidClientReadU32 reply 6 = UInt32.ofNat totalSize := by
        rw [hreply', downloadResponse, List.append_assoc]
        exact readU32_writeU32 ([_, _] ++ writeU32 offset) _ _
      have hrest : (reply.drop 11).take data.length = data := by
        rw [hreply']
        exact List.take_length
      refine ⟨by rw [hreply']; rfl, by omega, by omega, ⟨offset, UInt32.ofNat totalSize, data⟩, ?_,
        totalSize, data, hreply', rfl, ?_, rfl⟩
      · rw [hcount, if_neg (by omega), hfirst, hsecond, hrest]
      · exact UInt32.toNat_ofNat_of_lt' (show totalSize < 4294967296 by omega)

end

/-- A client with room for a page with two short entries. -/
def listClient : SquidClient where
  packet := some (List.replicate 33 0)
  packetCapacity := 32
  idle := false
  room := by simp

def gamesContext : RetroVaultContext := contextOf [samplePackage "pong" "Pong" "zx" [],
  samplePackage "chess" "Chess" "zx" [], samplePackage "polo" "Polo" "zx" []]

def zxPlatform : CString := ⟨ascii "zx", by decide⟩

def poQuery : CString := ⟨ascii "po", by decide⟩

def searchRequest : List UInt8 :=
  [retroVaultOpSearch, 0, 0, 2] ++ ascii "zx" ++ [2] ++ ascii "po"

def searchReply : List UInt8 :=
  [0x82, 0, 0xFF, 0xFF, 2] ++ CatalogEntry.bytes ⟨ascii "pong", ascii "Pong"⟩ ++
    CatalogEntry.bytes ⟨ascii "polo", ascii "Polo"⟩

theorem repliesTo_search : RepliesTo gamesContext searchRequest searchReply := by
  obtain ⟨x, hx⟩ : ∃ x, (handleRetroVaultRequest gamesContext searchRequest 255).replay
      [⟨Call.time, (1 : Int)⟩] = some x := ⟨_, rfl⟩
  have hreply : x.1 = some searchReply := by
    have hmap : ((handleRetroVaultRequest gamesContext searchRequest 255).replay
        [⟨Call.time, (1 : Int)⟩]).map Prod.fst = some (some searchReply) := by decide +kernel
    rw [hx] at hmap
    exact Option.some.inj hmap
  refine ⟨x.2, ?_⟩
  rw [← hreply]
  exact exec_of_replay hx (steps_obeying fun _ _ => trivial)

theorem repliesTo_end : RepliesTo gamesContext [retroVaultOpList, 0xFF, 0xFF, 0] [0x81, 1] :=
  ⟨gamesContext, .pure _ _⟩

end SquidServer.Client

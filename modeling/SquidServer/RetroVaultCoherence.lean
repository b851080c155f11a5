import Mathlib.Data.List.Nodup
import SquidServer.RetroVaultInfo

namespace SquidServer.RetroVault
open Interaction CText Wire
set_option autoImplicit true

variable {id : List UInt8}

/-- The lookups by id take the first that has the id, without regard to case. -/
theorem findIdx_id_iff {items : List α} {text : α → List UInt8} :
    (items.findIdx? fun item => textEqualsCaseInsensitive (text item) id) = some i ↔
      (∃ item, items[i]? = some item ∧ foldCase (text item) = foldCase id) ∧
      ∀ j item, j < i → items[j]? = some item → foldCase (text item) ≠ foldCase id := by
  rw [List.findIdx?_eq_some_iff_getElem]
  constructor
  · intro h
    obtain ⟨hi, hid, hfirst⟩ := h
    refine ⟨⟨items[i], List.getElem?_eq_getElem hi, textEqualsCaseInsensitive_iff.1 hid⟩, ?_⟩
    intro j item hj hitem he
    rw [List.getElem?_eq_getElem (hj.trans hi)] at hitem
    cases hitem
    exact hfirst j hj (textEqualsCaseInsensitive_iff.2 he)
  · intro h
    obtain ⟨⟨item, hitem, hid⟩, hfirst⟩ := h
    obtain ⟨hi, rfl⟩ := List.getElem?_eq_some_iff.1 hitem
    refine ⟨hi, textEqualsCaseInsensitive_iff.2 hid, ?_⟩
    intro j hj he
    exact hfirst j _ hj (List.getElem?_eq_getElem _) (textEqualsCaseInsensitive_iff.1 he)

theorem findPackage_iff : findPackage packages id = some i ↔
    (∃ package, packages[i]? = some package ∧ foldCase package.id.bytes = foldCase id) ∧
    ∀ j other, j < i → packages[j]? = some other → foldCase other.id.bytes ≠ foldCase id :=
  findIdx_id_iff

theorem findPackage_exists {package : RetroVaultPackage} (hpackage : package ∈ packages)
    (hid : foldCase package.id.bytes = foldCase id) : ∃ j, findPackage packages id = some j := by
  apply Option.isSome_iff_exists.1
  rw [findPackage, List.findIdx?_isSome, List.any_eq_true]
  exact ⟨package, hpackage, textEqualsCaseInsensitive_iff.2 hid⟩

theorem findDownload_iff : findDownload package id = some i ↔
    (∃ download, package.downloads[i]? = some download ∧
      foldCase download.id.bytes = foldCase id) ∧
    ∀ j other, j < i → package.downloads[j]? = some other →
      foldCase other.id.bytes ≠ foldCase id :=
  findIdx_id_iff

/-- The INFO request for a package, from the record with number `cursor` on. -/
def infoRequest (cursor : UInt16) (id : List UInt8) : List UInt8 :=
  retroVaultOpInfo :: writeU16 cursor ++ countedText id

def infoReply (context : RetroVaultContext) (cursor : UInt16) (id : List UInt8) : Response :=
  match (findPackage context.packages id).bind (context.packages[·]?) with
  | none => writeErrorResponse retroVaultOpInfo .notFound 255
  | some package => writeInfoPage retroVaultOpInfo package cursor 255

theorem infoReply_found (h : findPackage context.packages id = some i)
    (hpackage : context.packages[i]? = some package) (cursor : UInt16) :
    infoReply context cursor id = writeInfoPage retroVaultOpInfo package cursor 255 := by
  rw [infoReply, h, Option.bind_some, hpackage]

theorem handleRetroVaultRequest_info (context : RetroVaultContext) (cursor : UInt16)
    (hne : id ≠ []) (hsize : id.length ≤ 251) :
    Ensures (obeying (StaysCached context))
      (handleRetroVaultRequest context (infoRequest cursor id) 255)
      (fun r _ => r = (infoReply context cursor id, context)) () := by
  have hcount : (byteAt (infoRequest cursor id) 3).toNat = id.length :=
    UInt8.toNat_ofNat_of_lt' (show id.length < 256 by omega)
  have hcursor : readU16 (infoRequest cursor id) 1 = cursor := by
    have := readU16_writeU16 [retroVaultOpInfo] cursor (countedText id)
    simpa [infoRequest] using this
  have hlength : (infoRequest cursor id).length = id.length + 4 := rfl
  have hid : (infoRequest cursor id).drop 4 = id := rfl
  have hpos := List.length_pos_iff.2 hne
  have hrequest : infoRequest cursor id = retroVaultOpInfo :: (infoRequest cursor id).tail := rfl
  rw [hrequest, handleRetroVaultRequest, if_neg (by decide), if_neg (by decide),
    if_neg (by decide), if_pos rfl, ← hrequest, handleInfo, hcount, hlength]
  dsimp only
  rw [if_neg (by omega)]
  refine ensures_bind.2 ((ensureCatalog_cached context).mono ?_)
  intro r _ hr
  rw [hr, hid, hcursor, infoReply]
  dsimp only
  rw [if_neg (by simp)]
  cases (findPackage context.packages id).bind (context.packages[·]?) with
  | none => exact ensures_pure.2 rfl
  | some package => exact ensures_pure.2 rfl

/-- The ids are distinct without regard to case, and made of the characters that may stand in a
path of the API. -/
structure CleanIds (packages : List RetroVaultPackage) : Prop where
  unique : (packages.map fun package => foldCase package.id.bytes).Nodup
  uniqueDownloads : ∀ package ∈ packages,
    (package.downloads.map fun download => foldCase download.id.bytes).Nodup
  safe : ∀ package ∈ packages, identifierIsSafe package.id.bytes = true ∧
    ∀ download ∈ package.downloads, identifierIsSafe download.id.bytes = true

theorem nodup_earlier {items : List α} {f : α → β} (h : (items.map f).Nodup)
    (hi : items[i]? = some x) (j : Nat) (y : α) (hj : j < i) (hy : items[j]? = some y) :
    f y ≠ f x := by
  intro he
  have hlt := (List.getElem?_eq_some_iff.1 hi).1
  apply List.nodup_iff_getElem?_ne_getElem?.1 h j i hj (by rw [List.length_map]; exact hlt)
  rw [List.getElem?_map, List.getElem?_map, hi, hy, Option.map_some, Option.map_some, he]

/-- The DOWNLOAD request for a part of a download. -/
def downloadRequest (offset : UInt32) (maximumBytes : UInt8) (packageId downloadId : List UInt8) :
    List UInt8 :=
  retroVaultOpDownload :: writeU32 offset ++ [maximumBytes] ++ countedText packageId ++
    countedText downloadId

theorem length_downloadRequest (offset : UInt32) (maximumBytes : UInt8)
    (packageId downloadId : List UInt8) :
    (downloadRequest offset maximumBytes packageId downloadId).length =
      8 + packageId.length + downloadId.length := by
  simp only [downloadRequest, writeU32, countedText, List.length_append, List.length_cons,
    List.length_nil]
  omega

theorem parseDownloadRequest_request (offset : UInt32) (maximumBytes : UInt8)
    (hpackageId : packageId.length < 256) (hdownloadId : downloadId.length < 256) :
    parseDownloadRequest (downloadRequest offset maximumBytes packageId downloadId) =
      if packageId = [] ∨ downloadId = [] then none
      else some ⟨offset, maximumBytes, packageId, downloadId⟩ := by
  have hlength := length_downloadRequest offset maximumBytes packageId downloadId
  have hoffset : readU32 (downloadRequest offset maximumBytes packageId downloadId) 1 = offset := by
    have := readU32_writeU32 [retroVaultOpDownload] offset
      (maximumBytes :: (countedText packageId ++ countedText downloadId))
    simpa [downloadRequest] using this
  have hpackageSize : (byteAt (downloadRequest offset maximumBytes packageId downloadId) 6).toNat =
      packageId.length := UInt8.toNat_ofNat_of_lt' hpackageId
  have hbehind : (downloadRequest offset maximumBytes packageId downloadId).drop 7 =
      packageId ++ countedText downloadId := rfl
  have hcount : (byteAt (downloadRequest offset maximumBytes packageId downloadId)
      (7 + packageId.length)).toNat = downloadId.length := by
    have hbyte : byteAt (downloadRequest offset maximumBytes packageId downloadId)
        (7 + packageId.length) = UInt8.ofNat downloadId.length := by
      rw [byteAt, List.getD_eq_getElem?_getD, ← List.getElem?_drop, hbehind]
      simp [countedText]
    rw [hbyte]
    exact UInt8.toNat_ofNat_of_lt' hdownloadId
  have hlast : (downloadRequest offset maximumBytes packageId downloadId).drop
      (7 + packageId.length + 1) = downloadId := by
    rw [← List.drop_drop, ← List.drop_drop, hbehind, List.drop_left]
    rfl
  rw [parseDownloadRequest, if_neg (by omega), hpackageSize]
  dsimp only
  by_cases hpackage : packageId = []
  · rw [if_pos (.inl (by rw [hpackage]; rfl)), if_pos (.inl hpackage)]
  · have hpackagePos := List.length_pos_iff.2 hpackage
    rw [if_neg (by omega), if_neg (by omega), hcount]
    by_cases hdownload : downloadId = []
    · rw [if_pos (.inl (by rw [hdownload]; rfl)), if_pos (.inr hdownload)]
    · have hdownloadPos := List.length_pos_iff.2 hdownload
      rw [if_neg (by omega), if_neg (not_or.2 ⟨hpackage, hdownload⟩), hoffset, hbehind,
        List.take_left, hlast]
      rfl

theorem handleRetroVaultRequest_download (context : RetroVaultContext) (rest : List UInt8) :
    handleRetroVaultRequest context (retroVaultOpDownload :: rest) 255 =
      handleDownload context retroVaultOpDownload (retroVaultOpDownload :: rest) 255 := by
  rw [handleRetroVaultRequest, if_neg (by decide), if_neg (by decide), if_neg (by decide),
    if_neg (by decide), if_pos rfl]

/-- The catalog stays in use, and the API delivers whatever is asked of it. -/
def Delivers (context : RetroVaultContext) (e : Event Services) : Prop :=
  match e with
  | ⟨.time, now⟩ => catalogIsFresh context now = true
  | ⟨.httpGet _ _, answer⟩ => answer.succeeded = true
  | ⟨.malloc _, _⟩ => True

theorem Delivers.staysCached (h : Delivers context e) : StaysCached context e := by
  obtain ⟨op, answer⟩ := e
  cases op with
  | time => exact h
  | httpGet path sizeLimit => trivial
  | malloc size => trivial

theorem fetchDownload_delivers (context : RetroVaultContext) (path : List UInt8) :
    Ensures (obeying (Delivers context)) (fetchDownload path) (fun r _ => r.1 = .ok) () := by
  refine ensures_bind.2 (ensures_ask fun answer _ hanswer => ?_)
  have hanswer : answer.succeeded = true := hanswer
  rw [if_pos hanswer]
  exact ensures_pure.2 rfl

theorem ensureDownloadOf_delivers (context : RetroVaultContext) (package : RetroVaultPackage)
    (download : RetroVaultDownload) :
    Ensures (obeying (Delivers context)) (ensureDownloadOf context package download)
      (fun r _ => r.1 = .ok ∨ r.1 = .internalError) () := by
  rw [ensureDownloadOf]
  split
  · exact ensures_pure.2 (.inr rfl)
  · rename_i path _
    split
    · exact ensures_pure.2 (.inl rfl)
    · refine ensures_bind.2 ((fetchDownload_delivers context path).mono ?_)
      intro first _ hfirst
      rw [retryDownload, if_neg (fun h => h.1 hfirst)]
      refine ensures_bind.2 (ensures_pure.2 ?_)
      dsimp only
      rw [if_neg (fun h => h hfirst)]
      refine ensures_bind.2 (ensures_ask fun memory _ _ => ?_)
      split
      · exact ensures_pure.2 (.inl rfl)
      · exact ensures_pure.2 (.inr rfl)

/-- The status byte of a reply. -/
def replyStatus (response : Response) : Option UInt8 := response.bind (·[1]?)

/-- A DOWNLOAD request with these ids is one for the download at place `j` of the package at
place `i`: both are found, and where the API delivers the reply is not that there is no such
download, or that the request is bad. -/
structure Selects (context : RetroVaultContext) (packageId downloadId : List UInt8) (i j : Nat) :
    Prop where
  package : findPackage context.packages packageId = some i
  download : ∃ package, context.packages[i]? = some package ∧
    findDownload package downloadId = some j
  reply : ∀ maximumBytes, Ensures (obeying (Delivers context))
    (handleRetroVaultRequest context (downloadRequest 0 maximumBytes packageId downloadId) 255)
    (fun r _ => replyStatus r.1 ≠ some RetroVaultStatus.notFound.code ∧
      replyStatus r.1 ≠ some RetroVaultStatus.badRequest.code) ()

theorem selects_of_found (hsize : 8 + packageId.length + downloadId.length ≤ 255)
    (hsafe : identifierIsSafe packageId = true) (hsafe' : identifierIsSafe downloadId = true)
    (hpackage : findPackage context.packages packageId = some i)
    (hget : context.packages[i]? = some package)
    (hdownload : findDownload package downloadId = some j) :
    Selects context packageId downloadId i j := by
  refine ⟨hpackage, ⟨package, hget, hdownload⟩, ?_⟩
  intro maximumBytes
  obtain ⟨⟨download, hgetDownload, -⟩, -⟩ := findDownload_iff.1 hdownload
  have hne : ∀ {text : List UInt8}, identifierIsSafe text = true → text ≠ [] := by
    intro text h he
    rw [he] at h
    exact absurd h (by decide)
  have hrequest : downloadRequest 0 maximumBytes packageId downloadId = retroVaultOpDownload ::
      (downloadRequest 0 maximumBytes packageId downloadId).tail := rfl
  rw [hrequest, handleRetroVaultRequest_download, ← hrequest, handleDownload,
    if_neg (by decide), parseDownloadRequest_request 0 maximumBytes (by omega) (by omega),
    if_neg (not_or.2 ⟨hne hsafe, hne hsafe'⟩)]
  refine ensures_bind.2 ?_
  rw [ensureDownload, if_neg (by rw [hsafe, hsafe']; decide)]
  refine ensures_bind.2 (((ensureCatalog_cached context).obeying_mono
    fun e => Delivers.staysCached).mono ?_)
  intro r _ hr
  rw [hr]
  dsimp only
  rw [if_neg (by simp), hpackage, Option.bind_some, hget]
  dsimp only
  rw [hdownload, Option.bind_some, hgetDownload]
  refine (ensureDownloadOf_delivers context package download).mono ?_
  intro r _ hr
  split
  · rename_i hstatus
    refine ensures_pure.2 ?_
    rw [hr.resolve_left hstatus]
    dsimp only
    exact ⟨by decide, by decide⟩
  · refine ensures_pure.2 ?_
    rw [answerDownload]
    split
    · dsimp only
      exact ⟨by decide, by decide⟩
    · rw [if_neg (by simp)]
      exact ⟨by simp [replyStatus, downloadResponse, RetroVaultStatus.code],
        by simp [replyStatus, downloadResponse, RetroVaultStatus.code]⟩

theorem readCounted_downloadValue (download : RetroVaultDownload) :
    ∃ rest, readCounted (downloadValue download) =
      some (longestPrefix download.id.bytes 64, rest) := by
  have hlength := length_longestPrefix_le download.id.bytes 64
  rw [downloadValue, List.append_assoc, List.append_assoc, List.append_assoc]
  exact ⟨_, readCounted_countedText (by omega) _⟩

/-- An INFO reply for the package at place `i` holds a DOWNLOAD record that begins with
`downloadId`; the record has the number of the download at place `j`. -/
def Advertises (context : RetroVaultContext) (i j : Nat) (packageId downloadId : List UInt8) :
    Prop :=
  (∃ package, context.packages[i]? = some package ∧ package.id.bytes = packageId) ∧
  ∃ cursor reply records k record,
    Exec (obeying (StaysCached context)) ()
      (handleRetroVaultRequest context (infoRequest cursor packageId) 255) () (reply, context) ∧
    readInfoPage reply = some records ∧ records[k]? = some record ∧
    record.type = retroVaultInfoDownload ∧ (cursor + UInt16.ofNat k).toNat = j + 9 ∧
    (readCounted record.value).map Prod.fst = some downloadId

/-- An advertised download can be requested exactly where its id has at most 64 bytes: the record
of a download shortens a longer id. -/
theorem advertised_selects_iff (context : RetroVaultContext)
    (hcatalog : parseCatalog data = some context.packages) (hids : CleanIds context.packages)
    (hadvertised : Advertises context i j packageId downloadId)
    (hsize : (downloadRequest 0 0 packageId downloadId).length ≤ 255)
    (hpackage : context.packages[i]? = some package)
    (hdownload : package.downloads[j]? = some download) :
    Selects context packageId downloadId i j ↔ download.id.bytes.length ≤ 64 := by
  obtain ⟨⟨_, hget, hid⟩, cursor, reply, records, k, record, he, hread, hrecord, htype,
    hnumber, hvalue⟩ := hadvertised
  cases hpackage.symm.trans hget
  subst hid
  have hmem := List.mem_of_getElem? hpackage
  have hvalid := (parseCatalog_valid hcatalog).2 package hmem
  rw [length_downloadRequest] at hsize
  have hfind : findPackage context.packages package.id.bytes = some i :=
    findPackage_iff.2 ⟨⟨package, hpackage, rfl⟩, nodup_earlier hids.unique hpackage⟩
  cases handleRetroVaultRequest_info context cursor hvalid.id (by omega) _ _ he
  rw [infoReply_found hfind hpackage] at hread
  have hinfo := readInfoPage_writeInfoPage hread k record hrecord
  obtain ⟨j', download', hj, hget', hrecordValue⟩ := infoRecord_download hinfo htype
  have hjj : j' = j := by omega
  subst hjj
  cases hdownload.symm.trans hget'
  obtain ⟨rest', hcounted⟩ := readCounted_downloadValue download
  rw [hrecordValue, hcounted, Option.map_some] at hvalue
  cases hvalue
  constructor
  · intro h
    obtain ⟨_, hget', hselect⟩ := h.download
    cases hpackage.symm.trans hget'
    obtain ⟨⟨_, hget', heq⟩, -⟩ := findDownload_iff.1 hselect
    cases hdownload.symm.trans hget'
    have hlength := congrArg List.length heq
    rw [length_foldCase, length_foldCase] at hlength
    rw [hlength]
    exact length_longestPrefix_le _ _
  · intro h
    rw [longestPrefix_of_length_le h] at hsize ⊢
    obtain ⟨hsafe, hsafes⟩ := hids.safe package hmem
    have hselect : findDownload package download.id.bytes = some j' :=
      findDownload_iff.2 ⟨⟨download, hdownload, rfl⟩,
        nodup_earlier (hids.uniqueDownloads package hmem) hdownload⟩
    exact selects_of_found hsize hsafe (hsafes download (List.mem_of_getElem? hdownload)) hfind
      hpackage hselect

/-- A download with nothing but an id, a label and a format. -/
def sampleDownload (id : String) : RetroVaultDownload where
  id := .ofBytes (ascii id)
  label := .ofBytes (ascii "Tape")
  format := .ofBytes (ascii "TZX")
  aggregateSize := 0
  fileCount := 0

/-- A package with two downloads, the second of which has an id of 65 bytes. -/
def tapes : List RetroVaultPackage :=
  [samplePackage "pong" "Pong" "" [sampleDownload "tape", sampleDownload
    "tape-tape-tape-tape-tape-tape-tape-tape-tape-tape-tape-tape-tape-"]]

theorem parseCatalog_tapes : parseCatalog (ascii
    "[\x7b\"id\":\"pong\",\"name\":\"Pong\",\"downloads\":[
      \x7b\"id\":\"tape\",\"label\":\"Tape\",\"format\":\"TZX\",\"files\":[]\x7d,
      \x7b\"id\":\"tape-tape-tape-tape-tape-tape-tape-tape-tape-tape-tape-tape-tape-\",
        \"label\":\"Tape\",\"format\":\"TZX\",\"files\":[]\x7d]\x7d]") = some tapes := by
  -- Taking the characters of a long literal one by one would be slow.
  rw [ascii, String.toList_ofList]
  decide +kernel

theorem cleanIds_tapes : CleanIds tapes := ⟨by decide +kernel, by decide +kernel, by decide +kernel⟩

theorem readInfoPage_tapes : readInfoPage (infoReply (contextOf tapes) 9 (ascii "pong")) =
    some [⟨retroVaultInfoDownload, downloadValue (sampleDownload "tape")⟩,
      ⟨retroVaultInfoDownload, downloadValue (sampleDownload
        "tape-tape-tape-tape-tape-tape-tape-tape-tape-tape-tape-tape-tape-")⟩] := by
  decide +kernel

theorem advertises_tapes (k : Nat) (hk : (9 + UInt16.ofNat k).toNat = k + 9)
    (hrecord : [⟨retroVaultInfoDownload, downloadValue (sampleDownload "tape")⟩,
      ⟨retroVaultInfoDownload, downloadValue (sampleDownload
        "tape-tape-tape-tape-tape-tape-tape-tape-tape-tape-tape-tape-tape-")⟩][k]? =
          some (⟨retroVaultInfoDownload, value⟩ : InfoRecord))
    (hvalue : (readCounted value).map Prod.fst = some downloadId) :
    Advertises (contextOf tapes) 0 k (ascii "pong") downloadId := by
  obtain ⟨_, r, he⟩ := exists_exec (obeying_answers (staysCached_answers (List.cons_ne_nil _ _)))
    (handleRetroVaultRequest (contextOf tapes) (infoRequest 9 (ascii "pong")) 255) ()
  cases handleRetroVaultRequest_info (contextOf tapes) 9 (by decide) (by decide) _ _ he
  exact ⟨⟨_, rfl, by decide⟩, 9, _, _, k, _, he, readInfoPage_tapes, hrecord, rfl, hk, hvalue⟩

theorem advertised_selects_tape : Selects (contextOf tapes) (ascii "pong") (ascii "tape") 0 0 :=
  (advertised_selects_iff (contextOf tapes) parseCatalog_tapes cleanIds_tapes
    (advertises_tapes 0 rfl rfl (by decide +kernel)) (by decide) rfl rfl).2 (by decide)

/-- The download with the long id is advertised under its first 64 bytes, and asking for these
gives NOT_FOUND. -/
theorem advertised_not_found :
    (∃ data, parseCatalog data = some (contextOf tapes).packages) ∧
    CleanIds (contextOf tapes).packages ∧
    Advertises (contextOf tapes) 0 1 (ascii "pong")
      (ascii "tape-tape-tape-tape-tape-tape-tape-tape-tape-tape-tape-tape-tape") ∧
    ¬ Selects (contextOf tapes) (ascii "pong")
      (ascii "tape-tape-tape-tape-tape-tape-tape-tape-tape-tape-tape-tape-tape") 0 1 ∧
    Exec (obeying (Delivers (contextOf tapes))) ()
      (handleRetroVaultRequest (contextOf tapes) (downloadRequest 0 0 (ascii "pong")
        (ascii "tape-tape-tape-tape-tape-tape-tape-tape-tape-tape-tape-tape-tape")) 255) ()
      (some [retroVaultOpDownload ||| retroVaultResponseBit, RetroVaultStatus.notFound.code],
        contextOf tapes) := by
  have hreply : Exec (obeying (Delivers (contextOf tapes))) ()
      (handleRetroVaultRequest (contextOf tapes) (downloadRequest 0 0 (ascii "pong")
        (ascii "tape-tape-tape-tape-tape-tape-tape-tape-tape-tape-tape-tape-tape")) 255) ()
      (some [retroVaultOpDownload ||| retroVaultResponseBit, RetroVaultStatus.notFound.code],
        contextOf tapes) := by
    have hfresh : catalogIsFresh (contextOf tapes) 1 = true := by decide
    have hsteps : Steps (obeying (Delivers (contextOf tapes))) () [⟨Call.time, (1 : Int)⟩] () :=
      .cons hfresh (.nil ())
    exact exec_of_replay rfl hsteps
  refine ⟨⟨_, parseCatalog_tapes⟩, cleanIds_tapes,
    advertises_tapes 1 (by decide) rfl (by decide +kernel), ?_, hreply⟩
  intro h
  exact (h.reply 0 _ _ hreply).1 rfl

end SquidServer.RetroVault

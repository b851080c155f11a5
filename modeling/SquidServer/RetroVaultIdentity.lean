import SquidServer.RetroVaultTraversal

namespace SquidServer.RetroVault
open Interaction CText Wire
set_option autoImplicit true

variable {id : List UInt8}

theorem downloadValue_eq_iff {download other : RetroVaultDownload} :
    downloadValue download = downloadValue other ↔
      downloadRecord download = downloadRecord other := by
  constructor
  · intro h
    have hread := readDownloadValue_downloadValue download
    rw [h, readDownloadValue_downloadValue] at hread
    exact (Option.some.inj hread).symm
  · intro h
    simp only [downloadRecord, DownloadRecord.mk.injEq] at h
    obtain ⟨hid, hlabel, hformat, hsize, hcount⟩ := h
    rw [downloadValue, downloadValue, hid, hlabel, hformat, hsize, hcount]

/-- INFO shows the same of both packages: texts up to the 247 bytes of a record, and of the
downloads those to which a 16-bit number leads. The model of a package is not shown. -/
structure SameMetadata (package other : RetroVaultPackage) : Prop where
  id : longestPrefix package.id.bytes 247 = longestPrefix other.id.bytes 247
  name : longestPrefix package.name.bytes 247 = longestPrefix other.name.bytes 247
  vendor : longestPrefix package.vendor.bytes 247 = longestPrefix other.vendor.bytes 247
  platformId : longestPrefix package.platformId.bytes 247 = longestPrefix other.platformId.bytes 247
  platformName :
    longestPrefix package.platformName.bytes 247 = longestPrefix other.platformName.bytes 247
  version : longestPrefix package.version.bytes 247 = longestPrefix other.version.bytes 247
  releaseYear : package.releaseYear = other.releaseYear
  rating : package.rating = other.rating
  description :
    longestPrefix package.description.bytes 247 = longestPrefix other.description.bytes 247
  downloads : ∀ n < 65527,
    package.downloads[n]?.map downloadRecord = other.downloads[n]?.map downloadRecord

section
variable {package other : RetroVaultPackage} {cursor : UInt16} {records : List InfoRecord}
  {page : Page}

theorem infoRecord_download_eq_iff (n : Nat) :
    infoRecord package (n + 9) = infoRecord other (n + 9) ↔
      package.downloads[n]?.map downloadRecord = other.downloads[n]?.map downloadRecord := by
  rw [infoRecord, infoRecord]
  cases package.downloads[n]? with
  | none => cases other.downloads[n]? <;> simp
  | some download =>
    cases other.downloads[n]? with
    | none => simp
    | some download' => simp [downloadValue_eq_iff]

theorem SameMetadata.record (h : SameMetadata package other) (hn : n < 65536) :
    infoRecord package n = infoRecord other n := by
  rw [infoRecord.eq_def package, infoRecord.eq_def other]
  split
  · rw [h.id]
  · rw [h.name]
  · rw [h.vendor]
  · rw [h.platformId]
  · rw [h.platformName]
  · rw [h.version]
  · rw [h.releaseYear]
  · rw [h.rating]
  · rw [h.description]
  · rename_i n
    exact (infoRecord_download_eq_iff n).2 (h.downloads n (by omega))

theorem sameMetadata_of_records (h : ∀ n < 65536, infoRecord package n = infoRecord other n) :
    SameMetadata package other := by
  have hvalue : ∀ {n : Nat} {type : UInt8} {value value' : List UInt8}, n < 65536 →
      infoRecord package n = some ⟨type, value⟩ → infoRecord other n = some ⟨type, value'⟩ →
      value = value' := by
    intro n type value value' hn hpackage hother
    have he := h n hn
    rw [hpackage, hother] at he
    cases he
    rfl
  refine ⟨hvalue (n := 0) (by decide) rfl rfl, hvalue (n := 1) (by decide) rfl rfl,
    hvalue (n := 2) (by decide) rfl rfl, hvalue (n := 3) (by decide) rfl rfl,
    hvalue (n := 4) (by decide) rfl rfl, hvalue (n := 5) (by decide) rfl rfl, ?_, ?_,
    hvalue (n := 8) (by decide) rfl rfl, ?_⟩
  · have hyear := hvalue (n := 6) (by decide) rfl rfl
    have hread := readU16_writeU16 [] package.releaseYear []
    rw [hyear, readU16_writeU16] at hread
    exact hread.symm
  · have hrating := hvalue (n := 7) (by decide) rfl rfl
    exact List.singleton_inj.1 hrating
  · intro n hn
    exact (infoRecord_download_eq_iff n).1 (h (n + 9) (by omega))

theorem downloads_end_iff (package : RetroVaultPackage) (n : Nat) :
    9 + package.downloads.length ≤ n ↔ infoRecord package n = none := by
  rw [infoRecord_eq_getElem?, List.getElem?_eq_none_iff, length_infoRecords]

theorem infoPage_congr (h : ∀ n < 65536, infoRecord package n = infoRecord other n)
    (hholds : InfoHolds package cursor records page) (fuel : Nat) :
    infoPage package 255 fuel page = infoPage other 255 fuel page := by
  induction fuel generalizing records page with
  | zero => rfl
  | succ n ih =>
    have hrecord := h page.index.toNat page.index.toNat_lt
    have hend : 9 + package.downloads.length ≤ page.index.toNat ↔
        9 + other.downloads.length ≤ page.index.toNat := by
      rw [downloads_end_iff, downloads_end_iff, hrecord]
    rw [infoPage, infoPage, makeInfoRecord_eq, makeInfoRecord_eq, ← hrecord]
    by_cases hlast : 9 + package.downloads.length ≤ page.index.toNat
    · rw [if_pos hlast, if_pos (hend.1 hlast)]
    · rw [if_neg hlast, if_neg fun h => hlast (hend.2 h)]
      obtain ⟨record, hsome⟩ := infoRecord_exists (Nat.lt_of_not_le hlast)
      rw [hsome]
      dsimp only [Option.map_some]
      by_cases hfull : page.room 255 < record.bytes.length
      · have hcount := (hholds.nonempty hsome hfull).2
        rw [if_pos hfull, if_pos hfull, if_neg hcount, if_neg hcount]
      · have hroom := hholds.room_eq
        have hbound := hholds.room
        rw [if_neg hfull, if_neg hfull]
        exact ih (hholds.push hsome (by omega))

theorem writeInfoPage_congr (h : ∀ n < 65536, infoRecord package n = infoRecord other n)
    (cursor : UInt16) :
    writeInfoPage retroVaultOpInfo package cursor 255 =
      writeInfoPage retroVaultOpInfo other cursor 255 := by
  have hbehind : 9 + package.downloads.length < cursor.toNat ↔
      9 + other.downloads.length < cursor.toNat := by
    have hlt := cursor.toNat_lt
    have hend : 9 + package.downloads.length ≤ cursor.toNat - 1 ↔
        9 + other.downloads.length ≤ cursor.toNat - 1 := by
      rw [downloads_end_iff, downloads_end_iff, h _ (by omega)]
    omega
  rw [writeInfoPage, writeInfoPage, infoPage_congr h (infoHolds_start package cursor)]
  simp only [hbehind]

theorem readInfoPage_head (package : RetroVaultPackage) (cursor : UInt16) :
    (readInfoPage (writeInfoPage retroVaultOpInfo package cursor 255)).bind List.head? =
      infoRecord package cursor.toNat := by
  by_cases hbehind : 9 + package.downloads.length < cursor.toNat
  · rw [(downloads_end_iff package cursor.toNat).1 (Nat.le_of_lt hbehind), writeInfoPage,
      if_pos (.inr hbehind)]
    rfl
  · obtain ⟨next, page, records, hrun, hholds, hstop⟩ := infoPage_start package cursor
    have hread := readRecords_bytes records hholds.size
    rw [← hholds.count, ← hholds.bytes] at hread
    rw [writeInfoPage, if_neg (not_or.2 ⟨by decide, hbehind⟩), hrun, answerPage, readInfoPage,
      readPage_pageResponse, Option.bind_eq_bind, Option.bind_some]
    dsimp only
    rw [hread, Option.bind_some]
    cases records with
    | nil =>
      have hindex : page.index = cursor := by
        rw [hholds.index]
        simp
      rcases hstop with ⟨-, hend⟩ | ⟨-, -, hne⟩
      · rw [hindex] at hend
        exact ((downloads_end_iff package cursor.toNat).1 hend).symm
      · exact absurd rfl hne
    | cons record records =>
      have hfirst := hholds.numbers 0 record rfl
      rw [show UInt16.ofNat 0 = 0 from rfl, UInt16.add_zero] at hfirst
      exact hfirst.symm

/-- The INFO pages of two packages are the same where they show the same. -/
theorem writeInfoPage_eq_iff :
    (∀ cursor, writeInfoPage retroVaultOpInfo package cursor 255 =
      writeInfoPage retroVaultOpInfo other cursor 255) ↔ SameMetadata package other := by
  constructor
  · intro h
    apply sameMetadata_of_records
    intro n hn
    have hcursor : (UInt16.ofNat n).toNat = n := UInt16.toNat_ofNat_of_lt' hn
    rw [← hcursor, ← readInfoPage_head, ← readInfoPage_head, h]
  · intro h
    exact writeInfoPage_congr fun n hn => h.record hn

end

/-- A LIST or SEARCH of a catalog that stays in use returns the entry of the package at place
`i`. -/
def Lists (context : RetroVaultContext) (browse : Browse) (i : Nat) (entry : CatalogEntry) : Prop :=
  browse.Fits ∧
  (∃ package, context.packages[i]? = some package ∧
    packageMatches package browse.filter = true ∧ listedEntries package = [entry]) ∧
  ∃ cursor reply answer,
    Exec (obeying (StaysCached context)) ()
      (handleRetroVaultRequest context (browse.request cursor) 255) () (reply, context) ∧
    readCatalogPage browse.opcode reply = some answer ∧ entry ∈ answer.entries

theorem Lists.fresh (h : Lists context browse i entry) :
    ∃ now, catalogIsFresh context now = true := by
  obtain ⟨-, -, cursor, reply, answer, he, hread, -⟩ := h
  by_contra hstale
  have hnone : Ensures (obeying (StaysCached context))
      (handleRetroVaultRequest context (browse.request cursor) 255)
      (fun r _ => readCatalogPage browse.opcode r.1 = none) () := by
    rw [handleRetroVaultRequest_listOrSearch, handleListOrSearch]
    split
    · exact ensures_pure.2 rfl
    · refine ensures_bind.2 (ensures_bind.2 (ensures_ask fun now _ hnow => ?_))
      exact absurd ⟨now, hnow⟩ hstale
  rw [hnone _ _ he] at hread
  cases hread

/-- INFO for the id, with the same catalog, returns the records of this package from every
cursor on. -/
def InfoIsFor (context : RetroVaultContext) (id : List UInt8) (package : RetroVaultPackage) :
    Prop :=
  ∀ cursor, Ensures (obeying (StaysCached context))
    (handleRetroVaultRequest context (infoRequest cursor id) 255)
    (fun r _ => r = (writeInfoPage retroVaultOpInfo package cursor 255, context)) ()

/-- INFO answers with the first package that has the id. -/
theorem infoIsFor_iff (hfresh : catalogIsFresh context now = true) (hne : id ≠ [])
    (hsize : id.length ≤ 251) (hfind : findPackage context.packages id = some j)
    (hother : context.packages[j]? = some other) :
    InfoIsFor context id package ↔ SameMetadata other package := by
  rw [← writeInfoPage_eq_iff]
  have hreply : ∀ cursor, Ensures (obeying (StaysCached context))
      (handleRetroVaultRequest context (infoRequest cursor id) 255)
      (fun r _ => r = (writeInfoPage retroVaultOpInfo other cursor 255, context)) () := by
    intro cursor
    rw [← infoReply_found hfind hother cursor]
    exact handleRetroVaultRequest_info context cursor hne hsize
  constructor
  · intro h cursor
    obtain ⟨_, r, he⟩ := exists_exec (obeying_answers (fresh_answers hfresh))
      (handleRetroVaultRequest context (infoRequest cursor id) 255) ()
    have hr := hreply cursor _ _ he
    rw [h cursor _ _ he] at hr
    exact (congrArg Prod.fst hr).symm
  · intro h cursor
    rw [← h cursor]
    exact hreply cursor

theorem listedEntries_id (h : entry ∈ listedEntries package) :
    entry.id = package.id.bytes ∧ package.id.bytes.length ≤ 247 := by
  rw [listedEntries] at h
  split at h
  · rename_i hid
    rw [List.mem_singleton] at h
    rw [h]
    exact ⟨rfl, hid⟩
  · cases h

/-- INFO for a listed id returns the records of the listed package exactly where the first package
with that id shows the same metadata. LIST and SEARCH look at the platform, the model and the query
of a package; INFO takes the first package of the whole catalog. -/
theorem info_of_listed_iff (context : RetroVaultContext)
    (hcatalog : parseCatalog data = some context.packages)
    (hlisted : Lists context browse i entry) (hpackage : context.packages[i]? = some package) :
    InfoIsFor context entry.id package ↔
      ∀ (j : Nat) (other : RetroVaultPackage), context.packages[j]? = some other →
        foldCase other.id.bytes = foldCase entry.id →
        (∀ (k : Nat) (earlier : RetroVaultPackage), k < j → context.packages[k]? = some earlier →
          foldCase earlier.id.bytes ≠ foldCase entry.id) →
        SameMetadata other package := by
  obtain ⟨now, hfresh⟩ := hlisted.fresh
  obtain ⟨-, ⟨_, hget, -, hentry⟩, -⟩ := hlisted
  cases hpackage.symm.trans hget
  obtain ⟨hid, hsize⟩ := listedEntries_id (by rw [hentry]; exact List.mem_singleton_self entry)
  have hmem := List.mem_of_getElem? hpackage
  have hvalid := (parseCatalog_valid hcatalog).2 package hmem
  have hne : entry.id ≠ [] := by
    rw [hid]
    exact hvalid.id
  have hlength : entry.id.length ≤ 251 := by
    rw [hid]
    omega
  constructor
  · intro h j other hother hfold hfirst
    have hfind : findPackage context.packages entry.id = some j :=
      findPackage_iff.2 ⟨⟨other, hother, hfold⟩, hfirst⟩
    exact (infoIsFor_iff hfresh hne hlength hfind hother).1 h
  · intro h
    obtain ⟨j, hfind⟩ := findPackage_exists hmem (congrArg foldCase hid.symm)
    obtain ⟨⟨other, hother, hfold⟩, hfirst⟩ := findPackage_iff.1 hfind
    exact (infoIsFor_iff hfresh hne hlength hfind hother).2 (h j other hother hfold hfirst)

theorem lists_of_page (hpackages : packages ≠ []) (h : browse.Fits)
    (hpackage : packages[i]? = some package) (hmatch : packageMatches package browse.filter = true)
    (hentry : listedEntries package = [entry])
    (hpage : ∃ answer, readCatalogPage browse.opcode
      (writeCatalogPage (contextOf packages) browse.opcode 0 browse.filter 255) = some answer ∧
      entry ∈ answer.entries) : Lists (contextOf packages) browse i entry := by
  obtain ⟨answer, hread, hmem⟩ := hpage
  obtain ⟨_, r, he⟩ := exists_exec (obeying_answers (staysCached_answers hpackages))
    (handleRetroVaultRequest (contextOf packages) (browse.request 0) 255) ()
  cases handleRetroVaultRequest_browse h (contextOf packages) (by decide) _ _ he
  exact ⟨h, ⟨package, hpackage, hmatch, hentry⟩, 0, _, answer, he, hread, hmem⟩

/-- One game for two models of a computer: what INFO shows does not tell them apart. -/
def twoModels : List RetroVaultPackage :=
  [{ samplePackage "pong" "Pong" "idp" [] with modelId := .ofBytes (ascii "a") },
    { samplePackage "pong" "Pong" "idp" [] with modelId := .ofBytes (ascii "b") }]

theorem parseCatalog_twoModels : parseCatalog (ascii
    "[\x7b\"id\":\"pong\",\"name\":\"Pong\",\"platformId\":\"idp\",\"modelId\":\"a\"\x7d,
      \x7b\"id\":\"pong\",\"name\":\"Pong\",\"platformId\":\"idp\",\"modelId\":\"b\"\x7d]") =
    some twoModels := by
  rw [ascii, String.toList_ofList]
  decide +kernel

/-- The second one is listed for its model, and INFO returns its records. -/
theorem info_of_listed_second_model : InfoIsFor (contextOf twoModels) (ascii "pong")
    { samplePackage "pong" "Pong" "idp" [] with modelId := .ofBytes (ascii "b") } := by
  have hlisted : Lists (contextOf twoModels) ⟨ascii "idp", none, some (ascii "b")⟩ 1
      ⟨ascii "pong", ascii "Pong"⟩ :=
    lists_of_page (by decide) ⟨by decide, by decide⟩ rfl (by decide) (by decide +kernel)
      ⟨⟨[⟨ascii "pong", ascii "Pong"⟩], none⟩, by decide +kernel, by decide⟩
  refine (info_of_listed_iff (contextOf twoModels) parseCatalog_twoModels hlisted rfl).2 ?_
  intro j other hother _ _
  match j with
  | 0 | 1 =>
    cases hother
    exact ⟨rfl, rfl, rfl, rfl, rfl, rfl, rfl, rfl, rfl, fun _ _ => rfl⟩

/-- The same game for two platforms, as a catalog of two packages. -/
def pongs : List RetroVaultPackage :=
  [samplePackage "pong" "Pong" "idp" [], samplePackage "pong" "Ping" "zxs" []]

theorem parseCatalog_pongs : parseCatalog (ascii
    "[\x7b\"id\":\"pong\",\"name\":\"Pong\",\"platformId\":\"idp\"\x7d,
      \x7b\"id\":\"pong\",\"name\":\"Ping\",\"platformId\":\"zxs\"\x7d]") = some pongs := by
  rw [ascii, String.toList_ofList]
  decide +kernel

/-- The game for the Spectrum is listed, and INFO tells about the one for the Partner. -/
theorem info_of_listed_other_platform :
    (∃ data, parseCatalog data = some (contextOf pongs).packages) ∧
    Lists (contextOf pongs) ⟨ascii "zxs", none, none⟩ 1 ⟨ascii "pong", ascii "Ping"⟩ ∧
    ¬ InfoIsFor (contextOf pongs) (ascii "pong") (samplePackage "pong" "Ping" "zxs" []) ∧
    ∃ reply records, Exec (obeying (StaysCached (contextOf pongs))) ()
        (handleRetroVaultRequest (contextOf pongs) (infoRequest 0 (ascii "pong")) 255) ()
        (reply, contextOf pongs) ∧
      readInfoPage reply = some records ∧
      ⟨retroVaultInfoName, ascii "Pong"⟩ ∈ records ∧
      ⟨retroVaultInfoName, ascii "Ping"⟩ ∉ records := by
  have hlisted : Lists (contextOf pongs) ⟨ascii "zxs", none, none⟩ 1
      ⟨ascii "pong", ascii "Ping"⟩ :=
    lists_of_page (by decide) ⟨by decide, by decide⟩ rfl (by decide) (by decide +kernel)
      ⟨⟨[⟨ascii "pong", ascii "Ping"⟩], none⟩, by decide +kernel, by decide⟩
  obtain ⟨_, r, he⟩ := exists_exec (obeying_answers (staysCached_answers (List.cons_ne_nil _ _)))
    (handleRetroVaultRequest (contextOf pongs) (infoRequest 0 (ascii "pong")) 255) ()
  cases handleRetroVaultRequest_info (contextOf pongs) 0 (by decide) (by decide) _ _ he
  refine ⟨⟨_, parseCatalog_pongs⟩, hlisted, ?_, _,
    [⟨retroVaultInfoId, ascii "pong"⟩, ⟨retroVaultInfoName, ascii "Pong"⟩,
      ⟨retroVaultInfoVendor, []⟩, ⟨retroVaultInfoPlatformId, ascii "idp"⟩,
      ⟨retroVaultInfoPlatformName, []⟩, ⟨retroVaultInfoVersion, []⟩,
      ⟨retroVaultInfoYear, [0, 0]⟩, ⟨retroVaultInfoRating, [0]⟩,
      ⟨retroVaultInfoDescription, []⟩], he, by decide +kernel, by decide, by decide⟩
  intro h
  have hreply := congrArg Prod.fst (h 0 _ _ he)
  exact absurd hreply (by decide +kernel)

end SquidServer.RetroVault

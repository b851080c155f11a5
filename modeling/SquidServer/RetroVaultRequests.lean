import SquidServer.RetroVaultIdentity

namespace SquidServer.RetroVault
open Interaction CText Wire
set_option autoImplicit true

/-- What a request that needs the catalog asks for. -/
inductive Fields where
  | browse (opcode : UInt8) (cursor : UInt16) (filter : CatalogFilter)
  | info (cursor : UInt16) (id : List UInt8)
  | download (fields : DownloadRequest)

/-- The layouts of the requests. A model that is left out and one of no bytes ask for the same. -/
inductive Encodes : List UInt8 → Fields → Prop
  | browse (browse : Browse) : browse.Sized → cursor ≠ retroVaultCursorEnd →
      Encodes (browse.request cursor) (.browse browse.opcode cursor browse.filter)
  | info : packageId ≠ [] → packageId.length < 256 →
      Encodes (infoRequest cursor packageId) (.info cursor packageId)
  | download : packageId ≠ [] → packageId.length < 256 → downloadId ≠ [] →
      downloadId.length < 256 →
      Encodes (downloadRequest offset maximumBytes packageId downloadId)
        (.download ⟨offset, maximumBytes, packageId, downloadId⟩)

/-- The id and the cursor of an INFO request, where `handle_info` accepts it. -/
def parseInfo (request : List UInt8) : Option (UInt16 × List UInt8) :=
  let idSize := (byteAt request 3).toNat
  if request.length < 4 ∨ idSize = 0 ∨ idSize ≠ request.length - 4 then none
  else some (readU16 request 1, request.drop 4)

/-- The fields that the handlers read from a request. -/
def parseFields (request : List UInt8) : Option Fields :=
  match request with
  | [] => none
  | opcode :: _ =>
    if opcode = retroVaultOpList ∨ opcode = retroVaultOpSearch then
      (parseListOrSearch opcode request).map fun fields => .browse opcode fields.1 fields.2
    else if opcode = retroVaultOpInfo then
      (parseInfo request).map fun fields => .info fields.1 fields.2
    else if opcode = retroVaultOpDownload then (parseDownloadRequest request).map .download
    else none

-- What the handlers do once they have read the fields.

def performBrowse (context : RetroVaultContext) (opcode : UInt8) (cursor : UInt16)
    (filter : CatalogFilter) (responseCapacity : Nat) :
    Program Services (Response × RetroVaultContext) := do
  let (status, context) ← ensureCatalog context
  if status ≠ .ok then return (writeErrorResponse opcode status responseCapacity, context)
  else return (writeCatalogPage context opcode cursor filter responseCapacity, context)

def performInfo (context : RetroVaultContext) (cursor : UInt16) (id : List UInt8)
    (responseCapacity : Nat) : Program Services (Response × RetroVaultContext) := do
  let (status, context) ← ensureCatalog context
  if status ≠ .ok then
    return (writeErrorResponse retroVaultOpInfo status responseCapacity, context)
  else match (findPackage context.packages id).bind (context.packages[·]?) with
    | none => return (writeErrorResponse retroVaultOpInfo .notFound responseCapacity, context)
    | some package =>
      return (writeInfoPage retroVaultOpInfo package cursor responseCapacity, context)

def performDownload (context : RetroVaultContext) (fields : DownloadRequest)
    (responseCapacity : Nat) : Program Services (Response × RetroVaultContext) := do
  let (status, context) ← ensureDownload context fields.packageId fields.downloadId
  if status ≠ .ok then
    return (writeErrorResponse retroVaultOpDownload status responseCapacity, context)
  else
    return (answerDownload retroVaultOpDownload fields context.downloadData responseCapacity,
      context)

/-- A handler from the call of `ensure_catalog` or `ensure_download` on. -/
def Fields.perform (context : RetroVaultContext) (responseCapacity : Nat) :
    Fields → Program Services (Response × RetroVaultContext)
  | .browse opcode cursor filter => performBrowse context opcode cursor filter responseCapacity
  | .info cursor id => performInfo context cursor id responseCapacity
  | .download fields => performDownload context fields responseCapacity

theorem text_of_size {text : List UInt8} {size : UInt8} (h : text.length = size.toNat)
    (hpos : size.toNat ≠ 0) : text ≠ [] ∧ text.length < 256 := by
  refine ⟨?_, h ▸ UInt8.toNat_lt size⟩
  intro hempty
  rw [hempty] at h
  exact hpos h.symm

theorem parseQuery_eq_some (h : parseQuery request offset = some (query, next)) :
    (query ≠ [] ∧ query.length < 256) ∧
      request.drop offset = countedText query ++ request.drop next := by
  rw [parseQuery] at h
  split at h
  · cases h
  rename_i hoffset
  dsimp only at h
  split at h
  · cases h
  rename_i hsize
  obtain ⟨rfl, rfl⟩ := Prod.mk.inj (Option.some.inj h)
  obtain ⟨hpos, hroom⟩ := not_or.1 hsize
  have hlength : ((request.drop (offset + 1)).take (byteAt request offset).toNat).length =
      (byteAt request offset).toNat := by
    rw [List.length_take, List.length_drop]
    omega
  exact ⟨text_of_size hlength hpos, drop_counted (by omega)⟩

theorem parseModel_eq_some (h : parseModel request offset = some model) :
    ∃ sent : Option (List UInt8), sent.getD [] = model ∧ (∀ text ∈ sent, text.length < 256) ∧
      request.drop offset = sent.elim [] countedText := by
  rw [parseModel] at h
  split at h
  · rename_i hoffset
    split at h
    · cases h
    · rename_i hcount
      rw [not_not] at hcount
      refine ⟨some model, rfl, ?_, ?_⟩
      · intro text htext
        rw [← Option.mem_some.1 htext, ← Option.some.inj h, List.length_drop, ← hcount]
        exact UInt8.toNat_lt _
      · rw [← Option.some.inj h]
        exact drop_last_counted hoffset hcount
  · rename_i hoffset
    split at h
    · cases h
    · refine ⟨none, Option.some.inj h, ?_, List.drop_eq_nil_of_le (Nat.not_lt.1 hoffset)⟩
      intro text htext
      cases htext

theorem parseListOrSearch_eq_some (hop : opcode = retroVaultOpList ∨ opcode = retroVaultOpSearch)
    (h : parseListOrSearch opcode (opcode :: rest) = some (cursor, filter)) :
    Encodes (opcode :: rest) (.browse opcode cursor filter) := by
  generalize hrequest : opcode :: rest = request at h ⊢
  rw [parseListOrSearch] at h
  split at h
  · cases h
  rename_i hsize
  dsimp only at h
  split at h
  · cases h
  rename_i hcursor
  split at h
  · cases h
  rename_i hroom
  split at h
  · cases h
  rename_i query offset hquery
  obtain ⟨model, hmodel, heq⟩ := Option.map_eq_some_iff.1 h
  obtain ⟨rfl, rfl⟩ := Prod.mk.inj heq
  obtain ⟨sent, rfl, hsent, htail⟩ := parseModel_eq_some hmodel
  generalize hplatform : (request.drop 4).take (byteAt request 3).toNat = platform
  have hplatformSize : platform.length < 256 := by
    rw [← hplatform]
    exact Nat.lt_of_le_of_lt (List.length_take_le _ _) (UInt8.toNat_lt _)
  have hheader : request = opcode :: (writeU16 (readU16 request 1) ++ (countedText platform ++
      request.drop (4 + (byteAt request 3).toNat))) := by
    have hcounted := drop_counted (show 3 + 1 + (byteAt request 3).toNat ≤ request.length by omega)
    rw [hplatform] at hcounted
    rw [← hcounted, ← writeU16_readU16 (show 1 + 2 ≤ request.length by omega), ← hrequest]
    rfl
  generalize readU16 request 1 = cursor at hcursor hheader ⊢
  rcases hop with rfl | rfl
  · obtain ⟨rfl, rfl⟩ := Prod.mk.inj (Option.some.inj (hquery.symm.trans (if_neg (by decide))))
    have hsplit : request = Browse.request ⟨platform, none, sent⟩ cursor := by
      rw [htail] at hheader
      simpa [Browse.request, Browse.opcode] using hheader
    have hsized : Browse.Sized ⟨platform, none, sent⟩ :=
      ⟨hplatformSize, fun text htext => (Option.not_mem_none text htext).elim, hsent⟩
    rw [hsplit]
    exact .browse _ hsized hcursor
  · rw [if_pos rfl] at hquery
    obtain ⟨hquerySize, hcounted⟩ := parseQuery_eq_some hquery
    have hsplit : request = Browse.request ⟨platform, some query, sent⟩ cursor := by
      rw [hcounted, htail] at hheader
      simpa [Browse.request, Browse.opcode] using hheader
    have hsized : Browse.Sized ⟨platform, some query, sent⟩ := by
      refine ⟨hplatformSize, ?_, hsent⟩
      intro text htext
      rw [← Option.mem_some.1 htext]
      exact hquerySize
    rw [hsplit]
    exact .browse _ hsized hcursor

theorem parseInfo_eq_some (h : parseInfo (retroVaultOpInfo :: rest) = some (cursor, packageId)) :
    Encodes (retroVaultOpInfo :: rest) (.info cursor packageId) := by
  generalize hrequest : retroVaultOpInfo :: rest = request at h ⊢
  rw [parseInfo] at h
  split at h
  · cases h
  rename_i hsize
  obtain ⟨rfl, rfl⟩ := Prod.mk.inj (Option.some.inj h)
  simp only [not_or, not_lt, not_not] at hsize
  obtain ⟨hlength, hpos, hcount⟩ := hsize
  have hid : (request.drop 4).length = (byteAt request 3).toNat := by
    rw [List.length_drop, hcount]
  have hsplit : request = infoRequest (readU16 request 1) (request.drop 4) := by
    rw [infoRequest, ← drop_last_counted (show 3 < request.length by omega) hcount,
      List.cons_append, ← writeU16_readU16 (show 1 + 2 ≤ request.length by omega), ← hrequest]
    rfl
  have hencodes : Encodes (infoRequest (readU16 request 1) (request.drop 4))
      (.info (readU16 request 1) (request.drop 4)) := by
    obtain ⟨hne, hsize⟩ := text_of_size hid hpos
    exact .info hne hsize
  rwa [← hsplit] at hencodes

theorem parseDownloadRequest_eq_some
    (h : parseDownloadRequest (retroVaultOpDownload :: rest) = some fields) :
    Encodes (retroVaultOpDownload :: rest) (.download fields) := by
  generalize hrequest : retroVaultOpDownload :: rest = request at h ⊢
  rw [parseDownloadRequest] at h
  split at h
  · cases h
  rename_i hlength
  dsimp only at h
  split at h
  · cases h
  rename_i hpackage
  split at h
  · cases h
  rename_i hcursor
  split at h
  · cases h
  rename_i hdownload
  rw [← Option.some.inj h]
  simp only [not_or, not_lt, not_not] at hpackage hdownload
  generalize hpackageId : (request.drop 7).take (byteAt request 6).toNat = packageId
  have hpackageSize : packageId.length = (byteAt request 6).toNat := by
    rw [← hpackageId, List.length_take, List.length_drop]
    omega
  have hdownloadSize : (request.drop (7 + (byteAt request 6).toNat + 1)).length =
      (byteAt request (7 + (byteAt request 6).toNat)).toNat := by
    rw [List.length_drop, hdownload.2]
  have hsplit : request = downloadRequest (readU32 request 1) (byteAt request 5) packageId
      (request.drop (7 + (byteAt request 6).toNat + 1)) := by
    have hmaximum : request.drop 5 = byteAt request 5 :: request.drop 6 :=
      byteAt_cons_drop (by omega)
    have hcounted := drop_counted (show 6 + 1 + (byteAt request 6).toNat ≤ request.length by omega)
    rw [hpackageId] at hcounted
    have hlast := drop_last_counted
      (show 7 + (byteAt request 6).toNat < request.length by omega) hdownload.2
    rw [hlast] at hcounted
    have hfields : rest = request.drop 1 := by
      rw [← hrequest]
      rfl
    rw [writeU32_readU32 (show 1 + 4 ≤ request.length by omega), hmaximum, hcounted] at hfields
    have hwhole : retroVaultOpDownload :: rest = retroVaultOpDownload :: _ :=
      congrArg (List.cons _) hfields
    rw [hrequest] at hwhole
    simpa [downloadRequest] using hwhole
  have hencodes : Encodes (downloadRequest (readU32 request 1) (byteAt request 5) packageId
      (request.drop (7 + (byteAt request 6).toNat + 1))) (.download ⟨readU32 request 1,
        byteAt request 5, packageId, request.drop (7 + (byteAt request 6).toNat + 1)⟩) := by
    obtain ⟨hne, hsize⟩ := text_of_size hpackageSize hpackage.1
    obtain ⟨hne', hsize'⟩ := text_of_size hdownloadSize hdownload.1
    exact .download hne hsize hne' hsize'
  rwa [← hsplit] at hencodes

theorem encodes_of_eq_some (h : parseFields request = some fields) : Encodes request fields := by
  rw [parseFields.eq_def] at h
  split at h
  · cases h
  rename_i opcode rest
  split at h
  · rename_i hop
    obtain ⟨read, hread, rfl⟩ := Option.map_eq_some_iff.1 h
    exact parseListOrSearch_eq_some hop hread
  split at h
  · rename_i hop
    obtain ⟨read, hread, rfl⟩ := Option.map_eq_some_iff.1 h
    subst hop
    exact parseInfo_eq_some hread
  split at h
  · rename_i hop
    obtain ⟨read, hread, rfl⟩ := Option.map_eq_some_iff.1 h
    subst hop
    exact parseDownloadRequest_eq_some hread
  · cases h

theorem Browse.opcode_cases (browse : Browse) :
    browse.opcode = retroVaultOpList ∨ browse.opcode = retroVaultOpSearch := by
  rw [Browse.opcode]
  split
  · exact .inr rfl
  · exact .inl rfl

theorem parseInfo_request (cursor : UInt16) (hne : packageId ≠ [])
    (hsize : packageId.length < 256) :
    parseInfo (infoRequest cursor packageId) = some (cursor, packageId) := by
  have hcount : (byteAt (infoRequest cursor packageId) 3).toNat = packageId.length :=
    UInt8.toNat_ofNat_of_lt' hsize
  have hcursor : readU16 (infoRequest cursor packageId) 1 = cursor := by
    have := readU16_writeU16 [retroVaultOpInfo] cursor (countedText packageId)
    simpa [infoRequest] using this
  have hlength : (infoRequest cursor packageId).length = packageId.length + 4 := rfl
  have hid : (infoRequest cursor packageId).drop 4 = packageId := rfl
  have hpos := List.length_pos_iff.2 hne
  rw [parseInfo, hcount, hlength, hcursor, hid]
  exact if_neg (by omega)

theorem Encodes.eq_some (h : Encodes request fields) : parseFields request = some fields := by
  cases h with
  | browse browse hsized hcursor =>
    change ite _ _ _ = _
    rw [if_pos browse.opcode_cases]
    rw [parseListOrSearch_request hsized hcursor]
    rfl
  | info hne hsize =>
    change (parseInfo (infoRequest _ _)).map _ = _
    rw [parseInfo_request _ hne hsize]
    rfl
  | download hne hsize hne' hsize' =>
    change (parseDownloadRequest (downloadRequest _ _ _ _)).map _ = _
    rw [parseDownloadRequest_request _ _ hsize hsize', if_neg (not_or.2 ⟨hne, hne'⟩)]
    rfl

theorem parseFields_iff : parseFields request = some fields ↔ Encodes request fields :=
  ⟨encodes_of_eq_some, Encodes.eq_some⟩

/-- What a handler does once a request has been read, or with one that cannot be read. -/
def answerFields (context : RetroVaultContext) (opcode : UInt8) (responseCapacity : Nat) :
    Option Fields → Program Services (Response × RetroVaultContext)
  | none => return (writeErrorResponse opcode .badRequest responseCapacity, context)
  | some fields => fields.perform context responseCapacity

theorem handleInfo_eq (context : RetroVaultContext) (rest : List UInt8) (responseCapacity : Nat) :
    handleInfo context retroVaultOpInfo (retroVaultOpInfo :: rest) responseCapacity =
      answerFields context retroVaultOpInfo responseCapacity
        ((parseInfo (retroVaultOpInfo :: rest)).map fun fields => .info fields.1 fields.2) := by
  rw [handleInfo, parseInfo]
  dsimp only
  split
  · rfl
  · rfl

/-- A request other than the one for the capabilities is read first. -/
theorem handleRetroVaultRequest_eq (context : RetroVaultContext)
    (h : opcode :: rest ≠ [retroVaultOpCapabilities]) :
    handleRetroVaultRequest context (opcode :: rest) 255 =
      answerFields context opcode 255 (parseFields (opcode :: rest)) := by
  rw [handleRetroVaultRequest, if_neg (by decide), parseFields]
  split
  · rename_i hcapabilities
    subst hcapabilities
    have hlong : (retroVaultOpCapabilities :: rest).length ≠ 1 := by
      intro hone
      rw [List.length_cons, Nat.add_eq_right, List.length_eq_zero_iff] at hone
      exact h (congrArg _ hone)
    rw [if_pos hlong, if_neg (by decide), if_neg (by decide), if_neg (by decide)]
    rfl
  split
  · rw [handleListOrSearch]
    cases parseListOrSearch opcode (opcode :: rest) with
    | none => rfl
    | some fields => rfl
  split
  · rename_i hop
    subst hop
    exact handleInfo_eq context rest 255
  split
  · rename_i hop
    subst hop
    rw [handleDownload, if_neg (by decide)]
    cases parseDownloadRequest (retroVaultOpDownload :: rest) with
    | none => rfl
    | some fields => rfl
  · rfl

/-- A request is read just when it is laid out as the fields it asks for, and it is then answered
for these fields. Any other is a bad request, and is answered without a call to the API. -/
theorem requests_read_exactly (context : RetroVaultContext) (opcode : UInt8) (rest : List UInt8)
    (h : opcode :: rest ≠ [retroVaultOpCapabilities]) :
    (∀ fields, parseFields (opcode :: rest) = some fields ↔ Encodes (opcode :: rest) fields) ∧
    (∀ fields, Encodes (opcode :: rest) fields →
      handleRetroVaultRequest context (opcode :: rest) 255 = fields.perform context 255) ∧
    ((∀ fields, ¬ Encodes (opcode :: rest) fields) →
      handleRetroVaultRequest context (opcode :: rest) 255 =
        pure (some [opcode ||| retroVaultResponseBit, RetroVaultStatus.badRequest.code],
          context)) := by
  rw [handleRetroVaultRequest_eq context h]
  refine ⟨fun fields => parseFields_iff, ?_, ?_⟩
  · intro fields hencodes
    rw [hencodes.eq_some]
    rfl
  · intro hnone
    have hread : parseFields (opcode :: rest) = none := by
      rw [Option.eq_none_iff_forall_ne_some]
      intro fields hfields
      exact hnone fields (parseFields_iff.1 hfields)
    rw [hread]
    rfl

/-- The request 02 00 00 00 04 70 6f 6e 67: a SEARCH for "pong" on any platform. -/
def searchPong : List UInt8 := [0, 0, 0, 4, 0x70, 0x6F, 0x6E, 0x67]

theorem requests_read_exactly_search :
    parseFields (retroVaultOpSearch :: searchPong) =
        some (.browse retroVaultOpSearch 0 ⟨[], [], ascii "pong"⟩) ∧
      handleRetroVaultRequest (contextOf pongs) (retroVaultOpSearch :: searchPong) 255 =
        performBrowse (contextOf pongs) retroVaultOpSearch 0 ⟨[], [], ascii "pong"⟩ 255 := by
  have hsized : Browse.Sized ⟨[], some (ascii "pong"), none⟩ := by
    refine ⟨by decide, ?_, fun text htext => (Option.not_mem_none text htext).elim⟩
    intro text htext
    rw [← Option.mem_some.1 htext]
    exact ⟨by decide, by decide⟩
  have hencodes : Encodes (retroVaultOpSearch :: searchPong)
      (.browse retroVaultOpSearch 0 ⟨[], [], ascii "pong"⟩) :=
    show Encodes (Browse.request ⟨[], some (ascii "pong"), none⟩ 0) _ from
      .browse _ hsized (by decide)
  obtain ⟨hread, hanswer, -⟩ := requests_read_exactly (contextOf pongs) retroVaultOpSearch
    searchPong (by decide)
  exact ⟨(hread _).2 hencodes, hanswer _ hencodes⟩

end SquidServer.RetroVault

import SquidServer.Interaction
import SquidServer.Wire
import SquidServer.RetroVaultCatalog

namespace SquidServer.RetroVault
open Interaction CText Wire
set_option autoImplicit true

abbrev retroVaultProtocolVersion : UInt8 := 1
abbrev retroVaultOpCapabilities : UInt8 := 0x00
abbrev retroVaultOpList : UInt8 := 0x01
abbrev retroVaultOpSearch : UInt8 := 0x02
abbrev retroVaultOpInfo : UInt8 := 0x03
abbrev retroVaultOpDownload : UInt8 := 0x04
abbrev retroVaultResponseBit : UInt8 := 0x80

inductive RetroVaultStatus where
  | ok | badRequest | apiUnavailable | notFound | tooLarge | internalError
deriving DecidableEq

def RetroVaultStatus.code : RetroVaultStatus → UInt8
  | .ok => 0x00
  | .badRequest => 0x01
  | .apiUnavailable => 0x02
  | .notFound => 0x03
  | .tooLarge => 0x04
  | .internalError => 0x05

abbrev retroVaultFeatureList : UInt8 := 0x01
abbrev retroVaultFeatureSearch : UInt8 := 0x02
abbrev retroVaultFeatureInfo : UInt8 := 0x04
abbrev retroVaultFeatureDownload : UInt8 := 0x08

abbrev retroVaultInfoId : UInt8 := 0x01
abbrev retroVaultInfoName : UInt8 := 0x02
abbrev retroVaultInfoVendor : UInt8 := 0x03
abbrev retroVaultInfoPlatformId : UInt8 := 0x04
abbrev retroVaultInfoPlatformName : UInt8 := 0x05
abbrev retroVaultInfoVersion : UInt8 := 0x06
abbrev retroVaultInfoYear : UInt8 := 0x07
abbrev retroVaultInfoRating : UInt8 := 0x08
abbrev retroVaultInfoDescription : UInt8 := 0x09
abbrev retroVaultInfoDownload : UInt8 := 0x0A

abbrev retroVaultCatalogLimit : Nat := 4 * 1024 * 1024
abbrev retroVaultDownloadLimit : Nat := 64 * 1024 * 1024
abbrev retroVaultPageHeaderSize : Nat := 5
abbrev retroVaultDownloadHeaderSize : Nat := 11
abbrev retroVaultApiPathMax : Nat := 768

abbrev retroVaultHttpOk : Int := 0
abbrev retroVaultHttpTooLarge : Int := -2

/-- `struct retro_vault_context`. `http` tells whether there is an HTTP client, and
`downloadPath` is the key under which `downloadData` is kept. -/
structure RetroVaultContext where
  http : Bool
  packages : List RetroVaultPackage
  catalogFetchedAt : Int
  catalogCacheSeconds : UInt32
  downloadData : List UInt8
  downloadPath : Option (List UInt8)
deriving DecidableEq

def initRetroVaultContext (http : Bool) : RetroVaultContext where
  http := http
  packages := []
  catalogFetchedAt := 0
  catalogCacheSeconds := 3600
  downloadData := []
  downloadPath := none

/-- What the plugin uses of its surroundings: the clock, the HTTP client and memory for a copy
of a path. -/
inductive Call where
  | time
  | httpGet (path : List UInt8) (sizeLimit : Nat)
  | malloc (size : Nat)
deriving DecidableEq

structure HttpAnswer where
  result : Int
  statusCode : Int
  body : List UInt8

abbrev Call.Ans : Call → Type
  | .time => Int
  | .httpGet _ _ => HttpAnswer
  | .malloc _ => Bool

abbrev Services : Effect := ⟨Call, Call.Ans⟩

def time : Program Services Int := .ask (E := Services) Call.time

def httpGet (path : List UInt8) (sizeLimit : Nat) : Program Services HttpAnswer :=
  .ask (E := Services) (Call.httpGet path sizeLimit)

def malloc (size : Nat) : Program Services Bool := .ask (E := Services) (Call.malloc size)

/-- A fetch that went through: no transport error, and a status of the 2xx class. -/
def HttpAnswer.succeeded (answer : HttpAnswer) : Bool :=
  answer.result = retroVaultHttpOk ∧ 200 ≤ answer.statusCode ∧ answer.statusCode < 300

def httpErrorStatus (answer : HttpAnswer) : RetroVaultStatus :=
  if answer.result = retroVaultHttpTooLarge then .tooLarge
  else if answer.statusCode = 404 ∨ answer.statusCode = 409 then .notFound
  else .apiUnavailable

def catalogPath : List UInt8 := ascii "/api/v1/catalog/packages"

/-- The catalog at hand may be used at time `now`. The age is one of an unsigned long. -/
def catalogIsFresh (context : RetroVaultContext) (now : Int) : Bool :=
  0 < context.packages.length ∧ now ≠ -1 ∧ context.catalogFetchedAt ≠ 0 ∧
    (now - context.catalogFetchedAt) % 2 ^ 64 < context.catalogCacheSeconds.toNat

def ensureCatalog (context : RetroVaultContext) :
    Program Services (RetroVaultStatus × RetroVaultContext) := do
  let now ← time
  if catalogIsFresh context now then return (.ok, context)
  else if ¬ context.http then return (.apiUnavailable, context)
  else
    let answer ← httpGet catalogPath retroVaultCatalogLimit
    match if answer.succeeded then parseCatalog answer.body else none with
    | none =>
      if 0 < context.packages.length then return (.ok, context)
      else if answer.result = retroVaultHttpOk then
        return (if answer.statusCode = 404 then .notFound else .internalError, context)
      else return (httpErrorStatus answer, context)
    | some packages =>
      return (.ok, { context with
        packages := packages
        catalogFetchedAt := if now ≠ -1 then now else 1 })

/-- The inner loop of `text_contains_case_insensitive`. -/
def queryStandsAt (text query : List UInt8) (start : Nat) : Bool :=
  (List.range query.length).all fun index =>
    toLower (text.getD (start + index) 0) = toLower (query.getD index 0)

def textContainsCaseInsensitive (text query : List UInt8) : Bool :=
  if query.length = 0 ∨ text.length < query.length then false
  else (List.range (text.length - query.length + 1)).any (queryStandsAt text query)

def filterMatchesAlias (filter : List UInt8) (canonical legacy : String) : Bool :=
  textEqualsCaseInsensitive (ascii canonical) filter ∨
    textEqualsCaseInsensitive (ascii legacy) filter

def textIsIdentifier (text : List UInt8) (identifier : String) : Bool :=
  textEqualsCaseInsensitive text (ascii identifier)

def platformIsIdp (platformId : List UInt8) : Bool :=
  textIsIdentifier platformId "idp" ∨ textIsIdentifier platformId "iskra-delta-partner"

def platformMatchesFilter (platformId filter : List UInt8) : Bool :=
  textEqualsCaseInsensitive platformId filter ∨
    platformIsIdp platformId ∧ filterMatchesAlias filter "idp" "iskra-delta-partner" ∨
    (textIsIdentifier platformId "zxs" ∨ textIsIdentifier platformId "zx-spectrum") ∧
      filterMatchesAlias filter "zxs" "zx-spectrum"

/-- The filters of LIST and SEARCH; a filter that is not given is empty. -/
structure CatalogFilter where
  platform : List UInt8
  model : List UInt8
  query : List UInt8
deriving DecidableEq

def packageMatches (package : RetroVaultPackage) (filter : CatalogFilter) : Bool :=
  if 0 < filter.platform.length ∧
      ¬ platformMatchesFilter package.platformId.bytes filter.platform then false
  else if 0 < filter.model.length ∧
      ¬ textEqualsCaseInsensitive package.modelId.bytes filter.model then false
  else if filter.query.length = 0 then true
  else textContainsCaseInsensitive package.id.bytes filter.query ∨
    textContainsCaseInsensitive package.name.bytes filter.query ∨
    textContainsCaseInsensitive package.vendor.bytes filter.query ∨
    textContainsCaseInsensitive package.description.bytes filter.query

/-- `make_list_entry`; `none` where it returns 0. -/
def makeListEntry (package : RetroVaultPackage) (entryCapacity : Nat) : Option (List UInt8) :=
  let id := package.id.bytes
  let name := package.name.bytes
  if entryCapacity < 2 ∨ 255 < id.length then none
  else if entryCapacity - 2 < id.length then none
  else
    let nameSize := min (shorten name (entryCapacity - id.length - 2)) 255
    some ([UInt8.ofNat id.length] ++ id ++ [UInt8.ofNat nameSize] ++ name.take nameSize)

def writeErrorResponse (opcode : UInt8) (status : RetroVaultStatus) (responseCapacity : Nat) :
    Response :=
  if responseCapacity < 2 then none else some [opcode ||| retroVaultResponseBit, status.code]

/-- What the loops that fill a page have written so far: the number of the next record, and the
records of the page with their count. -/
structure Page where
  index : UInt16
  count : UInt8
  records : List UInt8

def Page.push (page : Page) (record : List UInt8) : Page where
  index := page.index + 1
  count := page.count + 1
  records := page.records ++ record

def Page.skip (page : Page) : Page := { page with index := page.index + 1 }

/-- The room that is left in a response for the records of a page. -/
def Page.room (page : Page) (responseCapacity : Nat) : Nat :=
  responseCapacity - (retroVaultPageHeaderSize + page.records.length)

def pageResponse (opcode : UInt8) (nextCursor : UInt16) (page : Page) : List UInt8 :=
  [opcode ||| retroVaultResponseBit, RetroVaultStatus.ok.code] ++ writeU16 nextCursor ++
    [page.count] ++ page.records

/-- The end of the functions that write a page. -/
def answerPage (opcode : UInt8) (result : Except RetroVaultStatus (UInt16 × Page))
    (responseCapacity : Nat) : Response :=
  match result with
  | .error status => writeErrorResponse opcode status responseCapacity
  | .ok (nextCursor, page) => some (pageResponse opcode nextCursor page)

/-- The loop of `write_catalog_page` over the packages; the index counts matches. -/
def catalogPage (filter : CatalogFilter) (cursor : UInt16) (responseCapacity : Nat) :
    List RetroVaultPackage → Page → Except RetroVaultStatus (UInt16 × Page)
  | [], page => .ok (retroVaultCursorEnd, page)
  | package :: rest, page =>
    if ¬ packageMatches package filter then catalogPage filter cursor responseCapacity rest page
    else if page.index < cursor then catalogPage filter cursor responseCapacity rest page.skip
    else match makeListEntry package 249 with
      | none => catalogPage filter cursor responseCapacity rest page.skip
      | some entry =>
        if page.room responseCapacity < entry.length then
          if page.count = 0 then
            match makeListEntry package (page.room responseCapacity) with
            | none => .error .tooLarge
            | some entry => catalogPage filter cursor responseCapacity rest (page.push entry)
          else .ok (page.index, page)
        else catalogPage filter cursor responseCapacity rest (page.push entry)

def writeCatalogPage (context : RetroVaultContext) (opcode : UInt8) (cursor : UInt16)
    (filter : CatalogFilter) (responseCapacity : Nat) : Response :=
  if responseCapacity < retroVaultPageHeaderSize then none
  else answerPage opcode
    (catalogPage filter cursor responseCapacity context.packages ⟨0, 0, []⟩) responseCapacity

/-- The place of the package in the catalog that `find_package` points to. -/
def findPackage (packages : List RetroVaultPackage) (id : List UInt8) : Option Nat :=
  packages.findIdx? fun package => textEqualsCaseInsensitive package.id.bytes id

/-- `make_string_tlv`; `none` where it returns 0. -/
def makeStringTlv (type : UInt8) (text : CString) (recordCapacity : Nat) : Option (List UInt8) :=
  if recordCapacity < 2 then none
  else
    let textSize := min (shorten text.bytes (recordCapacity - 2)) 255
    some ([type, UInt8.ofNat textSize] ++ text.bytes.take textSize)

/-- `append_counted_text`; `none` where it returns 0. -/
def appendCountedText (outputCapacity : Nat) (text : CString) (maximumSize : Nat) :
    Option (List UInt8) :=
  if outputCapacity < 1 then none
  else
    let textSize := stepBack text.bytes
      (min (min (min text.bytes.length maximumSize) (outputCapacity - 1)) 255)
    some (UInt8.ofNat textSize :: text.bytes.take textSize)

/-- `make_download_tlv`; `none` where it returns 0. -/
def makeDownloadTlv (download : RetroVaultDownload) (recordCapacity : Nat) :
    Option (List UInt8) :=
  if recordCapacity < 10 then none
  else do
    let id ← appendCountedText (recordCapacity - 2 - 5) download.id 64
    let label ← appendCountedText (recordCapacity - (2 + id.length) - 5) download.label 96
    let format ← appendCountedText (recordCapacity - (2 + id.length + label.length) - 5)
      download.format 32
    let value := id ++ label ++ format ++ writeU32 download.aggregateSize ++ [download.fileCount]
    return [retroVaultInfoDownload, UInt8.ofNat value.length] ++ value

/-- `make_info_record`; `none` where it returns 0. -/
def makeInfoRecord (package : RetroVaultPackage) (cursor : UInt16) (recordCapacity : Nat) :
    Option (List UInt8) :=
  match cursor.toNat with
  | 0 => makeStringTlv retroVaultInfoId package.id recordCapacity
  | 1 => makeStringTlv retroVaultInfoName package.name recordCapacity
  | 2 => makeStringTlv retroVaultInfoVendor package.vendor recordCapacity
  | 3 => makeStringTlv retroVaultInfoPlatformId package.platformId recordCapacity
  | 4 => makeStringTlv retroVaultInfoPlatformName package.platformName recordCapacity
  | 5 => makeStringTlv retroVaultInfoVersion package.version recordCapacity
  | 6 =>
    if recordCapacity < 4 then none
    else some ([retroVaultInfoYear, 2] ++ writeU16 package.releaseYear)
  | 7 => if recordCapacity < 3 then none else some [retroVaultInfoRating, 1, package.rating]
  | 8 => makeStringTlv retroVaultInfoDescription package.description recordCapacity
  | n + 9 =>
    match package.downloads[n]? with
    | none => none
    | some download => makeDownloadTlv download recordCapacity

/-- The loop of `write_info_page`; the index is the cursor. Every turn writes at least two
bytes, so that a bound above the capacity is never reached. -/
def infoPage (package : RetroVaultPackage) (responseCapacity : Nat) :
    Nat → Page → Except RetroVaultStatus (UInt16 × Page)
  | 0, _ => .error .internalError
  | n + 1, page =>
    if 9 + package.downloads.length ≤ page.index.toNat then .ok (retroVaultCursorEnd, page)
    else match makeInfoRecord package page.index 249 with
      | none => .error .internalError
      | some record =>
        if page.room responseCapacity < record.length then
          if page.count = 0 then
            match makeInfoRecord package page.index (page.room responseCapacity) with
            | none => .error .tooLarge
            | some record => infoPage package responseCapacity n (page.push record)
          else .ok (page.index, page)
        else infoPage package responseCapacity n (page.push record)

def writeInfoPage (opcode : UInt8) (package : RetroVaultPackage) (cursor : UInt16)
    (responseCapacity : Nat) : Response :=
  if responseCapacity < retroVaultPageHeaderSize ∨ 9 + package.downloads.length < cursor.toNat then
    writeErrorResponse opcode .badRequest responseCapacity
  else answerPage opcode
    (infoPage package responseCapacity (responseCapacity + 1) ⟨cursor, 0, []⟩) responseCapacity

def isSafeCharacter (c : UInt8) : Bool :=
  0x61 ≤ c ∧ c ≤ 0x7A ∨ 0x41 ≤ c ∧ c ≤ 0x5A ∨ 0x30 ≤ c ∧ c ≤ 0x39 ∨ c = 0x2D ∨ c = 0x5F

def identifierIsSafe (identifier : List UInt8) : Bool :=
  0 < identifier.length ∧ identifier.all isSafeCharacter

def findDownload (package : RetroVaultPackage) (id : List UInt8) : Option Nat :=
  package.downloads.findIdx? fun download => textEqualsCaseInsensitive download.id.bytes id

/-- `snprintf` into a buffer of `pathSize` bytes; `none` where the text does not fit. -/
def printPath (pathSize : Nat) (text : List UInt8) : Option (List UInt8) :=
  if pathSize ≤ text.length then none else some text

def buildDownloadPath (package : RetroVaultPackage) (downloadId : CString) (disambiguate : Bool)
    (pathSize : Nat) : Option (List UInt8) :=
  if ¬ identifierIsSafe package.id.bytes ∨ ¬ identifierIsSafe downloadId.bytes ∨ pathSize = 0 then
    none
  else
    let base := ascii "/api/v1/catalog/packages/"
    let platformId := package.platformId.bytes
    let modelId := package.modelId.bytes
    if identifierIsSafe platformId ∧ ¬ disambiguate then
      if identifierIsSafe modelId then
        printPath pathSize (base ++ platformId ++ ascii "/" ++ modelId ++ ascii "/" ++
          package.id.bytes ++ ascii "/downloads/" ++ downloadId.bytes)
      else
        printPath pathSize (base ++ platformId ++ ascii "/" ++ package.id.bytes ++
          ascii "/downloads/" ++ downloadId.bytes)
    else if disambiguate ∧ identifierIsSafe platformId ∧ identifierIsSafe modelId then
      printPath pathSize (base ++ package.id.bytes ++ ascii "/downloads/" ++ downloadId.bytes ++
        ascii "?platformId=" ++ platformId ++ ascii "&modelId=" ++ modelId)
    else if disambiguate ∧ identifierIsSafe platformId then
      printPath pathSize (base ++ package.id.bytes ++ ascii "/downloads/" ++ downloadId.bytes ++
        ascii "?platformId=" ++ platformId)
    else
      printPath pathSize (base ++ package.id.bytes ++ ascii "/downloads/" ++ downloadId.bytes)

/-- `fetch_download`, with the answer it leaves behind. It runs only after a catalog has been
fetched, so that there is an HTTP client. -/
def fetchDownload (path : List UInt8) : Program Services (RetroVaultStatus × HttpAnswer) := do
  let answer ← httpGet path retroVaultDownloadLimit
  if answer.succeeded then return (.ok, answer) else return (httpErrorStatus answer, answer)

/-- The retry of `ensure_download` under the other path of the download. -/
def retryDownload (package : RetroVaultPackage) (download : RetroVaultDownload) (path : List UInt8)
    (first : RetroVaultStatus × HttpAnswer) : Program Services (RetroVaultStatus × HttpAnswer) :=
  if first.1 ≠ .ok ∧ first.2.statusCode = 409 then
    match buildDownloadPath package download.id true retroVaultApiPathMax with
    | some disambiguated =>
      if disambiguated ≠ path then fetchDownload disambiguated else return first
    | none => return first
  else return first

/-- The part of `ensure_download` after the download has been found. -/
def ensureDownloadOf (context : RetroVaultContext) (package : RetroVaultPackage)
    (download : RetroVaultDownload) :
    Program Services (RetroVaultStatus × RetroVaultContext) := do
  match buildDownloadPath package download.id false retroVaultApiPathMax with
  | none => return (.internalError, context)
  | some path =>
    if context.downloadPath = some path then return (.ok, context)
    else
      let (status, answer) ← retryDownload package download path (← fetchDownload path)
      if status ≠ .ok then return (status, context)
      else if ← malloc (path.length + 1) then
        return (.ok, { context with downloadData := answer.body, downloadPath := some path })
      else return (.internalError, context)

def ensureDownload (context : RetroVaultContext) (packageId downloadId : List UInt8) :
    Program Services (RetroVaultStatus × RetroVaultContext) := do
  if ¬ identifierIsSafe packageId ∨ ¬ identifierIsSafe downloadId then
    return (.badRequest, context)
  else
    let (status, context) ← ensureCatalog context
    if status ≠ .ok then return (status, context)
    else match (findPackage context.packages packageId).bind (context.packages[·]?) with
      | none => return (.notFound, context)
      | some package =>
        match (findDownload package downloadId).bind (package.downloads[·]?) with
        | none => return (.notFound, context)
        | some download => ensureDownloadOf context package download

def handleCapabilities (opcode : UInt8) (responseCapacity : Nat) : Response :=
  if responseCapacity < 7 then none
  else some [opcode ||| retroVaultResponseBit, RetroVaultStatus.ok.code, retroVaultProtocolVersion,
    retroVaultFeatureList ||| retroVaultFeatureSearch ||| retroVaultFeatureInfo |||
      retroVaultFeatureDownload,
    UInt8.ofNat retroVaultPageHeaderSize, UInt8.ofNat retroVaultDownloadHeaderSize,
    if retroVaultDownloadHeaderSize < responseCapacity then
      UInt8.ofNat (responseCapacity - retroVaultDownloadHeaderSize) else 0]

/-- The query of a SEARCH request that starts at `offset`, with the offset behind it. -/
def parseQuery (request : List UInt8) (offset : Nat) : Option (List UInt8 × Nat) :=
  if request.length ≤ offset then none
  else
    let querySize := (byteAt request offset).toNat
    if querySize = 0 ∨ request.length - (offset + 1) < querySize then none
    else some ((request.drop (offset + 1)).take querySize, offset + 1 + querySize)

/-- The optional model at the end of a LIST or SEARCH request. -/
def parseModel (request : List UInt8) (offset : Nat) : Option (List UInt8) :=
  if offset < request.length then
    if (byteAt request offset).toNat ≠ request.length - (offset + 1) then none
    else some (request.drop (offset + 1))
  else if offset ≠ request.length then none
  else some []

/-- The cursor and the filters of a LIST or SEARCH request. -/
def parseListOrSearch (opcode : UInt8) (request : List UInt8) : Option (UInt16 × CatalogFilter) :=
  if request.length < 4 then none
  else
    let cursor := readU16 request 1
    let platformSize := (byteAt request 3).toNat
    if cursor = retroVaultCursorEnd then none
    else if request.length - 4 < platformSize then none
    else
      let platform := (request.drop 4).take platformSize
      match if opcode = retroVaultOpSearch then parseQuery request (4 + platformSize)
        else some ([], 4 + platformSize) with
      | none => none
      | some (query, offset) =>
        (parseModel request offset).map fun model => (cursor, { platform, model, query })

def handleListOrSearch (context : RetroVaultContext) (opcode : UInt8) (request : List UInt8)
    (responseCapacity : Nat) : Program Services (Response × RetroVaultContext) := do
  match parseListOrSearch opcode request with
  | none => return (writeErrorResponse opcode .badRequest responseCapacity, context)
  | some (cursor, filter) =>
    let (status, context) ← ensureCatalog context
    if status ≠ .ok then return (writeErrorResponse opcode status responseCapacity, context)
    else return (writeCatalogPage context opcode cursor filter responseCapacity, context)

def handleInfo (context : RetroVaultContext) (opcode : UInt8) (request : List UInt8)
    (responseCapacity : Nat) : Program Services (Response × RetroVaultContext) := do
  let idSize := (byteAt request 3).toNat
  if request.length < 4 ∨ idSize = 0 ∨ idSize ≠ request.length - 4 then
    return (writeErrorResponse opcode .badRequest responseCapacity, context)
  else
    let (status, context) ← ensureCatalog context
    if status ≠ .ok then return (writeErrorResponse opcode status responseCapacity, context)
    else match (findPackage context.packages (request.drop 4)).bind (context.packages[·]?) with
      | none => return (writeErrorResponse opcode .notFound responseCapacity, context)
      | some package =>
        return (writeInfoPage opcode package (readU16 request 1) responseCapacity, context)

/-- The fields of a DOWNLOAD request. -/
structure DownloadRequest where
  offset : UInt32
  maximumBytes : UInt8
  packageId : List UInt8
  downloadId : List UInt8
deriving DecidableEq

def parseDownloadRequest (request : List UInt8) : Option DownloadRequest :=
  if request.length < 8 then none
  else
    let packageIdSize := (byteAt request 6).toNat
    let cursor := 7 + packageIdSize
    if packageIdSize = 0 ∨ request.length - 7 < packageIdSize then none
    else if request.length ≤ cursor then none
    else
      let downloadIdSize := (byteAt request cursor).toNat
      if downloadIdSize = 0 ∨ downloadIdSize ≠ request.length - (cursor + 1) then none
      else some {
        offset := readU32 request 1
        maximumBytes := byteAt request 5
        packageId := (request.drop 7).take packageIdSize
        downloadId := request.drop (cursor + 1) }

/-- The number of bytes a DOWNLOAD reply carries. -/
def downloadDataSize (responseCapacity maximumBytes available : Nat) : Nat :=
  let dataSize := responseCapacity - retroVaultDownloadHeaderSize
  let dataSize := if 0 < maximumBytes ∧ maximumBytes < dataSize then maximumBytes else dataSize
  let dataSize := if 255 < dataSize then 255 else dataSize
  if available < dataSize then available else dataSize

def downloadResponse (opcode : UInt8) (offset : UInt32) (totalSize : Nat) (data : List UInt8) :
    List UInt8 :=
  [opcode ||| retroVaultResponseBit, RetroVaultStatus.ok.code] ++ writeU32 offset ++
    writeU32 (UInt32.ofNat totalSize) ++ [UInt8.ofNat data.length] ++ data

/-- The end of `handle_download`, once the download is in the context. -/
def answerDownload (opcode : UInt8) (fields : DownloadRequest) (downloadData : List UInt8)
    (responseCapacity : Nat) : Response :=
  if 0xFFFFFFFF < downloadData.length then
    writeErrorResponse opcode .tooLarge responseCapacity
  else if downloadData.length < fields.offset.toNat then
    writeErrorResponse opcode .badRequest responseCapacity
  else
    let rest := downloadData.drop fields.offset.toNat
    some (downloadResponse opcode fields.offset downloadData.length
      (rest.take (downloadDataSize responseCapacity fields.maximumBytes.toNat rest.length)))

def handleDownload (context : RetroVaultContext) (opcode : UInt8) (request : List UInt8)
    (responseCapacity : Nat) : Program Services (Response × RetroVaultContext) := do
  match if responseCapacity < retroVaultDownloadHeaderSize then none
    else parseDownloadRequest request with
  | none => return (writeErrorResponse opcode .badRequest responseCapacity, context)
  | some fields =>
    let (status, context) ← ensureDownload context fields.packageId fields.downloadId
    if status ≠ .ok then return (writeErrorResponse opcode status responseCapacity, context)
    else return (answerDownload opcode fields context.downloadData responseCapacity, context)

/-- `handle_retro_vault_request` for a context, a request and a response that are not NULL. -/
def handleRetroVaultRequest (context : RetroVaultContext) (request : List UInt8)
    (responseCapacity : Nat) : Program Services (Response × RetroVaultContext) :=
  match request with
  | [] => return (none, context)
  | opcode :: _ =>
    if responseCapacity < 2 then return (none, context)
    else if opcode = retroVaultOpCapabilities then
      if request.length ≠ 1 then
        return (writeErrorResponse opcode .badRequest responseCapacity, context)
      else return (handleCapabilities opcode responseCapacity, context)
    else if opcode = retroVaultOpList ∨ opcode = retroVaultOpSearch then
      handleListOrSearch context opcode request responseCapacity
    else if opcode = retroVaultOpInfo then handleInfo context opcode request responseCapacity
    else if opcode = retroVaultOpDownload then
      handleDownload context opcode request responseCapacity
    else return (writeErrorResponse opcode .badRequest responseCapacity, context)

end SquidServer.RetroVault

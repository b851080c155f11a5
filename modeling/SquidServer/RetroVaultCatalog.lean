import SquidServer.RetroVaultJson

namespace SquidServer.RetroVault
open CText
set_option autoImplicit true

abbrev retroVaultCursorEnd : UInt16 := 0xFFFF
abbrev retroVaultSizeUnknown : UInt32 := 0xFFFFFFFF

abbrev retroVaultRatingUnknown : UInt8 := 0
abbrev retroVaultRatingCurious : UInt8 := 1
abbrev retroVaultRatingAverage : UInt8 := 2
abbrev retroVaultRatingGreat : UInt8 := 3
abbrev retroVaultRatingLegendary : UInt8 := 4

structure RetroVaultDownload where
  id : CString
  label : CString
  format : CString
  aggregateSize : UInt32
  fileCount : UInt8
deriving DecidableEq

structure RetroVaultPackage where
  id : CString
  name : CString
  vendor : CString
  platformId : CString
  platformName : CString
  modelId : CString
  modelName : CString
  version : CString
  description : CString
  releaseYear : UInt16
  rating : UInt8
  downloads : List RetroVaultDownload
deriving DecidableEq

def getJsonStringMember (object : JsonValue) (name : String) (required : Bool) :
    Option CString := do
  match ← getJsonMember object (ascii name) with
  | none => if required then none else some .empty
  | some value =>
    if value.type = .null then if required then none else some .empty
    else if value.type ≠ .string then none
    else
      let text := CString.ofBytes (← duplicateJsonString value)
      if required ∧ text.bytes = [] then none else some text

/-- `some none` where the member is absent or null, so that the number is not known. -/
def getJsonUint64Member (object : JsonValue) (name : String) : Option (Option UInt64) := do
  match ← getJsonMember object (ascii name) with
  | none => some none
  | some value =>
    if value.type = .null then some none else return some (← getJsonUint64 value)

def parseRating (rating : CString) : UInt8 :=
  if rating.bytes = ascii "Curious" then retroVaultRatingCurious
  else if rating.bytes = ascii "Average" then retroVaultRatingAverage
  else if rating.bytes = ascii "Great" then retroVaultRatingGreat
  else if rating.bytes = ascii "Legendary" then retroVaultRatingLegendary
  else retroVaultRatingUnknown

/-- What the loop of `parse_download_files` keeps. -/
structure FileTotals where
  fileCount : UInt8
  total : UInt64
  allSizesKnown : Bool

/-- One file of a download. The subtraction from `UINT32_MAX` is one of 64 bits and wraps. -/
def addFile (totals : FileTotals) (file : JsonValue) : Option FileTotals :=
  if file.type ≠ .object then none
  else do
    let size ← getJsonUint64Member file "sizeBytes"
    let fileCount := if totals.fileCount < 255 then totals.fileCount + 1 else totals.fileCount
    match size with
    | none => some { totals with fileCount := fileCount, allSizesKnown := false }
    | some size =>
      if (0xFFFFFFFF : UInt64) - size < totals.total then
        some { totals with fileCount := fileCount, allSizesKnown := false }
      else some { totals with fileCount := fileCount, total := totals.total + size }

/-- The aggregate size and the number of files of a download. -/
def parseDownloadFiles (downloadObject : JsonValue) : Option (UInt32 × UInt8) := do
  match ← getJsonMember downloadObject (ascii "files") with
  | none => none
  | some files =>
    let iterator ← initJsonArrayIterator files
    let totals ← foldJsonArray addFile (files.text.length + 1) iterator ⟨0, 0, true⟩
    return (if totals.allSizesKnown then totals.total.toUInt32 else retroVaultSizeUnknown,
      totals.fileCount)

def parseDownload (object : JsonValue) : Option RetroVaultDownload :=
  if object.type ≠ .object then none
  else do
    let id ← getJsonStringMember object "id" true
    let label ← getJsonStringMember object "label" true
    let format ← getJsonStringMember object "format" true
    let (aggregateSize, fileCount) ← parseDownloadFiles object
    return { id, label, format, aggregateSize, fileCount }

def appendDownload (downloads : List RetroVaultDownload) (item : JsonValue) :
    Option (List RetroVaultDownload) := do
  return downloads ++ [← parseDownload item]

def parseDownloads (object : JsonValue) : Option (List RetroVaultDownload) := do
  match ← getJsonMember object (ascii "downloads") with
  | none => some []
  | some downloads =>
    if downloads.type = .null then some []
    else
      let iterator ← initJsonArrayIterator downloads
      foldJsonArray appendDownload (downloads.text.length + 1) iterator []

def parsePackage (object : JsonValue) : Option RetroVaultPackage :=
  if object.type ≠ .object then none
  else do
    let id ← getJsonStringMember object "id" true
    let name ← getJsonStringMember object "name" true
    let vendor ← getJsonStringMember object "vendor" false
    let platformId ← getJsonStringMember object "platformId" false
    let platformName ← getJsonStringMember object "platformName" false
    let modelId ← getJsonStringMember object "modelId" false
    let modelName ← getJsonStringMember object "modelName" false
    let version ← getJsonStringMember object "version" false
    let description ← getJsonStringMember object "description" false
    let rating ← getJsonStringMember object "rating" false
    let year ← getJsonUint64Member object "releaseYear"
    let downloads ← parseDownloads object
    return {
      id, name, vendor, platformId, platformName, modelId, modelName, version, description
      releaseYear := match year with
        | some year => if year ≤ 0xFFFF then year.toUInt16 else 0
        | none => 0
      rating := parseRating rating
      downloads }

def appendPackage (parsed : List RetroVaultPackage) (item : JsonValue) :
    Option (List RetroVaultPackage) :=
  if retroVaultCursorEnd.toNat ≤ parsed.length then none
  else do
    return parsed ++ [← parsePackage item]

/-- `parse_catalog`, with enough memory. -/
def parseCatalog (data : List UInt8) : Option (List RetroVaultPackage) := do
  let root ← parseRetroVaultJson data
  let iterator ← initJsonArrayIterator root
  foldJsonArray appendPackage (root.text.length + 1) iterator []

/-- What every package of a catalog has. -/
structure ValidPackage (package : RetroVaultPackage) : Prop where
  id : package.id.bytes ≠ []
  name : package.name.bytes ≠ []
  downloads : ∀ download ∈ package.downloads, download.id.bytes ≠ []

/-- The invariant rule for the loops over an array. -/
theorem foldJsonArray_invariant {body : σ → JsonValue → Option σ} (I : σ → Prop)
    (hbody : ∀ s value s', I s → body s value = some s' → I s')
    (h : foldJsonArray body n iterator s = some s') (hi : I s) : I s' := by
  induction n generalizing iterator s with
  | zero => cases h
  | succ n ih =>
    rw [foldJsonArray] at h
    obtain ⟨next, -, h⟩ := Option.bind_eq_some_iff.1 h
    cases next with
    | none =>
      cases h
      exact hi
    | some next =>
      obtain ⟨s₁, hs₁, h⟩ := Option.bind_eq_some_iff.1 h
      exact ih h (hbody s next.1 s₁ hi hs₁)

theorem getJsonStringMember_required (h : getJsonStringMember object name true = some text) :
    text.bytes ≠ [] := by
  rw [getJsonStringMember] at h
  obtain ⟨member, -, h⟩ := Option.bind_eq_some_iff.1 h
  cases member with
  | none => cases h
  | some value =>
    dsimp only at h
    split at h
    · cases h
    · split at h
      · cases h
      · obtain ⟨decoded, -, h⟩ := Option.bind_eq_some_iff.1 h
        split at h
        · cases h
        · rename_i hne
          cases h
          exact fun he => hne ⟨rfl, he⟩

theorem parseDownload_id (h : parseDownload object = some download) : download.id.bytes ≠ [] := by
  rw [parseDownload] at h
  split at h
  · cases h
  · obtain ⟨id, hid, h⟩ := Option.bind_eq_some_iff.1 h
    obtain ⟨label, -, h⟩ := Option.bind_eq_some_iff.1 h
    obtain ⟨format, -, h⟩ := Option.bind_eq_some_iff.1 h
    obtain ⟨files, -, h⟩ := Option.bind_eq_some_iff.1 h
    cases h
    exact getJsonStringMember_required hid

theorem parseDownloads_ids (h : parseDownloads object = some downloads) :
    ∀ download ∈ downloads, download.id.bytes ≠ [] := by
  have hstep : ∀ (ds : List RetroVaultDownload) (item : JsonValue) (ds' : List RetroVaultDownload),
      (∀ d ∈ ds, d.id.bytes ≠ []) → appendDownload ds item = some ds' →
      ∀ d ∈ ds', d.id.bytes ≠ [] := by
    intro ds item ds' hds happend d hd
    obtain ⟨new, hnew, happend⟩ := Option.bind_eq_some_iff.1 happend
    cases happend
    rcases List.mem_append.1 hd with hd | hd
    · exact hds d hd
    · rw [List.mem_singleton.1 hd]
      exact parseDownload_id hnew
  rw [parseDownloads] at h
  obtain ⟨member, -, h⟩ := Option.bind_eq_some_iff.1 h
  cases member with
  | none =>
    cases h
    simp
  | some value =>
    dsimp only at h
    split at h
    · cases h
      simp
    · obtain ⟨iterator, -, h⟩ := Option.bind_eq_some_iff.1 h
      exact foldJsonArray_invariant (fun ds => ∀ d ∈ ds, d.id.bytes ≠ []) hstep h (by simp)

theorem parsePackage_valid (h : parsePackage object = some package) : ValidPackage package := by
  rw [parsePackage] at h
  split at h
  · cases h
  · obtain ⟨id, hid, h⟩ := Option.bind_eq_some_iff.1 h
    obtain ⟨name, hname, h⟩ := Option.bind_eq_some_iff.1 h
    obtain ⟨vendor, -, h⟩ := Option.bind_eq_some_iff.1 h
    obtain ⟨platformId, -, h⟩ := Option.bind_eq_some_iff.1 h
    obtain ⟨platformName, -, h⟩ := Option.bind_eq_some_iff.1 h
    obtain ⟨modelId, -, h⟩ := Option.bind_eq_some_iff.1 h
    obtain ⟨modelName, -, h⟩ := Option.bind_eq_some_iff.1 h
    obtain ⟨version, -, h⟩ := Option.bind_eq_some_iff.1 h
    obtain ⟨description, -, h⟩ := Option.bind_eq_some_iff.1 h
    obtain ⟨rating, -, h⟩ := Option.bind_eq_some_iff.1 h
    obtain ⟨year, -, h⟩ := Option.bind_eq_some_iff.1 h
    obtain ⟨downloads, hdownloads, h⟩ := Option.bind_eq_some_iff.1 h
    cases h
    exact ⟨getJsonStringMember_required hid, getJsonStringMember_required hname,
      parseDownloads_ids hdownloads⟩

/-- A catalog is shorter than the end marker of its cursors, and its packages have ids and
names. -/
theorem parseCatalog_valid (h : parseCatalog data = some packages) :
    packages.length ≤ retroVaultCursorEnd.toNat ∧ ∀ package ∈ packages, ValidPackage package := by
  have hstep : ∀ (ps : List RetroVaultPackage) (item : JsonValue) (ps' : List RetroVaultPackage),
      (ps.length ≤ retroVaultCursorEnd.toNat ∧ ∀ p ∈ ps, ValidPackage p) →
      appendPackage ps item = some ps' →
      ps'.length ≤ retroVaultCursorEnd.toNat ∧ ∀ p ∈ ps', ValidPackage p := by
    intro ps item ps' hps happend
    rw [appendPackage] at happend
    split at happend
    · cases happend
    · obtain ⟨new, hnew, happend⟩ := Option.bind_eq_some_iff.1 happend
      cases happend
      constructor
      · rw [List.length_append, List.length_singleton]
        omega
      · intro p hp
        rcases List.mem_append.1 hp with hp | hp
        · exact hps.2 p hp
        · rw [List.mem_singleton.1 hp]
          exact parsePackage_valid hnew
  rw [parseCatalog] at h
  obtain ⟨root, -, h⟩ := Option.bind_eq_some_iff.1 h
  obtain ⟨iterator, -, h⟩ := Option.bind_eq_some_iff.1 h
  exact foldJsonArray_invariant
    (fun ps => ps.length ≤ retroVaultCursorEnd.toNat ∧ ∀ p ∈ ps, ValidPackage p) hstep h
    ⟨Nat.zero_le _, by simp⟩

end SquidServer.RetroVault

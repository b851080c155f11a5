import Mathlib.Algebra.Ring.Nat
import Mathlib.Data.List.ReduceOption
import SquidServer.RetroVaultRendering

namespace SquidServer.RetroVault
open CText Json
set_option autoImplicit true

/-- A text that fits a C string. -/
structure PlainText where
  chars : List Char
  nulFree : Char.ofNat 0 ∉ chars

def PlainText.text (t : PlainText) : Text := t.chars.map some

theorem cName_plain (t : PlainText) : cName t.text = t.text := by
  apply List.takeWhile_eq_self_iff.2
  intro c hc
  obtain ⟨d, hd, rfl⟩ := List.mem_map.1 hc
  rw [decide_eq_true_iff]
  intro hnul
  rw [Option.some.inj hnul] at hd
  exact t.nulFree hd

theorem encode_plain (t : PlainText) :
    encode t.text = t.chars.flatMap String.utf8EncodeChar :=
  List.flatMap_map ..

/-- The text in UTF-8. -/
def PlainText.cString (t : PlainText) : CString where
  bytes := t.chars.flatMap String.utf8EncodeChar
  nulFree := by
    rw [← encode_plain, ← cName_plain, ← takeWhile_encode]
    exact (CString.ofBytes _).nulFree

theorem ofBytes_encode (t : PlainText) : CString.ofBytes (encode t.text) = t.cString := by
  rw [CString.ofBytes, PlainText.cString, CString.mk.injEq, takeWhile_encode, cName_plain,
    encode_plain]

theorem cString_ne_nil {t : PlainText} (h : t.chars ≠ []) : t.cString.bytes ≠ [] := by
  obtain ⟨c, chars, hchars⟩ := List.exists_cons_of_ne_nil h
  show t.chars.flatMap String.utf8EncodeChar ≠ []
  rw [hchars, List.flatMap_cons]
  exact List.append_ne_nil_of_left_ne_nil String.utf8EncodeChar_ne_nil _

structure RequiredText extends PlainText where
  nonempty : chars ≠ []

def optionalText (text : Option PlainText) : CString := (text.map PlainText.cString).getD .empty

/-- A download of a catalog, with the sizes of its files where they are known. -/
structure CatalogDownload where
  id : RequiredText
  label : RequiredText
  format : RequiredText
  files : List (Option Nat)
  total_le : files.reduceOption.sum ≤ 2 ^ 32 - 2

structure CatalogPackage where
  id : RequiredText
  name : RequiredText
  vendor : Option PlainText
  platformId : Option PlainText
  platformName : Option PlainText
  modelId : Option PlainText
  modelName : Option PlainText
  version : Option PlainText
  description : Option PlainText
  rating : Option PlainText
  releaseYear : Option Nat
  downloads : List CatalogDownload
  year_lt : ∀ year ∈ releaseYear, year < 2 ^ 64

/-- The record of a download. -/
def CatalogDownload.parsed (download : CatalogDownload) : RetroVaultDownload where
  id := download.id.cString
  label := download.label.cString
  format := download.format.cString
  aggregateSize :=
    if none ∈ download.files then retroVaultSizeUnknown
    else UInt32.ofNat download.files.reduceOption.sum
  fileCount := UInt8.ofNat (min 255 download.files.length)

/-- The record of a package. A year above 65535 is left out like one that is not known. -/
def CatalogPackage.parsed (package : CatalogPackage) : RetroVaultPackage where
  id := package.id.cString
  name := package.name.cString
  vendor := optionalText package.vendor
  platformId := optionalText package.platformId
  platformName := optionalText package.platformName
  modelId := optionalText package.modelId
  modelName := optionalText package.modelName
  version := optionalText package.version
  description := optionalText package.description
  releaseYear :=
    if package.releaseYear.getD 0 ≤ 0xFFFF then UInt16.ofNat (package.releaseYear.getD 0) else 0
  rating := parseRating (optionalText package.rating)
  downloads := package.downloads.map CatalogDownload.parsed

-- What a JSON value has to be like for it to denote a package, when `nameOf` tells which name
-- the key of a member stands for. Members with other names are free.
section
variable (nameOf : Text → Text)

def Lacks (members : List (Text × Value)) (name : String) : Prop :=
  memberNamed nameOf members name = none ∨ memberNamed nameOf members name = some .null

def HasText (members : List (Text × Value)) (name : String) (text : PlainText) : Prop :=
  memberNamed nameOf members name = some (.string text.text)

def HasOptionalText (members : List (Text × Value)) (name : String) :
    Option PlainText → Prop
  | none => Lacks nameOf members name
  | some text => HasText nameOf members name text

/-- A number that is not known, or that is written as plain digits. -/
def HasNumber (members : List (Text × Value)) (name : String) : Option Nat → Prop
  | none => Lacks nameOf members name
  | some number => ∃ digits, IsDigits digits ∧ digitsValue digits = number ∧
      memberNamed nameOf members name = some (.number digits)

def DescribesFile (size : Option Nat) (value : Value) : Prop :=
  ∃ members, value = .object members ∧ HasNumber nameOf members "sizeBytes" size

structure DownloadMembers (download : CatalogDownload) (members : List (Text × Value)) :
    Prop where
  id : HasText nameOf members "id" download.id.toPlainText
  label : HasText nameOf members "label" download.label.toPlainText
  format : HasText nameOf members "format" download.format.toPlainText
  files : ∃ values, memberNamed nameOf members "files" = some (.array values) ∧
    List.Forall₂ (DescribesFile nameOf) download.files values

def DescribesDownload (download : CatalogDownload) (value : Value) : Prop :=
  ∃ members, value = .object members ∧ DownloadMembers nameOf download members

structure PackageMembers (package : CatalogPackage) (members : List (Text × Value)) :
    Prop where
  id : HasText nameOf members "id" package.id.toPlainText
  name : HasText nameOf members "name" package.name.toPlainText
  vendor : HasOptionalText nameOf members "vendor" package.vendor
  platformId : HasOptionalText nameOf members "platformId" package.platformId
  platformName : HasOptionalText nameOf members "platformName" package.platformName
  modelId : HasOptionalText nameOf members "modelId" package.modelId
  modelName : HasOptionalText nameOf members "modelName" package.modelName
  version : HasOptionalText nameOf members "version" package.version
  description : HasOptionalText nameOf members "description" package.description
  rating : HasOptionalText nameOf members "rating" package.rating
  releaseYear : HasNumber nameOf members "releaseYear" package.releaseYear
  downloads : (package.downloads = [] ∧ Lacks nameOf members "downloads") ∨
    ∃ values, memberNamed nameOf members "downloads" = some (.array values) ∧
      List.Forall₂ (DescribesDownload nameOf) package.downloads values

def DescribesPackage (package : CatalogPackage) (value : Value) : Prop :=
  ∃ members, value = .object members ∧ PackageMembers nameOf package members

end

section
variable {members : List (Text × Value)} {object : List UInt8} {name : String}

instance (name : String) : Decidable (IsName name) :=
  List.decidableBAll (fun c : Char => c.toNat < 0x80) name.toList

theorem getJsonMember_document (h : Renders 32 (.object members) object) (hname : IsName name) :
    Finds (Renders 32) (memberNamed cName members name)
      (getJsonMember ⟨object, .object⟩ (ascii name)) :=
  getJsonMember_rendered (scans_renders (by decide)) h.inner hname

theorem getJsonMember_present (h : Renders 32 (.object members) object) (hname : IsName name)
    (hmember : memberNamed cName members name = some value) :
    ∃ text, Renders 32 value text ∧
      getJsonMember ⟨object, .object⟩ (ascii name) = some (some ⟨text, typeOf value⟩) := by
  have hfinds := getJsonMember_document h hname
  rw [hmember] at hfinds
  exact hfinds

/-- The two ways in which a member can be missing look the same to the parser. -/
theorem getJsonMember_lacks (h : Renders 32 (.object members) object) (hname : IsName name)
    (hlacks : Lacks cName members name) :
    getJsonMember ⟨object, .object⟩ (ascii name) = some none ∨
      ∃ text, getJsonMember ⟨object, .object⟩ (ascii name) = some (some ⟨text, .null⟩) := by
  rcases hlacks with hnone | hnull
  · have hfinds := getJsonMember_document h hname
    rw [hnone] at hfinds
    exact .inl hfinds
  · obtain ⟨text, -, hget⟩ := getJsonMember_present h hname hnull
    exact .inr ⟨text, hget⟩

theorem getJsonStringMember_text {text : PlainText} (h : Renders 32 (.object members) object)
    (hname : IsName name) (htext : HasText cName members name text)
    (hrequired : required = true → text.chars ≠ []) :
    getJsonStringMember ⟨object, .object⟩ name required = some text.cString := by
  obtain ⟨string, hstring, hget⟩ := getJsonMember_present h hname htext
  obtain ⟨body, hbody, rfl⟩ := hstring.inner
  have hdecode : duplicateJsonString ⟨0x22 :: (body ++ [0x22]), .string⟩ =
      some (encode text.text) := duplicateJsonString_spells hbody
  have hkept : ¬ (required = true ∧ text.cString.bytes = []) :=
    fun hempty => cString_ne_nil (hrequired hempty.1) hempty.2
  rw [getJsonStringMember, hget]
  simp only [Option.bind_eq_bind, Option.bind_some, typeOf, reduceCtorEq, if_false, ne_eq,
    not_true_eq_false, hdecode, ofBytes_encode, if_neg hkept]

theorem getJsonStringMember_nonempty {text : RequiredText}
    (h : Renders 32 (.object members) object) (hname : IsName name)
    (htext : HasText cName members name text.toPlainText) :
    getJsonStringMember ⟨object, .object⟩ name true = some text.cString :=
  getJsonStringMember_text h hname htext fun _ => text.nonempty

theorem getJsonStringMember_optional {text : Option PlainText}
    (h : Renders 32 (.object members) object) (hname : IsName name)
    (htext : HasOptionalText cName members name text) :
    getJsonStringMember ⟨object, .object⟩ name false = some (optionalText text) := by
  cases text with
  | none =>
    rw [getJsonStringMember]
    rcases getJsonMember_lacks h hname htext with hget | ⟨null, hget⟩
    · rw [hget]
      rfl
    · rw [hget]
      rfl
  | some text => exact getJsonStringMember_text h hname htext (by simp)

theorem digits_length (h : IsInteger digits) (hlt : digitsValue digits < 2 ^ 64) :
    digits.length < 32 := by
  by_contra hlong
  have hle := h.le_value (by omega)
  have hpow : 10 ^ 31 ≤ 10 ^ (digits.length - 1) := Nat.pow_le_pow_right (by decide) (by omega)
  have hbig : 2 ^ 64 ≤ 10 ^ 31 := by decide
  omega

theorem strtoull_digits (h : IsDigits digits) (hlt : digitsValue digits < 2 ^ 64) :
    strtoull digits = (some (UInt64.ofNat (digitsValue digits)), []) := by
  obtain ⟨hne, hall⟩ := h
  obtain ⟨c, rest, rfl⟩ := List.exists_cons_of_ne_nil hne
  have hc : 0x30 ≤ c ∧ c ≤ 0x39 := of_decide_eq_true (hall c List.mem_cons_self)
  have hspace : isSpace c = false := by
    rw [isSpace, decide_eq_false_iff_not]
    grind
  have htake : (c :: rest).takeWhile isDigit = c :: rest := List.takeWhile_eq_self_iff.2 hall
  have hdrop : (c :: rest).dropWhile isDigit = [] := List.dropWhile_eq_nil_iff.2 hall
  have hminus : c ≠ 0x2D := by grind
  have hplus : c ≠ 0x2B := by grind
  rw [strtoull, skipSpace_cons hspace]
  dsimp only
  split
  · rename_i heq
    exact absurd (List.cons.inj heq).1 hminus
  · rename_i heq
    exact absurd (List.cons.inj heq).1 hplus
  · rw [htake, hdrop, if_neg (List.cons_ne_nil _ _)]
    exact congrArg (·, []) (if_pos hlt)

theorem getJsonUint64_digits (h : IsDigits digits) (hnumber : IsNumber digits)
    (hlt : digitsValue digits < 2 ^ 64) :
    getJsonUint64 ⟨digits, .number⟩ = some (UInt64.ofNat (digitsValue digits)) := by
  have hlength := digits_length (hnumber.integer h) hlt
  have hsign : digits.head? ≠ some 0x2D := by
    intro hhead
    exact absurd (h.2 0x2D (List.mem_of_mem_head? hhead)) (by decide)
  have hnonempty : digits.length ≠ 0 := fun hzero => h.1 (List.length_eq_zero_iff.1 hzero)
  have hfits : ¬ (digits.length = 0 ∨ 32 ≤ digits.length ∨ digits.head? = some 0x2D) := by
    rintro (hzero | hlong | hminus)
    · exact hnonempty hzero
    · exact Nat.not_le.2 hlength hlong
    · exact hsign hminus
  rw [getJsonUint64, if_neg (by simp), if_neg hfits]
  dsimp only
  rw [strtoull_digits h hlt]

theorem getJsonUint64Member_number {number : Option Nat}
    (h : Renders 32 (.object members) object) (hname : IsName name)
    (hnumber : HasNumber cName members name number) (hlt : ∀ n ∈ number, n < 2 ^ 64) :
    getJsonUint64Member ⟨object, .object⟩ name = some (number.map UInt64.ofNat) := by
  rw [getJsonUint64Member]
  cases number with
  | none =>
    rcases getJsonMember_lacks h hname hnumber with hget | ⟨null, hget⟩
    · rw [hget]
      rfl
    · rw [hget]
      rfl
  | some n =>
    obtain ⟨digits, hdigits, rfl, hmember⟩ := hnumber
    obtain ⟨text, htext, hget⟩ := getJsonMember_present h hname hmember
    obtain ⟨hvalid, rfl⟩ := htext.inner
    rw [hget]
    simp only [Option.bind_eq_bind, Option.bind_some, typeOf, reduceCtorEq, if_false,
      getJsonUint64_digits hdigits hvalid (hlt _ rfl)]
    rfl

/-- What the loop over the files of a download keeps after some of them. -/
def totalsOf (sizes : List (Option Nat)) : FileTotals where
  fileCount := UInt8.ofNat (min 255 sizes.length)
  total := UInt64.ofNat sizes.reduceOption.sum
  allSizesKnown := decide (none ∉ sizes)

theorem fileCount_step (sizes : List (Option Nat)) (size : Option Nat) :
    (if UInt8.ofNat (min 255 sizes.length) < 255 then UInt8.ofNat (min 255 sizes.length) + 1
      else UInt8.ofNat (min 255 sizes.length)) =
        UInt8.ofNat (min 255 (sizes ++ [size]).length) := by
  have hcount : (UInt8.ofNat (min 255 sizes.length)).toNat = min 255 sizes.length :=
    UInt8.toNat_ofNat_of_lt' (show min 255 sizes.length < 256 by omega)
  rw [List.length_append, List.length_singleton]
  split
  · rename_i hlt
    have hbelow : min 255 sizes.length < 255 := by
      rw [← hcount]
      exact hlt
    have hnext : min 255 (sizes.length + 1) = min 255 sizes.length + 1 := by omega
    rw [hnext, UInt8.ofNat_add]
    rfl
  · rename_i hfull
    have habove : 255 ≤ min 255 sizes.length := by
      rw [← hcount]
      exact Nat.le_of_not_lt hfull
    have hnext : min 255 (sizes.length + 1) = min 255 sizes.length := by omega
    rw [hnext]

theorem totalsOf_unknown (done : List (Option Nat)) : totalsOf (done ++ [none]) =
    ⟨UInt8.ofNat (min 255 (done ++ [none]).length), (totalsOf done).total, false⟩ := by
  rw [totalsOf, FileTotals.mk.injEq]
  refine ⟨rfl, ?_, ?_⟩
  · rw [List.reduceOption_append, List.reduceOption_singleton, Option.toList_none, List.append_nil]
    rfl
  · rw [decide_eq_false_iff_not, not_not]
    exact List.mem_append_right _ List.mem_cons_self

theorem totalsOf_known (done : List (Option Nat)) (n : Nat) : totalsOf (done ++ [some n]) =
    ⟨UInt8.ofNat (min 255 (done ++ [some n]).length), (totalsOf done).total + UInt64.ofNat n,
      (totalsOf done).allSizesKnown⟩ := by
  rw [totalsOf, FileTotals.mk.injEq]
  refine ⟨rfl, ?_, ?_⟩
  · rw [List.reduceOption_append, List.reduceOption_singleton, Option.toList_some,
      List.sum_append, List.sum_singleton, UInt64.ofNat_add]
    rfl
  · rw [totalsOf, decide_eq_decide, List.mem_append, List.mem_singleton]
    simp

/-- Sizes with a sum below 2^32 never take the total over the limit. -/
theorem total_fits (h : total + n ≤ 2 ^ 32 - 2) :
    ¬ (0xFFFFFFFF : UInt64) - UInt64.ofNat n < UInt64.ofNat total := by
  have hn : (UInt64.ofNat n).toNat = n :=
    UInt64.toNat_ofNat_of_lt' (show n < 2 ^ 64 by omega)
  have htotal : (UInt64.ofNat total).toNat = total :=
    UInt64.toNat_ofNat_of_lt' (show total < 2 ^ 64 by omega)
  have hlimit : (0xFFFFFFFF : UInt64).toNat = 0xFFFFFFFF := rfl
  rw [UInt64.lt_iff_toNat_lt, UInt64.toNat_sub_of_le, hn, htotal, hlimit]
  · omega
  · rw [UInt64.le_iff_toNat_le, hn, hlimit]
    omega

theorem addFile_advances {files : List (Option Nat)} (h : files.reduceOption.sum ≤ 2 ^ 32 - 2) :
    Advances (Renders 32) addFile (DescribesFile cName) totalsOf files := by
  rintro done size later value text rfl ⟨members, rfl, hsize⟩ htext
  rw [List.reduceOption_append, List.sum_append] at h
  have hlt : ∀ n ∈ size, n < 2 ^ 64 := by
    rintro n rfl
    rw [List.reduceOption_cons_of_some, List.sum_cons] at h
    omega
  have hget := getJsonUint64Member_number htext (by decide) hsize hlt
  have hcount := fileCount_step done size
  rw [addFile, if_neg (by simp [typeOf]), typeOf, hget]
  simp only [Option.bind_eq_bind, Option.bind_some]
  cases size with
  | none =>
    rw [totalsOf_unknown, ← hcount]
    rfl
  | some n =>
    rw [List.reduceOption_cons_of_some, List.sum_cons] at h
    rw [totalsOf_known, ← hcount]
    exact if_neg (total_fits (by omega))

theorem parseDownloadFiles_document {download : CatalogDownload}
    (h : Renders 32 (.object members) object) (hdownload : DownloadMembers cName download members) :
    parseDownloadFiles ⟨object, .object⟩ =
      some (download.parsed.aggregateSize, download.parsed.fileCount) := by
  obtain ⟨values, hmember, hvalues⟩ := hdownload.files
  obtain ⟨text, htext, hget⟩ := getJsonMember_present h (by decide) hmember
  obtain ⟨iterator, hinit, hfold⟩ := foldJsonArray_rendered (scans_renders (by decide))
    (addFile_advances download.total_le) htext.inner hvalues
  have hstart : (⟨0, 0, true⟩ : FileTotals) = totalsOf [] := rfl
  have hsize : (if (totalsOf download.files).allSizesKnown then
      (totalsOf download.files).total.toUInt32 else retroVaultSizeUnknown) =
        download.parsed.aggregateSize := by
    rw [totalsOf, CatalogDownload.parsed]
    dsimp only
    by_cases hunknown : none ∈ download.files
    · rw [if_neg (by simpa using hunknown), if_pos hunknown]
    · rw [if_pos (by simpa using hunknown), if_neg hunknown, UInt64.toUInt32_ofNat']
  rw [parseDownloadFiles, hget]
  simp only [Option.bind_eq_bind, Option.bind_some, typeOf, hinit, hstart, hfold, hsize]
  rfl

theorem parseDownload_document {download : CatalogDownload}
    (h : Renders 32 (.object members) object) (hdownload : DownloadMembers cName download members) :
    parseDownload ⟨object, .object⟩ = some download.parsed := by
  rw [parseDownload, if_neg (by simp),
    getJsonStringMember_nonempty h (by decide) hdownload.id,
    getJsonStringMember_nonempty h (by decide) hdownload.label,
    getJsonStringMember_nonempty h (by decide) hdownload.format,
    parseDownloadFiles_document h hdownload]
  rfl

theorem appendDownload_advances (downloads : List CatalogDownload) :
    Advances (Renders 32) appendDownload (DescribesDownload cName)
      (List.map CatalogDownload.parsed) downloads := by
  rintro done download later value text - ⟨members, rfl, hmembers⟩ htext
  rw [appendDownload, typeOf, parseDownload_document htext hmembers, List.map_append]
  rfl

theorem parseDownloads_document {package : CatalogPackage}
    (h : Renders 32 (.object members) object) (hpackage : PackageMembers cName package members) :
    parseDownloads ⟨object, .object⟩ = some package.parsed.downloads := by
  have hname : IsName "downloads" := by decide
  rcases hpackage.downloads with ⟨hnone, hlacks⟩ | ⟨values, hmember, hvalues⟩
  · have hempty : package.parsed.downloads = [] := by
      rw [CatalogPackage.parsed, hnone]
      rfl
    rw [parseDownloads, hempty]
    rcases getJsonMember_lacks h hname hlacks with hget | ⟨null, hget⟩
    · rw [hget]
      rfl
    · rw [hget]
      rfl
  · obtain ⟨text, htext, hget⟩ := getJsonMember_present h hname hmember
    obtain ⟨iterator, hinit, hfold⟩ := foldJsonArray_rendered (scans_renders (by decide))
      (appendDownload_advances package.downloads) htext.inner hvalues
    rw [parseDownloads, hget]
    simp only [Option.bind_eq_bind, Option.bind_some, typeOf, reduceCtorEq, if_false, hinit]
    exact hfold

theorem releaseYear_known {package : CatalogPackage} (h : package.releaseYear = some year) :
    (if UInt64.ofNat year ≤ 0xFFFF then (UInt64.ofNat year).toUInt16 else 0) =
      package.parsed.releaseYear := by
  have hvalue : (UInt64.ofNat year).toNat = year :=
    UInt64.toNat_ofNat_of_lt' (package.year_lt year h)
  have hiff : UInt64.ofNat year ≤ 0xFFFF ↔ year ≤ 0xFFFF := by
    rw [UInt64.le_iff_toNat_le, hvalue]
    rfl
  rw [CatalogPackage.parsed, h]
  simp only [Option.getD_some, hiff, UInt64.toUInt16_ofNat']

theorem parsePackage_document {package : CatalogPackage}
    (h : Renders 32 (.object members) object) (hpackage : PackageMembers cName package members) :
    parsePackage ⟨object, .object⟩ = some package.parsed := by
  have hyear := getJsonUint64Member_number h (by decide) hpackage.releaseYear package.year_lt
  rw [parsePackage, if_neg (by simp),
    getJsonStringMember_nonempty h (by decide) hpackage.id,
    getJsonStringMember_nonempty h (by decide) hpackage.name,
    getJsonStringMember_optional h (by decide) hpackage.vendor,
    getJsonStringMember_optional h (by decide) hpackage.platformId,
    getJsonStringMember_optional h (by decide) hpackage.platformName,
    getJsonStringMember_optional h (by decide) hpackage.modelId,
    getJsonStringMember_optional h (by decide) hpackage.modelName,
    getJsonStringMember_optional h (by decide) hpackage.version,
    getJsonStringMember_optional h (by decide) hpackage.description,
    getJsonStringMember_optional h (by decide) hpackage.rating,
    hyear, parseDownloads_document h hpackage]
  cases hknown : package.releaseYear with
  | none =>
    have habsent : 0 = package.parsed.releaseYear := by
      rw [CatalogPackage.parsed, hknown]
      rfl
    exact congrArg (fun year => some { package.parsed with releaseYear := year }) habsent
  | some year =>
    exact congrArg (fun year => some { package.parsed with releaseYear := year })
      (releaseYear_known hknown)

theorem appendPackage_advances {packages : List CatalogPackage}
    (h : packages.length ≤ 65535) :
    Advances (Renders 32) appendPackage (DescribesPackage cName)
      (List.map CatalogPackage.parsed) packages := by
  rintro done package later value text rfl ⟨members, rfl, hmembers⟩ htext
  have hroom : ¬ retroVaultCursorEnd.toNat ≤ (done.map CatalogPackage.parsed).length := by
    rw [List.length_append, List.length_cons] at h
    rw [List.length_map]
    have hend : retroVaultCursorEnd.toNat = 65535 := rfl
    omega
  rw [appendPackage, if_neg hroom, typeOf, parsePackage_document htext hmembers, List.map_append]
  rfl

end

theorem parseRetroVaultJson_document (h : IsDocument 32 value data) :
    ∃ text, Renders 32 value text ∧ parseRetroVaultJson data = some ⟨text, typeOf value⟩ := by
  have hchild : Scans (retroVaultJsonMaxDepth + 1) (Renders 32) := scans_renders (by decide)
  obtain ⟨before, body, after, hbefore, hvalue, hafter, rfl⟩ := h
  refine ⟨body, hvalue, ?_⟩
  have hparse : parseValue (before ++ (body ++ after) ++ []) =
      some (⟨body, typeOf value⟩, after ++ []) :=
    hchild.item hvalue hbefore hafter fun c hc => by cases hc
  rw [List.append_nil, List.append_nil] at hparse
  rw [parseRetroVaultJson, hparse]
  simp only [Option.bind_eq_bind, Option.bind_some, skipSpace_space hafter]
  rfl

theorem spells_ascii {chars : List Char}
    (h : ∀ c ∈ chars, 0x20 ≤ c.toNat ∧ c.toNat < 0x80 ∧ c.toNat ≠ 0x22 ∧ c.toNat ≠ 0x5C) :
    Spells (chars.map some) (chars.map fun c => UInt8.ofNat c.toNat) := by
  induction chars with
  | nil => exact .nil
  | cons c chars ih =>
    obtain ⟨hlow, hhigh, hquote, hescape⟩ := h c List.mem_cons_self
    have htail := ih fun d hd => h d (List.mem_cons_of_mem c hd)
    rcases utf8EncodeChar_cases c with ⟨-, hbytes⟩ | ⟨habove, -⟩
    · have hspells := Spells.raw hlow hquote hescape htail
      rw [hbytes] at hspells
      exact hspells
    · exact absurd hhigh (Nat.not_lt.2 habove)

/-- A name that stands in a document as it is. -/
def IsPlainName (name : String) : Prop :=
  ∀ c ∈ name.toList, 0x20 ≤ c.toNat ∧ c.toNat < 0x80 ∧ c.toNat ≠ 0x22 ∧ c.toNat ≠ 0x5C

instance (name : String) : Decidable (IsPlainName name) :=
  List.decidableBAll
    (fun c : Char => 0x20 ≤ c.toNat ∧ c.toNat < 0x80 ∧ c.toNat ≠ 0x22 ∧ c.toNat ≠ 0x5C)
    name.toList

instance (digits : List UInt8) : Decidable (IsDigits digits) :=
  haveI := List.decidableBAll (fun c => isDigit c = true) digits
  inferInstanceAs (Decidable (digits ≠ [] ∧ ∀ c ∈ digits, isDigit c = true))

section
variable {name : String}

theorem spells_name (h : IsPlainName name) : Spells (nameText name) (ascii name) :=
  spells_ascii h

theorem member_text (hname : IsPlainName name) {text : String} (htext : IsPlainName text)
    (n : Nat) : Member (Renders n) (nameText name, .string (nameText text))
      (0x22 :: (ascii name ++ 0x22 :: 0x3A :: 0x22 :: (ascii text ++ [0x22]))) :=
  member_bare (spells_name hname) (renders_leaf n ⟨_, spells_name htext, rfl⟩)

theorem member_number (hname : IsPlainName name) (hdigits : IsInteger digits) (n : Nat) :
    Member (Renders n) (nameText name, .number digits)
      (0x22 :: (ascii name ++ 0x22 :: 0x3A :: digits)) := by
  have hnumber : IsNumber digits :=
    ⟨[], digits, [], [], .inl rfl, hdigits, .inl rfl, .inl rfl, by simp⟩
  exact member_bare (spells_name hname) (renders_leaf n ⟨hnumber, rfl⟩)

end

def pongFiles : List Value := [.object [(nameText "sizeBytes", .number (ascii "7"))], .object []]

def pongDownload : List (Text × Value) :=
  [(nameText "id", .string (nameText "a")), (nameText "label", .string (nameText "b")),
    (nameText "format", .string (nameText "c")), (nameText "files", .array pongFiles)]

/-- The members of a package with an extra one, whose name is `id` followed by U+0000. -/
def pongMembers : List (Text × Value) :=
  [(nameText "id" ++ [some (Char.ofNat 0)], .string (nameText "x")),
    (nameText "id", .string (nameText "pong")), (nameText "name", .string (nameText "Pong")),
    (nameText "releaseYear", .number (ascii "1972")),
    (nameText "downloads", .array [.object pongDownload])]

def pongDocument : List UInt8 :=
  ascii "[\x7b\"id\\u0000\":\"x\",\"id\":\"pong\",\"name\":\"Pong\",\"releaseYear\":1972," ++
    ascii "\"downloads\":[\x7b\"id\":\"a\",\"label\":\"b\",\"format\":\"c\"," ++
    ascii "\"files\":[\x7b\"sizeBytes\":7\x7d,\x7b\x7d]\x7d]\x7d]"

theorem isDocument_pong : IsDocument 32 (.array [.object pongMembers]) pongDocument := by
  have hkey : Spells (nameText "id" ++ [some (Char.ofNat 0)]) (ascii "id\\u0000") := by
    have hzero : HexDigit 0x30 0 := .inl ⟨by decide, rfl⟩
    have hnul : Spells [some (Char.ofNat 0)] (0x5C :: 0x75 :: ([0x30, 0x30, 0x30, 0x30] ++ [])) :=
      .unicode (.intro hzero hzero hzero hzero) .nil
    exact .raw (by decide) (by decide) (by decide) (.raw (by decide) (by decide) (by decide) hnul)
  have hfirst : Renders 27 (.object [(nameText "sizeBytes", .number (ascii "7"))]) _ :=
    ⟨_, .inr (.one (member_number (by decide) ⟨by decide, by decide⟩ 26)), rfl⟩
  have hsecond : Renders 27 (.object []) (ascii "\x7b\x7d") := ⟨[], .inl ⟨rfl, space_nil⟩, rfl⟩
  have hfiles : Renders 28 (.array pongFiles) _ :=
    ⟨_, .inr (.more (item_bare hfirst) (.one (item_bare hsecond))), rfl⟩
  have hdownload : Renders 29 (.object pongDownload) _ :=
    ⟨_, .inr (.more (member_text (by decide) (by decide) 28)
      (.more (member_text (by decide) (by decide) 28)
      (.more (member_text (by decide) (by decide) 28)
      (.one (member_bare (spells_name (by decide)) hfiles))))), rfl⟩
  have hdownloads : Renders 30 (.array [.object pongDownload]) _ :=
    ⟨_, .inr (.one (item_bare hdownload)), rfl⟩
  have hpackage : Renders 31 (.object pongMembers) _ :=
    ⟨_, .inr (.more (member_bare hkey (renders_leaf 30 ⟨_, spells_name (by decide), rfl⟩))
      (.more (member_text (by decide) (by decide) 30)
      (.more (member_text (by decide) (by decide) 30)
      (.more (member_number (by decide) ⟨by decide, by decide⟩ 30)
      (.one (member_bare (spells_name (by decide)) hdownloads)))))), rfl⟩
  exact item_bare ⟨_, .inr (.one (item_bare hpackage)), by decide⟩

def pong (id : RequiredText) : CatalogPackage where
  id := id
  name := ⟨⟨"Pong".toList, by decide⟩, by decide⟩
  vendor := none
  platformId := none
  platformName := none
  modelId := none
  modelName := none
  version := none
  description := none
  rating := none
  releaseYear := some 1972
  downloads := [{
    id := ⟨⟨"a".toList, by decide⟩, by decide⟩
    label := ⟨⟨"b".toList, by decide⟩, by decide⟩
    format := ⟨⟨"c".toList, by decide⟩, by decide⟩
    files := [some 7, none]
    total_le := by decide }]
  year_lt := by decide

theorem pong_described (hname : nameOf = cName ∨ nameOf = fun key => key) {id : RequiredText}
    (hid : HasText nameOf pongMembers "id" id.toPlainText) :
    DescribesPackage nameOf (pong id) (.object pongMembers) := by
  have hfirst : DescribesFile nameOf (some 7)
      (.object [(nameText "sizeBytes", .number (ascii "7"))]) := by
    refine ⟨_, rfl, ascii "7", by decide, rfl, ?_⟩
    rcases hname with rfl | rfl
    · rfl
    · rfl
  have hfiles : List.Forall₂ (DescribesFile nameOf) [some 7, none] pongFiles :=
    .cons hfirst (.cons ⟨[], rfl, .inl rfl⟩ .nil)
  have hyear : IsDigits (ascii "1972") := by decide
  refine ⟨_, rfl, ?_⟩
  rcases hname with rfl | rfl <;>
    exact ⟨hid, rfl, .inl rfl, .inl rfl, .inl rfl, .inl rfl, .inl rfl, .inl rfl, .inl rfl, .inl rfl,
      ⟨_, hyear, rfl, rfl⟩, .inr ⟨_, rfl, .cons ⟨_, rfl, rfl, rfl, rfl, _, rfl, hfiles⟩ .nil⟩⟩

def pongId : RequiredText := ⟨⟨"pong".toList, by decide⟩, by decide⟩

def extraId : RequiredText := ⟨⟨"x".toList, by decide⟩, by decide⟩

/-- The parser gives back the packages of a catalog from every document that denotes them. -/
theorem parseCatalog_document {packages : List CatalogPackage} (hcount : packages.length ≤ 65535)
    (hvalues : List.Forall₂ (DescribesPackage cName) packages values)
    (h : IsDocument 32 (.array values) data) :
    parseCatalog data = some (packages.map CatalogPackage.parsed) := by
  obtain ⟨text, htext, hroot⟩ := parseRetroVaultJson_document h
  obtain ⟨iterator, hinit, hfold⟩ := foldJsonArray_rendered (scans_renders (by decide))
    (appendPackage_advances hcount) htext.inner hvalues
  rw [parseCatalog, hroot]
  simp only [Option.bind_eq_bind, Option.bind_some, typeOf, hinit]
  exact hfold

theorem parseCatalog_document_pong :
    List.Forall₂ (DescribesPackage cName) [pong extraId] [.object pongMembers] ∧
      IsDocument 32 (.array [.object pongMembers]) pongDocument ∧
      parseCatalog pongDocument = some [(pong extraId).parsed] := by
  have hvalues : List.Forall₂ (DescribesPackage cName) [pong extraId] [.object pongMembers] :=
    .cons (pong_described (.inl rfl) rfl) .nil
  exact ⟨hvalues, isDocument_pong, parseCatalog_document (by decide) hvalues isDocument_pong⟩

/-- It is not the member named `id` that counts, but the first one whose name is `id` up to a
U+0000. -/
theorem extra_member_taken :
    ¬ ∀ (packages : List CatalogPackage) (values : List Value) (data : List UInt8),
      packages.length ≤ 65535 →
      List.Forall₂ (DescribesPackage fun key => key) packages values →
      IsDocument 32 (.array values) data →
      parseCatalog data = some (packages.map CatalogPackage.parsed) := by
  intro hall
  have hparse := hall [pong pongId] [.object pongMembers] pongDocument (by decide)
    (.cons (pong_described (.inr rfl) rfl) .nil) isDocument_pong
  exact absurd hparse (by decide +kernel)

end SquidServer.RetroVault

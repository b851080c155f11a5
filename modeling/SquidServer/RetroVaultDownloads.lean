import SquidServer.RetroVaultCoherence

namespace SquidServer.RetroVault
open Interaction CText Wire
set_option autoImplicit true

/-- The ids of a request name a download of the catalog. -/
def Names (catalog : List RetroVaultPackage) (packageId downloadId : List UInt8)
    (package : RetroVaultPackage) (download : RetroVaultDownload) : Prop :=
  (findPackage catalog packageId).bind (catalog[·]?) = some package ∧
  (findDownload package downloadId).bind (package.downloads[·]?) = some download

/-- A download that some request can name. -/
def Offers (catalog : List RetroVaultPackage) (package : RetroVaultPackage)
    (download : RetroVaultDownload) : Prop :=
  ∃ packageId downloadId, Names catalog packageId downloadId package download

theorem textEquals_congr (h : foldCase right = foldCase right') (left : List UInt8) :
    textEqualsCaseInsensitive left right = textEqualsCaseInsensitive left right' := by
  rw [Bool.eq_iff_iff, textEqualsCaseInsensitive_iff, textEqualsCaseInsensitive_iff, h]

theorem findPackage_congr (h : foldCase a = foldCase b) :
    findPackage packages a = findPackage packages b := by
  simp only [findPackage, textEquals_congr h]

theorem findDownload_congr (h : foldCase a = foldCase b) :
    findDownload package a = findDownload package b := by
  simp only [findDownload, textEquals_congr h]

theorem Offers.names (h : Offers catalog package download) :
    Names catalog package.id.bytes download.id.bytes package download := by
  obtain ⟨packageId, downloadId, hpackage, hdownload⟩ := h
  obtain ⟨i, hi, hget⟩ := Option.bind_eq_some_iff.1 hpackage
  obtain ⟨j, hj, hget'⟩ := Option.bind_eq_some_iff.1 hdownload
  obtain ⟨⟨p, hp, hpid⟩, -⟩ := findPackage_iff.1 hi
  obtain ⟨⟨d, hd, hdid⟩, -⟩ := findDownload_iff.1 hj
  cases hget.symm.trans hp
  cases hget'.symm.trans hd
  refine ⟨?_, ?_⟩
  · rw [findPackage_congr hpid]
    exact hpackage
  · rw [findDownload_congr hdid]
    exact hdownload

theorem last_segment {xs ys s t : List α} (h : xs ++ c :: s = ys ++ c :: t) (hs : c ∉ s)
    (ht : c ∉ t) : xs = ys ∧ s = t := by
  rcases List.append_eq_append_iff.1 h with ⟨w, hys, hw⟩ | ⟨w, hxs, hw⟩
  · cases w with
    | nil =>
      rw [List.nil_append] at hw
      cases hw
      exact ⟨by rw [hys, List.append_nil], rfl⟩
    | cons a w =>
      cases hw
      exact absurd (List.mem_append_right w List.mem_cons_self) hs
  · cases w with
    | nil =>
      rw [List.nil_append] at hw
      cases hw
      exact ⟨by rw [hxs, List.append_nil], rfl⟩
    | cons a w =>
      cases hw
      exact absurd (List.mem_append_right w List.mem_cons_self) ht

theorem identifierIsSafe_slash (h : identifierIsSafe text = true) : (0x2F : UInt8) ∉ text := by
  intro hmem
  rw [identifierIsSafe, decide_eq_true_iff] at h
  exact absurd (List.all_eq_true.1 h.2 _ hmem) (by decide)

theorem printPath_eq_some (h : printPath size text = some path) : path = text := by
  rw [printPath] at h
  split at h
  · cases h
  · exact (Option.some.inj h).symm

theorem buildDownloadPath_ids (h : buildDownloadPath package downloadId false size = some path) :
    identifierIsSafe package.id.bytes = true ∧ identifierIsSafe downloadId.bytes = true ∧
      ∃ start, path = (start ++ 0x2F :: package.id.bytes) ++ ascii "/downloads" ++
        0x2F :: downloadId.bytes := by
  rw [buildDownloadPath] at h
  split at h
  · cases h
  · rename_i hsafe
    have hid : identifierIsSafe package.id.bytes = true := by
      by_contra hn
      exact hsafe (.inl hn)
    have hdownload : identifierIsSafe downloadId.bytes = true := by
      by_contra hn
      exact hsafe (.inr (.inl hn))
    refine ⟨hid, hdownload, ?_⟩
    have hbase : ascii "/api/v1/catalog/packages/" = ascii "/api/v1/catalog/packages" ++ [0x2F] :=
      rfl
    have hdownloads : ascii "/downloads/" = ascii "/downloads" ++ [0x2F] := rfl
    have hslash : ascii "/" = [0x2F] := rfl
    dsimp only at h
    rw [hbase, hdownloads, hslash] at h
    split at h
    · split at h
      · exact ⟨ascii "/api/v1/catalog/packages" ++ 0x2F :: package.platformId.bytes ++
          0x2F :: package.modelId.bytes, by rw [printPath_eq_some h]; simp⟩
      · exact ⟨ascii "/api/v1/catalog/packages" ++ 0x2F :: package.platformId.bytes,
          by rw [printPath_eq_some h]; simp⟩
    · rw [if_neg (by simp), if_neg (by simp)] at h
      exact ⟨ascii "/api/v1/catalog/packages", by rw [printPath_eq_some h]; simp⟩

/-- The key of the cache tells the downloads of a catalog apart. -/
theorem buildDownloadPath_injective (h : Offers catalog package download)
    (h' : Offers catalog package' download')
    (hpath : buildDownloadPath package download.id false size = some path)
    (hpath' : buildDownloadPath package' download'.id false size = some path) :
    package = package' ∧ download = download' := by
  obtain ⟨hid, hdownload, start, heq⟩ := buildDownloadPath_ids hpath
  obtain ⟨hid', hdownload', start', heq'⟩ := buildDownloadPath_ids hpath'
  obtain ⟨hpre, hdid⟩ := last_segment (heq.symm.trans heq') (identifierIsSafe_slash hdownload)
    (identifierIsSafe_slash hdownload')
  obtain ⟨-, hpid⟩ := last_segment (List.append_cancel_right hpre) (identifierIsSafe_slash hid)
    (identifierIsSafe_slash hid')
  obtain ⟨hp, hd⟩ := h.names
  obtain ⟨hp', hd'⟩ := h'.names
  rw [← hpid] at hp'
  cases hp.symm.trans hp'
  rw [← hdid] at hd'
  exact ⟨rfl, Option.some.inj (hd.symm.trans hd')⟩

/-- An API that serves one catalog and, for each of its downloads, one body. A fetch may fail at
any time. -/
def Serves (catalog : List RetroVaultPackage)
    (body : RetroVaultPackage → RetroVaultDownload → List UInt8) (e : Event Services) : Prop :=
  match e with
  | ⟨.httpGet path _, answer⟩ => answer.succeeded = true →
    (path = catalogPath → ∀ packages, parseCatalog answer.body = some packages →
      packages = catalog) ∧
    ∀ package download disambiguate, Offers catalog package download →
      buildDownloadPath package download.id disambiguate retroVaultApiPathMax = some path →
      answer.body = body package download
  | _ => True

/-- The catalog at hand is the one that is served, and the cached body is that of the download
whose path is the key. -/
structure CacheHolds (catalog : List RetroVaultPackage)
    (body : RetroVaultPackage → RetroVaultDownload → List UInt8) (context : RetroVaultContext) :
    Prop where
  packages : context.packages = [] ∨ context.packages = catalog
  download : ∀ path, context.downloadPath = some path → ∃ package download,
    Offers catalog package download ∧
    buildDownloadPath package download.id false retroVaultApiPathMax = some path ∧
    context.downloadData = body package download

/-- No fetch of a download went through. -/
def NoDownload (events : List (Event Services)) : Prop :=
  ∀ path answer, ⟨Call.httpGet path retroVaultDownloadLimit, answer⟩ ∈ events →
    answer.succeeded = false

def SameDownload (context context' : RetroVaultContext) : Prop :=
  context'.downloadData = context.downloadData ∧ context'.downloadPath = context.downloadPath

theorem httpErrorStatus_ne_ok (answer : HttpAnswer) : httpErrorStatus answer ≠ .ok := by
  rw [httpErrorStatus]
  split
  · decide
  · split
    · decide
    · decide

section
variable {catalog : List RetroVaultPackage}
  {body : RetroVaultPackage → RetroVaultDownload → List UInt8} {context : RetroVaultContext}

theorem CacheHolds.packages_eq (h : CacheHolds catalog body context)
    (hpos : 0 < context.packages.length) : context.packages = catalog := by
  rcases h.packages with he | he
  · rw [he] at hpos
    exact absurd hpos (Nat.lt_irrefl 0)
  · exact he

theorem ensureCatalog_serves (h : CacheHolds catalog body context) :
    Ensures (recording (Serves catalog body)) (ensureCatalog context)
      (fun r _ => CacheHolds catalog body r.2 ∧ SameDownload context r.2 ∧
        (r.1 = .ok → r.2.packages = catalog)) t := by
  refine ensures_bind.2 (ensures_ask fun now _ _ => ?_)
  split
  · rename_i hfresh
    rw [catalogIsFresh, decide_eq_true_iff] at hfresh
    exact ensures_pure.2 ⟨h, ⟨rfl, rfl⟩, fun _ => h.packages_eq hfresh.1⟩
  · split
    · exact ensures_pure.2 ⟨h, ⟨rfl, rfl⟩, by simp⟩
    · refine ensures_bind.2 (ensures_ask fun answer _ hanswer => ?_)
      split
      · split
        · rename_i hpos
          exact ensures_pure.2 ⟨h, ⟨rfl, rfl⟩, fun _ => h.packages_eq hpos⟩
        · split
          · refine ensures_pure.2 ⟨h, ⟨rfl, rfl⟩, ?_⟩
            split
            · simp
            · simp
          · exact ensures_pure.2 ⟨h, ⟨rfl, rfl⟩,
              fun he => absurd he (httpErrorStatus_ne_ok answer)⟩
      · rename_i packages hparse
        have hcatalog : packages = catalog := by
          split at hparse
          · rename_i hsucceeded
            exact (hanswer.1 hsucceeded).1 rfl packages hparse
          · cases hparse
        exact ensures_pure.2 ⟨⟨.inr hcatalog, h.download⟩, ⟨rfl, rfl⟩, fun _ => hcatalog⟩

theorem fetchDownload_serves (path : List UInt8) :
    Ensures (recording (Serves catalog body)) (fetchDownload path)
      (fun r t' => r.1 = .ok → r.2.succeeded = true ∧
        Serves catalog body ⟨.httpGet path retroVaultDownloadLimit, r.2⟩ ∧
        ⟨.httpGet path retroVaultDownloadLimit, r.2⟩ ∈ t') t := by
  refine ensures_bind.2 (ensures_ask fun answer t' hanswer => ?_)
  obtain ⟨hserves, rfl⟩ := hanswer
  split
  · rename_i hsucceeded
    exact ensures_pure.2 fun _ => ⟨hsucceeded, hserves, by simp⟩
  · exact ensures_pure.2 fun he => absurd he (httpErrorStatus_ne_ok answer)

theorem retryDownload_serves (hoffers : Offers catalog package download)
    (hpath : buildDownloadPath package download.id false retroVaultApiPathMax = some path) :
    Ensures (recording (Serves catalog body))
      ((fetchDownload path).bind (retryDownload package download path))
      (fun r t' => r.1 = .ok → r.2.body = body package download ∧ ¬ NoDownload t') t := by
  refine ensures_bind.2 ((fetchDownload_serves path).mono ?_)
  intro first t₁ hfirst
  have hfound : ∀ {answer : HttpAnswer} {path' : List UInt8} {disambiguate : Bool}
      {t' : List (Event Services)},
      buildDownloadPath package download.id disambiguate retroVaultApiPathMax = some path' →
      answer.succeeded = true ∧
        Serves catalog body ⟨.httpGet path' retroVaultDownloadLimit, answer⟩ ∧
        ⟨.httpGet path' retroVaultDownloadLimit, answer⟩ ∈ t' →
      answer.body = body package download ∧ ¬ NoDownload t' := by
    intro answer path' disambiguate t' hbuild hanswer
    obtain ⟨hsucceeded, hserves, hmem⟩ := hanswer
    refine ⟨(hserves hsucceeded).2 _ _ _ hoffers hbuild, ?_⟩
    intro hno
    exact absurd ((hno _ _ hmem).symm.trans hsucceeded) (by decide)
  rw [retryDownload]
  split
  · split
    · rename_i disambiguated hdisambiguated
      split
      · refine (fetchDownload_serves disambiguated).mono ?_
        intro second t₂ hsecond hok
        exact hfound hdisambiguated (hsecond hok)
      · exact ensures_pure.2 fun hok => hfound hpath (hfirst hok)
    · exact ensures_pure.2 fun hok => hfound hpath (hfirst hok)
  · exact ensures_pure.2 fun hok => hfound hpath (hfirst hok)

theorem ensureDownloadOf_serves (h : CacheHolds catalog body context)
    (hoffers : Offers catalog package download) :
    Ensures (recording (Serves catalog body)) (ensureDownloadOf context package download)
      (fun r t' => CacheHolds catalog body r.2 ∧ (NoDownload t' → SameDownload context r.2) ∧
        (r.1 = .ok → r.2.downloadData = body package download)) t := by
  rw [ensureDownloadOf]
  split
  · exact ensures_pure.2 ⟨h, fun _ => ⟨rfl, rfl⟩, by simp⟩
  · rename_i path hpath
    split
    · -- The key of the cache is the path of this download, so it holds its body.
      rename_i hkey
      obtain ⟨package', download', hoffers', hpath', hdata⟩ := h.download path hkey
      obtain ⟨rfl, rfl⟩ := buildDownloadPath_injective hoffers hoffers' hpath hpath'
      exact ensures_pure.2 ⟨h, fun _ => ⟨rfl, rfl⟩, fun _ => hdata⟩
    · refine ensures_bind.2 ((ensures_bind.1 (retryDownload_serves hoffers hpath)).mono ?_)
      intro first t₁ hretry
      refine ensures_bind.2 (hretry.mono ?_)
      intro r t₂ hr
      split
      rename_i status answer
      split
      · rename_i hstatus
        exact ensures_pure.2 ⟨h, fun _ => ⟨rfl, rfl⟩, fun he => absurd he hstatus⟩
      · rename_i hstatus
        obtain ⟨hbody, hdownload⟩ := hr (not_ne_iff.1 hstatus)
        refine ensures_bind.2 (ensures_ask fun memory t₃ hmemory => ?_)
        obtain ⟨-, rfl⟩ := hmemory
        split
        · refine ensures_pure.2 ⟨⟨h.packages, ?_⟩, ?_, fun _ => hbody⟩
          · intro path' hpath'
            cases hpath'
            exact ⟨package, download, hoffers, hpath, hbody⟩
          · intro hno
            exact absurd (fun path answer hmem => hno path answer (List.mem_append_left _ hmem))
              hdownload
        · exact ensures_pure.2 ⟨h, fun _ => ⟨rfl, rfl⟩, by simp⟩

theorem ensureDownload_serves (h : CacheHolds catalog body context)
    (packageId downloadId : List UInt8) :
    Ensures (recording (Serves catalog body)) (ensureDownload context packageId downloadId)
      (fun r t' => CacheHolds catalog body r.2 ∧ (NoDownload t' → SameDownload context r.2) ∧
        (r.1 = .ok → ∃ package download, Names catalog packageId downloadId package download ∧
          r.2.downloadData = body package download)) t := by
  rw [ensureDownload]
  split
  · exact ensures_pure.2 ⟨h, fun _ => ⟨rfl, rfl⟩, by simp⟩
  · refine ensures_bind.2 ((ensureCatalog_serves h).mono ?_)
    intro r t₁ hr
    obtain ⟨status, context'⟩ := r
    obtain ⟨hholds, hsame, hcatalog⟩ := hr
    dsimp only at hholds hsame hcatalog ⊢
    split
    · rename_i hstatus
      exact ensures_pure.2 ⟨hholds, fun _ => hsame, fun he => absurd he hstatus⟩
    · rename_i hstatus
      have hpackages : context'.packages = catalog := hcatalog (not_ne_iff.1 hstatus)
      split
      · exact ensures_pure.2 ⟨hholds, fun _ => hsame, by simp⟩
      · rename_i package hpackage
        split
        · exact ensures_pure.2 ⟨hholds, fun _ => hsame, by simp⟩
        · rename_i download hdownload
          rw [hpackages] at hpackage
          have hnames : Names catalog packageId downloadId package download :=
            ⟨hpackage, hdownload⟩
          refine (ensureDownloadOf_serves hholds ⟨_, _, hnames⟩).mono ?_
          intro r t₂ hr
          obtain ⟨hafter, hkept, hdata⟩ := hr
          refine ⟨hafter, ?_, fun hok => ⟨package, download, hnames, hdata hok⟩⟩
          intro hno
          obtain ⟨hd, hp⟩ := hkept hno
          exact ⟨hd.trans hsame.1, hp.trans hsame.2⟩

end

/-- What a DOWNLOAD reply carries. -/
structure DownloadChunk where
  offset : UInt32
  totalSize : UInt32
  data : List UInt8
deriving DecidableEq

def readDownload (response : Response) : Option DownloadChunk := do
  let bytes ← response
  let (data, rest) ← readCounted (bytes.drop 10)
  if bytes.take 2 = [retroVaultOpDownload ||| retroVaultResponseBit, RetroVaultStatus.ok.code] ∧
      rest = [] then
    some ⟨readU32 bytes 2, readU32 bytes 6, data⟩
  else none

theorem readDownload_response (h : data.length < 256) :
    readDownload (some (downloadResponse retroVaultOpDownload offset total data)) =
      some ⟨offset, UInt32.ofNat total, data⟩ := by
  let start := [retroVaultOpDownload ||| retroVaultResponseBit, RetroVaultStatus.ok.code]
  have hoffset : readU32 (downloadResponse retroVaultOpDownload offset total data) 2 = offset := by
    have := readU32_writeU32 start offset
      (writeU32 (UInt32.ofNat total) ++ [UInt8.ofNat data.length] ++ data)
    simpa [downloadResponse, start] using this
  have htotal : readU32 (downloadResponse retroVaultOpDownload offset total data) 6 =
      UInt32.ofNat total := by
    have := readU32_writeU32 (start ++ writeU32 offset) (UInt32.ofNat total)
      ([UInt8.ofNat data.length] ++ data)
    rw [show (start ++ writeU32 offset).length = 6 from rfl] at this
    simpa [downloadResponse, start] using this
  have hdata : readCounted ((downloadResponse retroVaultOpDownload offset total data).drop 10) =
      some (data, []) := by
    have := readCounted_countedText h []
    rw [List.append_nil] at this
    exact this
  rw [readDownload, Option.bind_eq_bind, Option.bind_some, hdata, Option.bind_eq_bind,
    Option.bind_some, hoffset, htotal]
  rfl

theorem readDownload_status (h : readDownload response = some chunk) :
    replyStatus response = some RetroVaultStatus.ok.code := by
  obtain ⟨bytes, rfl, h⟩ := Option.bind_eq_some_iff.1 h
  obtain ⟨r, -, h⟩ := Option.bind_eq_some_iff.1 h
  dsimp only at h
  split at h
  · rename_i hstart
    have hstatus := congrArg (·[1]?) hstart.1
    simp only [List.getElem?_take_of_lt (show 1 < 2 by decide)] at hstatus
    exact hstatus
  · cases h

/-- How many bytes a reply carries when `rest` bytes are left. -/
def chunkSize (maximumBytes rest : Nat) : Nat :=
  min 244 (if 0 < maximumBytes then min maximumBytes rest else rest)

theorem downloadDataSize_eq (maximumBytes rest : Nat) :
    downloadDataSize 255 maximumBytes rest = chunkSize maximumBytes rest := by
  simp only [downloadDataSize, chunkSize, show 255 - retroVaultDownloadHeaderSize = 244 from rfl]
  split <;> split <;> split <;> split <;> omega

/-- The chunk is the one of the body that the request asks for. -/
structure IsChunk (fields : DownloadRequest) (body : List UInt8) (chunk : DownloadChunk) :
    Prop where
  total : chunk.totalSize.toNat = body.length
  offset : chunk.offset = fields.offset
  inside : fields.offset.toNat ≤ body.length
  data : chunk.data = (body.drop fields.offset.toNat).take
    (chunkSize fields.maximumBytes.toNat (body.length - fields.offset.toNat))
  progress : fields.offset.toNat < body.length → chunk.data ≠ []

theorem answerDownload_chunk
    (h : replyStatus (answerDownload retroVaultOpDownload fields body 255) =
      some RetroVaultStatus.ok.code) :
    ∃ chunk, readDownload (answerDownload retroVaultOpDownload fields body 255) = some chunk ∧
      IsChunk fields body chunk := by
  rw [answerDownload] at h ⊢
  split at h
  · exact absurd h (by decide)
  · rename_i hsize
    rw [if_neg hsize]
    split at h
    · exact absurd h (by decide)
    · rename_i hinside
      rw [if_neg hinside]
      dsimp only at h ⊢
      rw [downloadDataSize_eq, List.length_drop]
      have hchunk : chunkSize fields.maximumBytes.toNat (body.length - fields.offset.toNat) ≤ 244 :=
        Nat.min_le_left _ _
      refine ⟨_, readDownload_response ?_, ?_, rfl, Nat.le_of_not_lt hinside, rfl, ?_⟩
      · rw [List.length_take]
        omega
      · exact UInt32.toNat_ofNat_of_lt' (by simp only [UInt32.size]; omega)
      · intro hlt hnil
        have hlength := congrArg List.length hnil
        simp only [List.length_take, List.length_drop, List.length_nil, chunkSize] at hlength
        split at hlength <;> omega

abbrev RetroVaultExchange := Exchange Services RetroVaultContext (List UInt8) Response

/-- Every OK reply to a DOWNLOAD request is the chunk it asks for, of the download it names. -/
def AnswersDownload (catalog : List RetroVaultPackage)
    (body : RetroVaultPackage → RetroVaultDownload → List UInt8) (x : RetroVaultExchange) : Prop :=
  x.request.head? = some retroVaultOpDownload →
  replyStatus x.reply = some RetroVaultStatus.ok.code →
  ∃ fields package download chunk, parseDownloadRequest x.request = some fields ∧
    Names catalog fields.packageId fields.downloadId package download ∧
    readDownload x.reply = some chunk ∧ IsChunk fields (body package download) chunk

def serveRetroVault (context : RetroVaultContext) (request : List UInt8) :
    Program Services (Response × RetroVaultContext) :=
  handleRetroVaultRequest context request 255

theorem writeErrorResponse_not_ok (h : status ≠ .ok) :
    replyStatus (writeErrorResponse opcode status 255) ≠ some RetroVaultStatus.ok.code := by
  cases status with
  | ok => exact absurd rfl h
  | _ => simp [writeErrorResponse, replyStatus, RetroVaultStatus.code]

section
variable {catalog : List RetroVaultPackage}
  {body : RetroVaultPackage → RetroVaultDownload → List UInt8} {context : RetroVaultContext}

theorem handleDownload_serves (h : CacheHolds catalog body context) (request : List UInt8) :
    Ensures (recording (Serves catalog body))
      (handleDownload context retroVaultOpDownload request 255)
      (fun r t' => CacheHolds catalog body r.2 ∧
        AnswersDownload catalog body ⟨context, request, t', r.1, r.2⟩ ∧
        (NoDownload t' → SameDownload context r.2)) t := by
  rw [handleDownload, if_neg (by decide)]
  split
  · exact ensures_pure.2 ⟨h, fun _ hok => absurd hok (writeErrorResponse_not_ok (by decide)),
      fun _ => ⟨rfl, rfl⟩⟩
  · rename_i fields hfields
    refine ensures_bind.2 ((ensureDownload_serves h fields.packageId fields.downloadId).mono ?_)
    intro r t' hr
    obtain ⟨status, context'⟩ := r
    obtain ⟨hholds, hkept, hdata⟩ := hr
    dsimp only at hholds hkept hdata ⊢
    split
    · rename_i hstatus
      exact ensures_pure.2 ⟨hholds, fun _ hok => absurd hok (writeErrorResponse_not_ok hstatus),
        hkept⟩
    · rename_i hstatus
      obtain ⟨package, download, hnames, hbody⟩ := hdata (not_ne_iff.1 hstatus)
      refine ensures_pure.2 ⟨hholds, ?_, hkept⟩
      intro _ hok
      dsimp only at hok ⊢
      rw [hbody] at hok ⊢
      obtain ⟨chunk, hread, hchunk⟩ := answerDownload_chunk hok
      exact ⟨fields, package, download, chunk, hfields, hnames, hread, hchunk⟩

theorem handleListOrSearch_serves (h : CacheHolds catalog body context) (opcode : UInt8)
    (request : List UInt8) :
    Ensures (recording (Serves catalog body)) (handleListOrSearch context opcode request 255)
      (fun r _ => CacheHolds catalog body r.2 ∧ SameDownload context r.2) t := by
  rw [handleListOrSearch]
  split
  · exact ensures_pure.2 ⟨h, rfl, rfl⟩
  · refine ensures_bind.2 ((ensureCatalog_serves h).mono ?_)
    intro r t' hr
    obtain ⟨status, context'⟩ := r
    dsimp only
    split
    · exact ensures_pure.2 ⟨hr.1, hr.2.1⟩
    · exact ensures_pure.2 ⟨hr.1, hr.2.1⟩

theorem handleInfo_serves (h : CacheHolds catalog body context) (opcode : UInt8)
    (request : List UInt8) :
    Ensures (recording (Serves catalog body)) (handleInfo context opcode request 255)
      (fun r _ => CacheHolds catalog body r.2 ∧ SameDownload context r.2) t := by
  rw [handleInfo]
  split
  · exact ensures_pure.2 ⟨h, rfl, rfl⟩
  · refine ensures_bind.2 ((ensureCatalog_serves h).mono ?_)
    intro r t' hr
    obtain ⟨status, context'⟩ := r
    dsimp only
    split
    · exact ensures_pure.2 ⟨hr.1, hr.2.1⟩
    · split
      · exact ensures_pure.2 ⟨hr.1, hr.2.1⟩
      · exact ensures_pure.2 ⟨hr.1, hr.2.1⟩

/-- What a request other than DOWNLOAD does to the cache. -/
theorem serveRetroVault_other (h : CacheHolds catalog body context)
    (hopcode : request.head? ≠ some retroVaultOpDownload) :
    Ensures (recording (Serves catalog body)) (serveRetroVault context request)
      (fun r _ => CacheHolds catalog body r.2 ∧ SameDownload context r.2) t := by
  have hkept : ∀ reply : Response, Ensures (recording (Serves catalog body))
      (.pure (reply, context))
      (fun r _ => CacheHolds catalog body r.2 ∧ SameDownload context r.2) t :=
    fun _ => ensures_pure.2 ⟨h, rfl, rfl⟩
  cases request with
  | nil => exact hkept _
  | cons opcode rest =>
    rw [serveRetroVault, handleRetroVaultRequest, if_neg (by decide)]
    split
    · split
      · exact hkept _
      · exact hkept _
    · split
      · exact handleListOrSearch_serves h _ _
      · split
        · exact handleInfo_serves h _ _
        · rw [if_neg fun he => hopcode (congrArg some he)]
          exact hkept _

theorem serveRetroVault_serves (h : CacheHolds catalog body context) (request : List UInt8) :
    Ensures (recording (Serves catalog body)) (serveRetroVault context request)
      (fun r t' => CacheHolds catalog body r.2 ∧
        AnswersDownload catalog body ⟨context, request, t', r.1, r.2⟩ ∧
        (NoDownload t' → SameDownload context r.2)) t := by
  by_cases hopcode : request.head? = some retroVaultOpDownload
  · obtain ⟨rest, rfl⟩ := List.head?_eq_some_iff.1 hopcode
    rw [serveRetroVault, handleRetroVaultRequest_download]
    exact handleDownload_serves h _
  · refine (serveRetroVault_other h hopcode).mono ?_
    intro r t' hr
    exact ⟨hr.1, fun he => absurd he hopcode, fun _ => hr.2⟩

end

/-- A client's download of a whole body: it asks for one chunk after the other, each from where
the one before it ended, until it has come to the total size. -/
inductive Collected (packageId downloadId : List UInt8) :
    Nat → List RetroVaultExchange → List UInt8 → Prop
  | last {x : RetroVaultExchange} {chunk : DownloadChunk} :
      x.request = downloadRequest (UInt32.ofNat offset) maximumBytes packageId downloadId →
      readDownload x.reply = some chunk →
      offset + chunk.data.length = chunk.totalSize.toNat →
      Collected packageId downloadId offset [x] chunk.data
  | more {x : RetroVaultExchange} {chunk : DownloadChunk} :
      x.request = downloadRequest (UInt32.ofNat offset) maximumBytes packageId downloadId →
      readDownload x.reply = some chunk →
      offset + chunk.data.length ≠ chunk.totalSize.toNat →
      Collected packageId downloadId (offset + chunk.data.length) xs data →
      Collected packageId downloadId offset (x :: xs) (chunk.data ++ data)

theorem parseDownloadRequest_fields (hsize : 8 + packageId.length + downloadId.length ≤ 255)
    (h : parseDownloadRequest (downloadRequest offset maximumBytes packageId downloadId) =
      some fields) : fields = ⟨offset, maximumBytes, packageId, downloadId⟩ := by
  rw [parseDownloadRequest_request offset maximumBytes (by omega) (by omega)] at h
  split at h
  · cases h
  · exact (Option.some.inj h).symm

theorem Names.unique (h : Names catalog packageId downloadId package download)
    (h' : Names catalog packageId downloadId package' download') :
    package = package' ∧ download = download' := by
  cases h.1.symm.trans h'.1
  exact ⟨rfl, Option.some.inj (h.2.symm.trans h'.2)⟩

theorem AnswersDownload.isChunk {x : RetroVaultExchange} (h : AnswersDownload catalog body x)
    (hsize : 8 + packageId.length + downloadId.length ≤ 255)
    (hrequest : x.request = downloadRequest offset maximumBytes packageId downloadId)
    (hread : readDownload x.reply = some chunk) :
    ∃ package download, Names catalog packageId downloadId package download ∧
      IsChunk ⟨offset, maximumBytes, packageId, downloadId⟩ (body package download) chunk := by
  obtain ⟨fields, package, download, chunk', hparse, hnames, hread', hchunk⟩ :=
    h (by rw [hrequest]; rfl) (readDownload_status hread)
  cases hread.symm.trans hread'
  rw [hrequest] at hparse
  cases parseDownloadRequest_fields hsize hparse
  exact ⟨package, download, hnames, hchunk⟩

theorem IsChunk.next (h : IsChunk fields body chunk) :
    fields.offset.toNat + chunk.data.length ≤ body.length ∧
      chunk.data = (body.drop fields.offset.toNat).take chunk.data.length := by
  have hinside := h.inside
  have hlength : chunk.data.length ≤ body.length - fields.offset.toNat := by
    rw [h.data, List.length_take, List.length_drop]
    exact Nat.min_le_right _ _
  refine ⟨by omega, ?_⟩
  have hstart : chunk.data <+: body.drop fields.offset.toNat := by
    rw [h.data]
    exact List.take_prefix _ _
  exact List.prefix_iff_eq_take.1 hstart

theorem Collected.data_eq (h : Collected packageId downloadId offset xs data)
    (hsize : 8 + packageId.length + downloadId.length ≤ 255)
    (hxs : ∀ x ∈ xs, AnswersDownload catalog body x) (hoffset : offset < 2 ^ 32) :
    ∃ package download, Names catalog packageId downloadId package download ∧
      data = (body package download).drop offset := by
  induction h with
  | @last offset maximumBytes x chunk hrequest hread hend =>
    obtain ⟨package, download, hnames, hchunk⟩ :=
      (hxs x (List.mem_singleton_self x)).isChunk hsize hrequest hread
    obtain ⟨hle, hdata⟩ := hchunk.next
    have hnat : (UInt32.ofNat offset).toNat = offset := UInt32.toNat_ofNat_of_lt' hoffset
    dsimp only at hle hdata
    rw [hnat] at hle hdata
    rw [hchunk.total] at hend
    refine ⟨package, download, hnames, ?_⟩
    rw [hdata]
    exact List.take_of_length_le (by rw [List.length_drop]; omega)
  | @more offset maximumBytes xs data x chunk hrequest hread hmore hrest ih =>
    obtain ⟨package, download, hnames, hchunk⟩ :=
      (hxs x List.mem_cons_self).isChunk hsize hrequest hread
    obtain ⟨hle, hdata⟩ := hchunk.next
    have hnat : (UInt32.ofNat offset).toNat = offset := UInt32.toNat_ofNat_of_lt' hoffset
    have htotal := chunk.totalSize.toNat_lt
    rw [hchunk.total] at htotal
    dsimp only at hle hdata
    rw [hnat] at hle hdata
    obtain ⟨package', download', hnames', hdata'⟩ :=
      ih (fun y hy => hxs y (List.mem_cons_of_mem x hy)) (by omega)
    obtain ⟨rfl, rfl⟩ := hnames.unique hnames'
    refine ⟨package, download, hnames, ?_⟩
    calc chunk.data ++ data
      _ = ((body package download).drop offset).take chunk.data.length ++
          ((body package download).drop offset).drop chunk.data.length := by
        rw [← hdata, hdata', List.drop_drop]
      _ = (body package download).drop offset := List.take_append_drop _ _

/-- DOWNLOAD serves the right bytes: whatever else is asked for in between and however the fetches
fail, every OK reply is the chunk of the body that its request asks for, chunk after chunk makes
up the body, and an exchange in which no fetch of a download goes through keeps the cached body
and its key. -/
theorem downloads_served
    (h : Conversation (Serves catalog body) serveRetroVault (initRetroVaultContext http) exchanges
      final) :
    (∀ x ∈ exchanges, AnswersDownload catalog body x ∧
      (NoDownload x.events → SameDownload x.before x.after)) ∧
    ∀ packageId downloadId chunks data, 8 + packageId.length + downloadId.length ≤ 255 →
      (∀ x ∈ chunks, x ∈ exchanges) → Collected packageId downloadId 0 chunks data →
      ∃ package download, Names catalog packageId downloadId package download ∧
        data = body package download := by
  have hstart : CacheHolds catalog body (initRetroVaultContext http) :=
    ⟨.inl rfl, fun path hpath => nomatch hpath⟩
  have hall := (h.invariant (CacheHolds catalog body)
    (fun x => AnswersDownload catalog body x ∧
      (NoDownload x.events → SameDownload x.before x.after))
    (fun context request hi => serveRetroVault_serves hi request) hstart).2
  refine ⟨hall, ?_⟩
  intro packageId downloadId chunks data hsize hchunks hcollected
  exact hcollected.data_eq hsize (fun x hx => (hall x (hchunks x hx)).1) (by decide)

theorem buildDownloadPath_ne_catalogPath
    (h : buildDownloadPath package downloadId disambiguate size = some path) :
    path ≠ catalogPath := by
  have hbase : ∀ rest : List UInt8, ascii "/api/v1/catalog/packages/" ++ rest ≠ catalogPath := by
    intro rest he
    have hlength := congrArg List.length he
    rw [List.length_append] at hlength
    have hlong : catalogPath.length < (ascii "/api/v1/catalog/packages/").length := by decide
    omega
  rw [buildDownloadPath] at h
  split at h
  · cases h
  · dsimp only at h
    simp only [List.append_assoc] at h
    split at h
    · split at h
      · rw [printPath_eq_some h]
        exact hbase _
      · rw [printPath_eq_some h]
        exact hbase _
    · split at h
      · rw [printPath_eq_some h]
        exact hbase _
      · split at h
        · rw [printPath_eq_some h]
          exact hbase _
        · rw [printPath_eq_some h]
          exact hbase _

/-- A catalog of one package with one download. -/
def tapeCatalog : List RetroVaultPackage := [samplePackage "pong" "Pong" "" [sampleDownload "tape"]]

def tapeCatalogData : List UInt8 := ascii
  "[\x7b\"id\":\"pong\",\"name\":\"Pong\",\"downloads\":[
    \x7b\"id\":\"tape\",\"label\":\"Tape\",\"format\":\"TZX\",\"files\":[]\x7d]\x7d]"

def tapePath : List UInt8 := ascii "/api/v1/catalog/packages/pong/downloads/tape"

/-- The tape is asked for twice; the API fails the first time. -/
def tapeExchanges : List RetroVaultExchange :=
  let context := { initRetroVaultContext true with packages := tapeCatalog, catalogFetchedAt := 5 }
  let request := downloadRequest 0 0 (ascii "pong") (ascii "tape")
  [{ before := initRetroVaultContext true
     request := request
     events := [⟨Call.time, (5 : Int)⟩,
       ⟨Call.httpGet catalogPath retroVaultCatalogLimit, HttpAnswer.mk 0 200 tapeCatalogData⟩,
       ⟨Call.httpGet tapePath retroVaultDownloadLimit, HttpAnswer.mk 0 503 []⟩]
     reply := some [0x84, 0x02]
     after := context },
   { before := context
     request := request
     events := [⟨Call.time, (6 : Int)⟩,
       ⟨Call.httpGet tapePath retroVaultDownloadLimit, HttpAnswer.mk 0 200 [1, 2, 3]⟩,
       ⟨Call.malloc 45, true⟩]
     reply := some [0x84, 0, 0, 0, 0, 0, 3, 0, 0, 0, 3, 1, 2, 3]
     after := { context with downloadData := [1, 2, 3], downloadPath := some tapePath } }]

theorem parseCatalog_tape : parseCatalog tapeCatalogData = some tapeCatalog := by
  rw [tapeCatalogData, ascii, String.toList_ofList]
  decide +kernel

theorem tapeExchanges_events (hx : x ∈ tapeExchanges) (he : e ∈ x.events) :
    Serves tapeCatalog (fun _ _ => [1, 2, 3]) e := by
  have htape : tapePath ≠ catalogPath := by decide
  simp only [tapeExchanges, List.mem_cons, List.not_mem_nil, or_false] at hx
  rcases hx with rfl | rfl
  all_goals
    simp only [List.mem_cons, List.not_mem_nil, or_false] at he
    rcases he with rfl | rfl | rfl
  · trivial
  · intro _
    refine ⟨fun _ packages hpackages =>
      Option.some.inj (hpackages.symm.trans parseCatalog_tape), ?_⟩
    intro package download disambiguate _ hpath
    exact absurd rfl (buildDownloadPath_ne_catalogPath hpath)
  · exact fun hsucceeded => absurd hsucceeded (by decide)
  · trivial
  · exact fun _ => ⟨fun hpath => absurd hpath htape, fun _ _ _ _ _ => rfl⟩
  · trivial

theorem conversation_tape : ∃ final, Conversation (Serves tapeCatalog fun _ _ => [1, 2, 3])
    serveRetroVault (initRetroVaultContext true) tapeExchanges final := by
  have hexec : ∀ x ∈ tapeExchanges,
      Exec (recording (Serves tapeCatalog fun _ _ => [1, 2, 3])) []
        (serveRetroVault x.before x.request) x.events (x.reply, x.after) := by
    intro x hx
    have hreplay : (serveRetroVault x.before x.request).replay x.events =
        some (x.reply, x.after) := by
      revert x
      decide +kernel
    exact exec_of_replay hreplay (steps_recording (fun e he => tapeExchanges_events hx he) [])
  exact ⟨_, .cons (hexec _ List.mem_cons_self)
    (.cons (hexec _ (List.mem_cons_of_mem _ List.mem_cons_self)) (.nil _))⟩

/-- After the fetch that failed, the whole tape comes in one chunk. -/
theorem downloads_served_tape : ∃ chunks, (∀ x ∈ chunks, x ∈ tapeExchanges) ∧
    Collected (ascii "pong") (ascii "tape") 0 chunks [1, 2, 3] ∧
    ∃ package download, Names tapeCatalog (ascii "pong") (ascii "tape") package download := by
  obtain ⟨final, h⟩ := conversation_tape
  have hchunks : ∀ x ∈ tapeExchanges.drop 1, x ∈ tapeExchanges :=
    fun x hx => List.mem_of_mem_drop hx
  have hcollected : Collected (ascii "pong") (ascii "tape") 0 (tapeExchanges.drop 1) [1, 2, 3] :=
    .last rfl (show readDownload _ = some ⟨0, 3, [1, 2, 3]⟩ by decide) rfl
  obtain ⟨package, download, hnames, -⟩ :=
    (downloads_served h).2 _ _ _ _ (by decide) hchunks hcollected
  exact ⟨_, hchunks, hcollected, package, download, hnames⟩

end SquidServer.RetroVault

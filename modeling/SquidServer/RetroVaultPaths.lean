import Mathlib.Data.List.Induction
import SquidServer.RetroVaultRefresh

namespace SquidServer.RetroVault
open Interaction CText Wire
set_option autoImplicit true

/-- The path of a download of the API, in one of its five shapes. Every part that comes from the
catalog is a safe identifier. -/
inductive IsDownloadPath (packageId downloadId platformId modelId : List UInt8) :
    List UInt8 → Prop
  | plain : identifierIsSafe packageId = true → identifierIsSafe downloadId = true →
      IsDownloadPath packageId downloadId platformId modelId
        (ascii "/api/v1/catalog/packages/" ++ packageId ++ ascii "/downloads/" ++ downloadId)
  | platform : identifierIsSafe packageId = true → identifierIsSafe downloadId = true →
      identifierIsSafe platformId = true →
      IsDownloadPath packageId downloadId platformId modelId
        (ascii "/api/v1/catalog/packages/" ++ platformId ++ ascii "/" ++ packageId ++
          ascii "/downloads/" ++ downloadId)
  | model : identifierIsSafe packageId = true → identifierIsSafe downloadId = true →
      identifierIsSafe platformId = true → identifierIsSafe modelId = true →
      IsDownloadPath packageId downloadId platformId modelId
        (ascii "/api/v1/catalog/packages/" ++ platformId ++ ascii "/" ++ modelId ++ ascii "/" ++
          packageId ++ ascii "/downloads/" ++ downloadId)
  | platformQuery : identifierIsSafe packageId = true → identifierIsSafe downloadId = true →
      identifierIsSafe platformId = true →
      IsDownloadPath packageId downloadId platformId modelId
        (ascii "/api/v1/catalog/packages/" ++ packageId ++ ascii "/downloads/" ++ downloadId ++
          ascii "?platformId=" ++ platformId)
  | modelQuery : identifierIsSafe packageId = true → identifierIsSafe downloadId = true →
      identifierIsSafe platformId = true → identifierIsSafe modelId = true →
      IsDownloadPath packageId downloadId platformId modelId
        (ascii "/api/v1/catalog/packages/" ++ packageId ++ ascii "/downloads/" ++ downloadId ++
          ascii "?platformId=" ++ platformId ++ ascii "&modelId=" ++ modelId)

/-- The path of a download of the package. -/
def PathOf (package : RetroVaultPackage) (download : RetroVaultDownload) (path : List UInt8) :
    Prop :=
  IsDownloadPath package.id.bytes download.id.bytes package.platformId.bytes
    package.modelId.bytes path

theorem printPath_length (h : printPath size text = some path) : path.length < size := by
  rw [printPath] at h
  split at h
  · cases h
  · cases h
    omega

/-- What `build_download_path` prints is one of the five shapes, and all of it. -/
theorem buildDownloadPath_shape
    (h : buildDownloadPath package downloadId disambiguate size = some path) :
    IsDownloadPath package.id.bytes downloadId.bytes package.platformId.bytes
      package.modelId.bytes path ∧ path.length < size := by
  rw [buildDownloadPath] at h
  split at h
  · cases h
  · rename_i hsafe
    have hid : identifierIsSafe package.id.bytes = true := by
      by_contra hn
      exact hsafe (.inl hn)
    have hdownload : identifierIsSafe downloadId.bytes = true := by
      by_contra hn
      exact hsafe (.inr (.inl hn))
    dsimp only at h
    split at h
    · rename_i hplatform
      split at h
      · rename_i hmodel
        refine ⟨?_, printPath_length h⟩
        rw [printPath_eq_some h]
        exact .model hid hdownload hplatform.1 hmodel
      · refine ⟨?_, printPath_length h⟩
        rw [printPath_eq_some h]
        exact .platform hid hdownload hplatform.1
    · split at h
      · rename_i hmodel
        refine ⟨?_, printPath_length h⟩
        rw [printPath_eq_some h]
        exact .modelQuery hid hdownload hmodel.2.1 hmodel.2.2
      · split at h
        · rename_i hplatform
          refine ⟨?_, printPath_length h⟩
          rw [printPath_eq_some h]
          exact .platformQuery hid hdownload hplatform.2
        · refine ⟨?_, printPath_length h⟩
          rw [printPath_eq_some h]
          exact .plain hid hdownload

/-- A call asks the API for a download of one of the packages, or for nothing. -/
def AsksForDownload (packages : List RetroVaultPackage) (op : Call) : Prop :=
  ∀ path size, op = .httpGet path size → ∃ package ∈ packages, ∃ download ∈ package.downloads,
    PathOf package download path ∧ path.length < retroVaultApiPathMax

def AsksForCatalog (op : Call) : Prop :=
  ∀ path size, op = .httpGet path size → path = catalogPath

theorem ensureCatalog_calls (context : RetroVaultContext) :
    Calls (E := Services) AsksForCatalog (ensureCatalog context) := by
  refine Calls.bind (.ask (by intro path size h; cases h)) fun now => ?_
  split
  · exact .pure _
  · split
    · exact .pure _
    · refine Calls.bind (.ask (by intro path size h; cases h; rfl)) fun answer => ?_
      split
      · split
        · exact .pure _
        · split
          · exact .pure _
          · exact .pure _
      · exact .pure _

section
variable {context : RetroVaultContext}

theorem fetchDownload_calls (hpackage : package ∈ packages)
    (hdownload : download ∈ package.downloads)
    (h : buildDownloadPath package download.id disambiguate retroVaultApiPathMax = some path) :
    Calls (E := Services) (AsksForDownload packages) (fetchDownload path) := by
  refine Calls.bind (.ask ?_) fun answer => ?_
  · intro path' size he
    cases he
    exact ⟨package, hpackage, download, hdownload, buildDownloadPath_shape h⟩
  · split
    · exact .pure _
    · exact .pure _

theorem ensureDownloadOf_calls (hpackage : package ∈ packages)
    (hdownload : download ∈ package.downloads) :
    Calls (E := Services) (AsksForDownload packages)
      (ensureDownloadOf context package download) := by
  rw [ensureDownloadOf]
  split
  · exact .pure _
  · rename_i path hpath
    split
    · exact .pure _
    · refine Calls.bind (fetchDownload_calls hpackage hdownload hpath) fun first => ?_
      refine Calls.bind ?_ fun r => ?_
      · rw [retryDownload]
        split
        · split
          · rename_i disambiguated hdisambiguated
            split
            · exact fetchDownload_calls hpackage hdownload hdisambiguated
            · exact .pure _
          · exact .pure _
        · exact .pure _
      · split
        split
        · exact .pure _
        · refine Calls.bind (.ask (by intro path size h; cases h)) fun memory => ?_
          split
          · exact .pure _
          · exact .pure _

theorem serveFromCatalog_calls (context : RetroVaultContext) (request : List UInt8)
    (responseCapacity : Nat) :
    Calls (E := Services) (AsksForDownload context.packages)
      (serveFromCatalog context request responseCapacity) := by
  cases request with
  | nil => exact .pure _
  | cons opcode rest =>
    rw [serveFromCatalog]
    split
    · exact .pure _
    · split
      · split
        · exact .pure _
        · exact .pure _
      · split
        · rw [listFromCatalog]
          split
          · exact .pure _
          · exact .pure _
        · split
          · rw [infoFromCatalog]
            split
            · exact .pure _
            · split
              · exact .pure _
              · exact .pure _
          · split
            · rw [downloadFromCatalog]
              split
              · exact .pure _
              · refine Calls.bind ?_ fun r => ?_
                · rw [ensureDownloadFrom]
                  split
                  · exact .pure _
                  · split
                    · exact .pure _
                    · rename_i package hpackage
                      split
                      · exact .pure _
                      · rename_i download hdownload
                        obtain ⟨i, -, hi⟩ := Option.bind_eq_some_iff.1 hpackage
                        obtain ⟨j, -, hj⟩ := Option.bind_eq_some_iff.1 hdownload
                        exact ensureDownloadOf_calls (List.mem_of_getElem? hi)
                          (List.mem_of_getElem? hj)
                · split
                  split
                  · exact .pure _
                  · exact .pure _
            · exact .pure _

theorem handleRetroVaultRequest_paths (context : RetroVaultContext) (request : List UInt8)
    (responseCapacity : Nat) :
    Ensures (recording fun _ => True) (handleRetroVaultRequest context request responseCapacity)
      (fun r t => ∀ e ∈ t, AsksForCatalog e.op ∨ AsksForDownload r.2.packages e.op) [] := by
  obtain ⟨opcode, hhandler⟩ := handleRetroVaultRequest_refreshes context request responseCapacity
  rcases hhandler with ⟨reply, hpure, -⟩ | hrefresh
  · rw [hpure]
    exact ensures_pure.2 (by simp)
  · rw [hrefresh, afterRefresh]
    refine ensures_bind.2 ((ensureCatalog_calls context).events.mono ?_)
    rintro ⟨status, context'⟩ u hu
    dsimp only
    split
    · exact ensures_pure.2 fun e he => .inl (hu e he)
    · intro t r he
      obtain ⟨v, rfl, hexec⟩ := exec_recording_start he
      obtain ⟨_, rfl, hstays⟩ :=
        serveFromCatalog_stays context' request responseCapacity [] v r hexec
      have hv := (serveFromCatalog_calls context' request responseCapacity).events v r hexec
      rw [hstays.packages]
      intro e he
      rcases List.mem_append.1 he with he | he
      · exact .inl (hu e he)
      · exact .inr (hv e he)

end

theorem flatMap_cons_injective {segments segments' : List (List α)}
    (h : ∀ s ∈ segments, c ∉ s) (h' : ∀ s ∈ segments', c ∉ s)
    (he : segments.flatMap (c :: ·) = segments'.flatMap (c :: ·)) : segments = segments' := by
  induction segments using List.reverseRecOn generalizing segments' with
  | nil =>
    cases segments' with
    | nil => rfl
    | cons s rest => cases he
  | append_singleton rest s ih =>
    rcases List.eq_nil_or_concat segments' with rfl | ⟨rest', s', rfl⟩
    · simp at he
    · simp only [List.concat_eq_append, List.flatMap_append, List.flatMap_cons, List.flatMap_nil,
        List.append_nil] at he h' ⊢
      obtain ⟨hrest, rfl⟩ := last_segment he (h s (by simp)) (h' s' (by simp))
      rw [ih (fun x hx => h x (by simp [hx])) (fun x hx => h' x (by simp [hx])) hrest]

/-- The identifier when it can stand in a path. -/
def usableIdentifier (identifier : CString) : Option (List UInt8) :=
  if identifierIsSafe identifier.bytes then some identifier.bytes else none

def usablePlatform (package : RetroVaultPackage) : Option (List UInt8) :=
  usableIdentifier package.platformId

/-- A model counts only together with its platform. -/
def usableModel (package : RetroVaultPackage) : Option (List UInt8) :=
  if (usablePlatform package).isSome then usableIdentifier package.modelId else none

def canonicalSegments (package : RetroVaultPackage) (downloadId : CString) : List (List UInt8) :=
  [ascii "api", ascii "v1", ascii "catalog", ascii "packages"] ++
    ((usablePlatform package).toList ++ (usableModel package).toList) ++
    [package.id.bytes, ascii "downloads", downloadId.bytes]

theorem buildDownloadPath_segments
    (h : buildDownloadPath package downloadId false size = some path) :
    path = (canonicalSegments package downloadId).flatMap (0x2F :: ·) := by
  have hbase : ascii "/api/v1/catalog/packages/" =
      [ascii "api", ascii "v1", ascii "catalog", ascii "packages"].flatMap (0x2F :: ·) ++ [0x2F] :=
    rfl
  have hdownloads : ascii "/downloads/" = 0x2F :: ascii "downloads" ++ [0x2F] := rfl
  have hslash : ascii "/" = [0x2F] := rfl
  rw [buildDownloadPath, hbase, hdownloads, hslash] at h
  rw [canonicalSegments, usableModel, usablePlatform, usableIdentifier, usableIdentifier]
  split at h
  · cases h
  · dsimp only at h
    by_cases hplatform : identifierIsSafe package.platformId.bytes = true
    · rw [if_pos ⟨hplatform, by simp⟩] at h
      rw [if_pos hplatform]
      by_cases hmodel : identifierIsSafe package.modelId.bytes = true
      · rw [if_pos hmodel] at h ⊢
        rw [printPath_eq_some h]
        simp
      · rw [if_neg hmodel] at h ⊢
        rw [printPath_eq_some h]
        simp
    · rw [if_neg fun hand => hplatform hand.1, if_neg (by simp), if_neg (by simp)] at h
      rw [if_neg hplatform, printPath_eq_some h]
      simp

theorem usableIdentifier_slash (h : usableIdentifier identifier = some s) : (0x2F : UInt8) ∉ s := by
  rw [usableIdentifier] at h
  split at h
  · rename_i hsafe
    cases h
    exact identifierIsSafe_slash hsafe
  · cases h

theorem usableModel_eq_some (h : usableModel package = some s) :
    (usablePlatform package).isSome = true ∧ usableIdentifier package.modelId = some s := by
  rw [usableModel] at h
  split at h
  · rename_i hplatform
    exact ⟨hplatform, h⟩
  · cases h

theorem canonicalSegments_slash
    (h : buildDownloadPath package downloadId false size = some path) :
    ∀ s ∈ canonicalSegments package downloadId, (0x2F : UInt8) ∉ s := by
  obtain ⟨hid, hdownload, -⟩ := buildDownloadPath_ids h
  have hwords : ∀ s ∈ [ascii "api", ascii "v1", ascii "catalog", ascii "packages",
      ascii "downloads"], (0x2F : UInt8) ∉ s := by decide
  intro s hs
  simp only [canonicalSegments, List.mem_append, List.mem_cons, List.not_mem_nil, or_false,
    Option.mem_toList] at hs
  rcases hs with (hs | hplatform | hmodel) | rfl | rfl | rfl
  · exact hwords s (by simp only [List.mem_cons]; tauto)
  · exact usableIdentifier_slash hplatform
  · exact usableIdentifier_slash (usableModel_eq_some hmodel).2
  · exact identifierIsSafe_slash hid
  · exact hwords _ (by simp)
  · exact identifierIsSafe_slash hdownload

theorem usable_of_toList
    (h : (usablePlatform package).toList ++ (usableModel package).toList =
      (usablePlatform package').toList ++ (usableModel package').toList) :
    usablePlatform package = usablePlatform package' ∧
      usableModel package = usableModel package' := by
  have hmodel : ∀ p : RetroVaultPackage, usablePlatform p = none → usableModel p = none := by
    intro p hp
    rw [usableModel, hp]
    rfl
  cases hp : usablePlatform package with
  | none =>
    rw [hp, hmodel package hp] at h
    cases hp' : usablePlatform package' with
    | none => exact ⟨rfl, by rw [hmodel package hp, hmodel package' hp']⟩
    | some q =>
      rw [hp'] at h
      cases h
  | some p =>
    rw [hp] at h
    cases hp' : usablePlatform package' with
    | none =>
      rw [hp', hmodel package' hp'] at h
      cases h
    | some q =>
      rw [hp'] at h
      simp only [Option.toList_some, List.cons_append, List.nil_append, List.cons.injEq] at h
      have hlist := congrArg List.head? h.2
      rw [Option.head?_toList, Option.head?_toList] at hlist
      exact ⟨by rw [h.1], hlist⟩

/-- The key of the download cache tells all that is usable of the ids. -/
theorem buildDownloadPath_usable
    (h : buildDownloadPath package downloadId false size = some path)
    (h' : buildDownloadPath package' downloadId' false size = some path) :
    package.id.bytes = package'.id.bytes ∧ downloadId.bytes = downloadId'.bytes ∧
      usablePlatform package = usablePlatform package' ∧
      usableModel package = usableModel package' := by
  have hsegments : canonicalSegments package downloadId = canonicalSegments package' downloadId' :=
    flatMap_cons_injective (canonicalSegments_slash h) (canonicalSegments_slash h')
      ((buildDownloadPath_segments h).symm.trans (buildDownloadPath_segments h'))
  obtain ⟨hstart, hend⟩ := List.append_inj' hsegments rfl
  have husable := usable_of_toList (List.append_cancel_left hstart)
  simp only [List.cons.injEq] at hend
  exact ⟨hend.1, hend.2.2.1, husable⟩

/-- Requested URLs are safe and the keys of the cache are injective. Whatever the catalog holds,
every path that is asked for is the catalog's or the complete path of a download in one of the five
shapes; and two downloads have the same canonical path only when all that is usable of their ids
is the same. -/
theorem requested_paths_safe :
    (∀ context request responseCapacity, Ensures (recording fun _ => True)
      (handleRetroVaultRequest context request responseCapacity)
      (fun r t => ∀ path size answer, ⟨.httpGet path size, answer⟩ ∈ t →
        path = catalogPath ∨ ∃ package ∈ r.2.packages, ∃ download ∈ package.downloads,
          PathOf package download path ∧ path.length < retroVaultApiPathMax) []) ∧
    ∀ package package' download download' path,
      buildDownloadPath package download false retroVaultApiPathMax = some path →
      buildDownloadPath package' download' false retroVaultApiPathMax = some path →
      package.id.bytes = package'.id.bytes ∧ download.bytes = download'.bytes ∧
        usablePlatform package = usablePlatform package' ∧
        usableModel package = usableModel package' := by
  refine ⟨?_, ?_⟩
  · intro context request responseCapacity
    refine (handleRetroVaultRequest_paths context request responseCapacity).mono ?_
    intro r t ht path size answer hmem
    rcases ht _ hmem with hcatalog | hdownload
    · exact .inl (hcatalog path size rfl)
    · exact .inr (hdownload path size rfl)
  · intro package package' download download' path h h'
    exact buildDownloadPath_usable h h'

/-- A platform with a blank in it does not show in the path. -/
theorem requested_paths_safe_tape :
    let package := samplePackage "pong" "Pong" "" []
    let package' := { package with platformId := .ofBytes (ascii "zx spectrum") }
    buildDownloadPath package (.ofBytes (ascii "tape")) false retroVaultApiPathMax = some tapePath ∧
    buildDownloadPath package' (.ofBytes (ascii "tape")) false retroVaultApiPathMax =
      some tapePath ∧
    usablePlatform package = usablePlatform package' := by
  refine ⟨by decide, by decide, ?_⟩
  exact (requested_paths_safe.2 _ _ (.ofBytes (ascii "tape")) (.ofBytes (ascii "tape")) tapePath
    (by decide) (by decide)).2.2.1

end SquidServer.RetroVault

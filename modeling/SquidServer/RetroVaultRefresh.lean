import SquidServer.RetroVaultDownloads

namespace SquidServer.RetroVault
open Interaction CText Wire
set_option autoImplicit true

/-- The catalog that an event brings: a fetch of the catalog that went through, with a body that
was parsed to its end. -/
def refreshOf (e : Event Services) : Option (List RetroVaultPackage) :=
  match e with
  | ⟨.httpGet path _, answer⟩ =>
    if path = catalogPath ∧ answer.succeeded then parseCatalog answer.body else none
  | _ => none

/-- The catalog that the most recent of the events brings, or else the one of the start. -/
def latestCatalog (start : List RetroVaultPackage) (events : List (Event Services)) :
    List RetroVaultPackage :=
  (events.filterMap refreshOf).getLast?.getD start

theorem latestCatalog_append (start : List RetroVaultPackage) (t u : List (Event Services)) :
    latestCatalog start (t ++ u) = latestCatalog (latestCatalog start t) u := by
  simp only [latestCatalog, List.filterMap_append, List.getLast?_append]
  cases (u.filterMap refreshOf).getLast? with
  | none => rfl
  | some packages => rfl

theorem latestCatalog_single (start : List RetroVaultPackage) (e : Event Services) :
    latestCatalog start [e] = (refreshOf e).getD start := by
  rw [latestCatalog, List.filterMap_cons]
  cases refreshOf e with
  | none => rfl
  | some packages => rfl

theorem latestCatalog_none (h : ∀ e ∈ events, refreshOf e = none) :
    latestCatalog start events = start := by
  rw [latestCatalog, List.filterMap_eq_nil_iff.2 h]
  rfl

/-- The events of `ensure_catalog`. -/
def IsCatalogEvent (e : Event Services) : Prop :=
  e.op = .time ∨ e.op = .httpGet catalogPath retroVaultCatalogLimit

/-- A fetch of a download that failed. -/
def DownloadFailed (e : Event Services) : Prop :=
  ∃ path answer, e = ⟨.httpGet path retroVaultDownloadLimit, answer⟩ ∧ answer.succeeded = false

/-- `handle_list_or_search` with the catalog that is at hand. -/
def listFromCatalog (context : RetroVaultContext) (opcode : UInt8) (request : List UInt8)
    (responseCapacity : Nat) : Program Services (Response × RetroVaultContext) :=
  match parseListOrSearch opcode request with
  | none => return (writeErrorResponse opcode .badRequest responseCapacity, context)
  | some (cursor, filter) =>
    return (writeCatalogPage context opcode cursor filter responseCapacity, context)

/-- `handle_info` with the catalog that is at hand. -/
def infoFromCatalog (context : RetroVaultContext) (opcode : UInt8) (request : List UInt8)
    (responseCapacity : Nat) : Program Services (Response × RetroVaultContext) :=
  let idSize := (byteAt request 3).toNat
  if request.length < 4 ∨ idSize = 0 ∨ idSize ≠ request.length - 4 then
    return (writeErrorResponse opcode .badRequest responseCapacity, context)
  else match (findPackage context.packages (request.drop 4)).bind (context.packages[·]?) with
    | none => return (writeErrorResponse opcode .notFound responseCapacity, context)
    | some package =>
      return (writeInfoPage opcode package (readU16 request 1) responseCapacity, context)

/-- `ensure_download` with the catalog that is at hand. -/
def ensureDownloadFrom (context : RetroVaultContext) (packageId downloadId : List UInt8) :
    Program Services (RetroVaultStatus × RetroVaultContext) :=
  if ¬ identifierIsSafe packageId ∨ ¬ identifierIsSafe downloadId then
    return (.badRequest, context)
  else match (findPackage context.packages packageId).bind (context.packages[·]?) with
    | none => return (.notFound, context)
    | some package =>
      match (findDownload package downloadId).bind (package.downloads[·]?) with
      | none => return (.notFound, context)
      | some download => ensureDownloadOf context package download

/-- `handle_download` with the catalog that is at hand. -/
def downloadFromCatalog (context : RetroVaultContext) (opcode : UInt8) (request : List UInt8)
    (responseCapacity : Nat) : Program Services (Response × RetroVaultContext) := do
  match if responseCapacity < retroVaultDownloadHeaderSize then none
    else parseDownloadRequest request with
  | none => return (writeErrorResponse opcode .badRequest responseCapacity, context)
  | some fields =>
    let (status, context) ← ensureDownloadFrom context fields.packageId fields.downloadId
    if status ≠ .ok then return (writeErrorResponse opcode status responseCapacity, context)
    else return (answerDownload opcode fields context.downloadData responseCapacity, context)

/-- `handle_retro_vault_request` with the catalog that is at hand: neither the clock nor the
catalog of the API is asked. -/
def serveFromCatalog (context : RetroVaultContext) (request : List UInt8)
    (responseCapacity : Nat) : Program Services (Response × RetroVaultContext) :=
  match request with
  | [] => return (none, context)
  | opcode :: _ =>
    if responseCapacity < 2 then return (none, context)
    else if opcode = retroVaultOpCapabilities then
      if request.length ≠ 1 then
        return (writeErrorResponse opcode .badRequest responseCapacity, context)
      else return (handleCapabilities opcode responseCapacity, context)
    else if opcode = retroVaultOpList ∨ opcode = retroVaultOpSearch then
      listFromCatalog context opcode request responseCapacity
    else if opcode = retroVaultOpInfo then infoFromCatalog context opcode request responseCapacity
    else if opcode = retroVaultOpDownload then
      downloadFromCatalog context opcode request responseCapacity
    else return (writeErrorResponse opcode .badRequest responseCapacity, context)

/-- A program that makes sure of the catalog first and then goes on with what is at hand. -/
def afterRefresh (context : RetroVaultContext) (opcode : UInt8) (responseCapacity : Nat)
    (rest : RetroVaultContext → Program Services (Response × RetroVaultContext)) :
    Program Services (Response × RetroVaultContext) :=
  (ensureCatalog context).bind fun r =>
    if r.1 ≠ .ok then .pure (writeErrorResponse opcode r.1 responseCapacity, r.2) else rest r.2

/-- A handler that answers without a catalog or goes on with the one that `ensure_catalog`
leaves. -/
def Refreshes (context : RetroVaultContext) (opcode : UInt8) (responseCapacity : Nat)
    (handler : Program Services (Response × RetroVaultContext))
    (rest : RetroVaultContext → Program Services (Response × RetroVaultContext)) : Prop :=
  (∃ reply, handler = .pure (reply, context) ∧
    ∀ context', rest context' = .pure (reply, context')) ∨
    handler = afterRefresh context opcode responseCapacity rest

section
variable {context : RetroVaultContext} {opcode : UInt8} {request : List UInt8}
  {responseCapacity : Nat}

theorem handleListOrSearch_refreshes : Refreshes context opcode responseCapacity
    (handleListOrSearch context opcode request responseCapacity)
    (listFromCatalog · opcode request responseCapacity) := by
  simp only [handleListOrSearch, listFromCatalog]
  cases parseListOrSearch opcode request with
  | none => exact .inl ⟨_, rfl, fun _ => rfl⟩
  | some fields => exact .inr rfl

theorem handleInfo_refreshes : Refreshes context opcode responseCapacity
    (handleInfo context opcode request responseCapacity)
    (infoFromCatalog · opcode request responseCapacity) := by
  simp only [handleInfo, infoFromCatalog]
  split
  · exact .inl ⟨_, rfl, fun _ => rfl⟩
  · exact .inr rfl

theorem ensureDownload_eq
    (h : ¬ (¬ identifierIsSafe packageId = true ∨ ¬ identifierIsSafe downloadId = true)) :
    ensureDownload context packageId downloadId = (ensureCatalog context).bind fun r =>
      if r.1 ≠ .ok then .pure r else ensureDownloadFrom r.2 packageId downloadId := by
  simp only [ensureDownload, ensureDownloadFrom, if_neg h]
  rfl

theorem handleDownload_refreshes : Refreshes context opcode responseCapacity
    (handleDownload context opcode request responseCapacity)
    (downloadFromCatalog · opcode request responseCapacity) := by
  simp only [handleDownload, downloadFromCatalog]
  cases (if responseCapacity < retroVaultDownloadHeaderSize then none
    else parseDownloadRequest request) with
  | none => exact .inl ⟨_, rfl, fun _ => rfl⟩
  | some fields =>
    by_cases hsafe : ¬ identifierIsSafe fields.packageId = true ∨
        ¬ identifierIsSafe fields.downloadId = true
    · refine .inl ⟨writeErrorResponse opcode .badRequest responseCapacity, ?_, ?_⟩
      · simp only [ensureDownload, if_pos hsafe]
        rfl
      · intro context'
        simp only [ensureDownloadFrom, if_pos hsafe]
        rfl
    · refine .inr ?_
      change (ensureDownload context fields.packageId fields.downloadId).bind _ = _
      rw [ensureDownload_eq hsafe, afterRefresh, Program.bind_assoc]
      congr 1
      funext r
      by_cases hstatus : r.1 ≠ .ok
      · rw [if_pos hstatus, if_pos hstatus, Program.pure_bind, if_pos hstatus]
        rfl
      · rw [if_neg hstatus, if_neg hstatus]
        rfl

/-- Every request is answered without a catalog, or from the one that `ensure_catalog` leaves. -/
theorem handleRetroVaultRequest_refreshes (context : RetroVaultContext) (request : List UInt8)
    (responseCapacity : Nat) : ∃ opcode, Refreshes context opcode responseCapacity
      (handleRetroVaultRequest context request responseCapacity)
      (serveFromCatalog · request responseCapacity) := by
  cases request with
  | nil => exact ⟨0, .inl ⟨_, rfl, fun _ => rfl⟩⟩
  | cons opcode rest =>
    refine ⟨opcode, ?_⟩
    simp only [handleRetroVaultRequest, serveFromCatalog]
    split
    · exact .inl ⟨_, rfl, fun _ => rfl⟩
    · split
      · split
        · exact .inl ⟨_, rfl, fun _ => rfl⟩
        · exact .inl ⟨_, rfl, fun _ => rfl⟩
      · split
        · exact handleListOrSearch_refreshes
        · split
          · exact handleInfo_refreshes
          · split
            · exact handleDownload_refreshes
            · exact .inl ⟨_, rfl, fun _ => rfl⟩

end

/-- A catalog is at hand only when there is a client to fetch it with. -/
def HasClient (context : RetroVaultContext) : Prop := context.packages ≠ [] → context.http = true

/-- What `ensure_catalog` does with the answers it gets. -/
structure Refreshed (context : RetroVaultContext) (events : List (Event Services))
    (r : RetroVaultStatus × RetroVaultContext) : Prop where
  calls : ∀ e ∈ events, IsCatalogEvent e
  packages : r.2.packages = latestCatalog context.packages events
  kept : (∀ e ∈ events, refreshOf e = none) → r.2 = context
  client : HasClient r.2
  served : context.packages ≠ [] → r.1 = .ok

theorem refreshOf_catalog (answer : HttpAnswer) :
    refreshOf ⟨.httpGet catalogPath size, answer⟩ =
      if answer.succeeded then parseCatalog answer.body else none := by
  simp only [refreshOf, true_and]

theorem ensureCatalog_refresh (h : HasClient context) (t : List (Event Services)) :
    Ensures (recording C) (ensureCatalog context)
      (fun r t' => ∃ u, t' = t ++ u ∧ Refreshed context u r) t := by
  refine ensures_bind.2 (ensures_ask fun now t₁ hnow => ?_)
  obtain ⟨-, rfl⟩ := hnow
  have htime : ∀ e ∈ [(⟨Call.time, now⟩ : Event Services)], IsCatalogEvent e := by
    intro e he
    rw [List.mem_singleton] at he
    exact .inl (by rw [he])
  split
  · rename_i hfresh
    exact ensures_pure.2 ⟨_, rfl, htime, rfl, fun _ => rfl, h, fun _ => rfl⟩
  · split
    · rename_i hhttp
      refine ensures_pure.2 ⟨_, rfl, htime, rfl, fun _ => rfl, h, ?_⟩
      intro hpackages
      exact absurd (h hpackages) hhttp
    · rename_i hhttp
      refine ensures_bind.2 (ensures_ask fun answer t₂ hanswer => ?_)
      obtain ⟨-, rfl⟩ := hanswer
      rw [List.append_assoc, ← refreshOf_catalog]
      have hevents : ∀ e ∈ [(⟨Call.time, now⟩ : Event Services)] ++
          [⟨.httpGet catalogPath retroVaultCatalogLimit, answer⟩], IsCatalogEvent e := by
        intro e he
        rcases List.mem_append.1 he with he | he
        · exact htime e he
        · rw [List.mem_singleton] at he
          exact .inr (by rw [he])
      have hlatest : ∀ start, latestCatalog start ([(⟨Call.time, now⟩ : Event Services)] ++
          [⟨.httpGet catalogPath retroVaultCatalogLimit, answer⟩]) =
          (refreshOf ⟨.httpGet catalogPath retroVaultCatalogLimit, answer⟩).getD start := by
        intro start
        rw [latestCatalog_append, latestCatalog_single, latestCatalog_single]
        rfl
      cases hr : refreshOf ⟨.httpGet catalogPath retroVaultCatalogLimit, answer⟩ with
      | none =>
        rw [hr] at hlatest
        dsimp only
        split
        · exact ensures_pure.2 ⟨_, rfl, hevents, (hlatest _).symm, fun _ => rfl, h, fun _ => rfl⟩
        · rename_i hempty
          have hnil : context.packages = [] := by
            rw [← List.length_eq_zero_iff]
            omega
          split
          · exact ensures_pure.2 ⟨_, rfl, hevents, (hlatest _).symm, fun _ => rfl, h,
              fun hne => absurd hnil hne⟩
          · exact ensures_pure.2 ⟨_, rfl, hevents, (hlatest _).symm, fun _ => rfl, h,
              fun hne => absurd hnil hne⟩
      | some packages =>
        rw [hr] at hlatest
        refine ensures_pure.2 ⟨_, rfl, hevents, (hlatest _).symm, ?_, ?_, fun _ => rfl⟩
        · intro hnone
          have hlast := hnone _ (List.mem_append_right _ (List.mem_singleton_self _))
          exact absurd (hlast.symm.trans hr) (by simp)
        · exact fun _ => not_not.1 hhttp

/-- What goes on with the catalog at hand: the catalog stays, and API_UNAVAILABLE is the answer to
a fetch of a download that failed. -/
structure CatalogStays (context : RetroVaultContext) (events : List (Event Services))
    (unavailable : Prop) (after : RetroVaultContext) : Prop where
  calls : ∀ e ∈ events, refreshOf e = none
  packages : after.packages = context.packages
  fetchedAt : after.catalogFetchedAt = context.catalogFetchedAt
  http : after.http = context.http
  failed : unavailable → ∃ e ∈ events, DownloadFailed e

theorem CatalogStays.refl (h : ¬ unavailable) : CatalogStays context [] unavailable context :=
  ⟨by simp, rfl, rfl, rfl, fun hu => absurd hu h⟩

section
variable {context : RetroVaultContext}

theorem ensures_stays (unavailable : α → Prop) {a : α} (h : ¬ unavailable a)
    (t : List (Event Services)) : Ensures (recording C) (.pure (a, context))
      (fun r t' => ∃ u, t' = t ++ u ∧ CatalogStays context u (unavailable r.1) r.2) t :=
  ensures_pure.2 ⟨[], (List.append_nil t).symm, .refl h⟩

theorem fetchDownload_refresh (context : RetroVaultContext) (h : path ≠ catalogPath)
    (t : List (Event Services)) :
    Ensures (recording C) (fetchDownload path)
      (fun r t' => ∃ u, t' = t ++ u ∧ CatalogStays context u (r.1 ≠ .ok) context) t := by
  refine ensures_bind.2 (ensures_ask fun answer t₁ hanswer => ?_)
  obtain ⟨-, rfl⟩ := hanswer
  have hcalls : ∀ e ∈ [(⟨.httpGet path retroVaultDownloadLimit, answer⟩ : Event Services)],
      refreshOf e = none := by
    intro e he
    rw [List.mem_singleton] at he
    rw [he, refreshOf, if_neg fun hand => h hand.1]
  split
  · exact ensures_pure.2 ⟨_, rfl, hcalls, rfl, rfl, rfl, fun he => absurd rfl he⟩
  · rename_i hfailed
    refine ensures_pure.2 ⟨_, rfl, hcalls, rfl, rfl, rfl, fun _ => ?_⟩
    exact ⟨_, List.mem_singleton_self _, path, answer, rfl, Bool.eq_false_iff.2 hfailed⟩

theorem CatalogStays.append (h : CatalogStays context t u after)
    (h' : CatalogStays after t' u' after') : CatalogStays context (t ++ t') u' after' where
  calls := by
    intro e he
    rcases List.mem_append.1 he with he | he
    · exact h.calls e he
    · exact h'.calls e he
  packages := h'.packages.trans h.packages
  fetchedAt := h'.fetchedAt.trans h.fetchedAt
  http := h'.http.trans h.http
  failed := by
    intro hu
    obtain ⟨e, he, hfailed⟩ := h'.failed hu
    exact ⟨e, List.mem_append_right t he, hfailed⟩

theorem CatalogStays.mono (h : CatalogStays context t u after) (hu : u' → u) :
    CatalogStays context t u' after :=
  ⟨h.calls, h.packages, h.fetchedAt, h.http, fun hu' => h.failed (hu hu')⟩

theorem retryDownload_refresh (context : RetroVaultContext) (package : RetroVaultPackage)
    (download : RetroVaultDownload) (hpath : path ≠ catalogPath) (t : List (Event Services)) :
    Ensures (recording C) ((fetchDownload path).bind (retryDownload package download path))
      (fun r t' => ∃ u, t' = t ++ u ∧ CatalogStays context u (r.1 ≠ .ok) context) t := by
  refine ensures_bind.2 ((fetchDownload_refresh context hpath t).mono ?_)
  rintro first _ ⟨u, rfl, hfirst⟩
  rw [retryDownload]
  split
  · split
    · rename_i disambiguated hdisambiguated
      split
      · have hne := buildDownloadPath_ne_catalogPath hdisambiguated
        refine (fetchDownload_refresh context hne _).mono ?_
        rintro second _ ⟨u', rfl, hsecond⟩
        exact ⟨u ++ u', List.append_assoc t u u', hfirst.append hsecond⟩
      · exact ensures_pure.2 ⟨u, rfl, hfirst⟩
    · exact ensures_pure.2 ⟨u, rfl, hfirst⟩
  · exact ensures_pure.2 ⟨u, rfl, hfirst⟩

theorem ensureDownloadOf_refresh (t : List (Event Services)) :
    Ensures (recording C) (ensureDownloadOf context package download)
      (fun r t' => ∃ u, t' = t ++ u ∧ CatalogStays context u (r.1 = .apiUnavailable) r.2) t := by
  rw [ensureDownloadOf]
  split
  · exact ensures_stays (· = RetroVaultStatus.apiUnavailable) (by decide) t
  · rename_i path hpath
    split
    · exact ensures_stays (· = RetroVaultStatus.apiUnavailable) (by decide) t
    · have hne : path ≠ catalogPath := buildDownloadPath_ne_catalogPath hpath
      have hretry := retryDownload_refresh (C := C) context package download hne t
      refine ensures_bind.2 ((ensures_bind.1 hretry).mono ?_)
      intro first t₁ hfirst
      refine ensures_bind.2 (hfirst.mono ?_)
      rintro ⟨status, answer⟩ _ ⟨u, rfl, hu⟩
      dsimp only at hu ⊢
      split
      · rename_i hstatus
        exact ensures_pure.2 ⟨u, rfl, hu.mono fun _ => hstatus⟩
      · refine ensures_bind.2 (ensures_ask fun memory t₃ hmemory => ?_)
        obtain ⟨-, rfl⟩ := hmemory
        have hmalloc : ∀ e ∈ [(⟨Call.malloc (path.length + 1), memory⟩ : Event Services)],
            refreshOf e = none := by
          intro e he
          rw [List.mem_singleton.1 he]
          rfl
        rw [List.append_assoc]
        split
        · exact ensures_pure.2 ⟨_, rfl, hu.append ⟨hmalloc, rfl, rfl, rfl, by simp⟩⟩
        · exact ensures_pure.2 ⟨_, rfl, hu.append ⟨hmalloc, rfl, rfl, rfl, by simp⟩⟩

theorem ensureDownloadFrom_refresh (t : List (Event Services)) :
    Ensures (recording C) (ensureDownloadFrom context packageId downloadId)
      (fun r t' => ∃ u, t' = t ++ u ∧ CatalogStays context u (r.1 = .apiUnavailable) r.2) t := by
  rw [ensureDownloadFrom]
  split
  · exact ensures_stays (· = RetroVaultStatus.apiUnavailable) (by decide) t
  · split
    · exact ensures_stays (· = RetroVaultStatus.apiUnavailable) (by decide) t
    · split
      · exact ensures_stays (· = RetroVaultStatus.apiUnavailable) (by decide) t
      · exact ensureDownloadOf_refresh t

end

/-- The reply is not the error status API_UNAVAILABLE. -/
def Available (reply : Response) : Prop :=
  replyStatus reply ≠ some RetroVaultStatus.apiUnavailable.code

theorem available_ok (opcode : UInt8) (rest : List UInt8) :
    Available (some ([opcode, RetroVaultStatus.ok.code] ++ rest)) := by
  simp [Available, replyStatus, RetroVaultStatus.code]

theorem available_error (h : status ≠ .apiUnavailable) :
    Available (writeErrorResponse opcode status responseCapacity) := by
  rw [writeErrorResponse]
  split
  · simp [Available, replyStatus]
  · cases status with
    | apiUnavailable => exact absurd rfl h
    | _ => simp [Available, replyStatus, RetroVaultStatus.code]

theorem available_answerPage (h : ∀ status, result = .error status → status ≠ .apiUnavailable) :
    Available (answerPage opcode result responseCapacity) := by
  cases result with
  | error status => exact available_error (h status rfl)
  | ok r => simpa only [answerPage, pageResponse, List.append_assoc] using available_ok _ _

theorem catalogPage_error (h : catalogPage filter cursor capacity packages page = .error status) :
    status = .tooLarge := by
  induction packages generalizing page with
  | nil => cases h
  | cons package rest ih =>
    rw [catalogPage] at h
    split at h
    · exact ih h
    · split at h
      · exact ih h
      · split at h
        · exact ih h
        · split at h
          · split at h
            · split at h
              · exact (Except.error.inj h).symm
              · exact ih h
            · cases h
          · exact ih h

theorem infoPage_error (h : infoPage package capacity n page = .error status) :
    status = .internalError ∨ status = .tooLarge := by
  induction n generalizing page with
  | zero => exact .inl (Except.error.inj h).symm
  | succ n ih =>
    rw [infoPage] at h
    split at h
    · cases h
    · split at h
      · exact .inl (Except.error.inj h).symm
      · split at h
        · split at h
          · split at h
            · exact .inr (Except.error.inj h).symm
            · exact ih h
          · cases h
        · exact ih h

theorem available_writeCatalogPage :
    Available (writeCatalogPage context opcode cursor filter responseCapacity) := by
  rw [writeCatalogPage]
  split
  · simp [Available, replyStatus]
  · refine available_answerPage fun status he => ?_
    rw [catalogPage_error he]
    decide

theorem available_writeInfoPage :
    Available (writeInfoPage opcode package cursor responseCapacity) := by
  rw [writeInfoPage]
  split
  · exact available_error (by decide)
  · refine available_answerPage fun status he => ?_
    rcases infoPage_error he with rfl | rfl
    · decide
    · decide

theorem available_answerDownload :
    Available (answerDownload opcode fields data responseCapacity) := by
  rw [answerDownload]
  split
  · exact available_error (by decide)
  · split
    · exact available_error (by decide)
    · simpa only [downloadResponse, List.append_assoc] using available_ok _ _

theorem serveFromCatalog_stays (context : RetroVaultContext) (request : List UInt8)
    (responseCapacity : Nat) (t : List (Event Services)) :
    Ensures (recording C) (serveFromCatalog context request responseCapacity)
      (fun r t' => ∃ u, t' = t ++ u ∧ CatalogStays context u (¬ Available r.1) r.2) t := by
  have hkept : ∀ {reply : Response}, Available reply →
      Ensures (recording C) (.pure (reply, context))
        (fun r t' => ∃ u, t' = t ++ u ∧ CatalogStays context u (¬ Available r.1) r.2) t :=
    fun havailable => ensures_stays (fun reply => ¬ Available reply) (not_not.2 havailable) t
  cases request with
  | nil => exact hkept (by simp [Available, replyStatus])
  | cons opcode rest =>
    rw [serveFromCatalog]
    split
    · exact hkept (by simp [Available, replyStatus])
    · split
      · split
        · exact hkept (available_error (by decide))
        · rw [handleCapabilities]
          split
          · exact hkept (by simp [Available, replyStatus])
          · exact hkept (available_ok _ _)
      · split
        · rw [listFromCatalog]
          split
          · exact hkept (available_error (by decide))
          · exact hkept available_writeCatalogPage
        · split
          · rw [infoFromCatalog]
            split
            · exact hkept (available_error (by decide))
            · split
              · exact hkept (available_error (by decide))
              · exact hkept available_writeInfoPage
          · split
            · rw [downloadFromCatalog]
              split
              · exact hkept (available_error (by decide))
              · refine ensures_bind.2 ((ensureDownloadFrom_refresh t).mono ?_)
                rintro ⟨status, context'⟩ _ ⟨u, rfl, hu⟩
                dsimp only at hu ⊢
                split
                · refine ensures_pure.2 ⟨u, rfl, hu.mono fun hunavailable => ?_⟩
                  by_contra hstatus
                  exact hunavailable (available_error hstatus)
                · exact ensures_pure.2 ⟨u, rfl,
                    hu.mono fun hunavailable => absurd available_answerDownload hunavailable⟩
            · exact hkept (available_error (by decide))

/-- `handle_retro_vault_request` for a request together with the capacity of its response. -/
def answerRetroVault (context : RetroVaultContext) (request : List UInt8 × Nat) :
    Program Services (Response × RetroVaultContext) :=
  handleRetroVaultRequest context request.1 request.2

/-- What one request does to the catalog. A catalog that arrived replaces the one at hand, and
nothing else touches it. With a catalog at hand, a refresh that fails is as good as none: the
request is served as if the API had not been asked for the catalog. -/
structure RefreshIsAtomic (x : Exchange Services RetroVaultContext (List UInt8 × Nat) Response) :
    Prop where
  packages : x.after.packages = latestCatalog x.before.packages x.events
  failed : (∀ e ∈ x.events, refreshOf e = none) →
    x.after.packages = x.before.packages ∧ x.after.catalogFetchedAt = x.before.catalogFetchedAt
  served : x.before.packages ≠ [] → (∀ e ∈ x.events, refreshOf e = none) →
    ∃ refresh rest, x.events = refresh ++ rest ∧ (∀ e ∈ refresh, IsCatalogEvent e) ∧
      Exec (recording fun _ => True) [] (serveFromCatalog x.before x.request.1 x.request.2) rest
        (x.reply, x.after)
  available : x.before.packages ≠ [] → ¬ Available x.reply → ∃ e ∈ x.events, DownloadFailed e

theorem RefreshIsAtomic.of_pure (h : ∀ context, serveFromCatalog context request.1 request.2 =
    .pure (reply, context)) : RefreshIsAtomic ⟨context, request, [], reply, context⟩ where
  packages := rfl
  failed := fun _ => ⟨rfl, rfl⟩
  served := fun _ _ => ⟨[], [], rfl, by simp, by rw [h]; exact .pure _ _⟩
  available := by
    intro _ hunavailable
    obtain ⟨u, hu, hstays⟩ := serveFromCatalog_stays (C := fun _ => True) context request.1
      request.2 [] [] (reply, context) (by rw [h]; exact .pure _ _)
    obtain ⟨e, he, hfailed⟩ := hstays.failed hunavailable
    rw [List.nil_append] at hu
    exact ⟨e, by rw [hu]; exact he, hfailed⟩

theorem answerRetroVault_atomic (h : HasClient context) (request : List UInt8 × Nat) :
    Ensures (recording fun _ => True) (answerRetroVault context request)
      (fun r t => HasClient r.2 ∧ RefreshIsAtomic ⟨context, request, t, r.1, r.2⟩) [] := by
  obtain ⟨opcode, hhandler⟩ := handleRetroVaultRequest_refreshes context request.1 request.2
  rw [answerRetroVault]
  rcases hhandler with ⟨reply, hpure, hrest⟩ | hrefresh
  · rw [hpure]
    exact ensures_pure.2 ⟨h, .of_pure hrest⟩
  · rw [hrefresh, afterRefresh]
    refine ensures_bind.2 ((ensureCatalog_refresh h []).mono ?_)
    rintro ⟨status, context'⟩ u ⟨_, rfl, hu⟩
    have hpackages := hu.packages
    dsimp only at hpackages ⊢
    split
    · -- Without a catalog at hand, the request fails with what `ensure_catalog` says.
      rename_i hstatus
      refine ensures_pure.2 ⟨hu.client, hpackages, ?_, ?_, ?_⟩
      · intro hnone
        rw [show context' = context from hu.kept hnone]
        exact ⟨rfl, rfl⟩
      · exact fun hne => absurd (hu.served hne) hstatus
      · exact fun hne => absurd (hu.served hne) hstatus
    · intro t r he
      obtain ⟨v, rfl, hexec⟩ := exec_recording_start he
      obtain ⟨_, rfl, hstays⟩ := serveFromCatalog_stays context' request.1 request.2 [] v r hexec
      have hnone : (∀ e ∈ u ++ v, refreshOf e = none) → context' = context :=
        fun hnone => hu.kept fun e he => hnone e (List.mem_append_left v he)
      refine ⟨?_, ?_, ?_, ?_, ?_⟩
      · intro hne
        rw [hstays.packages] at hne
        rw [hstays.http]
        exact hu.client hne
      · rw [latestCatalog_append, latestCatalog_none hstays.calls, ← hpackages]
        exact hstays.packages
      · intro hfailed
        have hcontext := hnone hfailed
        subst hcontext
        exact ⟨hstays.packages, hstays.fetchedAt⟩
      · intro hne hfailed
        have hcontext := hnone hfailed
        subst hcontext
        exact ⟨u, v, rfl, hu.calls, hexec⟩
      · intro hne hunavailable
        obtain ⟨e, he, hfailed⟩ := hstays.failed hunavailable
        exact ⟨e, List.mem_append_right u he, hfailed⟩

theorem conversation_packages
    (h : Conversation (fun _ => True) answerRetroVault context exchanges final)
    (hall : ∀ x ∈ exchanges, RefreshIsAtomic x) :
    final.packages = latestCatalog context.packages (exchanges.flatMap (·.events)) := by
  induction h with
  | nil context => rfl
  | @cons xs final x he hrest ih =>
    rw [List.flatMap_cons, latestCatalog_append, ← (hall x List.mem_cons_self).packages]
    exact ih fun y hy => hall y (List.mem_cons_of_mem x hy)

/-- The refresh of the catalog is atomic: at any time the packages are those of the most recent
body that arrived and was parsed to its end, a refresh that fails leaves the catalog and its time
as they were, and with a catalog at hand it does not show in the reply to any request. -/
theorem catalog_refresh_atomic
    (h : Conversation (fun _ => True) answerRetroVault (initRetroVaultContext http) exchanges
      final) :
    final.packages = latestCatalog [] (exchanges.flatMap (·.events)) ∧
    ∀ prior x later, exchanges = prior ++ x :: later →
      x.before.packages = latestCatalog [] (prior.flatMap (·.events)) ∧ RefreshIsAtomic x := by
  have hstart : HasClient (initRetroVaultContext http) := fun hne => absurd rfl hne
  obtain ⟨-, hall⟩ := h.invariant HasClient RefreshIsAtomic
    (fun context request hi => answerRetroVault_atomic hi request) hstart
  refine ⟨conversation_packages h hall, ?_⟩
  rintro prior x later rfl
  obtain ⟨context, hprior, hrest⟩ := h.split
  cases hrest with
  | cons he hlater =>
    refine ⟨?_, hall x (by simp)⟩
    exact conversation_packages hprior fun y hy => hall y (List.mem_append_left _ hy)

def tapeListRequest : List UInt8 × Nat := ([retroVaultOpList, 0, 0, 0], 255)

/-- The catalog arrives, and the next refresh ends one byte before the end of the body. -/
def refreshExchanges :
    List (Exchange Services RetroVaultContext (List UInt8 × Nat) Response) :=
  let context := { initRetroVaultContext true with packages := tapeCatalog, catalogFetchedAt := 5 }
  let reply := some ([0x81, 0, 0xFF, 0xFF, 1] ++ countedText (ascii "pong") ++
    countedText (ascii "Pong"))
  [{ before := initRetroVaultContext true
     request := tapeListRequest
     events := [⟨Call.time, (5 : Int)⟩,
       ⟨Call.httpGet catalogPath retroVaultCatalogLimit, HttpAnswer.mk 0 200 tapeCatalogData⟩]
     reply := reply
     after := context },
   { before := context
     request := tapeListRequest
     events := [⟨Call.time, (4 : Int)⟩,
       ⟨Call.httpGet catalogPath retroVaultCatalogLimit,
         HttpAnswer.mk 0 200 tapeCatalogData.dropLast⟩]
     reply := reply
     after := context }]

theorem conversation_refresh : ∃ final, Conversation (fun _ => True) answerRetroVault
    (initRetroVaultContext true) refreshExchanges final := by
  have hexec : ∀ x ∈ refreshExchanges, Exec (recording fun _ => True) []
      (answerRetroVault x.before x.request) x.events (x.reply, x.after) := by
    intro x hx
    have hreplay : (answerRetroVault x.before x.request).replay x.events =
        some (x.reply, x.after) := by
      revert x
      decide +kernel
    exact exec_of_replay hreplay (steps_recording (fun _ _ => trivial) [])
  exact ⟨_, .cons (hexec _ List.mem_cons_self)
    (.cons (hexec _ (List.mem_cons_of_mem _ List.mem_cons_self)) (.nil _))⟩

theorem catalog_refresh_atomic_tape : ∃ final, Conversation (fun _ => True) answerRetroVault
      (initRetroVaultContext true) refreshExchanges final ∧
    final.packages = latestCatalog [] (refreshExchanges.flatMap (·.events)) := by
  obtain ⟨final, h⟩ := conversation_refresh
  exact ⟨final, h, (catalog_refresh_atomic h).1⟩

end SquidServer.RetroVault

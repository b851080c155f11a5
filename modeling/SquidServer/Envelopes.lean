import SquidServer.Filesystem
import SquidServer.TcpProxy
import SquidServer.TimeService
import SquidServer.RetroVaultDownloads

namespace SquidServer
open Interaction Wire
set_option autoImplicit true

/-- The envelope of a reply: it fits a packet, it begins with the opcode of the request and the
response bit, and behind a status that is not OK there is nothing. -/
structure Envelope (opcode : UInt8) (reply : List UInt8) : Prop where
  least : 2 ≤ reply.length
  most : reply.length ≤ 255
  first : reply[0]? = some (opcode ||| 0x80)
  bare : reply[1]? ≠ some 0 → reply.length = 2

/-- There is a reply, and it is well formed. -/
def Replies (opcode : UInt8) (response : Response) : Prop :=
  ∃ reply, response = some reply ∧ Envelope opcode reply

theorem replies_bare (opcode status : UInt8) : Replies opcode (some [opcode ||| 0x80, status]) :=
  ⟨_, rfl, Nat.le_refl 2, by simp, rfl, fun _ => rfl⟩

theorem replies_ok {reply : List UInt8} (hstart : reply.take 2 = [opcode ||| 0x80, 0])
    (h : reply.length ≤ 255) : Replies opcode (some reply) := by
  match reply with
  | [] => cases hstart
  | [_] => cases hstart
  | a :: b :: body =>
    cases hstart
    exact ⟨_, rfl, by simp only [List.length_cons]; omega, h, rfl,
      fun hstatus => absurd rfl hstatus⟩

namespace Filesystem
open Posix

theorem replies_writeResponse (opcode : UInt8) (status : SquidFsStatus) :
    Replies opcode (writeResponse opcode status 255) :=
  replies_bare opcode status.code

/-- A read never gives more than was asked for. -/
def ReadsFit (e : Event Syscalls) : Prop :=
  match e with
  | ⟨.pread _ size _, .ok data⟩ => data.length ≤ size
  | _ => True

/-- The entries for the directory itself and its parent. -/
def isDotEntry (e : Event Syscalls) : Bool :=
  match e with
  | ⟨.readdir _, .ok (some name)⟩ => name = dot ∨ name = dotdot
  | _ => false

/-- How many turns the loop of `handle_list` can still make, less those for the two dot entries:
an entry before the cursor raises the 16-bit index, any other one takes room in the page. -/
def turnsLeft (page : ListPage) : Nat :=
  (250 - page.records.length) * 65536 + (65536 - page.entryIndex.toNat)

theorem listEntry_turn (directory : Fd) (cursor : UInt16) (h : page.records.length ≤ 250) :
    Ensures (sparing ReadsFit isDotEntry) (listEntry directory cursor 255 page)
      (fun x n' => match x with
        | .inl page' => page'.records.length ≤ 250 ∧ turnsLeft page' + n' < turnsLeft page + n
        | .inr result => ∀ next page', result = .ok (next, page') → page'.records.length ≤ 250)
      n := by
  have hindex := page.entryIndex.toNat_lt
  refine ensures_bind.2 (ensures_ask fun entry n₁ hentry => ?_)
  cases entry with
  | error e => exact ensures_pure.2 (fun _ _ he => nomatch he)
  | ok entry =>
    cases entry with
    | none =>
      refine ensures_pure.2 ?_
      intro next page' he
      cases he
      exact h
    | some name =>
      have hcount : n = n₁ + if name = dot ∨ name = dotdot then 1 else 0 := by
        simpa [isDotEntry] using hentry.2
      dsimp only
      split
      · rename_i hdot
        rw [if_pos hdot] at hcount
        refine ensures_pure.2 ⟨h, ?_⟩
        omega
      · rename_i hdot
        rw [if_neg hdot, Nat.add_zero] at hcount
        subst hcount
        split
        · rename_i hbefore
          have hlt : page.entryIndex.toNat < cursor.toNat := UInt16.lt_iff_toNat_lt.1 hbefore
          have hcursor := cursor.toNat_lt
          have hnext : (page.entryIndex + 1).toNat = page.entryIndex.toNat + 1 :=
            u16_toNat_succ (by omega)
          refine ensures_pure.2 ⟨h, ?_⟩
          simp only [turnsLeft, hnext]
          omega
        · split
          · exact ensures_pure.2 (fun _ _ he => nomatch he)
          · refine ensures_bind.2 (ensures_ask fun information n₂ hinformation => ?_)
            have hsame : n = n₂ := hinformation.2
            subst hsame
            cases information with
            | error e => exact ensures_pure.2 (fun _ _ he => nomatch he)
            | ok information =>
              dsimp only
              split
              · split
                · exact ensures_pure.2 (fun _ _ he => nomatch he)
                · refine ensures_pure.2 ?_
                  intro next page' he
                  cases he
                  exact h
              · rename_i hroom
                rw [show squidFsPageHeaderSize = 5 from rfl] at hroom
                have hlength : (listRecord name information).length = 6 + name.length := by
                  simp only [listRecord, writeU32, List.length_append, List.length_cons,
                    List.length_nil]
                  omega
                have hafter := (page.entryIndex + 1).toNat_lt
                refine ensures_pure.2 ⟨?_, ?_⟩
                · rw [List.length_append, hlength]
                  omega
                · simp only [turnsLeft, List.length_append, hlength]
                  omega

theorem listLoop_ends (directory : Fd) (cursor : UInt16) (h : page.records.length ≤ 250)
    (hfuel : turnsLeft page + n < fuel) :
    Ensures (sparing ReadsFit isDotEntry)
      (Program.loop (listEntry directory cursor 255) fuel page)
      (fun x _ => ∃ result, x = some result ∧
        ∀ next page', result = .ok (next, page') → page'.records.length ≤ 250) n := by
  refine ensures_loop
    (fun fuel page n => page.records.length ≤ 250 ∧ turnsLeft page + n < fuel) ?_ ?_ ⟨h, hfuel⟩
  · intro page n hi
    exact absurd hi.2 (Nat.not_lt_zero _)
  · intro fuel page n hi
    refine (listEntry_turn directory cursor hi.1).mono ?_
    intro x n' hx
    cases x with
    | inl page' => exact ⟨hx.1, by have := hx.2; omega⟩
    | inr result => exact ⟨result, rfl, hx⟩

theorem handleList_replies (context : SquidFsContext) (opcode : UInt8) (request : List UInt8)
    (hfuel : 251 * 65536 + n < fuel) :
    Ensures (sparing ReadsFit isDotEntry) (handleList fuel context opcode request 255)
      (fun r _ => Replies opcode r) n := by
  rw [handleList]
  split
  · exact ensures_pure.2 (replies_writeResponse opcode _)
  · dsimp only
    split
    · exact ensures_pure.2 (replies_writeResponse opcode _)
    · refine ensures_bind.2 ?_
      intro n₁ opened hopened
      split
      · exact ensures_pure.2 (replies_writeResponse opcode _)
      · refine ensures_bind.2 ?_
        intro n₂ stream hstream
        split
        · exact ensures_bind_any fun _ _ => ensures_pure.2 (replies_writeResponse opcode _)
        · have hle := (exec_sparing_le hstream).trans (exec_sparing_le hopened)
          refine ensures_bind.2 ((listLoop_ends _ _ (Nat.zero_le _) ?_).mono ?_)
          · simp only [turnsLeft, List.length_nil, UInt16.toNat_zero]
            omega
          · intro x n₃ hx
            obtain ⟨result, rfl, hpage⟩ := hx
            split
            · rename_i hnone
              cases hnone
            · exact ensures_bind_any fun _ _ => ensures_pure.2 (replies_writeResponse opcode _)
            · rename_i next page hsome
              cases hsome
              have hroom := hpage next page rfl
              refine ensures_bind_any fun _ _ => ensures_pure.2 (replies_ok rfl ?_)
              simp only [listResponse, writeU16, List.length_append, List.length_cons,
                List.length_nil]
              omega

theorem readFile_fits (fileFd : Fd) (opcode : UInt8) (offset : UInt32) (maximumBytes : UInt8) :
    Ensures (sparing ReadsFit isDotEntry) (readFile fileFd opcode offset maximumBytes 255)
      (fun r _ => Replies opcode (answer opcode r 255)) n := by
  refine ensures_bind_any fun information n => ?_
  cases information with
  | error e => exact ensures_pure.2 (replies_writeResponse opcode _)
  | ok information =>
    dsimp only
    split
    · exact ensures_pure.2 (replies_writeResponse opcode _)
    · split
      · exact ensures_pure.2 (replies_writeResponse opcode _)
      · split
        · exact ensures_pure.2 (replies_writeResponse opcode _)
        · split
          · exact ensures_pure.2 (replies_writeResponse opcode _)
          · refine ensures_bind.2 (ensures_ask fun data n₁ hdata => ?_)
            cases data with
            | error e => exact ensures_pure.2 (replies_writeResponse opcode _)
            | ok data =>
              have hfit : data.length ≤ readDataSize 255 maximumBytes.toNat
                information.stSize.toNat offset.toNat := hdata.1
              have hsize : readDataSize 255 maximumBytes.toNat information.stSize.toNat
                  offset.toNat ≤ 244 := by
                simp only [readDataSize, show 255 - squidFsReadHeaderSize = 244 from rfl]
                split <;> split <;> split <;> omega
              refine ensures_pure.2 (replies_ok rfl ?_)
              simp only [readResponse, writeU32, List.length_append, List.length_cons,
                List.length_nil]
              omega

theorem handleRead_replies (context : SquidFsContext) (opcode : UInt8) (request : List UInt8) :
    Ensures (sparing ReadsFit isDotEntry) (handleRead context opcode request 255)
      (fun r _ => Replies opcode r) n := by
  rw [handleRead]
  split
  · exact ensures_pure.2 (replies_writeResponse opcode _)
  · rw [if_neg (by decide)]
    refine ensures_bind_any fun opened n => ?_
    split
    · exact ensures_pure.2 (replies_writeResponse opcode _)
    · refine ensures_bind_any fun file n => ?_
      refine ensures_bind_any fun _ n => ?_
      split
      · exact ensures_pure.2 (replies_writeResponse opcode _)
      · refine ensures_bind.2 ((readFile_fits _ opcode _ _).mono ?_)
        intro result n hresult
        exact ensures_bind_any fun _ _ => ensures_pure.2 hresult

section
variable {H : Environment Syscalls σ} {s : σ}

theorem handleStat_replies (context : SquidFsContext) (opcode : UInt8) (request : List UInt8) :
    Ensures H (handleStat context opcode request 255) (fun r _ => Replies opcode r) s := by
  have hanswer : ∀ result, Replies opcode (answerStat opcode result 255) := by
    intro result
    cases result with
    | error e => exact replies_writeResponse opcode _
    | ok information => exact replies_ok rfl (by simp [statResponse, writeU16, writeU32])
  rw [handleStat]
  split
  · exact ensures_pure.2 (replies_writeResponse opcode _)
  · split
    · split
      · exact ensures_pure.2 (hanswer _)
      · exact ensures_bind_any fun _ _ => ensures_pure.2 (hanswer _)
    · refine ensures_bind_any fun opened s => ?_
      split
      · exact ensures_pure.2 (hanswer _)
      · refine ensures_bind_any fun result s => ?_
        exact ensures_bind_any fun _ _ => ensures_pure.2 (hanswer _)

theorem handleWrite_replies (context : SquidFsContext) (opcode : UInt8) (request : List UInt8) :
    Ensures H (handleWrite context opcode request 255) (fun r _ => Replies opcode r) s := by
  rw [handleWrite]
  split
  · exact ensures_pure.2 (replies_writeResponse opcode _)
  · split
    · exact ensures_pure.2 (replies_writeResponse opcode _)
    · refine ensures_bind_any fun opened s => ?_
      split
      · exact ensures_pure.2 (replies_writeResponse opcode _)
      · refine ensures_bind_any fun file s => ?_
        refine ensures_bind_any fun _ s => ?_
        split
        · exact ensures_pure.2 (replies_writeResponse opcode _)
        · refine ensures_bind_any fun result s => ?_
          refine ensures_bind_any fun _ s => ?_
          split
          · exact ensures_pure.2 (replies_writeResponse opcode _)
          · exact ensures_pure.2 (replies_ok rfl (by simp [writeOkResponse, writeU32]))

theorem handleMkdirOrDelete_replies (context : SquidFsContext) (opcode : UInt8)
    (request : List UInt8) :
    Ensures H (handleMkdirOrDelete context opcode request 255) (fun r _ => Replies opcode r) s := by
  rw [handleMkdirOrDelete]
  split
  · exact ensures_pure.2 (replies_writeResponse opcode _)
  · split
    · exact ensures_pure.2 (replies_writeResponse opcode _)
    · refine ensures_bind_any fun opened s => ?_
      split
      · exact ensures_pure.2 (replies_writeResponse opcode _)
      · refine ensures_bind_any fun result s => ?_
        exact ensures_bind_any fun _ _ => ensures_pure.2 (replies_writeResponse opcode _)

theorem handleRename_replies (context : SquidFsContext) (opcode : UInt8) (request : List UInt8) :
    Ensures H (handleRename context opcode request 255) (fun r _ => Replies opcode r) s := by
  rw [handleRename]
  split
  · exact ensures_pure.2 (replies_writeResponse opcode _)
  · split
    · exact ensures_pure.2 (replies_writeResponse opcode _)
    · refine ensures_bind_any fun opened s => ?_
      split
      · exact ensures_pure.2 (replies_writeResponse opcode _)
      · refine ensures_bind_any fun opened s => ?_
        split
        · exact ensures_bind_any fun _ _ => ensures_pure.2 (replies_writeResponse opcode _)
        · refine ensures_bind_any fun result s => ?_
          refine ensures_bind_any fun _ s => ?_
          exact ensures_bind_any fun _ _ => ensures_pure.2 (replies_writeResponse opcode _)

end

theorem handleSquidFsRequest_replies (opcode : UInt8) (rest : List UInt8)
    (hroot : context.rootFd ≠ none) (hfuel : 251 * 65536 + n < fuel) :
    Ensures (sparing ReadsFit isDotEntry)
      (handleSquidFsRequest fuel context (opcode :: rest) 255) (fun r _ => Replies opcode r) n := by
  have hopen : ¬ (context.rootFd = none ∨ 255 < 2) := by simp [hroot]
  rw [handleSquidFsRequest, if_neg hopen]
  split
  · split
    · exact ensures_pure.2 (replies_writeResponse opcode _)
    · exact ensures_pure.2 (replies_ok rfl (by simp [writeU16]))
  · split
    · exact handleStat_replies context opcode _
    · split
      · exact handleList_replies context opcode _ hfuel
      · split
        · exact handleRead_replies context opcode _
        · split
          · exact handleWrite_replies context opcode _
          · split
            · exact handleMkdirOrDelete_replies context opcode _
            · split
              · exact handleRename_replies context opcode _
              · exact ensures_pure.2 (replies_writeResponse opcode _)

end Filesystem

namespace RetroVault
open CText

theorem replies_writeErrorResponse (opcode : UInt8) (status : RetroVaultStatus) :
    Replies opcode (writeErrorResponse opcode status 255) :=
  replies_bare opcode status.code

theorem replies_pageResponse (opcode : UInt8) (next : UInt16) {page : Page}
    (h : page.records.length ≤ 250) : Replies opcode (some (pageResponse opcode next page)) := by
  refine replies_ok rfl ?_
  simp only [pageResponse, writeU16, List.length_append, List.length_cons, List.length_nil]
  omega

theorem makeListEntry_length (h : makeListEntry package capacity = some entry) :
    entry.length ≤ capacity := by
  rw [makeListEntry] at h
  split at h
  · cases h
  · split at h
    · cases h
    · rename_i hcapacity hid
      have hname := shorten_le package.name.bytes (capacity - package.id.bytes.length - 2)
      cases h
      simp only [List.length_append, List.length_cons, List.length_nil, List.length_take]
      omega

/-- A page of the catalog never outgrows the response. -/
theorem catalogPage_fits (filter : CatalogFilter) (cursor : UInt16)
    (packages : List RetroVaultPackage) {page : Page} (h : page.records.length ≤ 250) :
    ∀ next page', catalogPage filter cursor 255 packages page = .ok (next, page') →
      page'.records.length ≤ 250 := by
  have hroom : ∀ p : Page, p.room 255 = 250 - p.records.length := by
    intro p
    rw [Page.room, show retroVaultPageHeaderSize = 5 from rfl]
    omega
  induction packages generalizing page with
  | nil =>
    intro next page' he
    cases he
    exact h
  | cons package packages ih =>
    intro next page' he
    rw [catalogPage] at he
    split at he
    · exact ih h next page' he
    · split at he
      · exact @ih page.skip h next page' he
      · split at he
        · exact @ih page.skip h next page' he
        · rename_i entry _
          split at he
          · split at he
            · split at he
              · cases he
              · rename_i shorter hshorter
                have hlength := makeListEntry_length hshorter
                rw [hroom] at hlength
                refine @ih (page.push shorter) ?_ next page' he
                rw [Page.push, List.length_append]
                omega
            · cases he
              exact h
          · rename_i hfits
            rw [hroom] at hfits
            refine @ih (page.push entry) ?_ next page' he
            rw [Page.push, List.length_append]
            omega

theorem writeCatalogPage_replies (context : RetroVaultContext) (opcode : UInt8) (cursor : UInt16)
    (filter : CatalogFilter) :
    Replies opcode (writeCatalogPage context opcode cursor filter 255) := by
  rw [writeCatalogPage, if_neg (by decide)]
  cases hpage : catalogPage filter cursor 255 context.packages ⟨0, 0, []⟩ with
  | error status => exact replies_writeErrorResponse opcode status
  | ok result =>
    exact replies_pageResponse opcode result.1
      (catalogPage_fits filter cursor _ (Nat.zero_le _) _ _ hpage)

theorem writeInfoPage_replies (opcode : UInt8) (package : RetroVaultPackage) (cursor : UInt16) :
    Replies opcode (writeInfoPage opcode package cursor 255) := by
  rw [writeInfoPage]
  split
  · exact replies_writeErrorResponse opcode _
  · obtain ⟨next, page, records, hrun, hholds, -⟩ := infoPage_start package cursor
    rw [hrun]
    exact replies_pageResponse opcode next hholds.room

theorem answerDownload_replies (opcode : UInt8) (fields : DownloadRequest) (data : List UInt8) :
    Replies opcode (answerDownload opcode fields data 255) := by
  rw [answerDownload]
  split
  · exact replies_writeErrorResponse opcode _
  · split
    · exact replies_writeErrorResponse opcode _
    · refine replies_ok rfl ?_
      have hsize : chunkSize fields.maximumBytes.toNat
          (data.drop fields.offset.toNat).length ≤ 244 := Nat.min_le_left _ _
      rw [downloadDataSize_eq]
      simp only [downloadResponse, writeU32, List.length_append, List.length_cons, List.length_nil,
        List.length_take]
      omega

section
variable {H : Environment Services σ} {s : σ}

theorem handleListOrSearch_replies (context : RetroVaultContext) (opcode : UInt8)
    (request : List UInt8) :
    Ensures H (handleListOrSearch context opcode request 255)
      (fun r _ => Replies opcode r.1) s := by
  rw [handleListOrSearch]
  split
  · exact ensures_pure.2 (replies_writeErrorResponse opcode _)
  · refine ensures_bind_any fun r s => ?_
    split
    split
    · exact ensures_pure.2 (replies_writeErrorResponse opcode _)
    · exact ensures_pure.2 (writeCatalogPage_replies _ opcode _ _)

theorem handleInfo_replies (context : RetroVaultContext) (opcode : UInt8) (request : List UInt8) :
    Ensures H (handleInfo context opcode request 255) (fun r _ => Replies opcode r.1) s := by
  rw [handleInfo]
  split
  · exact ensures_pure.2 (replies_writeErrorResponse opcode _)
  · refine ensures_bind_any fun r s => ?_
    split
    split
    · exact ensures_pure.2 (replies_writeErrorResponse opcode _)
    · split
      · exact ensures_pure.2 (replies_writeErrorResponse opcode _)
      · exact ensures_pure.2 (writeInfoPage_replies opcode _ _)

theorem handleDownload_replies (context : RetroVaultContext) (opcode : UInt8)
    (request : List UInt8) :
    Ensures H (handleDownload context opcode request 255) (fun r _ => Replies opcode r.1) s := by
  rw [handleDownload]
  split
  · exact ensures_pure.2 (replies_writeErrorResponse opcode _)
  · refine ensures_bind_any fun r s => ?_
    split
    split
    · exact ensures_pure.2 (replies_writeErrorResponse opcode _)
    · exact ensures_pure.2 (answerDownload_replies opcode _ _)

theorem handleRetroVaultRequest_replies (context : RetroVaultContext) (opcode : UInt8)
    (rest : List UInt8) :
    Ensures H (handleRetroVaultRequest context (opcode :: rest) 255)
      (fun r _ => Replies opcode r.1) s := by
  rw [handleRetroVaultRequest, if_neg (by decide)]
  split
  · split
    · exact ensures_pure.2 (replies_writeErrorResponse opcode _)
    · exact ensures_pure.2 (replies_ok rfl (by simp))
  · split
    · exact handleListOrSearch_replies context opcode _
    · split
      · exact handleInfo_replies context opcode _
      · split
        · exact handleDownload_replies context opcode _
        · exact ensures_pure.2 (replies_writeErrorResponse opcode _)

end

end RetroVault

namespace TcpProxy
open Posix Sockets

theorem replies_writeStatus (opcode : UInt8) (status : SquidTcpStatus) :
    Replies opcode (writeStatus opcode status 255) :=
  replies_bare opcode status.code

/-- A receive never gives more than was asked for. -/
def ReceivesFit (e : Event Network) : Prop :=
  match e with
  | ⟨.recv _ size, .ok data⟩ => data.length ≤ size
  | _ => True

/-- A signal has interrupted the wait for a socket. -/
def isInterrupted (e : Event Network) : Bool :=
  match e with
  | ⟨.poll _ _ _, .error e⟩ => e = .eintr
  | _ => false

theorem waitForSocket_ends (socketFd : Fd) (events timeoutMs : Nat) (hfuel : n < fuel) :
    Ensures (sparing ReceivesFit isInterrupted) (waitForSocket fuel socketFd events timeoutMs)
      (fun r _ => ∃ outcome, r = some outcome) n := by
  refine ensures_loop (fun fuel _ n => n < fuel) ?_ ?_ hfuel
  · intro _ n hi
    exact absurd hi (Nat.not_lt_zero n)
  · intro fuel _ n hi
    refine ensures_bind.2 (ensures_ask fun result n₁ hresult => ?_)
    cases result with
    | error e =>
      have hcount : n = n₁ + if e = .eintr then 1 else 0 := by
        simpa [isInterrupted] using hresult.2
      dsimp only
      split
      · rename_i he
        rw [if_pos he] at hcount
        refine ensures_pure.2 ?_
        dsimp only
        omega
      · exact ensures_pure.2 ⟨_, rfl⟩
    | ok result =>
      cases result with
      | none => exact ensures_pure.2 ⟨_, rfl⟩
      | some revents =>
        dsimp only
        split
        · exact ensures_pure.2 ⟨_, rfl⟩
        · exact ensures_pure.2 ⟨_, rfl⟩

theorem connectAddress_ends (address : Address) (timeoutMs : UInt32) (hfuel : n < fuel) :
    Ensures (sparing ReceivesFit isInterrupted) (connectAddress fuel address timeoutMs)
      (fun r _ => ∃ connected, r = some connected) n := by
  have hclose : ∀ (fd : Fd) (e : Errno) (n : Nat), Ensures (sparing ReceivesFit isInterrupted)
      ((closeFailed fd e).bind fun e => .pure (some (.error e)))
      (fun r _ => ∃ connected : Except Errno Fd, r = some connected) n :=
    fun _ _ _ => ensures_bind_any fun _ _ => ensures_pure.2 ⟨_, rfl⟩
  refine ensures_bind.2 ?_
  intro n₁ opened hopened
  split
  · exact ensures_pure.2 ⟨_, rfl⟩
  · refine ensures_bind.2 ?_
    intro n₂ nonblocking hnonblocking
    split
    · exact hclose _ _ _
    · refine ensures_bind.2 ?_
      intro n₃ result hresult
      split
      · exact ensures_pure.2 ⟨_, rfl⟩
      · split
        · exact hclose _ _ _
        · have hle := ((exec_sparing_le hresult).trans (exec_sparing_le hnonblocking)).trans
            (exec_sparing_le hopened)
          refine ensures_bind.2 ((waitForSocket_ends _ _ _ (Nat.lt_of_le_of_lt hle hfuel)).mono ?_)
          intro r n₄ hr
          obtain ⟨outcome, rfl⟩ := hr
          cases outcome with
          | timeout => exact hclose _ _ _
          | failed e => exact hclose _ _ _
          | ready =>
            refine ensures_bind_any fun pending n₅ => ?_
            split
            · exact hclose _ _ _
            · exact hclose _ _ _
            · exact ensures_pure.2 ⟨_, rfl⟩

theorem connectAddresses_ends (addresses : List Address) (errno : Errno) (timeoutMs : UInt32)
    (hfuel : n < fuel) :
    Ensures (sparing ReceivesFit isInterrupted) (connectAddresses fuel timeoutMs addresses errno)
      (fun r _ => ∃ connected, r = some connected) n := by
  induction addresses generalizing errno n with
  | nil => exact ensures_pure.2 ⟨_, rfl⟩
  | cons address addresses ih =>
    rw [connectAddresses]
    refine ensures_bind.2 ?_
    intro n₁ r hr
    obtain ⟨connected, rfl⟩ := connectAddress_ends address timeoutMs hfuel _ _ hr
    cases connected with
    | ok connectedFd => exact ensures_pure.2 ⟨_, rfl⟩
    | error e => exact ih e (Nat.lt_of_le_of_lt (exec_sparing_le hr) hfuel)

theorem handleConnect_replies (context : SquidTcpContext) (opcode : UInt8) (request : List UInt8)
    (hfuel : n < fuel) :
    Ensures (sparing ReceivesFit isInterrupted) (handleConnect fuel context opcode request 255)
      (fun r _ => Replies opcode r.1) n := by
  rw [handleConnect]
  split
  · exact ensures_pure.2 (replies_writeStatus opcode _)
  · split
    · exact ensures_pure.2 (replies_writeStatus opcode _)
    · refine ensures_bind.2 ?_
      intro n₁ lookup hlookup
      split
      · exact ensures_pure.2 (replies_writeStatus opcode _)
      · have hfuel := Nat.lt_of_le_of_lt (exec_sparing_le hlookup) hfuel
        refine ensures_bind.2 ((connectAddresses_ends _ _ _ hfuel).mono ?_)
        intro r n₂ hr
        obtain ⟨connected, rfl⟩ := hr
        refine ensures_bind_any fun changed n₃ => ?_
        cases connected with
        | error e => exact ensures_pure.2 (replies_writeStatus opcode _)
        | ok connected =>
          refine ensures_bind_any fun context n₄ => ?_
          exact ensures_pure.2 (replies_ok rfl (by simp))

theorem handleWrite_replies (context : SquidTcpContext) (opcode : UInt8) (request : List UInt8)
    (hfuel : n < fuel) :
    Ensures (sparing ReceivesFit isInterrupted) (handleWrite fuel context opcode request 255)
      (fun r _ => Replies opcode r.1) n := by
  have hclose : ∀ n : Nat, Ensures (sparing ReceivesFit isInterrupted)
      ((closeConnection context).bind fun c => .pure (writeStatus opcode .ioError 255, c))
      (fun r _ => Replies opcode r.1) n :=
    fun _ => ensures_bind_any fun _ _ => ensures_pure.2 (replies_writeStatus opcode _)
  rw [handleWrite]
  split
  · exact ensures_pure.2 (replies_writeStatus opcode _)
  · split
    · exact ensures_pure.2 (replies_writeStatus opcode _)
    · refine ensures_bind.2 ((waitForSocket_ends _ _ _ hfuel).mono ?_)
      intro r n₁ hr
      obtain ⟨outcome, rfl⟩ := hr
      cases outcome with
      | timeout => exact ensures_pure.2 (replies_writeStatus opcode _)
      | failed e => exact hclose _
      | ready =>
        refine ensures_bind_any fun sent n₂ => ?_
        split
        · exact ensures_pure.2 (replies_writeStatus opcode _)
        · exact hclose _
        · exact hclose _
        · exact ensures_pure.2 (replies_ok rfl (by simp))

theorem readSocket_replies (context : SquidTcpContext) (opcode : UInt8) (socketFd : Fd)
    (waitMs : UInt16) (maximumBytes : UInt8) (hfuel : n < fuel) :
    Ensures (sparing ReceivesFit isInterrupted)
      (readSocket fuel context opcode socketFd waitMs maximumBytes 255)
      (fun r _ => Replies opcode r.1) n := by
  have hempty : ∀ flags : UInt8, Replies opcode (some (readResponse opcode flags [])) :=
    fun _ => replies_ok rfl (by simp [readResponse])
  refine ensures_bind.2 ((waitForSocket_ends _ _ _ hfuel).mono ?_)
  intro r n₁ hr
  obtain ⟨outcome, rfl⟩ := hr
  cases outcome with
  | timeout => exact ensures_pure.2 (hempty 0)
  | failed e =>
    exact ensures_bind_any fun _ _ => ensures_pure.2 (replies_writeStatus opcode _)
  | ready =>
    refine ensures_bind.2 (ensures_ask fun received n₂ hreceived => ?_)
    split
    · exact ensures_bind_any fun _ _ => ensures_pure.2 (hempty squidTcpReadEof)
    · rename_i data _
      have hfit : data.length ≤ readDataCapacity 255 maximumBytes.toNat := hreceived.1
      have hsize : readDataCapacity 255 maximumBytes.toNat ≤ 251 := by
        simp only [readDataCapacity, show 255 - squidTcpReadHeaderSize = 251 from rfl]
        split <;> split <;> omega
      refine ensures_pure.2 (replies_ok rfl ?_)
      simp only [readResponse, List.length_append, List.length_cons, List.length_nil]
      omega
    · exact ensures_pure.2 (hempty 0)
    · exact ensures_bind_any fun _ _ => ensures_pure.2 (replies_writeStatus opcode _)

theorem handleRead_replies (context : SquidTcpContext) (opcode : UInt8) (request : List UInt8)
    (hfuel : n < fuel) :
    Ensures (sparing ReceivesFit isInterrupted) (handleRead fuel context opcode request 255)
      (fun r _ => Replies opcode r.1) n := by
  rw [handleRead]
  split
  · exact ensures_pure.2 (replies_writeStatus opcode _)
  · split
    · exact ensures_pure.2 (replies_writeStatus opcode _)
    · rw [if_neg (by decide)]
      dsimp only
      split
      · exact ensures_pure.2 (replies_writeStatus opcode _)
      · exact readSocket_replies context opcode _ _ _ hfuel

theorem handleSquidTcpRequest_replies (context : SquidTcpContext) (opcode : UInt8)
    (rest : List UInt8) (hfuel : n < fuel) :
    Ensures (sparing ReceivesFit isInterrupted)
      (handleSquidTcpRequest fuel context (opcode :: rest) 255)
      (fun r _ => Replies opcode r.1) n := by
  rw [handleSquidTcpRequest, if_neg (by decide)]
  split
  · split
    · exact ensures_pure.2 (replies_writeStatus opcode _)
    · exact ensures_pure.2 (replies_ok rfl (by simp))
  · split
    · exact handleConnect_replies context opcode _ hfuel
    · split
      · exact handleWrite_replies context opcode _ hfuel
      · split
        · exact handleRead_replies context opcode _ hfuel
        · split
          · split
            · exact ensures_pure.2 (replies_writeStatus opcode _)
            · exact ensures_bind_any fun _ _ => ensures_pure.2 (replies_writeStatus opcode _)
          · split
            · split
              · exact ensures_pure.2 (replies_writeStatus opcode _)
              · exact ensures_pure.2 (replies_ok rfl (by simp))
            · exact ensures_pure.2 (replies_writeStatus opcode _)

end TcpProxy

namespace TimeService

theorem replies_writeStatus (opcode : UInt8) (status : SquidTimeStatus) :
    Replies opcode (writeStatus opcode status 255) :=
  replies_bare opcode status.code

theorem handleSquidTimeRequest_replies {H : Environment Clock σ} (opcode : UInt8)
    (rest : List UInt8) :
    Ensures H (handleSquidTimeRequest (opcode :: rest) 255) (fun r _ => Replies opcode r) s := by
  rw [handleSquidTimeRequest, if_neg (by decide)]
  split
  · split
    · exact ensures_pure.2 (replies_writeStatus opcode _)
    · exact ensures_pure.2 (replies_ok rfl (by simp))
  · split
    · dsimp only
      split
      · exact ensures_pure.2 (replies_writeStatus opcode _)
      · refine ensures_bind_any fun now s => ?_
        rw [if_neg (by decide)]
        split
        · exact ensures_pure.2 (replies_writeStatus opcode _)
        · refine ensures_bind_any fun brokenDown s => ?_
          split
          · exact ensures_pure.2 (replies_writeStatus opcode _)
          · exact ensures_pure.2
              (replies_ok rfl (by simp [getResponse, writeI16, writeU16, writeU32]))
    · exact ensures_pure.2 (replies_writeStatus opcode _)

end TimeService

/-- Every request is answered with a well-formed envelope, by each of the four services and
whatever the system calls, fetches, lookups and the clock give. The loops over a directory and
over an interrupted wait come to an end: there are only so many dot entries and signals. -/
theorem every_request_answered (opcode : UInt8) (rest : List UInt8) :
    (∀ (state : Filesystem.SquidFsPluginState) (fuel dots : Nat),
      state.Reachable → state.started = true → 251 * 65536 + dots < fuel →
      Ensures (sparing Filesystem.ReadsFit Filesystem.isDotEntry)
        (Filesystem.handleSquidFsRequest fuel state.context (opcode :: rest) 255)
        (fun r _ => Replies opcode r) dots) ∧
    (∀ context : RetroVault.RetroVaultContext,
      Ensures (obeying fun _ => True)
        (RetroVault.handleRetroVaultRequest context (opcode :: rest) 255)
        (fun r _ => Replies opcode r.1) ()) ∧
    (∀ (context : TcpProxy.SquidTcpContext) (fuel signals : Nat), signals < fuel →
      Ensures (sparing TcpProxy.ReceivesFit TcpProxy.isInterrupted)
        (TcpProxy.handleSquidTcpRequest fuel context (opcode :: rest) 255)
        (fun r _ => Replies opcode r.1) signals) ∧
    Ensures (obeying fun _ => True)
      (TimeService.handleSquidTimeRequest (opcode :: rest) 255)
      (fun r _ => Replies opcode r) () := by
  refine ⟨?_, ?_, ?_, ?_⟩
  · intro state fuel dots hreachable hstarted hfuel
    exact Filesystem.handleSquidFsRequest_replies opcode rest (hreachable.root_open hstarted) hfuel
  · intro context
    exact RetroVault.handleRetroVaultRequest_replies context opcode rest
  · intro context fuel signals hfuel
    exact TcpProxy.handleSquidTcpRequest_replies context opcode rest hfuel
  · exact TimeService.handleSquidTimeRequest_replies opcode rest

/-- STAT of the exported root, when every call fails. -/
theorem every_request_answered_stat :
    ∃ dots r, Exec (sparing Filesystem.ReadsFit Filesystem.isDotEntry) 2
      (Filesystem.handleSquidFsRequest (251 * 65536 + 3) ⟨some 3, false⟩ [0x01, 0x00] 255) dots r ∧
      Replies 0x01 r := by
  have hanswers : ∀ op : Posix.Call, ∃ r, Filesystem.ReadsFit ⟨op, r⟩ ∧
      Filesystem.isDotEntry ⟨op, r⟩ = false := by
    intro op
    cases op with
    | close fd => exact ⟨(), trivial, rfl⟩
    | closedir fd => exact ⟨(), trivial, rfl⟩
    | _ => exact ⟨.error .eio, trivial, rfl⟩
  obtain ⟨dots, r, he⟩ := exists_exec (sparing_answers hanswers)
    (Filesystem.handleSquidFsRequest (251 * 65536 + 3) ⟨some 3, false⟩ [0x01, 0x00] 255) 2
  refine ⟨dots, r, he, ?_⟩
  exact (every_request_answered 0x01 [0x00]).1
    (Filesystem.startSquidFsPlugin ⟨⟨some 0, false⟩, false⟩ (some (.ok 3)) false) _ _
    (.start _ _ .initial) rfl (by decide) _ _ he

end SquidServer

import SquidServer.ClientCalls
import SquidServer.FilesystemTraversal
import SquidServer.FilesystemRequests

namespace SquidServer.Filesystem
open Interaction Posix Wire
open Client (Answers BareReply)
set_option autoImplicit true

/-- No read gives more than was asked for, and no write takes more than it was given. -/
def TransfersFit (e : Event Syscalls) : Prop :=
  match e with
  | ⟨.pread _ size _, .ok data⟩ => data.length ≤ size
  | ⟨.pwrite _ data _, .ok written⟩ => written ≤ data.length
  | _ => True

theorem SquidFsStatus.code_ne_zero {status : SquidFsStatus} (h : status ≠ .ok) :
    status.code ≠ 0 := by
  cases status <;> first | exact absurd rfl h | decide

section
variable {ok : List UInt8 → Prop}

theorem answers_status (opcode : UInt8) (h : status ≠ .ok) :
    Answers opcode ok (writeResponse opcode status 255) := by
  intro reply hreply
  cases hreply
  exact .inl ⟨status.code, status.code_ne_zero h, rfl⟩

theorem answers_errno (opcode : UInt8) (e : Errno) :
    Answers opcode ok (writeResponse opcode (statusFromErrno e) 255) :=
  answers_status opcode (statusFromErrno_ne_ok e)

theorem answers_ok (h : ok reply) (opcode : UInt8) : Answers opcode ok (some reply) := by
  intro reply' hreply
  cases hreply
  exact .inr h

end

theorem handleStat_answers (context : SquidFsContext) (opcode : UInt8) (request : List UInt8) :
    Ensures (obeying TransfersFit) (handleStat context opcode request 255)
      (fun r _ => Answers opcode
        (fun reply => ∃ information, reply = statResponse opcode information) r) s := by
  have hanswer : ∀ result, Answers opcode
      (fun reply => ∃ information, reply = statResponse opcode information)
      (answerStat opcode result 255) := by
    intro result
    cases result with
    | error e => exact answers_errno opcode e
    | ok information => exact answers_ok ⟨information, rfl⟩ opcode
  rw [handleStat]
  split
  · exact ensures_pure.2 (answers_status opcode (by decide))
  · split
    · split
      · exact ensures_pure.2 (hanswer _)
      · exact ensures_bind_any fun result _ => ensures_pure.2 (hanswer result)
    · refine ensures_bind_any fun opened _ => ?_
      cases opened with
      | error e => exact ensures_pure.2 (hanswer _)
      | ok opened =>
        refine ensures_bind_any fun result _ => ?_
        exact ensures_bind_any fun _ _ => ensures_pure.2 (hanswer result)

/-- The loop of `handle_list` ends with a page of whole records, or with no OK. -/
def LoopCarries (result : Option (Except SquidFsStatus (UInt16 × ListPage))) : Prop :=
  match result with
  | none => True
  | some (.error status) => status ≠ .ok
  | some (.ok (_, page)) => ∃ records, Carries records page

/-- A turn of the loop leaves a page of whole records, or ends so. -/
def TurnCarries (turn : ListPage ⊕ Except SquidFsStatus (UInt16 × ListPage)) : Prop :=
  match turn with
  | .inl page => ∃ records, Carries records page
  | .inr result => LoopCarries (some result)

theorem listEntry_carries (directory : Fd) (cursor : UInt16) (h : Carries records page) :
    Ensures (obeying TransfersFit) (listEntry directory cursor 255 page)
      (fun x _ => TurnCarries x) s := by
  refine ensures_bind_any fun entry _ => ?_
  match entry with
  | .error e => exact ensures_pure.2 (statusFromErrno_ne_ok e)
  | .ok none => exact ensures_pure.2 ⟨records, h⟩
  | .ok (some name) =>
    dsimp only
    split
    · exact ensures_pure.2 ⟨records, h⟩
    · split
      · exact ensures_pure.2 ⟨records, h.skip⟩
      · split
        · exact ensures_pure.2 (by simp [TurnCarries, LoopCarries])
        · rename_i hname
          refine ensures_bind_any fun information _ => ?_
          cases information with
          | error e => exact ensures_pure.2 (statusFromErrno_ne_ok e)
          | ok information =>
            dsimp only
            split
            · split
              · exact ensures_pure.2 (by simp [TurnCarries, LoopCarries])
              · exact ensures_pure.2 ⟨records, h⟩
            · rename_i hroom
              have hheader : squidFsPageHeaderSize = 5 := rfl
              have hlength := (entryRecord name information).length_bytes
              have hsame : (entryRecord name information).name = name := rfl
              rw [hsame] at hlength
              have hbound := h.room
              have hshort : (entryRecord name information).name.length ≤ 243 := by
                rw [hsame]
                omega
              rw [listRecord_eq]
              exact ensures_pure.2 ⟨_, h.push hshort (by omega)⟩

/-- The end of `handle_list`: a page of whole records. -/
def ListReply (opcode : UInt8) (reply : List UInt8) : Prop :=
  ∃ nextCursor page records, reply = listResponse opcode nextCursor page ∧ Carries records page

theorem handleList_answers (fuel : Nat) (context : SquidFsContext) (opcode : UInt8)
    (request : List UInt8) :
    Ensures (obeying TransfersFit) (handleList fuel context opcode request 255)
      (fun r _ => Answers opcode (ListReply opcode) r) s := by
  have hbad : Answers opcode (ListReply opcode) (writeResponse opcode .badRequest 255) :=
    answers_status opcode (by decide)
  rw [handleList]
  split
  · exact ensures_pure.2 hbad
  · dsimp only
    split
    · exact ensures_pure.2 hbad
    · refine ensures_bind_any fun opened _ => ?_
      cases opened with
      | error e => exact ensures_pure.2 (answers_errno opcode e)
      | ok directoryFd =>
        refine ensures_bind_any fun stream _ => ?_
        cases stream with
        | error e => exact ensures_bind_any fun _ _ => ensures_pure.2 (answers_errno opcode e)
        | ok _ =>
          have hstart : Carries [] ⟨0, 0, []⟩ := ⟨rfl, rfl, by simp, by simp⟩
          have hloop : Ensures (obeying TransfersFit)
              (Program.loop (listEntry directoryFd (readU16 request 1) 255) fuel ⟨0, 0, []⟩)
              (fun x _ => LoopCarries x) () := by
            refine ensures_loop (fun _ page _ => ∃ records, Carries records page) ?_ ?_ ⟨[], hstart⟩
            · intro page _ _
              trivial
            · rintro _ page _ ⟨records, hpage⟩
              refine (listEntry_carries directoryFd _ hpage).mono ?_
              intro x _ hx
              cases x with
              | inl page' => exact hx
              | inr result => exact hx
          refine ensures_bind.2 (hloop.mono ?_)
          intro x _ hx
          cases x with
          | none =>
            refine ensures_pure.2 ?_
            intro reply hreply
            cases hreply
          | some result =>
            cases result with
            | error status =>
              exact ensures_bind_any fun _ _ => ensures_pure.2 (answers_status opcode hx)
            | ok done =>
              obtain ⟨records, hpage⟩ := hx
              exact ensures_bind_any fun _ _ =>
                ensures_pure.2 (answers_ok ⟨done.1, done.2, records, rfl, hpage⟩ opcode)

/-- The end of `handle_read`: no more data than there is room for. -/
def ReadReply (opcode : UInt8) (offset : UInt32) (reply : List UInt8) : Prop :=
  ∃ stSize data, reply = readResponse opcode offset stSize data ∧ data.length ≤ 244

theorem readFile_answers (fileFd : Fd) (opcode : UInt8) (offset : UInt32) (maximumBytes : UInt8) :
    Ensures (obeying TransfersFit) (readFile fileFd opcode offset maximumBytes 255)
      (fun r _ => Answers opcode (ReadReply opcode offset) (answer opcode r 255)) s := by
  refine ensures_bind_any fun information _ => ?_
  cases information with
  | error e => exact ensures_pure.2 (answers_errno opcode e)
  | ok information =>
    dsimp only
    split
    · exact ensures_pure.2 (answers_status opcode (by decide))
    · split
      · exact ensures_pure.2 (answers_status opcode (by decide))
      · split
        · exact ensures_pure.2 (answers_status opcode (by decide))
        · split
          · exact ensures_pure.2 (answers_status opcode (by decide))
          · refine ensures_bind.2 (ensures_ask fun data _ hdata => ?_)
            cases data with
            | error e => exact ensures_pure.2 (answers_errno opcode e)
            | ok data =>
              have hfit : data.length ≤ readDataSize 255 maximumBytes.toNat
                information.stSize.toNat offset.toNat := hdata
              have hsize : readDataSize 255 maximumBytes.toNat information.stSize.toNat
                  offset.toNat ≤ 244 := by
                simp only [readDataSize, show 255 - squidFsReadHeaderSize = 244 from rfl]
                repeat' split
                all_goals omega
              exact ensures_pure.2 (answers_ok ⟨_, data, rfl, hfit.trans hsize⟩ opcode)

theorem handleRead_answers (context : SquidFsContext) (opcode : UInt8) (request : List UInt8) :
    Ensures (obeying TransfersFit) (handleRead context opcode request 255)
      (fun r _ => Answers opcode (ReadReply opcode (readU32 request 1)) r) s := by
  rw [handleRead]
  split
  · exact ensures_pure.2 (answers_status opcode (by decide))
  · rw [if_neg (by decide)]
    dsimp only
    refine ensures_bind_any fun opened _ => ?_
    cases opened with
    | error e => exact ensures_pure.2 (answers_errno opcode e)
    | ok opened =>
      refine ensures_bind_any fun file _ => ?_
      refine ensures_bind_any fun _ _ => ?_
      cases file with
      | error e => exact ensures_pure.2 (answers_errno opcode e)
      | ok fileFd =>
        refine ensures_bind.2 ((readFile_answers fileFd opcode _ _).mono ?_)
        intro result _ hresult
        exact ensures_bind_any fun _ _ => ensures_pure.2 hresult

/-- The end of `handle_write`: no more bytes than the request has. -/
def WriteReply (opcode : UInt8) (fields : WriteRequest) (reply : List UInt8) : Prop :=
  ∃ written, reply = writeOkResponse opcode fields.offset written ∧ written ≤ fields.data.length

theorem writeFile_fits (fileFd : Fd) (data : List UInt8) (offset : UInt32) :
    Ensures (obeying TransfersFit) (writeFile fileFd data offset) (fun r _ => match r with
      | .error status => status ≠ .ok
      | .ok written => written ≤ data.length) s := by
  refine ensures_bind_any fun information _ => ?_
  cases information with
  | error e => exact ensures_pure.2 (statusFromErrno_ne_ok e)
  | ok information =>
    dsimp only
    split
    · exact ensures_pure.2 (by simp)
    · refine ensures_bind.2 (ensures_ask fun written _ hwritten => ?_)
      cases written with
      | error e => exact ensures_pure.2 (statusFromErrno_ne_ok e)
      | ok written => exact ensures_pure.2 hwritten

theorem handleWrite_answers (context : SquidFsContext) (opcode : UInt8) (request : List UInt8) :
    Ensures (obeying TransfersFit) (handleWrite context opcode request 255)
      (fun r _ => Answers opcode (fun reply => ∃ fields, parseWrite request = some fields ∧
        WriteReply opcode fields reply) r) s := by
  rw [handleWrite]
  split
  · exact ensures_pure.2 (answers_status opcode (by decide))
  · split
    · exact ensures_pure.2 (answers_status opcode (by decide))
    · rename_i fields hparse
      refine ensures_bind_any fun opened _ => ?_
      cases opened with
      | error e => exact ensures_pure.2 (answers_errno opcode e)
      | ok opened =>
        refine ensures_bind_any fun file _ => ?_
        refine ensures_bind_any fun _ _ => ?_
        cases file with
        | error e => exact ensures_pure.2 (answers_errno opcode e)
        | ok fileFd =>
          refine ensures_bind.2 ((writeFile_fits fileFd _ _).mono ?_)
          intro result _ hresult
          refine ensures_bind_any fun _ _ => ?_
          cases result with
          | error status => exact ensures_pure.2 (answers_status opcode hresult)
          | ok written =>
            dsimp only
            rw [if_neg (by decide)]
            exact ensures_pure.2 (answers_ok ⟨fields, hparse, written, rfl, hresult⟩ opcode)

theorem answers_statusOf (opcode : UInt8) (result : Except Errno Unit) :
    Answers opcode (BareReply opcode) (writeResponse opcode (statusOf result) 255) := by
  cases result with
  | error e => exact answers_errno opcode e
  | ok _ =>
    have hbare : BareReply opcode [opcode ||| 0x80, 0] := rfl
    exact answers_ok hbare opcode

theorem handleMkdirOrDelete_answers (context : SquidFsContext) (opcode : UInt8)
    (request : List UInt8) :
    Ensures (obeying TransfersFit) (handleMkdirOrDelete context opcode request 255)
      (fun r _ => Answers opcode (BareReply opcode) r) s := by
  rw [handleMkdirOrDelete]
  split
  · exact ensures_pure.2 (answers_status opcode (by decide))
  · split
    · exact ensures_pure.2 (answers_status opcode (by decide))
    · refine ensures_bind_any fun opened _ => ?_
      cases opened with
      | error e => exact ensures_pure.2 (answers_errno opcode e)
      | ok opened =>
        refine ensures_bind_any fun result _ => ?_
        exact ensures_bind_any fun _ _ => ensures_pure.2 (answers_statusOf opcode result)

theorem handleRename_answers (context : SquidFsContext) (opcode : UInt8) (request : List UInt8) :
    Ensures (obeying TransfersFit) (handleRename context opcode request 255)
      (fun r _ => Answers opcode (BareReply opcode) r) s := by
  rw [handleRename]
  split
  · exact ensures_pure.2 (answers_status opcode (by decide))
  · split
    · exact ensures_pure.2 (answers_status opcode (by decide))
    · refine ensures_bind_any fun opened _ => ?_
      cases opened with
      | error e => exact ensures_pure.2 (answers_errno opcode e)
      | ok opened =>
        refine ensures_bind_any fun opened' _ => ?_
        cases opened' with
        | error e => exact ensures_bind_any fun _ _ => ensures_pure.2 (answers_errno opcode e)
        | ok opened' =>
          refine ensures_bind_any fun result _ => ?_
          refine ensures_bind_any fun _ _ => ?_
          exact ensures_bind_any fun _ _ => ensures_pure.2 (answers_statusOf opcode result)

/-- The replies that the server may give to a request, with a response buffer of 255 bytes. -/
def Serves (fuel : Nat) (context : SquidFsContext) (request reply : List UInt8) : Prop :=
  Exec (obeying TransfersFit) () (handleSquidFsRequest fuel context request 255) () (some reply)

section
variable {ok : List UInt8 → Prop} {context : SquidFsContext}

theorem Serves.answer (h : Serves fuel context (opcode :: arguments) reply)
    (handle : List UInt8 → Program Syscalls Response)
    (hdispatch : context.rootFd ≠ none →
      handleSquidFsRequest fuel context (opcode :: arguments) 255 = handle (opcode :: arguments))
    (hanswers : Ensures (obeying TransfersFit) (handle (opcode :: arguments))
      (fun r _ => Answers opcode ok r) ()) :
    (∃ status : UInt8, status ≠ 0 ∧ reply = [opcode ||| 0x80, status]) ∨ ok reply := by
  have hroot : context.rootFd ≠ none := by
    intro hroot
    rw [Serves, handleSquidFsRequest, if_pos (.inl hroot)] at h
    cases (exec_pure.1 h).2
  rw [Serves, hdispatch hroot] at h
  exact hanswers _ _ h reply rfl

end

/-- Texts of the sizes that the client lets through. -/
def Operation.Sized : Operation → Prop
  | .stat path => path.length ≤ 240
  | .list _ path => path.length ≤ 240
  | .read _ _ path => path.length ≤ 240
  | .write _ _ path data => path.length ≤ 240 ∧ data.length < 256
  | .mkdir path => path.length ≤ 240
  | .delete path => path.length ≤ 240
  | .rename oldPath newPath => 0 < oldPath.length ∧ oldPath.length ≤ 240 ∧ newPath.length ≤ 240

theorem pathIsValid_eq_none (h : ¬ (path = [] ∧ allowEmpty = true ∨ ValidPath path)) :
    pathIsValid path allowEmpty = none := by
  rw [Option.eq_none_iff_forall_ne_some]
  intro path' hpath'
  obtain ⟨rfl, hvalid⟩ := pathIsValid_spec hpath'
  exact h hvalid

theorem pathIsValid_refused (h : ¬ ValidPath path) : pathIsValid path false = none :=
  pathIsValid_eq_none fun hvalid => h (pathIsValid_false hvalid)

theorem readPathRequest_refused (start : List UInt8) (hsize : path.length ≤ 240)
    (h : ¬ (path = [] ∧ allowEmpty = true ∨ ValidPath path)) :
    readPathRequest (start ++ countedText path) start.length allowEmpty = none :=
  (readPathRequest_counted start hsize allowEmpty).trans (pathIsValid_eq_none h)

/-- What the server's parser makes of a request: the operation that was asked for, or nothing where
one of its guards does not let the arguments pass. -/
structure Recovers (operation : Operation) (request : List UInt8) : Prop where
  admitted : operation.Valid → parseOperation request = some operation
  refused : ¬ operation.Valid → parseOperation request = none

theorem Operation.Sized.recovers {operation : Operation} (h : operation.Sized) :
    Recovers operation operation.encode := by
  refine ⟨fun hvalid => hvalid.parses.eq_some, ?_⟩
  intro hinvalid
  cases operation with
  | stat path =>
    have hpath := readPathRequest_refused [squidFsOpStat] h
      fun hvalid => hinvalid (pathIsValid_true hvalid)
    exact congrArg (Option.map Operation.stat) hpath
  | list cursor path =>
    have hread : readU16 (squidFsOpList :: (writeU16 cursor ++ countedText path)) 1 = cursor :=
      readU16_writeU16 [squidFsOpList] cursor (countedText path)
    change ite (_ ∨ _) none (Option.map _ _) = none
    split
    · rfl
    · rename_i hguard
      have hpath := readPathRequest_refused ([squidFsOpList] ++ writeU16 cursor) h fun hvalid =>
        hinvalid ⟨pathIsValid_true hvalid, fun hcursor => hguard (.inr (hread.trans hcursor))⟩
      exact congrArg (Option.map _) hpath
  | read offset maximumBytes path =>
    have hpath := readPathRequest_refused ([squidFsOpRead] ++ writeU32 offset ++ [maximumBytes]) h
      fun hvalid => hinvalid (pathIsValid_false hvalid)
    change (if (squidFsOpRead :: (writeU32 offset ++ [maximumBytes] ++ countedText path)).length < 7
      then none else Option.map _ _) = none
    split
    · rfl
    · exact congrArg (Option.map _) hpath
  | write offset flags path data =>
    have hparse := parseWrite_request offset flags h.1
      (UInt8.toNat_ofNat_of_lt' h.2).symm
    change (parseWrite (squidFsOpWrite :: (writeU32 offset ++ [flags] ++ countedText path ++
      UInt8.ofNat data.length :: data))).map _ = none
    rw [hparse]
    split
    · rename_i hflags
      rw [pathIsValid_refused fun hvalid => hinvalid ⟨hvalid, hflags, h.2⟩]
      rfl
    · rfl
  | mkdir path =>
    have hpath := readPathRequest_refused [squidFsOpMkdir] h
      fun hvalid => hinvalid (pathIsValid_false hvalid)
    exact congrArg (Option.map Operation.mkdir) hpath
  | delete path =>
    have hpath := readPathRequest_refused [squidFsOpDelete] h
      fun hvalid => hinvalid (pathIsValid_false hvalid)
    exact congrArg (Option.map Operation.delete) hpath
  | rename oldPath newPath =>
    have hparse := parseRename_request h.2.1 h.2.2 h.1
    change (parseRename (squidFsOpRename :: (countedText oldPath ++ countedText newPath))).map _ =
      none
    rw [hparse]
    by_cases hold : ValidPath oldPath
    · rw [pathIsValid_refused fun hnew => hinvalid ⟨hold, hnew⟩]
      cases pathIsValid oldPath false <;> rfl
    · rw [pathIsValid_refused hold]
      rfl

end SquidServer.Filesystem

namespace SquidServer.Client
open Interaction Framing Wire CText Filesystem
set_option autoImplicit true

def filesystemPathSize (path : Option CString) (allowEmpty : Bool) : Int :=
  let size := squidClientTextSize path squidFsPathMax
  if size < 0 ∨ ¬ allowEmpty ∧ size = 0 then squidClientErrorArgument else size

/-- `filesystem_path_call`, for a caller whose output pointer is `wanted`, and what it does with the
response. -/
def filesystemPathCall (fuel : Nat) (client : Option SquidClient) (opcode : UInt8)
    (path : Option CString) (allowEmpty wanted : Bool) (minimumResponseSize : Nat)
    (read : List UInt8 → Option α) : Program ClientLib (Option (Returned α)) :=
  transact fuel client (wanted ∧ 0 ≤ filesystemPathSize path allowEmpty) opcode
    (countedText (textBytes path)) minimumResponseSize read

structure SquidClientFsStat where
  type : UInt8
  mode : UInt16
  size : UInt32
  modificationTime : UInt32
deriving DecidableEq

/-- `squid_client_fs_stat`; `value` says whether the pointer for the result is not NULL. -/
def squidClientFsStat (fuel : Nat) (client : Option SquidClient) (path : Option CString)
    (value : Bool) : Program ClientLib (Option (Returned SquidClientFsStat)) :=
  filesystemPathCall fuel client squidFsOpStat path true value 13 fun response =>
    if response.length ≠ 13 then none
    else some {
      type := byteAt response 2
      mode := squidClientReadU16 response 3
      size := squidClientReadU32 response 5
      modificationTime := squidClientReadU32 response 9 }

/-- `struct squid_client_fs_list`; `next` holds the bytes between its two pointers. -/
structure SquidClientFsList where
  nextCursor : UInt16
  entriesLeft : UInt8
  next : List UInt8
deriving DecidableEq

def squidClientFsList (fuel : Nat) (client : Option SquidClient) (path : Option CString)
    (cursor : UInt16) (page : Bool) : Program ClientLib (Option (Returned SquidClientFsList)) :=
  transact fuel client (page ∧ 0 ≤ filesystemPathSize path true) squidFsOpList
    (squidClientWriteU16 cursor ++ countedText (textBytes path)) 5 fun response =>
    some {
      nextCursor := squidClientReadU16 response 2
      entriesLeft := byteAt response 4
      next := response.drop 5 }

/-- `squid_client_fs_list_next`: its result, the entry it stores and the page it leaves. An entry is
a record of the page. -/
def squidClientFsListNext (page : SquidClientFsList) :
    Int × Option ListRecord × SquidClientFsList :=
  if page.entriesLeft = 0 then
    (if page.next = [] then 0 else squidClientErrorProtocol, none, page)
  else
    let current := page.next
    if current.length < 6 then (squidClientErrorProtocol, none, page)
    else
      let nameSize := (byteAt current 1).toNat
      if current.length < 6 + nameSize then (squidClientErrorProtocol, none, page)
      else (1,
        some {
          type := byteAt current 0
          name := (current.drop 2).take nameSize
          size := squidClientReadU32 current (2 + nameSize) },
        { page with
          next := current.drop (6 + nameSize)
          entriesLeft := page.entriesLeft - 1 })

structure SquidClientFsRead where
  offset : UInt32
  totalSize : UInt32
  data : List UInt8
deriving DecidableEq

def squidClientFsRead (fuel : Nat) (client : Option SquidClient) (path : Option CString)
    (offset : UInt32) (maximumBytes : UInt8) (chunk : Bool) :
    Program ClientLib (Option (Returned SquidClientFsRead)) :=
  transact fuel client (chunk ∧ 0 ≤ filesystemPathSize path false) squidFsOpRead
    (squidClientWriteU32 offset ++ [maximumBytes] ++ countedText (textBytes path)) 11
    fun response =>
    let dataSize := (byteAt response 10).toNat
    if response.length ≠ 11 + dataSize then none
    else some {
      offset := squidClientReadU32 response 2
      totalSize := squidClientReadU32 response 6
      data := (response.drop 11).take dataSize }

def squidClientFsWrite (fuel : Nat) (client : Option SquidClient) (path : Option CString)
    (offset : UInt32) (flags : UInt8) (data : Buffer) (written : Bool) :
    Program ClientLib (Option (Returned UInt8)) :=
  transact fuel client
    (written ∧ 0 ≤ filesystemPathSize path false ∧ ¬ (0 < data.size ∧ data.data = none))
    squidFsOpWrite
    (squidClientWriteU32 offset ++ [flags] ++ countedText (textBytes path) ++
      data.size :: data.copied) 7 fun response =>
    if response.length ≠ 7 ∨ data.size < byteAt response 6 ∨
        squidClientReadU32 response 2 ≠ offset then none
    else some (byteAt response 6)

def squidClientFsMkdir (fuel : Nat) (client : Option SquidClient) (path : Option CString) :
    Program ClientLib (Option (Returned Unit)) :=
  filesystemPathCall fuel client squidFsOpMkdir path false true 2 readBare

def squidClientFsDelete (fuel : Nat) (client : Option SquidClient) (path : Option CString) :
    Program ClientLib (Option (Returned Unit)) :=
  filesystemPathCall fuel client squidFsOpDelete path false true 2 readBare

def squidClientFsRename (fuel : Nat) (client : Option SquidClient)
    (oldPath newPath : Option CString) : Program ClientLib (Option (Returned Unit)) :=
  transact fuel client (0 ≤ filesystemPathSize oldPath false ∧ 0 ≤ filesystemPathSize newPath false)
    squidFsOpRename (countedText (textBytes oldPath) ++ countedText (textBytes newPath)) 2 readBare

theorem filesystemPathSize_le (h : 0 ≤ filesystemPathSize path allowEmpty) :
    (textBytes path).length ≤ 240 := by
  by_contra hlong
  have hsize : squidClientTextSize path squidFsPathMax = squidClientErrorArgument :=
    if_pos (Nat.not_le.1 hlong)
  rw [filesystemPathSize, hsize, if_pos (.inl (by decide))] at h
  exact absurd h (by decide)

def EncodesStat (value : SquidClientFsStat) (reply : List UInt8) : Prop :=
  ∃ information, reply = statResponse squidFsOpStat information ∧
    value.type = fileTypeFromMode information.stMode ∧
    value.mode = UInt16.ofNat (information.stMode &&& 0o777) ∧
    value.size = fileSizeFromStat information ∧
    value.modificationTime = if information.stMtime < 0 ∨ uint32Max < information.stMtime then 0
      else UInt32.ofNat information.stMtime.toNat

def EncodesList (page : SquidClientFsList) (reply : List UInt8) : Prop :=
  ∃ nextCursor listPage records, reply = listResponse squidFsOpList nextCursor listPage ∧
    Carries records listPage ∧ page.nextCursor = nextCursor ∧
    Yields squidClientFsListNext page records

def EncodesRead (offset : UInt32) (chunk : SquidClientFsRead) (reply : List UInt8) : Prop :=
  ∃ stSize data, reply = readResponse squidFsOpRead offset stSize data ∧
    chunk = ⟨offset, UInt32.ofNat stSize, data⟩

def EncodesWrite (offset : UInt32) (written : UInt8) (reply : List UInt8) : Prop :=
  ∃ bytesWritten, reply = writeOkResponse squidFsOpWrite offset bytesWritten ∧
    written.toNat = bytesWritten

theorem squidClientFsListNext_record (nextCursor : UInt16) (hleft : left ≠ 0)
    (hname : record.name.length < 256) (rest : List UInt8) :
    squidClientFsListNext ⟨nextCursor, left, record.bytes ++ rest⟩ =
      (1, some record, ⟨nextCursor, left - 1, rest⟩) := by
  have hlength := record.length_bytes
  have hcount : (byteAt (record.bytes ++ rest) 1).toNat = record.name.length :=
    ofNat_toNat_of_le (by omega)
  have hdrop : (record.bytes ++ rest).drop (6 + record.name.length) = rest := by
    rw [← hlength, List.drop_left]
  have htake : ((record.bytes ++ rest).drop 2).take record.name.length = record.name := by
    simp [ListRecord.bytes, countedText]
  have hsize : squidClientReadU32 (record.bytes ++ rest) (2 + record.name.length) =
      record.size := by
    have hread := readU32_writeU32 (record.type :: countedText record.name) record.size rest
    rwa [show (record.type :: countedText record.name).length = 2 + record.name.length by
      simp [countedText]; omega] at hread
  simp only [squidClientFsListNext, if_neg hleft, hcount, List.length_append, hlength]
  rw [if_neg (by omega), if_neg (by omega), htake, hsize, hdrop]
  rfl

theorem yields_records (nextCursor : UInt16) {page : ListPage} (hcarries : Carries records page) :
    Yields squidClientFsListNext ⟨nextCursor, page.entryCount, page.records⟩ records := by
  rw [hcarries.bytes]
  refine yields_items (fun left bytes => (⟨nextCursor, left, bytes⟩ : SquidClientFsList)) rfl ?_
    records hcarries.names hcarries.count
  intro left record rest hleft hname
  exact squidClientFsListNext_record nextCursor hleft (Nat.lt_of_le_of_lt hname (by decide)) rest

section
variable {context : SquidFsContext} {serverFuel : Nat} {s : Line}

theorem squidClientFsStat_agrees (client : Option SquidClient) (path : Option CString)
    (value : Bool) (hunread : s.unread = []) (hfuel : 256 + s.stalls < fuel) :
    Ensures (verbatim (Serves serverFuel context) epoch) (squidClientFsStat fuel client path value)
      (Agrees (Serves serverFuel context) client s squidFsOpStat
        (Recovers (.stat (textBytes path)))
        EncodesStat) s := by
  refine transact_agrees client hunread hfuel ?_ ?_
  · intro haccepted _
    rw [decide_eq_true_iff] at haccepted
    have hsized : (Operation.stat (textBytes path)).Sized := filesystemPathSize_le haccepted.2
    exact hsized.recovers
  · intro _ reply hreply
    refine (hreply.answer (handleStat context squidFsOpStat · 255) ?_
      (handleStat_answers context squidFsOpStat _)).imp id ?_
    · intro hroot
      simp +decide [handleSquidFsRequest, hroot]
    · rintro ⟨information, rfl⟩
      refine ⟨rfl, Nat.le_refl 13, by simp [statResponse, writeU16, writeU32], _, if_neg (by
        simp [statResponse, writeU16, writeU32]), information, rfl, rfl, ?_, ?_, ?_⟩
      · exact readU16_writeU16 [_, _, _] _ _
      · exact readU32_writeU32 ([_, _, _] ++ writeU16 _) _ _
      · have hlast := readU32_writeU32
          ([squidFsOpStat ||| squidFsResponseBit, SquidFsStatus.ok.code,
            fileTypeFromMode information.stMode] ++
            writeU16 (UInt16.ofNat (information.stMode &&& 0o777)) ++
            writeU32 (fileSizeFromStat information))
          (if information.stMtime < 0 ∨ uint32Max < information.stMtime then 0
            else UInt32.ofNat information.stMtime.toNat) []
        rw [List.append_nil] at hlast
        exact hlast

theorem squidClientFsList_agrees (client : Option SquidClient) (path : Option CString)
    (cursor : UInt16) (page : Bool) (hunread : s.unread = []) (hfuel : 256 + s.stalls < fuel) :
    Ensures (verbatim (Serves serverFuel context) epoch)
      (squidClientFsList fuel client path cursor page)
      (Agrees (Serves serverFuel context) client s squidFsOpList
        (Recovers (.list cursor (textBytes path)))
        EncodesList) s := by
  refine transact_agrees client hunread hfuel ?_ ?_
  · intro haccepted _
    rw [decide_eq_true_iff] at haccepted
    have hsized : (Operation.list cursor (textBytes path)).Sized :=
      filesystemPathSize_le haccepted.2
    exact hsized.recovers
  · intro _ reply hreply
    refine (hreply.answer (handleList serverFuel context squidFsOpList · 255) ?_
      (handleList_answers serverFuel context squidFsOpList _)).imp id ?_
    · intro hroot
      simp +decide [handleSquidFsRequest, hroot]
    · rintro ⟨nextCursor, listPage, records, rfl, hcarries⟩
      have hlength : (listResponse squidFsOpList nextCursor listPage).length =
          5 + listPage.records.length := by
        simp only [listResponse, writeU16, List.length_append, List.length_cons, List.length_nil]
      have hcursor : squidClientReadU16 (listResponse squidFsOpList nextCursor listPage) 2 =
          nextCursor := by
        rw [listResponse, List.append_assoc]
        exact readU16_writeU16 [_, _] nextCursor _
      have hroom := hcarries.room
      refine ⟨rfl, by omega, by omega, _, rfl, nextCursor, listPage, records, rfl, hcarries,
        hcursor, ?_⟩
      rw [hcursor]
      exact yields_records nextCursor hcarries

theorem squidClientFsRead_agrees (client : Option SquidClient) (path : Option CString)
    (offset : UInt32) (maximumBytes : UInt8) (chunk : Bool) (hunread : s.unread = [])
    (hfuel : 256 + s.stalls < fuel) :
    Ensures (verbatim (Serves serverFuel context) epoch)
      (squidClientFsRead fuel client path offset maximumBytes chunk)
      (Agrees (Serves serverFuel context) client s squidFsOpRead
        (Recovers (.read offset maximumBytes (textBytes path)))
        (EncodesRead offset)) s := by
  refine transact_agrees client hunread hfuel ?_ ?_
  · intro haccepted _
    rw [decide_eq_true_iff] at haccepted
    have hsized : (Operation.read offset maximumBytes (textBytes path)).Sized :=
      filesystemPathSize_le haccepted.2
    exact hsized.recovers
  · intro _ reply hreply
    refine (hreply.answer (handleRead context squidFsOpRead · 255) ?_
      (handleRead_answers context squidFsOpRead _)).imp id ?_
    · intro hroot
      simp +decide [handleSquidFsRequest, hroot]
    · rintro ⟨stSize, data, hreply', hdata⟩
      have hoffset : readU32 (squidFsOpRead :: (squidClientWriteU32 offset ++ [maximumBytes] ++
          countedText (textBytes path))) 1 = offset := readU32_writeU32 [squidFsOpRead] offset _
      rw [hoffset] at hreply'
      have hlength : reply.length = 11 + data.length := by
        rw [hreply']
        simp only [readResponse, writeU32, List.length_append, List.length_cons, List.length_nil]
      have hcount : (byteAt reply 10).toNat = data.length := by
        rw [hreply']
        exact ofNat_toNat_of_le (by omega)
      have hfirst : squidClientReadU32 reply 2 = offset := by
        rw [hreply', readResponse, List.append_assoc, List.append_assoc]
        exact readU32_writeU32 [_, _] offset _
      have hsecond : squidClientReadU32 reply 6 = UInt32.ofNat stSize := by
        rw [hreply', readResponse, List.append_assoc]
        exact readU32_writeU32 ([_, _] ++ writeU32 offset) _ _
      have hrest : (reply.drop 11).take data.length = data := by
        rw [hreply']
        exact List.take_length
      refine ⟨by rw [hreply']; rfl, by omega, by omega, ⟨offset, UInt32.ofNat stSize, data⟩, ?_,
        stSize, data, hreply', rfl⟩
      rw [hcount, if_neg (by omega), hfirst, hsecond, hrest]

theorem squidClientFsWrite_agrees (client : Option SquidClient) (path : Option CString)
    (offset : UInt32) (flags : UInt8) (data : Buffer) (written : Bool) (hunread : s.unread = [])
    (hfuel : 256 + s.stalls < fuel) :
    Ensures (verbatim (Serves serverFuel context) epoch)
      (squidClientFsWrite fuel client path offset flags data written)
      (Agrees (Serves serverFuel context) client s squidFsOpWrite
        (fun request => data.copied.length = data.size.toNat ∧
          Recovers (.write offset flags (textBytes path) data.copied) request)
        (EncodesWrite offset)) s := by
  have hlength : (written = true ∧ 0 ≤ filesystemPathSize path false ∧
      ¬ (0 < data.size ∧ data.data = none)) → data.copied.length = data.size.toNat := by
    rintro ⟨-, -, hdata⟩
    refine data.length_copied ?_
    intro hnone
    by_contra hsize
    exact hdata ⟨UInt8.pos_iff_ne_zero.2 hsize, hnone⟩
  have hparse : (written = true ∧ 0 ≤ filesystemPathSize path false ∧
      ¬ (0 < data.size ∧ data.data = none)) → _ := fun haccepted =>
    parseWrite_request offset flags (filesystemPathSize_le haccepted.2.1) (hlength haccepted)
  refine transact_agrees client hunread hfuel ?_ ?_
  · intro haccepted _
    rw [decide_eq_true_iff] at haccepted
    refine ⟨hlength haccepted, ?_⟩
    have hsized : (Operation.write offset flags (textBytes path) data.copied).Sized :=
      ⟨filesystemPathSize_le haccepted.2.1, by
        rw [hlength haccepted]
        exact data.size.toNat_lt⟩
    have hcount : data.size = UInt8.ofNat data.copied.length := by
      rw [hlength haccepted, UInt8.ofNat_toNat]
    rw [hcount]
    exact hsized.recovers
  · intro haccepted reply hreply
    rw [decide_eq_true_iff] at haccepted
    refine (hreply.answer (handleWrite context squidFsOpWrite · 255) ?_
      (handleWrite_answers context squidFsOpWrite _)).imp id ?_
    · intro hroot
      simp +decide [handleSquidFsRequest, hroot]
    · rintro ⟨fields, hfields, bytesWritten, hreply', hfits⟩
      obtain ⟨hoffset, hdata⟩ : fields.offset = offset ∧ fields.data = data.copied := by
        rw [hparse haccepted] at hfields
        split at hfields
        · obtain ⟨path, -, rfl⟩ := Option.map_eq_some_iff.1 hfields
          exact ⟨rfl, rfl⟩
        · cases hfields
      rw [hoffset] at hreply'
      rw [hdata, hlength haccepted] at hfits
      have hbound := data.size.toNat_lt
      have hlast : byteAt reply 6 = UInt8.ofNat bytesWritten := by
        rw [hreply']
        rfl
      have hcount : (UInt8.ofNat bytesWritten).toNat = bytesWritten :=
        UInt8.toNat_ofNat_of_lt' (show bytesWritten < 256 by omega)
      have hread : squidClientReadU32 reply 2 = offset := by
        rw [hreply', writeOkResponse]
        exact readU32_writeU32 [_, _] offset _
      have hsize : reply.length = 7 := by
        rw [hreply']
        rfl
      refine ⟨by rw [hreply']; rfl, by omega, by omega, UInt8.ofNat bytesWritten, ?_, bytesWritten,
        hreply', hcount⟩
      rw [if_neg, hlast]
      rintro (h | h | h)
      · exact h hsize
      · rw [hlast, UInt8.lt_iff_toNat_lt, hcount] at h
        omega
      · exact h hread

/-- MKDIR and DELETE differ only in their opcodes. -/
theorem mkdirOrDelete_agrees (client : Option SquidClient) (path : Option CString)
    (operation : Operation)
    (hop : operation = .mkdir (textBytes path) ∨ operation = .delete (textBytes path))
    (hunread : s.unread = []) (hfuel : 256 + s.stalls < fuel) :
    Ensures (verbatim (Serves serverFuel context) epoch)
      (filesystemPathCall fuel client operation.opcode path false true 2 readBare)
      (Agrees (Serves serverFuel context) client s operation.opcode (Recovers operation)
        (fun _ reply => BareReply operation.opcode reply)) s := by
  refine transact_agrees client hunread hfuel ?_ ?_
  · intro haccepted _
    rw [decide_eq_true_iff] at haccepted
    have hpath := filesystemPathSize_le haccepted.2
    rcases hop with rfl | rfl
    · have hsized : (Operation.mkdir (textBytes path)).Sized := hpath
      exact hsized.recovers
    · have hsized : (Operation.delete (textBytes path)).Sized := hpath
      exact hsized.recovers
  · intro _ reply hreply
    refine (hreply.answer (handleMkdirOrDelete context operation.opcode · 255) ?_
      (handleMkdirOrDelete_answers context operation.opcode _)).imp id readBare_reply
    intro hroot
    rcases hop with rfl | rfl
    · simp +decide [handleSquidFsRequest, hroot, Operation.opcode]
    · simp +decide [handleSquidFsRequest, hroot, Operation.opcode]

theorem filesystemPathSize_pos (h : 0 ≤ filesystemPathSize path false) :
    0 < (textBytes path).length := by
  by_contra hempty
  have hsize : squidClientTextSize path squidFsPathMax = 0 := by
    rw [squidClientTextSize, if_neg (by omega)]
    omega
  rw [filesystemPathSize, hsize, if_pos (.inr ⟨Bool.false_ne_true, rfl⟩)] at h
  exact absurd h (by decide)

theorem squidClientFsRename_agrees (client : Option SquidClient) (oldPath newPath : Option CString)
    (hunread : s.unread = []) (hfuel : 256 + s.stalls < fuel) :
    Ensures (verbatim (Serves serverFuel context) epoch)
      (squidClientFsRename fuel client oldPath newPath)
      (Agrees (Serves serverFuel context) client s squidFsOpRename
        (Recovers (.rename (textBytes oldPath) (textBytes newPath)))
        (fun _ reply => BareReply squidFsOpRename reply)) s := by
  refine transact_agrees client hunread hfuel ?_ ?_
  · intro haccepted _
    rw [decide_eq_true_iff] at haccepted
    have hsized : (Operation.rename (textBytes oldPath) (textBytes newPath)).Sized :=
      ⟨filesystemPathSize_pos haccepted.1, filesystemPathSize_le haccepted.1,
        filesystemPathSize_le haccepted.2⟩
    exact hsized.recovers
  · intro _ reply hreply
    refine (hreply.answer (handleRename context squidFsOpRename · 255) ?_
      (handleRename_answers context squidFsOpRename _)).imp id readBare_reply
    intro hroot
    simp +decide [handleSquidFsRequest, hroot]

end

/-- A client with room for thirteen bytes. -/
def statClient : SquidClient where
  packet := some (List.replicate 14 0)
  packetCapacity := 13
  idle := false
  room := by simp

def servedRoot : SquidFsContext where
  rootFd := some 3
  readOnly := false

def rootStat : Posix.Stat where
  stMode := 0o040755
  stSize := 0
  stMtime := 5

def rootReply : List UInt8 := [0x81, 0, 2, 0xED, 1, 0, 0, 0, 0, 5, 0, 0, 0]

theorem serves_root : Serves 1 servedRoot [squidFsOpStat, 0] rootReply := by
  have hanswer : Exec (obeying TransfersFit) () (handleSquidFsRequest 1 servedRoot
      [squidFsOpStat, 0] 255) () (some (statResponse squidFsOpStat rootStat)) :=
    .call (r := (.ok rootStat : Except Posix.Errno Posix.Stat)) trivial (.pure _ _)
  exact hanswer

def dotdotPath : CString := ⟨Posix.dotdot, by decide⟩

theorem serves_dotdot : Serves 1 servedRoot [squidFsOpStat, 2, 0x2E, 0x2E] [0x81, 1] :=
  .pure _ _

end SquidServer.Client

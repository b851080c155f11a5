import SquidServer.Posix
import SquidServer.Wire

namespace SquidServer.Filesystem
open Interaction Posix Wire
set_option autoImplicit true

abbrev squidFsProtocolVersion : UInt8 := 1
abbrev squidFsOpCapabilities : UInt8 := 0x00
abbrev squidFsOpStat : UInt8 := 0x01
abbrev squidFsOpList : UInt8 := 0x02
abbrev squidFsOpRead : UInt8 := 0x03
abbrev squidFsOpWrite : UInt8 := 0x04
abbrev squidFsOpMkdir : UInt8 := 0x05
abbrev squidFsOpDelete : UInt8 := 0x06
abbrev squidFsOpRename : UInt8 := 0x07
abbrev squidFsResponseBit : UInt8 := 0x80

inductive SquidFsStatus where
  | ok | badRequest | notFound | notDirectory | isDirectory | accessDenied | exists | tooLarge
  | notEmpty | readOnly | noSpace | ioError
deriving DecidableEq

def SquidFsStatus.code : SquidFsStatus → UInt8
  | .ok => 0x00
  | .badRequest => 0x01
  | .notFound => 0x02
  | .notDirectory => 0x03
  | .isDirectory => 0x04
  | .accessDenied => 0x05
  | .exists => 0x06
  | .tooLarge => 0x07
  | .notEmpty => 0x08
  | .readOnly => 0x09
  | .noSpace => 0x0A
  | .ioError => 0x0B

abbrev squidFsFeatureStat : UInt16 := 0x0001
abbrev squidFsFeatureList : UInt16 := 0x0002
abbrev squidFsFeatureRead : UInt16 := 0x0004
abbrev squidFsFeatureWrite : UInt16 := 0x0008
abbrev squidFsFeatureMkdir : UInt16 := 0x0010
abbrev squidFsFeatureDelete : UInt16 := 0x0020
abbrev squidFsFeatureRename : UInt16 := 0x0040

abbrev squidFsTypeFile : UInt8 := 0x01
abbrev squidFsTypeDirectory : UInt8 := 0x02
abbrev squidFsTypeOther : UInt8 := 0x03

abbrev squidFsWriteCreate : UInt8 := 0x01
abbrev squidFsWriteTruncate : UInt8 := 0x02

abbrev squidFsCursorEnd : UInt16 := 0xFFFF
abbrev squidFsSizeUnknown : UInt32 := 0xFFFFFFFF
abbrev squidFsPathMax : Nat := 240
abbrev squidFsPageHeaderSize : Nat := 5
abbrev squidFsReadHeaderSize : Nat := 11

/-- `struct squid_fs_context`; `rootFd` is `none` when no root is open. -/
structure SquidFsContext where
  rootFd : Option Fd
  readOnly : Bool

def statusFromErrno : Errno → SquidFsStatus
  | .enoent => .notFound
  | .enotdir => .notDirectory
  | .eisdir => .isDirectory
  | .eacces | .eperm | .eloop => .accessDenied
  | .eexist => .exists
  | .enametoolong | .eoverflow | .efbig => .tooLarge
  | .enotempty => .notEmpty
  | .erofs => .readOnly
  | .enospc | .edquot => .noSpace
  | _ => .ioError

theorem statusFromErrno_ne_ok (e : Errno) : statusFromErrno e ≠ .ok := by
  cases e <;> simp [statusFromErrno]

def writeResponse (opcode : UInt8) (status : SquidFsStatus) (responseCapacity : Nat) : Response :=
  if responseCapacity < 2 then none else some [opcode ||| squidFsResponseBit, status.code]

/-- Components the path rules reject. -/
def BadComponent (component : Name) : Prop :=
  component = [] ∨ component = dot ∨ component = dotdot

instance : DecidablePred BadComponent := fun component =>
  inferInstanceAs (Decidable (component = [] ∨ component = dot ∨ component = dotdot))

/-- The loop of `path_is_valid`, which copies the path while it checks it; `component` holds
the bytes since the last slash. -/
def copyPath : Name → List UInt8 → Option Name
  | component, [] => if BadComponent component then none else some []
  | component, c :: rest =>
    if c ≠ 0x2F then
      if c = 0 then none else (copyPath (component ++ [c]) rest).map (c :: ·)
    else if BadComponent component then none
    else (copyPath [] rest).map (0x2F :: ·)

def pathIsValid (input : List UInt8) (allowEmpty : Bool) : Option Name :=
  if input = [] ∧ allowEmpty then some []
  else if input = [] ∨ squidFsPathMax < input.length ∨ input.head? = some 0x2F ∨
      input.getLast? = some 0x2F then none
  else copyPath [] input

def openRootCopy (context : SquidFsContext) : Program Syscalls (Except Errno Fd) :=
  match context.rootFd with
  | none => return .error .ebadf
  | some rootFd => dup rootFd

/-- The flags for a directory on the way to an object. -/
def directoryFlags : OpenFlags where
  write := false
  directory := true
  cloexec := true
  nofollow := true
  creat := false
  trunc := false

/-- The loop of `open_directory_path` over the components. -/
def openComponents : Fd → List Name → Program Syscalls (Except Errno Fd)
  | directoryFd, [] => return .ok directoryFd
  | directoryFd, component :: rest => do
    let next ← openat directoryFd component directoryFlags 0
    close directoryFd
    match next with
    | .error e => return .error e
    | .ok nextFd => openComponents nextFd rest

def openDirectoryPath (context : SquidFsContext) (path : Name) :
    Program Syscalls (Except Errno Fd) := do
  match ← openRootCopy context with
  | .error e => return .error e
  | .ok directoryFd =>
    if path = [] then return .ok directoryFd
    else openComponents directoryFd (components path)

/-- The part of a path after its last slash. -/
def leafOf (path : Name) : Name := (path.reverse.takeWhile (· ≠ 0x2F)).reverse

/-- The part of a path before its last slash. -/
def parentOf (path : Name) : Name := path.take (path.length - (leafOf path).length - 1)

def openParentDirectory (context : SquidFsContext) (path : Name) :
    Program Syscalls (Except Errno (Fd × Name)) := do
  if path = [] then return .error .einval
  else
    match ← openDirectoryPath context (parentOf path) with
    | .error e => return .error e
    | .ok parentFd => return .ok (parentFd, leafOf path)

def fileTypeFromMode (mode : Nat) : UInt8 :=
  if sIsreg mode then squidFsTypeFile
  else if sIsdir mode then squidFsTypeDirectory
  else squidFsTypeOther

/-- The largest `uint32_t`. -/
abbrev uint32Max : Int := 0xFFFFFFFF

def fileSizeFromStat (information : Stat) : UInt32 :=
  if ¬ sIsreg information.stMode ∨ information.stSize < 0 ∨ uint32Max < information.stSize then
    if sIsreg information.stMode then squidFsSizeUnknown else 0
  else UInt32.ofNat information.stSize.toNat

def handleCapabilities (context : SquidFsContext) (opcode : UInt8) (responseCapacity : Nat) :
    Response :=
  if responseCapacity < 9 then none
  else
    let features := squidFsFeatureStat ||| squidFsFeatureList ||| squidFsFeatureRead
    let features :=
      if context.readOnly then features
      else features ||| (squidFsFeatureWrite ||| squidFsFeatureMkdir ||| squidFsFeatureDelete |||
        squidFsFeatureRename)
    some ([opcode ||| squidFsResponseBit, SquidFsStatus.ok.code, squidFsProtocolVersion] ++
      writeU16 features ++ [UInt8.ofNat squidFsPathMax, UInt8.ofNat squidFsPageHeaderSize,
      UInt8.ofNat squidFsReadHeaderSize, if squidFsReadHeaderSize < responseCapacity then
        UInt8.ofNat (responseCapacity - squidFsReadHeaderSize) else 0])

def readPathRequest (request : List UInt8) (lengthOffset : Nat) (allowEmpty : Bool) :
    Option Name :=
  if request.length ≤ lengthOffset then none
  else if (byteAt request lengthOffset).toNat ≠ request.length - lengthOffset - 1 then none
  else pathIsValid (request.drop (lengthOffset + 1)) allowEmpty

def statResponse (opcode : UInt8) (information : Stat) : List UInt8 :=
  [opcode ||| squidFsResponseBit, SquidFsStatus.ok.code, fileTypeFromMode information.stMode] ++
    writeU16 (UInt16.ofNat (information.stMode &&& 0o777)) ++
    writeU32 (fileSizeFromStat information) ++
    writeU32 (if information.stMtime < 0 ∨ uint32Max < information.stMtime then 0
      else UInt32.ofNat information.stMtime.toNat)

/-- The end of `handle_stat`, once the descriptor of the parent is closed. -/
def answerStat (opcode : UInt8) (result : Except Errno Stat) (responseCapacity : Nat) : Response :=
  match result with
  | .error e => writeResponse opcode (statusFromErrno e) responseCapacity
  | .ok information =>
    if responseCapacity < 13 then none else some (statResponse opcode information)

def handleStat (context : SquidFsContext) (opcode : UInt8) (request : List UInt8)
    (responseCapacity : Nat) : Program Syscalls Response := do
  match readPathRequest request 1 true with
  | none => return writeResponse opcode .badRequest responseCapacity
  | some path =>
    if path = [] then
      match context.rootFd with
      | none => return answerStat opcode (.error .ebadf) responseCapacity
      | some rootFd => return answerStat opcode (← fstat rootFd) responseCapacity
    else
      match ← openParentDirectory context path with
      | .error e => return answerStat opcode (.error e) responseCapacity
      | .ok (parentFd, leaf) =>
        let result ← fstatat parentFd leaf true
        close parentFd
        return answerStat opcode result responseCapacity

/-- What the loop of `handle_list` has built so far: the 16-bit and 8-bit counters wrap. -/
structure ListPage where
  entryIndex : UInt16
  entryCount : UInt8
  records : List UInt8

def listRecord (name : Name) (information : Stat) : List UInt8 :=
  [fileTypeFromMode information.stMode, UInt8.ofNat name.length] ++ name ++
    writeU32 (fileSizeFromStat information)

/-- One turn of the loop of `handle_list`. It leaves the loop with a status, or with the page
and its `next_cursor`. -/
def listEntry (directory : Fd) (cursor : UInt16) (responseCapacity : Nat) (page : ListPage) :
    Program Syscalls (ListPage ⊕ Except SquidFsStatus (UInt16 × ListPage)) := do
  match ← readdir directory with
  | .error e => return .inr (.error (statusFromErrno e))
  | .ok none => return .inr (.ok (squidFsCursorEnd, page))
  | .ok (some name) =>
    if name = dot ∨ name = dotdot then return .inl page
    else if page.entryIndex < cursor then
      return .inl { page with entryIndex := page.entryIndex + 1 }
    else
      let recordSize := 6 + name.length
      if 255 < name.length ∨ 249 < recordSize then return .inr (.error .tooLarge)
      else
        match ← fstatat directory name true with
        | .error e => return .inr (.error (statusFromErrno e))
        | .ok information =>
          if responseCapacity - (squidFsPageHeaderSize + page.records.length) < recordSize then
            if page.entryCount = 0 then return .inr (.error .tooLarge)
            else return .inr (.ok (page.entryIndex, page))
          else
            return .inl {
              entryIndex := page.entryIndex + 1
              entryCount := page.entryCount + 1
              records := page.records ++ listRecord name information }

def listResponse (opcode : UInt8) (nextCursor : UInt16) (page : ListPage) : List UInt8 :=
  [opcode ||| squidFsResponseBit, SquidFsStatus.ok.code] ++ writeU16 nextCursor ++
    [page.entryCount] ++ page.records

/-- `handle_list`; the loop over the directory is cut off after `fuel` turns, and then there is
no reply. -/
def handleList (fuel : Nat) (context : SquidFsContext) (opcode : UInt8) (request : List UInt8)
    (responseCapacity : Nat) : Program Syscalls Response := do
  match if request.length < 4 then none else readPathRequest request 3 true with
  | none => return writeResponse opcode .badRequest responseCapacity
  | some path =>
    let cursor := readU16 request 1
    if cursor = squidFsCursorEnd ∨ responseCapacity < squidFsPageHeaderSize then
      return writeResponse opcode .badRequest responseCapacity
    else
      match ← openDirectoryPath context path with
      | .error e => return writeResponse opcode (statusFromErrno e) responseCapacity
      | .ok directoryFd =>
        match ← fdopendir directoryFd with
        | .error e =>
          close directoryFd
          return writeResponse opcode (statusFromErrno e) responseCapacity
        | .ok () =>
          match ← Program.loop (listEntry directoryFd cursor responseCapacity) fuel ⟨0, 0, []⟩ with
          | none => return none
          | some (.error status) =>
            closedir directoryFd
            return writeResponse opcode status responseCapacity
          | some (.ok (nextCursor, page)) =>
            closedir directoryFd
            return some (listResponse opcode nextCursor page)

/-- The number of bytes `handle_read` asks for. -/
def readDataSize (responseCapacity maximumBytes stSize offset : Nat) : Nat :=
  let dataSize := responseCapacity - squidFsReadHeaderSize
  let dataSize := if 0 < maximumBytes ∧ maximumBytes < dataSize then maximumBytes else dataSize
  let dataSize := if 255 < dataSize then 255 else dataSize
  if stSize - offset < dataSize then stSize - offset else dataSize

def readResponse (opcode : UInt8) (offset : UInt32) (stSize : Nat) (data : List UInt8) :
    List UInt8 :=
  [opcode ||| squidFsResponseBit, SquidFsStatus.ok.code] ++ writeU32 offset ++
    writeU32 (UInt32.ofNat stSize) ++ [UInt8.ofNat data.length] ++ data

/-- The flags `handle_read` opens the file with. -/
def readFlags : OpenFlags where
  write := false
  directory := false
  cloexec := true
  nofollow := true
  creat := false
  trunc := false

/-- The part of `handle_read` between opening and closing the file. -/
def readFile (fileFd : Fd) (opcode : UInt8) (offset : UInt32) (maximumBytes : UInt8)
    (responseCapacity : Nat) : Program Syscalls (Except SquidFsStatus (List UInt8)) := do
  match ← fstat fileFd with
  | .error e => return .error (statusFromErrno e)
  | .ok information =>
    if sIsdir information.stMode then return .error .isDirectory
    else if ¬ sIsreg information.stMode then return .error .accessDenied
    else if information.stSize < 0 ∨ uint32Max < information.stSize then return .error .tooLarge
    else if information.stSize < offset.toNat then return .error .badRequest
    else
      let stSize := information.stSize.toNat
      match ← pread fileFd (readDataSize responseCapacity maximumBytes.toNat stSize offset.toNat)
        offset.toNat with
      | .error e => return .error (statusFromErrno e)
      | .ok data => return .ok (readResponse opcode offset stSize data)

/-- The last step of the handlers that close a descriptor before they answer. -/
def answer (opcode : UInt8) (result : Except SquidFsStatus (List UInt8)) (responseCapacity : Nat) :
    Response :=
  match result with
  | .error status => writeResponse opcode status responseCapacity
  | .ok response => some response

def handleRead (context : SquidFsContext) (opcode : UInt8) (request : List UInt8)
    (responseCapacity : Nat) : Program Syscalls Response := do
  match if request.length < 7 then none else readPathRequest request 6 false with
  | none => return writeResponse opcode .badRequest responseCapacity
  | some path =>
    if responseCapacity < squidFsReadHeaderSize then return none
    else
      let offset := readU32 request 1
      let maximumBytes := byteAt request 5
      match ← openParentDirectory context path with
      | .error e => return writeResponse opcode (statusFromErrno e) responseCapacity
      | .ok (parentFd, leaf) =>
        let file ← openat parentFd leaf readFlags 0
        close parentFd
        match file with
        | .error e => return writeResponse opcode (statusFromErrno e) responseCapacity
        | .ok fileFd =>
          let result ← readFile fileFd opcode offset maximumBytes responseCapacity
          close fileFd
          return answer opcode result responseCapacity

/-- The fields of a WRITE request. -/
structure WriteRequest where
  offset : UInt32
  flags : UInt8
  path : Name
  data : List UInt8

def parseWrite (request : List UInt8) : Option WriteRequest :=
  if request.length < 8 then none
  else
    let flags := byteAt request 5
    let pathSize := (byteAt request 6).toNat
    if flags &&& ~~~(squidFsWriteCreate ||| squidFsWriteTruncate) ≠ 0 ∨
        request.length - 7 < pathSize then none
    else match pathIsValid ((request.drop 7).take pathSize) false with
      | none => none
      | some path =>
        let cursor := 7 + pathSize
        if request.length ≤ cursor then none
        else if (byteAt request cursor).toNat ≠ request.length - (cursor + 1) then none
        else some ⟨readU32 request 1, flags, path, request.drop (cursor + 1)⟩

/-- The flags `handle_write` opens the file with. -/
def writeFlags (flags : UInt8) : OpenFlags where
  write := true
  directory := false
  cloexec := true
  nofollow := true
  creat := flags &&& squidFsWriteCreate ≠ 0
  trunc := flags &&& squidFsWriteTruncate ≠ 0

/-- The part of `handle_write` between opening and closing the file. -/
def writeFile (fileFd : Fd) (data : List UInt8) (offset : UInt32) :
    Program Syscalls (Except SquidFsStatus Nat) := do
  match ← fstat fileFd with
  | .error e => return .error (statusFromErrno e)
  | .ok information =>
    if ¬ sIsreg information.stMode then return .error .accessDenied
    else
      match ← pwrite fileFd data offset.toNat with
      | .error e => return .error (statusFromErrno e)
      | .ok bytesWritten => return .ok bytesWritten

def writeOkResponse (opcode : UInt8) (offset : UInt32) (bytesWritten : Nat) : List UInt8 :=
  [opcode ||| squidFsResponseBit, SquidFsStatus.ok.code] ++ writeU32 offset ++
    [UInt8.ofNat bytesWritten]

def handleWrite (context : SquidFsContext) (opcode : UInt8) (request : List UInt8)
    (responseCapacity : Nat) : Program Syscalls Response := do
  if context.readOnly then return writeResponse opcode .readOnly responseCapacity
  else match parseWrite request with
  | none => return writeResponse opcode .badRequest responseCapacity
  | some fields =>
    match ← openParentDirectory context fields.path with
    | .error e => return writeResponse opcode (statusFromErrno e) responseCapacity
    | .ok (parentFd, leaf) =>
      let file ← openat parentFd leaf (writeFlags fields.flags) 0o666
      close parentFd
      match file with
      | .error e => return writeResponse opcode (statusFromErrno e) responseCapacity
      | .ok fileFd =>
        let result ← writeFile fileFd fields.data fields.offset
        close fileFd
        match result with
        | .error status => return writeResponse opcode status responseCapacity
        | .ok bytesWritten =>
          if responseCapacity < 7 then return none
          else return some (writeOkResponse opcode fields.offset bytesWritten)

/-- `unlinkat`, with `AT_REMOVEDIR` for a directory. -/
def deleteEntry (parentFd : Fd) (leaf : Name) : Program Syscalls (Except Errno Unit) := do
  match ← fstatat parentFd leaf true with
  | .error e => return .error e
  | .ok information => unlinkat parentFd leaf (sIsdir information.stMode)

/-- The system call of MKDIR or DELETE. -/
def mkdirOrDelete (opcode : UInt8) (parentFd : Fd) (leaf : Name) :
    Program Syscalls (Except Errno Unit) :=
  if opcode = squidFsOpMkdir then mkdirat parentFd leaf 0o777 else deleteEntry parentFd leaf

/-- The answer to an operation that reports nothing but its success. -/
def statusOf (result : Except Errno Unit) : SquidFsStatus :=
  match result with
  | .error e => statusFromErrno e
  | .ok () => .ok

def handleMkdirOrDelete (context : SquidFsContext) (opcode : UInt8) (request : List UInt8)
    (responseCapacity : Nat) : Program Syscalls Response := do
  if context.readOnly then return writeResponse opcode .readOnly responseCapacity
  else match readPathRequest request 1 false with
  | none => return writeResponse opcode .badRequest responseCapacity
  | some path =>
    match ← openParentDirectory context path with
    | .error e => return writeResponse opcode (statusFromErrno e) responseCapacity
    | .ok (parentFd, leaf) =>
      let result ← mkdirOrDelete opcode parentFd leaf
      close parentFd
      return writeResponse opcode (statusOf result) responseCapacity

/-- The two paths of a RENAME request. -/
def parseRename (request : List UInt8) : Option (Name × Name) :=
  if request.length < 4 then none
  else
    let oldSize := (byteAt request 1).toNat
    if request.length - 2 < oldSize then none
    else match pathIsValid ((request.drop 2).take oldSize) false with
      | none => none
      | some oldPath =>
        let cursor := 2 + oldSize
        if request.length ≤ cursor then none
        else if (byteAt request cursor).toNat ≠ request.length - (cursor + 1) then none
        else match pathIsValid (request.drop (cursor + 1)) false with
          | none => none
          | some newPath => some (oldPath, newPath)

def handleRename (context : SquidFsContext) (opcode : UInt8) (request : List UInt8)
    (responseCapacity : Nat) : Program Syscalls Response := do
  if context.readOnly then return writeResponse opcode .readOnly responseCapacity
  else match parseRename request with
  | none => return writeResponse opcode .badRequest responseCapacity
  | some (oldPath, newPath) =>
    match ← openParentDirectory context oldPath with
    | .error e => return writeResponse opcode (statusFromErrno e) responseCapacity
    | .ok (oldParent, oldLeaf) =>
      match ← openParentDirectory context newPath with
      | .error e =>
        close oldParent
        return writeResponse opcode (statusFromErrno e) responseCapacity
      | .ok (newParent, newLeaf) =>
        let result ← renameat oldParent oldLeaf newParent newLeaf
        close oldParent
        close newParent
        return writeResponse opcode (statusOf result) responseCapacity

/-- `handle_squid_fs_request` for a context, a request and a response that are not NULL. -/
def handleSquidFsRequest (fuel : Nat) (context : SquidFsContext) (request : List UInt8)
    (responseCapacity : Nat) : Program Syscalls Response :=
  match request with
  | [] => return none
  | opcode :: _ =>
    if context.rootFd = none ∨ responseCapacity < 2 then return none
    else if opcode = squidFsOpCapabilities then
      if request.length ≠ 1 then return writeResponse opcode .badRequest responseCapacity
      else return handleCapabilities context opcode responseCapacity
    else if opcode = squidFsOpStat then handleStat context opcode request responseCapacity
    else if opcode = squidFsOpList then handleList fuel context opcode request responseCapacity
    else if opcode = squidFsOpRead then handleRead context opcode request responseCapacity
    else if opcode = squidFsOpWrite then handleWrite context opcode request responseCapacity
    else if opcode = squidFsOpMkdir ∨ opcode = squidFsOpDelete then
      handleMkdirOrDelete context opcode request responseCapacity
    else if opcode = squidFsOpRename then handleRename context opcode request responseCapacity
    else return writeResponse opcode .badRequest responseCapacity

/-- `struct squid_fs_plugin_state`. -/
structure SquidFsPluginState where
  context : SquidFsContext
  started : Bool

/-- `start_squid_fs_plugin`; `root` is what opening the root gives, and `none` where there is no
path for it. -/
def startSquidFsPlugin (state : SquidFsPluginState) (root : Option (Except Errno Fd))
    (readOnly : Bool) : SquidFsPluginState :=
  match root with
  | none => state
  | some opened =>
    if state.started then state
    else match opened with
      | .error _ => ⟨⟨none, false⟩, false⟩
      | .ok rootFd => ⟨⟨some rootFd, readOnly⟩, true⟩

/-- `stop_squid_fs_plugin`. -/
def stopSquidFsPlugin (state : SquidFsPluginState) : SquidFsPluginState :=
  if state.started then ⟨⟨none, false⟩, false⟩ else state

/-- The states of the plugin, which begins with all zeros. Requests leave the context as it is. -/
inductive SquidFsPluginState.Reachable : SquidFsPluginState → Prop
  | initial : Reachable ⟨⟨some 0, false⟩, false⟩
  | start {state : SquidFsPluginState} (root : Option (Except Errno Fd)) (readOnly : Bool) :
      Reachable state → Reachable (startSquidFsPlugin state root readOnly)
  | stop {state : SquidFsPluginState} : Reachable state → Reachable (stopSquidFsPlugin state)

theorem SquidFsPluginState.Reachable.root_open {state : SquidFsPluginState} (h : state.Reachable)
    (hstarted : state.started = true) : state.context.rootFd ≠ none := by
  induction h with
  | initial => cases hstarted
  | @start state root readOnly _ ih =>
    cases root with
    | none => exact ih hstarted
    | some opened =>
      simp only [startSquidFsPlugin] at hstarted ⊢
      split
      · rename_i hbefore
        exact ih hbefore
      · rename_i hbefore
        rw [if_neg hbefore] at hstarted
        cases opened with
        | error e => cases hstarted
        | ok rootFd => exact Option.some_ne_none rootFd
  | @stop state _ ih =>
    rw [stopSquidFsPlugin] at hstarted ⊢
    split
    · rename_i hbefore
      rw [if_pos hbefore] at hstarted
      cases hstarted
    · rename_i hbefore
      rw [if_neg hbefore] at hstarted
      exact ih hstarted

end SquidServer.Filesystem

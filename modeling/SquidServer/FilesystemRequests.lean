import SquidServer.FilesystemConfinement

namespace SquidServer.Filesystem
open Interaction Posix Wire
set_option autoImplicit true

/-- What a client can ask of the file system, with the arguments of each operation. -/
inductive Operation where
  | stat (path : Name)
  | list (cursor : UInt16) (path : Name)
  | read (offset : UInt32) (maximumBytes : UInt8) (path : Name)
  | write (offset : UInt32) (flags : UInt8) (path : Name) (data : List UInt8)
  | mkdir (path : Name)
  | delete (path : Name)
  | rename (oldPath newPath : Name)
deriving DecidableEq

def Operation.opcode : Operation → UInt8
  | .stat _ => squidFsOpStat
  | .list _ _ => squidFsOpList
  | .read _ _ _ => squidFsOpRead
  | .write _ _ _ _ => squidFsOpWrite
  | .mkdir _ => squidFsOpMkdir
  | .delete _ => squidFsOpDelete
  | .rename _ _ => squidFsOpRename

/-- The fields of a request after its opcode. -/
def Operation.fields : Operation → List UInt8
  | .stat path => countedText path
  | .list cursor path => writeU16 cursor ++ countedText path
  | .read offset maximumBytes path => writeU32 offset ++ [maximumBytes] ++ countedText path
  | .write offset flags path data =>
    writeU32 offset ++ [flags] ++ countedText path ++ countedText data
  | .mkdir path => countedText path
  | .delete path => countedText path
  | .rename oldPath newPath => countedText oldPath ++ countedText newPath

/-- The layout of a request. -/
def Operation.encode (operation : Operation) : List UInt8 := operation.opcode :: operation.fields

/-- The arguments that a request may carry. -/
def Operation.Valid : Operation → Prop
  | .stat path => path = [] ∨ ValidPath path
  | .list cursor path => (path = [] ∨ ValidPath path) ∧ cursor ≠ squidFsCursorEnd
  | .read _ _ path => ValidPath path
  | .write _ flags path data =>
    ValidPath path ∧ flags &&& ~~~(squidFsWriteCreate ||| squidFsWriteTruncate) = 0 ∧
      data.length < 256
  | .mkdir path => ValidPath path
  | .delete path => ValidPath path
  | .rename oldPath newPath => ValidPath oldPath ∧ ValidPath newPath

/-- The opcodes that change the tree. -/
def Mutating (opcode : UInt8) : Prop :=
  opcode = squidFsOpWrite ∨ opcode = squidFsOpMkdir ∨ opcode = squidFsOpDelete ∨
    opcode = squidFsOpRename

instance : DecidablePred Mutating := fun opcode =>
  inferInstanceAs (Decidable (opcode = squidFsOpWrite ∨ opcode = squidFsOpMkdir ∨
    opcode = squidFsOpDelete ∨ opcode = squidFsOpRename))

/-- A valid operation that the context lets pass. -/
def Operation.Admitted (context : SquidFsContext) (operation : Operation) : Prop :=
  operation.Valid ∧ ¬ (Mutating operation.opcode ∧ context.readOnly = true)

-- What the handlers do once they have read their arguments.

def performStat (context : SquidFsContext) (path : Name) (responseCapacity : Nat) :
    Program Syscalls Response := do
  if path = [] then
    match context.rootFd with
    | none => return answerStat squidFsOpStat (.error .ebadf) responseCapacity
    | some rootFd => return answerStat squidFsOpStat (← fstat rootFd) responseCapacity
  else
    match ← openParentDirectory context path with
    | .error e => return answerStat squidFsOpStat (.error e) responseCapacity
    | .ok (parentFd, leaf) =>
      let result ← fstatat parentFd leaf true
      close parentFd
      return answerStat squidFsOpStat result responseCapacity

def performList (fuel : Nat) (context : SquidFsContext) (cursor : UInt16) (path : Name)
    (responseCapacity : Nat) : Program Syscalls Response := do
  match ← openDirectoryPath context path with
  | .error e => return writeResponse squidFsOpList (statusFromErrno e) responseCapacity
  | .ok directoryFd =>
    match ← fdopendir directoryFd with
    | .error e =>
      close directoryFd
      return writeResponse squidFsOpList (statusFromErrno e) responseCapacity
    | .ok () =>
      match ← Program.loop (listEntry directoryFd cursor responseCapacity) fuel ⟨0, 0, []⟩ with
      | none => return none
      | some (.error status) =>
        closedir directoryFd
        return writeResponse squidFsOpList status responseCapacity
      | some (.ok (nextCursor, page)) =>
        closedir directoryFd
        return some (listResponse squidFsOpList nextCursor page)

def performRead (context : SquidFsContext) (offset : UInt32) (maximumBytes : UInt8) (path : Name)
    (responseCapacity : Nat) : Program Syscalls Response := do
  match ← openParentDirectory context path with
  | .error e => return writeResponse squidFsOpRead (statusFromErrno e) responseCapacity
  | .ok (parentFd, leaf) =>
    let file ← openat parentFd leaf readFlags 0
    close parentFd
    match file with
    | .error e => return writeResponse squidFsOpRead (statusFromErrno e) responseCapacity
    | .ok fileFd =>
      let result ← readFile fileFd squidFsOpRead offset maximumBytes responseCapacity
      close fileFd
      return answer squidFsOpRead result responseCapacity

def performWrite (context : SquidFsContext) (fields : WriteRequest) (responseCapacity : Nat) :
    Program Syscalls Response := do
  match ← openParentDirectory context fields.path with
  | .error e => return writeResponse squidFsOpWrite (statusFromErrno e) responseCapacity
  | .ok (parentFd, leaf) =>
    let file ← openat parentFd leaf (writeFlags fields.flags) 0o666
    close parentFd
    match file with
    | .error e => return writeResponse squidFsOpWrite (statusFromErrno e) responseCapacity
    | .ok fileFd =>
      let result ← writeFile fileFd fields.data fields.offset
      close fileFd
      match result with
      | .error status => return writeResponse squidFsOpWrite status responseCapacity
      | .ok bytesWritten =>
        if responseCapacity < 7 then return none
        else return some (writeOkResponse squidFsOpWrite fields.offset bytesWritten)

def performMkdirOrDelete (context : SquidFsContext) (opcode : UInt8) (path : Name)
    (responseCapacity : Nat) : Program Syscalls Response := do
  match ← openParentDirectory context path with
  | .error e => return writeResponse opcode (statusFromErrno e) responseCapacity
  | .ok (parentFd, leaf) =>
    let result ← mkdirOrDelete opcode parentFd leaf
    close parentFd
    return writeResponse opcode (statusOf result) responseCapacity

def performRename (context : SquidFsContext) (oldPath newPath : Name) (responseCapacity : Nat) :
    Program Syscalls Response := do
  match ← openParentDirectory context oldPath with
  | .error e => return writeResponse squidFsOpRename (statusFromErrno e) responseCapacity
  | .ok (oldParent, oldLeaf) =>
    match ← openParentDirectory context newPath with
    | .error e =>
      close oldParent
      return writeResponse squidFsOpRename (statusFromErrno e) responseCapacity
    | .ok (newParent, newLeaf) =>
      let result ← renameat oldParent oldLeaf newParent newLeaf
      close oldParent
      close newParent
      return writeResponse squidFsOpRename (statusOf result) responseCapacity

/-- An operation, as calls to the file system. -/
def Operation.perform (fuel : Nat) (context : SquidFsContext) (responseCapacity : Nat) :
    Operation → Program Syscalls Response
  | .stat path => performStat context path responseCapacity
  | .list cursor path => performList fuel context cursor path responseCapacity
  | .read offset maximumBytes path =>
    performRead context offset maximumBytes path responseCapacity
  | .write offset flags path data =>
    performWrite context ⟨offset, flags, path, data⟩ responseCapacity
  | .mkdir path => performMkdirOrDelete context squidFsOpMkdir path responseCapacity
  | .delete path => performMkdirOrDelete context squidFsOpDelete path responseCapacity
  | .rename oldPath newPath => performRename context oldPath newPath responseCapacity

/-- The operation that the handlers read from a request. -/
def parseOperation (request : List UInt8) : Option Operation :=
  match request with
  | [] => none
  | opcode :: _ =>
    if opcode = squidFsOpStat then (readPathRequest request 1 true).map .stat
    else if opcode = squidFsOpList then
      if request.length < 4 ∨ readU16 request 1 = squidFsCursorEnd then none
      else (readPathRequest request 3 true).map (.list (readU16 request 1))
    else if opcode = squidFsOpRead then
      if request.length < 7 then none
      else (readPathRequest request 6 false).map (.read (readU32 request 1) (byteAt request 5))
    else if opcode = squidFsOpWrite then
      (parseWrite request).map fun fields =>
        .write fields.offset fields.flags fields.path fields.data
    else if opcode = squidFsOpMkdir then (readPathRequest request 1 false).map .mkdir
    else if opcode = squidFsOpDelete then (readPathRequest request 1 false).map .delete
    else if opcode = squidFsOpRename then
      (parseRename request).map fun paths => .rename paths.1 paths.2
    else none

/-- The requests that an operation can be read from. -/
inductive Parses : List UInt8 → Operation → Prop
  | stat : readPathRequest (squidFsOpStat :: rest) 1 true = some path →
      Parses (squidFsOpStat :: rest) (.stat path)
  | list : ¬ (squidFsOpList :: rest).length < 4 →
      readU16 (squidFsOpList :: rest) 1 ≠ squidFsCursorEnd →
      readPathRequest (squidFsOpList :: rest) 3 true = some path →
      Parses (squidFsOpList :: rest) (.list (readU16 (squidFsOpList :: rest) 1) path)
  | read : ¬ (squidFsOpRead :: rest).length < 7 →
      readPathRequest (squidFsOpRead :: rest) 6 false = some path →
      Parses (squidFsOpRead :: rest)
        (.read (readU32 (squidFsOpRead :: rest) 1) (byteAt (squidFsOpRead :: rest) 5) path)
  | write : parseWrite (squidFsOpWrite :: rest) = some fields →
      Parses (squidFsOpWrite :: rest)
        (.write fields.offset fields.flags fields.path fields.data)
  | mkdir : readPathRequest (squidFsOpMkdir :: rest) 1 false = some path →
      Parses (squidFsOpMkdir :: rest) (.mkdir path)
  | delete : readPathRequest (squidFsOpDelete :: rest) 1 false = some path →
      Parses (squidFsOpDelete :: rest) (.delete path)
  | rename : parseRename (squidFsOpRename :: rest) = some (oldPath, newPath) →
      Parses (squidFsOpRename :: rest) (.rename oldPath newPath)

theorem parses_of_eq_some (h : parseOperation request = some operation) :
    Parses request operation := by
  rw [parseOperation.eq_def] at h
  split at h
  · cases h
  rename_i opcode rest
  split at h
  · rename_i hop
    obtain ⟨path, hpath, rfl⟩ := Option.map_eq_some_iff.1 h
    subst hop
    exact .stat hpath
  split at h
  · rename_i hop
    subst hop
    split at h
    · cases h
    · rename_i hcursor
      obtain ⟨path, hpath, rfl⟩ := Option.map_eq_some_iff.1 h
      rw [not_or] at hcursor
      exact .list hcursor.1 hcursor.2 hpath
  split at h
  · rename_i hop
    subst hop
    split at h
    · cases h
    · rename_i hsize
      obtain ⟨path, hpath, rfl⟩ := Option.map_eq_some_iff.1 h
      exact .read hsize hpath
  split at h
  · rename_i hop
    obtain ⟨fields, hfields, rfl⟩ := Option.map_eq_some_iff.1 h
    subst hop
    exact .write hfields
  split at h
  · rename_i hop
    obtain ⟨path, hpath, rfl⟩ := Option.map_eq_some_iff.1 h
    subst hop
    exact .mkdir hpath
  split at h
  · rename_i hop
    obtain ⟨path, hpath, rfl⟩ := Option.map_eq_some_iff.1 h
    subst hop
    exact .delete hpath
  split at h
  · rename_i hop
    obtain ⟨paths, hpaths, rfl⟩ := Option.map_eq_some_iff.1 h
    subst hop
    exact .rename hpaths
  · cases h

theorem Parses.eq_some (h : Parses request operation) :
    parseOperation request = some operation := by
  cases h with
  | stat hpath => exact congrArg (Option.map Operation.stat) hpath
  | list hsize hcursor hpath =>
    change ite _ _ _ = _
    rw [if_neg (not_or.2 ⟨hsize, hcursor⟩), hpath]
    rfl
  | read hsize hpath =>
    change ite _ _ _ = _
    rw [if_neg hsize, hpath]
    rfl
  | write hfields => exact congrArg (Option.map _) hfields
  | mkdir hpath => exact congrArg (Option.map Operation.mkdir) hpath
  | delete hpath => exact congrArg (Option.map Operation.delete) hpath
  | rename hpaths => exact congrArg (Option.map _) hpaths

section
variable {fuel : Nat} {context : SquidFsContext} {responseCapacity : Nat}

theorem Parses.handle_eq (h : Parses request operation) (hroot : context.rootFd ≠ none)
    (hcapacity : 2 ≤ responseCapacity)
    (hpage : ¬ Mutating operation.opcode → 11 ≤ responseCapacity)
    (hwritable : ¬ (Mutating operation.opcode ∧ context.readOnly = true)) :
    handleSquidFsRequest fuel context request responseCapacity =
      operation.perform fuel context responseCapacity := by
  have hguard : ¬ (context.rootFd = none ∨ responseCapacity < 2) := by
    rintro (hnone | hsmall)
    · exact hroot hnone
    · omega
  have hwrites : Mutating operation.opcode → context.readOnly ≠ true :=
    fun hmutating hread => hwritable ⟨hmutating, hread⟩
  cases h with
  | stat hpath =>
    rw [handleSquidFsRequest, if_neg hguard]
    change handleStat context squidFsOpStat _ responseCapacity = _
    rw [handleStat, hpath]
    rfl
  | list hsize hcursor hpath =>
    rw [handleSquidFsRequest, if_neg hguard]
    change handleList fuel context squidFsOpList _ responseCapacity = _
    rw [handleList, if_neg hsize, hpath]
    dsimp only
    have hlooks : ¬ Mutating squidFsOpList := by decide
    rw [if_neg (not_or.2 ⟨hcursor, Nat.not_lt.2 (Nat.le_trans (by decide) (hpage hlooks))⟩)]
    rfl
  | read hsize hpath =>
    rw [handleSquidFsRequest, if_neg hguard]
    change handleRead context squidFsOpRead _ responseCapacity = _
    rw [handleRead, if_neg hsize, hpath]
    dsimp only
    have hlooks : ¬ Mutating squidFsOpRead := by decide
    rw [if_neg (Nat.not_lt.2 (hpage hlooks))]
    rfl
  | write hfields =>
    rw [handleSquidFsRequest, if_neg hguard]
    change handleWrite context squidFsOpWrite _ responseCapacity = _
    rw [handleWrite, if_neg (hwrites (.inl rfl)), hfields]
    rfl
  | mkdir hpath =>
    rw [handleSquidFsRequest, if_neg hguard]
    change handleMkdirOrDelete context squidFsOpMkdir _ responseCapacity = _
    rw [handleMkdirOrDelete, if_neg (hwrites (.inr (.inl rfl))), hpath]
    rfl
  | delete hpath =>
    rw [handleSquidFsRequest, if_neg hguard]
    change handleMkdirOrDelete context squidFsOpDelete _ responseCapacity = _
    rw [handleMkdirOrDelete, if_neg (hwrites (.inr (.inr (.inl rfl)))), hpath]
    rfl
  | rename hpaths =>
    rw [handleSquidFsRequest, if_neg hguard]
    change handleRename context squidFsOpRename _ responseCapacity = _
    rw [handleRename, if_neg (hwrites (.inr (.inr (.inr rfl)))), hpaths]
    rfl

end

-- The parsers undo the encoding, field by field.

theorem ofNat_toNat_of_le {text : List UInt8} (h : text.length ≤ 255) :
    (UInt8.ofNat text.length).toNat = text.length :=
  UInt8.toNat_ofNat_of_lt' (show text.length < 256 by omega)

theorem readPathRequest_counted (start : List UInt8) (hpath : path.length ≤ 240)
    (allowEmpty : Bool) :
    readPathRequest (start ++ countedText path) start.length allowEmpty =
      pathIsValid path allowEmpty := by
  have hbyte : byteAt (start ++ countedText path) start.length = UInt8.ofNat path.length := by
    simp [byteAt, countedText]
  have hdrop : (start ++ countedText path).drop (start.length + 1) = path := by
    simp [countedText]
  have hlength : (start ++ countedText path).length = start.length + 1 + path.length := by
    simp only [countedText, List.length_append, List.length_cons]
    omega
  rw [readPathRequest, if_neg (by omega), hbyte, ofNat_toNat_of_le (by omega), if_neg (by omega),
    hdrop]

theorem parseWrite_request (offset : UInt32) (flags : UInt8) (hpath : path.length ≤ 240)
    (hdata : data.length = size.toNat) :
    parseWrite (squidFsOpWrite :: (writeU32 offset ++ [flags] ++ countedText path ++
      size :: data)) =
        if flags &&& ~~~(squidFsWriteCreate ||| squidFsWriteTruncate) = 0 then
          (pathIsValid path false).map fun path => ⟨offset, flags, path, data⟩
        else none := by
  generalize hrequest : squidFsOpWrite :: (writeU32 offset ++ [flags] ++ countedText path ++
    size :: data) = request
  have hsplit : request = [squidFsOpWrite] ++ writeU32 offset ++
      (flags :: (countedText path ++ size :: data)) := by
    rw [← hrequest]
    simp
  have hlength : request.length = 8 + path.length + data.length := by
    rw [← hrequest]
    simp only [countedText, writeU32, List.length_append, List.length_cons, List.length_nil]
    omega
  have hoffset : readU32 request 1 = offset := by
    rw [hsplit]
    exact readU32_writeU32 [squidFsOpWrite] offset _
  have hflags : byteAt request 5 = flags := by
    rw [← hrequest]
    rfl
  have hcount : (byteAt request 6).toNat = path.length := by
    rw [← hrequest]
    exact ofNat_toNat_of_le (by omega)
  have hfield : (request.drop 7).take path.length = path := by
    rw [← hrequest]
    simp [countedText, writeU32]
  have hsize : byteAt request (7 + path.length) = size := by
    rw [← hrequest, Nat.add_comm]
    simp [byteAt, countedText, writeU32]
  have hrest : request.drop (7 + path.length + 1) = data := by
    rw [← hrequest, Nat.add_comm 7, Nat.add_assoc]
    simp [countedText, writeU32]
  rw [parseWrite, if_neg (by omega)]
  dsimp only
  rw [hflags, hcount, hfield, hsize, hrest, hoffset]
  by_cases hknown : flags &&& ~~~(squidFsWriteCreate ||| squidFsWriteTruncate) = 0
  · rw [if_pos hknown, if_neg]
    · cases pathIsValid path false with
      | none => rfl
      | some path' =>
        dsimp only
        rw [if_neg (by omega), if_neg (by omega)]
        rfl
    · rintro (h | h)
      · exact h hknown
      · omega
  · rw [if_neg hknown, if_pos (.inl hknown)]

theorem parseRename_request (hold : oldPath.length ≤ 240) (hnew : newPath.length ≤ 240)
    (hpos : 0 < oldPath.length) :
    parseRename (squidFsOpRename :: (countedText oldPath ++ countedText newPath)) =
      (pathIsValid oldPath false).bind fun oldPath =>
        (pathIsValid newPath false).map fun newPath => (oldPath, newPath) := by
  generalize hrequest : squidFsOpRename :: (countedText oldPath ++ countedText newPath) = request
  have hlength : request.length = 3 + oldPath.length + newPath.length := by
    rw [← hrequest]
    simp only [countedText, List.length_append, List.length_cons]
    omega
  have hcount : (byteAt request 1).toNat = oldPath.length := by
    rw [← hrequest]
    exact ofNat_toNat_of_le (by omega)
  have hfirst : (request.drop 2).take oldPath.length = oldPath := by
    rw [← hrequest]
    simp [countedText]
  have hsecond : (byteAt request (2 + oldPath.length)).toNat = newPath.length := by
    have hbyte : byteAt request (2 + oldPath.length) = UInt8.ofNat newPath.length := by
      rw [← hrequest, Nat.add_comm]
      simp [byteAt, countedText]
    rw [hbyte]
    exact ofNat_toNat_of_le (by omega)
  have hrest : request.drop (2 + oldPath.length + 1) = newPath := by
    rw [← hrequest, Nat.add_comm 2, Nat.add_assoc]
    simp [countedText]
  rw [parseRename, if_neg (by omega)]
  dsimp only
  rw [hcount, if_neg (by omega), hfirst, hsecond, hrest]
  cases pathIsValid oldPath false with
  | none => rfl
  | some oldPath' =>
    dsimp only
    rw [if_neg (by omega), if_neg (by omega)]
    cases pathIsValid newPath false with
    | none => rfl
    | some newPath' => rfl

theorem ValidPath.length_le (h : ValidPath path) : path.length ≤ 240 := h.size.2

theorem ValidPath.pathIsValid_eq (h : ValidPath path) (allowEmpty : Bool) :
    pathIsValid path allowEmpty = some path := by
  have hne : path ≠ [] := List.ne_nil_of_length_pos h.size.1
  have hgood : ([] : Name) ∉ splitSlash path := fun hmem => h.pieces [] hmem (.inl rfl)
  have hhead : path.head? ≠ some 0x2F := by
    intro hslash
    obtain ⟨rest, rfl⟩ := List.head?_eq_some_iff.1 hslash
    apply hgood
    rw [splitSlash, if_pos rfl]
    exact List.mem_cons_self
  have hlast : path.getLast? ≠ some 0x2F := by
    intro hslash
    obtain ⟨front, rfl⟩ := List.getLast?_eq_some_iff.1 hslash
    apply hgood
    rw [splitSlash_slash]
    exact List.mem_append_right _ List.mem_cons_self
  rw [pathIsValid, if_neg fun hand => hne hand.1, if_neg, copyPath_eq_some (by simp)]
  · exact ⟨rfl, h.noNul, h.pieces⟩
  · rintro (hnil | hlong | hslash | hslash)
    · exact hne hnil
    · exact Nat.not_lt.2 h.length_le hlong
    · exact hhead hslash
    · exact hlast hslash

theorem pathIsValid_root (h : path = [] ∨ ValidPath path) : pathIsValid path true = some path := by
  rcases h with rfl | h
  · rfl
  · exact h.pathIsValid_eq true

theorem length_le_of_root (h : path = [] ∨ ValidPath path) : path.length ≤ 240 := by
  rcases h with rfl | h
  · exact Nat.zero_le 240
  · exact h.length_le

theorem readPathRequest_encoded (offset : Nat) (start : List UInt8) (hsize : start.length = offset)
    (hpath : path.length ≤ 240) (hvalid : pathIsValid path allowEmpty = some path) :
    readPathRequest (start ++ countedText path) offset allowEmpty = some path := by
  rw [← hsize, readPathRequest_counted start hpath, hvalid]

theorem Operation.Valid.parses {operation : Operation} (h : operation.Valid) :
    Parses operation.encode operation := by
  cases operation with
  | stat path =>
    exact .stat (readPathRequest_encoded 1 [squidFsOpStat] rfl (length_le_of_root h)
      (pathIsValid_root h))
  | list cursor path =>
    obtain ⟨h, hcursor⟩ := h
    have hpath := readPathRequest_encoded 3 ([squidFsOpList] ++ writeU16 cursor) rfl
      (length_le_of_root h) (pathIsValid_root h)
    have hread : readU16 (squidFsOpList :: (writeU16 cursor ++ countedText path)) 1 = cursor :=
      readU16_writeU16 [squidFsOpList] cursor (countedText path)
    have hparses : Parses (squidFsOpList :: (writeU16 cursor ++ countedText path))
        (.list (readU16 (squidFsOpList :: (writeU16 cursor ++ countedText path)) 1) path) :=
      .list (by simp [writeU16, countedText]) (hread.symm ▸ hcursor) hpath
    rw [hread] at hparses
    exact hparses
  | read offset maximumBytes path =>
    have hpath := readPathRequest_encoded 6 ([squidFsOpRead] ++ writeU32 offset ++ [maximumBytes])
      rfl h.length_le (h.pathIsValid_eq false)
    have hread : readU32 (squidFsOpRead :: (writeU32 offset ++ [maximumBytes] ++
        countedText path)) 1 = offset := by
      have hread := readU32_writeU32 [squidFsOpRead] offset ([maximumBytes] ++ countedText path)
      rwa [List.append_assoc, List.length_singleton, ← List.append_assoc (writeU32 offset)] at hread
    have hparses : Parses (squidFsOpRead :: (writeU32 offset ++ [maximumBytes] ++
        countedText path)) (.read (readU32 (squidFsOpRead :: (writeU32 offset ++ [maximumBytes] ++
          countedText path)) 1) maximumBytes path) :=
      .read (by simp [writeU32, countedText]) hpath
    rw [hread] at hparses
    exact hparses
  | write offset flags path data =>
    obtain ⟨hpath, hflags, hdata⟩ := h
    have hcount : data.length = (UInt8.ofNat data.length).toNat :=
      (UInt8.toNat_ofNat_of_lt' hdata).symm
    have hparse := parseWrite_request offset flags hpath.length_le hcount
    rw [if_pos hflags, hpath.pathIsValid_eq false] at hparse
    exact .write hparse
  | mkdir path =>
    exact .mkdir (readPathRequest_encoded 1 [squidFsOpMkdir] rfl h.length_le
      (h.pathIsValid_eq false))
  | delete path =>
    exact .delete (readPathRequest_encoded 1 [squidFsOpDelete] rfl h.length_le
      (h.pathIsValid_eq false))
  | rename oldPath newPath =>
    obtain ⟨hold, hnew⟩ := h
    have hparse := parseRename_request hold.length_le hnew.length_le hold.size.1
    rw [hold.pathIsValid_eq false, hnew.pathIsValid_eq false] at hparse
    exact .rename hparse

theorem readPathRequest_eq_some (h : readPathRequest request offset allowEmpty = some path) :
    request.drop offset = countedText path ∧ (path = [] ∧ allowEmpty = true ∨ ValidPath path) := by
  obtain ⟨hpath, hvalid⟩ := readPathRequest_spec h
  refine ⟨?_, hvalid⟩
  rw [readPathRequest] at h
  split at h
  · cases h
  · rename_i hsize
    split at h
    · cases h
    · rename_i hcount
      rw [not_not] at hcount
      have hlength : path.length = (byteAt request offset).toNat := by
        rw [hpath, List.length_drop, hcount]
        omega
      rw [byteAt_cons_drop (by omega), ← hpath, countedText, hlength, UInt8.ofNat_toNat]

theorem pathIsValid_false (h : path = [] ∧ false = true ∨ ValidPath path) : ValidPath path :=
  h.resolve_left fun hempty => Bool.false_ne_true hempty.2

theorem pathIsValid_true (h : path = [] ∧ true = true ∨ ValidPath path) :
    path = [] ∨ ValidPath path := h.imp_left And.left

theorem parseWrite_eq_some (h : parseWrite request = some fields) :
    request.drop 1 = writeU32 fields.offset ++ [fields.flags] ++ countedText fields.path ++
        countedText fields.data ∧
      ValidPath fields.path ∧
      fields.flags &&& ~~~(squidFsWriteCreate ||| squidFsWriteTruncate) = 0 ∧
      fields.data.length < 256 := by
  rw [parseWrite] at h
  split at h
  · cases h
  rename_i hsize
  dsimp only at h
  split at h
  · cases h
  rename_i hflags
  split at h
  · cases h
  rename_i path hpath
  split at h
  · cases h
  rename_i hcursor
  split at h
  · cases h
  rename_i hcount
  cases h
  rw [not_or, not_not] at hflags
  rw [not_not] at hcount
  obtain ⟨rfl, hvalid⟩ := pathIsValid_nonempty hpath
  refine ⟨?_, hvalid, hflags.1, ?_⟩
  · have hflag : request.drop 5 = byteAt request 5 :: request.drop 6 := byteAt_cons_drop (by omega)
    have hfields : request.drop 6 = countedText ((request.drop 7).take (byteAt request 6).toNat) ++
        request.drop (7 + (byteAt request 6).toNat) := drop_counted (by omega)
    rw [writeU32_readU32 (by omega), hflag, hfields, drop_last_counted (by omega) hcount]
    simp only [List.append_assoc, List.cons_append, List.nil_append]
  · rw [List.length_drop, ← hcount]
    exact UInt8.toNat_lt _

theorem parseRename_eq_some (h : parseRename request = some (oldPath, newPath)) :
    request.drop 1 = countedText oldPath ++ countedText newPath ∧ ValidPath oldPath ∧
      ValidPath newPath := by
  rw [parseRename] at h
  split at h
  · cases h
  rename_i hsize
  dsimp only at h
  split at h
  · cases h
  rename_i hfits
  split at h
  · cases h
  rename_i old hold
  split at h
  · cases h
  rename_i hcursor
  split at h
  · cases h
  rename_i hcount
  split at h
  · cases h
  rename_i new hnew
  cases h
  rw [not_not] at hcount
  obtain ⟨rfl, hvalid⟩ := pathIsValid_nonempty hold
  obtain ⟨rfl, hvalid'⟩ := pathIsValid_nonempty hnew
  refine ⟨?_, hvalid, hvalid'⟩
  rw [drop_counted (by omega), drop_last_counted (by omega) hcount]

/-- What can be read is the encoding of a valid operation. -/
theorem Parses.encoded (h : Parses request operation) :
    operation.Valid ∧ request = operation.encode := by
  cases h with
  | stat hpath =>
    obtain ⟨hrest, hvalid⟩ := readPathRequest_eq_some hpath
    exact ⟨pathIsValid_true hvalid, congrArg _ hrest⟩
  | @list rest path hsize hcursor hpath =>
    obtain ⟨hrest, hvalid⟩ := readPathRequest_eq_some hpath
    refine ⟨⟨pathIsValid_true hvalid, hcursor⟩, congrArg (squidFsOpList :: ·) ?_⟩
    have hfields : (squidFsOpList :: rest).drop 1 =
        writeU16 (readU16 (squidFsOpList :: rest) 1) ++ (squidFsOpList :: rest).drop 3 :=
      writeU16_readU16 (by omega)
    rw [hrest] at hfields
    exact hfields
  | @read rest path hsize hpath =>
    obtain ⟨hrest, hvalid⟩ := readPathRequest_eq_some hpath
    refine ⟨pathIsValid_false hvalid, congrArg (squidFsOpRead :: ·) ?_⟩
    have hfields : (squidFsOpRead :: rest).drop 1 =
        writeU32 (readU32 (squidFsOpRead :: rest) 1) ++ (squidFsOpRead :: rest).drop 5 :=
      writeU32_readU32 (by omega)
    have hmaximum : (squidFsOpRead :: rest).drop 5 = [byteAt (squidFsOpRead :: rest) 5] ++
        (squidFsOpRead :: rest).drop 6 := byteAt_cons_drop (by omega)
    rw [hmaximum, hrest, ← List.append_assoc] at hfields
    exact hfields
  | write hfields =>
    obtain ⟨hrest, hpath, hflags, hdata⟩ := parseWrite_eq_some hfields
    exact ⟨⟨hpath, hflags, hdata⟩, congrArg _ hrest⟩
  | mkdir hpath =>
    obtain ⟨hrest, hvalid⟩ := readPathRequest_eq_some hpath
    exact ⟨pathIsValid_false hvalid, congrArg _ hrest⟩
  | delete hpath =>
    obtain ⟨hrest, hvalid⟩ := readPathRequest_eq_some hpath
    exact ⟨pathIsValid_false hvalid, congrArg _ hrest⟩
  | rename hpaths =>
    obtain ⟨hrest, hold, hnew⟩ := parseRename_eq_some hpaths
    exact ⟨⟨hold, hnew⟩, congrArg _ hrest⟩

/-- The language of the requests: exactly the encodings of valid operations are read, each as the
operation it encodes. -/
theorem parseOperation_eq_some_iff :
    parseOperation request = some operation ↔ operation.Valid ∧ request = operation.encode := by
  constructor
  · intro h
    exact (parses_of_eq_some h).encoded
  · rintro ⟨hvalid, rfl⟩
    exact hvalid.parses.eq_some

theorem Operation.encode_injective {left right : Operation} (hleft : left.Valid)
    (hright : right.Valid) (h : left.encode = right.encode) : left = right := by
  have hsame := parseOperation_eq_some_iff.2 ⟨hleft, h.symm⟩
  rw [parseOperation_eq_some_iff.2 ⟨hright, rfl⟩] at hsame
  exact (Option.some.inj hsame).symm

section
variable {fuel : Nat} {context : SquidFsContext} {responseCapacity : Nat}

theorem openDirectoryPath_makesCall (hroot : context.rootFd ≠ none) (path : Name) :
    (openDirectoryPath context path).MakesCall := by
  refine Program.MakesCall.bind ?_ _
  rw [openRootCopy]
  split
  · rename_i hnone
    exact absurd hnone hroot
  · trivial

theorem openParentDirectory_makesCall (hroot : context.rootFd ≠ none) (hpath : ValidPath path) :
    (openParentDirectory context path).MakesCall := by
  rw [openParentDirectory, if_neg (List.ne_nil_of_length_pos hpath.size.1)]
  exact (openDirectoryPath_makesCall hroot _).bind _

theorem Operation.Valid.perform_makesCall {operation : Operation} (h : operation.Valid)
    (hroot : context.rootFd ≠ none) :
    (operation.perform fuel context responseCapacity).MakesCall := by
  cases operation with
  | stat path =>
    change (performStat context path responseCapacity).MakesCall
    rw [performStat]
    split
    · split
      · rename_i hnone
        exact absurd hnone hroot
      · trivial
    · rename_i hne
      exact (openParentDirectory_makesCall hroot (h.resolve_left hne)).bind _
  | list cursor path => exact (openDirectoryPath_makesCall hroot path).bind _
  | read offset maximumBytes path => exact (openParentDirectory_makesCall hroot h).bind _
  | write offset flags path data => exact (openParentDirectory_makesCall hroot h.1).bind _
  | mkdir path => exact (openParentDirectory_makesCall hroot h).bind _
  | delete path => exact (openParentDirectory_makesCall hroot h).bind _
  | rename oldPath newPath => exact (openParentDirectory_makesCall hroot h.1).bind _

theorem Parses.opcode_eq (h : Parses (opcode :: rest) operation) : operation.opcode = opcode := by
  cases h with
  | stat _ => rfl
  | list _ _ _ => rfl
  | read _ _ => rfl
  | write _ => rfl
  | mkdir _ => rfl
  | delete _ => rfl
  | rename _ => rfl

theorem handleList_refused (fuel : Nat) (context : SquidFsContext) (responseCapacity : Nat)
    (h : ¬ request.length < 4 → ∀ path, readPathRequest request 3 true = some path →
      readU16 request 1 = squidFsCursorEnd) :
    handleList fuel context opcode request responseCapacity =
      .pure (writeResponse opcode .badRequest responseCapacity) := by
  rw [handleList]
  split
  · rfl
  · rename_i path hpath
    split at hpath
    · cases hpath
    · rename_i hsize
      dsimp only
      rw [if_pos (.inl (h hsize path hpath))]
      rfl

theorem handleRead_refused (context : SquidFsContext) (responseCapacity : Nat)
    (h : ¬ request.length < 7 → ∀ path, readPathRequest request 6 false ≠ some path) :
    handleRead context opcode request responseCapacity =
      .pure (writeResponse opcode .badRequest responseCapacity) := by
  rw [handleRead]
  split
  · rfl
  · rename_i path hpath
    split at hpath
    · cases hpath
    · rename_i hsize
      exact absurd hpath (h hsize path)

/-- A request that no operation can be read from, or that changes what may only be read, gets a
status and nothing is done. -/
theorem handleSquidFsRequest_refused (hroot : context.rootFd ≠ none)
    (hcapacity : 2 ≤ responseCapacity) (hother : opcode :: rest ≠ [squidFsOpCapabilities])
    (h : ∀ operation, Parses (opcode :: rest) operation →
      Mutating operation.opcode ∧ context.readOnly = true) :
    handleSquidFsRequest fuel context (opcode :: rest) responseCapacity =
      .pure (writeResponse opcode
        (if Mutating opcode ∧ context.readOnly = true then .readOnly else .badRequest)
        responseCapacity) := by
  have hguard : ¬ (context.rootFd = none ∨ responseCapacity < 2) := by
    rintro (hnone | hsmall)
    · exact hroot hnone
    · omega
  by_cases hread : Mutating opcode ∧ context.readOnly = true
  · obtain ⟨hmutating, hreadOnly⟩ := hread
    rw [if_pos ⟨hmutating, hreadOnly⟩, handleSquidFsRequest, if_neg hguard]
    rcases hmutating with rfl | rfl | rfl | rfl
    · change handleWrite context squidFsOpWrite _ responseCapacity = _
      rw [handleWrite, if_pos hreadOnly]
      rfl
    · change handleMkdirOrDelete context squidFsOpMkdir _ responseCapacity = _
      rw [handleMkdirOrDelete, if_pos hreadOnly]
      rfl
    · change handleMkdirOrDelete context squidFsOpDelete _ responseCapacity = _
      rw [handleMkdirOrDelete, if_pos hreadOnly]
      rfl
    · change handleRename context squidFsOpRename _ responseCapacity = _
      rw [handleRename, if_pos hreadOnly]
      rfl
  · have hnone : ∀ operation, ¬ Parses (opcode :: rest) operation := by
      intro operation hparses
      apply hread
      rw [← hparses.opcode_eq]
      exact h operation hparses
    have hwritable : Mutating opcode → ¬ context.readOnly = true :=
      fun hmutating hreadOnly => hread ⟨hmutating, hreadOnly⟩
    rw [if_neg hread, handleSquidFsRequest, if_neg hguard]
    split
    · rename_i hop
      subst hop
      rw [if_pos]
      · rfl
      · intro hsize
        apply hother
        rw [List.length_eq_zero_iff.1 (Nat.succ.inj hsize)]
    split
    · rename_i hop
      subst hop
      have hpath : readPathRequest (squidFsOpStat :: rest) 1 true = none :=
        Option.eq_none_iff_forall_ne_some.2 fun path hpath => hnone _ (.stat hpath)
      rw [handleStat, hpath]
      rfl
    split
    · rename_i hop
      subst hop
      exact handleList_refused fuel context responseCapacity fun hsize path hpath => by
        by_contra hcursor
        exact hnone _ (.list hsize hcursor hpath)
    split
    · rename_i hop
      subst hop
      exact handleRead_refused context responseCapacity fun hsize path hpath =>
        hnone _ (.read hsize hpath)
    split
    · rename_i hop
      subst hop
      have hfields : parseWrite (squidFsOpWrite :: rest) = none :=
        Option.eq_none_iff_forall_ne_some.2 fun fields hfields => hnone _ (.write hfields)
      rw [handleWrite, if_neg (hwritable (by decide)), hfields]
      rfl
    split
    · rename_i hop
      have hpath : readPathRequest (opcode :: rest) 1 false = none := by
        refine Option.eq_none_iff_forall_ne_some.2 fun path hpath => ?_
        rcases hop with rfl | rfl
        · exact hnone _ (.mkdir hpath)
        · exact hnone _ (.delete hpath)
      have hmutating : Mutating opcode := by
        rcases hop with rfl | rfl
        · decide
        · decide
      rw [handleMkdirOrDelete, if_neg (hwritable hmutating), hpath]
      rfl
    split
    · rename_i hop
      subst hop
      have hpaths : parseRename (squidFsOpRename :: rest) = none :=
        Option.eq_none_iff_forall_ne_some.2 fun paths hpaths => hnone _ (.rename hpaths)
      rw [handleRename, if_neg (hwritable (by decide)), hpaths]
      rfl
    · rfl

theorem handleSquidFsRequest_silent (h : request = [] ∨ context.rootFd = none) :
    handleSquidFsRequest fuel context request responseCapacity = .pure none := by
  cases request with
  | nil => rfl
  | cons opcode rest =>
    rw [handleSquidFsRequest, if_pos (.inl (h.resolve_left (List.cons_ne_nil _ _)))]
    rfl

end

/-- What a handler of requests accepts, and what it does with a byte string. -/
structure AcceptsLanguage (fuel : Nat) (context : SquidFsContext) (responseCapacity : Nat)
    (request : List UInt8) : Prop where
  /-- It goes to the file system exactly for the encodings of operations. -/
  calls : (handleSquidFsRequest fuel context request responseCapacity).MakesCall ↔
    context.rootFd ≠ none ∧ ∃ operation : Operation, operation.Admitted context ∧
      request = operation.encode
  /-- What it does there depends on the operation alone. -/
  performs : context.rootFd ≠ none → ∀ operation : Operation, operation.Admitted context →
    request = operation.encode →
    handleSquidFsRequest fuel context request responseCapacity =
      operation.perform fuel context responseCapacity
  /-- Everything else is answered with a status. -/
  refuses : context.rootFd ≠ none → (¬ ∃ operation : Operation, operation.Admitted context ∧
      request = operation.encode) → request ≠ [squidFsOpCapabilities] →
    ∀ opcode rest, request = opcode :: rest →
      handleSquidFsRequest fuel context request responseCapacity =
        .pure (some [opcode ||| squidFsResponseBit,
          if Mutating opcode ∧ context.readOnly = true then SquidFsStatus.readOnly.code
          else SquidFsStatus.badRequest.code])
  silent : request = [] ∨ context.rootFd = none →
    handleSquidFsRequest fuel context request responseCapacity = .pure none
  unambiguous : ∀ left right : Operation, left.Valid → right.Valid → request = left.encode →
    request = right.encode → left = right

theorem handleSquidFsRequest_language (fuel : Nat) (context : SquidFsContext)
    (responseCapacity : Nat) (hcapacity : 11 ≤ responseCapacity) (request : List UInt8) :
    AcceptsLanguage fuel context responseCapacity request := by
  have hperforms : context.rootFd ≠ none → ∀ operation : Operation, operation.Admitted context →
      request = operation.encode →
      handleSquidFsRequest fuel context request responseCapacity =
        operation.perform fuel context responseCapacity := by
    rintro hroot operation ⟨hvalid, hwritable⟩ rfl
    exact hvalid.parses.handle_eq hroot (by omega) (fun _ => hcapacity) hwritable
  have hrefuses : context.rootFd ≠ none → (¬ ∃ operation : Operation,
      operation.Admitted context ∧ request = operation.encode) →
      request ≠ [squidFsOpCapabilities] → ∀ opcode rest, request = opcode :: rest →
      handleSquidFsRequest fuel context request responseCapacity =
        .pure (writeResponse opcode
          (if Mutating opcode ∧ context.readOnly = true then .readOnly else .badRequest)
          responseCapacity) := by
    rintro hroot hnone hother opcode rest rfl
    refine handleSquidFsRequest_refused hroot (by omega) hother ?_
    intro operation hparses
    by_contra hwritable
    obtain ⟨hvalid, hrequest⟩ := hparses.encoded
    exact hnone ⟨operation, ⟨hvalid, hwritable⟩, hrequest⟩
  constructor
  case performs => exact hperforms
  case silent => exact handleSquidFsRequest_silent
  case calls =>
    constructor
    · intro hcalls
      have hroot : context.rootFd ≠ none := by
        intro hnone
        rw [handleSquidFsRequest_silent (.inr hnone)] at hcalls
        exact hcalls
      refine ⟨hroot, ?_⟩
      by_contra hnone
      cases request with
      | nil => exact hcalls
      | cons opcode rest =>
        by_cases hother : opcode :: rest = [squidFsOpCapabilities]
        · rw [hother, handleSquidFsRequest, if_neg] at hcalls
          · exact hcalls
          · exact not_or.2 ⟨hroot, by omega⟩
        · rw [hrefuses hroot hnone hother opcode rest rfl] at hcalls
          exact hcalls
    · rintro ⟨hroot, operation, hadmitted, hrequest⟩
      rw [hperforms hroot operation hadmitted hrequest]
      exact hadmitted.1.perform_makesCall hroot
  case refuses =>
    intro hroot hnone hother opcode rest hrequest
    rw [hrefuses hroot hnone hother opcode rest hrequest, writeResponse, if_neg (by omega)]
    split
    · rfl
    · rfl
  case unambiguous =>
    intro left right hleft hright h h'
    exact Operation.encode_injective hleft hright (h.symm.trans h')

/-- A WRITE of two bytes to the file `a`. -/
theorem handleSquidFsRequest_language_write :
    AcceptsLanguage 1 ⟨some 3, false⟩ 255 [0x04, 0, 0, 0, 0, 0, 1, 0x61, 2, 7, 8] :=
  handleSquidFsRequest_language 1 ⟨some 3, false⟩ 255 (by decide) _

/-- The empty byte string gets no answer at all. -/
theorem empty_request_unanswered :
    ¬ ∀ (context : SquidFsContext) (request : List UInt8), (¬ ∃ operation : Operation,
        operation.Admitted context ∧ request = operation.encode) →
      request ≠ [squidFsOpCapabilities] →
      ∃ opcode status, (status = SquidFsStatus.badRequest ∨ status = SquidFsStatus.readOnly) ∧
        handleSquidFsRequest 1 context request 255 = .pure (writeResponse opcode status 255) := by
  intro h
  obtain ⟨opcode, status, -, hreply⟩ := h ⟨some 3, false⟩ [] (by
    rintro ⟨operation, -, hempty⟩
    cases hempty) (by decide)
  cases hreply

end SquidServer.Filesystem

import SquidServer.FilesystemConfinement

namespace Posix
open Interaction
set_option autoImplicit true

/-- The directory a real directory has under a name, as opening it without following a link
finds it. -/
def Fs.openDirectory (fs : Fs) (dir : Ino) (name : Name) : Except Errno Ino :=
  match fs.entries dir with
  | none => .error .enotdir
  | some es =>
    match lookupEntry name es with
    | none => .error .enoent
    | some n =>
      match fs.node n with
      | none => .error .enoent
      | some (.directory _) => .ok n
      | some _ => .error .enotdir

/-- The directory that real directory entries with the given names lead to. -/
def Fs.descend (fs : Fs) : Ino → List Name → Except Errno Ino
  | dir, [] => .ok dir
  | dir, name :: rest =>
    match fs.openDirectory dir name with
    | .error e => .error e
    | .ok next => fs.descend next rest

/-- The metadata a directory has under a name, without following a link. -/
def Fs.statName (fs : Fs) (dir : Ino) (name : Name) : Except Errno Stat :=
  match fs.lookup dir name with
  | some n => fs.stat n
  | none => .error .enoent

/-- The contents of a directory: its names in order, with the metadata under each. -/
def Fs.listing (fs : Fs) (dir : Ino) : Except Errno (List (Name × Except Errno Stat)) :=
  match fs.entries dir with
  | none => .error .enotdir
  | some es => .ok (es.map fun e => (e.name, fs.statName dir e.name))

/-- Descriptor `fd` stands for description `i`, which is `f`. -/
def Kernel.IsOpen (k : Kernel) (fd : Fd) (i : Nat) (f : OpenFile) : Prop :=
  k.desc fd = some i ∧ k.files[i]? = some f

theorem Kernel.IsOpen.ino {k : Kernel} (h : k.IsOpen fd i f) : k.ino fd = some f.ino :=
  Kernel.ino_eq_some.2 ⟨i, f, h.1, h.2, rfl⟩

theorem Kernel.IsOpen.file {k : Kernel} (h : k.IsOpen fd i f) : k.file fd = some f := by
  rw [Kernel.file, h.1]
  exact h.2

theorem Kernel.IsOpen.ne_free {k : Kernel} (h : k.IsOpen fd i f) : fd ≠ k.freeFd := by
  intro he
  subst he
  cases k.desc_freeFd.symm.trans h.1

theorem Kernel.IsOpen.closeFd {k : Kernel} (h : k.IsOpen fd i f) (hne : fd ≠ fd') :
    (k.closeFd fd').IsOpen fd i f := by
  refine ⟨?_, h.2⟩
  rw [Kernel.desc_closeFd, if_neg hne]
  exact h.1

theorem Kernel.IsOpen.dup {k : Kernel} (h : k.IsOpen fd i f) :
    ∃ k', k.dup fd = (.ok k.freeFd, k') ∧ k'.fs = k.fs ∧ k'.IsOpen k.freeFd i f ∧
      k'.IsOpen fd i f := by
  have hcall : k.dup fd = (.ok k.freeFd, k.install i (desc_lt h.1)) := by
    rw [Kernel.dup]
    split
    · rename_i hn
      cases hn.symm.trans h.1
    · rename_i j hj
      cases hj.symm.trans h.1
      rfl
  refine ⟨_, hcall, rfl, ⟨?_, h.2⟩, ⟨?_, h.2⟩⟩
  · rw [Kernel.desc_install, if_pos rfl]
  · rw [Kernel.desc_install, if_neg h.ne_free]
    exact h.1

theorem Kernel.isOpen_openFile (k : Kernel) (f : OpenFile) :
    (k.openFile f).IsOpen k.freeFd k.files.length f := by
  constructor
  · rw [Kernel.desc_openFile, if_pos rfl]
  · exact List.getElem?_concat_length

/-- Where one component leads. -/
def Fs.find (fs : Fs) (dir : Ino) (name : Name) : Found :=
  match fs.entries dir with
  | none => .error .enotdir
  | some es =>
    match lookupEntry name es with
    | none => .missing dir name
    | some n => .object n

theorem Kernel.resolve_found {k : Kernel} (hn : IsComponent name) (hfd : k.ino fd = some dir) :
    (k.resolve fd name false).found = k.fs.find dir name := by
  rw [Kernel.resolve_component hn hfd, show pathSteps = 4095 + 1 from rfl, walk, Fs.find]
  cases k.fs.entries dir with
  | none => rfl
  | some es =>
    dsimp only
    cases lookupEntry name es with
    | none => rfl
    | some n =>
      dsimp only
      split <;> rfl

theorem Kernel.openat_directory {k : Kernel} (flags : OpenFlags) (mode : Nat)
    (hn : IsComponent name) (hfd : k.ino fd = some dir)
    (hflags : flags.nofollow = true ∧ flags.directory = true ∧ flags.write = false ∧
      flags.creat = false) :
    k.openat fd name flags mode = match k.fs.openDirectory dir name with
      | .error e => (.error e, k)
      | .ok n => (.ok k.freeFd, k.openFile ⟨n, 0, false⟩) := by
  obtain ⟨hnofollow, hdirectory, hwrite, hcreat⟩ := hflags
  rw [Kernel.openat, hnofollow, Bool.not_true, Kernel.resolve_found hn hfd, Fs.find,
    Fs.openDirectory]
  cases k.fs.entries dir with
  | none => rfl
  | some es =>
    dsimp only
    cases lookupEntry name es with
    | none => simp [hcreat]
    | some n =>
      dsimp only
      cases hnode : k.fs.node n with
      | none => simp [Kernel.openObject, hnode]
      | some node => cases node <;> simp [Kernel.openObject, hnode, hdirectory, hwrite, hcreat]

theorem Kernel.fstatat_name {k : Kernel} (hn : IsComponent name) (hfd : k.ino fd = some dir)
    (hes : k.fs.entries dir = some es) :
    k.fstatat fd name true = k.fs.statName dir name := by
  rw [Kernel.fstatat, Bool.not_true, Kernel.resolve_found hn hfd, Fs.find, Fs.statName, Fs.lookup,
    hes, Option.bind_some]
  dsimp only
  cases lookupEntry name es <;> rfl

theorem Kernel.IsOpen.advance {k : Kernel} (h : k.IsOpen fd i f) :
    (k.advance i).IsOpen fd i { f with offset := f.offset + 1 } := by
  refine ⟨h.1, ?_⟩
  rw [Kernel.advance, List.getElem?_modify, h.2]
  simp

theorem Kernel.IsOpen.readdir {k : Kernel} (h : k.IsOpen fd i f)
    (hes : k.fs.entries f.ino = some es) :
    k.readdir fd = match es.drop f.offset with
      | [] => (.ok none, k)
      | e :: _ => (.ok (some e.name), k.advance i) := by
  rw [Kernel.readdir, h.1, h.file]
  dsimp only
  rw [hes]
  dsimp only
  cases hdrop : es.drop f.offset with
  | nil => rw [List.getElem?_eq_none (List.drop_eq_nil_iff.1 hdrop)]
  | cons e rest =>
    have hget : es[f.offset]? = some e := by
      rw [← List.head?_drop, hdrop]
      rfl
    rw [hget]

end Posix

namespace SquidServer.Filesystem
open Interaction Posix Wire
set_option autoImplicit true

theorem run_bind (k : Kernel) (p : Program Syscalls α) (g : α → Program Syscalls β) :
    k.run (p.bind g) = (k.run p).2.run (g (k.run p).1) := Program.run_bind ..

theorem run_ask_bind (k : Kernel) (op : Call) (g : op.Ans → Program Syscalls β) :
    k.run ((Program.ask (E := Syscalls) op).bind g) = (k.call op).2.run (g (k.call op).1) := rfl

theorem openComponents_run {k : Kernel} (h : k.IsOpen fd i f) (hc : ∀ c ∈ comps, IsComponent c)
    (hnew : comps = [] → f = ⟨f.ino, 0, false⟩) :
    match k.fs.descend f.ino comps with
    | .error e => (k.run (openComponents fd comps)).1 = .error e
    | .ok n => ∃ fd' i' k', k.run (openComponents fd comps) = (.ok fd', k') ∧
        k'.IsOpen fd' i' ⟨n, 0, false⟩ ∧ k'.fs = k.fs := by
  induction comps generalizing k fd i f with
  | nil =>
    have hf := hnew rfl
    rw [Fs.descend]
    rw [hf] at h
    exact ⟨fd, i, k, rfl, h, rfl⟩
  | cons c rest ih =>
    have hopen := Kernel.openat_directory directoryFlags 0 (hc c List.mem_cons_self) h.ino
      ⟨rfl, rfl, rfl, rfl⟩
    rw [Fs.descend, openComponents, Posix.openat, Program.bind_eq, run_ask_bind, Kernel.call, hopen]
    cases hd : k.fs.openDirectory f.ino c with
    | error e => rfl
    | ok n =>
      have h' := (k.isOpen_openFile ⟨n, 0, false⟩).closeFd h.ne_free.symm
      exact ih h' (fun c' hc' => hc c' (List.mem_cons_of_mem c hc')) (fun _ => rfl)

/-- One turn of the loop of `handle_list`, on a name and the metadata under it. -/
def listTurn (cursor : UInt16) (responseCapacity : Nat) (page : ListPage)
    (entry : Name × Except Errno Stat) : ListPage ⊕ Except SquidFsStatus (UInt16 × ListPage) :=
  if entry.1 = dot ∨ entry.1 = dotdot then .inl page
  else if page.entryIndex < cursor then .inl { page with entryIndex := page.entryIndex + 1 }
  else if 255 < entry.1.length ∨ 249 < 6 + entry.1.length then .inr (.error .tooLarge)
  else
    match entry.2 with
    | .error e => .inr (.error (statusFromErrno e))
    | .ok information =>
      if responseCapacity - (squidFsPageHeaderSize + page.records.length) < 6 + entry.1.length then
        if page.entryCount = 0 then .inr (.error .tooLarge) else .inr (.ok (page.entryIndex, page))
      else .inl {
        entryIndex := page.entryIndex + 1
        entryCount := page.entryCount + 1
        records := page.records ++ listRecord entry.1 information }

/-- The loop of `handle_list` over the names that are left, and the names it has not read. -/
def listRun (cursor : UInt16) (responseCapacity : Nat) : Nat → List (Name × Except Errno Stat) →
    ListPage → Option (Except SquidFsStatus (UInt16 × ListPage)) × List (Name × Except Errno Stat)
  | 0, names, _ => (none, names)
  | _ + 1, [], page => (some (.ok (squidFsCursorEnd, page)), [])
  | n + 1, entry :: names, page =>
    match listTurn cursor responseCapacity page entry with
    | .inl page' => listRun cursor responseCapacity n names page'
    | .inr result => (some result, names)

section
variable {k : Kernel} {fd : Fd} {i : Nat} {f : OpenFile} {es : List Entry}

theorem listEntry_run (h : k.IsOpen fd i f) (hes : k.fs.entries f.ino = some es)
    (cursor : UInt16) (responseCapacity : Nat) (page : ListPage) :
    k.run (listEntry fd cursor responseCapacity page) = match es.drop f.offset with
      | [] => (.inr (.ok (squidFsCursorEnd, page)), k)
      | e :: _ => (listTurn cursor responseCapacity page (e.name, k.fs.statName f.ino e.name),
          k.advance i) := by
  rw [listEntry, Posix.readdir, Program.bind_eq, run_ask_bind, Kernel.call, h.readdir hes]
  cases es.drop f.offset with
  | nil => rfl
  | cons e rest =>
    have hstat : (k.advance i).fstatat fd e.name true = k.fs.statName f.ino e.name :=
      Kernel.fstatat_name e.component h.advance.ino hes
    dsimp only
    rw [listTurn]
    split
    · rfl
    · split
      · rfl
      · split
        · rfl
        · rw [Posix.fstatat, Program.bind_eq, run_ask_bind, Kernel.call, hstat]
          cases k.fs.statName f.ino e.name with
          | error e => rfl
          | ok information =>
            dsimp only
            split
            · split <;> rfl
            · rfl

theorem listLoop_run (h : k.IsOpen fd i f) (hes : k.fs.entries f.ino = some es)
    (cursor : UInt16) (responseCapacity fuel : Nat) (page : ListPage) :
    ∃ k' f', k.run (Program.loop (listEntry fd cursor responseCapacity) fuel page) =
        ((listRun cursor responseCapacity fuel
          ((es.drop f.offset).map fun e => (e.name, k.fs.statName f.ino e.name)) page).1, k') ∧
      k'.fs = k.fs ∧ (∀ fd', k'.desc fd' = k.desc fd') ∧ k'.IsOpen fd i f' ∧ f'.ino = f.ino ∧
      (es.drop f'.offset).map (fun e => (e.name, k.fs.statName f.ino e.name)) =
        (listRun cursor responseCapacity fuel
          ((es.drop f.offset).map fun e => (e.name, k.fs.statName f.ino e.name)) page).2 := by
  induction fuel generalizing k f page with
  | zero => exact ⟨k, f, rfl, rfl, fun _ => rfl, h, rfl, rfl⟩
  | succ n ih =>
    have hrun := listEntry_run h hes cursor responseCapacity page
    rw [Program.loop, run_bind, hrun]
    cases hdrop : es.drop f.offset with
    | nil => exact ⟨k, f, rfl, rfl, fun _ => rfl, h, rfl, by rw [hdrop]; rfl⟩
    | cons e rest =>
      have hrest : es.drop (f.offset + 1) = rest := by
        rw [← List.drop_drop, hdrop]
        rfl
      rw [List.map_cons, listRun]
      dsimp only
      cases listTurn cursor responseCapacity page (e.name, k.fs.statName f.ino e.name) with
      | inl page' =>
        have hnext := ih (f := { f with offset := f.offset + 1 }) h.advance hes page'
        dsimp only at hnext ⊢
        rw [hrest] at hnext
        exact hnext
      | inr result => exact ⟨_, _, rfl, rfl, fun _ => rfl, h.advance, rfl, by rw [← hrest]⟩

end

/-- The reply to a LIST request for a directory with the given contents, when reading starts
at `offset`. -/
def listReply (opcode : UInt8) (cursor : UInt16) (responseCapacity fuel : Nat)
    (contents : Except Errno (List (Name × Except Errno Stat))) (offset : Nat) : Response :=
  match contents with
  | .error e => writeResponse opcode (statusFromErrno e) responseCapacity
  | .ok names =>
    match (listRun cursor responseCapacity fuel (names.drop offset) ⟨0, 0, []⟩).1 with
    | none => none
    | some (.error status) => writeResponse opcode status responseCapacity
    | some (.ok (nextCursor, page)) => some (listResponse opcode nextCursor page)

/-- The contents of the directory that names lead to from the root. -/
def contentsOf (fs : Fs) (root : Ino) (comps : List Name) :
    Except Errno (List (Name × Except Errno Stat)) :=
  match fs.descend root comps with
  | .error e => .error e
  | .ok dir => fs.listing dir

/-- The part of `handle_list` after the directory has been opened. -/
def listDirectory (fuel : Nat) (opcode : UInt8) (cursor : UInt16) (responseCapacity : Nat)
    (directoryFd : Fd) : Program Syscalls Response := do
  match ← fdopendir directoryFd with
  | .error e =>
    close directoryFd
    return writeResponse opcode (statusFromErrno e) responseCapacity
  | .ok () =>
    match ← Program.loop (listEntry directoryFd cursor responseCapacity) fuel ⟨0, 0, []⟩ with
    | none => return none
    | some (.error status) =>
      closedir directoryFd
      return writeResponse opcode status responseCapacity
    | some (.ok (nextCursor, page)) =>
      closedir directoryFd
      return some (listResponse opcode nextCursor page)

section
variable {k : Kernel} {context : SquidFsContext} {rootFd fd : Fd} {i : Nat} {f : OpenFile}

theorem handleList_eq (hpath : readPathRequest request 3 true = some path)
    (hcursor : readU16 request 1 ≠ squidFsCursorEnd)
    (hcapacity : squidFsPageHeaderSize ≤ responseCapacity) :
    handleList fuel context opcode request responseCapacity =
      (openDirectoryPath context path).bind fun
        | .error e => .pure (writeResponse opcode (statusFromErrno e) responseCapacity)
        | .ok directoryFd =>
          listDirectory fuel opcode (readU16 request 1) responseCapacity directoryFd := by
  have hlength : ¬ request.length < 4 := by
    intro hlt
    rw [readPathRequest, if_pos (by omega)] at hpath
    cases hpath
  rw [handleList, if_neg hlength, hpath]
  dsimp only
  rw [if_neg (not_or.2 ⟨hcursor, Nat.not_lt.2 hcapacity⟩)]
  rfl

theorem listDirectory_run (h : k.IsOpen fd i f) (hlisting : k.fs.listing f.ino = .ok names)
    (opcode : UInt8) (cursor : UInt16) (responseCapacity fuel : Nat) :
    ∃ k' f', k.run (listDirectory fuel opcode cursor responseCapacity fd) =
        (listReply opcode cursor responseCapacity fuel (.ok names) f.offset, k') ∧
      k'.fs = k.fs ∧ (∀ fd', fd' ≠ fd → k'.desc fd' = k.desc fd') ∧
      k'.files[i]? = some f' ∧ f'.ino = f.ino ∧ names.drop f'.offset =
        (listRun cursor responseCapacity fuel (names.drop f.offset) ⟨0, 0, []⟩).2 := by
  rw [Fs.listing] at hlisting
  cases hes : k.fs.entries f.ino with
  | none =>
    rw [hes] at hlisting
    cases hlisting
  | some es =>
    rw [hes] at hlisting
    cases hlisting
    have hopendir : k.call (.fdopendir fd) = (.ok (), k) := by
      rw [Kernel.call, Kernel.fdopendir, h.ino]
      dsimp only
      rw [hes]
      rfl
    obtain ⟨k', f', hrun, hfs, hdesc, hopen, hino, hrest⟩ :=
      listLoop_run h hes cursor responseCapacity fuel ⟨0, 0, []⟩
    simp only [List.map_drop] at hrun hrest
    rw [listDirectory, Posix.fdopendir, Program.bind_eq, run_ask_bind, hopendir]
    dsimp only
    rw [Program.bind_eq, run_bind, hrun, listReply]
    dsimp only
    have hclosed : ∀ fd', fd' ≠ fd → (k'.closeFd fd).desc fd' = k.desc fd' := by
      intro fd' hne
      rw [Kernel.desc_closeFd, if_neg hne]
      exact hdesc fd'
    split
    · exact ⟨k', f', rfl, hfs, fun fd' _ => hdesc fd', hopen.2, hino, hrest⟩
    · exact ⟨k'.closeFd fd, f', rfl, hfs, hclosed, hopen.2, hino, hrest⟩
    · exact ⟨k'.closeFd fd, f', rfl, hfs, hclosed, hopen.2, hino, hrest⟩

theorem listDirectory_reply (h : k.IsOpen fd i f) (opcode : UInt8) (cursor : UInt16)
    (responseCapacity fuel : Nat) :
    (k.run (listDirectory fuel opcode cursor responseCapacity fd)).1 =
      listReply opcode cursor responseCapacity fuel (k.fs.listing f.ino) f.offset := by
  cases hlisting : k.fs.listing f.ino with
  | ok names =>
    obtain ⟨k', f', hrun, -⟩ := listDirectory_run h hlisting opcode cursor responseCapacity fuel
    rw [hrun]
  | error e =>
    have hopendir : k.call (.fdopendir fd) = (.error e, k) := by
      rw [Fs.listing] at hlisting
      rw [Kernel.call, Kernel.fdopendir, h.ino]
      cases hes : k.fs.entries f.ino with
      | some es =>
        rw [hes] at hlisting
        cases hlisting
      | none =>
        rw [hes] at hlisting
        cases hlisting
        simp [hes]
    rw [listDirectory, Posix.fdopendir, Program.bind_eq, run_ask_bind, hopendir]
    rfl

theorem openDirectoryPath_run (h : k.IsOpen rootFd i f) (hctx : context.rootFd = some rootFd)
    (hpath : readPathRequest request 3 true = some path) (hne : path ≠ []) :
    match k.fs.descend f.ino (components path) with
    | .error e => (k.run (openDirectoryPath context path)).1 = .error e
    | .ok n => ∃ fd' i' k', k.run (openDirectoryPath context path) = (.ok fd', k') ∧
        k'.IsOpen fd' i' ⟨n, 0, false⟩ ∧ k'.fs = k.fs := by
  have hvalid := (readPathRequest_spec hpath).2.resolve_left fun hn => hne hn.1
  obtain ⟨k₁, hdup, hfs, hcopy, -⟩ := h.dup
  have hcall : k.call (.dup rootFd) = (.ok k.freeFd, k₁) := hdup
  have hopen : k.run (openDirectoryPath context path) =
      k₁.run (openComponents k.freeFd (components path)) := by
    rw [openDirectoryPath, openRootCopy, hctx]
    dsimp only
    rw [Posix.dup, Program.bind_eq, run_ask_bind, hcall]
    dsimp only
    rw [if_neg hne]
  have hcomponents : ∀ c ∈ components path, IsComponent c := fun _ => isComponent_of_mem
  have hwalk := openComponents_run hcopy hcomponents
    (fun hnil => absurd hnil hvalid.components_ne_nil)
  rw [hfs] at hwalk
  rw [hopen]
  exact hwalk

/-- The reply for a directory below the root: a function of the request and of the contents
of the directory. -/
theorem handleList_below (h : k.IsOpen rootFd i f) (hctx : context.rootFd = some rootFd)
    (hpath : readPathRequest request 3 true = some path) (hne : path ≠ [])
    (hcursor : readU16 request 1 ≠ squidFsCursorEnd)
    (hcapacity : squidFsPageHeaderSize ≤ responseCapacity) :
    (k.run (handleList fuel context opcode request responseCapacity)).1 =
      listReply opcode (readU16 request 1) responseCapacity fuel
        (contentsOf k.fs f.ino (components path)) 0 := by
  have hwalk := openDirectoryPath_run h hctx hpath hne
  rw [handleList_eq hpath hcursor hcapacity, run_bind, contentsOf]
  cases hdescend : k.fs.descend f.ino (components path) with
  | error e =>
    rw [hdescend] at hwalk
    rw [hwalk]
    rfl
  | ok n =>
    rw [hdescend] at hwalk
    obtain ⟨fd', i', k₂, hrun, hisopen, hfs₂⟩ := hwalk
    rw [hrun]
    dsimp only
    rw [listDirectory_reply hisopen, hfs₂]

theorem handleList_fs (h : k.IsOpen rootFd i f) (hctx : context.rootFd = some rootFd)
    (hpath : readPathRequest request 3 true = some path) (hne : path ≠ [])
    (hcursor : readU16 request 1 ≠ squidFsCursorEnd)
    (hcapacity : squidFsPageHeaderSize ≤ responseCapacity)
    (hcontents : contentsOf k.fs f.ino (components path) = .ok names) :
    (k.run (handleList fuel context opcode request responseCapacity)).2.fs = k.fs := by
  have hwalk := openDirectoryPath_run h hctx hpath hne
  rw [contentsOf] at hcontents
  rw [handleList_eq hpath hcursor hcapacity, run_bind]
  cases hdescend : k.fs.descend f.ino (components path) with
  | error e =>
    rw [hdescend] at hcontents
    cases hcontents
  | ok n =>
    rw [hdescend] at hwalk hcontents
    obtain ⟨fd', i', k₂, hrun, hisopen, hfs₂⟩ := hwalk
    have hlisting : k₂.fs.listing n = .ok names := by
      rw [hfs₂]
      exact hcontents
    obtain ⟨k', f', hlist, hfs', -⟩ :=
      listDirectory_run hisopen hlisting opcode (readU16 request 1) responseCapacity fuel
    rw [hrun]
    dsimp only
    rw [hlist]
    exact hfs'.trans hfs₂

/-- The root itself is listed from wherever its description was left. -/
theorem handleList_root (h : k.IsOpen rootFd i f) (hctx : context.rootFd = some rootFd)
    (hpath : readPathRequest request 3 true = some []) (hlisting : k.fs.listing f.ino = .ok names)
    (hcursor : readU16 request 1 ≠ squidFsCursorEnd) (fuel : Nat) (opcode : UInt8)
    (hcapacity : squidFsPageHeaderSize ≤ responseCapacity) :
    ∃ k' f', k.run (handleList fuel context opcode request responseCapacity) =
        (listReply opcode (readU16 request 1) responseCapacity fuel (.ok names) f.offset, k') ∧
      k'.fs = k.fs ∧ k'.IsOpen rootFd i f' ∧ f'.ino = f.ino ∧ names.drop f'.offset =
        (listRun (readU16 request 1) responseCapacity fuel (names.drop f.offset) ⟨0, 0, []⟩).2 := by
  obtain ⟨k₁, hdup, hfs, hcopy, hroot⟩ := h.dup
  have hcall : k.call (.dup rootFd) = (.ok k.freeFd, k₁) := hdup
  have hopen : k.run (openDirectoryPath context []) = (.ok k.freeFd, k₁) := by
    rw [openDirectoryPath, openRootCopy, hctx]
    dsimp only
    rw [Posix.dup, Program.bind_eq, run_ask_bind, hcall]
    rfl
  rw [← hfs] at hlisting
  obtain ⟨k', f', hrun, hfs', hdesc, hfile, hino, hrest⟩ :=
    listDirectory_run hcopy hlisting opcode (readU16 request 1) responseCapacity fuel
  rw [handleList_eq hpath hcursor hcapacity, run_bind, hopen]
  refine ⟨k', f', hrun, hfs'.trans hfs, ⟨?_, hfile⟩, hino, hrest⟩
  rw [hdesc rootFd h.ne_free]
  exact hroot.1

end

/-- A context whose root directory has just been opened, so that nothing has read it yet. -/
def Started (context : SquidFsContext) (k : Kernel) (root : Ino) : Prop :=
  ∃ rootFd i, context.rootFd = some rootFd ∧ k.IsOpen rootFd i ⟨root, 0, false⟩

/-- The kernel after a history of requests. -/
def serveRequests (fuel : Nat) (context : SquidFsContext) (responseCapacity : Nat) (k : Kernel)
    (history : List (List UInt8)) : Kernel :=
  history.foldl (fun k request =>
    (k.run (handleSquidFsRequest fuel context request responseCapacity)).2) k

/-- The reply to a request depends on nothing but the request and the contents of the directory
it names at that time: two servers agree on it whatever each of them has served before. -/
def HistoryFree (request : List UInt8) : Prop :=
  ∀ fuel responseCapacity context context' k k' root root' history history',
    Started context k root → Started context' k' root' →
    contentsOf (serveRequests fuel context responseCapacity k history).fs root
        (components (request.drop 4)) =
      contentsOf (serveRequests fuel context' responseCapacity k' history').fs root'
        (components (request.drop 4)) →
    ((serveRequests fuel context responseCapacity k history).run
        (handleSquidFsRequest fuel context request responseCapacity)).1 =
      ((serveRequests fuel context' responseCapacity k' history').run
        (handleSquidFsRequest fuel context' request responseCapacity)).1

theorem handleSquidFsRequest_root {k : Kernel} (hctx : context.rootFd = some rootFd)
    (hroot : k.ino rootFd = some root) (fuel : Nat) (request : List UInt8)
    (responseCapacity : Nat) :
    (k.run (handleSquidFsRequest fuel context request responseCapacity)).2.ino rootFd =
      some root := by
  obtain ⟨s, he, hs⟩ :=
    k.exec_run (handleSquidFsRequest fuel context request responseCapacity) []
  have hctx' : ∀ fd, context.rootFd = some fd → k.ino fd = some root := by
    intro fd hfd
    cases hctx.symm.trans hfd
    exact hroot
  obtain ⟨⟨held, howned⟩, -⟩ :=
    handleSquidFsRequest_finished (Working.start _ root k) hctx' _ _ he
  rw [← hs]
  exact howned.base_ino hroot

theorem serveRequests_root {k : Kernel} (hctx : context.rootFd = some rootFd)
    (hroot : k.ino rootFd = some root) (fuel responseCapacity : Nat)
    (history : List (List UInt8)) :
    (serveRequests fuel context responseCapacity k history).ino rootFd = some root := by
  induction history generalizing k with
  | nil => exact hroot
  | cons request history ih =>
    exact ih (handleSquidFsRequest_root hctx hroot fuel request responseCapacity)

theorem handleSquidFsRequest_list {rest : List UInt8} (hctx : context.rootFd = some rootFd)
    (hcapacity : 2 ≤ responseCapacity) :
    handleSquidFsRequest fuel context (squidFsOpList :: rest) responseCapacity =
      handleList fuel context squidFsOpList (squidFsOpList :: rest) responseCapacity := by
  rw [handleSquidFsRequest, hctx, if_neg (by simp; omega)]
  rfl

/-- The requests that list the exported root itself. -/
def ListsRoot (request : List UInt8) : Prop :=
  request.drop 3 = [0] ∧ readU16 request 1 ≠ squidFsCursorEnd

theorem readPathRequest_empty_iff :
    readPathRequest request 3 true = some [] ↔ request.drop 3 = [0] := by
  rw [readPathRequest]
  rcases request with _ | ⟨opcode, _ | ⟨low, _ | ⟨high, _ | ⟨size, path⟩⟩⟩⟩
  · simp
  · simp
  · simp
  · simp
  · have hsize : byteAt (opcode :: low :: high :: size :: path) 3 = size := rfl
    rw [if_neg (by simp), hsize]
    simp only [List.length_cons, List.drop_succ_cons, List.drop_zero, List.cons.injEq]
    constructor
    · intro h
      split at h
      · cases h
      · rename_i hlength
        obtain ⟨rfl, -⟩ := pathIsValid_spec h
        rw [not_not] at hlength
        exact ⟨UInt8.toNat_inj.1 hlength, rfl⟩
    · rintro ⟨rfl, rfl⟩
      rfl

theorem handleList_reply {k : Kernel} (hctx : context.rootFd = some rootFd)
    (hroot : k.ino rootFd = some root) (hother : ¬ ListsRoot request) :
    (k.run (handleList fuel context opcode request responseCapacity)).1 =
      if readPathRequest request 3 true = none ∨ readU16 request 1 = squidFsCursorEnd ∨
          responseCapacity < squidFsPageHeaderSize then
        writeResponse opcode .badRequest responseCapacity
      else listReply opcode (readU16 request 1) responseCapacity fuel
        (contentsOf k.fs root (components (request.drop 4))) 0 := by
  obtain ⟨i, f, hi, hf, rfl⟩ := Kernel.ino_eq_some.1 hroot
  cases hpath : readPathRequest request 3 true with
  | none =>
    rw [if_pos (.inl rfl), handleList, hpath, ite_self]
    rfl
  | some path =>
    by_cases hbad : readU16 request 1 = squidFsCursorEnd ∨ responseCapacity < squidFsPageHeaderSize
    · rw [if_pos (.inr hbad), handleList, hpath]
      split
      · rfl
      · rename_i path' _
        dsimp only
        rw [if_pos hbad]
        rfl
    · rw [if_neg (not_or.2 ⟨by simp, hbad⟩)]
      rw [not_or, Nat.not_lt] at hbad
      have hne : path ≠ [] := by
        rintro rfl
        exact hother ⟨readPathRequest_empty_iff.1 hpath, hbad.1⟩
      rw [handleList_below ⟨hi, hf⟩ hctx hpath hne hbad.1 hbad.2, (readPathRequest_spec hpath).1]

theorem historyFree_of_not_listsRoot (hlist : request.head? = some squidFsOpList)
    (hother : ¬ ListsRoot request) : HistoryFree request := by
  intro fuel responseCapacity context context' k k' root root' history history' hk hk' hcontents
  obtain ⟨rootFd, i, hctx, hopen⟩ := hk
  obtain ⟨rootFd', i', hctx', hopen'⟩ := hk'
  have hroot := serveRequests_root hctx hopen.ino fuel responseCapacity history
  have hroot' := serveRequests_root hctx' hopen'.ino fuel responseCapacity history'
  obtain ⟨rest, rfl⟩ := List.head?_eq_some_iff.1 hlist
  by_cases hcapacity : 2 ≤ responseCapacity
  · rw [handleSquidFsRequest_list hctx hcapacity, handleSquidFsRequest_list hctx' hcapacity,
      handleList_reply hctx hroot hother, handleList_reply hctx' hroot' hother, hcontents]
  · rw [handleSquidFsRequest, handleSquidFsRequest, if_pos (.inr (Nat.not_le.1 hcapacity)),
      if_pos (.inr (Nat.not_le.1 hcapacity))]
    rfl

theorem listRun_skip (cursor : UInt16) (responseCapacity n : Nat)
    {names : List (Name × Except Errno Stat)}
    (rest : List (Name × Except Errno Stat)) (page : ListPage)
    (hnames : ∀ x ∈ names, ¬ (x.1 = dot ∨ x.1 = dotdot))
    (hcursor : page.entryIndex.toNat + names.length ≤ cursor.toNat) :
    listRun cursor responseCapacity (names.length + n) (names ++ rest) page =
      listRun cursor responseCapacity n rest
        { page with entryIndex := page.entryIndex + UInt16.ofNat names.length } := by
  induction names generalizing page with
  | nil => simp
  | cons x names ih =>
    rw [List.length_cons] at hcursor
    have hlt : page.entryIndex < cursor := UInt16.lt_iff_toNat_lt.2 (by omega)
    have hsucc : (page.entryIndex + 1).toNat = page.entryIndex.toNat + 1 := by
      rw [UInt16.toNat_add, UInt16.toNat_one, Nat.mod_eq_of_lt]
      have := cursor.toNat_lt
      omega
    rw [List.length_cons, Nat.add_right_comm, List.cons_append, listRun, listTurn,
      if_neg (hnames x List.mem_cons_self), if_pos hlt]
    dsimp only
    rw [ih _ (fun y hy => hnames y (List.mem_cons_of_mem x hy)) (by dsimp only; omega)]
    rw [UInt16.add_assoc, UInt16.ofNat_add, UInt16.add_comm (UInt16.ofNat names.length)]
    rfl

theorem lookupEntry_eq {es : List Entry} (hmem : e ∈ es)
    (hall : ∀ e' ∈ es, e'.name = e.name → e'.ino = e.ino) :
    lookupEntry e.name es = some e.ino := by
  rw [lookupEntry]
  cases hfind : es.find? (·.name = e.name) with
  | none => simpa using List.find?_eq_none.1 hfind e hmem
  | some e' =>
    have hname : e'.name = e.name := by simpa using List.find?_some hfind
    rw [Option.map_some, hall e' (List.mem_of_find?_eq_some hfind) hname]

/-- A name of four letters for each of the first 65536 numbers. -/
def numberedName (i : Nat) : Name :=
  [UInt8.ofNat (0x61 + i % 16), UInt8.ofNat (0x61 + i / 16 % 16),
    UInt8.ofNat (0x61 + i / 256 % 16), UInt8.ofNat (0x61 + i / 4096 % 16)]

theorem letter_ne_slash (h : n < 16) : UInt8.ofNat (0x61 + n) ≠ 0x2F := by
  intro he
  have := congrArg UInt8.toNat he
  rw [UInt8.toNat_ofNat_of_lt' (by simp [UInt8.size]; omega)] at this
  simp at this
  omega

theorem numberedName_component (i : Nat) : IsComponent (numberedName i) := by
  have hmod : ∀ m : Nat, m % 16 < 16 := fun m => Nat.mod_lt m (by decide)
  refine ⟨List.cons_ne_nil _ _, ?_⟩
  intro hmem
  simp only [numberedName, List.mem_cons, List.not_mem_nil, or_false] at hmem
  rcases hmem with he | he | he | he <;> exact letter_ne_slash (hmod _) he.symm

/-- Directory 0 with `size` links to the empty file 1, open as descriptor 0. -/
def numberedKernel (size : Nat) : Kernel where
  fs := {
    inodes := [
      ⟨.directory (⟨dot, 0, isComponent_dot⟩ :: ⟨dotdot, 0, isComponent_dotdot⟩ ::
        (List.range size).map fun i => ⟨numberedName i, 1, numberedName_component i⟩), 0o755, 0⟩,
      ⟨.file [], 0o644, 0⟩]
    hostRoot := 0 }
  fds := [some 0]
  files := [⟨0, 0, false⟩]
  valid := by simp

theorem numberedKernel_statName (h : i < size) :
    (numberedKernel size).fs.statName 0 (numberedName i) =
      .ok (Inode.stat ⟨.file [], 0o644, 0⟩) := by
  let e : Entry := ⟨numberedName i, 1, numberedName_component i⟩
  have hlookup : (numberedKernel size).fs.lookup 0 (numberedName i) = some 1 := by
    apply lookupEntry_eq (e := e)
    · exact List.mem_cons_of_mem _ (List.mem_cons_of_mem _
        (List.mem_map.2 ⟨i, List.mem_range.2 h, rfl⟩))
    · intro e' he' hname
      rcases List.mem_cons.1 he' with rfl | he'
      · simp [e, numberedName, dot] at hname
      · rcases List.mem_cons.1 he' with rfl | he'
        · simp [e, numberedName, dotdot] at hname
        · obtain ⟨j, -, rfl⟩ := List.mem_map.1 he'
          rfl
  rw [Fs.statName, hlookup]
  rfl

theorem numberedKernel_listing (size : Nat) : ∃ a b, (numberedKernel size).fs.listing 0 =
    .ok ((dot, a) :: (dotdot, b) :: (List.range size).map fun i =>
      (numberedName i, .ok (Inode.stat ⟨.file [], 0o644, 0⟩))) := by
  refine ⟨(numberedKernel size).fs.statName 0 dot, (numberedKernel size).fs.statName 0 dotdot, ?_⟩
  change Except.ok (List.map _ (_ :: _ :: List.map _ _)) = _
  rw [List.map_cons, List.map_cons, List.map_map]
  congr 3
  apply List.map_congr_left
  intro i hi
  exact congrArg (Prod.mk _) (numberedKernel_statName (List.mem_range.1 hi))

theorem numberedName_ne_dots (i : Nat) : ¬ (numberedName i = dot ∨ numberedName i = dotdot) := by
  simp [numberedName, dot, dotdot]

/-- With one entry at the cursor, a listing from the start reads the whole directory and
returns that entry. -/
theorem listRun_numbered (cursor : UInt16) (a b information) :
    listRun cursor 255 (cursor.toNat + 4) ((dot, a) :: (dotdot, b) ::
        (List.range (cursor.toNat + 1)).map fun i => (numberedName i, .ok information))
        ⟨0, 0, []⟩ =
      (some (.ok (squidFsCursorEnd, ⟨cursor + 1, 1,
        listRecord (numberedName cursor.toNat) information⟩)), []) := by
  let skipped : List (Name × Except Errno Stat) :=
    (List.range cursor.toNat).map fun i => (numberedName i, .ok information)
  have hdots : ∀ x ∈ skipped, ¬ (x.1 = dot ∨ x.1 = dotdot) := by
    intro x hx
    obtain ⟨i, -, rfl⟩ := List.mem_map.1 hx
    exact numberedName_ne_dots i
  have hlength : skipped.length = cursor.toNat := by simp [skipped]
  have hskip := listRun_skip cursor 255 2 [(numberedName cursor.toNat, .ok information)]
    ⟨0, 0, []⟩ hdots (Nat.le_of_eq (by simp [hlength]))
  rw [hlength, UInt16.ofNat_toNat, UInt16.zero_add] at hskip
  rw [listRun, listTurn, if_pos (.inl rfl)]
  dsimp only
  rw [listRun, listTurn, if_pos (.inr rfl)]
  dsimp only
  rw [List.range_succ, List.map_append, List.map_singleton, hskip, listRun, listTurn,
    if_neg (numberedName_ne_dots _), if_neg (UInt16.lt_irrefl cursor)]
  rfl

/-- Serving the request once is enough to change its answer. -/
theorem not_historyFree_of_listsRoot (hlist : request.head? = some squidFsOpList)
    (hroot : ListsRoot request) : ¬ HistoryFree request := by
  obtain ⟨rest, rfl⟩ := List.head?_eq_some_iff.1 hlist
  obtain ⟨hempty, hcursor⟩ := hroot
  intro hfree
  let cursor := readU16 (squidFsOpList :: rest) 1
  let k := numberedKernel (cursor.toNat + 1)
  let context : SquidFsContext := ⟨some 0, false⟩
  have hctx : context.rootFd = some 0 := rfl
  have hpath := readPathRequest_empty_iff.2 hempty
  have hcapacity : squidFsPageHeaderSize ≤ 255 := by decide
  have hopen : k.IsOpen 0 0 ⟨0, 0, false⟩ := ⟨rfl, rfl⟩
  obtain ⟨a, b, hlisting⟩ := numberedKernel_listing (cursor.toNat + 1)
  have hfirst := listRun_numbered cursor a b (Inode.stat ⟨.file [], 0o644, 0⟩)
  -- The first listing reads to the end of the directory, so the second one finds nothing left.
  obtain ⟨k₁, f₁, hrun₁, hfs₁, hopen₁, hino₁, hrest₁⟩ :=
    handleList_root hopen hctx hpath hlisting hcursor (cursor.toNat + 4) squidFsOpList hcapacity
  obtain ⟨k₂, f₂, hrun₂, -⟩ :=
    handleList_root hopen₁ hctx hpath (by rw [hfs₁, hino₁]; exact hlisting) hcursor
      (cursor.toNat + 4) squidFsOpList hcapacity
  rw [listReply, List.drop_zero, hfirst] at hrun₁
  rw [List.drop_zero, hfirst] at hrest₁
  rw [listReply, hrest₁, listRun] at hrun₂
  have hserve : serveRequests (cursor.toNat + 4) context 255 k [squidFsOpList :: rest] = k₁ := by
    rw [serveRequests, List.foldl_cons, handleSquidFsRequest_list hctx (by decide), hrun₁]
    rfl
  have hstarted : Started context k 0 := ⟨0, 0, hctx, hopen⟩
  have hsame := hfree (cursor.toNat + 4) 255 context context k k 0 0 [squidFsOpList :: rest] []
    hstarted hstarted (by rw [hserve, hfs₁]; rfl)
  rw [hserve, serveRequests, List.foldl_nil, handleSquidFsRequest_list hctx (by decide), hrun₁,
    hrun₂] at hsame
  cases hsame

/-- A LIST request is handle-free unless it is for the exported root itself. -/
theorem list_historyFree_iff (hlist : request.head? = some squidFsOpList) :
    HistoryFree request ↔ ¬ ListsRoot request := by
  constructor
  · intro hfree hroot
    exact not_historyFree_of_listsRoot hlist hroot hfree
  · exact historyFree_of_not_listsRoot hlist

/-- A listing of the directory `d`. -/
theorem list_historyFree_below : HistoryFree [0x02, 0, 0, 1, 0x64] :=
  (list_historyFree_iff rfl).2 fun h => absurd h.1 (by decide)

/-- The root of `linkedKernel` listed twice: two entries, then an empty directory. -/
theorem list_root_not_historyFree : ¬ ∀ request : List UInt8,
    request.head? = some squidFsOpList → HistoryFree request := by
  intro h
  have hsame := h [0x02, 0, 0, 0] rfl 8 255 ⟨some 0, false⟩ ⟨some 0, false⟩ linkedKernel
    linkedKernel 1 1 [[0x02, 0, 0, 0]] [] ⟨0, 0, rfl, rfl, rfl⟩ ⟨0, 0, rfl, rfl, rfl⟩
    (by decide +kernel)
  have hsecond : ((serveRequests 8 ⟨some 0, false⟩ 255 linkedKernel [[0x02, 0, 0, 0]]).run
      (handleSquidFsRequest 8 ⟨some 0, false⟩ [0x02, 0, 0, 0] 255)).1 =
        some [0x82, 0x00, 0xFF, 0xFF, 0] := by decide +kernel
  have hfirst : (linkedKernel.run
      (handleSquidFsRequest 8 ⟨some 0, false⟩ [0x02, 0, 0, 0] 255)).1 =
        some [0x82, 0x00, 0xFF, 0xFF, 2, 1, 1, 0x66, 3, 0, 0, 0, 3, 1, 0x6C, 0, 0, 0, 0] := by
    decide +kernel
  rw [hsecond, serveRequests, List.foldl_nil, hfirst] at hsame
  cases hsame

end SquidServer.Filesystem

import SquidServer.FilesystemRequests
import SquidServer.PosixEffects

namespace SquidServer.Filesystem
open Interaction Posix Wire
set_option autoImplicit true

/-- Where walking down from a directory leads: the tree and the other descriptors, all but the one
the walk starts from, stay what they are, and a descriptor it gives stands for the directory at the
end of the walk. -/
structure Arrives (k : Kernel) (dir : Ino) (comps : List Name) (start : Option Fd)
    (r : Except Errno Fd) (k' : Kernel) : Prop where
  fs : k'.fs = k.fs
  others : ∀ fd n, some fd ≠ start → k.ino fd = some n → k'.ino fd = some n
  arrived : ∀ fd, r = .ok fd → ∃ n, k.fs.descend dir comps = .ok n ∧ k'.ino fd = some n

theorem openComponents_arrives {k : Kernel} (hfd : k.ino fd = some dir)
    (hc : ∀ c ∈ comps, IsComponent c) :
    Ensures faulty (openComponents fd comps) (Arrives k dir comps (some fd)) k := by
  induction comps generalizing k fd dir with
  | nil =>
    refine ensures_pure.2 ⟨rfl, fun _ _ _ h => h, ?_⟩
    rintro _ ⟨⟩
    exact ⟨dir, rfl, hfd⟩
  | cons c rest ih =>
    refine ensures_bind.2 (ensures_ask fun next k₁ hk₁ => ?_)
    have hopen := Kernel.Can.openat_directory hk₁ (hc c List.mem_cons_self) hfd
      ⟨rfl, rfl, rfl, rfl⟩
    refine ensures_bind.2 (ensures_ask fun _ k₂ hk₂ => ?_)
    obtain rfl := Kernel.Can.closes hk₂ (.inl rfl)
    rcases hopen with ⟨e, rfl, rfl⟩ | ⟨n, hn, rfl, rfl⟩
    · refine ensures_pure.2 ⟨rfl, ?_, fun _ h => by cases h⟩
      intro fd' n hne hfd'
      rw [Kernel.ino_closeFd fun he => hne (congrArg some he)]
      exact hfd'
    · have hnew : k.freeFd ≠ fd := (Kernel.ne_freeFd hfd).symm
      have hstart : ((k.openFile ⟨n, 0, false⟩).closeFd fd).ino k.freeFd = some n := by
        rw [Kernel.ino_closeFd hnew]
        exact k.ino_openFile_free _
      refine (ih hstart fun c' hc' => hc c' (List.mem_cons_of_mem c hc')).mono ?_
      intro r k' h
      refine ⟨h.fs, ?_, ?_⟩
      · intro fd' n' hne hfd'
        refine h.others fd' n' (fun he => Kernel.ne_freeFd hfd' (Option.some.inj he)) ?_
        rw [Kernel.ino_closeFd fun he => hne (congrArg some he)]
        exact Kernel.ino_openFile hfd' _
      · intro fd' hr
        obtain ⟨m, hm, hino⟩ := h.arrived fd' hr
        refine ⟨m, ?_, hino⟩
        rw [Fs.descend, hn]
        exact hm

section
variable {context : SquidFsContext} {rootFd : Fd} {root : Ino} {k : Kernel}

theorem openDirectoryPath_arrives (hctx : context.rootFd = some rootFd)
    (hroot : k.ino rootFd = some root) (path : Name) :
    Ensures faulty (openDirectoryPath context path) (Arrives k root (components path) none) k := by
  obtain ⟨i, f, hi, hf, rfl⟩ := Kernel.ino_eq_some.1 hroot
  rw [openDirectoryPath, openRootCopy, hctx]
  refine ensures_bind.2 (ensures_ask fun r k₁ hk₁ => ?_)
  rcases Kernel.Can.dup hk₁ hi with ⟨e, rfl, rfl⟩ | ⟨fd, rfl, hopened, hfs⟩
  · exact ensures_pure.2 ⟨rfl, fun _ _ _ h => h, fun _ h => by cases h⟩
  · have hfd : k₁.ino fd = some f.ino :=
      Kernel.ino_eq_some.2 ⟨i, f, by rw [hopened.desc, if_pos rfl],
        getElem?_of_prefix hopened.files hf, rfl⟩
    have hne : ∀ fd' n, k.ino fd' = some n → some fd' ≠ some fd := by
      intro fd' n hfd' he
      obtain ⟨j, g, hj, -⟩ := Kernel.ino_eq_some.1 hfd'
      rw [Option.some.inj he, hopened.fresh] at hj
      cases hj
    have hwalk : Ensures faulty (openComponents fd (components path))
        (Arrives k f.ino (components path) none) k₁ := by
      refine (openComponents_arrives hfd fun c hc => isComponent_of_mem hc).mono ?_
      intro r k' h
      refine ⟨h.fs.trans hfs, fun fd' n _ hfd' => h.others fd' n (hne fd' n hfd')
        (hopened.ino hfd'), ?_⟩
      intro fd' hr
      rw [← hfs]
      exact h.arrived fd' hr
    dsimp only
    split
    · rename_i hempty
      subst hempty
      exact hwalk
    · exact hwalk

/-- The directory that holds the object a path names. -/
def parentDirectory (fs : Fs) (root : Ino) (path : Name) : Except Errno Ino :=
  fs.descend root (components (parentOf path))

/-- Where `open_parent_directory` leads. -/
structure ParentArrives (k : Kernel) (root : Ino) (path : Name) (r : Except Errno (Fd × Name))
    (k' : Kernel) : Prop where
  fs : k'.fs = k.fs
  others : ∀ fd n, k.ino fd = some n → k'.ino fd = some n
  arrived : ∀ fd leaf, r = .ok (fd, leaf) →
    leaf = leafOf path ∧ ∃ dir, parentDirectory k.fs root path = .ok dir ∧ k'.ino fd = some dir

theorem openParentDirectory_arrives (hctx : context.rootFd = some rootFd)
    (hroot : k.ino rootFd = some root) (hpath : ValidPath path) :
    Ensures faulty (openParentDirectory context path) (ParentArrives k root path) k := by
  rw [openParentDirectory, if_neg (List.ne_nil_of_length_pos hpath.size.1)]
  refine ensures_bind.2 ((openDirectoryPath_arrives hctx hroot _).mono ?_)
  intro r k' h
  have hothers : ∀ fd n, k.ino fd = some n → k'.ino fd = some n :=
    fun fd n => h.others fd n (Option.some_ne_none fd)
  cases r with
  | error e => exact ensures_pure.2 ⟨h.fs, hothers, fun _ _ hr => by cases hr⟩
  | ok parentFd =>
    refine ensures_pure.2 ⟨h.fs, hothers, ?_⟩
    intro fd leaf hr
    cases hr
    exact ⟨rfl, h.arrived parentFd rfl⟩

theorem writeFile_effect (hfd : k.IsOpen fd i f) (hwrite : f.write = true) (data : List UInt8)
    (offset : UInt32) :
    Ensures faulty (writeFile fd data offset) (fun result k' =>
      (∃ status, result = .error status ∧ status ≠ .ok ∧ k'.fs = k.fs) ∨
      ∃ content m, k.fs.node f.ino = some (.file content) ∧ m ≤ data.length ∧ result = .ok m ∧
        k'.fs = k.fs.setNode f.ino (.file (overwrite content (data.take m) offset.toNat))) k := by
  rw [writeFile]
  refine ensures_bind.2 (ensures_ask fun r k₁ hk₁ => ?_)
  obtain ⟨rfl, hstat⟩ := Kernel.Can.fstat hk₁ hfd.ino
  cases r with
  | error e => exact ensures_pure.2 (.inl ⟨_, rfl, statusFromErrno_ne_ok e, rfl⟩)
  | ok information =>
    obtain ⟨inode, hinode, rfl⟩ := hstat information rfl
    dsimp only
    split
    · exact ensures_pure.2 (.inl ⟨_, rfl, by decide, rfl⟩)
    · rename_i hreg
      rw [not_not, Inode.sIsreg_stat] at hreg
      obtain ⟨content, hcontent⟩ := hreg
      have hnode : k₁.fs.node f.ino = some (.file content) := by
        rw [Fs.node, hinode, ← hcontent]
        rfl
      refine ensures_bind.2 (ensures_ask fun r k₂ hk₂ => ?_)
      rcases Kernel.Can.pwrite hk₂ hfd.file hwrite hnode with ⟨e, rfl, rfl⟩ | ⟨m, hm, rfl, hfs⟩
      · exact ensures_pure.2 (.inl ⟨_, rfl, statusFromErrno_ne_ok e, rfl⟩)
      · exact ensures_pure.2 (.inr ⟨content, m, hnode, hm, rfl, hfs⟩)

/-- What a WRITE can come to: the count it reports, or its status. -/
inductive WriteOutcome (fs : Fs) (root : Ino) (fields : WriteRequest) :
    Except SquidFsStatus Nat → Fs → Prop
  | refused : status ≠ .ok → WriteOutcome fs root fields (.error status) fs
  | opened : parentDirectory fs root fields.path = .ok dir →
      fs.WriteOpened dir (leafOf fields.path) (writeFlags fields.flags) 0o666 fs₁ n →
      status ≠ .ok → WriteOutcome fs root fields (.error status) fs₁
  | written : parentDirectory fs root fields.path = .ok dir →
      fs.WriteOpened dir (leafOf fields.path) (writeFlags fields.flags) 0o666 fs₁ n →
      fs₁.node n = some (.file content) → m ≤ fields.data.length →
      WriteOutcome fs root fields (.ok m)
        (fs₁.setNode n (.file (overwrite content (fields.data.take m) fields.offset.toNat)))

/-- The end of `handle_write`. -/
def answerWrite (offset : UInt32) (responseCapacity : Nat) : Except SquidFsStatus Nat → Response
  | .error status => writeResponse squidFsOpWrite status responseCapacity
  | .ok bytesWritten =>
    if responseCapacity < 7 then none
    else some (writeOkResponse squidFsOpWrite offset bytesWritten)

theorem performWrite_outcome (hctx : context.rootFd = some rootFd)
    (hroot : k.ino rootFd = some root) (fields : WriteRequest) (hpath : ValidPath fields.path)
    (responseCapacity : Nat) :
    Ensures faulty (performWrite context fields responseCapacity) (fun reply k' => ∃ result,
      reply = answerWrite fields.offset responseCapacity result ∧
        WriteOutcome k.fs root fields result k'.fs) k := by
  rw [performWrite]
  refine ensures_bind.2 ((openParentDirectory_arrives hctx hroot hpath).mono ?_)
  intro r k₁ h
  cases r with
  | error e =>
    refine ensures_pure.2 ⟨.error (statusFromErrno e), rfl, ?_⟩
    rw [h.fs]
    exact .refused (statusFromErrno_ne_ok e)
  | ok parent =>
    obtain ⟨parentFd, leaf⟩ := parent
    obtain ⟨rfl, dir, hdir, hparent⟩ := h.arrived parentFd leaf rfl
    refine ensures_bind.2 (ensures_ask fun r k₂ hk₂ => ?_)
    have hopen := Kernel.Can.openat_write hk₂ hpath.leaf hparent ⟨rfl, rfl, rfl⟩
    refine ensures_bind.2 (ensures_ask fun _ k₃ hk₃ => ?_)
    obtain rfl := Kernel.Can.closes hk₃ (.inl rfl)
    rw [h.fs] at hopen
    rcases hopen with ⟨e, rfl, rfl⟩ | ⟨fs₁, n, hopened, rfl, rfl⟩
    · refine ensures_pure.2 ⟨.error (statusFromErrno e), rfl, ?_⟩
      change WriteOutcome k.fs root fields _ k₂.fs
      rw [h.fs]
      exact .refused (statusFromErrno_ne_ok e)
    · have hne : k₁.freeFd ≠ parentFd := (Kernel.ne_freeFd hparent).symm
      have hfile := ((k₁.withFs fs₁).isOpen_openFile ⟨n, 0, true⟩).closeFd hne
      refine ensures_bind.2 ((writeFile_effect hfile rfl fields.data fields.offset).mono ?_)
      intro result k₄ hresult
      refine ensures_bind.2 (ensures_ask fun _ k₅ hk₅ => ?_)
      obtain rfl := Kernel.Can.closes hk₅ (.inl rfl)
      rcases hresult with ⟨status, rfl, hstatus, hfs⟩ | ⟨content, m, hcontent, hm, rfl, hfs⟩
      · refine ensures_pure.2 ⟨.error status, rfl, ?_⟩
        change WriteOutcome k.fs root fields _ k₄.fs
        rw [hfs]
        exact .opened hdir hopened hstatus
      · have houtcome : WriteOutcome k.fs root fields (.ok m) (k₄.closeFd k₁.freeFd).fs := by
          change WriteOutcome k.fs root fields _ k₄.fs
          rw [hfs]
          exact .written hdir hopened hcontent hm
        dsimp only
        split
        · rename_i hsmall
          refine ensures_pure.2 ⟨.ok m, ?_, houtcome⟩
          rw [answerWrite, if_pos hsmall]
        · rename_i hlarge
          refine ensures_pure.2 ⟨.ok m, ?_, houtcome⟩
          rw [answerWrite, if_neg hlarge]

/-- How an operation on directory entries changes the tree. -/
inductive EntryChange (fs : Fs) (root : Ino) : Operation → Fs → Prop
  | mkdir (h : IsComponent (leafOf path)) : parentDirectory fs root path = .ok dir →
      fs.entries dir = some es → lookupEntry (leafOf path) es = none →
      EntryChange fs root (.mkdir path) (fs.create dir (leafOf path) h
        ⟨.directory [⟨dot, fs.inodes.length, isComponent_dot⟩, ⟨dotdot, dir, isComponent_dotdot⟩],
          0o777, 0⟩)
  | delete : parentDirectory fs root path = .ok dir → fs.lookup dir (leafOf path) = some n →
      (∀ es, fs.entries n = some es → emptyDirectory es = true) →
      EntryChange fs root (.delete path) (fs.remove dir (leafOf path))
  | kept : parentDirectory fs root oldPath = .ok oldDir →
      parentDirectory fs root newPath = .ok newDir →
      fs.lookup oldDir (leafOf oldPath) = some n → fs.lookup newDir (leafOf newPath) = some n →
      EntryChange fs root (.rename oldPath newPath) fs
  | moved (h : IsComponent (leafOf newPath)) : parentDirectory fs root oldPath = .ok oldDir →
      parentDirectory fs root newPath = .ok newDir →
      fs.lookup oldDir (leafOf oldPath) = some n → fs.lookup newDir (leafOf newPath) ≠ some n →
      (fs.entries newDir).isSome → leafOf oldPath ≠ dotdot → leafOf newPath ≠ dotdot →
      EntryChange fs root (.rename oldPath newPath)
        (fs.move oldDir (leafOf oldPath) newDir ⟨leafOf newPath, n, h⟩)

/-- What an operation on directory entries can come to. -/
inductive EntryOutcome (fs : Fs) (root : Ino) (operation : Operation) :
    Except Errno Unit → Fs → Prop
  | refused : EntryOutcome fs root operation (.error e) fs
  | changed : EntryChange fs root operation fs' → EntryOutcome fs root operation (.ok ()) fs'

theorem mkdirOrDelete_outcome {operation : Operation}
    (hop : operation = .mkdir path ∨ operation = .delete path) (hpath : ValidPath path)
    (hdir : parentDirectory k.fs root path = .ok dir) (hfd : k.ino fd = some dir) :
    Ensures faulty (mkdirOrDelete operation.opcode fd (leafOf path))
      (fun result k' => EntryOutcome k.fs root operation result k'.fs) k := by
  rcases hop with rfl | rfl
  · change Ensures faulty (mkdirat fd (leafOf path) 0o777) _ k
    refine ensures_ask fun r k₁ hk₁ => ?_
    rcases Kernel.Can.mkdirat hk₁ hpath.leaf hfd with ⟨e, rfl, rfl⟩ | ⟨es, hes, hnone, rfl, hfs⟩
    · exact .refused
    · rw [hfs]
      exact .changed (.mkdir hpath.leaf hdir hes hnone)
  · change Ensures faulty (deleteEntry fd (leafOf path)) _ k
    rw [deleteEntry]
    refine ensures_bind.2 (ensures_ask fun r k₁ hk₁ => ?_)
    have hk : k₁ = k := by
      cases hk₁ with
      | done => rfl
      | failed _ => rfl
    subst hk
    cases r with
    | error e => exact ensures_pure.2 .refused
    | ok information =>
      refine ensures_ask fun r k₂ hk₂ => ?_
      rcases Kernel.Can.unlinkat hk₂ hpath.leaf hfd with ⟨e, rfl, rfl⟩ | ⟨n, hn, hempty, rfl, hfs⟩
      · exact .refused
      · rw [hfs]
        exact .changed (.delete hdir hn hempty)

theorem performMkdirOrDelete_outcome (hctx : context.rootFd = some rootFd)
    (hroot : k.ino rootFd = some root) {operation : Operation}
    (hop : operation = .mkdir path ∨ operation = .delete path) (hpath : ValidPath path)
    (responseCapacity : Nat) :
    Ensures faulty (performMkdirOrDelete context operation.opcode path responseCapacity)
      (fun reply k' => ∃ result,
        reply = writeResponse operation.opcode (statusOf result) responseCapacity ∧
          EntryOutcome k.fs root operation result k'.fs) k := by
  rw [performMkdirOrDelete]
  refine ensures_bind.2 ((openParentDirectory_arrives hctx hroot hpath).mono ?_)
  intro r k₁ h
  cases r with
  | error e =>
    refine ensures_pure.2 ⟨.error e, rfl, ?_⟩
    rw [h.fs]
    exact .refused
  | ok parent =>
    obtain ⟨parentFd, leaf⟩ := parent
    obtain ⟨rfl, dir, hdir, hparent⟩ := h.arrived parentFd leaf rfl
    rw [← h.fs] at hdir ⊢
    refine ensures_bind.2 ((mkdirOrDelete_outcome hop hpath hdir hparent).mono ?_)
    intro result k₂ hresult
    refine ensures_bind.2 (ensures_ask fun _ k₃ hk₃ => ?_)
    obtain rfl := Kernel.Can.closes hk₃ (.inl rfl)
    exact ensures_pure.2 ⟨result, rfl, hresult⟩

theorem performRename_outcome (hctx : context.rootFd = some rootFd)
    (hroot : k.ino rootFd = some root) (hold : ValidPath oldPath) (hnew : ValidPath newPath)
    (responseCapacity : Nat) :
    Ensures faulty (performRename context oldPath newPath responseCapacity)
      (fun reply k' => ∃ result,
        reply = writeResponse squidFsOpRename (statusOf result) responseCapacity ∧
          EntryOutcome k.fs root (.rename oldPath newPath) result k'.fs) k := by
  rw [performRename]
  refine ensures_bind.2 ((openParentDirectory_arrives hctx hroot hold).mono ?_)
  intro r k₁ h
  cases r with
  | error e =>
    refine ensures_pure.2 ⟨.error e, rfl, ?_⟩
    rw [h.fs]
    exact .refused
  | ok parent =>
    obtain ⟨oldParent, oldLeaf⟩ := parent
    obtain ⟨rfl, oldDir, holdDir, holdFd⟩ := h.arrived oldParent oldLeaf rfl
    rw [← h.fs] at holdDir ⊢
    have hroot₁ := h.others rootFd root hroot
    refine ensures_bind.2 ((openParentDirectory_arrives hctx hroot₁ hnew).mono ?_)
    intro r k₂ h₂
    cases r with
    | error e =>
      refine ensures_bind.2 (ensures_ask fun _ k₃ hk₃ => ?_)
      obtain rfl := Kernel.Can.closes hk₃ (.inl rfl)
      refine ensures_pure.2 ⟨.error e, rfl, ?_⟩
      change EntryOutcome k₁.fs root _ _ k₂.fs
      rw [h₂.fs]
      exact .refused
    | ok parent =>
      obtain ⟨newParent, newLeaf⟩ := parent
      obtain ⟨rfl, newDir, hnewDir, hnewFd⟩ := h₂.arrived newParent newLeaf rfl
      rw [← h₂.fs] at holdDir hnewDir ⊢
      have holdFd₂ := h₂.others oldParent oldDir holdFd
      refine ensures_bind.2 (ensures_ask fun r k₃ hk₃ => ?_)
      have hrename := Kernel.Can.renameat hk₃ hold.leaf hnew.leaf holdFd₂ hnewFd
      refine ensures_bind.2 (ensures_ask fun _ k₄ hk₄ => ?_)
      obtain rfl := Kernel.Can.closes hk₄ (.inl rfl)
      refine ensures_bind.2 (ensures_ask fun _ k₅ hk₅ => ?_)
      obtain rfl := Kernel.Can.closes hk₅ (.inl rfl)
      refine ensures_pure.2 ⟨r, rfl, ?_⟩
      change EntryOutcome k₂.fs root _ _ k₃.fs
      rcases hrename with ⟨e, rfl, rfl⟩ | ⟨n, hn, rfl, hsame | hmoved⟩
      · exact .refused
      · obtain ⟨hn', rfl⟩ := hsame
        exact .changed (.kept holdDir hnewDir hn hn')
      · obtain ⟨hn', hsome, holdName, hnewName, hfs⟩ := hmoved
        rw [hfs]
        exact .changed (.moved hnew.leaf holdDir hnewDir hn hn' hsome holdName hnewName)

end

-- STAT, LIST and READ only look.

theorem openComponents_looks (fd : Fd) (comps : List Name) :
    Calls (E := Syscalls) Call.Looks (openComponents fd comps) := by
  induction comps generalizing fd with
  | nil => exact .pure _
  | cons c rest ih =>
    refine .bind (.ask ⟨rfl, rfl⟩) fun next => .bind (.ask trivial) fun _ => ?_
    cases next with
    | error e => exact .pure _
    | ok nextFd => exact ih nextFd

theorem openDirectoryPath_looks (context : SquidFsContext) (path : Name) :
    Calls (E := Syscalls) Call.Looks (openDirectoryPath context path) := by
  have hcopy : Calls (E := Syscalls) Call.Looks (openRootCopy context) := by
    rw [openRootCopy]
    split
    · exact .pure _
    · exact .ask trivial
  refine .bind hcopy fun r => ?_
  cases r with
  | error e => exact .pure _
  | ok directoryFd =>
    dsimp only
    split
    · exact .pure _
    · exact openComponents_looks _ _

theorem openParentDirectory_looks (context : SquidFsContext) (path : Name) :
    Calls (E := Syscalls) Call.Looks (openParentDirectory context path) := by
  rw [openParentDirectory]
  split
  · exact .pure _
  · refine .bind (openDirectoryPath_looks context _) fun r => ?_
    cases r with
    | error e => exact .pure _
    | ok parentFd => exact .pure _

theorem handleStat_looks (context : SquidFsContext) (opcode : UInt8) (request : List UInt8)
    (responseCapacity : Nat) :
    Calls (E := Syscalls) Call.Looks (handleStat context opcode request responseCapacity) := by
  rw [handleStat]
  split
  · exact .pure _
  split
  · split
    · exact .pure _
    · exact .bind (.ask trivial) fun _ => .pure _
  · refine .bind (openParentDirectory_looks context _) fun r => ?_
    cases r with
    | error e => exact .pure _
    | ok parent => exact .bind (.ask trivial) fun _ => .bind (.ask trivial) fun _ => .pure _

theorem listEntry_looks (directory : Fd) (cursor : UInt16) (responseCapacity : Nat)
    (page : ListPage) :
    Calls (E := Syscalls) Call.Looks (listEntry directory cursor responseCapacity page) := by
  refine .bind (.ask trivial) fun r => ?_
  split
  · exact .pure _
  · exact .pure _
  split
  · exact .pure _
  split
  · exact .pure _
  dsimp only
  split
  · exact .pure _
  refine .bind (.ask trivial) fun r => ?_
  split
  · exact .pure _
  split
  · split
    · exact .pure _
    · exact .pure _
  · exact .pure _

theorem handleList_looks (fuel : Nat) (context : SquidFsContext) (opcode : UInt8)
    (request : List UInt8) (responseCapacity : Nat) :
    Calls (E := Syscalls) Call.Looks
      (handleList fuel context opcode request responseCapacity) := by
  rw [handleList]
  split
  · exact .pure _
  dsimp only
  split
  · exact .pure _
  refine .bind (openDirectoryPath_looks context _) fun r => ?_
  cases r with
  | error e => exact .pure _
  | ok directoryFd =>
    refine .bind (.ask trivial) fun r => ?_
    cases r with
    | error e => exact .bind (.ask trivial) fun _ => .pure _
    | ok _ =>
      refine .bind (.loop (listEntry_looks directoryFd _ _) _ _) fun r => ?_
      split
      · exact .pure _
      · exact .bind (.ask trivial) fun _ => .pure _
      · exact .bind (.ask trivial) fun _ => .pure _

theorem readFile_looks (fileFd : Fd) (opcode : UInt8) (offset : UInt32) (maximumBytes : UInt8)
    (responseCapacity : Nat) :
    Calls (E := Syscalls) Call.Looks
      (readFile fileFd opcode offset maximumBytes responseCapacity) := by
  refine .bind (.ask trivial) fun r => ?_
  cases r with
  | error e => exact .pure _
  | ok information =>
    dsimp only
    split
    · exact .pure _
    split
    · exact .pure _
    split
    · exact .pure _
    split
    · exact .pure _
    refine .bind (.ask trivial) fun r => ?_
    cases r with
    | error e => exact .pure _
    | ok data => exact .pure _

theorem handleRead_looks (context : SquidFsContext) (opcode : UInt8) (request : List UInt8)
    (responseCapacity : Nat) :
    Calls (E := Syscalls) Call.Looks (handleRead context opcode request responseCapacity) := by
  rw [handleRead]
  split
  · exact .pure _
  split
  · exact .pure _
  dsimp only
  refine .bind (openParentDirectory_looks context _) fun r => ?_
  cases r with
  | error e => exact .pure _
  | ok parent =>
    refine .bind (.ask ⟨rfl, rfl⟩) fun file => .bind (.ask trivial) fun _ => ?_
    cases file with
    | error e => exact .pure _
    | ok fileFd =>
      exact .bind (readFile_looks _ _ _ _ _) fun _ => .bind (.ask trivial) fun _ => .pure _

theorem handleSquidFsRequest_looks (fuel : Nat) (context : SquidFsContext) (rest : List UInt8)
    (responseCapacity : Nat) (h : ¬ Mutating opcode) :
    Calls (E := Syscalls) Call.Looks
      (handleSquidFsRequest fuel context (opcode :: rest) responseCapacity) := by
  simp only [Mutating, not_or] at h
  rw [handleSquidFsRequest]
  split
  · exact .pure _
  split
  · split
    · exact .pure _
    · exact .pure _
  split
  · exact handleStat_looks _ _ _ _
  split
  · exact handleList_looks _ _ _ _ _
  split
  · exact handleRead_looks _ _ _ _
  rw [if_neg h.1, if_neg (not_or.2 ⟨h.2.1, h.2.2.1⟩), if_neg h.2.2.2]
  exact .pure _

/-- What a request can do to the tree, and what it then answers. -/
inductive Outcome (fs : Fs) (root : Ino) (context : SquidFsContext) (request : List UInt8)
    (responseCapacity : Nat) : Response → Fs → Prop
  | silent : Outcome fs root context request responseCapacity none fs
  | looked : (∀ opcode rest, request = opcode :: rest → ¬ Mutating opcode) →
      Outcome fs root context request responseCapacity reply fs
  | refused : status ≠ .ok →
      Outcome fs root context request responseCapacity
        (writeResponse opcode status responseCapacity) fs
  | wrote : Parses request (.write offset flags path data) → context.readOnly = false →
      WriteOutcome fs root ⟨offset, flags, path, data⟩ result fs' →
      Outcome fs root context request responseCapacity
        (answerWrite offset responseCapacity result) fs'
  | edited : Parses request operation → context.readOnly = false →
      EntryOutcome fs root operation result fs' →
      Outcome fs root context request responseCapacity
        (writeResponse operation.opcode (statusOf result) responseCapacity) fs'

section
variable {context : SquidFsContext} {root : Ino} {k : Kernel} {responseCapacity : Nat}

theorem Parses.perform_outcome (h : Parses request operation) (hctx : context.rootFd = some rootFd)
    (hroot : k.ino rootFd = some root) (hmutating : Mutating operation.opcode)
    (hwritable : context.readOnly = false) :
    Ensures faulty (operation.perform fuel context responseCapacity) (fun reply k' =>
      Outcome k.fs root context request responseCapacity reply k'.fs) k := by
  have hvalid := h.encoded.1
  cases operation with
  | stat path => exact absurd hmutating (by decide : ¬ Mutating squidFsOpStat)
  | list cursor path => exact absurd hmutating (by decide : ¬ Mutating squidFsOpList)
  | read offset maximumBytes path => exact absurd hmutating (by decide : ¬ Mutating squidFsOpRead)
  | write offset flags path data =>
    refine (performWrite_outcome hctx hroot ⟨offset, flags, path, data⟩ hvalid.1 _).mono ?_
    rintro _ k' ⟨result, rfl, houtcome⟩
    exact .wrote h hwritable houtcome
  | mkdir path =>
    refine (performMkdirOrDelete_outcome hctx hroot (.inl rfl) hvalid _).mono ?_
    rintro _ k' ⟨result, rfl, houtcome⟩
    exact .edited h hwritable houtcome
  | delete path =>
    refine (performMkdirOrDelete_outcome hctx hroot (.inr rfl) hvalid _).mono ?_
    rintro _ k' ⟨result, rfl, houtcome⟩
    exact .edited h hwritable houtcome
  | rename oldPath newPath =>
    refine (performRename_outcome hctx hroot hvalid.1 hvalid.2 _).mono ?_
    rintro _ k' ⟨result, rfl, houtcome⟩
    exact .edited h hwritable houtcome

theorem handleSquidFsRequest_outcome
    (hroot : ∀ rootFd, context.rootFd = some rootFd → k.ino rootFd = some root) (fuel : Nat)
    (request : List UInt8) (responseCapacity : Nat) :
    Ensures faulty (handleSquidFsRequest fuel context request responseCapacity) (fun reply k' =>
      Outcome k.fs root context request responseCapacity reply k'.fs) k := by
  cases request with
  | nil => exact ensures_pure.2 .silent
  | cons opcode rest =>
    by_cases hguard : context.rootFd = none ∨ responseCapacity < 2
    · rw [handleSquidFsRequest, if_pos hguard]
      exact ensures_pure.2 .silent
    rw [not_or, Nat.not_lt] at hguard
    by_cases hmutating : Mutating opcode
    · by_cases hparses : ∃ operation, Parses (opcode :: rest) operation ∧ context.readOnly = false
      · obtain ⟨operation, hparses, hwritable⟩ := hparses
        obtain ⟨rootFd, hctx⟩ := Option.ne_none_iff_exists'.1 hguard.1
        have hop : Mutating operation.opcode := by
          rw [hparses.opcode_eq]
          exact hmutating
        rw [hparses.handle_eq hguard.1 hguard.2 (fun hnot => absurd hop hnot) fun hand =>
          Bool.false_ne_true (hwritable.symm.trans hand.2)]
        exact hparses.perform_outcome hctx (hroot rootFd hctx) hop hwritable
      · rw [handleSquidFsRequest_refused hguard.1 hguard.2]
        · refine ensures_pure.2 (.refused ?_)
          split
          · decide
          · decide
        · rintro ⟨⟩
          exact absurd hmutating (by decide)
        · intro operation hop
          rw [hop.opcode_eq]
          refine ⟨hmutating, ?_⟩
          by_contra hwritable
          exact hparses ⟨operation, hop, Bool.eq_false_iff.2 hwritable⟩
    · refine (looks_fs (handleSquidFsRequest_looks fuel context rest _ hmutating) k).mono ?_
      intro reply k' hfs
      rw [hfs]
      refine .looked ?_
      rintro _ _ ⟨⟩
      exact hmutating

end

end SquidServer.Filesystem

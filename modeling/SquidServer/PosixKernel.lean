import SquidServer.Posix

namespace Posix
open Interaction
set_option autoImplicit true

abbrev Ino := Nat

/-- A directory entry; names are nonempty and have no slash. -/
structure Entry where
  name : Name
  ino : Ino
  component : IsComponent name
deriving DecidableEq

def lookupEntry (name : Name) (entries : List Entry) : Option Ino :=
  (entries.find? (·.name = name)).map Entry.ino

/-- What an inode is. The entries of a directory stand in the order `readdir` gives them, with
those for `.` and `..` among them. -/
inductive Node where
  | directory (entries : List Entry)
  | file (content : List UInt8)
  | symlink (target : Name)
  | other
deriving DecidableEq

structure Inode where
  node : Node
  permissions : Nat
  mtime : Int
deriving DecidableEq

def Node.type : Node → Nat
  | .directory _ => sIfdir
  | .file _ => sIfreg
  | .symlink _ => sIflnk
  | .other => sIfifo

def Node.size : Node → Nat
  | .file content => content.length
  | .symlink target => target.length
  | _ => 0

def Inode.stat (inode : Inode) : Stat where
  stMode := inode.node.type ||| (inode.permissions &&& 0o7777)
  stSize := inode.node.size
  stMtime := inode.mtime

/-- The inodes of the host, by number; absolute paths start at `hostRoot`. -/
structure Fs where
  inodes : List Inode
  hostRoot : Ino

def Fs.node (fs : Fs) (ino : Ino) : Option Node := fs.inodes[ino]?.map Inode.node

def Fs.entries (fs : Fs) (ino : Ino) : Option (List Entry) :=
  match fs.node ino with
  | some (.directory entries) => some entries
  | _ => none

/-- The object a real directory has under a name. -/
def Fs.lookup (fs : Fs) (dir : Ino) (name : Name) : Option Ino :=
  (fs.entries dir).bind (lookupEntry name)

def Fs.setNode (fs : Fs) (ino : Ino) (node : Node) : Fs :=
  { fs with inodes := fs.inodes.modify ino fun inode => { inode with node := node } }

def Fs.setEntries (fs : Fs) (dir : Ino) (f : List Entry → List Entry) : Fs :=
  match fs.entries dir with
  | some entries => fs.setNode dir (.directory (f entries))
  | none => fs

/-- A new object under a name the directory does not have. -/
def Fs.create (fs : Fs) (dir : Ino) (name : Name) (h : IsComponent name) (inode : Inode) : Fs :=
  ({ fs with inodes := fs.inodes ++ [inode] } : Fs).setEntries dir
    (· ++ [⟨name, fs.inodes.length, h⟩])

def Fs.remove (fs : Fs) (dir : Ino) (name : Name) : Fs :=
  fs.setEntries dir (·.eraseP fun entry => entry.name = name)

def emptyDirectory (entries : List Entry) : Bool :=
  entries.all fun entry => entry.name = dot ∨ entry.name = dotdot

/-- An open file description; `offset` is the position of a directory stream. -/
structure OpenFile where
  ino : Ino
  offset : Nat
  write : Bool

/-- The files and the descriptors of a process. Several descriptors may share a description. -/
structure Kernel where
  fs : Fs
  fds : List (Option Nat)
  files : List OpenFile
  valid : ∀ i, some i ∈ fds → i < files.length

def Kernel.desc (k : Kernel) (fd : Fd) : Option Nat := k.fds[fd]?.join

def Kernel.file (k : Kernel) (fd : Fd) : Option OpenFile := (k.desc fd).bind (k.files[·]?)

def Kernel.ino (k : Kernel) (fd : Fd) : Option Ino := (k.file fd).map OpenFile.ino

/-- The lowest descriptor that is not open. -/
def Kernel.freeFd (k : Kernel) : Fd := (k.fds ++ [none]).idxOf none

def Kernel.install (k : Kernel) (i : Nat) (h : i < k.files.length) : Kernel :=
  { k with
    fds := (k.fds ++ [none]).set k.freeFd (some i)
    valid := by
      intro j hj
      rcases List.mem_or_eq_of_mem_set hj with hj | hj
      · rcases List.mem_append.1 hj with hj | hj
        · exact k.valid j hj
        · simp at hj
      · cases hj
        exact h }

def Kernel.openFile (k : Kernel) (file : OpenFile) : Kernel :=
  Kernel.install
    { k with
      files := k.files ++ [file]
      valid := by
        intro j hj
        rw [List.length_append]
        exact Nat.lt_add_right _ (k.valid j hj) }
    k.files.length (by simp)

def Kernel.closeFd (k : Kernel) (fd : Fd) : Kernel :=
  { k with
    fds := k.fds.set fd none
    valid := by
      intro j hj
      rcases List.mem_or_eq_of_mem_set hj with hj | hj
      · exact k.valid j hj
      · cases hj }

def Kernel.advance (k : Kernel) (i : Nat) : Kernel :=
  { k with
    files := k.files.modify i fun file => { file with offset := file.offset + 1 }
    valid := by
      intro j hj
      rw [List.length_modify]
      exact k.valid j hj }

def Kernel.withFs (k : Kernel) (fs : Fs) : Kernel := { k with fs := fs }

/-- What a call does to a file system object: it reads or changes the object itself, looks at
or changes a directory entry, or goes on at the target of a symbolic link. `badFd` stands for a
call on a descriptor that is not open. -/
inductive Access where
  | object (ino : Ino)
  | entry (dir : Ino) (name : Name)
  | follow (link : Ino)
  | badFd (fd : Fd)
deriving DecidableEq

/-- Where a path leads. -/
inductive Found where
  | object (ino : Ino)
  | missing (dir : Ino) (name : Name)
  | error (errno : Errno)

/-- The directory, the name and the object a path ends at, and what was touched on the way. -/
structure Walk where
  touched : List Access
  last : Option (Ino × Name)
  found : Found

/-- Path resolution from a directory. Symbolic links are followed, the one at the end only if
`follow` is set. -/
def walk (fs : Fs) (follow : Bool) : Nat → Ino → List Name → Walk
  | 0, _, _ => ⟨[], none, .error .eloop⟩
  | _ + 1, dir, [] => ⟨[.object dir], none, .object dir⟩
  | n + 1, dir, name :: rest =>
    match fs.entries dir with
    | none => ⟨[.object dir], none, .error .enotdir⟩
    | some entries =>
      match lookupEntry name entries with
      | none =>
        ⟨[.entry dir name], some (dir, name),
          if rest = [] then .missing dir name else .error .enoent⟩
      | some ino =>
        match fs.node ino with
        | some (.symlink target) =>
          if rest = [] ∧ follow = false then
            ⟨[.entry dir name, .object ino], some (dir, name), .object ino⟩
          else
            let start := if target.head? = some 0x2F then fs.hostRoot else dir
            let next := walk fs follow n start (components target ++ rest)
            { next with touched := [.entry dir name, .follow ino] ++ next.touched }
        | _ =>
          if rest = [] then ⟨[.entry dir name, .object ino], some (dir, name), .object ino⟩
          else
            let next := walk fs follow n ino rest
            { next with touched := .entry dir name :: next.touched }

/-- A bound on the steps of one path resolution. -/
def pathSteps : Nat := 4096

def Kernel.resolve (k : Kernel) (fd : Fd) (path : Name) (follow : Bool) : Walk :=
  if path = [] then ⟨[], none, .error .enoent⟩
  else if path.head? = some 0x2F then walk k.fs follow pathSteps k.fs.hostRoot (components path)
  else match k.ino fd with
    | none => ⟨[.badFd fd], none, .error .ebadf⟩
    | some dir => walk k.fs follow pathSteps dir (components path)

theorem Kernel.desc_lt {k : Kernel} (h : k.desc fd = some i) : i < k.files.length := by
  apply k.valid
  exact List.mem_of_getElem? (Option.join_eq_some_iff.1 h)

def Kernel.dup (k : Kernel) (fd : Fd) : Except Errno Fd × Kernel :=
  match h : k.desc fd with
  | none => (.error .ebadf, k)
  | some i => (.ok k.freeFd, k.install i (desc_lt h))

def Kernel.openObject (k : Kernel) (ino : Ino) (flags : OpenFlags) : Except Errno Fd × Kernel :=
  match k.fs.node ino with
  | none => (.error .enoent, k)
  | some (.symlink _) => (.error (if flags.directory then .enotdir else .eloop), k)
  | some (.directory _) =>
    if flags.write ∨ flags.creat then (.error .eisdir, k)
    else (.ok k.freeFd, k.openFile ⟨ino, 0, false⟩)
  | some (.file _) =>
    if flags.directory then (.error .enotdir, k)
    else
      let k := if flags.trunc then k.withFs (k.fs.setNode ino (.file [])) else k
      (.ok k.freeFd, k.openFile ⟨ino, 0, flags.write⟩)
  | some .other =>
    if flags.directory then (.error .enotdir, k)
    else (.ok k.freeFd, k.openFile ⟨ino, 0, flags.write⟩)

def Kernel.openat (k : Kernel) (fd : Fd) (path : Name) (flags : OpenFlags) (mode : Nat) :
    Except Errno Fd × Kernel :=
  match (k.resolve fd path (!flags.nofollow)).found with
  | .error e => (.error e, k)
  | .object ino => k.openObject ino flags
  | .missing dir name =>
    if h : flags.creat ∧ IsComponent name then
      let k' := k.withFs (k.fs.create dir name h.2 ⟨.file [], mode, 0⟩)
      (.ok k'.freeFd, k'.openFile ⟨k.fs.inodes.length, 0, flags.write⟩)
    else (.error .enoent, k)

def Kernel.close (k : Kernel) (fd : Fd) : Unit × Kernel := ((), k.closeFd fd)

def Fs.stat (fs : Fs) (ino : Ino) : Except Errno Stat :=
  match fs.inodes[ino]? with
  | some inode => .ok inode.stat
  | none => .error .enoent

def Kernel.fstat (k : Kernel) (fd : Fd) : Except Errno Stat :=
  match k.ino fd with
  | some ino => k.fs.stat ino
  | none => .error .ebadf

def Kernel.fstatat (k : Kernel) (fd : Fd) (path : Name) (nofollow : Bool) : Except Errno Stat :=
  match (k.resolve fd path (!nofollow)).found with
  | .object ino => k.fs.stat ino
  | .missing _ _ => .error .enoent
  | .error e => .error e

def Kernel.fdopendir (k : Kernel) (fd : Fd) : Except Errno Unit :=
  match k.ino fd with
  | none => .error .ebadf
  | some ino => if (k.fs.entries ino).isSome then .ok () else .error .enotdir

/-- `readdir` goes on at the offset of the description, whoever left it there. -/
def Kernel.readdir (k : Kernel) (fd : Fd) : Except Errno (Option Name) × Kernel :=
  match k.desc fd, k.file fd with
  | some i, some file =>
    match k.fs.entries file.ino with
    | none => (.error .enotdir, k)
    | some entries =>
      match entries[file.offset]? with
      | some entry => (.ok (some entry.name), k.advance i)
      | none => (.ok none, k)
  | _, _ => (.error .ebadf, k)

def Kernel.pread (k : Kernel) (fd : Fd) (size offset : Nat) : Except Errno (List UInt8) :=
  match k.file fd with
  | none => .error .ebadf
  | some file =>
    if file.write then .error .ebadf
    else match k.fs.node file.ino with
      | some (.file content) => .ok ((content.drop offset).take size)
      | some (.directory _) => .error .eisdir
      | _ => .error .einval

/-- Replace the bytes from an offset on; a gap before it is filled with zeros. -/
def overwrite (content data : List UInt8) (offset : Nat) : List UInt8 :=
  if data = [] then content
  else content.take offset ++ List.replicate (offset - content.length) 0 ++ data ++
    content.drop (offset + data.length)

def Kernel.pwrite (k : Kernel) (fd : Fd) (data : List UInt8) (offset : Nat) :
    Except Errno Nat × Kernel :=
  match k.file fd with
  | none => (.error .ebadf, k)
  | some file =>
    if file.write then
      match k.fs.node file.ino with
      | some (.file content) =>
        (.ok data.length, k.withFs (k.fs.setNode file.ino (.file (overwrite content data offset))))
      | _ => (.error .einval, k)
    else (.error .ebadf, k)

def Kernel.mkdirat (k : Kernel) (fd : Fd) (path : Name) (mode : Nat) : Except Errno Unit × Kernel :=
  match (k.resolve fd path false).found with
  | .error e => (.error e, k)
  | .object _ => (.error .eexist, k)
  | .missing dir name =>
    if h : IsComponent name then
      let entries := [⟨dot, k.fs.inodes.length, by decide⟩, ⟨dotdot, dir, by decide⟩]
      (.ok (), k.withFs (k.fs.create dir name h ⟨.directory entries, mode, 0⟩))
    else (.error .einval, k)

def Kernel.unlinkat (k : Kernel) (fd : Fd) (path : Name) (removedir : Bool) :
    Except Errno Unit × Kernel :=
  let target := k.resolve fd path false
  match target.last, target.found with
  | some (dir, name), .object ino =>
    if name = dot ∨ name = dotdot then (.error .einval, k)
    else match k.fs.entries ino with
      | some entries =>
        if removedir then
          if emptyDirectory entries then (.ok (), k.withFs (k.fs.remove dir name))
          else (.error .enotempty, k)
        else (.error .eisdir, k)
      | none =>
        if removedir then (.error .enotdir, k) else (.ok (), k.withFs (k.fs.remove dir name))
  | _, .error e => (.error e, k)
  | _, .missing _ _ => (.error .enoent, k)
  | none, .object _ => (.error .einval, k)

/-- Going up from `dir` meets `ino` within the given number of steps. -/
def Fs.isBelow (fs : Fs) (ino : Ino) : Nat → Ino → Bool
  | 0, dir => dir = ino
  | n + 1, dir =>
    if dir = ino then true
    else match fs.lookup dir dotdot with
      | some parent => fs.isBelow ino n parent
      | none => false

/-- Move an object to an entry of its own; a directory gets its new parent as `..`. -/
def Fs.move (fs : Fs) (oldDir : Ino) (oldName : Name) (newDir : Ino) (entry : Entry) : Fs :=
  let fs := ((fs.remove oldDir oldName).remove newDir entry.name).setEntries newDir (· ++ [entry])
  fs.setEntries entry.ino (·.map fun e => if e.name = dotdot then { e with ino := newDir } else e)

def Kernel.renameat (k : Kernel) (oldFd : Fd) (oldPath : Name) (newFd : Fd) (newPath : Name) :
    Except Errno Unit × Kernel :=
  let old := k.resolve oldFd oldPath false
  let new := k.resolve newFd newPath false
  match old.last, old.found, new.last, new.found with
  | some (oldDir, oldName), .object ino, some (newDir, newName), target =>
    if h : oldName = dot ∨ oldName = dotdot ∨ newName = dot ∨ newName = dotdot ∨
        ¬ IsComponent newName then (.error .einval, k)
    else if (k.fs.entries ino).isSome ∧ k.fs.isBelow ino k.fs.inodes.length newDir then
      (.error .einval, k)
    else
      let entry : Entry := ⟨newName, ino, by simp only [not_or, not_not] at h; exact h.2.2.2.2⟩
      let moved := k.withFs (k.fs.move oldDir oldName newDir entry)
      match target with
      | .error e => (.error e, k)
      | .missing _ _ => (.ok (), moved)
      | .object replaced =>
        if replaced = ino then (.ok (), k)
        else match k.fs.entries ino, k.fs.entries replaced with
          | none, none => (.ok (), moved)
          | none, some _ => (.error .eisdir, k)
          | some _, none => (.error .enotdir, k)
          | some _, some entries =>
            if emptyDirectory entries then (.ok (), moved) else (.error .enotempty, k)
  | _, .error e, _, _ => (.error e, k)
  | _, _, _, .error e => (.error e, k)
  | _, .missing _ _, _, _ => (.error .enoent, k)
  | _, _, _, _ => (.error .einval, k)

def Kernel.call (k : Kernel) : (op : Call) → op.Ans × Kernel
  | .dup fd => k.dup fd
  | .openat fd path flags mode => k.openat fd path flags mode
  | .close fd => k.close fd
  | .fstat fd => (k.fstat fd, k)
  | .fstatat fd path nofollow => (k.fstatat fd path nofollow, k)
  | .fdopendir fd => (k.fdopendir fd, k)
  | .readdir fd => k.readdir fd
  | .closedir fd => k.close fd
  | .pread fd size offset => (k.pread fd size offset, k)
  | .pwrite fd data offset => k.pwrite fd data offset
  | .mkdirat fd path mode => k.mkdirat fd path mode
  | .unlinkat fd path removedir => k.unlinkat fd path removedir
  | .renameat oldFd oldPath newFd newPath => k.renameat oldFd oldPath newFd newPath

/-- The objects and entries a call touches, whether it succeeds or not. -/
def Kernel.touches (k : Kernel) : Call → List Access
  | .dup fd | .close fd | .closedir fd => if (k.desc fd).isSome then [] else [.badFd fd]
  | .fstat fd | .fdopendir fd | .readdir fd | .pread fd _ _ | .pwrite fd _ _ =>
    match k.ino fd with
    | some ino => [.object ino]
    | none => [.badFd fd]
  | .openat fd path flags _ => (k.resolve fd path (!flags.nofollow)).touched
  | .fstatat fd path nofollow => (k.resolve fd path (!nofollow)).touched
  | .mkdirat fd path _ | .unlinkat fd path _ => (k.resolve fd path false).touched
  | .renameat oldFd oldPath newFd newPath =>
    (k.resolve oldFd oldPath false).touched ++ (k.resolve newFd newPath false).touched

/-- The answers that report a failure. -/
def Call.Failed : (op : Call) → op.Ans → Prop
  | .dup _, r => ∃ e, r = .error e
  | .openat _ _ _ _, r => ∃ e, r = .error e
  | .fstat _, r => ∃ e, r = .error e
  | .fstatat _ _ _, r => ∃ e, r = .error e
  | .fdopendir _, r => ∃ e, r = .error e
  | .readdir _, r => ∃ e, r = .error e
  | .pread _ _ _, r => ∃ e, r = .error e
  | .pwrite _ _ _, r => ∃ e, r = .error e
  | .mkdirat _ _ _, r => ∃ e, r = .error e
  | .unlinkat _ _ _, r => ∃ e, r = .error e
  | .renameat _ _ _ _, r => ∃ e, r = .error e
  | .close _, _ => False
  | .closedir _, _ => False

/-- A call does what it is specified to do, or fails and does nothing; reads and writes may
also be short. -/
inductive Kernel.Can (k : Kernel) : (op : Call) → op.Ans → Kernel → Prop
  | done (op : Call) : Can k op (k.call op).1 (k.call op).2
  | failed : op.Failed r → Can k op r k
  | shortRead : m ≤ size → Can k (.pread fd size offset) (k.pread fd m offset) k
  | shortWrite (m : Nat) : Can k (.pwrite fd data offset) (k.pwrite fd (data.take m) offset).1
      (k.pwrite fd (data.take m) offset).2

/-- A kernel with a record of what was touched, and of the tree at that time. -/
structure Machine where
  kernel : Kernel
  log : List (Fs × Access)

/-- The file system calls, each of which may fail at any time. -/
def posix : Environment Syscalls Machine := fun s op r s' =>
  s.kernel.Can op r s'.kernel ∧
    s'.log = s.log ++ (s.kernel.touches op).map (s.kernel.fs, ·)

theorem posix_answers (s : Machine) (op : Syscalls.Op) : ∃ r s', posix s op r s' :=
  ⟨(s.kernel.call op).1, ⟨(s.kernel.call op).2, _⟩, .done op, rfl⟩

/-- Run a program on a kernel none of whose calls fails without a reason of its own. -/
def Kernel.run (k : Kernel) (p : Program Syscalls α) : α × Kernel := p.run Kernel.call k

/-- Every such run is one of the runs in which calls may fail. -/
theorem Kernel.exec_run (k : Kernel) (p : Program Syscalls α) (log : List (Fs × Access)) :
    ∃ s, Exec posix ⟨k, log⟩ p s (k.run p).1 ∧ s.kernel = (k.run p).2 := by
  have hstep : ∀ (s : Machine) (t : Kernel) (op : Call), s.kernel = t →
      ∃ s₁, posix s op (t.call op).1 s₁ ∧ s₁.kernel = (t.call op).2 := by
    intro s t op h
    subst h
    exact ⟨⟨(s.kernel.call op).2, _⟩, ⟨.done op, rfl⟩, rfl⟩
  exact Program.exec_run (fun (s : Machine) t => s.kernel = t) hstep p rfl

end Posix

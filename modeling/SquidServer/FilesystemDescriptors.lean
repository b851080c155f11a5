import SquidServer.Filesystem
import SquidServer.Handles

namespace Posix
open Interaction Handles
set_option autoImplicit true

/-- The descriptors that the calls open and close; a directory stream is closed with the descriptor
it was made of. -/
def descriptors : Use Syscalls Fd where
  opens e :=
    match e with
    | ⟨.dup _, .ok fd⟩ => some fd
    | ⟨.openat _ _ _ _, .ok fd⟩ => some fd
    | _ => none
  closes e :=
    match e with
    | ⟨.close fd, _⟩ => some fd
    | ⟨.closedir fd, _⟩ => some fd
    | _ => none

/-- The descriptors that a call is about. -/
def Call.uses : Call → List Fd
  | .dup fd | .openat fd _ _ _ | .close fd | .fstat fd | .fstatat fd _ _ | .fdopendir fd
  | .readdir fd | .closedir fd | .pread fd _ _ | .pwrite fd _ _ | .mkdirat fd _ _
  | .unlinkat fd _ _ => [fd]
  | .renameat oldFd _ newFd _ => [oldFd, newFd]

/-- The file system calls with any answers, as long as they keep track of the descriptors. -/
abbrev tracked : Environment Syscalls (Option (List Fd)) := tracking descriptors Call.uses

/-- The descriptors that are open once a call has opened one, or failed to. -/
def withOpened (held : List Fd) : Except Errno Fd → List Fd
  | .ok fd => fd :: held
  | .error _ => held

theorem ensures_dup (h : fd ∈ held) :
    Ensures tracked (dup fd) (fun r s => s = some (withOpened held r) ∧
      ∀ fd', r = .ok fd' → fd' ∉ held) (some held) := by
  refine ensures_ask fun r s hs => ?_
  have hstep := tracking_step hs (by simpa [Call.uses] using h)
  cases r with
  | error e => exact ⟨hstep, fun _ hr => by cases hr⟩
  | ok fd' =>
    refine ⟨hstep, ?_⟩
    rintro _ ⟨⟩
    exact hs.1 held fd' rfl rfl

theorem ensures_openat (h : fd ∈ held) (path : Name) (flags : OpenFlags) (mode : Nat) :
    Ensures tracked (openat fd path flags mode) (fun r s => s = some (withOpened held r) ∧
      ∀ fd', r = .ok fd' → fd' ∉ held) (some held) := by
  refine ensures_ask fun r s hs => ?_
  have hstep := tracking_step hs (by simpa [Call.uses] using h)
  cases r with
  | error e => exact ⟨hstep, fun _ hr => by cases hr⟩
  | ok fd' =>
    refine ⟨hstep, ?_⟩
    rintro _ ⟨⟩
    exact hs.1 held fd' rfl rfl

/-- A program that finds certain descriptors open and leaves others open. -/
def Moves (held held' : List Fd) (p : Program Syscalls α) : Prop :=
  Ensures tracked p (fun _ s => s = some held') (some held)

/-- A program that opens a descriptor, or fails and leaves everything as it was. -/
def Opens (held held' : List Fd) (p : Program Syscalls (Except Errno Fd)) : Prop :=
  Ensures tracked p (fun r s => s = some (withOpened held' r) ∧
    ∀ fd, r = .ok fd → fd ∉ held') (some held)

theorem Moves.pure (held : List Fd) (a : α) : Moves held held (.pure a) := ensures_pure.2 rfl

theorem Moves.bind {p : Program Syscalls α} {f : α → Program Syscalls β} (h : Moves held held' p)
    (hf : ∀ a, Moves held' held'' (f a)) : Moves held held'' (p.bind f) := by
  refine ensures_bind.2 (Ensures.mono h ?_)
  rintro a _ rfl
  exact hf a

theorem Opens.bind {p : Program Syscalls (Except Errno Fd)}
    {f : Except Errno Fd → Program Syscalls β} (h : Opens held held' p)
    (herror : ∀ e, Moves held' held'' (f (.error e)))
    (hok : ∀ fd, fd ∉ held' → Moves (fd :: held') held'' (f (.ok fd))) :
    Moves held held'' (p.bind f) := by
  refine ensures_bind.2 (Ensures.mono h ?_)
  rintro r _ ⟨rfl, hfresh⟩
  cases r with
  | error e => exact herror e
  | ok fd => exact hok fd (hfresh fd rfl)

theorem moves_call (op : Call) (h : ∀ fd ∈ op.uses, fd ∈ held)
    (hquiet : ∀ r, descriptors.opens ⟨op, r⟩ = none ∧ descriptors.closes ⟨op, r⟩ = none) :
    Moves held held (Program.ask (E := Syscalls) op) := ensures_tracking_use h hquiet

theorem moves_close (h : fd ∈ held) : Moves held (held.erase fd) (close fd) :=
  ensures_tracking_close (by simp [Call.uses]) h fun _ => ⟨rfl, rfl⟩

theorem moves_closedir (fd : Fd) (held : List Fd) : Moves (fd :: held) held (closedir fd) := by
  have h : Moves (fd :: held) ((fd :: held).erase fd) (closedir fd) :=
    ensures_tracking_close (by simp [Call.uses]) List.mem_cons_self fun _ => ⟨rfl, rfl⟩
  rwa [List.erase_cons_head] at h

theorem moves_close_last (fd : Fd) (held : List Fd) : Moves (fd :: held) held (close fd) := by
  have h : Moves (fd :: held) ((fd :: held).erase fd) (close fd) := moves_close List.mem_cons_self
  rwa [List.erase_cons_head] at h

theorem moves_close_second (h : last ≠ fd) (held : List Fd) :
    Moves (last :: fd :: held) (last :: held) (close fd) := by
  have hclose : Moves (last :: fd :: held) ((last :: fd :: held).erase fd) (close fd) :=
    moves_close (List.mem_cons_of_mem _ List.mem_cons_self)
  rwa [List.erase_cons_tail (by simpa using h), List.erase_cons_head] at hclose

end Posix

namespace SquidServer.Filesystem
open Interaction Posix Wire
set_option autoImplicit true

theorem openComponents_opens (h : fd ∉ held) (comps : List Name) :
    Opens (fd :: held) held (openComponents fd comps) := by
  induction comps generalizing fd with
  | nil =>
    refine ensures_pure.2 ⟨rfl, ?_⟩
    rintro _ ⟨⟩
    exact h
  | cons c rest ih =>
    refine ensures_bind.2 ((ensures_openat List.mem_cons_self c directoryFlags 0).mono ?_)
    rintro r _ ⟨rfl, hfresh⟩
    refine ensures_bind.2 ?_
    cases r with
    | error e =>
      refine (moves_close_last fd held).mono ?_
      rintro _ _ rfl
      exact ensures_pure.2 ⟨rfl, fun _ hr => by cases hr⟩
    | ok next =>
      have hnext := hfresh next rfl
      rw [List.mem_cons, not_or] at hnext
      refine (moves_close_second hnext.1 held).mono ?_
      rintro _ _ rfl
      exact ih hnext.2

section
variable {context : SquidFsContext} {held : List Fd}

theorem openDirectoryPath_opens
    (hroot : ∀ rootFd, context.rootFd = some rootFd → rootFd ∈ held) (path : Name) :
    Opens held held (openDirectoryPath context path) := by
  rw [openDirectoryPath, openRootCopy]
  cases hctx : context.rootFd with
  | none => exact ensures_pure.2 ⟨rfl, fun _ hr => by cases hr⟩
  | some rootFd =>
    refine ensures_bind.2 ((ensures_dup (hroot rootFd hctx)).mono ?_)
    rintro r _ ⟨rfl, hfresh⟩
    cases r with
    | error e => exact ensures_pure.2 ⟨rfl, fun _ hr => by cases hr⟩
    | ok directoryFd =>
      dsimp only
      split
      · exact ensures_pure.2 ⟨rfl, hfresh⟩
      · exact openComponents_opens (hfresh directoryFd rfl) _

theorem openParentDirectory_bind
    (hroot : ∀ rootFd, context.rootFd = some rootFd → rootFd ∈ held) (path : Name)
    {f : Except Errno (Fd × Name) → Program Syscalls β}
    (herror : ∀ e, Moves held held' (f (.error e)))
    (hok : ∀ fd leaf, fd ∉ held → Moves (fd :: held) held' (f (.ok (fd, leaf)))) :
    Moves held held' ((openParentDirectory context path).bind f) := by
  rw [openParentDirectory]
  split
  · exact herror _
  · rw [Program.bind_eq, Program.bind_assoc]
    refine Opens.bind (openDirectoryPath_opens hroot _) ?_ ?_
    · intro e
      exact herror e
    · intro fd hfd
      exact hok fd _ hfd

theorem handleStat_moves (hroot : ∀ rootFd, context.rootFd = some rootFd → rootFd ∈ held)
    (opcode : UInt8) (request : List UInt8) (responseCapacity : Nat) :
    Moves held held (handleStat context opcode request responseCapacity) := by
  rw [handleStat]
  split
  · exact .pure _ _
  split
  · split
    · exact .pure _ _
    · rename_i rootFd hctx
      refine .bind (moves_call (.fstat rootFd) ?_ fun _ => ⟨rfl, rfl⟩) fun _ => .pure _ _
      simpa [Call.uses] using hroot rootFd hctx
  · refine openParentDirectory_bind hroot _ (fun _ => .pure _ _) fun parentFd leaf _ => ?_
    refine .bind (moves_call (.fstatat parentFd leaf true) (by simp [Call.uses])
      fun _ => ⟨rfl, rfl⟩) fun _ => ?_
    exact .bind (moves_close_last parentFd held) fun _ => .pure _ _

theorem readFile_moves (h : fd ∈ held) (opcode : UInt8) (offset : UInt32) (maximumBytes : UInt8)
    (responseCapacity : Nat) :
    Moves held held (readFile fd opcode offset maximumBytes responseCapacity) := by
  refine .bind (moves_call (.fstat fd) (by simpa [Call.uses] using h) fun _ => ⟨rfl, rfl⟩) ?_
  intro r
  cases r with
  | error e => exact .pure _ _
  | ok information =>
    dsimp only
    split
    · exact .pure _ _
    split
    · exact .pure _ _
    split
    · exact .pure _ _
    split
    · exact .pure _ _
    refine .bind (moves_call (.pread fd _ _) (by simpa [Call.uses] using h) fun _ => ⟨rfl, rfl⟩)
      fun r => ?_
    cases r with
    | error e => exact .pure _ _
    | ok data => exact .pure _ _

theorem openat_bind (parentFd : Fd) (held : List Fd) (path : Name) (flags : OpenFlags) (mode : Nat)
    {f : Except Errno Fd → Program Syscalls β} (herror : ∀ e, Moves held held' (f (.error e)))
    (hok : ∀ fd, Moves (fd :: held) held' (f (.ok fd))) :
    Moves (parentFd :: held) held' ((openat parentFd path flags mode).bind fun file =>
      (close parentFd).bind fun _ => f file) := by
  refine Opens.bind (ensures_openat List.mem_cons_self path flags mode) ?_ ?_
  · intro e
    exact .bind (moves_close_last parentFd held) fun _ => herror e
  · intro fd hfd
    rw [List.mem_cons, not_or] at hfd
    exact .bind (moves_close_second hfd.1 held) fun _ => hok fd

theorem handleRead_moves (hroot : ∀ rootFd, context.rootFd = some rootFd → rootFd ∈ held)
    (opcode : UInt8) (request : List UInt8) (responseCapacity : Nat) :
    Moves held held (handleRead context opcode request responseCapacity) := by
  rw [handleRead]
  split
  · exact .pure _ _
  split
  · exact .pure _ _
  refine openParentDirectory_bind hroot _ (fun _ => .pure _ _) fun parentFd leaf _ => ?_
  refine openat_bind parentFd held leaf readFlags 0 (fun _ => .pure _ _) fun fileFd => ?_
  refine .bind (readFile_moves List.mem_cons_self opcode _ _ _) fun _ => ?_
  exact .bind (moves_close_last fileFd held) fun _ => .pure _ _

theorem writeFile_moves (h : fd ∈ held) (data : List UInt8) (offset : UInt32) :
    Moves held held (writeFile fd data offset) := by
  refine .bind (moves_call (.fstat fd) (by simpa [Call.uses] using h) fun _ => ⟨rfl, rfl⟩) ?_
  intro r
  cases r with
  | error e => exact .pure _ _
  | ok information =>
    dsimp only
    split
    · exact .pure _ _
    refine .bind (moves_call (.pwrite fd _ _) (by simpa [Call.uses] using h) fun _ => ⟨rfl, rfl⟩)
      fun r => ?_
    cases r with
    | error e => exact .pure _ _
    | ok bytesWritten => exact .pure _ _

theorem handleWrite_moves (hroot : ∀ rootFd, context.rootFd = some rootFd → rootFd ∈ held)
    (opcode : UInt8) (request : List UInt8) (responseCapacity : Nat) :
    Moves held held (handleWrite context opcode request responseCapacity) := by
  rw [handleWrite]
  split
  · exact .pure _ _
  split
  · exact .pure _ _
  refine openParentDirectory_bind hroot _ (fun _ => .pure _ _) fun parentFd leaf _ => ?_
  refine openat_bind parentFd held leaf _ _ (fun _ => .pure _ _) fun fileFd => ?_
  refine .bind (writeFile_moves List.mem_cons_self _ _) fun result => ?_
  refine .bind (moves_close_last fileFd held) fun _ => ?_
  cases result with
  | error status => exact .pure _ _
  | ok bytesWritten =>
    dsimp only
    split
    · exact .pure _ _
    · exact .pure _ _

theorem mkdirOrDelete_moves (h : fd ∈ held) (opcode : UInt8) (leaf : Name) :
    Moves held held (mkdirOrDelete opcode fd leaf) := by
  rw [mkdirOrDelete]
  split
  · exact moves_call (.mkdirat fd leaf _) (by simpa [Call.uses] using h) fun _ => ⟨rfl, rfl⟩
  · refine .bind (moves_call (.fstatat fd leaf true) (by simpa [Call.uses] using h)
      fun _ => ⟨rfl, rfl⟩) fun r => ?_
    cases r with
    | error e => exact .pure _ _
    | ok information =>
      exact moves_call (.unlinkat fd leaf _) (by simpa [Call.uses] using h) fun _ => ⟨rfl, rfl⟩

theorem handleMkdirOrDelete_moves
    (hroot : ∀ rootFd, context.rootFd = some rootFd → rootFd ∈ held) (opcode : UInt8)
    (request : List UInt8) (responseCapacity : Nat) :
    Moves held held (handleMkdirOrDelete context opcode request responseCapacity) := by
  rw [handleMkdirOrDelete]
  split
  · exact .pure _ _
  split
  · exact .pure _ _
  refine openParentDirectory_bind hroot _ (fun _ => .pure _ _) fun parentFd leaf _ => ?_
  refine .bind (mkdirOrDelete_moves List.mem_cons_self opcode leaf) fun _ => ?_
  exact .bind (moves_close_last parentFd held) fun _ => .pure _ _

theorem handleRename_moves (hroot : ∀ rootFd, context.rootFd = some rootFd → rootFd ∈ held)
    (opcode : UInt8) (request : List UInt8) (responseCapacity : Nat) :
    Moves held held (handleRename context opcode request responseCapacity) := by
  rw [handleRename]
  split
  · exact .pure _ _
  split
  · exact .pure _ _
  refine openParentDirectory_bind hroot _ (fun _ => .pure _ _) fun oldParent oldLeaf _ => ?_
  refine openParentDirectory_bind
    (fun rootFd hctx => List.mem_cons_of_mem oldParent (hroot rootFd hctx)) _ ?_ ?_
  · exact fun _ => .bind (moves_close_last oldParent held) fun _ => .pure _ _
  · intro newParent newLeaf hnew
    rw [List.mem_cons, not_or] at hnew
    refine .bind (moves_call (.renameat oldParent oldLeaf newParent newLeaf) (by simp [Call.uses])
      fun _ => ⟨rfl, rfl⟩) fun _ => ?_
    refine .bind (moves_close_second hnew.1 held) fun _ => ?_
    exact .bind (moves_close_last newParent held) fun _ => .pure _ _

theorem listEntry_moves (h : fd ∈ held) (cursor : UInt16) (responseCapacity : Nat)
    (page : ListPage) : Moves held held (listEntry fd cursor responseCapacity page) := by
  refine .bind (moves_call (.readdir fd) (by simpa [Call.uses] using h) fun _ => ⟨rfl, rfl⟩)
    fun r => ?_
  split
  · exact .pure _ _
  · exact .pure _ _
  split
  · exact .pure _ _
  split
  · exact .pure _ _
  dsimp only
  split
  · exact .pure _ _
  refine .bind (moves_call (.fstatat fd _ true) (by simpa [Call.uses] using h)
    fun _ => ⟨rfl, rfl⟩) fun r => ?_
  split
  · exact .pure _ _
  split
  · split
    · exact .pure _ _
    · exact .pure _ _
  · exact .pure _ _

/-- The loop of LIST is cut off only after as many calls as it may make turns. -/
theorem listLoop_moves (h : fd ∈ held) (cursor : UInt16) (responseCapacity fuel n : Nat)
    (page : ListPage) :
    Ensures (counting tracked) (Program.loop (listEntry fd cursor responseCapacity) fuel page)
      (fun r s => s.1 = some held ∧ (r = none → fuel ≤ s.2)) (some held, n) := by
  refine ensures_loop (fun turns _ s => s.1 = some held ∧ fuel ≤ s.2 + turns) ?_ ?_
    ⟨rfl, Nat.le_add_left fuel n⟩
  · rintro page ⟨_, m⟩ ⟨rfl, hcount⟩
    exact ⟨rfl, fun _ => hcount⟩
  · rintro turns page ⟨_, m⟩ ⟨rfl, hcount⟩
    refine Ensures.mono
      (ensures_counting_call (listEntry_moves h cursor responseCapacity page) trivial m) ?_
    rintro x ⟨_, m'⟩ ⟨rfl, hgrown⟩
    cases x with
    | inl page' => exact ⟨rfl, by dsimp only at hgrown ⊢; omega⟩
    | inr result => exact ⟨rfl, fun hnone => by cases hnone⟩

/-- What a request leaves open, unless it is cut off: what was open before. -/
def LeavesOpen (held : List Fd) (fuel : Nat) (s : Option (List Fd) × Nat) : Prop :=
  s.1 ≠ none ∧ (s.2 < fuel → s.1 = some held)

theorem LeavesOpen.of_eq (h : s.1 = some held) : LeavesOpen held fuel s :=
  ⟨by rw [h]; exact Option.some_ne_none held, fun _ => h⟩

theorem leavesOpen_of_moves {p : Program Syscalls α} (h : Moves held' held p) (fuel n : Nat) :
    Ensures (counting tracked) p (fun _ s => LeavesOpen held fuel s) (some held', n) := by
  refine (ensures_counting h n).mono ?_
  rintro a s ⟨hs, -⟩
  exact .of_eq hs

theorem handleList_leavesOpen
    (hroot : ∀ rootFd, context.rootFd = some rootFd → rootFd ∈ held) (fuel : Nat) (opcode : UInt8)
    (request : List UInt8) (responseCapacity : Nat) :
    Ensures (counting tracked) (handleList fuel context opcode request responseCapacity)
      (fun _ s => LeavesOpen held fuel s) (some held, 0) := by
  rw [handleList]
  split
  · exact ensures_pure.2 (.of_eq rfl)
  dsimp only
  split
  · exact ensures_pure.2 (.of_eq rfl)
  refine ensures_bind.2 ((ensures_counting (openDirectoryPath_opens hroot _) 0).mono ?_)
  rintro r ⟨_, m⟩ ⟨⟨rfl, -⟩, -⟩
  cases r with
  | error e => exact ensures_pure.2 (.of_eq rfl)
  | ok directoryFd =>
    have hopendir : Moves (directoryFd :: held) (directoryFd :: held) (fdopendir directoryFd) :=
      moves_call (.fdopendir directoryFd) (by simp [Call.uses]) fun _ => ⟨rfl, rfl⟩
    refine ensures_bind.2 ((ensures_counting hopendir m).mono ?_)
    rintro r ⟨_, m₁⟩ ⟨rfl, -⟩
    cases r with
    | error e =>
      have hclose : Moves (directoryFd :: held) held ((close directoryFd).bind fun _ => .pure
          (writeResponse opcode (statusFromErrno e) responseCapacity)) :=
        (moves_close_last directoryFd held).bind fun _ => .pure _ _
      exact leavesOpen_of_moves hclose fuel m₁
    | ok _ =>
      have hclose : ∀ reply : Response, Moves (directoryFd :: held) held
          ((closedir directoryFd).bind fun _ => .pure reply) := by
        intro reply
        exact (moves_closedir directoryFd held).bind fun _ => .pure _ _
      refine ensures_bind.2 ((listLoop_moves List.mem_cons_self _ _ _ _ _).mono ?_)
      rintro r ⟨_, m₂⟩ ⟨rfl, hcut⟩
      cases r with
      | none =>
        refine ensures_pure.2 ⟨Option.some_ne_none _, ?_⟩
        intro hlt
        exact absurd (hcut rfl) (Nat.not_le.2 hlt)
      | some result =>
        cases result with
        | error status => exact leavesOpen_of_moves (hclose _) fuel m₂
        | ok page => exact leavesOpen_of_moves (hclose _) fuel m₂

/-- A request gives back every descriptor it takes, closes none twice and uses none that is
closed, whatever its calls answer. -/
theorem handleSquidFsRequest_descriptors
    (hroot : ∀ rootFd, context.rootFd = some rootFd → rootFd ∈ held) (fuel : Nat)
    (request : List UInt8) (responseCapacity : Nat) :
    Ensures (counting tracked) (handleSquidFsRequest fuel context request responseCapacity)
      (fun _ s => LeavesOpen held fuel s) (some held, 0) := by
  cases request with
  | nil => exact ensures_pure.2 (.of_eq rfl)
  | cons opcode rest =>
    rw [handleSquidFsRequest]
    split
    · exact ensures_pure.2 (.of_eq rfl)
    split
    · split
      · exact ensures_pure.2 (.of_eq rfl)
      · exact ensures_pure.2 (.of_eq rfl)
    split
    · exact leavesOpen_of_moves (handleStat_moves hroot _ _ _) fuel 0
    split
    · exact handleList_leavesOpen hroot _ _ _ _
    split
    · exact leavesOpen_of_moves (handleRead_moves hroot _ _ _) fuel 0
    split
    · exact leavesOpen_of_moves (handleWrite_moves hroot _ _ _) fuel 0
    split
    · exact leavesOpen_of_moves (handleMkdirOrDelete_moves hroot _ _ _) fuel 0
    split
    · exact leavesOpen_of_moves (handleRename_moves hroot _ _ _) fuel 0
    · exact ensures_pure.2 (.of_eq rfl)

end

/-- The answers of calls that all fail. -/
def failing : (op : Call) → op.Ans
  | .dup _ => .error .eio
  | .openat _ _ _ _ => .error .eio
  | .close _ => ()
  | .fstat _ => .error .eio
  | .fstatat _ _ _ => .error .eio
  | .fdopendir _ => .error .eio
  | .readdir _ => .error .eio
  | .closedir _ => ()
  | .pread _ _ _ => .error .eio
  | .pwrite _ _ _ => .error .eio
  | .mkdirat _ _ _ => .error .eio
  | .unlinkat _ _ _ => .error .eio
  | .renameat _ _ _ _ => .error .eio

theorem tracked_answers (s : Option (List Fd) × Nat) (op : Syscalls.Op) :
    ∃ r s', counting tracked s op r s' := by
  refine ⟨failing op, ⟨_, _⟩, ⟨?_, rfl⟩, rfl⟩
  intro held fd _ hopens
  cases op <;> cases hopens

/-- A READ, with descriptor 3 open on the root. -/
theorem handleSquidFsRequest_descriptors_read : ∃ reply s,
    Exec (counting tracked) (some [3], 0) (handleSquidFsRequest 8 ⟨some 3, false⟩
      [0x03, 0, 0, 0, 0, 0, 1, 0x66] 255) s reply ∧ LeavesOpen [3] 8 s := by
  obtain ⟨s, reply, he⟩ := exists_exec tracked_answers (handleSquidFsRequest 8 ⟨some 3, false⟩
    [0x03, 0, 0, 0, 0, 0, 1, 0x66] 255) (some [3], 0)
  refine ⟨reply, s, he, handleSquidFsRequest_descriptors ?_ 8 _ _ _ _ he⟩
  rintro rootFd ⟨⟩
  exact List.mem_singleton_self 3

end SquidServer.Filesystem

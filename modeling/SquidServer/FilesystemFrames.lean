import SquidServer.FilesystemEffects
import SquidServer.PosixTree

namespace SquidServer.Filesystem
open Interaction Posix Wire
set_option autoImplicit true

/-- The status byte of a reply. -/
def replyStatus (reply : Response) : Option UInt8 := reply.bind (·[1]?)

theorem SquidFsStatus.code_eq_ok {status : SquidFsStatus} :
    status.code = SquidFsStatus.ok.code ↔ status = .ok := by
  cases status <;> decide

theorem replyStatus_writeResponse
    (h : replyStatus (writeResponse opcode status capacity) = some code) :
    code = status.code := by
  rw [writeResponse] at h
  split at h
  · cases h
  · cases h
    rfl

theorem replyStatus_ne_ok (h : status ≠ .ok) :
    replyStatus (writeResponse opcode status capacity) ≠ some SquidFsStatus.ok.code := by
  intro hreply
  exact h (SquidFsStatus.code_eq_ok.1 (replyStatus_writeResponse hreply).symm)

/-- A WRITE has done no more than open its file, which made the file or emptied it. -/
inductive OpenedOnly (fs : Fs) (root : Ino) (request : List UInt8) (fs' : Fs) : Prop
  | created (offset : UInt32) (flags : UInt8) (path : Name) (data : List UInt8) (dir n : Ino) :
      (Operation.write offset flags path data).Valid →
      request = (Operation.write offset flags path data).encode →
      flags &&& squidFsWriteCreate ≠ 0 → parentDirectory fs root path = .ok dir →
      fs.lookup dir (leafOf path) = none → fs.node n = none →
      fs'.tree = fs.tree.addFile dir (leafOf path) n → OpenedOnly fs root request fs'
  | emptied (offset : UInt32) (flags : UInt8) (path : Name) (data : List UInt8) (dir n : Ino)
      (content : List UInt8) : (Operation.write offset flags path data).Valid →
      request = (Operation.write offset flags path data).encode →
      flags &&& squidFsWriteTruncate ≠ 0 → parentDirectory fs root path = .ok dir →
      fs.lookup dir (leafOf path) = some n → fs.node n = some (.file content) →
      fs'.tree = fs.tree.setObject n (.file []) → OpenedOnly fs root request fs'

theorem openedOnly_of_writeOpened (fields : WriteRequest)
    (hparses : Parses request (.write fields.offset fields.flags fields.path fields.data))
    (hdir : parentDirectory fs root fields.path = .ok dir)
    (h : fs.WriteOpened dir (leafOf fields.path) (writeFlags fields.flags) mode fs₁ n) :
    fs₁ = fs ∨ OpenedOnly fs root request fs₁ := by
  obtain ⟨hvalid, hrequest⟩ := hparses.encoded
  cases h with
  | kept _ _ _ => exact .inl rfl
  | special _ _ => exact .inl rfl
  | truncated hlookup hfile htrunc =>
    right
    exact .emptied _ _ _ _ dir n _ hvalid hrequest (of_decide_eq_true htrunc) hdir hlookup hfile
      (Fs.tree_setFile hfile [])
  | created hn hes hnone hcreat =>
    right
    exact .created _ _ _ _ dir _ hvalid hrequest (of_decide_eq_true hcreat) hdir
      (Fs.lookup_absent hes hnone) fs.node_length (Fs.tree_createFile hes hnone hn _ _)

theorem Outcome.error (h : Outcome fs root context request responseCapacity reply fs')
    (hreply : replyStatus reply = some code) (hcode : code ≠ SquidFsStatus.ok.code) :
    fs' = fs ∨ OpenedOnly fs root request fs' := by
  cases h with
  | silent => exact .inl rfl
  | looked _ => exact .inl rfl
  | refused _ => exact .inl rfl
  | wrote hparses _ houtcome =>
    cases houtcome with
    | refused _ => exact .inl rfl
    | opened hdir hopened _ =>
      exact openedOnly_of_writeOpened ⟨_, _, _, _⟩ hparses hdir hopened
    | written _ _ _ _ =>
      rw [answerWrite] at hreply
      split at hreply
      · cases hreply
      · cases hreply
        exact absurd rfl hcode
  | edited _ _ houtcome =>
    cases houtcome with
    | refused => exact .inl rfl
    | changed _ => exact absurd (replyStatus_writeResponse hreply) hcode

/-- A request that is answered with an error leaves the tree as it was, but for a WRITE, which
opens its file before it can fail. -/
theorem handleSquidFsRequest_error {context : SquidFsContext} {k : Kernel}
    (hroot : ∀ rootFd, context.rootFd = some rootFd → k.ino rootFd = some root) (fuel : Nat)
    (request : List UInt8) (responseCapacity : Nat) :
    Ensures faulty (handleSquidFsRequest fuel context request responseCapacity) (fun reply k' =>
      ∀ status, replyStatus reply = some status → status ≠ SquidFsStatus.ok.code →
        k'.fs = k.fs ∨ OpenedOnly k.fs root request k'.fs) k := by
  refine (handleSquidFsRequest_outcome hroot fuel request responseCapacity).mono ?_
  intro reply k' h status hreply hstatus
  exact h.error hreply hstatus

/-- The calls of a host whose disk is full. -/
def fullDisk (k : Kernel) : (op : Call) → op.Ans × Kernel
  | .pwrite _ _ _ => (.error .enospc, k)
  | op => k.call op

theorem fullDisk_can (k : Kernel) (op : Call) : k.Can op (fullDisk k op).1 (fullDisk k op).2 := by
  cases op with
  | pwrite fd data offset => exact .failed ⟨.enospc, rfl⟩
  | _ => exact .done _

theorem exec_fullDisk (k : Kernel) (p : Program Syscalls α) :
    Exec faulty k p (p.run fullDisk k).2 (p.run fullDisk k).1 := by
  have hstep : ∀ (s t : Kernel) (op : Call), s = t →
      ∃ s₁, faulty s op (fullDisk t op).1 s₁ ∧ s₁ = (fullDisk t op).2 := by
    rintro s _ op rfl
    exact ⟨_, fullDisk_can s op, rfl⟩
  obtain ⟨k', he, rfl⟩ := Program.exec_run (fun s t : Kernel => s = t) hstep p rfl
  exact he

/-- A WRITE of one byte to `f`, which empties the file first. -/
def truncatingWrite : List UInt8 := [0x04, 0, 0, 0, 0, 0x02, 1, 0x66, 1, 9]

theorem linkedKernel_root (rootFd : Fd)
    (h : (⟨some 0, false⟩ : SquidFsContext).rootFd = some rootFd) :
    linkedKernel.ino rootFd = some 1 := by
  cases h
  rfl

theorem handleSquidFsRequest_error_full : ∃ k' reply,
    Exec faulty linkedKernel (handleSquidFsRequest 1 ⟨some 0, false⟩ truncatingWrite 255) k' reply ∧
      (k'.fs = linkedKernel.fs ∨ OpenedOnly linkedKernel.fs 1 truncatingWrite k'.fs) :=
  ⟨_, _, exec_fullDisk linkedKernel _, handleSquidFsRequest_error linkedKernel_root 1 _ _ _ _
    (exec_fullDisk linkedKernel _) 0x0A (by decide +kernel) (by decide)⟩

/-- The disk is full when the file has been emptied. -/
theorem truncating_write_empties : ¬ ∀ (context : SquidFsContext) (root : Ino) (k k' : Kernel)
    (request : List UInt8) (reply : Response) (status : UInt8),
    (∀ rootFd, context.rootFd = some rootFd → k.ino rootFd = some root) →
    Exec faulty k (handleSquidFsRequest 1 context request 255) k' reply →
    replyStatus reply = some status → status ≠ SquidFsStatus.ok.code → k'.fs.tree = k.fs.tree := by
  intro h
  have hsame := h ⟨some 0, false⟩ 1 linkedKernel _ truncatingWrite _ 0x0A linkedKernel_root
    (exec_fullDisk linkedKernel _) (by decide +kernel) (by decide)
  have hfile := congrArg (fun t => t.object 2) hsame
  revert hfile
  decide +kernel

/-- The tree after a WRITE that was answered with OK, for so many bytes. -/
inductive WriteEffect (fs : Fs) (root : Ino) (fields : WriteRequest) (bytesWritten : Nat)
    (fs' : Fs) : Prop
  | replaced (dir n : Ino) (content : List UInt8) : parentDirectory fs root fields.path = .ok dir →
      fs.lookup dir (leafOf fields.path) = some n → fs.node n = some (.file content) →
      fs'.tree = fs.tree.setObject n (.file (overwrite
        (if fields.flags &&& squidFsWriteTruncate ≠ 0 then [] else content)
        (fields.data.take bytesWritten) fields.offset.toNat)) →
      WriteEffect fs root fields bytesWritten fs'
  | created (dir n : Ino) : parentDirectory fs root fields.path = .ok dir →
      fs.lookup dir (leafOf fields.path) = none → fields.flags &&& squidFsWriteCreate ≠ 0 →
      fs.node n = none →
      fs'.tree = (fs.tree.addFile dir (leafOf fields.path) n).setObject n
        (.file (overwrite [] (fields.data.take bytesWritten) fields.offset.toNat)) →
      WriteEffect fs root fields bytesWritten fs'

/-- The tree after an operation that was answered with OK. -/
def Operation.Effect (fs : Fs) (root : Ino) (reply : Response) (fs' : Fs) : Operation → Prop
  | .stat _ => fs' = fs
  | .list _ _ => fs' = fs
  | .read _ _ _ => fs' = fs
  | .write offset flags path data => ∃ bytesWritten ≤ data.length,
      reply = some (writeOkResponse squidFsOpWrite offset bytesWritten) ∧
        WriteEffect fs root ⟨offset, flags, path, data⟩ bytesWritten fs'
  | .mkdir path => ∃ dir n, parentDirectory fs root path = .ok dir ∧
      fs.lookup dir (leafOf path) = none ∧ fs.node n = none ∧
      fs'.tree = fs.tree.addDirectory dir (leafOf path) n
  | .delete path => ∃ dir n, parentDirectory fs root path = .ok dir ∧
      fs.lookup dir (leafOf path) = some n ∧
      (∀ es, fs.entries n = some es → emptyDirectory es = true) ∧
      fs'.tree = fs.tree.setEntry dir (leafOf path) none
  | .rename oldPath newPath => ∃ oldDir newDir n, parentDirectory fs root oldPath = .ok oldDir ∧
      parentDirectory fs root newPath = .ok newDir ∧ fs.lookup oldDir (leafOf oldPath) = some n ∧
      fs'.tree = if fs.lookup newDir (leafOf newPath) = some n then fs.tree
        else fs.tree.move oldDir (leafOf oldPath) newDir (leafOf newPath) n

theorem WriteOutcome.effect (h : WriteOutcome fs root fields (.ok m) fs') :
    m ≤ fields.data.length ∧ WriteEffect fs root fields m fs' := by
  cases h with
  | @written dir fs₁ n content _ hdir hopened hcontent hm =>
    refine ⟨hm, ?_⟩
    have htree := Fs.tree_setFile hcontent
      (overwrite content (fields.data.take m) fields.offset.toNat)
    cases hopened with
    | kept hlookup hfile htrunc =>
      cases hfile.symm.trans hcontent
      refine .replaced dir n content hdir hlookup hfile ?_
      rw [if_neg (of_decide_eq_false htrunc)]
      exact htree
    | @truncated _ content₀ hlookup hfile htrunc =>
      have hempty : (fs.setNode n (.file [])).node n = some (.file []) := by
        rw [Fs.node_setNode, if_pos rfl, hfile]
        rfl
      cases hempty.symm.trans hcontent
      refine .replaced dir n content₀ hdir hlookup hfile ?_
      rw [if_pos (of_decide_eq_true htrunc), htree, Fs.tree_setFile hfile, Tree.setObject_setObject]
    | special _ hother => cases hother.symm.trans hcontent
    | created hn hes hnone hcreat =>
      have hobject := congrArg (fun t => t.object fs.inodes.length)
        (Fs.tree_createFile hes hnone hn 0o666 0)
      simp only [Fs.tree, Tree.addFile, Tree.setObject, Tree.setEntry, if_true, hcontent,
        Option.map_some, Node.object, Option.some.injEq, Object.file.injEq] at hobject
      subst hobject
      refine .created dir _ hdir (Fs.lookup_absent hes hnone) (of_decide_eq_true hcreat)
        fs.node_length ?_
      rw [htree, Fs.tree_createFile hes hnone hn]

theorem EntryChange.effect {fs : Fs} (h : EntryChange fs root operation fs') (hd : fs.Distinct)
    (reply : Response) : operation.Effect fs root reply fs' := by
  cases h with
  | mkdir hn hdir hes hnone =>
    exact ⟨_, _, hdir, Fs.lookup_absent hes hnone, fs.node_length,
      Fs.tree_createDirectory hes hnone hn _ _⟩
  | delete hdir hlookup hempty => exact ⟨_, _, hdir, hlookup, hempty, hd.tree_remove _ _⟩
  | kept hold hnew hlookup hsame =>
    refine ⟨_, _, _, hold, hnew, hlookup, ?_⟩
    rw [if_pos hsame]
  | moved hn hold hnew hlookup hdiffers hdir holdName hnewName =>
    refine ⟨_, _, _, hold, hnew, hlookup, ?_⟩
    rw [if_neg hdiffers]
    exact hd.tree_move hdir holdName hnewName hn _

theorem EntryChange.mutating (h : EntryChange fs root operation fs') :
    Mutating operation.opcode := by
  cases h with
  | mkdir _ _ _ _ => exact .inr (.inl rfl)
  | delete _ _ _ => exact .inr (.inr (.inl rfl))
  | kept _ _ _ _ => exact .inr (.inr (.inr rfl))
  | moved _ _ _ _ _ _ _ _ => exact .inr (.inr (.inr rfl))

/-- What a request may do to a tree. -/
structure KeepsFrame (fs : Fs) (root : Ino) (context : SquidFsContext) (request : List UInt8)
    (reply : Response) (fs' : Fs) : Prop where
  looks : ∀ opcode rest, request = opcode :: rest → ¬ Mutating opcode → fs' = fs
  readOnly : context.readOnly = true → fs' = fs
  malformed : (¬ ∃ operation : Operation, operation.Valid ∧ request = operation.encode) → fs' = fs
  effect : ∀ operation : Operation, operation.Valid → request = operation.encode →
    replyStatus reply = some SquidFsStatus.ok.code → operation.Effect fs root reply fs'

theorem keepsFrame_refl {context : SquidFsContext}
    (h : ∀ operation : Operation, operation.Valid → request = operation.encode →
      replyStatus reply = some SquidFsStatus.ok.code → operation.Effect fs root reply fs) :
    KeepsFrame fs root context request reply fs :=
  ⟨fun _ _ _ _ => rfl, fun _ => rfl, fun _ => rfl, h⟩

theorem keepsFrame_of_parses (hparses : Parses request operation)
    (hmutating : Mutating operation.opcode) (hwritable : context.readOnly = false)
    (h : replyStatus reply = some SquidFsStatus.ok.code → operation.Effect fs root reply fs') :
    KeepsFrame fs root context request reply fs' := by
  obtain ⟨hvalid, hrequest⟩ := hparses.encoded
  constructor
  case looks =>
    rintro opcode rest rfl hlooks
    rw [hparses.opcode_eq] at hmutating
    exact absurd hmutating hlooks
  case readOnly =>
    intro hread
    exact absurd (hwritable.symm.trans hread) Bool.false_ne_true
  case malformed =>
    intro hnone
    exact absurd ⟨operation, hvalid, hrequest⟩ hnone
  case effect =>
    intro operation' hvalid' hrequest' hreply
    rw [Operation.encode_injective hvalid' hvalid (hrequest'.symm.trans hrequest)]
    exact h hreply

theorem replyStatus_answerWrite
    (h : replyStatus (answerWrite offset responseCapacity result) = some SquidFsStatus.ok.code)
    (hstatus : ∀ status, result = .error status → status ≠ .ok) :
    ∃ m, result = .ok m ∧ answerWrite offset responseCapacity result =
      some (writeOkResponse squidFsOpWrite offset m) := by
  cases result with
  | error status => exact absurd h (replyStatus_ne_ok (hstatus status rfl))
  | ok m =>
    refine ⟨m, rfl, ?_⟩
    rw [answerWrite] at h ⊢
    split
    · rename_i hsmall
      rw [if_pos hsmall] at h
      cases h
    · rfl

theorem WriteOutcome.error_ne_ok (h : WriteOutcome fs root fields (.error status) fs') :
    status ≠ .ok := by
  cases h with
  | refused hstatus => exact hstatus
  | opened _ _ hstatus => exact hstatus

theorem Outcome.writeEffect (h : Outcome fs root context request responseCapacity reply fs')
    (hparses : Parses request (.write offset flags path data))
    (hreply : replyStatus reply = some SquidFsStatus.ok.code) :
    ∃ bytesWritten ≤ data.length,
      reply = some (writeOkResponse squidFsOpWrite offset bytesWritten) ∧
        WriteEffect fs root ⟨offset, flags, path, data⟩ bytesWritten fs' := by
  cases h with
  | silent => cases hreply
  | looked hlooks => exact absurd (.inl rfl) (hlooks _ _ hparses.encoded.2)
  | refused hstatus => exact absurd hreply (replyStatus_ne_ok hstatus)
  | wrote hparses' _ houtcome =>
    cases hparses.eq_some.symm.trans hparses'.eq_some
    obtain ⟨m, rfl, hanswer⟩ := replyStatus_answerWrite hreply fun status he => by
      subst he
      exact houtcome.error_ne_ok
    obtain ⟨hm, heffect⟩ := houtcome.effect
    exact ⟨m, hm, hanswer, heffect⟩
  | edited hparses' _ houtcome =>
    cases hparses.eq_some.symm.trans hparses'.eq_some
    cases houtcome with
    | @refused e => exact absurd hreply (replyStatus_ne_ok (statusFromErrno_ne_ok e))
    | changed hchange => cases hchange

theorem Outcome.keepsFrame {fs : Fs}
    (h : Outcome fs root context request responseCapacity reply fs') (hd : fs.Distinct) :
    KeepsFrame fs root context request reply fs' := by
  cases h with
  | silent =>
    refine keepsFrame_refl ?_
    intro operation _ _ hreply
    cases hreply
  | looked hlooks =>
    refine keepsFrame_refl ?_
    intro operation _ hrequest _
    have hop := hlooks operation.opcode operation.fields hrequest
    cases operation with
    | stat path => exact rfl
    | list cursor path => exact rfl
    | read offset maximumBytes path => exact rfl
    | write offset flags path data => exact absurd (.inl rfl) hop
    | mkdir path => exact absurd (.inr (.inl rfl)) hop
    | delete path => exact absurd (.inr (.inr (.inl rfl))) hop
    | rename oldPath newPath => exact absurd (.inr (.inr (.inr rfl))) hop
  | refused hstatus =>
    refine keepsFrame_refl ?_
    intro operation _ _ hreply
    exact absurd hreply (replyStatus_ne_ok hstatus)
  | wrote hparses hwritable houtcome =>
    refine keepsFrame_of_parses hparses (.inl rfl) hwritable ?_
    exact (Outcome.wrote hparses hwritable houtcome).writeEffect hparses
  | edited hparses hwritable houtcome =>
    cases houtcome with
    | @refused e =>
      refine keepsFrame_refl ?_
      intro operation _ _ hreply
      exact absurd hreply (replyStatus_ne_ok (statusFromErrno_ne_ok e))
    | changed hchange =>
      exact keepsFrame_of_parses hparses hchange.mutating hwritable fun _ => hchange.effect hd _

/-- The frame of the operations: a request changes what it names and nothing else. -/
theorem handleSquidFsRequest_frame {context : SquidFsContext} {k : Kernel}
    (hroot : ∀ rootFd, context.rootFd = some rootFd → k.ino rootFd = some root)
    (hd : k.fs.Distinct) (fuel : Nat) (request : List UInt8) (responseCapacity : Nat) :
    Ensures faulty (handleSquidFsRequest fuel context request responseCapacity) (fun reply k' =>
      KeepsFrame k.fs root context request reply k'.fs) k := by
  refine (handleSquidFsRequest_outcome hroot fuel request responseCapacity).mono ?_
  intro reply k' h
  exact h.keepsFrame hd

theorem linkedKernel_distinct : linkedKernel.fs.Distinct := by
  apply Fs.distinct_of_inodes
  decide

/-- A DELETE of `f`. -/
theorem handleSquidFsRequest_frame_delete : ∃ k' reply,
    Exec faulty linkedKernel (handleSquidFsRequest 1 ⟨some 0, false⟩ [0x06, 1, 0x66] 255) k' reply ∧
      KeepsFrame linkedKernel.fs 1 ⟨some 0, false⟩ [0x06, 1, 0x66] reply k'.fs :=
  ⟨_, _, exec_fullDisk linkedKernel _, handleSquidFsRequest_frame linkedKernel_root
    linkedKernel_distinct 1 _ _ _ _ (exec_fullDisk linkedKernel _)⟩

theorem twice_valid (i : Nat) (hi : some i ∈ [some 0]) :
    i < [(⟨0, 0, false⟩ : OpenFile)].length := by
  cases List.mem_singleton.1 hi
  exact Nat.zero_lt_one

/-- The root has one file under the names `e` and `f`. -/
def twiceKernel : Kernel where
  fs := {
    inodes := [
      ⟨.directory [⟨[0x65], 1, isComponent_e⟩, ⟨[0x66], 1, isComponent_f⟩], 0o755, 0⟩,
      ⟨.file [1, 2, 3], 0o644, 0⟩]
    hostRoot := 0 }
  fds := [some 0]
  files := [⟨0, 0, false⟩]
  valid := twice_valid

/-- A RENAME of `e` to `f` is answered with OK, and leaves both names. -/
theorem rename_keeps_links : ¬ ∀ (k : Kernel) (root : Ino) (oldPath newPath : Name) (dir : Ino),
    k.ino 0 = some root → k.fs.Distinct → oldPath ≠ newPath →
    parentDirectory k.fs root oldPath = .ok dir →
    replyStatus (k.run (handleSquidFsRequest 1 ⟨some 0, false⟩
      (Operation.rename oldPath newPath).encode 255)).1 = some SquidFsStatus.ok.code →
    (k.run (handleSquidFsRequest 1 ⟨some 0, false⟩
      (Operation.rename oldPath newPath).encode 255)).2.fs.lookup dir (leafOf oldPath) = none := by
  intro h
  have hdistinct : twiceKernel.fs.Distinct := by
    apply Fs.distinct_of_inodes
    decide
  have hgone := h twiceKernel 0 [0x65] [0x66] 0 rfl hdistinct (by decide) rfl (by decide +kernel)
  revert hgone
  decide +kernel

end SquidServer.Filesystem

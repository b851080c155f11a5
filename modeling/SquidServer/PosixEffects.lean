import SquidServer.FilesystemListing

namespace Posix
open Interaction
set_option autoImplicit true

/-- The file system calls on a kernel, each of which may fail at any time. -/
def faulty : Environment Syscalls Kernel := fun k op r k' => k.Can op r k'

/-- A call does what it is specified to do; a read may give less than it could where that is
allowed, though at least one byte where it was asked for one. -/
inductive Kernel.Keeps (short : Prop) (k : Kernel) : (op : Call) → op.Ans → Kernel → Prop
  | done (op : Call) : Keeps short k op (k.call op).1 (k.call op).2
  | shortRead : short → 0 < m → m ≤ size →
      Keeps short k (.pread fd size offset) (k.pread fd m offset) k

/-- The file system calls on a kernel, none of which fails without a reason of its own. -/
def steady (short : Prop) : Environment Syscalls Kernel := fun k op r k' => k.Keeps short op r k'

theorem Kernel.Keeps.can {k : Kernel} (h : k.Keeps short op r k') : k.Can op r k' := by
  cases h with
  | done => exact .done op
  | shortRead _ _ hm => exact .shortRead hm

theorem steady_answers (short : Prop) (k : Kernel) (op : Syscalls.Op) :
    ∃ r k', steady short k op r k' := ⟨(k.call op).1, (k.call op).2, .done op⟩

theorem exec_faulty_of_steady {p : Program Syscalls α} (h : Exec (steady short) k p k' a) :
    Exec faulty k p k' a := by
  induction h with
  | pure k a => exact .pure k a
  | call hr _ ih => exact .call (Kernel.Keeps.can hr) ih

/-- What calls that may fail ensure, calls that do not fail ensure. -/
theorem ensures_steady {p : Program Syscalls α} (h : Ensures faulty p Q k) :
    Ensures (steady short) p Q k := by
  intro k' a he
  exact h k' a (exec_faulty_of_steady he)

theorem run_of_ensures_steady {p : Program Syscalls α} {k : Kernel}
    (h : Ensures (steady short) p Q k) : Q (k.run p).1 (k.run p).2 := by
  have hstep : ∀ (s t : Kernel) (op : Call), s = t →
      ∃ s₁, steady short s op (t.call op).1 s₁ ∧ s₁ = (t.call op).2 := by
    rintro s _ op rfl
    exact ⟨_, .done op, rfl⟩
  obtain ⟨k', he, rfl⟩ := Program.exec_run (fun s t : Kernel => s = t) hstep p rfl
  exact h _ _ he

theorem exec_faulty_run (k : Kernel) (p : Program Syscalls α) :
    Exec faulty k p (k.run p).2 (k.run p).1 := by
  have hstep : ∀ (s t : Kernel) (op : Call), s = t →
      ∃ s₁, faulty s op (t.call op).1 s₁ ∧ s₁ = (t.call op).2 := by
    rintro s _ op rfl
    exact ⟨_, .done op, rfl⟩
  obtain ⟨k', he, rfl⟩ := Program.exec_run (fun s t : Kernel => s = t) hstep p rfl
  exact he

/-- A run in which calls may fail, with a record of what it touches. -/
theorem exec_posix_of_faulty {p : Program Syscalls α} (h : Exec faulty k p k' a)
    (log : List (Fs × Access)) : ∃ s, Exec posix ⟨k, log⟩ p s a ∧ s.kernel = k' := by
  induction h generalizing log with
  | pure k a => exact ⟨⟨k, log⟩, .pure _ _, rfl⟩
  | @call k k₁ k₂ a op r next hr _ ih =>
    obtain ⟨s, he, hs⟩ := ih (log ++ (k.touches op).map (k.fs, ·))
    have hstep : posix ⟨k, log⟩ op r ⟨k₁, log ++ (k.touches op).map (k.fs, ·)⟩ := ⟨hr, rfl⟩
    exact ⟨s, .call hstep he, hs⟩

/-- The calls that leave the tree as it is. -/
def Call.Looks : Call → Prop
  | .openat _ _ flags _ => flags.creat = false ∧ flags.trunc = false
  | .pwrite _ _ _ => False
  | .mkdirat _ _ _ => False
  | .unlinkat _ _ _ => False
  | .renameat _ _ _ _ => False
  | _ => True

theorem Kernel.fs_openObject {k : Kernel} (ino : Ino) (h : flags.trunc = false) :
    (k.openObject ino flags).2.fs = k.fs := by
  rw [Kernel.openObject]
  split
  · rfl
  · rfl
  · split
    · rfl
    · rfl
  · split
    · rfl
    · rw [h]
      rfl
  · split
    · rfl
    · rfl

theorem Kernel.fs_openat {k : Kernel} (fd : Fd) (path : Name) (mode : Nat)
    (h : flags.creat = false ∧ flags.trunc = false) :
    (k.openat fd path flags mode).2.fs = k.fs := by
  rw [Kernel.openat]
  split
  · rfl
  · exact Kernel.fs_openObject _ h.2
  · rw [dif_neg]
    simp [h.1]

theorem Kernel.fs_dup (k : Kernel) (fd : Fd) : (k.dup fd).2.fs = k.fs := by
  rw [Kernel.dup]
  split
  · rfl
  · rfl

theorem Kernel.Can.looks {k : Kernel} (h : k.Can op r k') (hop : op.Looks) : k'.fs = k.fs := by
  cases h with
  | done =>
    cases op with
    | dup fd => exact k.fs_dup fd
    | openat fd path flags mode => exact Kernel.fs_openat fd path mode hop
    | readdir fd => exact k.fs_readdir fd
    | pwrite fd data offset => cases hop
    | mkdirat fd path mode => cases hop
    | unlinkat fd path removedir => cases hop
    | renameat oldFd oldPath newFd newPath => cases hop
    | _ => rfl
  | failed _ => rfl
  | shortRead _ => rfl
  | shortWrite m => cases hop

theorem looks_fs {p : Program Syscalls α} (h : Calls (E := Syscalls) Call.Looks p) (k : Kernel) :
    Ensures faulty p (fun _ k' => k'.fs = k.fs) k := by
  refine h.invariant (fun k' : Kernel => k'.fs = k.fs) ?_ rfl
  intro k₁ op r k₂ hop hk₁ hr
  exact (Kernel.Can.looks hr hop).trans hk₁

theorem Kernel.Can.openat_directory {k : Kernel} (h : k.Can (.openat fd name flags mode) r k')
    (hn : IsComponent name) (hfd : k.ino fd = some dir)
    (hflags : flags.nofollow = true ∧ flags.directory = true ∧ flags.write = false ∧
      flags.creat = false) :
    (∃ e, r = .error e ∧ k' = k) ∨ ∃ n, k.fs.openDirectory dir name = .ok n ∧
      r = .ok k.freeFd ∧ k' = k.openFile ⟨n, 0, false⟩ := by
  cases h with
  | failed he =>
    obtain ⟨e, rfl⟩ := he
    exact .inl ⟨e, rfl, rfl⟩
  | done =>
    have hcall : k.call (.openat fd name flags mode) = _ :=
      Kernel.openat_directory flags mode hn hfd hflags
    rw [hcall]
    cases k.fs.openDirectory dir name with
    | error e => exact .inl ⟨e, rfl, rfl⟩
    | ok n => exact .inr ⟨n, rfl, rfl, rfl⟩

theorem Kernel.ino_openFile_free (k : Kernel) (f : OpenFile) :
    (k.openFile f).ino k.freeFd = some f.ino := (k.isOpen_openFile f).ino

theorem Kernel.ino_openFile {k : Kernel} (h : k.ino fd = some n) (f : OpenFile) :
    (k.openFile f).ino fd = some n := (k.opened_openFile f).ino h

theorem Kernel.ne_freeFd {k : Kernel} (h : k.ino fd = some n) : fd ≠ k.freeFd := by
  rintro rfl
  rw [Kernel.ino, Kernel.file, k.desc_freeFd] at h
  cases h

/-- The permissions of an object do not reach the bits of its type. -/
theorem Inode.type_stat (inode : Inode) : inode.stat.stMode &&& sIfmt = inode.node.type := by
  have hpermissions : inode.permissions &&& 0o7777 &&& sIfmt = 0 := by
    rw [Nat.and_assoc]
    exact Nat.and_zero _
  change (inode.node.type ||| (inode.permissions &&& 0o7777)) &&& sIfmt = inode.node.type
  rw [Nat.and_or_distrib_right, hpermissions, Nat.or_zero]
  cases inode.node with
  | directory entries => exact (by decide : sIfdir &&& sIfmt = sIfdir)
  | file content => exact (by decide : sIfreg &&& sIfmt = sIfreg)
  | symlink target => exact (by decide : sIflnk &&& sIfmt = sIflnk)
  | other => exact (by decide : sIfifo &&& sIfmt = sIfifo)

theorem Inode.sIsreg_stat (inode : Inode) :
    sIsreg inode.stat.stMode = true ↔ ∃ content, inode.node = .file content := by
  rw [sIsreg, decide_eq_true_iff, inode.type_stat]
  cases inode.node with
  | directory entries => simp +decide [Node.type]
  | file content => simp [Node.type]
  | symlink target => simp +decide [Node.type]
  | other => simp +decide

theorem Inode.sIsdir_stat (inode : Inode) :
    sIsdir inode.stat.stMode = true ↔ ∃ entries, inode.node = .directory entries := by
  rw [sIsdir, decide_eq_true_iff, inode.type_stat]
  cases inode.node with
  | directory entries => simp [Node.type]
  | file content => simp +decide [Node.type]
  | symlink target => simp +decide [Node.type]
  | other => simp +decide

theorem Fs.stat_ok {fs : Fs} (h : fs.stat n = .ok information) :
    ∃ inode, fs.inodes[n]? = some inode ∧ information = inode.stat := by
  rw [Fs.stat] at h
  split at h
  · rename_i inode hinode
    cases h
    exact ⟨inode, hinode, rfl⟩
  · cases h

theorem Kernel.Can.fstat {k : Kernel} (h : k.Can (.fstat fd) r k') (hfd : k.ino fd = some n) :
    k' = k ∧ ∀ information, r = .ok information →
      ∃ inode, k.fs.inodes[n]? = some inode ∧ information = inode.stat := by
  cases h with
  | done =>
    refine ⟨rfl, ?_⟩
    intro information hr
    change k.fstat fd = .ok information at hr
    rw [Kernel.fstat, hfd] at hr
    exact Fs.stat_ok hr
  | failed he =>
    obtain ⟨e, rfl⟩ := he
    exact ⟨rfl, fun _ hr => by cases hr⟩

theorem Kernel.Can.pwrite {k : Kernel} (h : k.Can (.pwrite fd data offset) r k')
    (hfd : k.file fd = some f) (hwrite : f.write = true)
    (hfile : k.fs.node f.ino = some (.file content)) :
    (∃ e, r = .error e ∧ k' = k) ∨ ∃ m ≤ data.length, r = .ok m ∧
      k'.fs = k.fs.setNode f.ino (.file (overwrite content (data.take m) offset)) := by
  have hcall : ∀ bytes, k.pwrite fd bytes offset = (.ok bytes.length,
      k.withFs (k.fs.setNode f.ino (.file (overwrite content bytes offset)))) := by
    intro bytes
    rw [Kernel.pwrite, hfd]
    dsimp only
    rw [if_pos hwrite, hfile]
  cases h with
  | done =>
    right
    have hdone : k.call (.pwrite fd data offset) = _ := hcall data
    rw [hdone]
    refine ⟨data.length, Nat.le_refl _, rfl, ?_⟩
    rw [List.take_length]
    rfl
  | failed he =>
    obtain ⟨e, rfl⟩ := he
    exact .inl ⟨e, rfl, rfl⟩
  | shortWrite m =>
    right
    rw [hcall]
    refine ⟨(data.take m).length, ?_, rfl, ?_⟩
    · rw [List.length_take]
      exact Nat.min_le_right _ _
    · rw [← List.prefix_iff_eq_take.1 (List.take_prefix m data)]
      rfl

/-- The tree after an object has been opened for writing under a name, and the object. -/
inductive Fs.WriteOpened (fs : Fs) (dir : Ino) (name : Name) (flags : OpenFlags) (mode : Nat) :
    Fs → Ino → Prop
  | kept : fs.lookup dir name = some n → fs.node n = some (.file content) → flags.trunc = false →
      WriteOpened fs dir name flags mode fs n
  | truncated : fs.lookup dir name = some n → fs.node n = some (.file content) →
      flags.trunc = true → WriteOpened fs dir name flags mode (fs.setNode n (.file [])) n
  | special : fs.lookup dir name = some n → fs.node n = some .other →
      WriteOpened fs dir name flags mode fs n
  | created (h : IsComponent name) : fs.entries dir = some es → lookupEntry name es = none →
      flags.creat = true →
      WriteOpened fs dir name flags mode (fs.create dir name h ⟨.file [], mode, 0⟩)
        fs.inodes.length

theorem Kernel.openObject_write {k : Kernel} (hlookup : k.fs.lookup dir name = some n)
    (hflags : flags.write = true ∧ flags.directory = false) (mode : Nat) :
    (∃ e, k.openObject n flags = (.error e, k)) ∨ ∃ fs', k.openObject n flags =
      (.ok (k.withFs fs').freeFd, (k.withFs fs').openFile ⟨n, 0, true⟩) ∧
      k.fs.WriteOpened dir name flags mode fs' n := by
  obtain ⟨hwrite, hdirectory⟩ := hflags
  rw [Kernel.openObject]
  split
  · exact .inl ⟨_, rfl⟩
  · exact .inl ⟨_, rfl⟩
  · rw [if_pos (.inl hwrite)]
    exact .inl ⟨_, rfl⟩
  · rename_i content hfile
    right
    rw [hdirectory, hwrite]
    cases htrunc : flags.trunc with
    | true => exact ⟨_, rfl, .truncated hlookup hfile htrunc⟩
    | false => exact ⟨k.fs, rfl, .kept hlookup hfile htrunc⟩
  · rename_i hother
    right
    rw [hdirectory, hwrite]
    exact ⟨k.fs, rfl, .special hlookup hother⟩

theorem Fs.lookup_of_find {fs : Fs} (h : fs.find dir name = .object n) :
    fs.lookup dir name = some n := by
  rw [Fs.find] at h
  rw [Fs.lookup]
  cases hes : fs.entries dir with
  | none =>
    rw [hes] at h
    cases h
  | some es =>
    rw [hes] at h
    dsimp only at h
    cases hl : lookupEntry name es with
    | none =>
      rw [hl] at h
      cases h
    | some m =>
      rw [hl] at h
      cases h
      exact hl

theorem Fs.find_of_lookup {fs : Fs} (h : fs.lookup dir name = some n) :
    fs.find dir name = .object n := by
  obtain ⟨es, hes, hn⟩ := Option.bind_eq_some_iff.1 h
  rw [Fs.find, hes]
  dsimp only
  rw [hn]

theorem Fs.absent_of_find {fs : Fs} (h : fs.find dir name = .missing dir' name') :
    dir' = dir ∧ name' = name ∧ ∃ es, fs.entries dir = some es ∧ lookupEntry name es = none := by
  rw [Fs.find] at h
  cases hes : fs.entries dir with
  | none =>
    rw [hes] at h
    cases h
  | some es =>
    rw [hes] at h
    dsimp only at h
    cases hl : lookupEntry name es with
    | none =>
      rw [hl] at h
      cases h
      exact ⟨rfl, rfl, es, rfl, hl⟩
    | some m =>
      rw [hl] at h
      cases h

theorem Kernel.Can.openat_write {k : Kernel} (h : k.Can (.openat fd name flags mode) r k')
    (hn : IsComponent name) (hfd : k.ino fd = some dir)
    (hflags : flags.nofollow = true ∧ flags.write = true ∧ flags.directory = false) :
    (∃ e, r = .error e ∧ k' = k) ∨ ∃ fs' n, k.fs.WriteOpened dir name flags mode fs' n ∧
      r = .ok k.freeFd ∧ k' = (k.withFs fs').openFile ⟨n, 0, true⟩ := by
  obtain ⟨hnofollow, hwrite, hdirectory⟩ := hflags
  cases h with
  | failed he =>
    obtain ⟨e, rfl⟩ := he
    exact .inl ⟨e, rfl, rfl⟩
  | done =>
    have hcall : (∃ e, k.openat fd name flags mode = (.error e, k)) ∨ ∃ fs' n,
        k.openat fd name flags mode =
          (.ok (k.withFs fs').freeFd, (k.withFs fs').openFile ⟨n, 0, true⟩) ∧
        k.fs.WriteOpened dir name flags mode fs' n := by
      rw [Kernel.openat, hnofollow, Bool.not_true, Kernel.resolve_found hn hfd]
      cases hfind : k.fs.find dir name with
      | error e => exact .inl ⟨e, rfl⟩
      | object n =>
        rcases Kernel.openObject_write (Fs.lookup_of_find hfind) ⟨hwrite, hdirectory⟩ mode with
          ⟨e, he⟩ | ⟨fs', he, hopened⟩
        · exact .inl ⟨e, he⟩
        · exact .inr ⟨fs', n, he, hopened⟩
      | missing dir' name' =>
        obtain ⟨rfl, rfl, es, hes, hnone⟩ := Fs.absent_of_find hfind
        dsimp only
        split
        · rename_i hcreat
          rw [hwrite]
          exact .inr ⟨_, _, rfl, .created hcreat.2 hes hnone hcreat.1⟩
        · exact .inl ⟨_, rfl⟩
    rcases hcall with ⟨e, he⟩ | ⟨fs', n, he, hopened⟩
    · exact .inl ⟨e, congrArg Prod.fst he, congrArg Prod.snd he⟩
    · exact .inr ⟨fs', n, hopened, congrArg Prod.fst he, congrArg Prod.snd he⟩

theorem Kernel.resolve_last {k : Kernel} (hn : IsComponent name) (hfd : k.ino fd = some dir) :
    (k.resolve fd name false).last = (k.fs.entries dir).map fun _ => (dir, name) := by
  rw [Kernel.resolve_component hn hfd, show pathSteps = 4095 + 1 from rfl, walk]
  cases k.fs.entries dir with
  | none => rfl
  | some es =>
    dsimp only
    cases lookupEntry name es with
    | none => rfl
    | some n =>
      dsimp only
      split <;> rfl

theorem Kernel.Can.mkdirat {k : Kernel} (h : k.Can (.mkdirat fd name mode) r k')
    (hn : IsComponent name) (hfd : k.ino fd = some dir) :
    (∃ e, r = .error e ∧ k' = k) ∨ ∃ es, k.fs.entries dir = some es ∧
      lookupEntry name es = none ∧ r = .ok () ∧ k'.fs = k.fs.create dir name hn
        ⟨.directory [⟨dot, k.fs.inodes.length, isComponent_dot⟩, ⟨dotdot, dir, isComponent_dotdot⟩],
          mode, 0⟩ := by
  cases h with
  | failed he =>
    obtain ⟨e, rfl⟩ := he
    exact .inl ⟨e, rfl, rfl⟩
  | done =>
    change (∃ e, (k.mkdirat fd name mode).1 = .error e ∧ (k.mkdirat fd name mode).2 = k) ∨ ∃ es,
      k.fs.entries dir = some es ∧ lookupEntry name es = none ∧
      (k.mkdirat fd name mode).1 = .ok () ∧
        (k.mkdirat fd name mode).2.fs = _
    rw [Kernel.mkdirat, Kernel.resolve_found hn hfd]
    cases hfind : k.fs.find dir name with
    | error e => exact .inl ⟨e, rfl, rfl⟩
    | object n => exact .inl ⟨.eexist, rfl, rfl⟩
    | missing dir' name' =>
      obtain ⟨rfl, rfl, es, hes, hnone⟩ := Fs.absent_of_find hfind
      right
      dsimp only
      rw [dif_pos hn]
      exact ⟨es, hes, hnone, rfl, rfl⟩

theorem Kernel.Can.unlinkat {k : Kernel} (h : k.Can (.unlinkat fd name removedir) r k')
    (hn : IsComponent name) (hfd : k.ino fd = some dir) :
    (∃ e, r = .error e ∧ k' = k) ∨ ∃ n, k.fs.lookup dir name = some n ∧
      (∀ es, k.fs.entries n = some es → emptyDirectory es = true) ∧ r = .ok () ∧
      k'.fs = k.fs.remove dir name := by
  cases h with
  | failed he =>
    obtain ⟨e, rfl⟩ := he
    exact .inl ⟨e, rfl, rfl⟩
  | done =>
    change (∃ e, (k.unlinkat fd name removedir).1 = .error e ∧
      (k.unlinkat fd name removedir).2 = k) ∨ ∃ n, k.fs.lookup dir name = some n ∧
        (∀ es, k.fs.entries n = some es → emptyDirectory es = true) ∧
        (k.unlinkat fd name removedir).1 = .ok () ∧ (k.unlinkat fd name removedir).2.fs = _
    rw [Kernel.unlinkat, Kernel.resolve_found hn hfd, Kernel.resolve_last hn hfd, Fs.find,
      Fs.lookup]
    cases k.fs.entries dir with
    | none => exact .inl ⟨.enotdir, rfl, rfl⟩
    | some es =>
      rw [Option.bind_some]
      dsimp only [Option.map_some]
      cases lookupEntry name es with
      | none => exact .inl ⟨.enoent, rfl, rfl⟩
      | some n =>
        dsimp only
        split
        · exact .inl ⟨.einval, rfl, rfl⟩
        · cases hentries : k.fs.entries n with
          | none =>
            cases removedir with
            | true => exact .inl ⟨.enotdir, rfl, rfl⟩
            | false =>
              refine .inr ⟨n, rfl, ?_, rfl, rfl⟩
              intro es hes
              cases hentries.symm.trans hes
          | some es' =>
            cases removedir with
            | false => exact .inl ⟨.eisdir, rfl, rfl⟩
            | true =>
              dsimp only
              rw [if_pos rfl]
              split
              · rename_i hempty
                refine .inr ⟨n, rfl, ?_, rfl, rfl⟩
                intro es hes
                cases hentries.symm.trans hes
                exact hempty
              · exact .inl ⟨.enotempty, rfl, rfl⟩

/-- Moving an entry does nothing where both names stand for one object. -/
theorem Kernel.Can.renameat {k : Kernel} (h : k.Can (.renameat oldFd oldName newFd newName) r k')
    (hold : IsComponent oldName) (hnew : IsComponent newName) (holdFd : k.ino oldFd = some oldDir)
    (hnewFd : k.ino newFd = some newDir) :
    (∃ e, r = .error e ∧ k' = k) ∨ ∃ n, k.fs.lookup oldDir oldName = some n ∧ r = .ok () ∧
      (k.fs.lookup newDir newName = some n ∧ k' = k ∨
        k.fs.lookup newDir newName ≠ some n ∧ (k.fs.entries newDir).isSome ∧
        oldName ≠ dotdot ∧ newName ≠ dotdot ∧
        k'.fs = k.fs.move oldDir oldName newDir ⟨newName, n, hnew⟩) := by
  cases h with
  | failed he =>
    obtain ⟨e, rfl⟩ := he
    exact .inl ⟨e, rfl, rfl⟩
  | done =>
    generalize hcall : k.call (.renameat oldFd oldName newFd newName) = result
    change k.renameat oldFd oldName newFd newName = result at hcall
    rw [Kernel.renameat, Kernel.resolve_found hold holdFd, Kernel.resolve_found hnew hnewFd,
      Kernel.resolve_last hold holdFd, Kernel.resolve_last hnew hnewFd, Fs.find, Fs.find] at hcall
    rw [Fs.lookup, Fs.lookup]
    cases hes : k.fs.entries oldDir with
    | none =>
      rw [hes] at hcall
      subst hcall
      exact .inl ⟨.enotdir, rfl, rfl⟩
    | some es =>
      rw [hes] at hcall
      rw [Option.bind_some]
      dsimp only [Option.map_some] at hcall
      cases hes' : k.fs.entries newDir with
      | none =>
        rw [hes'] at hcall
        subst hcall
        cases lookupEntry oldName es with
        | none => exact .inl ⟨.enotdir, rfl, rfl⟩
        | some n => exact .inl ⟨.enotdir, rfl, rfl⟩
      | some es' =>
        rw [hes'] at hcall
        rw [Option.bind_some]
        dsimp only [Option.map_some] at hcall
        cases hl : lookupEntry oldName es with
        | none =>
          rw [hl] at hcall
          subst hcall
          cases lookupEntry newName es' with
          | none => exact .inl ⟨.enoent, rfl, rfl⟩
          | some n => exact .inl ⟨.enoent, rfl, rfl⟩
        | some n =>
          rw [hl] at hcall
          dsimp only at hcall
          split at hcall
          · subst hcall
            exact .inl ⟨.einval, rfl, rfl⟩
          rename_i hnames
          split at hcall
          · subst hcall
            exact .inl ⟨.einval, rfl, rfl⟩
          simp only [not_or] at hnames
          have hold : oldName ≠ dotdot := hnames.2.1
          have hnew : newName ≠ dotdot := hnames.2.2.2.1
          cases hl' : lookupEntry newName es' with
          | none =>
            rw [hl'] at hcall
            subst hcall
            exact .inr ⟨n, rfl, rfl, .inr ⟨by simp, rfl, hold, hnew, rfl⟩⟩
          | some replaced =>
            rw [hl'] at hcall
            dsimp only at hcall
            split at hcall
            · rename_i hsame
              subst hcall hsame
              exact .inr ⟨_, rfl, rfl, .inl ⟨rfl, rfl⟩⟩
            · rename_i hother
              have hdiffers : some replaced ≠ some n := fun he => hother (Option.some.inj he)
              split at hcall
              · subst hcall
                exact .inr ⟨n, rfl, rfl, .inr ⟨hdiffers, rfl, hold, hnew, rfl⟩⟩
              · subst hcall
                exact .inl ⟨_, rfl, rfl⟩
              · subst hcall
                exact .inl ⟨_, rfl, rfl⟩
              · split at hcall
                · subst hcall
                  exact .inr ⟨n, rfl, rfl, .inr ⟨hdiffers, rfl, hold, hnew, rfl⟩⟩
                · subst hcall
                  exact .inl ⟨_, rfl, rfl⟩

end Posix

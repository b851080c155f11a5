import SquidServer.PosixKernel
import Mathlib.Data.List.Nodup

namespace Posix
open Interaction
set_option autoImplicit true

theorem join_getElem?_append_none (fds : List (Option Nat)) (fd : Fd) :
    (fds ++ [none])[fd]?.join = fds[fd]?.join := by
  by_cases h : fd < fds.length
  · rw [List.getElem?_append_left h]
  · rw [List.getElem?_append_right (Nat.le_of_not_lt h), List.getElem?_eq_none (Nat.le_of_not_lt h)]
    rcases Nat.eq_zero_or_pos (fd - fds.length) with hz | hp
    · rw [hz]
      rfl
    · rw [List.getElem?_eq_none hp]

theorem Kernel.freeFd_lt (k : Kernel) : k.freeFd < (k.fds ++ [none]).length :=
  List.idxOf_lt_length_of_mem (by simp)

theorem Kernel.desc_freeFd (k : Kernel) : k.desc k.freeFd = none := by
  rw [Kernel.desc, ← join_getElem?_append_none, List.getElem?_eq_getElem k.freeFd_lt]
  simp only [freeFd, List.getElem_idxOf]
  rfl

theorem Kernel.desc_install (k : Kernel) (h : i < k.files.length) (fd : Fd) :
    (k.install i h).desc fd = if fd = k.freeFd then some i else k.desc fd := by
  rw [Kernel.desc, Kernel.install, List.getElem?_set]
  split
  · rename_i hfd
    subst hfd
    rw [if_pos k.freeFd_lt, if_pos rfl]
    rfl
  · rename_i hne
    rw [if_neg (Ne.symm hne), join_getElem?_append_none]
    rfl

theorem Kernel.desc_openFile (k : Kernel) (file : OpenFile) (fd : Fd) :
    (k.openFile file).desc fd = if fd = k.freeFd then some k.files.length else k.desc fd :=
  Kernel.desc_install ..

theorem Kernel.desc_closeFd (k : Kernel) (fd fd' : Fd) :
    (k.closeFd fd).desc fd' = if fd' = fd then none else k.desc fd' := by
  rw [Kernel.desc, Kernel.closeFd, List.getElem?_set]
  by_cases h : fd' = fd
  · subst h
    rw [if_pos rfl, if_pos rfl]
    split <;> rfl
  · rw [if_neg (Ne.symm h), if_neg h]
    rfl

/-- Every directory still has every object under its old name. -/
def Fs.Extends (fs fs' : Fs) : Prop :=
  ∀ dir name ino, fs.lookup dir name = some ino → fs'.lookup dir name = some ino

/-- `fs.Reaches root comps ino`: from `root`, real directory entries named `comps` lead to
`ino`. Only directories have entries, so no symbolic link is passed on the way. -/
inductive Fs.Reaches (fs : Fs) (root : Ino) : List Name → Ino → Prop
  | here : Reaches fs root [] root
  | step : Reaches fs root comps dir → fs.lookup dir name = some ino →
      Reaches fs root (comps ++ [name]) ino

theorem Fs.Extends.refl (fs : Fs) : fs.Extends fs := fun _ _ _ h => h

theorem Fs.Reaches.mono (h : Fs.Reaches fs root comps ino) (he : fs.Extends fs') :
    Fs.Reaches fs' root comps ino := by
  induction h with
  | here => exact .here
  | step _ hl ih => exact ih.step (he _ _ _ hl)

theorem Fs.node_setNode (fs : Fs) (ino : Ino) (node : Node) (i : Ino) :
    (fs.setNode ino node).node i = if i = ino then (fs.node i).map (fun _ => node)
      else fs.node i := by
  rw [Fs.node, Fs.setNode, List.getElem?_modify]
  by_cases h : i = ino
  · subst h
    rw [if_pos rfl, Fs.node]
    cases fs.inodes[i]? <;> simp
  · simp [Fs.node, h, Ne.symm h]

theorem Fs.entries_setNode (fs : Fs) (node : Node) (i : Ino) (h : i ≠ ino) :
    (fs.setNode ino node).entries i = fs.entries i := by
  rw [Fs.entries, Fs.node_setNode, if_neg h]
  rfl

theorem Fs.extends_setNode_file {fs : Fs} (h : fs.node ino = some (.file content))
    (content' : List UInt8) :
    fs.Extends (fs.setNode ino (.file content')) := by
  intro dir name i hl
  by_cases hd : dir = ino
  · subst hd
    rw [Fs.lookup, Fs.entries, h] at hl
    cases hl
  · rw [Fs.lookup, Fs.entries_setNode fs _ _ hd]
    exact hl

theorem Fs.entries_lt {fs : Fs} (h : fs.entries dir = some es) : dir < fs.inodes.length := by
  by_contra hn
  rw [Fs.entries, Fs.node, List.getElem?_eq_none (Nat.le_of_not_lt hn)] at h
  cases h

theorem Fs.entries_append (fs : Fs) (inode : Inode) (h : i < fs.inodes.length) :
    ({ fs with inodes := fs.inodes ++ [inode] } : Fs).entries i = fs.entries i := by
  simp only [Fs.entries, Fs.node]
  rw [List.getElem?_append_left h]

theorem Fs.entries_setEntries {fs : Fs} (h : fs.entries dir = some es)
    (f : List Entry → List Entry) (i : Ino) :
    (fs.setEntries dir f).entries i = if i = dir then some (f es) else fs.entries i := by
  rw [Fs.setEntries, h]
  by_cases hi : i = dir
  · subst hi
    rw [if_pos rfl, Fs.entries, Fs.node_setNode, if_pos rfl]
    rw [Fs.entries] at h
    cases hn : fs.node i with
    | none => rw [hn] at h; cases h
    | some node => rfl
  · rw [if_neg hi]
    exact Fs.entries_setNode fs _ _ hi

theorem Fs.entries_create {fs : Fs} (h : fs.entries dir = some es) (hn : IsComponent name)
    (inode : Inode) (hi : i < fs.inodes.length) : (fs.create dir name hn inode).entries i =
      if i = dir then some (es ++ [⟨name, fs.inodes.length, hn⟩]) else fs.entries i := by
  have hdir : ({ fs with inodes := fs.inodes ++ [inode] } : Fs).entries dir = some es := by
    rw [Fs.entries_append fs inode (Fs.entries_lt h), h]
  rw [Fs.create, Fs.entries_setEntries hdir, Fs.entries_append fs inode hi]

theorem lookupEntry_append (entries more : List Entry) :
    lookupEntry name (entries ++ more) = (lookupEntry name entries).or (lookupEntry name more) := by
  rw [lookupEntry, List.find?_append, Option.map_or]
  rfl

theorem Fs.create_spec {fs : Fs} (h : fs.entries dir = some es)
    (hnew : lookupEntry name es = none) (hn : IsComponent name) (inode : Inode) :
    fs.Extends (fs.create dir name hn inode) ∧
      (fs.create dir name hn inode).lookup dir name = some fs.inodes.length := by
  constructor
  · intro d n i hl
    obtain ⟨es', hes, hi⟩ := Option.bind_eq_some_iff.1 hl
    rw [Fs.lookup, Fs.entries_create h hn inode (Fs.entries_lt hes)]
    by_cases hd : d = dir
    · subst hd
      cases h.symm.trans hes
      rw [if_pos rfl, Option.bind_some, lookupEntry_append, hi]
      rfl
    · rw [if_neg hd, hes]
      exact hi
  · rw [Fs.lookup, Fs.entries_create h hn inode (Fs.entries_lt h), if_pos rfl, Option.bind_some,
      lookupEntry_append, hnew]
    simp [lookupEntry]

theorem splitSlash_of_not_mem (h : 0x2F ∉ name) : splitSlash name = [name] := by
  induction name with
  | nil => rfl
  | cons c rest ih =>
    rw [List.mem_cons, not_or] at h
    rw [splitSlash, if_neg (Ne.symm h.1), ih h.2]

theorem IsComponent.components (h : IsComponent name) : components name = [name] := by
  rw [Posix.components, splitSlash_of_not_mem h.2]
  simp [h.1]

/-- Where a single component leads, without following a link at its end. -/
theorem Kernel.resolve_component {k : Kernel} (hn : IsComponent name) (hfd : k.ino fd = some dir) :
    k.resolve fd name false = walk k.fs false pathSteps dir [name] := by
  have hhead : name.head? ≠ some 0x2F := fun h => hn.2 (List.mem_of_head? h)
  rw [Kernel.resolve, if_neg hn.1, if_neg hhead, hfd, hn.components]

theorem walk_component (fs : Fs) (n : Nat) (dir : Ino) (name : Name) :
    (∀ a ∈ (walk fs false (n + 1) dir [name]).touched, a = .object dir ∨ a = .entry dir name ∨
      ∃ ino, fs.lookup dir name = some ino ∧ a = .object ino) ∧
    match (walk fs false (n + 1) dir [name]).found with
    | .object ino => fs.lookup dir name = some ino
    | .missing d m => d = dir ∧ m = name ∧ ∃ es, fs.entries dir = some es ∧
        lookupEntry name es = none
    | .error _ => True := by
  rw [walk]
  cases hes : fs.entries dir with
  | none => simp
  | some es =>
    dsimp only
    cases hl : lookupEntry name es with
    | none => exact ⟨by simp, rfl, rfl, es, rfl, hl⟩
    | some ino =>
      have hlook : fs.lookup dir name = some ino := by
        rw [Fs.lookup, hes, Option.bind_some, hl]
      dsimp only
      split <;> simp [hlook]

/-- What the calls that open and close nothing do to the descriptors: nothing. -/
structure Kernel.SameFds (k k' : Kernel) : Prop where
  desc : ∀ fd, k'.desc fd = k.desc fd
  files : ∀ (i : Nat) (f : OpenFile), k.files[i]? = some f →
    ∃ f' : OpenFile, k'.files[i]? = some f' ∧ f'.ino = f.ino

theorem Kernel.SameFds.refl (k : Kernel) : k.SameFds k := ⟨fun _ => rfl, fun _ f h => ⟨f, h, rfl⟩⟩

theorem Kernel.sameFds_withFs (k : Kernel) (fs : Fs) : k.SameFds (k.withFs fs) :=
  ⟨fun _ => rfl, fun _ f h => ⟨f, h, rfl⟩⟩

theorem Kernel.sameFds_advance (k : Kernel) (i : Nat) : k.SameFds (k.advance i) := by
  constructor
  · intro fd
    rfl
  · intro j f hj
    rw [Kernel.advance, List.getElem?_modify, hj]
    refine ⟨_, rfl, ?_⟩
    split <;> rfl

/-- The calls that do not open or close descriptors. -/
def Call.KeepsFds : Call → Prop
  | .dup _ | .openat _ _ _ _ | .close _ | .closedir _ => False
  | _ => True

theorem Kernel.sameFds_readdir (k : Kernel) (fd : Fd) : k.SameFds (k.readdir fd).2 := by
  rw [Kernel.readdir]
  split
  · split
    · exact .refl k
    · split
      · exact k.sameFds_advance _
      · exact .refl k
  · exact .refl k

theorem Kernel.sameFds_pwrite (k : Kernel) (fd : Fd) (data : List UInt8) (offset : Nat) :
    k.SameFds (k.pwrite fd data offset).2 := by
  rw [Kernel.pwrite]
  split
  · exact .refl k
  · split
    · split
      · exact k.sameFds_withFs _
      · exact .refl k
    · exact .refl k

theorem Kernel.sameFds_mkdirat (k : Kernel) (fd : Fd) (path : Name) (mode : Nat) :
    k.SameFds (k.mkdirat fd path mode).2 := by
  rw [Kernel.mkdirat]
  split
  · exact .refl k
  · exact .refl k
  · split
    · exact k.sameFds_withFs _
    · exact .refl k

theorem Kernel.sameFds_unlinkat (k : Kernel) (fd : Fd) (path : Name) (removedir : Bool) :
    k.SameFds (k.unlinkat fd path removedir).2 := by
  rw [Kernel.unlinkat]
  split
  · split
    · exact .refl k
    · split
      · split
        · split
          · exact k.sameFds_withFs _
          · exact .refl k
        · exact .refl k
      · split
        · exact .refl k
        · exact k.sameFds_withFs _
  all_goals exact .refl k

theorem Kernel.sameFds_renameat (k : Kernel) (oldFd : Fd) (oldPath : Name) (newFd : Fd)
    (newPath : Name) : k.SameFds (k.renameat oldFd oldPath newFd newPath).2 := by
  rw [Kernel.renameat]
  split
  · split
    · exact .refl k
    · split
      · exact .refl k
      · split
        · exact .refl k
        · exact k.sameFds_withFs _
        · split
          · exact .refl k
          · split
            · exact k.sameFds_withFs _
            · exact .refl k
            · exact .refl k
            · split
              · exact k.sameFds_withFs _
              · exact .refl k
  all_goals exact .refl k

theorem Kernel.sameFds_call (k : Kernel) (h : op.KeepsFds) : k.SameFds (k.call op).2 := by
  cases op with
  | dup fd => cases h
  | openat fd path flags mode => cases h
  | close fd => cases h
  | closedir fd => cases h
  | readdir fd => exact k.sameFds_readdir fd
  | pwrite fd data offset => exact k.sameFds_pwrite fd data offset
  | mkdirat fd path mode => exact k.sameFds_mkdirat fd path mode
  | unlinkat fd path removedir => exact k.sameFds_unlinkat fd path removedir
  | renameat oldFd oldPath newFd newPath => exact k.sameFds_renameat oldFd oldPath newFd newPath
  | _ => exact .refl k

theorem Kernel.Can.sameFds {k : Kernel} (h : k.Can op r k') (hop : op.KeepsFds) :
    k.SameFds k' := by
  cases h with
  | done => exact k.sameFds_call hop
  | failed _ => exact .refl _
  | shortRead _ => exact .refl _
  | shortWrite m => exact k.sameFds_pwrite _ _ _

/-- `k'` has one more descriptor than `k`, for description `i`. -/
structure Kernel.Opened (k k' : Kernel) (fd : Fd) (i : Nat) : Prop where
  fresh : k.desc fd = none
  desc : ∀ fd', k'.desc fd' = if fd' = fd then some i else k.desc fd'
  files : k.files <+: k'.files

theorem Kernel.opened_openFile (k : Kernel) (f : OpenFile) :
    k.Opened (k.openFile f) k.freeFd k.files.length where
  fresh := k.desc_freeFd
  desc := k.desc_openFile f
  files := List.prefix_append _ _

theorem Kernel.Can.dup {k : Kernel} (h : k.Can (.dup fd) r k') (hfd : k.desc fd = some i) :
    (∃ e, r = .error e ∧ k' = k) ∨ ∃ fd', r = .ok fd' ∧ k.Opened k' fd' i ∧ k'.fs = k.fs := by
  cases h with
  | done =>
    right
    have hcall : k.dup fd = (.ok k.freeFd, k.install i (desc_lt hfd)) := by
      rw [Kernel.dup]
      split
      · rename_i hn
        cases hn.symm.trans hfd
      · rename_i j hj
        cases hj.symm.trans hfd
        rfl
    refine ⟨k.freeFd, congrArg Prod.fst hcall, ?_⟩
    change k.Opened (k.dup fd).2 k.freeFd i ∧ (k.dup fd).2.fs = k.fs
    rw [hcall]
    exact ⟨⟨k.desc_freeFd, k.desc_install (desc_lt hfd), List.prefix_rfl⟩, rfl⟩
  | failed he =>
    obtain ⟨e, rfl⟩ := he
    exact .inl ⟨e, rfl, rfl⟩

theorem Kernel.openObject_spec (k : Kernel) (ino : Ino) (flags : OpenFlags) :
    (∃ e, k.openObject ino flags = (.error e, k)) ∨ ∃ fs' f, k.openObject ino flags =
      (.ok (k.withFs fs').freeFd, (k.withFs fs').openFile f) ∧ f.ino = ino ∧
      k.fs.Extends fs' := by
  rw [Kernel.openObject]
  split
  · exact .inl ⟨_, rfl⟩
  · exact .inl ⟨_, rfl⟩
  · split
    · exact .inl ⟨_, rfl⟩
    · exact .inr ⟨k.fs, _, rfl, rfl, .refl _⟩
  · rename_i content hfile
    split
    · exact .inl ⟨_, rfl⟩
    · right
      cases flags.trunc with
      | true => exact ⟨_, _, rfl, rfl, Fs.extends_setNode_file hfile _⟩
      | false => exact ⟨k.fs, _, rfl, rfl, .refl _⟩
  · split
    · exact .inl ⟨_, rfl⟩
    · exact .inr ⟨k.fs, _, rfl, rfl, .refl _⟩

/-- Opening one component without following a link reaches the object of that name. -/
theorem Kernel.openat_spec {k : Kernel} (hn : IsComponent name) (hflags : flags.nofollow = true)
    (hfd : k.ino fd = some dir) : (∃ e, k.openat fd name flags mode = (.error e, k)) ∨
      ∃ fs' f, k.openat fd name flags mode =
        (.ok (k.withFs fs').freeFd, (k.withFs fs').openFile f) ∧ k.fs.Extends fs' ∧
        fs'.lookup dir name = some f.ino := by
  have hw := (walk_component k.fs (pathSteps - 1) dir name).2
  rw [Kernel.openat, hflags, Bool.not_true, Kernel.resolve_component hn hfd]
  rw [show pathSteps - 1 + 1 = pathSteps from rfl] at hw
  cases hfound : (walk k.fs false pathSteps dir [name]).found with
  | error e => exact .inl ⟨e, rfl⟩
  | object ino =>
    rw [hfound] at hw
    rcases k.openObject_spec ino flags with ⟨e, he⟩ | ⟨fs', f, he, rfl, hext⟩
    · exact .inl ⟨e, he⟩
    · exact .inr ⟨fs', f, he, hext, hext _ _ _ hw⟩
  | missing d m =>
    rw [hfound] at hw
    obtain ⟨rfl, rfl, es, hes, hnone⟩ := hw
    dsimp only
    split
    · obtain ⟨hext, hlook⟩ := Fs.create_spec hes hnone hn ⟨.file [], mode, 0⟩
      exact .inr ⟨_, _, rfl, hext, hlook⟩
    · exact .inl ⟨_, rfl⟩

theorem Kernel.Can.openat {k : Kernel} (h : k.Can (.openat fd name flags mode) r k')
    (hn : IsComponent name) (hflags : flags.nofollow = true) (hfd : k.ino fd = some dir) :
    (∃ e, r = .error e ∧ k' = k) ∨ ∃ fd' i f, r = .ok fd' ∧ k.Opened k' fd' i ∧
      k'.files[i]? = some f ∧ k.fs.Extends k'.fs ∧ k'.fs.lookup dir name = some f.ino := by
  cases h with
  | failed he =>
    obtain ⟨e, rfl⟩ := he
    exact .inl ⟨e, rfl, rfl⟩
  | done =>
    rcases Kernel.openat_spec hn hflags hfd with ⟨e, he⟩ | ⟨fs', f, he, hext, hlook⟩
    · exact .inl ⟨e, congrArg Prod.fst he, congrArg Prod.snd he⟩
    · right
      have hk : (k.call (.openat fd name flags mode)).2 = (k.withFs fs').openFile f :=
        congrArg Prod.snd he
      have ho := (k.withFs fs').opened_openFile f
      rw [hk]
      refine ⟨_, _, f, congrArg Prod.fst he, ⟨ho.fresh, ho.desc, ho.files⟩, ?_, hext, hlook⟩
      exact List.getElem?_concat_length

/-- A process that works on top of the descriptors of `base`: it owns exactly the descriptors
`held`, and every access so far was `allowed`. -/
structure Owned (allowed : Fs → Access → Prop) (base : Kernel) (held : List Fd) (s : Machine) :
    Prop where
  log : ∀ x ∈ s.log, allowed x.1 x.2
  distinct : held.Nodup
  fresh : ∀ fd ∈ held, base.desc fd = none
  live : ∀ fd ∈ held, (s.kernel.desc fd).isSome = true
  frame : ∀ fd, fd ∉ held → s.kernel.desc fd = base.desc fd
  files : ∀ (i : Nat) (f : OpenFile), base.files[i]? = some f →
    ∃ f' : OpenFile, s.kernel.files[i]? = some f' ∧ f'.ino = f.ino

/-- The same below the directory `root`, with the path from `root` to each owned descriptor. -/
structure Working (allowed : Fs → Access → Prop) (root : Ino) (base : Kernel)
    (held : List (Fd × List Name)) (s : Machine) : Prop
    extends Owned allowed base (held.map Prod.fst) s where
  names : ∀ x ∈ held, ∃ ino, s.kernel.ino x.1 = some ino ∧ s.kernel.fs.Reaches root x.2 ino

theorem Kernel.ino_eq_some {k : Kernel} : k.ino fd = some n ↔
    ∃ (i : Nat) (f : OpenFile), k.desc fd = some i ∧ k.files[i]? = some f ∧ f.ino = n := by
  rw [Kernel.ino, Kernel.file, Option.map_eq_some_iff]
  constructor
  · intro h
    obtain ⟨f, hf, rfl⟩ := h
    obtain ⟨i, hi, hf⟩ := Option.bind_eq_some_iff.1 hf
    exact ⟨i, f, hi, hf, rfl⟩
  · intro h
    obtain ⟨i, f, hi, hf, rfl⟩ := h
    exact ⟨f, by rw [hi]; exact hf, rfl⟩

section
variable {allowed : Fs → Access → Prop} {root : Ino} {base : Kernel} {s s' : Machine}

theorem Owned.log_step {o : Call} (h : Owned allowed base held s)
    (ht : ∀ a ∈ s.kernel.touches o, allowed s.kernel.fs a)
    (hl : s'.log = s.log ++ (s.kernel.touches o).map (s.kernel.fs, ·)) :
    ∀ x ∈ s'.log, allowed x.1 x.2 := by
  intro x hx
  rw [hl] at hx
  rcases List.mem_append.1 hx with hx | hx
  · exact h.log x hx
  · obtain ⟨a, ha, rfl⟩ := List.mem_map.1 hx
    exact ht a ha

theorem Owned.base_ino (h : Owned allowed base held s) (hfd : base.ino fd = some ino) :
    s.kernel.ino fd = some ino := by
  obtain ⟨i, f, hi, hf, rfl⟩ := Kernel.ino_eq_some.1 hfd
  obtain ⟨f', hf', heq⟩ := h.files i f hf
  have hnot : fd ∉ held := by
    intro hmem
    cases (h.fresh fd hmem).symm.trans hi
  exact Kernel.ino_eq_some.2 ⟨i, f', (h.frame fd hnot).trans hi, hf', heq⟩

theorem Owned.keeps {o : Call} {r : o.Ans} (h : Owned allowed base held s) (hop : o.KeepsFds)
    (ht : ∀ a ∈ s.kernel.touches o, allowed s.kernel.fs a) (hs : posix s o r s') :
    Owned allowed base held s' := by
  obtain ⟨hcan, hlog⟩ := hs
  have hsame := hcan.sameFds hop
  refine ⟨h.log_step ht hlog, h.distinct, h.fresh, ?_, ?_, ?_⟩
  · intro fd hfd
    rw [hsame.desc]
    exact h.live fd hfd
  · intro fd hfd
    rw [hsame.desc]
    exact h.frame fd hfd
  · intro i f hf
    obtain ⟨f₁, hf₁, heq₁⟩ := h.files i f hf
    obtain ⟨f₂, hf₂, heq₂⟩ := hsame.files i f₁ hf₁
    exact ⟨f₂, hf₂, heq₂.trans heq₁⟩

theorem getElem?_of_prefix {l l' : List α} {i : Nat} (h : l <+: l') (hi : l[i]? = some a) :
    l'[i]? = some a := by
  obtain ⟨t, rfl⟩ := h
  obtain ⟨hlt, -⟩ := List.getElem?_eq_some_iff.1 hi
  rw [List.getElem?_append_left hlt, hi]

theorem Kernel.SameFds.ino {k k' : Kernel} (h : k.SameFds k') (hfd : k.ino fd = some n) :
    k'.ino fd = some n := by
  obtain ⟨i, f, hi, hf, rfl⟩ := Kernel.ino_eq_some.1 hfd
  obtain ⟨f', hf', heq⟩ := h.files i f hf
  exact Kernel.ino_eq_some.2 ⟨i, f', (h.desc fd).trans hi, hf', heq⟩

theorem Kernel.Opened.ino {k k' : Kernel} (h : k.Opened k' fd i) (hfd : k.ino fd' = some n) :
    k'.ino fd' = some n := by
  obtain ⟨j, f, hj, hf, rfl⟩ := Kernel.ino_eq_some.1 hfd
  have hne : fd' ≠ fd := by
    intro he
    subst he
    cases h.fresh.symm.trans hj
  refine Kernel.ino_eq_some.2 ⟨j, f, ?_, ?_, rfl⟩
  · rw [h.desc, if_neg hne, hj]
  · exact getElem?_of_prefix h.files hf

/-- Calls that only look. -/
def Call.Reads : Call → Prop
  | .fstat _ | .fstatat _ _ _ | .fdopendir _ | .readdir _ | .pread _ _ _ => True
  | _ => False

theorem Call.Reads.keepsFds (h : Call.Reads op) : op.KeepsFds := by
  cases op <;> first | exact h | trivial

theorem Kernel.fs_readdir (k : Kernel) (fd : Fd) : (k.readdir fd).2.fs = k.fs := by
  rw [Kernel.readdir]
  split
  · split
    · rfl
    · split <;> rfl
  · rfl

theorem Kernel.Can.fs_eq {k : Kernel} (h : k.Can op r k') (hop : op.Reads) : k'.fs = k.fs := by
  cases h with
  | done =>
    cases op with
    | readdir fd => exact k.fs_readdir fd
    | fstat fd => rfl
    | fstatat fd path nofollow => rfl
    | fdopendir fd => rfl
    | pread fd size offset => rfl
    | _ => cases hop
  | failed _ => rfl
  | shortRead _ => rfl
  | shortWrite m => cases hop

theorem Working.reads {o : Call} {r : o.Ans} (h : Working allowed root base held s) (hop : o.Reads)
    (ht : ∀ a ∈ s.kernel.touches o, allowed s.kernel.fs a) (hs : posix s o r s') :
    Working allowed root base held s' where
  toOwned := h.toOwned.keeps hop.keepsFds ht hs
  names := by
    intro x hx
    obtain ⟨n, hn, hr⟩ := h.names x hx
    rw [hs.1.fs_eq hop]
    exact ⟨n, (hs.1.sameFds hop.keepsFds).ino hn, hr⟩

theorem Working.opened (h : Working allowed root base held s)
    (hlog : ∀ x ∈ s'.log, allowed x.1 x.2) (ho : s.kernel.Opened s'.kernel fd i)
    (hext : s.kernel.fs.Extends s'.kernel.fs) (hf : s'.kernel.ino fd = some n)
    (hr : s'.kernel.fs.Reaches root comps n) :
    Working allowed root base ((fd, comps) :: held) s' := by
  have hnot : fd ∉ held.map Prod.fst := by
    intro hmem
    have hlive := h.live fd hmem
    rw [ho.fresh] at hlive
    cases hlive
  constructor
  · refine ⟨hlog, List.nodup_cons.2 ⟨hnot, h.distinct⟩, ?_, ?_, ?_, ?_⟩
    · intro fd' hfd'
      rcases List.mem_cons.1 hfd' with rfl | hfd'
      · exact (h.frame fd' hnot).symm.trans ho.fresh
      · exact h.fresh fd' hfd'
    · intro fd' hfd'
      rw [ho.desc]
      split
      · rfl
      · rename_i hne
        exact h.live fd' (List.mem_of_ne_of_mem hne hfd')
    · intro fd' hfd'
      have hne : fd' ≠ fd := by
        intro he
        subst he
        exact hfd' List.mem_cons_self
      rw [ho.desc, if_neg hne]
      exact h.frame fd' fun hmem => hfd' (List.mem_cons_of_mem _ hmem)
    · intro j f hj
      obtain ⟨f', hf', heq⟩ := h.files j f hj
      exact ⟨f', getElem?_of_prefix ho.files hf', heq⟩
  · intro x hx
    rcases List.mem_cons.1 hx with rfl | hx
    · exact ⟨n, hf, hr⟩
    · obtain ⟨m, hm, hreach⟩ := h.names x hx
      exact ⟨m, ho.ino hm, hreach.mono hext⟩

theorem Owned.closed (held₁ : List Fd) (h : Owned allowed base (held₁ ++ fd :: held₂) s)
    (hk : s'.kernel = s.kernel.closeFd fd) (hlog : s'.log = s.log) :
    Owned allowed base (held₁ ++ held₂) s' := by
  obtain ⟨hnot, hnodup⟩ := List.nodup_cons.1 (List.nodup_middle.1 h.distinct)
  have hsub : ∀ fd' ∈ held₁ ++ held₂, fd' ∈ held₁ ++ fd :: held₂ := by
    intro fd' hfd'
    rw [List.mem_append] at hfd' ⊢
    exact hfd'.imp_right (List.mem_cons_of_mem fd)
  refine ⟨?_, hnodup, fun fd' hfd' => h.fresh fd' (hsub fd' hfd'), ?_, ?_, ?_⟩
  · rw [hlog]
    exact h.log
  · intro fd' hfd'
    have hne : fd' ≠ fd := by
      intro he
      subst he
      exact hnot hfd'
    rw [hk, Kernel.desc_closeFd, if_neg hne]
    exact h.live fd' (hsub fd' hfd')
  · intro fd' hfd'
    rw [hk, Kernel.desc_closeFd]
    split
    · rename_i he
      subst he
      exact (h.fresh fd' (by simp)).symm
    · rename_i hne
      apply h.frame
      intro hmem
      rw [List.mem_append, List.mem_cons] at hmem
      rw [List.mem_append] at hfd'
      rcases hmem with hmem | hmem | hmem
      · exact hfd' (.inl hmem)
      · exact hne hmem
      · exact hfd' (.inr hmem)
  · intro i f hf
    rw [hk]
    exact h.files i f hf

theorem Kernel.ino_closeFd {k : Kernel} (hne : fd' ≠ fd) :
    (k.closeFd fd).ino fd' = k.ino fd' := by
  rw [Kernel.ino, Kernel.file, Kernel.desc_closeFd, if_neg hne]
  rfl

theorem Working.closed (held₁ : List (Fd × List Name))
    (h : Working allowed root base (held₁ ++ (fd, comps) :: held₂) s)
    (hk : s'.kernel = s.kernel.closeFd fd) (hlog : s'.log = s.log) :
    Working allowed root base (held₁ ++ held₂) s' := by
  have howned := h.toOwned
  rw [List.map_append, List.map_cons] at howned
  have hnot := (List.nodup_cons.1 (List.nodup_middle.1 howned.distinct)).1
  constructor
  · rw [List.map_append]
    exact howned.closed _ hk hlog
  · intro x hx
    have hmem : x ∈ held₁ ++ (fd, comps) :: held₂ := by
      rw [List.mem_append] at hx ⊢
      exact hx.imp_right (List.mem_cons_of_mem _)
    obtain ⟨n, hn, hr⟩ := h.names x hmem
    have hne : x.1 ≠ fd := by
      intro he
      apply hnot
      rw [← he, ← List.map_append]
      exact List.mem_map.2 ⟨x, hx, rfl⟩
    rw [hk]
    exact ⟨n, (Kernel.ino_closeFd hne).trans hn, hr⟩

/-- Closing a descriptor or a directory stream; neither fails. -/
def Call.Closes (fd : Fd) (op : Call) : Prop := op = .close fd ∨ op = .closedir fd

theorem Kernel.Can.closes {k : Kernel} (h : k.Can op r k') (hop : op.Closes fd) :
    k' = k.closeFd fd := by
  rcases hop with rfl | rfl
  · cases h with
    | done => rfl
    | failed he => cases he
  · cases h with
    | done => rfl
    | failed he => cases he

theorem Kernel.touches_closes {k : Kernel} (hop : Call.Closes fd op)
    (hfd : (k.desc fd).isSome = true) : k.touches op = [] := by
  rcases hop with rfl | rfl <;> exact if_pos hfd

theorem posix_closes (hs : posix s op r s') (hop : op.Closes fd)
    (hfd : (s.kernel.desc fd).isSome = true) :
    s'.kernel = s.kernel.closeFd fd ∧ s'.log = s.log := by
  obtain ⟨hcan, hlog⟩ := hs
  rw [Kernel.touches_closes hop hfd, List.map_nil, List.append_nil] at hlog
  exact ⟨hcan.closes hop, hlog⟩

/-- The state after a call that gives a descriptor: it is owned, or nothing has changed. -/
def Gained (allowed : Fs → Access → Prop) (root : Ino) (base : Kernel)
    (held : List (Fd × List Name)) (comps : List Name) (r : Except Errno Fd) (s : Machine) : Prop :=
  match r with
  | .ok fd => Working allowed root base ((fd, comps) :: held) s
  | .error _ => Working allowed root base held s

theorem Working.unchanged (h : Working allowed root base held s) (hk : s'.kernel = s.kernel)
    (hlog : ∀ x ∈ s'.log, allowed x.1 x.2) : Working allowed root base held s' := by
  obtain ⟨⟨_, hdistinct, hfresh, hlive, hframe, hfiles⟩, hnames⟩ := h
  rw [← hk] at hlive hframe hfiles hnames
  exact ⟨⟨hlog, hdistinct, hfresh, hlive, hframe, hfiles⟩, hnames⟩

theorem Working.dup (h : Working allowed root base held s) (hroot : base.ino fd = some root)
    (hs : posix s (.dup fd) r s') : Gained allowed root base held [] r s' := by
  obtain ⟨i, f, hi, hf, hino⟩ := Kernel.ino_eq_some.1 (h.toOwned.base_ino hroot)
  have hlog : ∀ x ∈ s'.log, allowed x.1 x.2 := by
    apply h.toOwned.log_step (o := Call.dup fd) _ hs.2
    rw [Kernel.touches, hi]
    simp
  rcases hs.1.dup hi with ⟨e, rfl, hk⟩ | ⟨fd', rfl, ho, hfs⟩
  · exact h.unchanged hk hlog
  · apply h.opened hlog ho _ _ (n := root)
    · rw [hfs]
      exact .here
    · rw [hfs]
      exact .refl _
    · refine Kernel.ino_eq_some.2 ⟨i, f, ?_, getElem?_of_prefix ho.files hf, hino⟩
      rw [ho.desc, if_pos rfl]

/-- What looking for one name in a directory may touch. -/
def AllowsName (allowed : Fs → Access → Prop) (root : Ino) (comps : List Name) (name : Name) :
    Prop :=
  ∀ fs dir, Fs.Reaches fs root comps dir → allowed fs (.object dir) ∧
    allowed fs (.entry dir name) ∧ ∀ n, fs.lookup dir name = some n → allowed fs (.object n)

theorem AllowsName.resolve (ha : AllowsName allowed root comps name) {k : Kernel}
    (hn : IsComponent name) (hfd : k.ino fd = some dir) (hr : k.fs.Reaches root comps dir) :
    ∀ a ∈ (k.resolve fd name false).touched, allowed k.fs a := by
  intro a hmem
  obtain ⟨hdir, hentry, hobject⟩ := ha k.fs dir hr
  rw [Kernel.resolve_component hn hfd] at hmem
  rcases (walk_component k.fs (pathSteps - 1) dir name).1 a hmem with rfl | rfl | ⟨n, hl, rfl⟩
  · exact hdir
  · exact hentry
  · exact hobject n hl

theorem Working.openat (h : Working allowed root base held s) (hmem : (fd, comps) ∈ held)
    (hn : IsComponent name) (hflags : flags.nofollow = true)
    (ha : AllowsName allowed root comps name) (hs : posix s (.openat fd name flags mode) r s') :
    Gained allowed root base held (comps ++ [name]) r s' := by
  obtain ⟨dir, hfd, hr⟩ := h.names _ hmem
  have hlog : ∀ x ∈ s'.log, allowed x.1 x.2 := by
    apply h.toOwned.log_step (o := Call.openat fd name flags mode) _ hs.2
    rw [Kernel.touches, hflags]
    exact ha.resolve hn hfd hr
  rcases hs.1.openat hn hflags hfd with ⟨e, rfl, hk⟩ | ⟨fd', i, f, rfl, ho, hf, hext, hlook⟩
  · exact h.unchanged hk hlog
  · apply h.opened hlog ho hext _ ((hr.mono hext).step hlook)
    refine Kernel.ino_eq_some.2 ⟨i, f, ?_, hf, rfl⟩
    rw [ho.desc, if_pos rfl]

theorem Working.touches_object (h : Working allowed root base held s) (hmem : (fd, comps) ∈ held)
    (ha : ∀ fs n, Fs.Reaches fs root comps n → allowed fs (.object n)) :
    ∀ a ∈ (match s.kernel.ino fd with | some n => [Access.object n] | none => [.badFd fd]),
      allowed s.kernel.fs a := by
  obtain ⟨n, hn, hr⟩ := h.names _ hmem
  rw [hn]
  intro a hmem'
  rw [List.mem_singleton.1 hmem']
  exact ha _ n hr

theorem Working.touches_name (h : Working allowed root base held s) (hmem : (fd, comps) ∈ held)
    (hn : IsComponent name) (ha : AllowsName allowed root comps name) :
    ∀ a ∈ (s.kernel.resolve fd name false).touched, allowed s.kernel.fs a := by
  obtain ⟨dir, hfd, hr⟩ := h.names _ hmem
  exact ha.resolve hn hfd hr

theorem Kernel.Can.readdir_name {k : Kernel} (h : k.Can (.readdir fd) (.ok (some name)) k') :
    IsComponent name := by
  generalize hr : (Except.ok (some name) : Except Errno (Option Name)) = r at h
  cases h with
  | done =>
    change _ = (k.readdir fd).1 at hr
    rw [Kernel.readdir] at hr
    split at hr
    · split at hr
      · cases hr
      · split at hr
        · rename_i entry _
          cases hr
          exact entry.component
        · cases hr
    · cases hr
  | failed he =>
    obtain ⟨e, he⟩ := he
    cases hr.trans he

end

end Posix

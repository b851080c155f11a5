import SquidServer.FilesystemPaths

namespace SquidServer.Filesystem
open Interaction Posix Wire
set_option autoImplicit true

/-- The paths a request names, as lists of components. -/
def namedPaths (request : List UInt8) : List (List Name) :=
  match request with
  | [] => []
  | opcode :: _ =>
    if opcode = squidFsOpStat ∨ opcode = squidFsOpMkdir ∨ opcode = squidFsOpDelete then
      [components (request.drop 2)]
    else if opcode = squidFsOpList then [components (request.drop 4)]
    else if opcode = squidFsOpRead then [components (request.drop 7)]
    else if opcode = squidFsOpWrite then
      [components ((request.drop 7).take (byteAt request 6).toNat)]
    else if opcode = squidFsOpRename then
      let oldSize := (byteAt request 1).toNat
      [components ((request.drop 2).take oldSize), components (request.drop (oldSize + 3))]
    else []

/-- An access a request may make: to an object that real directory entries named by the
components of one of its paths lead to, or, for LIST, to an entry of the directory it names.
No link is followed, and `.` and `..` are not used. -/
def Confined (root : Ino) (request : List UInt8) (fs : Fs) : Access → Prop
  | .object n => ∃ path ∈ namedPaths request, (∀ c ∈ path, ¬ BadComponent c) ∧
      ((∃ comps, comps <+: path ∧ fs.Reaches root comps n) ∨
        request.head? = some squidFsOpList ∧ ∃ dir name, fs.Reaches root path dir ∧
          ¬ BadComponent name ∧ fs.lookup dir name = some n)
  | .entry dir name => ∃ path ∈ namedPaths request, (∀ c ∈ path, ¬ BadComponent c) ∧
      ((∃ comps, comps ++ [name] <+: path ∧ fs.Reaches root comps dir) ∨
        request.head? = some squidFsOpList ∧ fs.Reaches root path dir ∧ ¬ BadComponent name)
  | .follow _ => False
  | .badFd _ => False

/-- Walking along a path, object by object. -/
def AllowsPath (allowed : Fs → Access → Prop) (root : Ino) (path : List Name) : Prop :=
  ∀ pre c post, path = pre ++ c :: post → AllowsName allowed root pre c

/-- Reading and changing the object a path leads to. -/
def AllowsObject (allowed : Fs → Access → Prop) (root : Ino) (path : List Name) : Prop :=
  ∀ fs n, Fs.Reaches fs root path n → allowed fs (.object n)

theorem confined_allowsObject (hp : path ∈ namedPaths request)
    (hgood : ∀ c ∈ path, ¬ BadComponent c) (hpre : comps <+: path) :
    AllowsObject (Confined root request) root comps := by
  intro fs n hr
  exact ⟨path, hp, hgood, .inl ⟨comps, hpre, hr⟩⟩

theorem confined_allowsPath (hp : path ∈ namedPaths request)
    (hgood : ∀ c ∈ path, ¬ BadComponent c) : AllowsPath (Confined root request) root path := by
  intro pre c post hsplit fs dir hr
  have hstep : pre ++ [c] <+: path := ⟨post, by rw [hsplit]; simp⟩
  refine ⟨confined_allowsObject hp hgood ((List.prefix_append pre [c]).trans hstep) fs dir hr,
    ⟨path, hp, hgood, .inl ⟨pre, hstep, hr⟩⟩, ?_⟩
  intro n hn
  exact confined_allowsObject hp hgood hstep fs n (hr.step hn)

section
variable {allowed : Fs → Access → Prop} {root : Ino} {base : Kernel} {context : SquidFsContext}
  {rootFd : Fd} {held : List (Fd × List Name)} {s : Machine}

theorem openComponents_working (h : Working allowed root base ((fd, comps) :: held) s)
    (hc : ∀ c ∈ rest, IsComponent c)
    (ha : ∀ pre c post, rest = pre ++ c :: post → AllowsName allowed root (comps ++ pre) c) :
    Ensures posix (openComponents fd rest) (Gained allowed root base held (comps ++ rest)) s := by
  induction rest generalizing fd comps s with
  | nil =>
    rw [List.append_nil]
    exact ensures_pure.2 h
  | cons c rest ih =>
    have hname := ha [] c rest rfl
    rw [List.append_nil] at hname
    refine ensures_bind.2 (ensures_ask fun next s₁ hs₁ => ?_)
    have h₁ := h.openat List.mem_cons_self (hc c List.mem_cons_self) rfl hname hs₁
    refine ensures_bind.2 (ensures_ask fun _ s₂ hs₂ => ?_)
    cases next with
    | error e =>
      obtain ⟨hk, hlog⟩ := posix_closes hs₂ (.inl rfl) (h₁.live fd List.mem_cons_self)
      exact ensures_pure.2 (h₁.closed [] hk hlog)
    | ok nextFd =>
      obtain ⟨hk, hlog⟩ := posix_closes hs₂ (.inl rfl) (h₁.live fd (by simp))
      have h₂ := h₁.closed [_] hk hlog
      have hrest := ih h₂ (fun c' hm => hc c' (List.mem_cons_of_mem c hm)) (by
        intro pre c' post hsplit
        have hn := ha (c :: pre) c' post (by rw [hsplit]; rfl)
        rwa [List.append_cons] at hn)
      rwa [← List.append_cons] at hrest

theorem openDirectoryPath_working (h : Working allowed root base held s)
    (hctx : context.rootFd = some rootFd) (hroot : base.ino rootFd = some root)
    (ha : AllowsPath allowed root (components path)) :
    Ensures posix (openDirectoryPath context path)
      (Gained allowed root base held (components path)) s := by
  rw [openDirectoryPath, openRootCopy, hctx]
  refine ensures_bind.2 (ensures_ask fun r s₁ hs₁ => ?_)
  have h₁ := h.dup hroot hs₁
  cases r with
  | error e => exact ensures_pure.2 h₁
  | ok fd =>
    dsimp only
    split
    · rename_i hempty
      subst hempty
      exact ensures_pure.2 h₁
    · exact openComponents_working h₁ (fun c hc => isComponent_of_mem hc) ha

/-- Where `open_parent_directory` leaves a valid path. -/
def ParentOpened (allowed : Fs → Access → Prop) (root : Ino) (base : Kernel)
    (held : List (Fd × List Name)) (path : Name) (r : Except Errno (Fd × Name)) (s : Machine) :
    Prop :=
  match r with
  | .ok (fd, leaf) => leaf = leafOf path ∧
      Working allowed root base ((fd, components (parentOf path)) :: held) s
  | .error _ => Working allowed root base held s

theorem openParentDirectory_working (h : Working allowed root base held s)
    (hctx : context.rootFd = some rootFd) (hroot : base.ino rootFd = some root)
    (hp : ValidPath path) (ha : AllowsPath allowed root (components path)) :
    Ensures posix (openParentDirectory context path)
      (ParentOpened allowed root base held path) s := by
  have hparent : AllowsPath allowed root (components (parentOf path)) := by
    intro pre c post hsplit
    apply ha pre c (post ++ [leafOf path])
    rw [← hp.parent_leaf, hsplit]
    simp
  rw [openParentDirectory, if_neg (List.ne_nil_of_length_pos hp.size.1)]
  refine ensures_bind.2 ((openDirectoryPath_working h hctx hroot hparent).mono ?_)
  intro r s₁ h₁
  cases r with
  | error e => exact ensures_pure.2 h₁
  | ok fd => exact ensures_pure.2 ⟨rfl, h₁⟩

theorem ValidPath.allowsLeaf (hp : ValidPath path)
    (ha : AllowsPath allowed root (components path)) :
    AllowsName allowed root (components (parentOf path)) (leafOf path) :=
  ha _ _ [] hp.parent_leaf.symm

theorem AllowsPath.object (ha : AllowsPath allowed root path) (hne : path ≠ []) :
    AllowsObject allowed root path := by
  intro fs n hr
  cases hr with
  | here => exact absurd rfl hne
  | step hdir hl => exact (ha _ _ [] rfl fs _ hdir).2.2 n hl

theorem ValidPath.components_ne_nil (hp : ValidPath path) : components path ≠ [] := by
  rw [← hp.parent_leaf]
  simp

theorem handleStat_owned (h : Working allowed root base [] s)
    (hctx : context.rootFd = some rootFd) (hroot : base.ino rootFd = some root)
    (hparse : ∀ path, readPathRequest request 1 true = some path → path = [] ∨ ValidPath path)
    (ha : ∀ path, readPathRequest request 1 true = some path →
      AllowsPath allowed root (components path) ∧ AllowsObject allowed root (components path)) :
    Ensures posix (handleStat context opcode request responseCapacity)
      (fun _ s' => Owned allowed base [] s') s := by
  rw [handleStat]
  split
  · exact ensures_pure.2 h.toOwned
  · rename_i path hpath
    obtain ⟨hwalk, hobject⟩ := ha path hpath
    split
    · rename_i hempty
      subst hempty
      rw [hctx]
      refine ensures_bind.2 (ensures_ask fun r s₁ hs₁ => ensures_pure.2 ?_)
      apply h.toOwned.keeps (o := Call.fstat rootFd) trivial _ hs₁
      rw [Kernel.touches, h.toOwned.base_ino hroot]
      intro a hmem
      rw [List.mem_singleton.1 hmem]
      exact hobject _ root .here
    · rename_i hne
      have hp := (hparse path hpath).resolve_left hne
      refine ensures_bind.2 ((openParentDirectory_working h hctx hroot hp hwalk).mono ?_)
      intro r s₁ h₁
      rcases r with e | ⟨fd, leaf⟩
      · exact ensures_pure.2 h₁.toOwned
      · obtain ⟨rfl, h₁⟩ := h₁
        refine ensures_bind.2 (ensures_ask fun r s₂ hs₂ => ?_)
        have h₂ := h₁.reads (o := Call.fstatat fd (leafOf path) true) trivial
          (h₁.touches_name List.mem_cons_self hp.leaf (hp.allowsLeaf hwalk)) hs₂
        refine ensures_bind.2 (ensures_ask fun _ s₃ hs₃ => ensures_pure.2 ?_)
        obtain ⟨hk, hlog⟩ := posix_closes hs₃ (.inl rfl) (h₂.live fd List.mem_cons_self)
        exact h₂.toOwned.closed [] hk hlog

theorem readFile_working (h : Working allowed root base held s) (hmem : (fd, comps) ∈ held)
    (ha : AllowsObject allowed root comps) :
    Ensures posix (readFile fd opcode offset maximumBytes responseCapacity)
      (fun _ s' => Working allowed root base held s') s := by
  refine ensures_bind.2 (ensures_ask fun r s₁ hs₁ => ?_)
  have h₁ := h.reads (o := Call.fstat fd) trivial (h.touches_object hmem ha) hs₁
  cases r with
  | error e => exact ensures_pure.2 h₁
  | ok information =>
    dsimp only
    split
    · exact ensures_pure.2 h₁
    · split
      · exact ensures_pure.2 h₁
      · split
        · exact ensures_pure.2 h₁
        · split
          · exact ensures_pure.2 h₁
          · refine ensures_bind.2 (ensures_ask fun r s₂ hs₂ => ?_)
            have h₂ := h₁.reads (o := Call.pread fd _ _) trivial (h₁.touches_object hmem ha) hs₂
            cases r <;> exact ensures_pure.2 h₂

theorem handleRead_owned (h : Working allowed root base [] s)
    (hctx : context.rootFd = some rootFd) (hroot : base.ino rootFd = some root)
    (hparse : ∀ path, readPathRequest request 6 false = some path → ValidPath path)
    (ha : ∀ path, readPathRequest request 6 false = some path →
      AllowsPath allowed root (components path)) :
    Ensures posix (handleRead context opcode request responseCapacity)
      (fun _ s' => Owned allowed base [] s') s := by
  rw [handleRead]
  split
  · exact ensures_pure.2 h.toOwned
  · rename_i path hpath
    split at hpath
    · cases hpath
    · have hp := hparse path hpath
      have hwalk := ha path hpath
      split
      · exact ensures_pure.2 h.toOwned
      · refine ensures_bind.2 ((openParentDirectory_working h hctx hroot hp hwalk).mono ?_)
        intro r s₁ h₁
        rcases r with e | ⟨fd, leaf⟩
        · exact ensures_pure.2 h₁.toOwned
        · obtain ⟨rfl, h₁⟩ := h₁
          refine ensures_bind.2 (ensures_ask fun file s₂ hs₂ => ?_)
          have h₂ := h₁.openat List.mem_cons_self hp.leaf rfl (hp.allowsLeaf hwalk) hs₂
          rw [hp.parent_leaf] at h₂
          refine ensures_bind.2 (ensures_ask fun _ s₃ hs₃ => ?_)
          cases file with
          | error e =>
            obtain ⟨hk, hlog⟩ := posix_closes hs₃ (.inl rfl) (h₂.live fd List.mem_cons_self)
            exact ensures_pure.2 (h₂.toOwned.closed [] hk hlog)
          | ok fileFd =>
            obtain ⟨hk, hlog⟩ := posix_closes hs₃ (.inl rfl) (h₂.live fd (by simp))
            have h₃ := h₂.closed [_] hk hlog
            refine ensures_bind.2 ((readFile_working h₃ List.mem_cons_self
              (hwalk.object hp.components_ne_nil)).mono ?_)
            intro result s₄ h₄
            refine ensures_bind.2 (ensures_ask fun _ s₅ hs₅ => ensures_pure.2 ?_)
            obtain ⟨hk, hlog⟩ := posix_closes hs₅ (.inl rfl) (h₄.live fileFd List.mem_cons_self)
            exact h₄.toOwned.closed [] hk hlog

theorem listEntry_working (h : Working allowed root base held s) (hmem : (fd, comps) ∈ held)
    (hobject : AllowsObject allowed root comps)
    (hchild : ∀ name, ¬ BadComponent name → AllowsName allowed root comps name) :
    Ensures posix (listEntry fd cursor responseCapacity page)
      (fun _ s' => Working allowed root base held s') s := by
  refine ensures_bind.2 (ensures_ask fun r s₁ hs₁ => ?_)
  have h₁ := h.reads (o := Call.readdir fd) trivial (h.touches_object hmem hobject) hs₁
  rcases r with e | _ | name
  · exact ensures_pure.2 h₁
  · exact ensures_pure.2 h₁
  · have hn : IsComponent name := hs₁.1.readdir_name
    dsimp only
    split
    · exact ensures_pure.2 h₁
    · rename_i hdots
      split
      · exact ensures_pure.2 h₁
      · split
        · exact ensures_pure.2 h₁
        · have hgood : ¬ BadComponent name := by
            intro hb
            rcases hb with hb | hb
            · exact hn.1 hb
            · exact hdots hb
          refine ensures_bind.2 (ensures_ask fun r s₂ hs₂ => ?_)
          have h₂ := h₁.reads (o := Call.fstatat fd name true) trivial
            (h₁.touches_name hmem hn (hchild name hgood)) hs₂
          cases r with
          | error e => exact ensures_pure.2 h₂
          | ok information =>
            dsimp only
            split
            · split <;> exact ensures_pure.2 h₂
            · exact ensures_pure.2 h₂

/-- A handler that has returned gives back every descriptor it took; one that is cut off has
at least kept to what it may touch. -/
def Finished (allowed : Fs → Access → Prop) (base : Kernel) (reply : Response) (s : Machine) :
    Prop :=
  (∃ held, Owned allowed base held s) ∧ (reply ≠ none → Owned allowed base [] s)

theorem Finished.of_owned (h : Owned allowed base [] s) (reply : Response) :
    Finished allowed base reply s := ⟨⟨[], h⟩, fun _ => h⟩

theorem handleList_finished (h : Working allowed root base [] s)
    (hctx : context.rootFd = some rootFd) (hroot : base.ino rootFd = some root)
    (ha : ∀ path, readPathRequest request 3 true = some path →
      AllowsPath allowed root (components path) ∧ AllowsObject allowed root (components path) ∧
      ∀ name, ¬ BadComponent name → AllowsName allowed root (components path) name) :
    Ensures posix (handleList fuel context opcode request responseCapacity)
      (Finished allowed base) s := by
  rw [handleList]
  split
  · exact ensures_pure.2 (.of_owned h.toOwned _)
  · rename_i path hpath
    split at hpath
    · cases hpath
    · obtain ⟨hwalk, hobject, hchild⟩ := ha path hpath
      dsimp only
      split
      · exact ensures_pure.2 (.of_owned h.toOwned _)
      · refine ensures_bind.2 ((openDirectoryPath_working h hctx hroot hwalk).mono ?_)
        intro r s₁ h₁
        cases r with
        | error e => exact ensures_pure.2 (.of_owned h₁.toOwned _)
        | ok fd =>
          refine ensures_bind.2 (ensures_ask fun r s₂ hs₂ => ?_)
          have h₂ := h₁.reads (o := Call.fdopendir fd) trivial
            (h₁.touches_object List.mem_cons_self hobject) hs₂
          cases r with
          | error e =>
            refine ensures_bind.2 (ensures_ask fun _ s₃ hs₃ => ensures_pure.2 ?_)
            obtain ⟨hk, hlog⟩ := posix_closes hs₃ (.inl rfl) (h₂.live fd List.mem_cons_self)
            exact .of_owned (h₂.toOwned.closed [] hk hlog) _
          | ok _ =>
            refine ensures_bind.2 (Ensures.mono (Q := fun _ s' =>
              Working allowed root base [(fd, components path)] s') ?_ ?_)
            · refine ensures_loop (fun _ _ s' =>
                Working allowed root base [(fd, components path)] s') ?_ ?_ h₂
              · intro _ s' h'
                exact h'
              · intro _ page s' h'
                refine (listEntry_working h' List.mem_cons_self hobject hchild).mono ?_
                intro x s'' h''
                cases x <;> exact h''
            · intro x s₃ h₃
              rcases x with _ | status | ⟨nextCursor, page⟩
              · exact ensures_pure.2 ⟨⟨_, h₃.toOwned⟩, fun hn => absurd rfl hn⟩
              · refine ensures_bind.2 (ensures_ask fun _ s₄ hs₄ => ensures_pure.2 ?_)
                obtain ⟨hk, hlog⟩ := posix_closes hs₄ (.inr rfl) (h₃.live fd List.mem_cons_self)
                exact .of_owned (h₃.toOwned.closed [] hk hlog) _
              · refine ensures_bind.2 (ensures_ask fun _ s₄ hs₄ => ensures_pure.2 ?_)
                obtain ⟨hk, hlog⟩ := posix_closes hs₄ (.inr rfl) (h₃.live fd List.mem_cons_self)
                exact .of_owned (h₃.toOwned.closed [] hk hlog) _

theorem writeFile_owned (h : Working allowed root base held s) (hmem : (fd, comps) ∈ held)
    (ha : AllowsObject allowed root comps) :
    Ensures posix (writeFile fd data offset)
      (fun _ s' => Owned allowed base (held.map Prod.fst) s') s := by
  refine ensures_bind.2 (ensures_ask fun r s₁ hs₁ => ?_)
  have h₁ := h.reads (o := Call.fstat fd) trivial (h.touches_object hmem ha) hs₁
  cases r with
  | error e => exact ensures_pure.2 h₁.toOwned
  | ok information =>
    dsimp only
    split
    · exact ensures_pure.2 h₁.toOwned
    · refine ensures_bind.2 (ensures_ask fun r s₂ hs₂ => ?_)
      have h₂ := h₁.toOwned.keeps (o := Call.pwrite fd _ _) trivial
        (h₁.touches_object hmem ha) hs₂
      cases r <;> exact ensures_pure.2 h₂

theorem handleWrite_owned (h : Working allowed root base [] s)
    (hctx : context.rootFd = some rootFd) (hroot : base.ino rootFd = some root)
    (ha : ∀ fields, parseWrite request = some fields → ValidPath fields.path ∧
      AllowsPath allowed root (components fields.path)) :
    Ensures posix (handleWrite context opcode request responseCapacity)
      (fun _ s' => Owned allowed base [] s') s := by
  rw [handleWrite]
  split
  · exact ensures_pure.2 h.toOwned
  · split
    · exact ensures_pure.2 h.toOwned
    · rename_i fields hfields
      obtain ⟨hp, hwalk⟩ := ha fields hfields
      refine ensures_bind.2 ((openParentDirectory_working h hctx hroot hp hwalk).mono ?_)
      intro r s₁ h₁
      rcases r with e | ⟨fd, leaf⟩
      · exact ensures_pure.2 h₁.toOwned
      · obtain ⟨rfl, h₁⟩ := h₁
        refine ensures_bind.2 (ensures_ask fun file s₂ hs₂ => ?_)
        have h₂ := h₁.openat List.mem_cons_self hp.leaf rfl (hp.allowsLeaf hwalk) hs₂
        rw [hp.parent_leaf] at h₂
        refine ensures_bind.2 (ensures_ask fun _ s₃ hs₃ => ?_)
        cases file with
        | error e =>
          obtain ⟨hk, hlog⟩ := posix_closes hs₃ (.inl rfl) (h₂.live fd List.mem_cons_self)
          exact ensures_pure.2 (h₂.toOwned.closed [] hk hlog)
        | ok fileFd =>
          obtain ⟨hk, hlog⟩ := posix_closes hs₃ (.inl rfl) (h₂.live fd (by simp))
          have h₃ := h₂.closed [_] hk hlog
          refine ensures_bind.2 ((writeFile_owned h₃ List.mem_cons_self
            (hwalk.object hp.components_ne_nil)).mono ?_)
          intro result s₄ h₄
          refine ensures_bind.2 (ensures_ask fun _ s₅ hs₅ => ?_)
          obtain ⟨hk, hlog⟩ := posix_closes hs₅ (.inl rfl) (h₄.live fileFd List.mem_cons_self)
          have h₅ := h₄.closed [] hk hlog
          cases result with
          | error status => exact ensures_pure.2 h₅
          | ok bytesWritten =>
            dsimp only
            split <;> exact ensures_pure.2 h₅

theorem deleteEntry_owned (h : Working allowed root base held s) (hmem : (fd, comps) ∈ held)
    (hn : IsComponent leaf) (ha : AllowsName allowed root comps leaf) :
    Ensures posix (deleteEntry fd leaf)
      (fun _ s' => Owned allowed base (held.map Prod.fst) s') s := by
  refine ensures_bind.2 (ensures_ask fun r s₁ hs₁ => ?_)
  have h₁ := h.reads (o := Call.fstatat fd leaf true) trivial (h.touches_name hmem hn ha) hs₁
  cases r with
  | error e => exact ensures_pure.2 h₁.toOwned
  | ok information =>
    refine ensures_ask fun r s₂ hs₂ => ?_
    exact h₁.toOwned.keeps (o := Call.unlinkat fd leaf _) trivial (h₁.touches_name hmem hn ha) hs₂

theorem mkdirOrDelete_owned (h : Working allowed root base held s) (hmem : (fd, comps) ∈ held)
    (hn : IsComponent leaf) (ha : AllowsName allowed root comps leaf) :
    Ensures posix (mkdirOrDelete opcode fd leaf)
      (fun _ s' => Owned allowed base (held.map Prod.fst) s') s := by
  rw [mkdirOrDelete]
  split
  · refine ensures_ask fun r s₁ hs₁ => ?_
    exact h.toOwned.keeps (o := Call.mkdirat fd leaf _) trivial (h.touches_name hmem hn ha) hs₁
  · exact deleteEntry_owned h hmem hn ha

theorem handleMkdirOrDelete_owned (h : Working allowed root base [] s)
    (hctx : context.rootFd = some rootFd) (hroot : base.ino rootFd = some root)
    (ha : ∀ path, readPathRequest request 1 false = some path → ValidPath path ∧
      AllowsPath allowed root (components path)) :
    Ensures posix (handleMkdirOrDelete context opcode request responseCapacity)
      (fun _ s' => Owned allowed base [] s') s := by
  rw [handleMkdirOrDelete]
  split
  · exact ensures_pure.2 h.toOwned
  · split
    · exact ensures_pure.2 h.toOwned
    · rename_i path hpath
      obtain ⟨hp, hwalk⟩ := ha path hpath
      refine ensures_bind.2 ((openParentDirectory_working h hctx hroot hp hwalk).mono ?_)
      intro r s₁ h₁
      rcases r with e | ⟨fd, leaf⟩
      · exact ensures_pure.2 h₁.toOwned
      · obtain ⟨rfl, h₁⟩ := h₁
        refine ensures_bind.2 ((mkdirOrDelete_owned h₁ List.mem_cons_self hp.leaf
          (hp.allowsLeaf hwalk)).mono ?_)
        intro result s₂ h₂
        refine ensures_bind.2 (ensures_ask fun _ s₃ hs₃ => ensures_pure.2 ?_)
        obtain ⟨hk, hlog⟩ := posix_closes hs₃ (.inl rfl) (h₂.live fd List.mem_cons_self)
        exact h₂.closed [] hk hlog

theorem handleRename_owned (h : Working allowed root base [] s)
    (hctx : context.rootFd = some rootFd) (hroot : base.ino rootFd = some root)
    (ha : ∀ oldPath newPath, parseRename request = some (oldPath, newPath) →
      (ValidPath oldPath ∧ AllowsPath allowed root (components oldPath)) ∧
      (ValidPath newPath ∧ AllowsPath allowed root (components newPath))) :
    Ensures posix (handleRename context opcode request responseCapacity)
      (fun _ s' => Owned allowed base [] s') s := by
  rw [handleRename]
  split
  · exact ensures_pure.2 h.toOwned
  · split
    · exact ensures_pure.2 h.toOwned
    · rename_i oldPath newPath hpaths
      obtain ⟨⟨hold, holdWalk⟩, hnew, hnewWalk⟩ := ha oldPath newPath hpaths
      refine ensures_bind.2 ((openParentDirectory_working h hctx hroot hold holdWalk).mono ?_)
      intro r s₁ h₁
      rcases r with e | ⟨oldFd, oldLeaf⟩
      · exact ensures_pure.2 h₁.toOwned
      · obtain ⟨rfl, h₁⟩ := h₁
        refine ensures_bind.2 ((openParentDirectory_working h₁ hctx hroot hnew hnewWalk).mono ?_)
        intro r s₂ h₂
        rcases r with e | ⟨newFd, newLeaf⟩
        · refine ensures_bind.2 (ensures_ask fun _ s₃ hs₃ => ensures_pure.2 ?_)
          obtain ⟨hk, hlog⟩ := posix_closes hs₃ (.inl rfl) (h₂.live oldFd List.mem_cons_self)
          exact h₂.toOwned.closed [] hk hlog
        · obtain ⟨rfl, h₂⟩ := h₂
          refine ensures_bind.2 (ensures_ask fun result s₃ hs₃ => ?_)
          have h₃ := h₂.toOwned.keeps (o := Call.renameat oldFd _ newFd _) trivial (by
            intro a hmem
            rcases List.mem_append.1 hmem with hmem | hmem
            · exact h₂.touches_name (by simp) hold.leaf (hold.allowsLeaf holdWalk) a hmem
            · exact h₂.touches_name List.mem_cons_self hnew.leaf (hnew.allowsLeaf hnewWalk) a
                hmem) hs₃
          refine ensures_bind.2 (ensures_ask fun _ s₄ hs₄ => ?_)
          obtain ⟨hk, hlog⟩ := posix_closes hs₄ (.inl rfl) (h₃.live oldFd (by simp))
          have h₄ := h₃.closed [_] hk hlog
          refine ensures_bind.2 (ensures_ask fun _ s₅ hs₅ => ensures_pure.2 ?_)
          obtain ⟨hk, hlog⟩ := posix_closes hs₅ (.inl rfl) (h₄.live newFd List.mem_cons_self)
          exact h₄.closed [] hk hlog

end

theorem readPathRequest_spec (h : readPathRequest request offset allowEmpty = some path) :
    path = request.drop (offset + 1) ∧ (path = [] ∧ allowEmpty = true ∨ ValidPath path) := by
  rw [readPathRequest] at h
  split at h
  · cases h
  · split at h
    · cases h
    · exact pathIsValid_spec h

theorem ValidPath.good (h : ValidPath path) : ∀ c ∈ components path, ¬ BadComponent c := by
  rw [h.components_eq]
  exact h.pieces

theorem good_of_spec (h : path = [] ∧ allowEmpty = true ∨ ValidPath path) :
    ∀ c ∈ components path, ¬ BadComponent c := by
  rcases h with ⟨rfl, -⟩ | h
  · intro c hc
    cases hc
  · exact h.good

theorem pathIsValid_nonempty (h : pathIsValid input false = some path) :
    path = input ∧ ValidPath path := by
  obtain ⟨rfl, ⟨-, hn⟩ | hp⟩ := pathIsValid_spec h
  · cases hn
  · exact ⟨rfl, hp⟩

theorem parseWrite_spec (h : parseWrite request = some fields) :
    fields.path = (request.drop 7).take (byteAt request 6).toNat ∧ ValidPath fields.path := by
  rw [parseWrite] at h
  split at h
  · cases h
  · dsimp only at h
    split at h
    · cases h
    · split at h
      · cases h
      · rename_i path hpath
        split at h
        · cases h
        · split at h
          · cases h
          · cases h
            exact pathIsValid_nonempty hpath

theorem parseRename_spec (h : parseRename request = some (oldPath, newPath)) :
    (oldPath = (request.drop 2).take (byteAt request 1).toNat ∧ ValidPath oldPath) ∧
      newPath = request.drop ((byteAt request 1).toNat + 3) ∧ ValidPath newPath := by
  rw [parseRename] at h
  split at h
  · cases h
  · dsimp only at h
    split at h
    · cases h
    · split at h
      · cases h
      · rename_i old hold
        split at h
        · cases h
        · split at h
          · cases h
          · split at h
            · cases h
            · rename_i new hnew
              cases h
              rw [show 2 + (byteAt request 1).toNat + 1 = (byteAt request 1).toNat + 3 by omega]
                at hnew
              exact ⟨pathIsValid_nonempty hold, pathIsValid_nonempty hnew⟩

theorem namedPaths_single {opcode : UInt8} (h : opcode = squidFsOpStat ∨ opcode = squidFsOpMkdir ∨
    opcode = squidFsOpDelete) : namedPaths (opcode :: rest) = [components (rest.drop 1)] := by
  rw [namedPaths, if_pos h]
  rfl

/-- A request touches nothing but what its paths name below the root, and a finished one
leaves no descriptor behind. -/
theorem handleSquidFsRequest_finished
    (h : Working (Confined root request) root base [] s)
    (hroot : ∀ rootFd, context.rootFd = some rootFd → base.ino rootFd = some root) :
    Ensures posix (handleSquidFsRequest fuel context request responseCapacity)
      (Finished (Confined root request) base) s := by
  cases request with
  | nil => exact ensures_pure.2 (.of_owned h.toOwned _)
  | cons opcode rest =>
    rw [handleSquidFsRequest]
    split
    · exact ensures_pure.2 (.of_owned h.toOwned _)
    · rename_i hctx
      rw [not_or] at hctx
      obtain ⟨rootFd, hfd⟩ := Option.ne_none_iff_exists'.1 hctx.1
      have hbase := hroot rootFd hfd
      have hone : ∀ path : Name, components path ∈ namedPaths (opcode :: rest) →
          (∀ c ∈ components path, ¬ BadComponent c) →
          AllowsPath (Confined root (opcode :: rest)) root (components path) ∧
          AllowsObject (Confined root (opcode :: rest)) root (components path) :=
        fun path hp hgood => ⟨confined_allowsPath hp hgood,
          confined_allowsObject hp hgood List.prefix_rfl⟩
      have hdone : ∀ {p : Program Syscalls Response}, Ensures posix p
          (fun _ s' => Owned (Confined root (opcode :: rest)) base [] s') s →
          Ensures posix p (Finished (Confined root (opcode :: rest)) base) s :=
        fun hp => hp.mono fun reply _ ho => .of_owned ho reply
      split
      · split <;> exact ensures_pure.2 (.of_owned h.toOwned _)
      split
      · rename_i hop
        refine hdone (handleStat_owned h hfd hbase ?_ ?_)
        · intro path hpath
          exact (readPathRequest_spec hpath).2.imp_left And.left
        · intro path hpath
          obtain ⟨rfl, hspec⟩ := readPathRequest_spec hpath
          apply hone _ _ (good_of_spec hspec)
          rw [namedPaths_single (.inl hop)]
          exact List.mem_singleton_self _
      split
      · rename_i hop
        refine handleList_finished h hfd hbase ?_
        intro path hpath
        obtain ⟨rfl, hspec⟩ := readPathRequest_spec hpath
        have hp : components ((opcode :: rest).drop 4) ∈ namedPaths (opcode :: rest) := by
          rw [namedPaths, hop]
          exact List.mem_singleton_self _
        have hgood := good_of_spec hspec
        obtain ⟨hwalk, hobject⟩ := hone _ hp hgood
        refine ⟨hwalk, hobject, ?_⟩
        intro name hname fs dir hr
        refine ⟨hobject fs dir hr, ⟨_, hp, hgood, .inr ⟨congrArg some hop, hr, hname⟩⟩, ?_⟩
        intro n hl
        exact ⟨_, hp, hgood, .inr ⟨congrArg some hop, dir, name, hr, hname, hl⟩⟩
      split
      · rename_i hop
        refine hdone (handleRead_owned h hfd hbase ?_ ?_)
        · intro path hpath
          exact (readPathRequest_spec hpath).2.resolve_left fun hn => absurd hn.2 (by decide)
        · intro path hpath
          obtain ⟨rfl, hspec⟩ := readPathRequest_spec hpath
          apply (hone _ _ (good_of_spec hspec)).1
          rw [namedPaths, hop]
          exact List.mem_singleton_self _
      split
      · rename_i hop
        refine hdone (handleWrite_owned h hfd hbase ?_)
        intro fields hfields
        obtain ⟨hpath, hvalid⟩ := parseWrite_spec hfields
        refine ⟨hvalid, (hone _ ?_ hvalid.good).1⟩
        rw [namedPaths, hop, hpath]
        exact List.mem_singleton_self _
      split
      · rename_i hop
        refine hdone (handleMkdirOrDelete_owned h hfd hbase ?_)
        intro path hpath
        obtain ⟨rfl, hspec⟩ := readPathRequest_spec hpath
        have hvalid := hspec.resolve_left fun hn => absurd hn.2 (by decide)
        refine ⟨hvalid, (hone _ ?_ hvalid.good).1⟩
        rw [namedPaths_single (.inr hop)]
        exact List.mem_singleton_self _
      split
      · rename_i hop
        refine hdone (handleRename_owned h hfd hbase ?_)
        intro oldPath newPath hpaths
        obtain ⟨⟨hold, holdValid⟩, hnew, hnewValid⟩ := parseRename_spec hpaths
        refine ⟨⟨holdValid, (hone _ ?_ holdValid.good).1⟩, hnewValid,
          (hone _ ?_ hnewValid.good).1⟩
        · rw [namedPaths, hop, hold]
          exact List.mem_cons_self
        · rw [namedPaths, hop, hnew]
          exact List.mem_cons_of_mem _ (List.mem_singleton_self _)
      · exact ensures_pure.2 (.of_owned h.toOwned _)

theorem Working.start (allowed : Fs → Access → Prop) (root : Ino) (k : Kernel) :
    Working allowed root k [] ⟨k, []⟩ where
  log := by simp
  distinct := List.nodup_nil
  fresh := by simp
  live := by simp
  frame := fun _ _ => rfl
  files := fun _ f hf => ⟨f, hf, rfl⟩
  names := by simp

/-- No request gets out of the exported root. -/
theorem handleSquidFsRequest_confined
    (hroot : ∀ rootFd, context.rootFd = some rootFd → k.ino rootFd = some root)
    (he : Exec posix ⟨k, []⟩ (handleSquidFsRequest fuel context request responseCapacity) s reply) :
    ∀ x ∈ s.log, Confined root request x.1 x.2 := by
  obtain ⟨⟨held, howned⟩, -⟩ :=
    handleSquidFsRequest_finished (Working.start _ root k) hroot _ _ he
  exact howned.log

theorem isComponent_e : IsComponent [0x65] := by decide

theorem isComponent_f : IsComponent [0x66] := by decide

theorem isComponent_l : IsComponent [0x6C] := by decide

/-- A host whose exported directory, inode 1, holds a file `f` and a link `l` to the host's
root directory; descriptor 0 is open on the exported directory. -/
def linkedKernel : Kernel where
  fs := {
    inodes := [
      ⟨.directory [⟨[0x65], 1, isComponent_e⟩], 0o755, 0⟩,
      ⟨.directory [⟨dot, 1, isComponent_dot⟩, ⟨dotdot, 0, isComponent_dotdot⟩,
        ⟨[0x66], 2, isComponent_f⟩, ⟨[0x6C], 3, isComponent_l⟩], 0o755, 0⟩,
      ⟨.file [1, 2, 3], 0o644, 0⟩,
      ⟨.symlink [0x2F], 0o777, 0⟩]
    hostRoot := 0 }
  fds := [some 0]
  files := [⟨1, 0, false⟩]
  valid := by simp

-- Given the whole path, the host itself would follow the link and reach inode 1 again.
example : (linkedKernel.resolve 0 [0x6C, 0x2F, 0x65] false).touched =
    [.entry 1 [0x6C], .follow 3, .entry 0 [0x65], .object 1] := by decide +kernel

/-- A STAT of `l/e`, which is the exported directory itself through the link. -/
theorem handleSquidFsRequest_confined_link :
    ∃ s reply, Exec posix ⟨linkedKernel, []⟩
        (handleSquidFsRequest 8 ⟨some 0, false⟩ [0x01, 3, 0x6C, 0x2F, 0x65] 255) s reply ∧
      ∀ x ∈ s.log, Confined 1 [0x01, 3, 0x6C, 0x2F, 0x65] x.1 x.2 := by
  obtain ⟨s, reply, he⟩ := exists_exec posix_answers
    (handleSquidFsRequest 8 ⟨some 0, false⟩ [0x01, 3, 0x6C, 0x2F, 0x65] 255) ⟨linkedKernel, []⟩
  refine ⟨s, reply, he, handleSquidFsRequest_confined ?_ he⟩
  intro rootFd h
  cases h
  rfl

end SquidServer.Filesystem

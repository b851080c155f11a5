import SquidServer.FilesystemRequests

namespace SquidServer.Filesystem
open Interaction Posix Wire
set_option autoImplicit true

/-- The loop of `path_is_valid`, whose index goes one past the input; `path` is what is copied. -/
def checkPathAt (input : List UInt8) (index componentStart : Nat) (path : Name) : Option Name :=
  if input.length < index then some path
  else if index < input.length ∧ byteAt input index ≠ 0x2F then
    if byteAt input index = 0 then none
    else checkPathAt input (index + 1) componentStart (path ++ [byteAt input index])
  else if index = componentStart ∨
      (index - componentStart = 1 ∧ byteAt input componentStart = 0x2E) ∨
      (index - componentStart = 2 ∧ byteAt input componentStart = 0x2E ∧
        byteAt input (componentStart + 1) = 0x2E) then none
  else checkPathAt input (index + 1) (index + 1)
    (if index < input.length then path ++ [0x2F] else path)
termination_by input.length + 1 - index

/-- `path_is_valid`, index by index. -/
def pathIsValidAt (input : List UInt8) (allowEmpty : Bool) : Option Name :=
  if input = [] ∧ allowEmpty then some []
  else if input = [] ∨ squidFsPathMax < input.length ∨ byteAt input 0 = 0x2F ∨
      byteAt input (input.length - 1) = 0x2F then none
  else checkPathAt input 0 0 []

/-- `strtok_r` with a slash between the tokens: the next token, and the text behind it. -/
def strtokR (text : Name) : Option (Name × Name) :=
  let start := text.dropWhile (· = 0x2F)
  if start = [] then none
  else some (start.takeWhile (· ≠ 0x2F), (start.dropWhile (· ≠ 0x2F)).drop 1)

theorem length_strtokR (h : strtokR text = some (token, rest)) : rest.length < text.length := by
  simp only [strtokR] at h
  split at h
  · cases h
  · rename_i hstart
    obtain ⟨-, rfl⟩ := Prod.mk.inj (Option.some.inj h)
    have hpos := List.length_pos_iff.2 hstart
    have hskipped :=
      (List.dropWhile_suffix (l := text) fun c : UInt8 => decide (c = 0x2F)).length_le
    have htoken := (List.dropWhile_suffix (l := text.dropWhile fun c : UInt8 => decide (c = 0x2F))
      fun c : UInt8 => decide (c ≠ 0x2F)).length_le
    rw [List.length_drop]
    omega

/-- The loop of `open_directory_path`. -/
def openTokens (directoryFd : Fd) (working : Name) : Program Syscalls (Except Errno Fd) :=
  match h : strtokR working with
  | none => return .ok directoryFd
  | some (component, rest) => do
    let next ← openat directoryFd component directoryFlags 0
    close directoryFd
    match next with
    | .error e => return .error e
    | .ok nextFd =>
      have := length_strtokR h
      openTokens nextFd rest
termination_by working.length

/-- `open_directory_path`, token by token. -/
def walkDirectoryPath (context : SquidFsContext) (path : Name) :
    Program Syscalls (Except Errno Fd) := do
  match ← openRootCopy context with
  | .error e => return .error e
  | .ok directoryFd => if path = [] then return .ok directoryFd else openTokens directoryFd path

/-- `strrchr` for a slash: the index of the last one. -/
def lastSlash (path : Name) : Option Nat :=
  (path.reverse.findIdx? (· = 0x2F)).map (path.length - 1 - ·)

/-- `open_parent_directory`, cut at the last slash. -/
def walkParentDirectory (context : SquidFsContext) (path : Name) :
    Program Syscalls (Except Errno (Fd × Name)) := do
  if path = [] then return .error .einval
  else
    let (parent, leaf) := match lastSlash path with
      | none => ([], path)
      | some separator => (path.take separator, path.drop (separator + 1))
    match ← walkDirectoryPath context parent with
    | .error e => return .error e
    | .ok parentFd => return .ok (parentFd, leaf)

theorem byteAt_append (before text : List UInt8) (i : Nat) :
    byteAt (before ++ text) (before.length + i) = byteAt text i := by
  rw [byteAt, byteAt, List.getD_eq_getElem?_getD, List.getD_eq_getElem?_getD,
    List.getElem?_append_right (Nat.le_add_right _ _), Nat.add_sub_cancel_left]

theorem badComponent_iff (before component rest : List UInt8) :
    (before.length + component.length = before.length ∨
      (before.length + component.length - before.length = 1 ∧
        byteAt (before ++ (component ++ rest)) before.length = 0x2E) ∨
      (before.length + component.length - before.length = 2 ∧
        byteAt (before ++ (component ++ rest)) before.length = 0x2E ∧
        byteAt (before ++ (component ++ rest)) (before.length + 1) = 0x2E)) ↔
      BadComponent component := by
  have hfirst := byteAt_append before (component ++ rest) 0
  have hsecond := byteAt_append before (component ++ rest) 1
  rw [Nat.add_zero] at hfirst
  rw [hfirst, hsecond, Nat.add_sub_cancel_left, BadComponent, dot, dotdot]
  match component with
  | [] => simp
  | [a] => simp [byteAt]
  | [a, b] => simp [byteAt]
  | a :: b :: c :: more => simp

/-- The loop over the indices takes the same turns as the one over the bytes. -/
theorem checkPathAt_eq (before component rest : List UInt8) :
    checkPathAt (before ++ (component ++ rest)) (before.length + component.length) before.length
        (before ++ component) =
      (copyPath component rest).map (before ++ component ++ ·) := by
  induction rest generalizing before component with
  | nil =>
    have hlength : (before ++ (component ++ [])).length = before.length + component.length := by
      rw [List.append_nil, List.length_append]
    rw [checkPathAt, hlength, if_neg (Nat.lt_irrefl _), if_neg fun h => Nat.lt_irrefl _ h.1,
      copyPath]
    by_cases hbad : BadComponent component
    · rw [if_pos ((badComponent_iff before component []).2 hbad), if_pos hbad]
      rfl
    · rw [if_neg fun h => hbad ((badComponent_iff before component []).1 h), if_neg hbad,
        if_neg (Nat.lt_irrefl _), checkPathAt, hlength, if_pos (Nat.lt_succ_self _),
        Option.map_some, List.append_nil]
  | cons c rest ih =>
    have hlength : before.length + component.length <
        (before ++ (component ++ c :: rest)).length := by
      simp only [List.length_append, List.length_cons]
      omega
    have hbyte : byteAt (before ++ (component ++ c :: rest)) (before.length + component.length) =
        c := by
      rw [byteAt_append]
      exact byteAt_append component (c :: rest) 0
    rw [checkPathAt, if_neg (Nat.not_lt.2 (Nat.le_of_lt hlength)), hbyte, copyPath]
    by_cases hslash : c = 0x2F
    · rw [if_neg fun h => h.2 hslash, if_neg (not_not.2 hslash)]
      by_cases hbad : BadComponent component
      · rw [if_pos ((badComponent_iff before component (c :: rest)).2 hbad), if_pos hbad]
        rfl
      · have hih := ih (before ++ component ++ [c]) []
        simp only [List.length_append, List.length_cons, List.length_nil, Nat.add_zero,
          Nat.zero_add, List.append_assoc, List.append_nil, List.nil_append, List.singleton_append,
          ← Nat.add_assoc] at hih
        rw [if_neg fun h => hbad ((badComponent_iff before component (c :: rest)).1 h),
          if_neg hbad, if_pos hlength]
        subst hslash
        rw [List.append_assoc, hih, Option.map_map]
        congr 1
        funext tail
        simp
    · rw [if_pos ⟨hlength, hslash⟩, if_pos hslash]
      split
      · rfl
      · have hih := ih before (component ++ [c])
        simp only [List.length_append, List.length_cons, List.length_nil, Nat.zero_add,
          List.append_assoc, List.singleton_append, ← Nat.add_assoc] at hih
        rw [List.append_assoc, hih, Option.map_map]
        congr 1
        funext tail
        simp

theorem byteAt_zero (h : input ≠ []) (c : UInt8) :
    byteAt input 0 = c ↔ input.head? = some c := by
  cases input with
  | nil => exact absurd rfl h
  | cons d rest => simp [byteAt]

theorem byteAt_last (h : input ≠ []) (c : UInt8) :
    byteAt input (input.length - 1) = c ↔ input.getLast? = some c := by
  have hpos := List.length_pos_iff.2 h
  rw [byteAt, List.getD_eq_getElem?_getD, List.getLast?_eq_getElem?,
    List.getElem?_eq_getElem (by omega)]
  simp

theorem pathIsValidAt_eq (input : List UInt8) (allowEmpty : Bool) :
    pathIsValidAt input allowEmpty = pathIsValid input allowEmpty := by
  rw [pathIsValidAt, pathIsValid]
  by_cases hempty : input = []
  · rw [hempty]
    simp
  · have hloop := checkPathAt_eq [] [] input
    simp only [List.nil_append, List.length_nil, Nat.add_zero, Option.map_id'] at hloop
    rw [hloop]
    simp only [byteAt_zero hempty, byteAt_last hempty]

theorem components_slash (text : Name) : components (0x2F :: text) = components text := by
  rw [Posix.components, splitSlash, if_pos rfl]
  rfl

theorem components_token (hslash : 0x2F ∉ token) (hne : token ≠ []) (rest : Name) :
    components token = [token] ∧ components (token ++ 0x2F :: rest) = token :: components rest := by
  have htoken : components token = [token] := IsComponent.components ⟨hne, hslash⟩
  refine ⟨htoken, ?_⟩
  rw [Posix.components, splitSlash_slash, List.filter_append]
  exact congrArg (· ++ components rest) htoken

theorem components_strtokR (text : Name) : components text =
    match strtokR text with
    | none => []
    | some (token, rest) => token :: components rest := by
  induction text with
  | nil => rfl
  | cons c text ih =>
    by_cases hc : c = 0x2F
    · subst hc
      rw [components_slash, ih]
      rfl
    · have hstart : (c :: text).dropWhile (fun d => decide (d = 0x2F)) = c :: text :=
        List.dropWhile_cons_of_neg (by rw [decide_eq_true_iff]; exact hc)
      rw [strtokR, hstart, if_neg (List.cons_ne_nil c text)]
      dsimp only
      have hsplit := List.takeWhile_append_dropWhile
        (p := fun d : UInt8 => decide (d ≠ 0x2F)) (l := c :: text)
      have hne : (c :: text).takeWhile (fun d => decide (d ≠ 0x2F)) ≠ [] := by
        rw [List.takeWhile_cons_of_pos (by rw [decide_eq_true_iff]; exact hc)]
        exact List.cons_ne_nil _ _
      have hslash : 0x2F ∉ (c :: text).takeWhile (fun d => decide (d ≠ 0x2F)) := by
        intro hmem
        exact absurd (List.mem_takeWhile_imp hmem) (by decide)
      have hhead := List.head?_dropWhile_not (fun d : UInt8 => decide (d ≠ 0x2F)) (c :: text)
      generalize (c :: text).takeWhile (fun d => decide (d ≠ 0x2F)) = token at hsplit hne hslash
      generalize (c :: text).dropWhile (fun d => decide (d ≠ 0x2F)) = tail at hsplit hhead
      rw [← hsplit]
      cases tail with
      | nil =>
        rw [List.append_nil]
        exact (components_token hslash hne []).1
      | cons d rest =>
        have hd : d = 0x2F := by simpa using hhead
        rw [hd]
        exact (components_token hslash hne rest).2

theorem openTokens_eq (directoryFd : Fd) (working : Name) :
    openTokens directoryFd working = openComponents directoryFd (components working) := by
  induction hn : working.length using Nat.strong_induction_on generalizing directoryFd working with
  | _ n ih =>
  subst hn
  have hcomponents := components_strtokR working
  rw [openTokens]
  split
  · rename_i hnone
    rw [hnone] at hcomponents
    rw [hcomponents]
    rfl
  · rename_i component rest hsome
    rw [hsome] at hcomponents
    dsimp only at hcomponents
    rw [hcomponents, openComponents]
    congr 1
    funext next
    congr 1
    funext _
    cases next with
    | error e => rfl
    | ok nextFd => exact ih _ (length_strtokR hsome) _ _ rfl

theorem walkDirectoryPath_eq (context : SquidFsContext) (path : Name) :
    walkDirectoryPath context path = openDirectoryPath context path := by
  rw [walkDirectoryPath, openDirectoryPath]
  congr 1
  funext r
  cases r with
  | error e => rfl
  | ok directoryFd =>
    dsimp only
    rw [openTokens_eq]

theorem lastSlash_cases (path : Name) :
    (lastSlash path = none ∧ parentOf path = [] ∧ leafOf path = path) ∨
      ∃ separator, lastSlash path = some separator ∧ parentOf path = path.take separator ∧
        leafOf path = path.drop (separator + 1) := by
  by_cases hslash : 0x2F ∈ path
  · right
    have hpath := parentOf_leafOf hslash
    have hleaf := slash_not_mem_leafOf path
    generalize parentOf path = parent at hpath
    generalize leafOf path = leaf at hpath hleaf
    refine ⟨parent.length, ?_, ?_, ?_⟩
    · have hfind : path.reverse.findIdx? (fun c => decide (c = 0x2F)) = some leaf.length := by
        have hnone : leaf.reverse.findIdx? (fun c => decide (c = 0x2F)) = none := by
          rw [List.findIdx?_eq_none_iff]
          intro c hc
          exact decide_eq_false fun he => hleaf (he ▸ List.mem_reverse.1 hc)
        rw [hpath, List.reverse_append, List.reverse_cons, List.append_assoc, List.findIdx?_append,
          hnone, List.singleton_append, List.findIdx?_cons]
        simp
      rw [lastSlash, hfind, Option.map_some, hpath, List.length_append, List.length_cons]
      congr 1
      omega
    · rw [hpath, List.take_left]
    · rw [hpath, List.drop_append, List.drop_of_length_le (Nat.le_succ _), List.nil_append,
        Nat.add_sub_cancel_left]
      rfl
  · left
    obtain ⟨hleaf, hparent⟩ := leafOf_of_not_mem hslash
    refine ⟨?_, hparent, hleaf⟩
    rw [lastSlash, List.findIdx?_eq_none_iff.2]
    · rfl
    · intro c hc
      exact decide_eq_false fun he => hslash (he ▸ List.mem_reverse.1 hc)

theorem walkParentDirectory_eq (context : SquidFsContext) (path : Name) :
    walkParentDirectory context path = openParentDirectory context path := by
  rw [walkParentDirectory, openParentDirectory]
  congr 1
  rcases lastSlash_cases path with ⟨hlast, hparent, hleaf⟩ | ⟨separator, hlast, hparent, hleaf⟩
  · rw [hlast, hparent, hleaf]
    dsimp only
    exact congrArg (· >>= _) (walkDirectoryPath_eq context _)
  · rw [hlast, hparent, hleaf]
    dsimp only
    exact congrArg (· >>= _) (walkDirectoryPath_eq context _)

/-- The names that are opened in a run, in their order. -/
def openedNames (events : List (Event Syscalls)) : List Name :=
  events.filterMap fun e => match e.op with
    | .openat _ name _ _ => some name
    | _ => none

/-- The calls of a walk along some names: each name is opened in the directory at hand, which is
then closed, and the walk goes on from the descriptor that was opened. -/
inductive Walks : Fd → List Name → List (Event Syscalls) → Except Errno Fd → Prop
  | arrived (directoryFd : Fd) : Walks directoryFd [] [] (.ok directoryFd)
  | stuck (e : Errno) (closed : Call.Ans (.close directoryFd)) :
      Walks directoryFd (component :: path)
        [⟨.openat directoryFd component directoryFlags 0, .error e⟩, ⟨.close directoryFd, closed⟩]
        (.error e)
  | next (closed : Call.Ans (.close directoryFd)) : Walks nextFd path events r →
      Walks directoryFd (component :: path)
        (⟨.openat directoryFd component directoryFlags 0, .ok nextFd⟩ ::
          ⟨.close directoryFd, closed⟩ :: events) r

/-- The calls of a walk from a copy of the root. -/
inductive WalksFromRoot (context : SquidFsContext) (path : List Name) :
    List (Event Syscalls) → Except Errno Fd → Prop
  | closed : context.rootFd = none → WalksFromRoot context path [] (.error .ebadf)
  | notCopied (e : Errno) : context.rootFd = some rootFd →
      WalksFromRoot context path [⟨.dup rootFd, .error e⟩] (.error e)
  | copied : context.rootFd = some rootFd → Walks directoryFd path events r →
      WalksFromRoot context path (⟨.dup rootFd, .ok directoryFd⟩ :: events) r

theorem openComponents_walks (t : List (Event Syscalls)) (directoryFd : Fd) (path : List Name) :
    Ensures (recording fun _ => True) (openComponents directoryFd path)
      (fun r t' => ∃ events, t' = t ++ events ∧ Walks directoryFd path events r) t := by
  induction path generalizing t directoryFd with
  | nil => exact ensures_pure.2 ⟨[], (List.append_nil t).symm, .arrived directoryFd⟩
  | cons component path ih =>
    rw [openComponents]
    refine ensures_bind.2 (ensures_ask ?_)
    rintro next _ ⟨-, rfl⟩
    refine ensures_bind.2 (ensures_ask ?_)
    rintro closed _ ⟨-, rfl⟩
    rw [List.append_assoc]
    cases next with
    | error e => exact ensures_pure.2 ⟨_, rfl, .stuck e closed⟩
    | ok nextFd =>
      refine (ih _ nextFd).mono ?_
      rintro r _ ⟨events, rfl, hwalks⟩
      exact ⟨_, List.append_assoc _ _ _, .next closed hwalks⟩

theorem openDirectoryPath_walks (context : SquidFsContext) (path : Name) :
    Ensures (recording fun _ => True) (openDirectoryPath context path)
      (fun r t => WalksFromRoot context (components path) t r) [] := by
  rw [openDirectoryPath, openRootCopy]
  cases hroot : context.rootFd with
  | none => exact ensures_pure.2 (.closed hroot)
  | some rootFd =>
    refine ensures_bind.2 (ensures_ask ?_)
    rintro copy _ ⟨-, rfl⟩
    cases copy with
    | error e => exact ensures_pure.2 (.notCopied e hroot)
    | ok directoryFd =>
      dsimp only
      split
      · rename_i hpath
        rw [hpath]
        exact ensures_pure.2 (.copied hroot (.arrived directoryFd))
      · refine (openComponents_walks _ directoryFd (components path)).mono ?_
        rintro r _ ⟨events, rfl, hwalks⟩
        exact .copied hroot hwalks

/-- A copy or an opening that has failed. -/
def Fails : Event Syscalls → Prop
  | ⟨.dup _, copy⟩ => ∃ e, copy = .error e
  | ⟨.openat _ _ _ _, opened⟩ => ∃ e, opened = .error e
  | _ => False

theorem Walks.result (h : Walks directoryFd path events r) :
    (∃ call ∈ events, Fails call) ∨ ∃ lastFd, r = .ok lastFd := by
  induction h with
  | arrived directoryFd => exact .inr ⟨directoryFd, rfl⟩
  | stuck e closed => exact .inl ⟨_, List.mem_cons_self, e, rfl⟩
  | next closed _ ih =>
    refine ih.imp_left ?_
    rintro ⟨call, hcall, hfails⟩
    exact ⟨call, List.mem_cons_of_mem _ (List.mem_cons_of_mem _ hcall), hfails⟩

theorem Walks.names (h : Walks directoryFd path events r) (hr : r = .ok lastFd) :
    openedNames events = path := by
  induction h with
  | arrived => rfl
  | stuck => cases hr
  | next closed _ ih => exact congrArg (_ :: ·) (ih hr)

theorem WalksFromRoot.result (h : WalksFromRoot context path events r)
    (hroot : context.rootFd ≠ none) :
    (∃ call ∈ events, Fails call) ∨ ∃ lastFd, r = .ok lastFd := by
  cases h with
  | closed hnone => exact absurd hnone hroot
  | notCopied e => exact .inl ⟨_, List.mem_cons_self, e, rfl⟩
  | copied _ hwalks =>
    refine hwalks.result.imp_left ?_
    rintro ⟨call, hcall, hfails⟩
    exact ⟨call, List.mem_cons_of_mem _ hcall, hfails⟩

theorem WalksFromRoot.names (h : WalksFromRoot context path events r) (hr : r = .ok lastFd) :
    openedNames events = path := by
  cases h with
  | closed => cases hr
  | notCopied => cases hr
  | copied _ hwalks => exact hwalks.names hr

/-- A walk to the parent of a path goes along the pieces of the path between its slashes, and the
last of them is the leaf. Where the root is open and nothing fails on the way it arrives, and then
it has opened all the others in their order. -/
structure FollowsPieces (context : SquidFsContext) (pieces : List Name)
    (r : Except Errno (Fd × Name)) (t : List (Event Syscalls)) : Prop where
  walks : ∃ front leaf opened, pieces = front ++ [leaf] ∧ WalksFromRoot context front t opened ∧
    r = opened.map fun parentFd => (parentFd, leaf)
  opened : ∀ parentFd leaf, r = .ok (parentFd, leaf) → openedNames t ++ [leaf] = pieces
  arrives : context.rootFd ≠ none → (∀ call ∈ t, ¬ Fails call) →
    ∃ parentFd leaf, r = .ok (parentFd, leaf)

theorem WalksFromRoot.followsPieces (h : WalksFromRoot context front t opened) (leaf : Name) :
    FollowsPieces context (front ++ [leaf]) (opened.map fun parentFd => (parentFd, leaf)) t := by
  refine ⟨⟨front, leaf, opened, rfl, h, rfl⟩, ?_, ?_⟩
  · intro parentFd other hr
    cases opened with
    | error e => cases hr
    | ok lastFd =>
      cases hr
      rw [h.names rfl]
  · intro hroot hnone
    rcases h.result hroot with ⟨call, hcall, hfails⟩ | ⟨lastFd, rfl⟩
    · exact absurd hfails (hnone call hcall)
    · exact ⟨lastFd, leaf, rfl⟩

theorem ValidPath.followsPieces (h : ValidPath path) (context : SquidFsContext) :
    Ensures (recording fun _ => True) (openParentDirectory context path)
      (FollowsPieces context (splitSlash path)) [] := by
  rw [openParentDirectory, if_neg (List.ne_nil_of_length_pos h.size.1), ← h.components_eq,
    ← h.parent_leaf]
  refine ensures_bind.2 ((openDirectoryPath_walks context (parentOf path)).mono ?_)
  intro r t hwalks
  have hfollows := hwalks.followsPieces (leafOf path)
  cases r with
  | ok parentFd => exact ensures_pure.2 hfollows
  | error e => exact ensures_pure.2 hfollows

/-- A path is accepted if and only if its pieces between slashes are names, and the walk takes
these names one after the other. -/
theorem path_rules_walk (input : List UInt8) :
    (∀ path, pathIsValidAt input false = some path ↔ ValidPath input ∧ path = input) ∧
    ∀ path, pathIsValidAt input false = some path →
      (∀ piece ∈ splitSlash input, 0x2F ∉ piece) ∧
      ∀ context, Ensures (recording fun _ => True) (walkParentDirectory context path)
        (FollowsPieces context (splitSlash input)) [] := by
  have hvalid : ∀ path, pathIsValidAt input false = some path ↔ ValidPath input ∧ path = input := by
    intro path
    rw [pathIsValidAt_eq]
    constructor
    · intro h
      obtain ⟨rfl, hpath⟩ := pathIsValid_nonempty h
      exact ⟨hpath, rfl⟩
    · rintro ⟨hpath, rfl⟩
      exact hpath.pathIsValid_eq false
  refine ⟨hvalid, ?_⟩
  intro path hpath
  obtain ⟨hinput, rfl⟩ := (hvalid path).1 hpath
  refine ⟨fun piece hpiece => slash_not_mem_piece hpiece, ?_⟩
  intro context
  rw [walkParentDirectory_eq]
  exact hinput.followsPieces context

/-- The descriptors that a walk to a/b/c opens, one in the other. -/
def walkEvents : List (Event Syscalls) :=
  [⟨.dup 3, .ok 4⟩, ⟨.openat 4 [0x61] directoryFlags 0, .ok 5⟩, ⟨.close 4, ()⟩,
    ⟨.openat 5 [0x62] directoryFlags 0, .ok 4⟩, ⟨.close 5, ()⟩]

theorem path_rules_walk_abc :
    let input : List UInt8 := [0x61, 0x2F, 0x62, 0x2F, 0x63]
    pathIsValidAt input false = some input ∧
    Exec (recording fun _ => True) [] (walkParentDirectory ⟨some 3, false⟩ input) walkEvents
      (.ok (4, [0x63])) ∧
    FollowsPieces ⟨some 3, false⟩ [[0x61], [0x62], [0x63]] (.ok (4, [0x63])) walkEvents := by
  intro input
  have hvalid : pathIsValidAt input false = some input := by
    rw [pathIsValidAt_eq]
    decide
  have hexec : Exec (recording fun _ => True) [] (walkParentDirectory ⟨some 3, false⟩ input)
      walkEvents (.ok (4, [0x63])) := by
    rw [walkParentDirectory_eq]
    exact exec_of_replay rfl (steps_recording (fun _ _ => trivial) [])
  exact ⟨hvalid, hexec, ((path_rules_walk input).2 input hvalid).2 ⟨some 3, false⟩ _ _ hexec⟩

end SquidServer.Filesystem

import SquidServer.PosixRooted

namespace Posix
set_option autoImplicit true

/-- What an object is, apart from the entries a directory has. -/
inductive Object where
  | directory
  | file (content : List UInt8)
  | symlink (target : Name)
  | other
deriving DecidableEq

/-- A tree of files: what each directory has under each name, and what each object is. -/
@[ext] structure Tree where
  entry : Ino → Name → Option Ino
  object : Ino → Option Object

def Tree.setEntry (t : Tree) (dir : Ino) (name : Name) (target : Option Ino) : Tree :=
  { t with entry := fun d m => if d = dir ∧ m = name then target else t.entry d m }

def Tree.setObject (t : Tree) (n : Ino) (object : Object) : Tree :=
  { t with object := fun i => if i = n then some object else t.object i }

/-- An empty file under a name. -/
def Tree.addFile (t : Tree) (dir : Ino) (name : Name) (n : Ino) : Tree :=
  (t.setObject n (.file [])).setEntry dir name (some n)

/-- An empty directory under a name; it has entries for itself and for its parent. -/
def Tree.addDirectory (t : Tree) (dir : Ino) (name : Name) (n : Ino) : Tree :=
  (((t.setObject n .directory).setEntry n dot (some n)).setEntry n dotdot (some dir)).setEntry
    dir name (some n)

/-- An object under another name; a directory gets a new parent. -/
def Tree.move (t : Tree) (oldDir : Ino) (oldName : Name) (newDir : Ino) (newName : Name) (n : Ino) :
    Tree :=
  ((t.setEntry oldDir oldName none).setEntry newDir newName (some n)).setEntry n dotdot
    ((t.entry n dotdot).map fun _ => newDir)

def Node.object : Node → Object
  | .directory _ => .directory
  | .file content => .file content
  | .symlink target => .symlink target
  | .other => .other

def Node.entries : Node → Option (List Entry)
  | .directory entries => some entries
  | _ => none

/-- The tree that inodes make up. -/
def Fs.tree (fs : Fs) : Tree where
  entry := fs.lookup
  object n := (fs.node n).map Node.object

/-- No directory has two entries of one name. -/
def Fs.Distinct (fs : Fs) : Prop :=
  ∀ dir es, fs.entries dir = some es → (es.map Entry.name).Nodup

theorem Fs.entries_eq (fs : Fs) (n : Ino) : fs.entries n = (fs.node n).bind Node.entries := by
  rw [Fs.entries]
  cases fs.node n with
  | none => rfl
  | some node => cases node <;> rfl

theorem Fs.entries_eq_some {fs : Fs} :
    fs.entries n = some es ↔ fs.node n = some (.directory es) := by
  rw [Fs.entries_eq]
  cases fs.node n with
  | none => simp
  | some node => cases node <;> simp [Node.entries]

theorem Fs.lookup_absent {fs : Fs} (h : fs.entries dir = some es)
    (hnone : lookupEntry name es = none) : fs.lookup dir name = none := by
  rw [Fs.lookup, h]
  exact hnone

theorem Fs.node_setEntries (fs : Fs) (dir : Ino) (f : List Entry → List Entry) (i : Ino) :
    ((fs.setEntries dir f).node i).map Node.object = (fs.node i).map Node.object := by
  rw [Fs.setEntries]
  split
  · rename_i es hes
    rw [Fs.node_setNode]
    split
    · rename_i hi
      subst hi
      rw [Fs.entries_eq_some.1 hes]
      rfl
    · rfl
  · rfl

theorem Fs.lookup_setEntries (fs : Fs) (dir : Ino) (f : List Entry → List Entry) (d : Ino)
    (m : Name) : (fs.setEntries dir f).lookup d m =
      if d = dir then (fs.entries dir).bind fun es => lookupEntry m (f es) else fs.lookup d m := by
  cases hes : fs.entries dir with
  | none =>
    have hsame : fs.setEntries dir f = fs := by
      rw [Fs.setEntries, hes]
    rw [hsame]
    split
    · rename_i hd
      rw [hd, Fs.lookup, hes]
      rfl
    · rfl
  | some es =>
    rw [Fs.lookup, Fs.entries_setEntries hes]
    split
    · rfl
    · rfl

theorem Fs.isSome_setEntries (fs : Fs) (dir : Ino) (f : List Entry → List Entry) (i : Ino) :
    ((fs.setEntries dir f).entries i).isSome = (fs.entries i).isSome := by
  cases hes : fs.entries dir with
  | none =>
    rw [Fs.setEntries, hes]
  | some es =>
    rw [Fs.entries_setEntries hes]
    split
    · rename_i hi
      rw [hi, hes]
      rfl
    · rfl

theorem lookupEntry_eq_none : lookupEntry name es = none ↔ name ∉ es.map Entry.name := by
  rw [lookupEntry, Option.map_eq_none_iff, List.find?_eq_none]
  simp

theorem lookupEntry_erase_ne (h : m ≠ name) (es : List Entry) :
    lookupEntry m (es.eraseP fun entry => entry.name = name) = lookupEntry m es := by
  induction es with
  | nil => rfl
  | cons e es ih =>
    by_cases he : e.name = name
    · have hm : ¬ e.name = m := fun hem => h (hem.symm.trans he)
      rw [List.eraseP_cons_of_pos (by simpa using he)]
      simp [lookupEntry, hm]
    · rw [List.eraseP_cons_of_neg (by simpa using he)]
      rw [lookupEntry, lookupEntry] at ih
      rw [lookupEntry, lookupEntry, List.find?_cons, List.find?_cons]
      cases decide (e.name = m) with
      | true => rfl
      | false => exact ih

theorem lookupEntry_erase_self {es : List Entry} (h : (es.map Entry.name).Nodup) :
    lookupEntry name (es.eraseP fun entry => entry.name = name) = none := by
  rw [lookupEntry_eq_none]
  induction es with
  | nil => simp
  | cons e es ih =>
    rw [List.map_cons, List.nodup_cons] at h
    by_cases he : e.name = name
    · rw [List.eraseP_cons_of_pos (by simpa using he), ← he]
      exact h.1
    · rw [List.eraseP_cons_of_neg (by simpa using he), List.map_cons, List.mem_cons, not_or]
      exact ⟨Ne.symm he, ih h.2⟩

theorem Fs.Distinct.lookup_remove {fs : Fs} (h : fs.Distinct) (dir : Ino) (name : Name) :
    (fs.remove dir name).lookup = (fs.tree.setEntry dir name none).entry := by
  funext d m
  change _ = if d = dir ∧ m = name then none else fs.lookup d m
  rw [Fs.remove, Fs.lookup_setEntries]
  by_cases hd : d = dir
  · subst hd
    rw [if_pos rfl, Fs.lookup]
    cases hes : fs.entries d with
    | none => simp
    | some es =>
      rw [Option.bind_some, Option.bind_some]
      by_cases hm : m = name
      · subst hm
        rw [if_pos ⟨rfl, rfl⟩]
        exact lookupEntry_erase_self (h d es hes)
      · rw [if_neg fun hand => hm hand.2]
        exact lookupEntry_erase_ne hm es
  · rw [if_neg hd, if_neg fun hand => hd hand.1]

theorem Fs.distinct_of_inodes {fs : Fs} (h : ∀ inode ∈ fs.inodes, ∀ es,
    inode.node.entries = some es → (es.map Entry.name).Nodup) : fs.Distinct := by
  intro dir es hes
  rw [Fs.entries_eq, Fs.node] at hes
  cases hinode : fs.inodes[dir]? with
  | none =>
    rw [hinode] at hes
    cases hes
  | some inode =>
    rw [hinode] at hes
    exact h inode (List.mem_of_getElem? hinode) es hes

theorem Fs.Distinct.tree_remove {fs : Fs} (h : fs.Distinct) (dir : Ino) (name : Name) :
    (fs.remove dir name).tree = fs.tree.setEntry dir name none := by
  apply Tree.ext
  · exact h.lookup_remove dir name
  · funext n
    exact fs.node_setEntries dir _ n

theorem Fs.Distinct.remove {fs : Fs} (h : fs.Distinct) (dir : Ino) (name : Name) :
    (fs.remove dir name).Distinct := by
  intro d es hes
  cases hdir : fs.entries dir with
  | none =>
    rw [Fs.remove, Fs.setEntries, hdir] at hes
    exact h d es hes
  | some es' =>
    rw [Fs.remove, Fs.entries_setEntries hdir] at hes
    split at hes
    · cases hes
      exact (h dir es' hdir).sublist (List.eraseP_sublist.map _)
    · exact h d es hes

theorem Fs.tree_addEntry {fs : Fs} (entry : Entry) (h : (fs.entries dir).isSome)
    (hnew : fs.lookup dir entry.name = none) :
    (fs.setEntries dir (· ++ [entry])).tree = fs.tree.setEntry dir entry.name (some entry.ino) := by
  obtain ⟨es, hes⟩ := Option.isSome_iff_exists.1 h
  rw [Fs.lookup, hes, Option.bind_some] at hnew
  apply Tree.ext
  · funext d m
    change _ = if d = dir ∧ m = entry.name then some entry.ino else fs.lookup d m
    change (fs.setEntries dir _).lookup d m = _
    rw [Fs.lookup_setEntries]
    by_cases hd : d = dir
    · subst hd
      rw [if_pos rfl, hes, Option.bind_some, lookupEntry_append, Fs.lookup, hes, Option.bind_some]
      by_cases hm : m = entry.name
      · subst hm
        rw [if_pos ⟨rfl, rfl⟩, hnew]
        simp [lookupEntry]
      · rw [if_neg fun hand => hm hand.2]
        simp [lookupEntry, Ne.symm hm]
    · rw [if_neg hd, if_neg fun hand => hd hand.1]
  · funext n
    exact fs.node_setEntries dir _ n

theorem Fs.node_append (fs : Fs) (inode : Inode) (i : Ino) :
    ({ fs with inodes := fs.inodes ++ [inode] } : Fs).node i =
      if i = fs.inodes.length then some inode.node else fs.node i := by
  rw [Fs.node, Fs.node]
  dsimp only
  split
  · rename_i hi
    rw [hi, List.getElem?_concat_length]
    rfl
  · rename_i hi
    rcases Nat.lt_or_gt_of_ne hi with hlt | hgt
    · rw [List.getElem?_append_left hlt]
    · rw [List.getElem?_eq_none (by simp; omega), List.getElem?_eq_none (by omega)]

theorem Fs.node_length (fs : Fs) : fs.node fs.inodes.length = none := by
  rw [Fs.node, List.getElem?_eq_none (Nat.le_refl _)]
  rfl

theorem Fs.lookup_length (fs : Fs) (name : Name) : fs.lookup fs.inodes.length name = none := by
  rw [Fs.lookup, Fs.entries, fs.node_length]
  rfl

theorem Fs.lookup_append (fs : Fs) (inode : Inode) (d : Ino) (m : Name) :
    ({ fs with inodes := fs.inodes ++ [inode] } : Fs).lookup d m =
      if d = fs.inodes.length then inode.node.entries.bind (lookupEntry m) else fs.lookup d m := by
  rw [Fs.lookup, Fs.entries_eq, Fs.node_append, Fs.lookup, Fs.entries_eq]
  by_cases hd : d = fs.inodes.length
  · rw [if_pos hd, if_pos hd]
    rfl
  · rw [if_neg hd, if_neg hd]

theorem Fs.tree_create {fs : Fs} (h : fs.entries dir = some es) (hnew : lookupEntry name es = none)
    (hn : IsComponent name) (inode : Inode) :
    (fs.create dir name hn inode).tree =
      ({ fs with inodes := fs.inodes ++ [inode] } : Fs).tree.setEntry dir name
        (some fs.inodes.length) := by
  have hentries := Fs.entries_append fs inode (Fs.entries_lt h)
  refine Fs.tree_addEntry ⟨name, fs.inodes.length, hn⟩ ?_ ?_
  · rw [hentries, h]
    rfl
  · rw [Fs.lookup, hentries, h]
    exact hnew

theorem Fs.tree_createFile {fs : Fs} (h : fs.entries dir = some es)
    (hnew : lookupEntry name es = none) (hn : IsComponent name) (permissions : Nat) (mtime : Int) :
    (fs.create dir name hn ⟨.file [], permissions, mtime⟩).tree =
      fs.tree.addFile dir name fs.inodes.length := by
  have happend : ({ fs with inodes := fs.inodes ++ [⟨.file [], permissions, mtime⟩] } : Fs).tree =
      fs.tree.setObject fs.inodes.length (.file []) := by
    apply Tree.ext
    · funext d m
      change Fs.lookup _ d m = fs.lookup d m
      rw [Fs.lookup_append]
      split
      · rename_i hd
        rw [hd, fs.lookup_length]
        rfl
      · rfl
    · funext n
      change (Fs.node _ n).map Node.object = if n = fs.inodes.length then _ else _
      rw [Fs.node_append]
      split
      · rfl
      · rfl
  rw [Fs.tree_create h hnew hn, happend]
  rfl

theorem Fs.tree_createDirectory {fs : Fs} (h : fs.entries dir = some es)
    (hnew : lookupEntry name es = none) (hn : IsComponent name) (permissions : Nat) (mtime : Int) :
    (fs.create dir name hn ⟨.directory [⟨dot, fs.inodes.length, isComponent_dot⟩,
      ⟨dotdot, dir, isComponent_dotdot⟩], permissions, mtime⟩).tree =
      fs.tree.addDirectory dir name fs.inodes.length := by
  generalize hinode : (⟨.directory [⟨dot, fs.inodes.length, isComponent_dot⟩,
    ⟨dotdot, dir, isComponent_dotdot⟩], permissions, mtime⟩ : Inode) = inode
  have happend : ({ fs with inodes := fs.inodes ++ [inode] } : Fs).tree =
      ((fs.tree.setObject fs.inodes.length .directory).setEntry fs.inodes.length dot
        (some fs.inodes.length)).setEntry fs.inodes.length dotdot (some dir) := by
    subst hinode
    apply Tree.ext
    · funext d m
      change Fs.lookup _ d m = if d = fs.inodes.length ∧ m = dotdot then _
        else if d = fs.inodes.length ∧ m = dot then _ else fs.lookup d m
      rw [Fs.lookup_append]
      by_cases hd : d = fs.inodes.length
      · rw [if_pos hd, hd, fs.lookup_length]
        by_cases hm : m = dotdot
        · subst hm
          simp +decide [Node.entries, lookupEntry]
        · by_cases hm' : m = dot
          · subst hm'
            simp +decide [Node.entries, lookupEntry]
          · simp [Node.entries, lookupEntry, hm, hm', Ne.symm hm, Ne.symm hm']
      · rw [if_neg hd, if_neg fun hand => hd hand.1, if_neg fun hand => hd hand.1]
    · funext n
      change (Fs.node _ n).map Node.object = if n = fs.inodes.length then _ else _
      rw [Fs.node_append]
      split
      · rfl
      · rfl
  rw [Fs.tree_create h hnew hn, happend]
  rfl

theorem Fs.tree_setFile {fs : Fs} (h : fs.node n = some (.file content)) (content' : List UInt8) :
    (fs.setNode n (.file content')).tree = fs.tree.setObject n (.file content') := by
  apply Tree.ext
  · funext d m
    change Fs.lookup _ d m = fs.lookup d m
    rw [Fs.lookup, Fs.entries_eq, Fs.node_setNode, Fs.lookup, Fs.entries_eq]
    split
    · rename_i hd
      rw [hd, h]
      rfl
    · rfl
  · funext i
    change (Fs.node _ i).map Node.object = if i = n then _ else _
    rw [Fs.node_setNode]
    split
    · rename_i hi
      rw [hi, h]
      rfl
    · rfl

theorem lookupEntry_setParent (newDir : Ino) (m : Name) (es : List Entry) :
    lookupEntry m (es.map fun e => if e.name = dotdot then { e with ino := newDir } else e) =
      if m = dotdot then (lookupEntry m es).map fun _ => newDir else lookupEntry m es := by
  induction es with
  | nil => simp [lookupEntry]
  | cons e es ih =>
    rw [lookupEntry, lookupEntry] at ih ⊢
    rw [List.map_cons, List.find?_cons, List.find?_cons]
    by_cases hm : e.name = m
    · by_cases hdotdot : e.name = dotdot
      · simp [hm, ← hm.symm.trans hdotdot]
      · have hm' : m ≠ dotdot := fun he => hdotdot (hm.trans he)
        simp [hm, hm']
    · have hname : (if e.name = dotdot then { e with ino := newDir } else e).name = e.name := by
        split
        · rfl
        · rfl
      rw [hname]
      simp only [hm, decide_false]
      exact ih

theorem Fs.tree_setParent (fs : Fs) (n newDir : Ino) :
    (fs.setEntries n
        (·.map fun e => if e.name = dotdot then { e with ino := newDir } else e)).tree =
      fs.tree.setEntry n dotdot ((fs.lookup n dotdot).map fun _ => newDir) := by
  apply Tree.ext
  · funext d m
    change Fs.lookup _ d m = if d = n ∧ m = dotdot then _ else fs.lookup d m
    rw [Fs.lookup_setEntries]
    by_cases hd : d = n
    · subst hd
      rw [if_pos rfl]
      cases hes : fs.entries d with
      | none => simp [Fs.lookup, hes]
      | some es =>
        rw [Option.bind_some, lookupEntry_setParent, Fs.lookup, Fs.lookup, hes, Option.bind_some,
          Option.bind_some]
        by_cases hm : m = dotdot
        · rw [if_pos hm, if_pos ⟨rfl, hm⟩, hm]
        · rw [if_neg hm, if_neg fun hand => hm hand.2]
    · rw [if_neg hd, if_neg fun hand => hd hand.1]
  · funext i
    exact fs.node_setEntries n _ i

theorem Tree.setEntry_entry (t : Tree) (dir : Ino) (name : Name) (target : Option Ino) (d : Ino)
    (m : Name) : (t.setEntry dir name target).entry d m =
      if d = dir ∧ m = name then target else t.entry d m := rfl

/-- An entry that is set twice is what it was set to last. -/
theorem Tree.setEntry_setEntry (t : Tree) (dir : Ino) (name : Name) (a b : Option Ino) :
    (t.setEntry dir name a).setEntry dir name b = t.setEntry dir name b := by
  apply Tree.ext
  · funext d m
    simp only [Tree.setEntry_entry]
    split
    · rfl
    · rfl
  · rfl

theorem Tree.setObject_setObject (t : Tree) (n : Ino) (a b : Object) :
    (t.setObject n a).setObject n b = t.setObject n b := by
  apply Tree.ext
  · rfl
  · funext i
    simp only [Tree.setObject]
    split
    · rfl
    · rfl

/-- Moving an object to a name that stands for another one, or for none. -/
theorem Fs.Distinct.tree_move {fs : Fs} (h : fs.Distinct) (hdir : (fs.entries newDir).isSome)
    (hold : oldName ≠ dotdot) (hnew : newName ≠ dotdot) (hn : IsComponent newName) (n : Ino) :
    (fs.move oldDir oldName newDir ⟨newName, n, hn⟩).tree =
      fs.tree.move oldDir oldName newDir newName n := by
  generalize hfs₁ : (fs.remove oldDir oldName).remove newDir newName = fs₁
  have htree₁ : fs₁.tree = (fs.tree.setEntry oldDir oldName none).setEntry newDir newName none := by
    rw [← hfs₁, (h.remove oldDir oldName).tree_remove, h.tree_remove]
  have hdir₁ : (fs₁.entries newDir).isSome := by
    rw [← hfs₁, Fs.remove, Fs.isSome_setEntries, Fs.remove, Fs.isSome_setEntries]
    exact hdir
  have hnone : fs₁.lookup newDir newName = none := by
    have hentry := congrArg (fun t => t.entry newDir newName) htree₁
    simpa [Fs.tree, Tree.setEntry] using hentry
  generalize hfs₂ : fs₁.setEntries newDir (· ++ [(⟨newName, n, hn⟩ : Entry)]) = fs₂
  have htree₂ : fs₂.tree =
      (fs.tree.setEntry oldDir oldName none).setEntry newDir newName (some n) := by
    rw [← hfs₂, Fs.tree_addEntry ⟨newName, n, hn⟩ hdir₁ hnone, htree₁, Tree.setEntry_setEntry]
  have hparent : fs₂.lookup n dotdot = fs.lookup n dotdot := by
    have hentry := congrArg (fun t => t.entry n dotdot) htree₂
    simpa [Fs.tree, Tree.setEntry, hold.symm, hnew.symm] using hentry
  rw [Fs.move]
  dsimp only
  rw [hfs₁, hfs₂, Fs.tree_setParent, htree₂, hparent]
  rfl

theorem Fs.isSome_entries {fs : Fs} :
    (fs.entries n).isSome ↔ fs.tree.object n = some .directory := by
  change _ ↔ (fs.node n).map Node.object = _
  rw [Fs.entries_eq]
  cases fs.node n with
  | none => simp
  | some node => cases node <;> simp [Node.entries, Node.object]

theorem Fs.node_eq_file {fs : Fs} :
    fs.node n = some (.file content) ↔ fs.tree.object n = some (.file content) := by
  change _ ↔ (fs.node n).map Node.object = _
  cases fs.node n with
  | none => simp
  | some node => cases node <;> simp [Node.object]

/-- Every entry of a tree is there in another, and every directory. -/
structure Tree.Grows (t t' : Tree) : Prop where
  entry : ∀ dir name n, t.entry dir name = some n → t'.entry dir name = some n
  directory : ∀ n, t.object n = some .directory → t'.object n = some .directory

theorem Tree.grows_setFile {t : Tree} (h : t.object n ≠ some .directory) (content : List UInt8) :
    t.Grows (t.setObject n (.file content)) where
  entry _ _ _ hentry := hentry
  directory i hi := by
    have hne : i ≠ n := by
      rintro rfl
      exact h hi
    change (if i = n then _ else t.object i) = _
    rw [if_neg hne]
    exact hi

theorem Tree.grows_setEntry {t : Tree} (h : t.entry dir name = none) (n : Ino) :
    t.Grows (t.setEntry dir name (some n)) where
  entry d m i hi := by
    have hne : ¬ (d = dir ∧ m = name) := by
      rintro ⟨rfl, rfl⟩
      cases h.symm.trans hi
    rw [Tree.setEntry_entry, if_neg hne]
    exact hi
  directory _ hi := hi

theorem Tree.Grows.trans {t u v : Tree} (h : t.Grows u) (h' : u.Grows v) : t.Grows v where
  entry _ _ _ hentry := h'.entry _ _ _ (h.entry _ _ _ hentry)
  directory _ hi := h'.directory _ (h.directory _ hi)

end Posix

import SquidServer.FilesystemFrames

namespace SquidServer.Filesystem
open Interaction Posix Wire
set_option autoImplicit true

theorem openComponents_succeeds {k : Kernel} (hfd : k.ino fd = some dir)
    (hc : ∀ c ∈ comps, IsComponent c) (hdescend : k.fs.descend dir comps = .ok n) :
    Ensures (steady short) (openComponents fd comps) (fun r _ => ∃ fd', r = .ok fd') k := by
  induction comps generalizing k fd dir with
  | nil => exact ensures_pure.2 ⟨fd, rfl⟩
  | cons c rest ih =>
    rw [Fs.descend] at hdescend
    cases hopen : k.fs.openDirectory dir c with
    | error e =>
      rw [hopen] at hdescend
      cases hdescend
    | ok next =>
      rw [hopen] at hdescend
      refine ensures_bind.2 (ensures_ask fun r k₁ hk₁ => ?_)
      have hcall : k.call (.openat fd c directoryFlags 0) =
          (.ok k.freeFd, k.openFile ⟨next, 0, false⟩) := by
        refine (Kernel.openat_directory directoryFlags 0 (hc c List.mem_cons_self) hfd
          ⟨rfl, rfl, rfl, rfl⟩).trans ?_
        rw [hopen]
      cases hk₁ with
      | done =>
        rw [hcall]
        refine ensures_bind.2 (ensures_ask fun _ k₂ hk₂ => ?_)
        obtain rfl := Kernel.Can.closes (Kernel.Keeps.can hk₂) (.inl rfl)
        have hstart : ((k.openFile ⟨next, 0, false⟩).closeFd fd).ino k.freeFd = some next := by
          rw [Kernel.ino_closeFd (Kernel.ne_freeFd hfd).symm]
          exact k.ino_openFile_free _
        exact ih hstart (fun c' hc' => hc c' (List.mem_cons_of_mem c hc')) hdescend

section
variable {context : SquidFsContext} {rootFd : Fd} {root : Ino} {k : Kernel} {short : Prop}

theorem openDirectoryPath_succeeds (hctx : context.rootFd = some rootFd)
    (hroot : k.ino rootFd = some root) (hdescend : k.fs.descend root (components path) = .ok n) :
    Ensures (steady short) (openDirectoryPath context path) (fun r _ => ∃ fd, r = .ok fd) k := by
  obtain ⟨i, f, hi, hf, rfl⟩ := Kernel.ino_eq_some.1 hroot
  have hopen : k.IsOpen rootFd i f := ⟨hi, hf⟩
  obtain ⟨k₁, hdup, hfs, hcopy, -⟩ := hopen.dup
  have hcall : k.call (.dup rootFd) = (.ok k.freeFd, k₁) := hdup
  rw [openDirectoryPath, openRootCopy, hctx]
  refine ensures_bind.2 (ensures_ask fun r k₂ hk₂ => ?_)
  cases hk₂ with
  | done =>
    rw [hcall]
    dsimp only
    split
    · exact ensures_pure.2 ⟨k.freeFd, rfl⟩
    · rw [← hfs] at hdescend
      exact openComponents_succeeds hcopy.ino (fun c hc => isComponent_of_mem hc) hdescend

theorem openParentDirectory_succeeds (hctx : context.rootFd = some rootFd)
    (hroot : k.ino rootFd = some root) (hpath : ValidPath path)
    (hdir : parentDirectory k.fs root path = .ok dir) :
    Ensures (steady short) (openParentDirectory context path) (fun r k' =>
      ∃ fd, r = .ok (fd, leafOf path) ∧ k'.fs = k.fs ∧ k'.ino fd = some dir) k := by
  have harrives : Ensures (steady short) (openParentDirectory context path)
      (ParentArrives k root path) k := ensures_steady (openParentDirectory_arrives hctx hroot hpath)
  have hsucceeds : Ensures (steady short) (openParentDirectory context path)
      (fun r _ => ∃ fd, r = .ok (fd, leafOf path)) k := by
    rw [openParentDirectory, if_neg (List.ne_nil_of_length_pos hpath.size.1)]
    refine ensures_bind.2 ((openDirectoryPath_succeeds hctx hroot hdir).mono ?_)
    rintro _ k' ⟨fd, rfl⟩
    exact ensures_pure.2 ⟨fd, rfl⟩
  refine (harrives.and hsucceeds).mono ?_
  rintro _ k' ⟨h, fd, rfl⟩
  obtain ⟨-, dir', hdir', hfd⟩ := h.arrived fd _ rfl
  cases hdir.symm.trans hdir'
  exact ⟨fd, rfl, h.fs, hfd⟩

/-- The reply to a READ of a file, where a read gives so many bytes of those asked for. -/
inductive PieceReply (short : Prop) (content : List UInt8) (offset : UInt32)
    (maximumBytes : UInt8) : Response → Prop
  | tooLarge : 2 ^ 32 ≤ content.length →
      PieceReply short content offset maximumBytes
        (some [squidFsOpRead ||| squidFsResponseBit, SquidFsStatus.tooLarge.code])
  | pastEnd : content.length < 2 ^ 32 → content.length < offset.toNat →
      PieceReply short content offset maximumBytes
        (some [squidFsOpRead ||| squidFsResponseBit, SquidFsStatus.badRequest.code])
  | data (n : Nat) : content.length < 2 ^ 32 → offset.toNat ≤ content.length →
      n ≤ readDataSize 255 maximumBytes.toNat content.length offset.toNat →
      (0 < readDataSize 255 maximumBytes.toNat content.length offset.toNat → 0 < n) →
      (¬ short → n = readDataSize 255 maximumBytes.toNat content.length offset.toNat) →
      PieceReply short content offset maximumBytes (some (readResponse squidFsOpRead offset
        content.length ((content.drop offset.toNat).take n)))

theorem readFile_steady (hfd : k.IsOpen fd i ⟨n, 0, false⟩)
    (hfile : k.fs.node n = some (.file content)) (offset : UInt32) (maximumBytes : UInt8) :
    Ensures (steady short) (readFile fd squidFsOpRead offset maximumBytes 255) (fun result _ =>
      PieceReply short content offset maximumBytes (answer squidFsOpRead result 255)) k := by
  obtain ⟨inode, hinode, hnode⟩ := Option.map_eq_some_iff.1 hfile
  have hstat : k.call (.fstat fd) = (.ok inode.stat, k) := by
    change (k.fstat fd, k) = _
    rw [Kernel.fstat, hfd.ino]
    dsimp only
    rw [Fs.stat, hinode]
  have hregular : sIsreg inode.stat.stMode = true := inode.sIsreg_stat.2 ⟨content, hnode⟩
  have hdirectory : ¬ sIsdir inode.stat.stMode = true := by
    rw [inode.sIsdir_stat, hnode]
    rintro ⟨es, hes⟩
    cases hes
  have hsize : inode.stat.stSize = content.length := by
    change (inode.node.size : Int) = _
    rw [hnode]
    rfl
  rw [readFile]
  refine ensures_bind.2 (ensures_ask fun r k₁ hk₁ => ?_)
  cases hk₁ with
  | done =>
    rw [hstat]
    dsimp only
    rw [if_neg hdirectory, if_neg (not_not.2 hregular), hsize]
    split
    · rename_i hlarge
      have hlarge : (0xFFFFFFFF : Int) < content.length := hlarge.resolve_left (by omega)
      exact ensures_pure.2 (.tooLarge (by omega))
    · rename_i hsmall
      have hsmall : ¬ (0xFFFFFFFF : Int) < content.length := (not_or.1 hsmall).2
      split
      · rename_i hend
        exact ensures_pure.2 (.pastEnd (by omega) (by omega))
      · rename_i hwithin
        have hoffset : offset.toNat ≤ content.length := by omega
        have hread : ∀ m, k.pread fd m offset.toNat = .ok ((content.drop offset.toNat).take m) := by
          intro m
          rw [Kernel.pread, hfd.file]
          dsimp only
          rw [if_neg Bool.false_ne_true, hfile]
        rw [Int.toNat_natCast]
        generalize hask : readDataSize 255 maximumBytes.toNat content.length offset.toNat = size
        refine ensures_bind.2 (ensures_ask fun r k₂ hk₂ => ?_)
        cases hk₂ with
        | done =>
          have hcall : k.call (.pread fd size offset.toNat) =
              (.ok ((content.drop offset.toNat).take size), k) := by
            change (k.pread fd size offset.toNat, k) = _
            rw [hread]
          rw [hcall]
          refine ensures_pure.2 (.data size (by omega) hoffset ?_ ?_ ?_)
          · rw [hask]
          · rw [hask]
            exact id
          · rw [hask]
            exact fun _ => rfl
        | @shortRead m _ _ _ hshort hpos hm =>
          rw [hread]
          refine ensures_pure.2 (.data m (by omega) hoffset ?_ ?_ ?_)
          · rw [hask]
            exact hm
          · exact fun _ => hpos
          · exact fun hnot => absurd hshort hnot

/-- A path names a regular file. -/
def HasFile (fs : Fs) (root : Ino) (path : Name) (content : List UInt8) : Prop :=
  ∃ dir n, parentDirectory fs root path = .ok dir ∧ fs.lookup dir (leafOf path) = some n ∧
    fs.node n = some (.file content)

theorem performRead_steady (hctx : context.rootFd = some rootFd) (hroot : k.ino rootFd = some root)
    (hpath : ValidPath path) (hfile : HasFile k.fs root path content) (offset : UInt32)
    (maximumBytes : UInt8) :
    Ensures (steady short) (performRead context offset maximumBytes path 255)
      (fun reply _ => PieceReply short content offset maximumBytes reply) k := by
  obtain ⟨dir, n, hdir, hlookup, hnode⟩ := hfile
  rw [performRead]
  refine ensures_bind.2 ((openParentDirectory_succeeds hctx hroot hpath hdir).mono ?_)
  rintro _ k₁ ⟨parentFd, rfl, hfs, hparent⟩
  rw [← hfs] at hlookup hnode
  refine ensures_bind.2 (ensures_ask fun r k₂ hk₂ => ?_)
  have hopen : k₁.call (.openat parentFd (leafOf path) readFlags 0) =
      (.ok k₁.freeFd, k₁.openFile ⟨n, 0, false⟩) := by
    change k₁.openat parentFd (leafOf path) readFlags 0 = _
    rw [Kernel.openat, show (!readFlags.nofollow) = false from rfl,
      Kernel.resolve_found hpath.leaf hparent, Fs.find_of_lookup hlookup]
    dsimp only
    rw [Kernel.openObject, hnode]
    rfl
  cases hk₂ with
  | done =>
    rw [hopen]
    refine ensures_bind.2 (ensures_ask fun _ k₃ hk₃ => ?_)
    obtain rfl := Kernel.Can.closes (Kernel.Keeps.can hk₃) (.inl rfl)
    have hne : k₁.freeFd ≠ parentFd := (Kernel.ne_freeFd hparent).symm
    have hfd := (k₁.isOpen_openFile ⟨n, 0, false⟩).closeFd hne
    refine ensures_bind.2 ((readFile_steady hfd hnode offset maximumBytes).mono ?_)
    intro result k₄ hresult
    exact ensures_bind.2 (ensures_ask fun _ k₅ _ => ensures_pure.2 hresult)

theorem handleSquidFsRequest_read (hctx : context.rootFd = some rootFd)
    (hroot : k.ino rootFd = some root) (hpath : ValidPath path)
    (hfile : HasFile k.fs root path content) (fuel : Nat) (offset : UInt32) (maximumBytes : UInt8) :
    Ensures (steady short) (handleSquidFsRequest fuel context
      (Operation.read offset maximumBytes path).encode 255)
      (fun reply _ => PieceReply short content offset maximumBytes reply) k := by
  have hvalid : (Operation.read offset maximumBytes path).Valid := hpath
  have hlooks : ¬ Mutating squidFsOpRead := by decide
  rw [hvalid.parses.handle_eq (by simp [hctx]) (by decide) (fun _ => by decide)
    fun hand => hlooks hand.1]
  exact performRead_steady hctx hroot hpath hfile offset maximumBytes

theorem exec_faulty_root (hctx : context.rootFd = some rootFd) (hroot : k.ino rootFd = some root)
    (h : Exec faulty k (handleSquidFsRequest fuel context request responseCapacity) k' reply) :
    k'.ino rootFd = some root := by
  obtain ⟨s, he, rfl⟩ := exec_posix_of_faulty h []
  have hctx' : ∀ fd, context.rootFd = some fd → k.ino fd = some root := by
    intro fd hfd
    cases hctx.symm.trans hfd
    exact hroot
  obtain ⟨⟨held, howned⟩, -⟩ :=
    handleSquidFsRequest_finished (Working.start _ root k) hctx' _ _ he
  exact howned.base_ino hroot

end

/-- The number of bytes a client takes from the reply to a READ. -/
def returnedLength (reply : Response) : Nat := (byteAt (reply.getD []) 10).toNat

/-- A client that reads a file, with a maximum of its own for each request, and goes on behind the
bytes it has got. -/
def readFrom (fuel : Nat) (context : SquidFsContext) (path : Name) :
    Nat → List UInt8 → Program Syscalls (List Response)
  | _, [] => return []
  | offset, maximumBytes :: maxima => do
    let reply ← handleSquidFsRequest fuel context
      (Operation.read (UInt32.ofNat offset) maximumBytes path).encode 255
    let later ← readFrom fuel context path (offset + returnedLength reply) maxima
    return reply :: later

/-- Replies that carry one piece of the file after the other: from which offset on, to which, and
with which bytes. -/
inductive Pieces (content : List UInt8) : Nat → List UInt8 → List Response → Nat → List UInt8 → Prop
  | nil (offset : Nat) : Pieces content offset [] [] offset []
  | cons (n : Nat) : n ≤ 244 → (maximumBytes ≠ 0 → n ≤ maximumBytes.toNat) →
      n ≤ content.length - offset → (offset < content.length → 0 < n) →
      Pieces content (offset + n) maxima replies finish data →
      Pieces content offset (maximumBytes :: maxima)
        (some (readResponse squidFsOpRead (UInt32.ofNat offset) content.length
          ((content.drop offset).take n)) :: replies)
        finish ((content.drop offset).take n ++ data)

/-- The pieces make up what lies between the offsets, and they get on. -/
theorem Pieces.joined (h : Pieces content offset maxima replies finish data)
    (hoffset : offset ≤ content.length) :
    finish ≤ content.length ∧ offset + data.length = finish ∧
      data = (content.drop offset).take (finish - offset) ∧
      min content.length (offset + maxima.length) ≤ finish := by
  induction h with
  | nil offset =>
    refine ⟨hoffset, rfl, ?_, Nat.min_le_right _ _⟩
    rw [Nat.sub_self]
    rfl
  | @cons maximumBytes offset maxima replies finish data n _ _ hn hpos _ ih =>
    obtain ⟨hfinish, hlength, hdata, hprogress⟩ := ih (by omega)
    have hpiece : ((content.drop offset).take n).length = n := by
      rw [List.length_take, List.length_drop]
      omega
    refine ⟨hfinish, ?_, ?_, ?_⟩
    · rw [List.length_append, hpiece]
      omega
    · rw [hdata, ← List.drop_drop, ← List.take_add]
      congr 1
      omega
    · rw [List.length_cons]
      omega

theorem readDataSize_eq (maximumBytes size offset : Nat) :
    readDataSize 255 maximumBytes size offset =
      min (if maximumBytes = 0 then 244 else min maximumBytes 244) (size - offset) := by
  have hmaximum : (if 0 < maximumBytes ∧ maximumBytes < 244 then maximumBytes else 244) =
      if maximumBytes = 0 then 244 else min maximumBytes 244 := by
    split
    · rw [if_neg (by omega)]
      omega
    · split <;> omega
  have hpacket : (if maximumBytes = 0 then 244 else min maximumBytes 244) ≤ 244 := by
    split <;> omega
  rw [readDataSize, show 255 - squidFsReadHeaderSize = 244 from rfl, hmaximum]
  generalize (if maximumBytes = 0 then 244 else min maximumBytes 244) = limit at hpacket ⊢
  rw [if_neg (by omega : ¬ 255 < limit)]
  split <;> omega

theorem readDataSize_le (maximumBytes : UInt8) (size offset : Nat) :
    readDataSize 255 maximumBytes.toNat size offset ≤ 244 ∧
      (maximumBytes ≠ 0 → readDataSize 255 maximumBytes.toNat size offset ≤ maximumBytes.toNat) ∧
      readDataSize 255 maximumBytes.toNat size offset ≤ size - offset ∧
      (offset < size → 0 < readDataSize 255 maximumBytes.toNat size offset) := by
  rw [readDataSize_eq]
  by_cases hzero : maximumBytes.toNat = 0
  · rw [if_pos hzero]
    exact ⟨by omega, fun hne => absurd (UInt8.toNat_inj.1 hzero) hne, by omega, by omega⟩
  · rw [if_neg hzero]
    exact ⟨by omega, fun _ => by omega, by omega, by omega⟩

theorem returnedLength_readResponse (offset : UInt32) (size : Nat) (h : data.length < 256) :
    returnedLength (some (readResponse squidFsOpRead offset size data)) = data.length := by
  have hbyte : byteAt (readResponse squidFsOpRead offset size data) 10 =
      UInt8.ofNat data.length := by
    simp [byteAt, readResponse, writeU32]
  rw [returnedLength, Option.getD_some, hbyte]
  exact UInt8.toNat_ofNat_of_lt' h

theorem PieceReply.piece (h : PieceReply short content (UInt32.ofNat offset) maximumBytes reply)
    (hsize : content.length < 2 ^ 32) (hoffset : offset ≤ content.length) :
    ∃ n, n ≤ 244 ∧ (maximumBytes ≠ 0 → n ≤ maximumBytes.toNat) ∧ n ≤ content.length - offset ∧
      (offset < content.length → 0 < n) ∧ returnedLength reply = n ∧
      reply = some (readResponse squidFsOpRead (UInt32.ofNat offset) content.length
        ((content.drop offset).take n)) := by
  have hnat : (UInt32.ofNat offset).toNat = offset :=
    UInt32.toNat_ofNat_of_lt' (Nat.lt_of_le_of_lt hoffset hsize)
  cases h with
  | tooLarge hlarge => omega
  | pastEnd _ hend => omega
  | data n _ _ hn hpos _ =>
    rw [hnat] at hn hpos ⊢
    obtain ⟨hpacket, hmaximum, hrest, hprogress⟩ :=
      readDataSize_le maximumBytes content.length offset
    refine ⟨n, by omega, ?_, by omega, fun hlt => hpos (hprogress hlt), ?_, rfl⟩
    · exact fun hne => Nat.le_trans hn (hmaximum hne)
    · have hlength : ((content.drop offset).take n).length = n := by
        rw [List.length_take, List.length_drop]
        omega
      rw [returnedLength_readResponse _ _ (by omega), hlength]

section
variable {context : SquidFsContext} {rootFd : Fd} {root : Ino}

theorem readFrom_pieces {k : Kernel} (hctx : context.rootFd = some rootFd)
    (hroot : k.ino rootFd = some root) (hpath : ValidPath path)
    (hfile : HasFile k.fs root path content) (hsize : content.length < 2 ^ 32) (fuel : Nat)
    (maxima : List UInt8) (hoffset : offset ≤ content.length) :
    Ensures (steady short) (readFrom fuel context path offset maxima) (fun replies _ =>
      ∃ finish data, Pieces content offset maxima replies finish data) k := by
  induction maxima generalizing k offset with
  | nil => exact ensures_pure.2 ⟨offset, [], .nil offset⟩
  | cons maximumBytes maxima ih =>
    have hread : Ensures (steady short) _ _ k := handleSquidFsRequest_read hctx hroot hpath hfile
      fuel (UInt32.ofNat offset) maximumBytes
    have hlooks : Ensures faulty _ _ k := looks_fs (handleSquidFsRequest_looks fuel context
      (Operation.read (UInt32.ofNat offset) maximumBytes path).fields 255
      (by decide : ¬ Mutating squidFsOpRead)) k
    refine ensures_bind.2 ?_
    intro k₁ reply he
    have hfs := hlooks _ _ (exec_faulty_of_steady he)
    have hroot₁ := exec_faulty_root hctx hroot (exec_faulty_of_steady he)
    obtain ⟨n, hpacket, hmaximum, hrest, hprogress, hlength, rfl⟩ :=
      (hread _ _ he).piece hsize hoffset
    rw [← hfs] at hfile
    refine ensures_bind.2 ?_
    rw [hlength]
    refine (ih hroot₁ hfile (by omega)).mono ?_
    rintro replies k₂ ⟨finish, data, hpieces⟩
    exact ensures_pure.2 ⟨finish, _, .cons n hpacket hmaximum hrest hprogress hpieces⟩

/-- Reading a file piece by piece gives the file. -/
theorem readFrom_reassembles {k : Kernel} (hctx : context.rootFd = some rootFd)
    (hroot : k.ino rootFd = some root) (hpath : ValidPath path)
    (hfile : HasFile k.fs root path content) (hsize : content.length < 2 ^ 32) (fuel : Nat)
    (maxima : List UInt8) :
    (∃ k' replies, Exec (steady True) k (readFrom fuel context path 0 maxima) k' replies) ∧
    Ensures (steady True) (readFrom fuel context path 0 maxima) (fun replies _ =>
      ∃ finish data, Pieces content 0 maxima replies finish data ∧ data = content.take finish ∧
        (content.length ≤ maxima.length → finish = content.length ∧ data = content)) k ∧
    ∀ (offset : UInt32) (maximumBytes : UInt8), content.length < offset.toNat →
      Ensures (steady True) (handleSquidFsRequest fuel context
        (Operation.read offset maximumBytes path).encode 255) (fun reply _ => reply =
          some [squidFsOpRead ||| squidFsResponseBit, SquidFsStatus.badRequest.code]) k := by
  refine ⟨exists_exec (steady_answers True) _ k, ?_, ?_⟩
  · refine (readFrom_pieces hctx hroot hpath hfile hsize fuel maxima (Nat.zero_le _)).mono ?_
    rintro replies k' ⟨finish, data, hpieces⟩
    obtain ⟨hfinish, hlength, hdata, hprogress⟩ := hpieces.joined (Nat.zero_le _)
    refine ⟨finish, data, hpieces, hdata, ?_⟩
    intro henough
    have hall : finish = content.length := by omega
    refine ⟨hall, ?_⟩
    rw [hdata, hall]
    exact List.take_length
  · intro offset maximumBytes hend
    refine (handleSquidFsRequest_read hctx hroot hpath hfile fuel offset maximumBytes).mono ?_
    intro reply k' hreply
    cases hreply with
    | tooLarge hlarge => omega
    | pastEnd _ _ => rfl
    | data n _ hwithin _ _ _ => omega

end

theorem validPath_f : ValidPath [0x66] where
  size := by decide
  noNul := by decide
  pieces := by decide

theorem linkedKernel_hasFile : HasFile linkedKernel.fs 1 [0x66] [1, 2, 3] := ⟨1, 2, rfl, rfl, rfl⟩

/-- The file `f` in three requests. -/
theorem readFrom_reassembles_f : ∃ k' replies data,
    Exec (steady True) linkedKernel (readFrom 1 ⟨some 0, false⟩ [0x66] 0 [1, 0, 5]) k' replies ∧
      Pieces [1, 2, 3] 0 [1, 0, 5] replies 3 data := by
  have hctx : (⟨some 0, false⟩ : SquidFsContext).rootFd = some 0 := rfl
  obtain ⟨⟨k', replies, he⟩, hall, -⟩ := readFrom_reassembles hctx (linkedKernel_root 0 rfl)
    validPath_f linkedKernel_hasFile (by decide) 1 [1, 0, 5]
  obtain ⟨finish, data, hpieces, -, hfinish⟩ := hall _ _ he
  obtain ⟨rfl, -⟩ := hfinish (by decide)
  exact ⟨k', replies, data, he, hpieces⟩

theorem openDirectory_eq_ok {fs : Fs} :
    fs.openDirectory dir name = .ok n ↔ fs.lookup dir name = some n ∧ (fs.entries n).isSome := by
  rw [Fs.openDirectory, Fs.lookup]
  cases fs.entries dir with
  | none => simp
  | some es =>
    rw [Option.bind_some]
    dsimp only
    cases lookupEntry name es with
    | none => simp
    | some i =>
      dsimp only
      constructor
      · intro h
        split at h
        · cases h
        · rename_i es' hnode
          cases h
          rw [Fs.entries_eq_some.2 hnode]
          exact ⟨rfl, rfl⟩
        · cases h
      · rintro ⟨⟨⟩, hsome⟩
        obtain ⟨es', hes'⟩ := Option.isSome_iff_exists.1 hsome
        rw [Fs.entries_eq_some.1 hes']

theorem descend_grows {fs fs' : Fs} (h : fs.tree.Grows fs'.tree)
    (hdescend : fs.descend dir comps = .ok n) : fs'.descend dir comps = .ok n := by
  induction comps generalizing dir with
  | nil => exact hdescend
  | cons c rest ih =>
    rw [Fs.descend] at hdescend ⊢
    cases hopen : fs.openDirectory dir c with
    | error e =>
      rw [hopen] at hdescend
      cases hdescend
    | ok next =>
      rw [hopen] at hdescend
      obtain ⟨hlookup, hdirectory⟩ := openDirectory_eq_ok.1 hopen
      have hopen' : fs'.openDirectory dir c = .ok next :=
        openDirectory_eq_ok.2 ⟨h.entry _ _ _ hlookup,
          Fs.isSome_entries.2 (h.directory _ (Fs.isSome_entries.1 hdirectory))⟩
      rw [hopen']
      exact ih hdescend

/-- Where a WRITE has put its bytes, and that a tree with other bytes of it there is one that it
could have left as well. -/
theorem WriteEffect.landed (h : WriteEffect fs root fields m fs') : ∃ dir n content,
    parentDirectory fs' root fields.path = .ok dir ∧
    fs'.lookup dir (leafOf fields.path) = some n ∧
    fs'.node n = some (.file (overwrite content (fields.data.take m) fields.offset.toNat)) ∧
    (fields.flags &&& squidFsWriteTruncate ≠ 0 → content = []) ∧
    ∀ fs'' m', fs''.tree = fs'.tree.setObject n
      (.file (overwrite content (fields.data.take m') fields.offset.toNat)) →
      WriteEffect fs root fields m' fs'' := by
  cases h with
  | replaced dir n content hdir hlookup hfile htree =>
    have hgrows : fs.tree.Grows fs'.tree := by
      rw [htree]
      refine Tree.grows_setFile ?_ _
      rw [Fs.node_eq_file.1 hfile]
      simp
    refine ⟨dir, n, if fields.flags &&& squidFsWriteTruncate ≠ 0 then [] else content,
      descend_grows hgrows hdir, hgrows.entry _ _ _ hlookup, ?_, fun hflag => if_pos hflag, ?_⟩
    · rw [Fs.node_eq_file, htree]
      exact if_pos rfl
    · intro fs'' m' htree'
      rw [htree, Tree.setObject_setObject] at htree'
      exact .replaced dir n content hdir hlookup hfile htree'
  | created dir n hdir hlookup hflag hnode htree =>
    have hobject : fs.tree.object n ≠ some .directory := by
      change (fs.node n).map Node.object ≠ _
      rw [hnode]
      simp
    have hgrows : fs.tree.Grows fs'.tree := by
      rw [htree]
      refine ((Tree.grows_setFile hobject []).trans
        (Tree.grows_setEntry hlookup n)).trans (Tree.grows_setFile ?_ _)
      rw [Tree.setEntry, Tree.setObject]
      simp
    refine ⟨dir, n, [], descend_grows hgrows hdir, ?_, ?_, fun _ => rfl, ?_⟩
    · change fs'.tree.entry dir (leafOf fields.path) = some n
      rw [htree]
      exact if_pos ⟨rfl, rfl⟩
    · rw [Fs.node_eq_file, htree]
      exact if_pos rfl
    · intro fs'' m' htree'
      rw [htree, Tree.setObject_setObject] at htree'
      exact .created dir n hdir hlookup hflag hnode htree'

theorem WriteEffect.hasFile (h : WriteEffect fs root fields m fs') : ∃ content,
    HasFile fs' root fields.path
      (overwrite content (fields.data.take m) fields.offset.toNat) := by
  obtain ⟨dir, n, content, hdir, hlookup, hfile, -, -⟩ := h.landed
  exact ⟨content, dir, n, hdir, hlookup, hfile⟩

theorem length_overwrite_le (content : List UInt8) (h : data ≠ []) (offset : Nat) :
    offset + data.length ≤ (overwrite content data offset).length := by
  rw [overwrite, if_neg h]
  simp only [List.length_append, List.length_take, List.length_replicate]
  omega

theorem drop_overwrite (content : List UInt8) (h : data ≠ []) (offset : Nat) :
    ∃ rest, (overwrite content data offset).drop offset = data ++ rest := by
  refine ⟨content.drop (offset + data.length), ?_⟩
  have hlength : (content.take offset ++ List.replicate (offset - content.length) 0).length =
      offset := by
    rw [List.length_append, List.length_take, List.length_replicate]
    omega
  rw [overwrite, if_neg h, List.append_assoc, List.drop_append_of_le_length (by rw [hlength]),
    List.drop_eq_nil_of_le (Nat.le_of_eq hlength)]
  rfl

/-- The number of bytes that the reply to a WRITE reports. -/
def writtenLength (reply : Response) : Nat := (byteAt (reply.getD []) 6).toNat

theorem writtenLength_writeOkResponse (offset : UInt32) (h : m < 256) :
    writtenLength (some (writeOkResponse squidFsOpWrite offset m)) = m := by
  have hbyte : byteAt (writeOkResponse squidFsOpWrite offset m) 6 = UInt8.ofNat m := by
    simp [byteAt, writeOkResponse, writeU32]
  rw [writtenLength, Option.getD_some, hbyte]
  exact UInt8.toNat_ofNat_of_lt' h

/-- What a READ answers after a WRITE: the bytes that were written, if the file is not too large
for it. -/
def ReadsBack (offset : UInt32) (written : List UInt8) (size : Nat) (reply : Response) : Prop :=
  if size < 2 ^ 32 then ∃ more, reply =
    some (readResponse squidFsOpRead offset size (written.take 244 ++ more))
  else reply = some [squidFsOpRead ||| squidFsResponseBit, SquidFsStatus.tooLarge.code]

theorem PieceReply.readsBack (h : PieceReply False content offset maximumBytes reply)
    (hdrop : content.drop offset.toNat = written ++ rest)
    (hoffset : offset.toNat + written.length ≤ content.length)
    (hmaximum : maximumBytes = 0 ∨ written.length ≤ maximumBytes.toNat) :
    ReadsBack offset written content.length reply := by
  rw [ReadsBack]
  cases h with
  | tooLarge hlarge => rw [if_neg (by omega)]
  | pastEnd _ hend => omega
  | data n hsize _ _ _ hfull =>
    rw [if_pos hsize, hfull id, readDataSize_eq, hdrop]
    have henough : (written.take 244).length ≤
        min (if maximumBytes.toNat = 0 then 244 else min maximumBytes.toNat 244)
          (content.length - offset.toNat) := by
      rw [List.length_take]
      rcases hmaximum with rfl | hmaximum
      · rw [if_pos UInt8.toNat_zero]
        omega
      · split <;> omega
    have hstart : written.take 244 <+: written ++ rest :=
      (List.take_prefix 244 written).trans (List.prefix_append written rest)
    obtain ⟨more, hmore⟩ := List.prefix_take_iff.2 ⟨hstart, henough⟩
    exact ⟨more, by rw [hmore]⟩

section
variable {context : SquidFsContext} {rootFd : Fd} {root : Ino} {k k' : Kernel}

/-- A READ at the offset of a WRITE gives back what the WRITE has written. -/
theorem read_after_write (hctx : context.rootFd = some rootFd) (hroot : k.ino rootFd = some root)
    (hvalid : (Operation.write offset flags path data).Valid)
    (hwrite : Exec faulty k (handleSquidFsRequest fuel context
      (Operation.write offset flags path data).encode 255) k' reply)
    (hok : replyStatus reply = some SquidFsStatus.ok.code) (hpos : 0 < writtenLength reply)
    (maximumBytes : UInt8)
    (hmaximum : maximumBytes = 0 ∨ writtenLength reply ≤ maximumBytes.toNat) :
    ∃ content, HasFile k'.fs root path content ∧
      ReadsBack offset (data.take (writtenLength reply)) content.length
        (k'.run (handleSquidFsRequest fuel context
          (Operation.read offset maximumBytes path).encode 255)).1 := by
  have hroots : ∀ fd, context.rootFd = some fd → k.ino fd = some root := by
    intro fd hfd
    cases hctx.symm.trans hfd
    exact hroot
  have houtcome := handleSquidFsRequest_outcome hroots fuel _ 255 _ _ hwrite
  obtain ⟨m, hm, rfl, heffect⟩ := houtcome.writeEffect hvalid.parses hok
  obtain ⟨base, hfile⟩ := heffect.hasFile
  rw [writtenLength_writeOkResponse offset (Nat.lt_of_le_of_lt hm hvalid.2.2)] at hpos hmaximum ⊢
  have hlength : (data.take m).length = m := List.length_take_of_le hm
  have hne : data.take m ≠ [] := List.ne_nil_of_length_pos (by omega)
  obtain ⟨rest, hdrop⟩ := drop_overwrite base hne offset.toNat
  refine ⟨_, hfile, ?_⟩
  have hread : Ensures (steady False) _ _ k' := handleSquidFsRequest_read hctx
    (exec_faulty_root hctx hroot hwrite) hvalid.1 hfile fuel offset maximumBytes
  refine (run_of_ensures_steady hread).readsBack hdrop (length_overwrite_le base hne _) ?_
  rw [hlength]
  exact hmaximum

end

theorem write_f_valid (offset : UInt32) : (Operation.write offset 0 [0x66] [7, 8]).Valid :=
  ⟨validPath_f, by decide, by decide⟩

/-- A WRITE of two bytes into `f`, and a READ of what is there then. -/
theorem read_after_write_f : ∃ content,
    HasFile (linkedKernel.run (handleSquidFsRequest 1 ⟨some 0, false⟩
      (Operation.write 2 0 [0x66] [7, 8]).encode 255)).2.fs 1 [0x66] content ∧
    ReadsBack 2 [7, 8] content.length ((linkedKernel.run (handleSquidFsRequest 1 ⟨some 0, false⟩
      (Operation.write 2 0 [0x66] [7, 8]).encode 255)).2.run (handleSquidFsRequest 1
        ⟨some 0, false⟩ (Operation.read 2 0 [0x66]).encode 255)).1 := by
  have hctx : (⟨some 0, false⟩ : SquidFsContext).rootFd = some 0 := rfl
  exact read_after_write hctx (linkedKernel_root 0 rfl) (write_f_valid 2)
    (exec_faulty_run linkedKernel _) (by decide +kernel) (by decide +kernel) 0 (.inl rfl)

/-- A WRITE behind the last offset makes `f` too large to be read. -/
theorem write_beyond_read : ¬ ∀ (context : SquidFsContext) (rootFd : Fd) (root : Ino)
    (k : Kernel) (offset : UInt32) (flags : UInt8) (path : Name) (data : List UInt8)
    (maximumBytes : UInt8) (reply : Response) (k' : Kernel),
    context.rootFd = some rootFd → k.ino rootFd = some root →
    (Operation.write offset flags path data).Valid →
    Exec faulty k (handleSquidFsRequest 1 context
      (Operation.write offset flags path data).encode 255) k' reply →
    replyStatus reply = some SquidFsStatus.ok.code → 0 < writtenLength reply →
    (maximumBytes = 0 ∨ writtenLength reply ≤ maximumBytes.toNat) →
    replyStatus (k'.run (handleSquidFsRequest 1 context
      (Operation.read offset maximumBytes path).encode 255)).1 = some SquidFsStatus.ok.code := by
  intro h
  have hctx : (⟨some 0, false⟩ : SquidFsContext).rootFd = some 0 := rfl
  have hroot := linkedKernel_root 0 rfl
  have hvalid := write_f_valid 0xFFFFFFFF
  have hexec := exec_faulty_run linkedKernel (handleSquidFsRequest 1 ⟨some 0, false⟩
    (Operation.write 0xFFFFFFFF 0 [0x66] [7, 8]).encode 255)
  have hbytes : (linkedKernel.run (handleSquidFsRequest 1 ⟨some 0, false⟩
      (Operation.write 0xFFFFFFFF 0 [0x66] [7, 8]).encode 255)).1 =
        some [0x84, 0, 0xFF, 0xFF, 0xFF, 0xFF, 2] := rfl
  rw [hbytes] at hexec
  have hopened := h _ 0 1 linkedKernel 0xFFFFFFFF 0 [0x66] [7, 8] 0 _ _ hctx hroot hvalid hexec
    (by decide) (by decide) (.inl rfl)
  have houtcome := handleSquidFsRequest_outcome linkedKernel_root 1 _ 255 _ _ hexec
  obtain ⟨m, hm, hreply, heffect⟩ := houtcome.writeEffect hvalid.parses (by decide)
  have hm' : m = 2 := by
    have hwritten := writtenLength_writeOkResponse 0xFFFFFFFF
      (Nat.lt_of_le_of_lt hm (by decide : 2 < 256))
    rw [← hreply] at hwritten
    exact hwritten.symm
  subst hm'
  obtain ⟨base, hfile⟩ := heffect.hasFile
  have hlength := length_overwrite_le base (by decide : ([7, 8] : List UInt8).take 2 ≠ [])
    (0xFFFFFFFF : UInt32).toNat
  have hread : Ensures (steady False) _ _ _ := handleSquidFsRequest_read hctx
    (exec_faulty_root hctx hroot hexec) validPath_f hfile 1 0xFFFFFFFF 0
  generalize hanswer : (Kernel.run _ _).1 = answer at hopened
  have hreply := run_of_ensures_steady hread
  rw [hanswer] at hreply
  cases hreply with
  | tooLarge _ => exact absurd hopened (by decide)
  | pastEnd _ _ => exact absurd hopened (by decide)
  | data n hsize _ _ _ _ =>
    have hlarge : 2 ^ 32 ≤ 4294967295 + 2 := by decide
    exact Nat.not_lt.2 (Nat.le_trans hlarge hlength) hsize

end SquidServer.Filesystem

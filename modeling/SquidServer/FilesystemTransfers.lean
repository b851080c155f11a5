import SquidServer.Envelopes
import SquidServer.FilesystemReads

namespace Posix
set_option autoImplicit true

theorem Kernel.Can.pread {k : Kernel} (h : k.Can (.pread fd size offset) r k')
    (hfd : k.file fd = some f) (hread : f.write = false)
    (hfile : k.fs.node f.ino = some (.file content)) :
    (∃ e, r = .error e) ∨ ∃ m ≤ size, r = .ok ((content.drop offset).take m) := by
  have hcall : ∀ m, k.pread fd m offset = .ok ((content.drop offset).take m) := by
    intro m
    rw [Kernel.pread, hfd]
    dsimp only
    rw [hread, if_neg Bool.false_ne_true, hfile]
  cases h with
  | done => exact .inr ⟨size, Nat.le_refl _, hcall size⟩
  | failed he => exact .inl he
  | @shortRead m _ _ _ hm => exact .inr ⟨m, hm, hcall m⟩

theorem Kernel.Can.openat_read {k : Kernel} (h : k.Can (.openat fd name flags mode) r k')
    (hn : IsComponent name) (hfd : k.ino fd = some dir)
    (hflags : flags.nofollow = true ∧ flags.write = false ∧ flags.creat = false ∧
      flags.directory = false ∧ flags.trunc = false)
    (hlookup : k.fs.lookup dir name = some n) (hfile : k.fs.node n = some (.file content)) :
    (∃ e, r = .error e ∧ k' = k) ∨ r = .ok k.freeFd ∧ k' = k.openFile ⟨n, 0, false⟩ := by
  obtain ⟨hnofollow, hwrite, -, hdirectory, htrunc⟩ := hflags
  cases h with
  | failed he =>
    obtain ⟨e, rfl⟩ := he
    exact .inl ⟨e, rfl, rfl⟩
  | done =>
    have hcall : k.openat fd name flags mode = (.ok k.freeFd, k.openFile ⟨n, 0, false⟩) := by
      rw [Kernel.openat, hnofollow, Bool.not_true, Kernel.resolve_found hn hfd,
        Fs.find_of_lookup hlookup]
      dsimp only
      rw [Kernel.openObject, hfile]
      dsimp only
      rw [hdirectory, htrunc, hwrite]
      rfl
    exact .inr ⟨congrArg Prod.fst hcall, congrArg Prod.snd hcall⟩

end Posix

namespace SquidServer.Filesystem
open Interaction Posix Wire
set_option autoImplicit true

theorem Kernel.length_pread {k : Kernel} (h : k.pread fd size offset = .ok data) :
    data.length ≤ size := by
  rw [Kernel.pread] at h
  split at h
  · cases h
  · split at h
    · cases h
    · split at h
      · cases h
        exact List.length_take_le _ _
      · cases h
      · cases h

theorem Kernel.Can.readsFit {k : Kernel} (h : k.Can op r k') : ReadsFit ⟨op, r⟩ := by
  cases op with
  | pread fd size offset =>
    cases hr : r with
    | error e => trivial
    | ok data =>
      cases h with
      | done => exact Kernel.length_pread hr
      | failed he =>
        obtain ⟨e, rfl⟩ := he
        cases hr
      | shortRead hm => exact (Kernel.length_pread hr).trans hm
  | _ => trivial

/-- The reply to a READ of a file. Where the calls may fail it can be refused. -/
inductive PartReply (live : Prop) (content : List UInt8) (offset : UInt32) : List UInt8 → Prop
  | refused (status : SquidFsStatus) : status ≠ .ok → ¬ live →
      PartReply live content offset [squidFsOpRead ||| squidFsResponseBit, status.code]
  | part (n : Nat) : content.length < 2 ^ 32 → offset.toNat ≤ content.length → n ≤ 244 →
      (live → offset.toNat < content.length → 0 < n) →
      PartReply live content offset
        (readResponse squidFsOpRead offset content.length ((content.drop offset.toNat).take n))

theorem PieceReply.part (h : PieceReply short content offset maximumBytes (some reply))
    (hsize : content.length < 2 ^ 32) (hoffset : offset.toNat ≤ content.length) :
    PartReply True content offset reply := by
  generalize hresponse : some reply = response at h
  cases h with
  | tooLarge hlarge => omega
  | pastEnd _ hend => omega
  | data n _ _ hn hpos _ =>
    cases hresponse
    obtain ⟨hpacket, -, -, hprogress⟩ := readDataSize_le maximumBytes content.length offset.toNat
    exact .part n hsize hoffset (hn.trans hpacket) fun _ hlt => hpos (hprogress hlt)

def RepliesPart (content : List UInt8) (offset : UInt32) (response : Response) : Prop :=
  ∀ reply, response = some reply → PartReply False content offset reply

theorem repliesPart_status (h : status ≠ .ok) (content : List UInt8) (offset : UInt32) :
    RepliesPart content offset (writeResponse squidFsOpRead status 255) := by
  rintro _ ⟨⟩
  exact .refused status h id

theorem repliesPart_errno (e : Errno) (content : List UInt8) (offset : UInt32) :
    RepliesPart content offset (writeResponse squidFsOpRead (statusFromErrno e) 255) :=
  repliesPart_status (statusFromErrno_ne_ok e) content offset

section
variable {context : SquidFsContext} {rootFd : Fd} {root : Ino} {k : Kernel}

theorem readFile_faulty (hfd : k.IsOpen fd i ⟨n, 0, false⟩)
    (hfile : k.fs.node n = some (.file content)) (offset : UInt32) (maximumBytes : UInt8) :
    Ensures faulty (readFile fd squidFsOpRead offset maximumBytes 255) (fun result _ =>
      RepliesPart content offset (answer squidFsOpRead result 255)) k := by
  obtain ⟨inode, hinode, hnode⟩ := Option.map_eq_some_iff.1 hfile
  have hsize : inode.stat.stSize = content.length := by
    change (inode.node.size : Int) = _
    rw [hnode]
    rfl
  rw [readFile]
  refine ensures_bind.2 (ensures_ask fun r k₁ hk₁ => ?_)
  obtain ⟨rfl, hstat⟩ := Kernel.Can.fstat hk₁ hfd.ino
  cases r with
  | error e => exact ensures_pure.2 (repliesPart_errno e content offset)
  | ok information =>
    obtain ⟨inode', hinode', rfl⟩ := hstat information rfl
    cases hinode.symm.trans hinode'
    dsimp only
    split
    · exact ensures_pure.2 (repliesPart_status (by decide) content offset)
    split
    · exact ensures_pure.2 (repliesPart_status (by decide) content offset)
    rw [hsize]
    split
    · exact ensures_pure.2 (repliesPart_status (by decide) content offset)
    rename_i hsmall
    have hsmall : ¬ (0xFFFFFFFF : Int) < content.length := (not_or.1 hsmall).2
    split
    · exact ensures_pure.2 (repliesPart_status (by decide) content offset)
    rename_i hwithin
    refine ensures_bind.2 (ensures_ask fun r k₂ hk₂ => ?_)
    rcases Kernel.Can.pread hk₂ hfd.file rfl hfile with ⟨e, rfl⟩ | ⟨m, hm, rfl⟩
    · exact ensures_pure.2 (repliesPart_errno e content offset)
    · refine ensures_pure.2 ?_
      rintro _ ⟨⟩
      rw [Int.toNat_natCast] at hm ⊢
      have hmax := (readDataSize_le maximumBytes content.length offset.toNat).1
      exact .part m (by omega) (by omega) (hm.trans hmax) False.elim

theorem handleSquidFsRequest_readPart (hctx : context.rootFd = some rootFd)
    (hroot : k.ino rootFd = some root) (hpath : ValidPath path)
    (hfile : HasFile k.fs root path content) (fuel : Nat) (offset : UInt32) (maximumBytes : UInt8) :
    Ensures faulty (handleSquidFsRequest fuel context
      (Operation.read offset maximumBytes path).encode 255)
      (fun reply _ => RepliesPart content offset reply) k := by
  have hvalid : (Operation.read offset maximumBytes path).Valid := hpath
  have hlooks : ¬ Mutating squidFsOpRead := by decide
  rw [hvalid.parses.handle_eq (by simp [hctx]) (by decide) (fun _ => by decide)
    fun hand => hlooks hand.1]
  change Ensures faulty (performRead context offset maximumBytes path 255) _ k
  obtain ⟨dir, n, hdir, hlookup, hnode⟩ := hfile
  refine ensures_bind.2 ((openParentDirectory_arrives hctx hroot hpath).mono ?_)
  intro r k₁ harrives
  cases r with
  | error e => exact ensures_pure.2 (repliesPart_errno e content offset)
  | ok opened =>
    obtain ⟨parentFd, leaf⟩ := opened
    obtain ⟨rfl, dir', hdir', hparent⟩ := harrives.arrived parentFd leaf rfl
    cases hdir.symm.trans hdir'
    rw [← harrives.fs] at hlookup hnode
    refine ensures_bind.2 (ensures_ask fun file k₂ hk₂ => ?_)
    refine ensures_bind.2 (ensures_ask fun _ k₃ hk₃ => ?_)
    obtain rfl := Kernel.Can.closes hk₃ (.inl rfl)
    rcases Kernel.Can.openat_read hk₂ hpath.leaf hparent ⟨rfl, rfl, rfl, rfl, rfl⟩ hlookup hnode
      with ⟨e, rfl, rfl⟩ | ⟨rfl, rfl⟩
    · exact ensures_pure.2 (repliesPart_errno e content offset)
    · have hne : k₁.freeFd ≠ parentFd := (Kernel.ne_freeFd hparent).symm
      have hfd := (k₁.isOpen_openFile ⟨n, 0, false⟩).closeFd hne
      refine ensures_bind.2 ((readFile_faulty hfd hnode offset maximumBytes).mono ?_)
      intro result k₄ hresult
      exact ensures_bind.2 (ensures_ask fun _ k₅ _ => ensures_pure.2 hresult)

end

theorem overwrite_nil (content : List UInt8) (offset : Nat) :
    overwrite content [] offset = content := if_pos rfl

theorem overwrite_zero (content data : List UInt8) :
    overwrite content data 0 = data ++ content.drop data.length := by
  by_cases hdata : data = []
  · rw [hdata, overwrite_nil]
    rfl
  · rw [overwrite, if_neg hdata, Nat.zero_sub, Nat.zero_add]
    rfl

theorem overwrite_append (content data more : List UInt8) :
    overwrite (overwrite content data 0) more data.length = overwrite content (data ++ more) 0 := by
  by_cases hmore : more = []
  · rw [hmore, overwrite_nil, List.append_nil]
  · rw [overwrite_zero, overwrite_zero, overwrite, if_neg hmore, List.take_left,
      List.length_append, Nat.sub_eq_zero_of_le (Nat.le_add_right _ _), List.drop_append,
      List.drop_eq_nil_of_le (Nat.le_add_right _ _), List.length_append, Nat.add_sub_cancel_left,
      List.drop_drop]
    simp

/-- A WRITE that goes on where a first one from the start of the data has stopped: together they
have the effect of one. -/
theorem WriteEffect.append {fs fs₁ fs₂ : Fs} (h : WriteEffect fs root ⟨0, flags, path, data⟩ n fs₁)
    (hn : n ≤ data.length) (hoffset : offset.toNat = n)
    (hchunk : chunk.take m = (data.drop n).take m)
    (h' : WriteEffect fs₁ root ⟨offset, 0, path, chunk⟩ m fs₂) :
    WriteEffect fs root ⟨0, flags, path, data⟩ (n + m) fs₂ := by
  obtain ⟨dir, i, content, hdir, hlookup, hfile, -, hredo⟩ := h.landed
  cases h' with
  | created _ _ _ _ hflag _ _ =>
    exact absurd (show (0 : UInt8) &&& squidFsWriteCreate = 0 by decide) hflag
  | replaced dir' i' content' hdir' hlookup' hfile' htree =>
    cases hdir.symm.trans hdir'
    cases hlookup.symm.trans hlookup'
    cases hfile.symm.trans hfile'
    refine hredo fs₂ (n + m) ?_
    have hkept : (0 : UInt8) &&& squidFsWriteTruncate = 0 := by decide
    rw [htree, if_neg (not_not.2 hkept)]
    dsimp only
    have hlength : (data.take n).length = n := by
      rw [List.length_take]
      omega
    have hjoined := overwrite_append content (data.take n) ((data.drop n).take m)
    rw [hlength, ← List.take_add] at hjoined
    rw [hoffset, hchunk]
    exact congrArg (fun bytes => fs₁.tree.setObject i (.file bytes)) hjoined

/-- The reply to a WRITE, and what it has done. -/
inductive WritePart (fs : Fs) (root : Ino) (offset : UInt32) (flags : UInt8) (path : Name)
    (data : List UInt8) : List UInt8 → Fs → Prop
  | refused (status : UInt8) : status ≠ 0 →
      fs' = fs ∨ OpenedOnly fs root (Operation.write offset flags path data).encode fs' →
      WritePart fs root offset flags path data [squidFsOpWrite ||| squidFsResponseBit, status] fs'
  | wrote (m : Nat) : m ≤ data.length → WriteEffect fs root ⟨offset, flags, path, data⟩ m fs' →
      WritePart fs root offset flags path data (writeOkResponse squidFsOpWrite offset m) fs'

section
variable {context : SquidFsContext} {rootFd : Fd} {root : Ino} {k : Kernel}

theorem transfer_replies (hctx : context.rootFd = some rootFd)
    (hop : opcode = squidFsOpRead ∨ opcode = squidFsOpWrite) (fuel : Nat) (rest : List UInt8) :
    Ensures faulty (handleSquidFsRequest fuel context (opcode :: rest) 255)
      (fun r _ => Replies opcode r) k := by
  rcases hop with rfl | rfl
  · have hdispatch : handleSquidFsRequest fuel context (squidFsOpRead :: rest) 255 =
        handleRead context squidFsOpRead (squidFsOpRead :: rest) 255 := by
      simp +decide [handleSquidFsRequest, hctx]
    intro k' response hexec
    rw [hdispatch] at hexec
    obtain ⟨n, hspared⟩ := exec_sparing (fun _ _ _ _ h => Kernel.Can.readsFit h) hexec isDotEntry
    exact handleRead_replies context squidFsOpRead _ _ _ hspared
  · have hdispatch : handleSquidFsRequest fuel context (squidFsOpWrite :: rest) 255 =
        handleWrite context squidFsOpWrite (squidFsOpWrite :: rest) 255 := by
      simp +decide [handleSquidFsRequest, hctx]
    rw [hdispatch]
    exact handleWrite_replies context squidFsOpWrite _

theorem envelope_status {reply : List UInt8} (h : Envelope opcode reply) :
    ∃ status, reply[1]? = some status ∧ (status ≠ 0 → reply = [opcode ||| 0x80, status]) := by
  have hleast := h.least
  have hfirst := h.first
  have hbare := h.bare
  match reply, hleast with
  | code :: status :: rest, _ =>
    cases hfirst
    refine ⟨status, rfl, fun hne => ?_⟩
    have hlength := hbare (fun hzero => hne (Option.some.inj hzero))
    rw [List.length_cons, List.length_cons] at hlength
    rw [List.length_eq_zero_iff.1 (show rest.length = 0 by omega)]

theorem handleSquidFsRequest_writePart (hctx : context.rootFd = some rootFd)
    (hroot : k.ino rootFd = some root) (hvalid : (Operation.write offset flags path data).Valid)
    (fuel : Nat) :
    Ensures faulty (handleSquidFsRequest fuel context
      (Operation.write offset flags path data).encode 255) (fun response k' =>
        ∃ reply, response = some reply ∧ WritePart k.fs root offset flags path data reply k'.fs)
      k := by
  have hctx' : ∀ fd, context.rootFd = some fd → k.ino fd = some root := by
    intro fd hfd
    cases hctx.symm.trans hfd
    exact hroot
  refine ((transfer_replies hctx (.inr rfl) fuel
    (Operation.write offset flags path data).fields).and
    (handleSquidFsRequest_outcome hctx' fuel _ 255)).mono ?_
  rintro response k' ⟨⟨reply, rfl, henvelope⟩, houtcome⟩
  obtain ⟨status, hstatus, hbare⟩ := envelope_status henvelope
  refine ⟨reply, rfl, ?_⟩
  by_cases hok : status = 0
  · subst hok
    obtain ⟨m, hm, hreply, heffect⟩ := houtcome.writeEffect hvalid.parses hstatus
    cases hreply
    exact .wrote m hm heffect
  · rw [hbare hok]
    exact .refused status hok (houtcome.error hstatus hok)

end

theorem WriteEffect.widen {fs fs' : Fs}
    (h : WriteEffect fs root ⟨0, flags, path, chunk⟩ m fs') (hchunk : chunk.take m = data.take m) :
    WriteEffect fs root ⟨0, flags, path, data⟩ m fs' := by
  cases h with
  | replaced dir n content hdir hlookup hfile htree =>
    refine .replaced dir n content hdir hlookup hfile ?_
    rw [htree]
    dsimp only
    rw [hchunk]
  | created dir n hdir hlookup hflag hnode htree =>
    refine .created dir n hdir hlookup hflag hnode ?_
    rw [htree]
    dsimp only
    rw [hchunk]

/-- A WRITE that neither makes the file nor empties it can only write. -/
theorem not_openedOnly {fs fs' : Fs} (hvalid : (Operation.write offset 0 path data).Valid)
    (h : OpenedOnly fs root (Operation.write offset 0 path data).encode fs') : False := by
  cases h with
  | created _ flags _ _ _ _ hvalid' hrequest hflag =>
    cases Operation.encode_injective hvalid hvalid' hrequest
    exact hflag (by decide)
  | emptied _ flags _ _ _ _ _ hvalid' hrequest hflag =>
    cases Operation.encode_injective hvalid hvalid' hrequest
    exact hflag (by decide)

/-- The flags of a client that writes a file behind so many bytes: with the first of them it makes
the file, or empties it. -/
def uploadFlags (written : Nat) : UInt8 :=
  if written = 0 then squidFsWriteCreate ||| squidFsWriteTruncate else 0

/-- The WRITE of all the data at once. -/
def wholeWrite (path : Name) (data : List UInt8) : WriteRequest :=
  ⟨0, squidFsWriteCreate ||| squidFsWriteTruncate, path, data⟩

/-- The tree between the WRITEs of an upload. -/
inductive Uploading (fs : Fs) (root : Ino) (path : Name) (data : List UInt8) : Nat → Fs → Prop
  | start : Uploading fs root path data 0 fs
  | wrote (n : Nat) : 0 < n → n ≤ data.length → WriteEffect fs root (wholeWrite path data) n fs' →
      Uploading fs root path data n fs'

/-- The tree after an upload that has written so many bytes. Where these are none, the file may
still have been made or emptied. -/
inductive Uploaded (fs : Fs) (root : Ino) (path : Name) (data : List UInt8) : Nat → Fs → Prop
  | nothing : Uploaded fs root path data 0 fs
  | opened (piece : List UInt8) : OpenedOnly fs root
        (Operation.write 0 (squidFsWriteCreate ||| squidFsWriteTruncate) path piece).encode fs' →
      Uploaded fs root path data 0 fs'
  | wrote (n : Nat) : n ≤ data.length → WriteEffect fs root (wholeWrite path data) n fs' →
      Uploaded fs root path data n fs'

section
variable {fs fs₁ fs₂ : Fs} {root : Ino} {path : Name} {data : List UInt8}

theorem Uploading.le (h : Uploading fs root path data n fs₁) : n ≤ data.length := by
  cases h with
  | start => exact Nat.zero_le _
  | wrote _ _ hn _ => exact hn

theorem uploadFlags_known (written : Nat) :
    uploadFlags written &&& ~~~(squidFsWriteCreate ||| squidFsWriteTruncate) = 0 := by
  rw [uploadFlags]
  split
  · decide
  · decide

theorem uploadFlags_pos (h : 0 < n) : uploadFlags n = 0 := if_neg (Nat.ne_of_gt h)

theorem Uploading.refused (h : Uploading fs root path data n fs₁)
    (hvalid : (Operation.write (UInt32.ofNat n) (uploadFlags n) path piece).Valid)
    (hfs : fs₂ = fs₁ ∨ OpenedOnly fs₁ root
      (Operation.write (UInt32.ofNat n) (uploadFlags n) path piece).encode fs₂) :
    Uploaded fs root path data n fs₂ := by
  cases h with
  | start =>
    rcases hfs with rfl | hopened
    · exact .nothing
    · exact .opened piece hopened
  | wrote _ hpos hn heffect =>
    rcases hfs with rfl | hopened
    · exact .wrote n hn heffect
    · rw [uploadFlags_pos hpos] at hvalid hopened
      exact absurd hopened (not_openedOnly hvalid)

theorem Uploading.write (h : Uploading fs root path data n fs₁) (hdata : data.length < 2 ^ 32)
    (hm : m ≤ ((data.drop n).take size).length)
    (heffect : WriteEffect fs₁ root
      ⟨UInt32.ofNat n, uploadFlags n, path, (data.drop n).take size⟩ m fs₂) :
    WriteEffect fs root (wholeWrite path data) (n + m) fs₂ := by
  have hpiece : ((data.drop n).take size).take m = (data.drop n).take m := by
    rw [List.length_take] at hm
    rw [List.take_take, Nat.min_eq_left (hm.trans (Nat.min_le_left _ _))]
  cases h with
  | start =>
    rw [Nat.zero_add]
    exact heffect.widen hpiece
  | wrote _ hpos hn hfirst =>
    have hoffset : (UInt32.ofNat n).toNat = n :=
      UInt32.toNat_ofNat_of_lt' (Nat.lt_of_le_of_lt hn hdata)
    rw [uploadFlags_pos hpos] at heffect
    exact hfirst.append hn hoffset hpiece heffect

/-- A file that has been written as a whole has the data, if it was emptied or made for it. -/
theorem WriteEffect.whole (h : WriteEffect fs root (wholeWrite path data) data.length fs₁) :
    HasFile fs₁ root path data := by
  obtain ⟨dir, n, content, hdir, hlookup, hfile, hempty, -⟩ := h.landed
  refine ⟨dir, n, hdir, hlookup, ?_⟩
  have hflags : (squidFsWriteCreate ||| squidFsWriteTruncate) &&& squidFsWriteTruncate ≠ 0 := by
    decide
  rw [hempty hflags] at hfile
  have hdata := overwrite_zero [] data
  rw [List.drop_nil, List.append_nil] at hdata
  have htaken : overwrite [] (data.take data.length) (0 : UInt32).toNat = data := by
    rw [List.take_length]
    exact hdata
  exact hfile.trans (congrArg (fun bytes => some (Node.file bytes)) htaken)

end

end SquidServer.Filesystem

import SquidServer.FilesystemTransfers
import SquidServer.RemoteListing

namespace SquidServer.Filesystem
open Interaction Posix Wire CText Client Remote
set_option autoImplicit true

/-- What a client may ask while it moves a file. -/
inductive AsksTransfer (path : Name) : List UInt8 → Prop
  | read (offset : UInt32) (maximumBytes : UInt8) :
      AsksTransfer path (Operation.read offset maximumBytes path).encode
  | write : (Operation.write offset flags path data).Valid →
      (Operation.write offset flags path data).encode.length ≤ 255 →
      AsksTransfer path (Operation.write offset flags path data).encode

theorem length_encode_read (offset : UInt32) (maximumBytes : UInt8) (path : Name) :
    (Operation.read offset maximumBytes path).encode.length = 7 + path.length := by
  simp only [Operation.encode, Operation.fields, writeU32, countedText, List.length_append,
    List.length_cons, List.length_nil]
  omega

theorem length_encode_write (offset : UInt32) (flags : UInt8) (path : Name) (data : List UInt8) :
    (Operation.write offset flags path data).encode.length = 8 + path.length + data.length := by
  simp only [Operation.encode, Operation.fields, writeU32, countedText, List.length_append,
    List.length_cons, List.length_nil]
  omega

section
variable {H : Environment Syscalls Kernel} {context : SquidFsContext} {rootFd : Fd}

theorem transfer_answering (root : Ino) (hcan : ∀ k op r k', H k op r k' → k.Can op r k')
    (hanswers : ∀ k op, ∃ r k', H k op r k') (hctx : context.rootFd = some rootFd)
    (hpath : ValidPath path) (turns : Nat) :
    (handleSquidFsPacket turns context H).Answering (fun k => k.ino rootFd = some root)
      (AsksTransfer path) where
  request := by
    intro request hasked
    have hlength := hpath.length_le
    cases hasked with
    | read offset maximumBytes =>
      exact ⟨Nat.zero_lt_succ _, by rw [length_encode_read]; omega⟩
    | write _ hfits => exact ⟨Nat.zero_lt_succ _, hfits⟩
  total := by
    intro k request hroot hasked
    obtain ⟨k', response, hexec⟩ := exists_exec hanswers (handleSquidFsRequest turns context request
      255) k
    have hfaulty : Exec faulty _ _ _ _ := hexec.mono hcan
    have hreplies : ∃ opcode, Replies opcode response := by
      cases hasked with
      | read offset maximumBytes =>
        exact ⟨_, transfer_replies hctx (.inl rfl) turns _ _ _ hfaulty⟩
      | write _ _ => exact ⟨_, transfer_replies hctx (.inr rfl) turns _ _ _ hfaulty⟩
    obtain ⟨opcode, reply, rfl, -⟩ := hreplies
    exact ⟨reply, k', hexec⟩
  reply := by
    intro k request reply k' hroot hasked hreply
    have hfaulty : Exec faulty _ _ _ _ := Exec.mono hcan hreply
    have hreplies : ∃ opcode, Replies opcode (some reply) := by
      cases hasked with
      | read offset maximumBytes =>
        exact ⟨_, transfer_replies hctx (.inl rfl) turns _ _ _ hfaulty⟩
      | write _ _ => exact ⟨_, transfer_replies hctx (.inr rfl) turns _ _ _ hfaulty⟩
    obtain ⟨opcode, _, ⟨⟩, henvelope⟩ := hreplies
    exact ⟨⟨Nat.lt_of_lt_of_le (by decide) henvelope.least, henvelope.most⟩,
      exec_faulty_root hctx hroot hfaulty⟩

end

theorem length_readResponse (offset : UInt32) (size : Nat) (data : List UInt8) :
    (readResponse squidFsOpRead offset size data).length = 11 + data.length := by
  simp only [readResponse, writeU32, List.length_append, List.length_cons, List.length_nil]

theorem PartReply.packet (h : PartReply live content offset reply) : Packet reply := by
  cases h with
  | refused status _ _ => exact ⟨Nat.zero_lt_succ 1, show 2 ≤ 255 by decide⟩
  | part n _ _ hn _ =>
    have htaken := List.length_take_le n (content.drop offset.toNat)
    refine ⟨Nat.zero_lt_succ _, ?_⟩
    rw [length_readResponse]
    omega

/-- What a call of `squid_client_fs_read` gives of a file. -/
inductive ReadResult (live : Prop) (content : List UInt8) (offset : UInt32) (client : SquidClient) :
    Option (Returned SquidClientFsRead) → Prop
  | refused (status : UInt8) : status ≠ 0 → ¬ live →
      ReadResult live content offset client (some ⟨status.toNat, none, some client⟩)
  | part (n : Nat) : content.length < 2 ^ 32 → offset.toNat ≤ content.length → n ≤ 244 →
      (live → offset.toNat < content.length → 0 < n) →
      ReadResult live content offset client (some ⟨0, some ⟨offset, UInt32.ofNat content.length,
        (content.drop offset.toNat).take n⟩, some client⟩)

theorem returned_status {read : List UInt8 → Option α}
    (h : understand capacity opcode minimumSize read reply = (result, none)) :
    some (Returned.mk (understand capacity opcode minimumSize read reply).1
      (understand capacity opcode minimumSize read reply).2 client) =
        some ⟨result, none, client⟩ := by rw [h]

section
variable {plugin : Plugin σ} {path : CString} {a : Attended σ}

theorem squidClientFsRead_attended (hready : Ready fuel client a)
    (hcapacity : client.packetCapacity = 255) (hpath : ValidPath path.bytes)
    (hreply : ∀ reply server, plugin a.server
      (Operation.read offset maximumBytes path.bytes).encode reply server →
      PartReply live content offset reply) :
    Ensures (attended plugin False epoch)
      (squidClientFsRead fuel (some client) (some path) offset maximumBytes true) (fun x a' =>
        ∃ reply client', Answered plugin a client
          (Operation.read offset maximumBytes path.bytes).encode reply a' client' ∧
          ReadResult live content offset client' x) a := by
  have hlength := hpath.length_le
  have hfits : (squidFsOpRead :: (Operation.read offset maximumBytes path.bytes).fields).length =
      7 + path.bytes.length := length_encode_read offset maximumBytes path.bytes
  refine (transact_attended hready (decide_eq_true ⟨rfl, filesystemPathSize_nonneg hpath false⟩)
    squidFsOpRead (Operation.read offset maximumBytes path.bytes).fields 11 _ (by omega)
    fun reply server h => (hreply reply server h).packet).mono ?_
  rintro _ a' ⟨reply, client', hanswered, rfl⟩
  refine ⟨reply, client', hanswered, ?_⟩
  rw [hcapacity]
  cases hreply _ _ hanswered.answer with
  | refused status hstatus hlive =>
    rw [returned_status (understand_status (by decide) (SquidFsStatus.code_ne_zero hstatus)
      squidFsOpRead 11 _)]
    exact .refused _ (SquidFsStatus.code_ne_zero hstatus) hlive
  | part n hsize hoffset hn hprogress =>
    have htaken := List.length_take_le n (content.drop offset.toNat)
    generalize hdata : (content.drop offset.toNat).take n = data at htaken ⊢
    have hreplied := length_readResponse offset content.length data
    have hcount : (byteAt (readResponse squidFsOpRead offset content.length data) 10).toNat =
        data.length := ofNat_toNat_of_le (by omega)
    have hfirst : squidClientReadU32 (readResponse squidFsOpRead offset content.length data) 2 =
        offset := by
      rw [readResponse, List.append_assoc, List.append_assoc]
      exact readU32_writeU32 [_, _] offset _
    have hsecond : squidClientReadU32 (readResponse squidFsOpRead offset content.length data) 6 =
        UInt32.ofNat content.length := by
      rw [readResponse, List.append_assoc]
      exact readU32_writeU32 ([_, _] ++ writeU32 offset) _ _
    have hrest : ((readResponse squidFsOpRead offset content.length data).drop 11).take
        data.length = data := List.take_length
    have hpart : ReadResult live content offset client' (some ⟨0, some ⟨offset,
        UInt32.ofNat content.length, data⟩, some client'⟩) :=
      hdata ▸ .part n hsize hoffset hn hprogress
    rw [returned_ok (understand_ok (by omega) rfl (by omega) ?_)]
    · exact hpart
    · dsimp only
      rw [hcount, if_neg (by omega), hfirst, hsecond, hrest]

end

/-- The bytes of a piece, as the data of a call. -/
def pieceBuffer (piece : List UInt8) (h : piece.length < 256) : Buffer where
  data := some piece
  size := UInt8.ofNat piece.length
  room := by
    intro bytes hmem
    cases hmem
    rw [UInt8.toNat_ofNat_of_lt' h]

theorem copied_pieceBuffer (h : piece.length < 256) : (pieceBuffer piece h).copied = piece := by
  rw [Buffer.copied, pieceBuffer, Option.getD_some, UInt8.toNat_ofNat_of_lt' h, List.take_length]

theorem WritePart.packet {fs fs' : Fs}
    (h : WritePart fs root offset flags path data reply fs') : Packet reply := by
  cases h with
  | refused status _ _ => exact ⟨Nat.zero_lt_succ 1, show 2 ≤ 255 by decide⟩
  | wrote m _ _ => exact ⟨Nat.zero_lt_succ 6, show 7 ≤ 255 by decide⟩

theorem write_arguments (offset : UInt32) (flags : UInt8) (path : CString)
    (h : piece.length < 256) :
    squidClientWriteU32 offset ++ [flags] ++ countedText (textBytes (some path)) ++
      (pieceBuffer piece h).size :: (pieceBuffer piece h).copied =
        (Operation.write offset flags path.bytes piece).fields := by
  rw [copied_pieceBuffer]
  rfl

/-- What a call of `squid_client_fs_write` has done. -/
inductive WriteResult (fs : Fs) (root : Ino) (offset : UInt32) (flags : UInt8) (path : Name)
    (data : List UInt8) (client : SquidClient) : Option (Returned UInt8) → Fs → Prop
  | refused (status : UInt8) : status ≠ 0 →
      fs' = fs ∨ OpenedOnly fs root (Operation.write offset flags path data).encode fs' →
      WriteResult fs root offset flags path data client (some ⟨status.toNat, none, some client⟩) fs'
  | wrote (m : Nat) : m ≤ data.length → WriteEffect fs root ⟨offset, flags, path, data⟩ m fs' →
      WriteResult fs root offset flags path data client
        (some ⟨0, some (UInt8.ofNat m), some client⟩) fs'

theorem squidClientFsWrite_attended {a : Attended Kernel} {plugin : Plugin Kernel}
    {path : CString} (hready : Ready fuel client a) (hcapacity : client.packetCapacity = 255)
    (hpath : ValidPath path.bytes) (hpiece : piece.length < 256)
    (hfits : 8 + path.bytes.length + piece.length ≤ 255)
    (hreply : ∀ reply server, plugin a.server
      (Operation.write offset flags path.bytes piece).encode reply server →
      WritePart a.server.fs root offset flags path.bytes piece reply server.fs) :
    Ensures (attended plugin False epoch)
      (squidClientFsWrite fuel (some client) (some path) offset flags (pieceBuffer piece hpiece)
        true)
      (fun x a' => ∃ reply client', Answered plugin a client
          (Operation.write offset flags path.bytes piece).encode reply a' client' ∧
          WriteResult a.server.fs root offset flags path.bytes piece client' x a'.server.fs) a := by
  have hlength : (squidFsOpWrite :: (Operation.write offset flags path.bytes piece).fields).length =
      8 + path.bytes.length + piece.length := length_encode_write offset flags path.bytes piece
  have hdata :
      ¬ (0 < (pieceBuffer piece hpiece).size ∧ (pieceBuffer piece hpiece).data = none) := by
    rintro ⟨-, hnone⟩
    cases hnone
  have hsize : (pieceBuffer piece hpiece).size.toNat = piece.length :=
    UInt8.toNat_ofNat_of_lt' hpiece
  rw [squidClientFsWrite, write_arguments]
  refine (transact_attended hready
    (decide_eq_true ⟨rfl, filesystemPathSize_nonneg hpath false, hdata⟩) squidFsOpWrite
    (Operation.write offset flags path.bytes piece).fields 7 _ (by omega)
    fun reply server h => (hreply reply server h).packet).mono ?_
  rintro _ a' ⟨reply, client', hanswered, rfl⟩
  refine ⟨reply, client', hanswered, ?_⟩
  rw [hcapacity]
  have hpart := hreply _ _ hanswered.answer
  generalize a'.server.fs = fs' at hpart ⊢
  cases hpart with
  | refused status hstatus hfs =>
    rw [returned_status (understand_status (by decide) hstatus squidFsOpWrite 7 _)]
    exact .refused status hstatus hfs
  | wrote m hm heffect =>
    have hlast : byteAt (writeOkResponse squidFsOpWrite offset m) 6 = UInt8.ofNat m := rfl
    have hcount : (UInt8.ofNat m).toNat = m := UInt8.toNat_ofNat_of_lt' (hm.trans_lt hpiece)
    have hread : squidClientReadU32 (writeOkResponse squidFsOpWrite offset m) 2 = offset := by
      rw [writeOkResponse]
      exact readU32_writeU32 [_, _] offset _
    have hmost : ¬ (pieceBuffer piece hpiece).size < UInt8.ofNat m := by
      rw [UInt8.lt_iff_toNat_lt, hsize, hcount]
      omega
    rw [returned_ok (understand_ok (show 7 ≤ 255 by decide) rfl (Nat.le_refl 7) ?_)]
    · exact .wrote m hm heffect
    · rw [if_neg, hlast]
      rw [hlast]
      rintro (h | h | h)
      · exact h rfl
      · exact hmost h
      · exact h hread

/-- One turn of a download: the client reads behind the bytes it has. -/
def downloadStep (fuel : Nat) (path : CString) (maximumBytes : UInt8) :
    SquidClient × List UInt8 →
      Program ClientLib ((SquidClient × List UInt8) ⊕ Option (List UInt8))
  | (client, data) => do
    match ← squidClientFsRead fuel (some client) (some path) (UInt32.ofNat data.length) maximumBytes
      true with
    | some ⟨result, some chunk, some client⟩ =>
      if result ≠ 0 then return .inr none
      else if chunk.totalSize.toNat ≤ (data ++ chunk.data).length then
        return .inr (some (data ++ chunk.data))
      else if chunk.data = [] then return .inr none
      else return .inl (client, data ++ chunk.data)
    | _ => return .inr none

/-- A client reads a file, piece by piece, until it has as many bytes as the file. -/
def download (fuel turns : Nat) (path : CString) (maximumBytes : UInt8) (client : SquidClient) :
    Program ClientLib (Option (Option (List UInt8))) :=
  Program.loop (downloadStep fuel path maximumBytes) turns (client, [])

theorem sends_download (fuel turns : Nat) (path : CString) (maximumBytes : UInt8)
    (client : SquidClient) :
    Calls (Sends (AsksTransfer path.bytes)) (download fuel turns path maximumBytes client) := by
  refine Calls.loop (fun s => Calls.bind (sends_transact _ _ _ _ _ _ _
    fun _ _ => .read (UInt32.ofNat s.2.length) maximumBytes) ?_) turns _
  rintro (_ | ⟨result, _ | chunk, _ | client⟩)
  · exact .pure _
  · exact .pure _
  · exact .pure _
  · exact .pure _
  · dsimp only
    split
    · exact .pure _
    · split
      · exact .pure _
      · split <;> exact .pure _

/-- One turn of an upload: the client writes a piece behind the bytes that have been written. -/
def uploadStep (fuel : Nat) (path : CString) (data : List UInt8) (size : Nat)
    (hsize : size < 256) : SquidClient × Nat → Program ClientLib ((SquidClient × Nat) ⊕ Nat × Bool)
  | (client, written) => do
    let piece := (data.drop written).take size
    have hpiece : piece.length < 256 := Nat.lt_of_le_of_lt (List.length_take_le _ _) hsize
    match ← squidClientFsWrite fuel (some client) (some path) (UInt32.ofNat written)
      (uploadFlags written) (pieceBuffer piece hpiece) true with
    | some ⟨result, some count, some client⟩ =>
      if result ≠ 0 then return .inr (written, false)
      else if data.length ≤ written + count.toNat then return .inr (written + count.toNat, true)
      else if count = 0 then return .inr (written, false)
      else return .inl (client, written + count.toNat)
    | _ => return .inr (written, false)

/-- A client writes a file, piece by piece; it comes to know how many bytes have been written, and
whether these are all. -/
def upload (fuel turns : Nat) (path : CString) (data : List UInt8) (size : Nat)
    (hsize : size < 256) (client : SquidClient) : Program ClientLib (Option (Nat × Bool)) :=
  Program.loop (uploadStep fuel path data size hsize) turns (client, 0)

theorem write_valid {path : CString} (hpath : ValidPath path.bytes) (offset : UInt32)
    (written : Nat) (hpiece : piece.length < 256) :
    (Operation.write offset (uploadFlags written) path.bytes piece).Valid :=
  ⟨hpath, uploadFlags_known written, hpiece⟩

theorem sends_upload {path : CString} (hpath : ValidPath path.bytes) (fuel turns : Nat)
    (data : List UInt8) (size : Nat) (hsize : size < 256) (client : SquidClient) :
    Calls (Sends (AsksTransfer path.bytes)) (upload fuel turns path data size hsize client) := by
  refine Calls.loop (fun s =>
    Calls.bind (sends_transact _ _ _ _ _ _ _ fun _ hfits => ?_) ?_) turns _
  · have hpiece : ((data.drop s.2).take size).length < 256 :=
      Nat.lt_of_le_of_lt (List.length_take_le _ _) hsize
    rw [write_arguments] at hfits ⊢
    exact .write (write_valid hpath _ _ hpiece) hfits
  · rintro (_ | ⟨result, _ | count, _ | client⟩)
    · exact .pure _
    · exact .pure _
    · exact .pure _
    · exact .pure _
    · dsimp only
      split
      · exact .pure _
      · split
        · exact .pure _
        · split <;> exact .pure _

/-- A client writes a file, and if it has written the whole of it, reads it with another
workspace. -/
def uploadAndDownload (fuel turns : Nat) (path : CString) (data : List UInt8) (size : Nat)
    (hsize : size < 256) (maximumBytes : UInt8) (client reader : SquidClient) :
    Program ClientLib (Option (List UInt8)) := do
  match ← upload fuel turns path data size hsize client with
  | some (_, true) =>
    let result ← download fuel turns path maximumBytes reader
    return result.join
  | _ => return none

section
variable {context : SquidFsContext} {rootFd : Fd} {root : Ino} {path : CString}
  {data content : List UInt8} {a : Attended Kernel}

/-- A client in the middle of a transfer. -/
structure Moving (fuel : Nat) (rootFd : Fd) (root : Ino) (client : SquidClient)
    (a : Attended Kernel) : Prop where
  ready : Ready fuel client a
  capacity : client.packetCapacity = 255
  root : a.server.ino rootFd = some root

theorem Moving.answered {H : Environment Syscalls Kernel} {a' : Attended Kernel}
    (hm : Moving fuel rootFd root client a) (hcan : ∀ k op r k', H k op r k' → k.Can op r k')
    (hctx : context.rootFd = some rootFd)
    (h : Answered (handleSquidFsPacket turns context H) a client request reply a' client') :
    Moving fuel rootFd root client' a' where
  ready := h.ready hm.ready
  capacity := h.same.capacity.trans hm.capacity
  root := exec_faulty_root hctx hm.root (Exec.mono hcan h.answer)

theorem upload_attended (hctx : context.rootFd = some rootFd) (hpath : ValidPath path.bytes)
    (hdata : data.length < 2 ^ 32) (hsize : size < 256) (hfits : 8 + path.bytes.length + size ≤ 255)
    (hrounds : data.length < rounds) (hm : Moving fuel rootFd root client a) :
    Ensures (attended (handleSquidFsPacket turns context faulty) False epoch)
      (upload fuel rounds path data size hsize client) (fun x a' =>
        ∃ n ok client', x = some (n, ok) ∧ Moving fuel rootFd root client' a' ∧
          Uploaded a.server.fs root path.bytes data n a'.server.fs ∧
          (ok = true → n = data.length ∧
            WriteEffect a.server.fs root (wholeWrite path.bytes data) n a'.server.fs)) a := by
  refine ensures_loop (fun rounds (s : SquidClient × Nat) a' => Moving fuel rootFd root s.1 a' ∧
    data.length - s.2 < rounds ∧ Uploading a.server.fs root path.bytes data s.2 a'.server.fs)
    ?_ ?_ ⟨hm, hrounds, .start⟩
  · intro s a' h
    exact absurd h.2.1 (Nat.not_lt_zero _)
  · rintro rounds ⟨client₁, written⟩ a₁ ⟨hm₁, hrounds₁, huploading⟩
    dsimp only at hm₁ hrounds₁ huploading
    have hpiece : ((data.drop written).take size).length < 256 :=
      Nat.lt_of_le_of_lt (List.length_take_le _ _) hsize
    have hle := List.length_take_le size (data.drop written)
    have hvalid := write_valid hpath (UInt32.ofNat written) written hpiece
    have hreply : ∀ reply server, handleSquidFsPacket turns context faulty a₁.server
        (Operation.write (UInt32.ofNat written) (uploadFlags written) path.bytes
          ((data.drop written).take size)).encode reply server →
        WritePart a₁.server.fs root (UInt32.ofNat written) (uploadFlags written) path.bytes
          ((data.drop written).take size) reply server.fs := by
      intro reply server h
      obtain ⟨_, ⟨⟩, hpart⟩ := handleSquidFsRequest_writePart hctx hm₁.root hvalid turns _ _ h
      exact hpart
    refine ensures_bind.2 ((squidClientFsWrite_attended hm₁.ready hm₁.capacity hpath hpiece
      (by omega) hreply).mono ?_)
    rintro x a₂ ⟨reply, client₂, hanswered, hresult⟩
    have hm₂ := hm₁.answered (fun _ _ _ _ h => h) hctx hanswered
    generalize hfs₂ : a₂.server.fs = fs₂ at hresult
    cases hresult with
    | refused status hstatus hfs =>
      subst hfs₂
      exact ensures_pure.2 ⟨written, false, client₂, rfl, hm₂, huploading.refused hvalid hfs, nofun⟩
    | wrote m hm heffect =>
      subst hfs₂
      have hcount : (UInt8.ofNat m).toNat = m := UInt8.toNat_ofNat_of_lt' (hm.trans_lt hpiece)
      have hwhole := huploading.write hdata hm heffect
      have hwritten := huploading.le
      have hsum : written + m ≤ data.length := by
        rw [List.length_take, List.length_drop] at hm
        omega
      dsimp only
      rw [if_neg (not_not.2 rfl), hcount]
      split
      · rename_i hall
        have hn : written + m = data.length := by omega
        exact ensures_pure.2
          ⟨_, true, client₂, rfl, hm₂, .wrote _ hsum hwhole, fun _ => ⟨hn, hwhole⟩⟩
      · split
        · rename_i hzero
          rw [hzero] at hcount
          obtain rfl : m = 0 := hcount.symm
          exact ensures_pure.2 ⟨written, false, client₂, rfl, hm₂, .wrote _ hsum hwhole, nofun⟩
        · rename_i hmore hnone
          have hpos : 0 < m := by
            by_contra hzero
            rw [show m = 0 by omega] at hnone
            exact hnone rfl
          refine ensures_pure.2 ⟨hm₂, ?_, .wrote _ ?_ hsum hwhole⟩
          · dsimp only
            omega
          · exact Nat.add_pos_right written hpos

/-- How the plugin answers the READs of a file. -/
def AnswersReads (live : Prop) (H : Environment Syscalls Kernel) (turns : Nat)
    (context : SquidFsContext) (rootFd : Fd) (root : Ino) (path : Name) (content : List UInt8) :
    Prop :=
  ∀ k offset maximumBytes, k.ino rootFd = some root → HasFile k.fs root path content →
    offset.toNat ≤ content.length → Ensures H (handleSquidFsRequest turns context
      (Operation.read offset maximumBytes path).encode 255)
      (fun response _ => ∀ reply, response = some reply → PartReply live content offset reply) k

theorem answersReads_faulty (hctx : context.rootFd = some rootFd) (hpath : ValidPath path.bytes)
    (turns : Nat) :
    AnswersReads False faulty turns context rootFd root path.bytes content :=
  fun _ offset maximumBytes hroot hfile _ =>
    handleSquidFsRequest_readPart hctx hroot hpath hfile turns offset maximumBytes

theorem answersReads_steady (hctx : context.rootFd = some rootFd) (hpath : ValidPath path.bytes)
    (hsize : content.length < 2 ^ 32) (turns : Nat) :
    AnswersReads True (steady True) turns context rootFd root path.bytes content := by
  intro k offset maximumBytes hroot hfile hoffset
  refine (handleSquidFsRequest_read hctx hroot hpath hfile turns offset maximumBytes).mono ?_
  rintro _ k' hpiece reply rfl
  exact hpiece.part hsize hoffset

theorem take_append_piece (h : data = content.take data.length) (n : Nat) :
    data ++ (content.drop data.length).take n =
      content.take (data ++ (content.drop data.length).take n).length := by
  have hjoined : data ++ (content.drop data.length).take n = content.take (data.length + n) := by
    rw [List.take_add, ← h]
  rw [hjoined, List.length_take, ← List.take_take, List.take_length]

theorem download_attended {H : Environment Syscalls Kernel} (hctx : context.rootFd = some rootFd)
    (hcan : ∀ k op r k', H k op r k' → k.Can op r k') (hpath : ValidPath path.bytes)
    (hreads : AnswersReads live H turns context rootFd root path.bytes content)
    (hfile : HasFile a.server.fs root path.bytes content) (hrounds : content.length < rounds)
    (maximumBytes : UInt8) (hm : Moving fuel rootFd root client a) :
    Ensures (attended (handleSquidFsPacket turns context H) False epoch)
      (download fuel rounds path maximumBytes client) (fun x a' =>
        ∃ result client', x = some result ∧ Moving fuel rootFd root client' a' ∧
          a'.server.fs = a.server.fs ∧ (∀ got, result = some got → got = content) ∧
          (live → result = some content)) a := by
  refine ensures_loop (fun rounds (s : SquidClient × List UInt8) a' =>
    Moving fuel rootFd root s.1 a' ∧ content.length - s.2.length < rounds ∧
    s.2.length ≤ content.length ∧ s.2 = content.take s.2.length ∧ a'.server.fs = a.server.fs)
    ?_ ?_ ⟨hm, hrounds, Nat.zero_le _, rfl, rfl⟩
  · intro s a' h
    exact absurd h.2.1 (Nat.not_lt_zero _)
  · rintro rounds ⟨client₁, data⟩ a₁ ⟨hm₁, hrounds₁, hle, htaken, hfs₁⟩
    dsimp only at hm₁ hrounds₁ hle htaken
    have hfile₁ : HasFile a₁.server.fs root path.bytes content := by
      rw [hfs₁]
      exact hfile
    have hoffset : (UInt32.ofNat data.length).toNat ≤ content.length := by
      rw [UInt32.toNat_ofNat']
      exact (Nat.mod_le _ _).trans hle
    have hlooks : ¬ Mutating squidFsOpRead := by decide
    refine ensures_bind.2 ((squidClientFsRead_attended hm₁.ready hm₁.capacity hpath
      fun reply server h => hreads _ _ maximumBytes hm₁.root hfile₁ hoffset _ _ h _ rfl).mono ?_)
    rintro x a₂ ⟨reply, client₂, hanswered, hresult⟩
    have hm₂ := hm₁.answered hcan hctx hanswered
    have hfs₂ : a₂.server.fs = a.server.fs :=
      (looks_fs (handleSquidFsRequest_looks turns context _ 255 hlooks) _ _ _
        (Exec.mono hcan hanswered.answer)).trans hfs₁
    cases hresult with
    | refused status hstatus hlive =>
      exact ensures_pure.2 ⟨none, client₂, rfl, hm₂, hfs₂, nofun, fun h => absurd h hlive⟩
    | part n hsize _ hn hprogress =>
      have hnat : (UInt32.ofNat data.length).toNat = data.length :=
        UInt32.toNat_ofNat_of_lt' (Nat.lt_of_le_of_lt hle hsize)
      have htotal : (UInt32.ofNat content.length).toNat = content.length :=
        UInt32.toNat_ofNat_of_lt' hsize
      have hpiece := take_append_piece htaken n
      rw [hnat] at hprogress ⊢
      dsimp only
      rw [if_neg (not_not.2 rfl), htotal]
      generalize hchunk : (content.drop data.length).take n = chunk at hpiece ⊢
      have hmost : (data ++ chunk).length ≤ content.length := by
        rw [← hchunk, List.length_append, List.length_take, List.length_drop]
        omega
      split
      · rename_i hall
        have hwhole : data ++ chunk = content := by
          rw [hpiece, List.take_of_length_le hall]
        exact ensures_pure.2 ⟨_, client₂, rfl, hm₂, hfs₂,
          fun got hgot => (Option.some.inj hgot).symm.trans hwhole, fun _ => by rw [hwhole]⟩
      · rename_i hmore
        rw [List.length_append] at hmore hmost
        split
        · rename_i hnone
          refine ensures_pure.2 ⟨none, client₂, rfl, hm₂, hfs₂, nofun, fun hlive => ?_⟩
          have hpos := hprogress hlive (by omega)
          have hlength := congrArg List.length (hchunk.trans hnone)
          rw [List.length_take, List.length_drop, List.length_nil] at hlength
          omega
        · rename_i hsome
          have hpos := List.length_pos_iff.2 hsome
          refine ensures_pure.2 ⟨hm₂, ?_, ?_, hpiece, hfs₂⟩
          · dsimp only
            rw [List.length_append]
            omega
          · dsimp only
            rw [List.length_append]
            exact hmost

theorem Moving.start {s : Session Kernel}
    (hs : s.Started port fun k => k.ino rootFd = some root) (hpacket : client.packet ≠ none)
    (hcapacity : client.packetCapacity = 255) (hfuel : 256 + s.stalls < fuel) :
    Moving fuel rootFd root client ⟨s.wire.plugin, [], s.stalls⟩ where
  ready := ⟨hpacket, Nat.le_of_eq hcapacity, rfl, hfuel⟩
  capacity := hcapacity
  root := hs.plugin

theorem faulty_answers (k : Kernel) (op : Syscalls.Op) : ∃ r k', faulty k op r k' :=
  ⟨_, _, .done op⟩

/-- A client that reads a file piece by piece gets the file, even where the host's reads stop
short, and the file stays as it is. -/
theorem file_downloaded {s : Session Kernel} (hport : port ∈ Runtime.pluginPorts)
    (hctx : context.rootFd = some rootFd) (hpath : ValidPath path.bytes)
    (hs : s.Started port fun k => k.ino rootFd = some root)
    (hfile : HasFile s.wire.plugin.fs root path.bytes content) (hsize : content.length < 2 ^ 32)
    (hrounds : content.length < rounds) (hpacket : client.packet ≠ none)
    (hcapacity : client.packetCapacity = 255) (hfuel : 256 + s.stalls < fuel) :
    Ensures (session port (handleSquidFsPacket turns context (steady True)) False epoch)
      (download fuel rounds path maximumBytes client) (fun x s' => x = some (some content) ∧
        s'.Settled port ∧ s'.wire.plugin.fs = s.wire.plugin.fs) s := by
  have hcan : ∀ k op r k', steady True k op r k' → k.Can op r k' := fun _ _ _ _ h =>
    Kernel.Keeps.can h
  have hanswering := transfer_answering root hcan (steady_answers True) hctx hpath turns
  refine (ensures_session hport hanswering (sends_download fuel rounds path maximumBytes client) hs
    (download_attended hctx hcan hpath (answersReads_steady hctx hpath hsize turns) hfile hrounds
      maximumBytes (Moving.start hs hpacket hcapacity hfuel))).mono ?_
  rintro x s' ⟨a, ⟨result, client', rfl, hm, hfs, -, hall⟩, hahead⟩
  obtain ⟨hsettled, hserver⟩ := hahead.settled hm.ready.unread
  rw [hall trivial, hserver]
  exact ⟨rfl, hsettled, hfs⟩

def linkedPath : CString := ⟨[0x66], by decide⟩

theorem linked_started : (resting Runtime.echoRuntime linkedKernel []).Started 1
    (fun k => k.ino 0 = some 1) := resting_started _ (linkedKernel_root 0 rfl)

theorem file_downloaded_f : ∃ s',
    Exec (session 1 (handleSquidFsPacket 1 ⟨some 0, false⟩ (steady True)) False 0)
      (resting Runtime.echoRuntime linkedKernel []) (download 257 4 linkedPath 0 pageClient) s'
      (some (some [1, 2, 3])) ∧ s'.Settled 1 := by
  have hrun : (linkedKernel.run (handleSquidFsRequest 1 ⟨some 0, false⟩
      (Operation.read 0 0 [0x66]).encode 255)).1 =
        some (readResponse squidFsOpRead 0 3 [1, 2, 3]) := by decide +kernel
  have hexec := exec_exchange 1 Runtime.echoRuntime (download 257 4 linkedPath 0 pageClient)
    (some (some [1, 2, 3]))
    (handleSquidFsPacket_run (H := steady True) (fun _ _ => .done _) hrun)
    ⟨by decide, by decide⟩ (by decide +kernel) (by decide +kernel) False []
  have hpath : ValidPath linkedPath.bytes := validPath_f
  have hfile : HasFile linkedKernel.fs 1 linkedPath.bytes [1, 2, 3] := linkedKernel_hasFile
  obtain ⟨-, hsettled, -⟩ := file_downloaded (by decide) rfl hpath linked_started hfile
    (by decide) (by decide) (by decide) rfl (by decide) _ _ hexec
  exact ⟨_, hexec, hsettled⟩

/-- Whatever the calls on the host come to, a client that writes a file piece by piece has done what
one WRITE of so many bytes would have done, as many as it has come to know; when it says that these
are all, the file has the data. -/
theorem file_uploaded {s : Session Kernel} (hport : port ∈ Runtime.pluginPorts)
    (hctx : context.rootFd = some rootFd) (hpath : ValidPath path.bytes)
    (hs : s.Started port fun k => k.ino rootFd = some root) (hdata : data.length < 2 ^ 32)
    (hsize : size < 256) (hfits : 8 + path.bytes.length + size ≤ 255)
    (hrounds : data.length < rounds) (hpacket : client.packet ≠ none)
    (hcapacity : client.packetCapacity = 255) (hfuel : 256 + s.stalls < fuel) :
    Ensures (session port (handleSquidFsPacket turns context faulty) False epoch)
      (upload fuel rounds path data size hsize client) (fun x s' => s'.Settled port ∧
        ∃ n ok, x = some (n, ok) ∧
          Uploaded s.wire.plugin.fs root path.bytes data n s'.wire.plugin.fs ∧
          (ok = true → n = data.length ∧ HasFile s'.wire.plugin.fs root path.bytes data ∧
            WriteEffect s.wire.plugin.fs root (wholeWrite path.bytes data) n s'.wire.plugin.fs))
      s := by
  have hanswering := transfer_answering root (fun _ _ _ _ h => h) faulty_answers hctx
    hpath turns
  refine (ensures_session hport hanswering
    (sends_upload hpath fuel rounds data size hsize client) hs
    (upload_attended hctx hpath hdata hsize hfits hrounds
      (Moving.start hs hpacket hcapacity hfuel))).mono ?_
  rintro x s' ⟨a, ⟨n, ok, client', rfl, hm, huploaded, hall⟩, hahead⟩
  obtain ⟨hsettled, hserver⟩ := hahead.settled hm.ready.unread
  rw [hserver]
  refine ⟨hsettled, n, ok, rfl, huploaded, fun hok => ?_⟩
  obtain ⟨rfl, heffect⟩ := hall hok
  exact ⟨rfl, heffect.whole, heffect⟩

def linkedWrite : List UInt8 := (Operation.write 0 (uploadFlags 0) [0x66] [7, 8]).encode

def linkedWritten : Kernel :=
  (linkedKernel.run (handleSquidFsRequest 1 ⟨some 0, false⟩ linkedWrite 255)).2

def linkedUploaded : Session Kernel :=
  resting (passed 1 Runtime.echoRuntime linkedWrite (writeOkResponse squidFsOpWrite 0 2))
    linkedWritten (passEvents 1 linkedWrite (writeOkResponse squidFsOpWrite 0 2))

theorem exec_upload_f :
    Exec (session 1 (handleSquidFsPacket 1 ⟨some 0, false⟩ faulty) False 0)
      (resting Runtime.echoRuntime linkedKernel [])
      (upload 257 3 linkedPath [7, 8] 200 (by decide) pageClient) linkedUploaded
      (some (2, true)) := by
  have hrun : (linkedKernel.run (handleSquidFsRequest 1 ⟨some 0, false⟩ linkedWrite 255)).1 =
      some (writeOkResponse squidFsOpWrite 0 2) := by decide +kernel
  exact exec_exchange 1 Runtime.echoRuntime _ _
    (handleSquidFsPacket_run (H := faulty) (fun _ _ => .done _) hrun)
    ⟨by decide, by decide⟩ (by decide +kernel) (by decide +kernel) False []

theorem file_uploaded_f : ∃ s',
    Exec (session 1 (handleSquidFsPacket 1 ⟨some 0, false⟩ faulty) False 0)
      (resting Runtime.echoRuntime linkedKernel [])
      (upload 257 3 linkedPath [7, 8] 200 (by decide) pageClient) s' (some (2, true)) ∧
    HasFile s'.wire.plugin.fs 1 [0x66] [7, 8] := by
  have hpath : ValidPath linkedPath.bytes := validPath_f
  obtain ⟨-, n, ok, ⟨⟩, -, hall⟩ := file_uploaded (by decide) rfl hpath linked_started
    (by decide) (by decide) (by decide) (by decide) (by decide) rfl (by decide) _ _ exec_upload_f
  exact ⟨_, exec_upload_f, (hall rfl).2.1⟩

/-- What a client has written as a whole and then reads is what it has written, whatever the calls
on the host come to. -/
theorem file_moved {s : Session Kernel} (hport : port ∈ Runtime.pluginPorts)
    (hctx : context.rootFd = some rootFd) (hpath : ValidPath path.bytes)
    (hs : s.Started port fun k => k.ino rootFd = some root) (hdata : data.length < 2 ^ 32)
    (hsize : size < 256) (hfits : 8 + path.bytes.length + size ≤ 255)
    (hrounds : data.length < rounds) (hclient : client.packet ≠ none)
    (hcapacity : client.packetCapacity = 255) (hreader : reader.packet ≠ none)
    (hcapacity' : reader.packetCapacity = 255) (hfuel : 256 + s.stalls < fuel) :
    Ensures (session port (handleSquidFsPacket turns context faulty) False epoch)
      (uploadAndDownload fuel rounds path data size hsize maximumBytes client reader)
      (fun x s' => s'.Settled port ∧ ∀ got, x = some got → got = data ∧
        HasFile s'.wire.plugin.fs root path.bytes data ∧
        WriteEffect s.wire.plugin.fs root (wholeWrite path.bytes data) data.length
          s'.wire.plugin.fs) s := by
  have hcan : ∀ k op r k', faulty k op r k' → k.Can op r k' := fun _ _ _ _ h => h
  have hanswering := transfer_answering root hcan faulty_answers hctx hpath turns
  have hsends : Calls (Sends (AsksTransfer path.bytes))
      (uploadAndDownload fuel rounds path data size hsize maximumBytes client reader) := by
    refine Calls.bind (sends_upload hpath fuel rounds data size hsize client) ?_
    rintro (_ | ⟨n, _ | _⟩)
    · exact .pure _
    · exact .pure _
    · exact Calls.bind (sends_download fuel rounds path maximumBytes reader) fun _ => .pure _
  have hattended : Ensures (attended (handleSquidFsPacket turns context faulty) False epoch)
      (uploadAndDownload fuel rounds path data size hsize maximumBytes client reader)
      (fun x a' => a'.unread = [] ∧ ∀ got, x = some got → got = data ∧
        HasFile a'.server.fs root path.bytes data ∧
        WriteEffect s.wire.plugin.fs root (wholeWrite path.bytes data) data.length a'.server.fs)
      ⟨s.wire.plugin, [], s.stalls⟩ := by
    refine ensures_bind.2 ((upload_attended hctx hpath hdata hsize hfits hrounds
      (Moving.start hs hclient hcapacity hfuel)).mono ?_)
    rintro _ a₁ ⟨n, ok, client₁, rfl, hm₁, -, hall⟩
    cases ok with
    | false => exact ensures_pure.2 ⟨hm₁.ready.unread, nofun⟩
    | true =>
      obtain ⟨rfl, heffect⟩ := hall rfl
      have hreading : Moving fuel rootFd root reader a₁ :=
        ⟨⟨hreader, Nat.le_of_eq hcapacity', hm₁.ready.unread, hm₁.ready.fuel⟩, hcapacity', hm₁.root⟩
      refine ensures_bind.2 ((download_attended hctx hcan hpath
        (answersReads_faulty hctx hpath turns) heffect.whole hrounds maximumBytes
        hreading).mono ?_)
      rintro _ a₂ ⟨result, client₂, rfl, hm₂, hfs, hgot, -⟩
      refine ensures_pure.2 ⟨hm₂.ready.unread, fun got hx => ?_⟩
      rw [hfs]
      exact ⟨hgot got hx, heffect.whole, heffect⟩
  refine (ensures_session hport hanswering hsends hs hattended).mono ?_
  rintro x s' ⟨a, ⟨hunread, hall⟩, hahead⟩
  obtain ⟨hsettled, hserver⟩ := hahead.settled hunread
  rw [hserver]
  exact ⟨hsettled, hall⟩

theorem file_moved_f : ∃ s',
    Exec (session 1 (handleSquidFsPacket 1 ⟨some 0, false⟩ faulty) False 0)
      (resting Runtime.echoRuntime linkedKernel [])
      (uploadAndDownload 257 3 linkedPath [7, 8] 200 (by decide) 0 pageClient pageClient) s'
      (some [7, 8]) ∧ HasFile s'.wire.plugin.fs 1 [0x66] [7, 8] := by
  have hrun : (linkedWritten.run (handleSquidFsRequest 1 ⟨some 0, false⟩
      (Operation.read 0 0 [0x66]).encode 255)).1 =
        some (readResponse squidFsOpRead 0 2 [7, 8]) := by decide +kernel
  obtain ⟨s', hdownload⟩ : ∃ s',
      Exec (session 1 (handleSquidFsPacket 1 ⟨some 0, false⟩ faulty) False 0) linkedUploaded
        (download 257 3 linkedPath 0 pageClient) s' (some (some [7, 8])) :=
    ⟨_, exec_exchange 1 _ _ _
      (handleSquidFsPacket_run (H := faulty) (fun _ _ => .done _) hrun)
      ⟨by decide, by decide⟩ (by decide +kernel) (by decide +kernel) False _⟩
  have hexec : Exec (session 1 (handleSquidFsPacket 1 ⟨some 0, false⟩ faulty) False 0)
      (resting Runtime.echoRuntime linkedKernel [])
      (uploadAndDownload 257 3 linkedPath [7, 8] 200 (by decide) 0 pageClient pageClient) s'
      (some [7, 8]) :=
    exec_bind.2 ⟨_, _, exec_upload_f, exec_bind.2 ⟨_, _, hdownload, .pure _ _⟩⟩
  have hpath : ValidPath linkedPath.bytes := validPath_f
  obtain ⟨-, hall⟩ := file_moved (by decide) rfl hpath linked_started (by decide) (by decide)
    (by decide) (by decide) (by decide) rfl (by decide) rfl (by decide) _ _ hexec
  exact ⟨_, hexec, (hall _ rfl).2.1⟩

end

end SquidServer.Filesystem

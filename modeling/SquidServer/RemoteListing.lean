import SquidServer.ClientFilesystem
import SquidServer.Cursors
import SquidServer.FilesystemRequests
import SquidServer.RemoteSequences

namespace SquidServer.Remote
open Interaction Client SquidServer.Runtime
set_option autoImplicit true

/-- The entries of a page, as its iterator shows them. -/
def collect (next : π → Int × Option ε × π) : Nat → π → Option (List ε)
  | 0, _ => none
  | n + 1, page =>
    match next page with
    | (result, entry, page) =>
      if result = 0 then some []
      else match entry with
        | some entry => if result = 1 then (collect next n page).map (entry :: ·) else none
        | none => none

theorem collect_yields {next : π → Int × Option ε × π} {items : List ε}
    (h : Yields next page items) (hfuel : items.length < fuel) :
    collect next fuel page = some items := by
  induction items generalizing page fuel with
  | nil =>
    cases fuel with
    | zero => exact absurd hfuel (Nat.not_lt_zero _)
    | succ n => exact if_pos h
  | cons item items ih =>
    cases fuel with
    | zero => exact absurd hfuel (Nat.not_lt_zero _)
    | succ n =>
      obtain ⟨page', hnext, hrest⟩ := h
      rw [collect, hnext]
      dsimp only
      rw [if_neg (by decide), if_pos rfl, ih hrest (Nat.lt_of_succ_lt_succ hfuel), Option.map_some]

/-- What a page that has been read says. -/
def pageAnswer (cursorEnd next : UInt16) (entries : List ε) : Paging.Answer ε :=
  ⟨entries, if next = cursorEnd then none else some next.toNat⟩

/-- A client asks for the page at a cursor, and reads it with the iterator. -/
def askPage (cursorEnd : UInt16)
    (call : SquidClient → UInt16 → Program ClientLib (Option (Returned π)))
    (next : π → Int × Option ε × π) (nextCursor : π → UInt16) (client : SquidClient)
    (cursor : Nat) : Program ClientLib (Option (Paging.Answer ε) × SquidClient) := do
  match ← call client (UInt16.ofNat cursor) with
  | some ⟨result, some page, some client⟩ =>
    if result = 0 then
      return ((collect next 256 page).map (pageAnswer cursorEnd (nextCursor page)), client)
    else return (none, client)
  | _ => return (none, client)

theorem sends_askPage {call : SquidClient → UInt16 → Program ClientLib (Option (Returned π))}
    {asks : List UInt8 → Prop} (h : ∀ client cursor, Calls (Sends asks) (call client cursor))
    (next : π → Int × Option ε × π) (nextCursor : π → UInt16) (fuel : Nat) (client : SquidClient) :
    Calls (Sends asks)
      (Paging.traverse (askPage cursorEnd call next nextCursor) fuel client) := by
  refine Calls.loop (fun r : Paging.Reader SquidClient ε =>
    Calls.bind (Calls.bind (h r.state _) ?_) ?_) fuel _
  · rintro (_ | ⟨result, _ | page, _ | client⟩)
    · exact .pure _
    · exact .pure _
    · exact .pure _
    · exact .pure _
    · dsimp only
      split <;> exact .pure _
  · rintro ⟨_ | answer, client⟩
    · exact .pure _
    · dsimp only
      split <;> exact .pure _

section
variable {σ : Type} {plugin : Plugin σ} {epoch : UInt8} {a : Attended σ} {I : σ → Prop}

theorem returned_ok {read : List UInt8 → Option α}
    (h : understand capacity opcode minimumSize read reply = (0, some value)) :
    some (Returned.mk (understand capacity opcode minimumSize read reply).1
      (understand capacity opcode minimumSize read reply).2 client) =
        some ⟨0, some value, client⟩ := by rw [h]

/-- A call that has come back with a page of the list. -/
structure PageTaken (I : σ → Prop) (fuel : Nat) (cursorEnd : UInt16)
    (next : π → Int × Option ε × π) (nextCursor : π → UInt16) (items : List (List ε))
    (cursor : Nat) (client : SquidClient) (page : π) (client' : SquidClient) (a' : Attended σ) :
    Prop where
  ready : Ready fuel client' a'
  same : SameClient client client'
  plugin : I a'.server
  entries : ∃ records, Yields next page records ∧ records.length < 256 ∧
    Paging.PageOf items cursor (pageAnswer cursorEnd (nextCursor page) records)

/-- If every call comes back with a page of the list, the client's loop ends with the whole of
it. -/
theorem traverse_attended
    {call : SquidClient → UInt16 → Program ClientLib (Option (Returned π))}
    {next : π → Int × Option ε × π} {nextCursor : π → UInt16} {items : List (List ε)}
    (hcall : ∀ client a cursor, client.packetCapacity = capacity → Ready fuel client a →
      I a.server → cursor = 0 ∨ cursor < items.length →
      Ensures (attended plugin False epoch) (call client (UInt16.ofNat cursor)) (fun x a' =>
        ∃ page client', x = some ⟨0, some page, some client'⟩ ∧ PageTaken I fuel cursorEnd
          next nextCursor items cursor client page client' a') a)
    (hcapacity : client.packetCapacity = capacity) (hready : Ready fuel client a)
    (hi : I a.server) (hpages : items.length < pages) :
    Ensures (attended plugin False epoch)
      (Paging.traverse (askPage cursorEnd call next nextCursor) pages client)
      (fun x a' => x = some (some items.flatten) ∧ a'.unread = [] ∧ I a'.server) a := by
  refine (Paging.traverse_keeps (fun client a => client.packetCapacity = capacity ∧
    Ready fuel client a ∧ I a.server) ?_ ⟨hcapacity, hready, hi⟩ hpages).mono ?_
  · rintro client₁ a₁ cursor ⟨hcapacity₁, hready₁, hi₁⟩ hcursor
    refine ensures_bind.2 ((hcall client₁ a₁ cursor hcapacity₁ hready₁ hi₁ hcursor).mono ?_)
    rintro _ a₂ ⟨page, client₂, rfl, htaken⟩
    obtain ⟨records, hyields, hcount, hpage⟩ := htaken.entries
    dsimp only
    rw [if_pos rfl, collect_yields hyields hcount]
    refine ensures_pure.2 ⟨⟨?_, htaken.ready, htaken.plugin⟩, _, rfl, hpage⟩
    exact htaken.same.capacity.trans hcapacity₁
  · rintro x a' ⟨hx, client', -, hready', hi'⟩
    exact ⟨hx, hready'.unread, hi'⟩

end

end SquidServer.Remote

namespace SquidServer.Filesystem
open Interaction Posix Wire CText Client Remote
set_option autoImplicit true

/-- `handle_squid_fs_packet` of a plugin that has been started, for any answers of the system
calls. -/
def handleSquidFsPacket (turns : Nat) (context : SquidFsContext) (H : Environment Syscalls τ) :
    Plugin τ := fun s request reply s' =>
  Exec H s (handleSquidFsRequest turns context request 255) s' (some reply)

theorem handleSquidFsPacket_kernel {k : Kernel} :
    handleSquidFsPacket turns context (answering Kernel.call) k request reply k' ↔
      k.run (handleSquidFsRequest turns context request 255) = (some reply, k') := exec_answering

theorem handleSquidFsPacket_run {k : Kernel} {H : Environment Syscalls Kernel}
    (hdone : ∀ k op, H k op (k.call op).1 (k.call op).2)
    (h : (k.run (handleSquidFsRequest turns context request 255)).1 = some reply) :
    handleSquidFsPacket turns context H k request reply
      (k.run (handleSquidFsRequest turns context request 255)).2 := by
  have hstep : ∀ s t op, s = t → ∃ s₁, H s op (t.call op).1 s₁ ∧ s₁ = (t.call op).2 := by
    rintro s _ op rfl
    exact ⟨_, hdone s op, rfl⟩
  obtain ⟨k', hexec, rfl⟩ := Program.exec_run Eq hstep
    (handleSquidFsRequest turns context request 255) (rfl : k = k)
  rw [handleSquidFsPacket, ← h]
  exact hexec

theorem length_listResponse (next : UInt16) (page : ListPage) :
    (listResponse squidFsOpList next page).length = 5 + page.records.length := by
  simp only [listResponse, writeU16, List.length_append, List.length_cons, List.length_nil]

theorem readU16_listResponse (next : UInt16) (page : ListPage) :
    readU16 (listResponse squidFsOpList next page) 2 = next := by
  rw [listResponse, List.append_assoc]
  exact readU16_writeU16 [_, _] next _

theorem length_listRequest (cursor : UInt16) (path : Name) :
    (listRequest cursor path).length = path.length + 4 := rfl

section
variable {k : Kernel} {root : Ino} {rootFd : Fd} {listing : List Listed}

theorem Listing.validPath (h : Listing context path listing root rootFd k) : ValidPath path := by
  obtain ⟨-, ⟨-, hfalse⟩ | hvalid⟩ := pathIsValid_spec h.valid
  · cases hfalse
  · exact hvalid

theorem Listing.run_end (h : Listing context path listing root rootFd k) (turns : Nat) :
    k.run (handleSquidFsRequest turns context (listRequest squidFsCursorEnd path) 255) =
      (writeResponse squidFsOpList .badRequest 255, k) := by
  obtain ⟨hpath, -⟩ := readPathRequest_listRequest squidFsCursorEnd h.valid
  have hrequest : listRequest squidFsCursorEnd path =
      squidFsOpList :: (listRequest squidFsCursorEnd path).tail := rfl
  rw [hrequest, handleSquidFsRequest_list h.exported (by decide), ← hrequest, handleList,
    if_neg (by rw [length_listRequest]; omega), hpath]
  dsimp only
  rw [if_pos (.inl (readU16_listRequest squidFsCursorEnd path))]
  rfl

theorem Listing.page (h : Listing context path listing root rootFd k) (hfits : Fits listing)
    (hsize : (entriesOf listing).length ≤ 65535) (hturns : listing.length < turns)
    (hcursor : cursor ≠ squidFsCursorEnd) :
    ∃ next page records k', k.run (handleSquidFsRequest turns context (listRequest cursor path)
        255) = (some (listResponse squidFsOpList next page), k') ∧
      Listing context path listing root rootFd k' ∧ Carries records page ∧
      Paging.PageOf ((entriesOf listing).map fun x => (recordOf x).toList) cursor.toNat
        (pageAnswer squidFsCursorEnd next records) := by
  obtain ⟨hreply, hnext⟩ := h.reply hcursor turns
  obtain ⟨answer, hanswer, hpage⟩ := listReply_pageOf hfits hsize hturns cursor
  obtain ⟨next, page, records, hrun, hcarries, -⟩ := listPage_fits cursor
    (⟨rfl, rfl, by simp, by simp⟩ : Carries [] ⟨0, 0, []⟩) (fun x => isEntry_of_mem) hfits
  have hok : listReply squidFsOpList cursor 255 turns (.ok listing) 0 = _ := listReply_ok hturns
  rw [hrun] at hok
  rw [hok, readListAnswer_page hcarries] at hanswer
  cases hanswer
  exact ⟨next, page, records, _, Prod.ext (hreply.trans hok) rfl, hnext, hcarries, hpage⟩

/-- What a client may ask a directory. -/
def AsksList (path : Name) (request : List UInt8) : Prop :=
  ∃ cursor, request = listRequest cursor path

theorem listing_answering (context : SquidFsContext) (root : Ino) (rootFd : Fd)
    (hvalid : ValidPath path) (hfits : Fits listing) (hsize : (entriesOf listing).length ≤ 65535)
    (hturns : listing.length < turns) :
    (handleSquidFsPacket turns context (answering Kernel.call)).Answering
      (Listing context path listing root rootFd) (AsksList path) where
  request := by
    rintro _ ⟨cursor, rfl⟩
    have := hvalid.length_le
    exact ⟨Nat.zero_lt_succ _, by rw [length_listRequest]; omega⟩
  total := by
    rintro k _ hk ⟨cursor, rfl⟩
    by_cases hcursor : cursor = squidFsCursorEnd
    · exact ⟨_, k, handleSquidFsPacket_kernel.2 (hcursor ▸ hk.run_end turns)⟩
    · obtain ⟨next, page, -, k', hrun, -⟩ := hk.page hfits hsize hturns hcursor
      exact ⟨_, k', handleSquidFsPacket_kernel.2 hrun⟩
  reply := by
    rintro k _ reply k' hk ⟨cursor, rfl⟩ hreply
    rw [handleSquidFsPacket_kernel] at hreply
    by_cases hcursor : cursor = squidFsCursorEnd
    · rw [hcursor, hk.run_end turns] at hreply
      cases hreply
      exact ⟨⟨by decide, by decide⟩, hk⟩
    · obtain ⟨next, page, records, k₁, hrun, hk₁, hcarries, -⟩ :=
        hk.page hfits hsize hturns hcursor
      rw [hrun] at hreply
      cases hreply
      have hroom := hcarries.room
      exact ⟨⟨by rw [length_listResponse]; omega, by rw [length_listResponse]; omega⟩, hk₁⟩

end

/-- The client's loop over the pages of a directory. -/
def readDirectory (fuel pages : Nat) (path : CString) (client : SquidClient) :
    Program ClientLib (Option (Option (List ListRecord))) :=
  Paging.traverse (askPage squidFsCursorEnd
    (fun client cursor => squidClientFsList fuel (some client) (some path) cursor true)
    squidClientFsListNext SquidClientFsList.nextCursor) pages client

section
variable {path : CString} {root : Ino} {rootFd : Fd} {listing : List Listed}

theorem sends_readDirectory (fuel pages : Nat) (path : CString) (client : SquidClient) :
    Calls (Sends (AsksList path.bytes)) (readDirectory fuel pages path client) :=
  sends_askPage (fun client cursor => sends_transact fuel (some client) _ _ _ _ _
    fun _ _ => ⟨cursor, rfl⟩) squidClientFsListNext _ pages client

theorem filesystemPathSize_nonneg (hvalid : ValidPath path.bytes) (allowEmpty : Bool) :
    0 ≤ filesystemPathSize (some path) allowEmpty := by
  have hlength : (textBytes (some path)).length ≤ squidFsPathMax := hvalid.size.2
  have hpos : 0 < (textBytes (some path)).length := hvalid.size.1
  have hsize : squidClientTextSize (some path) squidFsPathMax = (textBytes (some path)).length :=
    if_neg (Nat.not_lt.2 hlength)
  rw [filesystemPathSize, hsize]
  rw [if_neg (by omega)]
  omega

theorem cursor_of_lt (h : cursor < 65535) :
    (UInt16.ofNat cursor).toNat = cursor ∧ UInt16.ofNat cursor ≠ squidFsCursorEnd := by
  have hnat : (UInt16.ofNat cursor).toNat = cursor :=
    UInt16.toNat_ofNat_of_lt' (show cursor < 65536 by omega)
  refine ⟨hnat, fun he => ?_⟩
  rw [he] at hnat
  have hend : squidFsCursorEnd.toNat = 65535 := rfl
  omega

theorem squidClientFsList_attended {a : Attended Kernel} (hready : Ready fuel client a)
    (hcapacity : client.packetCapacity = 255)
    (h : Listing context path.bytes listing root rootFd a.server) (hfits : Fits listing)
    (hsize : (entriesOf listing).length ≤ 65535) (hturns : listing.length < turns)
    (hlt : cursor < 65535) :
    Ensures (attended (handleSquidFsPacket turns context (answering Kernel.call)) False epoch)
      (squidClientFsList fuel (some client) (some path) (UInt16.ofNat cursor) true) (fun x a' =>
        ∃ page client', x = some ⟨0, some page, some client'⟩ ∧
          PageTaken (Listing context path.bytes listing root rootFd) fuel squidFsCursorEnd
            squidClientFsListNext SquidClientFsList.nextCursor
            ((entriesOf listing).map fun x => (recordOf x).toList) cursor client page client'
            a') a := by
  obtain ⟨hnat, hcursor⟩ := cursor_of_lt hlt
  have hanswering := listing_answering context root rootFd h.validPath hfits hsize hturns
  have hlength := (hanswering.request _ ⟨UInt16.ofNat cursor, rfl⟩).2
  refine (transact_attended hready
    (decide_eq_true ⟨rfl, filesystemPathSize_nonneg h.validPath true⟩) squidFsOpList _ 5 _
    (hcapacity ▸ hlength) ?_).mono ?_
  · intro reply server hreply
    exact (hanswering.reply _ _ _ _ h ⟨UInt16.ofNat cursor, rfl⟩ hreply).1
  · rintro x a' ⟨reply, client', hanswered, rfl⟩
    obtain ⟨next, page, records, k, hrun, hlisting, hcarries, hpage⟩ :=
      h.page hfits hsize hturns hcursor
    rw [hnat] at hpage
    have hanswer : a.server.run (handleSquidFsRequest turns context
        (listRequest (UInt16.ofNat cursor) path.bytes) 255) = (some reply, a'.server) :=
      handleSquidFsPacket_kernel.1 hanswered.answer
    rw [hrun, Prod.mk.injEq, Option.some.injEq] at hanswer
    obtain ⟨rfl, rfl⟩ := hanswer
    have hreply := length_listResponse next page
    have hroom := hcarries.room
    have hcount := hcarries.length_le
    refine ⟨⟨next, page.entryCount, page.records⟩, client',
      returned_ok (understand_ok (by omega) rfl (by omega) ?_), hanswered.ready hready,
      hanswered.same, hlisting, records, yields_records next hcarries, by omega, hpage⟩
    exact congrArg (fun cursor => some (SquidClientFsList.mk cursor _ _))
      (readU16_listResponse next page)

/-- A client that asks for the pages of a directory, while the server goes through its loop, sees
every entry of the directory once and in order, whatever becomes of the byte streams on the way. -/
theorem directory_listed {s : Session Kernel} (hport : port ∈ Runtime.pluginPorts)
    (hs : s.Started port (Listing context path.bytes listing root rootFd))
    (hfits : Fits listing) (hsize : (entriesOf listing).length ≤ 65535)
    (hturns : listing.length < turns) (hpages : (entriesOf listing).length < pages)
    (hpacket : client.packet ≠ none) (hcapacity : client.packetCapacity = 255)
    (hfuel : 256 + s.stalls < fuel) :
    Ensures (session port (handleSquidFsPacket turns context (answering Kernel.call)) False epoch)
      (readDirectory fuel pages path client) (fun x s' => s'.Settled port ∧
        ∃ records, x = some (some records) ∧
          List.Forall₂ (fun x record => record.name = x.1 ∧
            ∃ information, x.2 = .ok information ∧ DescribesEntry information record)
            (entriesOf listing) records) s := by
  have hready : Ready fuel client (⟨s.wire.plugin, [], s.stalls⟩ : Attended Kernel) :=
    ⟨hpacket, Nat.le_of_eq hcapacity, rfl, hfuel⟩
  have hanswering := listing_answering context root rootFd hs.plugin.validPath hfits hsize hturns
  refine (ensures_session hport hanswering (sends_readDirectory fuel pages path client) hs
    (traverse_attended ?_ hcapacity hready hs.plugin
      (show ((entriesOf listing).map fun x => (recordOf x).toList).length < pages by
        rwa [List.length_map]))).mono ?_
  · intro client₁ a₁ cursor hcapacity₁ hready₁ hlisting hcursor
    rw [List.length_map] at hcursor
    exact squidClientFsList_attended hready₁ hcapacity₁ hlisting hfits hsize hturns (by omega)
  · rintro x s' ⟨a, ⟨rfl, hunread, -⟩, hahead⟩
    exact ⟨(hahead.settled hunread).1, _, rfl, records_describe fun x hx => (hfits x hx).2⟩

end

def pageClient : SquidClient where
  packet := some (List.replicate 256 0)
  packetCapacity := 255
  idle := false
  room := by
    intro workspace hmem
    cases hmem
    rw [List.length_replicate]
    decide

def shelfPath : CString := ⟨[0x64], by decide⟩

/-- The names of two files, whose records fit one page. -/
def pageNames : List Name := [dot, [0x66], dotdot, [0x67, 0x68]]

theorem isComponent_page : ∀ name ∈ pageNames, IsComponent name := by decide

def pageReply : List UInt8 :=
  [0x82, 0, 0xFF, 0xFF, 2] ++ [1, 1, 0x66, 0, 0, 0, 0] ++ [1, 2, 0x67, 0x68, 0, 0, 0, 0]

theorem directory_listed_page : ∃ s' x,
    Exec (session 1 (handleSquidFsPacket 5 ⟨some 0, false⟩ (answering Kernel.call)) False 0)
      (resting Runtime.echoRuntime (shelfKernel pageNames isComponent_page) [])
      (readDirectory 257 3 shelfPath pageClient) s' x ∧
    s'.Settled 1 ∧ ∃ records, x = some (some records) ∧
      records.map (·.name) = [[0x66], [0x67, 0x68]] := by
  have hlisting := shelfKernel_listing isComponent_page
  have hfits : Fits (pageNames.map fun name => (name, .ok shelfStat)) := fits_shelf (by decide)
  have hrun : ((shelfKernel pageNames isComponent_page).run
      (handleSquidFsRequest 5 ⟨some 0, false⟩ (listRequest 0 [0x64]) 255)).1 = some pageReply := by
    decide +kernel
  have hexec := exec_exchange 1 Runtime.echoRuntime (readDirectory 257 3 shelfPath pageClient)
    (some (some [⟨1, [0x66], 0⟩, ⟨1, [0x67, 0x68], 0⟩]))
    (handleSquidFsPacket_run (H := answering Kernel.call) (fun _ _ => rfl) hrun)
    ⟨by decide, by decide⟩ (by decide +kernel) (by decide +kernel) False []
  obtain ⟨hsettled, records, hx, hall⟩ := directory_listed (by decide)
    (resting_started _ hlisting) hfits (by decide) (by decide) (by decide) (by decide) rfl
    (by decide) _ _ hexec
  exact ⟨_, _, hexec, hsettled, records, hx, names_of_records hall⟩

end SquidServer.Filesystem

import Mathlib.Data.List.Basic
import Mathlib.Algebra.Ring.Nat
import SquidServer.FilesystemTraversal
import SquidServer.RetroVaultTraversal

namespace SquidServer
open Interaction Posix Wire Filesystem
set_option autoImplicit true

/-- What the cursor of a page may say: it is ahead of the cursor that was asked for, or it is the
end and the page has every record from there on. -/
def AheadOrDone (items : List (Option ρ)) (cursor : UInt16) (answer : Paging.Answer ρ) : Prop :=
  match answer.next with
  | some n => cursor.toNat < n ∧ n < 0xFFFF
  | none => answer.entries.map some = items.drop cursor.toNat

/-- The status byte of a reply is zero. -/
def RepliesOk (response : Response) : Prop := response.bind (·[1]?) = some 0

instance : DecidablePred RepliesOk := fun response =>
  inferInstanceAs (Decidable (response.bind (·[1]?) = some 0))

/-- Every OK reply to an INFO request for the package has a sound cursor. -/
def InfoCursorsSound (package : RetroVault.RetroVaultPackage) : Prop :=
  ∀ cursor : UInt16,
    RepliesOk (RetroVault.writeInfoPage RetroVault.retroVaultOpInfo package cursor 255) →
    ∃ answer, RetroVault.readInfoAnswer
        (RetroVault.writeInfoPage RetroVault.retroVaultOpInfo package cursor 255) = some answer ∧
      AheadOrDone ((RetroVault.infoRecords package).map some) cursor answer

section
open RetroVault

theorem infoCursorsSound_of_le (h : package.downloads.length ≤ 65526) :
    InfoCursorsSound package := by
  intro cursor hok
  have hcursor : cursor.toNat ≤ 9 + package.downloads.length := by
    by_contra hlt
    rw [writeInfoPage, if_pos (.inr (Nat.lt_of_not_le hlt))] at hok
    exact absurd hok (by decide)
  obtain ⟨answer, hread, hpage⟩ := writeInfoPage_pageOf cursor h hcursor
  refine ⟨answer, hread, ?_⟩
  rw [Paging.PageOf] at hpage
  rw [AheadOrDone]
  cases hnext : answer.next with
  | none =>
    rw [hnext] at hpage
    dsimp only at hpage ⊢
    rw [hpage, ← List.map_drop, ← List.flatMap_def, List.flatMap_singleton', List.map_drop]
  | some n =>
    rw [hnext] at hpage
    obtain ⟨hlt, hinside, -⟩ := hpage
    rw [List.length_map, length_infoRecords] at hinside
    exact ⟨hlt, by omega⟩

/-- The page at cursor 65534 of a package with more records than cursors: it ends with the last
cursor, or it goes on with the records from the first one. -/
theorem not_infoCursorsSound (h : 65526 < package.downloads.length) :
    ¬ InfoCursorsSound package := by
  intro hsound
  obtain ⟨next, page, records, hrun, hholds, hstop⟩ := infoPage_start package 65534
  have hindex := page.index.toNat_lt
  have hcursor : (65534 : UInt16).toNat = 65534 := rfl
  have hpage : writeInfoPage retroVaultOpInfo package 65534 255 =
      some (pageResponse retroVaultOpInfo next page) := by
    rw [writeInfoPage, if_neg (not_or.2 ⟨by decide, by omega⟩), hrun]
    rfl
  rcases hstop with ⟨-, hend⟩ | ⟨rfl, -, hne⟩
  · omega
  · obtain ⟨answer, hread, hahead⟩ := hsound 65534 (by rw [hpage]; rfl)
    rw [hpage, readInfoAnswer_pageResponse hholds] at hread
    cases hread
    have hcount := hholds.count_le
    have hpos := List.length_pos_iff.2 hne
    have hvalue : page.index.toNat = (65534 + records.length) % 65536 := by
      rw [hholds.index, UInt16.toNat_add, UInt16.toNat_ofNat', hcursor]
      omega
    rw [AheadOrDone] at hahead
    dsimp only at hahead
    split at hahead
    · rename_i n hn
      split at hn
      · cases hn
      · cases hn
        omega
    · have hlength := congrArg List.length hahead
      rw [List.length_map, List.length_drop, List.length_map, length_infoRecords] at hlength
      rename_i hn
      split at hn
      · rename_i hend
        rw [hend] at hvalue
        have : retroVaultCursorEnd.toNat = 65535 := rfl
        omega
      · cases hn

end

/-- Every OK reply to a LIST request for a directory with the given names has a sound cursor,
whatever the names stand for. -/
def ListCursorsSound (names : List Name) : Prop :=
  ∀ context path listing root rootFd k cursor fuel, Listing context path listing root rootFd k →
    listing.map Prod.fst = names → listing.length < fuel →
    RepliesOk (k.run (handleSquidFsRequest fuel context (listRequest cursor path) 255)).1 →
    ∃ answer, readListAnswer
        (k.run (handleSquidFsRequest fuel context (listRequest cursor path) 255)).1 = some answer ∧
      AheadOrDone ((entriesOf listing).map recordOf) cursor answer

/-- The names of a directory besides `.` and `..`. -/
def entryNames (names : List Name) : List Name :=
  names.filter fun name => ¬ (name = dot ∨ name = dotdot)

/-- The room that the records of the names take. -/
def recordsSize (names : List Name) : Nat := (names.map fun name => 6 + name.length).sum

/-- The cursors are enough for the entries: there are at most 65535; or there is one more, and
whenever the 65535 others that are left fit a page it fits that page too. -/
def CursorsSuffice (names : List Name) : Prop :=
  (entryNames names).length ≤ 65535 ∨
    (entryNames names).length = 65536 ∧ ∀ c ≤ 65534,
      recordsSize (((entryNames names).take 65535).drop c) ≤ 250 →
      recordsSize ((entryNames names).drop c) ≤ 250

theorem map_fst_entriesOf (listing : List Listed) :
    (entriesOf listing).map Prod.fst = entryNames (listing.map Prod.fst) := by
  rw [entriesOf, entryNames, List.filter_map]
  rfl

theorem length_records {l : List Listed} (h : Carries records page)
    (hrecords : records.map some = l.map recordOf) :
    page.records.length = recordsSize (l.map Prod.fst) := by
  rw [h.bytes, recordsSize]
  clear h
  induction l generalizing records with
  | nil =>
    rw [List.map_nil, List.map_eq_nil_iff] at hrecords
    rw [hrecords]
    rfl
  | cons x l ih =>
    cases records with
    | nil => cases hrecords
    | cons r records =>
      rw [List.map_cons, List.map_cons, List.cons.injEq] at hrecords
      rw [List.flatMap_cons, List.length_append, ih hrecords.2, r.length_bytes,
        recordOf_name hrecords.1.symm, List.map_cons, List.map_cons, List.sum_cons]

theorem recordsSize_append (a b : List Name) :
    recordsSize (a ++ b) = recordsSize a + recordsSize b := by
  rw [recordsSize, List.map_append, List.sum_append]
  rfl

theorem recordsSize_single (h : recordOf x = some record) :
    recordsSize ([x].map Prod.fst) = record.bytes.length := by
  rw [record.length_bytes, recordOf_name h]
  rfl

theorem readListAnswer_page (h : Carries records page) (next : UInt16) :
    readListAnswer (some (listResponse squidFsOpList next page)) =
      some ⟨records, if next = squidFsCursorEnd then none else some next.toNat⟩ := by
  rw [readListAnswer, readListPage_listResponse h]
  rfl

theorem not_repliesOk_error (status : SquidFsStatus) (h : status ≠ .ok) :
    ¬ RepliesOk (writeResponse squidFsOpList status 255) := by
  cases status with
  | ok => exact absurd rfl h
  | _ => decide

theorem Listing.reply_end (h : Listing context path listing root rootFd k) (fuel : Nat) :
    (k.run (handleSquidFsRequest fuel context (listRequest squidFsCursorEnd path) 255)).1 =
      writeResponse squidFsOpList .badRequest 255 := by
  obtain ⟨-, hne⟩ := readPathRequest_listRequest squidFsCursorEnd h.valid
  have hother : ¬ ListsRoot (listRequest squidFsCursorEnd path) := by
    intro hroot
    exact hroot.2 (readU16_listRequest squidFsCursorEnd path)
  have hrequest : listRequest squidFsCursorEnd path =
      squidFsOpList :: (listRequest squidFsCursorEnd path).tail := rfl
  rw [hrequest, handleSquidFsRequest_list h.exported (by decide), ← hrequest,
    handleList_reply h.exported h.opened hother,
    if_pos (.inr (.inl (readU16_listRequest squidFsCursorEnd path)))]

/-- The page that the loop comes to has a sound cursor. -/
def PageIsSound (entries : List Listed) (cursor : UInt16) : Prop :=
  match listPage cursor 255 entries ⟨0, 0, []⟩ with
  | .error status => status ≠ .ok
  | .ok (next, page) => ∃ records, Carries records page ∧ AheadOrDone (entries.map recordOf) cursor
      ⟨records, if next = squidFsCursorEnd then none else some next.toNat⟩

theorem Listing.sound (h : Listing context path listing root rootFd k)
    (hfuel : listing.length < fuel)
    (hsound : cursor ≠ squidFsCursorEnd → PageIsSound (entriesOf listing) cursor)
    (hok : RepliesOk (k.run (handleSquidFsRequest fuel context (listRequest cursor path) 255)).1) :
    ∃ answer, readListAnswer
        (k.run (handleSquidFsRequest fuel context (listRequest cursor path) 255)).1 = some answer ∧
      AheadOrDone ((entriesOf listing).map recordOf) cursor answer := by
  by_cases hcursor : cursor = squidFsCursorEnd
  · subst hcursor
    rw [Listing.reply_end h] at hok
    exact absurd hok (not_repliesOk_error _ (by decide))
  · have hpage := hsound hcursor
    rw [PageIsSound] at hpage
    rw [(h.reply hcursor fuel).1, listReply_ok hfuel] at hok ⊢
    cases hresult : listPage cursor 255 (entriesOf listing) ⟨0, 0, []⟩ with
    | error status =>
      rw [hresult] at hpage hok
      exact absurd hok (not_repliesOk_error status hpage)
    | ok result =>
      obtain ⟨next, page⟩ := result
      rw [hresult] at hpage
      obtain ⟨records, hcarries, hahead⟩ := hpage
      exact ⟨_, readListAnswer_page hcarries next, hahead⟩

section
variable {entries : List Listed} {cursor : UInt16}

theorem pageIsSound_or_passes (hentries : ∀ x ∈ entries, isEntry x = true) (cursor : UInt16) :
    PageIsSound entries cursor ∨ ∃ page,
      listPage cursor 255 entries ⟨0, 0, []⟩ = listPage cursor 255 (entries.drop 65535) page ∧
      ListHolds cursor (entries.take 65535) page := by
  have hgoes := listPage_goes (listHolds_start cursor)
    (fun x hx => hentries x (List.mem_of_mem_take hx))
    (show [].length + (entries.take 65535).length ≤ 65535 by
      rw [List.length_take, List.length_nil]
      omega) (entries.drop 65535)
  have hsplit : entries.take 65535 ++ entries.drop 65535 = entries := List.take_append_drop _ _
  rcases hgoes with ⟨hrun, hstatus, -, -⟩ | ⟨htaken, hrun, hholds, hlt, -, -⟩ | ⟨hrun, hholds⟩
  · refine .inl ?_
    rw [hsplit] at hrun
    rw [PageIsSound, hrun]
    exact hstatus
  · refine .inl ?_
    rename_i taken x rest page' record
    rw [hsplit] at hrun
    rw [List.nil_append] at hholds hlt
    obtain ⟨hindex, records, hcarries, -⟩ := hholds
    have hlength : taken.length < 65535 := by
      have := congrArg List.length htaken
      rw [List.length_take, List.length_append, List.length_cons] at this
      omega
    have hmore : page'.entryIndex ≠ squidFsCursorEnd := by
      intro he
      rw [he] at hindex
      have hend : squidFsCursorEnd.toNat = 65535 := rfl
      omega
    rw [PageIsSound, hrun]
    refine ⟨records, hcarries, ?_⟩
    rw [if_neg hmore, AheadOrDone]
    dsimp only
    omega
  · refine .inr ?_
    rename_i page'
    rw [hsplit] at hrun
    rw [List.nil_append] at hholds
    exact ⟨page', hrun, hholds⟩

theorem pageIsSound_of_le (hentries : ∀ x ∈ entries, isEntry x = true)
    (hsize : entries.length ≤ 65535) (cursor : UInt16) : PageIsSound entries cursor := by
  rcases pageIsSound_or_passes hentries cursor with hsound | ⟨page, hrun, hholds⟩
  · exact hsound
  · rw [List.drop_eq_nil_of_le hsize, listPage] at hrun
    rw [List.take_of_length_le hsize] at hholds
    obtain ⟨-, records, hcarries, hrecords⟩ := hholds
    rw [PageIsSound, hrun]
    refine ⟨records, hcarries, ?_⟩
    rw [if_pos rfl, AheadOrDone]
    dsimp only
    rw [hrecords, List.map_drop]

/-- One more entry than there are cursors: it must fit the page that comes to it. -/
theorem pageIsSound_of_fits (hentries : ∀ x ∈ entries, isEntry x = true)
    (hsize : entries.length = 65536)
    (hlast : recordsSize (((entries.take 65535).drop cursor.toNat).map Prod.fst) ≤ 250 →
      recordsSize ((entries.drop cursor.toNat).map Prod.fst) ≤ 250) :
    PageIsSound entries cursor := by
  rcases pageIsSound_or_passes hentries cursor with hsound | ⟨page, hrun, hindex, records, hpage⟩
  · exact hsound
  · obtain ⟨hcarries, hrecords⟩ := hpage
    obtain ⟨x, hx⟩ := List.length_eq_one_iff.1 (show (entries.drop 65535).length = 1 by
      rw [List.length_drop, hsize])
    have hentry : isEntry x = true := hentries x (List.mem_of_mem_drop (by
      rw [hx]
      exact List.mem_singleton_self x))
    have hle : cursor.toNat ≤ 65535 := by
      have := cursor.toNat_lt
      omega
    have hsplit : entries.drop cursor.toNat = (entries.take 65535).drop cursor.toNat ++ [x] := by
      rw [← hx, ← List.drop_append_of_le_length (by rw [List.length_take]; omega),
        List.take_append_drop]
    have hroom := length_records hcarries hrecords
    have hturn := listTurn_turn hentry hcarries cursor
    rw [List.length_take, hsize] at hindex
    rw [PageIsSound, hrun, hx, listPage]
    generalize listTurn cursor 255 page x = result at hturn ⊢
    cases hturn with
    | skip hskip =>
      have := UInt16.lt_iff_toNat_lt.1 hskip
      omega
    | fail _ _ hstatus => exact hstatus
    | @push record _ hrecord hname hfits =>
      refine ⟨_, hcarries.push hname hfits, ?_⟩
      rw [if_pos rfl, AheadOrDone]
      dsimp only
      rw [List.map_append, hrecords, ← List.map_drop, hsplit, List.map_append, List.map_singleton,
        List.map_singleton, hrecord]
    | @stop record _ _ hrecord hfull =>
      have hbound := hlast (hroom ▸ hcarries.room)
      rw [hsplit, List.map_append, recordsSize_append, ← hroom] at hbound
      have hone := recordsSize_single hrecord
      omega

theorem passes_of_fits (hentries : ∀ x ∈ entries, isEntry x = true)
    (hfits : ∀ x ∈ entries, EntryFits x)
    (hroom : recordsSize (((entries.take 65535).drop cursor.toNat).map Prod.fst) ≤ 250) :
    ∃ page,
      listPage cursor 255 entries ⟨0, 0, []⟩ = listPage cursor 255 (entries.drop 65535) page ∧
      ListHolds cursor (entries.take 65535) page := by
  have hgoes := listPage_goes (listHolds_start cursor)
    (fun x hx => hentries x (List.mem_of_mem_take hx))
    (show [].length + (entries.take 65535).length ≤ 65535 by
      rw [List.length_take, List.length_nil]
      omega) (entries.drop 65535)
  have hsplit : entries.take 65535 ++ entries.drop 65535 = entries := List.take_append_drop _ _
  rcases hgoes with ⟨-, -, hx, hbad⟩ | ⟨htaken, -, hholds, hlt, hrecord, hfull⟩ | ⟨hrun, hholds⟩
  · exact absurd hbad (hfits _ (List.mem_of_mem_take hx)).not_bad
  · rename_i taken x rest page' record
    rw [List.nil_append] at hholds hlt
    obtain ⟨-, records, hcarries, hrecords⟩ := hholds
    rw [htaken, List.drop_append_of_le_length (Nat.le_of_lt hlt), List.map_append,
      recordsSize_append, ← length_records hcarries hrecords] at hroom
    have hone : record.bytes.length ≤ recordsSize ((x :: rest).map Prod.fst) := by
      rw [record.length_bytes, recordOf_name hrecord, recordsSize, List.map_cons, List.map_cons,
        List.sum_cons]
      omega
    omega
  · rename_i page'
    rw [hsplit] at hrun
    rw [List.nil_append] at hholds
    exact ⟨page', hrun, hholds⟩

theorem Carries.length_eq (h : Carries records page) (h' : Carries records' page) :
    records.length = records'.length := h.count.symm.trans h'.count

theorem not_pageIsSound_of_short (hrun : listPage cursor 255 entries ⟨0, 0, []⟩ = .ok (next, page))
    (hcarries : Carries records page) (hshort : records.length < entries.length - cursor.toNat)
    (hnext : next = squidFsCursorEnd ∨ next.toNat ≤ cursor.toNat) :
    ¬ PageIsSound entries cursor := by
  intro hsound
  rw [PageIsSound, hrun] at hsound
  obtain ⟨records', hcarries', hahead⟩ := hsound
  have hlength := Carries.length_eq hcarries hcarries'
  rw [AheadOrDone] at hahead
  dsimp only at hahead
  by_cases hend : next = squidFsCursorEnd
  · rw [if_pos hend] at hahead
    dsimp only at hahead
    have hall := congrArg List.length hahead
    rw [List.length_map, List.length_drop, List.length_map] at hall
    omega
  · rw [if_neg hend] at hahead
    dsimp only at hahead
    have := hnext.resolve_left hend
    omega

theorem not_pageIsSound_of_last (hentries : ∀ x ∈ entries, isEntry x = true)
    (hfits : ∀ x ∈ entries, EntryFits x)
    (hsize : entries.length = 65536) (hcursor : cursor.toNat ≤ 65534)
    (hroom : recordsSize (((entries.take 65535).drop cursor.toNat).map Prod.fst) ≤ 250)
    (hfull : 250 < recordsSize ((entries.drop cursor.toNat).map Prod.fst)) :
    ¬ PageIsSound entries cursor := by
  obtain ⟨page, hrun, hindex, records, hcarries, hrecords⟩ :=
    passes_of_fits hentries hfits hroom
  obtain ⟨x, hx⟩ := List.length_eq_one_iff.1 (show (entries.drop 65535).length = 1 by
    rw [List.length_drop, hsize])
  have hmem : x ∈ entries := List.mem_of_mem_drop (by
    rw [hx]
    exact List.mem_singleton_self x)
  have hsplit : entries.drop cursor.toNat = (entries.take 65535).drop cursor.toNat ++ [x] := by
    rw [← hx, ← List.drop_append_of_le_length (by rw [List.length_take]; omega),
      List.take_append_drop]
  rw [hsplit, List.map_append, recordsSize_append, ← length_records hcarries hrecords] at hfull
  have hlength := congrArg List.length hrecords
  rw [List.length_map, List.length_map, List.length_drop, List.length_take, hsize] at hlength
  rw [List.length_take, hsize] at hindex
  have hturn := listTurn_turn (hentries x hmem) hcarries cursor
  rw [hx, listPage] at hrun
  generalize listTurn cursor 255 page x = result at hturn hrun
  cases hturn with
  | skip hskip =>
    have := UInt16.lt_iff_toNat_lt.1 hskip
    omega
  | fail _ hbad _ => exact absurd hbad (hfits x hmem).not_bad
  | @push record _ hrecord hname hpush =>
    have hone := recordsSize_single hrecord
    omega
  | stop _ _ hrecord hstop =>
    refine not_pageIsSound_of_short hrun hcarries (by omega) (.inl ?_)
    apply UInt16.toNat_inj.1
    rw [hindex]
    rfl

/-- Where the metadata of every entry can be read, the loop comes to a page; a cursor that it
leaves there is not below the one that was asked for. -/
theorem listPage_fits (cursor : UInt16) (h : Carries records page)
    (hentries : ∀ x ∈ entries, isEntry x = true)
    (hfits : ∀ x ∈ entries, EntryFits x) :
    ∃ next page' records', listPage cursor 255 entries page = .ok (next, page') ∧
      Carries records' page' ∧ records'.length ≤ records.length + entries.length ∧
      (next = squidFsCursorEnd ∨ cursor.toNat ≤ next.toNat) := by
  induction entries generalizing records page with
  | nil => exact ⟨_, page, records, rfl, h, Nat.le_refl _, .inl rfl⟩
  | cons x rest ih =>
    have hrest : ∀ y ∈ rest, isEntry y = true := fun y hy => hentries y (List.mem_cons_of_mem x hy)
    have hfits' := fun y (hy : y ∈ rest) => hfits y (List.mem_cons_of_mem x hy)
    have hturn := listTurn_turn (hentries x List.mem_cons_self) h cursor
    rw [listPage, List.length_cons]
    generalize listTurn cursor 255 page x = result at hturn ⊢
    cases hturn with
    | skip _ =>
      obtain ⟨next, page', records', hrun, hcarries, hlength, hnext⟩ := ih h.skip hrest hfits'
      exact ⟨next, page', records', hrun, hcarries, by omega, hnext⟩
    | push _ _ hname hroom =>
      obtain ⟨next, page', records', hrun, hcarries, hlength, hnext⟩ :=
        ih (h.push hname hroom) hrest hfits'
      rw [List.length_append, List.length_singleton] at hlength
      exact ⟨next, page', records', hrun, hcarries, by omega, hnext⟩
    | fail _ hbad _ => exact absurd hbad (hfits x List.mem_cons_self).not_bad
    | stop hcursor _ _ _ =>
      rw [UInt16.lt_iff_toNat_lt] at hcursor
      exact ⟨page.entryIndex, page, records, rfl, h, by omega, .inr (by omega)⟩

theorem drop_two {l : List α} (h : n + 1 < l.length) : ∃ x y rest, l.drop n = x :: y :: rest :=
  ⟨_, _, _, by rw [List.drop_eq_getElem_cons (Nat.lt_of_succ_lt h), List.drop_eq_getElem_cons h]⟩

/-- With two entries more than there are cursors, the page at cursor 65534 loses the second. -/
theorem not_pageIsSound_of_lt (hentries : ∀ x ∈ entries, isEntry x = true)
    (hfits : ∀ x ∈ entries, EntryFits x)
    (hsize : 65536 < entries.length) : ¬ PageIsSound entries 65534 := by
  have hcursor : (65534 : UInt16).toNat = 65534 := rfl
  have hroom : recordsSize (((entries.take 65535).drop (65534 : UInt16).toNat).map Prod.fst) ≤
      250 := by
    obtain ⟨x, hx⟩ := List.length_eq_one_iff.1
      (show ((entries.take 65535).drop (65534 : UInt16).toNat).length = 1 by
        rw [List.length_drop, List.length_take, hcursor]
        omega)
    have hmem : x ∈ entries := List.mem_of_mem_take (List.mem_of_mem_drop (by
      rw [hx]
      exact List.mem_singleton_self x))
    have hname := (hfits x hmem).1
    rw [hx]
    simp only [recordsSize, List.map_cons, List.map_nil, List.sum_cons, List.sum_nil]
    omega
  obtain ⟨page, hrun, hindex, records, hcarries, hrecords⟩ := passes_of_fits hentries hfits hroom
  have hlength := congrArg List.length hrecords
  rw [List.length_map, List.length_map, List.length_drop, List.length_take, hcursor] at hlength
  rw [List.length_take, Nat.min_eq_left (by omega)] at hindex
  obtain ⟨x, y, rest, hdrop⟩ := drop_two hsize
  have hcount : entries.length = 65535 + (rest.length + 2) := by
    have := congrArg List.length hdrop
    rw [List.length_drop, List.length_cons, List.length_cons] at this
    omega
  have hmem : ∀ z ∈ x :: y :: rest, z ∈ entries := by
    intro z hz
    rw [← hdrop] at hz
    exact List.mem_of_mem_drop hz
  have hxmem := hmem x List.mem_cons_self
  have hturn := listTurn_turn (hentries x hxmem) hcarries 65534
  rw [hdrop, listPage] at hrun
  generalize listTurn 65534 255 page x = result at hturn hrun
  cases hturn with
  | skip hskip =>
    have := UInt16.lt_iff_toNat_lt.1 hskip
    omega
  | fail _ hbad _ => exact absurd hbad (hfits x hxmem).not_bad
  | stop _ _ _ _ =>
    refine not_pageIsSound_of_short hrun hcarries (by omega) (.inl ?_)
    apply UInt16.toNat_inj.1
    have hend : squidFsCursorEnd.toNat = 65535 := rfl
    omega
  | @push record _ _ hname hpush =>
    -- The index has come back to zero, so the next entry is below the cursor again.
    have hzero : (page.push record).entryIndex = 0 := by
      apply UInt16.toNat_inj.1
      rw [ListPage.push, UInt16.toNat_add, hindex]
      rfl
    have hskip : listTurn 65534 255 (page.push record) y = .inl (page.push record).skip := by
      have hentry := hentries y (hmem y (by simp))
      rw [isEntry, decide_eq_true_iff] at hentry
      have hbelow : (page.push record).entryIndex < 65534 := by
        rw [hzero]
        decide
      rw [listTurn, if_neg hentry, if_pos hbelow]
      rfl
    dsimp only at hrun
    rw [listPage, hskip] at hrun
    have hbehind : ∀ z ∈ rest, z ∈ entries := fun z hz =>
      hmem z (List.mem_cons_of_mem x (List.mem_cons_of_mem y hz))
    obtain ⟨next, page', records', hrest, hcarries', hlength', hnext⟩ :=
      listPage_fits 65534 (hcarries.push hname hpush).skip (fun z hz => hentries z (hbehind z hz))
        (fun z hz => hfits z (hbehind z hz))
    dsimp only at hrun
    rw [hrest] at hrun
    rw [List.length_append, List.length_singleton] at hlength'
    refine not_pageIsSound_of_short hrun hcarries' (by omega) ?_
    rcases hnext with hnext | hnext
    · exact .inl hnext
    · by_cases hend : next = squidFsCursorEnd
      · exact .inl hend
      · refine .inr ?_
        have hne : next.toNat ≠ 65535 := fun he => hend (UInt16.toNat_inj.1 he)
        have := next.toNat_lt
        omega

end

theorem listCursorsSound_of_suffice (h : CursorsSuffice names) : ListCursorsSound names := by
  intro context path listing root rootFd k cursor fuel hlisting hnames hfuel hok
  refine Listing.sound hlisting hfuel ?_ hok
  intro hcursor
  have hentries := map_fst_entriesOf listing
  rw [hnames] at hentries
  have hlength := congrArg List.length hentries
  rw [List.length_map] at hlength
  rcases h with hsize | ⟨hsize, hlast⟩
  · exact pageIsSound_of_le (fun x => isEntry_of_mem) (by omega) cursor
  · have hne : cursor.toNat ≠ 65535 := fun he => hcursor (UInt16.toNat_inj.1 he)
    have hlt := cursor.toNat_lt
    have hfits := hlast cursor.toNat (by omega)
    rw [← hentries, ← List.map_take, ← List.map_drop, ← List.map_drop] at hfits
    exact pageIsSound_of_fits (fun x => isEntry_of_mem) (by omega) hfits

theorem ListCursorsSound.page (h : ListCursorsSound names)
    (hnames : ∀ name ∈ names, IsComponent name ∧ name.length ≤ 243)
    (hcursor : cursor ≠ squidFsCursorEnd) :
    PageIsSound (entriesOf (names.map fun name => (name, .ok shelfStat))) cursor := by
  have hlisting := shelfKernel_listing fun name hname => (hnames name hname).1
  have hfuel :
      (names.map fun name => ((name, .ok shelfStat) : Listed)).length < names.length + 1 := by
    rw [List.length_map]
    omega
  have hfst : (names.map fun name => ((name, .ok shelfStat) : Listed)).map Prod.fst = names := by
    rw [List.map_map]
    exact List.map_id names
  have hreply := (hlisting.reply hcursor (names.length + 1)).1
  rw [listReply_ok hfuel] at hreply
  obtain ⟨next, page, records, hrun, hcarries, -⟩ := listPage_fits cursor
    (⟨rfl, rfl, by simp, by simp⟩ : Carries [] ⟨0, 0, []⟩) (fun x => isEntry_of_mem)
    (fits_shelf fun name hname => (hnames name hname).2)
  rw [hrun] at hreply
  obtain ⟨answer, hread, hahead⟩ := h _ _ _ _ _ _ cursor _ hlisting hfst hfuel (by rw [hreply]; rfl)
  rw [hreply, readListAnswer_page hcarries] at hread
  cases hread
  rw [PageIsSound, hrun]
  exact ⟨records, hcarries, hahead⟩

theorem listCursorsSound_iff (hnames : ∀ name ∈ names, IsComponent name ∧ name.length ≤ 243) :
    ListCursorsSound names ↔ CursorsSuffice names := by
  refine ⟨?_, listCursorsSound_of_suffice⟩
  intro h
  let listing : List Listed := names.map fun name => (name, .ok shelfStat)
  have hfits : ∀ x ∈ entriesOf listing, EntryFits x :=
    fits_shelf fun name hname => (hnames name hname).2
  have hentries : (entriesOf listing).map Prod.fst = entryNames names := by
    rw [map_fst_entriesOf, List.map_map]
    exact congrArg entryNames (List.map_id names)
  have hlength : (entriesOf listing).length = (entryNames names).length := by
    rw [← hentries, List.length_map]
  by_contra hnot
  rw [CursorsSuffice, not_or, not_and] at hnot
  obtain ⟨hmany, hlast⟩ := hnot
  by_cases hsize : (entryNames names).length = 65536
  · apply hlast hsize
    intro c hc hroom
    by_contra hfull
    have hcursor : (UInt16.ofNat c).toNat = c :=
      UInt16.toNat_ofNat_of_lt' (show c < 65536 by omega)
    have hne : UInt16.ofNat c ≠ squidFsCursorEnd := by
      intro he
      rw [he] at hcursor
      have hend : squidFsCursorEnd.toNat = 65535 := rfl
      omega
    rw [← hentries, ← List.map_take, ← List.map_drop, ← hcursor] at hroom
    rw [← hentries, ← List.map_drop, ← hcursor] at hfull
    exact not_pageIsSound_of_last (fun x => isEntry_of_mem) hfits (by omega) (by omega) hroom
      (Nat.lt_of_not_le hfull) (h.page hnames hne)
  · exact not_pageIsSound_of_lt (fun x => isEntry_of_mem) hfits (by omega)
      (h.page hnames (by decide))

/-- When the cursors of LIST and INFO neither run backwards nor end early. -/
theorem cursors_sound_iff (package : RetroVault.RetroVaultPackage)
    (hnames : ∀ name ∈ names, IsComponent name ∧ name.length ≤ 243) :
    (InfoCursorsSound package ↔ package.downloads.length ≤ 65526) ∧
      (ListCursorsSound names ↔ CursorsSuffice names) := by
  refine ⟨?_, listCursorsSound_iff hnames⟩
  constructor
  · intro hsound
    by_contra hlarge
    exact not_infoCursorsSound (Nat.lt_of_not_le hlarge) hsound
  · exact infoCursorsSound_of_le

/-- A directory with two files, and a package with two downloads. -/
theorem cursors_sound_two :
    InfoCursorsSound (RetroVault.samplePackage "pong" "Pong" ""
      [RetroVault.sampleDownload "tape", RetroVault.sampleDownload "disk"]) ∧
    ListCursorsSound [dot, [0x66, 0x31], dotdot, [0x67]] := by
  obtain ⟨hinfo, hlist⟩ := cursors_sound_iff
    (RetroVault.samplePackage "pong" "Pong" ""
      [RetroVault.sampleDownload "tape", RetroVault.sampleDownload "disk"])
    (show ∀ name ∈ [dot, [0x66, 0x31], dotdot, [0x67]],
      IsComponent name ∧ name.length ≤ 243 by decide)
  exact ⟨hinfo.2 (by decide), hlist.2 (.inl (by decide))⟩

theorem recordsSize_of_length (h : ∀ name ∈ names, name.length = size) :
    recordsSize names = (6 + size) * names.length := by
  induction names with
  | nil => rfl
  | cons name names ih =>
    have hrest := ih fun x hx => h x (List.mem_cons_of_mem name hx)
    rw [recordsSize] at hrest ⊢
    rw [List.map_cons, List.sum_cons, hrest, h name List.mem_cons_self, List.length_cons,
      Nat.mul_succ, Nat.add_comm]

theorem numberedName_injective (hi : i < 65536) (hj : j < 65536)
    (h : numberedName i = numberedName j) : i = j := by
  have hdigit : ∀ m n : Nat, UInt8.ofNat (0x61 + m % 16) = UInt8.ofNat (0x61 + n % 16) →
      m % 16 = n % 16 := by
    intro m n he
    have := congrArg UInt8.toNat he
    rw [UInt8.toNat_ofNat_of_lt' (by simp only [UInt8.size]; omega),
      UInt8.toNat_ofNat_of_lt' (by simp only [UInt8.size]; omega)] at this
    omega
  simp only [numberedName, List.cons.injEq, and_true] at h
  obtain ⟨h0, h1, h2, h3⟩ := h
  have := hdigit _ _ h0
  have := hdigit _ _ h1
  have := hdigit _ _ h2
  have := hdigit _ _ h3
  omega

/-- 65536 files with names of four letters: the page from the cursor 65510 has room for 25 of the
last 26 records, and its next cursor says that there are no more. -/
theorem list_ends_early : ((List.range 65536).map numberedName).Nodup ∧
    (∀ name ∈ (List.range 65536).map numberedName, IsComponent name ∧ name.length ≤ 243) ∧
    ¬ ListCursorsSound ((List.range 65536).map numberedName) := by
  have hlength : ∀ name ∈ (List.range 65536).map numberedName, name.length = 4 := by
    intro name hname
    obtain ⟨i, -, rfl⟩ := List.mem_map.1 hname
    rfl
  have hnames : ∀ name ∈ (List.range 65536).map numberedName,
      IsComponent name ∧ name.length ≤ 243 := by
    intro name hname
    refine ⟨?_, by rw [hlength name hname]; decide⟩
    obtain ⟨i, -, rfl⟩ := List.mem_map.1 hname
    exact numberedName_component i
  have hentries : entryNames ((List.range 65536).map numberedName) =
      (List.range 65536).map numberedName := by
    rw [entryNames, List.filter_eq_self]
    intro name hname
    obtain ⟨i, -, rfl⟩ := List.mem_map.1 hname
    exact decide_eq_true (numberedName_ne_dots i)
  refine ⟨?_, hnames, ?_⟩
  · refine List.Nodup.map_on ?_ List.nodup_range
    intro i hi j hj he
    exact numberedName_injective (List.mem_range.1 hi) (List.mem_range.1 hj) he
  · intro hsound
    have hsuffice := (listCursorsSound_iff hnames).1 hsound
    rw [CursorsSuffice, hentries] at hsuffice
    generalize hall : (List.range 65536).map numberedName = all at hsuffice hlength
    have hcount : all.length = 65536 := by
      rw [← hall, List.length_map, List.length_range]
    rcases hsuffice with hsmall | ⟨-, hlast⟩
    · omega
    · have htake : recordsSize ((all.take 65535).drop 65510) = (6 + 4) * 25 := by
        rw [recordsSize_of_length fun name hname =>
          hlength name (List.mem_of_mem_take (List.mem_of_mem_drop hname)), List.length_drop,
          List.length_take, hcount]
        rfl
      have hdrop : recordsSize (all.drop 65510) = (6 + 4) * 26 := by
        rw [recordsSize_of_length fun name hname => hlength name (List.mem_of_mem_drop hname),
          List.length_drop, hcount]
      have := hlast 65510 (by decide) (by rw [htake])
      omega

end SquidServer

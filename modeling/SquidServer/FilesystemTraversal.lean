import SquidServer.Paging
import SquidServer.FilesystemListing

namespace SquidServer.Filesystem
open Interaction Posix Wire
set_option autoImplicit true

/-- A name of a directory, with what `fstatat` says about it. -/
abbrev Listed := Name × Except Errno Stat

def isEntry (x : Listed) : Bool := ¬ (x.1 = dot ∨ x.1 = dotdot)

/-- What a directory has besides `.` and `..`. -/
def entriesOf (listing : List Listed) : List Listed := listing.filter isEntry

/-- A record of a LIST page. -/
structure ListRecord where
  type : UInt8
  name : Name
  size : UInt32
deriving DecidableEq

def ListRecord.bytes (record : ListRecord) : List UInt8 :=
  record.type :: countedText record.name ++ writeU32 record.size

def entryRecord (name : Name) (information : Stat) : ListRecord where
  type := fileTypeFromMode information.stMode
  name := name
  size := fileSizeFromStat information

theorem listRecord_eq (name : Name) (information : Stat) :
    listRecord name information = (entryRecord name information).bytes := by
  simp [listRecord, ListRecord.bytes, entryRecord, countedText]

theorem ListRecord.length_bytes (record : ListRecord) :
    record.bytes.length = 6 + record.name.length := by
  simp [ListRecord.bytes, countedText, writeU32]
  omega

/-- The record of an entry whose metadata can be read. -/
def recordOf (x : Listed) : Option ListRecord :=
  match x.2 with
  | .ok information => some (entryRecord x.1 information)
  | .error _ => none

theorem recordOf_name (h : recordOf x = some record) : record.name = x.1 := by
  rw [recordOf] at h
  split at h
  · cases h
    rfl
  · cases h

/-- The page that has the given records so far. -/
structure Carries (records : List ListRecord) (page : ListPage) : Prop where
  count : page.entryCount.toNat = records.length
  bytes : page.records = records.flatMap ListRecord.bytes
  room : page.records.length ≤ 250
  names : ∀ r ∈ records, r.name.length ≤ 243

theorem Carries.length_le (h : Carries records page) : 6 * records.length ≤ 250 := by
  have hall : ∀ rs : List ListRecord, 6 * rs.length ≤ (rs.flatMap ListRecord.bytes).length := by
    intro rs
    induction rs with
    | nil => simp
    | cons r rs ih =>
      simp only [List.flatMap_cons, List.length_append, List.length_cons, r.length_bytes]
      omega
  have := hall records
  rw [← h.bytes] at this
  exact this.trans h.room

theorem Carries.count_ne_zero (h : Carries records page) (hne : records ≠ []) :
    page.entryCount ≠ 0 := by
  intro hzero
  apply hne
  rw [← List.length_eq_zero_iff, ← h.count, hzero]
  rfl

def ListPage.push (page : ListPage) (record : ListRecord) : ListPage where
  entryIndex := page.entryIndex + 1
  entryCount := page.entryCount + 1
  records := page.records ++ record.bytes

def ListPage.skip (page : ListPage) : ListPage := { page with entryIndex := page.entryIndex + 1 }

theorem Carries.push (h : Carries records page) (hname : record.name.length ≤ 243)
    (hroom : page.records.length + record.bytes.length ≤ 250) :
    Carries (records ++ [record]) (page.push record) := by
  have hlength := h.length_le
  refine ⟨?_, ?_, ?_, ?_⟩
  · rw [ListPage.push, u8_toNat_succ (by rw [h.count]; omega), h.count, List.length_append]
    rfl
  · rw [ListPage.push, h.bytes, List.flatMap_append, List.flatMap_singleton]
  · rw [ListPage.push, List.length_append]
    exact hroom
  · intro r hr
    rcases List.mem_append.1 hr with hr | hr
    · exact h.names r hr
    · rw [List.mem_singleton.1 hr]
      exact hname

theorem Carries.skip (h : Carries records page) : Carries records page.skip :=
  ⟨h.count, h.bytes, h.room, h.names⟩

/-- What one turn of the loop of `handle_list` can do with an entry. -/
inductive Turn (cursor : UInt16) (page : ListPage) (x : Listed) :
    ListPage ⊕ Except SquidFsStatus (UInt16 × ListPage) → Prop
  | skip : page.entryIndex < cursor → Turn cursor page x (.inl page.skip)
  | fail : ¬ page.entryIndex < cursor → 243 < x.1.length ∨ recordOf x = none → status ≠ .ok →
      Turn cursor page x (.inr (.error status))
  | push : ¬ page.entryIndex < cursor → recordOf x = some record → record.name.length ≤ 243 →
      page.records.length + record.bytes.length ≤ 250 → Turn cursor page x (.inl (page.push record))
  | stop : ¬ page.entryIndex < cursor → page.records ≠ [] → recordOf x = some record →
      250 < page.records.length + record.bytes.length →
      Turn cursor page x (.inr (.ok (page.entryIndex, page)))

theorem listTurn_turn (hentry : isEntry x = true) (h : Carries records page) (cursor : UInt16) :
    Turn cursor page x (listTurn cursor 255 page x) := by
  rw [isEntry, decide_eq_true_iff] at hentry
  have hbound := h.room
  have hheader : squidFsPageHeaderSize = 5 := rfl
  rw [listTurn, if_neg hentry]
  split
  · rename_i hskip
    exact .skip hskip
  · rename_i hcursor
    split
    · exact .fail hcursor (.inl (by omega)) (by decide)
    · rename_i hname
      obtain ⟨name, result⟩ := x
      cases result with
      | error e => exact .fail hcursor (.inr rfl) (statusFromErrno_ne_ok e)
      | ok information =>
        have hlength := (entryRecord name information).length_bytes
        have hsame : (entryRecord name information).name = name := rfl
        rw [hsame] at hlength
        dsimp only at hname ⊢
        split
        · rename_i hfull
          have hpage : page.records ≠ [] := by
            intro hnil
            rw [hnil, List.length_nil] at hfull
            omega
          have hne : records ≠ [] := by
            intro hnil
            apply hpage
            rw [h.bytes, hnil]
            rfl
          rw [if_neg (h.count_ne_zero hne)]
          exact .stop hcursor hpage rfl (by dsimp only; omega)
        · rw [listRecord_eq]
          exact .push hcursor rfl (by rw [hsame]; omega) (by omega)

/-- The loop of `handle_list` over the entries that are left. -/
def listPage (cursor : UInt16) (responseCapacity : Nat) :
    List Listed → ListPage → Except SquidFsStatus (UInt16 × ListPage)
  | [], page => .ok (squidFsCursorEnd, page)
  | x :: rest, page =>
    match listTurn cursor responseCapacity page x with
    | .inl page' => listPage cursor responseCapacity rest page'
    | .inr result => result

theorem listRun_eq_listPage (cursor : UInt16) (responseCapacity : Nat) {names : List Listed}
    (page : ListPage) (hfuel : names.length < fuel) :
    (listRun cursor responseCapacity fuel names page).1 =
      some (listPage cursor responseCapacity (entriesOf names) page) := by
  induction fuel generalizing names page with
  | zero => exact absurd hfuel (Nat.not_lt_zero _)
  | succ n ih =>
    cases names with
    | nil => rfl
    | cons x names =>
      have hrest : names.length < n := Nat.lt_of_succ_lt_succ hfuel
      rw [listRun, entriesOf]
      by_cases hx : x.1 = dot ∨ x.1 = dotdot
      · have hdot : ¬ isEntry x = true := by
          rw [isEntry, decide_eq_true_iff]
          exact not_not.2 hx
        rw [List.filter_cons_of_neg hdot, listTurn, if_pos hx]
        exact ih page hrest
      · have hentry : isEntry x = true := decide_eq_true hx
        rw [List.filter_cons_of_pos hentry, listPage]
        cases listTurn cursor responseCapacity page x with
        | inl page' => exact ih page' hrest
        | inr result => rfl

/-- The page after the given entries: it has the records of those behind the cursor. -/
def ListHolds (cursor : UInt16) (done : List Listed) (page : ListPage) : Prop :=
  page.entryIndex.toNat = done.length ∧ ∃ records, Carries records page ∧
    records.map some = (done.drop cursor.toNat).map recordOf

theorem listHolds_start (cursor : UInt16) : ListHolds cursor [] ⟨0, 0, []⟩ :=
  ⟨rfl, [], ⟨rfl, rfl, by simp, by simp⟩, by simp⟩

section
variable {cursor : UInt16} {done : List Listed} {page : ListPage}

theorem ListHolds.skip (h : ListHolds cursor done page) (hsize : done.length < 65535)
    (hcursor : page.entryIndex < cursor) : ListHolds cursor (done ++ [x]) page.skip := by
  obtain ⟨hindex, records, hcarries, hrecords⟩ := h
  have hlt := UInt16.lt_iff_toNat_lt.1 hcursor
  refine ⟨?_, records, hcarries.skip, ?_⟩
  · rw [ListPage.skip, u16_toNat_succ (by omega), hindex, List.length_append]
    rfl
  · rw [hrecords, List.drop_eq_nil_of_le (by omega),
      List.drop_eq_nil_of_le (by rw [List.length_append, List.length_singleton]; omega)]

theorem ListHolds.push (h : ListHolds cursor done page) (hsize : done.length < 65535)
    (hcursor : ¬ page.entryIndex < cursor) (hrecord : recordOf x = some record)
    (hname : record.name.length ≤ 243)
    (hroom : page.records.length + record.bytes.length ≤ 250) :
    ListHolds cursor (done ++ [x]) (page.push record) := by
  obtain ⟨hindex, records, hcarries, hrecords⟩ := h
  rw [UInt16.lt_iff_toNat_lt] at hcursor
  refine ⟨?_, records ++ [record], hcarries.push hname hroom, ?_⟩
  · rw [ListPage.push, u16_toNat_succ (by omega), hindex, List.length_append]
    rfl
  · rw [List.drop_append_of_le_length (by omega), List.map_append, List.map_append, hrecords,
      List.map_singleton, List.map_singleton, hrecord]

/-- How the loop goes on over entries that the 16-bit index can count: it fails, it stops before an
entry for which there is no room, or it comes to the end of them. -/
inductive Goes (cursor : UInt16) (done es more : List Listed) (page : ListPage) : Prop
  | fails : listPage cursor 255 (es ++ more) page = .error status → status ≠ .ok → x ∈ es →
      243 < x.1.length ∨ recordOf x = none → Goes cursor done es more page
  | stops : es = taken ++ x :: rest →
      listPage cursor 255 (es ++ more) page = .ok (page'.entryIndex, page') →
      ListHolds cursor (done ++ taken) page' → cursor.toNat < (done ++ taken).length →
      recordOf x = some record → 250 < page'.records.length + record.bytes.length →
      Goes cursor done es more page
  | passes : listPage cursor 255 (es ++ more) page = listPage cursor 255 more page' →
      ListHolds cursor (done ++ es) page' → Goes cursor done es more page

theorem Goes.cons (hturn : listTurn cursor 255 page x = .inl page')
    (h : Goes cursor (done ++ [x]) es more page') : Goes cursor done (x :: es) more page := by
  have hnext : listPage cursor 255 (x :: es ++ more) page =
      listPage cursor 255 (es ++ more) page' := by
    rw [List.cons_append, listPage, hturn]
  rcases h with ⟨hrun, hstatus, hmem, hbad⟩ | ⟨hsplit, hrun, hholds, hlt, hrecord, hfull⟩ |
    ⟨hrun, hholds⟩
  · exact .fails (hnext.trans hrun) hstatus (List.mem_cons_of_mem x hmem) hbad
  · rw [List.append_assoc] at hholds hlt
    exact .stops (by rw [hsplit]; rfl) (hnext.trans hrun) hholds hlt hrecord hfull
  · rw [List.append_assoc] at hholds
    exact .passes (hnext.trans hrun) hholds

theorem listPage_goes (h : ListHolds cursor done page) (hentries : ∀ x ∈ es, isEntry x = true)
    (hsize : done.length + es.length ≤ 65535) (more : List Listed) :
    Goes cursor done es more page := by
  induction es generalizing done page with
  | nil => exact .passes rfl (by rw [List.append_nil]; exact h)
  | cons x es ih =>
    rw [List.length_cons] at hsize
    have hrest : ∀ y ∈ es, isEntry y = true := fun y hy => hentries y (List.mem_cons_of_mem x hy)
    have hlength : (done ++ [x]).length + es.length ≤ 65535 := by
      rw [List.length_append, List.length_singleton]
      omega
    obtain ⟨records, hcarries, hrecords⟩ := h.2
    have hturn := listTurn_turn (hentries x List.mem_cons_self) hcarries cursor
    generalize hresult : listTurn cursor 255 page x = result at hturn
    cases hturn with
    | skip hcursor => exact .cons hresult (ih (h.skip (by omega) hcursor) hrest hlength)
    | push hcursor hrecord hname hroom =>
      exact .cons hresult (ih (h.push (by omega) hcursor hrecord hname hroom) hrest hlength)
    | @fail status hcursor hbad hstatus =>
      have hrun : listPage cursor 255 (x :: es ++ more) page = .error status := by
        rw [List.cons_append, listPage, hresult]
      exact .fails hrun hstatus List.mem_cons_self hbad
    | @stop record hcursor hpage hrecord hfull =>
      have hrun : listPage cursor 255 (x :: es ++ more) page = .ok (page.entryIndex, page) := by
        rw [List.cons_append, listPage, hresult]
      have hlt : cursor.toNat < (done ++ []).length := by
        rw [List.append_nil]
        by_contra hle
        apply hpage
        rw [List.drop_eq_nil_of_le (Nat.le_of_not_lt hle), List.map_nil, List.map_eq_nil_iff]
          at hrecords
        rw [hcarries.bytes, hrecords]
        rfl
      exact .stops (List.nil_append _).symm hrun (by rw [List.append_nil]; exact h) hlt hrecord
        hfull

end

/-- The records of a page, as its count byte announces them. -/
def readListRecords : Nat → List UInt8 → Option (List ListRecord)
  | 0, bytes => if bytes = [] then some [] else none
  | _ + 1, [] => none
  | n + 1, type :: bytes => do
    let (name, bytes) ← readCounted bytes
    if bytes.length < 4 then none
    else return ⟨type, name, readU32 bytes 0⟩ :: (← readListRecords n (bytes.drop 4))

theorem readListRecords_bytes (records : List ListRecord)
    (h : ∀ r ∈ records, r.name.length ≤ 243) :
    readListRecords records.length (records.flatMap ListRecord.bytes) = some records := by
  induction records with
  | nil => rfl
  | cons r records ih =>
    have hname : r.name.length < 256 := by
      have := h r List.mem_cons_self
      omega
    have hsize : readU32 (writeU32 r.size ++ records.flatMap ListRecord.bytes) 0 = r.size := by
      have := readU32_writeU32 [] r.size (records.flatMap ListRecord.bytes)
      rw [List.nil_append] at this
      exact this
    have hdrop : (writeU32 r.size ++ records.flatMap ListRecord.bytes).drop 4 =
        records.flatMap ListRecord.bytes := rfl
    rw [List.flatMap_cons, ListRecord.bytes, List.cons_append, List.cons_append, List.append_assoc,
      List.length_cons, readListRecords, readCounted_countedText hname]
    simp only [Option.bind_eq_bind, Option.bind_some]
    rw [if_neg (by simp [writeU32]), hsize, hdrop,
      ih fun r' hr' => h r' (List.mem_cons_of_mem r hr')]
    rfl

/-- The next cursor and the records of a LIST reply that is a page. The count byte is the number
of the records, and they fill the reply. -/
def readListPage (response : Response) : Option (UInt16 × List ListRecord) := do
  match ← response with
  | code :: status :: low :: high :: count :: records =>
    if code = squidFsOpList ||| squidFsResponseBit ∧ status = SquidFsStatus.ok.code then
      return (readU16 [low, high] 0, ← readListRecords count.toNat records)
    else none
  | _ => none

theorem readListPage_listResponse (h : Carries records page) (nextCursor : UInt16) :
    readListPage (some (listResponse squidFsOpList nextCursor page)) =
      some (nextCursor, records) := by
  have hcursor := readU16_writeU16 [] nextCursor []
  simp only [writeU16, List.nil_append, List.append_nil, List.length_nil] at hcursor
  have hread := readListRecords_bytes records h.names
  rw [← h.count, ← h.bytes] at hread
  simp [readListPage, listResponse, writeU16, hcursor, hread]

/-- What a LIST reply says, if it is a page. -/
def readListAnswer (response : Response) : Option (Paging.Answer ListRecord) := do
  let (nextCursor, records) ← readListPage response
  return ⟨records, if nextCursor = squidFsCursorEnd then none else some nextCursor.toNat⟩

def listRequest (cursor : UInt16) (path : Name) : List UInt8 :=
  squidFsOpList :: writeU16 cursor ++ countedText path

theorem readPathRequest_listRequest (cursor : UInt16) (h : pathIsValid path false = some path) :
    readPathRequest (listRequest cursor path) 3 true = some path ∧ path ≠ [] := by
  have hne : path ≠ [] := by
    rintro rfl
    cases h
  have hlong : path.length ≤ 240 := by
    by_contra hlong
    rw [pathIsValid, if_neg (by simp), if_pos (.inr (.inl (Nat.lt_of_not_le hlong)))] at h
    cases h
  have hcount : (byteAt (listRequest cursor path) 3).toNat = path.length :=
    UInt8.toNat_ofNat_of_lt' (show path.length < 256 by omega)
  have hlength : (listRequest cursor path).length = path.length + 4 := rfl
  have hdrop : (listRequest cursor path).drop (3 + 1) = path := rfl
  refine ⟨?_, hne⟩
  rw [readPathRequest, if_neg (by omega), hcount, if_neg (by omega), hdrop, pathIsValid,
    if_neg fun hand => hne hand.1]
  rw [pathIsValid, if_neg (by simp)] at h
  exact h

theorem readU16_listRequest (cursor : UInt16) (path : Name) :
    readU16 (listRequest cursor path) 1 = cursor := by
  have := readU16_writeU16 [squidFsOpList] cursor (countedText path)
  simpa [listRequest] using this

/-- A path below the exported root leads to a directory with the given contents. -/
structure Listing (context : SquidFsContext) (path : Name) (listing : List Listed) (root : Ino)
    (rootFd : Fd) (k : Kernel) : Prop where
  valid : pathIsValid path false = some path
  exported : context.rootFd = some rootFd
  opened : k.ino rootFd = some root
  contents : contentsOf k.fs root (components path) = .ok listing

/-- The name of the entry fits a record, and its metadata can be read. -/
def EntryFits (x : Listed) : Prop := x.1.length ≤ 243 ∧ ∃ information, x.2 = .ok information

def Fits (listing : List Listed) : Prop := ∀ x ∈ entriesOf listing, EntryFits x

theorem EntryFits.not_bad (h : EntryFits x) : ¬ (243 < x.1.length ∨ recordOf x = none) := by
  obtain ⟨hname, information, hinformation⟩ := h
  rw [recordOf, hinformation, not_or]
  exact ⟨Nat.not_lt.2 hname, by simp⟩

theorem listReply_ok (hfuel : listing.length < fuel) :
    listReply squidFsOpList cursor 255 fuel (.ok listing) 0 =
      match listPage cursor 255 (entriesOf listing) ⟨0, 0, []⟩ with
      | .error status => writeResponse squidFsOpList status 255
      | .ok (nextCursor, page) => some (listResponse squidFsOpList nextCursor page) := by
  rw [listReply, List.drop_zero, listRun_eq_listPage cursor 255 _ hfuel]
  cases listPage cursor 255 (entriesOf listing) ⟨0, 0, []⟩ <;> rfl

theorem Listing.reply (h : Listing context path listing root rootFd k)
    (hcursor : cursor ≠ squidFsCursorEnd) (fuel : Nat) :
    (k.run (handleSquidFsRequest fuel context (listRequest cursor path) 255)).1 =
      listReply squidFsOpList cursor 255 fuel (.ok listing) 0 ∧
    Listing context path listing root rootFd
      (k.run (handleSquidFsRequest fuel context (listRequest cursor path) 255)).2 := by
  obtain ⟨hpath, hne⟩ := readPathRequest_listRequest cursor h.valid
  obtain ⟨i, f, hi, hf, hino⟩ := Kernel.ino_eq_some.1 h.opened
  have hread := readU16_listRequest cursor path
  have hrequest : listRequest cursor path = squidFsOpList :: (listRequest cursor path).tail := rfl
  have hcontents := h.contents
  rw [← hino] at hcontents
  have hnext : readU16 (listRequest cursor path) 1 ≠ squidFsCursorEnd := by
    rw [hread]
    exact hcursor
  have hreply :
      (k.run (handleList fuel context squidFsOpList (listRequest cursor path) 255)).1 = _ :=
    handleList_below ⟨hi, hf⟩ h.exported hpath hne hnext (by decide)
  have hfs :
      (k.run (handleList fuel context squidFsOpList (listRequest cursor path) 255)).2.fs = _ :=
    handleList_fs ⟨hi, hf⟩ h.exported hpath hne hnext (by decide) hcontents
  have hroot := handleSquidFsRequest_root h.exported h.opened fuel (listRequest cursor path) 255
  rw [hread, hcontents] at hreply
  rw [hrequest, handleSquidFsRequest_list h.exported (by decide), ← hrequest] at hroot ⊢
  refine ⟨hreply, h.valid, h.exported, hroot, ?_⟩
  rw [hfs]
  exact h.contents

theorem eq_flatten_of_map_some {records : List ListRecord} {l : List Listed}
    (h : records.map some = l.map recordOf) :
    records = (l.map fun x => (recordOf x).toList).flatten := by
  induction l generalizing records with
  | nil => exact List.map_eq_nil_iff.1 h
  | cons x l ih =>
    cases records with
    | nil => cases h
    | cons r records =>
      rw [List.map_cons, List.map_cons, List.cons.injEq] at h
      rw [List.map_cons, List.flatten_cons, ← h.1, ← ih h.2]
      rfl

theorem isEntry_of_mem (h : x ∈ entriesOf listing) : isEntry x = true := (List.mem_filter.1 h).2

/-- Every LIST reply for a directory that can be counted is a page of its records. -/
theorem listReply_pageOf (hfits : Fits listing) (hsize : (entriesOf listing).length ≤ 65535)
    (hfuel : listing.length < fuel) (cursor : UInt16) :
    ∃ answer, readListAnswer (listReply squidFsOpList cursor 255 fuel (.ok listing) 0) =
        some answer ∧
      Paging.PageOf ((entriesOf listing).map fun x => (recordOf x).toList) cursor.toNat answer := by
  have hgoes := listPage_goes (listHolds_start cursor) (fun x => isEntry_of_mem)
    (show [].length + (entriesOf listing).length ≤ 65535 by simpa using hsize) []
  rw [listReply_ok hfuel]
  rcases hgoes with ⟨-, -, hx, hbad⟩ | ⟨hsplit, hrun, hholds, hlt, -, -⟩ | ⟨hrun, hholds⟩
  · exact absurd hbad (hfits _ hx).not_bad
  · rename_i taken x rest page' record
    rw [List.append_nil] at hrun
    rw [List.nil_append] at hholds hlt
    obtain ⟨hindex, records, hcarries, hrecords⟩ := hholds
    have hlength : taken.length < (entriesOf listing).length := by
      rw [hsplit, List.length_append, List.length_cons]
      omega
    have hmore : page'.entryIndex ≠ squidFsCursorEnd := by
      intro he
      rw [he] at hindex
      have hend : squidFsCursorEnd.toNat = 65535 := rfl
      omega
    rw [hrun]
    refine ⟨⟨records, some page'.entryIndex.toNat⟩, ?_, ?_⟩
    · rw [readListAnswer, readListPage_listResponse hcarries, Option.bind_eq_bind, Option.bind_some]
      dsimp only
      rw [if_neg hmore]
      rfl
    · rw [Paging.PageOf]
      dsimp only
      refine ⟨by omega, by rw [List.length_map]; omega, ?_⟩
      have htaken : taken.drop cursor.toNat =
          ((entriesOf listing).drop cursor.toNat).take (page'.entryIndex.toNat - cursor.toNat) := by
        rw [← List.drop_take, hindex, hsplit, List.take_left]
      rw [← List.map_drop, ← List.map_take, ← htaken]
      exact eq_flatten_of_map_some hrecords
  · rename_i page'
    rw [List.append_nil, listPage] at hrun
    rw [List.nil_append] at hholds
    obtain ⟨hindex, records, hcarries, hrecords⟩ := hholds
    rw [hrun]
    refine ⟨⟨records, none⟩, ?_, ?_⟩
    · rw [readListAnswer, readListPage_listResponse hcarries, Option.bind_eq_bind, Option.bind_some]
      rfl
    · rw [Paging.PageOf]
      dsimp only
      rw [← List.map_drop]
      exact eq_flatten_of_map_some hrecords

/-- Ask for the LIST page at a cursor, and read the reply. -/
def listBrowse (fuel : Nat) (context : SquidFsContext) (path : Name) (_ : Unit) (cursor : Nat) :
    Program Syscalls (Option (Paging.Answer ListRecord) × Unit) := do
  let reply ← handleSquidFsRequest fuel context (listRequest (UInt16.ofNat cursor) path) 255
  return (readListAnswer reply, ())

/-- What the record of an entry says: regular files have their size, as far as 32 bits can tell
it, and nothing else has one. -/
def DescribesEntry (information : Stat) (record : ListRecord) : Prop :=
  record.type = (if sIsreg information.stMode then squidFsTypeFile
    else if sIsdir information.stMode then squidFsTypeDirectory else squidFsTypeOther) ∧
  (¬ sIsreg information.stMode → record.size = 0) ∧
  (sIsreg information.stMode → uint32Max < information.stSize → record.size = 0xFFFFFFFF) ∧
  (sIsreg information.stMode → 0 ≤ information.stSize → information.stSize ≤ uint32Max →
    (record.size.toNat : Int) = information.stSize)

theorem entryRecord_describes (name : Name) (information : Stat) :
    DescribesEntry information (entryRecord name information) := by
  refine ⟨rfl, ?_, ?_, ?_⟩
  · intro hreg
    simp only [entryRecord, fileSizeFromStat, if_pos (Or.inl hreg), if_neg hreg]
  · intro hreg hsize
    simp only [entryRecord, fileSizeFromStat, if_pos (Or.inr (Or.inr hsize)), if_pos hreg]
  · intro hreg hpos hsize
    have hbig : ¬ (¬ sIsreg information.stMode = true ∨ information.stSize < 0 ∨
        uint32Max < information.stSize) := by
      rintro (hn | hn | hn)
      · exact hn hreg
      · omega
      · omega
    simp only [entryRecord, fileSizeFromStat, if_neg hbig]
    rw [UInt32.toNat_ofNat_of_lt' (by simp only [UInt32.size, uint32Max] at *; omega)]
    omega

theorem records_describe {l : List Listed} (h : ∀ x ∈ l, ∃ information, x.2 = .ok information) :
    List.Forall₂ (fun x record => record.name = x.1 ∧
      ∃ information, x.2 = .ok information ∧ DescribesEntry information record)
      l (l.map fun x => (recordOf x).toList).flatten := by
  induction l with
  | nil => exact .nil
  | cons x l ih =>
    obtain ⟨information, hinformation⟩ := h x List.mem_cons_self
    have hrecord : recordOf x = some (entryRecord x.1 information) := by
      rw [recordOf, hinformation]
    rw [List.map_cons, List.flatten_cons, hrecord]
    exact .cons ⟨rfl, information, hinformation, entryRecord_describes x.1 information⟩
      (ih fun y hy => h y (List.mem_cons_of_mem x hy))

theorem names_of_records {l : List Listed} {records : List ListRecord}
    (h : List.Forall₂ (fun x record => record.name = x.1 ∧ ∃ information, x.2 = .ok information ∧
      DescribesEntry information record) l records) :
    records.map (·.name) = l.map Prod.fst := by
  induction h with
  | nil => rfl
  | cons hx _ ih => rw [List.map_cons, List.map_cons, hx.1, ih]

/-- Reading a directory below the exported root page by page gives a record for every entry, in the
order of `readdir` and each once. -/
theorem directory_traversal (h : Listing context path listing root rootFd k) (hfits : Fits listing)
    (hsize : (entriesOf listing).length ≤ 65535) (hturns : listing.length < turns)
    (hfuel : (entriesOf listing).length < fuel) :
    ∃ records, (k.run (Paging.traverse (listBrowse turns context path) fuel ())).1 =
        some (some records) ∧
      List.Forall₂ (fun x record => record.name = x.1 ∧
        ∃ information, x.2 = .ok information ∧ DescribesEntry information record)
        (entriesOf listing) records := by
  have htraverse : Ensures (answering Kernel.call)
      (Paging.traverse (listBrowse turns context path) fuel ())
      (fun r _ => r = some (some ((entriesOf listing).map fun x => (recordOf x).toList).flatten))
      k := by
    refine Paging.traverse_ensures (fun _ k => Listing context path listing root rootFd k) ?_ h
      (by rw [List.length_map]; exact hfuel)
    intro _ k' cursor hk hcursor
    rw [List.length_map] at hcursor
    have hnat : (UInt16.ofNat cursor).toNat = cursor :=
      UInt16.toNat_ofNat_of_lt' (show cursor < 65536 by omega)
    have hnot : UInt16.ofNat cursor ≠ squidFsCursorEnd := by
      intro he
      rw [he] at hnat
      have hend : squidFsCursorEnd.toNat = 65535 := rfl
      omega
    obtain ⟨hreply, hnext⟩ := hk.reply hnot turns
    refine ensures_bind.2 (ensures_answering.2 ?_)
    have hpage := listReply_pageOf hfits hsize hturns (UInt16.ofNat cursor)
    rw [hnat, ← hreply] at hpage
    exact ensures_pure.2 ⟨hnext, hpage⟩
  refine ⟨_, ensures_answering.1 htraverse, ?_⟩
  exact records_describe fun x hx => (hfits x hx).2

theorem isComponent_d : IsComponent [0x64] := by decide

theorem shelf_valid (i : Nat) (h : some i ∈ [some 0]) :
    i < [(⟨0, 0, false⟩ : OpenFile)].length := by
  simpa using h

/-- The root has a directory `d`, in which every name is a link to one empty file. -/
def shelfKernel (names : List Name) (h : ∀ name ∈ names, IsComponent name) : Kernel where
  fs := {
    inodes := [
      ⟨.directory [⟨[0x64], 1, isComponent_d⟩], 0o755, 0⟩,
      ⟨.directory (names.attach.map fun name => ⟨name.1, 2, h name.1 name.2⟩), 0o755, 0⟩,
      ⟨.file [], 0o644, 0⟩]
    hostRoot := 0 }
  fds := [some 0]
  files := [⟨0, 0, false⟩]
  valid := shelf_valid

def shelfStat : Stat := Inode.stat ⟨.file [], 0o644, 0⟩

theorem shelfKernel_statName (h : ∀ name ∈ names, IsComponent name) (hname : name ∈ names) :
    (shelfKernel names h).fs.statName 1 name = .ok shelfStat := by
  let e : Entry := ⟨name, 2, h name hname⟩
  have hlookup : (shelfKernel names h).fs.lookup 1 name = some 2 := by
    apply lookupEntry_eq (e := e)
    · exact List.mem_map.2 ⟨⟨name, hname⟩, List.mem_attach _ _, rfl⟩
    · intro e' he' _
      obtain ⟨name', -, rfl⟩ := List.mem_map.1 he'
      rfl
  rw [Fs.statName, hlookup]
  rfl

theorem shelfKernel_listing (h : ∀ name ∈ names, IsComponent name) :
    Listing ⟨some 0, false⟩ [0x64] (names.map fun name => (name, .ok shelfStat)) 0 0
      (shelfKernel names h) := by
  refine ⟨by decide, rfl, rfl, ?_⟩
  have hdescend : (shelfKernel names h).fs.descend 0 (components [0x64]) = .ok 1 := rfl
  rw [contentsOf, hdescend]
  change Except.ok (List.map _ (List.map _ names.attach)) = _
  rw [List.map_map]
  congr 1
  have hattach : names = names.attach.map (·.1) := names.attach_map_subtype_val.symm
  conv_rhs => rw [hattach, List.map_map]
  apply List.map_congr_left
  intro name _
  exact congrArg (Prod.mk _) (shelfKernel_statName h name.2)

theorem fits_shelf {names : List Name} (h : ∀ name ∈ names, name.length ≤ 243) :
    Fits (names.map fun name => (name, .ok shelfStat)) := by
  intro x hx
  obtain ⟨name, hname, rfl⟩ := List.mem_map.1 (List.mem_filter.1 hx).1
  exact ⟨h name hname, shelfStat, rfl⟩

def longName : Name := List.replicate 240 0x67

/-- The names of two files, whose records do not fit one page. -/
def shelfNames : List Name := [dot, [0x66], dotdot, longName]

theorem isComponent_shelf : ∀ name ∈ shelfNames, IsComponent name := by decide +kernel

theorem directory_traversal_shelf : ∃ records,
    ((shelfKernel shelfNames isComponent_shelf).run
      (Paging.traverse (listBrowse 5 ⟨some 0, false⟩ [0x64]) 3 ())).1 = some (some records) ∧
    records.map (·.name) = [[0x66], longName] := by
  have hentries : entriesOf (shelfNames.map fun name => (name, .ok shelfStat)) =
      [([0x66], .ok shelfStat), (longName, .ok shelfStat)] := rfl
  obtain ⟨records, hrun, hrecords⟩ := directory_traversal (shelfKernel_listing isComponent_shelf)
    (fits_shelf (by decide +kernel)) (by rw [hentries]; decide)
    (show (shelfNames.map _).length < 5 by decide) (show _ < 3 by rw [hentries]; decide)
  exact ⟨records, hrun, by rw [names_of_records hrecords, hentries]; rfl⟩

end SquidServer.Filesystem

import SquidServer.Paging
import SquidServer.RetroVault

namespace SquidServer.RetroVault
open Interaction CText Wire
set_option autoImplicit true

theorem queryStandsAt_iff (h : start + query.length ≤ text.length) :
    queryStandsAt text query start = true ↔
      foldCase query = ((foldCase text).drop start).take query.length := by
  rw [queryStandsAt, List.all_eq_true]
  constructor
  · intro hall
    apply List.ext_getElem
    · simp
      omega
    · intro i hi hi'
      rw [length_foldCase] at hi
      have hc := of_decide_eq_true (hall i (List.mem_range.2 hi))
      rw [List.getD_eq_getElem?_getD, List.getD_eq_getElem?_getD, List.getElem?_eq_getElem hi,
        List.getElem?_eq_getElem (by omega)] at hc
      simp only [foldCase, List.getElem_map, List.getElem_take, List.getElem_drop]
      exact hc.symm
  · intro heq i hi
    have hi := List.mem_range.1 hi
    have hget := congrArg (·[i]?) heq
    simp only [foldCase, List.getElem?_map, List.getElem?_take, if_pos hi,
      List.getElem?_drop] at hget
    rw [decide_eq_true_iff, List.getD_eq_getElem?_getD, List.getD_eq_getElem?_getD]
    rw [List.getElem?_eq_getElem hi, List.getElem?_eq_getElem (by omega)] at hget ⊢
    exact (Option.some.inj hget).symm

theorem textContainsCaseInsensitive_iff : textContainsCaseInsensitive text query = true ↔
    query ≠ [] ∧ foldCase query <:+: foldCase text := by
  rw [textContainsCaseInsensitive]
  split
  · rename_i h
    simp only [Bool.false_eq_true, ne_eq, false_iff, not_and]
    intro hne hinfix
    rcases h with h | h
    · exact hne (List.length_eq_zero_iff.1 h)
    · have := hinfix.length_le
      simp at this
      omega
  · rename_i h
    rw [not_or, Nat.not_lt] at h
    rw [List.any_eq_true]
    constructor
    · rintro ⟨start, hstart, hq⟩
      rw [List.mem_range] at hstart
      refine ⟨fun he => h.1 (by rw [he]; rfl), ?_⟩
      rw [(queryStandsAt_iff (by omega)).1 hq]
      exact (List.take_prefix _ _).isInfix.trans (List.drop_suffix _ _).isInfix
    · rintro ⟨-, pre, post, heq⟩
      have hlength := congrArg List.length heq
      simp only [List.length_append, length_foldCase] at hlength
      refine ⟨pre.length, List.mem_range.2 (by omega), (queryStandsAt_iff (by omega)).2 ?_⟩
      rw [← heq, List.append_assoc, List.drop_left, ← length_foldCase query, List.take_left]

/-- The name of a platform without regard to case, and with the two known aliases resolved. -/
def canonicalPlatform (platform : List UInt8) : List UInt8 :=
  if foldCase platform = ascii "idp" then ascii "iskra-delta-partner"
  else if foldCase platform = ascii "zxs" then ascii "zx-spectrum"
  else foldCase platform

/-- What LIST and SEARCH look for; empty filters match everything. -/
def Matches (filter : CatalogFilter) (package : RetroVaultPackage) : Prop :=
  (filter.platform = [] ∨
    canonicalPlatform package.platformId.bytes = canonicalPlatform filter.platform) ∧
  (filter.model = [] ∨ foldCase package.modelId.bytes = foldCase filter.model) ∧
  (filter.query = [] ∨ ∃ text ∈ [package.id, package.name, package.vendor, package.description],
    foldCase filter.query <:+: foldCase text.bytes)

theorem platformMatchesFilter_iff : platformMatchesFilter platformId filter = true ↔
    canonicalPlatform platformId = canonicalPlatform filter := by
  have hidp : foldCase (ascii "idp") = ascii "idp" := by decide
  have hpartner : foldCase (ascii "iskra-delta-partner") = ascii "iskra-delta-partner" := by decide
  have hzxs : foldCase (ascii "zxs") = ascii "zxs" := by decide
  have hspectrum : foldCase (ascii "zx-spectrum") = ascii "zx-spectrum" := by decide
  simp only [platformMatchesFilter, platformIsIdp, filterMatchesAlias, textIsIdentifier,
    canonicalPlatform, decide_eq_true_eq, textEqualsCaseInsensitive_iff, hidp, hpartner, hzxs,
    hspectrum]
  have hne : (ascii "idp" ≠ ascii "zxs" ∧ ascii "idp" ≠ ascii "zx-spectrum" ∧
    ascii "iskra-delta-partner" ≠ ascii "zxs") ∧
    ascii "iskra-delta-partner" ≠ ascii "zx-spectrum" ∧
    ascii "iskra-delta-partner" ≠ ascii "idp" ∧ ascii "zx-spectrum" ≠ ascii "zxs" := by decide
  generalize ascii "idp" = idp, ascii "iskra-delta-partner" = partner, ascii "zxs" = zxs,
    ascii "zx-spectrum" = spectrum at hne ⊢
  grind

theorem packageMatches_iff : packageMatches package filter = true ↔ Matches filter package := by
  rw [packageMatches, Matches, ← platformMatchesFilter_iff, ← textEqualsCaseInsensitive_iff]
  by_cases hquery : filter.query = []
  · by_cases hplatform : filter.platform = [] <;> by_cases hmodel : filter.model = [] <;>
      simp [hquery, hplatform, hmodel, List.length_pos_iff]
  · by_cases hplatform : filter.platform = [] <;> by_cases hmodel : filter.model = [] <;>
      simp [hquery, hplatform, hmodel, List.length_pos_iff, textContainsCaseInsensitive_iff]

instance (filter : CatalogFilter) (package : RetroVaultPackage) :
    Decidable (Matches filter package) := decidable_of_iff _ packageMatches_iff

def matching (filter : CatalogFilter) (packages : List RetroVaultPackage) :
    List RetroVaultPackage :=
  packages.filter fun package => Matches filter package

theorem matching_cons_pos (h : packageMatches package filter = true)
    (rest : List RetroVaultPackage) :
    matching filter (package :: rest) = package :: matching filter rest :=
  List.filter_cons_of_pos (decide_eq_true (packageMatches_iff.1 h))

theorem matching_cons_neg (h : ¬ packageMatches package filter = true)
    (rest : List RetroVaultPackage) : matching filter (package :: rest) = matching filter rest :=
  List.filter_cons_of_neg (by
    rw [decide_eq_true_eq]
    exact fun hm => h (packageMatches_iff.2 hm))

/-- An entry of a LIST or SEARCH page. -/
structure CatalogEntry where
  id : List UInt8
  name : List UInt8
deriving DecidableEq

def CatalogEntry.bytes (entry : CatalogEntry) : List UInt8 :=
  countedText entry.id ++ countedText entry.name

theorem CatalogEntry.length_bytes (entry : CatalogEntry) :
    entry.bytes.length = 2 + entry.id.length + entry.name.length := by
  simp only [CatalogEntry.bytes, countedText, List.length_append, List.length_cons]
  omega

/-- What a listing says about a package: nothing, when its id is too long for an entry. -/
def listedEntries (package : RetroVaultPackage) : List CatalogEntry :=
  if package.id.bytes.length ≤ 247 then
    [⟨package.id.bytes, longestPrefix package.name.bytes (247 - package.id.bytes.length)⟩]
  else []

theorem listedEntries_size (h : entry ∈ listedEntries package) :
    entry.id.length < 256 ∧ entry.name.length < 256 ∧ 2 ≤ entry.bytes.length ∧
      entry.bytes.length ≤ 249 := by
  rw [listedEntries] at h
  split at h
  · rename_i hid
    rw [List.mem_singleton.1 h]
    have hname := length_longestPrefix_le package.name.bytes (247 - package.id.bytes.length)
    simp only [CatalogEntry.bytes, countedText, List.length_append, List.length_cons]
    omega
  · cases h

theorem makeListEntry_eq (package : RetroVaultPackage) :
    makeListEntry package 249 = (listedEntries package).head?.map CatalogEntry.bytes := by
  have hshorten := shorten_le package.name.bytes (249 - package.id.bytes.length - 2)
  have hlength := shorten_le_length package.name.bytes (249 - package.id.bytes.length - 2)
  rw [makeListEntry, listedEntries]
  dsimp only
  by_cases hid : package.id.bytes.length ≤ 247
  · rw [if_neg (by omega), if_neg (by omega), if_pos hid, Nat.min_eq_left (by omega), take_shorten,
      show 249 - package.id.bytes.length - 2 = 247 - package.id.bytes.length by omega]
    rw [show 249 - package.id.bytes.length - 2 = 247 - package.id.bytes.length by omega] at hlength
    simp [CatalogEntry.bytes, countedText, ← take_shorten, hlength]
  · rw [if_neg hid]
    split
    · rfl
    · rw [if_pos (by omega)]
      rfl

/-- The page that stands after the packages `done`, all of which match, have been looked at. -/
structure PageHolds (cursor : UInt16) (done : List RetroVaultPackage) (page : Page) : Prop where
  index : page.index.toNat = done.length
  count : page.count.toNat = ((done.drop cursor.toNat).flatMap listedEntries).length
  records : page.records =
    ((done.drop cursor.toNat).flatMap listedEntries).flatMap CatalogEntry.bytes
  room : page.records.length ≤ 250

section
variable {cursor : UInt16} {done : List RetroVaultPackage} {page : Page}
  {package : RetroVaultPackage}

theorem PageHolds.skip (h : PageHolds cursor done page) (hsize : done.length < 65535)
    (hnone : done.length < cursor.toNat ∨ listedEntries package = []) :
    PageHolds cursor (done ++ [package]) page.skip := by
  have hsame : ((done ++ [package]).drop cursor.toNat).flatMap listedEntries =
      (done.drop cursor.toNat).flatMap listedEntries := by
    rw [List.drop_append, List.flatMap_append]
    rcases hnone with hlt | hnil
    · rw [List.drop_eq_nil_of_le (show [package].length ≤ cursor.toNat - done.length by
        rw [List.length_singleton]; omega)]
      simp
    · cases cursor.toNat - done.length <;> simp [hnil]
  refine ⟨?_, ?_, ?_, h.room⟩
  · rw [Page.skip, u16_toNat_succ (by rw [h.index]; exact hsize), h.index, List.length_append]
    rfl
  · rw [hsame]
    exact h.count
  · rw [hsame]
    exact h.records

theorem PageHolds.count_le (h : PageHolds cursor done page) : 2 * page.count.toNat ≤ 250 := by
  have hall : ∀ es : List CatalogEntry, (∀ e ∈ es, 2 ≤ e.bytes.length) →
      2 * es.length ≤ (es.flatMap CatalogEntry.bytes).length := by
    intro es hes
    induction es with
    | nil => simp
    | cons e es ih =>
      have := ih fun e' he' => hes e' (List.mem_cons_of_mem e he')
      have := hes e List.mem_cons_self
      simp only [List.flatMap_cons, List.length_append, List.length_cons]
      omega
  have hsize := hall ((done.drop cursor.toNat).flatMap listedEntries) (by
    intro e he
    obtain ⟨p, -, he⟩ := List.mem_flatMap.1 he
    exact (listedEntries_size he).2.2.1)
  rw [← h.records, ← h.count] at hsize
  exact hsize.trans h.room

theorem PageHolds.push (h : PageHolds cursor done page) (hsize : done.length < 65535)
    (hcursor : cursor.toNat ≤ done.length) (hlisted : listedEntries package = [entry])
    (hroom : page.records.length + entry.bytes.length ≤ 250) :
    PageHolds cursor (done ++ [package]) (page.push entry.bytes) := by
  have hcount := h.count_le
  have hmore : ((done ++ [package]).drop cursor.toNat).flatMap listedEntries =
      (done.drop cursor.toNat).flatMap listedEntries ++ [entry] := by
    rw [List.drop_append_of_le_length hcursor, List.flatMap_append, List.flatMap_singleton, hlisted]
  refine ⟨?_, ?_, ?_, ?_⟩
  · rw [Page.push, u16_toNat_succ (by rw [h.index]; exact hsize), h.index, List.length_append]
    rfl
  · rw [hmore, Page.push, u8_toNat_succ (by omega), h.count, List.length_append]
    rfl
  · rw [hmore, Page.push, h.records, List.flatMap_append, List.flatMap_singleton]
  · rw [Page.push, List.length_append]
    exact hroom

theorem room_page (page : Page) : page.room 255 = 250 - page.records.length := by
  rw [Page.room, show retroVaultPageHeaderSize = 5 from rfl]
  omega

/-- An empty page has room for every entry, and one that has none left is behind its cursor. -/
theorem PageHolds.stops (h : PageHolds cursor done page) (hentry : length ≤ 250)
    (hfull : page.room 255 < length) : page.count ≠ 0 ∧ cursor.toNat < page.index.toNat := by
  have hempty : page.count ≠ 0 := by
    intro hempty
    have hnil : (done.drop cursor.toNat).flatMap listedEntries = [] := by
      rw [← List.length_eq_zero_iff, ← h.count, hempty]
      rfl
    have hrecords := h.records
    rw [hnil] at hrecords
    rw [room_page, hrecords] at hfull
    simp at hfull
    omega
  refine ⟨hempty, ?_⟩
  rw [h.index]
  by_contra hle
  apply hempty
  apply UInt8.toNat_inj.1
  rw [h.count, List.drop_eq_nil_of_le (Nat.le_of_not_lt hle)]
  rfl

/-- One pass over the packages: it goes on to the end, or stops before a package that does not
fit any more, with its number as the next cursor. -/
theorem catalogPage_spec (filter : CatalogFilter) (ps : List RetroVaultPackage)
    (h : PageHolds cursor done page)
    (hsize : done.length + (matching filter ps).length ≤ 65535) :
    ∃ next page' taken rest, catalogPage filter cursor 255 ps page = .ok (next, page') ∧
      matching filter ps = taken ++ rest ∧ PageHolds cursor (done ++ taken) page' ∧
      (rest = [] ∧ next = retroVaultCursorEnd ∨
        rest ≠ [] ∧ next.toNat = (done ++ taken).length ∧ cursor.toNat < next.toNat) := by
  induction ps generalizing done page with
  | nil =>
    refine ⟨_, page, [], [], rfl, rfl, ?_, .inl ⟨rfl, rfl⟩⟩
    rw [List.append_nil]
    exact h
  | cons package ps ih =>
    rw [catalogPage]
    by_cases hmatch : packageMatches package filter = true
    · rw [matching_cons_pos hmatch] at hsize ⊢
      rw [List.length_cons] at hsize
      rw [if_neg (not_not.2 hmatch)]
      -- Going on with a page that holds the package, too.
      have hnext : ∀ {page' : Page}, PageHolds cursor (done ++ [package]) page' →
          ∃ next page'' taken rest, catalogPage filter cursor 255 ps page' = .ok (next, page'') ∧
            package :: matching filter ps = taken ++ rest ∧
            PageHolds cursor (done ++ taken) page'' ∧
            (rest = [] ∧ next = retroVaultCursorEnd ∨
              rest ≠ [] ∧ next.toNat = (done ++ taken).length ∧ cursor.toNat < next.toNat) := by
        intro page' h'
        have hsize' : (done ++ [package]).length +
            (matching filter ps).length ≤ 65535 := by
          rw [List.length_append, List.length_singleton]
          omega
        obtain ⟨next, page'', taken, rest, hrun, hsplit, hholds, hend⟩ := ih h' hsize'
        rw [← List.append_cons] at hholds hend
        exact ⟨next, page'', package :: taken, rest, hrun, by rw [hsplit]; rfl, hholds, hend⟩
      by_cases hbefore : page.index < cursor
      · rw [if_pos hbefore]
        have hlt : done.length < cursor.toNat := by
          rw [← h.index]
          exact UInt16.lt_iff_toNat_lt.1 hbefore
        exact hnext (h.skip (by omega) (.inl hlt))
      · have hcursor : cursor.toNat ≤ done.length := by
          rw [← h.index]
          exact UInt16.le_iff_toNat_le.1 (UInt16.not_lt.1 hbefore)
        rw [if_neg hbefore, makeListEntry_eq]
        cases hlisted : listedEntries package with
        | nil => exact hnext (h.skip (by omega) (.inr hlisted))
        | cons entry more =>
          have hmore : more = [] := by
            rw [listedEntries] at hlisted
            split at hlisted
            · cases hlisted
              rfl
            · cases hlisted
          subst hmore
          have hentry := listedEntries_size (hlisted ▸ List.mem_singleton_self entry)
          dsimp only [List.head?_cons, Option.map_some]
          by_cases hfull : page.room 255 < entry.bytes.length
          · obtain ⟨hcount, hindex⟩ := h.stops (by omega) hfull
            rw [if_pos hfull, if_neg hcount]
            refine ⟨page.index, page, [], _, rfl, rfl, ?_, .inr ⟨by simp, ?_, hindex⟩⟩
            · rw [List.append_nil]
              exact h
            · rw [List.append_nil]
              exact h.index
          · rw [if_neg hfull]
            have hheld := h.room
            have hroom := room_page page
            exact hnext (h.push (by omega) hcursor hlisted (by omega))
    · rw [matching_cons_neg hmatch] at hsize ⊢
      rw [if_pos hmatch]
      exact ih h hsize

end

/-- The entries of a page, as its count byte announces them. -/
def readEntries : Nat → List UInt8 → Option (List CatalogEntry)
  | 0, records => if records = [] then some [] else none
  | n + 1, records => do
    let (id, records) ← readCounted records
    let (name, records) ← readCounted records
    return ⟨id, name⟩ :: (← readEntries n records)

theorem readEntries_bytes (entries : List CatalogEntry)
    (h : ∀ e ∈ entries, e.id.length < 256 ∧ e.name.length < 256) :
    readEntries entries.length (entries.flatMap CatalogEntry.bytes) = some entries := by
  induction entries with
  | nil => rfl
  | cons e entries ih =>
    obtain ⟨hid, hname⟩ := h e List.mem_cons_self
    rw [List.flatMap_cons, CatalogEntry.bytes, List.append_assoc, List.length_cons,
      readEntries, readCounted_countedText hid]
    simp only [Option.bind_eq_bind, Option.bind_some]
    rw [readCounted_countedText hname]
    simp only [Option.bind_some]
    rw [ih fun e' he' => h e' (List.mem_cons_of_mem e he')]
    rfl

/-- The next cursor, the count and the records of a reply that is a page. -/
def readPage (opcode : UInt8) (response : Response) : Option (UInt16 × UInt8 × List UInt8) := do
  match ← response with
  | code :: status :: low :: high :: count :: records =>
    if code = opcode ||| retroVaultResponseBit ∧ status = RetroVaultStatus.ok.code then
      some (readU16 [low, high] 0, count, records)
    else none
  | _ => none

theorem readPage_pageResponse (opcode : UInt8) (nextCursor : UInt16) (page : Page) :
    readPage opcode (some (pageResponse opcode nextCursor page)) =
      some (nextCursor, page.count, page.records) := by
  have hcursor := readU16_writeU16 [] nextCursor []
  simp only [writeU16, List.nil_append, List.append_nil, List.length_nil] at hcursor
  simp [readPage, pageResponse, writeU16, hcursor]

/-- What a LIST or SEARCH reply says, if it is a page. -/
def readCatalogPage (opcode : UInt8) (response : Response) :
    Option (Paging.Answer CatalogEntry) := do
  let (nextCursor, count, records) ← readPage opcode response
  return {
    entries := ← readEntries count.toNat records
    next := if nextCursor = retroVaultCursorEnd then none else some nextCursor.toNat }

theorem readCatalogPage_pageResponse (h : PageHolds cursor done page) (opcode : UInt8)
    (nextCursor : UInt16) : readCatalogPage opcode (some (pageResponse opcode nextCursor page)) =
      some ⟨(done.drop cursor.toNat).flatMap listedEntries,
        if nextCursor = retroVaultCursorEnd then none else some nextCursor.toNat⟩ := by
  have hentries := readEntries_bytes ((done.drop cursor.toNat).flatMap listedEntries) (by
    intro e he
    obtain ⟨p, -, he⟩ := List.mem_flatMap.1 he
    exact ⟨(listedEntries_size he).1, (listedEntries_size he).2.1⟩)
  rw [← h.count, ← h.records] at hentries
  rw [readCatalogPage, readPage_pageResponse, Option.bind_eq_bind, Option.bind_some]
  dsimp only
  rw [hentries]
  rfl

/-- What a client asks for when it browses the catalog: a LIST, or a SEARCH when there is a
query. -/
structure Browse where
  platform : List UInt8
  query : Option (List UInt8)
  model : Option (List UInt8)

def Browse.opcode (browse : Browse) : UInt8 :=
  if browse.query.isSome then retroVaultOpSearch else retroVaultOpList

def Browse.filter (browse : Browse) : CatalogFilter where
  platform := browse.platform
  model := browse.model.getD []
  query := browse.query.getD []

/-- The request for the page at a cursor. -/
def Browse.request (browse : Browse) (cursor : UInt16) : List UInt8 :=
  browse.opcode :: writeU16 cursor ++ countedText browse.platform ++
    (browse.query.elim [] countedText ++ browse.model.elim [] countedText)

/-- Every text of the request has a size that fits a byte, and a query is not empty. -/
structure Browse.Sized (browse : Browse) : Prop where
  platform : browse.platform.length < 256
  query : ∀ text ∈ browse.query, text ≠ [] ∧ text.length < 256
  model : ∀ text ∈ browse.model, text.length < 256

/-- The request fits a packet, and a query is not empty. -/
structure Browse.Fits (browse : Browse) : Prop where
  size : (browse.request 0).length ≤ 255
  query : browse.query ≠ some []

theorem Browse.Fits.sized {browse : Browse} (h : browse.Fits) : browse.Sized := by
  obtain ⟨hsize, hquery⟩ := h
  simp only [Browse.request, writeU16, countedText, List.length_append, List.length_cons,
    List.length_nil] at hsize
  refine ⟨by omega, ?_, ?_⟩
  · intro text htext
    rw [Option.mem_def.1 htext] at hquery hsize
    refine ⟨fun hempty => hquery (congrArg some hempty), ?_⟩
    simp only [Option.elim_some, countedText, List.length_cons] at hsize
    omega
  · intro text htext
    rw [Option.mem_def.1 htext] at hsize
    simp only [Option.elim_some, countedText, List.length_cons] at hsize
    omega

theorem parseModel_countedText (model : Option (List UInt8)) (pre : List UInt8)
    (h : ∀ text ∈ model, text.length < 256) :
    parseModel (pre ++ model.elim [] countedText) pre.length = some (model.getD []) := by
  cases model with
  | none => simp [parseModel]
  | some text =>
    have hsize := h text rfl
    simp [parseModel, byteAt, countedText]
    omega

theorem parseQuery_countedText (hne : query ≠ []) (hsize : query.length < 256)
    (pre post : List UInt8) : parseQuery (pre ++ (countedText query ++ post)) pre.length =
      some (query, (pre ++ countedText query).length) := by
  have hbyte : byteAt (pre ++ (countedText query ++ post)) pre.length =
      UInt8.ofNat query.length := by simp [byteAt, countedText]
  have hcount : (UInt8.ofNat query.length).toNat = query.length := UInt8.toNat_ofNat_of_lt' hsize
  have hdrop : (pre ++ (countedText query ++ post)).drop (pre.length + 1) = query ++ post := by
    rw [← List.drop_drop, List.drop_left]
    rfl
  have hpos := List.length_pos_iff.2 hne
  have hroom : ¬ (query.length = 0 ∨
      (pre ++ (countedText query ++ post)).length - (pre.length + 1) < query.length) := by
    simp only [List.length_append, countedText, List.length_cons]
    omega
  rw [parseQuery, hbyte, hcount, hdrop, if_neg (by simp [countedText])]
  dsimp only
  rw [List.take_left, if_neg hroom]
  simp [countedText]
  omega

theorem parseListOrSearch_request {browse : Browse} (h : browse.Sized)
    (hcursor : cursor ≠ retroVaultCursorEnd) :
    parseListOrSearch browse.opcode (browse.request cursor) = some (cursor, browse.filter) := by
  let more := browse.query.elim [] countedText ++ browse.model.elim [] countedText
  let header := browse.opcode :: writeU16 cursor ++ countedText browse.platform
  have hlength : (browse.request cursor).length = 4 + (browse.platform.length + more.length) := by
    simp [Browse.request, writeU16, countedText, more]
    omega
  have hreadCursor : readU16 (browse.request cursor) 1 = cursor := by
    have := readU16_writeU16 [browse.opcode] cursor (countedText browse.platform ++ more)
    simpa [Browse.request, more] using this
  have hplatformSize : (byteAt (browse.request cursor) 3).toNat = browse.platform.length :=
    UInt8.toNat_ofNat_of_lt' h.platform
  have hplatform : ((browse.request cursor).drop 4).take browse.platform.length =
      browse.platform := by simp [Browse.request, writeU16, countedText]
  have hoffset : 4 + browse.platform.length = header.length := by
    simp [header, writeU16, countedText]
    omega
  rw [parseListOrSearch, if_neg (by omega), hreadCursor, hplatformSize]
  dsimp only
  rw [hplatform, if_neg hcursor, if_neg (by omega), hoffset]
  cases hq : browse.query with
  | none =>
    have hmodel := parseModel_countedText browse.model header h.model
    have hrequest : browse.request cursor = header ++ browse.model.elim [] countedText := by
      rw [Browse.request, hq]
      rfl
    rw [Browse.opcode, hq, if_neg (by decide), hrequest]
    dsimp only
    rw [hmodel, Browse.filter, hq]
    rfl
  | some query =>
    have hmodel := parseModel_countedText browse.model (header ++ countedText query) h.model
    have hrequest : browse.request cursor =
        header ++ (countedText query ++ browse.model.elim [] countedText) := by
      rw [Browse.request, hq]
      rfl
    obtain ⟨hne, hquerySize⟩ := h.query query hq
    have hparse := parseQuery_countedText hne hquerySize header
      (browse.model.elim [] countedText)
    rw [Browse.opcode, hq, Option.isSome_some, if_pos rfl, if_pos rfl, hrequest, hparse,
      ← List.append_assoc]
    dsimp only
    rw [hmodel, Browse.filter, hq]
    rfl

/-- The catalog is still fresh whenever the clock is read. -/
def StaysCached (context : RetroVaultContext) (e : Event Services) : Prop :=
  match e with
  | ⟨.time, now⟩ => catalogIsFresh context now = true
  | _ => True

theorem ensureCatalog_cached (context : RetroVaultContext) :
    Ensures (obeying (StaysCached context)) (ensureCatalog context)
      (fun r _ => r = (.ok, context)) () := by
  refine ensures_bind.2 (ensures_ask fun now _ hnow => ?_)
  have hfresh : catalogIsFresh context now = true := hnow
  rw [if_pos hfresh]
  exact ensures_pure.2 rfl

/-- Ask for the page at a cursor, and read the reply. -/
def browsePage (browse : Browse) (context : RetroVaultContext) (cursor : Nat) :
    Program Services (Option (Paging.Answer CatalogEntry) × RetroVaultContext) := do
  let (reply, context) ←
    handleRetroVaultRequest context (browse.request (UInt16.ofNat cursor)) 255
  return (readCatalogPage browse.opcode reply, context)

theorem handleRetroVaultRequest_listOrSearch (context : RetroVaultContext) (browse : Browse)
    (cursor : UInt16) : handleRetroVaultRequest context (browse.request cursor) 255 =
      handleListOrSearch context browse.opcode (browse.request cursor) 255 := by
  have hopcode : browse.opcode = retroVaultOpList ∨ browse.opcode = retroVaultOpSearch := by
    rw [Browse.opcode]
    split
    · exact .inr rfl
    · exact .inl rfl
  have hnot : browse.opcode ≠ retroVaultOpCapabilities := by
    rcases hopcode with he | he <;> rw [he] <;> decide
  have hrequest : browse.request cursor = browse.opcode :: (browse.request cursor).tail := rfl
  rw [hrequest, handleRetroVaultRequest, if_neg (by decide), if_neg hnot, if_pos hopcode]

theorem handleRetroVaultRequest_browse {browse : Browse} (h : browse.Fits)
    (context : RetroVaultContext) (hcursor : cursor ≠ retroVaultCursorEnd) :
    Ensures (obeying (StaysCached context))
      (handleRetroVaultRequest context (browse.request cursor) 255)
      (fun r _ => r = (writeCatalogPage context browse.opcode cursor browse.filter 255, context))
      () := by
  rw [handleRetroVaultRequest_listOrSearch, handleListOrSearch,
    parseListOrSearch_request h.sized hcursor]
  refine ensures_bind.2 ((ensureCatalog_cached context).mono ?_)
  intro r _ hr
  rw [hr]
  exact ensures_pure.2 rfl

theorem browsePage_pageOf {browse : Browse} (h : browse.Fits)
    (hsize : context.packages.length ≤ 65535) (hcursor : cursor < 65535) :
    Ensures (obeying (StaysCached context)) (browsePage browse context cursor)
      (fun r _ => r.2 = context ∧ ∃ answer, r.1 = some answer ∧ Paging.PageOf
        ((matching browse.filter context.packages).map listedEntries) cursor answer) () := by
  have hnat : (UInt16.ofNat cursor).toNat = cursor :=
    UInt16.toNat_ofNat_of_lt' (show cursor < 65536 by omega)
  have hne : UInt16.ofNat cursor ≠ retroVaultCursorEnd := by
    intro he
    have := congrArg UInt16.toNat he
    rw [hnat] at this
    exact absurd this (Nat.ne_of_lt hcursor)
  refine ensures_bind.2 ((handleRetroVaultRequest_browse h context hne).mono ?_)
  intro r _ hr
  rw [hr]
  have hlength : (matching browse.filter context.packages).length ≤ 65535 :=
    (List.length_filter_le _ _).trans hsize
  have hstart : PageHolds (UInt16.ofNat cursor) [] ⟨0, 0, []⟩ := ⟨rfl, by simp, by simp, by simp⟩
  obtain ⟨next, page, taken, rest, hrun, hsplit, hholds, hend⟩ :=
    catalogPage_spec browse.filter context.packages hstart (by simpa using hlength)
  rw [List.nil_append] at hholds hend
  have hread : readCatalogPage browse.opcode
      (writeCatalogPage context browse.opcode (UInt16.ofNat cursor) browse.filter 255) =
        some ⟨(taken.drop cursor).flatMap listedEntries,
          if next = retroVaultCursorEnd then none else some next.toNat⟩ := by
    rw [writeCatalogPage, if_neg (by decide), hrun]
    have := readCatalogPage_pageResponse hholds browse.opcode next
    rw [hnat] at this
    exact this
  refine ensures_pure.2 ⟨rfl, _, hread, ?_⟩
  rw [hnat] at hend
  rw [Paging.PageOf, hsplit]
  dsimp only
  rcases hend with ⟨rfl, rfl⟩ | ⟨hrest, hnext, hlt⟩
  · rw [if_pos rfl]
    dsimp only
    rw [List.append_nil, ← List.map_drop, List.flatMap_def]
  · have hinside : next.toNat < (taken ++ rest).length := by
      have := List.length_pos_iff.2 hrest
      rw [hnext, List.length_append]
      omega
    have hmore : next ≠ retroVaultCursorEnd := by
      intro he
      rw [he, ← hsplit] at hinside
      exact absurd hinside (Nat.not_lt.2 hlength)
    rw [if_neg hmore]
    dsimp only
    refine ⟨hlt, by rw [List.length_map]; exact hinside, ?_⟩
    have htaken : taken.drop cursor =
        ((taken ++ rest).drop cursor).take (next.toNat - cursor) := by
      rw [← List.drop_take, hnext, List.take_left]
    rw [← List.map_drop, ← List.map_take, ← htaken, List.flatMap_def]

/-- Browsing a catalog page by page gives an entry for every package that matches and whose id
fits an entry, in catalog order and each once. -/
theorem browse_traversal {browse : Browse} (context : RetroVaultContext)
    (hcatalog : parseCatalog data = some context.packages) (h : browse.Fits)
    (hfuel : context.packages.length < fuel) :
    Ensures (obeying (StaysCached context))
      (Paging.traverse (browsePage browse) fuel context)
      (fun r _ => r = some (some
        ((matching browse.filter context.packages).flatMap listedEntries))) () := by
  have hsize : context.packages.length ≤ 65535 := (parseCatalog_valid hcatalog).1
  have hlength : (matching browse.filter context.packages).length ≤ context.packages.length :=
    List.length_filter_le _ _
  rw [List.flatMap_def]
  refine Paging.traverse_ensures (fun c _ => c = context) ?_ rfl
    (by rw [List.length_map]; omega)
  intro c _ cursor hc hcursor
  subst hc
  rw [List.length_map] at hcursor
  exact browsePage_pageOf h hsize (by omega)

/-- A package with nothing but an id, a name, a platform and downloads. -/
def samplePackage (id name platformId : String) (downloads : List RetroVaultDownload) :
    RetroVaultPackage where
  id := .ofBytes (ascii id)
  name := .ofBytes (ascii name)
  vendor := .empty
  platformId := .ofBytes (ascii platformId)
  platformName := .empty
  modelId := .empty
  modelName := .empty
  version := .empty
  description := .empty
  releaseYear := 0
  rating := 0
  downloads := downloads

/-- A context that has fetched a catalog at time 1. -/
def contextOf (packages : List RetroVaultPackage) : RetroVaultContext where
  http := true
  packages := packages
  catalogFetchedAt := 1
  catalogCacheSeconds := 3600
  downloadData := []
  downloadPath := none

/-- Where the clock can find the catalog fresh, every call has an answer that keeps it so. -/
theorem fresh_answers (h : catalogIsFresh context now = true) (op : Call) :
    ∃ r, StaysCached context ⟨op, r⟩ := by
  cases op with
  | time => exact ⟨now, h⟩
  | httpGet path sizeLimit => exact ⟨⟨0, 200, []⟩, trivial⟩
  | malloc size => exact ⟨true, trivial⟩

theorem staysCached_answers (h : packages ≠ []) (op : Call) :
    ∃ r, StaysCached (contextOf packages) ⟨op, r⟩ := by
  have hpos := List.length_pos_iff.2 h
  have hfresh : catalogIsFresh (contextOf packages) 1 = true := by
    simp [catalogIsFresh, contextOf, hpos]
  exact fresh_answers hfresh op

/-- The packages for the Iskra Delta Partner, from a catalog that uses the short name. -/
theorem browse_traversal_partner :
    ∃ r, Exec (obeying (StaysCached (contextOf
        [samplePackage "pong" "Pong" "idp" [], samplePackage "chess" "Chess" "" []]))) ()
        (Paging.traverse (browsePage ⟨ascii "Iskra-Delta-Partner", none, none⟩) 3 (contextOf
          [samplePackage "pong" "Pong" "idp" [], samplePackage "chess" "Chess" "" []])) () r ∧
      r = some (some [⟨ascii "pong", ascii "Pong"⟩]) := by
  have hcatalog : parseCatalog (ascii
      "[\x7b\"id\":\"pong\",\"name\":\"Pong\",\"platformId\":\"idp\"\x7d,
        \x7b\"id\":\"chess\",\"name\":\"Chess\"\x7d]") =
      some [samplePackage "pong" "Pong" "idp" [], samplePackage "chess" "Chess" "" []] := by
    rw [ascii, String.toList_ofList]
    decide +kernel
  obtain ⟨_, r, he⟩ := exists_exec
    (obeying_answers (staysCached_answers (List.cons_ne_nil _ _))) (Paging.traverse
      (browsePage ⟨ascii "Iskra-Delta-Partner", none, none⟩) 3 (contextOf
        [samplePackage "pong" "Pong" "idp" [], samplePackage "chess" "Chess" "" []])) ()
  refine ⟨r, he, ?_⟩
  have hr := browse_traversal (contextOf _) hcatalog ⟨by decide, by decide⟩ (by decide) _ _ he
  rw [hr]
  decide +kernel

end SquidServer.RetroVault

import SquidServer.ClientFilesystem
import SquidServer.ClientRetroVault
import SquidServer.Loads

namespace SquidServer.Client
open Interaction Wire Loads
open Filesystem (ListRecord)
open RetroVault (CatalogEntry InfoRecord)
set_option autoImplicit true

/-- `struct squid_client_bytes`, with the address that `data` points to. -/
structure SquidClientBytes where
  data : Nat
  size : UInt8
deriving DecidableEq

/-- What a page keeps for its iterator: how many entries are left, and the addresses that `next` and
`end` point to. Address 0 is NULL. -/
structure PagePointers where
  left : UInt8
  next : Nat
  stop : Nat
deriving DecidableEq

/-- The conversion of a number to `uint16_t`. -/
def uint16 (n : Nat) : Nat := n % 2 ^ 16

/-- An iterator over the records of a page, for pointers that are not NULL: its result, the entry it
stores and the page it leaves. `record` is the part that differs: the record at the front of the
page, and the address behind it. -/
def nextRecord (record : Nat → Nat → Program Loading (Option (ε × Nat))) (page : PagePointers) :
    Program Loading (Int × Option ε × PagePointers) := do
  if page.left = 0 then
    return (if page.next = page.stop then 0 else squidClientErrorProtocol, none, page)
  else
    match ← record page.next page.stop with
    | none => return (squidClientErrorProtocol, none, page)
    | some (entry, next) => return (1, some entry, ⟨page.left - 1, next, page.stop⟩)

structure SquidClientFsEntry where
  type : UInt8
  name : SquidClientBytes
  size : UInt32
deriving DecidableEq

def loadU32 (address : Nat) : Program Loading UInt32 := do
  let a ← load address
  let b ← load (address + 1)
  let c ← load (address + 2)
  let d ← load (address + 3)
  return readU32 [a, b, c, d] 0

def fsListRecord (current stop : Nat) : Program Loading (Option (SquidClientFsEntry × Nat)) := do
  if current = 0 ∨ stop = 0 ∨ stop < current ∨ uint16 (stop - current) < 6 then return none
  else
    let nameSize ← load (current + 1)
    if uint16 (stop - current) < uint16 (6 + nameSize.toNat) then return none
    else
      let type ← load current
      let size ← loadU32 (current + 2 + nameSize.toNat)
      return some (⟨type, ⟨current + 2, nameSize⟩, size⟩, current + 6 + nameSize.toNat)

/-- `squid_client_fs_list_next` on addresses. -/
def fsListNext : PagePointers → Program Loading (Int × Option SquidClientFsEntry × PagePointers) :=
  nextRecord fsListRecord

structure SquidClientRetroEntry where
  id : SquidClientBytes
  name : SquidClientBytes
deriving DecidableEq

def retroListRecord (current stop : Nat) :
    Program Loading (Option (SquidClientRetroEntry × Nat)) := do
  if current = 0 ∨ stop = 0 ∨ stop ≤ current then return none
  else
    let idSize ← load current
    let needed := uint16 (2 + idSize.toNat)
    if uint16 (stop - current) < needed then return none
    else
      let nameSize ← load (current + (1 + idSize.toNat))
      let needed := uint16 (needed + nameSize.toNat)
      if uint16 (stop - current) < needed then return none
      else
        return some (⟨⟨current + 1, idSize⟩, ⟨current + 2 + idSize.toNat, nameSize⟩⟩,
          current + needed)

/-- `squid_client_retro_list_next` on addresses. -/
def retroListNext :
    PagePointers → Program Loading (Int × Option SquidClientRetroEntry × PagePointers) :=
  nextRecord retroListRecord

structure SquidClientRetroValue where
  type : UInt8
  value : SquidClientBytes
deriving DecidableEq

def retroInfoRecord (current stop : Nat) :
    Program Loading (Option (SquidClientRetroValue × Nat)) := do
  if current = 0 ∨ stop = 0 ∨ stop < current ∨ uint16 (stop - current) < 2 then return none
  else
    let valueSize ← load (current + 1)
    if uint16 (stop - current) < uint16 (2 + valueSize.toNat) then return none
    else
      let type ← load current
      return some (⟨type, ⟨current + 2, valueSize⟩⟩, current + 2 + valueSize.toNat)

/-- `squid_client_retro_info_next` on addresses. -/
def retroInfoNext :
    PagePointers → Program Loading (Int × Option SquidClientRetroValue × PagePointers) :=
  nextRecord retroInfoRecord

/-- The page that `squid_client_fs_list`, `retro_page_response` and `squid_client_retro_info` build
from a response. -/
def pageOf (memory : Memory) (packet size : Nat) : PagePointers where
  left := memory (packet + 4)
  next := packet + 5
  stop := packet + size

/-- How the records of a page are laid out, and what an entry that points into a memory stands for.
No record is the beginning of another. -/
structure RecordLayout (ρ ε : Type) where
  encode : ρ → List UInt8
  Fits : ρ → Prop
  value : Memory → ε → ρ
  slices : ε → List SquidClientBytes
  unique : Fits x → Fits y → encode x ++ rest = encode y ++ rest' → x = y ∧ rest = rest'

def SquidClientBytes.contents (memory : Memory) (bytes : SquidClientBytes) : List UInt8 :=
  bytesBetween memory bytes.data (bytes.data + bytes.size.toNat)

theorem listRecord_unique {x y : ListRecord} (hx : x.name.length < 256) (hy : y.name.length < 256)
    (h : x.bytes ++ rest = y.bytes ++ rest') : x = y ∧ rest = rest' := by
  have hone : (1 : UInt8) ≠ 0 := by decide
  have hread := squidClientFsListNext_record 0 hone hx rest
  rw [h, squidClientFsListNext_record 0 hone hy rest'] at hread
  cases hread
  exact ⟨rfl, rfl⟩

theorem catalogEntry_unique {x y : CatalogEntry} (hx : RetroVault.EntryFits x)
    (hy : RetroVault.EntryFits y) (h : x.bytes ++ rest = y.bytes ++ rest') :
    x = y ∧ rest = rest' := by
  have hone : (1 : UInt8) ≠ 0 := by decide
  have hread := squidClientRetroListNext_entry 0 hone hx rest
  rw [h, squidClientRetroListNext_entry 0 hone hy rest'] at hread
  cases hread
  exact ⟨rfl, rfl⟩

theorem infoRecord_unique {x y : InfoRecord} (hx : x.value.length < 256)
    (hy : y.value.length < 256) (h : x.bytes ++ rest = y.bytes ++ rest') :
    x = y ∧ rest = rest' := by
  have hone : (1 : UInt8) ≠ 0 := by decide
  have hread := squidClientRetroInfoNext_record 0 hone hx rest
  rw [h, squidClientRetroInfoNext_record 0 hone hy rest'] at hread
  cases hread
  exact ⟨rfl, rfl⟩

def fsListLayout : RecordLayout ListRecord SquidClientFsEntry where
  encode := ListRecord.bytes
  Fits record := record.name.length < 256
  value memory entry := ⟨entry.type, entry.name.contents memory, entry.size⟩
  slices entry := [entry.name]
  unique := listRecord_unique

def retroListLayout : RecordLayout CatalogEntry SquidClientRetroEntry where
  encode := CatalogEntry.bytes
  Fits := RetroVault.EntryFits
  value memory entry := ⟨entry.id.contents memory, entry.name.contents memory⟩
  slices entry := [entry.id, entry.name]
  unique := catalogEntry_unique

def retroInfoLayout : RecordLayout InfoRecord SquidClientRetroValue where
  encode := InfoRecord.bytes
  Fits record := record.value.length < 256
  value memory value := ⟨value.type, value.value.contents memory⟩
  slices value := [value.value]
  unique := infoRecord_unique

/-- What a record found at the front of a page is. -/
structure Found (layout : RecordLayout ρ ε) (memory : Memory) (current stop : Nat) (entry : ε)
    (next : Nat) : Prop where
  range : current ≤ next ∧ next ≤ stop
  fits : layout.Fits (layout.value memory entry)
  bytes : bytesBetween memory current next = layout.encode (layout.value memory entry)
  slices : ∀ slice ∈ layout.slices entry,
    current ≤ slice.data ∧ slice.data + slice.size.toNat ≤ next

/-- Reading a record looks at bytes of the page only, and finds a record just when there is one at
the front of the page. -/
def ReadsRecord (layout : RecordLayout ρ ε)
    (record : Nat → Nat → Program Loading (Option (ε × Nat))) : Prop :=
  ∀ memory current stop, 0 < current → current ≤ stop → stop < current + 2 ^ 16 →
    Within memory current stop (record current stop) fun found =>
      (found = none → ∀ x rest, layout.Fits x →
        bytesBetween memory current stop ≠ layout.encode x ++ rest) ∧
      ∀ entry next, found = some (entry, next) → Found layout memory current stop entry next

theorem uint16_of_lt (h : n < 2 ^ 16) : uint16 n = n := Nat.mod_eq_of_lt h

theorem uint16_size (n : Nat) (hn : n ≤ 2 ^ 15) (size : UInt8) :
    uint16 (n + size.toNat) = n + size.toNat := by
  have := size.toNat_lt
  exact uint16_of_lt (by omega)

theorem byteAt_bytesBetween (memory : Memory) (h : start + i < stop) :
    byteAt (bytesBetween memory start stop) i = memory (start + i) := by
  have hi : i < (bytesBetween memory start stop).length := by
    rw [length_bytesBetween]
    omega
  rw [byteAt, List.getD_eq_getElem?_getD, List.getElem?_eq_getElem hi, Option.getD_some,
    getElem_bytesBetween]

theorem countedText_contents (memory : Memory) (bytes : SquidClientBytes) :
    countedText (bytes.contents memory) = bytes.size :: bytes.contents memory := by
  rw [countedText, SquidClientBytes.contents, length_bytesBetween, Nat.add_sub_cancel_left,
    UInt8.ofNat_toNat]

theorem bytesBetween_counted (memory : Memory) (start : Nat) :
    bytesBetween memory start (start + 1 + (memory start).toNat) =
      countedText (SquidClientBytes.contents memory ⟨start + 1, memory start⟩) := by
  rw [bytesBetween_cons (by omega), countedText_contents]
  rfl

theorem bytesBetween_four (memory : Memory) (start : Nat) : bytesBetween memory start (start + 4) =
    writeU32 (readU32 [memory start, memory (start + 1), memory (start + 2), memory (start + 3)]
      0) := by
  rw [bytesBetween_cons (by omega), bytesBetween_cons (by omega), bytesBetween_cons (by omega),
    bytesBetween_cons (by omega), bytesBetween_nil (Nat.le_refl _)]
  exact (writeU32_bytes _ _ _ _).symm

theorem within_loadU32 {Q : UInt32 → Prop} (hstart : start ≤ address)
    (hstop : address + 4 ≤ stop)
    (h : Q (readU32 [memory address, memory (address + 1), memory (address + 2),
      memory (address + 3)] 0)) : Within memory start stop (loadU32 address) Q := by
  simp only [loadU32, Program.bind_eq, Program.pure_eq, within_bind, within_load, within_pure]
  exact ⟨by omega, by omega, by omega, by omega, h⟩

section
variable {memory : Memory} {current stop : Nat} {bytes rest : List UInt8}

theorem front_length (h : bytesBetween memory current stop = bytes ++ rest) :
    bytes.length ≤ stop - current := by
  have hlength := congrArg List.length h
  rw [length_bytesBetween, List.length_append] at hlength
  omega

theorem front_byte (h : bytesBetween memory current stop = bytes ++ rest)
    (hi : current + i < stop) : memory (current + i) = byteAt (bytes ++ rest) i := by
  rw [← byteAt_bytesBetween memory hi, h]

end

theorem fsListRecord_reads : ReadsRecord fsListLayout fsListRecord := by
  intro memory current stop hpos hle hnear
  have hsize : uint16 (stop - current) = stop - current := uint16_of_lt (by omega)
  rw [fsListRecord, hsize]
  split
  · rename_i hshort
    refine within_pure.2 ⟨?_, fun _ _ h => by cases h⟩
    intro _ x rest hx heq
    have hlength := front_length heq
    rw [fsListLayout, x.length_bytes] at hlength
    omega
  rename_i hlong
  simp only [Program.bind_eq, within_bind, within_load, uint16_size 6 (by decide)]
  refine ⟨by omega, ?_⟩
  split
  · rename_i hshort
    refine within_pure.2 ⟨?_, fun _ _ h => by cases h⟩
    intro _ x rest hx heq
    have hlength := front_length heq
    have hcount : memory (current + 1) = UInt8.ofNat x.name.length := front_byte heq (by omega)
    rw [fsListLayout, x.length_bytes] at hlength
    rw [hcount, UInt8.toNat_ofNat_of_lt' hx] at hshort
    omega
  · rename_i hfits
    simp only [within_bind, within_load]
    refine ⟨by omega, within_loadU32 (by omega) (by omega) (within_pure.2 ⟨nofun, ?_⟩)⟩
    rintro entry next ⟨⟩
    refine ⟨by omega, ?_, ?_, ?_⟩
    · have := (memory (current + 1)).toNat_lt
      simpa [fsListLayout, SquidClientBytes.contents]
    · have hname := bytesBetween_counted memory (current + 1)
      have hsize := bytesBetween_four memory (current + 2 + (memory (current + 1)).toNat)
      rw [bytesBetween_cons (by omega),
        bytesBetween_append (show current + 1 ≤ current + 2 + (memory (current + 1)).toNat by omega)
          (by omega), show current + 6 + (memory (current + 1)).toNat =
        current + 2 + (memory (current + 1)).toNat + 4 by omega, hname, hsize]
      rfl
    · intro slice hslice
      rw [List.mem_singleton.1 hslice]
      exact ⟨Nat.le_add_right current 2, Nat.add_le_add_right (Nat.add_le_add_left (by decide) _) _⟩

theorem retroInfoRecord_reads : ReadsRecord retroInfoLayout retroInfoRecord := by
  intro memory current stop hpos hle hnear
  have hsize : uint16 (stop - current) = stop - current := uint16_of_lt (by omega)
  rw [retroInfoRecord, hsize]
  split
  · rename_i hshort
    refine within_pure.2 ⟨?_, fun _ _ h => by cases h⟩
    intro _ x rest hx heq
    have hlength := front_length heq
    rw [retroInfoLayout, x.length_bytes] at hlength
    omega
  rename_i hlong
  simp only [Program.bind_eq, within_bind, within_load, uint16_size 2 (by decide)]
  refine ⟨by omega, ?_⟩
  split
  · rename_i hshort
    refine within_pure.2 ⟨?_, fun _ _ h => by cases h⟩
    intro _ x rest hx heq
    have hlength := front_length heq
    have hcount : memory (current + 1) = UInt8.ofNat x.value.length := front_byte heq (by omega)
    rw [retroInfoLayout, x.length_bytes] at hlength
    rw [hcount, UInt8.toNat_ofNat_of_lt' hx] at hshort
    omega
  · rename_i hfits
    simp only [within_bind, within_load]
    refine ⟨by omega, within_pure.2 ⟨nofun, ?_⟩⟩
    rintro value next ⟨⟩
    refine ⟨by omega, ?_, ?_, ?_⟩
    · have := (memory (current + 1)).toNat_lt
      simpa [retroInfoLayout, SquidClientBytes.contents]
    · rw [bytesBetween_cons (by omega)]
      exact congrArg (List.cons _) (bytesBetween_counted memory (current + 1))
    · intro slice hslice
      rw [List.mem_singleton.1 hslice]
      exact ⟨Nat.le_add_right current 2, Nat.le_refl _⟩

theorem retroListRecord_reads : ReadsRecord retroListLayout retroListRecord := by
  intro memory current stop hpos hle hnear
  have hsize : uint16 (stop - current) = stop - current := uint16_of_lt (by omega)
  rw [retroListRecord, hsize]
  split
  · rename_i hshort
    refine within_pure.2 ⟨?_, fun _ _ h => by cases h⟩
    intro _ x rest hx heq
    have hlength := front_length heq
    rw [retroListLayout, x.length_bytes] at hlength
    omega
  rename_i hlong
  simp only [Program.bind_eq, within_bind, within_load, uint16_size 2 (by decide)]
  refine ⟨by omega, ?_⟩
  split
  · rename_i hshort
    refine within_pure.2 ⟨?_, fun _ _ h => by cases h⟩
    intro _ x rest hx heq
    have hlength := front_length heq
    have hcount : memory (current + 0) = UInt8.ofNat x.id.length := front_byte heq (by omega)
    rw [retroListLayout, x.length_bytes] at hlength
    rw [Nat.add_zero] at hcount
    rw [hcount, UInt8.toNat_ofNat_of_lt' hx.1] at hshort
    omega
  rename_i hid
  have hidSize := (memory current).toNat_lt
  simp only [within_bind, within_load,
    uint16_size (2 + (memory current).toNat) (show _ ≤ 2 ^ 15 by omega)]
  refine ⟨by omega, ?_⟩
  split
  · rename_i hshort
    refine within_pure.2 ⟨?_, fun _ _ h => by cases h⟩
    intro _ x rest hx heq
    have hlength := front_length heq
    have hcount : memory (current + 0) = UInt8.ofNat x.id.length := front_byte heq (by omega)
    have hname := front_byte heq (show current + (1 + (memory current).toNat) < stop by omega)
    rw [retroListLayout, x.length_bytes] at hlength
    rw [Nat.add_zero] at hcount
    rw [hcount, UInt8.toNat_ofNat_of_lt' hx.1] at hshort hname
    rw [retroListLayout, byteAt_nameSize] at hname
    rw [hname, UInt8.toNat_ofNat_of_lt' hx.2] at hshort
    omega
  · rename_i hfits
    refine within_pure.2 ⟨nofun, ?_⟩
    rintro entry next ⟨⟩
    have hnameSize := (memory (current + (1 + (memory current).toNat))).toNat_lt
    refine ⟨by omega, ?_, ?_, ?_⟩
    · refine ⟨?_, ?_⟩
      · simpa [retroListLayout, SquidClientBytes.contents] using hidSize
      · simpa [retroListLayout, SquidClientBytes.contents] using hnameSize
    · have hid := bytesBetween_counted memory current
      have hname := bytesBetween_counted memory (current + (1 + (memory current).toNat))
      generalize memory (current + (1 + (memory current).toNat)) = nameSize at hname ⊢
      generalize memory current = idSize at hid hname ⊢
      rw [show current + (1 + idSize.toNat) + 1 = current + 2 + idSize.toNat by omega] at hname
      rw [bytesBetween_append (show current ≤ current + 1 + idSize.toNat by omega) (by omega), hid,
        show current + 1 + idSize.toNat = current + (1 + idSize.toNat) by omega,
        show current + (2 + idSize.toNat + nameSize.toNat) =
          current + 2 + idSize.toNat + nameSize.toNat by omega, hname]
      rfl
    · intro slice hslice
      rcases List.mem_pair.1 hslice with rfl | rfl
      · exact ⟨Nat.le_add_right current 1, by dsimp only; omega⟩
      · exact ⟨by dsimp only; omega, by dsimp only; omega⟩

/-- A number of records fill the bytes, with no byte left over. -/
def Tiles (layout : RecordLayout ρ ε) (count : Nat) (bytes : List UInt8) : Prop :=
  ∃ records : List ρ, records.length = count ∧ (∀ x ∈ records, layout.Fits x) ∧
    bytes = records.flatMap layout.encode

section
variable {ρ ε : Type} {layout : RecordLayout ρ ε} {memory : Memory} {bytes rest : List UInt8}

theorem tiles_zero : Tiles layout 0 bytes ↔ bytes = [] := by
  constructor
  · intro h
    obtain ⟨records, hcount, -, rfl⟩ := h
    rw [List.length_eq_zero_iff.1 hcount]
    rfl
  · intro h
    exact ⟨[], rfl, fun x hx => absurd hx List.not_mem_nil, h⟩

theorem tiles_succ {x : ρ} (hx : layout.Fits x) :
    Tiles layout (n + 1) (layout.encode x ++ rest) ↔ Tiles layout n rest := by
  constructor
  · intro h
    obtain ⟨records, hcount, hfits, heq⟩ := h
    cases records with
    | nil => cases hcount
    | cons y records =>
      obtain ⟨-, rfl⟩ := layout.unique hx (hfits y List.mem_cons_self) heq
      exact ⟨records, Nat.succ.inj hcount, fun z hz => hfits z (List.mem_cons_of_mem y hz), rfl⟩
  · intro h
    obtain ⟨records, rfl, hfits, rfl⟩ := h
    refine ⟨x :: records, rfl, ?_, rfl⟩
    intro y hy
    rcases List.mem_cons.1 hy with rfl | hy
    · exact hx
    · exact hfits y hy

theorem not_tiles_succ (h : ∀ x rest, layout.Fits x → bytes ≠ layout.encode x ++ rest) :
    ¬ Tiles layout (n + 1) bytes := by
  rintro ⟨records, hcount, hfits, heq⟩
  cases records with
  | nil => cases hcount
  | cons x records => exact h x _ (hfits x List.mem_cons_self) heq

/-- What a call of an iterator does on a page with these bytes: it ends, it finds bytes left over,
it finds no record at the front, or it stores the one it finds. -/
inductive Answered (layout : RecordLayout ρ ε) (memory : Memory) (page : PagePointers) :
    Int × Option ε × PagePointers → Prop
  | ended : page.left = 0 → bytesBetween memory page.next page.stop = [] →
      Answered layout memory page (0, none, page)
  | overfull : page.left = 0 → bytesBetween memory page.next page.stop ≠ [] →
      Answered layout memory page (squidClientErrorProtocol, none, page)
  | broken : page.left ≠ 0 → (∀ x rest, layout.Fits x →
        bytesBetween memory page.next page.stop ≠ layout.encode x ++ rest) →
      Answered layout memory page (squidClientErrorProtocol, none, page)
  | stored : page.left ≠ 0 → Found layout memory page.next page.stop entry next →
      Answered layout memory page (1, some entry, ⟨page.left - 1, next, page.stop⟩)

theorem nextRecord_answered {record : Nat → Nat → Program Loading (Option (ε × Nat))}
    (h : ReadsRecord layout record) {page : PagePointers} (hpos : 0 < page.next)
    (hle : page.next ≤ page.stop) (hnear : page.stop < page.next + 2 ^ 16) :
    Within memory page.next page.stop (nextRecord record page) (Answered layout memory page) := by
  rw [nextRecord]
  split
  · rename_i hleft
    refine within_pure.2 ?_
    split
    · rename_i hend
      exact .ended hleft (bytesBetween_nil (Nat.le_of_eq hend.symm))
    · rename_i hend
      refine .overfull hleft fun hnil => hend ?_
      have hlength := congrArg List.length hnil
      rw [length_bytesBetween, List.length_nil] at hlength
      omega
  · rename_i hleft
    refine within_bind.2 ((h memory page.next page.stop hpos hle hnear).mono ?_)
    rintro found ⟨hnone, hsome⟩
    cases found with
    | none => exact within_pure.2 (.broken hleft (hnone rfl))
    | some found => exact within_pure.2 (.stored hleft (hsome _ _ rfl))

theorem toNat_of_ne_zero {left : UInt8} (h : left ≠ 0) : left.toNat = (left - 1).toNat + 1 := by
  have hpos : 0 < left.toNat := Nat.pos_of_ne_zero fun hzero => h (UInt8.toNat_inj.1 hzero)
  have hone : (1 : UInt8) ≤ left := UInt8.le_iff_toNat_le.2 hpos
  rw [UInt8.toNat_sub_of_le _ _ hone]
  exact (Nat.sub_add_cancel hpos).symm

theorem tiles_ended {left : UInt8} (hleft : left = 0) :
    Tiles layout left.toNat bytes ↔ bytes = [] := by
  rw [hleft]
  exact tiles_zero

theorem not_tiles_broken {left : UInt8} (hleft : left ≠ 0)
    (h : ∀ x rest, layout.Fits x → bytes ≠ layout.encode x ++ rest) :
    ¬ Tiles layout left.toNat bytes := by
  rw [toNat_of_ne_zero hleft]
  exact not_tiles_succ h

/-- An iterator over the bytes of a page, in place of the addresses. -/
structure Walks (layout : RecordLayout ρ ε)
    (next : UInt8 → List UInt8 → Int × Option ρ × UInt8 × List UInt8) : Prop where
  ended : ∀ bytes, next 0 bytes =
    (if bytes = [] then 0 else squidClientErrorProtocol, none, 0, bytes)
  broken : ∀ left bytes, left ≠ 0 →
    (∀ x rest, layout.Fits x → bytes ≠ layout.encode x ++ rest) →
    next left bytes = (squidClientErrorProtocol, none, left, bytes)
  stored : ∀ left x rest, left ≠ 0 → layout.Fits x →
    next left (layout.encode x ++ rest) = (1, some x, left - 1, rest)

/-- A call on addresses, with what the addresses stand for in their place. -/
def viewCall (layout : RecordLayout ρ ε) (memory : Memory) (call : Int × Option ε × PagePointers) :
    Int × Option ρ × UInt8 × List UInt8 :=
  (call.1, call.2.1.map (layout.value memory), call.2.2.left,
    bytesBetween memory call.2.2.next call.2.2.stop)

theorem Walks.answered {next : UInt8 → List UInt8 → Int × Option ρ × UInt8 × List UInt8}
    (h : Walks layout next) {page : PagePointers} {call : Int × Option ε × PagePointers}
    (hcall : Answered layout memory page call) :
    next page.left (bytesBetween memory page.next page.stop) = viewCall layout memory call := by
  cases hcall with
  | ended hleft hbytes =>
    rw [viewCall, hleft, h.ended, if_pos hbytes]
    rfl
  | overfull hleft hbytes =>
    rw [viewCall, hleft, h.ended, if_neg hbytes]
    rfl
  | broken hleft hbroken => exact h.broken _ _ hleft hbroken
  | stored hleft hfound =>
    rw [bytesBetween_append hfound.range.1 hfound.range.2, hfound.bytes]
    exact h.stored _ _ _ hleft hfound.fits

end

theorem length_take_byte (bytes : List UInt8) (start : Nat) (size : UInt8) :
    ((bytes.drop start).take size.toNat).length < 256 :=
  Nat.lt_of_le_of_lt (List.length_take_le _ _) size.toNat_lt

/-- The parts of the page that `squid_client_fs_list_next` changes. -/
def fsListWalk (nextCursor : UInt16) (left : UInt8) (bytes : List UInt8) :
    Int × Option ListRecord × UInt8 × List UInt8 :=
  let call := squidClientFsListNext ⟨nextCursor, left, bytes⟩
  (call.1, call.2.1, call.2.2.entriesLeft, call.2.2.next)

theorem fsListWalk_walks (nextCursor : UInt16) : Walks fsListLayout (fsListWalk nextCursor) := by
  refine ⟨fun bytes => rfl, ?_, ?_⟩
  · intro left bytes hleft hbroken
    rw [fsListWalk, squidClientFsListNext, if_neg hleft]
    dsimp only
    split
    · rfl
    rename_i hlong
    split
    · rfl
    rename_i hfits
    have hfront : bytes.drop 0 = byteAt bytes 0 :: bytes.drop 1 := byteAt_cons_drop (by omega)
    have hname := drop_counted (show 1 + 1 + (byteAt bytes 1).toNat ≤ bytes.length by omega)
    rw [writeU32_readU32 (show 1 + 1 + (byteAt bytes 1).toNat + 4 ≤ bytes.length by omega)] at hname
    have hsize := length_take_byte bytes 2 (byteAt bytes 1)
    refine absurd (hfront.trans (congrArg _ hname)) ?_
    rw [← List.append_assoc]
    exact hbroken ⟨byteAt bytes 0, _, _⟩ _ hsize
  · intro left x rest hleft hx
    rw [fsListWalk, fsListLayout, squidClientFsListNext_record nextCursor hleft hx rest]

/-- The parts of the page that `squid_client_retro_list_next` changes. -/
def retroListWalk (nextCursor : UInt16) (left : UInt8) (bytes : List UInt8) :
    Int × Option CatalogEntry × UInt8 × List UInt8 :=
  let call := squidClientRetroListNext ⟨nextCursor, left, bytes⟩
  (call.1, call.2.1, call.2.2.entriesLeft, call.2.2.next)

theorem retroListWalk_walks (nextCursor : UInt16) :
    Walks retroListLayout (retroListWalk nextCursor) := by
  refine ⟨fun bytes => rfl, ?_, ?_⟩
  · intro left bytes hleft hbroken
    rw [retroListWalk, squidClientRetroListNext, if_neg hleft]
    dsimp only
    split
    · rfl
    rename_i hsome
    split
    · rfl
    rename_i hid
    split
    · rfl
    rename_i hname
    have hfront := drop_counted (show 0 + 1 + (byteAt bytes 0).toNat ≤ bytes.length by omega)
    rw [Nat.zero_add, drop_counted (show 1 + (byteAt bytes 0).toNat + 1 +
      (byteAt bytes (1 + (byteAt bytes 0).toNat)).toNat ≤ bytes.length by omega)] at hfront
    have hidSize := length_take_byte bytes 1 (byteAt bytes 0)
    have hnameSize := length_take_byte bytes (1 + (byteAt bytes 0).toNat + 1)
      (byteAt bytes (1 + (byteAt bytes 0).toNat))
    refine absurd hfront ?_
    rw [← List.append_assoc]
    exact hbroken ⟨_, _⟩ _ ⟨hidSize, hnameSize⟩
  · intro left x rest hleft hx
    rw [retroListWalk, retroListLayout, squidClientRetroListNext_entry nextCursor hleft hx rest]

/-- The parts of the page that `squid_client_retro_info_next` changes. -/
def retroInfoWalk (nextCursor : UInt16) (left : UInt8) (bytes : List UInt8) :
    Int × Option InfoRecord × UInt8 × List UInt8 :=
  let call := squidClientRetroInfoNext ⟨nextCursor, left, bytes⟩
  (call.1, call.2.1, call.2.2.valuesLeft, call.2.2.next)

theorem retroInfoWalk_walks (nextCursor : UInt16) :
    Walks retroInfoLayout (retroInfoWalk nextCursor) := by
  refine ⟨fun bytes => rfl, ?_, ?_⟩
  · intro left bytes hleft hbroken
    rw [retroInfoWalk, squidClientRetroInfoNext, if_neg hleft]
    dsimp only
    split
    · rfl
    rename_i hlong
    split
    · rfl
    rename_i hfits
    have hfront : bytes.drop 0 = byteAt bytes 0 :: bytes.drop 1 := byteAt_cons_drop (by omega)
    have hvalue := drop_counted (show 1 + 1 + (byteAt bytes 1).toNat ≤ bytes.length by omega)
    have hsize := length_take_byte bytes 2 (byteAt bytes 1)
    exact absurd (hfront.trans (congrArg _ hvalue)) (hbroken ⟨byteAt bytes 0, _⟩ _ hsize)
  · intro left x rest hleft hx
    rw [retroInfoWalk, retroInfoLayout, squidClientRetroInfoNext_record nextCursor hleft hx rest]

/-- The iterators on addresses do what the iterators on the bytes of a page do. -/
theorem viewCall_next (memory : Memory) {page : PagePointers} (hpos : 0 < page.next)
    (hle : page.next ≤ page.stop) (hnear : page.stop < page.next + 2 ^ 16)
    (nextCursor : UInt16) :
    viewCall fsListLayout memory (result memory (fsListNext page)) =
        fsListWalk nextCursor page.left (bytesBetween memory page.next page.stop) ∧
      viewCall retroListLayout memory (result memory (retroListNext page)) =
        retroListWalk nextCursor page.left (bytesBetween memory page.next page.stop) ∧
      viewCall retroInfoLayout memory (result memory (retroInfoNext page)) =
        retroInfoWalk nextCursor page.left (bytesBetween memory page.next page.stop) := by
  refine ⟨?_, ?_, ?_⟩
  · exact ((fsListWalk_walks nextCursor).answered
      (nextRecord_answered fsListRecord_reads hpos hle hnear).2).symm
  · exact ((retroListWalk_walks nextCursor).answered
      (nextRecord_answered retroListRecord_reads hpos hle hnear).2).symm
  · exact ((retroInfoWalk_walks nextCursor).answered
      (nextRecord_answered retroInfoRecord_reads hpos hle hnear).2).symm

/-- What came of calling an iterator for as long as it returned 1: the entries, each with the page
it left, and the result and the page of the last call. -/
structure Drained (ε : Type) where
  steps : List (ε × PagePointers)
  result : Int
  page : PagePointers
deriving DecidableEq

/-- The calls, up to 256 of them; `none` when this is not enough. -/
def drain (next : PagePointers → Program Loading (Int × Option ε × PagePointers))
    (page : PagePointers) : Program Loading (Option (Drained ε)) :=
  Program.loop (fun (steps, page) => do
    let (result, entry, page) ← next page
    if result = 1 then return .inl (steps ++ entry.toList.map (·, page), page)
    else return .inr ⟨steps, result, page⟩) 256 ([], page)

section
variable {ρ ε : Type} (layout : RecordLayout ρ ε) (memory : Memory) (packet size : Nat)

/-- The steps that an iterator has made, and the page it is at. -/
structure Stepped (steps : List (ε × PagePointers)) (page : PagePointers) : Prop where
  pages : ∀ step ∈ steps, packet + 5 ≤ step.2.next ∧ step.2.next ≤ step.2.stop ∧
    step.2.stop = packet + size
  slices : ∀ step ∈ steps, ∀ slice ∈ layout.slices step.1,
    packet + 5 ≤ slice.data ∧ slice.data + slice.size.toNat ≤ packet + size
  contents : bytesBetween memory (packet + 5) page.next =
    (steps.map fun step => layout.value memory step.1).flatMap layout.encode
  last : page = (steps.getLast?.map Prod.snd).getD (pageOf memory packet size)

/-- How the calls on the page of a response end: the iterator stays where its last step has left it,
and its last result is 0 when the announced number of records fills the page, else
`SQUID_CLIENT_ERROR_PROTOCOL`. -/
structure EndsSafely (drained : Drained ε) : Prop extends
    Stepped layout memory packet size drained.steps drained.page where
  count : drained.steps.length ≤ 255
  result : drained.result = 0 ∨ drained.result = squidClientErrorProtocol
  tiles : drained.result = 0 ↔ Tiles layout (memory (packet + 4)).toNat
    (bytesBetween memory (packet + 5) (packet + size))

/-- The steps that are behind an iterator, and the records that are still ahead of it. -/
structure Draining (fuel : Nat) (steps : List (ε × PagePointers)) (page : PagePointers) : Prop
    extends Stepped layout memory packet size steps page where
  fuel : fuel + steps.length = 256
  left : page.left.toNat + steps.length = (memory (packet + 4)).toNat
  next : packet + 5 ≤ page.next ∧ page.next ≤ page.stop
  stop : page.stop = packet + size
  ahead : Tiles layout (memory (packet + 4)).toNat
    (bytesBetween memory (packet + 5) (packet + size)) ↔
      Tiles layout page.left.toNat (bytesBetween memory page.next page.stop)

variable {layout memory packet size}

theorem Draining.start (hsize : 5 ≤ size) :
    Draining layout memory packet size 256 [] (pageOf memory packet size) := by
  refine ⟨⟨fun step h => absurd h List.not_mem_nil, fun step h => absurd h List.not_mem_nil, ?_,
    rfl⟩, rfl, rfl, ⟨Nat.le_refl _, Nat.add_le_add_left hsize packet⟩, rfl, Iff.rfl⟩
  exact bytesBetween_nil (Nat.le_refl _)

theorem mem_snoc {α : Type} {xs : List α} {x y : α} : y ∈ xs ++ [x] ↔ y ∈ xs ∨ y = x := by
  rw [List.mem_append, List.mem_singleton]

theorem Draining.step {fuel next : Nat} {steps : List (ε × PagePointers)} {page : PagePointers}
    {entry : ε} (h : Draining layout memory packet size (fuel + 1) steps page)
    (hleft : page.left ≠ 0) (hfound : Found layout memory page.next page.stop entry next) :
    Draining layout memory packet size fuel (steps ++ [(entry, ⟨page.left - 1, next, page.stop⟩)])
      ⟨page.left - 1, next, page.stop⟩ := by
  obtain ⟨hnext, hstop⟩ := hfound.range
  have hcount := toNat_of_ne_zero hleft
  have hlength (step : ε × PagePointers) : (steps ++ [step]).length = steps.length + 1 := by
    rw [List.length_append, List.length_singleton]
  refine ⟨⟨?pages, ?slices, ?contents, ?last⟩, ?fuel, ?left, ?next, h.stop, ?ahead⟩
  case pages =>
    intro step hstep
    rcases mem_snoc.1 hstep with hstep | rfl
    · exact h.pages step hstep
    · exact ⟨Nat.le_trans h.next.1 hnext, hstop, h.stop⟩
  case slices =>
    intro step hstep slice hslice
    rcases mem_snoc.1 hstep with hstep | rfl
    · exact h.slices step hstep slice hslice
    · have hinside := hfound.slices slice hslice
      have hbegin := h.next.1
      have hend := h.stop
      omega
  case contents =>
    rw [bytesBetween_append h.next.1 hnext, h.contents, hfound.bytes, List.map_append,
      List.flatMap_append, List.map_singleton, List.flatMap_singleton]
  case last =>
    rw [List.getLast?_concat]
    rfl
  case fuel =>
    rw [hlength, ← h.fuel]
    omega
  case left =>
    rw [hlength, ← h.left, hcount]
    exact (Nat.succ_add_eq_add_succ _ _).symm
  case next => exact ⟨Nat.le_trans h.next.1 hnext, hstop⟩
  case ahead =>
    rw [h.ahead, bytesBetween_append hnext hstop, hfound.bytes, hcount]
    exact tiles_succ hfound.fits

/-- An iterator that cannot go on, with records still ahead or bytes left over. -/
theorem Draining.endsBroken {fuel : Nat} {steps : List (ε × PagePointers)} {page : PagePointers}
    (h : Draining layout memory packet size fuel steps page) (hcount : steps.length ≤ 255)
    (hbroken : ¬ Tiles layout page.left.toNat (bytesBetween memory page.next page.stop)) :
    EndsSafely layout memory packet size ⟨steps, squidClientErrorProtocol, page⟩ :=
  ⟨h.toStepped, hcount, .inr rfl, iff_of_false (show squidClientErrorProtocol ≠ 0 by decide)
    fun htiles => hbroken (h.ahead.1 htiles)⟩

theorem drain_safe {next : PagePointers → Program Loading (Int × Option ε × PagePointers)}
    (hnext : ∀ page, 0 < page.next → page.next ≤ page.stop → page.stop < page.next + 2 ^ 16 →
      Within memory page.next page.stop (next page) (Answered layout memory page))
    (hpacket : 0 < packet) (hsize : 5 ≤ size) (hmax : size ≤ 255) :
    Within memory (packet + 5) (packet + size) (drain next (pageOf memory packet size))
      fun r => ∃ drained, r = some drained ∧ EndsSafely layout memory packet size drained := by
  refine within_loop (fun fuel done => Draining layout memory packet size fuel done.1 done.2)
    ?_ ?_ (Draining.start hsize)
  · intro done h
    have hfuel := h.fuel
    have hleft := h.left
    have hcount := (memory (packet + 4)).toNat_lt
    omega
  · rintro fuel ⟨steps, page⟩ h
    obtain ⟨hbegin, hend⟩ := h.next
    dsimp only at hbegin hend
    have hstop : page.stop = packet + size := h.stop
    have hanswered := (hnext page (by omega) hend (by omega)).widen hbegin (Nat.le_of_eq hstop)
    refine within_bind.2 (hanswered.mono ?_)
    intro call hcall
    have hcount : steps.length ≤ 255 := by
      have hfuel := h.fuel
      dsimp only at hfuel
      omega
    cases hcall with
    | ended hleft hbytes =>
      dsimp only
      rw [if_neg (by decide)]
      refine within_pure.2 ⟨fun _ heq => (by cases heq), ?_⟩
      rintro drained ⟨⟩
      exact ⟨_, rfl, ⟨h.toStepped, hcount, .inl rfl,
        iff_of_true rfl (h.ahead.2 ((tiles_ended hleft).2 hbytes))⟩⟩
    | overfull hleft hbytes =>
      dsimp only
      rw [if_neg (by decide)]
      refine within_pure.2 ⟨fun _ heq => (by cases heq), ?_⟩
      rintro drained ⟨⟩
      exact ⟨_, rfl, h.endsBroken hcount fun htiles => hbytes ((tiles_ended hleft).1 htiles)⟩
    | broken hleft hbroken =>
      dsimp only
      rw [if_neg (by decide)]
      refine within_pure.2 ⟨fun _ heq => (by cases heq), ?_⟩
      rintro drained ⟨⟩
      exact ⟨_, rfl, h.endsBroken hcount (not_tiles_broken hleft hbroken)⟩
    | stored hleft hfound =>
      refine within_pure.2 ⟨?_, fun _ heq => by cases heq⟩
      rintro done ⟨⟩
      exact h.step hleft hfound

end

/-- The iterators go through the pages of any response safely. -/
theorem pages_end_safely (memory : Memory) (hpacket : 0 < packet) (hsize : 5 ≤ size)
    (hmax : size ≤ 255) :
    Within memory (packet + 5) (packet + size) (drain fsListNext (pageOf memory packet size))
      (fun r => ∃ drained, r = some drained ∧
        EndsSafely fsListLayout memory packet size drained) ∧
    Within memory (packet + 5) (packet + size) (drain retroListNext (pageOf memory packet size))
      (fun r => ∃ drained, r = some drained ∧
        EndsSafely retroListLayout memory packet size drained) ∧
    Within memory (packet + 5) (packet + size) (drain retroInfoNext (pageOf memory packet size))
      (fun r => ∃ drained, r = some drained ∧
        EndsSafely retroInfoLayout memory packet size drained) :=
  ⟨drain_safe (fun _ => nextRecord_answered fsListRecord_reads) hpacket hsize hmax,
    drain_safe (fun _ => nextRecord_answered retroListRecord_reads) hpacket hsize hmax,
    drain_safe (fun _ => nextRecord_answered retroInfoRecord_reads) hpacket hsize hmax⟩

/-- A response at address 256 that announces two entries and holds one, with a byte behind it. -/
def shortPage : Memory := fun address =>
  ([0x82, 0, 0xFF, 0xFF, 2, 1, 1, 0x61, 5, 0, 0, 0, 7] : List UInt8).getD (address - 256) 0

theorem pages_end_safely_short :
    (∃ drained, result shortPage (drain fsListNext (pageOf shortPage 256 13)) = some drained ∧
      EndsSafely fsListLayout shortPage 256 13 drained) ∧
    result shortPage (drain fsListNext (pageOf shortPage 256 13)) =
      some ⟨[(⟨1, ⟨263, 1⟩, 5⟩, ⟨1, 268, 269⟩)], squidClientErrorProtocol, ⟨1, 268, 269⟩⟩ := by
  refine ⟨(pages_end_safely shortPage (by decide) (by decide) (by decide)).1.2, ?_⟩
  decide +kernel

end SquidServer.Client

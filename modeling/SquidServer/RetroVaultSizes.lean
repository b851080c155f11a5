import SquidServer.RetroVaultDocuments

namespace SquidServer.RetroVault
open CText Json
set_option autoImplicit true

/-- The aggregate size of a download, from the sizes of its files. -/
def IsAggregate (sizes : List (Option Nat)) (aggregateSize : UInt32) : Prop :=
  (none ∉ sizes ∧ sizes.reduceOption.sum ≤ 2 ^ 32 - 1 ∧
    aggregateSize.toNat = sizes.reduceOption.sum) ∨
  ((none ∈ sizes ∨ 2 ^ 32 - 1 < sizes.reduceOption.sum) ∧ aggregateSize = retroVaultSizeUnknown)

/-- The test for an overflow finds one at a file, given the sizes of the files before it. Both sides
are taken modulo 2^64. -/
def TestFires (before : List (Option Nat)) (size : Nat) : Prop :=
  (2 ^ 64 + (2 ^ 32 - 1) - size) % 2 ^ 64 < before.reduceOption.sum % 2 ^ 64

def SomeTestFires (sizes : List (Option Nat)) : Prop :=
  ∃ before size after, sizes = before ++ some size :: after ∧ TestFires before size

theorem someTestFires_append {done : List (Option Nat)} :
    SomeTestFires (done ++ [some n]) ↔ SomeTestFires done ∨ TestFires done n := by
  constructor
  · rintro ⟨before, size, after, heq, htest⟩
    rcases List.eq_nil_or_concat after with rfl | ⟨rest, last, rfl⟩
    · obtain ⟨rfl, hsize⟩ := List.append_inj' heq rfl
      rw [← Option.some.inj (List.cons.inj hsize).1] at htest
      exact .inr htest
    · have heq' : done ++ [some n] = (before ++ some size :: rest) ++ [last] := by
        simpa using heq
      exact .inl ⟨before, size, rest, (List.append_inj' heq' rfl).1, htest⟩
  · rintro (⟨before, size, after, rfl, htest⟩ | htest)
    · exact ⟨before, size, after ++ [some n], by rw [List.append_assoc, List.cons_append], htest⟩
    · exact ⟨done, n, [], rfl, htest⟩

/-- The loop of `parse_download_files` without the parsing. -/
def addSize (totals : FileTotals) (size : Option Nat) : FileTotals :=
  let fileCount := if totals.fileCount < 255 then totals.fileCount + 1 else totals.fileCount
  match size with
  | none => { totals with fileCount := fileCount, allSizesKnown := false }
  | some n =>
    if (0xFFFFFFFF : UInt64) - UInt64.ofNat n < totals.total then
      { totals with fileCount := fileCount, allSizesKnown := false }
    else { totals with fileCount := fileCount, total := totals.total + UInt64.ofNat n }

def sizeTotals (sizes : List (Option Nat)) : FileTotals := sizes.foldl addSize ⟨0, 0, true⟩

theorem sizeTotals_append (done : List (Option Nat)) (size : Option Nat) :
    sizeTotals (done ++ [size]) = addSize (sizeTotals done) size := by
  rw [sizeTotals, List.foldl_append]
  rfl

theorem addFile_sizes {files : List (Option Nat)} (hlt : ∀ n, some n ∈ files → n < 2 ^ 64) :
    Advances (Renders 32) addFile (DescribesFile cName) sizeTotals files := by
  rintro done size later value text rfl ⟨members, rfl, hsize⟩ htext
  have hbound : ∀ n ∈ size, n < 2 ^ 64 := by
    rintro n rfl
    exact hlt n (List.mem_append_right _ List.mem_cons_self)
  have hget := getJsonUint64Member_number htext (by decide) hsize hbound
  rw [addFile, if_neg (by simp [typeOf]), typeOf, hget, sizeTotals_append]
  simp only [Option.bind_eq_bind, Option.bind_some, addSize]
  cases size with
  | none => rfl
  | some n =>
    dsimp only [Option.map_some]
    split <;> rfl

theorem ofNat_lt_iff (total n : Nat) (hn : n < 2 ^ 64) :
    (0xFFFFFFFF : UInt64) - UInt64.ofNat n < UInt64.ofNat total ↔
      (2 ^ 64 + (2 ^ 32 - 1) - n) % 2 ^ 64 < total % 2 ^ 64 := by
  have hsize : (UInt64.ofNat n).toNat = n := UInt64.toNat_ofNat_of_lt' hn
  have hlimit : (0xFFFFFFFF : UInt64).toNat = 2 ^ 32 - 1 := rfl
  rw [UInt64.lt_iff_toNat_lt, UInt64.toNat_sub, hsize, hlimit, UInt64.toNat_ofNat']
  have hsame : 2 ^ 64 - n + (2 ^ 32 - 1) = 2 ^ 64 + (2 ^ 32 - 1) - n := by omega
  rw [hsame]

/-- What the loop has found out after some files. -/
theorem sizeTotals_spec (sizes : List (Option Nat)) (hlt : ∀ n, some n ∈ sizes → n < 2 ^ 64) :
    ((sizeTotals sizes).allSizesKnown = true ∧ none ∉ sizes ∧ ¬ SomeTestFires sizes ∧
      (sizeTotals sizes).total = UInt64.ofNat sizes.reduceOption.sum) ∨
    ((sizeTotals sizes).allSizesKnown = false ∧ (none ∈ sizes ∨ SomeTestFires sizes)) := by
  induction sizes using List.reverseRecOn with
  | nil =>
    refine .inl ⟨rfl, List.not_mem_nil, ?_, rfl⟩
    rintro ⟨before, size, after, h, -⟩
    exact List.append_ne_nil_of_right_ne_nil before (List.cons_ne_nil _ _) h.symm
  | append_singleton done size ih =>
    rw [sizeTotals_append]
    rcases ih (fun n hn => hlt n (List.mem_append_left _ hn)) with
      ⟨hknown, hnone, hquiet, htotal⟩ | ⟨hunknown, hwhy⟩
    · cases size with
      | none => exact .inr ⟨rfl, .inl (List.mem_append_right _ List.mem_cons_self)⟩
      | some n =>
        have hn := hlt n (List.mem_append_right _ List.mem_cons_self)
        have hfires : (0xFFFFFFFF : UInt64) - UInt64.ofNat n < (sizeTotals done).total ↔
            TestFires done n := by
          rw [htotal]
          exact ofNat_lt_iff _ n hn
        by_cases hfire : TestFires done n
        · refine .inr ⟨?_, .inr ⟨done, n, [], rfl, hfire⟩⟩
          rw [addSize, if_pos (hfires.2 hfire)]
        · refine .inl ?_
          rw [addSize, if_neg fun h => hfire (hfires.1 h)]
          refine ⟨hknown, ?_, ?_, ?_⟩
          · simp [hnone]
          · rw [someTestFires_append]
            exact not_or.2 ⟨hquiet, hfire⟩
          · dsimp only
            rw [htotal, List.reduceOption_append, List.reduceOption_singleton, Option.toList_some,
              List.sum_append, List.sum_singleton, UInt64.ofNat_add]
    · refine .inr ⟨?_, ?_⟩
      · cases size with
        | none => rfl
        | some n =>
          rw [addSize]
          split
          · rfl
          · exact hunknown
      · rcases hwhy with hnone | ⟨before, n, after, rfl, htest⟩
        · exact .inl (List.mem_append_left _ hnone)
        · refine .inr ⟨before, n, after ++ [size], ?_, htest⟩
          rw [List.append_assoc]
          rfl

/-- A test that fires has met a sum that is too large. -/
theorem sum_of_testFires {sizes : List (Option Nat)} (h : SomeTestFires sizes) :
    2 ^ 32 - 1 < sizes.reduceOption.sum := by
  obtain ⟨before, n, after, rfl, htest⟩ := h
  rw [TestFires] at htest
  rw [List.reduceOption_append, List.reduceOption_cons_of_some, List.sum_append, List.sum_cons]
  omega

theorem parseDownloadFiles_sizes {files : List (Option Nat)}
    (h : Renders 32 (.object members) object)
    (hmember : memberNamed cName members "files" = some (.array values))
    (hvalues : List.Forall₂ (DescribesFile cName) files values)
    (hlt : ∀ n, some n ∈ files → n < 2 ^ 64) : parseDownloadFiles ⟨object, .object⟩ =
      some (if (sizeTotals files).allSizesKnown then (sizeTotals files).total.toUInt32
        else retroVaultSizeUnknown, (sizeTotals files).fileCount) := by
  obtain ⟨text, htext, hget⟩ := getJsonMember_present h (by decide) hmember
  obtain ⟨iterator, hinit, hfold⟩ := foldJsonArray_rendered (scans_renders (by decide))
    (addFile_sizes hlt) htext.inner hvalues
  have hstart : (⟨0, 0, true⟩ : FileTotals) = sizeTotals [] := rfl
  rw [parseDownloadFiles, hget]
  simp only [Option.bind_eq_bind, Option.bind_some, typeOf, hinit, hstart, hfold]
  rfl

/-- The aggregate size is right just when a size is missing, the sizes add up to no more than
2^32 - 1, a test for an overflow fires, or the sum happens to leave the number for an unknown
size. -/
theorem aggregateSize_iff {files : List (Option Nat)} (h : Renders 32 (.object members) object)
    (hmember : memberNamed cName members "files" = some (.array values))
    (hvalues : List.Forall₂ (DescribesFile cName) files values)
    (hlt : ∀ n, some n ∈ files → n < 2 ^ 64) :
    (∃ aggregateSize fileCount, parseDownloadFiles ⟨object, .object⟩ =
      some (aggregateSize, fileCount) ∧ IsAggregate files aggregateSize) ↔
    none ∈ files ∨ files.reduceOption.sum ≤ 2 ^ 32 - 1 ∨ SomeTestFires files ∨
      files.reduceOption.sum % 2 ^ 32 = 2 ^ 32 - 1 := by
  have hparse := parseDownloadFiles_sizes h hmember hvalues hlt
  have hone : (∃ aggregateSize fileCount, parseDownloadFiles ⟨object, .object⟩ =
      some (aggregateSize, fileCount) ∧ IsAggregate files aggregateSize) ↔
        IsAggregate files (if (sizeTotals files).allSizesKnown then
          (sizeTotals files).total.toUInt32 else retroVaultSizeUnknown) := by
    rw [hparse]
    constructor
    · rintro ⟨aggregateSize, fileCount, heq, haggregate⟩
      rw [(Prod.mk.inj (Option.some.inj heq)).1]
      exact haggregate
    · exact fun haggregate => ⟨_, _, rfl, haggregate⟩
  rw [hone]
  rcases sizeTotals_spec files hlt with ⟨hknown, hnone, hquiet, htotal⟩ | ⟨hunknown, hwhy⟩
  · rw [if_pos hknown, htotal, UInt64.toUInt32_ofNat']
    have hsame : UInt32.ofNat files.reduceOption.sum = retroVaultSizeUnknown ↔
        files.reduceOption.sum % 2 ^ 32 = 2 ^ 32 - 1 := by
      rw [← UInt32.toNat_inj, UInt32.toNat_ofNat']
      rfl
    constructor
    · rintro (⟨-, hle, -⟩ | ⟨-, heq⟩)
      · exact .inr (.inl hle)
      · exact .inr (.inr (.inr (hsame.1 heq)))
    · intro hwhen
      by_cases hle : files.reduceOption.sum ≤ 2 ^ 32 - 1
      · have hvalue : (UInt32.ofNat files.reduceOption.sum).toNat = files.reduceOption.sum :=
          UInt32.toNat_ofNat_of_lt' (show _ < 2 ^ 32 by omega)
        exact .inl ⟨hnone, hle, hvalue⟩
      · have hmod := hwhen.resolve_left hnone |>.resolve_left hle |>.resolve_left hquiet
        exact .inr ⟨.inr (Nat.not_le.1 hle), hsame.2 hmod⟩
  · rw [if_neg (by rw [hunknown]; exact Bool.false_ne_true)]
    constructor
    · intro _
      rcases hwhy with hnone | hfires
      · exact .inl hnone
      · exact .inr (.inr (.inl hfires))
    · intro _
      exact .inr ⟨hwhy.imp id sum_of_testFires, rfl⟩

/-- A download object with one file of 2^32 bytes. -/
def largeMembers : List (Text × Value) :=
  [(nameText "files", .array [.object [(nameText "sizeBytes", .number (ascii "4294967296"))]])]

def largeObject : List UInt8 := ascii "\x7b\"files\":[\x7b\"sizeBytes\":4294967296\x7d]\x7d"

theorem renders_large : Renders 32 (.object largeMembers) largeObject := by
  have hfile : Renders 30 (.object [(nameText "sizeBytes", .number (ascii "4294967296"))]) _ :=
    ⟨_, .inr (.one (member_number (by decide) ⟨by decide, by decide⟩ 29)), rfl⟩
  have hfiles : Renders 31 (.array [.object [(nameText "sizeBytes",
      .number (ascii "4294967296"))]]) _ := ⟨_, .inr (.one (item_bare hfile)), rfl⟩
  exact ⟨_, .inr (.one (member_bare (spells_name (by decide)) hfiles)), by decide⟩

theorem describes_large : List.Forall₂ (DescribesFile cName) [some (2 ^ 32)]
    [.object [(nameText "sizeBytes", .number (ascii "4294967296"))]] :=
  .cons ⟨_, rfl, ascii "4294967296", by decide, by decide, rfl⟩ .nil

theorem parse_large : parseDownloadFiles ⟨largeObject, .object⟩ = some (0, 1) := by
  decide +kernel

theorem largeFile_aggregate :
    parseDownloadFiles ⟨largeObject, .object⟩ = some (0, 1) ∧
      Renders 32 (.object largeMembers) largeObject ∧
        memberNamed cName largeMembers "files" = some
          (.array [.object [(nameText "sizeBytes", .number (ascii "4294967296"))]]) ∧
          List.Forall₂ (DescribesFile cName) [some (2 ^ 32)]
            [.object [(nameText "sizeBytes", .number (ascii "4294967296"))]] ∧
            ¬ IsAggregate [some (2 ^ 32)] 0 := by
  refine ⟨parse_large, renders_large, rfl, describes_large, ?_⟩
  rintro (⟨-, hle, -⟩ | ⟨-, hzero⟩)
  · exact absurd hle (by decide)
  · exact absurd hzero (by decide)

theorem aggregateSize_iff_large : Renders 32 (.object largeMembers) largeObject ∧
    ¬ ∃ aggregateSize fileCount, parseDownloadFiles ⟨largeObject, .object⟩ =
      some (aggregateSize, fileCount) ∧ IsAggregate [some (2 ^ 32)] aggregateSize := by
  have hlt : ∀ n, some n ∈ [some (2 ^ 32)] → n < 2 ^ 64 := by
    intro n hn
    rw [Option.some.inj (List.mem_singleton.1 hn)]
    decide
  refine ⟨renders_large, ?_⟩
  intro hright
  rcases (aggregateSize_iff renders_large rfl describes_large hlt).1 hright with
    hnone | hle | hfires | hmod
  · exact absurd hnone (by decide)
  · exact absurd hle (by decide)
  · obtain ⟨before, n, after, heq, htest⟩ := hfires
    cases before with
    | nil => exact absurd htest (Nat.not_lt_zero _)
    | cons first before =>
      obtain ⟨-, htail⟩ := List.cons.inj heq
      exact absurd htail.symm (List.append_ne_nil_of_right_ne_nil before (List.cons_ne_nil _ _))
  · exact absurd hmod (by decide)

end SquidServer.RetroVault

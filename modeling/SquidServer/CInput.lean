import SquidServer.CText
import Mathlib.Data.List.DropRight
import Mathlib.Data.Int.Basic

namespace CInput
open CText
set_option autoImplicit true

abbrev newline : UInt8 := 0x0A

/-- `fgets` with a buffer of `size` bytes: the bytes it stores before the NUL, and what it leaves
in the stream. -/
def fgets (size : Nat) (stream : List UInt8) : Option (List UInt8 × List UInt8) :=
  if stream = [] then none
  else
    let n := min (size - 1) ((stream.takeWhile (· ≠ newline)).length + 1)
    some (stream.take n, stream.drop n)

/-- The buffers of a loop over `fgets`, in at most `n` turns. -/
def fgetsTurns (size : Nat) : Nat → List UInt8 → List (List UInt8)
  | 0, _ => []
  | n + 1, stream =>
    match fgets size stream with
    | none => []
    | some (buffer, rest) => buffer :: fgetsTurns size n rest

/-- The buffers of a loop over `fgets` to the end of the stream. Every turn takes a byte. -/
def fgetsLoop (size : Nat) (stream : List UInt8) : List (List UInt8) :=
  fgetsTurns size stream.length stream

/-- The lines of a text, without the newlines that end them. -/
def lines : List UInt8 → List (List UInt8)
  | [] => []
  | c :: text =>
    if c = newline then [] :: lines text
    else match lines text with
      | [] => [[c]]
      | line :: rest => (c :: line) :: rest

theorem lines_newline (text : List UInt8) : lines (newline :: text) = [] :: lines text := if_pos rfl

theorem lines_last (hne : line ≠ []) (h : newline ∉ line) : lines line = [line] := by
  induction line with
  | nil => exact absurd rfl hne
  | cons c line ih =>
    have hc : c ≠ newline := fun hc => h (hc ▸ List.mem_cons_self)
    rw [lines, if_neg hc]
    cases line with
    | nil => rfl
    | cons d line => rw [ih (List.cons_ne_nil _ _) fun hmem => h (List.mem_cons_of_mem c hmem)]

theorem lines_append (h : newline ∉ line) (text : List UInt8) :
    lines (line ++ newline :: text) = line :: lines text := by
  induction line with
  | nil => exact lines_newline text
  | cons c line ih =>
    have hc : c ≠ newline := fun hc => h (hc ▸ List.mem_cons_self)
    rw [List.cons_append, lines, if_neg hc, ih fun hmem => h (List.mem_cons_of_mem c hmem)]

theorem lines_cases (text : List UInt8) : text = [] ∨ (text ≠ [] ∧ newline ∉ text) ∨
    ∃ line rest, newline ∉ line ∧ text = line ++ newline :: rest := by
  by_cases hmem : newline ∈ text
  · obtain ⟨line, rest, rfl, hline⟩ := List.eq_append_cons_of_mem hmem
    exact .inr (.inr ⟨line, rest, hline, rfl⟩)
  · by_cases hne : text = []
    · exact .inl hne
    · exact .inr (.inl ⟨hne, hmem⟩)

theorem mem_of_mem_lines (hline : line ∈ lines text) (hc : c ∈ line) : c ∈ text := by
  induction hn : text.length using Nat.strong_induction_on generalizing text with
  | _ n ih =>
    rcases lines_cases text with rfl | ⟨hne, hnot⟩ | ⟨first, rest, hnot, rfl⟩
    · cases hline
    · rw [lines_last hne hnot, List.mem_singleton] at hline
      exact hline ▸ hc
    · rw [lines_append hnot] at hline
      rcases List.mem_cons.1 hline with rfl | hline
      · exact List.mem_append_left _ hc
      · apply List.mem_append_right
        apply List.mem_cons_of_mem
        apply ih rest.length _ hline rfl
        rw [← hn, List.length_append, List.length_cons]
        omega

theorem takeWhile_line (h : newline ∉ line) (rest : List UInt8) :
    (line ++ newline :: rest).takeWhile (· ≠ newline) = line := by
  have hall : ∀ c ∈ line, decide (c ≠ newline) = true := by
    intro c hc
    exact decide_eq_true fun he => h (he ▸ hc)
  rw [List.takeWhile_append_of_pos hall, List.takeWhile_cons_of_neg (by simp), List.append_nil]

theorem fgets_line (h : newline ∉ line) (hsize : line.length + 2 ≤ size) (rest : List UInt8) :
    fgets size (line ++ newline :: rest) = some (line ++ [newline], rest) := by
  have hn : min (size - 1) (line.length + 1) = (line ++ [newline]).length := by
    rw [List.length_append, List.length_singleton]
    omega
  rw [fgets, if_neg (by simp), takeWhile_line h]
  dsimp only
  rw [hn, List.append_cons line newline rest, List.take_left, List.drop_left]

theorem fgets_last (hne : line ≠ []) (h : newline ∉ line) (hsize : line.length + 1 ≤ size) :
    fgets size line = some (line, []) := by
  have hall : line.takeWhile (· ≠ newline) = line :=
    List.takeWhile_eq_self_iff.2 fun c hc => decide_eq_true fun he => h (he ▸ hc)
  rw [fgets, if_neg hne, hall]
  dsimp only
  rw [List.take_of_length_le (by omega), List.drop_of_length_le (by omega)]

theorem fgets_shorter (hsize : 2 ≤ size) (h : fgets size stream = some (buffer, rest)) :
    rest.length < stream.length := by
  rw [fgets] at h
  split at h
  · cases h
  · rename_i hne
    cases h
    have hpos := List.length_pos_of_ne_nil hne
    rw [List.length_drop]
    omega

theorem fgetsTurns_eq (hsize : 2 ≤ size) (hn : stream.length ≤ n) :
    fgetsTurns size n stream = fgetsLoop size stream := by
  have hsame : ∀ n m (stream : List UInt8), stream.length ≤ n → stream.length ≤ m →
      fgetsTurns size n stream = fgetsTurns size m stream := by
    intro n
    induction n with
    | zero =>
      intro m stream hn _
      rw [List.length_eq_zero_iff.1 (Nat.le_zero.1 hn)]
      cases m <;> rfl
    | succ n ih =>
      intro m stream hn hm
      cases m with
      | zero =>
        rw [List.length_eq_zero_iff.1 (Nat.le_zero.1 hm)]
        rfl
      | succ m =>
        rw [fgetsTurns, fgetsTurns]
        cases hget : fgets size stream with
        | none => rfl
        | some x =>
          obtain ⟨buffer, rest⟩ := x
          have hless := fgets_shorter hsize hget
          dsimp only
          rw [ih m rest (by omega) (by omega)]
  exact hsame n stream.length stream hn (Nat.le_refl _)

theorem fgetsLoop_cons (hsize : 2 ≤ size) (h : fgets size stream = some (buffer, rest)) :
    fgetsLoop size stream = buffer :: fgetsLoop size rest := by
  have hless := fgets_shorter hsize h
  obtain ⟨n, hn⟩ : ∃ n, stream.length = n + 1 := ⟨stream.length - 1, by omega⟩
  rw [fgetsLoop, hn, fgetsTurns, h]
  dsimp only
  rw [fgetsTurns_eq hsize (by omega)]

theorem fgetsLoop_lines (h : ∀ line ∈ lines text, line.length + 2 ≤ size) :
    List.Forall₂ (fun buffer line => buffer = line ∨ buffer = line ++ [newline])
      (fgetsLoop size text) (lines text) := by
  induction hn : text.length using Nat.strong_induction_on generalizing text with
  | _ n ih =>
    rcases lines_cases text with rfl | ⟨hne, hline⟩ | ⟨line, rest, hline, rfl⟩
    · exact .nil
    · rw [lines_last hne hline] at h ⊢
      have hsize := h text List.mem_cons_self
      rw [fgetsLoop_cons (by omega) (fgets_last hne hline (by omega))]
      exact .cons (.inl rfl) .nil
    · rw [lines_append hline] at h ⊢
      have hsize := h line List.mem_cons_self
      rw [fgetsLoop_cons (by omega) (fgets_line hline hsize rest)]
      refine .cons (.inr rfl)
        (ih rest.length ?_ (fun l hl => h l (List.mem_cons_of_mem line hl)) rfl)
      rw [← hn, List.length_append, List.length_cons]
      omega

theorem fgets_full (h : newline ∉ line) (hsize : line.length + 1 = size) (rest : List UInt8) :
    fgets size (line ++ newline :: rest) = some (line, newline :: rest) := by
  have hn : min (size - 1) (line.length + 1) = line.length := by omega
  rw [fgets, if_neg (by simp), takeWhile_line h]
  dsimp only
  rw [hn, List.take_left, List.drop_left]

/-- What is found in the lines that fit the buffer is found in the buffers. The newline of a line
that just fits is read alone. -/
theorem filterMap_fgetsLoop {f : List UInt8 → Option α} (hsize : 2 ≤ size)
    (hempty : f [] = none) (hend : ∀ line, f (line ++ [newline]) = f line)
    (h : ∀ line ∈ lines text, line.length + 1 ≤ size) :
    (fgetsLoop size text).filterMap f = (lines text).filterMap f := by
  induction hn : text.length using Nat.strong_induction_on generalizing text with
  | _ n ih =>
    rcases lines_cases text with rfl | ⟨hne, hline⟩ | ⟨line, rest, hline, rfl⟩
    · rfl
    · rw [lines_last hne hline] at h ⊢
      rw [fgetsLoop_cons hsize (fgets_last hne hline (h text List.mem_cons_self))]
      rfl
    · rw [lines_append hline] at h ⊢
      have hfirst := h line List.mem_cons_self
      have hrest := ih rest.length (by
        rw [← hn, List.length_append, List.length_cons]
        omega) (fun l hl => h l (List.mem_cons_of_mem line hl)) rfl
      by_cases hfull : line.length + 1 = size
      · have hnewline : fgets size (newline :: rest) = some ([newline], rest) :=
          fgets_line (List.not_mem_nil (a := newline)) hsize rest
        have hnone : f [newline] = none := (hend []).trans hempty
        rw [fgetsLoop_cons hsize (fgets_full hline hfull rest), fgetsLoop_cons hsize hnewline,
          List.filterMap_cons, List.filterMap_cons, List.filterMap_cons, hnone, hrest]
      · rw [fgetsLoop_cons hsize (fgets_line hline (by omega) rest), List.filterMap_cons,
          List.filterMap_cons, hend, hrest]

/-- A text cut after each newline and after each `size` bytes of a line, when there is room for
`room` bytes in the first piece. -/
def piecesFrom (size : Nat) : Nat → List UInt8 → List (List UInt8)
  | _, [] => []
  | room, c :: text =>
    if c = newline ∨ room ≤ 1 then [c] :: piecesFrom size size text
    else match piecesFrom size (room - 1) text with
      | [] => [[c]]
      | piece :: rest => (c :: piece) :: rest

def pieces (size : Nat) (text : List UInt8) : List (List UInt8) := piecesFrom size size text

theorem piecesFrom_eq (hroom : 1 ≤ room) (hne : text ≠ []) : piecesFrom size room text =
    text.take (min room ((text.takeWhile (· ≠ newline)).length + 1)) ::
      pieces size (text.drop (min room ((text.takeWhile (· ≠ newline)).length + 1))) := by
  induction text generalizing room with
  | nil => exact absurd rfl hne
  | cons c text ih =>
    rw [piecesFrom]
    split
    · rename_i hcut
      have hone : min room (((c :: text).takeWhile (· ≠ newline)).length + 1) = 1 := by
        rcases hcut with hc | hc
        · rw [List.takeWhile_cons_of_neg (by simp [hc])]
          exact Nat.min_eq_right hroom
        · omega
      rw [hone]
      rfl
    · rename_i hcut
      rw [not_or] at hcut
      have hcount : min room (((c :: text).takeWhile (· ≠ newline)).length + 1) =
          min (room - 1) ((text.takeWhile (· ≠ newline)).length + 1) + 1 := by
        rw [List.takeWhile_cons_of_pos (by simp [hcut.1]), List.length_cons]
        omega
      rw [hcount, List.take_succ_cons, List.drop_succ_cons]
      cases text with
      | nil => rw [piecesFrom, List.take_nil, List.drop_nil, pieces, piecesFrom]
      | cons d text => rw [ih (by omega) (List.cons_ne_nil _ _)]

theorem fgetsLoop_eq_pieces (hsize : 1 ≤ size) (text : List UInt8) :
    fgetsLoop (size + 1) text = pieces size text := by
  induction hn : text.length using Nat.strong_induction_on generalizing text with
  | _ n ih =>
    by_cases hne : text = []
    · rw [hne]
      rfl
    · have hget : fgets (size + 1) text = some
          (text.take (min size ((text.takeWhile (· ≠ newline)).length + 1)),
            text.drop (min size ((text.takeWhile (· ≠ newline)).length + 1))) := if_neg hne
      have hshort := fgets_shorter (Nat.add_le_add_right hsize 1) hget
      rw [fgetsLoop_cons (Nat.add_le_add_right hsize 1) hget, pieces, piecesFrom_eq hsize hne]
      rw [ih _ (hn ▸ hshort) _ rfl]

/-- The text with the given lines. -/
def unlines (texts : List (List UInt8)) : List UInt8 := texts.flatMap (· ++ [newline])

theorem lines_unlines (h : ∀ line ∈ texts, newline ∉ line) : lines (unlines texts) = texts := by
  induction texts with
  | nil => rfl
  | cons line texts ih =>
    rw [unlines, List.flatMap_cons, List.append_assoc, List.singleton_append, ← unlines,
      lines_append (h line List.mem_cons_self), ih fun line hline => h line (.tail _ hline)]

theorem newline_notMem_of_mem_lines (hline : line ∈ lines text) : newline ∉ line := by
  induction hn : text.length using Nat.strong_induction_on generalizing text with
  | _ n ih =>
    rcases lines_cases text with rfl | ⟨hne, hnot⟩ | ⟨first, rest, hnot, rfl⟩
    · cases hline
    · rw [lines_last hne hnot, List.mem_singleton] at hline
      exact hline ▸ hnot
    · rw [lines_append hnot] at hline
      rcases List.mem_cons.1 hline with rfl | hline
      · exact hnot
      · apply ih rest.length _ hline rfl
        rw [← hn, List.length_append, List.length_cons]
        omega

section
variable (isDelimiter : UInt8 → Bool)

/-- `strtok`: the next token, and where the next call goes on. -/
def strtok (text : List UInt8) : Option (List UInt8) × List UInt8 :=
  let start := text.dropWhile isDelimiter
  if start = [] then (none, [])
  else (some (start.takeWhile fun c => ¬ isDelimiter c),
    (start.dropWhile fun c => ¬ isDelimiter c).drop 1)

/-- The parts of a text between its delimiters, without the empty ones. -/
def fields (text : List UInt8) : List (List UInt8) :=
  (text.splitOnP isDelimiter).filter (· ≠ [])

variable {isDelimiter}

theorem fields_delimiter (h : isDelimiter c = true) (text : List UInt8) :
    fields isDelimiter (c :: text) = fields isDelimiter text := by
  rw [fields, List.splitOnP_cons_eq_if_modifyHead, if_pos h]
  rfl

theorem fields_dropWhile (text : List UInt8) :
    fields isDelimiter (text.dropWhile isDelimiter) = fields isDelimiter text := by
  induction text with
  | nil => rfl
  | cons c text ih =>
    by_cases hc : isDelimiter c = true
    · rw [List.dropWhile_cons_of_pos hc, ih, fields_delimiter hc]
    · rw [List.dropWhile_cons_of_neg hc]

theorem fields_word (hne : word ≠ []) (h : ∀ c ∈ word, isDelimiter c = false) :
    fields isDelimiter word = [word] := by
  rw [fields, List.splitOnP_eq_singleton h]
  simp [hne]

theorem fields_cons (hne : word ≠ []) (h : ∀ c ∈ word, isDelimiter c = false)
    (hd : isDelimiter d = true) (text : List UInt8) :
    fields isDelimiter (word ++ d :: text) = word :: fields isDelimiter text := by
  rw [fields, List.splitOnP_append_cons_of_forall_mem h d hd]
  simp [hne, fields]

theorem strtok_fields (text : List UInt8) :
    (strtok isDelimiter text).1 = (fields isDelimiter text).head? ∧
      fields isDelimiter (strtok isDelimiter text).2 = (fields isDelimiter text).tail := by
  rw [← fields_dropWhile text, strtok]
  cases hstart : text.dropWhile isDelimiter with
  | nil => exact ⟨rfl, rfl⟩
  | cons c start =>
    have hc : isDelimiter c = false := by
      have hhead := List.head?_dropWhile_not isDelimiter text
      rw [hstart] at hhead
      exact hhead
    rw [if_neg (List.cons_ne_nil _ _)]
    have hword : (c :: start).takeWhile (fun c => ¬ isDelimiter c) ≠ [] := by
      rw [List.takeWhile_cons_of_pos (by simp [hc])]
      exact List.cons_ne_nil _ _
    have hall : ∀ d ∈ (c :: start).takeWhile (fun c => ¬ isDelimiter c), isDelimiter d = false := by
      intro d hd
      simpa using List.mem_takeWhile_imp hd
    have hsplit := List.takeWhile_append_dropWhile (p := fun c => ¬ isDelimiter c) (l := c :: start)
    cases hrest : (c :: start).dropWhile (fun c => ¬ isDelimiter c) with
    | nil =>
      rw [hrest, List.append_nil] at hsplit
      have hfields := fields_word hword hall
      rw [hsplit] at hfields
      rw [hsplit, hfields]
      exact ⟨rfl, rfl⟩
    | cons d rest =>
      have hd : isDelimiter d = true := by
        have hhead := List.head?_dropWhile_not (fun c => ¬ isDelimiter c) (c :: start)
        rw [hrest] at hhead
        simpa using hhead
      have hfields := fields_cons hword hall hd rest
      rw [hrest] at hsplit
      rw [hsplit] at hfields
      rw [hfields]
      exact ⟨rfl, rfl⟩

theorem strtok_token (text : List UInt8) :
    (strtok isDelimiter text).1 = (fields isDelimiter text)[0]? :=
  (strtok_fields text).1.trans (List.head?_eq_getElem?)

theorem fields_head (hc : isDelimiter c = false) (text : List UInt8) :
    ∃ word, (fields isDelimiter (c :: text))[0]? = some (c :: word) := by
  refine ⟨text.takeWhile fun c => ¬ isDelimiter c, ?_⟩
  rw [← strtok_token, strtok, List.dropWhile_cons_of_neg (by rw [hc]; exact Bool.false_ne_true),
    if_neg (List.cons_ne_nil _ _), List.takeWhile_cons_of_pos (by simp [hc])]

theorem strtok_rest (text : List UInt8) (i : Nat) :
    (fields isDelimiter (strtok isDelimiter text).2)[i]? = (fields isDelimiter text)[i + 1]? := by
  rw [(strtok_fields text).2, List.getElem?_tail]

end

/-- The number that plain digits stand for. -/
def decimal (digits : List UInt8) : Nat := digits.foldl (fun n c => n * 10 + (c.toNat - 0x30)) 0

abbrev longMax : Int := 2 ^ 63 - 1

abbrev longMin : Int := -2 ^ 63

/-- A number as `strtol` returns it, which is the nearest `long`. -/
def clampLong (n : Int) : Int :=
  if n < longMin then longMin else if longMax < n then longMax else n

/-- A number behind an optional sign. -/
def splitSign : List UInt8 → Bool × List UInt8
  | 0x2D :: rest => (true, rest)
  | 0x2B :: rest => (false, rest)
  | rest => (false, rest)

/-- The number at the start of a text, behind white space, and the bytes after it. -/
def scanNumber (text : List UInt8) : Option (Int × List UInt8) :=
  let (negative, digits) := splitSign (text.dropWhile isSpace)
  if digits.takeWhile isDigit = [] then none
  else
    let n : Int := decimal (digits.takeWhile isDigit)
    some (if negative then -n else n, digits.dropWhile isDigit)

/-- `strtol` in base 10: the number and the bytes after it; `none` when there are no digits, where
C has the end at the start of the text. -/
def strtol (text : List UInt8) : Option (Int × List UInt8) :=
  (scanNumber text).map fun x => (clampLong x.1, x.2)

/-- A decimal integer as it may be written, and its value. -/
def Numeral (text : List UInt8) (n : Int) : Prop :=
  ∃ space sign digits, text = space ++ (sign ++ digits) ∧ (∀ c ∈ space, isSpace c = true) ∧
    digits ≠ [] ∧ (∀ c ∈ digits, isDigit c = true) ∧
      ((sign = [0x2D] ∧ n = -decimal digits) ∨ ((sign = [] ∨ sign = [0x2B]) ∧ n = decimal digits))

theorem isDigit_bounds (h : isDigit c = true) : 0x30 ≤ c.toNat ∧ c.toNat ≤ 0x39 :=
  of_decide_eq_true h

theorem isDigit_ne (h : isDigit c = true) : c ≠ 0x2D ∧ c ≠ 0x2B ∧ isSpace c = false := by
  have hc := isDigit_bounds h
  refine ⟨?_, ?_, ?_⟩
  · rintro rfl
    exact absurd hc (by decide)
  · rintro rfl
    exact absurd hc (by decide)
  · rw [isSpace, decide_eq_false_iff_not, ← UInt8.toNat_inj, UInt8.le_iff_toNat_le,
      UInt8.le_iff_toNat_le]
    simp only [UInt8.reduceToNat]
    omega

theorem splitSign_digits (hne : digits ≠ []) (h : ∀ c ∈ digits, isDigit c = true) :
    splitSign digits = (false, digits) := by
  obtain ⟨c, rest, rfl⟩ := List.exists_cons_of_ne_nil hne
  obtain ⟨hminus, hplus, -⟩ := isDigit_ne (h c List.mem_cons_self)
  rw [splitSign.eq_3]
  · rintro _ heq
    exact hminus (List.cons.inj heq).1
  · rintro _ heq
    exact hplus (List.cons.inj heq).1

theorem splitSign_cases (text : List UInt8) : ∃ sign, text = sign ++ (splitSign text).2 ∧
    ((sign = [0x2D] ∧ (splitSign text).1 = true) ∨
      ((sign = [] ∨ sign = [0x2B]) ∧ (splitSign text).1 = false)) := by
  rw [splitSign.eq_def]
  split
  · exact ⟨[0x2D], rfl, .inl ⟨rfl, rfl⟩⟩
  · exact ⟨[0x2B], rfl, .inr ⟨.inr rfl, rfl⟩⟩
  · exact ⟨[], rfl, .inr ⟨.inl rfl, rfl⟩⟩

theorem splitSign_numeral {n : Int} (hne : digits ≠ []) (h : ∀ c ∈ digits, isDigit c = true)
    (hsign : (sign = [0x2D] ∧ n = -decimal digits) ∨
      ((sign = [] ∨ sign = [0x2B]) ∧ n = decimal digits)) :
    ∃ negative, splitSign (sign ++ digits) = (negative, digits) ∧
      n = if negative then -(decimal digits : Int) else decimal digits := by
  rcases hsign with ⟨rfl, hn⟩ | ⟨rfl | rfl, hn⟩
  · exact ⟨true, rfl, hn⟩
  · exact ⟨false, splitSign_digits hne h, hn⟩
  · exact ⟨false, rfl, hn⟩

theorem scanNumber_iff : scanNumber text = some (n, []) ↔ Numeral text n := by
  constructor
  · intro h
    rw [scanNumber] at h
    obtain ⟨sign, hsplit, hsign⟩ := splitSign_cases (text.dropWhile isSpace)
    generalize splitSign (text.dropWhile isSpace) = x at h hsplit hsign
    obtain ⟨negative, digits⟩ := x
    dsimp only at h hsplit hsign
    split at h
    · cases h
    · rename_i hne
      simp only [Option.some.injEq, Prod.mk.injEq] at h
      obtain ⟨hn, hrest⟩ := h
      have hall : ∀ c ∈ digits, isDigit c = true := List.dropWhile_eq_nil_iff.1 hrest
      have htake : digits.takeWhile isDigit = digits := List.takeWhile_eq_self_iff.2 hall
      rw [htake] at hne hn
      refine ⟨text.takeWhile isSpace, sign, digits, ?_, fun c hc => List.mem_takeWhile_imp hc, hne,
        hall, ?_⟩
      · rw [← hsplit, List.takeWhile_append_dropWhile]
      · rcases hsign with ⟨hs, rfl⟩ | ⟨hs, rfl⟩
        · exact .inl ⟨hs, hn.symm⟩
        · exact .inr ⟨hs, hn.symm⟩
  · rintro ⟨space, sign, digits, rfl, hspace, hne, hall, hsign⟩
    have hstart : (sign ++ digits).dropWhile isSpace = sign ++ digits := by
      obtain ⟨c, rest, rfl⟩ := List.exists_cons_of_ne_nil hne
      have hc := (isDigit_ne (hall c List.mem_cons_self)).2.2
      rcases hsign with ⟨rfl, -⟩ | ⟨rfl | rfl, -⟩
      · rfl
      · exact List.dropWhile_cons_of_neg (by rw [hc]; exact Bool.false_ne_true)
      · rfl
    obtain ⟨negative, hsplit, hn⟩ := splitSign_numeral hne hall hsign
    have htake : digits.takeWhile isDigit = digits := List.takeWhile_eq_self_iff.2 hall
    have hdrop : digits.dropWhile isDigit = [] := List.dropWhile_eq_nil_iff.2 hall
    rw [scanNumber, List.dropWhile_append_of_pos hspace, hstart, hsplit]
    dsimp only
    rw [htake, hdrop, if_neg hne, hn]

theorem strtol_iff : strtol text = some (v, []) ↔ ∃ n, Numeral text n ∧ v = clampLong n := by
  rw [strtol, Option.map_eq_some_iff]
  constructor
  · rintro ⟨⟨n, rest⟩, hscan, hv⟩
    simp only [Prod.mk.injEq] at hv
    obtain ⟨hv, rfl⟩ := hv
    exact ⟨n, scanNumber_iff.1 hscan, hv.symm⟩
  · rintro ⟨n, hn, rfl⟩
    exact ⟨(n, []), scanNumber_iff.2 hn, rfl⟩

theorem Numeral.unique (h : Numeral text n) (h' : Numeral text n') : n = n' := by
  have hsame := scanNumber_iff.2 h
  rw [scanNumber_iff.2 h'] at hsame
  exact (Prod.mk.inj (Option.some.inj hsame)).1.symm

theorem clampLong_le_iff {a n : Int} (h : longMin ≤ a) (h' : a < longMax) :
    clampLong n ≤ a ↔ n ≤ a := by
  rw [clampLong]
  generalize longMin = low at *
  generalize longMax = high at *
  split <;> [skip; split] <;> omega

theorem le_clampLong_iff {a n : Int} (h : longMin < a) (h' : a ≤ longMax) :
    a ≤ clampLong n ↔ a ≤ n := by
  rw [clampLong]
  generalize longMin = low at *
  generalize longMax = high at *
  split <;> [skip; split] <;> omega

theorem clampLong_of_mem (h : longMin ≤ n) (h' : n ≤ longMax) : clampLong n = n := by
  rw [clampLong, if_neg (Int.not_lt.2 h), if_neg (Int.not_lt.2 h')]

end CInput

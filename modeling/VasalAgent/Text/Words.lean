import Mathlib.Algebra.Group.Nat.Defs
import Mathlib.Data.List.Forall2

/-!
# Lines, words and numbers of a text

What `str::lines`, `str::split_whitespace`, `str::trim` and `u64::from_str` of Rust's
standard library make of a text, and the layouts that they read back.
-/

namespace VasalAgent.Text

/-! ## Words -/

/-- `char::is_whitespace`: the characters with the property `White_Space`. -/
def isWhitespace (c : Char) : Bool :=
  (9 ≤ c.toNat && c.toNat ≤ 13) || c.toNat == 0x20 || c.toNat == 0x85 || c.toNat == 0xA0 ||
    c.toNat == 0x1680 || (0x2000 ≤ c.toNat && c.toNat ≤ 0x200A) || c.toNat == 0x2028 ||
    c.toNat == 0x2029 || c.toNat == 0x202F || c.toNat == 0x205F || c.toNat == 0x3000

/-- `split_whitespace`. -/
def words (text : List Char) : List (List Char) :=
  (text.splitOnP isWhitespace).filter (· ≠ [])

def IsBlank (text : List Char) : Prop := ∀ c ∈ text, isWhitespace c = true

structure IsWord (text : List Char) : Prop where
  ne_nil : text ≠ []
  dark : ∀ c ∈ text, isWhitespace c = false

instance (text : List Char) : Decidable (IsWord text) :=
  -- not over `∀ c ∈ text`, which has a decision procedure that runs through all characters
  decidable_of_iff (text ≠ [] ∧ text.all (fun c => !isWhitespace c) = true)
    ⟨fun h => ⟨h.1, by simpa using h.2⟩, fun h => ⟨h.ne_nil, by simpa using h.dark⟩⟩

theorem words_blank_append {gap : List Char} (h : IsBlank gap) (rest : List Char) :
    words (gap ++ rest) = words rest := by
  induction gap with
  | nil => rfl
  | cons c gap ih =>
      have hc : isWhitespace c = true := h c List.mem_cons_self
      have hgap : IsBlank gap := fun d hd => h d (List.mem_cons_of_mem c hd)
      rw [← ih hgap, List.cons_append, words, List.splitOnP_cons_eq_if_modifyHead, if_pos hc]
      simp [words]

theorem words_word {word : List Char} (h : IsWord word) : words word = [word] := by
  rw [words, List.splitOnP_eq_singleton h.dark]
  simp [h.ne_nil]

theorem words_word_append {word : List Char} (h : IsWord word) {c : Char}
    (hc : isWhitespace c = true) (rest : List Char) :
    words (word ++ c :: rest) = word :: words rest := by
  rw [words, List.splitOnP_append_cons_of_forall_mem h.dark c hc]
  simp [words, h.ne_nil]

/-- The text has these words, with any blanks around them. -/
inductive Spaced : List (List Char) → List Char → Prop
  | blank {text : List Char} (h : IsBlank text) : Spaced [] text
  | last {gap word : List Char} (hgap : IsBlank gap) (hword : IsWord word) :
      Spaced [word] (gap ++ word)
  | cons {gap word rest : List Char} {c : Char} {more : List (List Char)} (hgap : IsBlank gap)
      (hword : IsWord word) (hc : isWhitespace c = true) (hrest : Spaced more rest) :
      Spaced (word :: more) (gap ++ (word ++ c :: rest))

theorem words_of_spaced {more : List (List Char)} {text : List Char} (h : Spaced more text) :
    words text = more := by
  induction h with
  | @blank text hblank =>
      rw [← List.append_nil text, words_blank_append hblank]
      rfl
  | last hgap hword => rw [words_blank_append hgap, words_word hword]
  | cons hgap hword hc _ ih => rw [words_blank_append hgap, words_word_append hword hc, ih]

def unwords (ws : List (List Char)) : List Char := ws.flatMap (· ++ [' '])

theorem spaced_unwords {ws : List (List Char)} (h : ∀ word ∈ ws, IsWord word) :
    Spaced ws (unwords ws) := by
  induction ws with
  | nil => exact .blank (by simp [IsBlank, unwords])
  | cons word rest ih =>
      have hrest := ih fun other hother => h other (List.mem_cons_of_mem word hother)
      have htext : unwords (word :: rest) = [] ++ (word ++ ' ' :: unwords rest) := by
        simp [unwords]
      rw [htext]
      exact .cons (by simp [IsBlank]) (h word List.mem_cons_self) (by decide) hrest

/-! ## Lines -/

/-- A line that ends in `\r\n` does not keep the `\r`. -/
def stripCr (line : List Char) : List Char :=
  if line.getLast? = some '\r' then line.dropLast else line

def linesFrom : List (List Char) → List (List Char)
  | [] => []
  | [last] => if last = [] then [] else [last]
  | line :: next :: rest => stripCr line :: linesFrom (next :: rest)

/-- `str::lines`. -/
def lines (text : List Char) : List (List Char) := linesFrom (text.splitOn '\n')

def unlines (lines : List (List Char)) : List Char := lines.flatMap (· ++ ['\n'])

theorem lines_line_append {line : List Char} (h : '\n' ∉ line) (rest : List Char) :
    lines (line ++ '\n' :: rest) = stripCr line :: lines rest := by
  have hfirst : (line ++ '\n' :: rest).splitOn '\n' = line :: rest.splitOn '\n' := by
    refine List.splitOnP_append_cons_of_forall_mem (fun c hc => ?_) '\n' (by simp) rest
    have hne : c ≠ '\n' := fun heq => h (heq ▸ hc)
    simpa using hne
  rw [lines, hfirst, lines]
  cases hrest : rest.splitOn '\n' with
  | nil => exact absurd hrest (List.splitOnP_ne_nil _ _)
  | cons next more => rfl

/-- The line has no characters that end lines. -/
structure IsLine (line : List Char) : Prop where
  noFeed : '\n' ∉ line
  noReturn : '\r' ∉ line

instance (line : List Char) : Decidable (IsLine line) :=
  decidable_of_iff ('\n' ∉ line ∧ '\r' ∉ line)
    ⟨fun h => ⟨h.1, h.2⟩, fun h => ⟨h.noFeed, h.noReturn⟩⟩

theorem IsLine.append {left right : List Char} (hleft : IsLine left) (hright : IsLine right) :
    IsLine (left ++ right) :=
  ⟨List.not_mem_append hleft.noFeed hright.noFeed,
    List.not_mem_append hleft.noReturn hright.noReturn⟩

theorem IsLine.cons_space {line : List Char} (h : IsLine line) : IsLine (' ' :: line) :=
  (⟨by decide, by decide⟩ : IsLine [' ']).append h

theorem IsWord.isLine {text : List Char} (h : IsWord text) : IsLine text := by
  have habsent {c : Char} (hblank : isWhitespace c = true) : c ∉ text := fun hc =>
    absurd (h.dark c hc) (by simp [hblank])
  exact ⟨habsent (by decide), habsent (by decide)⟩

theorem lines_unlines {content : List (List Char)} (h : ∀ line ∈ content, IsLine line) :
    lines (unlines content) = content := by
  induction content with
  | nil => rfl
  | cons line rest ih =>
      have hline := h line List.mem_cons_self
      have hkept : stripCr line = line :=
        if_neg fun hlast => hline.noReturn (List.mem_of_getLast? hlast)
      have hrest := ih fun other hother => h other (List.mem_cons_of_mem line hother)
      rw [unlines, List.flatMap_cons, List.append_assoc, List.singleton_append,
        lines_line_append hline.noFeed, hkept, ← unlines, hrest]

/-- A text of lines, each with the words of a row. -/
structure Table (rows : List (List (List Char))) (content : List Char) : Prop where
  layout : ∃ text, content = unlines text ∧ (∀ line ∈ text, IsLine line) ∧
    List.Forall₂ Spaced rows text

theorem Table.words_lines {rows : List (List (List Char))} {content : List Char}
    (h : Table rows content) : (lines content).map words = rows := by
  obtain ⟨⟨text, rfl, hlines, hspaced⟩⟩ := h
  rw [lines_unlines hlines]
  induction hspaced with
  | nil => rfl
  | cons hfirst _ ih =>
      rw [List.map_cons, words_of_spaced hfirst,
        ih fun line hline => hlines line (List.mem_cons_of_mem _ hline)]

theorem isLine_unwords {ws : List (List Char)} (h : ∀ word ∈ ws, IsWord word) :
    IsLine (unwords ws) := by
  induction ws with
  | nil => exact ⟨List.not_mem_nil, List.not_mem_nil⟩
  | cons word rest ih =>
      have hrest := ih fun other hother => h other (List.mem_cons_of_mem word hother)
      have hword := (h word List.mem_cons_self).isLine
      exact (hword.append ⟨by decide, by decide⟩).append hrest

theorem table_unwords {rows : List (List (List Char))}
    (h : ∀ row ∈ rows, ∀ word ∈ row, IsWord word) : Table rows (unlines (rows.map unwords)) := by
  refine ⟨rows.map unwords, rfl, ?_, List.forall₂_map_right_iff.mpr ?_⟩
  · intro line hline
    obtain ⟨row, hrow, rfl⟩ := List.mem_map.mp hline
    exact isLine_unwords (h row hrow)
  · exact List.forall₂_same.mpr fun row hrow => spaced_unwords (h row hrow)

/-! ## Numbers -/

def trim (text : List Char) : List Char :=
  ((text.dropWhile isWhitespace).reverse.dropWhile isWhitespace).reverse

/-- `u64::from_str`. -/
def parseU64 (text : List Char) : Option Nat :=
  let digits := if text.head? = some '+' then text.tail else text
  if digits ≠ [] ∧ digits.all Char.isDigit ∧ Nat.ofDigitChars 10 digits 0 < 2 ^ 64 then
    some (Nat.ofDigitChars 10 digits 0)
  else none

/-- `to_string` of an unsigned number. -/
def digits (n : Nat) : List Char := Nat.toDigits 10 n

theorem isDigit_of_mem_digits {n : Nat} {c : Char} (h : c ∈ digits n) : c.isDigit = true :=
  Nat.isDigit_of_mem_toDigits (by decide) (by decide) h

theorem isWhitespace_of_isDigit {c : Char} (h : c.isDigit = true) : isWhitespace c = false := by
  have hrange : 48 ≤ c.toNat ∧ c.toNat ≤ 57 := by
    simpa [Char.isDigit, UInt32.le_iff_toNat_le] using h
  simp [isWhitespace]
  omega

theorem isWord_digits (n : Nat) : IsWord (digits n) :=
  ⟨Nat.toDigits_ne_nil, fun _ h => isWhitespace_of_isDigit (isDigit_of_mem_digits h)⟩

def counterLine (name : List Char) (n : Nat) : List Char := name ++ ' ' :: digits n

theorem isLine_counterLine {name : List Char} (h : IsWord name) (n : Nat) :
    IsLine (counterLine name n) :=
  h.isLine.append (isWord_digits n).isLine.cons_space

theorem words_counterLine {name : List Char} (h : IsWord name) (n : Nat) :
    words (counterLine name n) = [name, digits n] := by
  rw [counterLine, words_word_append h (by decide), words_word (isWord_digits n)]

theorem trim_word {word : List Char} (h : IsWord word) : trim word = word := by
  have hkept (text : List Char) (hdark : ∀ c ∈ text, isWhitespace c = false) :
      text.dropWhile isWhitespace = text := by
    cases text with
    | nil => rfl
    | cons c rest => rw [List.dropWhile_cons_of_neg (by simp [hdark c])]
  rw [trim, hkept word h.dark, hkept word.reverse (by simpa using h.dark), List.reverse_reverse]

theorem parseU64_digits {n : Nat} (h : n < 2 ^ 64) : parseU64 (digits n) = some n := by
  have hplus : (digits n).head? ≠ some '+' := by
    intro hhead
    have hdigit := isDigit_of_mem_digits (List.mem_of_head? hhead)
    cases hdigit
  have hall : (digits n).all Char.isDigit = true :=
    List.all_eq_true.mpr fun _ hc => isDigit_of_mem_digits hc
  have hvalue : Nat.ofDigitChars 10 (digits n) 0 = n := Nat.ofDigitChars_ten_toDigits
  have hne : digits n ≠ [] := Nat.toDigits_ne_nil
  rw [parseU64, if_neg hplus, hvalue, if_pos ⟨hne, hall, h⟩]

end VasalAgent.Text

import VasalAgent.Serde.Codec
import VasalAgent.Text.Utf8

/-!
# Reading JSON texts

The text reader of `serde_json`, which follows arrays and objects only to a fixed
depth.  It keeps the fields of an object as they stand in the text; what becomes of
them is up to the type that is read (`Codec.fromText`).  The main result is what it
makes of a printed value: `parse_render`.

Loops over a text are bounded by its length, as every round takes a character.
-/

namespace VasalAgent.Serde

open VasalAgent.Protocol (Json Number)

abbrev Reader (α : Type) := List Char → Option (α × List Char)

/-! ## Strings -/

def hexDigit? (c : Char) : Option Nat :=
  if '0' ≤ c ∧ c ≤ '9' then some (c.toNat - '0'.toNat)
  else if 'a' ≤ c ∧ c ≤ 'f' then some (c.toNat - 'a'.toNat + 10)
  else if 'A' ≤ c ∧ c ≤ 'F' then some (c.toNat - 'A'.toNat + 10)
  else none

/-- The four digits of a `\u` escape. -/
def readUnit : Reader Nat
  | a :: b :: c :: d :: rest => do
      let a ← hexDigit? a
      let b ← hexDigit? b
      let c ← hexDigit? c
      let d ← hexDigit? d
      pure (((a * 16 + b) * 16 + c) * 16 + d, rest)
  | _ => none

/-- A `\u` escape, which stands for a character or for half of a surrogate pair. -/
def readUnicode (chars : List Char) : Option (Char × List Char) := do
  let (unit, rest) ← readUnit chars
  if 0xDC00 ≤ unit ∧ unit ≤ 0xDFFF then none
  else if 0xD800 ≤ unit ∧ unit ≤ 0xDBFF then
    match rest with
    | '\\' :: 'u' :: rest => do
        let (low, rest) ← readUnit rest
        if 0xDC00 ≤ low ∧ low ≤ 0xDFFF then
          pure (Char.ofNat (0x10000 + (unit - 0xD800) * 0x400 + (low - 0xDC00)), rest)
        else none
    | _ => none
  else pure (Char.ofNat unit, rest)

def readEscape : Reader Char
  | '"' :: rest => some ('"', rest)
  | '\\' :: rest => some ('\\', rest)
  | '/' :: rest => some ('/', rest)
  | 'b' :: rest => some (Char.ofNat 8, rest)
  | 'f' :: rest => some (Char.ofNat 12, rest)
  | 'n' :: rest => some (Char.ofNat 10, rest)
  | 'r' :: rest => some (Char.ofNat 13, rest)
  | 't' :: rest => some (Char.ofNat 9, rest)
  | 'u' :: rest => readUnicode rest
  | _ => none

/-- The characters up to the closing quote. -/
def readChars : Nat → Reader (List Char)
  | 0, _ => none
  | _ + 1, [] => none
  | bound + 1, c :: rest =>
      if c = '"' then some ([], rest)
      else if c = '\\' then do
        let (c, rest) ← readEscape rest
        let (chars, rest) ← readChars bound rest
        pure (c :: chars, rest)
      else if c.toNat < 32 then none
      else do
        let (chars, rest) ← readChars bound rest
        pure (c :: chars, rest)

def readString (chars : List Char) : Option (String × List Char) := do
  let (text, rest) ← readChars chars.length chars
  pure (String.ofList text, rest)

theorem hexDigit?_digitChar {digit : Nat} (h : digit < 16) :
    hexDigit? (Nat.digitChar digit) = some digit := by
  have hall : ∀ digit : Fin 16, hexDigit? (Nat.digitChar digit) = some digit.val := by decide
  exact hall ⟨digit, h⟩

theorem readUnicode_control {c : Char} (h : c.toNat < 32) (rest : List Char) :
    readUnicode ('0' :: '0' :: Nat.digitChar (c.toNat / 16) :: Nat.digitChar (c.toNat % 16) ::
      rest) = some (c, rest) := by
  have hhigh : hexDigit? (Nat.digitChar (c.toNat / 16)) = some (c.toNat / 16) :=
    hexDigit?_digitChar (by omega)
  have hlow : hexDigit? (Nat.digitChar (c.toNat % 16)) = some (c.toNat % 16) :=
    hexDigit?_digitChar (by omega)
  have hzero : hexDigit? '0' = some 0 := by decide
  have hunit : ((0 * 16 + 0) * 16 + c.toNat / 16) * 16 + c.toNat % 16 = c.toNat := by omega
  simp only [readUnicode, readUnit, hzero, hhigh, hlow, Option.pure_def, Option.bind_eq_bind,
    Option.bind_some, hunit, Char.ofNat_toNat]
  rw [if_neg (by omega), if_neg (by omega)]

theorem eq_ofNat {c : Char} {n : Nat} (h : c.toNat = n) : c = Char.ofNat n := by
  rw [← h, Char.ofNat_toNat]

/-- A character is read from its escaped form. -/
theorem readChars_escapeChar (bound : Nat) (c : Char) (rest : List Char) :
    readChars (bound + 1) ((Json.escapeChar c).toList ++ rest) = (do
      let (chars, rest) ← readChars bound rest
      pure (c :: chars, rest)) := by
  have hescaped (escape : List Char) {c : Char}
      (hread : readEscape (escape ++ rest) = some (c, rest)) :
      readChars (bound + 1) ('\\' :: (escape ++ rest)) = (do
        let (chars, rest) ← readChars bound rest
        pure (c :: chars, rest)) := by
    simp [readChars, hread]
  unfold Json.escapeChar
  by_cases hquote : c = '"'
  · rw [if_pos hquote, hquote]
    exact hescaped ['"'] rfl
  rw [if_neg hquote]
  by_cases hslash : c = '\\'
  · rw [if_pos hslash, hslash]
    exact hescaped ['\\'] rfl
  rw [if_neg hslash]
  by_cases hbackspace : c.toNat = 8
  · rw [if_pos hbackspace, eq_ofNat hbackspace]
    exact hescaped ['b'] rfl
  rw [if_neg hbackspace]
  by_cases htab : c.toNat = 9
  · rw [if_pos htab, eq_ofNat htab]
    exact hescaped ['t'] rfl
  rw [if_neg htab]
  by_cases hnewline : c.toNat = 10
  · rw [if_pos hnewline, eq_ofNat hnewline]
    exact hescaped ['n'] rfl
  rw [if_neg hnewline]
  by_cases hfeed : c.toNat = 12
  · rw [if_pos hfeed, eq_ofNat hfeed]
    exact hescaped ['f'] rfl
  rw [if_neg hfeed]
  by_cases hreturn : c.toNat = 13
  · rw [if_pos hreturn, eq_ofNat hreturn]
    exact hescaped ['r'] rfl
  rw [if_neg hreturn]
  by_cases hcontrol : c.toNat < 32
  · have hprefix : "\\u00".toList = ['\\', 'u', '0', '0'] := by simp
    rw [if_pos hcontrol, String.toList_append, hprefix, String.toList_ofList]
    exact hescaped ['u', '0', '0', Nat.digitChar (c.toNat / 16),
      Nat.digitChar (c.toNat % 16)] (readUnicode_control hcontrol rest)
  · rw [if_neg hcontrol]
    simp [readChars, hquote, hslash, hcontrol]

theorem readChars_escaped (text : List Char) (rest : List Char) {bound : Nat}
    (h : text.length < bound) :
    readChars bound (text.flatMap (fun c => (Json.escapeChar c).toList) ++ '"' :: rest) =
      some (text, rest) := by
  induction text generalizing bound with
  | nil =>
      obtain ⟨bound, rfl⟩ : ∃ n, bound = n + 1 := ⟨bound - 1, by grind⟩
      simp [readChars]
  | cons c text ih =>
      obtain ⟨bound, rfl⟩ : ∃ n, bound = n + 1 := ⟨bound - 1, by grind⟩
      rw [List.flatMap_cons, List.append_assoc, readChars_escapeChar,
        ih (by simpa using h)]
      rfl

theorem length_escaped (text : List Char) :
    text.length ≤ (text.flatMap fun c => (Json.escapeChar c).toList).length := by
  induction text with
  | nil => simp
  | cons c text ih =>
      -- without a character to read, the quote after it would end the string
      have hchar : (Json.escapeChar c).toList ≠ [] := by
        intro hnil
        have hread := readChars_escapeChar 0 c ['"']
        rw [hnil] at hread
        cases hread
      have hpos := List.length_pos_of_ne_nil hchar
      rw [List.flatMap_cons, List.length_append, List.length_cons]
      omega

/-- A string is read back from its quoted form. -/
theorem readString_quote (text : String) (rest : List Char) :
    ∃ tail, (Json.quote text).toList = '"' :: tail ∧
      readString (tail ++ rest) = some (text, rest) := by
  refine ⟨text.toList.flatMap (fun c => (Json.escapeChar c).toList) ++ ['"'], ?_, ?_⟩
  · simp [Json.quote, String.toList_append, String.toList_join, List.flatMap_map]
  · have hbound := length_escaped text.toList
    rw [readString, List.append_assoc, List.singleton_append,
      readChars_escaped _ _ (by rw [List.length_append, List.length_cons]; omega)]
    simp

/-! ## Values -/

def isSpace (c : Char) : Bool := c == ' ' || c == '\n' || c == '\t' || c == '\r'

abbrev skipSpace (chars : List Char) : List Char := chars.dropWhile isSpace

/-- At least one element, commas between the elements, and the closing character. -/
def readList {α : Type} (read : Reader α) (close : Char) : Nat → Reader (List α)
  | 0, _ => none
  | bound + 1, chars => do
      let (item, rest) ← read (skipSpace chars)
      match skipSpace rest with
      | c :: rest =>
          if c = close then pure ([item], rest)
          else if c = ',' then do
            let (items, rest) ← readList read close bound rest
            pure (item :: items, rest)
          else none
      | [] => none

def readField (read : Reader Json) : Reader (String × Json)
  | '"' :: rest => do
      let (key, rest) ← readString rest
      match skipSpace rest with
      | ':' :: rest => do
          let (value, rest) ← read (skipSpace rest)
          pure ((key, value), rest)
      | _ => none
  | _ => none

/-- What follows the opening character of an array or an object. -/
def readBody {α : Type} (read : Reader α) (close : Char) (chars : List Char) :
    Option (List α × List Char) :=
  match skipSpace chars with
  | [] => none
  | c :: rest =>
      if c = close then some ([], rest) else readList read close (c :: rest).length (c :: rest)

/-- A value; `inner` reads what stands inside an array or an object, if that is allowed. -/
def readNode (inner : Option (Reader Json)) : Reader Json
  | '"' :: rest => do
      let (text, rest) ← readString rest
      pure (.str text, rest)
  | '[' :: rest => do
      let read ← inner
      let (items, rest) ← readBody read ']' rest
      pure (.arr items, rest)
  | '\x7b' :: rest => do
      let read ← inner
      let (fields, rest) ← readBody (readField read) '\x7d' rest
      pure (.obj fields, rest)
  | 'n' :: 'u' :: 'l' :: 'l' :: rest => some (.null, rest)
  | 't' :: 'r' :: 'u' :: 'e' :: rest => some (.bool true, rest)
  | 'f' :: 'a' :: 'l' :: 's' :: 'e' :: rest => some (.bool false, rest)
  | chars => do
      let number ← readNumber (chars.takeWhile isNumberChar)
      pure (.num number, chars.dropWhile isNumberChar)

/-- A value with at most so many arrays and objects around one another. -/
def readValue : Nat → Reader Json
  | 0 => readNode none
  | depth + 1 => readNode (some (readValue depth))

/-- `remaining_depth` of a new `Deserializer` is 128, and must not become zero. -/
def depthLimit : Nat := 127

def parse (text : String) : Option Json := do
  let (json, rest) ← readValue depthLimit (skipSpace text.toList)
  if skipSpace rest = [] then pure json else none

/-! ## Printed values -/

/-- A number ends here. -/
def Ends (rest : List Char) : Prop := ∀ c ∈ rest.head?, isNumberChar c = false

theorem ends_cons {c : Char} (h : isNumberChar c = false) (rest : List Char) :
    Ends (c :: rest) := by
  simpa [Ends] using h

theorem skipSpace_cons {c : Char} (h : isSpace c = false) (rest : List Char) :
    skipSpace (c :: rest) = c :: rest := by
  simp [skipSpace, h]

/--
The text is read to the end of it as the value, or refused where the value is not
within the bounds of the reader.
-/
def Reads {α : Type} (read : Reader α) (text : List Char) (value : α) (within : Prop)
    [Decidable within] : Prop :=
  ∀ rest, Ends rest → read (text ++ rest) = if within then some (value, rest) else none

/-- Neither a space nor a character that closes something. -/
def Opens (text : List Char) : Prop :=
  ∃ c tail, text = c :: tail ∧ isSpace c = false ∧ c ≠ ']' ∧ c ≠ '\x7d'

def separated {α : Type} (print : α → List Char) : List α → List Char
  | [] => []
  | [item] => print item
  | item :: rest => print item ++ ',' :: separated print rest

/-- The same with `pad` before every item. -/
def spaced {α : Type} (pad : List Char) (print : α → List Char) : List α → List Char
  | [] => []
  | [item] => pad ++ print item
  | item :: next :: rest => pad ++ (print item ++ ',' :: spaced pad print (next :: rest))

theorem separated_eq_spaced {α : Type} (print : α → List Char) (items : List α) :
    separated print items = spaced [] print items := by
  induction items with
  | nil => rfl
  | cons item rest ih =>
      cases rest with
      | nil => rfl
      | cons next rest => simp [separated, spaced, ih]

def Blank (pad : List Char) : Prop := ∀ c ∈ pad, isSpace c = true

theorem blank_nil : Blank [] := by simp [Blank]

theorem skipSpace_append {pad : List Char} (h : Blank pad) (rest : List Char) :
    skipSpace (pad ++ rest) = skipSpace rest :=
  List.dropWhile_append_of_pos h

theorem skipSpace_skipSpace (chars : List Char) :
    skipSpace (skipSpace chars) = skipSpace chars := by
  induction chars with
  | nil => rfl
  | cons c rest ih =>
      cases hc : isSpace c
      · rw [skipSpace_cons hc, skipSpace_cons hc]
      · simpa [skipSpace, hc] using ih

theorem isNumberChar_of_isSpace {c : Char} (h : isSpace c = true) : isNumberChar c = false := by
  simp only [isSpace, Bool.or_eq_true, beq_iff_eq] at h
  rcases h with ((rfl | rfl) | rfl) | rfl <;> decide

/-- A number ends before a blank. -/
theorem ends_append {pad rest : List Char} (h : Blank pad) (hrest : Ends rest) :
    Ends (pad ++ rest) := by
  cases pad with
  | nil => exact hrest
  | cons c pad => exact ends_cons (isNumberChar_of_isSpace (h c (by simp))) _

section Lists

variable {α : Type} {read : Reader α} {print : α → List Char} {within : α → Prop}
  [DecidablePred within] {items : List α} {close : Char} {pad closePad : List Char}

theorem opens_separated (hopens : ∀ item ∈ items, Opens (print item)) (hne : items ≠ []) :
    Opens (separated print items) := by
  cases items with
  | nil => exact absurd rfl hne
  | cons item rest =>
      obtain ⟨c, tail, htext, hc⟩ := hopens item (by simp)
      cases rest with
      | nil => exact ⟨c, tail, htext, hc⟩
      | cons next rest =>
          refine ⟨c, tail ++ ',' :: separated print (next :: rest), ?_, hc⟩
          rw [separated, htext, List.cons_append]
          simp

theorem Opens.skipSpace {text : List Char} (h : Opens text) (rest : List Char) :
    Serde.skipSpace (text ++ rest) = text ++ rest := by
  obtain ⟨c, tail, rfl, hc, -⟩ := h
  exact skipSpace_cons hc _

theorem readList_skipSpace (read : Reader α) (close : Char) (bound : Nat) (chars : List Char) :
    readList read close bound (skipSpace chars) = readList read close bound chars := by
  cases bound with
  | zero => rfl
  | succ bound => rw [readList, readList, skipSpace_skipSpace]

theorem exists_spaced (pad : List Char) (print : α → List Char) (item : α) (rest : List α) :
    ∃ more, spaced pad print (item :: rest) = pad ++ (print item ++ more) := by
  cases rest with
  | nil => exact ⟨[], by rw [spaced, List.append_nil]⟩
  | cons next rest => exact ⟨_, rfl⟩

/-- The items are counted by what follows the first pad. -/
theorem length_spaced (hpad : Blank pad) (hopens : ∀ item ∈ items, Opens (print item))
    (rest : List Char) :
    items.length ≤ (skipSpace (spaced pad print items ++ rest)).length := by
  induction items with
  | nil => simp
  | cons item others ih =>
      simp only [List.forall_mem_cons] at hopens
      have hothers := Nat.le_trans (ih hopens.2)
        (List.dropWhile_sublist isSpace (l := spaced pad print others ++ rest)).length_le
      have hitem : 1 ≤ (print item).length := by
        obtain ⟨c, tail, htext, -⟩ := hopens.1
        simp [htext]
      cases others with
      | nil =>
          rw [spaced, List.append_assoc, skipSpace_append hpad, hopens.1.skipSpace]
          simp only [List.length_append, List.length_cons, List.length_nil]
          omega
      | cons next others =>
          rw [spaced, List.append_assoc, skipSpace_append hpad, List.append_assoc,
            hopens.1.skipSpace]
          simp only [List.length_append, List.length_cons, List.cons_append] at hothers ⊢
          omega

theorem readList_spaced (hpad : Blank pad) (hclosePad : Blank closePad)
    (hcloses : close = ']' ∨ close = '\x7d') (hopens : ∀ item ∈ items, Opens (print item))
    (hread : ∀ item ∈ items, Reads read (print item) item (within item)) (hne : items ≠ [])
    {bound : Nat} (hbound : items.length ≤ bound) (rest : List Char) :
    readList read close bound (spaced pad print items ++ (closePad ++ close :: rest)) =
      if ∀ item ∈ items, within item then some (items, rest) else none := by
  have hspace : isSpace close = false := by rcases hcloses with rfl | rfl <;> decide
  have hcomma : ',' ≠ close := by rcases hcloses with rfl | rfl <;> decide
  have hclose : isNumberChar close = false := by rcases hcloses with rfl | rfl <;> decide
  induction items generalizing bound with
  | nil => exact absurd rfl hne
  | cons item others ih =>
      simp only [List.forall_mem_cons] at hopens hread ⊢
      obtain ⟨bound, rfl⟩ : ∃ n, bound = n + 1 := ⟨bound - 1, by grind⟩
      cases others with
      | nil =>
          rw [spaced, readList, List.append_assoc, skipSpace_append hpad, hopens.1.skipSpace,
            hread.1 _ (ends_append hclosePad (ends_cons hclose rest))]
          by_cases hitem : within item
          · simp [hitem, skipSpace_append hclosePad, skipSpace_cons hspace]
          · simp [hitem]
      | cons next others =>
          have hothers := ih hopens.2 hread.2 (by simp) (Nat.le_of_succ_le_succ hbound)
          have hcommaEnds : isNumberChar ',' = false := by decide
          rw [spaced, readList, List.append_assoc, skipSpace_append hpad, List.append_assoc,
            List.cons_append, hopens.1.skipSpace, hread.1 _ (ends_cons hcommaEnds _)]
          by_cases hitem : within item
          · simp only [hitem, if_true, true_and, Option.bind_eq_bind, Option.bind_some]
            rw [skipSpace_cons (by decide)]
            simp only [hcomma, if_false, if_true, hothers]
            split <;> rfl
          · simp [hitem]

/-- An array or an object is read from its items, whatever blanks stand around them. -/
theorem readBody_spaced (hpad : Blank pad) (hclosePad : Blank closePad)
    (hcloses : close = ']' ∨ close = '\x7d') (hopens : ∀ item ∈ items, Opens (print item))
    (hread : ∀ item ∈ items, Reads read (print item) item (within item)) (rest : List Char) :
    readBody read close (spaced pad print items ++ (closePad ++ close :: rest)) =
      if ∀ item ∈ items, within item then some (items, rest) else none := by
  have hspace : isSpace close = false := by rcases hcloses with rfl | rfl <;> decide
  cases hitems : items with
  | nil =>
      rw [readBody, spaced, List.nil_append, skipSpace_append hclosePad, skipSpace_cons hspace]
      simp
  | cons item others =>
      have hne : items ≠ [] := by simp [hitems]
      have hlist := readList_spaced hpad hclosePad hcloses hopens hread hne
        (length_spaced hpad hopens (closePad ++ close :: rest)) rest
      rw [← hitems, readBody, ← hlist, ← readList_skipSpace]
      obtain ⟨c, tail, htext, hc, hother⟩ := hopens item (by simp [hitems])
      obtain ⟨more, hmore⟩ := exists_spaced pad print item others
      have hcc : c ≠ close := by
        rcases hcloses with rfl | rfl
        · exact hother.1
        · exact hother.2
      rw [hitems, hmore, List.append_assoc, skipSpace_append hpad, htext, List.cons_append,
        List.cons_append, skipSpace_cons hc]
      simp [hcc]

end Lists

theorem renderItems_eq (items : List Json) :
    (Json.renderItems items).toList = separated (fun item => item.render.toList) items := by
  induction items with
  | nil => simp [Json.renderItems, separated]
  | cons item rest ih =>
      cases rest with
      | nil => rw [Json.renderItems, separated]
      | cons next rest => simp [Json.renderItems, separated, ih]

def printField (field : String × Json) : List Char :=
  (Json.quote field.1).toList ++ ':' :: field.2.render.toList

theorem renderFields_eq (fields : List (String × Json)) :
    (Json.renderFields fields).toList = separated printField fields := by
  induction fields with
  | nil => simp [Json.renderFields, separated]
  | cons field rest ih =>
      cases rest with
      | nil => simp [Json.renderFields, separated, printField]
      | cons next rest => simp [Json.renderFields, separated, printField, ih]

theorem opens_quote (text : String) (rest : List Char) :
    Opens ((Json.quote text).toList ++ rest) := by
  obtain ⟨tail, htext, -⟩ := readString_quote text []
  exact ⟨'"', tail ++ rest, by rw [htext, List.cons_append], by decide, by decide, by decide⟩

theorem isNumberChar_ne {c : Char} (h : isNumberChar c = true) {other : Char}
    (hother : isNumberChar other = false) : c ≠ other := by
  rintro rfl
  simp [h] at hother

/-- The text of a number begins with a character of a number. -/
theorem renderNumber_eq_cons {number : Number} (h : isSpelled number = true) :
    ∃ c tail, (Json.renderNumber number).toList = c :: tail ∧ isNumberChar c = true := by
  cases htext : (Json.renderNumber number).toList with
  | nil =>
      have hread := lexNumber_render h
      rw [htext] at hread
      simp [lexNumber, readInt, isWhole, isDecimal, unsigned] at hread
  | cons c tail => exact ⟨c, tail, rfl, isNumberChar_render h c (by simp [htext])⟩

/-- A tree of some text; its numbers can be out of range, and its keys come in any order. -/
inductive Spelled : Json → Prop where
  | null : Spelled .null
  | bool (value : Bool) : Spelled (.bool value)
  | num {number : Number} (h : isSpelled number = true) : Spelled (.num number)
  | str (value : String) : Spelled (.str value)
  | arr {items : List Json} (h : ∀ item ∈ items, Spelled item) : Spelled (.arr items)
  | obj {fields : List (String × Json)} (h : ∀ field ∈ fields, Spelled field.2) :
      Spelled (.obj fields)

/-- A tree whose numbers can be read; its objects keep their fields in any order. -/
inductive Readable : Json → Prop where
  | null : Readable .null
  | bool (value : Bool) : Readable (.bool value)
  | num {number : Number} (h : numberFits number = true) : Readable (.num number)
  | str (value : String) : Readable (.str value)
  | arr {items : List Json} (h : ∀ item ∈ items, Readable item) : Readable (.arr items)
  | obj {fields : List (String × Json)} (h : ∀ field ∈ fields, Readable field.2) :
      Readable (.obj fields)

theorem Lawful.readable {json : Json} (h : Lawful json) : Readable json := by
  induction h with
  | null => exact .null
  | bool value => exact .bool value
  | num h => exact .num h
  | str value => exact .str value
  | arr _ ih => exact .arr ih
  | obj _ _ ih => exact .obj ih

theorem Readable.spelled {json : Json} (h : Readable json) : Spelled json := by
  induction h with
  | null => exact .null
  | bool value => exact .bool value
  | num h => exact .num (isSpelled_of_numberFits h)
  | str value => exact .str value
  | arr _ ih => exact .arr ih
  | obj _ ih => exact .obj ih

theorem Readable.numbersFit {json : Json} (h : Readable json) : numbersFit json = true := by
  induction h with
  | null | bool | str => rfl
  | num h => exact h
  | arr _ ih => exact numbersFit_arr.mpr ih
  | obj _ ih => exact numbersFit_obj.mpr ih

theorem Spelled.opens {json : Json} (h : Spelled json) : Opens json.render.toList := by
  cases h with
  | null => exact ⟨'n', _, rfl, by decide, by decide, by decide⟩
  | bool value =>
      cases value
      · exact ⟨'f', _, rfl, by decide, by decide, by decide⟩
      · exact ⟨'t', _, rfl, by decide, by decide, by decide⟩
  | num h =>
      obtain ⟨c, tail, htext, hc⟩ := renderNumber_eq_cons h
      refine ⟨c, tail, htext, ?_, isNumberChar_ne hc (by decide), isNumberChar_ne hc (by decide)⟩
      simp only [isSpace, Bool.or_eq_false_iff, beq_eq_false_iff_ne]
      exact ⟨⟨⟨isNumberChar_ne hc (by decide), isNumberChar_ne hc (by decide)⟩,
        isNumberChar_ne hc (by decide)⟩, isNumberChar_ne hc (by decide)⟩
  | str value => simpa [Json.render] using opens_quote value []
  | arr h =>
      exact ⟨'[', _, by simp [Json.render]; rfl, by decide, by decide, by decide⟩
  | obj h =>
      exact ⟨'\x7b', _, by simp [Json.render]; rfl, by decide, by decide, by decide⟩

theorem readNode_number {inner : Option (Reader Json)} {number : Number}
    (h : isSpelled number = true) {rest : List Char} (hrest : Ends rest) :
    readNode inner ((Json.renderNumber number).toList ++ rest) =
      if numberFits number then some (.num number, rest) else none := by
  obtain ⟨c, tail, htext, hc⟩ := renderNumber_eq_cons h
  have hchars := isNumberChar_render h
  have htake : ((Json.renderNumber number).toList ++ rest).takeWhile isNumberChar =
      (Json.renderNumber number).toList := by
    rw [List.takeWhile_append_of_pos hchars]
    cases rest with
    | nil => simp
    | cons d rest => simp [hrest d (by simp)]
  have hdrop : ((Json.renderNumber number).toList ++ rest).dropWhile isNumberChar = rest := by
    rw [List.dropWhile_append_of_pos hchars]
    cases rest with
    | nil => simp
    | cons d rest => simp [hrest d (by simp)]
  have hnode : readNode inner ((Json.renderNumber number).toList ++ rest) = (do
      let read ← readNumber
        (((Json.renderNumber number).toList ++ rest).takeWhile isNumberChar)
      pure (.num read, ((Json.renderNumber number).toList ++ rest).dropWhile isNumberChar)) := by
    rw [htext, List.cons_append, readNode.eq_7]
    all_goals
      intro after heq
      obtain ⟨rfl, -⟩ := List.cons.inj heq
      exact absurd hc (by decide)
  rw [hnode, htake, hdrop, readNumber_render h]
  split <;> rfl

/-- A field is read from its key and the text of its value, which blanks may precede. -/
theorem reads_field {read : Reader Json} {text pad : List Char} {json : Json} {within : Prop}
    [Decidable within] (hpad : Blank pad) (hopens : Opens text) (h : Reads read text json within)
    (key : String) :
    Reads (readField read) ((Json.quote key).toList ++ ':' :: (pad ++ text)) (key, json)
      within := by
  intro rest hrest
  obtain ⟨tail, htext, hread⟩ := readString_quote key (':' :: (pad ++ (text ++ rest)))
  have hcolon : isSpace ':' = false := by decide
  simp only [htext, List.append_assoc, List.cons_append, readField, hread, Option.bind_eq_bind,
    Option.bind_some, skipSpace_cons hcolon, skipSpace_append hpad, hopens.skipSpace, h rest hrest]
  split <;> rfl

theorem exists_readNode (limit : Nat) : ∃ inner, readValue limit = readNode inner := by
  cases limit with
  | zero => exact ⟨none, rfl⟩
  | succ limit => exact ⟨some (readValue limit), rfl⟩

section Nodes

variable {read : Reader Json} {pad closePad : List Char}

theorem readNode_arr (hpad : Blank pad) (hclosePad : Blank closePad) {print : Json → List Char}
    {within : Json → Prop} [DecidablePred within] {items : List Json}
    (hopens : ∀ item ∈ items, Opens (print item))
    (hread : ∀ item ∈ items, Reads read (print item) item (within item)) (rest : List Char) :
    readNode (some read) ('[' :: (spaced pad print items ++ (closePad ++ ']' :: rest))) =
      if ∀ item ∈ items, within item then some (.arr items, rest) else none := by
  have hbody := readBody_spaced hpad hclosePad (.inl rfl) hopens hread rest
  simp only [readNode, Option.bind_eq_bind, Option.bind_some, hbody]
  split <;> rfl

theorem readNode_obj (hpad : Blank pad) (hclosePad : Blank closePad)
    {print : String × Json → List Char} {within : String × Json → Prop} [DecidablePred within]
    {fields : List (String × Json)} (hopens : ∀ field ∈ fields, Opens (print field))
    (hread : ∀ field ∈ fields, Reads (readField read) (print field) field (within field))
    (rest : List Char) :
    readNode (some read) ('\x7b' :: (spaced pad print fields ++ (closePad ++ '\x7d' :: rest))) =
      if ∀ field ∈ fields, within field then some (.obj fields, rest) else none := by
  have hbody := readBody_spaced hpad hclosePad (.inr rfl) hopens hread rest
  simp only [readNode, Option.bind_eq_bind, Option.bind_some, hbody]
  split <;> rfl

end Nodes

/-- What a reader takes: so deep, and with numbers in range. -/
def Within (limit : Nat) (json : Json) : Prop := depth json ≤ limit ∧ numbersFit json = true

instance (limit : Nat) : DecidablePred (Within limit) :=
  fun _ => inferInstanceAs (Decidable (_ ∧ _))

theorem within_arr {limit : Nat} {items : List Json} :
    Within (limit + 1) (.arr items) ↔ ∀ item ∈ items, Within limit item := by
  simp only [Within, depth, Nat.add_le_add_iff_right, depthItems_le, numbersFit_arr,
    forall_and]

theorem within_obj {limit : Nat} {fields : List (String × Json)} :
    Within (limit + 1) (.obj fields) ↔ ∀ field ∈ fields, Within limit field.2 := by
  simp only [Within, depth, Nat.add_le_add_iff_right, depthFields_le, numbersFit_obj,
    forall_and]

/-- A printed tree is read back, unless it is nested too deep or a number is out of range. -/
theorem Spelled.reads {json : Json} (h : Spelled json) (limit : Nat) :
    Reads (readValue limit) json.render.toList json (Within limit json) := by
  induction h generalizing limit with
  | null =>
      intro rest _
      obtain ⟨inner, hinner⟩ := exists_readNode limit
      simp [hinner, Json.render, readNode, Within, depth, numbersFit]
  | bool value =>
      intro rest _
      obtain ⟨inner, hinner⟩ := exists_readNode limit
      cases value <;> simp [hinner, Json.render, readNode, Within, depth, numbersFit]
  | num h =>
      intro rest hrest
      obtain ⟨inner, hinner⟩ := exists_readNode limit
      simp [hinner, Json.render, readNode_number h hrest, Within, depth, numbersFit]
  | str value =>
      intro rest _
      obtain ⟨inner, hinner⟩ := exists_readNode limit
      obtain ⟨tail, htext, hread⟩ := readString_quote value rest
      simp [hinner, Json.render, htext, readNode, hread, Within, depth, numbersFit]
  | @arr items h ih =>
      intro rest _
      have htext : (Json.arr items).render.toList ++ rest =
          '[' :: (spaced [] (fun item => item.render.toList) items ++ ([] ++ ']' :: rest)) := by
        simp [Json.render, renderItems_eq, separated_eq_spaced]
      rw [htext]
      cases limit with
      | zero => simp [readValue, readNode, Within, depth]
      | succ limit =>
          rw [readValue, readNode_arr blank_nil blank_nil
            (fun item hitem => (h item hitem).opens) (fun item hitem => ih item hitem limit)]
          simp only [within_arr]
  | @obj fields h ih =>
      intro rest _
      have htext : (Json.obj fields).render.toList ++ rest =
          '\x7b' :: (spaced [] printField fields ++ ([] ++ '\x7d' :: rest)) := by
        simp [Json.render, renderFields_eq, separated_eq_spaced]
      rw [htext]
      cases limit with
      | zero => simp [readValue, readNode, Within, depth]
      | succ limit =>
          have hopens : ∀ field ∈ fields, Opens (printField field) :=
            fun field _ => opens_quote field.1 _
          rw [readValue, readNode_obj blank_nil blank_nil hopens
            (fun field hfield => reads_field blank_nil (h field hfield).opens
              (ih field hfield limit) field.1)]
          simp only [within_obj]

/-- What the reader makes of a printed tree. -/
theorem Spelled.parse {json : Json} (h : Spelled json) :
    Serde.parse json.render = if Within depthLimit json then some json else none := by
  obtain ⟨c, tail, htext, hc, -⟩ := h.opens
  have hread := h.reads depthLimit [] (by simp [Ends])
  rw [List.append_nil] at hread
  have hskip : skipSpace json.render.toList = json.render.toList := by
    rw [htext, skipSpace_cons hc]
  rw [Serde.parse, hskip, hread]
  split <;> rfl

theorem Readable.parse {json : Json} (h : Readable json) :
    Serde.parse json.render = if depth json ≤ depthLimit then some json else none := by
  simp only [h.spelled.parse, Within, h.numbersFit, and_true]

theorem parse_render {json : Json} (h : Lawful json) :
    parse json.render = if depth json ≤ depthLimit then some json else none :=
  h.readable.parse

/-! ## What has been read -/

section Read

variable {α : Type} {P : α → Prop} {read : Reader α}

theorem forall_of_readList (h : ∀ {chars value rest}, read chars = some (value, rest) → P value)
    {close : Char} {bound : Nat} {chars rest : List Char} {items : List α}
    (hread : readList read close bound chars = some (items, rest)) : ∀ item ∈ items, P item := by
  induction bound generalizing chars items with
  | zero => cases hread
  | succ bound ih =>
      simp only [readList, Option.bind_eq_bind, Option.bind_eq_some_iff, Prod.exists] at hread
      obtain ⟨item, after, hitem, hread⟩ := hread
      split at hread
      · split_ifs at hread
        · cases hread
          simpa using h hitem
        · simp only [Option.bind_eq_some_iff, Prod.exists] at hread
          obtain ⟨others, last, hothers, hread⟩ := hread
          cases hread
          simp only [List.forall_mem_cons]
          exact ⟨h hitem, ih hothers⟩
      · cases hread

theorem forall_of_readBody (h : ∀ {chars value rest}, read chars = some (value, rest) → P value)
    {close : Char} {chars rest : List Char} {items : List α}
    (hread : readBody read close chars = some (items, rest)) : ∀ item ∈ items, P item := by
  unfold readBody at hread
  split at hread
  · cases hread
  · split_ifs at hread
    · cases hread
      simp
    · exact forall_of_readList h hread

end Read

theorem numbersFit_of_readNode {inner : Option (Reader Json)}
    (h : ∀ read ∈ inner, ∀ {chars json rest}, read chars = some (json, rest) →
      numbersFit json = true)
    {chars rest : List Char} {json : Json} (hread : readNode inner chars = some (json, rest)) :
    numbersFit json = true := by
  unfold readNode at hread
  split at hread
  · simp only [Option.bind_eq_bind, Option.bind_eq_some_iff, Prod.exists] at hread
    obtain ⟨text, after, -, hread⟩ := hread
    cases hread
    rfl
  · simp only [Option.bind_eq_bind, Option.bind_eq_some_iff, Prod.exists] at hread
    obtain ⟨read, hinner, items, after, hbody, hread⟩ := hread
    cases hread
    exact numbersFit_arr.mpr (forall_of_readBody (h read hinner) hbody)
  · simp only [Option.bind_eq_bind, Option.bind_eq_some_iff, Prod.exists] at hread
    obtain ⟨read, hinner, fields, after, hbody, hread⟩ := hread
    cases hread
    refine numbersFit_obj.mpr (forall_of_readBody (fun {chars field rest} hfield => ?_) hbody)
    unfold readField at hfield
    split at hfield
    · simp only [Option.bind_eq_bind, Option.bind_eq_some_iff, Prod.exists] at hfield
      obtain ⟨key, after, -, hfield⟩ := hfield
      split at hfield
      · simp only [Option.bind_eq_some_iff, Prod.exists] at hfield
        obtain ⟨value, last, hvalue, hfield⟩ := hfield
        cases hfield
        exact h read hinner hvalue
      · cases hfield
    · cases hfield
  · cases hread
    rfl
  · cases hread
    rfl
  · cases hread
    rfl
  · simp only [Option.bind_eq_bind, Option.bind_eq_some_iff] at hread
    obtain ⟨number, hnumber, hread⟩ := hread
    cases hread
    exact numberFits_of_readNumber (List.all_takeWhile) hnumber

/-- Every number of a text that is read is in range. -/
theorem numbersFit_of_parse {text : String} {json : Json} (h : parse text = some json) :
    numbersFit json = true := by
  have hvalue (limit : Nat) : ∀ {chars json rest}, readValue limit chars = some (json, rest) →
      numbersFit json = true := by
    induction limit with
    | zero => exact numbersFit_of_readNode (by simp)
    | succ limit ih =>
        refine numbersFit_of_readNode ?_
        rintro read ⟨⟩
        exact ih
  simp only [parse, Option.bind_eq_bind, Option.bind_eq_some_iff, Prod.exists] at h
  obtain ⟨value, rest, hread, h⟩ := h
  split_ifs at h
  cases h
  exact hvalue depthLimit hread

/-! ## Typed values -/

namespace Codec

variable {α : Type} (codec : Codec α)

/-- `serde_json::from_str`. -/
def fromText (text : String) : Option α := do
  let json ← parse text
  codec.decode json

/-- `serde_json::from_slice`. -/
def fromSlice (bytes : List UInt8) : Option α := do
  let text ← String.fromUTF8? ⟨bytes.toArray⟩
  codec.fromText text

/-- `serde_json::to_string`. -/
def toText (value : α) : String := (codec.encode value).render

/-- `serde_json::to_vec`. -/
def toSlice (value : α) : List UInt8 := (codec.toText value).toUTF8.data.toList

theorem fromText_toText {value : α} (h : codec.Valid value) :
    codec.fromText (codec.toText value) =
      if depth (codec.encode value) ≤ depthLimit then some value else none := by
  rw [fromText, toText, parse_render (codec.lawful_encode h)]
  split
  · exact codec.decode_encode h
  · rfl

theorem fromSlice_toSlice (value : α) :
    codec.fromSlice (codec.toSlice value) = codec.fromText (codec.toText value) := by
  rw [fromSlice, toSlice, Text.fromUTF8?_toUTF8]
  rfl

theorem fromSlice_render {json : Json} (h : Readable json) (hdepth : depth json ≤ depthLimit) :
    codec.fromSlice json.render.toUTF8.data.toList = codec.decode json := by
  rw [fromSlice, Text.fromUTF8?_toUTF8, Option.bind_eq_bind, Option.bind_some, fromText, h.parse,
    if_pos hdepth]
  rfl

end Codec

end VasalAgent.Serde

import Mathlib.Algebra.Group.Int.Defs
import Mathlib.Algebra.Group.Nat.Defs
import Mathlib.Data.List.TakeWhile
import VasalAgent.Arith.Binary64
import VasalAgent.Protocol.Json

/-!
# Numbers of JSON

Which lexemes `serde_json` takes for numbers, and which of those it refuses because no
double is near them.  Numbers that fit are read from their own text.
-/

namespace VasalAgent.Serde

open VasalAgent.Binary64 (nearest overflows)
open VasalAgent.Protocol (Json Number)

/-! ## Lexemes -/

def isNumberChar (c : Char) : Bool :=
  c.isDigit || c == '-' || c == '+' || c == '.' || c == 'e' || c == 'E'

/-- Digits without a zero in front. -/
def isWhole (digits : List Char) : Bool :=
  digits == ['0'] || digits.head? != some '0' && digits != [] && digits.all Char.isDigit

def readInt : List Char → Option Int
  | '-' :: digits => if isWhole digits then some (-(Nat.ofDigitChars 10 digits 0)) else none
  | digits => if isWhole digits then some (Nat.ofDigitChars 10 digits 0) else none

def isExponent : List Char → Bool
  | [] => true
  | c :: rest =>
      let digits :=
        match rest with
        | '+' :: digits => digits
        | '-' :: digits => digits
        | digits => digits
      (c == 'e' || c == 'E') && digits != [] && digits.all Char.isDigit

def isFraction : List Char → Bool
  | '.' :: rest =>
      rest.takeWhile Char.isDigit != [] && isExponent (rest.dropWhile Char.isDigit)
  | rest => isExponent rest

def unsigned : List Char → List Char
  | '-' :: digits => digits
  | digits => digits

def isDecimal (lexeme : List Char) : Bool :=
  isWhole ((unsigned lexeme).takeWhile Char.isDigit) &&
    isFraction ((unsigned lexeme).dropWhile Char.isDigit)

def minInt : Int := -2 ^ 63

def maxNat : Int := 2 ^ 64

/-! ## Range -/

/--
The digits go into a `u64` until one does not fit; the second component is what is left.
-/
def takeDigits (significand : Nat) : List Char → Nat × List Char
  | [] => (significand, [])
  | c :: rest =>
      let next := significand * 10 + (c.toNat - '0'.toNat)
      if next < maxNat then takeDigits next rest else (significand, c :: rest)

theorem length_takeDigits (significand : Nat) (digits : List Char) :
    (takeDigits significand digits).2.length ≤ digits.length := by
  induction digits generalizing significand with
  | nil => exact Nat.le_refl 0
  | cons c rest ih =>
      rw [takeDigits]
      split
      · exact Nat.le_succ_of_le (ih _)
      · exact Nat.le_refl _

/-- `f64_from_parts` gives a number: a quotient always is one, a product if it is finite. -/
def isRepresentable (significand : Nat) (exponent : Int) : Bool :=
  significand == 0 || exponent < 0 || exponent ≤ 308 &&
    !overflows (nearest significand * nearest (10 ^ exponent.toNat))

theorem isRepresentable_of_neg (significand : Nat) {exponent : Int} (h : exponent < 0) :
    isRepresentable significand exponent = true := by
  rw [isRepresentable, decide_eq_true h, Bool.or_true, Bool.true_or]

/-- `parse_exponent`, with the exponent that the digits before it have. -/
def exponentFits (significand : Nat) (start : Int) : List Char → Bool
  | [] => isRepresentable significand start
  | _ :: rest =>
      let (negative, digits) :=
        match rest with
        | '+' :: digits => (false, digits)
        | '-' :: digits => (true, digits)
        | digits => (false, digits)
      let exponent := Nat.ofDigitChars 10 digits 0
      -- beyond `i32::MAX` the digits before it no longer count
      if 2 ^ 31 ≤ exponent then significand == 0 || negative
      else isRepresentable significand (if negative then start - exponent else start + exponent)

/-- `parse_decimal`: digits that no longer fit are ignored after the point. -/
def fractionFits (significand dropped : Nat) : List Char → Bool
  | '.' :: rest =>
      let fraction := rest.takeWhile Char.isDigit
      let (significand, ignored) := takeDigits significand fraction
      exponentFits significand (dropped - (fraction.length - ignored.length))
        (rest.dropWhile Char.isDigit)
  | rest => exponentFits significand dropped rest

/-- A decimal that `serde_json` does not refuse as a number out of range. -/
def inRange (lexeme : List Char) : Bool :=
  let digits := unsigned lexeme
  let (significand, dropped) := takeDigits 0 (digits.takeWhile Char.isDigit)
  fractionFits significand dropped.length (digits.dropWhile Char.isDigit)

/-- Digits after a zero and a point are in range, however many they are. -/
theorem inRange_fraction {c : Char} {rest : List Char} (h : ∀ d ∈ c :: rest, d.isDigit = true) :
    inRange ('0' :: '.' :: c :: rest) = true := by
  have htake : (c :: rest).takeWhile Char.isDigit = c :: rest := List.takeWhile_eq_self_iff.mpr h
  have hdrop : (c :: rest).dropWhile Char.isDigit = [] := List.dropWhile_eq_nil_iff.mpr h
  have hfirst : ((0 * 10 + (c.toNat - '0'.toNat) : Nat) : Int) < maxNat := by
    have hdigit := h c (by simp)
    simp only [Char.isDigit, Bool.and_eq_true, decide_eq_true_eq] at hdigit
    have hle : c.toNat ≤ 57 := hdigit.2
    simp only [maxNat]
    omega
  have hlength := length_takeDigits (0 * 10 + (c.toNat - '0'.toNat)) rest
  have hwhole : inRange ('0' :: '.' :: c :: rest) = fractionFits 0 0 ('.' :: c :: rest) := rfl
  simp only [hwhole, fractionFits, htake, hdrop, takeDigits, if_pos hfirst, exponentFits]
  apply isRepresentable_of_neg
  simp only [List.length_cons]
  omega

/--
The number of a lexeme.  An integer beyond 64 bits and a negative zero are doubles,
whose text is kept.
-/
def lexNumber (lexeme : List Char) : Option Number :=
  match readInt lexeme with
  | some value =>
      if minInt ≤ value ∧ value < maxNat ∧ lexeme ≠ ['-', '0'] then some (.int value)
      else some (.float (String.ofList lexeme))
  | none => if isDecimal lexeme then some (.float (String.ofList lexeme)) else none

def isFinite : Number → Bool
  | .int _ => true
  | .float text => inRange text.toList

/-- A number out of range is refused. -/
def readNumber (lexeme : List Char) : Option Number := (lexNumber lexeme).filter isFinite

example : readNumber ['1', 'e', '3', '0', '8'] = some (.float "1e308") := by decide +kernel

example : readNumber ['1', 'e', '3', '0', '9'] = none := by decide +kernel

/-- The number stands in some text. -/
def isSpelled : Number → Bool
  | .int value => minInt ≤ value && value < maxNat
  | .float text => text.toList.all isNumberChar && lexNumber text.toList == some (.float text)

/-- The number is read from some text. -/
def numberFits (number : Number) : Bool := isSpelled number && isFinite number

theorem numberFits_int {value : Int} (hlow : minInt ≤ value) (hhigh : value < maxNat) :
    numberFits (.int value) = true := by
  simp [numberFits, isSpelled, isFinite, hlow, hhigh]

theorem isSpelled_of_numberFits {number : Number} (h : numberFits number = true) :
    isSpelled number = true :=
  (Bool.and_eq_true_iff.mp h).1

theorem isFinite_eq {number : Number} (h : isSpelled number = true) :
    isFinite number = numberFits number := by
  rw [numberFits, h, Bool.true_and]

theorem head?_toDigits {n : Nat} (h : n ≠ 0) : (Nat.toDigits 10 n).head? ≠ some '0' := by
  induction n using Nat.strongRecOn with
  | _ n ih =>
      by_cases hlt : n < 10
      · have hdigit : ∀ digit : Fin 10, digit.val ≠ 0 → Nat.digitChar digit ≠ '0' := by decide
        rw [Nat.toDigits_of_lt_base hlt]
        simpa using hdigit ⟨n, hlt⟩ h
      · rw [Nat.toDigits_of_base_le (by decide) (by omega),
          List.head?_append_of_ne_nil _ Nat.toDigits_ne_nil]
        exact ih (n / 10) (by omega) (by omega)

theorem isDigit_toDigits {n : Nat} : ∀ c ∈ Nat.toDigits 10 n, c.isDigit = true :=
  fun _ h => Nat.isDigit_of_mem_toDigits (by decide) (by decide) h

theorem isWhole_toDigits (n : Nat) : isWhole (Nat.toDigits 10 n) = true := by
  by_cases hzero : n = 0
  · simp [hzero, isWhole]
  · have hdigits : (Nat.toDigits 10 n).all Char.isDigit = true :=
      List.all_eq_true.mpr isDigit_toDigits
    simp [isWhole, hdigits, head?_toDigits hzero]

theorem readInt_toDigits (n : Nat) : readInt (Nat.toDigits 10 n) = some (n : Int) := by
  have hminus : ∀ digits, Nat.toDigits 10 n ≠ '-' :: digits := by
    intro digits h
    have hdigit := isDigit_toDigits (n := n) '-' (by simp [h])
    simp at hdigit
  rw [readInt.eq_2 _ hminus, if_pos (isWhole_toDigits n), Nat.ofDigitChars_ten_toDigits]

theorem renderNumber_int (value : Int) :
    (Json.renderNumber (.int value)).toList =
      if 0 ≤ value then Nat.toDigits 10 value.toNat
      else '-' :: Nat.toDigits 10 (-value).toNat := by
  have hrepr : Json.renderNumber (.int value) = value.repr := rfl
  rw [hrepr, Int.repr_eq_if]
  split <;> simp

theorem lexNumber_render {number : Number} (h : isSpelled number = true) :
    lexNumber (Json.renderNumber number).toList = some number := by
  cases number with
  | float text =>
      simp only [isSpelled, Bool.and_eq_true, beq_iff_eq] at h
      exact h.2
  | int value =>
      simp only [isSpelled, Bool.and_eq_true, decide_eq_true_eq] at h
      rw [renderNumber_int]
      split
      · have hlexeme : Nat.toDigits 10 value.toNat ≠ ['-', '0'] := by
          intro heq
          have hdigit := isDigit_toDigits (n := value.toNat) '-' (by simp [heq])
          simp at hdigit
        have hvalue : ((value.toNat : Nat) : Int) = value := by omega
        simp only [lexNumber, readInt_toDigits, hvalue]
        rw [if_pos ⟨h.1, h.2, hlexeme⟩]
      · have hlexeme : '-' :: Nat.toDigits 10 (-value).toNat ≠ ['-', '0'] := by
          intro heq
          apply head?_toDigits (n := (-value).toNat) (by omega)
          simp only [List.cons.injEq, true_and] at heq
          simp [heq]
        have hvalue : -(((-value).toNat : Nat) : Int) = value := by omega
        simp only [lexNumber, readInt, isWhole_toDigits, if_true,
          Nat.ofDigitChars_ten_toDigits, hvalue]
        rw [if_pos ⟨h.1, h.2, hlexeme⟩]

/-- A number is read from its own text, if it is in range. -/
theorem readNumber_render {number : Number} (h : isSpelled number = true) :
    readNumber (Json.renderNumber number).toList =
      if numberFits number then some number else none := by
  rw [readNumber, lexNumber_render h, Option.filter_some, isFinite_eq h]

/-- What is read fits. -/
theorem numberFits_of_readNumber {lexeme : List Char} {number : Number}
    (hchars : lexeme.all isNumberChar = true) (h : readNumber lexeme = some number) :
    numberFits number = true := by
  obtain ⟨hlex, hfinite⟩ := Option.filter_eq_some_iff.mp h
  have hspelled : isSpelled number = true := by
    cases number with
    | float text =>
        have htext : text.toList = lexeme := by
          rw [lexNumber] at hlex
          split at hlex
          · split at hlex <;> cases hlex
            exact String.toList_ofList
          · split at hlex <;> cases hlex
            exact String.toList_ofList
        simp [isSpelled, htext, hchars, hlex]
    | int value =>
        rw [lexNumber] at hlex
        split at hlex
        · split at hlex <;> cases hlex
          next hrange => simp [isSpelled, hrange.1, hrange.2.1]
        · split at hlex <;> cases hlex
  rw [numberFits, hspelled, hfinite]
  rfl

theorem isNumberChar_render {number : Number} (h : isSpelled number = true) :
    ∀ c ∈ (Json.renderNumber number).toList, isNumberChar c = true := by
  cases number with
  | float text =>
      simp only [isSpelled, Bool.and_eq_true, List.all_eq_true] at h
      exact h.1
  | int value =>
      intro c hc
      rw [renderNumber_int] at hc
      split at hc
      · simp [isNumberChar, isDigit_toDigits c hc]
      · rcases List.mem_cons.mp hc with rfl | hc
        · decide
        · simp [isNumberChar, isDigit_toDigits c hc]

end VasalAgent.Serde

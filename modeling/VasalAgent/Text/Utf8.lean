import Mathlib.Algebra.Group.Nat.Defs
import Mathlib.Tactic.SplitIfs

/-!
# UTF-8

The bytes of a text, and `String::from_utf8_lossy`: what is cut inside a character becomes
one replacement character.
-/

namespace VasalAgent.Text

/-! ## Lossy decoding -/

def isContinuation (byte : UInt8) : Bool := 0x80 ≤ byte && byte ≤ 0xBF

/-- The second bytes that may follow a given first byte of a longer sequence. -/
def secondByte (first second : UInt8) : Bool :=
  if first = 0xE0 then 0xA0 ≤ second && second ≤ 0xBF
  else if first = 0xED then 0x80 ≤ second && second ≤ 0x9F
  else if first = 0xF0 then 0x90 ≤ second && second ≤ 0xBF
  else if first = 0xF4 then 0x80 ≤ second && second ≤ 0x8F
  else isContinuation second

/-- The length that a first byte announces; `none` for a byte that starts nothing. -/
def sequenceLength (first : UInt8) : Option Nat :=
  if first < 0x80 then some 1
  else if 0xC2 ≤ first && first ≤ 0xDF then some 2
  else if 0xE0 ≤ first && first ≤ 0xEF then some 3
  else if 0xF0 ≤ first && first ≤ 0xF4 then some 4
  else none

def payloadBits (byte : UInt8) : Nat := byte.toNat % 64

def replacement : Char := Char.ofNat 0xFFFD

/--
Decode the next character of a nonempty input, with the number of bytes it
takes.  An ill-formed input yields the replacement character for its longest
prefix that could have been continued.
-/
def nextChar (first : UInt8) (rest : List UInt8) : Char × Nat :=
  match sequenceLength first with
  | none => (replacement, 1)
  | some 1 => (Char.ofNat first.toNat, 1)
  | some 2 =>
      match rest with
      | b₁ :: _ =>
          if isContinuation b₁ then
            (Char.ofNat (first.toNat % 32 * 64 + payloadBits b₁), 2)
          else (replacement, 1)
      | [] => (replacement, 1)
  | some 3 =>
      match rest with
      | b₁ :: rest₁ =>
          if secondByte first b₁ then
            match rest₁ with
            | b₂ :: _ =>
                if isContinuation b₂ then
                  (Char.ofNat ((first.toNat % 16 * 64 + payloadBits b₁) * 64 +
                    payloadBits b₂), 3)
                else (replacement, 2)
            | [] => (replacement, 2)
          else (replacement, 1)
      | [] => (replacement, 1)
  | some _ =>
      match rest with
      | b₁ :: rest₁ =>
          if secondByte first b₁ then
            match rest₁ with
            | b₂ :: rest₂ =>
                if isContinuation b₂ then
                  match rest₂ with
                  | b₃ :: _ =>
                      if isContinuation b₃ then
                        (Char.ofNat (((first.toNat % 8 * 64 + payloadBits b₁) * 64 +
                          payloadBits b₂) * 64 + payloadBits b₃), 4)
                      else (replacement, 3)
                  | [] => (replacement, 3)
                else (replacement, 2)
            | [] => (replacement, 2)
          else (replacement, 1)
      | [] => (replacement, 1)

/-- Decode with at most `fuel` characters; the number of bytes is always enough. -/
def lossyChars : Nat → List UInt8 → List Char
  | 0, _ => []
  | _, [] => []
  | fuel + 1, first :: rest =>
      let (c, used) := nextChar first rest
      c :: lossyChars fuel (rest.drop (used - 1))

/-- `String::from_utf8_lossy`. -/
def fromUtf8Lossy (bytes : List UInt8) : String :=
  String.ofList (lossyChars bytes.length bytes)

/-! ## One character -/

/-- The bytes of one character, by their number, with what the decoder looks at. -/
inductive Sequence (c : Char) : List UInt8 → Prop
  | one {b₀ : UInt8} (hlength : sequenceLength b₀ = some 1) (hchar : Char.ofNat b₀.toNat = c) :
      Sequence c [b₀]
  | two {b₀ b₁ : UInt8} (hlength : sequenceLength b₀ = some 2) (h₁ : isContinuation b₁ = true)
      (hchar : Char.ofNat (b₀.toNat % 32 * 64 + payloadBits b₁) = c) : Sequence c [b₀, b₁]
  | three {b₀ b₁ b₂ : UInt8} (hlength : sequenceLength b₀ = some 3)
      (h₁ : secondByte b₀ b₁ = true) (h₂ : isContinuation b₂ = true)
      (hchar : Char.ofNat ((b₀.toNat % 16 * 64 + payloadBits b₁) * 64 + payloadBits b₂) = c) :
      Sequence c [b₀, b₁, b₂]
  | four {b₀ b₁ b₂ b₃ : UInt8} (hlength : sequenceLength b₀ = some 4)
      (h₁ : secondByte b₀ b₁ = true) (h₂ : isContinuation b₂ = true)
      (h₃ : isContinuation b₃ = true)
      (hchar : Char.ofNat (((b₀.toNat % 8 * 64 + payloadBits b₁) * 64 + payloadBits b₂) * 64 +
        payloadBits b₃) = c) :
      Sequence c [b₀, b₁, b₂, b₃]

theorem sequenceLength_ofNat {n : Nat} (h : n < 256) :
    sequenceLength (UInt8.ofNat n) =
      if n < 0x80 then some 1 else if 0xC2 ≤ n ∧ n ≤ 0xDF then some 2
      else if 0xE0 ≤ n ∧ n ≤ 0xEF then some 3 else if 0xF0 ≤ n ∧ n ≤ 0xF4 then some 4
      else none := by
  simp [sequenceLength, UInt8.lt_iff_toNat_lt, UInt8.le_iff_toNat_le, Nat.mod_eq_of_lt h]

theorem isContinuation_ofNat {n : Nat} (h : n < 64) :
    isContinuation (UInt8.ofNat (n + 128)) = true := by
  have hmod : (n + 128) % 256 = n + 128 := by omega
  simp [isContinuation, UInt8.le_iff_toNat_le, hmod]
  omega

theorem payloadBits_ofNat {n : Nat} (h : n < 64) : payloadBits (UInt8.ofNat (n + 128)) = n := by
  simp only [payloadBits, UInt8.toNat_ofNat']
  omega

theorem ofNat_eq_iff {m k : Nat} (hm : m < 256) (hk : k < 256) :
    UInt8.ofNat m = UInt8.ofNat k ↔ m = k := by
  rw [← UInt8.toNat_inj, UInt8.toNat_ofNat', UInt8.toNat_ofNat', Nat.mod_eq_of_lt hm,
    Nat.mod_eq_of_lt hk]

theorem secondByte_ofNat {m n : Nat} (hm : m < 256) (hn : n < 64)
    (hE0 : m = 0xE0 → 32 ≤ n) (hED : m = 0xED → n < 32) (hF0 : m = 0xF0 → 16 ≤ n)
    (hF4 : m = 0xF4 → n < 16) :
    secondByte (UInt8.ofNat m) (UInt8.ofNat (n + 128)) = true := by
  have hmod : (n + 128) % 256 = n + 128 := by omega
  unfold secondByte
  split_ifs with h h h h
  · have := hE0 ((ofNat_eq_iff hm (by decide)).mp h)
    simp [UInt8.le_iff_toNat_le, hmod]
    omega
  · have := hED ((ofNat_eq_iff hm (by decide)).mp h)
    simp [UInt8.le_iff_toNat_le, hmod]
    omega
  · have := hF0 ((ofNat_eq_iff hm (by decide)).mp h)
    simp [UInt8.le_iff_toNat_le, hmod]
    omega
  · have := hF4 ((ofNat_eq_iff hm (by decide)).mp h)
    simp [UInt8.le_iff_toNat_le, hmod]
    omega
  · exact isContinuation_ofNat hn

theorem sequence_utf8EncodeChar (c : Char) : Sequence c (String.utf8EncodeChar c) := by
  have hvalid : c.val.toNat < 0xD800 ∨ 0xDFFF < c.val.toNat ∧ c.val.toNat < 0x110000 := c.valid
  have hc : Char.ofNat c.val.toNat = c := Char.ofNat_toNat c
  dsimp only [String.utf8EncodeChar]
  generalize c.val.toNat = v at hvalid hc ⊢
  split_ifs with h₁ h₂ h₃
  · refine .one ?_ ?_
    · rw [sequenceLength_ofNat (by omega), if_pos (by omega)]
    · rw [UInt8.toNat_ofNat', Nat.mod_eq_of_lt (by omega), hc]
  · have hlow : v % 64 < 64 := Nat.mod_lt _ (by decide)
    refine .two ?_ (isContinuation_ofNat hlow) ?_
    · rw [sequenceLength_ofNat (by omega), if_neg (by omega), if_pos (by omega)]
    · rw [payloadBits_ofNat hlow, UInt8.toNat_ofNat', ← hc]
      congr 1
      omega
  · have hlow : v % 64 < 64 := Nat.mod_lt _ (by decide)
    have hmid : v / 64 % 64 < 64 := Nat.mod_lt _ (by decide)
    refine .three ?_ (secondByte_ofNat ?_ hmid ?_ ?_ ?_ ?_) (isContinuation_ofNat hlow) ?_
    · rw [sequenceLength_ofNat (by omega), if_neg (by omega), if_neg (by omega), if_pos (by omega)]
    iterate 5 omega
    · rw [payloadBits_ofNat hlow, payloadBits_ofNat hmid, UInt8.toNat_ofNat', ← hc]
      congr 1
      omega
  · have hlow : v % 64 < 64 := Nat.mod_lt _ (by decide)
    have hmid : v / 64 % 64 < 64 := Nat.mod_lt _ (by decide)
    have hhigh : v / 4096 % 64 < 64 := Nat.mod_lt _ (by decide)
    refine .four ?_ (secondByte_ofNat ?_ hhigh ?_ ?_ ?_ ?_) (isContinuation_ofNat hmid)
      (isContinuation_ofNat hlow) ?_
    · rw [sequenceLength_ofNat (by omega), if_neg (by omega), if_neg (by omega),
        if_neg (by omega), if_pos (by omega)]
    iterate 5 omega
    · rw [payloadBits_ofNat hlow, payloadBits_ofNat hmid, payloadBits_ofNat hhigh,
        UInt8.toNat_ofNat', ← hc]
      congr 1
      omega

theorem lossyChars_nil (fuel : Nat) : lossyChars fuel [] = [] := by
  cases fuel <;> rfl

section Decode

variable {c : Char} {bytes : List UInt8}

theorem lossyChars_sequence (h : Sequence c bytes) (fuel : Nat) (rest : List UInt8) :
    lossyChars (fuel + 1) (bytes ++ rest) = c :: lossyChars fuel rest := by
  cases h <;> simp_all [lossyChars, nextChar]

/-- A character that is cut short becomes one replacement character. -/
theorem lossyChars_cut (h : Sequence c bytes) (fuel : Nat) {kept : Nat}
    (hkept : kept + 1 < bytes.length) :
    lossyChars (fuel + 1) (bytes.take (kept + 1)) = [replacement] := by
  cases h with
  | one hlength hchar => simp at hkept
  | two hlength h₁ hchar =>
      obtain rfl : kept = 0 := by
        simp only [List.length_cons, List.length_nil] at hkept
        omega
      simp [lossyChars, nextChar, hlength, lossyChars_nil]
  | three hlength h₁ h₂ hchar =>
      obtain rfl | rfl : kept = 0 ∨ kept = 1 := by
        simp only [List.length_cons, List.length_nil] at hkept
        omega
      · simp [lossyChars, nextChar, hlength, lossyChars_nil]
      · simp [lossyChars, nextChar, hlength, h₁, lossyChars_nil]
  | four hlength h₁ h₂ h₃ hchar =>
      obtain rfl | rfl | rfl : kept = 0 ∨ kept = 1 ∨ kept = 2 := by
        simp only [List.length_cons, List.length_nil] at hkept
        omega
      · simp [lossyChars, nextChar, hlength, lossyChars_nil]
      · simp [lossyChars, nextChar, hlength, h₁, lossyChars_nil]
      · simp [lossyChars, nextChar, hlength, h₁, h₂, lossyChars_nil]

end Decode

/-! ## Texts -/

/-- The bytes of some characters. -/
def utf8 (chars : List Char) : List UInt8 := chars.flatMap String.utf8EncodeChar

theorem utf8_append (chars more : List Char) : utf8 (chars ++ more) = utf8 chars ++ utf8 more :=
  List.flatMap_append

theorem utf8_cons (c : Char) (chars : List Char) :
    utf8 (c :: chars) = String.utf8EncodeChar c ++ utf8 chars := rfl

theorem toUTF8_eq_utf8 (text : String) : text.toUTF8.data.toList = utf8 text.toList := by
  rw [String.toUTF8, ← String.ofList_toList (s := text), String.toByteArray_ofList]
  simp [List.utf8Encode, utf8]

/-- `String::from_utf8` gives the text back. -/
theorem fromUTF8?_toUTF8 (text : String) :
    String.fromUTF8? ⟨text.toUTF8.data.toList.toArray⟩ = some text := by
  rw [Array.toArray_toList, String.fromUTF8?]
  exact dif_pos text.isValidUTF8

theorem fromUTF8?_utf8 (text : String) :
    String.fromUTF8? ⟨(utf8 text.toList).toArray⟩ = some text := by
  rw [← toUTF8_eq_utf8, fromUTF8?_toUTF8]

theorem length_le_length_utf8 (chars : List Char) : chars.length ≤ (utf8 chars).length := by
  induction chars with
  | nil => exact Nat.zero_le _
  | cons c chars ih =>
      have hsize := c.utf8Size_pos
      rw [utf8_cons, List.length_append, String.length_utf8EncodeChar, List.length_cons]
      omega

theorem length_le_toUTF8 (text : String) :
    text.toList.length ≤ text.toUTF8.data.toList.length := by
  rw [toUTF8_eq_utf8]
  exact length_le_length_utf8 text.toList

theorem lossyChars_utf8 (chars : List Char) (fuel : Nat) (rest : List UInt8) :
    lossyChars (fuel + chars.length) (utf8 chars ++ rest) = chars ++ lossyChars fuel rest := by
  induction chars with
  | nil => rfl
  | cons c chars ih =>
      rw [utf8_cons, List.append_assoc, List.length_cons, ← Nat.add_assoc,
        lossyChars_sequence (sequence_utf8EncodeChar c), ih, List.cons_append]

theorem fromUtf8Lossy_utf8 (chars : List Char) :
    fromUtf8Lossy (utf8 chars) = String.ofList chars := by
  obtain ⟨fuel, hfuel⟩ := Nat.exists_eq_add_of_le' (length_le_length_utf8 chars)
  have hchars := lossyChars_utf8 chars fuel []
  rw [List.append_nil, lossyChars_nil, List.append_nil] at hchars
  rw [fromUtf8Lossy, hfuel, hchars]

theorem fromUtf8Lossy_cut (head : List Char) {c : Char} {kept : Nat}
    (hkept : kept + 1 < (String.utf8EncodeChar c).length) :
    fromUtf8Lossy (utf8 head ++ (String.utf8EncodeChar c).take (kept + 1)) =
      String.ofList (head ++ [replacement]) := by
  obtain ⟨fuel, hfuel⟩ := Nat.exists_eq_add_of_le' (length_le_length_utf8 head)
  have hlength : (utf8 head ++ (String.utf8EncodeChar c).take (kept + 1)).length =
      fuel + kept + 1 + head.length := by
    rw [List.length_append, List.length_take_of_le (Nat.le_of_lt hkept), hfuel]
    omega
  rw [fromUtf8Lossy, hlength, lossyChars_utf8, lossyChars_cut (sequence_utf8EncodeChar c) _ hkept]

end VasalAgent.Text

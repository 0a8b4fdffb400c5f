import Mathlib.Algebra.Group.Nat.Defs

/-!
# Doubles

Numbers with 53 significant bits, and the words that hold them.  Rounding is to the
nearest, ties to even.
-/

namespace VasalAgent.Binary64

/-- `f64::is_finite`, on the bits: the exponent is not the largest. -/
def isFinite (bits : UInt64) : Bool := (bits >>> 52) &&& 0x7FF != 0x7FF

/-- The integer nearest to `n / unit`; of two that are equally near, the even one. -/
def roundHalfEven (n unit : Nat) : Nat :=
  if 2 * (n % unit) < unit ∨ 2 * (n % unit) = unit ∧ n / unit % 2 = 0 then n / unit
  else n / unit + 1

/-- The significand of `n` with 53 bits. -/
def significand (n : Nat) : Nat :=
  if n.log2 ≤ 52 then n * 2 ^ (52 - n.log2) else roundHalfEven n (2 ^ (n.log2 - 52))

/-- The double nearest to `n`, as a number. -/
def nearest (n : Nat) : Nat :=
  if n.log2 ≤ 52 then n else significand n * 2 ^ (n.log2 - 52)

/-- `n` is rounded to infinity: `2 ^ 1024` is no double. -/
def overflows (n : Nat) : Bool := 1024 ≤ (nearest n).log2

/-- `n as f64` of an unsigned integer. -/
def natAsF64 (n : Nat) : UInt64 :=
  if n = 0 then 0
  -- a significand that was rounded up to `2 ^ 53` carries into the exponent
  else UInt64.ofNat ((1023 + n.log2) * 2 ^ 52 + (significand n - 2 ^ 52))

/-- `n as f64` of a signed integer. -/
def intAsF64 (n : Int) : UInt64 :=
  if n < 0 then natAsF64 n.natAbs ||| 0x8000000000000000 else natAsF64 n.natAbs

/--
The double nearest to `a / b`, for numbers whose quotient is neither too large nor too
small: the quotient of the doubles `a` and `b`.
-/
def quotient (a b : Nat) : UInt64 :=
  if a = 0 then 0
  else
    -- enough places for 53 significant bits of the quotient
    let shift := 55 + b.log2
    let exponent := (a * 2 ^ shift / b).log2
    UInt64.ofNat ((1023 + exponent - shift) * 2 ^ 52 +
      (roundHalfEven (a * 2 ^ shift) (b * 2 ^ (exponent - 52)) - 2 ^ 52))

example : quotient 1 4 = 0x3FD0000000000000 ∧ quotient 2 3 = 0x3FE5555555555555 := by
  decide +kernel

/-! ## Finite words -/

theorem isFinite_ofNat {n : Nat} (h : n < 2047 * 2 ^ 52) : isFinite (UInt64.ofNat n) = true := by
  have hshift : (UInt64.ofNat n >>> 52).toNat = n / 2 ^ 52 := by
    rw [UInt64.toNat_shiftRight]
    simp [Nat.shiftRight_eq_div_pow]
    omega
  have hmask : ((UInt64.ofNat n >>> 52) &&& 0x7FF).toNat = n / 2 ^ 52 := by
    rw [UInt64.toNat_and, hshift]
    exact (Nat.and_two_pow_sub_one_eq_mod (n / 2 ^ 52) 11).trans (Nat.mod_eq_of_lt (by omega))
  rw [isFinite, bne_iff_ne]
  intro heq
  rw [heq] at hmask
  have : (0x7FF : UInt64).toNat = 2047 := rfl
  omega

theorem roundHalfEven_le (n unit : Nat) : roundHalfEven n unit ≤ n / unit + 1 := by
  unfold roundHalfEven
  split <;> omega

theorem isFinite_quotient {a b : Nat} (ha : a.log2 ≤ 64) : isFinite (quotient a b) = true := by
  unfold quotient
  split
  · decide
  · next hzero =>
      refine isFinite_ofNat ?_
      generalize hshift : 55 + b.log2 = shift
      generalize hexponent : (a * 2 ^ shift / b).log2 = exponent
      have hround := roundHalfEven_le (a * 2 ^ shift) (b * 2 ^ (exponent - 52))
      have hwhole : a * 2 ^ shift / b < 2 ^ (65 + shift) := by
        have hlarge : a < 2 ^ 65 := (Nat.log2_lt hzero).mp (Nat.lt_succ_of_le ha)
        rw [Nat.pow_add]
        exact Nat.lt_of_le_of_lt (Nat.div_le_self _ _)
          (Nat.mul_lt_mul_of_pos_right hlarge (Nat.two_pow_pos shift))
      have hexp : exponent < 65 + shift := by
        rw [← hexponent]
        by_cases hquotient : a * 2 ^ shift / b = 0
        · rw [hquotient, Nat.log2_zero]
          omega
        · exact (Nat.log2_lt hquotient).mpr hwhole
      have hdigits : a * 2 ^ shift / (b * 2 ^ (exponent - 52)) < 2 ^ 53 := by
        have hbits : a * 2 ^ shift / b < 2 ^ (exponent + 1) := hexponent ▸ Nat.lt_log2_self
        have hle : 2 ^ (exponent + 1) ≤ 2 ^ (exponent - 52) * 2 ^ 53 := by
          rw [← Nat.pow_add]
          exact Nat.pow_le_pow_right (by decide) (by omega)
        rw [← Nat.div_div_eq_div_mul]
        exact Nat.div_lt_of_lt_mul (Nat.lt_of_lt_of_le hbits hle)
      omega

theorem log2_nearest_le (n : Nat) : (nearest n).log2 ≤ n.log2 + 1 := by
  unfold nearest
  split
  · exact Nat.le_succ _
  · next hlarge =>
      have hsignificand : significand n ≤ 2 ^ 53 := by
        have hbits : n < 2 ^ (n.log2 + 1) := Nat.lt_log2_self
        have hquotient : n / 2 ^ (n.log2 - 52) < 2 ^ 53 := by
          refine Nat.div_lt_of_lt_mul (Nat.lt_of_lt_of_eq hbits ?_)
          rw [← Nat.pow_add]
          congr 1
          omega
        rw [significand, if_neg hlarge]
        exact Nat.le_trans (roundHalfEven_le _ _) hquotient
      have hvalue : significand n * 2 ^ (n.log2 - 52) < 2 ^ (n.log2 + 2) := by
        refine Nat.lt_of_le_of_lt (Nat.mul_le_mul_right _ hsignificand) ?_
        rw [← Nat.pow_add]
        exact Nat.pow_lt_pow_right (by decide) (by omega)
      by_cases hzero : significand n * 2 ^ (n.log2 - 52) = 0
      · rw [hzero, Nat.log2_zero]
        exact Nat.zero_le _
      · exact Nat.le_of_lt_succ ((Nat.log2_lt hzero).mpr hvalue)

end VasalAgent.Binary64

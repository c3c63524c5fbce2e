import Mathlib.Algebra.Ring.Nat
import Mathlib.Data.Nat.Digits.Defs
import Stencil.Value.Written

/-! Numerals are read back as the numbers that they were written for, also grouped, and a
whole number of few enough digits is exact in 64 bits. -/
namespace Stencil

section Numerals

open Text

theorem digit?_of_isDigit {c : Char} (h : c.isDigit = true) : digit? c = some (c.toNat - 48) := by
  simp only [Char.isDigit, Bool.and_eq_true, decide_eq_true_eq, ge_iff_le,
    UInt32.le_iff_toNat_le] at h
  have latin : (48 ≤ c.toNat && c.toNat < 48 + 10) = true := by
    simp only [Bool.and_eq_true, decide_eq_true_eq]
    exact ⟨h.1, Nat.lt_succ_of_le h.2⟩
  simp [digit?, zeros, latin]

theorem filterMap_digit? {t : Text} (digits : ∀ c ∈ t, c.isDigit = true) :
    t.filterMap digit? = t.map fun c => c.toNat - 48 := by
  induction t with
  | nil => rfl
  | cons c t ih =>
    obtain ⟨here, later⟩ := List.forall_mem_cons.mp digits
    rw [List.filterMap_cons, digit?_of_isDigit here, ih later, List.map_cons]

theorem isDigit_of_mem_ofNat {n : Nat} {c : Char} (member : c ∈ Numeral.ofNat n) :
    c.isDigit = true :=
  Nat.isDigit_of_mem_toDigits (by decide) (by decide) member

theorem value_ofNat (n : Nat) : Numeral.value ((Numeral.ofNat n).filterMap digit?) = n := by
  rw [filterMap_digit? fun _ => isDigit_of_mem_ofNat, Numeral.value, List.foldl_map]
  have back : Nat.ofDigitChars 10 (Numeral.ofNat n) 0 = n := Nat.ofDigitChars_ten_toDigits
  rw [Nat.ofDigitChars_eq_foldl] at back
  exact back

namespace Numeral

theorem sign_digits {t : Text} (digits : ∀ c ∈ t, c.isDigit = true) : sign t = (false, t) := by
  unfold sign
  split
  next => exact absurd (digits '+' (by simp)) (by decide)
  next => exact absurd (digits '-' (by simp)) (by decide)
  next => rfl

theorem mapM_digit? {t : Text} (digits : ∀ c ∈ t, c.isDigit = true) :
    t.mapM digit? = some (t.map fun c => c.toNat - 48) := by
  induction t with
  | nil => rfl
  | cons c t ih =>
    obtain ⟨here, later⟩ := List.forall_mem_cons.mp digits
    simp [digit?_of_isDigit here, ih later]

theorem read_digits {t : Text} (nonempty : t ≠ []) (digits : ∀ c ∈ t, c.isDigit = true) :
    read t = if t.length ≤ maxDigits then .number (value (t.map fun c => c.toNat - 48))
      else .overlong := by
  have all : digits? t = some (t.map fun c => c.toNat - 48) := by
    unfold digits?
    split
    next => contradiction
    next => exact mapM_digit? digits
  rw [read, sign_digits digits]
  simp [ofDigits?, all, signed]

theorem ofNat_ne_nil (n : Nat) : ofNat n ≠ [] := Nat.toDigits_ne_nil

/-- No zero stands in front of the numeral of a positive number. -/
theorem head?_ofNat {n : Nat} (positive : 1 ≤ n) : (ofNat n).head? ≠ some '0' := by
  induction n using Nat.strongRecOn with
  | _ n ih =>
    by_cases single : n < 10
    · rw [ofNat, Nat.toDigits_of_lt_base single]
      have digits : ∀ d < 10, 1 ≤ d → d.digitChar ≠ '0' := by decide
      simpa using digits n single positive
    · have more : 10 ≤ n := Nat.le_of_not_lt single
      have start := ih (n / 10) (by omega) (by omega)
      obtain ⟨c, rest, shape⟩ := List.exists_cons_of_ne_nil (ofNat_ne_nil (n / 10))
      rw [shape] at start
      rw [ofNat] at shape ⊢
      rw [Nat.toDigits_of_base_le (by decide) more, shape]
      exact start

theorem digits?_ofNat (n : Nat) : digits? (ofNat n) = some ((ofNat n).filterMap Text.digit?) := by
  have digits : ∀ c ∈ ofNat n, c.isDigit = true := fun _ => isDigit_of_mem_ofNat
  rw [filterMap_digit? digits, ← mapM_digit? digits]
  cases shape : ofNat n with
  | nil => exact absurd shape (ofNat_ne_nil n)
  | cons c rest => rfl

theorem length_filterMap_digit? (n : Nat) :
    ((ofNat n).filterMap Text.digit?).length = (ofNat n).length := by
  rw [filterMap_digit? fun _ => isDigit_of_mem_ofNat, List.length_map]

theorem ofDigits?_ofNat {n : Nat} (short : (ofNat n).length ≤ maxDigits) (negative : Bool) :
    ofDigits? negative (digits? (ofNat n)) = .number (signed negative n) := by
  have few : ((ofNat n).filterMap Text.digit?).length ≤ maxDigits :=
    (length_filterMap_digit? n).trans_le short
  rw [digits?_ofNat, ofDigits?, if_pos few, value_ofNat]

/-- A whole number is read back from its numeral. -/
theorem read_ofInt {z : Int} (short : Writable z) : read (ofInt z) = .number z := by
  by_cases negative : z < 0
  · have signed : signed true z.natAbs = z := by
      rw [signed, if_pos rfl]
      omega
    rw [ofInt, if_pos negative]
    exact (ofDigits?_ofNat short true).trans (congrArg _ signed)
  · have unsigned : signed false z.natAbs = z := by
      rw [signed, if_neg Bool.false_ne_true]
      omega
    rw [ofInt, if_neg negative, read, sign_digits fun _ => isDigit_of_mem_ofNat]
    exact (ofDigits?_ofNat short false).trans (congrArg _ unsigned)

theorem writable_iff {z : Int} : Writable z ↔ z.natAbs < 10 ^ maxDigits :=
  Nat.length_toDigits_le_iff (by decide) (by decide)

end Numeral

end Numerals

namespace Binary64

variable {n d significand : Nat} {exponent : Int}

theorem roundDiv_mul (n : Nat) (positive : 0 < d) : roundDiv (n * d) d = n := by
  have apart : ¬0 = d := Nat.ne_of_lt positive
  simp [roundDiv, Nat.mul_div_cancel n positive, apart]

theorem exponentFor_mul_le (small : n < 2 ^ 52) (nonzero : n ≠ 0) (positive : 0 < d) :
    exponentFor (n * d) d ≤ 0 := by
  have digits : (n * d).log2 < 52 + (d.log2 + 1) := by
    refine (Nat.log2_lt (Nat.mul_ne_zero nonzero (Nat.ne_of_gt positive))).mpr ?_
    rw [Nat.pow_add]
    exact Nat.mul_lt_mul'' small Nat.lt_log2_self
  simp only [exponentFor, minExponent]
  split <;> omega

/-- The significand and the exponent of a value that is the whole number `n`. -/
def Tells (n significand : Nat) (exponent : Int) : Prop :=
  ∃ k, ratio significand exponent = (n * 2 ^ k, 2 ^ k)

theorem tells_of_nonpos (nonpos : exponent ≤ 0) (scaled : significand = n * 2 ^ (-exponent).toNat) :
    Tells n significand exponent := by
  refine ⟨(-exponent).toNat, ?_⟩
  subst scaled
  by_cases zero : exponent = 0
  · subst zero
    simp [ratio]
  · rw [ratio, if_neg (by omega)]
    rfl

/-- At an exponent that is not positive, a whole quotient is scaled to a whole number. -/
theorem roundDiv_scaled (nonpos : exponent ≤ 0) (positive : 0 < d) :
    roundDiv (scaled (n * d) d exponent).1 (scaled (n * d) d exponent).2 =
      n * 2 ^ (-exponent).toNat := by
  by_cases zero : exponent = 0
  · subst zero
    simpa [scaled] using roundDiv_mul n positive
  · have order : n * d * Nat.pow 2 (-exponent).toNat = n * 2 ^ (-exponent).toNat * d :=
      Nat.mul_right_comm n d _
    rw [scaled, if_neg (by omega), order]
    exact roundDiv_mul _ positive

/-- A significand that is rounded up to `2 ^ 53` is halved. -/
theorem carry_tells (negative : Bool) (small : n < 2 ^ 52) (nonpos : exponent ≤ 0)
    (scaled : significand = n * 2 ^ (-exponent).toNat) :
    ∃ s e, (match if significand = Nat.pow 2 53 then (Nat.pow 2 52, exponent + 1)
          else (significand, exponent) with
        | (significand, exponent) => if maxExponent < exponent then infinity negative
          else finite negative significand exponent) = finite negative s e ∧ Tells n s e := by
  by_cases full : significand = Nat.pow 2 53
  · have below : exponent < 0 := by
      rcases Int.lt_or_eq_of_le nonpos with below | rfl
      · exact below
      · have same : n = 2 ^ 53 := by simpa [scaled] using full
        omega
    refine ⟨Nat.pow 2 52, exponent + 1, ?_, tells_of_nonpos (by omega) ?_⟩
    · rw [if_pos full]
      exact if_neg (by unfold maxExponent; omega)
    · have more : (-exponent).toNat = (-(exponent + 1)).toNat + 1 := by omega
      rw [scaled, more, Nat.pow_succ, ← Nat.mul_assoc] at full
      exact (Nat.mul_right_cancel (by decide) (full.trans (Nat.pow_succ ..))).symm
  · refine ⟨significand, exponent, ?_, tells_of_nonpos nonpos scaled⟩
    rw [if_neg full]
    exact if_neg (by unfold maxExponent; omega)

/-- A quotient that is a small whole number is not rounded. -/
theorem ofRatio_mul (negative : Bool) (small : n < 2 ^ 52) (positive : 0 < d) :
    ∃ significand exponent, ofRatio negative (n * d) d = .finite negative significand exponent ∧
      Tells n significand exponent := by
  by_cases nonzero : n = 0
  · subst nonzero
    refine ⟨0, minExponent, ?_, tells_of_nonpos (by decide) (Nat.zero_mul _).symm⟩
    rw [Nat.zero_mul, ofRatio, if_pos rfl]
  · rw [ofRatio, if_neg (Nat.mul_ne_zero nonzero (Nat.ne_of_gt positive))]
    extract_lets exponent
    have low : exponent ≤ 0 := exponentFor_mul_le small nonzero positive
    have exact := roundDiv_scaled (n := n) low positive
    -- The quotient is taken apart before the cases meet: it is too large to be computed.
    generalize scaled (n * d) d exponent = quotient at exact ⊢
    obtain ⟨num, den⟩ := quotient
    exact carry_tells negative small low exact

end Binary64

end Stencil

import Mathlib.Algebra.Ring.Parity
import Mathlib.Tactic.Linarith
import Mathlib.Tactic.Ring

namespace PolicyEngine.Decimal

/-- The integer nearest to a quotient, the even one of two that are equally
near. -/
def roundHalfEven (p d : ℕ) : ℕ :=
  let q := p / d
  let r := p % d
  if 2 * r < d then q
  else if d < 2 * r then q + 1
  else if q % 2 = 0 then q
  else q + 1

variable {p d m q r : ℕ}

theorem roundHalfEven_add (hr : r < d) : roundHalfEven (q * d + r) d =
    if 2 * r < d then q else if d < 2 * r then q + 1 else if q % 2 = 0 then q else q + 1 := by
  have hdiv : (q * d + r) / d = q := by
    rw [Nat.add_comm, Nat.add_mul_div_right _ _ (Nat.zero_lt_of_lt hr), Nat.div_eq_of_lt hr,
      Nat.zero_add]
  have hmod : (q * d + r) % d = r := by
    rw [Nat.add_comm, Nat.add_mul_mod_self_right, Nat.mod_eq_of_lt hr]
  rw [roundHalfEven, hdiv, hmod]

theorem exists_quotient (p : ℕ) (hd : 0 < d) : ∃ q r, r < d ∧ p = q * d + r :=
  ⟨p / d, p % d, Nat.mod_lt p hd, (Nat.div_add_mod' p d).symm⟩

theorem roundHalfEven_mul (hd : 0 < d) : roundHalfEven (m * d) d = m := by
  have h := roundHalfEven_add (q := m) hd
  rwa [Nat.add_zero, if_pos (by omega)] at h

theorem roundHalfEven_one (p : ℕ) : roundHalfEven p 1 = p := by
  have h := roundHalfEven_mul (m := p) Nat.one_pos
  rwa [Nat.mul_one] at h

theorem le_roundHalfEven (hd : 0 < d) (h : m * d ≤ p) : m ≤ roundHalfEven p d := by
  have hquotient : m ≤ p / d := (Nat.le_div_iff_mul_le hd).mpr h
  unfold roundHalfEven
  dsimp only
  split_ifs <;> omega

theorem roundHalfEven_le (hd : 0 < d) (h : p ≤ m * d) : roundHalfEven p d ≤ m := by
  obtain rfl | hlt := h.eq_or_lt
  · exact (roundHalfEven_mul hd).le
  · have hquotient : p / d < m := (Nat.div_lt_iff_lt_mul hd).mpr hlt
    unfold roundHalfEven
    dsimp only
    split_ifs <;> omega

theorem two_mul_abs_sub_roundHalfEven_le (hd : 0 < d) :
    2 * |(p : ℤ) - (roundHalfEven p d * d : ℕ)| ≤ d := by
  obtain ⟨q, r, hr, rfl⟩ := exists_quotient p hd
  have hdown : ((q * d + r : ℕ) : ℤ) - (q * d : ℕ) = r := by
    push_cast
    ring
  have hup : ((q * d + r : ℕ) : ℤ) - ((q + 1) * d : ℕ) = r - d := by
    push_cast
    ring
  rw [roundHalfEven_add hr]
  split_ifs
  · rw [hdown, abs_of_nonneg (Int.natCast_nonneg r)]
    omega
  · rw [hup, abs_of_nonpos (by omega)]
    omega
  · rw [hdown, abs_of_nonneg (Int.natCast_nonneg r)]
    omega
  · rw [hup, abs_of_nonpos (by omega)]
    omega

theorem roundHalfEven_of_even (hd : 0 < d) (hm : m % 2 = 0)
    (h : 2 * |(p : ℤ) - (m * d : ℕ)| ≤ d) : roundHalfEven p d = m := by
  obtain ⟨q, r, hr, rfl⟩ := exists_quotient p hd
  have hupper := (le_abs_self (((q * d + r : ℕ) : ℤ) - (m * d : ℕ)))
  have hlower := (neg_le_abs (((q * d + r : ℕ) : ℤ) - (m * d : ℕ)))
  rw [roundHalfEven_add hr]
  -- The integer is the quotient or the one above it.
  obtain hlt | rfl | rfl | hgt : m + 1 ≤ q ∨ m = q ∨ m = q + 1 ∨ q + 2 ≤ m := by omega
  · have hmul : (m + 1) * d ≤ q * d := Nat.mul_le_mul_right d hlt
    rw [Nat.add_mul, Nat.one_mul] at hmul
    omega
  · split_ifs <;> omega
  · rw [Nat.add_mul, Nat.one_mul] at hlower h
    split_ifs <;> omega
  · have hmul : (q + 2) * d ≤ m * d := Nat.mul_le_mul_right d hgt
    rw [Nat.add_mul] at hmul
    omega

end PolicyEngine.Decimal

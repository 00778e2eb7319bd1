import Mathlib.Algebra.Order.Field.Rat
import Mathlib.Data.Rat.Cast.Order
import Mathlib.Tactic.Positivity
import PolicyEngine.Decimal.Digits

namespace PolicyEngine.Decimal

def wholePart (cs : List Char) : List Char := cs.takeWhile (· != '.')

def fractionPart (cs : List Char) : List Char := (cs.dropWhile (· != '.')).drop 1

def unsignedValue (cs : List Char) : ℚ :=
  natValue (wholePart cs ++ fractionPart cs) / 10 ^ (fractionPart cs).length

def plainValue (text : String) : ℚ :=
  match text.toList with
  | '-' :: cs => -unsignedValue cs
  | cs => unsignedValue cs

def pointed (frac : List Char) : List Char := if frac = [] then [] else '.' :: frac

def plainText (whole frac : List Char) : List Char := whole ++ pointed frac

variable {whole frac whole' frac' : List Char}

theorem bne_point_of_isDigit {c : Char} (h : c.isDigit = true) : (c != '.') = true := by
  rw [bne_iff_ne]
  intro hpoint
  rw [hpoint] at h
  cases h

theorem parts_plainText (hwhole : AllDigits whole) (frac : List Char) :
    wholePart (plainText whole frac) = whole ∧ fractionPart (plainText whole frac) = frac := by
  have hdigits : ∀ c ∈ whole, (c != '.') = true := fun c hc ↦ bne_point_of_isDigit (hwhole c hc)
  rw [wholePart, fractionPart, plainText, List.takeWhile_append_of_pos hdigits,
    List.dropWhile_append_of_pos hdigits, pointed]
  by_cases hfrac : frac = []
  · rw [if_pos hfrac, hfrac]
    exact ⟨List.append_nil _, rfl⟩
  · rw [if_neg hfrac]
    exact ⟨List.append_nil _, rfl⟩

theorem unsignedValue_plainText (hwhole : AllDigits whole) :
    unsignedValue (plainText whole frac) = natValue (whole ++ frac) / 10 ^ frac.length := by
  obtain ⟨hw, hf⟩ := parts_plainText hwhole frac
  rw [unsignedValue, hw, hf]

theorem unsignedValue_nonneg (cs : List Char) : 0 ≤ unsignedValue cs := by
  unfold unsignedValue
  positivity

/-- `(?:0|[1-9][0-9]*)`, and what is to follow. -/
def wholeThen (rest : List Char → Bool) : List Char → Bool
  | [] => false
  | '0' :: cs => rest cs
  | c :: cs => c.isDigit && rest (cs.dropWhile Char.isDigit)

theorem dropWhile_pointed : (pointed frac).dropWhile Char.isDigit = pointed frac := by
  unfold pointed
  split_ifs
  · rfl
  · rfl

theorem exists_of_wholeThen {rest : List Char → Bool} {cs : List Char}
    (h : wholeThen rest cs = true) :
    ∃ whole tail, IsWhole whole ∧ cs = whole ++ tail ∧ rest tail = true := by
  unfold wholeThen at h
  split at h
  · cases h
  · exact ⟨['0'], _, isWhole_toDigits 0, rfl, h⟩
  · rename_i c cs hc
    rw [Bool.and_eq_true] at h
    have hdigits : AllDigits (c :: cs.takeWhile Char.isDigit) :=
      List.forall_mem_cons.mpr ⟨h.1, fun _ hx ↦ List.mem_takeWhile_imp hx⟩
    refine ⟨c :: cs.takeWhile Char.isDigit, _, ⟨hdigits, List.cons_ne_nil _ _, ?_⟩, ?_, h.2⟩
    · intro hzero
      exact absurd (Option.some.inj hzero) hc
    · rw [List.cons_append, List.takeWhile_append_dropWhile]

theorem wholeThen_plainText {rest : List Char → Bool} (hwhole : IsWhole whole) (frac : List Char) :
    wholeThen rest (plainText whole frac) = rest (pointed frac) := by
  obtain ⟨_, digits, rfl⟩ := List.exists_cons_of_ne_nil hwhole.ne_nil
  have hdigits := List.forall_mem_cons.mp hwhole.digits
  rw [plainText, List.cons_append]
  unfold wholeThen
  split
  · rename_i heq
    cases heq
  · rename_i heq
    cases heq
    obtain rfl : digits = [] := (List.cons.inj (hwhole.head rfl)).2
    rfl
  · rename_i heq
    cases heq
    rw [hdigits.1, Bool.true_and, List.dropWhile_append_of_pos hdigits.2, dropWhile_pointed]

/-- No leading zero before the point but a single one, and no zero at the end
of the fraction. -/
structure IsCanonical (whole frac : List Char) : Prop where
  isWhole : IsWhole whole
  digits : AllDigits frac
  last : frac.getLast? ≠ some '0'

namespace IsCanonical

theorem length_le (h' : IsCanonical whole' frac')
    (heq : natValue (whole ++ frac) * 10 ^ frac'.length =
      natValue (whole' ++ frac') * 10 ^ frac.length) : frac'.length ≤ frac.length := by
  by_contra hlt
  rw [not_le] at hlt
  have hne : frac' ≠ [] := by
    rintro rfl
    exact absurd hlt (Nat.not_lt_zero _)
  -- The longer number would be a multiple of ten, with a zero at its end.
  have hdvd : 10 ∣ natValue (whole' ++ frac') := by
    obtain ⟨n, hn⟩ : ∃ n, frac'.length = frac.length + (n + 1) :=
      ⟨frac'.length - frac.length - 1, by omega⟩
    refine ⟨natValue (whole ++ frac) * 10 ^ n, ?_⟩
    apply Nat.eq_of_mul_eq_mul_right (Nat.pow_pos (by decide) : 0 < 10 ^ frac.length)
    rw [← heq, hn]
    ring
  have hlast := (ten_dvd_natValue_iff (h'.isWhole.digits.append h'.digits)
    (List.append_ne_nil_of_right_ne_nil _ hne)).mp hdvd
  rw [List.getLast?_append_of_ne_nil _ hne] at hlast
  exact h'.last hlast

theorem unique (h : IsCanonical whole frac) (h' : IsCanonical whole' frac')
    (heq : (natValue (whole ++ frac) / 10 ^ frac.length : ℚ) =
      natValue (whole' ++ frac') / 10 ^ frac'.length) : whole = whole' ∧ frac = frac' := by
  have hcross : natValue (whole ++ frac) * 10 ^ frac'.length =
      natValue (whole' ++ frac') * 10 ^ frac.length := by
    rw [div_eq_div_iff (by positivity) (by positivity)] at heq
    exact_mod_cast heq
  have hlength : frac.length = frac'.length :=
    Nat.le_antisymm (length_le h hcross.symm) (length_le h' hcross)
  rw [hlength] at hcross
  have hvalue : natValue (whole ++ frac) = natValue (whole' ++ frac') :=
    Nat.eq_of_mul_eq_mul_right (Nat.pow_pos (by decide)) hcross
  rw [natValue_append, natValue_append, hlength] at hvalue
  have hfrac : natValue frac < 10 ^ frac'.length := hlength ▸ natValue_lt h.digits
  have hfrac' := natValue_lt h'.digits
  have hpos : 0 < 10 ^ frac'.length := Nat.pow_pos (by decide)
  have hw : natValue whole = natValue whole' := by
    have hdiv := congrArg (· / 10 ^ frac'.length) hvalue
    simpa [Nat.add_comm (_ * _), Nat.add_mul_div_right _ _ hpos, Nat.div_eq_of_lt hfrac,
      Nat.div_eq_of_lt hfrac'] using hdiv
  refine ⟨?_, natValue_injective h.digits h'.digits hlength (by rw [hw] at hvalue; omega)⟩
  rw [← h.isWhole.toDigits_natValue, hw, h'.isWhole.toDigits_natValue]

end IsCanonical

end PolicyEngine.Decimal

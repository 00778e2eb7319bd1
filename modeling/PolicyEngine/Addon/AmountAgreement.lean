import PolicyEngine.Addon.CbiChecks
import PolicyEngine.Addon.Money
import PolicyEngine.Decimal.Scaled
import PolicyEngine.Server.Amount

namespace PolicyEngine.Addon

open PolicyEngine.Decimal PolicyEngine.Go PolicyEngine.Go.Result PolicyEngine.Python
open PolicyEngine.Server

def rendered (n s : ℕ) : String := String.ofList (plainText (scaledWhole n s) (scaledFraction n s))

section Rendering

variable {n s : ℕ}

theorem rendered_of_dvd (h : n % 10 ^ s = 0) : rendered n s = Strconv.formatNat (n / 10 ^ s) := by
  rw [rendered, scaledFraction_of_dvd h, plainText, pointed, if_pos rfl, List.append_nil]
  rfl

theorem rendered_of_not_dvd (h : n % 10 ^ s ≠ 0) : rendered n s =
    Strconv.formatNat (n / 10 ^ s) ++ "." ++ String.ofList (scaledFraction n s) := by
  rw [rendered, plainText, pointed, if_neg (scaledFraction_ne_nil h), Strconv.formatNat, scaledWhole]
  apply String.toList_injective
  simp

theorem rendered_zero (n : ℕ) : rendered n 0 = Strconv.formatNat n := by
  rw [rendered_of_dvd (Nat.mod_one n), pow_zero, Nat.div_one]

theorem formatInt_of_toInt {a : Int64} (h : a.toInt = n) :
    Strconv.formatInt a = Strconv.formatNat n := by
  rw [Strconv.formatInt, h, if_neg (by omega), Int.natAbs_natCast]

theorem canonicalMajorAmount_eq {amountMinor scale : Int64} (hn : amountMinor.toInt = n)
    (hs : scale.toInt = s) (hle : s ≤ 6) : canonicalMajorAmount amountMinor scale = rendered n s := by
  have hclamp : scale.toNatClampNeg = s := by rw [Int64.toNatClampNeg, hs, Int.toNat_natCast]
  have hfactor := toInt_factor s hle
  rw [canonicalMajorAmount, hclamp]
  generalize (List.replicate s 10).foldl (· * ·) (1 : Int64) = factor at hfactor
  have hwhole : (amountMinor / factor).toInt = (n / 10 ^ s : ℕ) := by
    have hmin : amountMinor ≠ Int64.minValue := by
      intro h
      rw [h] at hn
      exact absurd (Int.natCast_nonneg n) (hn ▸ by decide)
    rw [Int64.toInt_div_of_ne_left _ _ hmin, hn, hfactor]
    norm_cast
  have hfraction : (amountMinor % factor).toInt = (n % 10 ^ s : ℕ) := by
    rw [Int64.toInt_mod, hn, hfactor]
    norm_cast
  have hzero : scale = 0 ↔ s = 0 := by
    rw [← Int64.toInt_inj, hs, Int64.toInt_zero]
    omega
  have hdvd : amountMinor % factor = 0 ↔ n % 10 ^ s = 0 := by
    rw [← Int64.toInt_inj, hfraction, Int64.toInt_zero]
    omega
  dsimp only
  split_ifs with h₀ h
  · rw [hzero.mp h₀, rendered_zero, formatInt_of_toInt hn]
  · rw [rendered_of_dvd (hdvd.mp h), formatInt_of_toInt hwhole]
  · rw [rendered_of_not_dvd (hdvd.not.mp h), formatInt_of_toInt hwhole, formatInt_of_toInt hfraction]
    have htrim : Text.trimRight (String.ofList (List.replicate
        (s - (Strconv.formatNat (n % 10 ^ s)).length) '0') ++ Strconv.formatNat (n % 10 ^ s)) '0' =
        String.ofList (scaledFraction n s) := by
      rw [Text.trimRight, String.toList_append, String.toList_ofList, Strconv.formatNat,
        String.toList_ofList, String.length_ofList]
      rfl
    rw [htrim]

theorem integer_natCast {field : String} {maximum : ℤ} (h : (n : ℤ) ≤ maximum) :
    integer field 0 maximum (.int n) = .ok (n : ℤ) :=
  integer_eq_ok.mpr ⟨rfl, Int.natCast_nonneg n, h⟩

theorem minorUnitsToDecimal_eq (hn : (n : ℤ) ≤ int64Max) (hs : s ≤ 6) :
    minorUnitsToDecimal (.int n) (.int s) = .ok (rendered n s) := by
  have hdigits : (formatInt n).toList = Nat.toDigits 10 n := by
    rw [formatInt, if_neg (by omega), Int.natAbs_natCast, Strconv.formatNat, String.toList_ofList]
  rw [minorUnitsToDecimal, integer_natCast hn, integer_natCast (by omega)]
  dsimp only [bind, Except.bind, pure, Except.pure]
  rw [hdigits]
  obtain rfl | hpos := Nat.eq_zero_or_pos s
  · rw [if_pos Int.natCast_zero, rendered_zero]
    rfl
  · have hpadded : List.replicate (s + 1 - (Nat.toDigits 10 n).length) '0' ++ Nat.toDigits 10 n =
        scaledWhole n s ++ zeroPadded s (Nat.toDigits 10 (n % 10 ^ s)) := zeroPadded_toDigits hpos
    have hlength : (scaledWhole n s ++ zeroPadded s (Nat.toDigits 10 (n % 10 ^ s))).length - s =
        (scaledWhole n s).length := by
      rw [List.length_append, length_zeroPadded (length_toDigits_mod_le hpos n), Nat.add_sub_cancel]
    rw [if_neg (by omega), Int.toNat_natCast, hpadded, hlength, List.take_left, List.drop_left,
      ← scaledFraction]
    by_cases h : n % 10 ^ s = 0
    · rw [if_pos (scaledFraction_of_dvd h), rendered_of_dvd h]
      rfl
    · rw [if_neg (scaledFraction_ne_nil h), rendered_of_not_dvd h]
      rfl

end Rendering

/-- Both languages render an amount by its one canonical text, and it is read
back. -/
theorem amount_rendering_exact {amountMinor scale : Int64} (ha : 0 ≤ amountMinor.toInt)
    (hs : 0 ≤ scale.toInt) (hle : scale.toInt ≤ 6) :
    ∃ text whole frac, text = String.ofList (plainText whole frac) ∧ IsCanonical whole frac ∧
      canonicalMajorAmount amountMinor scale = text ∧
      minorUnitsToDecimal (.int amountMinor.toInt) (.int scale.toInt) = .ok text ∧
      plainValue text = amountMinor.toInt / 10 ^ scale.toInt.toNat ∧
      amountToMinorUnits (.text text) (.int scale.toInt) = .ok amountMinor.toInt := by
  obtain ⟨n, hn⟩ := Int.eq_ofNat_of_zero_le ha
  obtain ⟨s, hscale⟩ := Int.eq_ofNat_of_zero_le hs
  rw [hscale] at hle
  have hmax : (n : ℤ) ≤ int64Max := by
    have hlt := Int64.toInt_lt amountMinor
    have hint : int64Max = 2 ^ 63 - 1 := rfl
    omega
  have hcanonical := isCanonical_scaled n s
  have hpattern : moneyPattern (rendered n s).toList = true := by
    rw [rendered, String.toList_ofList]
    exact moneyPattern_plainText hcanonical.isWhole hcanonical.digits
  have hvalue : plainValue (rendered n s) = n / 10 ^ s := by
    rw [plainValue_of_moneyPattern hpattern, rendered, String.toList_ofList,
      unsignedValue_plainText hcanonical.isWhole.digits, value_scaled]
  refine ⟨rendered n s, scaledWhole n s, scaledFraction n s, rfl, hcanonical,
    canonicalMajorAmount_eq hn hscale (by omega), ?_, ?_, ?_⟩
  · rw [hn, hscale]
    exact minorUnitsToDecimal_eq hmax (by omega)
  · rw [hvalue, hn, hscale, Int.toNat_natCast, Int.cast_natCast]
  · rw [hn, hscale]
    refine (amountToMinorUnits_eq_ok_iff hpattern (by omega)).mpr ⟨Int.natCast_nonneg n, hmax, ?_⟩
    have hexact : plainValue (rendered n s) * 10 ^ s = (n : ℤ) := by
      rw [hvalue, div_mul_cancel₀ _ (by positivity)]
      rfl
    rw [hexact, sub_self, abs_zero]
    exact slack_nonneg

theorem amount_rendering_exact_cents :
    ∃ text whole frac, text = String.ofList (plainText whole frac) ∧ IsCanonical whole frac ∧
      canonicalMajorAmount 1230 2 = text ∧
      minorUnitsToDecimal (.int (1230 : Int64).toInt) (.int (2 : Int64).toInt) = .ok text ∧
      plainValue text = (1230 : Int64).toInt / 10 ^ (2 : Int64).toInt.toNat ∧
      amountToMinorUnits (.text text) (.int (2 : Int64).toInt) = .ok (1230 : Int64).toInt :=
  amount_rendering_exact (by decide) (by decide) (by decide)

end PolicyEngine.Addon

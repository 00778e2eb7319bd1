import PolicyEngine.Decimal.Notation

namespace PolicyEngine.Decimal

def zeroPadded (width : ℕ) (cs : List Char) : List Char :=
  List.replicate (width - cs.length) '0' ++ cs

/-- The digits of a number of `10⁻ˢ` before the point. -/
def scaledWhole (n s : ℕ) : List Char := Nat.toDigits 10 (n / 10 ^ s)

def scaledFraction (n s : ℕ) : List Char :=
  (zeroPadded s (Nat.toDigits 10 (n % 10 ^ s))).rdropWhile (· == '0')

variable {n s width : ℕ} {cs : List Char}

theorem natValue_zeroPadded : natValue (zeroPadded width cs) = natValue cs :=
  natValue_replicate_append _ cs

theorem AllDigits.zeroPadded (h : AllDigits cs) : AllDigits (zeroPadded width cs) :=
  (allDigits_replicate_zero _).append h

theorem length_zeroPadded (h : cs.length ≤ width) : (zeroPadded width cs).length = width := by
  rw [Decimal.zeroPadded, List.length_append, List.length_replicate, Nat.sub_add_cancel h]

theorem length_toDigits_mod_le (hs : 0 < s) (n : ℕ) : (Nat.toDigits 10 (n % 10 ^ s)).length ≤ s :=
  (Nat.length_toDigits_le_iff (by decide) hs).mpr (Nat.mod_lt n (Nat.pow_pos (by decide)))

theorem isCanonical_scaled (n s : ℕ) : IsCanonical (scaledWhole n s) (scaledFraction n s) where
  isWhole := isWhole_toDigits _
  digits := fun c hc ↦ AllDigits.zeroPadded (allDigits_toDigits _) c (( List.rdropWhile_prefix _ _).subset hc)
  last := getLast?_rdropWhile_zero _

theorem scaledFraction_of_dvd (h : n % 10 ^ s = 0) : scaledFraction n s = [] := by
  rw [scaledFraction, h, List.rdropWhile_eq_nil_iff]
  intro _ hc
  rw [zeroPadded, List.mem_append] at hc
  obtain hc | hc := hc
  · rw [List.eq_of_mem_replicate hc]
    rfl
  · rw [List.mem_singleton.mp hc]
    rfl

theorem scaledFraction_ne_nil (h : n % 10 ^ s ≠ 0) : scaledFraction n s ≠ [] := by
  intro hnil
  obtain ⟨_, hk⟩ := exists_rdropWhile_zero (zeroPadded s (Nat.toDigits 10 (n % 10 ^ s)))
  have hvalue := congrArg natValue hk
  rw [← scaledFraction, hnil, List.nil_append, natValue_replicate_zero, natValue_zeroPadded,
    natValue_toDigits] at hvalue
  exact h hvalue

theorem value_scaled (n s : ℕ) :
    (natValue (scaledWhole n s ++ scaledFraction n s) / 10 ^ (scaledFraction n s).length : ℚ) =
      n / 10 ^ s := by
  obtain rfl | hs := Nat.eq_zero_or_pos s
  · rw [scaledFraction_of_dvd (Nat.mod_one n), scaledWhole, List.append_nil, natValue_toDigits,
      pow_zero, Nat.div_one, List.length_nil, pow_zero]
  · obtain ⟨k, hk⟩ := exists_rdropWhile_zero (zeroPadded s (Nat.toDigits 10 (n % 10 ^ s)))
    rw [← scaledFraction] at hk
    have hlength : (scaledFraction n s).length + k = s := by
      have h := congrArg List.length hk
      rw [length_zeroPadded (length_toDigits_mod_le hs n), List.length_append,
        List.length_replicate] at h
      exact h.symm
    have hvalue : natValue (scaledFraction n s) * 10 ^ k = n % 10 ^ s := by
      rw [← natValue_append_replicate, ← hk, natValue_zeroPadded, natValue_toDigits]
    have hsum : natValue (scaledWhole n s ++ scaledFraction n s) * 10 ^ k = n := by
      rw [natValue_append, Nat.add_mul, hvalue, Nat.mul_assoc, ← Nat.pow_add, hlength, scaledWhole,
        natValue_toDigits, Nat.div_add_mod']
    have hpow : (10 : ℚ) ^ s = 10 ^ k * 10 ^ (scaledFraction n s).length := by
      rw [← pow_add, Nat.add_comm, hlength]
    have hsum' : (natValue (scaledWhole n s ++ scaledFraction n s) : ℚ) * 10 ^ k = n := by
      exact_mod_cast hsum
    rw [div_eq_div_iff (by positivity) (by positivity), hpow, ← mul_assoc, hsum']

theorem zeroPadded_toDigits (hs : 0 < s) : zeroPadded (s + 1) (Nat.toDigits 10 n) =
    scaledWhole n s ++ zeroPadded s (Nat.toDigits 10 (n % 10 ^ s)) := by
  have hmod := length_zeroPadded (length_toDigits_mod_le hs n)
  have hvalue : natValue (scaledWhole n s ++ zeroPadded s (Nat.toDigits 10 (n % 10 ^ s))) = n := by
    rw [natValue_append, hmod, natValue_zeroPadded, natValue_toDigits, scaledWhole,
      natValue_toDigits, Nat.div_add_mod']
  have hdigits : AllDigits (scaledWhole n s ++ zeroPadded s (Nat.toDigits 10 (n % 10 ^ s))) :=
    (allDigits_toDigits _).append (allDigits_toDigits _).zeroPadded
  obtain hlt | hge := Nat.lt_or_ge n (10 ^ s)
  · have hwhole : scaledWhole n s = ['0'] := by
      rw [scaledWhole, Nat.div_eq_of_lt hlt]
      rfl
    have hn : (Nat.toDigits 10 n).length ≤ s := (Nat.length_toDigits_le_iff (by decide) hs).mpr hlt
    apply natValue_injective (allDigits_toDigits n).zeroPadded hdigits
    · rw [length_zeroPadded (by omega), List.length_append, hmod, hwhole, List.length_singleton,
        Nat.add_comm]
    · rw [hvalue, natValue_zeroPadded, natValue_toDigits]
  · -- Nothing is put in front of a number with a digit before the point.
    have hpos : 0 < n / 10 ^ s := Nat.div_pos hge (Nat.pow_pos (by decide))
    have hwhole : IsWhole (scaledWhole n s ++ zeroPadded s (Nat.toDigits 10 (n % 10 ^ s))) := by
      refine ⟨hdigits, List.append_ne_nil_of_left_ne_nil Nat.toDigits_ne_nil _, ?_⟩
      intro hhead
      rw [scaledWhole, List.head?_append_of_ne_nil _ Nat.toDigits_ne_nil] at hhead
      exact absurd hhead (head?_toDigits hpos)
    have hn := hwhole.toDigits_natValue
    rw [hvalue] at hn
    have hlength := List.length_pos_iff.mpr (Nat.toDigits_ne_nil (b := 10) (n := n / 10 ^ s))
    rw [hn, zeroPadded, List.length_append, hmod, scaledWhole, Nat.sub_eq_zero_of_le (by omega)]
    rfl

end PolicyEngine.Decimal

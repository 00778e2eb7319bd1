import Mathlib.Algebra.Order.Ring.Nat
import Mathlib.Data.List.DropRight
import Mathlib.Tactic.Ring

namespace PolicyEngine.Decimal

def natValue (cs : List Char) : ℕ := Nat.ofDigitChars 10 cs 0

def AllDigits (cs : List Char) : Prop := ∀ c ∈ cs, c.isDigit = true

instance decidableAllDigits (cs : List Char) : Decidable (AllDigits cs) :=
  decidable_of_iff (cs.all Char.isDigit = true) List.all_eq_true

structure IsWhole (cs : List Char) : Prop where
  digits : AllDigits cs
  ne_nil : cs ≠ []
  head : cs.head? = some '0' → cs = ['0']

variable {cs ds : List Char} {c : Char} {n : ℕ}

theorem toNat_of_isDigit (h : c.isDigit = true) : 48 ≤ c.toNat ∧ c.toNat ≤ 57 := by
  simp only [Char.isDigit, Bool.and_eq_true, decide_eq_true_eq] at h
  exact h

theorem AllDigits.append (h : AllDigits cs) (h' : AllDigits ds) : AllDigits (cs ++ ds) :=
  List.forall_mem_append.mpr ⟨h, h'⟩

theorem allDigits_toDigits (n : ℕ) : AllDigits (Nat.toDigits 10 n) := fun _ h ↦
  Nat.isDigit_of_mem_toDigits (by decide) (by decide) h

theorem allDigits_replicate_zero (n : ℕ) : AllDigits (List.replicate n '0') := by
  intro _ hc
  rw [List.eq_of_mem_replicate hc]
  rfl

theorem natValue_append (cs ds : List Char) :
    natValue (cs ++ ds) = natValue cs * 10 ^ ds.length + natValue ds := by
  unfold natValue
  rw [Nat.ofDigitChars_append, Nat.ofDigitChars_eq_ofDigitChars_zero, Nat.mul_comm]

theorem natValue_singleton (c : Char) : natValue [c] = c.toNat - 48 := by
  unfold natValue
  rw [Nat.ofDigitChars_cons, Nat.ofDigitChars_nil, Nat.mul_zero, Nat.zero_add]
  rfl

theorem natValue_concat (cs : List Char) (c : Char) :
    natValue (cs ++ [c]) = natValue cs * 10 + (c.toNat - 48) := by
  rw [natValue_append, natValue_singleton, List.length_singleton, Nat.pow_one]

@[simp]
theorem natValue_toDigits (n : ℕ) : natValue (Nat.toDigits 10 n) = n := Nat.ofDigitChars_ten_toDigits

@[simp]
theorem natValue_replicate_zero (n : ℕ) : natValue (List.replicate n '0') = 0 := by
  induction n with
  | zero => rfl
  | succ _ ih => rw [List.replicate_succ', natValue_concat, ih]; rfl

theorem natValue_replicate_append (n : ℕ) (cs : List Char) :
    natValue (List.replicate n '0' ++ cs) = natValue cs := by
  rw [natValue_append, natValue_replicate_zero, Nat.zero_mul, Nat.zero_add]

theorem natValue_append_replicate (cs : List Char) (n : ℕ) :
    natValue (cs ++ List.replicate n '0') = natValue cs * 10 ^ n := by
  rw [natValue_append, natValue_replicate_zero, List.length_replicate, Nat.add_zero]

theorem natValue_lt (h : AllDigits cs) : natValue cs < 10 ^ cs.length := by
  induction cs using List.reverseRecOn with
  | nil => exact Nat.one_pos
  | append_singleton _ c ih =>
    have hcs := ih fun x hx ↦ h x (List.mem_append_left _ hx)
    have hc := toNat_of_isDigit (h c (List.mem_append_right _ List.mem_cons_self))
    rw [natValue_concat, List.length_append, List.length_singleton, Nat.pow_succ]
    omega

theorem natValue_injective (hcs : AllDigits cs) (hds : AllDigits ds)
    (hlength : cs.length = ds.length) (h : natValue cs = natValue ds) : cs = ds := by
  induction cs using List.reverseRecOn generalizing ds with
  | nil => exact (List.length_eq_zero_iff.mp hlength.symm).symm
  | append_singleton cs c ih =>
    obtain rfl | ⟨ds, d, rfl⟩ := List.eq_nil_or_concat' ds
    · rw [List.length_append] at hlength
      cases hlength
    · have hc := toNat_of_isDigit (hcs c (List.mem_append_right _ List.mem_cons_self))
      have hd := toNat_of_isDigit (hds d (List.mem_append_right _ List.mem_cons_self))
      rw [natValue_concat, natValue_concat] at h
      have hlast : c.toNat = d.toNat := by omega
      have hchar : c = d := Char.toNat_inj.mp hlast
      have hrest : cs = ds := by
        refine ih (fun x hx ↦ hcs x (List.mem_append_left _ hx))
          (fun x hx ↦ hds x (List.mem_append_left _ hx)) ?_ (by omega)
        simpa using hlength
      rw [hchar, hrest]

theorem head?_toDigits (hn : 0 < n) : (Nat.toDigits 10 n).head? ≠ some '0' := by
  induction n using Nat.strong_induction_on with
  | _ n ih =>
    obtain hlt | hge := Nat.lt_or_ge n 10
    · rw [Nat.toDigits_of_lt_base hlt, List.head?_cons, Option.some_inj.ne]
      intro hzero
      have h := congrArg Char.toNat hzero
      rw [Nat.toNat_digitChar_of_lt_ten hlt] at h
      have h0 : '0'.toNat = 48 := rfl
      omega
    · rw [Nat.toDigits_of_base_le (by decide) hge, List.head?_append_of_ne_nil _ Nat.toDigits_ne_nil]
      exact ih (n / 10) (by omega) (by omega)

theorem isWhole_toDigits (n : ℕ) : IsWhole (Nat.toDigits 10 n) where
  digits := allDigits_toDigits n
  ne_nil := Nat.toDigits_ne_nil
  head := fun h ↦ by
    obtain rfl | hn := Nat.eq_zero_or_pos n
    · exact Nat.toDigits_zero 10
    · exact absurd h (head?_toDigits hn)

theorem pow_le_natValue (h : AllDigits cs) (hne : cs ≠ []) (hhead : cs.head? ≠ some '0') :
    10 ^ (cs.length - 1) ≤ natValue cs := by
  obtain ⟨c, cs, rfl⟩ := List.exists_cons_of_ne_nil hne
  have hc := toNat_of_isDigit (h c List.mem_cons_self)
  have hc0 : c.toNat ≠ 48 := by
    intro heq
    have hzero : c = '0' := Char.toNat_inj.mp heq
    exact hhead (congrArg some hzero)
  rw [← List.singleton_append, natValue_append, natValue_singleton, List.length_append,
    List.length_singleton, Nat.add_sub_cancel_left]
  have hone : 1 * 10 ^ cs.length ≤ (c.toNat - 48) * 10 ^ cs.length :=
    Nat.mul_le_mul_right _ (by omega)
  omega

theorem IsWhole.toDigits_natValue (h : IsWhole cs) : Nat.toDigits 10 (natValue cs) = cs := by
  by_cases hhead : cs.head? = some '0'
  · rw [h.head hhead]
    rfl
  · have hpos : 0 < cs.length := List.length_pos_iff.mpr h.ne_nil
    have hlow := pow_le_natValue h.digits h.ne_nil hhead
    have hle : (Nat.toDigits 10 (natValue cs)).length ≤ cs.length :=
      (Nat.length_toDigits_le_iff (by decide) hpos).mpr (natValue_lt h.digits)
    have hge : cs.length ≤ (Nat.toDigits 10 (natValue cs)).length := by
      by_contra hlt
      obtain _ | hk := Nat.eq_zero_or_pos (cs.length - 1)
      · have hdigits := List.length_pos_iff.mpr (Nat.toDigits_ne_nil (b := 10) (n := natValue cs))
        omega
      · have := (Nat.length_toDigits_le_iff (b := 10) (n := natValue cs) (by decide) hk).mp (by omega)
        omega
    exact natValue_injective (allDigits_toDigits _) h.digits (Nat.le_antisymm hle hge)
      (natValue_toDigits _)

theorem ten_dvd_natValue_iff (h : AllDigits cs) (hne : cs ≠ []) :
    10 ∣ natValue cs ↔ cs.getLast? = some '0' := by
  obtain rfl | ⟨cs, c, rfl⟩ := List.eq_nil_or_concat' cs
  · exact absurd rfl hne
  · have hc := toNat_of_isDigit (h c (List.mem_append_right _ List.mem_cons_self))
    have hdvd : 10 ∣ natValue (cs ++ [c]) ↔ c.toNat = 48 := by
      rw [natValue_concat]
      omega
    rw [hdvd, List.getLast?_append, List.getLast?_singleton, Option.some_or, Option.some_inj,
      ← Char.toNat_inj]
    rfl

theorem exists_rdropWhile_zero (cs : List Char) :
    ∃ n, cs = cs.rdropWhile (· == '0') ++ List.replicate n '0' := by
  refine ⟨(cs.rtakeWhile (· == '0')).length, ?_⟩
  have hzeros : cs.rtakeWhile (· == '0') =
      List.replicate (cs.rtakeWhile (· == '0')).length '0' :=
    List.eq_replicate_of_mem fun c hc ↦ by simpa using List.mem_rtakeWhile_imp hc
  rw [← hzeros, List.rdropWhile_append_rtakeWhile]

theorem getLast?_rdropWhile_zero (cs : List Char) :
    (cs.rdropWhile (· == '0')).getLast? ≠ some '0' := by
  intro h
  have hne : cs.rdropWhile (· == '0') ≠ [] := by
    intro hnil
    rw [hnil] at h
    cases h
  have hlast := List.rdropWhile_last_not (· == '0') cs hne
  rw [List.getLast?_eq_some_getLast hne, Option.some_inj] at h
  rw [h] at hlast
  exact hlast rfl

end PolicyEngine.Decimal

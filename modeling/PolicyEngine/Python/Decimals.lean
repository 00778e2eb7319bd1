import PolicyEngine.Decimal.Notation
import PolicyEngine.Decimal.Rounding
import PolicyEngine.Python.Basic

namespace PolicyEngine.Python

open PolicyEngine.Decimal

/-- A finite `decimal.Decimal`: sign, coefficient and exponent. -/
structure Dec where
  neg : Bool
  coeff : ℕ
  exp : ℤ
deriving DecidableEq

namespace Dec

variable (d : Dec)

def digits : List Char := Nat.toDigits 10 d.coeff

def signed : ℤ := if d.neg then -d.coeff else d.coeff

def value : ℚ := d.signed * 10 ^ d.exp

section Reading

def readSign : List Char → Bool × List Char
  | '-' :: cs => (true, cs)
  | '+' :: cs => (false, cs)
  | cs => (false, cs)

def readExponent : List Char → Option ℤ
  | [] => some 0
  | c :: cs =>
    let sign := readSign cs
    if (c = 'e' ∨ c = 'E') ∧ sign.2 ≠ [] ∧ AllDigits sign.2 then
      some (if sign.1 then -natValue sign.2 else natValue sign.2)
    else none

def readFraction : List Char → List Char × List Char
  | '.' :: cs => (cs.takeWhile Char.isDigit, cs.dropWhile Char.isDigit)
  | cs => ([], cs)

def read (cs : List Char) : Option Dec :=
  let sign := readSign cs
  let int := sign.2.takeWhile Char.isDigit
  let frac := readFraction (sign.2.dropWhile Char.isDigit)
  if int ++ frac.1 = [] then none
  else (readExponent frac.2).map fun e ↦ ⟨sign.1, natValue (int ++ frac.1), e - frac.1.length⟩

end Reading

section Arithmetic

def prec : ℕ := 28

def emax : ℤ := 999999

def etiny : ℤ := -999999 - prec + 1

def etop : ℤ := emax - prec + 1

/-- `_fix`: the number as the context can hold it. Of the signals on the way
only an overflow is an exception. -/
def fix : Except String Dec :=
  if d.coeff = 0 then .ok { d with exp := min (max d.exp etiny) emax }
  else if d.digits.length + d.exp - prec > etop then .error "decimal.Overflow"
  else
    let expMin := max (d.digits.length + d.exp - prec) etiny
    if d.exp < expMin then
      let coeff := roundHalfEven d.coeff (10 ^ (expMin - d.exp).toNat)
      if coeff < 10 ^ prec then .ok ⟨d.neg, coeff, expMin⟩
      else if expMin + 1 > etop then .error "decimal.Overflow"
      else .ok ⟨d.neg, coeff / 10, expMin + 1⟩
    else .ok d

def mul (a b : Dec) : Except String Dec :=
  fix ⟨a.neg != b.neg, a.coeff * b.coeff, a.exp + b.exp⟩

def toIntegralValue : Dec :=
  if 0 ≤ d.exp then d else ⟨d.neg, roundHalfEven d.coeff (10 ^ (-d.exp).toNat), 0⟩

def eq (a b : Dec) : Bool :=
  let e := min a.exp b.exp
  decide (a.signed * 10 ^ (a.exp - e).toNat = b.signed * 10 ^ (b.exp - e).toNat)

def toInt : ℤ :=
  let n : ℕ := if 0 ≤ d.exp then d.coeff * 10 ^ d.exp.toNat else d.coeff / 10 ^ (-d.exp).toNat
  if d.neg then -n else n

end Arithmetic

section Format

def fixedParts : List Char × List Char :=
  let exp := if d.coeff = 0 ∧ 0 < d.exp then 0 else d.exp
  let int := d.digits
  let dotplace := exp + int.length
  if dotplace < 0 then (['0'], List.replicate (-dotplace).toNat '0' ++ int)
  else if int.length < dotplace then
    (int ++ List.replicate (dotplace - int.length).toNat '0', [])
  else
    let front := int.take dotplace.toNat
    (if front = [] then ['0'] else front, int.drop dotplace.toNat)

def formatFixed : List Char :=
  (if d.neg then ['-'] else []) ++ plainText d.fixedParts.1 d.fixedParts.2

end Format

section FixedParts

def fixedExp : ℤ := if d.coeff = 0 ∧ 0 < d.exp then 0 else d.exp

variable {d}

theorem coeff_mul_fixedExp : (d.coeff * 10 ^ d.fixedExp : ℚ) = d.coeff * 10 ^ d.exp := by
  unfold fixedExp
  split_ifs with h
  · rw [h.1, Nat.cast_zero, zero_mul, zero_mul]
  · rfl

theorem digits_of_head (h : d.digits.head? = some '0') : d.digits = ['0'] ∧ d.coeff = 0 := by
  obtain hzero | hpos := Nat.eq_zero_or_pos d.coeff
  · rw [digits, hzero]
    exact ⟨rfl, rfl⟩
  · exact absurd h (head?_toDigits hpos)

theorem natValue_zero_cons (cs : List Char) : natValue ('0' :: cs) = natValue cs :=
  natValue_replicate_append 1 cs

theorem div_pow_eq {cs : List Char} {k : ℕ} {e : ℤ} (hcs : natValue cs = d.coeff) (hk : e = -k) :
    (natValue cs / 10 ^ k : ℚ) = d.coeff * 10 ^ e := by
  rw [hcs, hk, zpow_neg, zpow_natCast, div_eq_mul_inv]

theorem fixedParts_spec : IsWhole d.fixedParts.1 ∧ AllDigits d.fixedParts.2 ∧
    (natValue (d.fixedParts.1 ++ d.fixedParts.2) / 10 ^ d.fixedParts.2.length : ℚ) =
      d.coeff * 10 ^ d.exp := by
  have hne : d.digits ≠ [] := Nat.toDigits_ne_nil
  have hall : AllDigits d.digits := allDigits_toDigits d.coeff
  have hvalue : natValue d.digits = d.coeff := natValue_toDigits d.coeff
  rw [← coeff_mul_fixedExp]
  unfold fixedParts
  dsimp only
  rw [← fixedExp]
  split_ifs with hneg hlong hfront
  · refine ⟨isWhole_toDigits 0, (allDigits_replicate_zero _).append hall, ?_⟩
    apply div_pow_eq
    · rw [List.singleton_append, natValue_zero_cons, natValue_replicate_append, hvalue]
    · rw [List.length_append, List.length_replicate]
      omega
  · refine ⟨⟨hall.append (allDigits_replicate_zero _), List.append_ne_nil_of_left_ne_nil hne _, ?_⟩,
      List.forall_mem_nil _, ?_⟩
    · -- Zeros are put behind a number only if it is not zero.
      intro hhead
      rw [List.head?_append_of_ne_nil _ hne] at hhead
      have hzero := (digits_of_head hhead).2
      have hexp : d.fixedExp ≤ 0 := by
        unfold fixedExp
        split_ifs with h
        · exact le_rfl
        · exact not_lt.mp fun hpos ↦ h ⟨hzero, hpos⟩
      omega
    · have hexp : (d.fixedExp + d.digits.length - d.digits.length).toNat = d.fixedExp.toNat := by
        rw [Int.add_sub_cancel]
      rw [hexp, List.append_nil, natValue_append_replicate, hvalue, List.length_nil, pow_zero, div_one,
        Nat.cast_mul, Nat.cast_pow, ← zpow_natCast, Int.toNat_of_nonneg (by omega)]
      rfl
  · refine ⟨isWhole_toDigits 0, fun c hc ↦ hall c (List.mem_of_mem_drop hc), ?_⟩
    have hzero : (d.fixedExp + d.digits.length).toNat = 0 := by
      have htake := List.take_eq_nil_iff.mp hfront
      exact htake.resolve_right hne
    rw [hzero, List.drop_zero]
    apply div_pow_eq
    · rw [List.singleton_append, natValue_zero_cons, hvalue]
    · dsimp only
      omega
  · refine ⟨⟨fun c hc ↦ hall c (List.mem_of_mem_take hc), hfront, ?_⟩,
      fun c hc ↦ hall c (List.mem_of_mem_drop hc), ?_⟩
    · intro hhead
      have hpos : (d.fixedExp + d.digits.length).toNat ≠ 0 := fun h ↦ hfront (by rw [h]; rfl)
      rw [List.head?_take, if_neg hpos] at hhead
      have hdigits := (digits_of_head hhead).1
      have hone : d.digits.length = 1 := congrArg List.length hdigits
      rw [List.take_of_length_le (by omega)]
      exact hdigits
    · apply div_pow_eq
      · rw [List.take_append_drop, hvalue]
      · rw [List.length_drop]
        omega

end FixedParts

section Value

variable {d}

theorem value_of_nonneg (h : 0 ≤ d.exp) : d.value = d.signed * 10 ^ d.exp.toNat := by
  rw [value, ← zpow_natCast, Int.toNat_of_nonneg h]

theorem value_of_neg (h : d.exp < 0) : d.value = d.signed / 10 ^ (-d.exp).toNat := by
  rw [value, div_eq_mul_inv, ← zpow_natCast, ← zpow_neg, Int.toNat_of_nonneg (by omega), neg_neg]

theorem eq_iff {a b : Dec} : a.eq b = true ↔ a.value = b.value := by
  have hshift (x : Dec) (e : ℤ) (he : e ≤ x.exp) :
      x.value = (x.signed * 10 ^ (x.exp - e).toNat : ℤ) * (10 : ℚ) ^ e := by
    rw [value]
    push_cast
    rw [mul_assoc, ← zpow_natCast, Int.toNat_of_nonneg (by omega), ← zpow_add₀ (by norm_num),
      Int.sub_add_cancel]
  rw [hshift a _ (min_le_left a.exp b.exp), hshift b _ (min_le_right a.exp b.exp),
    mul_left_inj' (zpow_ne_zero _ (by norm_num)), Int.cast_inj, eq, decide_eq_true_iff]

theorem of_value_eq {m : ℤ} (h : d.value = m) (hexp : d.exp < 0) :
    d.coeff = m.natAbs * 10 ^ (-d.exp).toNat ∧ (if d.neg then -(m.natAbs : ℤ) else m.natAbs) = m := by
  have hpos : (0 : ℤ) < 10 ^ (-d.exp).toNat := by positivity
  have hsigned : d.signed = m * 10 ^ (-d.exp).toNat := by
    rw [value_of_neg hexp, div_eq_iff (by positivity)] at h
    exact_mod_cast h
  have hcoeff : d.coeff = m.natAbs * 10 ^ (-d.exp).toNat := by
    have habs := congrArg Int.natAbs hsigned
    rw [Int.natAbs_mul, Int.natAbs_pow] at habs
    refine Eq.trans ?_ habs
    unfold signed
    split_ifs
    · rw [Int.natAbs_neg, Int.natAbs_natCast]
    · rw [Int.natAbs_natCast]
  refine ⟨hcoeff, ?_⟩
  apply Int.eq_of_mul_eq_mul_right hpos.ne'
  rw [← hsigned]
  unfold signed
  rw [hcoeff]
  split_ifs
  · push_cast
    ring
  · push_cast
    ring

theorem value_toIntegralValue : ∃ m : ℤ, d.toIntegralValue.value = m := by
  unfold toIntegralValue
  split_ifs with hexp
  · refine ⟨d.signed * 10 ^ d.exp.toNat, ?_⟩
    rw [value_of_nonneg hexp]
    push_cast
    rfl
  · refine ⟨signed ⟨d.neg, roundHalfEven d.coeff (10 ^ (-d.exp).toNat), 0⟩, ?_⟩
    rw [value, zpow_zero, mul_one]

theorem eq_toIntegralValue_iff : d.eq d.toIntegralValue = true ↔ ∃ m : ℤ, d.value = m := by
  rw [eq_iff]
  constructor
  · intro h
    rw [h]
    exact value_toIntegralValue
  · intro h
    obtain ⟨_, hm⟩ := h
    unfold toIntegralValue
    split_ifs with hexp
    · rfl
    · obtain ⟨hcoeff, hsign⟩ := of_value_eq hm (not_le.mp hexp)
      rw [hm, hcoeff, roundHalfEven_mul (Nat.pow_pos (by decide)), value, zpow_zero, mul_one, signed]
      exact congrArg Int.cast hsign.symm

theorem toInt_of_value_eq {m : ℤ} (h : d.value = m) : d.toInt = m := by
  unfold toInt
  by_cases hexp : 0 ≤ d.exp
  · rw [value_of_nonneg hexp] at h
    have hm : d.signed * 10 ^ d.exp.toNat = m := by exact_mod_cast h
    rw [← hm, if_pos hexp, signed]
    split_ifs
    · push_cast
      ring
    · push_cast
      ring
  · obtain ⟨hcoeff, hsign⟩ := of_value_eq h (not_le.mp hexp)
    rw [if_neg hexp, hcoeff, Nat.mul_div_cancel _ (Nat.pow_pos (by decide))]
    exact hsign

end Value

section Rounding

def dropped : ℕ := (max (d.digits.length + d.exp - prec) etiny - d.exp).toNat

def rounded : ℚ :=
  (if d.neg then -1 else 1) * (roundHalfEven d.coeff (10 ^ d.dropped) * 10 ^ (d.exp + d.dropped))

def slack : ℚ := 10 ^ (d.exp + d.dropped) / 2

variable {d}

theorem value_eq : d.value = (if d.neg then -1 else 1) * (d.coeff * 10 ^ d.exp) := by
  rw [value, signed]
  split_ifs
  · push_cast
    ring
  · push_cast
    ring

theorem coeff_lt : d.coeff < 10 ^ d.digits.length := by
  have h := natValue_lt (allDigits_toDigits d.coeff)
  rwa [natValue_toDigits] at h

theorem roundHalfEven_coeff_le : roundHalfEven d.coeff (10 ^ d.dropped) ≤ 10 ^ prec := by
  apply roundHalfEven_le (Nat.pow_pos (by decide))
  rw [← Nat.pow_add]
  refine d.coeff_lt.le.trans (Nat.pow_le_pow_right (by decide) ?_)
  unfold dropped
  omega

def place : ℤ := max (d.digits.length + d.exp - prec) etiny

theorem exp_add_dropped (h : d.exp < d.place) : d.exp + d.dropped = d.place := by
  unfold dropped place at *
  omega

theorem value_of_fix {fixed : Dec} (h : d.fix = .ok fixed) : fixed.value = d.rounded := by
  unfold fix at h
  dsimp only at h
  rw [← place] at h
  split_ifs at h with hzero hover hexp hlt htop
  · cases h
    have hpos : 0 < 10 ^ d.dropped := Nat.pow_pos (by decide)
    have hround := roundHalfEven_mul (m := 0) hpos
    rw [Nat.zero_mul] at hround
    rw [value_eq, rounded, hzero, hround]
    simp
  · cases h
    rw [value_eq, rounded, exp_add_dropped hexp]
    rfl
  · cases h
    -- The coefficient has become the next power of ten.
    have hpower : roundHalfEven d.coeff (10 ^ d.dropped) = 10 ^ prec :=
      Nat.le_antisymm roundHalfEven_coeff_le (not_lt.mp hlt)
    have hpower' : roundHalfEven d.coeff (10 ^ (d.place - d.exp).toNat) = 10 ^ prec := hpower
    have htenth : 10 ^ prec / 10 = 10 ^ 27 := by decide
    rw [value_eq, rounded, exp_add_dropped hexp, hpower, hpower', htenth, zpow_add_one₀ (by norm_num)]
    simp only [prec]
    push_cast
    ring
  · cases h
    have hzero' : d.dropped = 0 := by
      unfold dropped
      unfold place at hexp
      omega
    rw [value_eq, rounded, hzero', pow_zero, roundHalfEven_one, Nat.cast_zero, add_zero]

theorem pow_le_coeff (h : 0 < d.coeff) : 10 ^ (d.digits.length - 1) ≤ d.coeff := by
  have hle := pow_le_natValue (allDigits_toDigits d.coeff) Nat.toDigits_ne_nil (head?_toDigits h)
  rwa [natValue_toDigits] at hle

theorem roundHalfEven_coeff_iff {k m : ℕ} (hexp : d.exp = -k) (hm : m < 10 ^ 20) :
    roundHalfEven d.coeff (10 ^ d.dropped) * 10 ^ d.dropped = m * 10 ^ k ↔
      2 * |(d.coeff : ℤ) - (m * 10 ^ k : ℕ)| ≤ (10 ^ d.dropped : ℕ) := by
  have hpos : 0 < 10 ^ d.dropped := Nat.pow_pos (by decide)
  constructor
  · intro h
    rw [← h]
    exact two_mul_abs_sub_roundHalfEven_le hpos
  · intro h
    obtain _ | hge := Nat.lt_or_ge d.dropped k
    · -- Of two candidates the multiple of ten is the even one.
      obtain ⟨n, hn⟩ : ∃ n, k = n + 1 + d.dropped := ⟨k - d.dropped - 1, by omega⟩
      have hsplit : m * 10 ^ k = m * 10 ^ (n + 1) * 10 ^ d.dropped := by
        rw [hn, Nat.pow_add 10 (n + 1), Nat.mul_assoc]
      have heven : m * 10 ^ (n + 1) % 2 = 0 := by
        rw [Nat.pow_succ, ← Nat.mul_assoc]
        omega
      rw [hsplit] at h ⊢
      rw [roundHalfEven_of_even hpos heven h]
    · obtain hzero | hdropped := Nat.eq_zero_or_pos d.dropped
      · have hk : k = 0 := by omega
        rw [hzero, hk] at h ⊢
        rw [Nat.pow_zero, roundHalfEven_one]
        have habs := abs_le.mp (show |(d.coeff : ℤ) - (m * 10 ^ 0 : ℕ)| ≤ 0 by omega)
        omega
      · -- The number has more digits before the point than the integer.
        exfalso
        have htiny : etiny = -1000026 := rfl
        have hdigits : d.digits.length - 1 = d.dropped + 27 := by
          unfold dropped at hge hdropped ⊢
          have hprec : prec = 28 := rfl
          omega
        have hcoeff : 0 < d.coeff := by
          by_contra hzero
          have hone : d.digits.length = 1 := by
            rw [digits, Nat.eq_zero_of_not_pos hzero]
            rfl
          omega
        have hle := pow_le_coeff hcoeff
        rw [hdigits, Nat.pow_add] at hle
        have hmul : m * 10 ^ k ≤ 10 ^ 20 * 10 ^ d.dropped :=
          Nat.mul_le_mul hm.le (Nat.pow_le_pow_right (by decide) hge)
        have habs := le_abs_self ((d.coeff : ℤ) - (m * 10 ^ k : ℕ))
        omega

theorem zpow_exp_add_dropped {k : ℕ} (hexp : d.exp = -k) :
    (10 : ℚ) ^ (d.exp + d.dropped) = 10 ^ d.dropped / 10 ^ k := by
  rw [hexp, zpow_add₀ (by norm_num), zpow_neg, zpow_natCast, zpow_natCast, div_eq_inv_mul]

theorem rounded_eq_natCast_iff {k m : ℕ} (hneg : d.neg = false) (hexp : d.exp = -k) :
    d.rounded = m ↔ roundHalfEven d.coeff (10 ^ d.dropped) * 10 ^ d.dropped = m * 10 ^ k := by
  have hrounded : d.rounded =
      (roundHalfEven d.coeff (10 ^ d.dropped) * 10 ^ d.dropped : ℕ) / 10 ^ k := by
    rw [rounded, hneg, zpow_exp_add_dropped hexp]
    push_cast
    simp [mul_div_assoc]
  rw [hrounded, div_eq_iff (by positivity)]
  norm_cast

theorem rounded_eq_iff {k m : ℕ} (hneg : d.neg = false) (hexp : d.exp = -k) (hm : m < 10 ^ 20) :
    d.rounded = m ↔ |d.value - m| ≤ d.slack := by
  have hpos : (0 : ℚ) < 10 ^ k := by positivity
  have hvalue : d.value = d.coeff / 10 ^ k := by
    rw [value_eq, hneg, hexp, zpow_neg, zpow_natCast, div_eq_mul_inv]
    simp
  have hdiff : d.value - m = ((d.coeff - (m * 10 ^ k : ℕ) : ℤ) : ℚ) / 10 ^ k := by
    rw [hvalue]
    push_cast
    rw [sub_div, mul_div_cancel_right₀ _ hpos.ne']
  rw [rounded_eq_natCast_iff hneg hexp, roundHalfEven_coeff_iff hexp hm, hdiff, slack,
    zpow_exp_add_dropped hexp, abs_div, abs_of_pos hpos, div_right_comm,
    div_le_div_iff_of_pos_right hpos, le_div_iff₀ (by norm_num), mul_comm _ (2 : ℚ)]
  norm_cast

theorem digits_le_of_rounded {k m : ℕ} (hneg : d.neg = false) (hexp : d.exp = -k)
    (hm : m < 10 ^ 20) (h : d.rounded = m) : d.digits.length + d.exp ≤ 21 := by
  obtain hzero | hcoeff := Nat.eq_zero_or_pos d.coeff
  · have hone : d.digits.length = 1 := by
      rw [digits, hzero]
      rfl
    omega
  · by_contra hlt
    have hdropped : d.dropped ≤ d.digits.length - 1 := by
      have htiny : etiny = -1000026 := rfl
      unfold dropped
      unfold prec
      omega
    have hpow : 10 ^ (d.digits.length - 1 - d.dropped) * 10 ^ d.dropped =
        10 ^ (d.digits.length - 1) := by
      rw [← Nat.pow_add, Nat.sub_add_cancel hdropped]
    have hround : 10 ^ (d.digits.length - 1 - d.dropped) ≤ roundHalfEven d.coeff (10 ^ d.dropped) :=
      le_roundHalfEven (Nat.pow_pos (by decide)) (hpow.le.trans (pow_le_coeff hcoeff))
    have hle := Nat.mul_le_mul_right (10 ^ d.dropped) hround
    rw [hpow, (rounded_eq_natCast_iff hneg hexp).mp h] at hle
    have hbound : 10 ^ (d.digits.length - 1) < 10 ^ (20 + k) := by
      rw [Nat.pow_add 10 20]
      exact hle.trans_lt (Nat.mul_lt_mul_of_pos_right hm (Nat.pow_pos (by decide)))
    have hlength := (Nat.pow_lt_pow_iff_right (by decide)).mp hbound
    omega

theorem exists_fix (h : d.digits.length + d.exp ≤ 100) : ∃ fixed, d.fix = .ok fixed := by
  have htop : etop = 999972 := rfl
  have htiny : etiny = -1000026 := rfl
  have hprec : (prec : ℤ) = 28 := rfl
  unfold fix
  dsimp only
  split_ifs with hzero hover hexp hlt hover'
  · exact ⟨_, rfl⟩
  · omega
  · exact ⟨_, rfl⟩
  · omega
  · exact ⟨_, rfl⟩
  · exact ⟨_, rfl⟩

end Rounding

end Dec

inductive Number where
  | finite (d : Dec)
  | special
deriving DecidableEq

def isSpecial (cs : List Char) : Bool :=
  let name := (Dec.readSign cs).2.map Char.toLower
  let nan := name.reverse.dropWhile Char.isDigit |>.reverse
  name == "inf".toList || name == "infinity".toList || nan == "nan".toList || nan == "snan".toList

/-- `Decimal(text)`; `none` is an `InvalidOperation`. -/
def Number.ofText (text : String) : Option Number :=
  let cs := (strip isSpace text).toList.filter (· != '_')
  match Dec.read cs with
  | some d => some (.finite d)
  | none => if isSpecial cs then some .special else none

end PolicyEngine.Python

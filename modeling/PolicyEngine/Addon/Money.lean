import PolicyEngine.Addon.CbiProtocol
import PolicyEngine.Python.Decimals

namespace PolicyEngine.Addon

open PolicyEngine.Decimal PolicyEngine.Go PolicyEngine.Go.Result PolicyEngine.Python

inductive Amount where
  /-- A `bool` or a `float`. -/
  | binary
  | int (number : ℤ)
  /-- A `str`, or a `Decimal` by its `str`. -/
  | text (written : String)
  | other

/-- `(?:\.[0-9]+)?$`. -/
def moneyFraction : List Char → Bool
  | [] => true
  | '.' :: digits => !digits.isEmpty && digits.all Char.isDigit
  | _ => false

/-- `^(?:0|[1-9][0-9]*)(?:\.[0-9]+)?$`. -/
def moneyPattern : List Char → Bool := wholeThen moneyFraction

def Amount.toText : Amount → Except String String
  | .binary => .error "amount must not use a binary float"
  | .int number => .ok (formatInt number)
  | .text written => .ok written
  | .other => .error "amount must be an integer, Decimal or plain decimal string"

def amountToMinorUnits (amount : Amount) (currencyScale : Value) : Except String ℤ := do
  let scale ← integer "currency_scale" 0 6 currencyScale
  let text ← amount.toText
  rejectIf (moneyPattern text.toList = false)
    "amount must be a non-negative plain decimal without exponent"
  match Number.ofText text with
  | none | some .special => .error "amount is not a valid exact decimal"
  | some (.finite exact) =>
    let scaled ← exact.mul ⟨false, 10 ^ scale.toNat, 0⟩
    rejectIf (scaled.eq scaled.toIntegralValue = false)
      "amount has precision beyond the trusted currency scale"
    rejectIf (scaled.toInt > int64Max) "amount_minor exceeds signed 64-bit range"
    return scaled.toInt

section Texts

variable {cs whole frac : List Char}

theorem exists_of_moneyFraction (h : moneyFraction cs = true) :
    ∃ frac, AllDigits frac ∧ cs = pointed frac := by
  unfold moneyFraction at h
  split at h
  · exact ⟨[], List.forall_mem_nil _, rfl⟩
  · rw [Bool.and_eq_true, List.all_eq_true] at h
    refine ⟨_, h.2, (if_neg ?_).symm⟩
    intro hnil
    rw [hnil] at h
    cases h.1
  · cases h

theorem moneyFraction_pointed (hfrac : AllDigits frac) : moneyFraction (pointed frac) = true := by
  unfold pointed
  split_ifs with h
  · rfl
  · rw [moneyFraction, Bool.and_eq_true, List.all_eq_true]
    exact ⟨by simpa using h, hfrac⟩

theorem exists_of_moneyPattern (h : moneyPattern cs = true) :
    ∃ whole frac, IsWhole whole ∧ AllDigits frac ∧ cs = plainText whole frac := by
  obtain ⟨whole, _, hwhole, rfl, htail⟩ := exists_of_wholeThen h
  obtain ⟨frac, hfrac, rfl⟩ := exists_of_moneyFraction htail
  exact ⟨whole, frac, hwhole, hfrac, rfl⟩

theorem moneyPattern_plainText (hwhole : IsWhole whole) (hfrac : AllDigits frac) :
    moneyPattern (plainText whole frac) = true := by
  rw [moneyPattern, wholeThen_plainText hwhole]
  exact moneyFraction_pointed hfrac

theorem takeWhile_plainText (hwhole : AllDigits whole) (frac : List Char) :
    (plainText whole frac).takeWhile Char.isDigit = whole ∧
      (plainText whole frac).dropWhile Char.isDigit = pointed frac := by
  rw [plainText, List.takeWhile_append_of_pos hwhole, List.dropWhile_append_of_pos hwhole, pointed]
  split_ifs
  · exact ⟨List.append_nil _, rfl⟩
  · exact ⟨List.append_nil _, rfl⟩

theorem readSign_of_isDigit {c : Char} (h : c.isDigit = true) (cs : List Char) :
    Dec.readSign (c :: cs) = (false, c :: cs) := by
  unfold Dec.readSign
  split
  · rename_i heq
    cases heq
    cases h
  · rename_i heq
    cases heq
    cases h
  · rfl

theorem readFraction_point (hfrac : AllDigits frac) :
    Dec.readFraction (pointed frac) = (frac, []) := by
  unfold pointed
  split_ifs with h
  · rw [h]
    rfl
  · have htake : frac.takeWhile Char.isDigit = frac := List.takeWhile_eq_self_iff.mpr hfrac
    have hdrop : frac.dropWhile Char.isDigit = [] := List.dropWhile_eq_nil_iff.mpr hfrac
    rw [Dec.readFraction, htake, hdrop]

theorem readSign_plainText (hwhole : IsWhole whole) :
    Dec.readSign (plainText whole frac) = (false, plainText whole frac) := by
  obtain ⟨c, _, rfl⟩ := List.exists_cons_of_ne_nil hwhole.ne_nil
  exact readSign_of_isDigit (hwhole.digits c List.mem_cons_self) _

theorem read_plainText (hwhole : IsWhole whole) (hfrac : AllDigits frac) :
    Dec.read (plainText whole frac) = some ⟨false, natValue (whole ++ frac), -frac.length⟩ := by
  obtain ⟨htake, hdrop⟩ := takeWhile_plainText hwhole.digits frac
  have hne : whole ++ frac ≠ [] := List.append_ne_nil_of_left_ne_nil hwhole.ne_nil _
  rw [Dec.read, readSign_plainText hwhole, htake, hdrop, readFraction_point hfrac]
  simp [hne, Dec.readExponent]

theorem eq_point_of_mem_plainText (hwhole : AllDigits whole) (hfrac : AllDigits frac) {c : Char}
    (h : c ∈ plainText whole frac) : c.isDigit = true ∨ c = '.' := by
  rw [plainText, List.mem_append] at h
  obtain h | h := h
  · exact .inl (hwhole c h)
  · unfold pointed at h
    split_ifs at h
    · cases h
    · obtain rfl | h := List.mem_cons.mp h
      · exact .inr rfl
      · exact .inl (hfrac c h)

theorem isSpace_of_isDigit {c : Char} (h : c.isDigit = true ∨ c = '.') :
    Python.isSpace c = false ∧ (c != '_') = true := by
  obtain h | rfl := h
  · have hrange := toNat_of_isDigit h
    have hcontrol : (decide (0x1C ≤ c.toNat) && decide (c.toNat ≤ 0x1F)) = false := by
      rw [Bool.and_eq_false_iff, decide_eq_false_iff_not, decide_eq_false_iff_not]
      omega
    refine ⟨?_, ?_⟩
    · rw [Python.isSpace, Text.isSpace_of_isDigit h, hcontrol]
      rfl
    · rw [bne_iff_ne]
      intro heq
      rw [heq] at h
      cases h
  · exact ⟨rfl, rfl⟩

theorem ofText_plainText (hwhole : IsWhole whole) (hfrac : AllDigits frac) :
    Number.ofText (String.ofList (plainText whole frac)) =
      some (.finite ⟨false, natValue (whole ++ frac), -frac.length⟩) := by
  have hchars c (hc : c ∈ plainText whole frac) : Python.isSpace c = false ∧ (c != '_') = true :=
    isSpace_of_isDigit (eq_point_of_mem_plainText hwhole.digits hfrac hc)
  have hstrip : (strip Python.isSpace (String.ofList (plainText whole frac))).toList =
      plainText whole frac := by
    rw [strip, String.toList_ofList, String.toList_ofList]
    exact Text.trim_of_all fun c hc ↦ (hchars c hc).1
  have hfilter : (plainText whole frac).filter (· != '_') = plainText whole frac :=
    List.filter_eq_self.mpr fun c hc ↦ (hchars c hc).2
  rw [Number.ofText, hstrip, hfilter, read_plainText hwhole hfrac]

end Texts

section Outcome

variable {text : String} {scale : ℕ} {m : ℤ}

def exactProduct (text : String) (scale : ℕ) : Dec :=
  let whole := wholePart text.toList
  let frac := fractionPart text.toList
  ⟨false, natValue (whole ++ frac) * 10 ^ scale, -frac.length⟩

theorem plainValue_of_moneyPattern (h : moneyPattern text.toList = true) :
    plainValue text = unsignedValue text.toList := by
  unfold plainValue
  split
  · rename_i heq
    rw [heq] at h
    cases h
  · rfl

theorem value_exactProduct (h : moneyPattern text.toList = true) (scale : ℕ) :
    (exactProduct text scale).value = plainValue text * 10 ^ scale := by
  rw [plainValue_of_moneyPattern h, unsignedValue, Dec.value_eq, exactProduct]
  simp only [zpow_neg, zpow_natCast, div_eq_mul_inv]
  push_cast
  simp
  ring

theorem amountToMinorUnits_eq (h : moneyPattern text.toList = true) (hscale : scale ≤ 6) :
    amountToMinorUnits (.text text) (.int scale) = (do
      let scaled ← (exactProduct text scale).fix
      rejectIf (scaled.eq scaled.toIntegralValue = false)
        "amount has precision beyond the trusted currency scale"
      rejectIf (scaled.toInt > int64Max) "amount_minor exceeds signed 64-bit range"
      return scaled.toInt) := by
  obtain ⟨whole, frac, hwhole, hfrac, htext⟩ := exists_of_moneyPattern h
  have hread : Number.ofText text =
      some (.finite ⟨false, natValue (whole ++ frac), -frac.length⟩) := by
    rw [← ofText_plainText hwhole hfrac, ← htext, String.ofList_toList]
  have hinteger : integer "currency_scale" 0 6 (.int scale) = .ok (scale : ℤ) := by
    rw [integer, if_neg (by omega)]
  have hproduct : Dec.mul ⟨false, natValue (whole ++ frac), -frac.length⟩
      ⟨false, 10 ^ (scale : ℤ).toNat, 0⟩ = (exactProduct text scale).fix := by
    obtain ⟨hw, hf⟩ := parts_plainText hwhole.digits frac
    rw [exactProduct, htext, hw, hf, Dec.mul, Int.toNat_natCast, add_zero]
    rfl
  have hreject : rejectIf (moneyPattern text.toList = false)
      "amount must be a non-negative plain decimal without exponent" = .ok () :=
    rejectIf_eq_ok.mpr (by rw [h]; decide)
  rw [amountToMinorUnits, hinteger]
  simp only [Amount.toText, bind, Except.bind, hreject, hread, hproduct]

theorem amountToMinorUnits_eq_ok (h : moneyPattern text.toList = true) (hscale : scale ≤ 6) :
    amountToMinorUnits (.text text) (.int scale) = .ok m ↔
      ∃ scaled, (exactProduct text scale).fix = .ok scaled ∧ scaled.value = m ∧ m ≤ int64Max := by
  rw [amountToMinorUnits_eq h hscale, bind_eq_ok]
  refine exists_congr fun scaled ↦ and_congr_right fun _ ↦ ?_
  rw [bind_unit_eq_ok, bind_unit_eq_ok, rejectIf_eq_ok, rejectIf_eq_ok, Bool.not_eq_false,
    Dec.eq_toIntegralValue_iff, not_lt]
  constructor
  · intro h
    obtain ⟨⟨_, hn⟩, hmax, hm⟩ := h
    cases hm
    exact ⟨by rw [hn, Dec.toInt_of_value_eq hn], hmax⟩
  · intro h
    obtain ⟨hvalue, hmax⟩ := h
    rw [Dec.toInt_of_value_eq hvalue]
    exact ⟨⟨m, hvalue⟩, hmax, rfl⟩

theorem rounded_nonneg : 0 ≤ (exactProduct text scale).rounded := by
  have hneg : (exactProduct text scale).neg = false := rfl
  rw [Dec.rounded, hneg, if_neg (by decide), one_mul]
  exact mul_nonneg (Nat.cast_nonneg _) (zpow_nonneg (by norm_num) _)

theorem amountToMinorUnits_eq_ok_iff (h : moneyPattern text.toList = true) (hscale : scale ≤ 6) :
    amountToMinorUnits (.text text) (.int scale) = .ok m ↔
      0 ≤ m ∧ m ≤ int64Max ∧ |plainValue text * 10 ^ scale - m| ≤ (exactProduct text scale).slack := by
  have hmax : int64Max = 2 ^ 63 - 1 := rfl
  rw [amountToMinorUnits_eq_ok h hscale, ← value_exactProduct h]
  constructor
  · intro h
    obtain ⟨scaled, hfix, hvalue, hle⟩ := h
    rw [Dec.value_of_fix hfix] at hvalue
    have hm : 0 ≤ m := by exact_mod_cast hvalue ▸ rounded_nonneg
    lift m to ℕ using hm
    rw [Int.cast_natCast] at hvalue ⊢
    exact ⟨Int.natCast_nonneg m, hle, (Dec.rounded_eq_iff rfl rfl (by omega)).mp hvalue⟩
  · intro h
    obtain ⟨hm, hle, hslack⟩ := h
    lift m to ℕ using hm
    rw [Int.cast_natCast] at hslack ⊢
    have hrounded := (Dec.rounded_eq_iff rfl rfl (by omega)).mpr hslack
    have hdigits := Dec.digits_le_of_rounded rfl rfl (by omega) hrounded
    obtain ⟨scaled, hfix⟩ := Dec.exists_fix (hdigits.trans (by decide))
    exact ⟨scaled, hfix, (Dec.value_of_fix hfix).trans hrounded, hle⟩

theorem slack_nonneg : 0 ≤ (exactProduct text scale).slack :=
  div_nonneg (zpow_nonneg (by norm_num) _) (by norm_num)

/-- The product is returned exactly as long as no other amount is within half a
unit of the last digit that the context keeps of it. -/
theorem money_exact_iff (h : moneyPattern text.toList = true) (hscale : scale ≤ 6) :
    (∀ m : ℤ, amountToMinorUnits (.text text) (.int scale) = .ok m ↔
      plainValue text * 10 ^ scale = m ∧ m ≤ int64Max) ↔
    ∀ m : ℤ, 0 ≤ m → m ≤ int64Max →
      |plainValue text * 10 ^ scale - m| ≤ (exactProduct text scale).slack →
        plainValue text * 10 ^ scale = m := by
  simp only [amountToMinorUnits_eq_ok_iff h hscale]
  constructor
  · intro hexact m hm hle hslack
    exact ((hexact m).mp ⟨hm, hle, hslack⟩).1
  · intro hexact m
    constructor
    · intro hm
      exact ⟨hexact m hm.1 hm.2.1 hm.2.2, hm.2.1⟩
    · intro hm
      obtain ⟨hvalue, hle⟩ := hm
      have hnonneg : (0 : ℚ) ≤ m := by
        rw [← hvalue, plainValue_of_moneyPattern h]
        exact mul_nonneg (unsignedValue_nonneg _) (by positivity)
      refine ⟨by exact_mod_cast hnonneg, hle, ?_⟩
      rw [hvalue, sub_self, abs_zero]
      exact slack_nonneg

theorem money_exact_cents : moneyPattern "12.34".toList = true ∧
    ∀ m : ℤ, amountToMinorUnits (.text "12.34") (.int 2) = .ok m ↔
      plainValue "12.34" * 10 ^ 2 = m ∧ m ≤ int64Max := by
  have hproduct : exactProduct "12.34" 2 = ⟨false, 123400, -2⟩ := by decide
  have hslack : (exactProduct "12.34" 2).slack < 1 := by
    have hdropped : Dec.dropped ⟨false, 123400, -2⟩ = 0 := by decide
    rw [hproduct, Dec.slack, hdropped]
    norm_num
  have hvalue : plainValue "12.34" * 10 ^ 2 = (1234 : ℤ) := by
    rw [← value_exactProduct (by decide), hproduct, Dec.value, Dec.signed]
    norm_num
  refine ⟨by decide, (money_exact_iff (by decide) (by decide)).mpr ?_⟩
  intro m _ _ h
  rw [hvalue] at h ⊢
  have hlt : |1234 - m| < 1 := by exact_mod_cast h.trans_lt hslack
  rw [Int.abs_lt_one_iff, sub_eq_zero] at hlt
  rw [hlt]

/-- One part in 10³¹ is lost. -/
theorem tiny_part_lost :
    amountToMinorUnits (.text "1.0000000000000000000000000000001") (.int 0) = .ok 1 ∧
      plainValue "1.0000000000000000000000000000001" * 10 ^ 0 ≠ 1 := by
  refine ⟨by decide, ?_⟩
  have hproduct : exactProduct "1.0000000000000000000000000000001" 0 =
      ⟨false, 10000000000000000000000000000001, -31⟩ := by decide
  rw [← value_exactProduct (by decide), hproduct, Dec.value, Dec.signed]
  norm_num

end Outcome

end PolicyEngine.Addon

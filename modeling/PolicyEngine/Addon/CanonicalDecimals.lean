import PolicyEngine.Python.Decimals
import PolicyEngine.Security.PurchaseOrderLines

namespace PolicyEngine.Addon

open PolicyEngine.Decimal PolicyEngine.Go.Result PolicyEngine.Python PolicyEngine.Security

def trimmed (formatted : List Char) : List Char :=
  if '.' ∈ formatted then (formatted.rdropWhile (· == '0')).rdropWhile (· == '.') else formatted

def written (text : List Char) : String :=
  if text = ['-', '0'] ∨ text = [] then "0" else String.ofList text

/-- `_canonical_decimal` of an object with this `str`. Of the characters that
`Decimal` takes for digits, `toAscii` gives the digit. -/
def canonicalDecimal (toAscii : Char → Char) (value : String) : Except String String :=
  match Number.ofText (String.ofList (value.toList.map toAscii)) with
  | none => .error "Persisted purchase-order decimal is invalid."
  | some .special => .error "Persisted purchase-order decimal is not finite."
  | some (.finite number) => .ok (written (trimmed number.formatFixed))

def signedText (neg : Bool) (whole frac : List Char) : List Char :=
  (if neg then ['-'] else []) ++ plainText whole frac

section Pattern

variable {neg neg' : Bool} {whole frac whole' frac' cs : List Char} {value value' field field' : String}

theorem exists_of_fractionPattern (h : fractionPattern cs = true) :
    ∃ frac, AllDigits frac ∧ frac.getLast? ≠ some '0' ∧ cs = pointed frac := by
  unfold fractionPattern at h
  split at h
  · exact ⟨[], List.forall_mem_nil _, by simp, rfl⟩
  · rename_i digits
    rw [Bool.and_eq_true, List.all_eq_true] at h
    refine ⟨digits, h.1, ?_, (if_neg ?_).symm⟩
    · intro hlast
      rw [hlast] at h
      exact absurd h.2 (by decide)
    · intro hnil
      rw [hnil] at h
      exact absurd h.2 (by decide)
  · cases h

theorem fractionPattern_pointed (hfrac : AllDigits frac) (hlast : frac.getLast? ≠ some '0') :
    fractionPattern (pointed frac) = true := by
  unfold pointed
  split_ifs with h
  · rfl
  · rw [fractionPattern, Bool.and_eq_true, List.all_eq_true]
    refine ⟨hfrac, ?_⟩
    rw [List.getLast?_eq_some_getLast h] at hlast ⊢
    simpa using hlast

theorem bne_minus_of_isWhole (h : IsWhole whole) (frac : List Char) :
    ∀ cs, plainText whole frac ≠ '-' :: cs := by
  intro _ heq
  obtain ⟨c, _, rfl⟩ := List.exists_cons_of_ne_nil h.ne_nil
  have hc := h.digits c List.mem_cons_self
  rw [(List.cons.inj heq).1] at hc
  cases hc

theorem canonicalDecimalPattern_iff : canonicalDecimalPattern value = true ↔
    ∃ neg whole frac, IsCanonical whole frac ∧ value.toList = signedText neg whole frac := by
  have hsound {cs : List Char} (h : wholeThen fractionPattern cs = true) :
      ∃ whole frac, IsCanonical whole frac ∧ cs = plainText whole frac := by
    obtain ⟨whole, _, hwhole, rfl, htail⟩ := exists_of_wholeThen h
    obtain ⟨frac, hfrac, hlast, rfl⟩ := exists_of_fractionPattern htail
    exact ⟨whole, frac, ⟨hwhole, hfrac, hlast⟩, rfl⟩
  have hcomplete {whole frac : List Char} (h : IsCanonical whole frac) :
      wholeThen fractionPattern (plainText whole frac) = true := by
    rw [wholeThen_plainText h.isWhole]
    exact fractionPattern_pointed h.digits h.last
  constructor
  · intro h
    unfold canonicalDecimalPattern at h
    split at h
    · rename_i hvalue
      obtain ⟨whole, frac, hcanonical, rfl⟩ := hsound h
      exact ⟨true, whole, frac, hcanonical, hvalue⟩
    · obtain ⟨whole, frac, hcanonical, hvalue⟩ := hsound h
      exact ⟨false, whole, frac, hcanonical, hvalue⟩
  · intro h
    obtain ⟨neg, _, frac, hcanonical, hvalue⟩ := h
    rw [canonicalDecimalPattern, hvalue]
    cases neg with
    | true => exact hcomplete hcanonical
    | false =>
      rw [signedText]
      split
      · rename_i heq
        exact absurd heq (bne_minus_of_isWhole hcanonical.isWhole frac _)
      · exact hcomplete hcanonical

theorem plainValue_signedText (hwhole : IsWhole whole)
    (hvalue : value.toList = signedText neg whole frac) :
    plainValue value = (if neg then -1 else 1) * (natValue (whole ++ frac) / 10 ^ frac.length) := by
  rw [← unsignedValue_plainText hwhole.digits, plainValue, hvalue]
  cases neg with
  | true => simp [signedText]
  | false =>
    rw [signedText]
    split
    · rename_i heq
      exact absurd heq (bne_minus_of_isWhole hwhole frac _)
    · simp

theorem eq_zero_of_value (h : IsCanonical whole frac)
    (hvalue : (natValue (whole ++ frac) / 10 ^ frac.length : ℚ) = 0) :
    whole = ['0'] ∧ frac = [] := by
  have hzero : IsCanonical ['0'] [] := ⟨isWhole_toDigits 0, List.forall_mem_nil _, by simp⟩
  refine h.unique hzero (hvalue.trans ?_)
  have hnat : natValue (['0'] ++ []) = 0 := rfl
  rw [hnat, Nat.cast_zero, zero_div]

theorem neg_of_plainValue_eq (h : IsCanonical whole frac) (h' : IsCanonical whole' frac')
    (hzero : value ≠ "-0") (hvalue : value.toList = signedText true whole frac)
    (hvalue' : value'.toList = signedText false whole' frac') :
    plainValue value ≠ plainValue value' := by
  rw [plainValue_signedText h.isWhole hvalue, plainValue_signedText h'.isWhole hvalue']
  intro heq
  have hpos : (0 : ℚ) ≤ natValue (whole ++ frac) / 10 ^ frac.length := by positivity
  have hpos' : (0 : ℚ) ≤ natValue (whole' ++ frac') / 10 ^ frac'.length := by positivity
  simp only [if_true, Bool.false_eq_true, if_false, neg_mul, one_mul] at heq
  obtain ⟨rfl, rfl⟩ := eq_zero_of_value h (by linarith)
  apply hzero
  apply String.toList_injective
  rw [hvalue]
  rfl

theorem eq_of_plainValue_eq (h : validateCanonicalDecimal field value = .ok ())
    (h' : validateCanonicalDecimal field' value' = .ok ())
    (heq : plainValue value = plainValue value') : value = value' := by
  obtain ⟨hpattern, hzero⟩ := validateCanonicalDecimal_eq_ok.mp h
  obtain ⟨hpattern', hzero'⟩ := validateCanonicalDecimal_eq_ok.mp h'
  obtain ⟨neg, _, _, hcanonical, hvalue⟩ := canonicalDecimalPattern_iff.mp hpattern
  obtain ⟨neg', _, _, hcanonical', hvalue'⟩ := canonicalDecimalPattern_iff.mp hpattern'
  obtain rfl : neg = neg' := by
    cases neg with
    | true =>
      cases neg' with
      | true => rfl
      | false => exact absurd heq (neg_of_plainValue_eq hcanonical hcanonical' hzero hvalue hvalue')
    | false =>
      cases neg' with
      | true =>
        exact absurd heq.symm (neg_of_plainValue_eq hcanonical' hcanonical hzero' hvalue' hvalue)
      | false => rfl
  rw [plainValue_signedText hcanonical.isWhole hvalue,
    plainValue_signedText hcanonical'.isWhole hvalue'] at heq
  have hsign : (if neg then -1 else 1 : ℚ) ≠ 0 := by
    split_ifs
    · norm_num
    · norm_num
  obtain ⟨rfl, rfl⟩ := hcanonical.unique hcanonical' (mul_left_cancel₀ hsign heq)
  apply String.toList_injective
  rw [hvalue, hvalue']

end Pattern

section Producer

variable {neg : Bool} {whole frac : List Char}

theorem rdropWhile_append_cons {p : Char → Bool} {c : Char} (hc : p c = false)
    (front back : List Char) :
    (front ++ c :: back).rdropWhile p = front ++ c :: back.rdropWhile p := by
  induction back using List.reverseRecOn with
  | nil => rw [List.rdropWhile_concat_neg _ _ _ (by simp [hc])]; rfl
  | append_singleton _ b ih =>
    rw [← List.cons_append, ← List.append_assoc]
    by_cases hb : p b = true
    · rw [List.rdropWhile_concat_pos _ _ _ hb, List.rdropWhile_concat_pos _ _ _ hb, ih]
    · rw [List.rdropWhile_concat_neg _ _ _ hb, List.rdropWhile_concat_neg _ _ _ hb,
        List.append_assoc, List.cons_append]

theorem rdropWhile_point {front digits : List Char} (hne : digits ≠ []) (h : AllDigits digits) :
    (front ++ digits).rdropWhile (· == '.') = front ++ digits := by
  rw [List.rdropWhile_eq_self_iff]
  intro hl hpoint
  rw [List.getLast_append_of_ne_nil hl hne] at hpoint
  have hdigit := bne_point_of_isDigit (h _ (List.getLast_mem hne))
  rw [bne_iff_ne] at hdigit
  exact hdigit (beq_iff_eq.mp hpoint)

theorem trimmed_signedText (hwhole : IsWhole whole) (hfrac : AllDigits frac) :
    trimmed (signedText neg whole frac) =
      signedText neg whole (frac.rdropWhile (· == '0')) := by
  unfold trimmed signedText plainText
  generalize hsign : (if neg = true then ['-'] else []) = sign
  by_cases hnil : frac = []
  · have hpoint : '.' ∉ sign ++ (whole ++ pointed frac) := by
      rw [hnil, pointed, if_pos rfl, List.append_nil, List.mem_append, ← hsign]
      intro hmem
      obtain hmem | hmem := hmem
      · split_ifs at hmem
        · exact absurd hmem (by decide)
        · cases hmem
      · exact absurd (hwhole.digits _ hmem) (by decide)
    rw [if_neg hpoint, hnil]
    rfl
  · have hpoint : pointed frac = '.' :: frac := if_neg hnil
    rw [hpoint, if_pos (by simp), ← List.append_assoc, ← List.append_assoc,
      rdropWhile_append_cons (by decide)]
    by_cases htrim : frac.rdropWhile (· == '0') = []
    · rw [htrim, List.rdropWhile_concat_pos _ _ _ (by decide),
        rdropWhile_point hwhole.ne_nil hwhole.digits, pointed, if_pos rfl, List.append_nil]
    · have hdigits : AllDigits (frac.rdropWhile (· == '0')) := fun c hc ↦
        hfrac c (( List.rdropWhile_prefix _ _).subset hc)
      rw [pointed, if_neg htrim, List.append_cons, rdropWhile_point htrim hdigits]

theorem value_rdropWhile_zero (whole frac : List Char) :
    (natValue (whole ++ frac.rdropWhile (· == '0')) / 10 ^ (frac.rdropWhile (· == '0')).length : ℚ) =
      natValue (whole ++ frac) / 10 ^ frac.length := by
  obtain ⟨_, hk⟩ := exists_rdropWhile_zero frac
  generalize frac.rdropWhile (· == '0') = trimmed at hk
  rw [hk, ← List.append_assoc, natValue_append_replicate, List.length_append, List.length_replicate,
    pow_add, Nat.cast_mul, Nat.cast_pow, Nat.cast_ofNat, mul_div_mul_right _ _ (by positivity)]

theorem plainValue_zero : plainValue "0" = plainValue "-0" := by
  have hunsigned : unsignedValue ['0'] = 0 := by
    have hnat : natValue (wholePart ['0'] ++ fractionPart ['0']) = 0 := rfl
    rw [unsignedValue, hnat, Nat.cast_zero, zero_div]
  have hplus : plainValue "0" = unsignedValue ['0'] := rfl
  have hminus : plainValue "-0" = -unsignedValue ['0'] := rfl
  rw [hplus, hminus, hunsigned, neg_zero]

theorem written_signedText (h : IsCanonical whole frac) (neg : Bool) (field : String) :
    validateCanonicalDecimal field (written (signedText neg whole frac)) = .ok () ∧
      plainValue (written (signedText neg whole frac)) =
        (if neg then -1 else 1) * (natValue (whole ++ frac) / 10 ^ frac.length) := by
  rw [validateCanonicalDecimal_eq_ok, written]
  by_cases hzero : signedText neg whole frac = ['-', '0'] ∨ signedText neg whole frac = []
  · rw [if_pos hzero]
    refine ⟨by decide, ?_⟩
    obtain hzero | hnil := hzero
    · have hvalue : "-0".toList = signedText neg whole frac := hzero.symm
      rw [← plainValue_signedText h.isWhole hvalue, plainValue_zero]
    · exact absurd (List.append_eq_nil_iff.mp (List.append_eq_nil_iff.mp hnil).2).1 h.isWhole.ne_nil
  · rw [if_neg hzero]
    have hvalue : (String.ofList (signedText neg whole frac)).toList = signedText neg whole frac :=
      String.toList_ofList
    refine ⟨⟨canonicalDecimalPattern_iff.mpr ⟨neg, whole, frac, h, hvalue⟩, ?_⟩,
      plainValue_signedText h.isWhole hvalue⟩
    intro heq
    rw [heq] at hvalue
    exact hzero (.inl hvalue.symm)

theorem canonicalDecimal_of_finite {toAscii : Char → Char} {value : String} {number : Dec}
    (h : Number.ofText (String.ofList (value.toList.map toAscii)) = some (.finite number))
    (field : String) :
    ∃ text, canonicalDecimal toAscii value = .ok text ∧
      validateCanonicalDecimal field text = .ok () ∧ plainValue text = number.value := by
  obtain ⟨hwhole, hfrac, hvalue⟩ := Dec.fixedParts_spec (d := number)
  have htrim : trimmed number.formatFixed =
      signedText number.neg number.fixedParts.1 (number.fixedParts.2.rdropWhile (· == '0')) :=
    trimmed_signedText hwhole hfrac
  have hresult : canonicalDecimal toAscii value =
      .ok (written (trimmed number.formatFixed)) := by
    rw [canonicalDecimal, h]
  rw [← value_rdropWhile_zero] at hvalue
  rw [htrim] at hresult
  have hcanonical : IsCanonical number.fixedParts.1 (number.fixedParts.2.rdropWhile (· == '0')) :=
    ⟨hwhole, fun c hc ↦ hfrac c (( List.rdropWhile_prefix _ _).subset hc), getLast?_rdropWhile_zero _⟩
  refine ⟨_, hresult, ?_⟩
  rw [Dec.value_eq, ← hvalue]
  exact written_signedText hcanonical number.neg field

end Producer

/-- An accepted text is the only one of its number, and every finite decimal
text is brought to the accepted text of its number. -/
theorem canonical_decimals_unique_names (field field' : String) :
    (∀ value value', validateCanonicalDecimal field value = .ok () →
      validateCanonicalDecimal field' value' = .ok () → plainValue value = plainValue value' →
        value = value') ∧
    ∀ toAscii value number,
      Number.ofText (String.ofList (value.toList.map toAscii)) = some (.finite number) →
        ∃ text, canonicalDecimal toAscii value = .ok text ∧
          validateCanonicalDecimal field text = .ok () ∧ plainValue text = number.value :=
  ⟨fun _ _ h h' heq ↦ eq_of_plainValue_eq h h' heq,
    fun _ _ _ h ↦ canonicalDecimal_of_finite h field⟩

theorem canonical_decimals_unique_names_exponent :
    ∃ text, canonicalDecimal id "-1.50E+1" = .ok text ∧
      validateCanonicalDecimal "quantity" text = .ok () ∧
        plainValue text = Dec.value ⟨true, 150, -1⟩ :=
  (canonical_decimals_unique_names "quantity" "unit_price").2 id "-1.50E+1" ⟨true, 150, -1⟩ (by decide)

end PolicyEngine.Addon

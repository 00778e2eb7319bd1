import PolicyEngine.Engine.Decision
import PolicyEngine.Parser.Compiler
import PolicyEngine.Security.IntentBytes
import PolicyEngine.Server.Delegation

namespace PolicyEngine.Server

open PolicyEngine.Go PolicyEngine.Parser PolicyEngine.Engine PolicyEngine.Security

def minorPerMajor (scale : Int64) : ℤ := 10 ^ scale.toNatClampNeg

section Rendering

variable {amountMinor scale : Int64}

theorem minorPerMajor_pos : 0 < minorPerMajor scale := Int.pow_pos (by decide)

theorem toInt_factor : ∀ s ≤ 6, ((List.replicate s 10).foldl (· * ·) (1 : Int64)).toInt = 10 ^ s := by
  decide

theorem canonicalMajorAmount_cases (h₀ : 0 ≤ scale.toInt) (h₆ : scale.toInt ≤ 6)
    (ha : 0 ≤ amountMinor.toInt) :
    ∃ whole : Int64, whole.toInt = amountMinor.toInt / minorPerMajor scale ∧
      if minorPerMajor scale ∣ amountMinor.toInt then
        canonicalMajorAmount amountMinor scale = Strconv.formatInt whole
      else ∃ fraction, canonicalMajorAmount amountMinor scale =
        Strconv.formatInt whole ++ "." ++ fraction := by
  have hs : scale.toNatClampNeg ≤ 6 := by simp only [Int64.toNatClampNeg]; omega
  have hfactor := toInt_factor _ hs
  rw [← minorPerMajor] at hfactor
  unfold canonicalMajorAmount
  generalize (List.replicate scale.toNatClampNeg 10).foldl (· * ·) (1 : Int64) = factor at *
  have hdvd : minorPerMajor scale ∣ amountMinor.toInt ↔ amountMinor % factor = 0 := by
    rw [← Int64.toInt_inj, Int64.toInt_mod, hfactor, Int64.toInt_zero, Int.dvd_iff_tmod_eq_zero]
  have hwhole : (amountMinor / factor).toInt = amountMinor.toInt / minorPerMajor scale := by
    rw [Int64.toInt_div_of_ne_left _ _ (by rintro rfl; exact absurd ha (by decide)), hfactor,
      Int.tdiv_eq_ediv_of_nonneg ha]
  have hone (hzero : scale = 0) : minorPerMajor scale = 1 := by rw [minorPerMajor, hzero]; rfl
  split_ifs with h hzero hzero
  · exact ⟨amountMinor, by rw [hone hzero, Int.ediv_one], rfl⟩
  · exact ⟨amountMinor / factor, hwhole, by simp only [hdvd.mp h, if_true]⟩
  · exact absurd (hone hzero ▸ Int.one_dvd _) h
  · exact ⟨amountMinor / factor, hwhole, _, if_neg (hdvd.not.mp h)⟩

theorem parseInt_canonicalMajorAmount_of_not_dvd (h₀ : 0 ≤ scale.toInt) (h₆ : scale.toInt ≤ 6)
    (ha : 0 ≤ amountMinor.toInt) (h : ¬ minorPerMajor scale ∣ amountMinor.toInt) :
    Strconv.parseInt (canonicalMajorAmount amountMinor scale) = none := by
  obtain ⟨whole, hwhole, htext⟩ := canonicalMajorAmount_cases h₀ h₆ ha
  rw [if_neg h] at htext
  obtain ⟨fraction, htext⟩ := htext
  have hnonneg : 0 ≤ whole.toInt := by
    rw [hwhole]
    exact Int.ediv_nonneg ha (Int.le_of_lt minorPerMajor_pos)
  obtain ⟨c, cs, hdigits⟩ :=
    List.exists_cons_of_ne_nil (Nat.toDigits_ne_nil (n := whole.toInt.natAbs) (b := 10))
  have hlist : (canonicalMajorAmount amountMinor scale).toList =
      c :: (cs ++ '.' :: fraction.toList) := by
    rw [htext, String.toList_append, String.toList_append,
      Strconv.toList_formatInt_of_nonneg hnonneg, hdigits]
    simp
  exact Strconv.parseInt_eq_none (d := '.') hlist
    (Strconv.isDigit_of_mem (hdigits ▸ List.mem_cons_self)) (by simp) (by decide)

end Rendering

section Guard

variable (op : BinaryOp) (n : Int64)

def amountCondition : Node :=
  .binaryExprNode op (.variableNode .context "amount") (.valueNode (.int n))

theorem optimizeNode_amountCondition :
    optimizeNode (amountCondition op n) = (amountCondition op n, []) := by
  simp [amountCondition, optimizeNode, optimizeValue, checkTypeCompatibility,
    preparseIdentifiersAndLiterals, foldBinaryExpr, isBool]

variable {ctx : EvalContext} {text : String}

theorem getAttribute_amount (h : ctx.context.lookup "amount" = some text) :
    ctx.getAttribute .context "amount" .int = parseStringValue text .int := by
  simp [EvalContext.getAttribute, EvalContext.attributeText, h]

theorem evaluate_amountCondition (hop : isRelationalOp op = true)
    (h : ctx.context.lookup "amount" = some text) :
    evaluate ctx (amountCondition op n) =
      match Strconv.parseInt text with
      | some m => (compareValues ctx.roleDag op (.int m) (.int n)).map .bool
      | none => .ok (.bool false) := by
  have hin : op ≠ .in := by rintro rfl; exact absurd hop (by decide)
  have hleft : ctx.getAttribute .context "amount" (expectedType op (.valueNode (.int n))) =
      parseStringValue text .int := by
    rw [expectedType, if_neg (fun hc ↦ hin hc.1)]
    exact getAttribute_amount h
  have heval : evaluate ctx (amountCondition op n) =
      evaluateComparison ctx.roleDag op (parseStringValue text .int) (.ok (.int n)) := by
    rw [← hleft]
    cases op <;> first | rfl | exact absurd hop (by decide)
  rw [heval, parseStringValue]
  cases Strconv.parseInt text with
  | none => rfl
  | some => rfl

theorem compareInt_eq_gt {l r : Int64} : compareInt l r = .gt ↔ r < l := by
  unfold compareInt
  split_ifs with hgt hlt <;> simp [hgt]

theorem evaluate_amount_gt_iff (h : ctx.context.lookup "amount" = some text) :
    evaluate ctx (amountCondition .gt n) = .ok (.bool true) ↔
      ∃ m, Strconv.parseInt text = some m ∧ n < m := by
  rw [evaluate_amountCondition .gt n (by decide) h]
  cases Strconv.parseInt text with
  | none => simp
  | some => simp [compareValues, compareRelational, compareOrder, Except.map, compareInt_eq_gt]

theorem evaluate_amount_le_iff (h : ctx.context.lookup "amount" = some text) :
    evaluate ctx (amountCondition .le n) = .ok (.bool true) ↔
      ∃ m, Strconv.parseInt text = some m ∧ m ≤ n := by
  rw [evaluate_amountCondition .le n (by decide) h]
  cases Strconv.parseInt text with
  | none => simp
  | some =>
    simp [compareValues, compareRelational, compareOrder, Except.map, compareInt_eq_gt]

end Guard

theorem lookup_amount_bound (req : CheckAccessRequest) (intent : CanonicalBusinessIntent) :
    (bindCanonicalIntentContext req intent).context.lookup "amount" =
      some (canonicalMajorAmount intent.amountMinor intent.currencyScale) := by
  simp [bindCanonicalIntentContext, boundEntries, AList.lookup_insert_ne]

section Exactness

variable (prim : Primitives) (trie : TrieRoot) (req : CheckAccessRequest)
  (intent : CanonicalBusinessIntent)

def amountGuard (op : BinaryOp) (n : Int64) : Except EvalError Value :=
  evaluate (evalContext trie req.subject req.action req.resource
    (bindCanonicalIntentContext req intent).context) (optimizeNode (amountCondition op n)).1

/-- The two guardrails at a bound agree with exact arithmetic for the amounts
that are a whole number of units; for the others both are false. -/
theorem amountGuard_exact_iff (h : intent.validate prim = .ok ()) (n : Int64) :
    ((amountGuard trie req intent .gt n = .ok (.bool true) ↔
        n.toInt * minorPerMajor intent.currencyScale < intent.amountMinor.toInt) ∧
      (amountGuard trie req intent .le n = .ok (.bool true) ↔
        intent.amountMinor.toInt ≤ n.toInt * minorPerMajor intent.currencyScale)) ↔
      minorPerMajor intent.currencyScale ∣ intent.amountMinor.toInt := by
  obtain ⟨h₀, h₆, ha⟩ := CanonicalBusinessIntent.amount_bounds_of_validateFields
    (CanonicalBusinessIntent.validateFields_of_validate h)
  have hpos : 0 < minorPerMajor intent.currencyScale := minorPerMajor_pos
  have hlookup := lookup_amount_bound req intent
  simp only [amountGuard, optimizeNode_amountCondition]
  rw [evaluate_amount_gt_iff n hlookup, evaluate_amount_le_iff n hlookup]
  constructor
  · rintro ⟨hgt, hle⟩
    by_contra hdvd
    rw [parseInt_canonicalMajorAmount_of_not_dvd h₀ h₆ ha hdvd] at hgt hle
    rcases Int.lt_or_le (n.toInt * minorPerMajor intent.currencyScale) intent.amountMinor.toInt
      with hlt | hge
    · obtain ⟨_, hm, -⟩ := hgt.mpr hlt
      exact nomatch hm
    · obtain ⟨_, hm, -⟩ := hle.mpr hge
      exact nomatch hm
  · rintro hdvd
    obtain ⟨whole, hwhole, htext⟩ := canonicalMajorAmount_cases h₀ h₆ ha
    rw [if_pos hdvd] at htext
    have hamount : whole.toInt * minorPerMajor intent.currencyScale = intent.amountMinor.toInt := by
      rw [hwhole, Int.ediv_mul_cancel hdvd]
    simp only [htext, Strconv.parseInt_formatInt, Option.some.injEq, exists_eq_left',
      Int64.lt_iff_toInt_lt, Int64.le_iff_toInt_le, ← hamount]
    exact ⟨(Int.mul_lt_mul_right hpos).symm, (Int.mul_le_mul_right hpos).symm⟩

end Exactness

def halfUnitIntent : CanonicalBusinessIntent :=
  { orderIntent with
    amountMinor := 150
    stateWitness := "a2eb9d86db50b773f4838c87d880f84f86c126d70f589dc1339af211d36e68bc" }

theorem halfUnitIntent_valid : halfUnitIntent.validate .standard = .ok () := by decide +kernel

def confirmRequest : CheckAccessRequest :=
  ⟨"t1", "agent:bot", confirmPurchaseOrderAction, "purchase_order:42", ∅⟩

theorem amountGuard_exact_iff_halfUnit :
    halfUnitIntent.validate .standard = .ok () ∧
      (((amountGuard (newTrieRoot "t1") confirmRequest halfUnitIntent .gt 1 = .ok (.bool true) ↔
          (1 : Int64).toInt * minorPerMajor halfUnitIntent.currencyScale <
            halfUnitIntent.amountMinor.toInt) ∧
        (amountGuard (newTrieRoot "t1") confirmRequest halfUnitIntent .le 1 = .ok (.bool true) ↔
          halfUnitIntent.amountMinor.toInt ≤
            (1 : Int64).toInt * minorPerMajor halfUnitIntent.currencyScale)) ↔
        minorPerMajor halfUnitIntent.currencyScale ∣ halfUnitIntent.amountMinor.toInt) :=
  ⟨halfUnitIntent_valid,
    amountGuard_exact_iff .standard (newTrieRoot "t1") confirmRequest halfUnitIntent
      halfUnitIntent_valid 1⟩

/-- 1.50 USD is over the bound 1, and `context.amount > 1` is false. -/
theorem half_unit_escapes_guard :
    halfUnitIntent.validate .standard = .ok () ∧
      amountGuard (newTrieRoot "t1") confirmRequest halfUnitIntent .gt 1 = .ok (.bool false) ∧
      amountGuard (newTrieRoot "t1") confirmRequest halfUnitIntent .le 1 = .ok (.bool false) ∧
      (1 : Int64).toInt * minorPerMajor halfUnitIntent.currencyScale <
        halfUnitIntent.amountMinor.toInt :=
  ⟨halfUnitIntent_valid, by rfl, by rfl, by decide⟩

end PolicyEngine.Server

import PolicyEngine.Engine.StringEquality

namespace PolicyEngine.Engine

open PolicyEngine.Go PolicyEngine.Parser

def compiledOutcome (condition : Node) (ctx : EvalContext) :
    Except String (Except EvalError Value) :=
  (compile (some { id := "policy", effect := .permit, condition := condition })).map fun policy ↦
    evaluate ctx policy.condition

def comparisonOps : List BinaryOp := [.eq, .ne, .lt, .le, .gt, .ge]

def converse : BinaryOp → BinaryOp
  | .lt => .gt
  | .gt => .lt
  | .le => .ge
  | .ge => .le
  | op => op

section Values

theorem compareEq_comm (l r : Value) : compareEq l r = compareEq r l := by
  cases l with
  | _ => cases r with
    | _ => first | rfl | exact Bool.beq_comm

theorem ordering_swap {above below : Prop} [Decidable above] [Decidable below]
    (h : below → ¬ above) :
    (if below then Ordering.gt else if above then .lt else .eq) =
      (if above then Ordering.gt else if below then .lt else .eq).swap := by
  by_cases hbelow : below
  · rw [if_pos hbelow, if_neg (h hbelow), if_pos hbelow]
    rfl
  · rw [if_neg hbelow, if_neg hbelow]
    by_cases habove : above
    · rw [if_pos habove, if_pos habove]
      rfl
    · rw [if_neg habove, if_neg habove]
      rfl

theorem compareInt_swap (l r : Int64) : compareInt r l = (compareInt l r).swap :=
  ordering_swap Int64.lt_asymm

theorem compareString_swap (l r : String) : compareString r l = (compareString l r).swap :=
  ordering_swap String.lt_asymm

theorem compareOrder_swap (l r : Value) :
    compareOrder r l = (compareOrder l r).map Ordering.swap := by
  cases l with
  | int a => cases r with
    | int b => exact congrArg some (compareInt_swap a b)
    | _ => rfl
  | dateTime a => cases r with
    | dateTime b => exact congrArg some (compareInt_swap a b)
    | _ => rfl
  | string a => cases r with
    | string b => exact congrArg some (compareString_swap a b)
    | _ => rfl
  | _ => cases r <;> rfl

theorem compareRelational_swap {test test' : Ordering → Bool}
    (htest : ∀ cmp, test' cmp.swap = test cmp) (l r : Value) :
    compareRelational test' r l = compareRelational test l r := by
  unfold compareRelational
  rw [compareOrder_swap]
  cases compareOrder l r with
  | none => rfl
  | some cmp => exact congrArg Except.ok (htest cmp)

theorem compareValues_converse (roleDag : Option RoleDag) {op : BinaryOp}
    (hop : op ∈ comparisonOps) (l r : Value) :
    compareValues roleDag (converse op) r l = compareValues roleDag op l r := by
  simp only [comparisonOps, List.mem_cons, List.not_mem_nil, or_false] at hop
  obtain rfl | rfl | rfl | rfl | rfl | rfl := hop
  · exact congrArg Except.ok (compareEq_comm r l)
  · exact congrArg (fun b ↦ Except.ok (!b)) (compareEq_comm r l)
  all_goals exact compareRelational_swap (by decide) l r

end Values

section Compiled

variable {op : BinaryOp} {scope : VarScope} {field : String} (ctx : EvalContext)

theorem not_logical (hop : op ∈ comparisonOps) : op ≠ .and ∧ op ≠ .or ∧ op ≠ .in := by
  refine ⟨?_, ?_, ?_⟩ <;> rintro rfl <;> exact absurd hop (by decide)

theorem compiledOutcome_comparison (hop : op ∈ comparisonOps) (v : Value) (p₁ p₂ p₃ : Position) :
    compiledOutcome
        (.binaryExprNode op (.variableNode scope field p₁) (.valueNode v p₂) p₃) ctx =
      .ok (evaluateComparison ctx.roleDag op
        (ctx.getAttribute scope field (optimizeValue v).valType) (.ok (optimizeValue v))) := by
  obtain ⟨hand, hor, hin⟩ := not_logical hop
  obtain ⟨_, hcompile, hcondition⟩ := compile_condition
    { id := "policy", effect := .permit, condition :=
      .binaryExprNode op (.variableNode scope field p₁) (.valueNode v p₂) p₃ }
    rfl Node.noConfusion rfl (optimizeNode_comparison hand hor v p₁ p₂ p₃)
  have htype : expectedType op (.valueNode (optimizeValue v) p₂) = (optimizeValue v).valType := by
    simp [expectedType, hin]
  rw [compiledOutcome, hcompile, Except.map, hcondition, ← htype]
  cases op
  case and => exact absurd rfl hand
  case or => exact absurd rfl hor
  all_goals rfl

theorem compiledOutcome_mirrored (hop : op ∈ comparisonOps) (v : Value) (p₁ p₂ p₃ : Position) :
    compiledOutcome
        (.binaryExprNode op (.valueNode v p₁) (.variableNode scope field p₂) p₃) ctx =
      .ok (evaluateComparison ctx.roleDag op (.ok (optimizeValue v))
        (ctx.getAttribute scope field .string)) := by
  obtain ⟨hand, hor, -⟩ := not_logical hop
  have hoptimize : optimizeNode
      (.binaryExprNode op (.valueNode v p₁) (.variableNode scope field p₂) p₃) =
        (.binaryExprNode op (.valueNode (optimizeValue v) p₁) (.variableNode scope field p₂) p₃,
          []) := by
    have herrors : checkTypeCompatibility (.valueNode (optimizeValue v) p₁)
        (.variableNode scope field p₂) p₃ = [] := rfl
    simp only [optimizeNode, preparseIdentifiersAndLiterals, foldBinaryExpr, hand, hor, false_and,
      if_false, herrors, ite_self, List.append_nil]
  obtain ⟨_, hcompile, hcondition⟩ := compile_condition
    { id := "policy", effect := .permit, condition :=
      .binaryExprNode op (.valueNode v p₁) (.variableNode scope field p₂) p₃ }
    rfl Node.noConfusion rfl hoptimize
  rw [compiledOutcome, hcompile, Except.map, hcondition]
  cases op
  case and => exact absurd rfl hand
  case or => exact absurd rfl hor
  all_goals rfl

end Compiled

/-- The identifiers of a request are strings, at whatever type they are read. -/
def IsId (scope : VarScope) (field : String) : Prop :=
  (scope = .principal ∨ scope = .resource) ∧ field = "id"

/-- The texts for which it does not matter that a literal of another type than
string is compared with what is read on one side and with the text on the other. -/
def Indifferent (op : BinaryOp) (literal : Value) (text : String) : Prop :=
  match op with
  | .eq => ∀ v, parseStringValue text literal.valType = .ok v → compareEq v literal = false
  | .ne => ∃ v, parseStringValue text literal.valType = .ok v ∧ compareEq v literal = false
  | _ => ∃ v, parseStringValue text literal.valType = .ok v ∧ compareOrder v literal = none

section Reading

variable {scope : VarScope} {field : String} (ctx : EvalContext)

theorem getAttribute_of_isId (h : IsId scope field) :
    ∃ text, ∀ type, ctx.getAttribute scope field type = .ok (.string text) := by
  obtain ⟨rfl | rfl, rfl⟩ := h
  · exact ⟨ctx.subject, fun type ↦ rfl⟩
  · exact ⟨ctx.resource, fun type ↦ rfl⟩

theorem getAttribute_of_not_isId (h : ¬ IsId scope field) (type : ValueType) :
    ctx.getAttribute scope field type =
      (ctx.attributeText scope field).elim (.error .missingAttribute)
        (parseStringValue · type) := by
  have hprincipal : ¬ (scope = .principal ∧ field = "id") := fun hid ↦ h ⟨.inl hid.1, hid.2⟩
  have hresource : ¬ (scope = .resource ∧ field = "id") := fun hid ↦ h ⟨.inr hid.1, hid.2⟩
  rw [EvalContext.getAttribute, if_neg hprincipal, if_neg hresource]
  cases ctx.attributeText scope field with
  | none => rfl
  | some => rfl

end Reading

section Mirror

variable {op : BinaryOp} (roleDag : Option RoleDag)

theorem evaluateComparison_converse (hop : op ∈ comparisonOps) (l r : Value) :
    evaluateComparison roleDag op (.ok l) (.ok r) =
      evaluateComparison roleDag (converse op) (.ok r) (.ok l) :=
  congrArg (Except.map Value.bool) (compareValues_converse roleDag hop l r).symm

theorem indifferent_iff (hop : op ∈ comparisonOps) {literal : Value}
    (htype : literal.valType ≠ .string) (text : String) :
    evaluateComparison roleDag op (parseStringValue text literal.valType) (.ok literal) =
        evaluateComparison roleDag (converse op) (.ok literal) (.ok (.string text)) ↔
      Indifferent op literal text := by
  have heq : compareEq (.string text) literal = false := by
    cases literal with
    | string => exact absurd rfl htype
    | _ => rfl
  have horder : compareOrder (.string text) literal = none := by
    cases literal with
    | string => exact absurd rfl htype
    | _ => rfl
  rw [← evaluateComparison_converse roleDag hop]
  simp only [comparisonOps, List.mem_cons, List.not_mem_nil, or_false] at hop
  cases hread : parseStringValue text literal.valType with
  | error =>
    obtain rfl | rfl | rfl | rfl | rfl | rfl := hop <;>
      simp [evaluateComparison, compareValues, compareRelational, Indifferent, hread, heq, horder,
        Except.map]
  | ok v =>
    cases hcmp : compareOrder v literal with
    | none =>
      obtain rfl | rfl | rfl | rfl | rfl | rfl := hop <;>
        simp [evaluateComparison, compareValues, compareRelational, Indifferent, hread, heq,
          horder, hcmp, Except.map]
    | some =>
      obtain rfl | rfl | rfl | rfl | rfl | rfl := hop <;>
        simp [evaluateComparison, compareValues, compareRelational, Indifferent, hread, heq,
          horder, hcmp, Except.map]

end Mirror

/-- A comparison and its mirror image agree when the literal is a string, when
the attribute is an identifier of the request or is missing, and otherwise only
when reading it at the literal's type makes no difference: a variable on the
right is not read at the type of the literal on the left. -/
theorem mirrored_comparison_iff {op : BinaryOp} (hop : op ∈ comparisonOps) (scope : VarScope)
    (field : String) (literal : Value) (ctx : EvalContext) (p₁ p₂ p₃ q₁ q₂ q₃ : Position) :
    compiledOutcome
        (.binaryExprNode op (.variableNode scope field p₁) (.valueNode literal p₂) p₃) ctx =
      compiledOutcome (.binaryExprNode (converse op) (.valueNode literal q₁)
        (.variableNode scope field q₂) q₃) ctx ↔
      (optimizeValue literal).valType = .string ∨ IsId scope field ∨
        ∀ text, ctx.attributeText scope field = some text →
          Indifferent op (optimizeValue literal) text := by
  have hconverse : converse op ∈ comparisonOps := by
    clear * - hop
    revert op
    decide
  rw [compiledOutcome_comparison ctx hop, compiledOutcome_mirrored ctx hconverse, Except.ok.injEq]
  generalize optimizeValue literal = literal
  by_cases hid : IsId scope field
  · obtain ⟨text, hread⟩ := getAttribute_of_isId ctx hid
    rw [hread, hread]
    exact iff_of_true (evaluateComparison_converse _ hop _ _) (.inr (.inl hid))
  · rw [getAttribute_of_not_isId ctx hid, getAttribute_of_not_isId ctx hid]
    cases ctx.attributeText scope field with
    | none => exact iff_of_true rfl (.inr (.inr fun text htext ↦ by cases htext))
    | some text =>
      by_cases htype : literal.valType = .string
      · rw [htype]
        exact iff_of_true (evaluateComparison_converse _ hop _ _) (.inl rfl)
      · have h := indifferent_iff ctx.roleDag hop htype text
        simp only [htype, hid, Option.some.injEq, false_or, forall_eq']
        exact h

theorem mirrored_comparison_five :
    compiledOutcome (.binaryExprNode .eq (.variableNode .context "amount") (.valueNode (.int 5)))
        (oneAttribute "amount" "7") =
      compiledOutcome (.binaryExprNode .eq (.valueNode (.int 5)) (.variableNode .context "amount"))
        (oneAttribute "amount" "7") := by
  refine (mirrored_comparison_iff (by decide) .context "amount" (.int 5)
    (oneAttribute "amount" "7") _ _ _ _ _ _).mpr (.inr (.inr fun text htext v hread ↦ ?_))
  cases htext
  cases hread
  decide

/-- With the literal on the left, an amount equals nothing and has no order. -/
theorem mirrored_comparison_differs :
    compiledOutcome (.binaryExprNode .eq (.variableNode .context "amount") (.valueNode (.int 5)))
        (oneAttribute "amount" "5") = .ok (.ok (.bool true)) ∧
      compiledOutcome (.binaryExprNode .eq (.valueNode (.int 5)) (.variableNode .context "amount"))
        (oneAttribute "amount" "5") = .ok (.ok (.bool false)) ∧
      compiledOutcome (.binaryExprNode .lt (.variableNode .context "amount") (.valueNode (.int 9)))
        (oneAttribute "amount" "5") = .ok (.ok (.bool true)) ∧
      compiledOutcome (.binaryExprNode .gt (.valueNode (.int 9)) (.variableNode .context "amount"))
        (oneAttribute "amount" "5") = .ok (.error .unsupportedOp) ∧
      outcome (fun _ ↦ false) "5 == context.amount" (oneAttribute "amount" "5") =
        .ok (.ok (.bool false)) := by
  refine ⟨?_, ?_, ?_, ?_, ?_⟩ <;> rfl

end PolicyEngine.Engine

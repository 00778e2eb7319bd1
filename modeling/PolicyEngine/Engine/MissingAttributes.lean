import PolicyEngine.Engine.EngineGC

namespace PolicyEngine.Engine

open PolicyEngine.Go PolicyEngine.Parser

/-- `GetAttribute` answers the two identifiers from the request itself. -/
def isIdentifier (v : VarScope × String) : Bool :=
  v = (.principal, "id") ∨ v = (.resource, "id")

def EvalContext.Absent (ctx : EvalContext) (v : VarScope × String) : Prop :=
  isIdentifier v = false ∧ ctx.attributeText v.1 v.2 = none

theorem EvalContext.Absent.getAttribute {ctx : EvalContext} {scope : VarScope} {field : String}
    (h : ctx.Absent (scope, field)) (t : ValueType) :
    ctx.getAttribute scope field t = .error .missingAttribute := by
  obtain ⟨hid, htext⟩ := h
  have hid' : ¬ ((scope, field) = (VarScope.principal, "id") ∨
      (scope, field) = (VarScope.resource, "id")) := of_decide_eq_false hid
  simp only [Prod.mk.injEq, not_or] at hid'
  rw [EvalContext.getAttribute, if_neg hid'.1, if_neg hid'.2, htext]

/-- Conditions made with `&&`, `||` and `!` from comparisons, each of which reads an
attribute somewhere in its operands. -/
inductive AttributeCondition : Node → Prop
  | comparison {op : BinaryOp} {left right : Node} {pos : Position} :
      op ≠ .and → op ≠ .or → readVars left ++ readVars right ≠ [] →
      AttributeCondition (.binaryExprNode op left right pos)
  | and {left right : Node} {pos : Position} : AttributeCondition left → AttributeCondition right →
      AttributeCondition (.binaryExprNode .and left right pos)
  | or {left right : Node} {pos : Position} : AttributeCondition left → AttributeCondition right →
      AttributeCondition (.binaryExprNode .or left right pos)
  | not {child : Node} {pos : Position} : AttributeCondition child →
      AttributeCondition (.unaryExprNode .not child pos)

def unaryResidue : UnaryOp → Value → Option Value
  | .not, .bool b => some (.bool !b)
  | .neg, .int n => some (.int (-n))
  | _, _ => none

def logicalResidue : Option Value → Option Value
  | none => some (.bool false)
  | some (.bool b) => some (.bool b)
  | some _ => none

/-- What a condition comes to without its attributes, from its text and the role graph
alone: an attribute has no value, and what has no value is false to the operator over it,
be it a comparison, `&&` or `||`. -/
def residue (dag : Option RoleDag) : Node → Option Value
  | .nil => some (.bool true)
  | .valueNode v _ => some v
  | .variableNode _ _ _ => none
  | .unaryExprNode op child _ => (residue dag child).bind (unaryResidue op)
  | .binaryExprNode .and left right _ =>
    match logicalResidue (residue dag left) with
    | some (.bool true) => logicalResidue (residue dag right)
    | value => value
  | .binaryExprNode .or left right _ =>
    match residue dag left with
    | some (.bool true) => some (.bool true)
    | _ => logicalResidue (residue dag right)
  | .binaryExprNode op left right _ =>
    match residue dag left, residue dag right with
    | some l, some r => (compareValues dag op l r).toOption.map .bool
    | _, _ => some (.bool false)

section Absent

variable {ctx : EvalContext} {node : Node}

theorem toOption_rightOperand (right : Except EvalError Value) :
    (rightOperand right).toOption = logicalResidue right.toOption := by
  cases right with
  | error => rfl
  | ok v => cases v <;> rfl

/-- An error of an operand makes the comparison false: this is where a missing
attribute stops being visible. -/
theorem toOption_evaluateComparison (dag : Option RoleDag) (op : BinaryOp)
    (left right : Except EvalError Value) :
    (evaluateComparison dag op left right).toOption =
      match left.toOption, right.toOption with
      | some l, some r => (compareValues dag op l r).toOption.map .bool
      | _, _ => some (.bool false) := by
  cases left with
  | error => rfl
  | ok l =>
    cases right with
    | error => rfl
    | ok r =>
      change ((compareValues dag op l r).map Value.bool).toOption =
        (compareValues dag op l r).toOption.map .bool
      cases compareValues dag op l r <;> rfl

theorem toOption_evaluate_unary (op : UnaryOp) (child : Node) (pos : Position) :
    (evaluate ctx (.unaryExprNode op child pos)).toOption =
      (evaluate ctx child).toOption.bind (unaryResidue op) := by
  rw [evaluate]
  cases evaluate ctx child with
  | error => rfl
  | ok v => cases op <;> cases v <;> rfl

theorem evaluate_comparison {op : BinaryOp} (hand : op ≠ .and) (hor : op ≠ .or)
    {left : Node} (right : Node) (pos : Position)
    (hleft : ∀ v ∈ readVars left, ctx.Absent v) :
    (evaluate ctx (.binaryExprNode op left right pos)).toOption =
      (evaluateComparison ctx.roleDag op (evaluate ctx left) (evaluate ctx right)).toOption := by
  cases left with
  | variableNode scope field =>
    have hvar : ctx.Absent (scope, field) := hleft _ List.mem_cons_self
    cases op <;> first
      | exact absurd rfl hand
      | exact absurd rfl hor
      | simp only [evaluate, hvar.getAttribute]
  | _ => cases op <;> first
    | exact absurd rfl hand
    | exact absurd rfl hor
    | simp only [evaluate]

/-- Where every attribute that it reads is absent, a condition comes to its residue. -/
theorem evaluate_of_absent (h : ∀ v ∈ readVars node, ctx.Absent v) :
    (evaluate ctx node).toOption = residue ctx.roleDag node := by
  induction node with
  | nil => rfl
  | valueNode => rfl
  | variableNode scope field =>
    have hvar : ctx.Absent (scope, field) := h _ List.mem_cons_self
    rw [evaluate, hvar.getAttribute]
    rfl
  | unaryExprNode op child pos ih => rw [toOption_evaluate_unary, ih h, residue]
  | binaryExprNode op left right pos ihl ihr =>
    have hleft : ∀ v ∈ readVars left, ctx.Absent v := fun v hv ↦ h v (List.mem_append_left _ hv)
    have hl := ihl hleft
    have hr := ihr fun v hv ↦ h v (List.mem_append_right _ hv)
    cases op with
    | and | or =>
      simp only [evaluate, residue, ← hl, ← hr, ← toOption_rightOperand]
      cases evaluate ctx left with
      | error => rfl
      | ok v =>
        cases v with
        | bool b => cases b <;> rfl
        | _ => rfl
    | _ =>
      rw [evaluate_comparison (by decide) (by decide) right pos hleft, toOption_evaluateComparison,
        hl, hr]
      rfl

end Absent

def bareContext : EvalContext where
  subject := ""
  action := ""
  resource := ""
  context := ∅
  roleDag := none

theorem bareContext_absent (dag : Option RoleDag) {v : VarScope × String}
    (h : isIdentifier v = false) : { bareContext with roleDag := dag }.Absent v := by
  obtain ⟨scope, _⟩ := v
  refine ⟨h, ?_⟩
  cases scope <;> rfl

theorem isConditionSatisfied_iff_residue {ctx : EvalContext} {policy : PolicyNode}
    (h : ∀ v ∈ readVars policy.condition, ctx.Absent v) :
    isConditionSatisfied ctx policy = true ↔
      residue ctx.roleDag policy.condition = some (.bool !policy.isUnless) := by
  rw [isConditionSatisfied, ← evaluate_of_absent h]
  cases evaluate ctx policy.condition with
  | error => simp [Except.toOption]
  | ok v =>
    cases v with
    | bool b => cases policy.isUnless <;> simp [Except.toOption]
    | _ => simp [Except.toOption]

/-- A permit fails closed without its attributes exactly when its residue is not what its
keyword asks for, true under `when` and false under `unless`. A condition on an identifier
never lacks all it reads. -/
theorem permit_fails_closed_iff (dag : Option RoleDag) {policy : PolicyNode}
    (hpermit : policy.effect = .permit) :
    (∀ ctx : EvalContext, ctx.roleDag = dag → (∀ v ∈ readVars policy.condition, ctx.Absent v) →
        isConditionSatisfied ctx policy = false ∧ satisfiedPermit ctx policy = false) ↔
      (∃ v ∈ readVars policy.condition, isIdentifier v = true) ∨
        residue dag policy.condition ≠ some (.bool !policy.isUnless) := by
  constructor
  · intro h
    by_cases hid : ∃ v ∈ readVars policy.condition, isIdentifier v = true
    · exact .inl hid
    · right
      have habsent : ∀ v ∈ readVars policy.condition,
          { bareContext with roleDag := dag }.Absent v := by
        intro v hv
        apply bareContext_absent
        apply Bool.eq_false_iff.mpr
        intro hv'
        exact hid ⟨v, hv, hv'⟩
      have hsat := (h _ rfl habsent).1
      exact (isConditionSatisfied_iff_residue habsent).not.mp (Bool.eq_false_iff.mp hsat)
  · rintro h ctx rfl habsent
    have hsat : isConditionSatisfied ctx policy = false := by
      rcases h with ⟨v, hv, hid⟩ | h
      · exact absurd hid (by simp [(habsent v hv).1])
      · exact Bool.eq_false_iff.mpr ((isConditionSatisfied_iff_residue habsent).not.mpr h)
    refine ⟨hsat, ?_⟩
    simp [satisfiedPermit, hpermit, hsat]

/-- `permit ... unless { (context.blocked == "true") == false }`. -/
def nestedPermit : PolicyNode where
  id := "nested"
  effect := .permit
  condition := .binaryExprNode .eq
    (.binaryExprNode .eq (.variableNode .context "blocked") (.valueNode (.string "true")))
    (.valueNode (.bool false))
  isUnless := true

theorem permit_fails_closed_iff_nestedPermit :
    isConditionSatisfied bareContext nestedPermit = false := by
  have hpermit : nestedPermit.effect = .permit := rfl
  have h := (permit_fails_closed_iff none hpermit).mpr (.inr (by decide))
  refine (h bareContext rfl ?_).1
  intro v _
  exact bareContext_absent none (by revert v; decide)

def blocklistPermit : PolicyNode where
  id := "blocklist"
  effect := .permit
  condition := .binaryExprNode .eq (.variableNode .context "blocked") (.valueNode (.string "true"))
  isUnless := true

theorem blocklistPermit_allows_without_attribute :
    AttributeCondition blocklistPermit.condition ∧
      (∀ v ∈ readVars blocklistPermit.condition, bareContext.Absent v) ∧
      isConditionSatisfied bareContext blocklistPermit = true ∧
      ((EngineWithGC.ofGlobalPolicy "t1" 1 blocklistPermit).checkPermission (fun _ ↦ 0) none "t1"
        "user:ann" "action:READ" "doc:1" ∅).1.decision = .allow := by
  refine ⟨.comparison (by decide) (by decide) (List.cons_ne_nil _ _), ?_, by decide, ?_⟩
  · intro v _
    exact bareContext_absent none (by revert v; decide)
  · exact (EngineWithGC.ofGlobalPolicy_allow_iff ∅ rfl).mpr rfl

end PolicyEngine.Engine

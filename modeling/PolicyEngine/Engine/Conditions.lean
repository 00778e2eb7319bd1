import PolicyEngine.Engine.Evaluator
import PolicyEngine.Parser.RoundTrip

namespace PolicyEngine.Engine

open PolicyEngine.Go PolicyEngine.Parser

def comparison (scope : VarScope) (field : String) (op : BinaryOp) (literal : String) : String :=
  scope.token.2 ++ "." ++ field ++ " " ++ op.type.text ++ " \"" ++ literal ++ "\""

def conditionSource (condition : String) : PolicySource where
  id := "policy"
  text := "permit(principal == any, action == any, resource == any) when \x7b " ++ condition ++
    " \x7d;"

variable (letter : Char → Bool)

def outcome (condition : String) (ctx : EvalContext) : Except String (Except EvalError Value) :=
  (compileSource letter (conditionSource condition)).map fun policy ↦ evaluate ctx policy.condition

variable {letter}

def conditionStatement (condition : Expr letter) : Statement letter where
  effect := .permit
  principal := ⟨false, none⟩
  action := ⟨false, none⟩
  resource := ⟨false, none⟩
  isUnless := false
  condition := condition
  obligations := []

theorem conditionSource_print (e : Expr letter) :
    (conditionSource e.print).text = (conditionStatement e).print := by
  rw [← String.toList_inj, Statement.print]
  simp [conditionSource, conditionStatement, Scope.print, Scope.operator, Statement.clause,
    Statement.printObligations, TokenType.text, Effect.type, String.toList_append]

theorem exists_parse_conditionSource (e : Expr letter) :
    ∃ policy, parse letter (conditionSource e.print).text = ([policy], []) ∧
      policy.unplaced = (conditionStatement e).node := by
  have hprint : (conditionSource e.print).text.toList =
      [conditionStatement e].flatMap (·.print.toList) := by
    rw [conditionSource_print, List.flatMap_singleton]
  obtain ⟨hpolicies, herrors⟩ := parse_statements [conditionStatement e] hprint
  obtain ⟨policy, _, hlist, hpolicy, hrest⟩ := List.map_eq_cons_iff.mp hpolicies
  rw [List.map_nil, List.map_eq_nil_iff] at hrest
  exact ⟨policy, Prod.ext (by rw [hlist, hrest]) herrors, hpolicy⟩

section Pass

variable {op : BinaryOp} {scope : VarScope} {field : String} {pos : Position}

theorem optimizeValue_string (s : String) :
    (∃ net, tryParseIPOrCIDR s = some (.cidr net) ∧ optimizeValue (.string s) = .ipNet net) ∨
    (∃ ip, tryParseIPOrCIDR s = some (.ip ip) ∧ optimizeValue (.string s) = .ip ip) ∨
    (tryParseIPOrCIDR s = none ∧ ∃ dt, Parser.tryParseDateTimeOrTime s = some dt ∧
      optimizeValue (.string s) = .dateTime dt) ∨
    (tryParseIPOrCIDR s = none ∧ Parser.tryParseDateTimeOrTime s = none ∧
      optimizeValue (.string s) = .string s) := by
  rw [optimizeValue]
  cases hip : tryParseIPOrCIDR s with
  | some r =>
    cases r with
    | ip ip => exact .inr (.inl ⟨ip, rfl, rfl⟩)
    | cidr net => exact .inl ⟨net, rfl, rfl⟩
  | none =>
    cases htime : Parser.tryParseDateTimeOrTime s with
    | some dt => exact .inr (.inr (.inl ⟨rfl, dt, rfl, rfl⟩))
    | none => exact .inr (.inr (.inr ⟨rfl, rfl, rfl⟩))

theorem preparse_optimizeValue (left : Node) (v : Value) :
    preparseIdentifiersAndLiterals op left (.valueNode (optimizeValue v) pos) =
      .valueNode (optimizeValue v) pos := by
  cases v with
  | string s =>
    obtain ⟨_, -, h⟩ | ⟨_, -, h⟩ | ⟨-, _, -, h⟩ | ⟨hip, htime, h⟩ := optimizeValue_string s
    · rw [h]
      cases left <;> rfl
    · rw [h]
      cases left <;> rfl
    · rw [h]
      cases left <;> rfl
    · rw [h]
      unfold preparseIdentifiersAndLiterals
      cases left <;> simp [hip, htime]
  | _ => cases left <;> rfl

theorem optimizeNode_comparison (hand : op ≠ .and) (hor : op ≠ .or) (v : Value)
    (p₁ p₂ p₃ : Position) :
    optimizeNode (.binaryExprNode op (.variableNode scope field p₁) (.valueNode v p₂) p₃) =
      (.binaryExprNode op (.variableNode scope field p₁) (.valueNode (optimizeValue v) p₂) p₃,
        []) := by
  have herrors : checkTypeCompatibility (.variableNode scope field p₁)
      (.valueNode (optimizeValue v) p₂) p₃ = [] := rfl
  simp only [optimizeNode, preparse_optimizeValue, foldBinaryExpr, hand, hor, false_and, if_false,
    herrors, ite_self, List.append_nil]

end Pass

theorem comparison_print (scope : VarScope) (field : Ident letter) (op : BinaryOp) (q : Quoted) :
    comparison scope field.text op q.text =
      (Expr.binary op (.var scope field) (.string q)).print := by
  have hvar : ¬ (Expr.var scope field).precedence < op.precedence :=
    not_lt.mpr op.precedence_bounds.2.le
  have hstring : ¬ (Expr.string q : Expr letter).precedence ≤ op.precedence :=
    not_le.mpr op.precedence_bounds.2
  rw [Expr.print, Expr.bracket, if_neg hvar, Expr.bracket, if_neg hstring, Expr.print, Expr.print,
    Quoted.printed, comparison]
  simp [← String.toList_inj]

theorem exists_of_unplaced {node : Node} {op : BinaryOp} {scope : VarScope} {field : String}
    {v : Value}
    (h : node.unplaced = .binaryExprNode op (.variableNode scope field) (.valueNode v)) :
    ∃ p₁ p₂ p₃, node = .binaryExprNode op (.variableNode scope field p₁) (.valueNode v p₂) p₃ := by
  cases node with
  | binaryExprNode _ left right p₃ =>
    cases left with
    | variableNode _ _ p₁ =>
      cases right with
      | valueNode _ p₂ =>
        cases h
        exact ⟨p₁, p₂, p₃, rfl⟩
      | _ => cases h
    | _ => cases h
  | _ => cases h

theorem compile_condition (policy : PolicyNode) {condition : Node}
    (hobligations : policy.obligations = []) (hne : policy.condition ≠ .nil)
    (hdepth : checkDepth policy.condition 1 = .ok ())
    (hcondition : optimizeNode policy.condition = (condition, [])) :
    ∃ compiled, compile (some policy) = .ok compiled ∧ compiled.condition = condition := by
  have hvalid : validatePolicyObligations policy = .ok () := by
    unfold validatePolicyObligations
    rw [hobligations]
    rfl
  have hcompile : compileCondition policy = .ok ({ policy with
      condition := (optimizeNode policy.condition).1
      requiredAttributes := extractRequiredAttributes (optimizeNode policy.condition).1 },
        (optimizeNode policy.condition).2) := by
    rw [compileCondition, if_neg hne, hdepth]
    rfl
  rw [hcondition] at hcompile
  rw [compile, hvalid, hcompile]
  exact ⟨_, rfl, rfl⟩

theorem compileSource_literal (scope : VarScope) (field : Ident letter) {op : BinaryOp}
    {literal : Expr letter} {v : Value} (hliteral : literal.node = .valueNode v) (hand : op ≠ .and)
    (hor : op ≠ .or) :
    ∃ compiled p₁ p₂ p₃,
      compileSource letter (conditionSource (Expr.binary op (.var scope field) literal).print) =
          .ok compiled ∧
        compiled.condition = .binaryExprNode op (.variableNode scope field.text p₁)
          (.valueNode (optimizeValue v) p₂) p₃ := by
  obtain ⟨policy, hparse, hpolicy⟩ :=
    exists_parse_conditionSource (Expr.binary op (.var scope field) literal)
  have hcondition : policy.condition.unplaced =
      .binaryExprNode op (.variableNode scope field.text) (.valueNode v) := by
    rw [← hliteral]
    exact congrArg PolicyNode.condition hpolicy
  have hobligations : policy.obligations = [] := congrArg PolicyNode.obligations hpolicy
  obtain ⟨p₁, p₂, p₃, hnode⟩ := exists_of_unplaced hcondition
  have hne : policy.condition ≠ .nil := by
    rw [hnode]
    exact Node.noConfusion
  have hdepth : checkDepth policy.condition 1 = .ok () := by
    rw [hnode]
    rfl
  obtain ⟨compiled, hcompile, hcompiled⟩ :=
    compile_condition { policy with id := "policy" } hobligations hne hdepth
      ((congrArg optimizeNode hnode).trans (optimizeNode_comparison hand hor _ p₁ p₂ p₃))
  refine ⟨compiled, p₁, p₂, p₃, ?_, hcompiled⟩
  have hid (text : String) : (conditionSource text).id = "policy" := rfl
  rw [compileSource, hparse]
  simp only [ne_eq, not_true_eq_false, if_false, hid, hcompile]

theorem outcome_literal (scope : VarScope) (field : Ident letter) {op : BinaryOp}
    {literal : Expr letter} {v : Value} (hliteral : literal.node = .valueNode v) (hand : op ≠ .and)
    (hor : op ≠ .or) (ctx : EvalContext) :
    outcome letter (Expr.binary op (.var scope field) literal).print ctx =
      .ok (evaluateComparison ctx.roleDag op
        (ctx.getAttribute scope field.text (expectedType op (.valueNode (optimizeValue v))))
        (.ok (optimizeValue v))) := by
  obtain ⟨_, _, _, _, hcompile, hcondition⟩ :=
    compileSource_literal scope field hliteral hand hor
  rw [outcome, hcompile, Except.map, hcondition]
  cases op
  case and => exact absurd rfl hand
  case or => exact absurd rfl hor
  all_goals rfl

theorem outcome_comparison (scope : VarScope) (field : Ident letter) {op : BinaryOp} (q : Quoted)
    (hand : op ≠ .and) (hor : op ≠ .or) (ctx : EvalContext) :
    outcome letter (comparison scope field.text op q.text) ctx =
      .ok (evaluateComparison ctx.roleDag op
        (ctx.getAttribute scope field.text
          (expectedType op (.valueNode (optimizeValue (.string q.text)))))
        (.ok (optimizeValue (.string q.text)))) := by
  have hliteral : (Expr.string q : Expr letter).node = .valueNode (.string q.text) := rfl
  rw [comparison_print]
  exact outcome_literal scope field hliteral hand hor ctx

end PolicyEngine.Engine

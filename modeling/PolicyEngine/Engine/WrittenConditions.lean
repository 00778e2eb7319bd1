import PolicyEngine.Engine.Evaluator
import PolicyEngine.Parser.ErrorFree

namespace PolicyEngine.Engine

open PolicyEngine.Go PolicyEngine.Parser

/-- The nodes that `Evaluate` is called with, the given one first. -/
def calls (ctx : EvalContext) : Node → List Node
  | .nil => [.nil]
  | .valueNode v pos => [.valueNode v pos]
  | .variableNode scope field pos => [.variableNode scope field pos]
  | .unaryExprNode op child pos => .unaryExprNode op child pos :: calls ctx child
  | .binaryExprNode op left right pos =>
    let operands :=
      match op with
      | .and =>
        match evaluate ctx left with
        | .ok (.bool true) => calls ctx left ++ calls ctx right
        | _ => calls ctx left
      | .or =>
        match evaluate ctx left with
        | .ok (.bool true) => calls ctx left
        | _ => calls ctx left ++ calls ctx right
      | op =>
        -- A variable on the left is read and not evaluated.
        match left with
        | .variableNode scope field _ =>
          match ctx.getAttribute scope field (expectedType op right) with
          | .ok _ => calls ctx right
          | .error _ => []
        | left =>
          match evaluate ctx left with
          | .ok _ => calls ctx left ++ calls ctx right
          | .error _ => calls ctx left
    .binaryExprNode op left right pos :: operands

theorem calls_subset (ctx : EvalContext) (node : Node) : calls ctx node ⊆ node.nodes := by
  induction node with
  | nil | valueNode | variableNode => exact List.Subset.refl _
  | unaryExprNode _ _ _ ih => exact List.cons_subset_cons _ ih
  | binaryExprNode _ left right _ ihl ihr =>
    have hleft : calls ctx left ⊆ left.nodes ++ right.nodes :=
      fun n hn ↦ List.mem_append_left _ (ihl hn)
    have hright : calls ctx right ⊆ left.nodes ++ right.nodes :=
      fun n hn ↦ List.mem_append_right _ (ihr hn)
    have hboth := List.append_subset.mpr ⟨hleft, hright⟩
    rw [calls.eq_def, Node.nodes]
    refine List.cons_subset_cons _ ?_
    split
    · split <;> assumption
    · split <;> assumption
    · split
      · split
        · exact hright
        · exact List.nil_subset _
      · split <;> assumption

section Pass

theorem complete_preparse {op : BinaryOp} {left right : Node} (h : right.Complete) :
    (preparseIdentifiersAndLiterals op left right).Complete := by
  unfold preparseIdentifiersAndLiterals
  split
  · dsimp only
    split
    · split
      · exact Node.complete_valueNode _ _
      · exact Node.complete_valueNode _ _
    · exact Node.complete_valueNode _ _
  · exact h

theorem complete_foldBinaryExpr {op : BinaryOp} {left right : Node} {pos : Position}
    (hleft : left.Complete) (hright : right.Complete) :
    (foldBinaryExpr op left right pos).Complete := by
  have hnode : (Node.binaryExprNode op left right pos).Complete :=
    Node.complete_binaryExprNode.mpr ⟨hleft, hright⟩
  unfold foldBinaryExpr
  split_ifs
  · exact Node.complete_valueNode _ _
  · exact Node.complete_valueNode _ _
  · split
    · split
      · exact Node.complete_valueNode _ _
      · exact hnode
    · exact hnode

theorem complete_foldUnaryExpr {op : UnaryOp} {child : Node} {pos : Position}
    (h : child.Complete) : (foldUnaryExpr op child pos).Complete := by
  unfold foldUnaryExpr
  split
  · exact Node.complete_valueNode _ _
  · exact Node.complete_valueNode _ _
  · exact Node.complete_unaryExprNode.mpr h

theorem complete_optimizeNode {node : Node} (h : node.Complete) :
    (optimizeNode node).1.Complete := by
  induction node with
  | nil => exact h
  | valueNode => exact Node.complete_valueNode _ _
  | variableNode => exact h
  | unaryExprNode _ _ _ ih =>
    exact complete_foldUnaryExpr (ih (Node.complete_unaryExprNode.mp h))
  | binaryExprNode _ _ _ _ ihl ihr =>
    have h := Node.complete_binaryExprNode.mp h
    exact complete_foldBinaryExpr (ihl h.1) (complete_preparse (ihr h.2))

theorem complete_compile {policy compiled : PolicyNode} (h : compile (some policy) = .ok compiled)
    (hcondition : policy.condition.Complete) : compiled.condition.Complete := by
  obtain ⟨-, h⟩ := Result.bind_unit_eq_ok.mp h
  obtain ⟨⟨policy', _⟩, hpolicy, h⟩ := Result.bind_eq_ok.mp h
  have hcompiled : compiled = { policy' with explanationList := [policy'.id] } := by
    dsimp only at h
    split_ifs at h
    cases h
    rfl
  have hne : policy.condition ≠ .nil := by
    intro hnil
    rw [hnil] at hcondition
    exact hcondition List.mem_cons_self
  unfold compileCondition at hpolicy
  rw [if_neg hne] at hpolicy
  obtain ⟨-, hpolicy⟩ := Result.bind_unit_eq_ok.mp hpolicy
  cases hpolicy
  rw [hcompiled]
  exact complete_optimizeNode hcondition

end Pass

variable {letter : Char → Bool}

/-- If a text is parsed without an error, its policies have their three scopes.
A condition that is written out has all its operands, before and after the
compiler's pass, and `Evaluate` meets no `nil` in it. -/
theorem error_free_parse_complete {text : String} (h : (parse letter text).2 = []) :
    List.Forall₂ (fun statement policy ↦
      policy.principal.isSome = true ∧ policy.action.isSome = true ∧
        policy.resource.isSome = true ∧
        (Written statement → policy.condition.Complete ∧
          ∀ id compiled, compile (some { policy with id := id }) = .ok compiled →
            compiled.condition.Complete ∧ ∀ ctx, .nil ∉ calls ctx compiled.condition))
      (statements letter text) (parse letter text).1 := by
  refine (forall₂_wellFormed h).imp fun statement policy hwell ↦ ?_
  refine ⟨hwell.principal, hwell.action, hwell.resource, fun hwritten ↦ ?_⟩
  have hcondition := hwell.condition hwritten
  refine ⟨hcondition, fun id compiled hcompile ↦ ?_⟩
  have hcompiled := complete_compile hcompile hcondition
  exact ⟨hcompiled, fun ctx hnil ↦ hcompiled (calls_subset ctx _ hnil)⟩

theorem error_free_parse_complete_amount :
    let text := "permit(principal == any, action == any, resource == any) " ++
      "when \x7b !(context.amount < 10) \x7d;"
    (parse (fun _ ↦ false) text).2 = [] ∧ (∃ s ∈ statements (fun _ ↦ false) text, Written s) ∧
      List.Forall₂ (fun statement policy ↦ Written statement → policy.condition.Complete)
        (statements (fun _ ↦ false) text) (parse (fun _ ↦ false) text).1 := by
  intro text
  have hparse : (parse (fun _ ↦ false) text).2 = [] := by with_unfolding_all decide
  refine ⟨hparse, ?_, ?_⟩
  · unfold Written
    decide
  · exact (error_free_parse_complete hparse).imp fun _ _ h hwritten ↦ (h.2.2.2 hwritten).1

end PolicyEngine.Engine

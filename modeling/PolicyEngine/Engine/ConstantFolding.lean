import PolicyEngine.Parser.Compiler
import PolicyEngine.Engine.Evaluator

namespace PolicyEngine.Engine

open PolicyEngine.Go PolicyEngine.Parser

/-- One step of the folding pass, on a node whose children are done. -/
def foldNode : Node → Node
  | .unaryExprNode op child pos => foldUnaryExpr op child pos
  | .binaryExprNode op left right pos => foldBinaryExpr op left right pos
  | node => node

def SameOutcome (a b : Except EvalError Value) : Prop := a.toOption = b.toOption

theorem SameOutcome.of_eq {a b : Except EvalError Value} (h : a = b) : SameOutcome a b :=
  congrArg Except.toOption h

def sameInstant : Node → Node → Bool
  | .valueNode (.dateTime l) _, .valueNode (.dateTime r) _ => l == r
  | _, _ => false

def yieldsInt : Node → Bool
  | .valueNode (.int _) _ => true
  | .unaryExprNode .neg child _ => yieldsInt child
  | _ => false

/-- Some request gives the node a value that is not a boolean. -/
def yieldsNonBool : Node → Bool
  | .valueNode v _ => v.valType ≠ .bool
  | .variableNode _ _ _ => true
  | .unaryExprNode .neg child _ => yieldsInt child
  | _ => false

/-- The nodes that folding leaves alone or replaces by what they evaluate to. -/
def FoldSafe : Node → Prop
  | .binaryExprNode .and left right _ => ¬ (isBool false right = true ∧ yieldsNonBool left = true)
  | .binaryExprNode .eq left right _ => sameInstant left right = false
  | .binaryExprNode .ne left right _ => sameInstant left right = false
  | _ => True

section Values

variable {ctx : EvalContext} {node left right : Node} {pos : Position} {v : Value}

theorem rightOperand_bool {x : Except EvalError Value} (h : rightOperand x = .ok v) :
    ∃ b, v = .bool b := by
  unfold rightOperand at h
  split at h
  · exact ⟨false, (Except.ok.inj h).symm⟩
  · exact ⟨_, (Except.ok.inj h).symm⟩
  · cases h

theorem evaluateComparison_bool {dag : Option RoleDag} {op : BinaryOp}
    {l r : Except EvalError Value} (h : evaluateComparison dag op l r = .ok v) :
    ∃ b, v = .bool b := by
  unfold evaluateComparison at h
  split at h
  · exact ⟨false, (Except.ok.inj h).symm⟩
  · exact ⟨false, (Except.ok.inj h).symm⟩
  · next l r =>
    cases hc : compareValues dag op l r with
    | error => rw [hc] at h; cases h
    | ok b => rw [hc] at h; exact ⟨b, (Except.ok.inj h).symm⟩

theorem evaluate_binaryExpr_bool {op : BinaryOp}
    (h : evaluate ctx (.binaryExprNode op left right pos) = .ok v) : ∃ b, v = .bool b := by
  cases op with
  | and =>
    simp only [evaluate] at h
    split at h
    · exact ⟨false, (Except.ok.inj h).symm⟩
    · exact ⟨false, (Except.ok.inj h).symm⟩
    · exact rightOperand_bool h
    · cases h
  | or =>
    simp only [evaluate] at h
    split at h
    · exact ⟨true, (Except.ok.inj h).symm⟩
    · exact rightOperand_bool h
  | _ => exact evaluateComparison_bool h

theorem getAttribute_string {scope : VarScope} {field : String}
    (h : ctx.getAttribute scope field .string = .ok v) : ∃ s, v = .string s := by
  unfold EvalContext.getAttribute at h
  split_ifs at h
  · exact ⟨_, (Except.ok.inj h).symm⟩
  · exact ⟨_, (Except.ok.inj h).symm⟩
  · split at h
    · exact ⟨_, (Except.ok.inj h).symm⟩
    · cases h

theorem evaluate_unaryExpr_ok {op : UnaryOp} {child : Node}
    (h : evaluate ctx (.unaryExprNode op child pos) = .ok v) :
    (op = .not ∧ ∃ b, v = .bool b) ∨
      (op = .neg ∧ ∃ n, evaluate ctx child = .ok (.int n) ∧ v = .int (-n)) := by
  simp only [evaluate] at h
  split at h
  · cases h
  · next hw =>
    split at h
    · exact .inl ⟨rfl, _, (Except.ok.inj h).symm⟩
    · exact .inr ⟨rfl, _, hw, (Except.ok.inj h).symm⟩
    · cases h

theorem yieldsInt_of_evaluate {n : Int64} (h : evaluate ctx node = .ok (.int n)) :
    yieldsInt node = true := by
  induction node generalizing n with
  | nil => cases h
  | valueNode => cases Except.ok.inj h; rfl
  | variableNode =>
    obtain ⟨_, hs⟩ := getAttribute_string h
    cases hs
  | unaryExprNode _ _ _ ih =>
    rcases evaluate_unaryExpr_ok h with ⟨_, _, hb⟩ | ⟨rfl, _, hm, _⟩
    · cases hb
    · exact ih hm
  | binaryExprNode =>
    obtain ⟨_, hb⟩ := evaluate_binaryExpr_bool h
    cases hb

theorem evaluate_of_yieldsInt (ctx : EvalContext) (h : yieldsInt node = true) :
    ∃ n, evaluate ctx node = .ok (.int n) := by
  induction node with
  | valueNode v =>
    cases v with
    | int n => exact ⟨n, rfl⟩
    | _ => cases h
  | unaryExprNode op _ _ ih =>
    cases op with
    | not => cases h
    | neg =>
      obtain ⟨n, hn⟩ := ih h
      refine ⟨-n, ?_⟩
      simp only [evaluate, hn]
  | nil | variableNode | binaryExprNode => cases h

theorem yieldsNonBool_of_evaluate (h : evaluate ctx node = .ok v) (hv : v.valType ≠ .bool) :
    yieldsNonBool node = true := by
  cases node with
  | nil =>
    cases h
    exact absurd rfl hv
  | valueNode =>
    cases h
    exact decide_eq_true hv
  | variableNode => rfl
  | unaryExprNode =>
    rcases evaluate_unaryExpr_ok h with ⟨_, _, rfl⟩ | ⟨rfl, _, hn, _⟩
    · exact absurd rfl hv
    · exact yieldsInt_of_evaluate hn
  | binaryExprNode =>
    obtain ⟨_, rfl⟩ := evaluate_binaryExpr_bool h
    exact absurd rfl hv

def contextWith (field : String) : EvalContext where
  subject := ""
  action := ""
  resource := ""
  context := Map.ofList [("principal." ++ field, ""), ("resource." ++ field, ""), (field, "")]
  roleDag := none

theorem contextWith_getAttribute (scope : VarScope) (field : String) :
    ∃ s, (contextWith field).getAttribute scope field .string = .ok (.string s) := by
  have htext : (contextWith field).attributeText scope field = some "" := by
    have hlookup (key : String) : key ∈ ["principal." ++ field, "resource." ++ field, field] →
        (contextWith field).context.lookup key = some "" := by
      intro hkey
      simp only [contextWith, Map.ofList, List.foldl_cons, List.foldl_nil]
      by_cases h₁ : key = field
      · rw [h₁, AList.lookup_insert]
      · rw [AList.lookup_insert_ne h₁]
        by_cases h₂ : key = "resource." ++ field
        · rw [h₂, AList.lookup_insert]
        · rw [AList.lookup_insert_ne h₂]
          have h₃ : key = "principal." ++ field := by simpa [h₁, h₂] using hkey
          rw [h₃, AList.lookup_insert]
    cases scope with
    | principal => exact hlookup _ (by simp)
    | resource => exact hlookup _ (by simp)
    | context =>
      have hfield := hlookup field (by simp)
      simp only [EvalContext.attributeText, hfield]
  unfold EvalContext.getAttribute
  split_ifs
  · exact ⟨_, rfl⟩
  · exact ⟨_, rfl⟩
  · rw [htext]
    exact ⟨_, rfl⟩

theorem evaluate_of_yieldsNonBool (h : yieldsNonBool node = true) :
    ∃ ctx v, evaluate ctx node = .ok v ∧ v.valType ≠ .bool := by
  cases node with
  | valueNode v => exact ⟨contextWith "", v, rfl, of_decide_eq_true h⟩
  | variableNode scope field =>
    obtain ⟨_, hs⟩ := contextWith_getAttribute scope field
    exact ⟨_, _, hs, by simp [Value.valType]⟩
  | unaryExprNode op =>
    cases op with
    | not => cases h
    | neg =>
      obtain ⟨n, hn⟩ := evaluate_of_yieldsInt (contextWith "") h
      refine ⟨contextWith "", .int (-n), ?_, by simp [Value.valType]⟩
      simp only [evaluate, hn]
  | nil | binaryExprNode => cases h

end Values

section Fold

variable {op : BinaryOp} {left right : Node} {pos : Position}

theorem evaluate_foldUnaryExpr (ctx : EvalContext) (op : UnaryOp) (child : Node) (pos : Position) :
    evaluate ctx (foldUnaryExpr op child pos) = evaluate ctx (.unaryExprNode op child pos) := by
  unfold foldUnaryExpr
  split <;> rfl

theorem eq_of_isBool {b : Bool} {node : Node} (h : isBool b node = true) :
    ∃ pos, node = .valueNode (.bool b) pos := by
  unfold isBool at h
  split at h
  · next pos => exact ⟨pos, by rw [beq_iff_eq.mp h]⟩
  · cases h

/-- Folding `e && false` to `false` is right as long as `e` has no value other
than a boolean; there the evaluator reports an error. -/
theorem evaluate_and_false_right (ctx : EvalContext) (h : isBool false right = true) :
    SameOutcome (.ok (.bool false)) (evaluate ctx (.binaryExprNode .and left right pos)) ↔
      ∀ v, evaluate ctx left = .ok v → v.valType = .bool := by
  obtain ⟨_, rfl⟩ := eq_of_isBool h
  cases hl : evaluate ctx left with
  | error => simp [SameOutcome, evaluate, hl, Except.toOption]
  | ok v =>
    cases v with
    | bool b =>
      cases b <;> simp [SameOutcome, evaluate, hl, Except.toOption, rightOperand, Value.valType]
    | _ => simp [SameOutcome, evaluate, hl, Except.toOption, Value.valType]

theorem evaluate_or_true (ctx : EvalContext)
    (h : isBool true left = true ∨ isBool true right = true) :
    evaluate ctx (.binaryExprNode .or left right pos) = .ok (.bool true) := by
  rcases h with h | h
  · obtain ⟨p, rfl⟩ := eq_of_isBool h
    rfl
  · obtain ⟨_, rfl⟩ := eq_of_isBool h
    simp only [evaluate]
    split <;> rfl

theorem foldBinaryExpr_cases (op : BinaryOp) (left right : Node) (pos : Position)
    (hand : op = .and → isBool false left = false ∧ isBool false right = false)
    (hor : op = .or → isBool true left = false ∧ isBool true right = false) :
    foldBinaryExpr op left right pos = .binaryExprNode op left right pos ∨
      ∃ l p r q b, left = .valueNode l p ∧ right = .valueNode r q ∧ foldLiterals op l r = some b ∧
        foldBinaryExpr op left right pos = .valueNode (.bool b) pos := by
  have h₁ : ¬ (op = .and ∧ (isBool false left = true ∨ isBool false right = true)) := by
    rintro ⟨h, h'⟩
    simp [hand h] at h'
  have h₂ : ¬ (op = .or ∧ (isBool true left = true ∨ isBool true right = true)) := by
    rintro ⟨h, h'⟩
    simp [hor h] at h'
  unfold foldBinaryExpr
  rw [if_neg h₁, if_neg h₂]
  split
  · next l p r q =>
    cases hf : foldLiterals op l r with
    | none => exact .inl rfl
    | some b => exact .inr ⟨l, p, r, q, b, rfl, rfl, hf, rfl⟩
  · exact .inl rfl

theorem evaluate_logical_literals (ctx : EvalContext) (hop : op = .and ∨ op = .or) {l r : Value}
    {p q : Position} {b : Bool} (h : foldLiterals op l r = some b) :
    evaluate ctx (.binaryExprNode op (.valueNode l p) (.valueNode r q) pos) = .ok (.bool b) := by
  rcases hop with rfl | rfl
  all_goals
    unfold foldLiterals at h
    dsimp only at h
    split at h
    · next x y =>
      cases h
      cases x <;> cases y <;> rfl
    · cases h

theorem foldBinaryExpr_and_iff :
    (∀ ctx, SameOutcome (evaluate ctx (foldBinaryExpr .and left right pos))
        (evaluate ctx (.binaryExprNode .and left right pos))) ↔
      ¬ (isBool false right = true ∧ yieldsNonBool left = true) := by
  by_cases hl : isBool false left = true
  · have hfold : foldBinaryExpr .and left right pos = .valueNode (.bool false) pos := by
      simp [foldBinaryExpr, hl]
    obtain ⟨_, rfl⟩ := eq_of_isBool hl
    rw [hfold]
    exact ⟨fun _ h ↦ absurd h.2 (by simp [yieldsNonBool, Value.valType]), fun _ _ ↦ rfl⟩
  by_cases hr : isBool false right = true
  · have hfold : foldBinaryExpr .and left right pos = .valueNode (.bool false) pos := by
      simp [foldBinaryExpr, hr]
    have hval (ctx : EvalContext) :
        evaluate ctx (.valueNode (.bool false) pos) = .ok (.bool false) := rfl
    simp only [hfold, hval, evaluate_and_false_right _ hr]
    constructor
    · intro h hn
      obtain ⟨ctx, v, hv, hne⟩ := evaluate_of_yieldsNonBool hn.2
      exact hne (h ctx v hv)
    · intro h _ _ hv
      by_contra hne
      exact h ⟨hr, yieldsNonBool_of_evaluate hv hne⟩
  · refine ⟨fun _ h ↦ hr h.1, fun _ ctx ↦ SameOutcome.of_eq ?_⟩
    have hc := foldBinaryExpr_cases .and left right pos
      (fun _ ↦ ⟨Bool.eq_false_iff.mpr hl, Bool.eq_false_iff.mpr hr⟩) (fun h ↦ absurd h (by decide))
    rcases hc with hc | ⟨_, _, _, _, _, rfl, rfl, hf, hc⟩
    · rw [hc]
    · rw [hc, evaluate_logical_literals ctx (.inl rfl) hf]
      rfl

theorem evaluate_foldBinaryExpr_or (ctx : EvalContext) :
    evaluate ctx (foldBinaryExpr .or left right pos) =
      evaluate ctx (.binaryExprNode .or left right pos) := by
  by_cases h : isBool true left = true ∨ isBool true right = true
  · have hfold : foldBinaryExpr .or left right pos = .valueNode (.bool true) pos := by
      simp [foldBinaryExpr, h]
    rw [hfold, evaluate_or_true ctx h]
    rfl
  · rw [not_or, Bool.not_eq_true, Bool.not_eq_true] at h
    have hc := foldBinaryExpr_cases .or left right pos
      (fun h ↦ absurd h (by decide)) (fun _ ↦ h)
    rcases hc with hc | ⟨_, _, _, _, _, rfl, rfl, hf, hc⟩
    · rw [hc]
    · rw [hc, evaluate_logical_literals ctx (.inr rfl) hf]
      rfl

theorem evaluate_literals (ctx : EvalContext) (hand : op ≠ .and) (hor : op ≠ .or) (l r : Value)
    (p q : Position) :
    evaluate ctx (.binaryExprNode op (.valueNode l p) (.valueNode r q) pos) =
      (compareValues ctx.roleDag op l r).map .bool := by
  cases op <;> first
    | exact absurd rfl hand
    | exact absurd rfl hor
    | rfl

theorem evaluateCompare_eq (l r : Value) : evaluateCompare l r = compareOrder l r := by
  cases l <;> cases r <;> rfl

theorem evaluateEq_eq_iff (l r : Value) (p q : Position) :
    evaluateEq l r = compareEq l r ↔ sameInstant (.valueNode l p) (.valueNode r q) = false := by
  cases l <;> cases r <;> simp [evaluateEq, compareEq, sameInstant]

theorem foldLiterals_relational (dag : Option RoleDag) {l r : Value} {b : Bool}
    (hop : isRelationalOp op = true) (h : foldLiterals op l r = some b) :
    compareValues dag op l r = .ok b := by
  have key (test : Ordering → Bool) (h : (evaluateCompare l r).map test = some b) :
      compareRelational test l r = .ok b := by
    rw [evaluateCompare_eq] at h
    obtain ⟨_, hcmp, htest⟩ := Option.map_eq_some_iff.mp h
    rw [compareRelational, hcmp, ← htest]
  cases op with
  | gt | lt | ge | le => exact key _ h
  | _ => cases hop

theorem evaluate_foldBinaryExpr_relational (ctx : EvalContext) (hop : isRelationalOp op = true) :
    evaluate ctx (foldBinaryExpr op left right pos) =
      evaluate ctx (.binaryExprNode op left right pos) := by
  have hand : op ≠ .and := by
    rintro rfl
    cases hop
  have hor : op ≠ .or := by
    rintro rfl
    cases hop
  have hc := foldBinaryExpr_cases op left right pos
    (fun h ↦ absurd h hand) (fun h ↦ absurd h hor)
  rcases hc with hc | ⟨_, _, _, _, _, rfl, rfl, hf, hc⟩
  · rw [hc]
  · rw [hc, evaluate_literals ctx hand hor, foldLiterals_relational _ hop hf]
    rfl

theorem foldBinaryExpr_equality_iff (hop : op = .eq ∨ op = .ne) :
    (∀ ctx, SameOutcome (evaluate ctx (foldBinaryExpr op left right pos))
        (evaluate ctx (.binaryExprNode op left right pos))) ↔ sameInstant left right = false := by
  have hand : op ≠ .and := by rcases hop with rfl | rfl <;> decide
  have hor : op ≠ .or := by rcases hop with rfl | rfl <;> decide
  by_cases hlit : ∃ l p r q, left = .valueNode l p ∧ right = .valueNode r q
  · obtain ⟨l, p, r, q, rfl, rfl⟩ := hlit
    rw [← evaluateEq_eq_iff]
    simp only [evaluate_literals _ hand hor]
    rcases hop with rfl | rfl
    · have hfold : foldBinaryExpr .eq (.valueNode l p) (.valueNode r q) pos =
          .valueNode (.bool (evaluateEq l r)) pos := rfl
      simp only [hfold, evaluate, compareValues, SameOutcome, Except.map, Except.toOption,
        Option.some.injEq, Value.bool.injEq]
      exact ⟨fun h ↦ h (contextWith ""), fun h _ ↦ h⟩
    · have hfold : foldBinaryExpr .ne (.valueNode l p) (.valueNode r q) pos =
          .valueNode (.bool (!evaluateEq l r)) pos := rfl
      simp only [hfold, evaluate, compareValues, SameOutcome, Except.map, Except.toOption,
        Option.some.injEq, Value.bool.injEq, Bool.not_inj_iff]
      exact ⟨fun h ↦ h (contextWith ""), fun h _ ↦ h⟩
  · have hc := foldBinaryExpr_cases op left right pos
      (fun h ↦ absurd h hand) (fun h ↦ absurd h hor)
    have hsame : foldBinaryExpr op left right pos = .binaryExprNode op left right pos := by
      rcases hc with hc | ⟨l, p, r, q, _, hl, hr, _, _⟩
      · exact hc
      · exact absurd ⟨l, p, r, q, hl, hr⟩ hlit
    have hdistinct : sameInstant left right = false := by
      unfold sameInstant
      split
      · next l p r q => exact absurd ⟨_, _, _, _, rfl, rfl⟩ hlit
      · rfl
    rw [hsame]
    exact ⟨fun _ ↦ hdistinct, fun _ _ ↦ rfl⟩

theorem foldBinaryExpr_membership (hop : op = .in ∨ op = .contains) :
    foldBinaryExpr op left right pos = .binaryExprNode op left right pos := by
  have hand : op ≠ .and := by rcases hop with rfl | rfl <;> decide
  have hor : op ≠ .or := by rcases hop with rfl | rfl <;> decide
  have hc := foldBinaryExpr_cases op left right pos
    (fun h ↦ absurd h hand) (fun h ↦ absurd h hor)
  rcases hc with hc | ⟨_, _, _, _, _, rfl, rfl, hf, hc⟩
  · exact hc
  · rcases hop with rfl | rfl <;> cases hf

end Fold

/-- Folding keeps the meaning of a node in every request exactly for the nodes
`FoldSafe` describes. -/
theorem foldNode_preserves_iff (node : Node) :
    (∀ ctx : EvalContext, SameOutcome (evaluate ctx (foldNode node)) (evaluate ctx node)) ↔
      FoldSafe node := by
  cases node with
  | nil | valueNode | variableNode => exact ⟨fun _ ↦ trivial, fun _ _ ↦ rfl⟩
  | unaryExprNode op child pos =>
    exact ⟨fun _ ↦ trivial, fun _ ctx ↦ .of_eq (evaluate_foldUnaryExpr ctx op child pos)⟩
  | binaryExprNode op =>
    cases op with
    | and => exact foldBinaryExpr_and_iff
    | or => exact ⟨fun _ ↦ trivial, fun _ ctx ↦ .of_eq (evaluate_foldBinaryExpr_or ctx)⟩
    | eq => exact foldBinaryExpr_equality_iff (.inl rfl)
    | ne => exact foldBinaryExpr_equality_iff (.inr rfl)
    | gt | lt | ge | le =>
      exact ⟨fun _ ↦ trivial, fun _ ctx ↦ .of_eq (evaluate_foldBinaryExpr_relational ctx rfl)⟩
    | «in» =>
      refine ⟨fun _ ↦ trivial, fun _ ctx ↦ ?_⟩
      simp only [foldNode, foldBinaryExpr_membership (.inl rfl)]
      rfl
    | contains =>
      refine ⟨fun _ ↦ trivial, fun _ ctx ↦ ?_⟩
      simp only [foldNode, foldBinaryExpr_membership (.inr rfl)]
      rfl

/-- `"08:00" == "08:00"`, with both literals typed by the pass. -/
def openingTime : Node :=
  .binaryExprNode .eq (optimizeNode (.valueNode (.string "08:00"))).1
    (optimizeNode (.valueNode (.string "08:00"))).1

theorem openingTime_folds_to_false :
    (evaluate (contextWith "") (foldNode openingTime)).toOption = some (.bool false) ∧
      (evaluate (contextWith "") openingTime).toOption = some (.bool true) := by
  decide

end PolicyEngine.Engine

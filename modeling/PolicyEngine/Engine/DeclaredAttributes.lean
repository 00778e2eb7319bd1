import PolicyEngine.Engine.OrderFree
import PolicyEngine.Go.Result
import PolicyEngine.Parser.Compiler

namespace PolicyEngine.Engine

open PolicyEngine.Go PolicyEngine.Parser

def attributeKeys (field : String) : List String :=
  [field, "context." ++ field, "principal." ++ field, "resource." ++ field]

/-- Two contexts that agree on every key of the declared attributes, a missing
key included. -/
def AgreeOn (attributes : List String) (c c' : Map String) : Prop :=
  ∀ field ∈ attributes, ∀ key ∈ attributeKeys field, c.lookup key = c'.lookup key

theorem mem_collectFields {node : Node} {v : VarScope × String} (h : v ∈ readVars node) :
    v.2 ∈ collectFields node := by
  induction node with
  | nil => cases h
  | valueNode => cases h
  | variableNode _ field =>
    rw [List.mem_singleton.mp h]
    exact List.mem_singleton_self field
  | unaryExprNode _ _ _ ih => exact ih h
  | binaryExprNode _ _ _ _ ihl ihr =>
    apply List.mem_append.mpr
    rcases List.mem_append.mp h with hl | hr
    · exact .inl (ihl hl)
    · exact .inr (ihr hr)

theorem mem_requiredAttributes {source : Option PolicyNode} {policy : PolicyNode}
    (h : compile source = .ok policy) {v : VarScope × String} (hv : v ∈ readVars policy.condition) :
    v.2 ∈ policy.requiredAttributes := by
  cases source with
  | none => cases h
  | some =>
    simp only [compile, compileCondition, Result.bind_eq_ok] at h
    obtain ⟨-, -, ⟨_, _⟩, hcompiled, h⟩ := h
    split_ifs at h
    cases h
    split_ifs at hcompiled with hnil
    · cases hcompiled
      rw [hnil] at hv
      cases hv
    · obtain ⟨-, -, hoptimised⟩ := Result.bind_eq_ok.mp hcompiled
      cases hoptimised
      exact (List.mem_insertionSort _).mpr (List.mem_dedup.mpr (mem_collectFields hv))

theorem mem_addRequiredAttributes {attrs existing : List String} {attr : String} :
    attr ∈ addRequiredAttributes attrs existing ↔ attr ∈ attrs ∨ attr ∈ existing := by
  unfold addRequiredAttributes
  induction attrs generalizing existing with
  | nil => simp
  | cons _ _ ih =>
    rw [List.foldl_cons, ih]
    split_ifs with hmem
    · grind
    · grind

theorem requiredAttributes_addPolicy (hash : String → UInt64) (t : TrieRoot) (policy : PolicyNode) :
    (t.addPolicy hash (some policy)).requiredAttributes =
      addRequiredAttributes policy.requiredAttributes t.requiredAttributes := by
  cases h : isGlobal policy <;> simp [TrieRoot.addPolicy, h]

theorem mem_requiredAttributes_addPolicies (hash : String → UInt64) {attr : String}
    (t : TrieRoot) (policies : List (Option PolicyNode)) :
    attr ∈ (t.addPolicies hash policies).requiredAttributes ↔
      attr ∈ t.requiredAttributes ∨ ∃ p, some p ∈ policies ∧ attr ∈ p.requiredAttributes := by
  induction policies generalizing t with
  | nil => simp [TrieRoot.addPolicies]
  | cons policy _ ih =>
    simp only [TrieRoot.addPolicies, List.foldl_cons] at ih ⊢
    rw [ih]
    cases policy with
    | none => simp [TrieRoot.addPolicy]
    | some =>
      rw [requiredAttributes_addPolicy, mem_addRequiredAttributes]
      simp only [List.mem_cons, Option.some.injEq]
      grind

section Built

variable {hash : String → UInt64} {orders : ℕ → RoleDag.MapOrders} {tenantId : String}
  {policies : List (Option PolicyNode)} {inheritances : List (String × String)}
  {revision : UInt64} {trie : TrieRoot}

theorem requiredAttributes_of_built
    (h : buildTenantTrie hash orders tenantId policies inheritances revision = .ok trie)
    {p : PolicyNode} (hp : some p ∈ policies) {attr : String} (hattr : attr ∈ p.requiredAttributes) :
    attr ∈ trie.requiredAttributes := by
  unfold buildTenantTrie at h
  split at h
  · cases h
  · cases h
    exact (mem_requiredAttributes_addPolicies hash _ policies).mpr (.inr ⟨p, hp, hattr⟩)

theorem some_mem_of_matched
    (h : buildTenantTrie hash orders tenantId policies inheritances revision = .ok trie)
    {subject action resource : String} {p : PolicyNode}
    (hp : p ∈ matchedPolicies hash trie subject action resource) : some p ∈ policies := by
  rcases buildTenantTrie_spec hash orders tenantId policies inheritances revision with
    ⟨built, hok, hbuilt, -⟩ | ⟨⟨e, herror⟩, -⟩
  · rw [h] at hok
    cases hok
    rw [matchedPolicies, hbuilt.lookup] at hp
    exact ((mem_lookup_iff hash _ policies _ _ _ p).mp hp).1
  · rw [h] at herror
    cases herror

end Built

section Contexts

variable {hash : String → UInt64} {trie : TrieRoot} {c c' : Map String}
  {subject action resource : String}

theorem attributeText_eq_of_agreeOn {attributes : List String} (h : AgreeOn attributes c c')
    {scope : VarScope} {field : String} (hfield : field ∈ attributes) :
    (evalContext trie subject action resource c).attributeText scope field =
      (evalContext trie subject action resource c').attributeText scope field := by
  have hkey := h field hfield
  simp only [attributeKeys, List.forall_mem_cons] at hkey
  obtain ⟨hbare, hcontext, hprincipal, hresource, -⟩ := hkey
  cases scope with
  | principal => exact hprincipal
  | resource => exact hresource
  | context => simp only [EvalContext.attributeText, evalContext, hbare, hcontext]

theorem isConditionSatisfied_of_agreeOn (h : AgreeOn trie.requiredAttributes c c')
    {source : Option PolicyNode} {policy : PolicyNode} (hcompiled : compile source = .ok policy)
    (hdeclared : ∀ attr ∈ policy.requiredAttributes, attr ∈ trie.requiredAttributes) :
    isConditionSatisfied (evalContext trie subject action resource c) policy =
      isConditionSatisfied (evalContext trie subject action resource c') policy := by
  have heval : evaluate (evalContext trie subject action resource c) policy.condition =
      evaluate (evalContext trie subject action resource c') policy.condition := by
    have hmem : memberOf (evalContext trie subject action resource c).roleDag =
        memberOf (evalContext trie subject action resource c').roleDag := rfl
    refine evaluate_congr hmem ?_
    intro v hv
    funext expected
    have htext : (evalContext trie subject action resource c).attributeText v.1 v.2 =
        (evalContext trie subject action resource c').attributeText v.1 v.2 :=
      attributeText_eq_of_agreeOn h (hdeclared v.2 (mem_requiredAttributes hcompiled hv))
    simp only [EvalContext.getAttribute, htext]
    rfl
  simp only [isConditionSatisfied, heval]

end Contexts

/-- On a trie built from compiled policies the declared attributes decide: two
contexts that agree on their keys get one answer, from the same policies. -/
theorem declared_attributes_decide (hash : String → UInt64) (orders : ℕ → RoleDag.MapOrders)
    (tenantId : String) (policies : List (Option PolicyNode))
    (hcompiled : ∀ p, some p ∈ policies → ∃ source, compile source = .ok p)
    (inheritances : List (String × String)) (revision : UInt64) {trie : TrieRoot}
    (htrie : buildTenantTrie hash orders tenantId policies inheritances revision = .ok trie)
    (ctxErr : Option String) (subject action resource : String) {c c' : Map String}
    (hagree : AgreeOn trie.requiredAttributes c c') :
    checkPermission hash ctxErr (some trie) subject action resource c =
        checkPermission hash ctxErr (some trie) subject action resource c' ∧
      scanPolicies (evalContext trie subject action resource c)
          (matchedPolicies hash trie subject action resource) none =
        scanPolicies (evalContext trie subject action resource c')
          (matchedPolicies hash trie subject action resource) none := by
  have hsatisfied : ∀ p ∈ matchedPolicies hash trie subject action resource,
      isConditionSatisfied (evalContext trie subject action resource c) p =
        isConditionSatisfied (evalContext trie subject action resource c') p := by
    intro p hp
    have hmem := some_mem_of_matched htrie hp
    obtain ⟨_, hsource⟩ := hcompiled p hmem
    refine isConditionSatisfied_of_agreeOn hagree hsource ?_
    intro _ hattr
    exact requiredAttributes_of_built htrie hmem hattr
  have hscan := scanPolicies_congr hsatisfied none
  refine ⟨?_, hscan⟩
  cases ctxErr with
  | some => rfl
  | none => simp only [checkPermission, evaluatePermission, hscan]

def smallAmountPermit : PolicyNode where
  id := "small"
  effect := .permit
  condition := .binaryExprNode .lt (.variableNode .context "amount") (.valueNode (.int 100))

def compiledSmallAmountPermit : PolicyNode :=
  { smallAmountPermit with requiredAttributes := ["amount"], explanationList := ["small"] }

theorem declared_attributes_decide_amount :
    ∃ trie, buildTenantTrie fnvHash (fun _ ↦ .uniform .listed) "t1"
        [some compiledSmallAmountPermit] [] 1 = .ok trie ∧
      checkPermission fnvHash none (some trie) "user:alice" "READ" "po:1"
          (Map.ofList [("amount", "50")]) =
        checkPermission fnvHash none (some trie) "user:alice" "READ" "po:1"
          (Map.ofList [("amount", "50"), ("note", "urgent")]) := by
  have hcompiled : compile (some smallAmountPermit) = .ok compiledSmallAmountPermit := by decide
  refine ⟨_, rfl, (declared_attributes_decide fnvHash (fun _ ↦ .uniform .listed) "t1"
    [some compiledSmallAmountPermit] ?_ [] 1 rfl none "user:alice" "READ" "po:1" ?_).1⟩
  · intro _ hp
    rw [Option.some.inj (List.mem_singleton.mp hp)]
    exact ⟨some smallAmountPermit, hcompiled⟩
  · unfold AgreeOn
    decide

end PolicyEngine.Engine

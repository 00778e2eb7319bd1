import Mathlib.Data.List.ReduceOption
import PolicyEngine.Engine.RoleDag
import PolicyEngine.Hash.Buckets
import PolicyEngine.Parser.Ast

namespace PolicyEngine.Engine

open PolicyEngine.Go PolicyEngine.Hash PolicyEngine.Parser

structure ActionNode where
  key : String
  policies : List PolicyNode

structure ResourceNode where
  key : String
  actions : UInt64 → List ActionNode

structure SubjectNode where
  key : String
  resources : UInt64 → List ResourceNode

structure TrieRoot where
  tenantId : String
  revision : UInt64
  requiredAttributes : List String
  subjects : UInt64 → List SubjectNode
  globalPolicies : List PolicyNode
  roleDag : Option RoleDag

def newTrieRoot (tenantId : String) : TrieRoot where
  tenantId := tenantId
  revision := 1
  requiredAttributes := []
  subjects := fun _ ↦ []
  globalPolicies := []
  roleDag := some RoleDag.newRoleDag

def fnvHash (s : String) : UInt64 :=
  (Text.bytes s).foldl (fun hash b ↦ (hash ^^^ b.toUInt64) * 1099511628211) 14695981039346656037

def scopeIsAny (scope : Option ScopeNode) : Bool :=
  match scope with
  | none => true
  | some s => s.operator = .any

def buildKey (scope : Option ScopeNode) : String :=
  match scope with
  | none => "any"
  | some s => if s.operator = .any then "any" else s.entityType ++ ":" ++ s.entityId

def findSubjectNode (nodes : List SubjectNode) (key : String) : Option SubjectNode :=
  Buckets.find SubjectNode.key key nodes

def findResourceNode (nodes : List ResourceNode) (key : String) : Option ResourceNode :=
  Buckets.find ResourceNode.key key nodes

def findActionNode (nodes : List ActionNode) (key : String) : Option ActionNode :=
  Buckets.find ActionNode.key key nodes

def addRequiredAttributes (attrs existing : List String) : List String :=
  attrs.foldl (fun acc attr ↦ if attr ∈ acc then acc else acc ++ [attr]) existing

/-- The hash is a parameter, so that nothing proved about the index rests on
`fnvHash` being free of collisions. -/
def ResourceNode.add (hash : String → UInt64) (policy : PolicyNode) (node : ResourceNode) :
    ResourceNode :=
  let actKey := buildKey policy.action
  { node with
    actions := Buckets.modify hash ActionNode.key actKey ⟨actKey, []⟩
      (fun n ↦ { n with policies := n.policies ++ [policy] }) node.actions }

def SubjectNode.add (hash : String → UInt64) (policy : PolicyNode) (node : SubjectNode) :
    SubjectNode :=
  let resKey := buildKey policy.resource
  { node with
    resources := Buckets.modify hash ResourceNode.key resKey ⟨resKey, fun _ ↦ []⟩
      (ResourceNode.add hash policy) node.resources }

def isGlobal (policy : PolicyNode) : Bool :=
  scopeIsAny policy.principal && scopeIsAny policy.resource

def TrieRoot.addPolicy (hash : String → UInt64) (t : TrieRoot) : Option PolicyNode → TrieRoot
  | none => t
  | some policy =>
    let t := { t with
      requiredAttributes := addRequiredAttributes policy.requiredAttributes t.requiredAttributes }
    if isGlobal policy then { t with globalPolicies := t.globalPolicies ++ [policy] }
    else
      let subKey := buildKey policy.principal
      { t with
        subjects := Buckets.modify hash SubjectNode.key subKey ⟨subKey, fun _ ↦ []⟩
          (SubjectNode.add hash policy) t.subjects }

def TrieRoot.addPolicies (hash : String → UInt64) (t : TrieRoot)
    (policies : List (Option PolicyNode)) : TrieRoot :=
  policies.foldl (TrieRoot.addPolicy hash) t

def scratchLen : ℕ := 32

def ensureAnyInto (list : List String) : List String :=
  if "any" ∈ list then list
  else
    -- `copy` moves as many keys as the scratch array holds.
    let n := min list.length scratchLen
    if n < scratchLen then list.take n ++ ["any"] else list ++ ["any"]

def ResourceNode.tryAction (hash : String → UInt64) (node : ResourceNode) (action : String) :
    List PolicyNode :=
  match findActionNode (node.actions (hash action)) action with
  | some actNode => actNode.policies
  | none => []

def TrieRoot.lookupPoliciesInto (hash : String → UInt64) (t : TrieRoot) (buf : List PolicyNode)
    (subjects resources : List String) (action : String) : List PolicyNode :=
  buf ++ t.globalPolicies ++ (ensureAnyInto subjects).flatMap fun subKey ↦
    match findSubjectNode (t.subjects (hash subKey)) subKey with
    | none => []
    | some subNode => (ensureAnyInto resources).flatMap fun resKey ↦
      match findResourceNode (subNode.resources (hash resKey)) resKey with
      | none => []
      | some resNode =>
        resNode.tryAction hash action ++
          if hash action = hash "any" then [] else resNode.tryAction hash "any"

/-- The policies stored under three raw keys, which is all a lookup can see of
the index. -/
def TrieRoot.leaf (hash : String → UInt64) (t : TrieRoot) (s r a : String) : List PolicyNode :=
  match findSubjectNode (t.subjects (hash s)) s with
  | none => []
  | some subNode =>
    match findResourceNode (subNode.resources (hash r)) r with
    | none => []
    | some resNode => resNode.tryAction hash a

variable {hash : String → UInt64}

theorem buildKey_eq_any_iff (scope : Option ScopeNode) :
    buildKey scope = "any" ↔ scopeIsAny scope = true := by
  cases scope with
  | none => simp [buildKey, scopeIsAny]
  | some s =>
    by_cases h : s.operator = .any
    · simp [buildKey, scopeIsAny, h]
    · simp only [buildKey, scopeIsAny, h, if_false, decide_false, Bool.false_eq_true, iff_false]
      intro he
      have hmem : ':' ∈ (s.entityType ++ ":" ++ s.entityId).toList := by simp
      rw [he] at hmem
      exact absurd hmem (by decide)

theorem ensureAnyInto_eq (list : List String) :
    ensureAnyInto list = if "any" ∈ list then list else list ++ ["any"] := by
  unfold ensureAnyInto
  by_cases h : "any" ∈ list
  · simp only [h, if_true]
  · simp only [h, if_false]
    split_ifs with hn
    · rw [List.take_of_length_le (by omega)]
    · rfl

theorem mem_ensureAnyInto {list : List String} {k : String} :
    k ∈ ensureAnyInto list ↔ k = "any" ∨ k ∈ list := by
  rw [ensureAnyInto_eq]
  split_ifs with h
  · constructor
    · exact .inr
    · rintro (rfl | hk)
      · exact h
      · exact hk
  · simp [or_comm]

theorem nodup_ensureAnyInto {list : List String} (h : list.Nodup) : (ensureAnyInto list).Nodup := by
  rw [ensureAnyInto_eq]
  split_ifs with hany
  · exact h
  · rw [List.nodup_append]
    refine ⟨h, List.nodup_singleton _, fun x hx y hy hxy ↦ hany ?_⟩
    rwa [← List.mem_singleton.mp hy, ← hxy]

theorem lookup_eq_leaves (t : TrieRoot) (buf : List PolicyNode) (subjects resources : List String)
    (action : String) :
    t.lookupPoliciesInto hash buf subjects resources action =
      buf ++ t.globalPolicies ++ (ensureAnyInto subjects).flatMap fun s ↦
        (ensureAnyInto resources).flatMap fun r ↦ t.leaf hash s r action ++
          if hash action = hash "any" then [] else t.leaf hash s r "any" := by
  unfold TrieRoot.lookupPoliciesInto TrieRoot.leaf
  congr 1
  refine List.flatMap_congr fun s _ ↦ ?_
  cases findSubjectNode (t.subjects (hash s)) s with
  | none => simp
  | some subNode =>
    refine List.flatMap_congr fun r _ ↦ ?_
    dsimp only
    cases findResourceNode (subNode.resources (hash r)) r with
    | none => simp
    | some => rfl

theorem tryAction_add (policy : PolicyNode) (node : ResourceNode) (a : String) :
    (node.add hash policy).tryAction hash a = node.tryAction hash a ++
      if a = buildKey policy.action then [policy] else [] := by
  simp only [ResourceNode.tryAction, ResourceNode.add, findActionNode]
  rw [Buckets.find_modify (by rfl) (fun _ ↦ by rfl)]
  by_cases h : a = buildKey policy.action
  · rw [if_pos h, if_pos h, ← h]
    cases Buckets.find ActionNode.key a (node.actions (hash a)) <;> rfl
  · rw [if_neg h, if_neg h, List.append_nil]

theorem leaf_addPolicy (t : TrieRoot) (policy : PolicyNode) (s r a : String) :
    (t.addPolicy hash (some policy)).leaf hash s r a = t.leaf hash s r a ++
      if isGlobal policy = false ∧ s = buildKey policy.principal ∧ r = buildKey policy.resource ∧
        a = buildKey policy.action then [policy] else [] := by
  cases hglobal : isGlobal policy with
  | true => simp [TrieRoot.addPolicy, hglobal, TrieRoot.leaf]
  | false =>
    simp only [TrieRoot.addPolicy, hglobal, TrieRoot.leaf, findSubjectNode, findResourceNode,
      Bool.false_eq_true, if_false, true_and]
    rw [Buckets.find_modify (by rfl) (fun _ ↦ by rfl)]
    by_cases hs : s = buildKey policy.principal
    · rw [if_pos hs, ← hs]
      simp only [SubjectNode.add, true_and]
      rw [Buckets.find_modify (by rfl) (fun _ ↦ by rfl)]
      by_cases hr : r = buildKey policy.resource
      · rw [if_pos hr, ← hr]
        simp only [tryAction_add, true_and]
        cases Buckets.find SubjectNode.key s (t.subjects (hash s)) with
        | none => simp [ResourceNode.tryAction, findActionNode]
        | some subNode =>
          dsimp only [Option.getD_some]
          cases Buckets.find ResourceNode.key r (subNode.resources (hash r)) with
          | none => simp [ResourceNode.tryAction, findActionNode]
          | some => rfl
      · rw [if_neg hr]
        simp only [hr, false_and, if_false, List.append_nil]
        cases Buckets.find SubjectNode.key s (t.subjects (hash s)) <;> simp
    · rw [if_neg hs]
      simp only [hs, false_and, if_false, List.append_nil]

theorem globalPolicies_addPolicy (t : TrieRoot) (policy : PolicyNode) :
    (t.addPolicy hash (some policy)).globalPolicies =
      t.globalPolicies ++ if isGlobal policy then [policy] else [] := by
  cases h : isGlobal policy <;> simp [TrieRoot.addPolicy, h]

def keyedBy (s r a : String) (policy : PolicyNode) : Bool :=
  !isGlobal policy && s == buildKey policy.principal && r == buildKey policy.resource &&
    a == buildKey policy.action

theorem addPolicies_contents (hash : String → UInt64) (t : TrieRoot)
    (policies : List (Option PolicyNode)) :
    (t.addPolicies hash policies).globalPolicies =
        t.globalPolicies ++ policies.reduceOption.filter isGlobal ∧
      ∀ s r a, (t.addPolicies hash policies).leaf hash s r a =
        t.leaf hash s r a ++ policies.reduceOption.filter (keyedBy s r a) := by
  induction policies generalizing t with
  | nil => simp [TrieRoot.addPolicies]
  | cons policy _ ih =>
    cases policy with
    | none =>
      rw [List.reduceOption_cons_of_none]
      exact ih t
    | some policy =>
      obtain ⟨hglobal, hleaf⟩ := ih (t.addPolicy hash (some policy))
      simp only [TrieRoot.addPolicies, List.foldl_cons] at hglobal hleaf ⊢
      rw [hglobal, globalPolicies_addPolicy, List.reduceOption_cons_of_some]
      refine ⟨?_, fun s r a ↦ ?_⟩
      · rw [List.filter_cons]
        split_ifs <;> simp
      · rw [hleaf, leaf_addPolicy, List.filter_cons]
        simp only [keyedBy, Bool.and_eq_true, Bool.not_eq_true', beq_iff_eq, and_assoc]
        split_ifs <;> simp

end PolicyEngine.Engine

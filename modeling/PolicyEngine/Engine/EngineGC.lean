import PolicyEngine.Engine.Decision

namespace PolicyEngine.Engine

open PolicyEngine.Go PolicyEngine.Parser

inductive CtxError
  | canceled
  | deadlineExceeded
deriving DecidableEq, Repr

def CtxError.text : CtxError → String
  | .canceled => "context canceled"
  | .deadlineExceeded => "context deadline exceeded"

/-- The engine with the tries in memory and the loader of those that are not:
what it installs for a tenant, if it succeeds. -/
structure EngineWithGC where
  tenants : Map TrieRoot
  lazyLoader : Option (String → Option TrieRoot) := none

namespace EngineWithGC

def getTenantTrie (e : EngineWithGC) (tenantId : String) : Option TrieRoot × EngineWithGC :=
  match e.tenants.lookup tenantId with
  | some trie => (some trie, e)
  | none =>
    match e.lazyLoader.bind (· tenantId) with
    | some trie => (some trie, { e with tenants := e.tenants.insert tenantId trie })
    | none => (none, e)

variable (hash : String → UInt64)

def checkPermission (e : EngineWithGC) (ctxErr : Option CtxError)
    (tenantId subject action resource : String) (ctxMap : Map String) :
    DecisionResult × EngineWithGC :=
  match ctxErr with
  | some err =>
    ({ decision := .deny, reason := "Yêu cầu bị hủy hoặc hết thời gian chờ: " ++ err.text }, e)
  | none =>
    match e.getTenantTrie tenantId with
    | (none, e) =>
      ({ decision := .deny, reason := "Tenant không tồn tại hoặc chưa được nạp chính sách" }, e)
    | (some trie, e) =>
      ({ Engine.checkPermission hash none (some trie) subject action resource ctxMap with
        policyRevision := trie.revision }, e)

variable {hash} {e : EngineWithGC} {tenantId subject action resource : String}

theorem checkPermission_congr {c c' : Map String}
    (h : ∀ trie, ∀ scope field,
      (evalContext trie subject action resource c).attributeText scope field =
        (evalContext trie subject action resource c').attributeText scope field) :
    e.checkPermission hash none tenantId subject action resource c =
      e.checkPermission hash none tenantId subject action resource c' := by
  have hsat (trie : TrieRoot) (p : PolicyNode) :
      isConditionSatisfied (evalContext trie subject action resource c) p =
        isConditionSatisfied (evalContext trie subject action resource c') p := by
    have hmem : memberOf (evalContext trie subject action resource c).roleDag =
        memberOf (evalContext trie subject action resource c').roleDag := rfl
    have heval : evaluate (evalContext trie subject action resource c) p.condition =
        evaluate (evalContext trie subject action resource c') p.condition := by
      refine evaluate_congr hmem fun v _ ↦ ?_
      funext t
      simp only [EvalContext.getAttribute, h trie]
      rfl
    simp only [isConditionSatisfied, heval]
  unfold checkPermission
  dsimp only
  split
  · rfl
  · simp only [Engine.checkPermission, evaluatePermission, scanPolicies_congr fun p _ ↦ hsat _ p]

def ofGlobalPolicy (tenantId : String) (revision : UInt64) (policy : PolicyNode) :
    EngineWithGC where
  tenants := Map.ofList
    [(tenantId, { newTrieRoot tenantId with revision := revision, globalPolicies := [policy] })]

theorem lookup_ofGlobalPolicy (tenantId : String) (revision : UInt64) (policy : PolicyNode) :
    (ofGlobalPolicy tenantId revision policy).tenants.lookup tenantId =
      some { newTrieRoot tenantId with revision := revision, globalPolicies := [policy] } :=
  AList.lookup_insert _

theorem policyRevision_ofGlobalPolicy {revision : UInt64} {policy : PolicyNode} (c : Map String) :
    ((ofGlobalPolicy tenantId revision policy).checkPermission hash none tenantId subject action
      resource c).1.policyRevision = revision := by
  simp only [checkPermission, getTenantTrie, lookup_ofGlobalPolicy]

theorem ofGlobalPolicy_allow_iff {revision : UInt64} {policy : PolicyNode} (c : Map String)
    (hpermit : policy.effect = .permit) :
    ((ofGlobalPolicy tenantId revision policy).checkPermission hash none tenantId subject action
        resource c).1.decision = .allow ↔
      isConditionSatisfied (evalContext (newTrieRoot tenantId) subject action resource c) policy =
        true := by
  have hmatched : matchedPolicies hash
      { newTrieRoot tenantId with revision := revision, globalPolicies := [policy] }
      subject action resource = [policy] := by
    simp [matchedPolicies, TrieRoot.lookupPoliciesInto, newTrieRoot, findSubjectNode]
  simp only [checkPermission, getTenantTrie, lookup_ofGlobalPolicy, Engine.checkPermission]
  rw [evaluatePermission_allow_iff, hmatched]
  simp [satisfiedPermit, satisfiedForbid, hpermit]
  rfl

end EngineWithGC

end PolicyEngine.Engine

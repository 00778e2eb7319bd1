import PolicyEngine.Engine.Evaluator
import PolicyEngine.Engine.TrieLookup

namespace PolicyEngine.Engine

open PolicyEngine.Go PolicyEngine.Parser

inductive Decision
  | deny
  | allow
deriving DecidableEq, Repr

structure DecisionResult where
  policyRevision : UInt64 := 0
  decision : Decision
  reason : String
  explanations : List String := []
  obligations : List ObligationNode := []
deriving DecidableEq

def reasonDenyCanceled : String := "Yêu cầu bị hủy hoặc hết thời gian chờ"

def reasonDenyTenantNotFound : String := "Không tìm thấy tập chính sách cho Tenant"

def reasonDenyNoMatch : String := "Không có chính sách nào khớp với phạm vi yêu cầu"

def reasonDenyForbid : String := "Yêu cầu bị từ chối bởi luật cấm tường minh"

def reasonAllowPermit : String := "Yêu cầu được chấp thuận bởi luật cho phép"

def reasonDenyDefault : String := "Không tìm thấy luật cho phép nào thỏa mãn điều kiện"

def normalizeAction (act : String) : String :=
  if Text.hasPrefix act "action:" then act else "action:" ++ act

def isConditionSatisfied (ctx : EvalContext) (policy : PolicyNode) : Bool :=
  match evaluate ctx policy.condition with
  | .ok (.bool b) => if policy.isUnless then !b else b
  | _ => false

def satisfiedPermit (ctx : EvalContext) (policy : PolicyNode) : Bool :=
  isConditionSatisfied ctx policy && decide (policy.effect = .permit)

def satisfiedForbid (ctx : EvalContext) (policy : PolicyNode) : Bool :=
  isConditionSatisfied ctx policy && decide (policy.effect = .forbid)

/-- The policies the loop stops with: the forbid it broke off at, and the
permit it met first. -/
structure Deciding where
  firstForbidPolicy : Option PolicyNode := none
  firstPermitPolicy : Option PolicyNode := none

def scanPolicies (ctx : EvalContext) : List PolicyNode → Option PolicyNode → Deciding
  | [], permit => ⟨none, permit⟩
  | policy :: rest, permit =>
    if isConditionSatisfied ctx policy then
      match policy.effect with
      | .forbid => ⟨some policy, permit⟩
      | .permit => scanPolicies ctx rest (some (permit.getD policy))
    else scanPolicies ctx rest permit

def explain (policy : PolicyNode) : List String :=
  if policy.explanationList = [] then [policy.id] else policy.explanationList

def synthesize : Deciding → DecisionResult
  | ⟨some forbid, _⟩ =>
    { decision := .deny, reason := reasonDenyForbid, explanations := explain forbid,
      obligations := forbid.obligations }
  | ⟨none, some permit⟩ =>
    { decision := .allow, reason := reasonAllowPermit, explanations := explain permit,
      obligations := permit.obligations }
  | ⟨none, none⟩ => { decision := .deny, reason := reasonDenyDefault }

variable (hash : String → UInt64)

def matchedPolicies (trie : TrieRoot) (subject action resource : String) : List PolicyNode :=
  trie.lookupPoliciesInto hash [] (RoleDag.getInheritedRolesInto trie.roleDag subject) [resource]
    (normalizeAction action)

def evalContext (trie : TrieRoot) (subject action resource : String) (context : Map String) :
    EvalContext :=
  ⟨subject, action, resource, context, trie.roleDag⟩

def evaluatePermission (trie : TrieRoot) (subject action resource : String)
    (context : Map String) : DecisionResult :=
  let matched := matchedPolicies hash trie subject action resource
  if matched = [] then { decision := .deny, reason := reasonDenyNoMatch }
  else synthesize (scanPolicies (evalContext trie subject action resource context) matched none)

/-- The package-level `CheckPermission`; `ctxErr` is the error of the Go
context, if it is done. -/
def checkPermission (ctxErr : Option String) (trie : Option TrieRoot)
    (subject action resource : String) (context : Map String) : DecisionResult :=
  match ctxErr, trie with
  | some _, _ => { decision := .deny, reason := reasonDenyCanceled }
  | none, none => { decision := .deny, reason := reasonDenyTenantNotFound }
  | none, some trie => evaluatePermission hash trie subject action resource context

def buildTenantTrie (orders : ℕ → RoleDag.MapOrders) (tenantId : String)
    (policies : List (Option PolicyNode)) (inheritances : List (String × String))
    (revision : UInt64) : Except String TrieRoot :=
  match RoleDag.addInheritances orders RoleDag.newRoleDag inheritances with
  | .error e => .error e
  | .ok g =>
    .ok (TrieRoot.addPolicies hash
      { newTrieRoot tenantId with revision := revision, roleDag := some g } policies)

variable {hash} {ctx : EvalContext}

theorem scanPolicies_some (policies : List PolicyNode) (first : PolicyNode) :
    scanPolicies ctx policies (some first) =
      ⟨policies.find? (satisfiedForbid ctx), some first⟩ := by
  induction policies with
  | nil => rfl
  | cons policy _ ih =>
    rw [List.find?_cons]
    unfold scanPolicies
    cases hs : isConditionSatisfied ctx policy with
    | false => simpa [satisfiedForbid, hs] using ih
    | true =>
      cases he : policy.effect with
      | permit => simpa [satisfiedForbid, hs, he] using ih
      | forbid => simp [satisfiedForbid, hs, he]

theorem scanPolicies_forbid (ctx : EvalContext) (policies : List PolicyNode) :
    (scanPolicies ctx policies none).firstForbidPolicy = policies.find? (satisfiedForbid ctx) := by
  induction policies with
  | nil => rfl
  | cons policy _ ih =>
    rw [List.find?_cons]
    unfold scanPolicies
    cases hs : isConditionSatisfied ctx policy with
    | false => simpa [satisfiedForbid, hs] using ih
    | true =>
      cases he : policy.effect with
      | permit => simp [satisfiedForbid, hs, he, scanPolicies_some]
      | forbid => simp [satisfiedForbid, hs, he]

theorem scanPolicies_permit {policies : List PolicyNode}
    (h : policies.find? (satisfiedForbid ctx) = none) :
    (scanPolicies ctx policies none).firstPermitPolicy = policies.find? (satisfiedPermit ctx) := by
  induction policies with
  | nil => rfl
  | cons policy rest ih =>
    rw [List.find?_cons]
    unfold scanPolicies
    rw [List.find?_cons] at h
    cases hs : isConditionSatisfied ctx policy with
    | false =>
      have hrest : rest.find? (satisfiedForbid ctx) = none := by
        simpa [satisfiedForbid, hs] using h
      simpa [satisfiedPermit, hs] using ih hrest
    | true =>
      cases he : policy.effect with
      | permit => simp [satisfiedPermit, hs, he, scanPolicies_some]
      | forbid => simp [satisfiedForbid, hs, he] at h

theorem scanPolicies_congr {ctx' : EvalContext} {policies : List PolicyNode}
    (h : ∀ p ∈ policies, isConditionSatisfied ctx p = isConditionSatisfied ctx' p)
    (permit : Option PolicyNode) :
    scanPolicies ctx policies permit = scanPolicies ctx' policies permit := by
  induction policies generalizing permit with
  | nil => rfl
  | cons _ _ ih =>
    obtain ⟨hpolicy, hrest⟩ := List.forall_mem_cons.mp h
    simp only [scanPolicies, hpolicy, ih hrest]

theorem synthesize_allow_iff (policies : List PolicyNode) :
    (synthesize (scanPolicies ctx policies none)).decision = .allow ↔
      (∃ p ∈ policies, satisfiedPermit ctx p = true) ∧
        ¬ ∃ p ∈ policies, satisfiedForbid ctx p = true := by
  have hforbid := scanPolicies_forbid ctx policies
  cases hf : policies.find? (satisfiedForbid ctx) with
  | some p =>
    rw [hf] at hforbid
    have hp : ∃ p ∈ policies, satisfiedForbid ctx p = true :=
      ⟨p, List.mem_of_find?_eq_some hf, List.find?_some hf⟩
    rcases hd : scanPolicies ctx policies none with ⟨_, _⟩
    rw [hd] at hforbid
    simp only at hforbid
    simp [synthesize, hforbid, hp]
  | none =>
    rw [hf] at hforbid
    have hpermit := scanPolicies_permit hf
    have hnone : ¬ ∃ p ∈ policies, satisfiedForbid ctx p = true := by
      rintro ⟨p, hp, hs⟩
      exact List.find?_eq_none.mp hf p hp hs
    rcases hd : scanPolicies ctx policies none with ⟨_, _⟩
    rw [hd] at hforbid hpermit
    simp only at hforbid hpermit
    rw [hforbid, hpermit]
    cases hp : policies.find? (satisfiedPermit ctx) with
    | some p =>
      have hex : ∃ p ∈ policies, satisfiedPermit ctx p = true :=
        ⟨p, List.mem_of_find?_eq_some hp, List.find?_some hp⟩
      simp only [synthesize, true_iff]
      exact ⟨hex, hnone⟩
    | none =>
      simp only [synthesize, reduceCtorEq, false_iff]
      rintro ⟨⟨p, hmem, hs⟩, _⟩
      exact List.find?_eq_none.mp hp p hmem hs

theorem synthesize_obligations {policies : List PolicyNode}
    (h : (synthesize (scanPolicies ctx policies none)).decision = .allow) :
    ∃ p ∈ policies, satisfiedPermit ctx p = true ∧
      (synthesize (scanPolicies ctx policies none)).obligations = p.obligations := by
  have hnone : policies.find? (satisfiedForbid ctx) = none := by
    rw [List.find?_eq_none]
    exact fun p hp hs ↦ ((synthesize_allow_iff policies).mp h).2 ⟨p, hp, hs⟩
  have hforbid := scanPolicies_forbid ctx policies
  have hpermit := scanPolicies_permit hnone
  rw [hnone] at hforbid
  rcases hd : scanPolicies ctx policies none with ⟨_, _⟩
  rw [hd] at h hforbid hpermit
  simp only at hforbid hpermit
  subst hforbid hpermit
  cases hp : policies.find? (satisfiedPermit ctx) with
  | none => simp [hp, synthesize] at h
  | some p => exact ⟨p, List.mem_of_find?_eq_some hp, List.find?_some hp, rfl⟩

variable (hash)

theorem evaluatePermission_allow_iff (trie : TrieRoot) (subject action resource : String)
    (context : Map String) :
    (evaluatePermission hash trie subject action resource context).decision = .allow ↔
      (∃ p ∈ matchedPolicies hash trie subject action resource,
          satisfiedPermit (evalContext trie subject action resource context) p = true) ∧
        ¬ ∃ p ∈ matchedPolicies hash trie subject action resource,
          satisfiedForbid (evalContext trie subject action resource context) p = true := by
  unfold evaluatePermission
  dsimp only
  by_cases hm : matchedPolicies hash trie subject action resource = []
  · simp [hm]
  · rw [if_neg hm, synthesize_allow_iff]

theorem evaluatePermission_obligations {trie : TrieRoot} {subject action resource : String}
    {context : Map String}
    (h : (evaluatePermission hash trie subject action resource context).decision = .allow) :
    ∃ p ∈ matchedPolicies hash trie subject action resource,
      satisfiedPermit (evalContext trie subject action resource context) p = true ∧
        (evaluatePermission hash trie subject action resource context).obligations =
          p.obligations := by
  unfold evaluatePermission at h ⊢
  dsimp only at h ⊢
  by_cases hm : matchedPolicies hash trie subject action resource = []
  · simp [hm] at h
  · rw [if_neg hm] at h ⊢
    exact synthesize_obligations h

end PolicyEngine.Engine

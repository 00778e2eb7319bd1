import PolicyEngine.Engine.Sync
import PolicyEngine.Server.Endpoints

namespace PolicyEngine.Server

open Function PolicyEngine.Go PolicyEngine.Go.Result PolicyEngine.Parser PolicyEngine.Engine
open PolicyEngine.Trace

structure ExplainRequest where
  tenantId : String
  action : String
  resource : String
  context : Map String

structure PolicyMetadata where
  policyId : String
  effect : String
  policyText : String
deriving DecidableEq

structure ExplainResponse where
  decision : Decision
  finalReason : String
  matched : List PolicyMetadata
deriving DecidableEq

def ExplainResponse.Explained (r : ExplainResponse) : Prop :=
  r.decision = .allow ↔
    (∃ m ∈ r.matched, m.effect = "permit") ∧ ¬ ∃ m ∈ r.matched, m.effect = "forbid"

def conditionMatched (ctx : EvalContext) (policy : PolicyNode) : Bool :=
  match evaluate ctx policy.condition with
  | .ok (.bool boolVal) => if policy.isUnless then !boolVal else boolVal
  | _ => false

def policyMetadata (policy : PolicyNode) : PolicyMetadata :=
  let effect := if policy.effect = .forbid then "forbid" else "permit"
  ⟨policy.id, effect, policy.id ++ ": " ++ effect ++ "(...) when \x7b ... \x7d;"⟩

section Matched

variable (hash : String → UInt64)

def lookupPolicies (trie : TrieRoot) (subjects resources : List String) (action : String) :
    List PolicyNode :=
  trie.lookupPoliciesInto hash [] subjects resources action

def matchedMetadata (trie : TrieRoot) (subject action resource : String) (context : Map String) :
    List PolicyMetadata :=
  let subjects := RoleDag.getInheritedRoles trie.roleDag subject
  let actKey := if Text.hasPrefix action "action:" then action else "action:" ++ action
  let evalCtx := evalContext trie subject action resource context
  ((lookupPolicies hash trie subjects [resource] actKey).filter (conditionMatched evalCtx)).map
    policyMetadata

variable {hash} {trie : TrieRoot} {subject action resource : String} {context : Map String}

theorem mem_matchedMetadata {m : PolicyMetadata} :
    m ∈ matchedMetadata hash trie subject action resource context ↔
      ∃ p ∈ matchedPolicies hash trie subject action resource,
        isConditionSatisfied (evalContext trie subject action resource context) p = true ∧
          policyMetadata p = m := by
  simp only [matchedMetadata, List.mem_map, List.mem_filter, and_assoc]
  rfl

theorem exists_effect_iff (effect : Effect) {name : String}
    (heffect : ∀ p : PolicyNode, (policyMetadata p).effect = name ↔ p.effect = effect) :
    (∃ m ∈ matchedMetadata hash trie subject action resource context, m.effect = name) ↔
      ∃ p ∈ matchedPolicies hash trie subject action resource,
        (isConditionSatisfied (evalContext trie subject action resource context) p &&
          p.effect = effect) = true := by
  simp only [mem_matchedMetadata, Bool.and_eq_true, decide_eq_true_iff, ← heffect]
  constructor
  · rintro ⟨_, ⟨p, hp, hsat, rfl⟩, hm⟩
    exact ⟨p, hp, hsat, hm⟩
  · rintro ⟨p, hp, hsat, hm⟩
    exact ⟨_, ⟨p, hp, hsat, rfl⟩, hm⟩

theorem checkPermission_allow_iff :
    (Engine.checkPermission hash none (some trie) subject action resource context).decision =
        .allow ↔
      (∃ m ∈ matchedMetadata hash trie subject action resource context, m.effect = "permit") ∧
        ¬ ∃ m ∈ matchedMetadata hash trie subject action resource context, m.effect = "forbid" := by
  have hname : ∀ p : PolicyNode, ((policyMetadata p).effect = "permit" ↔ p.effect = .permit) ∧
      ((policyMetadata p).effect = "forbid" ↔ p.effect = .forbid) := by
    intro p
    unfold policyMetadata
    cases p.effect <;> simp
  rw [exists_effect_iff .permit fun p ↦ (hname p).1, exists_effect_iff .forbid fun p ↦ (hname p).2]
  exact evaluatePermission_allow_iff hash trie subject action resource context

end Matched

variable (hash : String → UInt64)

/-- What a call knows after `CheckPermission`: the trie it found in memory, and
the result, which is that trie's unless the request's context was done. -/
structure Explanation where
  subject : String
  req : ExplainRequest
  context : Map String
  ctxErr : Option CtxError
  snapshot : Option TrieRoot
  result : DecisionResult
  decided : ctxErr = none → (result.decision = .allow ↔ ∃ trie, snapshot = some trie ∧
    (Engine.checkPermission hash none (some trie) subject req.action req.resource
      context).decision = .allow)

def evaluateExplain (state : EngineState) (ctxErr : Option CtxError) (subject : String)
    (req : ExplainRequest) (trustedContext : Map String) : Explanation hash where
  subject := subject
  req := req
  context := trustedContext
  ctxErr := ctxErr
  snapshot := state.tenants.lookup req.tenantId
  result := ((⟨state.tenants, none⟩ : EngineWithGC).checkPermission hash ctxErr req.tenantId subject
    req.action req.resource trustedContext).1
  decided := by
    rintro rfl
    simp only [EngineWithGC.checkPermission, EngineWithGC.getTenantTrie]
    cases state.tenants.lookup req.tenantId <;> simp

variable {hash}

/-- From the return of `CheckPermission` on, with what `GetTenantTrie` finds. -/
def explainEvaluated (e : Explanation hash) : Option TrieRoot → ExplainResponse
  | none => ⟨.deny, "Không tìm thấy tập chính sách cho Tenant", []⟩
  | some trie => ⟨if e.result.decision = .allow then .allow else .deny, e.result.reason,
      matchedMetadata hash trie e.subject e.req.action e.req.resource e.context⟩

theorem explained_of_snapshot {e : Explanation hash} (hctx : e.ctxErr = none)
    {found : Option TrieRoot} (hfound : ∀ trie, found = some trie → e.snapshot = some trie) :
    (explainEvaluated e found).Explained := by
  cases found with
  | none => simp [explainEvaluated, ExplainResponse.Explained]
  | some trie =>
    have hsnapshot := hfound trie rfl
    have hdecision : (explainEvaluated e (some trie)).decision = .allow ↔
        e.result.decision = .allow := by
      simp only [explainEvaluated]
      split_ifs <;> simp_all
    rw [ExplainResponse.Explained, hdecision, e.decided hctx, hsnapshot]
    simp only [Option.some.injEq, exists_eq_left']
    exact checkPermission_allow_iff

inductive Explaining (hash : String → UInt64)
  | idle
  | refused (status : Status)
  | decided (e : Explanation hash)
  | answered (response : ExplainResponse)

def Explaining.response : Explaining hash → Option ExplainResponse
  | .answered response => some response
  | _ => none

theorem Explaining.response_eq_some {call : Explaining hash} {r : ExplainResponse} :
    call.response = some r ↔ call = .answered r := by
  cases call <;> simp [Explaining.response]

variable (hash) in
structure Explainer (ι κ : Type) where
  replica : Replica ι
  calls : κ → Explaining hash

inductive ExplainerEvent (ι κ : Type)
  | engine (e : Event ι)
  | decide (call : κ) (o : RangeOrder) (ctxErr : Option CtxError)
      (identity : AuthenticatedIdentity) (req : ExplainRequest)
  | explain (call : κ)

namespace Explainer

variable {ι κ : Type} [DecidableEq ι] [DecidableEq κ]

def goto (w : Explainer hash ι κ) (call : κ) (phase : Explaining hash) : Explainer hash ι κ :=
  { w with calls := update w.calls call phase }

section Step

variable (compilePolicySet : List PolicySource → Except String (List PolicyNode))

def step (w : Explainer hash ι κ) : ExplainerEvent ι κ → Option (Explainer hash ι κ)
  | .engine e =>
    (w.replica.step hash compilePolicySet e).map fun replica ↦ { w with replica := replica }
  | .decide call o ctxErr identity req =>
    match w.calls call with
    | .idle =>
      match validateTenantAndGetClaims identity req.tenantId with
      | .error status => some (w.goto call (.refused status))
      | .ok _ =>
        let trustedContext :=
          mergeTrustedPrincipalContext o req.context identity.principalAttributes
        some (w.goto call (.decided
          (evaluateExplain hash w.replica.state ctxErr identity.subject req trustedContext)))
    | _ => none
  | .explain call =>
    match w.calls call with
    | .decided e =>
      some (w.goto call
        (.answered (explainEvaluated e (w.replica.state.tenants.lookup e.req.tenantId))))
    | _ => none

end Step

def ExplainsDecisions (w : Explainer hash ι κ) : Prop :=
  ∀ call response, w.calls call = .answered response → response.Explained

/-- The context of a call is not done when it decides, and no trie is published
while a call for its tenant is between its two readings. -/
def Undisturbed (w : Explainer hash ι κ) : ExplainerEvent ι κ → Prop
  | .engine (.publish loader _) => ∀ u, w.replica.loading loader = .holding u →
      ∀ call e, w.calls call = .decided e → e.req.tenantId ≠ u.tenantId
  | .decide _ _ ctxErr _ _ => ctxErr = none
  | _ => True

structure Ok (w : Explainer hash ι κ) : Prop where
  explained : w.ExplainsDecisions
  undone : ∀ call e, w.calls call = .decided e → e.ctxErr = none
  current : ∀ call e trie, w.calls call = .decided e →
    w.replica.state.tenants.lookup e.req.tenantId = some trie → e.snapshot = some trie

variable {compilePolicySet : List PolicySource → Except String (List PolicyNode)}
  {w w' : Explainer hash ι κ}

omit [DecidableEq ι] in
theorem Ok.goto (h : w.Ok) {call : κ} {phase : Explaining hash}
    (hanswer : ∀ response, phase = .answered response → response.Explained)
    (hdecided : ∀ e, phase = .decided e → e.ctxErr = none ∧
      e.snapshot = w.replica.state.tenants.lookup e.req.tenantId) : (w.goto call phase).Ok where
  explained := by
    intro k response hk
    rcases eq_or_of_update hk with hk | hk
    · exact hanswer response hk
    · exact h.explained k response hk
  undone := by
    intro k e hk
    rcases eq_or_of_update hk with hk | hk
    · exact (hdecided e hk).1
    · exact h.undone k e hk
  current := by
    intro k e trie hk htrie
    rcases eq_or_of_update hk with hk | hk
    · exact (hdecided e hk).2.trans htrie
    · exact h.current k e trie hk htrie

theorem Ok.step (h : w.Ok) {event : ExplainerEvent ι κ} (hcond : w.Undisturbed event)
    (hstep : w.step compilePolicySet event = some w') : w'.Ok := by
  cases event with
  | engine event =>
    obtain ⟨_, hreplica, rfl⟩ := Option.map_eq_some_iff.mp hstep
    refine ⟨h.explained, h.undone, ?_⟩
    intro call e trie hcall htrie
    have hpublish : ∀ loader orders u, event = .publish loader orders →
        w.replica.loading loader = .holding u → e.req.tenantId ≠ u.tenantId := by
      rintro _ _ u rfl hu
      exact hcond u hu call e hcall
    rcases Replica.lookup_step hreplica hpublish with hsame | ⟨-, hgone⟩
    · exact h.current call e trie hcall (hsame.symm.trans htrie)
    · -- An unloaded tenant is not found at all.
      exact absurd (hgone.symm.trans htrie) (by simp)
  | decide =>
    simp only [Explainer.step] at hstep
    split at hstep
    · split at hstep <;> cases hstep
      · exact h.goto (by simp) (by simp)
      · refine h.goto (by simp) ?_
        intro _ he
        cases he
        exact ⟨hcond, rfl⟩
    · cases hstep
  | explain call =>
    simp only [Explainer.step] at hstep
    split at hstep <;> cases hstep
    rename_i e hcall
    refine h.goto ?_ (by simp)
    intro _ hresponse
    cases hresponse
    exact explained_of_snapshot (h.undone call e hcall) fun trie ↦ h.current call e trie hcall

/-- In every interleaving in which no trie of the tenant is published between
the two readings of a call whose context is not done. -/
theorem explanation_matches_decision
    (compilePolicySet : List PolicySource → Except String (List PolicyNode))
    (w : Explainer hash ι κ) (hw : ∀ call, w.calls call = .idle)
    (schedule : List (ExplainerEvent ι κ))
    (h : Meets (step compilePolicySet) Undisturbed w schedule) :
    Always (step compilePolicySet) ExplainsDecisions w schedule := by
  refine always_of_invariant (fun _ _ _ h hcond hstep ↦ h.step hcond hstep)
    (fun _ h ↦ Ok.explained h) ?_ h
  constructor
  · intro call _ hcall
    rw [hw call] at hcall
    cases hcall
  · intro call e hcall
    rw [hw call] at hcall
    cases hcall
  · intro call _ _ hcall
    rw [hw call] at hcall
    cases hcall

def updatingExplainer : Explainer (fun _ ↦ 0) Unit Unit where
  replica := {
    db := Map.ofList [("t1", ⟨[], [], 4⟩)]
    state := ⟨Map.ofList [("t1", { newTrieRoot "t1" with
      revision := 3, globalPolicies := [{ id := "p1", effect := .permit }] })]⟩
    loading := fun _ ↦ .holding ⟨"t1", [], [], 4⟩
    served := [] }
  calls _ := .idle

def decideForAlice : ExplainerEvent Unit Unit :=
  .decide () .listed none ⟨"t1", "user:alice", ∅⟩ ⟨"t1", "read", "doc:1", ∅⟩

theorem explanation_matches_decision_alice :
    ((run (step (fun _ ↦ .ok [])) updatingExplainer [decideForAlice, .explain ()]).bind
        fun w ↦ (w.calls ()).response).map (fun r ↦ (r.decision, r.matched)) =
      some (.allow, [⟨"p1", "permit", "p1: permit(...) when \x7b ... \x7d;"⟩]) ∧
    Always (step (fun _ ↦ .ok [])) ExplainsDecisions updatingExplainer
      [decideForAlice, .explain ()] := by
  refine ⟨by rfl, explanation_matches_decision _ updatingExplainer (fun _ ↦ rfl) _ ?_⟩
  exact ⟨rfl, fun _ _ ↦ ⟨trivial, fun _ _ ↦ trivial⟩⟩

/-- The update is published between the two readings. -/
theorem allowed_without_matched_policy : ∃ w,
    run (step (fun _ ↦ .ok [])) updatingExplainer
        [decideForAlice, .engine (.publish () fun _ ↦ .uniform .listed), .explain ()] = some w ∧
      ((w.calls ()).response.map fun r ↦ (r.decision, r.matched)) = some (.allow, []) ∧
      ¬ w.ExplainsDecisions := by
  have hrun : (run (step (fun _ ↦ .ok [])) updatingExplainer
      [decideForAlice, .engine (.publish () fun _ ↦ .uniform .listed), .explain ()]).bind
        (fun w ↦ (w.calls ()).response.map fun r ↦ (r.decision, r.matched)) =
          some (.allow, []) := by rfl
  obtain ⟨w, hw, hanswer⟩ := Option.bind_eq_some_iff.mp hrun
  refine ⟨w, hw, hanswer, ?_⟩
  intro h
  obtain ⟨response, hresponse, heq⟩ := Option.map_eq_some_iff.mp hanswer
  obtain ⟨hdecision, hmatched⟩ := Prod.mk.inj heq
  have hexplained := h () response (Explaining.response_eq_some.mp hresponse)
  obtain ⟨⟨_, hm, -⟩, -⟩ := hexplained.mp hdecision
  rw [hmatched] at hm
  cases hm

end Explainer

end PolicyEngine.Server

import PolicyEngine.Engine.Sync
import PolicyEngine.Security.Signatures
import PolicyEngine.Server.Endpoints

namespace PolicyEngine.Server

open Function PolicyEngine.Go PolicyEngine.Go.Result PolicyEngine.Parser PolicyEngine.Engine
open PolicyEngine.Security PolicyEngine.Trace PolicyEngine.Concurrent

structure IssueApprovalCapabilityRequest where
  tenantId : String
  resource : String
  context : Map String
  approvalId : String
  companyId : Int64
  intentHash : String
  stateWitness : String
  commandId : String
  delegationGrantId : Int64
  delegatorSubject : String
  agentSubject : String
  creatorSubject : String
  approverUserId : Int64
  delegationValidUntil : Int64

def approvalPolicyAction : String := "action:APPROVE_PURCHASE_ORDER"

def approvalContext (req : IssueApprovalCapabilityRequest) (trustedContext : Map String) :
    Map String :=
  let grantId := Strconv.formatInt req.delegationGrantId
  [("approval_id", req.approvalId), ("approval_state", "pending"), ("intent_hash", req.intentHash),
    ("state_witness", req.stateWitness), ("command_id", req.commandId), ("grant_id", grantId),
    ("delegation_grant_id", grantId), ("resource.creator_id", req.creatorSubject)].foldl
    (fun m e ↦ m.insert e.1 e.2) trustedContext

/-- The checks before the policies are asked, with the manager and the context
for what follows. -/
def checkApprovalRequest (s : GRPCServer) (approvalMgr : Option ApprovalCapabilityManager)
    (now : ℤ) (o : RangeOrder) (identity : AuthenticatedIdentity)
    (req : IssueApprovalCapabilityRequest) :
    Except Status (ApprovalCapabilityManager × Map String) :=
  match approvalMgr with
  | none => .error ⟨.failedPrecondition, "approval authority is not configured"⟩
  | some approvalMgr => do
    validateTenantAndGetClaims identity req.tenantId
    let approverSubject := identity.subject
    let trustedContext := mergeTrustedPrincipalContext o req.context identity.principalAttributes
    rejectIf (Text.hasPrefix approverSubject "user:" = false ∨ approverSubject = req.agentSubject ∨
        approverSubject = req.creatorSubject ∨ approverSubject = req.delegatorSubject)
      ⟨.permissionDenied, "approval identity violates separation of duties"⟩
    rejectIf (trustedContext.get "" "principal.company_id" ≠ Strconv.formatInt req.companyId)
      ⟨.permissionDenied, "approver company does not match signed identity"⟩
    rejectIf (Text.hasPrefix req.resource "purchase_order:" = false ∨ req.delegationGrantId ≤ 0)
      ⟨.invalidArgument, "invalid approval resource or delegation grant"⟩
    rejectIf (s.delegationMgr.isNone = true ∨ s.revocationPending = true)
      ⟨.unavailable, "revocation state is not ready"⟩
    rejectIf (s.grantRevoked now req.tenantId (Strconv.formatInt req.delegationGrantId) = true)
      ⟨.permissionDenied, "delegation grant is revoked"⟩
    return (approvalMgr, approvalContext req trustedContext)

variable (hash : String → UInt64)

/-- What a call knows after `CheckPermission`: the trie it found in memory, and
the result, which is an `ALLOW` only if the trie gives one. -/
structure Evaluation where
  approvalMgr : ApprovalCapabilityManager
  identity : AuthenticatedIdentity
  req : IssueApprovalCapabilityRequest
  context : Map String
  snapshot : Option TrieRoot
  result : DecisionResult
  allowed : result.decision = .allow → ∃ trie, snapshot = some trie ∧
    (Engine.checkPermission hash none (some trie) identity.subject approvalPolicyAction req.resource
      context).decision = .allow

def evaluateApproval (state : EngineState) (ctxErr : Option CtxError)
    (approvalMgr : ApprovalCapabilityManager) (identity : AuthenticatedIdentity)
    (req : IssueApprovalCapabilityRequest) (context : Map String) : Evaluation hash where
  approvalMgr := approvalMgr
  identity := identity
  req := req
  context := context
  snapshot := state.tenants.lookup req.tenantId
  result := ((⟨state.tenants, none⟩ : EngineWithGC).checkPermission hash ctxErr req.tenantId
    identity.subject approvalPolicyAction req.resource context).1
  allowed := by
    intro h
    cases ctxErr with
    | some => cases h
    | none =>
      simp only [EngineWithGC.checkPermission, EngineWithGC.getTenantTrie] at h
      cases htrie : state.tenants.lookup req.tenantId with
      | none => simp [htrie] at h
      | some trie =>
        refine ⟨trie, rfl, ?_⟩
        simpa [htrie] using h

variable {hash} in
/-- From the return of `CheckPermission` on. The revision is read from the state
of this moment. -/
def issueEvaluated (prim : Primitives) (state : EngineState) (ctxErr : Option CtxError) (now : ℤ)
    (random : Except String (List UInt8)) (e : Evaluation hash) :
    Except Status (ApprovalCapability × ApprovalCapabilityEnvelope) := do
  ctxStatus ctxErr
  rejectIf (e.result.decision ≠ .allow ∨ e.result.obligations ≠ [])
    ⟨.permissionDenied, "current policy denied approval capability issuance"⟩
  let revision := state.revision e.req.tenantId
  rejectIf (revision.toNat > 2 ^ 63 - 1)
    ⟨.internal, "policy revision exceeds approval capability range"⟩
  match e.approvalMgr.issue prim now random
    { capabilityVersion := ""
      purpose := ""
      approvalId := e.req.approvalId
      tenantId := e.req.tenantId
      companyId := e.req.companyId
      intentHash := e.req.intentHash
      stateWitness := e.req.stateWitness
      commandId := e.req.commandId
      delegationGrantId := e.req.delegationGrantId
      delegatorSubject := e.req.delegatorSubject
      agentSubject := e.req.agentSubject
      creatorSubject := e.req.creatorSubject
      approverUserId := e.req.approverUserId
      approverSubject := e.identity.subject
      requiredPermission := ""
      issuancePolicyRevision := Int64.ofNat revision.toNat
      issuedAt := 0
      expiresAt := 0
      oneTimeId := "" } e.req.delegationValidUntil with
  | .error err => .error ⟨.invalidArgument, "invalid approval capability binding: " ++ err⟩
  | .ok issued => .ok issued

variable {hash} in
theorem issueEvaluated_eq_ok {prim : Primitives} {state : EngineState} {ctxErr : Option CtxError}
    {now : ℤ} {random : Except String (List UInt8)} {e : Evaluation hash}
    {capability : ApprovalCapability} {envelope : ApprovalCapabilityEnvelope}
    (h : issueEvaluated prim state ctxErr now random e = .ok (capability, envelope)) :
    e.result.decision = .allow ∧
      capability.issuancePolicyRevision.toInt = (state.revision e.req.tenantId).toNat := by
  unfold issueEvaluated at h
  simp only [bind_unit_eq_ok, rejectIf_eq_ok, not_or, not_not] at h
  obtain ⟨-, ⟨hallow, -⟩, _, h⟩ := h
  refine ⟨hallow, ?_⟩
  split at h
  · cases h
  · rename_i hissue
    cases h
    obtain ⟨-, -, -, hrevision, -⟩ := ApprovalCapabilityManager.of_issue hissue
    rw [hrevision]
    exact Int64.toInt_ofNat_of_lt (by omega)

inductive Issuing
  | idle
  | refused (status : Status)
  | decided (e : Evaluation hash)
  | answered (e : Evaluation hash)
      (response : Except Status (ApprovalCapability × ApprovalCapabilityEnvelope))

variable {hash} in
def Issuing.revisions : Issuing hash → Option (Option UInt64 × Int64)
  | .answered e (.ok (capability, _)) =>
    some (e.snapshot.map (·.revision), capability.issuancePolicyRevision)
  | _ => none

variable {hash} in
theorem Issuing.exists_of_revisions {call : Issuing hash} {r : Option UInt64 × Int64}
    (h : call.revisions = some r) : ∃ e capability envelope,
      call = .answered e (.ok (capability, envelope)) ∧
        (e.snapshot.map (·.revision), capability.issuancePolicyRevision) = r := by
  unfold Issuing.revisions at h
  split at h
  · rename_i e capability envelope
    exact ⟨e, capability, envelope, rfl, Option.some.inj h⟩
  · cases h

structure Pdp (ι κ : Type) where
  replica : Replica ι
  issuing : κ → Issuing hash

inductive PdpEvent (ι κ : Type)
  | engine (e : Event ι)
  | decide (call : κ) (s : GRPCServer) (now : ℤ) (o : RangeOrder) (ctxErr : Option CtxError)
      (identity : AuthenticatedIdentity) (req : IssueApprovalCapabilityRequest)
  | issue (call : κ) (ctxErr : Option CtxError) (now : ℤ) (random : Except String (List UInt8))

namespace Pdp

variable {hash} {ι κ : Type} [DecidableEq ι] [DecidableEq κ]

def goto (w : Pdp hash ι κ) (call : κ) (phase : Issuing hash) : Pdp hash ι κ :=
  { w with issuing := update w.issuing call phase }

section Step

variable (compilePolicySet : List PolicySource → Except String (List PolicyNode))
  (prim : Primitives) (approvalMgr : Option ApprovalCapabilityManager)

def step (w : Pdp hash ι κ) : PdpEvent ι κ → Option (Pdp hash ι κ)
  | .engine e =>
    (w.replica.step hash compilePolicySet e).map fun replica ↦ { w with replica := replica }
  | .decide call s now o ctxErr identity req =>
    match w.issuing call with
    | .idle =>
      match checkApprovalRequest s approvalMgr now o identity req with
      | .error status => some (w.goto call (.refused status))
      | .ok (mgr, context) =>
        some (w.goto call
          (.decided (evaluateApproval hash w.replica.state ctxErr mgr identity req context)))
    | _ => none
  | .issue call ctxErr now random =>
    match w.issuing call with
    | .decided e =>
      some (w.goto call
        (.answered e (issueEvaluated prim w.replica.state ctxErr now random e)))
    | _ => none

end Step

def RecordsDecision (w : Pdp hash ι κ) : Prop :=
  ∀ call e capability envelope, w.issuing call = .answered e (.ok (capability, envelope)) →
    ∃ trie, e.snapshot = some trie ∧
      (Engine.checkPermission hash none (some trie) e.identity.subject approvalPolicyAction
        e.req.resource e.context).decision = .allow ∧
      capability.issuancePolicyRevision.toInt = trie.revision.toNat

def Undisturbed (w : Pdp hash ι κ) : PdpEvent ι κ → Prop
  | .engine (.publish loader _) => ∀ u, w.replica.loading loader = .holding u →
      ∀ call e, w.issuing call = .decided e → e.req.tenantId ≠ u.tenantId
  | .engine (.unload tenantId) => ∀ call e, w.issuing call = .decided e → e.req.tenantId ≠ tenantId
  | _ => True

structure Ok (w : Pdp hash ι κ) : Prop where
  recorded : w.RecordsDecision
  current : ∀ call e trie, w.issuing call = .decided e → e.snapshot = some trie →
    w.replica.state.tenants.lookup e.req.tenantId = some trie

variable {compilePolicySet : List PolicySource → Except String (List PolicyNode)}
  {prim : Primitives} {approvalMgr : Option ApprovalCapabilityManager} {w w' : Pdp hash ι κ}

omit [DecidableEq ι] in
theorem Ok.goto (h : w.Ok) {call : κ} {phase : Issuing hash}
    (hanswer : ∀ e capability envelope, phase = .answered e (.ok (capability, envelope)) →
      ∃ trie, e.snapshot = some trie ∧
        (Engine.checkPermission hash none (some trie) e.identity.subject approvalPolicyAction
          e.req.resource e.context).decision = .allow ∧
        capability.issuancePolicyRevision.toInt = trie.revision.toNat)
    (hdecided : ∀ e trie, phase = .decided e → e.snapshot = some trie →
      w.replica.state.tenants.lookup e.req.tenantId = some trie) : (w.goto call phase).Ok where
  recorded := by
    intro k e capability envelope hk
    rcases eq_or_of_update hk with hk | hk
    · exact hanswer e capability envelope hk
    · exact h.recorded k e capability envelope hk
  current := by
    intro k e trie hk htrie
    rcases eq_or_of_update hk with hk | hk
    · exact hdecided e trie hk htrie
    · exact h.current k e trie hk htrie

theorem Ok.step (h : w.Ok) {event : PdpEvent ι κ} (hcond : w.Undisturbed event)
    (hstep : w.step compilePolicySet prim approvalMgr event = some w') : w'.Ok := by
  cases event with
  | engine event =>
    obtain ⟨_, hreplica, rfl⟩ := Option.map_eq_some_iff.mp hstep
    refine ⟨h.recorded, ?_⟩
    intro call e trie hcall htrie
    have hpublish : ∀ loader orders u, event = .publish loader orders →
        w.replica.loading loader = .holding u → e.req.tenantId ≠ u.tenantId := by
      rintro _ _ u rfl hu
      exact hcond u hu call e hcall
    rcases Replica.lookup_step hreplica hpublish with hsame | ⟨rfl, -⟩
    · exact hsame.trans (h.current call e trie hcall htrie)
    · exact absurd rfl (hcond call e hcall)
  | decide =>
    simp only [Pdp.step] at hstep
    split at hstep
    · split at hstep
      · cases hstep
        exact h.goto (fun _ _ _ hphase ↦ by cases hphase) (fun _ _ hphase ↦ by cases hphase)
      · cases hstep
        refine h.goto (fun _ _ _ hphase ↦ by cases hphase) ?_
        intro _ _ hphase htrie
        cases hphase
        exact htrie
    · cases hstep
  | issue call =>
    simp only [Pdp.step] at hstep
    split at hstep
    · rename_i e hcall
      cases hstep
      refine h.goto ?_ (fun _ _ hphase ↦ by cases hphase)
      intro _ _ _ hphase
      obtain ⟨rfl, hissued⟩ := Issuing.answered.inj hphase
      obtain ⟨hallow, hrevision⟩ := issueEvaluated_eq_ok hissued
      obtain ⟨trie, htrie, hpermits⟩ := e.allowed hallow
      -- Nothing was written between the two readings, so the revision is the trie's own.
      rw [revision_of_lookup (h.current call e trie hcall htrie)] at hrevision
      exact ⟨trie, htrie, hpermits, hrevision⟩
    · cases hstep

/-- In every interleaving in which no update or unload of the tenant falls
between an issuance's decision and its reading of the revision. -/
theorem capability_records_decision
    (compilePolicySet : List PolicySource → Except String (List PolicyNode)) (prim : Primitives)
    (approvalMgr : Option ApprovalCapabilityManager) (w : Pdp hash ι κ)
    (hw : ∀ call, w.issuing call = .idle) (schedule : List (PdpEvent ι κ))
    (h : Meets (step compilePolicySet prim approvalMgr) Undisturbed w schedule) :
    Always (step compilePolicySet prim approvalMgr) RecordsDecision w schedule := by
  refine always_of_invariant (fun _ _ _ h hcond hstep ↦ h.step hcond hstep)
    (fun _ h ↦ Ok.recorded h) ?_ h
  constructor
  · intro call e _ _ hcall
    rw [hw call] at hcall
    cases hcall
  · intro call _ _ hcall
    rw [hw call] at hcall
    cases hcall

def updatingPdp : Pdp (fun _ ↦ 0) Unit Unit where
  replica := {
    db := Map.ofList [("t1", ⟨[], [], 4⟩)]
    state := ⟨Map.ofList [("t1", { newTrieRoot "t1" with
      revision := 3, globalPolicies := [{ id := "p1", effect := .permit }] })]⟩
    loading := fun _ ↦ .holding ⟨"t1", [], [], 4⟩
    served := [] }
  issuing _ := .idle

def bobApproves : IssueApprovalCapabilityRequest where
  tenantId := "t1"
  resource := "purchase_order:17"
  context := ∅
  approvalId := SignedMessage.approvalRequest.approvalId
  companyId := SignedMessage.approvalRequest.companyId
  intentHash := SignedMessage.approvalRequest.intentHash
  stateWitness := SignedMessage.approvalRequest.stateWitness
  commandId := SignedMessage.approvalRequest.commandId
  delegationGrantId := SignedMessage.approvalRequest.delegationGrantId
  delegatorSubject := SignedMessage.approvalRequest.delegatorSubject
  agentSubject := SignedMessage.approvalRequest.agentSubject
  creatorSubject := SignedMessage.approvalRequest.creatorSubject
  approverUserId := 11
  delegationValidUntil := 1790000600

def decideForBob : PdpEvent Unit Unit :=
  .decide () ⟨some (newDelegationManagerWithSecret "s"), {}⟩ (1790000000 * Time.second) .listed none
    ⟨"t1", "user:bob",
      Map.ofList [("company_id", Strconv.formatInt SignedMessage.approvalRequest.companyId)]⟩
    bobApproves

def issueForBob : PdpEvent Unit Unit :=
  .issue () none (1790000000 * Time.second) (.ok (List.replicate 32 7))

theorem capability_records_decision_bob :
    (Trace.run (step (fun _ ↦ .ok []) .standard (some SignedMessage.sharedManager)) updatingPdp
      [decideForBob, issueForBob]).bind (fun w ↦ (w.issuing ()).revisions) = some (some 3, 3) ∧
    Always (step (fun _ ↦ .ok []) .standard (some SignedMessage.sharedManager)) RecordsDecision
      updatingPdp [decideForBob, issueForBob] := by
  refine ⟨by rfl, capability_records_decision _ _ _ updatingPdp (fun _ ↦ rfl) _ ?_⟩
  exact ⟨trivial, fun _ _ ↦ ⟨trivial, fun _ _ ↦ trivial⟩⟩

/-- The update is published between the two readings. -/
theorem capability_records_later_revision : ∃ w,
    Trace.run (step (fun _ ↦ .ok []) .standard (some SignedMessage.sharedManager)) updatingPdp
        [decideForBob, .engine (.publish () fun _ ↦ .uniform .listed), issueForBob] = some w ∧
      (w.issuing ()).revisions = some (some 3, 4) ∧ ¬ w.RecordsDecision := by
  have hrun : (Trace.run (step (fun _ ↦ .ok []) .standard (some SignedMessage.sharedManager))
      updatingPdp [decideForBob, .engine (.publish () fun _ ↦ .uniform .listed), issueForBob]).bind
        (fun w ↦ (w.issuing ()).revisions) = some (some 3, 4) := by rfl
  obtain ⟨w, hw, hrevisions⟩ := Option.bind_eq_some_iff.mp hrun
  refine ⟨w, hw, hrevisions, ?_⟩
  intro h
  obtain ⟨e, capability, envelope, hcall, hrevisions⟩ := Issuing.exists_of_revisions hrevisions
  obtain ⟨trie, htrie, -, hequal⟩ := h () e capability envelope hcall
  rw [htrie] at hrevisions
  obtain ⟨hsnapshot, hcapability⟩ := Prod.mk.inj hrevisions
  have hrevision : trie.revision = 3 := Option.some.inj hsnapshot
  rw [hrevision, hcapability] at hequal
  exact absurd hequal (by decide)

end Pdp

end PolicyEngine.Server

import PolicyEngine.Engine.EngineGC
import PolicyEngine.Server.Delegation

namespace PolicyEngine.Server

open PolicyEngine.Go PolicyEngine.Go.Result PolicyEngine.Parser PolicyEngine.Engine
open PolicyEngine.Security

structure AuthenticatedIdentity where
  tenantId : String
  subject : String
  principalAttributes : Map String

structure DecisionRequest where
  tenantId : String
  subject : String
  action : String
  resource : String
  context : Map String

structure HTTPError where
  status : ℕ
  body : String

structure DecisionResponse where
  decision : Decision
  matchedPolicyId : String
  obligations : List ObligationNode

structure CheckAccessResponse where
  decision : Decision
  matchedPolicyId : String
  obligations : List ObligationNode := []
  advice : List (String × String)

def principalKey (claim : String) : Option String :=
  if claim = "tenant_id" then none
  else if Text.hasPrefix claim "principal." then some claim
  else if Text.contains claim "." then none
  else some ("principal." ++ claim)

def mergeClaim (attributes : Map String) (trusted : Map String) (claim : String) : Map String :=
  match principalKey claim with
  | some key => trusted.insert key (attributes.get "" claim)
  | none => trusted

def requestKeys (requestContext : Map String) : Map String :=
  requestContext.entries.foldl (fun m e ↦
    if e.1 = "tenant_id" ∨ Text.hasPrefix e.1 "principal." then m else m.insert e.1 e.2) ∅

def mergeTrustedPrincipalContext (o : RangeOrder) (requestContext attributes : Map String) :
    Map String :=
  (o.keys attributes).foldl (mergeClaim attributes) (requestKeys requestContext)

def matchedPolicyId (result : DecisionResult) : String := result.explanations.headD ""

def validateDecisionIdentity (identity : Option AuthenticatedIdentity) (req : DecisionRequest) :
    Except HTTPError AuthenticatedIdentity := do
  match identity with
  | none => .error ⟨401, "\x7b\"error\":\"authenticated identity is missing\"\x7d"⟩
  | some identity =>
    rejectIf (req.tenantId ≠ "" ∧ req.tenantId ≠ identity.tenantId)
      ⟨403, "\x7b\"error\":\"tenant_id in body does not match token\"\x7d"⟩
    rejectIf (req.subject ≠ "" ∧ req.subject ≠ identity.subject)
      ⟨403, "\x7b\"error\":\"subject in body does not match token\"\x7d"⟩
    return identity

variable (hash : String → UInt64)

def handleDecisions (engine : EngineWithGC) (o : RangeOrder) (ctxErr : Option CtxError)
    (identity : Option AuthenticatedIdentity) (req : DecisionRequest) :
    Except HTTPError DecisionResponse := do
  let identity ← validateDecisionIdentity identity req
  let trustedContext := mergeTrustedPrincipalContext o req.context identity.principalAttributes
  let result := (engine.checkPermission hash ctxErr identity.tenantId identity.subject req.action
    req.resource trustedContext).1
  return ⟨result.decision, matchedPolicyId result, result.obligations⟩

structure ERPFence where
  erpRevocationFenceScope : Option String := none
  ensureERPPolicyRevision : Option (String → UInt64 → Bool) := none

structure GRPCServer where
  delegationMgr : Option DelegationManager
  revocationStore : ERPFence := {}

def validateTenantAndGetClaims (identity : AuthenticatedIdentity) (tenantId : String) :
    Except Status Unit := do
  rejectIf (Text.trimSpace tenantId = "") ⟨.invalidArgument, "tenant_id không được để trống"⟩
  rejectIf (Text.trimSpace identity.tenantId = "")
    ⟨.unauthenticated, "JWT thiếu tenant_id hợp lệ"⟩
  rejectIf (identity.tenantId ≠ tenantId)
    ⟨.permissionDenied, "tenant_id trong token không khớp với request"⟩
  rejectIf (Text.trimSpace identity.subject = "") ⟨.unauthenticated, "JWT thiếu sub hợp lệ"⟩

def revokedDecision : CheckAccessResponse where
  decision := .deny
  matchedPolicyId := "POL-REVOCATION-BLACK-LIST"
  advice := [("reason",
    "Phiên ủy quyền đã bị thu hồi bởi người giám sát (Revoked Delegation)")]

namespace GRPCServer

variable (s : GRPCServer)

def revocationPending : Bool := s.delegationMgr.any fun mgr ↦ !mgr.revocationReady

def grantRevoked (now : ℤ) (tenantId grantId : String) : Bool :=
  s.delegationMgr.any fun mgr ↦ (mgr.isRevoked now tenantId grantId).1

def ensurePolicyRevision (fenceScope tenantId : String) (revision : UInt64) :
    Except Status Unit :=
  if fenceScope = "" then .ok ()
  else
    match s.revocationStore.ensureERPPolicyRevision with
    | none => .error ⟨.failedPrecondition, "ERP policy fence is not configured"⟩
    | some ensure =>
      rejectIf (ensure tenantId revision = false) ⟨.unavailable, "ERP policy fence is unavailable"⟩

end GRPCServer

def ctxStatus : Option CtxError → Except Status Unit
  | none => .ok ()
  | some .deadlineExceeded =>
    .error ⟨.deadlineExceeded, "deadline exceeded: " ++ CtxError.deadlineExceeded.text⟩
  | some .canceled => .error ⟨.canceled, "request canceled: " ++ CtxError.canceled.text⟩

def answerAccess (s : GRPCServer) (engine : EngineWithGC) (engineErr endErr : Option CtxError)
    (fenceScope : String) (req : CheckAccessRequest) : Except Status CheckAccessResponse := do
  let result := (engine.checkPermission hash engineErr req.tenantId req.subject req.action
    req.resource req.context).1
  s.ensurePolicyRevision fenceScope req.tenantId result.policyRevision
  ctxStatus endErr
  return {
    decision := result.decision
    matchedPolicyId := matchedPolicyId result
    obligations := result.obligations
    advice := [("erp.revocation_fence", fenceScope),
      ("erp.policy_revision", Strconv.formatNat result.policyRevision.toNat)] }

def bindTrustedIdentity (o : RangeOrder) (identity : AuthenticatedIdentity)
    (req : CheckAccessRequest) : CheckAccessRequest :=
  { req with
    subject := identity.subject
    context := mergeTrustedPrincipalContext o req.context identity.principalAttributes }

def checkAccess (prim : Primitives) (s : GRPCServer) (engine : EngineWithGC) (now : ℤ)
    (o : RangeOrder) (engineErr endErr : Option CtxError) (identity : AuthenticatedIdentity)
    (req : CheckAccessRequest) : Except Status CheckAccessResponse := do
  validateTenantAndGetClaims identity req.tenantId
  let req := bindTrustedIdentity o identity req
  let fenceScope := req.value "erp.revocation_fence"
  rejectIf (fenceScope ≠ "" ∧ s.revocationStore.erpRevocationFenceScope ≠ some fenceScope)
    ⟨.failedPrecondition, "required ERP revocation fence is not configured"⟩
  let grantId := req.value "delegation_grant_id"
  rejectIf (grantId ≠ "" ∧ s.revocationPending = true)
    ⟨.unavailable, "revocation state chưa sẵn sàng"⟩
  if grantId ≠ "" ∧ s.grantRevoked now req.tenantId grantId = true then .ok revokedDecision
  else do
    let req ← validateDelegation prim s.delegationMgr now req
    answerAccess hash s engine engineErr endErr fenceScope req

end PolicyEngine.Server

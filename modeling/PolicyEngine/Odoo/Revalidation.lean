import PolicyEngine.Odoo.Approval

namespace PolicyEngine.Odoo

open PolicyEngine.Go PolicyEngine.Txn

def lockApprovalContext (key : AttemptKey) : M Unit := do
  let approval ← get (.approval key)
  let order ← Prog.lock (.order approval.purchaseOrderId)
  if order.isNone then throw (.accessError "Approval purchase order no longer exists.")
  else
    let row ← Prog.lock (.approval key)
    if row.isNone then throw (.accessError "Approval request no longer exists.")

def setTerminal (key : AttemptKey) (state : ApprovalState) (reason : String) : M Unit := do
  if state ≠ .invalidated ∧ state ≠ .expired then
    throw (.accessError "Unsupported approval terminal transition.")
  else
    let approval ← get (.approval key)
    let now ← Prog.ask .now
    Prog.update (.approval key) { approval with
      state := state, terminalReason := reason, terminalAt := some now }

/-- What `except (AccessError, TypeError, ValueError)` catches. -/
def Exc.isIntentError : Exc → Bool
  | .accessError _ | .pdpUnavailable _ | .valueError => true
  | .userError _ | .missing | .integrity => false

def attemptTo {α : Type} (catches : Exc → Bool) (p : M α) : M (Option α) :=
  tryCatchThe Exc (do return some (← p)) fun error ↦
    if catches error then return none else throw error

section

variable (P : Protocol)

/-- The current intent of an approval's order beside the stored one, read under
one `try`. -/
def currentAndStored (approval : Approval) : M (Option (Intent × Intent)) :=
  attemptTo Exc.isIntentError do
    let current ← buildPurchaseOrderIntent P approval.purchaseOrderId approval.delegationGrantId
      approval.commandId
    let stored ← storedIntent P approval
    return (current, stored)

def deterministicBindingFailure (key : AttemptKey) : M (Option (ApprovalState × String)) := do
  let now ← Prog.ask .now
  let approval ← get (.approval key)
  if approval.expiresAt.all (· ≤ now) then return some (.expired, "capability_expired")
  else
    let grant ← get (.grant approval.delegationGrantId)
    if grant.state = .revoked then return some (.invalidated, "delegation_revoked")
    else if grant.state ≠ .active then return some (.invalidated, "delegation_inactive")
    else if grant.validUntil ≤ now then return some (.invalidated, "delegation_expired")
    else
      match ← currentAndStored P approval with
      | none => return some (.invalidated, "intent_changed")
      | some (current, stored) =>
        if current ≠ stored ∨ P.intentHash current ≠ approval.intentHash ∨
            current.stateWitness ≠ approval.stateWitness then
          return some (.invalidated, "intent_changed")
        else return none

def hasCurrentLocalAuthority (db : Db) (approval : Approval) (order : Order) (grant : Grant)
    (intent : Intent) (approverId : Id) (approver : User) : Bool :=
  approver.active && !approver.share && approver.login != "" &&
    approval.approverSubject == "user:" ++ approver.login &&
    approver.companyId == approval.companyId && approval.companyId ∈ approver.companyIds &&
    userTenant db approver == approval.tenantId && approver.isPurchaseManager &&
    !violatesSeparation order grant intent approval.approverSubject approverId

/-- `_verify_current_approval_authority`: whether the approver may still approve,
and the policy revisions that were evaluated. -/
def verifyCurrentApprovalAuthority (key : AttemptKey) : M (Bool × List (Option String)) := do
  let approval ← get (.approval key)
  let intent ← storedIntent P approval
  match approval.approverUserId with
  | none => return (false, [])
  | some approverId =>
    let approver ← get (.user approverId)
    let order ← get (.order approval.purchaseOrderId)
    let grant ← get (.grant approval.delegationGrantId)
    if !hasCurrentLocalAuthority (← Prog.view) approval order grant intent approverId approver then
      return (false, [])
    else
      let capability ← storedCapability P approval
      verifyCapability approval approval.approverSubject approver capability
      let verdict ← checkAccess approval.tenantId (approverAttributes approver) {
        subject := approval.approverSubject
        action := approvalAction
        resource := resourceText approval.purchaseOrderId
        context := approvalContext approval "approved" order.pdpDepartment intent }
      return (verdict.decision = .allow ∧ verdict.obligations = [], [verdict.erpPolicyRevision])

/-- `except PDPUnavailableError: raise` before `except AccessError`. -/
def Exc.isAccessError : Exc → Bool
  | .accessError _ => true
  | _ => false

/-- `_revalidate_approved_capability`: the evaluated policy revisions when the
capability is still valid. -/
def revalidateApprovedCapability (key : AttemptKey) : M (Option (List (Option String))) := do
  lockApprovalContext key
  let approval ← get (.approval key)
  if approval.state.isTerminal then
    throw (.accessError "Approval is already in an immutable terminal state.")
  else if approval.state ≠ .approved then
    throw (.accessError "Only an approved capability can be revalidated.")
  else
    match ← deterministicBindingFailure P key with
    | some (state, reason) =>
      setTerminal key state reason
      return none
    | none =>
      match ← attemptTo Exc.isAccessError (verifyCurrentApprovalAuthority P key) with
      | none =>
        setTerminal key .invalidated "capability_verification_failed"
        return none
      | some (valid, policyRevisions) =>
        if valid then return some policyRevisions
        else
          setTerminal key .invalidated "current_approver_authority_denied"
          return none

def boundIntent (approval : Approval) : M Intent := do
  let invalid := Exc.accessError "Stored approval intent is invalid."
  let stored ← orRaise invalid (P.loads approval.intentJson)
  let encoded ← orRaise invalid (P.canonicalIntent stored)
  if encoded ≠ approval.canonicalIntentB64 ∨ P.intentHash stored ≠ approval.intentHash ∨
      stored.stateWitness ≠ approval.stateWitness ∨ stored.recordState ≠ .toApprove ∨
      stored.tenantId ≠ approval.tenantId ∨ stored.companyId ≠ approval.companyId ∨
      stored.resourceId ≠ approval.purchaseOrderId ∨
      stored.delegationGrantId ≠ approval.delegationGrantId ∨
      stored.commandId ≠ approval.commandId then
    throw (.accessError "Stored approval intent has inconsistent binding.")
  else return stored

/-- `_prepare_final_intent`: the locked intent, or `none` once the approval has
been invalidated. -/
def prepareFinalIntent (key : AttemptKey) : M (Option Intent) := do
  lockApprovalContext key
  let approval ← get (.approval key)
  if approval.state ≠ .approved then
    throw (.accessError "Final intent requires an approved capability.")
  else
    let row ← Prog.lock (.attempt key)
    if row.isNone then
      throw (.accessError "Approved command has no persisted authorization attempt.")
    else
      let attempt ← get (.attempt key)
      let order ← get (.order approval.purchaseOrderId)
      if attempt.state ≠ .approvalRequired ∨ key.tenantId ≠ approval.tenantId ∨
          key.delegationGrantId ≠ approval.delegationGrantId ∨
          key.delegationNonce ≠ approval.commandId ∨
          attempt.businessModel ≠ "purchase.order" ∨
          attempt.businessResId ≠ approval.purchaseOrderId ∨
          approval.companyId ≠ order.companyId ∨
          order.pdpDelegationNonce ≠ approval.commandId then
        throw (.accessError "Approved capability and protected command disagree.")
      else
        let stored ← boundIntent P approval
        let current ← attemptTo Exc.isIntentError (buildPurchaseOrderIntent P
          approval.purchaseOrderId approval.delegationGrantId approval.commandId)
        match current with
        | none =>
          setTerminal key .invalidated "intent_changed"
          return none
        | some current =>
          if current ≠ stored ∨ current.recordState ≠ .toApprove ∨
              current.stateWitness ≠ approval.stateWitness ∨
              P.intentHash current ≠ approval.intentHash then
            setTerminal key .invalidated "intent_changed"
            return none
          else return some current

end

end PolicyEngine.Odoo

import PolicyEngine.Odoo.Revalidation

namespace PolicyEngine.Odoo

open PolicyEngine.Go PolicyEngine.Txn

def markCompleted (key : AttemptKey) (state : AttemptState) (decision : Decision)
    (resultState : OrderState) : M Unit := do
  let attempt ← get (.attempt key)
  if attempt.state = .pending then
    let now ← Prog.ask .now
    Prog.update (.attempt key) { attempt with
      state := state
      decision := some decision
      resultState := some resultState
      completedAt := some now }

def validateExistingAttempt (orderId : Id) (attempt : Attempt) (fingerprint : String) : M Unit := do
  if attempt.requestFingerprint ≠ fingerprint ∨ attempt.businessModel ≠ "purchase.order" ∨
      attempt.businessResId ≠ orderId then
    throw (.accessError "Delegation nonce was replayed with a different business command.")
  else if attempt.state = .pending then
    throw (.accessError "A prior authorization attempt is still pending.")

/-- `_authorization_attempt`: the attempt, and whether this call created it. -/
def authorizationAttempt (orderId : Id) (key : AttemptKey) (fingerprint : String) :
    M (Attempt × Bool) := do
  match ← find (.attempt key) with
  | some existing =>
    validateExistingAttempt orderId existing fingerprint
    return (existing, false)
  | none =>
    let grant ← get (.grant key.delegationGrantId)
    let attempt : Attempt := {
      requestFingerprint := fingerprint
      businessModel := "purchase.order"
      businessResId := orderId
      validUntil := grant.validUntil
      state := .pending
      decision := none
      resultState := none
      completedAt := none }
    let created ← Prog.insert (.attempt key) attempt
    if created then return (attempt, true)
    else
      -- The savepoint is rolled back and the search made again.
      match ← find (.attempt key) with
      | none => throw (.accessError "Concurrent PDP authorization attempt could not be resolved.")
      | some existing =>
        validateExistingAttempt orderId existing fingerprint
        return (existing, false)

def completedAuthorizationAttempt (orderId : Id) (key : AttemptKey) : M (Option Attempt) := do
  match ← find (.attempt key) with
  | none => return none
  | some attempt =>
    if attempt.businessModel ≠ "purchase.order" ∨ attempt.businessResId ≠ orderId then
      throw (.accessError "Delegation nonce was replayed for a different business command.")
    else if attempt.state = .pending then
      throw (.accessError "A prior authorization attempt is still pending.")
    else return some attempt

def lockedDelegationNonce (orderId : Id) : M String := do
  let row ← Prog.lock (.order orderId)
  if row.isNone then
    throw (.accessError "Purchase order disappeared during PDP authorization.")
  else
    let order ← get (.order orderId)
    if order.pdpDelegationNonce ≠ "" then return order.pdpDelegationNonce
    else
      let nonce ← tokenUrlsafe
      writeOrder false orderId { pdpDelegationNonce := some nonce.1 }
      return nonce.1

section

variable (P : Protocol)

def protectedDelegatedRequest (order : Order) (company : Company) (intent : Intent)
    (proof : String) (issuedAt validUntil : Timestamp) : Request where
  subject := intent.agentSubject
  action := "action:CONFIRM_PURCHASE_ORDER"
  resource := resourceText intent.resourceId
  context :=
    [("amount", P.minorUnitsToDecimal intent.amountMinor intent.currencyScale),
      ("currency", intent.currencyCode),
      ("delegation_grant_id", Strconv.formatNat intent.delegationGrantId),
      ("delegated_by", intent.delegatorSubject),
      ("delegation_issued_at", Strconv.formatNat issuedAt),
      ("delegation_valid_until", Strconv.formatNat validUntil),
      ("delegation_nonce", intent.commandId),
      ("delegation_chain", intent.delegatorSubject ++ "," ++ intent.agentSubject),
      ("delegation_proof", proof),
      ("resource.creator_id", intent.creatorSubject),
      ("resource.department", order.pdpDepartment),
      ("branch", company.city),
      ("tool_context", "tool:auto_confirm_po"),
      ("execution_mode", "autonomous_run"),
      ("erp.revocation_fence", "odoo-revocation.v1:" ++ P.databaseName)] ++ P.intentContext intent

/-- `_delegated_request`: the request, the attempt, and whether it was created. -/
def delegatedRequest (orderId grantId : Id) :
    M (Option Request × AttemptKey × Attempt × Bool) := do
  let order ← get (.order orderId)
  let grant ← get (.grant grantId)
  let delegator ← get (.user grant.userId)
  if delegator.companyId ≠ order.companyId then
    throw (.userError "Delegation grant and purchase order belong to different companies.")
  else
    let nonce ← lockedDelegationNonce orderId
    let tenant ← tenantId order
    let key : AttemptKey := ⟨tenant, grantId, nonce⟩
    match ← completedAuthorizationAttempt orderId key with
    | some completed => return (none, key, completed, false)
    | none =>
      let (intent, proof, fingerprint, issuedAt, validUntil) ←
        buildProtectedIntent P grantId orderId nonce
      let (attempt, created) ← authorizationAttempt orderId key fingerprint
      let company ← get (.company order.companyId)
      return (some (protectedDelegatedRequest P order company intent proof issuedAt validUntil),
        key, attempt, created)

def baseRequest (uid orderId : Id) : M Request := do
  let user ← get (.user uid)
  let order ← get (.order orderId)
  let creator ← get (.user order.createUid)
  let currency ← get (.currency order.currencyId)
  let company ← get (.company order.companyId)
  let subject := "user:" ++ user.login
  return {
    subject := subject
    action := "action:CONFIRM_PURCHASE_ORDER"
    resource := resourceText orderId
    context :=
      [("amount", P.ceil order.amountTotal), ("currency", currency.name),
        ("resource.creator_id", "user:" ++ creator.login),
        ("resource.department", order.pdpDepartment), ("branch", company.city),
        ("delegation_chain", subject)] }

end

/-- A native method of Odoo under the transition sentinel: it writes the state it
chooses, if any. -/
def runNative (query : Query) (orderId : Id) (attempt : Option AttemptKey)
    (chosen : query.Answer → NativeWrite) : M Unit := do
  let answer ← Prog.ask query
  match chosen answer with
  | some state => writeOrder true orderId { state := some state }
  | none => pure ()
  Prog.emit (.native orderId attempt)

def nativeConfirm (orderId : Id) (attempt : Option AttemptKey) : M Unit :=
  runNative (.buttonConfirm orderId) orderId attempt id

def nativeApprove (orderId : Id) (attempt : Option AttemptKey) : M Unit :=
  runNative (.buttonApprove orderId) orderId attempt id

def schedulePdpActivity (orderId : Id) (obligation : Obligation) (verdict : Verdict)
    (approverId : Id) : M Id :=
  Prog.ask (Query.activitySchedule orderId
    (if obligation.message ≠ "" then obligation.message
      else verdict.reason.getD "The PDP requires human approval for this purchase order.")
    approverId)

section

variable (P : Protocol)

/-- The last statements of `_execute_approved_confirmation`, after all checks. -/
def consumeApproval (orderId : Id) (key : AttemptKey) : M Unit := do
  let approval ← get (.approval key)
  let now ← Prog.ask .now
  Prog.update (.approval key) { approval with
    state := .consumed, terminalReason := "executed", terminalAt := some now }
  nativeApprove orderId (some key)
  let order ← get (.order orderId)
  if !order.state.isFinal then
    throw (.accessError "Approved confirmation did not reach a final PO state.")
  else
    writeOrder false orderId { pdpStatus := some .allow }
    let attempt ← get (.attempt key)
    let order ← get (.order orderId)
    let now ← Prog.ask .now
    Prog.update (.attempt key) { attempt with
      state := .executed
      decision := some .allow
      resultState := some order.state
      completedAt := some now }

def executeApprovedConfirmation (orderId : Id) (key : AttemptKey) : M Unit := do
  match ← find (.approval key) with
  | none => throw (.accessError "Protected command has no unique approval record.")
  | some approval =>
    if approval.state = .pending then return ()
    else if approval.state ≠ .approved then
      throw (.accessError "Protected command approval is not executable.")
    else
      match ← prepareFinalIntent P key with
      | none => return ()
      | some current =>
        match ← revalidateApprovedCapability P key with
        | none => return ()
        | some policyRevisions =>
          let (signed, proof, _, issuedAt, validUntil) ←
            buildProtectedIntent P approval.delegationGrantId orderId approval.commandId
          if signed ≠ current then
            throw (.accessError "Final agent proof does not match the locked approval intent.")
          else
            let order ← get (.order orderId)
            let company ← get (.company order.companyId)
            let verdict ← checkAccess approval.tenantId []
              (protectedDelegatedRequest P order company current proof issuedAt validUntil)
            let validObligation := verdict.obligations.length = 1 ∧
              verdict.obligations.all (·.type == "REQUIRE_HUMAN_APPROVAL")
            if verdict.decision ≠ .allow ∨ (verdict.obligations ≠ [] ∧ ¬ validObligation) then
              throw (.accessError "Current agent policy denied approved confirmation.")
            else
              let unrevoked ← lockDelegationRevocationFence orderId
              if !unrevoked then setTerminal key .invalidated "delegation_revoked"
              else
                lockCurrentAuthority orderId (policyRevisions ++ [verdict.erpPolicyRevision])
                consumeApproval orderId key

/-- The branch of `_pdp_confirm_one` for an unconditional ALLOW. -/
def confirmAllowed (orderId : Id) (attempt : Option AttemptKey) (verdict : Verdict) : M Unit := do
  match attempt with
  | some _ =>
    let unrevoked ← lockDelegationRevocationFence orderId
    if !unrevoked then throw (.accessError "Delegation was revoked before final execution.")
    else lockCurrentAuthority orderId [verdict.erpPolicyRevision]
  | none => pure ()
  writeOrder false orderId { pdpStatus := some .allow }
  nativeConfirm orderId attempt
  match attempt with
  | some key =>
    let order ← get (.order orderId)
    markCompleted key .executed .allow order.state
  | none => pure ()

/-- The branch of `_pdp_confirm_one` for an obligation of human approval. -/
def confirmPending (uid orderId : Id) (attempt : Option AttemptKey) (obligation : Obligation)
    (verdict : Verdict) : M Unit := do
  writeOrder false orderId { state := some .toApprove, pdpStatus := some .requireApproval }
  match attempt with
  | some key =>
    let intent ← buildPurchaseOrderIntent P orderId key.delegationGrantId key.delegationNonce
    createPending P orderId key intent
    let approver ← selectActivityApprover P key
    let activity ← schedulePdpActivity orderId obligation verdict approver
    attachActivity key activity approver
    let order ← get (.order orderId)
    markCompleted key .approvalRequired verdict.decision order.state
  | none =>
    let _ ← schedulePdpActivity orderId obligation verdict uid

def identityAttributes (user : User) (subject : String) : List (String × String) :=
  if "agent:".toList.isPrefixOf subject.toList then [] else [("department", user.pdpDepartment)]

/-- `_pdp_confirm_one` from the PDP's decision on. -/
def confirmDecided (uid orderId : Id) (attempt : Option AttemptKey) (request : Request) :
    M Unit := do
  let order ← get (.order orderId)
  let tenant ← tenantId order
  let user ← get (.user uid)
  let verdict ← checkAccess tenant (identityAttributes user request.subject) request
  if verdict.obligations.any (·.type ≠ "REQUIRE_HUMAN_APPROVAL") then
    throw (.accessError "The PDP returned an obligation unsupported by this PEP.")
  else if verdict.decision = .allow ∧ verdict.obligations = [] then
    confirmAllowed orderId attempt verdict
  else
    match verdict.obligations with
    | [obligation] =>
      if verdict.decision = .allow ∨ order.delegationGrantId.isNone then
        confirmPending P uid orderId attempt obligation verdict
      else
        writeOrder false orderId { pdpStatus := some .deny }
        throw (.accessError "The PDP denied this purchase-order confirmation.")
    | _ =>
      writeOrder false orderId { pdpStatus := some .deny }
      throw (.accessError "The PDP denied this purchase-order confirmation.")

def pdpConfirmOne (uid orderId : Id) : M Unit := do
  let order ← get (.order orderId)
  match order.delegationGrantId with
  | some grantId =>
    let (request, key, attempt, created) ← delegatedRequest P orderId grantId
    if !created then
      if attempt.state = .approvalRequired then executeApprovedConfirmation P orderId key
      else return ()
    else
      let request ← orRaise .missing request
      confirmDecided P uid orderId (some key) request
  | none =>
    let request ← baseRequest P uid orderId
    confirmDecided P uid orderId none request

def buttonConfirm (uid : Id) (ids : List Id) : M Unit := ids.forM (pdpConfirmOne P uid)

end

end PolicyEngine.Odoo

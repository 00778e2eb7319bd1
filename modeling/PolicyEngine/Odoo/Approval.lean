import PolicyEngine.Odoo.Intent

namespace PolicyEngine.Odoo

open PolicyEngine.Go PolicyEngine.Txn

def approvalAction : String := "action:APPROVE_PURCHASE_ORDER"

def capabilityVersion : String := "ac.v1"

def capabilityPurpose : String := "odoo.purchase_order.confirm"

def capabilityPermission : String := "approval:purchase_order.confirm"

def capabilityAlgorithm : String := "HS256"

def resourceText (orderId : Id) : String := "purchase_order:" ++ Strconv.formatNat orderId

section

variable (P : Protocol)

def validatedPendingIntent (key : AttemptKey) : M Intent := do
  let approval ← get (.approval key)
  let order ← get (.order approval.purchaseOrderId)
  let invalid := Exc.accessError "Stored pending approval intent is invalid."
  let intent ← orRaise invalid (P.loads approval.intentJson)
  let encoded ← orRaise invalid (P.canonicalIntent intent)
  if approval.state ≠ .pending ∨ order.state ≠ .toApprove ∨
      encoded ≠ approval.canonicalIntentB64 ∨ P.intentHash intent ≠ approval.intentHash ∨
      intent.stateWitness ≠ approval.stateWitness ∨ intent.tenantId ≠ approval.tenantId ∨
      intent.companyId ≠ approval.companyId ∨ intent.resourceId ≠ approval.purchaseOrderId ∨
      intent.commandId ≠ approval.commandId ∨
      intent.delegationGrantId ≠ approval.delegationGrantId then
    throw (.accessError "Stored pending approval does not match its canonical intent.")
  else return intent

def createPending (orderId : Id) (key : AttemptKey) (intent : Intent) : M Unit := do
  let order ← get (.order orderId)
  let canonical ← orRaise .valueError (P.canonicalIntent intent)
  if order.state ≠ .toApprove ∨ intent.recordState ≠ .toApprove ∨
      intent.tenantId ≠ key.tenantId ∨ intent.companyId ≠ order.companyId ∨
      intent.resourceId ≠ orderId ∨ intent.commandId ≠ key.delegationNonce ∨
      intent.delegationGrantId ≠ key.delegationGrantId then
    throw (.accessError "Pending approval intent does not match its protected attempt.")
  else
    let approvalId ← tokenUrlsafe
    let created ← Prog.insert (.approval key) {
      approvalId := approvalId.1
      tenantId := intent.tenantId
      companyId := intent.companyId
      purchaseOrderId := orderId
      delegationGrantId := intent.delegationGrantId
      commandId := intent.commandId
      intentJson := P.dumps intent
      canonicalIntentB64 := canonical
      intentHash := P.intentHash intent
      stateWitness := intent.stateWitness
      state := .pending
      requestedApproverUserId := none
      activityId := none
      approverUserId := none
      approverSubject := ""
      requiredPermission := ""
      issuancePolicyRevision := 0
      issuedAt := 0
      expiresAt := none
      oneTimeId := ""
      capabilityVersion := ""
      capabilityPurpose := ""
      capabilityAlgorithm := ""
      capabilityKeyId := ""
      capabilityPayloadB64 := ""
      capabilitySignatureB64 := ""
      capabilityFingerprint := ""
      terminalReason := ""
      terminalAt := none }
    if created then return () else throw .integrity

def userTenant (db : Db) (user : User) : String :=
  (db.lookup (.company user.companyId)).elim "" fun company : Company ↦ strip company.pdpTenantId

/-- The candidates of `select_activity_approver` who may be asked. -/
def mayBeAsked (db : Db) (approval : Approval) (intent : Intent) (user : User) : Bool :=
  user.active && !user.share && user.companyId == approval.companyId && user.isPurchaseManager &&
    !user.isSystemAdmin &&
    ("user:" ++ user.login) ∉
      [intent.agentSubject, intent.creatorSubject, intent.delegatorSubject] &&
    userTenant db user == approval.tenantId

def selectActivityApprover (key : AttemptKey) : M Id := do
  let approval ← get (.approval key)
  let intent ← validatedPendingIntent P key
  let db ← Prog.view
  match (usersOf db).find? fun candidate ↦ mayBeAsked db approval intent candidate.2 with
  | some candidate => return candidate.1
  | none => throw (.accessError "No independent same-tenant purchase approver is available.")

/-- `attach_activity`; the activity's recipient is the approver it was made for. -/
def attachActivity (key : AttemptKey) (activityId approverId : Id) : M Unit := do
  let approval ← get (.approval key)
  if approval.requestedApproverUserId.any (· ≠ approverId) then
    throw (.accessError "Pending approval already targets a different user.")
  else if approval.activityId.any (· ≠ activityId) then
    throw (.accessError "Pending approval already links a different Activity.")
  else if approval.activityId.isNone ∨ approval.requestedApproverUserId.isNone then
    Prog.update (.approval key) { approval with
      activityId := some activityId, requestedApproverUserId := some approverId }

def approvalContext (approval : Approval) (state department : String) (intent : Intent) :
    List (String × String) :=
  [("approval_id", approval.approvalId), ("approval_state", state),
    ("intent_hash", approval.intentHash), ("state_witness", approval.stateWitness),
    ("command_id", approval.commandId),
    ("grant_id", Strconv.formatNat approval.delegationGrantId),
    ("resource.creator_id", intent.creatorSubject), ("resource.department", department)]

def approverAttributes (approver : User) : List (String × String) :=
  [("department", approver.pdpDepartment), ("company_id", Strconv.formatNat approver.companyId)]

def violatesSeparation (order : Order) (grant : Grant) (intent : Intent) (subject : String)
    (userId : Id) : Bool :=
  subject ∈ [intent.agentSubject, intent.creatorSubject, intent.delegatorSubject] ||
    userId ∈ [order.createUid, grant.userId]

/-- `check_current_approver`; gives the approver's subject. -/
def checkCurrentApprover (uid : Id) (key : AttemptKey) : M String := do
  let approver ← get (.user uid)
  let approval ← get (.approval key)
  let intent ← validatedPendingIntent P key
  let order ← get (.order approval.purchaseOrderId)
  let grant ← get (.grant approval.delegationGrantId)
  let subject := "user:" ++ approver.login
  if !approver.active ∨ approver.share ∨ approver.login = "" then
    throw (.accessError "Approval requires an active internal human user.")
  else if approver.companyId ≠ approval.companyId ∨ approval.companyId ∉ approver.companyIds ∨
      userTenant (← Prog.view) approver ≠ approval.tenantId then
    throw (.accessError "Approver tenant or company does not match the pending intent.")
  else if !approver.isPurchaseManager then
    throw (.accessError "Approver lacks the required purchase-manager role.")
  else if violatesSeparation order grant intent subject uid then
    throw (.accessError "Approver violates Separation of Duties.")
  else
    let verdict ← checkAccess approval.tenantId (approverAttributes approver) {
      subject := subject
      action := approvalAction
      resource := resourceText approval.purchaseOrderId
      context := approvalContext approval "pending" order.pdpDepartment intent }
    if verdict.decision ≠ .allow ∨ verdict.obligations ≠ [] then
      throw (.accessError "PDP denied approval authority for this pending intent.")
    else return subject

def storedIntent (approval : Approval) : M Intent := orRaise .valueError (P.loads approval.intentJson)

def storedCapability (approval : Approval) : M Capability := do
  if approval.capabilityVersion = "" ∨ approval.capabilityPurpose = "" ∨
      approval.capabilityAlgorithm = "" ∨ approval.capabilityKeyId = "" ∨
      approval.oneTimeId = "" ∨ approval.requiredPermission = "" then
    throw (.accessError "Stored approval capability metadata is missing.")
  else
    let intent ← storedIntent P approval
    if approval.capabilityPayloadB64 = "" ∨ approval.capabilitySignatureB64 = "" then
      throw (.accessError "Stored approval capability encoding is missing.")
    else return {
      capabilityVersion := approval.capabilityVersion
      purpose := approval.capabilityPurpose
      approvalId := approval.approvalId
      tenantId := approval.tenantId
      companyId := approval.companyId
      intentHash := approval.intentHash
      stateWitness := approval.stateWitness
      commandId := approval.commandId
      delegationGrantId := approval.delegationGrantId
      delegatorSubject := intent.delegatorSubject
      agentSubject := intent.agentSubject
      creatorSubject := intent.creatorSubject
      approverUserId := approval.approverUserId.getD 0
      approverSubject := approval.approverSubject
      requiredPermission := approval.requiredPermission
      issuancePolicyRevision := approval.issuancePolicyRevision
      issuedAt := approval.issuedAt
      expiresAt := approval.expiresAt.getD 0
      oneTimeId := approval.oneTimeId
      algorithm := approval.capabilityAlgorithm
      keyId := approval.capabilityKeyId
      canonicalPayload := P.decodeBase64url approval.capabilityPayloadB64
      signature := P.decodeBase64url approval.capabilitySignatureB64 }

def verifyCapability (approval : Approval) (subject : String) (approver : User)
    (capability : Capability) : M Unit := do
  let token ← Prog.ask (.issueJwt subject approval.tenantId (approverAttributes approver))
  let reply ← Prog.ask (.verifyApprovalCapability approval.tenantId capability token)
  expect reply

def verifyIdempotentRetry (uid : Id) (key : AttemptKey) : M Unit := do
  let approval ← get (.approval key)
  let approver ← get (.user uid)
  if approval.approverUserId ≠ some uid ∨ approval.capabilityPayloadB64 = "" then
    throw (.accessError "Approval was already issued to a different or invalid identity.")
  else
    let capability ← storedCapability P approval
    verifyCapability approval approval.approverSubject approver capability

def validateIssuedBinding (approval : Approval) (capability : Capability) (intent : Intent)
    (uid : Id) (subject : String) : M Unit := do
  if capability.capabilityVersion ≠ capabilityVersion ∨ capability.purpose ≠ capabilityPurpose ∨
      capability.approvalId ≠ approval.approvalId ∨ capability.tenantId ≠ approval.tenantId ∨
      capability.companyId ≠ approval.companyId ∨ capability.intentHash ≠ approval.intentHash ∨
      capability.stateWitness ≠ approval.stateWitness ∨
      capability.commandId ≠ approval.commandId ∨
      capability.delegationGrantId ≠ approval.delegationGrantId ∨
      capability.delegatorSubject ≠ intent.delegatorSubject ∨
      capability.agentSubject ≠ intent.agentSubject ∨
      capability.creatorSubject ≠ intent.creatorSubject ∨ capability.approverUserId ≠ uid ∨
      capability.approverSubject ≠ subject ∨
      capability.requiredPermission ≠ capabilityPermission ∨
      capability.algorithm ≠ capabilityAlgorithm then
    throw (.accessError "Issued capability does not match the pending approval.")
  else if capability.issuancePolicyRevision < 0 ∨ capability.issuedAt = 0 ∨
      capability.expiresAt ≤ capability.issuedAt ∨ capability.oneTimeId = "" ∨
      capability.keyId = "" ∨ capability.canonicalPayload = "" ∨ capability.signature = "" then
    throw (.accessError "Issued capability metadata is invalid.")

/-- The row after `_capability_write_values`. -/
def Approval.issued (approval : Approval) (capability : Capability) (uid : Id) : Approval :=
  { approval with
    state := .approved
    approverUserId := some uid
    approverSubject := capability.approverSubject
    requiredPermission := capability.requiredPermission
    issuancePolicyRevision := capability.issuancePolicyRevision
    issuedAt := capability.issuedAt
    expiresAt := some capability.expiresAt
    oneTimeId := capability.oneTimeId
    capabilityVersion := capability.capabilityVersion
    capabilityPurpose := capability.purpose
    capabilityAlgorithm := capability.algorithm
    capabilityKeyId := capability.keyId
    capabilityPayloadB64 := P.base64url capability.canonicalPayload
    capabilitySignatureB64 := P.base64url capability.signature
    capabilityFingerprint := P.fingerprint (capability.canonicalPayload ++ capability.signature) }

/-- `action_issue_capability`. Neither lock is asked for its row. -/
def actionIssueCapability (uid : Id) (key : AttemptKey) : M Unit := do
  let approval ← get (.approval key)
  let _ ← Prog.lock (.order approval.purchaseOrderId)
  let _ ← Prog.lock (.approval key)
  if approval.state = .approved then verifyIdempotentRetry P uid key
  else
    let approver ← get (.user uid)
    let subject ← checkCurrentApprover P uid key
    let intent ← validatedPendingIntent P key
    let grant ← get (.grant approval.delegationGrantId)
    let now ← Prog.ask .now
    if grant.state ≠ .active ∨ grant.validUntil ≤ now then
      throw (.accessError "Delegation is not active at approval issuance.")
    else
      let token ← Prog.ask (.issueJwt subject approval.tenantId (approverAttributes approver))
      let reply ← Prog.ask (.issueApprovalCapability approval intent uid grant.validUntil token)
      let capability ← expect reply
      validateIssuedBinding approval capability intent uid subject
      let reply ← Prog.ask (.verifyApprovalCapability approval.tenantId capability token)
      expect reply
      Prog.update (.approval key) (approval.issued P capability uid)

end

end PolicyEngine.Odoo

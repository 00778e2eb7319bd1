import PolicyEngine.Security.IntentBytes

namespace PolicyEngine.Security

open PolicyEngine.Code PolicyEngine.Go PolicyEngine.Go.Result

def approvalCapabilityVersion : String := "ac.v1"

def approvalCapabilityPurpose : String := "odoo.purchase_order.confirm"

def approvalRequiredPermission : String := "approval:purchase_order.confirm"

def approvalCapabilityAlgorithm : String := "HS256"

def maxApprovalCapabilityTTL : ℤ := 24 * 3600 * Time.second

def approvalCapabilityClockSkew : ℤ := 30 * Time.second

/-- `^[A-Za-z0-9_-]{1,64}$`, the pattern of delegation key ids too. -/
def approvalKeyIDPattern (keyId : String) : Bool := validDelegationKeyID keyId

structure ApprovalCapability where
  capabilityVersion : String
  purpose : String
  approvalId : String
  tenantId : String
  companyId : Int64
  intentHash : String
  stateWitness : String
  commandId : String
  delegationGrantId : Int64
  delegatorSubject : String
  agentSubject : String
  creatorSubject : String
  approverUserId : Int64
  approverSubject : String
  requiredPermission : String
  issuancePolicyRevision : Int64
  issuedAt : Int64
  expiresAt : Int64
  oneTimeId : String
deriving DecidableEq

structure ApprovalCapabilityEnvelope where
  algorithm : String
  keyId : String
  payload : List UInt8
  signature : List UInt8
deriving DecidableEq

/-- The clock and the random source of the source's record are arguments of the
calls that read them. -/
structure ApprovalCapabilityManager where
  activeKeyId : String
  keys : Map (List UInt8)
  ttl : ℤ

def newApprovalCapabilityManagerWithKeyring (activeKeyId : String) (keys : Map String) (ttl : ℤ) :
    Except String ApprovalCapabilityManager :=
  if approvalKeyIDPattern activeKeyId = false then .error "invalid active approval key id"
  else if ttl ≤ 0 ∨ ttl > maxApprovalCapabilityTTL then
    .error "approval capability TTL must be within (0, 24h0m0s]"
  else
    -- The source ranges over a map here, so with several bad keys the one named may differ.
    match keys.keys.find? fun keyId ↦
        !approvalKeyIDPattern keyId || decide ((keys.get "" keyId).utf8ByteSize < 32) with
    | some keyId => .error ("invalid approval key \"" ++ keyId ++ "\"")
    | none =>
      if activeKeyId ∈ keys then
        .ok ⟨activeKeyId,
          Map.ofList (keys.keys.map fun keyId ↦ (keyId, Text.bytes (keys.get "" keyId))), ttl⟩
      else .error "active approval key is absent from key ring"

def validateOpaqueBase64URL (field value : String) (size : ℕ) : Except String Unit :=
  match Base64.rawURL.decode value with
  | some decoded =>
    if decoded.length ≠ size ∨ Base64.rawURL.encode decoded ≠ value then
      .error (field ++ " must be canonical unpadded base64url for " ++ Strconv.formatNat size ++
        " bytes")
    else .ok ()
  | none =>
    .error (field ++ " must be canonical unpadded base64url for " ++ Strconv.formatNat size ++
      " bytes")

namespace ApprovalCapability

variable (capability : ApprovalCapability)

def validate : Except String (List UInt8) := do
  rejectIf (capability.capabilityVersion ≠ approvalCapabilityVersion ∨
      capability.purpose ≠ approvalCapabilityPurpose ∨
      capability.requiredPermission ≠ approvalRequiredPermission)
    "unsupported approval capability version, purpose or permission"
  validateOpaqueBase64URL "approval_id" capability.approvalId 16
  validateCanonicalText "tenant_id" capability.tenantId
  rejectIf (capability.companyId ≤ 0 ∨ capability.delegationGrantId ≤ 0 ∨
      capability.approverUserId ≤ 0 ∨ capability.issuancePolicyRevision < 0)
    "approval capability integer binding is invalid"
  let intentHash ← decodeCanonicalDigest "intent_hash" capability.intentHash
  validateCommandID capability.commandId
  validateCanonicalSubject "delegator_subject" capability.delegatorSubject "user:"
  validateCanonicalSubject "agent_subject" capability.agentSubject "agent:"
  validateCanonicalSubject "creator_subject" capability.creatorSubject "user:"
  validateCanonicalSubject "approver_subject" capability.approverSubject "user:"
  rejectIf (capability.approverSubject = capability.delegatorSubject ∨
      capability.approverSubject = capability.creatorSubject ∨
      capability.approverSubject = capability.agentSubject)
    "approval capability violates separation of duties"
  rejectIf (capability.issuedAt ≤ 0 ∨ capability.expiresAt ≤ capability.issuedAt ∨
      capability.expiresAt - capability.issuedAt >
        Int64.ofInt (maxApprovalCapabilityTTL / Time.second))
    "approval capability validity window is invalid"
  validateOpaqueBase64URL "one_time_id" capability.oneTimeId 32
  return intentHash

def canonicalBytes : Except String (List UInt8) := do
  let intentHash ← capability.validate
  let stateWitness ← decodeCanonicalDigest "state_witness" capability.stateWitness
  return Text.bytes "PDP-APPROVAL-CAPABILITY-V1" ++ canonicalString capability.capabilityVersion ++
    canonicalString capability.purpose ++ canonicalString capability.approvalId ++
    canonicalString capability.tenantId ++ Encoding.beInt64 capability.companyId ++ intentHash ++
    stateWitness ++ canonicalString capability.commandId ++
    Encoding.beInt64 capability.delegationGrantId ++
    canonicalString capability.delegatorSubject ++ canonicalString capability.agentSubject ++
    canonicalString capability.creatorSubject ++ Encoding.beInt64 capability.approverUserId ++
    canonicalString capability.approverSubject ++ canonicalString capability.requiredPermission ++
    Encoding.beInt64 capability.issuancePolicyRevision ++ Encoding.beInt64 capability.issuedAt ++
    Encoding.beInt64 capability.expiresAt ++ canonicalString capability.oneTimeId

end ApprovalCapability

namespace ApprovalCapabilityManager

variable (prim : Primitives) (m : ApprovalCapabilityManager)

/-- `random` is what reading 32 bytes of the random source gives. -/
def issue (now : ℤ) (random : Except String (List UInt8)) (capability : ApprovalCapability)
    (delegationValidUntil : Int64) :
    Except String (ApprovalCapability × ApprovalCapabilityEnvelope) :=
  let issuedAt := Int64.ofInt (Time.unix now)
  let expiresAt := issuedAt + Int64.ofInt (m.ttl / Time.second)
  let expiresAt := if delegationValidUntil < expiresAt then delegationValidUntil else expiresAt
  if expiresAt ≤ issuedAt then .error "delegation is expired at approval issuance"
  else
    match random with
    | .error e => .error ("generate approval one-time id: " ++ e)
    | .ok random => do
      let capability := { capability with
        capabilityVersion := approvalCapabilityVersion
        purpose := approvalCapabilityPurpose
        requiredPermission := approvalRequiredPermission
        issuedAt := issuedAt
        expiresAt := expiresAt
        oneTimeId := Base64.rawURL.encode random }
      let payload ← capability.canonicalBytes
      return (capability, ⟨approvalCapabilityAlgorithm, m.activeKeyId, payload,
        prim.hmac (m.keys.get [] m.activeKeyId) payload⟩)

def verify (now : ℤ) (capability : ApprovalCapability) (envelope : ApprovalCapabilityEnvelope) :
    Except String Unit :=
  if m.keys.entries = [] then .error "approval capability verifier is not configured"
  else if envelope.algorithm ≠ approvalCapabilityAlgorithm ∨
      approvalKeyIDPattern envelope.keyId = false then
    .error "unsupported approval capability algorithm or key id"
  else
    match m.keys.lookup envelope.keyId with
    | none => .error "unknown approval capability key"
    | some secret => do
      let expectedPayload ← capability.canonicalBytes
      rejectIf (expectedPayload ≠ envelope.payload) "approval capability payload binding mismatch"
      rejectIf (envelope.signature.length ≠ 32) "malformed approval capability signature"
      rejectIf (prim.hmac secret envelope.payload ≠ envelope.signature)
        "approval capability signature mismatch"
      rejectIf (capability.issuedAt.toInt > Time.unix (now + approvalCapabilityClockSkew))
        "approval capability is not active yet"
      rejectIf (Time.unix now > capability.expiresAt.toInt) "approval capability has expired"

variable {prim m}

theorem of_issue {now : ℤ} {random : Except String (List UInt8)}
    {request issued : ApprovalCapability} {validUntil : Int64}
    {envelope : ApprovalCapabilityEnvelope}
    (h : m.issue prim now random request validUntil = .ok (issued, envelope)) :
    (∃ payload, issued.canonicalBytes = .ok payload ∧ envelope =
      ⟨approvalCapabilityAlgorithm, m.activeKeyId, payload,
        prim.hmac (m.keys.get [] m.activeKeyId) payload⟩) ∧
      issued.issuedAt = Int64.ofInt (Time.unix now) ∧ issued.issuedAt < issued.expiresAt ∧
      issued.issuancePolicyRevision = request.issuancePolicyRevision ∧
      issued.expiresAt = (if validUntil < issued.issuedAt + Int64.ofInt (m.ttl / Time.second) then
        validUntil else issued.issuedAt + Int64.ofInt (m.ttl / Time.second)) := by
  unfold ApprovalCapabilityManager.issue at h
  dsimp only at h
  generalize hexpiry : (if validUntil < _ then validUntil else _) = expiresAt at h
  split at h
  · cases h
  rename_i hexpires
  split at h
  · cases h
  · obtain ⟨payload, hpayload, h⟩ := bind_eq_ok.mp h
    obtain ⟨rfl, rfl⟩ := Prod.mk.inj (Except.ok.inj h)
    exact ⟨⟨payload, hpayload, rfl⟩, rfl, Int64.not_le.mp hexpires, rfl, hexpiry.symm⟩

end ApprovalCapabilityManager

theorem size_of_validateOpaqueBase64URL {field value : String} {size : ℕ}
    (h : validateOpaqueBase64URL field value size = .ok ()) : value.utf8ByteSize ≤ 8 * size := by
  unfold validateOpaqueBase64URL at h
  split at h
  · rename_i decoded _
    split_ifs at h with hform
    rw [not_or, not_not, not_not] at hform
    have hsize := utf8ByteSize_encode decoded
    rwa [hform.2, hform.1] at hsize
  · cases h

namespace ApprovalCapability

structure Encodable (capability : ApprovalCapability) : Prop where
  capabilityVersion : capability.capabilityVersion = approvalCapabilityVersion
  purpose : capability.purpose = approvalCapabilityPurpose
  requiredPermission : capability.requiredPermission = approvalRequiredPermission
  approvalId : capability.approvalId.utf8ByteSize ≤ 8 * 16
  tenantId : CanonicalText capability.tenantId
  intentHash : IsDigest capability.intentHash
  stateWitness : IsDigest capability.stateWitness
  commandId : validateCommandID capability.commandId = .ok ()
  delegatorSubject : CanonicalSubject "user:" capability.delegatorSubject
  agentSubject : CanonicalSubject "agent:" capability.agentSubject
  creatorSubject : CanonicalSubject "user:" capability.creatorSubject
  approverSubject : CanonicalSubject "user:" capability.approverSubject
  oneTimeId : capability.oneTimeId.utf8ByteSize ≤ 8 * 32

variable {capability : ApprovalCapability} {bytes : List UInt8}

theorem of_canonicalBytes (h : capability.canonicalBytes = .ok bytes) :
    capability.Encodable ∧ capability.validate = .ok (digest capability.intentHash) := by
  obtain ⟨_, hvalidate, hrest⟩ := bind_eq_ok.mp h
  obtain ⟨_, hwitness, -⟩ := bind_eq_ok.mp hrest
  have hchecks := hvalidate
  simp only [validate, bind_unit_eq_ok, bind_eq_ok (α := List UInt8), rejectIf_eq_ok,
    validateCanonicalText_eq_ok, validateCanonicalSubject_eq_ok, decodeCanonicalDigest_eq_ok,
    not_or, not_not, ne_eq] at hchecks
  obtain ⟨⟨hversion, hpurpose, hpermission⟩, hid, htenant, -, _, ⟨hhash, rfl⟩, hcommand,
    hdelegator, hagent, hcreator, happrover, -, -, honce, heq⟩ := hchecks
  obtain rfl := Except.ok.inj heq
  exact ⟨⟨hversion, hpurpose, hpermission, size_of_validateOpaqueBase64URL hid, htenant, hhash,
    (decodeCanonicalDigest_eq_ok.mp hwitness).1, hcommand, hdelegator, hagent, hcreator, happrover,
    size_of_validateOpaqueBase64URL honce⟩, hvalidate⟩

end ApprovalCapability

end PolicyEngine.Security

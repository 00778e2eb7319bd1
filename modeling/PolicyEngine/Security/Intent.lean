import PolicyEngine.Go.Base64
import PolicyEngine.Security.Delegation

namespace PolicyEngine.Security

open PolicyEngine.Go PolicyEngine.Go.Result

def canonicalBusinessIntentVersion : String := "cbi.v1"

def canonicalIntentProofVersion : String := "v2"

def purchaseOrderResourceType : String := "purchase.order"

def confirmPurchaseOrderAction : String := "action:CONFIRM_PURCHASE_ORDER"

structure CanonicalBusinessIntent where
  intentVersion : String
  tenantId : String
  companyId : Int64
  resourceType : String
  resourceId : Int64
  action : String
  vendorId : Int64
  currencyCode : String
  currencyScale : Int64
  amountMinor : Int64
  lineDigest : String
  recordState : String
  recordWriteVersion : String
  stateWitness : String
  creatorSubject : String
  delegationGrantId : Int64
  delegatorSubject : String
  agentSubject : String
  commandId : String
  proofVersion : String
deriving DecidableEq

def canonicalString (value : String) : List UInt8 := Encoding.lengthPrefixed (Text.bytes value)

def decodeCanonicalDigest (field value : String) : Except String (List UInt8) :=
  let err := field ++ " must be lowercase SHA-256 hex"
  if value.utf8ByteSize ≠ 64 ∨ Encoding.isLower value = false then .error err
  else
    match Encoding.hexDecode value with
    | some decoded => .ok decoded
    | none => .error err

def validateCanonicalText (field value : String) : Except String Unit :=
  if value = "" ∨ value.utf8ByteSize ≥ 2 ^ 32 ∨ Text.trimSpace value ≠ value then
    .error (field ++ " must be non-empty canonical UTF-8")
  else .ok ()

def validateCanonicalSubject (field value kind : String) : Except String Unit := do
  validateCanonicalText field value
  rejectIf (Text.hasPrefix value kind = false ∨ value.utf8ByteSize = kind.utf8ByteSize)
    (field ++ " must use " ++ kind ++ " subject prefix")

/-- The shape of the layout `2006-01-02T15:04:05.000000Z`. -/
def timestampShape : List Char → List Char → Bool
  | [], [] => true
  | '0' :: shape, c :: cs => c.isDigit && timestampShape shape cs
  | s :: shape, c :: cs => s == c && timestampShape shape cs
  | _, _ => false

def validateCanonicalTimestamp (field value : String) : Except String Unit :=
  if timestampShape "0000-00-00T00:00:00.000000Z".toList value.toList ∧
      (Time.parseRFC3339 value).isSome then .ok ()
  else .error (field ++ " must be UTC with exactly six fractional digits")

def validateCommandID (value : String) : Except String Unit :=
  match Base64.rawURL.decode value with
  | some decoded =>
    if decoded.length ≠ 32 ∨ Base64.rawURL.encode decoded ≠ value then
      .error "command_id must be canonical unpadded base64url for 32 bytes"
    else .ok ()
  | none => .error "command_id must be canonical unpadded base64url for 32 bytes"

namespace CanonicalBusinessIntent

variable (prim : Primitives) (intent : CanonicalBusinessIntent)

def validateFields : Except String Unit := do
  rejectIf (intent.intentVersion ≠ canonicalBusinessIntentVersion)
    "unsupported canonical business intent version"
  validateCanonicalText "tenant_id" intent.tenantId
  rejectIf (intent.companyId ≤ 0 ∨ intent.resourceId ≤ 0 ∨ intent.vendorId ≤ 0 ∨
      intent.delegationGrantId ≤ 0)
    "company, resource, vendor and delegation grant IDs must be positive"
  rejectIf (intent.resourceType ≠ purchaseOrderResourceType) "unsupported canonical resource type"
  rejectIf (intent.action ≠ confirmPurchaseOrderAction) "unsupported canonical action"
  rejectIf (intent.currencyCode.utf8ByteSize ≠ 3 ∨
      intent.currencyCode.toList.all Char.isUpper = false)
    "currency_code must be three uppercase ASCII letters"
  rejectIf (intent.currencyScale < 0 ∨ intent.currencyScale > 6)
    "currency_scale must be between 0 and 6"
  rejectIf (intent.amountMinor < 0) "amount_minor must be non-negative"
  let _ ← decodeCanonicalDigest "line_digest" intent.lineDigest
  validateCanonicalText "record_state" intent.recordState
  validateCanonicalTimestamp "record_write_version" intent.recordWriteVersion
  validateCanonicalSubject "creator_subject" intent.creatorSubject "user:"
  validateCanonicalSubject "delegator_subject" intent.delegatorSubject "user:"
  validateCanonicalSubject "agent_subject" intent.agentSubject "agent:"
  validateCommandID intent.commandId
  rejectIf (intent.proofVersion ≠ canonicalIntentProofVersion) "unsupported canonical proof version"

def stateWitnessPayload (lineDigest : List UInt8) : List UInt8 :=
  Text.bytes "PDP-ODOO-PO-STATE-V1" ++ canonicalString intent.tenantId ++
    Encoding.beInt64 intent.companyId ++ canonicalString intent.resourceType ++
    Encoding.beInt64 intent.resourceId ++ Encoding.beInt64 intent.vendorId ++
    canonicalString intent.currencyCode ++ Encoding.beInt64 intent.currencyScale ++
    Encoding.beInt64 intent.amountMinor ++ lineDigest ++ canonicalString intent.recordState ++
    canonicalString intent.recordWriteVersion ++ Encoding.beInt64 intent.delegationGrantId ++
    canonicalString intent.creatorSubject

def computeStateWitness : Except String (List UInt8) := do
  let lineDigest ← decodeCanonicalDigest "line_digest" intent.lineDigest
  return prim.sha256 (intent.stateWitnessPayload lineDigest)

def validate : Except String Unit := do
  intent.validateFields
  let provided ← decodeCanonicalDigest "state_witness" intent.stateWitness
  let expected ← intent.computeStateWitness prim
  rejectIf (provided ≠ expected) "state_witness does not match material state"

theorem amount_bounds_of_validateFields {intent : CanonicalBusinessIntent}
    (h : intent.validateFields = .ok ()) :
    0 ≤ intent.currencyScale.toInt ∧ intent.currencyScale.toInt ≤ 6 ∧
      0 ≤ intent.amountMinor.toInt := by
  simp only [validateFields, bind_unit_eq_ok, rejectIf_eq_ok, not_or, gt_iff_lt, Int64.not_lt,
    Int64.le_iff_toInt_le] at h
  obtain ⟨-, -, -, -, -, -, ⟨hlo, hhi⟩, hamount, -⟩ := h
  exact ⟨hlo, hhi, hamount⟩

theorem tenantId_of_validateFields {intent : CanonicalBusinessIntent}
    (h : intent.validateFields = .ok ()) : intent.tenantId ≠ "" := by
  simp only [validateFields, bind_unit_eq_ok] at h
  obtain ⟨-, htenant, -⟩ := h
  intro hempty
  rw [hempty] at htenant
  exact nomatch htenant

theorem action_of_validateFields {intent : CanonicalBusinessIntent}
    (h : intent.validateFields = .ok ()) : intent.action = confirmPurchaseOrderAction := by
  simp only [validateFields, bind_unit_eq_ok, rejectIf_eq_ok, ne_eq, not_not] at h
  obtain ⟨-, -, -, -, haction, -⟩ := h
  exact haction

theorem creatorSubject_of_validateFields {intent : CanonicalBusinessIntent}
    (h : intent.validateFields = .ok ()) : intent.creatorSubject ≠ "" := by
  simp only [validateFields, bind_eq_ok] at h
  obtain ⟨_, -, _, -, _, -, _, -, _, -, _, -, _, -, _, -, _, -, _, -, _, -, _, hcreator, -⟩ := h
  intro hempty
  rw [hempty] at hcreator
  exact nomatch (bind_unit_eq_ok.mp hcreator).1

theorem validateFields_of_validate {prim : Primitives} {intent : CanonicalBusinessIntent}
    (h : intent.validate prim = .ok ()) : intent.validateFields = .ok () :=
  (bind_unit_eq_ok.mp h).1

def canonicalBytes : Except String (List UInt8) := do
  intent.validate prim
  let lineDigest ← decodeCanonicalDigest "line_digest" intent.lineDigest
  let stateWitness ← decodeCanonicalDigest "state_witness" intent.stateWitness
  return Text.bytes "PDP-CANONICAL-BUSINESS-INTENT" ++ canonicalString intent.intentVersion ++
    canonicalString intent.tenantId ++ Encoding.beInt64 intent.companyId ++
    canonicalString intent.resourceType ++ Encoding.beInt64 intent.resourceId ++
    canonicalString intent.action ++ Encoding.beInt64 intent.vendorId ++
    canonicalString intent.currencyCode ++ Encoding.beInt64 intent.currencyScale ++
    Encoding.beInt64 intent.amountMinor ++ lineDigest ++ canonicalString intent.recordState ++
    canonicalString intent.recordWriteVersion ++ stateWitness ++
    canonicalString intent.creatorSubject ++ Encoding.beInt64 intent.delegationGrantId ++
    canonicalString intent.delegatorSubject ++ canonicalString intent.agentSubject ++
    canonicalString intent.commandId ++ canonicalString intent.proofVersion

def intentHash : Except String (List UInt8) := do
  let payload ← intent.canonicalBytes prim
  return prim.sha256 payload

end CanonicalBusinessIntent

structure DelegationProofV2Input where
  intent : CanonicalBusinessIntent
  issuedAt : Int64
  validUntil : Int64
deriving DecidableEq

namespace DelegationProofV2Input

variable (prim : Primitives) (input : DelegationProofV2Input)

def validateStructure : Except String Unit :=
  match input.intent.validate prim with
  | .error e => .error ("invalid canonical business intent: " ++ e)
  | .ok () =>
    if input.issuedAt ≤ 0 ∨ input.validUntil ≤ input.issuedAt then
      .error "invalid V2 delegation validity window"
    else if input.validUntil - input.issuedAt > Int64.ofInt (maxDelegationTTL / Time.second) then
      .error "V2 delegation TTL exceeds 24h0m0s"
    else .ok ()

theorem of_validateStructure {prim : Primitives} {input : DelegationProofV2Input}
    (h : input.validateStructure prim = .ok ()) :
    input.intent.validate prim = .ok () ∧ 0 < input.issuedAt.toInt := by
  unfold validateStructure at h
  split at h
  · exact nomatch h
  · rename_i hvalid
    split_ifs at h with hwindow
    simp only [not_or, Int64.not_le, Int64.lt_iff_toInt_lt] at hwindow
    exact ⟨hvalid, hwindow.1⟩

def validateAt (now : ℤ) : Except String Unit := do
  input.validateStructure prim
  rejectIf (input.issuedAt.toInt > Time.unix (now + delegationClockSkew))
    "V2 delegation proof is not active yet"
  rejectIf (Time.unix now > input.validUntil.toInt) "V2 delegation proof has expired"

def canonicalBytes (keyId : String) : Except String (List UInt8) := do
  input.validateStructure prim
  let intentHash ← input.intent.intentHash prim
  return Text.bytes "PDP-DELEGATION-PROOF-V2" ++ canonicalString "v2" ++ canonicalString keyId ++
    intentHash ++ Encoding.beInt64 input.intent.delegationGrantId ++
    canonicalString input.intent.agentSubject ++ Encoding.beInt64 input.issuedAt ++
    Encoding.beInt64 input.validUntil

end DelegationProofV2Input

namespace DelegationManager

variable (prim : Primitives)

def generateProofV2 (m : DelegationManager) (input : DelegationProofV2Input) :
    Except String String :=
  if !validDelegationKeyID m.activeKeyId then .error "V2 delegation signer is not configured"
  else
    let secret := m.signingKeys.get [] m.activeKeyId
    if secret = [] then .error "active V2 delegation signing key is not configured"
    else do
      let payload ← input.canonicalBytes prim m.activeKeyId
      .ok ("v2." ++ m.activeKeyId ++ "." ++ Encoding.hexEncode (prim.hmac secret payload))

def verifyProofV2 (m : DelegationManager) (now : ℤ) (input : DelegationProofV2Input)
    (proof : String) : Except String Unit :=
  if m.signingKeys.entries = [] then .error "V2 delegation verifier is not configured"
  else do
    input.validateAt prim now
    match Text.split proof '.' with
    | [version, keyId, signature] =>
      if version ≠ "v2" ∨ validDelegationKeyID keyId = false then
        .error "unsupported V2 delegation proof version"
      else
        match m.signingKeys.lookup keyId with
        | none | some [] => .error "unknown V2 delegation signing key"
        | some secret =>
          if signature.utf8ByteSize ≠ 64 ∨ Encoding.isLower signature = false then
            .error "malformed V2 delegation signature"
          else
            match Encoding.hexDecode signature with
            | none => .error "malformed V2 delegation signature"
            | some provided => do
              let payload ← input.canonicalBytes prim keyId
              if prim.hmac secret payload = provided then .ok ()
              else .error "V2 delegation signature mismatch"
    | _ => .error "unsupported V2 delegation proof version"

end DelegationManager

end PolicyEngine.Security

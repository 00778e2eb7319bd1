import PolicyEngine.Audit.Entry
import PolicyEngine.Go.Marshal
import PolicyEngine.Security.EnvelopeCrypto

namespace PolicyEngine.Audit

open PolicyEngine.Go PolicyEngine.Go.Marshal PolicyEngine.Go.Result PolicyEngine.Json
  PolicyEngine.Security

def auditPayloadVersion : Int64 := 1

structure AuditPayload where
  subject : String
  action : String
  resource : String
  context : Option (Map String)

namespace AuditPayload

variable (payload : AuditPayload)

def columns : List (Column 9999 AuditPayload) :=
  [⟨"subject", .str, (·.subject), fun p x ↦ { p with subject := x }, fun _ ↦ rfl⟩,
    ⟨"action", .str, (·.action), fun p x ↦ { p with action := x }, fun _ ↦ rfl⟩,
    ⟨"resource", .str, (·.resource), fun p x ↦ { p with resource := x }, fun _ ↦ rfl⟩,
    ⟨"context", .strings, (·.context), fun p x ↦ { p with context := x }, fun _ ↦ rfl⟩]

def marshal : List UInt8 := Column.marshal columns payload

def zero : AuditPayload := ⟨"", "", "", none⟩

def unmarshal : List UInt8 → Option AuditPayload := Column.unmarshal (Column.fields columns) zero

end AuditPayload

structure AuditAAD where
  version : Int64
  auditId : String
  timestamp : Int64
  revisionId : UInt64
  tenantId : String
  decision : String
  matchedPolicyId : String
  requestId : String
  traceId : String
  keyId : String
deriving DecidableEq

namespace AuditAAD

variable (aad : AuditAAD)

def columns : List (Column 9999 AuditAAD) :=
  [⟨"v", .int64, (·.version), fun a x ↦ { a with version := x }, fun _ ↦ rfl⟩,
    ⟨"audit_id", .str, (·.auditId), fun a x ↦ { a with auditId := x }, fun _ ↦ rfl⟩,
    ⟨"ts", .int64, (·.timestamp), fun a x ↦ { a with timestamp := x }, fun _ ↦ rfl⟩,
    ⟨"rev", .uint64, (·.revisionId), fun a x ↦ { a with revisionId := x }, fun _ ↦ rfl⟩,
    ⟨"tenant_id", .str, (·.tenantId), fun a x ↦ { a with tenantId := x }, fun _ ↦ rfl⟩,
    ⟨"decision", .str, (·.decision), fun a x ↦ { a with decision := x }, fun _ ↦ rfl⟩,
    ⟨"matched_policy_id", .optional, (·.matchedPolicyId),
      fun a x ↦ { a with matchedPolicyId := x }, fun _ ↦ rfl⟩,
    ⟨"request_id", .optional, (·.requestId), fun a x ↦ { a with requestId := x }, fun _ ↦ rfl⟩,
    ⟨"trace_id", .optional, (·.traceId), fun a x ↦ { a with traceId := x }, fun _ ↦ rfl⟩,
    ⟨"key_id", .str, (·.keyId), fun a x ↦ { a with keyId := x }, fun _ ↦ rfl⟩]

def marshal : List UInt8 := Column.marshal columns aad

end AuditAAD

/-- `auditEntryAAD`, before it is marshalled. -/
def LogEntry.aad (entry : LogEntry) : AuditAAD where
  version := entry.payloadVersion
  auditId := entry.auditId
  timestamp := entry.timestamp
  revisionId := entry.revisionId
  tenantId := entry.tenantId
  decision := entry.decision
  matchedPolicyId := entry.matchedPolicyId
  requestId := entry.requestId
  traceId := entry.traceId
  keyId := entry.keyId

def auditEntryAAD (entry : LogEntry) : List UInt8 := entry.aad.marshal

section Envelope

variable (cipher : AeadCipher) (prim : Primitives)

/-- `auditId` is the random identifier of the record. -/
def sealAuditEntry (crypto : Option EnvelopeCrypto) (auditId : String) (draws : Draws)
    (entry : LogEntry) : Except String LogEntry :=
  match crypto with
  | none => .error "audit envelope crypto is required"
  | some crypto => do
    let entry := { entry with
      auditId := auditId
      payloadVersion := auditPayloadVersion
      keyId := crypto.activeKeyId
      requestId := (entry.context.getD ∅).get "" "request_id"
      traceId := (entry.context.getD ∅).get "" "trace_id" }
    let payload := AuditPayload.marshal ⟨entry.subject, entry.action, entry.resource, entry.context⟩
    let aad := auditEntryAAD entry
    let (ciphertext, encryptedDek, keyId) ← crypto.encryptWithAAD cipher draws payload aad
    let tag ← crypto.integrityTag prim keyId
      [aad, Text.bytes encryptedDek, Text.bytes ciphertext]
    return { entry with
      keyId := keyId
      encryptedPayload := ciphertext
      encryptedDek := encryptedDek
      integrityTag := tag
      isEncrypted := true
      subject := ""
      action := ""
      resource := ""
      context := none }

def LogEntry.parts (entry : LogEntry) : List (List UInt8) :=
  [auditEntryAAD entry, Text.bytes entry.encryptedDek, Text.bytes entry.encryptedPayload]

/-- The text of an error of `json.Unmarshal` is the library's own. -/
def verifyAndDecryptEntry (crypto : EnvelopeCrypto) (entry : Option LogEntry) :
    Except String AuditPayload :=
  match entry with
  | none => .error "unsupported or unencrypted audit entry"
  | some entry => do
    rejectIf (entry.isEncrypted = false ∨ entry.payloadVersion ≠ auditPayloadVersion)
      "unsupported or unencrypted audit entry"
    crypto.verifyIntegrityTag prim entry.integrityTag entry.keyId entry.parts
    let plaintext ← crypto.decryptWithAAD cipher entry.encryptedPayload entry.encryptedDek
      entry.keyId (auditEntryAAD entry)
    match AuditPayload.unmarshal plaintext with
    | none => .error "json"
    | some payload => .ok payload

end Envelope

end PolicyEngine.Audit

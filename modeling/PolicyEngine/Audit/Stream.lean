import PolicyEngine.Audit.Entry
import PolicyEngine.Audit.Redaction
import PolicyEngine.Go.Marshal

namespace PolicyEngine.Audit

open PolicyEngine.Go PolicyEngine.Go.Marshal PolicyEngine.Json

section Writing

def escapeByte (b : UInt8) : List UInt8 :=
  if b = 34 then [92, 34]
  else if b = 92 then [92, 92]
  else if b = 10 then [92, 110]
  else if b = 13 then [92, 114]
  else if b = 9 then [92, 116]
  else [b]

def escapeJSON (dst : List UInt8) (value : String) : List UInt8 :=
  (Text.bytes value).foldl (fun dst b ↦ dst ++ escapeByte b) dst

/-- The arguments of `Log`. -/
structure LogArguments where
  revisionId : UInt64
  tenantId : String
  subject : String
  action : String
  resource : String
  decision : String
  matchedPolicyId : String
  ctxMap : Map String

variable (order : RangeOrder) (ctxMap : Map String)

def appendEntry (state : List UInt8 × Bool) (k : String) : List UInt8 × Bool :=
  let buf := if state.2 then state.1 else state.1 ++ Text.bytes ","
  let buf := buf ++ Text.bytes "\""
  let buf := escapeJSON buf k
  let buf := buf ++ Text.bytes "\":\""
  let buf := if shouldRedactAuditContextKey k then buf ++ Text.bytes redactedAuditValue
    else escapeJSON buf (ctxMap.get "" k)
  (buf ++ Text.bytes "\"", false)

def appendContext (buf : List UInt8) : List UInt8 :=
  if ctxMap.keys = [] then buf
  else
    let buf := buf ++ Text.bytes ",\"context\":\x7b"
    let buf := ((order.keys ctxMap).foldl (appendEntry ctxMap) (buf, true)).1
    buf ++ Text.bytes "\x7d"

/-- The bytes that `Log` hands to the writer when there is no batch writer. -/
def streamLine (nowNano : Int64) (call : LogArguments) : List UInt8 :=
  let buf := Text.bytes "\x7b\"ts\":"
  let buf := buf ++ Text.bytes (Strconv.formatInt nowNano)
  let buf := buf ++ Text.bytes ",\"rev\":"
  let buf := buf ++ Text.bytes (Strconv.formatNat call.revisionId.toNat)
  let buf := buf ++ Text.bytes ",\"tenant_id\":\""
  let buf := escapeJSON buf call.tenantId
  let buf := buf ++ Text.bytes "\",\"subject\":\""
  let buf := escapeJSON buf call.subject
  let buf := buf ++ Text.bytes "\",\"action\":\""
  let buf := escapeJSON buf call.action
  let buf := buf ++ Text.bytes "\",\"resource\":\""
  let buf := escapeJSON buf call.resource
  let buf := buf ++ Text.bytes "\",\"decision\":\""
  let buf := buf ++ Text.bytes call.decision
  let buf := buf ++ Text.bytes "\",\"matched_policy_id\":\""
  let buf := escapeJSON buf call.matchedPolicyId
  let buf := buf ++ Text.bytes "\""
  let buf := appendContext order call.ctxMap buf
  buf ++ Text.bytes "\x7d\n"

end Writing

section Reading

/-- An entry with the time of its evaluation in nanoseconds; `none` is the
zero time. -/
structure DecodedEntry extends LogEntry where
  evaluatedAt : Option ℤ

def zeroEntry : DecodedEntry where
  auditId := ""
  payloadVersion := 0
  timestamp := 0
  revisionId := 0
  tenantId := ""
  subject := ""
  action := ""
  resource := ""
  decision := ""
  matchedPolicyId := ""
  context := none
  isEncrypted := false
  keyId := ""
  requestId := ""
  traceId := ""
  encryptedDek := ""
  encryptedPayload := ""
  integrityTag := ""
  evaluatedAt := none

/-- What `Time.UnmarshalJSON` makes of a value other than `null`. -/
abbrev TimeReader := Value → Option ℤ

def unmarshalTime (read : TimeReader) (old : Option ℤ) : Value → Option (Option ℤ)
  | .null => some old
  | v => (read v).map some

def logEntryColumns (depth : ℕ) : List (Column (depth + 1) DecodedEntry) :=
  [⟨"audit_id", .str, (·.auditId), fun e x ↦ { e with auditId := x }, fun _ ↦ rfl⟩,
    ⟨"payload_version", .int64, (·.payloadVersion),
      fun e x ↦ { e with payloadVersion := x }, fun _ ↦ rfl⟩,
    ⟨"ts", .int64, (·.timestamp), fun e x ↦ { e with timestamp := x }, fun _ ↦ rfl⟩,
    ⟨"rev", .uint64, (·.revisionId), fun e x ↦ { e with revisionId := x }, fun _ ↦ rfl⟩,
    ⟨"tenant_id", .str, (·.tenantId), fun e x ↦ { e with tenantId := x }, fun _ ↦ rfl⟩,
    ⟨"subject", .str, (·.subject), fun e x ↦ { e with subject := x }, fun _ ↦ rfl⟩,
    ⟨"action", .str, (·.action), fun e x ↦ { e with action := x }, fun _ ↦ rfl⟩,
    ⟨"resource", .str, (·.resource), fun e x ↦ { e with resource := x }, fun _ ↦ rfl⟩,
    ⟨"decision", .str, (·.decision), fun e x ↦ { e with decision := x }, fun _ ↦ rfl⟩,
    ⟨"matched_policy_id", .optional, (·.matchedPolicyId),
      fun e x ↦ { e with matchedPolicyId := x }, fun _ ↦ rfl⟩,
    ⟨"context", .strings, (·.context), fun e x ↦ { e with context := x }, fun _ ↦ rfl⟩,
    ⟨"is_encrypted", .flag, (·.isEncrypted), fun e x ↦ { e with isEncrypted := x }, fun _ ↦ rfl⟩,
    ⟨"key_id", .optional, (·.keyId), fun e x ↦ { e with keyId := x }, fun _ ↦ rfl⟩,
    ⟨"request_id", .optional, (·.requestId), fun e x ↦ { e with requestId := x }, fun _ ↦ rfl⟩,
    ⟨"trace_id", .optional, (·.traceId), fun e x ↦ { e with traceId := x }, fun _ ↦ rfl⟩,
    ⟨"encrypted_dek", .optional, (·.encryptedDek),
      fun e x ↦ { e with encryptedDek := x }, fun _ ↦ rfl⟩,
    ⟨"encrypted_payload", .optional, (·.encryptedPayload),
      fun e x ↦ { e with encryptedPayload := x }, fun _ ↦ rfl⟩,
    ⟨"integrity_tag", .optional, (·.integrityTag),
      fun e x ↦ { e with integrityTag := x }, fun _ ↦ rfl⟩]

def logEntryFields (time : TimeReader) : Fields DecodedEntry :=
  Column.fields (logEntryColumns 0) ++ [("evaluated_at",
    field (·.evaluatedAt) (fun e x ↦ { e with evaluatedAt := x }) (unmarshalTime time))]

inductive DecodeError where
  | message (text : String)
  /-- An error of `json.Unmarshal`. -/
  | unmarshal

def decodeNDJSONLogEntry (time : TimeReader) (data : String) : Except DecodeError DecodedEntry :=
  if data = "" then .error (.message "du lieu ndjson rong")
  else
    match (parse data).bind (unmarshalStruct (logEntryFields time) zeroEntry) with
    | none => .error .unmarshal
    | some entry =>
      if entry.timestamp > 0 then .ok { entry with evaluatedAt := some entry.timestamp.toInt }
      else .ok entry

end Reading

end PolicyEngine.Audit

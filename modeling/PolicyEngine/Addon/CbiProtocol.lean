import PolicyEngine.Python.Basic
import PolicyEngine.Server.Delegation

namespace PolicyEngine.Addon

open PolicyEngine.Go PolicyEngine.Go.Result PolicyEngine.Python PolicyEngine.Security

def int64Max : ℤ := 2 ^ 63 - 1

def intentVersion : String := "cbi.v1"

def intentProofVersion : String := "v2"

def resourceType : String := "purchase.order"

def confirmAction : String := "action:CONFIRM_PURCHASE_ORDER"

def cbiFields : List String :=
  ["intent_version", "tenant_id", "company_id", "resource_type", "resource_id", "action",
    "vendor_id", "currency_code", "currency_scale", "amount_minor", "line_digest", "record_state",
    "record_write_version", "state_witness", "creator_subject", "delegation_grant_id",
    "delegator_subject", "agent_subject", "command_id", "proof_version"]

section Checks

variable (space : Char → Bool) (field : String)

def integer (minimum maximum : ℤ) : Value → Except String ℤ
  | .int number =>
    if number < minimum ∨ number > maximum then
      .error (field ++ " is outside its canonical integer range")
    else .ok number
  | _ => .error (field ++ " is outside its canonical integer range")

def checkText : Value → Except String Unit
  | .str text =>
    if text = "" ∨ strip space text ≠ text then
      .error (field ++ " must be non-empty canonical UTF-8")
    else .ok ()
  | _ => .error (field ++ " must be non-empty canonical UTF-8")

/-- `^[0-9a-f]{64}$`. -/
def digestPattern (text : String) : Bool :=
  text.toList.length == 64 && text.toList.all fun c ↦
    c.isDigit || (decide ('a' ≤ c) && decide (c ≤ 'f'))

def checkDigest : Value → Except String Unit
  | .str text =>
    if digestPattern text = false then .error (field ++ " must be lowercase SHA-256 hex")
    else .ok ()
  | _ => .error (field ++ " must be lowercase SHA-256 hex")

def checkSubject (kind : String) (value : Value) : Except String Unit := do
  checkText space field value
  match value with
  | .str text =>
    rejectIf (Text.hasPrefix text kind = false ∨ text.toList.length = kind.toList.length)
      (field ++ " must use " ++ kind ++ " subject prefix")
  | _ => .error (field ++ " must use " ++ kind ++ " subject prefix")

def number (cs : List Char) : ℕ := Nat.ofDigitChars 10 cs 0

/-- `datetime.strptime` with the format `%Y-%m-%dT%H:%M:%S.%fZ`, on a text of
that shape. -/
def strptime (text : String) : Bool :=
  let at_ (start length : ℕ) : ℕ := number ((text.toList.drop start).take length)
  let year := at_ 0 4
  let month := at_ 5 2
  let day := at_ 8 2
  1 ≤ year && 1 ≤ month && month ≤ 12 && 1 ≤ day && day ≤ Time.daysIn month year &&
    at_ 11 2 < 24 && at_ 14 2 < 60 && at_ 17 2 < 60

def checkTimestamp : Value → Except String Unit
  | .str text =>
    if timestampShape "0000-00-00T00:00:00.000000Z".toList text.toList = false ∨
        strptime text = false then
      .error (field ++ " must be UTC with exactly six fractional digits")
    else .ok ()
  | _ => .error (field ++ " must be UTC with exactly six fractional digits")

/-- `^[A-Za-z0-9_-]{43}$`. -/
def commandPattern (text : String) : Bool :=
  text.toList.length == 43 && text.toList.all fun c ↦ c.isAlphanum || c == '_' || c == '-'

/-- `base64.urlsafe_b64decode(value + "=")`, on a text of the alphabet. -/
def urlsafeB64decode (text : String) : Option (List UInt8) :=
  Base64.rawURL.decodeChars text.toList

def commandError : String := "command_id must be canonical unpadded base64url for 32 bytes"

def checkCommand : Value → Except String Unit
  | .str text =>
    if commandPattern text = false then .error commandError
    else
      match urlsafeB64decode text with
      | none => .error commandError
      | some decoded =>
        if decoded.length ≠ 32 ∨ Base64.rawURL.encode decoded ≠ text then .error commandError
        else .ok ()
  | _ => .error commandError

def checkCurrency : Value → Except String Unit
  | .str text =>
    if text.toList.length ≠ 3 ∨ text.toList.all Char.isUpper = false then
      .error "currency_code must be three uppercase ASCII letters"
    else .ok ()
  | _ => .error "currency_code must be three uppercase ASCII letters"

end Checks

def validateFields (space : Char → Bool) (values : Dict) (requireWitness : Bool) :
    Except String Unit := do
  let expected := if requireWitness then cbiFields else cbiFields.filter (· ≠ "state_witness")
  rejectIf (values.keys.all (· ∈ expected) = false ∨ expected.all (· ∈ values.keys) = false)
    "CBI fields are missing or unknown"
  rejectIf ((← Dict.item values "intent_version") ≠ .str intentVersion)
    "unsupported canonical business intent version"
  checkText space "tenant_id" (← Dict.item values "tenant_id")
  let _ ← integer "company_id" 1 int64Max (← Dict.item values "company_id")
  let _ ← integer "resource_id" 1 int64Max (← Dict.item values "resource_id")
  let _ ← integer "vendor_id" 1 int64Max (← Dict.item values "vendor_id")
  let _ ← integer "delegation_grant_id" 1 int64Max (← Dict.item values "delegation_grant_id")
  rejectIf ((← Dict.item values "resource_type") ≠ .str resourceType)
    "unsupported canonical resource type"
  rejectIf ((← Dict.item values "action") ≠ .str confirmAction) "unsupported canonical action"
  checkCurrency (← Dict.item values "currency_code")
  let _ ← integer "currency_scale" 0 6 (← Dict.item values "currency_scale")
  let _ ← integer "amount_minor" 0 int64Max (← Dict.item values "amount_minor")
  checkDigest "line_digest" (← Dict.item values "line_digest")
  checkText space "record_state" (← Dict.item values "record_state")
  checkTimestamp "record_write_version" (← Dict.item values "record_write_version")
  if requireWitness then checkDigest "state_witness" (← Dict.item values "state_witness")
  checkSubject space "creator_subject" "user:" (← Dict.item values "creator_subject")
  checkSubject space "delegator_subject" "user:" (← Dict.item values "delegator_subject")
  checkSubject space "agent_subject" "agent:" (← Dict.item values "agent_subject")
  checkCommand (← Dict.item values "command_id")
  rejectIf ((← Dict.item values "proof_version") ≠ .str intentProofVersion)
    "unsupported canonical proof version"

/-- One `payload.extend` of an encoder: of a text, an integer or a digest. -/
inductive Piece
  | text (field : String)
  | number (field : String)
  | hex (field : String)

def Piece.encode (values : Dict) : Piece → Except String (List UInt8)
  | .text field => do
    match ← Dict.item values field with
    | .str value =>
      if value.utf8ByteSize > 0xFFFFFFFF then .error "canonical string exceeds uint32 length"
      else packText value
    | _ => .error "AttributeError: object has no attribute 'encode'"
  | .number field => do
    match ← Dict.item values field with
    | .int value => packInt64 value
    | _ => .error "struct.error: required argument is not an integer"
  | .hex field => do
    match ← Dict.item values field with
    | .str value =>
      match Encoding.hexDecode value with
      | some bytes => .ok bytes
      | none => .error "ValueError: non-hexadecimal number found in fromhex() arg"
    | _ => .error "TypeError: fromhex() argument must be str"

def stateLayout : List Piece :=
  [.text "tenant_id", .number "company_id", .text "resource_type", .number "resource_id",
    .number "vendor_id", .text "currency_code", .number "currency_scale", .number "amount_minor",
    .hex "line_digest", .text "record_state", .text "record_write_version",
    .number "delegation_grant_id", .text "creator_subject"]

def stateBytes (values : Dict) : Except String (List UInt8) := do
  return Text.bytes "PDP-ODOO-PO-STATE-V1" ++ (← stateLayout.mapM (Piece.encode values)).flatten

def intentLayout : List Piece :=
  [.text "intent_version", .text "tenant_id", .number "company_id", .text "resource_type",
    .number "resource_id", .text "action", .number "vendor_id", .text "currency_code",
    .number "currency_scale", .number "amount_minor", .hex "line_digest", .text "record_state",
    .text "record_write_version", .hex "state_witness", .text "creator_subject",
    .number "delegation_grant_id", .text "delegator_subject", .text "agent_subject",
    .text "command_id", .text "proof_version"]

section Encoders

variable (prim : Primitives) (space : Char → Bool) (values : Dict)

def canonicalBusinessIntentBytes : Except String (List UInt8) := do
  validateFields space values true
  let expected := Encoding.hexEncode (prim.sha256 (← stateBytes values))
  rejectIf ((← Dict.item values "state_witness") ≠ .str expected)
    "state_witness does not match material state"
  return Text.bytes "PDP-CANONICAL-BUSINESS-INTENT" ++
    (← intentLayout.mapM (Piece.encode values)).flatten

def canonicalBusinessIntentHash : Except String (List UInt8) := do
  return prim.sha256 (← canonicalBusinessIntentBytes prim space values)

def canonicalBusinessIntentContext : Except String (List (String × String)) := do
  let _ ← canonicalBusinessIntentBytes prim space values
  cbiFields.mapM fun field ↦ do
    return ("cbi." ++ field, (← Dict.item values field).toStr)

def minorUnitsToDecimal (amountMinor currencyScale : Value) : Except String String := do
  let minor ← integer "amount_minor" 0 int64Max amountMinor
  let scale ← integer "currency_scale" 0 6 currencyScale
  let text := (formatInt minor).toList
  if scale = 0 then return String.ofList text
  else
    let scale := scale.toNat
    let digits := List.replicate (scale + 1 - text.length) '0' ++ text
    let whole := String.ofList (digits.take (digits.length - scale))
    let fraction := (digits.drop (digits.length - scale)).rdropWhile (· == '0')
    if fraction = [] then return whole else return whole ++ "." ++ String.ofList fraction

/-- `^[A-Za-z0-9_-]{1,64}$`. -/
def keyIdPattern (keyId : String) : Bool :=
  1 ≤ keyId.toList.length && keyId.toList.length ≤ 64 &&
    keyId.toList.all fun c ↦ c.isAlphanum || c == '_' || c == '-'

def maxTTLSeconds : ℤ := 24 * 60 * 60

def packItem (field : String) : Except String (List UInt8) := do
  match ← Dict.item values field with
  | .str value => packText value
  | _ => .error "AttributeError: object has no attribute 'encode'"

def canonicalDelegationProofV2Bytes (keyId : String) (issuedAt validUntil : ℤ) :
    Except String (List UInt8) := do
  rejectIf (keyIdPattern keyId = false) "invalid V2 delegation key ID"
  rejectIf (issuedAt ≤ 0 ∨ validUntil ≤ issuedAt) "invalid V2 delegation validity window"
  rejectIf (validUntil - issuedAt > maxTTLSeconds) "V2 delegation TTL exceeds 24 hours"
  let intentHash ← canonicalBusinessIntentHash prim space values
  return Text.bytes "PDP-DELEGATION-PROOF-V2" ++ (← packText "v2") ++ (← packText keyId) ++
    intentHash ++ (← Piece.encode values (.number "delegation_grant_id")) ++
    (← packItem values "agent_subject") ++ (← packInt64 issuedAt) ++ (← packInt64 validUntil)

def signDelegationProofV2 (keyId secret : String) (issuedAt validUntil : ℤ) :
    Except String String := do
  rejectIf (secret.toList.length < 32) "V2 delegation secret must contain at least 32 characters"
  let payload ← canonicalDelegationProofV2Bytes prim space values keyId issuedAt validUntil
  return "v2" ++ "." ++ keyId ++ "." ++
    Encoding.hexEncode (prim.hmac (Text.bytes secret) payload)

structure OrderContext where
  pdpDepartment : String
  city : String
  databaseName : String

/-- `_protected_delegated_request`, as the client of the PDP sends it under a
tenant: every value as its `str`. -/
def protectedDelegatedRequest (order : OrderContext) (proof : String) (issuedAt validUntil : ℤ)
    (tenantId : String) : Except String Server.CheckAccessRequest := do
  let agent := (← Dict.item values "agent_subject").toStr
  let delegator := (← Dict.item values "delegator_subject").toStr
  let context : List (String × String) :=
    [("amount", ← minorUnitsToDecimal (← Dict.item values "amount_minor")
        (← Dict.item values "currency_scale")),
      ("currency", (← Dict.item values "currency_code").toStr),
      ("delegation_grant_id", (← Dict.item values "delegation_grant_id").toStr),
      ("delegated_by", delegator),
      ("delegation_issued_at", formatInt issuedAt),
      ("delegation_valid_until", formatInt validUntil),
      ("delegation_nonce", (← Dict.item values "command_id").toStr),
      ("delegation_chain", delegator ++ "," ++ agent),
      ("delegation_proof", proof),
      ("resource.creator_id", (← Dict.item values "creator_subject").toStr),
      ("resource.department", order.pdpDepartment),
      ("branch", order.city),
      ("tool_context", "tool:auto_confirm_po"),
      ("execution_mode", "autonomous_run"),
      ("erp.revocation_fence", "odoo-revocation.v1:" ++ order.databaseName)]
  let intentContext ← canonicalBusinessIntentContext prim space values
  return {
    tenantId := tenantId
    subject := agent
    action := (← Dict.item values "action").toStr
    resource := "purchase_order:" ++ (← Dict.item values "resource_id").toStr
    context := Map.ofList (context ++ intentContext) }

end Encoders

end PolicyEngine.Addon

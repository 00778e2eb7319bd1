import PolicyEngine.Security.Intent

namespace PolicyEngine.Server

open PolicyEngine.Go PolicyEngine.Go.Result PolicyEngine.Security

structure CheckAccessRequest where
  tenantId : String
  subject : String
  action : String
  resource : String
  context : Map String

inductive Code
  | ok
  | canceled
  | invalidArgument
  | deadlineExceeded
  | permissionDenied
  | failedPrecondition
  | internal
  | unavailable
  | unauthenticated
deriving DecidableEq, Repr

structure Status where
  code : Code
  message : String
deriving DecidableEq, Repr

def delegationContextKeys : List String :=
  ["delegation_proof", "delegated_by", "delegation_valid_until", "delegation_issued_at",
    "delegation_nonce", "delegation_chain"]

def canonicalIntentContextPrefix : String := "cbi."

def canonicalIntentFields : List String :=
  ["intent_version", "tenant_id", "company_id", "resource_type", "resource_id", "action",
    "vendor_id", "currency_code", "currency_scale", "amount_minor", "line_digest", "record_state",
    "record_write_version", "state_witness", "creator_subject", "delegation_grant_id",
    "delegator_subject", "agent_subject", "command_id", "proof_version"]

def canonicalIntentContextKeys : List String :=
  canonicalIntentFields.map (canonicalIntentContextPrefix ++ ·)

def parseDelegationTimestamp (value field : String) : Except String Int64 :=
  if Text.trimSpace value = "" then .error ("missing " ++ field)
  else
    match Strconv.parseInt value with
    | some parsed => .ok parsed
    | none => .error ("invalid " ++ field)

def parseCanonicalInt64 (field value : String) (positive : Bool) : Except String Int64 :=
  let err := field ++ " is not a canonical integer"
  match Strconv.parseInt value with
  | none => .error err
  | some parsed =>
    if Strconv.formatInt parsed ≠ value ∨ (positive = true ∧ parsed ≤ 0) ∨
        (positive = false ∧ parsed < 0) then .error err
    else .ok parsed

def canonicalContext (context : Map String) (field : String) : String :=
  context.get "" (canonicalIntentContextPrefix ++ field)

def canonicalContextInt64 (context : Map String) (field : String) (positive : Bool) :
    Except String Int64 :=
  parseCanonicalInt64 field (canonicalContext context field) positive

namespace CheckAccessRequest

variable (req : CheckAccessRequest)

def value (key : String) : String := req.context.get "" key

def delegationProofInput : Except String DelegationProofInput := do
  let issuedAt ← parseDelegationTimestamp (req.value "delegation_issued_at") "delegation_issued_at"
  let validUntil ←
    parseDelegationTimestamp (req.value "delegation_valid_until") "delegation_valid_until"
  return {
    tenantId := req.tenantId
    grantId := req.value "delegation_grant_id"
    delegator := req.value "delegated_by"
    agent := req.subject
    action := req.action
    resource := req.resource
    amount := req.value "amount"
    delegationChain := req.value "delegation_chain"
    creatorId := req.value "resource.creator_id"
    toolContext := req.value "tool_context"
    executionMode := req.value "execution_mode"
    nonce := req.value "delegation_nonce"
    issuedAt := issuedAt
    validUntil := validUntil }

def requiresDelegationProofV2 : Bool :=
  if req.action = confirmPurchaseOrderAction then true
  else if !Text.hasPrefix req.resource "purchase_order:" then false
  else (parseCanonicalInt64 "resource_id" (Text.trimPrefix req.resource "purchase_order:")
    true).isOk

def rejectUnknownCanonicalIntentFields : Except String Unit :=
  match req.context.keys.find? fun key ↦
      Text.hasPrefix key canonicalIntentContextPrefix && !(canonicalIntentContextKeys.contains key) with
  | some key => .error ("unknown canonical business intent field " ++ key)
  | none => .ok ()

def bindingChecks (intent : CanonicalBusinessIntent) : List (String × String × String) :=
  [("tenant", req.tenantId, intent.tenantId), ("subject", req.subject, intent.agentSubject),
    ("action", req.action, intent.action),
    ("resource", req.resource, "purchase_order:" ++ Strconv.formatInt intent.resourceId),
    ("grant", req.value "delegation_grant_id", Strconv.formatInt intent.delegationGrantId),
    ("delegator", req.value "delegated_by", intent.delegatorSubject),
    ("creator", req.value "resource.creator_id", intent.creatorSubject),
    ("command", req.value "delegation_nonce", intent.commandId),
    ("chain", req.value "delegation_chain", intent.delegatorSubject ++ "," ++ intent.agentSubject)]

def validateIntentRequestBinding (intent : CanonicalBusinessIntent) : Except String Unit :=
  match (req.bindingChecks intent).find? fun check ↦ check.2.1 ≠ check.2.2 with
  | some check => .error (check.1 ++ " does not match canonical business intent")
  | none => .ok ()

theorem bindingChecks_of_ok {req : CheckAccessRequest} {intent : CanonicalBusinessIntent}
    (h : req.validateIntentRequestBinding intent = .ok ()) :
    ∀ check ∈ req.bindingChecks intent, check.2.1 = check.2.2 := by
  unfold validateIntentRequestBinding at h
  split at h
  · exact nomatch h
  · rename_i hnone
    simpa using hnone

def delegationProofV2Input (prim : Primitives) : Except String DelegationProofV2Input := do
  req.rejectUnknownCanonicalIntentFields
  let companyId ← canonicalContextInt64 req.context "company_id" true
  let resourceId ← canonicalContextInt64 req.context "resource_id" true
  let vendorId ← canonicalContextInt64 req.context "vendor_id" true
  let currencyScale ← canonicalContextInt64 req.context "currency_scale" false
  let amountMinor ← canonicalContextInt64 req.context "amount_minor" false
  let grantId ← canonicalContextInt64 req.context "delegation_grant_id" true
  let intent : CanonicalBusinessIntent := {
    intentVersion := canonicalContext req.context "intent_version"
    tenantId := canonicalContext req.context "tenant_id"
    companyId := companyId
    resourceType := canonicalContext req.context "resource_type"
    resourceId := resourceId
    action := canonicalContext req.context "action"
    vendorId := vendorId
    currencyCode := canonicalContext req.context "currency_code"
    currencyScale := currencyScale
    amountMinor := amountMinor
    lineDigest := canonicalContext req.context "line_digest"
    recordState := canonicalContext req.context "record_state"
    recordWriteVersion := canonicalContext req.context "record_write_version"
    stateWitness := canonicalContext req.context "state_witness"
    creatorSubject := canonicalContext req.context "creator_subject"
    delegationGrantId := grantId
    delegatorSubject := canonicalContext req.context "delegator_subject"
    agentSubject := canonicalContext req.context "agent_subject"
    commandId := canonicalContext req.context "command_id"
    proofVersion := canonicalContext req.context "proof_version" }
  intent.validate prim
  req.validateIntentRequestBinding intent
  let issuedAt ← parseDelegationTimestamp (req.value "delegation_issued_at") "delegation_issued_at"
  let validUntil ←
    parseDelegationTimestamp (req.value "delegation_valid_until") "delegation_valid_until"
  return ⟨intent, issuedAt, validUntil⟩

theorem intent_of_delegationProofV2Input {req : CheckAccessRequest} {prim : Primitives}
    {input : DelegationProofV2Input} (h : req.delegationProofV2Input prim = .ok input) :
    input.intent.validate prim = .ok () ∧
      req.validateIntentRequestBinding input.intent = .ok () := by
  simp only [delegationProofV2Input, bind_eq_ok] at h
  obtain ⟨_, -, _, -, _, -, _, -, _, -, _, -, _, -, _, hvalid, _, hbinding, _, -, _, -, hinput⟩ := h
  obtain rfl := Except.ok.inj hinput
  exact ⟨hvalid, hbinding⟩

end CheckAccessRequest

def canonicalMajorAmount (amountMinor scale : Int64) : String :=
  if scale = 0 then Strconv.formatInt amountMinor
  else
    let factor : Int64 := (List.replicate scale.toNatClampNeg 10).foldl (· * ·) 1
    let whole := amountMinor / factor
    let fraction := amountMinor % factor
    if fraction = 0 then Strconv.formatInt whole
    else
      -- `%0*d` pads the digits with zeros to the scale.
      let digits := Strconv.formatInt fraction
      let fractionText :=
        String.ofList (List.replicate (scale.toNatClampNeg - digits.length) '0') ++ digits
      Strconv.formatInt whole ++ "." ++ Text.trimRight fractionText '0'

def boundEntries (intent : CanonicalBusinessIntent) : List (String × String) :=
  [("amount", canonicalMajorAmount intent.amountMinor intent.currencyScale),
    ("amount_minor", Strconv.formatInt intent.amountMinor), ("currency", intent.currencyCode),
    ("resource.creator_id", intent.creatorSubject), ("delegated_by", intent.delegatorSubject),
    ("delegation_chain", intent.delegatorSubject ++ "," ++ intent.agentSubject),
    ("tool_context", "tool:auto_confirm_po"), ("execution_mode", "autonomous_run")]

def bindCanonicalIntentContext (req : CheckAccessRequest) (intent : CanonicalBusinessIntent) :
    CheckAccessRequest :=
  { req with context := (boundEntries intent).foldl (fun m e ↦ m.insert e.1 e.2) req.context }

def validateDelegationV2 (prim : Primitives) (mgr : DelegationManager) (now : ℤ)
    (req : CheckAccessRequest) (proof : String) : Except String CheckAccessRequest := do
  let input ← req.delegationProofV2Input prim
  mgr.verifyProofV2 prim now input proof
  return bindCanonicalIntentContext req input.intent

/-- `validateDelegation`, returning the request with the context it leaves. -/
def validateDelegation (prim : Primitives) (delegationMgr : Option DelegationManager) (now : ℤ)
    (req : CheckAccessRequest) : Except Status CheckAccessRequest :=
  if req.value "delegation_grant_id" = "" then
    match (delegationContextKeys ++ canonicalIntentContextKeys).find? fun key ↦
        req.value key ≠ "" with
    | some key =>
      .error ⟨.permissionDenied, key ++ " không hợp lệ khi thiếu delegation_grant_id"⟩
    | none => .ok { req with context := req.context.insert "delegation_chain" req.subject }
  else
    match delegationMgr with
    | none => .error ⟨.internal, "delegation manager chưa được cấu hình"⟩
    | some mgr =>
      let proof := req.value "delegation_proof"
      if proof = "" then
        .error ⟨.permissionDenied, "delegated request bắt buộc có delegation_proof"⟩
      else if req.requiresDelegationProofV2 then
        match validateDelegationV2 prim mgr now req proof with
        | .error e => .error ⟨.permissionDenied, "delegation_proof v2 không hợp lệ: " ++ e⟩
        | .ok req => .ok req
      else
        match req.delegationProofInput with
        | .error e => .error ⟨.permissionDenied, "delegation tuple không hợp lệ: " ++ e⟩
        | .ok input =>
          match mgr.verifyProof prim now input proof with
          | .error _ =>
            .error ⟨.permissionDenied, "delegation_proof không hợp lệ hoặc đã hết hạn"⟩
          | .ok () => .ok req

section Routes

variable (prim : Primitives) (mgr : DelegationManager) (now : ℤ) (req : CheckAccessRequest)

structure AcceptedV1 (input : DelegationProofInput) : Prop where
  route : req.requiresDelegationProofV2 = false
  tuple : req.delegationProofInput = .ok input
  verified : mgr.verifyProof prim now input (req.value "delegation_proof") = .ok ()

structure AcceptedV2 (input : DelegationProofV2Input) : Prop where
  route : req.requiresDelegationProofV2 = true
  tuple : req.delegationProofV2Input prim = .ok input
  verified : mgr.verifyProofV2 prim now input (req.value "delegation_proof") = .ok ()

variable {prim mgr now req}

theorem validateDelegation_direct_iff {delegationMgr : Option DelegationManager}
    {req' : CheckAccessRequest} (hgrant : req.value "delegation_grant_id" = "") :
    validateDelegation prim delegationMgr now req = .ok req' ↔
      (∀ key ∈ delegationContextKeys ++ canonicalIntentContextKeys, req.value key = "") ∧
        req' = { req with context := req.context.insert "delegation_chain" req.subject } := by
  unfold validateDelegation
  rw [if_pos hgrant]
  split
  · rename_i key hkey
    have hne := List.find?_some hkey
    constructor
    · intro h
      exact nomatch h
    · rintro ⟨hempty, -⟩
      simp [hempty key (List.mem_of_find?_eq_some hkey)] at hne
  · rename_i hnone
    have hempty : ∀ key ∈ delegationContextKeys ++ canonicalIntentContextKeys,
        req.value key = "" := by
      intro key hkey
      simpa using List.find?_eq_none.mp hnone key hkey
    constructor
    · intro h
      exact ⟨hempty, (Except.ok.inj h).symm⟩
    · rintro ⟨-, rfl⟩
      rfl

theorem validateDelegation_none {req' : CheckAccessRequest}
    (hgrant : req.value "delegation_grant_id" ≠ "") :
    validateDelegation prim none now req ≠ .ok req' := by
  rw [validateDelegation, if_neg hgrant]
  exact nofun

theorem validateDelegation_some_eq_ok_iff {req' : CheckAccessRequest}
    (hgrant : req.value "delegation_grant_id" ≠ "") :
    validateDelegation prim (some mgr) now req = .ok req' ↔
      req.value "delegation_proof" ≠ "" ∧
        ((∃ input, AcceptedV1 prim mgr now req input ∧ req' = req) ∨
          ∃ input, AcceptedV2 prim mgr now req input ∧
            req' = bindCanonicalIntentContext req input.intent) := by
  unfold validateDelegation
  rw [if_neg hgrant]
  dsimp only
  split_ifs with hproof hroute
  · exact ⟨fun h ↦ (nomatch h), fun h ↦ absurd hproof h.1⟩
  · constructor
    · intro h
      split at h
      · exact nomatch h
      · rename_i hv2
        simp only [validateDelegationV2, bind_eq_ok] at hv2
        obtain ⟨input, htuple, _, hverified, hreq⟩ := hv2
        obtain rfl := Except.ok.inj h
        exact ⟨hproof, .inr ⟨input, ⟨hroute, htuple, hverified⟩, (Except.ok.inj hreq).symm⟩⟩
    · rintro ⟨-, ⟨_, hv1, -⟩ | ⟨input, hv2, rfl⟩⟩
      · exact absurd hroute (by simp [hv1.route])
      · have hok : validateDelegationV2 prim mgr now req (req.value "delegation_proof") =
            .ok (bindCanonicalIntentContext req input.intent) := by
          simp only [validateDelegationV2, bind_eq_ok]
          exact ⟨input, hv2.tuple, (), hv2.verified, rfl⟩
        rw [hok]
  · constructor
    · intro h
      split at h
      · exact nomatch h
      · rename_i input htuple
        split at h
        · exact nomatch h
        · rename_i hverified
          exact ⟨hproof, .inl ⟨input, ⟨Bool.eq_false_iff.mpr hroute, htuple, hverified⟩,
            (Except.ok.inj h).symm⟩⟩
    · rintro ⟨-, ⟨_, hv1, rfl⟩ | ⟨_, hv2, -⟩⟩
      · rw [hv1.tuple]
        dsimp only
        rw [hv1.verified]
      · exact absurd hv2.route hroute

theorem validateDelegation_frame {delegationMgr : Option DelegationManager}
    {req' : CheckAccessRequest} (h : validateDelegation prim delegationMgr now req = .ok req') :
    req' = { req with context := req'.context } := by
  by_cases hgrant : req.value "delegation_grant_id" = ""
  · obtain ⟨-, rfl⟩ := (validateDelegation_direct_iff hgrant).mp h
    rfl
  · cases delegationMgr with
    | none => exact absurd h (validateDelegation_none hgrant)
    | some =>
      obtain ⟨-, ⟨_, -, rfl⟩ | ⟨_, -, rfl⟩⟩ := (validateDelegation_some_eq_ok_iff hgrant).mp h
      · rfl
      · rfl

theorem validateDelegation_of_acceptedV1 {input : DelegationProofInput}
    (hgrant : req.value "delegation_grant_id" ≠ "") (hproof : req.value "delegation_proof" ≠ "")
    (h : AcceptedV1 prim mgr now req input) :
    validateDelegation prim (some mgr) now req = .ok req :=
  (validateDelegation_some_eq_ok_iff hgrant).mpr ⟨hproof, .inl ⟨input, h, rfl⟩⟩

end Routes

end PolicyEngine.Server

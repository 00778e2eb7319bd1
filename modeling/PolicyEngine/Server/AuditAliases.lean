import PolicyEngine.Audit.Redaction
import PolicyEngine.Server.SeparationOfDuties

namespace PolicyEngine.Server

open PolicyEngine.Go PolicyEngine.Go.Result PolicyEngine.Security PolicyEngine.Audit

def withAuditCorrelation (correlation : Option (String × String)) (source : Map String) :
    Map String :=
  match correlation with
  | none => source
  | some (requestId, traceId) => (source.insert "request_id" requestId).insert "trace_id" traceId

/-- The context that `CheckAccess` hands to the logger, redacted. -/
def auditContext (correlation : Option (String × String)) (req : CheckAccessRequest) :
    Option (Map String) :=
  redactedAuditContext (withAuditCorrelation correlation req.context)

def maskedValues (req : CheckAccessRequest) : List String :=
  [req.value "delegation_nonce", req.value "delegated_by", req.value "resource.creator_id"]

def Masked (audit : Option (Map String)) (values : List String) : Prop :=
  ∀ m ∈ audit, ∀ key value, m.lookup key = some value → value ∈ values →
    shouldRedactAuditContextKey key = true

def aliasKeys : List String := ["cbi.command_id", "cbi.delegator_subject", "cbi.creator_subject"]

theorem shouldRedact_aliasKeys : aliasKeys.all (!shouldRedactAuditContextKey ·) = true := by decide

section Accepted

variable {prim : Primitives} {mgr : DelegationManager} {now : ℤ} {req req' : CheckAccessRequest}
  {proof : String}

theorem subjects_ne_empty {intent : CanonicalBusinessIntent} (h : intent.validateFields = .ok ()) :
    intent.creatorSubject ≠ "" ∧ intent.delegatorSubject ≠ "" ∧ intent.commandId ≠ "" := by
  refine ⟨CanonicalBusinessIntent.creatorSubject_of_validateFields h, ?_, ?_⟩
  all_goals
    simp only [CanonicalBusinessIntent.validateFields, bind_eq_ok] at h
    obtain ⟨_, -, _, -, _, -, _, -, _, -, _, -, _, -, _, -, _, -, _, -, _, -, _, -, _, hdelegator,
      _, -, _, hcommand, -⟩ := h
    intro hempty
  · rw [hempty] at hdelegator
    cases (bind_unit_eq_ok.mp hdelegator).1
  · rw [hempty] at hcommand
    cases hcommand

theorem intent_of_context {input : DelegationProofV2Input}
    (h : req.delegationProofV2Input prim = .ok input) :
    input.intent.commandId = req.value "cbi.command_id" ∧
      input.intent.delegatorSubject = req.value "cbi.delegator_subject" ∧
      input.intent.creatorSubject = req.value "cbi.creator_subject" := by
  simp only [CheckAccessRequest.delegationProofV2Input, bind_eq_ok] at h
  obtain ⟨_, -, _, -, _, -, _, -, _, -, _, -, _, -, _, -, _, -, _, -, _, -, hinput⟩ := h
  cases hinput
  exact ⟨rfl, rfl, rfl⟩

theorem lookup_unbound {intent : CanonicalBusinessIntent} {key : String}
    (h : key ∉ ["amount", "amount_minor", "currency", "resource.creator_id", "delegated_by",
      "delegation_chain", "tool_context", "execution_mode"]) :
    (bindCanonicalIntentContext req intent).context.lookup key = req.context.lookup key :=
  Map.lookup_foldl_insert_of_notMem req.context h

theorem lookup_of_value {key value : String} (hvalue : value = req.value key) (hne : value ≠ "") :
    req.context.lookup key = some value := by
  rw [CheckAccessRequest.value, Map.get] at hvalue
  cases hlookup : req.context.lookup key with
  | none =>
    rw [hlookup] at hvalue
    exact absurd hvalue hne
  | some =>
    rw [hlookup] at hvalue
    rw [hvalue, Option.getD_some]

theorem lookup_aliasKeys (h : validateDelegationV2 prim mgr now req proof = .ok req') :
    req'.context.lookup "cbi.command_id" = some (req.value "delegation_nonce") ∧
      req'.context.lookup "cbi.delegator_subject" = some (req.value "delegated_by") ∧
      req'.context.lookup "cbi.creator_subject" = some (req.value "resource.creator_id") := by
  obtain ⟨input, hinput, rfl⟩ := of_validateDelegationV2 h
  obtain ⟨hvalid, hbinding⟩ := CheckAccessRequest.intent_of_delegationProofV2Input hinput
  have hchecks := CheckAccessRequest.bindingChecks_of_ok hbinding
  obtain ⟨hcreator, hdelegator, hcommand⟩ :=
    subjects_ne_empty (CanonicalBusinessIntent.validateFields_of_validate hvalid)
  obtain ⟨hcommand', hdelegator', hcreator'⟩ := intent_of_context hinput
  have hnonce : req.value "delegation_nonce" = input.intent.commandId :=
    hchecks ("command", req.value "delegation_nonce", _) (by simp [CheckAccessRequest.bindingChecks])
  have hby : req.value "delegated_by" = input.intent.delegatorSubject :=
    hchecks ("delegator", req.value "delegated_by", _) (by simp [CheckAccessRequest.bindingChecks])
  have hid : req.value "resource.creator_id" = input.intent.creatorSubject :=
    hchecks ("creator", req.value "resource.creator_id", _) (by simp [CheckAccessRequest.bindingChecks])
  refine ⟨?_, ?_, ?_⟩
  · rw [lookup_unbound (by decide), hnonce]
    exact lookup_of_value hcommand' hcommand
  · rw [lookup_unbound (by decide), hby]
    exact lookup_of_value hdelegator' hdelegator
  · rw [lookup_unbound (by decide), hid]
    exact lookup_of_value hcreator' hcreator

theorem lookup_aliases (h : validateDelegationV2 prim mgr now req proof = .ok req') :
    ∀ value ∈ maskedValues req, ∃ key ∈ aliasKeys, req'.context.lookup key = some value := by
  obtain ⟨hcommand, hdelegator, hcreator⟩ := lookup_aliasKeys h
  simp only [maskedValues, List.forall_mem_cons]
  exact ⟨⟨_, by decide, hcommand⟩, ⟨_, by decide, hdelegator⟩, ⟨_, by decide, hcreator⟩,
    List.forall_mem_nil _⟩

theorem lookup_withAuditCorrelation {key : String} (h : key ∈ aliasKeys)
    (correlation : Option (String × String)) (source : Map String) :
    (withAuditCorrelation correlation source).lookup key = source.lookup key := by
  have hall : ∀ key ∈ aliasKeys, key ≠ "request_id" ∧ key ≠ "trace_id" := by decide
  obtain ⟨hrequest, htrace⟩ := hall key h
  cases correlation with
  | none => rfl
  | some =>
    rw [withAuditCorrelation, AList.lookup_insert_ne htrace, AList.lookup_insert_ne hrequest]

theorem not_masked_of_lookup {correlation : Option (String × String)} {key value : String}
    (hkey : key ∈ aliasKeys) (hlookup : req'.context.lookup key = some value) :
    ¬ Masked (auditContext correlation req') [value] := by
  intro hmasked
  rw [← lookup_withAuditCorrelation hkey correlation] at hlookup
  obtain ⟨audit, haudit⟩ := exists_redactedAuditContext hlookup
  have hopen : shouldRedactAuditContextKey key = false := by
    simpa using List.all_eq_true.mp shouldRedact_aliasKeys key hkey
  have hvalue : audit.lookup key = some value := by
    rw [lookup_redactedAuditContext haudit, hlookup, Option.map_some, redactedValue, hopen]
    rfl
  have hredacted := hmasked audit haudit key value hvalue List.mem_cons_self
  rw [hopen] at hredacted
  cases hredacted

/-- The nonce, the delegator and the creator of an accepted request all enter
the audit queue as they are. -/
theorem alias_keys_unmasked (h : validateDelegationV2 prim mgr now req proof = .ok req')
    (correlation : Option (String × String)) :
    ∀ value ∈ maskedValues req, ¬ Masked (auditContext correlation req') [value] := by
  intro value hvalue
  obtain ⟨_, hkey, hlookup⟩ := lookup_aliases h value hvalue
  exact not_masked_of_lookup hkey hlookup

end Accepted

theorem alias_keys_unmasked_order : ∃ req proof req',
    validateDelegationV2 .standard (newDelegationManagerWithSecret
      "0123456789abcdef0123456789abcdef") (2000 * Time.second) req proof = .ok req' ∧
    ∀ value ∈ maskedValues req, ¬ Masked (auditContext none req') [value] := by
  obtain ⟨req, proof, -, haccepted⟩ :=
    exists_verified_request (CanonicalBusinessIntent.validate_eq_ok.mp orderIntent_valid)
  exact ⟨req, proof, _, haccepted, alias_keys_unmasked haccepted none⟩

/-- The nonce of the order stands in the audit context under `cbi.command_id`. -/
theorem order_nonce_unmasked : ∃ req proof req',
    validateDelegationV2 .standard (newDelegationManagerWithSecret
      "0123456789abcdef0123456789abcdef") (2000 * Time.second) req proof = .ok req' ∧
    req'.context.lookup "cbi.command_id" = some (req.value "delegation_nonce") ∧
    ¬ Masked (auditContext none req') [req.value "delegation_nonce"] := by
  obtain ⟨req, proof, -, haccepted⟩ :=
    exists_verified_request (CanonicalBusinessIntent.validate_eq_ok.mp orderIntent_valid)
  have hlookup := (lookup_aliasKeys haccepted).1
  exact ⟨req, proof, _, haccepted, hlookup, not_masked_of_lookup (by decide) hlookup⟩

end PolicyEngine.Server

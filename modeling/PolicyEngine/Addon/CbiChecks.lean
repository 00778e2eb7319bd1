import PolicyEngine.Addon.CbiProtocol
import PolicyEngine.Security.IntentBytes

namespace PolicyEngine.Addon

open PolicyEngine.Go PolicyEngine.Go.Result PolicyEngine.Python PolicyEngine.Security

section Values

variable {space : Char → Bool} {field kind text : String} {value : Value}

theorem integer_eq_ok {minimum maximum number : ℤ} :
    integer field minimum maximum value = .ok number ↔
      value = .int number ∧ minimum ≤ number ∧ number ≤ maximum := by
  cases value with
  | int =>
    rw [integer]
    split_ifs with h
    · refine ⟨nofun, ?_⟩
      rintro ⟨heq, _, _⟩
      cases heq
      omega
    · rw [not_or] at h
      constructor
      · intro heq
        cases heq
        exact ⟨rfl, by omega, by omega⟩
      · rintro ⟨heq, -, -⟩
        cases heq
        rfl
  | str => exact ⟨nofun, fun h ↦ nomatch h.1⟩
  | other => exact ⟨nofun, fun h ↦ nomatch h.1⟩

/-- A check that accepts the texts that are not bad, and no other value. -/
theorem check_eq_ok {check : Value → Except String Unit} {err : String} {bad good : String → Prop}
    [DecidablePred bad] (hgood : ∀ text, ¬ bad text ↔ good text)
    (hstr : ∀ text, check (.str text) = if bad text then .error err else .ok ())
    (hint : ∀ n, check (.int n) = .error err) (hother : ∀ text, check (.other text) = .error err) :
    check value = .ok () ↔ ∃ text, value = .str text ∧ good text := by
  cases value with
  | str text =>
    rw [hstr]
    split_ifs with h
    · refine ⟨nofun, ?_⟩
      rintro ⟨_, heq, htext⟩
      cases heq
      exact absurd h ((hgood text).mpr htext)
    · exact ⟨fun _ ↦ ⟨text, rfl, (hgood text).mp h⟩, fun _ ↦ rfl⟩
  | int =>
    rw [hint]
    exact ⟨nofun, fun ⟨_, h, _⟩ ↦ nomatch h⟩
  | other =>
    rw [hother]
    exact ⟨nofun, fun ⟨_, h, _⟩ ↦ nomatch h⟩

theorem checkText_eq_ok : checkText space field value = .ok () ↔
    ∃ text, value = .str text ∧ text ≠ "" ∧ strip space text = text := by
  refine check_eq_ok (fun text ↦ ?_) (fun _ ↦ rfl) (fun _ ↦ rfl) fun _ ↦ rfl
  rw [not_or, not_not]

theorem checkDigest_eq_ok : checkDigest field value = .ok () ↔
    ∃ text, value = .str text ∧ digestPattern text = true :=
  check_eq_ok (fun _ ↦ (Bool.not_eq_false _).to_iff) (fun _ ↦ rfl) (fun _ ↦ rfl) fun _ ↦ rfl

theorem checkTimestamp_eq_ok : checkTimestamp field value = .ok () ↔
    ∃ text, value = .str text ∧
      timestampShape "0000-00-00T00:00:00.000000Z".toList text.toList = true ∧
      strptime text = true := by
  refine check_eq_ok (fun text ↦ ?_) (fun _ ↦ rfl) (fun _ ↦ rfl) fun _ ↦ rfl
  rw [not_or, Bool.not_eq_false, Bool.not_eq_false]

theorem checkCurrency_eq_ok : checkCurrency value = .ok () ↔
    ∃ text, value = .str text ∧ text.toList.length = 3 ∧ text.toList.all Char.isUpper = true := by
  refine check_eq_ok (fun text ↦ ?_) (fun _ ↦ rfl) (fun _ ↦ rfl) fun _ ↦ rfl
  rw [not_or, not_not, Bool.not_eq_false]

theorem checkSubject_eq_ok : checkSubject space field kind value = .ok () ↔
    ∃ text, value = .str text ∧ text ≠ "" ∧ strip space text = text ∧
      Text.hasPrefix text kind = true ∧ text.toList.length ≠ kind.toList.length := by
  unfold checkSubject
  rw [bind_unit_eq_ok, checkText_eq_ok]
  constructor
  · rintro ⟨⟨text, rfl, hne, hstrip⟩, h⟩
    have h' := rejectIf_eq_ok.mp h
    rw [not_or, Bool.not_eq_false] at h'
    exact ⟨text, rfl, hne, hstrip, h'⟩
  · rintro ⟨text, rfl, hne, hstrip, h⟩
    refine ⟨⟨text, rfl, hne, hstrip⟩, ?_⟩
    refine rejectIf_eq_ok.mpr ?_
    rw [not_or, Bool.not_eq_false]
    exact h

theorem checkCommand_of_ok (h : checkCommand value = .ok ()) :
    ∃ text decoded, value = .str text ∧ commandPattern text = true ∧
      urlsafeB64decode text = some decoded ∧ decoded.length = 32 ∧
      Base64.rawURL.encode decoded = text := by
  cases value with
  | str text =>
    rw [checkCommand] at h
    split_ifs at h with hpattern
    split at h
    · cases h
    · rename_i decoded hdecode
      split_ifs at h with hform
      rw [not_or, not_not, not_not] at hform
      exact ⟨text, decoded, rfl, by simpa using hpattern, hdecode, hform⟩
  | int => cases h
  | other => cases h

end Values

def entries (intent : CanonicalBusinessIntent) : List (String × Value) :=
  [("intent_version", .str intent.intentVersion), ("tenant_id", .str intent.tenantId),
    ("company_id", .int intent.companyId.toInt), ("resource_type", .str intent.resourceType),
    ("resource_id", .int intent.resourceId.toInt), ("action", .str intent.action),
    ("vendor_id", .int intent.vendorId.toInt), ("currency_code", .str intent.currencyCode),
    ("currency_scale", .int intent.currencyScale.toInt),
    ("amount_minor", .int intent.amountMinor.toInt), ("line_digest", .str intent.lineDigest),
    ("record_state", .str intent.recordState),
    ("record_write_version", .str intent.recordWriteVersion),
    ("state_witness", .str intent.stateWitness), ("creator_subject", .str intent.creatorSubject),
    ("delegation_grant_id", .int intent.delegationGrantId.toInt),
    ("delegator_subject", .str intent.delegatorSubject),
    ("agent_subject", .str intent.agentSubject), ("command_id", .str intent.commandId),
    ("proof_version", .str intent.proofVersion)]

def Reads (values : Dict) (intent : CanonicalBusinessIntent) : Prop :=
  ∀ e ∈ entries intent, Dict.item values e.1 = .ok e.2

def Stripped (space : Char → Bool) (text : String) : Prop := text ≠ "" ∧ strip space text = text

def SubjectOf (space : Char → Bool) (kind text : String) : Prop :=
  text ≠ "" ∧ strip space text = text ∧ Text.hasPrefix text kind = true ∧
    text.toList.length ≠ kind.toList.length

/-- What `_validate_fields` leaves of the values. -/
structure Checked (space : Char → Bool) (intent : CanonicalBusinessIntent) : Prop where
  intentVersion : intent.intentVersion = canonicalBusinessIntentVersion
  tenantId : Stripped space intent.tenantId
  positive : 1 ≤ intent.companyId.toInt ∧ 1 ≤ intent.resourceId.toInt ∧
    1 ≤ intent.vendorId.toInt ∧ 1 ≤ intent.delegationGrantId.toInt
  resourceType : intent.resourceType = purchaseOrderResourceType
  action : intent.action = confirmPurchaseOrderAction
  currencyCode : intent.currencyCode.toList.length = 3 ∧
    intent.currencyCode.toList.all Char.isUpper = true
  currencyScale : 0 ≤ intent.currencyScale.toInt ∧ intent.currencyScale.toInt ≤ 6
  amountMinor : 0 ≤ intent.amountMinor.toInt
  lineDigest : digestPattern intent.lineDigest = true
  recordState : Stripped space intent.recordState
  recordWriteVersion :
    timestampShape "0000-00-00T00:00:00.000000Z".toList intent.recordWriteVersion.toList = true ∧
      strptime intent.recordWriteVersion = true
  stateWitness : digestPattern intent.stateWitness = true
  creatorSubject : SubjectOf space "user:" intent.creatorSubject
  delegatorSubject : SubjectOf space "user:" intent.delegatorSubject
  agentSubject : SubjectOf space "agent:" intent.agentSubject
  commandId : ∃ decoded, commandPattern intent.commandId = true ∧
    urlsafeB64decode intent.commandId = some decoded ∧ decoded.length = 32 ∧
    Base64.rawURL.encode decoded = intent.commandId
  proofVersion : intent.proofVersion = canonicalIntentProofVersion

theorem toInt_ofInt_of_mem {n lo hi : ℤ} (hlo : -2 ^ 63 ≤ lo) (hhi : hi ≤ int64Max)
    (h : lo ≤ n ∧ n ≤ hi) : (Int64.ofInt n).toInt = n := by
  unfold int64Max at hhi
  exact Int64.toInt_ofInt_of_le (by omega) (by omega)

variable {space : Char → Bool} {values : Dict}

theorem validateFields_eq_ok (h : validateFields space values true = .ok ()) :
    ∃ intent, Reads values intent ∧ Checked space intent := by
  unfold validateFields at h
  simp only [bind_unit_eq_ok, if_true, bind_check_eq_ok] at h
  simp only [bind_eq_ok, exists_unit_eq_ok, integer_eq_ok, checkText_eq_ok,
    checkDigest_eq_ok, checkTimestamp_eq_ok, checkCurrency_eq_ok, checkSubject_eq_ok,
    rejectIf_eq_ok, not_not, ne_eq, exists_eq_right] at h
  obtain ⟨-, iVersion, hTenant, hCompany, hResource, hVendor, hGrant, iType, iAction, hCurrency,
    hScale, hAmount, hLine, hState, hWrite, hWitness, hCreator, hDelegator, hAgent, hCommand,
    iProof⟩ := h
  obtain ⟨_, iTenant, tenant, rfl, hTenant⟩ := hTenant
  obtain ⟨_, iCompany, company, rfl, hCompany⟩ := hCompany
  obtain ⟨_, iResource, resource, rfl, hResource⟩ := hResource
  obtain ⟨_, iVendor, vendor, rfl, hVendor⟩ := hVendor
  obtain ⟨_, iGrant, grant, rfl, hGrant⟩ := hGrant
  obtain ⟨_, iCurrency, currency, rfl, hCurrency⟩ := hCurrency
  obtain ⟨_, iScale, scale, rfl, hScale⟩ := hScale
  obtain ⟨_, iAmount, amount, rfl, hAmount⟩ := hAmount
  obtain ⟨_, iLine, line, rfl, hLine⟩ := hLine
  obtain ⟨_, iState, state, rfl, hState⟩ := hState
  obtain ⟨_, iWrite, write, rfl, hWrite⟩ := hWrite
  obtain ⟨_, iWitness, witness, rfl, hWitness⟩ := hWitness
  obtain ⟨_, iCreator, creator, rfl, hCreator⟩ := hCreator
  obtain ⟨_, iDelegator, delegator, rfl, hDelegator⟩ := hDelegator
  obtain ⟨_, iAgent, agent, rfl, hAgent⟩ := hAgent
  obtain ⟨_, iCommand, hCommand⟩ := hCommand
  obtain ⟨command, decoded, rfl, hDecoded⟩ := checkCommand_of_ok hCommand
  have hcompany : (Int64.ofInt company).toInt = company :=
    toInt_ofInt_of_mem (by decide) le_rfl hCompany
  have hresource : (Int64.ofInt resource).toInt = resource :=
    toInt_ofInt_of_mem (by decide) le_rfl hResource
  have hvendor : (Int64.ofInt vendor).toInt = vendor :=
    toInt_ofInt_of_mem (by decide) le_rfl hVendor
  have hgrant : (Int64.ofInt grant).toInt = grant :=
    toInt_ofInt_of_mem (by decide) le_rfl hGrant
  have hscale : (Int64.ofInt scale).toInt = scale :=
    toInt_ofInt_of_mem (by decide) (by decide) hScale
  have hamount : (Int64.ofInt amount).toInt = amount :=
    toInt_ofInt_of_mem (by decide) le_rfl hAmount
  refine ⟨⟨intentVersion, tenant, .ofInt company, resourceType, .ofInt resource, confirmAction,
    .ofInt vendor, currency, .ofInt scale, .ofInt amount, line, state, write, witness, creator,
    .ofInt grant, delegator, agent, command, intentProofVersion⟩, ?_, ?_⟩
  · simp only [Reads, entries, List.forall_mem_cons, hcompany, hresource, hvendor, hgrant, hscale,
      hamount]
    exact ⟨iVersion, iTenant, iCompany, iType, iResource, iAction, iVendor, iCurrency, iScale,
      iAmount, iLine, iState, iWrite, iWitness, iCreator, iGrant, iDelegator, iAgent, iCommand,
      iProof, List.forall_mem_nil _⟩
  · refine ⟨rfl, hTenant, ?_, rfl, rfl, hCurrency, ?_, ?_, hLine, hState, hWrite, hWitness,
      hCreator, hDelegator, hAgent, ⟨decoded, hDecoded⟩, rfl⟩
    · simp only [hcompany, hresource, hvendor, hgrant]
      exact ⟨hCompany.1, hResource.1, hVendor.1, hGrant.1⟩
    · simp only [hscale]
      exact hScale
    · simp only [hamount]
      exact hAmount.1

end PolicyEngine.Addon

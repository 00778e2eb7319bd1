import PolicyEngine.Addon.CbiAgreement

namespace PolicyEngine.Addon

open PolicyEngine.Go PolicyEngine.Go.Result PolicyEngine.Python PolicyEngine.Security
open PolicyEngine.Server

section Request

variable (intent : CanonicalBusinessIntent) (order : OrderContext) (proof amount : String)
  (issuedAt validUntil : ℤ)

def requestContext : List (String × String) :=
  [("amount", amount), ("currency", intent.currencyCode),
    ("delegation_grant_id", Strconv.formatInt intent.delegationGrantId),
    ("delegated_by", intent.delegatorSubject), ("delegation_issued_at", formatInt issuedAt),
    ("delegation_valid_until", formatInt validUntil), ("delegation_nonce", intent.commandId),
    ("delegation_chain", intent.delegatorSubject ++ "," ++ intent.agentSubject),
    ("delegation_proof", proof), ("resource.creator_id", intent.creatorSubject),
    ("resource.department", order.pdpDepartment), ("branch", order.city),
    ("tool_context", "tool:auto_confirm_po"), ("execution_mode", "autonomous_run"),
    ("erp.revocation_fence", "odoo-revocation.v1:" ++ order.databaseName)] ++
    (entries intent).map fun e ↦ ("cbi." ++ e.1, e.2.toStr)

def requestKeys : List String :=
  ["amount", "currency", "delegation_grant_id", "delegated_by", "delegation_issued_at",
    "delegation_valid_until", "delegation_nonce", "delegation_chain", "delegation_proof",
    "resource.creator_id", "resource.department", "branch", "tool_context", "execution_mode",
    "erp.revocation_fence"] ++ canonicalIntentContextKeys

def protectedRequest : CheckAccessRequest where
  tenantId := intent.tenantId
  subject := intent.agentSubject
  action := intent.action
  resource := "purchase_order:" ++ Strconv.formatInt intent.resourceId
  context := Map.ofList (requestContext intent order proof amount issuedAt validUntil)

theorem requestKeys_nodup : requestKeys.Nodup := by decide

variable {intent order proof amount issuedAt validUntil}

theorem requestContext_keys :
    (requestContext intent order proof amount issuedAt validUntil).map Prod.fst = requestKeys :=
  rfl

theorem value_protectedRequest {key value : String}
    (h : (key, value) ∈ requestContext intent order proof amount issuedAt validUntil) :
    (protectedRequest intent order proof amount issuedAt validUntil).value key = value :=
  Map.get_ofList "" (by rw [requestContext_keys]; exact requestKeys_nodup) h

theorem canonicalContext_protectedRequest : ∀ e ∈ entries intent,
    canonicalContext (protectedRequest intent order proof amount issuedAt validUntil).context e.1 =
      e.2.toStr :=
  fun _ h ↦ value_protectedRequest (List.mem_append_right _ (List.mem_map_of_mem h))

theorem parseCanonicalInt64_positive {field : String} {n : Int64} (h : 0 < n) :
    parseCanonicalInt64 field (Strconv.formatInt n) true = .ok n := by
  rw [parseCanonicalInt64, Strconv.parseInt_formatInt]
  exact if_neg (by simp [h])

theorem parseCanonicalInt64_nonneg {field : String} {n : Int64} (h : 0 ≤ n) :
    parseCanonicalInt64 field (Strconv.formatInt n) false = .ok n := by
  rw [parseCanonicalInt64, Strconv.parseInt_formatInt]
  exact if_neg (by simp [h])

theorem rejectUnknown_protectedRequest :
    (protectedRequest intent order proof amount issuedAt validUntil).rejectUnknownCanonicalIntentFields
      = .ok () := by
  have hknown : ∀ key ∈ requestKeys,
      (Text.hasPrefix key canonicalIntentContextPrefix &&
        !(canonicalIntentContextKeys.contains key)) = false := by with_unfolding_all decide
  have hnone : (protectedRequest intent order proof amount issuedAt validUntil).context.keys.find?
      (fun key ↦ Text.hasPrefix key canonicalIntentContextPrefix &&
        !(canonicalIntentContextKeys.contains key)) = none := by
    rw [List.find?_eq_none]
    intro key hkey
    have hmem := Map.mem_ofList (AList.mem_keys.mpr hkey)
    rw [requestContext_keys] at hmem
    rw [hknown key hmem]
    decide
  rw [CheckAccessRequest.rejectUnknownCanonicalIntentFields, hnone]

theorem binding_protectedRequest :
    (protectedRequest intent order proof amount issuedAt validUntil).validateIntentRequestBinding
      intent = .ok () := by
  have hall : ∀ check ∈ (protectedRequest intent order proof amount issuedAt
      validUntil).bindingChecks intent, check.2.1 = check.2.2 := by
    simp only [CheckAccessRequest.bindingChecks, List.forall_mem_cons]
    refine ⟨rfl, rfl, rfl, rfl, ?_, ?_, ?_, ?_, ?_, nofun⟩
    · exact value_protectedRequest (List.mem_of_getElem? (i := 2) rfl)
    · exact value_protectedRequest (List.mem_of_getElem? (i := 3) rfl)
    · exact value_protectedRequest (List.mem_of_getElem? (i := 9) rfl)
    · exact value_protectedRequest (List.mem_of_getElem? (i := 6) rfl)
    · exact value_protectedRequest (List.mem_of_getElem? (i := 7) rfl)
  have hnone : ((protectedRequest intent order proof amount issuedAt
      validUntil).bindingChecks intent).find? (fun check ↦ check.2.1 ≠ check.2.2) = none := by
    rw [List.find?_eq_none]
    intro check hcheck
    simp [hall check hcheck]
  rw [CheckAccessRequest.validateIntentRequestBinding, hnone]

theorem trimSpace_formatInt {n : Int64} (h : 0 ≤ n.toInt) :
    Text.trimSpace (Strconv.formatInt n) = Strconv.formatInt n := by
  have hdigits : ∀ c ∈ (Strconv.formatInt n).toList, Text.isSpace c = false := by
    rw [Strconv.toList_formatInt_of_nonneg h]
    intro _ hc
    exact Text.isSpace_of_isDigit (Strconv.isDigit_of_mem hc)
  exact Text.trimSpace_of_all hdigits

theorem parseDelegationTimestamp_formatInt {field : String} {n : Int64} (h : 0 ≤ n.toInt) :
    parseDelegationTimestamp (Strconv.formatInt n) field = .ok n := by
  rw [parseDelegationTimestamp, trimSpace_formatInt h, if_neg (Strconv.formatInt_ne_empty n),
    Strconv.parseInt_formatInt]

theorem delegationProofV2Input_protectedRequest {prim : Primitives} {issued valid : Int64}
    (hvalid : intent.Valid prim) (hissued : 0 ≤ issued.toInt) (huntil : 0 ≤ valid.toInt) :
    (protectedRequest intent order proof amount issued.toInt valid.toInt).delegationProofV2Input
      prim = .ok ⟨intent, issued, valid⟩ := by
  have hpositive := hvalid.positive
  simp only [Int64.not_le] at hpositive
  have hscale := Int64.not_lt.mp hvalid.currencyScale.1
  have hamount := Int64.not_lt.mp hvalid.amountMinor
  have hcontext : ∀ e ∈ entries intent, canonicalContext (protectedRequest intent order proof amount
      issued.toInt valid.toInt).context e.1 = e.2.toStr := canonicalContext_protectedRequest
  simp only [entries, List.forall_mem_cons, Value.toStr, formatInt_toInt] at hcontext
  obtain ⟨tVersion, tTenant, tCompany, tType, tResource, tAction, tVendor, tCurrency, tScale,
    tAmount, tLine, tState, tWrite, tWitness, tCreator, tGrant, tDelegator, tAgent, tCommand,
    tProof, -⟩ := hcontext
  simp only [CheckAccessRequest.delegationProofV2Input, bind_unit_eq_ok, bind_eq_ok (α := Int64),
    canonicalContextInt64, tVersion, tTenant, tCompany, tType, tResource, tAction, tVendor,
    tCurrency, tScale, tAmount, tLine, tState, tWrite, tWitness, tCreator, tGrant, tDelegator,
    tAgent, tCommand, tProof]
  refine ⟨rejectUnknown_protectedRequest, _, parseCanonicalInt64_positive hpositive.1,
    _, parseCanonicalInt64_positive hpositive.2.1, _, parseCanonicalInt64_positive hpositive.2.2.1,
    _, parseCanonicalInt64_nonneg hscale, _, parseCanonicalInt64_nonneg hamount,
    _, parseCanonicalInt64_positive hpositive.2.2.2,
    CanonicalBusinessIntent.validate_eq_ok.mpr hvalid, binding_protectedRequest, issued, ?_, valid,
    ?_, rfl⟩
  · rw [value_protectedRequest (List.mem_of_getElem? (i := 4) rfl)]
    exact parseDelegationTimestamp_formatInt hissued
  · rw [value_protectedRequest (List.mem_of_getElem? (i := 5) rfl)]
    exact parseDelegationTimestamp_formatInt huntil

end Request

section Signing

variable {prim : Primitives} {space : Char → Bool} {values : Dict}
  {intent : CanonicalBusinessIntent} {bytes : List UInt8}

theorem mapM_items {es : List (String × Value)} (h : ∀ e ∈ es, Dict.item values e.1 = .ok e.2) :
    (es.map Prod.fst).mapM (fun field ↦ do
      return ("cbi." ++ field, (← Dict.item values field).toStr)) =
      (.ok (es.map fun e ↦ ("cbi." ++ e.1, e.2.toStr)) : Except String _) := by
  induction es with
  | nil => rfl
  | cons _ _ ih =>
    rw [List.forall_mem_cons] at h
    rw [List.map_cons, List.mapM_cons, h.1, ih h.2]
    rfl

theorem minorUnitsToDecimal_isOk (hvalid : intent.Valid prim) :
    ∃ amount, minorUnitsToDecimal (.int intent.amountMinor.toInt)
      (.int intent.currencyScale.toInt) = .ok amount := by
  have hamount : integer "amount_minor" 0 int64Max (.int intent.amountMinor.toInt) =
      .ok intent.amountMinor.toInt := by
    refine integer_eq_ok.mpr ⟨rfl, ?_, ?_⟩
    · exact Int64.le_iff_toInt_le.mp (Int64.not_lt.mp hvalid.amountMinor)
    · exact Int.le_sub_one_of_lt (Int64.toInt_lt intent.amountMinor)
  have hscale : integer "currency_scale" 0 6 (.int intent.currencyScale.toInt) =
      .ok intent.currencyScale.toInt := by
    refine integer_eq_ok.mpr ⟨rfl, ?_, ?_⟩
    · exact Int64.le_iff_toInt_le.mp (Int64.not_lt.mp hvalid.currencyScale.1)
    · exact Int64.le_iff_toInt_le.mp (Int64.not_lt.mp hvalid.currencyScale.2)
  rw [minorUnitsToDecimal, hamount, hscale]
  dsimp only [bind, Except.bind]
  split_ifs
  · exact ⟨_, rfl⟩
  · exact ⟨_, rfl⟩
  · exact ⟨_, rfl⟩

theorem protectedDelegatedRequest_eq (hreads : Reads values intent)
    (hbytes : canonicalBusinessIntentBytes prim space values = .ok bytes)
    (hvalid : intent.Valid prim) (order : OrderContext) (proof : String)
    (issuedAt validUntil : ℤ) :
    ∃ amount, protectedDelegatedRequest prim space values order proof issuedAt validUntil
      intent.tenantId = .ok (protectedRequest intent order proof amount issuedAt validUntil) := by
  obtain ⟨amount, hamount⟩ := minorUnitsToDecimal_isOk hvalid
  have hcontext : canonicalBusinessIntentContext prim space values =
      .ok ((entries intent).map fun e ↦ ("cbi." ++ e.1, e.2.toStr)) := by
    rw [canonicalBusinessIntentContext, hbytes]
    exact mapM_items hreads
  simp only [Reads, entries, List.forall_mem_cons] at hreads
  obtain ⟨iVersion, iTenant, iCompany, iType, iResource, iAction, iVendor, iCurrency, iScale,
    iAmount, iLine, iState, iWrite, iWitness, iCreator, iGrant, iDelegator, iAgent, iCommand,
    iProof, -⟩ := hreads
  refine ⟨amount, ?_⟩
  simp only [protectedDelegatedRequest, iAgent, iDelegator, iAmount, iScale, iCurrency, iGrant,
    iCommand, iCreator, iAction, iResource, hcontext, hamount, bind, Except.bind, pure, Except.pure]
  rfl

theorem validateStructure_of_window {issued valid : Int64} (hvalid : intent.Valid prim)
    (hissued : 0 < issued.toInt) (huntil : issued.toInt < valid.toInt)
    (httl : valid.toInt - issued.toInt ≤ maxTTLSeconds) :
    (⟨intent, issued, valid⟩ : DelegationProofV2Input).validateStructure prim = .ok () := by
  rw [DelegationProofV2Input.validateStructure, CanonicalBusinessIntent.validate_eq_ok.mpr hvalid]
  have hwindow : ¬ (issued ≤ 0 ∨ valid ≤ issued) := by
    simp only [not_or, Int64.not_le, Int64.lt_iff_toInt_lt]
    exact ⟨hissued, huntil⟩
  have hshort : ¬ valid - issued > Int64.ofInt (maxDelegationTTL / Time.second) := by
    rw [gt_iff_lt, Int64.not_lt, Int64.le_iff_toInt_le,
      toInt_sub_of_ordered hissued huntil]
    exact httl
  exact (if_neg hwindow).trans (if_neg hshort)

end Signing

section Proofs

variable {prim : Primitives} {space : Char → Bool} {values : Dict}
  {intent : CanonicalBusinessIntent} {bytes : List UInt8} {keyId secret proof : String}
  {issuedAt validUntil : ℤ}

theorem isAlphanum_ascii {c : Char} (h : (c.isAlphanum || c == '_' || c == '-') = true) :
    c.val ≤ 127 := by
  show c.toNat ≤ 127
  change (c.isUpper || c.isLower || c.isDigit || c == '_' || c == '-') = true at h
  simp only [Bool.or_eq_true, beq_iff_eq, Text.isUpper_iff, Text.isLower_iff] at h
  obtain ((((h | h) | h) | rfl) | rfl) := h
  · omega
  · omega
  · rw [Char.isDigit, Bool.and_eq_true, decide_eq_true_iff, decide_eq_true_iff] at h
    exact Nat.le_trans (show c.toNat ≤ 57 from h.2) (by decide)
  · decide
  · decide

theorem of_keyIdPattern (h : keyIdPattern keyId = true) :
    validDelegationKeyID keyId = true ∧ '.' ∉ keyId.toList := by
  simp only [keyIdPattern, Bool.and_eq_true, decide_eq_true_iff, List.all_eq_true] at h
  obtain ⟨⟨hlo, hhi⟩, hchars⟩ := h
  refine ⟨?_, fun hdot ↦ absurd (hchars '.' hdot) (by decide)⟩
  simp only [validDelegationKeyID, Bool.and_eq_true, decide_eq_true_iff, List.all_eq_true,
    Text.utf8ByteSize_of_ascii fun c hc ↦ isAlphanum_ascii (hchars c hc)]
  refine ⟨⟨hlo, hhi⟩, fun c hc ↦ ?_⟩
  rw [Bool.or_right_comm]
  exact hchars c hc

theorem split_proof {version signature : String} (hversion : '.' ∉ version.toList)
    (hkey : '.' ∉ keyId.toList) (hsignature : '.' ∉ signature.toList) :
    Text.split (version ++ "." ++ keyId ++ "." ++ signature) '.' = [version, keyId, signature] := by
  have hdot : "." = String.singleton '.' := by decide
  have hassoc : version ++ "." ++ keyId ++ "." ++ signature =
      version ++ "." ++ (keyId ++ "." ++ signature) := by
    simp only [String.append_assoc]
  calc
    Text.split (version ++ "." ++ keyId ++ "." ++ signature) '.'
        = version :: Text.split (keyId ++ "." ++ signature) '.' := by
      rw [hassoc, hdot, Text.split_append hversion]
    _ = version :: keyId :: Text.split signature '.' := by
      rw [hdot, Text.split_append hkey]
    _ = [version, keyId, signature] := by rw [Text.split_eq_singleton hsignature]

variable (prim intent keyId secret) in
structure Signed (issued valid : Int64) (proof : String) : Prop where
  positive : 0 < issued.toInt
  ordered : issued.toInt < valid.toInt
  ttl : valid.toInt - issued.toInt ≤ maxTTLSeconds
  validKey : keyIdPattern keyId = true
  longSecret : 32 ≤ secret.toList.length
  signature : ∃ payload,
    (⟨intent, issued, valid⟩ : DelegationProofV2Input).canonicalBytes prim keyId = .ok payload ∧
      proof = "v2" ++ "." ++ keyId ++ "." ++
        Encoding.hexEncode (prim.hmac (Text.bytes secret) payload)

theorem exists_canonicalBytes_of_window {issued valid : Int64} (hvalid : intent.Valid prim)
    (hpositive : 0 < issued.toInt) (hordered : issued.toInt < valid.toInt)
    (httl : valid.toInt - issued.toInt ≤ maxTTLSeconds) (keyId : String) :
    ∃ payload, (⟨intent, issued, valid⟩ : DelegationProofV2Input).canonicalBytes prim keyId =
      .ok payload := by
  obtain ⟨bytes, hbytes⟩ := hvalid.exists_canonicalBytes
  rw [DelegationProofV2Input.canonicalBytes,
    validateStructure_of_window hvalid hpositive hordered httl,
    CanonicalBusinessIntent.intentHash_eq_ok.mpr ⟨bytes, hbytes, rfl⟩]
  exact ⟨_, rfl⟩

theorem exists_signed (keyId secret : String) {issued valid : Int64} (hvalid : intent.Valid prim)
    (hpositive : 0 < issued.toInt) (hordered : issued.toInt < valid.toInt)
    (httl : valid.toInt - issued.toInt ≤ maxTTLSeconds) (hkey : keyIdPattern keyId = true)
    (hsecret : 32 ≤ secret.toList.length) :
    ∃ proof, Signed prim intent keyId secret issued valid proof := by
  obtain ⟨payload, hpayload⟩ :=
    exists_canonicalBytes_of_window hvalid hpositive hordered httl keyId
  exact ⟨_, hpositive, hordered, httl, hkey, hsecret, payload, hpayload, rfl⟩

theorem signDelegationProofV2_of_ok (hreads : Reads values intent)
    (hbytes : canonicalBusinessIntentBytes prim space values = .ok bytes)
    (hgo : intent.canonicalBytes prim = .ok bytes)
    (h : signDelegationProofV2 prim space values keyId secret issuedAt validUntil = .ok proof) :
    ∃ issued valid : Int64, issued.toInt = issuedAt ∧ valid.toInt = validUntil ∧
      Signed prim intent keyId secret issued valid proof := by
  have iGrant : Dict.item values "delegation_grant_id" = .ok (.int intent.delegationGrantId.toInt) :=
    hreads ("delegation_grant_id", _) (List.mem_of_getElem? (i := 15) rfl)
  have iAgent : Dict.item values "agent_subject" = .ok (.str intent.agentSubject) :=
    hreads ("agent_subject", _) (List.mem_of_getElem? (i := 17) rfl)
  have hhash : canonicalBusinessIntentHash prim space values = .ok (prim.sha256 bytes) := by
    rw [canonicalBusinessIntentHash, hbytes]
    rfl
  have hagent : packItem values "agent_subject" = packText intent.agentSubject := by
    rw [packItem, iAgent]
    rfl
  simp only [signDelegationProofV2, canonicalDelegationProofV2Bytes, bind_unit_eq_ok,
    bind_eq_ok (α := List UInt8), rejectIf_eq_ok, hhash, hagent, encode_number iGrant,
    packText_eq_ok, packInt64_eq_ok, Except.ok.injEq, exists_eq_left', and_assoc, pure, Except.pure,
    exists_and_left] at h
  obtain ⟨hsecret, hkey, hwindow, httl, -, -, -, hissued, hvalid, hproof⟩ := h
  rw [not_or, Int.not_le, Int.not_le] at hwindow
  obtain ⟨issued, rfl⟩ : ∃ issued : Int64, issued.toInt = issuedAt := ⟨_, hissued⟩
  obtain ⟨valid, rfl⟩ : ∃ valid : Int64, valid.toInt = validUntil := ⟨_, hvalid⟩
  have hstructure := validateStructure_of_window
    (CanonicalBusinessIntent.valid_of_canonicalBytes hgo) hwindow.1 hwindow.2 (Int.not_lt.mp httl)
  refine ⟨issued, valid, rfl, rfl, hwindow.1, hwindow.2, Int.not_lt.mp httl, by simpa using hkey,
    Nat.not_lt.mp hsecret, _, ?_, hproof.symm⟩
  rw [Int64.ofInt_toInt, Int64.ofInt_toInt]
  rw [DelegationProofV2Input.canonicalBytes, hstructure,
    CanonicalBusinessIntent.intentHash_eq_ok.mpr ⟨bytes, hgo, rfl⟩]
  rfl

theorem unix_le_unix_add_skew (now : ℤ) : Time.unix now ≤ Time.unix (now + delegationClockSkew) :=
  Time.unix_mono (Int.le_add_of_nonneg_right (by decide))

theorem bytes_ne_nil (h : 32 ≤ secret.toList.length) : Text.bytes secret ≠ [] := by
  intro hnil
  have hempty : secret = "" := Text.bytes_injective hnil
  rw [hempty] at h
  exact absurd h (by decide)

theorem verifyProofV2_of_signed (hhmac : ∀ key word, (prim.hmac key word).length = 32)
    (hvalid : intent.Valid prim) {issued valid : Int64}
    (h : Signed prim intent keyId secret issued valid proof) {m : DelegationManager} {now : ℤ}
    (hlookup : m.signingKeys.lookup keyId = some (Text.bytes secret))
    (hafter : issued.toInt ≤ Time.unix now) (hbefore : Time.unix now ≤ valid.toInt) :
    m.verifyProofV2 prim now ⟨intent, issued, valid⟩ proof = .ok () := by
  obtain ⟨payload, hpayload, rfl⟩ := h.signature
  obtain ⟨hkey, hdot⟩ := of_keyIdPattern h.validKey
  have hdecode := Encoding.hexDecode_hexEncode (prim.hmac (Text.bytes secret) payload)
  have hlower := Encoding.isLower_hexEncode (prim.hmac (Text.bytes secret) payload)
  have hsize := (Encoding.utf8ByteSize_of_hexDecode hlower hdecode).2
  rw [hhmac] at hsize
  refine verifyProofV2_eq_ok.mpr ⟨?_, keyId, _, Text.bytes secret, payload,
    split_proof (by decide) hdot Encoding.dot_notMem_hexEncode, hkey, hlookup,
    bytes_ne_nil h.longSecret, hsize, hlower, hpayload, hdecode⟩
  · have hskew := unix_le_unix_add_skew now
    simp only [DelegationProofV2Input.validateAt, bind_unit_eq_ok, rejectIf_eq_ok]
    refine ⟨validateStructure_of_window hvalid h.positive h.ordered h.ttl, ?_, ?_⟩
    · omega
    · omega

end Proofs

/-- Odoo's signed requests are reconstructed exactly: whatever intent and
window the Python signer accepts, the server reads the intent back with the
bytes that were signed, finds it bound to the request and verifies the proof
at every time of the window. -/
theorem signed_request_reconstructed {prim : Primitives}
    (hhmac : ∀ key word, (prim.hmac key word).length = 32) {space : Char → Bool}
    (hspace : ∀ c, Text.isSpace c = true → space c = true) {values : Dict} {bytes : List UInt8}
    (hbytes : canonicalBusinessIntentBytes prim space values = .ok bytes)
    {keyId secret proof : String} {issuedAt validUntil : ℤ}
    (hproof : signDelegationProofV2 prim space values keyId secret issuedAt validUntil = .ok proof)
    (order : OrderContext) :
    ∃ tenantId req input, Dict.item values "tenant_id" = .ok (.str tenantId) ∧
      protectedDelegatedRequest prim space values order proof issuedAt validUntil tenantId =
        .ok req ∧
      req.delegationProofV2Input prim = .ok input ∧
      input.intent.canonicalBytes prim = .ok bytes ∧
      req.validateIntentRequestBinding input.intent = .ok () ∧
      ∀ m : DelegationManager, m.signingKeys.lookup keyId = some (Text.bytes secret) →
        ∀ now, issuedAt ≤ Time.unix now → Time.unix now ≤ validUntil →
          m.verifyProofV2 prim now input (req.value "delegation_proof") = .ok () := by
  obtain ⟨intent, hreads, hgo⟩ := canonicalBusinessIntentBytes_of_ok hspace hbytes
  have hvalid := CanonicalBusinessIntent.valid_of_canonicalBytes hgo
  obtain ⟨issued, valid, rfl, rfl, hsigned⟩ := signDelegationProofV2_of_ok hreads hbytes hgo hproof
  have hpositive := hsigned.positive
  have hordered := hsigned.ordered
  obtain ⟨_, hrequest⟩ := protectedDelegatedRequest_eq hreads hbytes hvalid order proof
    issued.toInt valid.toInt
  refine ⟨intent.tenantId, _, ⟨intent, issued, valid⟩, ?_, hrequest, ?_, hgo,
    binding_protectedRequest, ?_⟩
  · exact hreads ("tenant_id", _) (List.mem_of_getElem? (i := 1) rfl)
  · exact delegationProofV2Input_protectedRequest hvalid (by omega) (by omega)
  · intro _ hlookup _ hafter hbefore
    rw [value_protectedRequest (List.mem_of_getElem? (i := 8) rfl)]
    exact verifyProofV2_of_signed hhmac hvalid hsigned hlookup hafter hbefore

def orderValues : Dict := Map.ofList (entries orderIntent)

theorem signed_request_reconstructed_order : ∃ bytes proof req input,
    canonicalBusinessIntentBytes .standard Text.isSpace orderValues = .ok bytes ∧
      signDelegationProofV2 .standard Text.isSpace orderValues "legacy"
        "0123456789abcdef0123456789abcdef" 1000 4600 = .ok proof ∧
      protectedDelegatedRequest .standard Text.isSpace orderValues ⟨"ops", "city", "erp"⟩ proof 1000
        4600 "t1" = .ok req ∧
      req.delegationProofV2Input .standard = .ok input ∧
      input.intent.canonicalBytes .standard = .ok bytes ∧
      (newDelegationManagerWithSecret "0123456789abcdef0123456789abcdef").verifyProofV2 .standard
        (2000 * Time.second) input (req.value "delegation_proof") = .ok () := by
  have hhmac : ∀ key word, (Primitives.standard.hmac key word).length = 32 :=
    fun _ _ ↦ Crypto.Sha256.length_sha256 _
  obtain ⟨bytes, hbytes⟩ : ∃ bytes,
      canonicalBusinessIntentBytes .standard Text.isSpace orderValues = .ok bytes :=
    exists_of_isOk (by decide +kernel)
  obtain ⟨proof, hproof⟩ : ∃ proof, signDelegationProofV2 .standard Text.isSpace orderValues "legacy"
      "0123456789abcdef0123456789abcdef" 1000 4600 = .ok proof := by
    rw [signDelegationProofV2, canonicalDelegationProofV2Bytes, canonicalBusinessIntentHash, hbytes]
    exact exists_of_isOk rfl
  obtain ⟨tenantId, req, input, htenant, hreq, hinput, hsame, -, hverify⟩ :=
    signed_request_reconstructed hhmac (fun _ h ↦ h) hbytes hproof ⟨"ops", "city", "erp"⟩
  obtain rfl : "t1" = tenantId := Value.str.inj (Except.ok.inj htenant)
  exact ⟨bytes, proof, req, input, hbytes, hproof, hreq, hinput, hsame,
    hverify _ rfl (2000 * Time.second) (by decide) (by decide)⟩

end PolicyEngine.Addon

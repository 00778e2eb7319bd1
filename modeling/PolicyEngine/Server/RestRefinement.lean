import PolicyEngine.Server.Endpoints

namespace PolicyEngine.Server

open PolicyEngine.Go PolicyEngine.Go.Result PolicyEngine.Parser PolicyEngine.Engine
open PolicyEngine.Security

section Claims

variable {attributes base : Map String}

theorem lookup_mergeClaims (claims : List String) (key : String) :
    (claims.foldl (mergeClaim attributes) base).lookup key =
      ((claims.filter (principalKey · = some key)).getLast?.map (attributes.get "")).or
        (base.lookup key) := by
  induction claims using List.reverseRecOn with
  | nil => simp
  | append_singleton _ claim ih =>
    rw [List.foldl_append, List.filter_append]
    simp only [List.foldl_cons, List.foldl_nil, mergeClaim]
    cases hkey : principalKey claim with
    | none => simpa [hkey] using ih
    | some key' =>
      by_cases h : key' = key
      · subst h
        simp [hkey]
      · have hne : key ≠ key' := fun e ↦ h e.symm
        simp [hkey, h, AList.lookup_insert_ne hne, ih]

/-- No two claims reach the policies under one key with different values. -/
def ClaimsAgree (attributes : Map String) : Prop :=
  ∀ a ∈ attributes, ∀ b ∈ attributes, ∀ key, principalKey a = some key →
    principalKey b = some key → attributes.get "" a = attributes.get "" b

variable {requestContext : Map String}

theorem lookup_merge_congr (h : ClaimsAgree attributes) (o o' : RangeOrder) (key : String) :
    (mergeTrustedPrincipalContext o requestContext attributes).lookup key =
      (mergeTrustedPrincipalContext o' requestContext attributes).lookup key := by
  have hmem {o : RangeOrder} {claim : String}
      (hc : ((o.keys attributes).filter (principalKey · = some key)).getLast? = some claim) :
      claim ∈ attributes ∧ principalKey claim = some key := by
    have hfilter := List.mem_of_getLast? hc
    simpa [RangeOrder.mem_keys] using hfilter
  have hnone {o o' : RangeOrder}
      (hc : ((o.keys attributes).filter (principalKey · = some key)).getLast? = none) :
      ((o'.keys attributes).filter (principalKey · = some key)).getLast? = none := by
    simpa [RangeOrder.mem_keys] using hc
  simp only [mergeTrustedPrincipalContext, lookup_mergeClaims]
  congr 1
  cases hc : ((o.keys attributes).filter (principalKey · = some key)).getLast? with
  | none => rw [hnone hc]
  | some claim =>
    cases hc' : ((o'.keys attributes).filter (principalKey · = some key)).getLast? with
    | none =>
      rw [hnone hc'] at hc
      exact nomatch hc
    | some claim' =>
      obtain ⟨hclaim, hkey⟩ := hmem hc
      obtain ⟨hclaim', hkey'⟩ := hmem hc'
      simp only [Option.map_some, h claim hclaim claim' hclaim' key hkey hkey']

theorem lookup_merge_lastly {claim key : String} (hclaim : claim ∈ attributes)
    (hkey : principalKey claim = some key) :
    (mergeTrustedPrincipalContext (.lastly claim) requestContext attributes).lookup key =
      some (attributes.get "" claim) := by
  have hkeys : (RangeOrder.lastly claim).keys attributes =
      attributes.keys.erase claim ++ [claim] := if_pos (AList.mem_keys.mp hclaim)
  rw [mergeTrustedPrincipalContext, lookup_mergeClaims, hkeys, List.filter_append]
  simp [hkey]

end Claims

section View

def seen (c : Map String) : VarScope → String → Option String :=
  (EvalContext.mk "" "" "" c none).attributeText

variable {c : Map String}

theorem seen_context_of_lookup {field text : String} (h : c.lookup field = some text) :
    seen c .context field = some text := by
  simp [seen, EvalContext.attributeText, h]

theorem seen_resource (field : String) : seen c .resource field = c.lookup ("resource." ++ field) :=
  rfl

theorem seen_insert {key value : String} (hprincipal : Text.hasPrefix key "principal." = false)
    (hcontext : Text.hasPrefix key "context." = false)
    (hseen : seen c .context key = some value)
    (hresource : ∀ field, key = "resource." ++ field → seen c .resource field = some value) :
    seen (c.insert key value) = seen c := by
  have hne {pre : String} (h : Text.hasPrefix key pre = false) (field : String) :
      pre ++ field ≠ key := by
    rintro rfl
    rw [Text.hasPrefix_append] at h
    exact nomatch h
  funext scope field
  cases scope with
  | principal => exact AList.lookup_insert_ne (hne hprincipal field)
  | resource =>
    by_cases h : key = "resource." ++ field
    · rw [hresource field h, h]
      exact AList.lookup_insert _
    · exact AList.lookup_insert_ne (Ne.symm h)
  | context =>
    by_cases h : field = key
    · rw [h, hseen]
      simp [seen, EvalContext.attributeText]
    · simp [seen, EvalContext.attributeText, AList.lookup_insert_ne h,
        AList.lookup_insert_ne (hne hcontext field)]

theorem seen_insertAll {bound : List (String × String)}
    (hkeys : ∀ e ∈ bound, Text.hasPrefix e.1 "principal." = false ∧
      Text.hasPrefix e.1 "context." = false)
    (hseen : ∀ e ∈ bound, seen c .context e.1 = some e.2)
    (hresource : ∀ e ∈ bound, ∀ field, e.1 = "resource." ++ field →
      seen c .resource field = some e.2) :
    seen (bound.foldl (fun m e ↦ m.insert e.1 e.2) c) = seen c := by
  induction bound generalizing c with
  | nil => rfl
  | cons e _ ih =>
    obtain ⟨hprincipal, hcontext⟩ := hkeys e List.mem_cons_self
    have hstep : seen (c.insert e.1 e.2) = seen c :=
      seen_insert hprincipal hcontext (hseen e List.mem_cons_self)
        (hresource e List.mem_cons_self)
    rw [List.foldl_cons, ih (fun e' he ↦ hkeys e' (List.mem_cons_of_mem e he)), hstep]
    · intro e' he
      rw [hstep]
      exact hseen e' (List.mem_cons_of_mem e he)
    · intro e' he
      rw [hstep]
      exact hresource e' (List.mem_cons_of_mem e he)

theorem seen_bound (req : CheckAccessRequest) (intent : CanonicalBusinessIntent)
    {e : String × String} (he : e ∈ boundEntries intent) :
    seen (bindCanonicalIntentContext req intent).context .context e.1 = some e.2 := by
  simp only [boundEntries, List.mem_cons, List.not_mem_nil, or_false] at he
  rcases he with rfl | rfl | rfl | rfl | rfl | rfl | rfl | rfl <;>
    simp [seen, EvalContext.attributeText, bindCanonicalIntentContext, boundEntries,
      AList.lookup_insert_ne]

end View

section Distinguish

def permitIf (isUnless : Bool) (field value : String) : PolicyNode where
  id := "p"
  effect := .permit
  isUnless := isUnless
  condition := .binaryExprNode .eq (.variableNode .context field) (.valueNode (.string value))

variable {ctx ctx' : EvalContext}

theorem isConditionSatisfied_permitIf (isUnless : Bool) (field value : String) :
    isConditionSatisfied ctx (permitIf isUnless field value) =
      if isUnless then ctx.attributeText .context field != some value
      else ctx.attributeText .context field == some value := by
  have hread : ctx.getAttribute .context field .string =
      (ctx.attributeText .context field).elim (.error .missingAttribute)
        fun text ↦ .ok (.string text) := by
    simp only [EvalContext.getAttribute, reduceCtorEq, false_and, if_false]
    cases ctx.attributeText .context field <;> rfl
  simp only [isConditionSatisfied, permitIf, evaluate, expectedType, Value.valType, reduceCtorEq,
    false_and, if_false, hread]
  cases ctx.attributeText .context field with
  | none => cases isUnless <;> rfl
  | some => cases isUnless <;> rfl

theorem attributeText_eq_of_permits
    (h : ∀ isUnless field value, isConditionSatisfied ctx (permitIf isUnless field value) = true →
      isConditionSatisfied ctx' (permitIf isUnless field value) = true) (field : String) :
    ctx.attributeText .context field = ctx'.attributeText .context field := by
  simp only [isConditionSatisfied_permitIf] at h
  cases htext : ctx.attributeText .context field with
  | some value =>
    have hwhen := h false field value (by simp [htext])
    exact (by simpa using hwhen : ctx'.attributeText .context field = some value).symm
  | none =>
    cases htext' : ctx'.attributeText .context field with
    | none => rfl
    | some value =>
      have hunless := h true field value (by simp [htext])
      simp [htext'] at hunless

end Distinguish

section Bound

variable {prim : Primitives} {delegationMgr : Option DelegationManager} {now : ℤ}
  {req req' : CheckAccessRequest}

/-- The delegation checks accept a request and what they write into its context
is what the policies see in it anyway. -/
inductive BoundAsSeen (prim : Primitives) (delegationMgr : Option DelegationManager) (now : ℤ)
    (req : CheckAccessRequest) : Prop
  | direct (grant : req.value "delegation_grant_id" = "")
      (keys : ∀ key ∈ delegationContextKeys ++ canonicalIntentContextKeys, req.value key = "")
      (chain : seen req.context .context "delegation_chain" = some req.subject)
  | v1 (grant : req.value "delegation_grant_id" ≠ "") (proof : req.value "delegation_proof" ≠ "")
      (mgr : DelegationManager) (configured : delegationMgr = some mgr)
      (input : DelegationProofInput) (accepted : AcceptedV1 prim mgr now req input)
  | v2 (grant : req.value "delegation_grant_id" ≠ "") (proof : req.value "delegation_proof" ≠ "")
      (mgr : DelegationManager) (configured : delegationMgr = some mgr)
      (input : DelegationProofV2Input) (accepted : AcceptedV2 prim mgr now req input)
      (bound : ∀ e ∈ boundEntries input.intent, seen req.context .context e.1 = some e.2)

theorem boundAsSeen_of_seen (hok : validateDelegation prim delegationMgr now req = .ok req')
    (hseen : ∀ field, seen req.context .context field = seen req'.context .context field) :
    BoundAsSeen prim delegationMgr now req := by
  by_cases hgrant : req.value "delegation_grant_id" = ""
  · obtain ⟨hkeys, rfl⟩ := (validateDelegation_direct_iff hgrant).mp hok
    refine .direct hgrant hkeys ?_
    rw [hseen]
    simp [seen, EvalContext.attributeText]
  · cases delegationMgr with
    | none => exact absurd hok (validateDelegation_none hgrant)
    | some mgr =>
      obtain ⟨hproof, ⟨input, hv1, -⟩ | ⟨input, hv2, rfl⟩⟩ :=
        (validateDelegation_some_eq_ok_iff hgrant).mp hok
      · exact .v1 hgrant hproof mgr rfl input hv1
      · refine .v2 hgrant hproof mgr rfl input hv2 fun e he ↦ ?_
        rw [hseen]
        exact seen_bound req input.intent he

theorem boundEntries_keys (intent : CanonicalBusinessIntent) :
    ∀ e ∈ boundEntries intent, Text.hasPrefix e.1 "principal." = false ∧
      Text.hasPrefix e.1 "context." = false := by
  have hkeys : ∀ key ∈ (boundEntries intent).map Prod.fst,
      Text.hasPrefix key "principal." = false ∧ Text.hasPrefix key "context." = false := by
    change ∀ key ∈ ["amount", "amount_minor", "currency", "resource.creator_id", "delegated_by",
      "delegation_chain", "tool_context", "execution_mode"], _
    decide
  exact fun e he ↦ hkeys e.1 (List.mem_map_of_mem he)

theorem boundEntries_resource {intent : CanonicalBusinessIntent} {e : String × String}
    (he : e ∈ boundEntries intent) (h : Text.hasPrefix e.1 "resource." = true) :
    e = ("resource.creator_id", intent.creatorSubject) := by
  simp only [boundEntries, List.mem_cons, List.not_mem_nil, or_false] at he
  rcases he with rfl | rfl | rfl | rfl | rfl | rfl | rfl | rfl
  case inr.inr.inr.inl => rfl
  all_goals exact absurd h (by simp [Text.hasPrefix])

theorem lookup_creator_of_acceptedV2 {mgr : DelegationManager} {input : DelegationProofV2Input}
    (h : AcceptedV2 prim mgr now req input) :
    req.context.lookup "resource.creator_id" = some input.intent.creatorSubject := by
  obtain ⟨hvalid, hbinding⟩ := CheckAccessRequest.intent_of_delegationProofV2Input h.tuple
  have hne := CanonicalBusinessIntent.creatorSubject_of_validateFields
    (CanonicalBusinessIntent.validateFields_of_validate hvalid)
  have hvalue : req.value "resource.creator_id" = input.intent.creatorSubject :=
    CheckAccessRequest.bindingChecks_of_ok hbinding
      ("creator", req.value "resource.creator_id", input.intent.creatorSubject)
      (by simp [CheckAccessRequest.bindingChecks])
  rw [CheckAccessRequest.value, Map.get] at hvalue
  cases hlookup : req.context.lookup "resource.creator_id" with
  | none => exact absurd (by rw [← hvalue, hlookup]; rfl) hne
  | some => rw [← hvalue, hlookup]; rfl

theorem seen_of_boundAsSeen (h : BoundAsSeen prim delegationMgr now req) :
    ∃ req', validateDelegation prim delegationMgr now req = .ok req' ∧
      seen req'.context = seen req.context := by
  cases h with
  | direct hgrant hkeys hchain =>
    refine ⟨_, (validateDelegation_direct_iff hgrant).mpr ⟨hkeys, rfl⟩, ?_⟩
    refine seen_insert (by decide) (by decide) hchain fun field hfield ↦ ?_
    have hpre := Text.hasPrefix_append "resource." field
    rw [← hfield] at hpre
    exact absurd hpre (by decide)
  | v1 hgrant hproof _ hmgr _ haccepted =>
    subst hmgr
    exact ⟨req, validateDelegation_of_acceptedV1 hgrant hproof haccepted, rfl⟩
  | v2 hgrant hproof _ hmgr input haccepted hbound =>
    subst hmgr
    refine ⟨_, (validateDelegation_some_eq_ok_iff hgrant).mpr
      ⟨hproof, .inr ⟨input, haccepted, rfl⟩⟩, ?_⟩
    refine seen_insertAll (boundEntries_keys input.intent) hbound fun e he field hfield ↦ ?_
    have hpre := Text.hasPrefix_append "resource." field
    rw [← hfield] at hpre
    have hcreator := boundEntries_resource he hpre
    rw [seen_resource, ← hfield, hcreator]
    exact lookup_creator_of_acceptedV2 haccepted

end Bound

section Refinement

variable (hash : String → UInt64) (prim : Primitives) (s : GRPCServer) (now : ℤ) (o : RangeOrder)
  (identity : AuthenticatedIdentity) (req : DecisionRequest)

def DecisionRequest.toCheckAccess : CheckAccessRequest :=
  ⟨identity.tenantId, req.subject, req.action, req.resource, req.context⟩

def RestAllows (engine : EngineWithGC) (restOrder : RangeOrder) : Prop :=
  ∃ resp, handleDecisions hash engine restOrder none (some identity) req = .ok resp ∧
    resp.decision = .allow

def GrpcAllows (engine : EngineWithGC) : Prop :=
  ∃ resp, checkAccess hash prim s engine now o none none identity
    (req.toCheckAccess identity) = .ok resp ∧ resp.decision = .allow

def trustedRequest : CheckAccessRequest := bindTrustedIdentity o identity (req.toCheckAccess identity)

/-- `CheckAccess` has no objection of its own to a request, and its policies see
what the caller's context and token show. -/
structure GrpcConcurs : Prop where
  tenant : Text.trimSpace identity.tenantId ≠ ""
  subject : Text.trimSpace identity.subject ≠ ""
  claims : ClaimsAgree identity.principalAttributes
  fence : (trustedRequest o identity req).value "erp.revocation_fence" = "" ∨
    s.revocationStore.erpRevocationFenceScope =
        some ((trustedRequest o identity req).value "erp.revocation_fence") ∧
      ∃ ensure, s.revocationStore.ensureERPPolicyRevision = some ensure ∧
        ∀ revision, ensure identity.tenantId revision = true
  grant : (trustedRequest o identity req).value "delegation_grant_id" = "" ∨
    s.revocationPending = false ∧
      s.grantRevoked now identity.tenantId
        ((trustedRequest o identity req).value "delegation_grant_id") = false
  delegation : BoundAsSeen prim s.delegationMgr now (trustedRequest o identity req)

variable {hash prim s now o identity req}

theorem ensurePolicyRevision_eq_ok {fenceScope tenantId : String} {revision : UInt64} :
    s.ensurePolicyRevision fenceScope tenantId revision = .ok () ↔
      fenceScope = "" ∨ ∃ ensure, s.revocationStore.ensureERPPolicyRevision = some ensure ∧
        ensure tenantId revision = true := by
  unfold GRPCServer.ensurePolicyRevision
  split_ifs with hscope
  · simp [hscope]
  · cases s.revocationStore.ensureERPPolicyRevision with
    | none => simp [hscope]
    | some => simp [hscope, rejectIf_eq_ok]

theorem restAllows_iff {engine : EngineWithGC} {restOrder : RangeOrder}
    (htenant : req.tenantId = "" ∨ req.tenantId = identity.tenantId)
    (hsubject : req.subject = "" ∨ req.subject = identity.subject) :
    RestAllows hash identity req engine restOrder ↔
      (engine.checkPermission hash none identity.tenantId identity.subject req.action req.resource
        (mergeTrustedPrincipalContext restOrder req.context
          identity.principalAttributes)).1.decision = .allow := by
  have hidentity : validateDecisionIdentity (some identity) req = .ok identity := by
    simp only [validateDecisionIdentity, bind_unit_eq_ok, rejectIf_eq_ok, not_and, not_not, ne_eq]
    exact ⟨htenant.resolve_left, hsubject.resolve_left, rfl⟩
  unfold RestAllows handleDecisions
  simp only [bind_eq_ok, hidentity]
  constructor
  · rintro ⟨_, ⟨_, h, hresp⟩, hallow⟩
    obtain rfl := Except.ok.inj h
    obtain rfl := Except.ok.inj hresp
    exact hallow
  · intro hallow
    exact ⟨_, ⟨_, rfl, rfl⟩, hallow⟩

theorem validateTenantAndGetClaims_eq_ok :
    validateTenantAndGetClaims identity identity.tenantId = .ok () ↔
      Text.trimSpace identity.tenantId ≠ "" ∧ Text.trimSpace identity.subject ≠ "" := by
  simp only [validateTenantAndGetClaims, bind_unit_eq_ok, rejectIf_eq_ok, ne_eq, not_true,
    not_false_iff, true_and, and_self_left]

theorem answerAccess_allows_iff {engine : EngineWithGC} {fenceScope : String}
    {r : CheckAccessRequest} :
    (∃ resp, answerAccess hash s engine none none fenceScope r = .ok resp ∧
        resp.decision = .allow) ↔
      s.ensurePolicyRevision fenceScope r.tenantId (engine.checkPermission hash none r.tenantId
          r.subject r.action r.resource r.context).1.policyRevision = .ok () ∧
        (engine.checkPermission hash none r.tenantId r.subject r.action r.resource
          r.context).1.decision = .allow := by
  simp only [answerAccess, bind_unit_eq_ok, ctxStatus, true_and]
  constructor
  · rintro ⟨_, ⟨hensure, hresp⟩, hallow⟩
    obtain rfl := Except.ok.inj hresp
    exact ⟨hensure, hallow⟩
  · rintro ⟨hensure, hallow⟩
    exact ⟨_, ⟨hensure, rfl⟩, hallow⟩

theorem grpcAllows_iff {engine : EngineWithGC} :
    GrpcAllows hash prim s now o identity req engine ↔
      Text.trimSpace identity.tenantId ≠ "" ∧ Text.trimSpace identity.subject ≠ "" ∧
      ((trustedRequest o identity req).value "erp.revocation_fence" = "" ∨
        s.revocationStore.erpRevocationFenceScope =
          some ((trustedRequest o identity req).value "erp.revocation_fence")) ∧
      ((trustedRequest o identity req).value "delegation_grant_id" = "" ∨
        s.revocationPending = false ∧
          s.grantRevoked now identity.tenantId
            ((trustedRequest o identity req).value "delegation_grant_id") = false) ∧
      ∃ c, validateDelegation prim s.delegationMgr now (trustedRequest o identity req) =
          .ok { trustedRequest o identity req with context := c } ∧
        s.ensurePolicyRevision ((trustedRequest o identity req).value "erp.revocation_fence")
          identity.tenantId (engine.checkPermission hash none identity.tenantId identity.subject
            req.action req.resource c).1.policyRevision = .ok () ∧
        (engine.checkPermission hash none identity.tenantId identity.subject req.action req.resource
          c).1.decision = .allow := by
  unfold GrpcAllows checkAccess
  rw [← trustedRequest]
  simp only [bind_unit_eq_ok, rejectIf_eq_ok]
  have htenant : (req.toCheckAccess identity).tenantId = identity.tenantId := rfl
  rw [htenant, validateTenantAndGetClaims_eq_ok]
  constructor
  · rintro ⟨resp, ⟨⟨htenant, hsubject⟩, hfence, hready, hresp⟩, hallow⟩
    split_ifs at hresp with hrevoked
    · obtain rfl := Except.ok.inj hresp
      exact absurd hallow (by decide)
    · obtain ⟨req', hok, hanswer⟩ := bind_eq_ok.mp hresp
      have hframe := validateDelegation_frame hok
      refine ⟨htenant, hsubject, ?_, ?_, req'.context, hframe ▸ hok, ?_⟩
      · by_cases h : (trustedRequest o identity req).value "erp.revocation_fence" = ""
        · exact .inl h
        · exact .inr (not_not.mp fun hscope ↦ hfence ⟨h, hscope⟩)
      · by_cases h : (trustedRequest o identity req).value "delegation_grant_id" = ""
        · exact .inl h
        · exact .inr ⟨Bool.eq_false_iff.mpr fun hp ↦ hready ⟨h, hp⟩,
            Bool.eq_false_iff.mpr fun hr ↦ hrevoked ⟨h, hr⟩⟩
      · have hanswer := answerAccess_allows_iff.mp ⟨resp, hanswer, hallow⟩
        rw [hframe] at hanswer
        exact hanswer
  · rintro ⟨htenant, hsubject, hfence, hgrant, c, hok, hanswer⟩
    obtain ⟨resp, hresp, hallow⟩ := answerAccess_allows_iff
      (r := { trustedRequest o identity req with context := c }).mpr hanswer
    refine ⟨resp, ⟨⟨htenant, hsubject⟩, ?_, ?_, ?_⟩, hallow⟩
    · rintro ⟨hne, hscope⟩
      exact hfence.elim hne hscope
    · rintro ⟨hne, hpending⟩
      exact hgrant.elim hne fun h ↦ absurd hpending (by simp [h.1])
    · rw [if_neg, bind_eq_ok]
      · exact ⟨_, hok, hresp⟩
      · rintro ⟨hne, hrevoked⟩
        exact hgrant.elim hne fun h ↦ absurd (h.2.symm.trans hrevoked) (by decide)

theorem seen_merge_congr {requestContext attributes : Map String} (h : ClaimsAgree attributes)
    (o o' : RangeOrder) :
    seen (mergeTrustedPrincipalContext o requestContext attributes) =
      seen (mergeTrustedPrincipalContext o' requestContext attributes) := by
  funext scope field
  have hlookup (key : String) :
      (mergeTrustedPrincipalContext o requestContext attributes).lookup key =
        (mergeTrustedPrincipalContext o' requestContext attributes).lookup key :=
    lookup_merge_congr h o o' key
  cases scope <;> simp only [seen, EvalContext.attributeText, hlookup]

def permitAll : PolicyNode := { id := "p", effect := .permit }

section Probes

variable (htenant : req.tenantId = "" ∨ req.tenantId = identity.tenantId)
  (hsubject : req.subject = "" ∨ req.subject = identity.subject)
  (h : ∀ engine restOrder, RestAllows hash identity req engine restOrder →
    GrpcAllows hash prim s now o identity req engine)

include htenant hsubject h

theorem grpcAllows_of_permit (restOrder : RangeOrder) {policy : PolicyNode} (revision : UInt64)
    (hpermit : policy.effect = .permit)
    (hsat : isConditionSatisfied (evalContext (newTrieRoot identity.tenantId) identity.subject
      req.action req.resource (mergeTrustedPrincipalContext restOrder req.context
        identity.principalAttributes)) policy = true) :
    GrpcAllows hash prim s now o identity req
      (.ofGlobalPolicy identity.tenantId revision policy) := by
  apply h _ restOrder
  rw [restAllows_iff htenant hsubject]
  exact (EngineWithGC.ofGlobalPolicy_allow_iff _ hpermit).mpr hsat

theorem seen_eq_of_refines {c : Map String}
    (hok : validateDelegation prim s.delegationMgr now (trustedRequest o identity req) =
      .ok { trustedRequest o identity req with context := c })
    (restOrder : RangeOrder) (field : String) :
    seen (mergeTrustedPrincipalContext restOrder req.context identity.principalAttributes)
      .context field = seen c .context field := by
  have hpermits (isUnless : Bool) (field value : String)
      (hsat : isConditionSatisfied (evalContext (newTrieRoot identity.tenantId) identity.subject
        req.action req.resource (mergeTrustedPrincipalContext restOrder req.context
          identity.principalAttributes)) (permitIf isUnless field value) = true) :
      isConditionSatisfied (evalContext (newTrieRoot identity.tenantId) identity.subject
        req.action req.resource c) (permitIf isUnless field value) = true := by
    have hgrpc := grpcAllows_of_permit htenant hsubject h restOrder 0 rfl hsat
    obtain ⟨-, -, -, -, c', hok', -, hallow⟩ := grpcAllows_iff.mp hgrpc
    obtain rfl : c' = c := congrArg CheckAccessRequest.context (Except.ok.inj (hok'.symm.trans hok))
    exact (EngineWithGC.ofGlobalPolicy_allow_iff _ rfl).mp hallow
  exact attributeText_eq_of_permits hpermits field

theorem fence_of_refines
    (hfence : (trustedRequest o identity req).value "erp.revocation_fence" ≠ "") :
    ∃ ensure, s.revocationStore.ensureERPPolicyRevision = some ensure ∧
      ∀ revision, ensure identity.tenantId revision = true := by
  have hensure (revision : UInt64) : ∃ ensure,
      s.revocationStore.ensureERPPolicyRevision = some ensure ∧
        ensure identity.tenantId revision = true := by
    have hgrpc : GrpcAllows hash prim s now o identity req
        (.ofGlobalPolicy identity.tenantId revision permitAll) :=
      grpcAllows_of_permit htenant hsubject h o revision rfl rfl
    obtain ⟨-, -, -, -, _, -, hrevision, -⟩ := grpcAllows_iff.mp hgrpc
    rw [EngineWithGC.policyRevision_ofGlobalPolicy] at hrevision
    exact (ensurePolicyRevision_eq_ok.mp hrevision).resolve_left hfence
  obtain ⟨ensure, hsome, -⟩ := hensure 0
  refine ⟨ensure, hsome, fun revision ↦ ?_⟩
  obtain ⟨_, hsome', htrue⟩ := hensure revision
  obtain rfl := Option.some.inj (hsome'.symm.trans hsome)
  exact htrue

end Probes

/-- Over all engines and iteration orders, the REST endpoint allows nothing more
than `CheckAccess` exactly when the latter would let the request through to its
policies and show them the same context. -/
theorem rest_refines_grpc_iff (htenant : req.tenantId = "" ∨ req.tenantId = identity.tenantId)
    (hsubject : req.subject = "" ∨ req.subject = identity.subject) :
    (∀ engine restOrder, RestAllows hash identity req engine restOrder →
        GrpcAllows hash prim s now o identity req engine) ↔
      GrpcConcurs prim s now o identity req := by
  constructor
  · intro h
    -- A policy that permits everything shows which checks stand before the policies.
    have hgrpc : GrpcAllows hash prim s now o identity req
        (.ofGlobalPolicy identity.tenantId 0 permitAll) :=
      grpcAllows_of_permit htenant hsubject h o 0 rfl rfl
    obtain ⟨hten, hsub, hscope, hgrant, _, hok, -⟩ := grpcAllows_iff.mp hgrpc
    have hseen := seen_eq_of_refines htenant hsubject h hok
    refine ⟨hten, hsub, ?_, ?_, hgrant, boundAsSeen_of_seen hok (hseen o)⟩
    · intro a ha b hb key hka hkb
      have hsame := (hseen (.lastly a) key).trans (hseen (.lastly b) key).symm
      rw [seen_context_of_lookup (lookup_merge_lastly ha hka),
        seen_context_of_lookup (lookup_merge_lastly hb hkb)] at hsame
      exact Option.some.inj hsame
    · by_cases hempty : (trustedRequest o identity req).value "erp.revocation_fence" = ""
      · exact .inl hempty
      · exact .inr ⟨hscope.resolve_left hempty, fence_of_refines htenant hsubject h hempty⟩
  · intro hc engine restOrder hrest
    obtain ⟨req', hok, hseen⟩ := seen_of_boundAsSeen hc.delegation
    have hframe := validateDelegation_frame hok
    have hsame : engine.checkPermission hash none identity.tenantId identity.subject req.action
        req.resource (mergeTrustedPrincipalContext restOrder req.context
          identity.principalAttributes) =
        engine.checkPermission hash none identity.tenantId identity.subject req.action req.resource
          req'.context :=
      EngineWithGC.checkPermission_congr fun trie scope field ↦
        congrFun₂ ((seen_merge_congr hc.claims restOrder o).trans hseen.symm) scope field
    rw [restAllows_iff htenant hsubject, hsame] at hrest
    refine grpcAllows_iff.mpr ⟨hc.tenant, hc.subject, hc.fence.imp_right And.left, hc.grant,
      req'.context, hframe ▸ hok, ?_, hrest⟩
    refine ensurePolicyRevision_eq_ok.mpr (hc.fence.imp_right ?_)
    rintro ⟨-, ensure, hsome, htrue⟩
    exact ⟨ensure, hsome, htrue _⟩

end Refinement

def agentIdentity : AuthenticatedIdentity := ⟨"t1", "agent:bot", ∅⟩

def delegatedRead : DecisionRequest where
  tenantId := "t1"
  subject := ""
  action := "action:READ"
  resource := "invoice:7"
  context := Map.ofList [("delegation_grant_id", "9"), ("delegated_by", "user:alice")]

def revokingServer : GRPCServer where
  delegationMgr := some
    ((newDelegationManagerWithSecret "secret").revoke (1800000000 * Time.second) "t1" "9")

theorem rest_refines_grpc_iff_delegated :
    (∀ engine restOrder, RestAllows fnvHash agentIdentity delegatedRead engine restOrder →
        GrpcAllows fnvHash .standard revokingServer (1800000060 * Time.second) .listed agentIdentity
          delegatedRead engine) ↔
      GrpcConcurs .standard revokingServer (1800000060 * Time.second) .listed agentIdentity
        delegatedRead :=
  rest_refines_grpc_iff (.inr rfl) (.inl rfl)

/-- The REST endpoint allows what `CheckAccess` denies as revoked. -/
theorem revoked_grant_allowed_over_rest :
    RestAllows fnvHash agentIdentity delegatedRead (.ofGlobalPolicy "t1" 1 permitAll) .listed ∧
      checkAccess fnvHash .standard revokingServer (.ofGlobalPolicy "t1" 1 permitAll)
        (1800000060 * Time.second) .listed none none agentIdentity
        (delegatedRead.toCheckAccess agentIdentity) = .ok revokedDecision ∧
      revokedDecision.decision = .deny :=
  ⟨⟨_, rfl, rfl⟩, rfl, rfl⟩

end PolicyEngine.Server

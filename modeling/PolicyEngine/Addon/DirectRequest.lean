import PolicyEngine.Odoo.ApprovalLifecycle
import PolicyEngine.Server.RestRefinement

namespace PolicyEngine.Server

open PolicyEngine.Go

section Merge

variable {attributes requestContext : Map String} {key : String}

theorem hasPrefix_of_principalKey {claim : String} (h : principalKey claim = some key) :
    Text.hasPrefix key "principal." = true := by
  unfold principalKey at h
  split_ifs at h with _ hnamed
  · exact Option.some.inj h ▸ hnamed
  · exact Option.some.inj h ▸ Text.hasPrefix_append _ _

theorem lookup_foldl_requestKeys {entries : List (Sigma fun _ : String ↦ String)}
    (hnodup : entries.NodupKeys) (htenant : key ≠ "tenant_id")
    (hkey : Text.hasPrefix key "principal." = false) (m : Map String) :
    (entries.foldl (fun m e ↦
      if e.1 = "tenant_id" ∨ Text.hasPrefix e.1 "principal." then m else m.insert e.1 e.2) m).lookup
        key = (entries.dlookup key).or (m.lookup key) := by
  induction entries generalizing m with
  | nil => simp
  | cons e entries ih =>
    rw [List.nodupKeys_cons] at hnodup
    rw [List.foldl_cons, ih hnodup.2]
    by_cases he : key = e.1
    · subst he
      have hnone : entries.dlookup e.1 = none := List.dlookup_eq_none.mpr hnodup.1
      rw [if_neg (by simp [htenant, hkey]), AList.lookup_insert, hnone, List.dlookup_cons_eq]
      rfl
    · rw [List.dlookup_cons_ne _ _ he]
      split_ifs
      · rfl
      · rw [AList.lookup_insert_ne he]

theorem lookup_merge_of_plain (o : RangeOrder) (htenant : key ≠ "tenant_id")
    (hkey : Text.hasPrefix key "principal." = false) :
    (mergeTrustedPrincipalContext o requestContext attributes).lookup key =
      requestContext.lookup key := by
  have hclaims : (o.keys attributes).filter (principalKey · = some key) = [] := by
    rw [List.filter_eq_nil_iff]
    intro _ _ hclaim
    rw [decide_eq_true_iff] at hclaim
    rw [hasPrefix_of_principalKey hclaim] at hkey
    cases hkey
  rw [mergeTrustedPrincipalContext, lookup_mergeClaims, hclaims, requestKeys,
    lookup_foldl_requestKeys requestContext.nodupKeys htenant hkey]
  simp [AList.lookup]

end Merge

end PolicyEngine.Server

namespace PolicyEngine.Odoo

open PolicyEngine.Go

/-- The request that `_base_request` builds from the rows it reads. -/
def baseRequestOf (P : Protocol) (orderId : Id) (order : Order) (creator : User)
    (currency : Currency) (company : Company) (subject : String) : Request where
  subject := subject
  action := "action:CONFIRM_PURCHASE_ORDER"
  resource := resourceText orderId
  context :=
    [("amount", P.ceil order.amountTotal), ("currency", currency.name),
      ("resource.creator_id", "user:" ++ creator.login),
      ("resource.department", order.pdpDepartment), ("branch", company.city),
      ("delegation_chain", subject)]

/-- `SafePDPClient.check_access`: what is sent. -/
def Request.toCheckAccess (request : Request) (tenantId : String) : Server.CheckAccessRequest where
  tenantId := tenantId
  subject := request.subject
  action := request.action
  resource := request.resource
  context := Map.ofList request.context

end PolicyEngine.Odoo

namespace PolicyEngine.Server

open PolicyEngine.Go PolicyEngine.Engine PolicyEngine.Security PolicyEngine.Odoo

theorem value_bindTrustedIdentity {o : RangeOrder} {identity : AuthenticatedIdentity}
    {req : CheckAccessRequest} {key : String} (htenant : key ≠ "tenant_id")
    (hkey : Text.hasPrefix key "principal." = false) :
    (bindTrustedIdentity o identity req).value key = req.value key := by
  rw [CheckAccessRequest.value, CheckAccessRequest.value, Map.get, Map.get]
  exact congrArg (Option.getD · "") (lookup_merge_of_plain o htenant hkey)

section Direct

variable (P : Protocol) (orderId : Id) (order : Order) (creator : User) (currency : Currency)
  (company : Company) (o : RangeOrder) (identity : AuthenticatedIdentity) (tenantId subject : String)

def directRequest : CheckAccessRequest :=
  bindTrustedIdentity o identity
    ((baseRequestOf P orderId order creator currency company subject).toCheckAccess tenantId)

def delegationKeys : List String :=
  "delegation_grant_id" :: delegationContextKeys ++ canonicalIntentContextKeys

variable {P orderId order creator currency company o identity tenantId subject}

def baseKeys : List String :=
  ["amount", "currency", "resource.creator_id", "resource.department", "branch", "delegation_chain"]

theorem baseKeys_nodup : baseKeys.Nodup := by decide

theorem value_directRequest {key : String} (h : key ∈ delegationKeys) :
    (directRequest P orderId order creator currency company o identity tenantId subject).value key =
      if key = "delegation_chain" then subject else "" := by
  have hplain : ∀ key ∈ delegationKeys,
      key ≠ "tenant_id" ∧ Text.hasPrefix key "principal." = false := by decide
  have hsent : ∀ key ∈ delegationKeys, key ≠ "delegation_chain" →
      key ∉ baseKeys := by decide
  obtain ⟨htenant, hprincipal⟩ := hplain key h
  rw [directRequest, value_bindTrustedIdentity htenant hprincipal]
  split_ifs with hchain
  · subst hchain
    exact Map.get_ofList "" baseKeys_nodup (List.mem_of_getElem? (i := 5) rfl)
  · refine Map.get_of_notMem ?_ ""
    intro hmem
    exact hsent key h hchain (Map.mem_ofList hmem)

theorem grant_directRequest :
    (directRequest P orderId order creator currency company o identity tenantId subject).value
      "delegation_grant_id" = "" :=
  value_directRequest (by decide)

theorem find_directRequest (h : subject ≠ "") :
    (delegationContextKeys ++ canonicalIntentContextKeys).find? (fun key ↦ (directRequest P orderId
      order creator currency company o identity tenantId subject).value key ≠ "") =
      some "delegation_chain" := by
  have hfront : ∀ key ∈ delegationContextKeys.take 5, key ∈ delegationKeys ∧
      key ≠ "delegation_chain" := by decide
  have hnone : (delegationContextKeys.take 5).find? (fun key ↦ (directRequest P orderId
      order creator currency company o identity tenantId subject).value key ≠ "") = none := by
    rw [List.find?_eq_none]
    intro key hkey
    obtain ⟨hmem, hne⟩ := hfront key hkey
    simp [value_directRequest hmem, hne]
  have hsplit : delegationContextKeys ++ canonicalIntentContextKeys =
      delegationContextKeys.take 5 ++ "delegation_chain" :: canonicalIntentContextKeys := rfl
  rw [hsplit, List.find?_append, hnone, Option.none_or, List.find?_cons_of_pos]
  rw [value_directRequest (by decide), if_pos rfl]
  exact decide_eq_true h

end Direct

/-- A direct confirmation gets past the delegation check, with the
authenticated subject as its chain, exactly when `_base_request` is called
without a subject. Every login is refused. -/
theorem direct_confirmation_accepted_iff (prim : Primitives)
    (delegationMgr : Option DelegationManager) (now : ℤ) (o : RangeOrder)
    (identity : AuthenticatedIdentity) (P : Protocol) (orderId : Id) (order : Order)
    (creator : User) (currency : Currency) (company : Company) (tenantId : String) :
    (∀ subject, (∃ req, validateDelegation prim delegationMgr now (directRequest P orderId order
        creator currency company o identity tenantId subject) = .ok req ∧
      req.value "delegation_chain" = identity.subject) ↔ subject = "") ∧
    ∀ login : String, validateDelegation prim delegationMgr now (directRequest P orderId order
        creator currency company o identity tenantId ("user:" ++ login)) =
      .error ⟨.permissionDenied, "delegation_chain không hợp lệ khi thiếu delegation_grant_id"⟩ := by
  constructor
  · intro _
    constructor
    · rintro ⟨_, haccepted, -⟩
      have hempty := ((validateDelegation_direct_iff grant_directRequest).mp haccepted).1
        "delegation_chain" (by decide)
      rw [value_directRequest (by decide), if_pos rfl] at hempty
      exact hempty
    · intro hsubject
      refine ⟨_, (validateDelegation_direct_iff grant_directRequest).mpr ⟨?_, rfl⟩,
        Map.get_insert _ _ _ _⟩
      intro _ hkey
      rw [value_directRequest (List.mem_cons_of_mem _ hkey), hsubject, ite_self]
  · intro login
    have hlogin : "user:" ++ login ≠ "" := by
      intro hempty
      have hlen := congrArg (fun text ↦ text.toList.length) hempty
      simp at hlen
    unfold validateDelegation
    rw [if_pos grant_directRequest, find_directRequest hlogin]
    rfl

def aliceIdentity : AuthenticatedIdentity :=
  ⟨"t1", "user:alice", Map.ofList [("department", "Procurement")]⟩

/-- An order without a grant, confirmed by `alice`. -/
theorem direct_confirmation_refused_alice :
    validateDelegation .standard none 0 (directRequest sampleProtocol 7
      { sampleOrder .draft with delegationGrantId := none } (sampleUser "creator" false)
      ⟨"USD", 2, true⟩ ⟨"t1", "Local"⟩ .listed aliceIdentity "t1" "user:alice") =
      .error ⟨.permissionDenied, "delegation_chain không hợp lệ khi thiếu delegation_grant_id"⟩ := by
  rfl

end PolicyEngine.Server

import PolicyEngine.Engine.Decision
import PolicyEngine.Server.Delegation

namespace PolicyEngine.Server

open PolicyEngine.Go PolicyEngine.Go.Result PolicyEngine.Parser PolicyEngine.Engine
open PolicyEngine.Security

def v1Request (action resource proof : String) (extra : List (String × String)) :
    CheckAccessRequest where
  tenantId := "t1"
  subject := "agent:bot"
  action := action
  resource := resource
  context := Map.ofList ([("delegation_grant_id", "9"), ("delegated_by", "user:alice"),
    ("delegation_chain", "user:alice,agent:bot"), ("delegation_nonce", "n1"),
    ("delegation_issued_at", "1800000000"), ("delegation_valid_until", "1800003600"),
    ("delegation_proof", proof)] ++ extra)

def v1Input (action resource : String) : DelegationProofInput :=
  ⟨"t1", "9", "user:alice", "agent:bot", action, resource, "", "user:alice,agent:bot", "", "", "",
    "n1", 1800000000, 1800003600⟩

def signer : DelegationManager := newDelegationManagerWithSecret "secret"

section Confirmation

variable {prim : Primitives} {delegationMgr : Option DelegationManager} {now : ℤ}
  {req req' : CheckAccessRequest}

theorem action_of_acceptedV2 {mgr : DelegationManager} {input : DelegationProofV2Input}
    (h : AcceptedV2 prim mgr now req input) : req.action = confirmPurchaseOrderAction := by
  obtain ⟨hvalid, hbinding⟩ := CheckAccessRequest.intent_of_delegationProofV2Input h.tuple
  have hintent := CanonicalBusinessIntent.action_of_validateFields
    (CanonicalBusinessIntent.validateFields_of_validate hvalid)
  have haction := CheckAccessRequest.bindingChecks_of_ok hbinding
    ("action", req.action, input.intent.action) (by simp [CheckAccessRequest.bindingChecks])
  exact haction.trans hintent

theorem normalizeAction_eq_confirm {action : String}
    (h : normalizeAction action = confirmPurchaseOrderAction) :
    action = confirmPurchaseOrderAction ∨ action = "CONFIRM_PURCHASE_ORDER" := by
  unfold normalizeAction at h
  split_ifs at h with hprefix
  · exact .inl h
  · have hsplit : "action:" ++ action = "action:" ++ "CONFIRM_PURCHASE_ORDER" := h
    exact .inr ((String.append_right_inj _).mp hsplit)

/-- The engine reads the action with and without its prefix as the same one;
the routing to V2 knows the first spelling only. -/
theorem confirmation_by_v2_iff (hgrant : req.value "delegation_grant_id" ≠ "")
    (hok : validateDelegation prim delegationMgr now req = .ok req') :
    (normalizeAction req.action = confirmPurchaseOrderAction →
        ∃ mgr input, delegationMgr = some mgr ∧ AcceptedV2 prim mgr now req input) ↔
      req.action ≠ "CONFIRM_PURCHASE_ORDER" := by
  constructor
  · intro h haction
    obtain ⟨mgr, input, -, hv2⟩ := h (by rw [haction]; decide)
    rw [action_of_acceptedV2 hv2] at haction
    exact absurd haction (by decide)
  · intro hspelling hconfirm
    have haction := (normalizeAction_eq_confirm hconfirm).resolve_right hspelling
    cases delegationMgr with
    | none => exact absurd hok (validateDelegation_none hgrant)
    | some mgr =>
      obtain ⟨-, ⟨input, hv1, -⟩ | ⟨input, hv2, -⟩⟩ :=
        (validateDelegation_some_eq_ok_iff hgrant).mp hok
      · have hroute := hv1.route
        rw [CheckAccessRequest.requiresDelegationProofV2, if_pos haction] at hroute
        exact nomatch hroute
      · exact ⟨mgr, input, rfl, hv2⟩

end Confirmation

def unprefixedConfirm : CheckAccessRequest :=
  v1Request "CONFIRM_PURCHASE_ORDER" "purchase_order:PO00042"
    "v1.legacy.120b3a69d1e5aa8bdc1594dcc4628db6f3977c6e02edfd4453bf81d960e72bbd" []

theorem accepted_unprefixedConfirm :
    AcceptedV1 .standard signer (1800000100 * Time.second) unprefixedConfirm
      (v1Input "CONFIRM_PURCHASE_ORDER" "purchase_order:PO00042") :=
  ⟨by decide, by rfl, by decide +kernel⟩

theorem accepted_unprefixedConfirm_ok :
    validateDelegation .standard (some signer) (1800000100 * Time.second) unprefixedConfirm =
      .ok unprefixedConfirm :=
  validateDelegation_of_acceptedV1 (by decide) (by decide) accepted_unprefixedConfirm

theorem confirmation_by_v2_iff_unprefixed :
    (normalizeAction unprefixedConfirm.action = confirmPurchaseOrderAction →
        ∃ mgr input, some signer = some mgr ∧
          AcceptedV2 .standard mgr (1800000100 * Time.second) unprefixedConfirm input) ↔
      unprefixedConfirm.action ≠ "CONFIRM_PURCHASE_ORDER" :=
  confirmation_by_v2_iff (by decide) accepted_unprefixedConfirm_ok

theorem confirmation_downgraded_to_v1 :
    validateDelegation .standard (some signer) (1800000100 * Time.second) unprefixedConfirm =
        .ok unprefixedConfirm ∧
      normalizeAction unprefixedConfirm.action = confirmPurchaseOrderAction ∧
      AcceptedV1 .standard signer (1800000100 * Time.second) unprefixedConfirm
        (v1Input "CONFIRM_PURCHASE_ORDER" "purchase_order:PO00042") :=
  ⟨accepted_unprefixedConfirm_ok, by decide, accepted_unprefixedConfirm⟩

section View

variable {prim : Primitives} {mgr : DelegationManager} {now : ℤ} {req req' : CheckAccessRequest}

def signedAttributes (input : DelegationProofInput) : List ((VarScope × String) × String) :=
  [((.context, "amount"), input.amount), ((.context, "tool_context"), input.toolContext),
    ((.context, "execution_mode"), input.executionMode),
    ((.context, "delegation_chain"), input.delegationChain),
    ((.resource, "creator_id"), input.creatorId)]

/-- Every variable of a condition that the tuple covers is read as the signed
value; an empty one may also be absent. -/
def SeesSigned (ctx : EvalContext) (input : DelegationProofInput) (condition : Node) : Prop :=
  ∀ v ∈ readVars condition, ∀ signed, (v, signed) ∈ signedAttributes input →
    (ctx.attributeText v.1 v.2).getD "" = signed

def optionalKeys : List String := ["amount", "tool_context", "execution_mode"]

theorem attributeText_context_iff (ctx : EvalContext) (field : String) :
    (ctx.attributeText .context field).getD "" = ctx.context.get "" field ↔
      field ∈ ctx.context ∨ ctx.context.get "" ("context." ++ field) = "" := by
  unfold EvalContext.attributeText Map.get
  cases hfield : ctx.context.lookup field with
  | some => simp [← AList.lookup_isSome, hfield]
  | none => simp [AList.lookup_eq_none.mp hfield]

theorem validateStructure_of_verifyProof {input : DelegationProofInput} {proof : String}
    (h : mgr.verifyProof prim now input proof = .ok ()) : input.validateStructure = .ok () := by
  unfold DelegationManager.verifyProof at h
  split_ifs at h
  exact (bind_unit_eq_ok.mp (bind_unit_eq_ok.mp h).1).1

theorem tuple_of_delegationProofInput {input : DelegationProofInput}
    (h : req.delegationProofInput = .ok input) :
    input.amount = req.value "amount" ∧ input.toolContext = req.value "tool_context" ∧
      input.executionMode = req.value "execution_mode" ∧
      input.delegationChain = req.value "delegation_chain" ∧
      input.creatorId = req.value "resource.creator_id" := by
  simp only [CheckAccessRequest.delegationProofInput, bind_eq_ok] at h
  obtain ⟨_, -, _, -, hinput⟩ := h
  obtain rfl := Except.ok.inj hinput
  exact ⟨rfl, rfl, rfl, rfl, rfl⟩

variable (trie : TrieRoot)

/-- On the V1 route every condition sees the signed tuple exactly when no
optional key left out of the request is smuggled in under its `context.` name. -/
theorem sees_signed_tuple_iff (hgrant : req.value "delegation_grant_id" ≠ "")
    (hroute : req.requiresDelegationProofV2 = false)
    (hok : validateDelegation prim (some mgr) now req = .ok req') :
    (∃ input, AcceptedV1 prim mgr now req input ∧ ∀ condition, SeesSigned
        (evalContext trie req'.subject req'.action req'.resource req'.context) input condition) ↔
      ∀ key ∈ optionalKeys, key ∈ req.context ∨ req.value ("context." ++ key) = "" := by
  obtain ⟨-, ⟨input, hv1, rfl⟩ | ⟨_, hv2, -⟩⟩ := (validateDelegation_some_eq_ok_iff hgrant).mp hok
  · let ctx := evalContext trie req'.subject req'.action req'.resource req'.context
    obtain ⟨hamount, htool, hmode, hchain, hcreator⟩ := tuple_of_delegationProofInput hv1.tuple
    have hsigned {key : String} (hkey : key ∈ optionalKeys) :
        ((VarScope.context, key), req'.value key) ∈ signedAttributes input := by
      simp only [optionalKeys, List.mem_cons, List.not_mem_nil, or_false] at hkey
      rcases hkey with rfl | rfl | rfl <;> simp [signedAttributes, hamount, htool, hmode]
    constructor
    · rintro ⟨input', hv1', hsees⟩ key hkey
      obtain rfl : input' = input := Except.ok.inj (hv1'.tuple.symm.trans hv1.tuple)
      have hseen := hsees (.variableNode .context key) _ List.mem_cons_self _ (hsigned hkey)
      exact (attributeText_context_iff ctx key).mp hseen
    · intro hkeys
      have hread {key : String} (hkey : key ∈ optionalKeys) :
          (ctx.attributeText .context key).getD "" = req'.value key :=
        (attributeText_context_iff ctx key).mpr (hkeys key hkey)
      -- The chain is never empty in a verified tuple, so its own key is there.
      have hpresent : "delegation_chain" ∈ req'.context := by
        by_contra hnot
        have hempty : req'.value "delegation_chain" = "" := Map.get_of_notMem hnot ""
        have hrequired := (DelegationProofInput.of_validateStructure
          (validateStructure_of_verifyProof hv1.verified)).1
        exact hrequired ("delegation_chain", input.delegationChain)
          (by simp [DelegationProofInput.required]) (hchain.trans hempty)
      refine ⟨input, hv1, fun condition v hv signed hmem ↦ ?_⟩
      simp only [signedAttributes, List.mem_cons, Prod.mk.injEq, List.not_mem_nil, or_false] at hmem
      rcases hmem with ⟨rfl, rfl⟩ | ⟨rfl, rfl⟩ | ⟨rfl, rfl⟩ | ⟨rfl, rfl⟩ | ⟨rfl, rfl⟩
      · exact (hread (by decide)).trans hamount.symm
      · exact (hread (by decide)).trans htool.symm
      · exact (hread (by decide)).trans hmode.symm
      · exact ((attributeText_context_iff ctx _).mpr (.inl hpresent)).trans hchain.symm
      · exact hcreator.symm
  · exact absurd hv2.route (by simp [hroute])

/-- So two requests under one proof decide a condition on the signed attributes alike, if
they see the signed tuple and leave out the same of its empty fields. -/
theorem evaluate_eq_of_seesSigned {ctx ctx' : EvalContext} {input : DelegationProofInput}
    {condition : Node} (hdag : ctx.roleDag = ctx'.roleDag)
    (hcovered : ∀ v ∈ readVars condition, ∃ signed, (v, signed) ∈ signedAttributes input)
    (h : SeesSigned ctx input condition) (h' : SeesSigned ctx' input condition)
    (hpresent : ∀ v ∈ readVars condition,
      (ctx.attributeText v.1 v.2).isSome = (ctx'.attributeText v.1 v.2).isSome) :
    evaluate ctx condition = evaluate ctx' condition := by
  refine evaluate_congr (hdag ▸ rfl) fun v hv ↦ ?_
  obtain ⟨signed, hsigned⟩ := hcovered v hv
  have htext : ctx.attributeText v.1 v.2 = ctx'.attributeText v.1 v.2 := by
    have hsame := (h v hv signed hsigned).trans (h' v hv signed hsigned).symm
    have hboth := hpresent v hv
    cases hl : ctx.attributeText v.1 v.2 <;> cases hr : ctx'.attributeText v.1 v.2 <;> simp_all
  have hid : v.2 ≠ "id" := by
    simp only [signedAttributes, List.mem_cons, Prod.mk.injEq, List.not_mem_nil, or_false] at hsigned
    rcases hsigned with ⟨rfl, -⟩ | ⟨rfl, -⟩ | ⟨rfl, -⟩ | ⟨rfl, -⟩ | ⟨rfl, -⟩ <;> decide
  funext expected
  simp only [EvalContext.getAttribute, hid, and_false, if_false, htext]

end View

def readProof : String :=
  "v1.legacy.00d0a59bb15878598f3f2f6b1dd395605f3971db124f7275186befa74141c71c"

def readRequest : List (String × String) → CheckAccessRequest :=
  v1Request "action:READ" "invoice:7" readProof

theorem verified_read : signer.verifyProof .standard (1800000100 * Time.second)
    (v1Input "action:READ" "invoice:7") readProof = .ok () := by decide +kernel

theorem accepted_read :
    AcceptedV1 .standard signer (1800000100 * Time.second) (readRequest [])
      (v1Input "action:READ" "invoice:7") :=
  ⟨by decide, by rfl, verified_read⟩

theorem accepted_read_smuggled :
    AcceptedV1 .standard signer (1800000100 * Time.second) (readRequest [("context.amount", "10")])
      (v1Input "action:READ" "invoice:7") :=
  ⟨by decide, by rfl, verified_read⟩

theorem sees_signed_tuple_iff_read :
    (∃ input, AcceptedV1 .standard signer (1800000100 * Time.second) (readRequest []) input ∧
        ∀ condition, SeesSigned (evalContext (newTrieRoot "t1") "agent:bot" "action:READ" "invoice:7"
          (readRequest []).context) input condition) ↔
      ∀ key ∈ optionalKeys, key ∈ (readRequest []).context ∨
        (readRequest []).value ("context." ++ key) = "" :=
  sees_signed_tuple_iff (newTrieRoot "t1") (by decide) (by decide)
    (validateDelegation_of_acceptedV1 (by decide) (by decide) accepted_read)

/-- One proof of an empty amount, and two accepted requests between which a
bound on the amount tells the difference. -/
theorem unsigned_amount_seen :
    validateDelegation .standard (some signer) (1800000100 * Time.second)
        (readRequest [("context.amount", "10")]) = .ok (readRequest [("context.amount", "10")]) ∧
      AcceptedV1 .standard signer (1800000100 * Time.second) (readRequest [])
        (v1Input "action:READ" "invoice:7") ∧
      AcceptedV1 .standard signer (1800000100 * Time.second)
        (readRequest [("context.amount", "10")]) (v1Input "action:READ" "invoice:7") ∧
      (v1Input "action:READ" "invoice:7").amount = "" ∧
      (evalContext (newTrieRoot "t1") "agent:bot" "action:READ" "invoice:7"
        (readRequest [("context.amount", "10")]).context).attributeText .context "amount" =
          some "10" ∧
      evaluate (evalContext (newTrieRoot "t1") "agent:bot" "action:READ" "invoice:7"
        (readRequest []).context)
          (.binaryExprNode .le (.variableNode .context "amount") (.valueNode (.int 100))) =
            .ok (.bool false) ∧
      evaluate (evalContext (newTrieRoot "t1") "agent:bot" "action:READ" "invoice:7"
        (readRequest [("context.amount", "10")]).context)
          (.binaryExprNode .le (.variableNode .context "amount") (.valueNode (.int 100))) =
            .ok (.bool true) :=
  ⟨validateDelegation_of_acceptedV1 (by decide) (by decide) accepted_read_smuggled, accepted_read,
    accepted_read_smuggled, rfl, by decide, by decide, by decide⟩

end PolicyEngine.Server

import Mathlib.Logic.Relation
import PolicyEngine.Odoo.Reads

namespace PolicyEngine.Odoo

open PolicyEngine.Go PolicyEngine.Txn

/-- An order as it is for the delegated protocol: nothing of it but its state,
its status and a missing nonce has changed. -/
structure Order.SameRoute (order order' : Order) : Prop where
  company : order'.companyId = order.companyId
  grant : order'.delegationGrantId = order.delegationGrantId
  scope : order'.pdpDelegatedScope = order.pdpDelegatedScope
  nonce : order.pdpDelegationNonce ≠ "" → order'.pdpDelegationNonce = order.pdpDelegationNonce

namespace Order.SameRoute

variable {order order' order'' : Order}

theorem refl (order : Order) : order.SameRoute order := ⟨rfl, rfl, rfl, fun _ ↦ rfl⟩

theorem trans (h : order.SameRoute order') (h' : order'.SameRoute order'') :
    order.SameRoute order'' := by
  refine ⟨h'.company.trans h.company, h'.grant.trans h.grant, h'.scope.trans h.scope, ?_⟩
  intro hnonce
  rw [h'.nonce (by rw [h.nonce hnonce]; exact hnonce), h.nonce hnonce]

theorem written (order : Order) (now : Timestamp) (values : Values)
    (hcompany : values.companyId = none) (hgrant : values.delegationGrantId = none)
    (hagent : values.aiAgentId = none) (hdelegator : values.delegatedById = none)
    (hnonce : order.pdpDelegationNonce ≠ "" → values.pdpDelegationNonce = none) :
    order.SameRoute (order.written now values) := by
  have hsets : values.setsMarker = false := by simp [Values.setsMarker, hgrant, hagent, hdelegator]
  have hclears : values.clearsMarker = false := by
    simp [Values.clearsMarker, hgrant, hagent, hdelegator]
  have hwritten : order.written now values =
      order.store now { values with pdpDelegatedScope := none } := by
    simp [Order.written, hsets, hclears]
  rw [hwritten]
  refine ⟨by simp [store, hcompany], by simp [store, hgrant], rfl, ?_⟩
  intro hne
  simp [store, hnonce hne]

end Order.SameRoute

def attemptKey (db : Db) (order : Order) : AttemptKey :=
  ⟨tenantOf db order, order.delegationGrantId.getD 0, order.pdpDelegationNonce⟩

theorem Order.SameRoute.attemptKey_eq {order order' : Order} (h : order.SameRoute order') (db : Db)
    (hnonce : order.pdpDelegationNonce ≠ "") : attemptKey db order' = attemptKey db order := by
  rw [attemptKey, attemptKey, tenantOf, tenantOf, h.company, h.grant, h.nonce hnonce]

theorem attemptKey_insert {db : Db} {key : Key} {row : Row key} (order : Order)
    (h : ∀ id, Key.company id ≠ key) : attemptKey (db.insert key row) order = attemptKey db order := by
  rw [attemptKey, attemptKey, tenantOf, tenantOf, AList.lookup_insert_ne (h _)]

/-- The request is the protected one, with the proof and the context of an intent for
the order, the grant and the nonce. -/
def Request.IsFor (request : Request) (orderId : Id) (key : AttemptKey) : Prop :=
  ∃ (P : Protocol) (order : Order) (company : Company) (intent : Intent)
    (issuedAt validUntil : Timestamp),
    request = protectedDelegatedRequest P order company intent
      (P.signProof intent issuedAt validUntil) issuedAt validUntil ∧
    intent.resourceId = orderId ∧ intent.delegationGrantId = key.delegationGrantId ∧
    intent.commandId = key.delegationNonce

/-- What stands behind a delegated execution: the grant's fence is locked and not
revoked, and the PDP has allowed the command at the revision of the policy fence,
which is locked and ready. -/
structure Checked (σ : Tx) (orderId : Id) (key : AttemptKey) : Prop where
  fence : .fence key.tenantId (Strconv.formatNat key.delegationGrantId) ∈ σ.locks
  unrevoked : σ.view.lookup
    (.fence key.tenantId (Strconv.formatNat key.delegationGrantId)) = some false
  policy : .policyFence key.tenantId ∈ σ.locks
  decided : ∃ request verdict policyRevisions, .decided request verdict ∈ σ.events ∧
    verdict.decision = .allow ∧ request.IsFor orderId key ∧
    verdict.erpPolicyRevision ∈ policyRevisions ∧
    Storage.staleAgainst policyRevisions (σ.view.lookup (.policyFence key.tenantId)) = false

structure Delegated (σ : Tx) (orderId : Id) (order : Order) (key : AttemptKey)
    (attempt : Attempt) : Prop where
  visible : σ.view.lookup (.order orderId) = some order
  grant : order.delegationGrantId = some key.delegationGrantId
  keyed : attemptKey σ.view order = key
  nonce : key.delegationNonce ≠ ""
  tried : σ.view.lookup (.attempt key) = some attempt
  resource : attempt.businessResId = orderId

structure Opened (σ : Tx) (orderId : Id) (order : Order) (key : AttemptKey)
    (attempt : Attempt) : Prop extends Delegated σ orderId order key attempt where
  pending : attempt.state = .pending
  own : .attempt key ∈ σ.writes

/-- The attempt's approval can be consumed: order, attempt and approval are
locked and each in the state for it. -/
structure Approved (σ : Tx) (orderId : Id) (order : Order) (key : AttemptKey)
    (attempt : Attempt) (approval : Approval) : Prop
    extends Delegated σ orderId order key attempt where
  toApprove : order.state = .toApprove
  orderLocked : .order orderId ∈ σ.locks
  required : attempt.state = .approvalRequired
  attemptLocked : .attempt key ∈ σ.locks
  requested : σ.view.lookup (.approval key) = some approval
  approved : approval.state = .approved
  approvalLocked : .approval key ∈ σ.locks
  approvalOrder : approval.purchaseOrderId = orderId

/-- The steps of an order's confirmation inside a transaction. -/
inductive Move (orderId : Id) : Tx → Tx → Prop
  | reads {σ σ' : Tx} (h : Reads σ σ') : Move orderId σ σ'
  | annotate {σ : Tx} {order order' : Order}
      (hvisible : σ.view.lookup (.order orderId) = some order) (hroute : order.SameRoute order')
      (hstate : order'.state = order.state) : Move orderId σ (σ.put (.order orderId) order')
  | openAttempt {σ : Tx} {order : Order} {key : AttemptKey} {attempt : Attempt}
      (hvisible : σ.view.lookup (.order orderId) = some order)
      (hgrant : order.delegationGrantId = some key.delegationGrantId)
      (hkey : attemptKey σ.view order = key) (hnonce : key.delegationNonce ≠ "")
      (hfree : σ.view.lookup (.attempt key) = none) (hpending : attempt.state = .pending)
      (hresource : attempt.businessResId = orderId) : Move orderId σ (σ.put (.attempt key) attempt)
  | openFence {σ : Tx} {tenantId grantId : String}
      (hfree : σ.view.lookup (.fence tenantId grantId) = none) :
      Move orderId σ (σ.put (.fence tenantId grantId) false)
  | human {σ : Tx} {order order' : Order}
      (hvisible : σ.view.lookup (.order orderId) = some order)
      (hgrant : order.delegationGrantId = none) (hroute : order.SameRoute order') :
      Move orderId σ (σ.put (.order orderId) order')
  | humanNative {σ : Tx} {order : Order}
      (hvisible : σ.view.lookup (.order orderId) = some order)
      (hgrant : order.delegationGrantId = none) : Move orderId σ (σ.emit (.native orderId none))
  | hold {σ : Tx} {order order' : Order} {key : AttemptKey} {attempt : Attempt}
      (hopened : Opened σ orderId order key attempt) (hroute : order.SameRoute order')
      (hstate : order'.state = .toApprove) : Move orderId σ (σ.put (.order orderId) order')
  | request {σ σ₁ : Tx} {order : Order} {key : AttemptKey}
      {attempt attempt' : Attempt} {approval approval' : Approval}
      (hopened : Opened σ orderId order key attempt)
      (hfree : σ.view.lookup (.approval key) = none)
      (hreads : Reads (σ.put (.approval key) approval) σ₁)
      (happroval : approval'.state = .pending) (hattempt : attempt'.state = .approvalRequired)
      (hresource : attempt'.businessResId = orderId) :
      Move orderId σ ((σ₁.put (.approval key) approval').put (.attempt key) attempt')
  | execute {σ σ₁ : Tx} {order : Order} {key : AttemptKey}
      {attempt attempt' : Attempt} (hopened : Opened σ orderId order key attempt)
      (hchecked : Checked σ orderId key)
      (hnative : σ₁ = σ ∨ ∃ order', order.SameRoute order' ∧ σ₁ = σ.put (.order orderId) order')
      (hattempt : attempt'.state = .executed) (hresource : attempt'.businessResId = orderId) :
      Move orderId σ ((σ₁.emit (.native orderId (some key))).put (.attempt key) attempt')
  | terminate {σ : Tx} {key : AttemptKey} {approval approval' : Approval}
      (hvisible : σ.view.lookup (.approval key) = some approval)
      (happroved : approval.state = .approved)
      (hstate : approval'.state = .invalidated ∨ approval'.state = .expired) :
      Move orderId σ (σ.put (.approval key) approval')
  | consume {σ : Tx} {order order' order'' : Order} {key : AttemptKey}
      {attempt attempt' : Attempt} {approval approval' : Approval}
      (happroved : Approved σ orderId order key attempt approval)
      (hchecked : Checked σ orderId key) (happroval : approval'.state = .consumed)
      (horder : approval'.purchaseOrderId = orderId) (hroute : order.SameRoute order'')
      (hfinal : order''.state.isFinal = true) (hattempt : attempt'.state = .executed)
      (hresource : attempt'.businessResId = orderId) :
      Move orderId σ (((((σ.put (.approval key) approval').put (.order orderId) order').emit
        (.native orderId (some key))).put (.order orderId) order'').put (.attempt key) attempt')

abbrev Moves (orderId : Id) : Tx → Tx → Prop := Relation.ReflTransGen (Move orderId)

abbrev Confirms (ids : List Id) : Tx → Tx → Prop :=
  Relation.ReflTransGen fun σ σ' ↦ ∃ orderId ∈ ids, Move orderId σ σ'

theorem Reads.moves {σ σ' : Tx} {orderId : Id} (h : Reads σ σ') : Moves orderId σ σ' :=
  .single (.reads h)

end PolicyEngine.Odoo

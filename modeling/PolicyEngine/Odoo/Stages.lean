import PolicyEngine.Odoo.MoveCases

namespace PolicyEngine.Odoo

open PolicyEngine.Txn

structure Keyed (db : Db) (order : Order) (key : AttemptKey) : Prop where
  grant : order.delegationGrantId = some key.delegationGrantId
  keyed : attemptKey db order = key
  nonce : key.delegationNonce ≠ ""

theorem Delegated.toKeyed {σ : Tx} {orderId : Id} {order : Order} {key : AttemptKey}
    {attempt : Attempt} (h : Delegated σ orderId order key attempt) : Keyed σ.view order key :=
  ⟨h.grant, h.keyed, h.nonce⟩

namespace Keyed

variable {db : Db} {order order' : Order} {key key' : AttemptKey}

theorem route (h : Keyed db order key) (hroute : order.SameRoute order') :
    Keyed db order' key := by
  have hkeyed : order.pdpDelegationNonce = key.delegationNonce :=
    congrArg AttemptKey.delegationNonce h.keyed
  exact ⟨hroute.grant.trans h.grant,
    (hroute.attemptKey_eq db (hkeyed ▸ h.nonce)).trans h.keyed, h.nonce⟩

theorem kept {σ σ' : Tx} (h : Keyed σ.view order key) (hkept : Kept σ σ') :
    Keyed σ'.view order key := ⟨h.grant, (hkept.attemptKey_eq order).trans h.keyed, h.nonce⟩

theorem unique (h : Keyed db order key) (h' : Keyed db order key') : key' = key :=
  h'.keyed.symm.trans h.keyed

theorem grant_ne_none (h : Keyed db order key) : order.delegationGrantId ≠ none := by
  simp [h.grant]

end Keyed

inductive OrderStage (σ : Tx) (id : Id) (order order' : Order) : Prop
  | same (hstate : order'.state = order.state)
  | human (hgrant : order'.delegationGrantId = none)
  | held {key : AttemptKey} (hkeyed : Keyed σ.view order' key) (hwritten : .attempt key ∈ σ.writes)
      (hstate : order'.state = .toApprove)
  | executed {key : AttemptKey} {attempt : Attempt} (hkeyed : Keyed σ.view order' key)
      (hwritten : .attempt key ∈ σ.writes) (htried : σ.view.lookup (.attempt key) = some attempt)
      (hexecuted : attempt.state = .executed) (hresource : attempt.businessResId = id)
      (hchecked : Checked σ id key)

namespace OrderStage

variable {σ σ' : Tx} {id : Id} {order order' order'' : Order}

theorem kept (h : OrderStage σ id order order') (hkept : Kept σ σ') :
    OrderStage σ' id order order' := by
  cases h with
  | same hstate => exact .same hstate
  | human hgrant => exact .human hgrant
  | held hkeyed hwritten hstate =>
    exact .held (hkeyed.kept hkept) (hkept.writes _ hwritten) hstate
  | executed hkeyed hwritten htried hexecuted hresource hchecked =>
    exact .executed (hkeyed.kept hkept) (hkept.writes _ hwritten)
      (hkept.executed _ _ htried hexecuted) hexecuted hresource (hkept.checked hchecked)

theorem change (h : OrderStage σ id order order') (hkept : Kept σ σ')
    (hroute : order'.SameRoute order'') (hchange : OrderChange σ σ' id order' order'') :
    OrderStage σ' id order order'' := by
  cases hchange with
  | annotate hsame =>
    cases h.kept hkept with
    | same hstate => exact .same (hsame.trans hstate)
    | human hgrant => exact .human (hroute.grant.trans hgrant)
    | held hkeyed hwritten hstate => exact .held (hkeyed.route hroute) hwritten (hsame.trans hstate)
    | executed hkeyed hwritten htried hexecuted hresource hchecked =>
      exact .executed (hkeyed.route hroute) hwritten htried hexecuted hresource hchecked
  | human hgrant => exact .human (hroute.grant.trans hgrant)
  | hold hopened hstate =>
    exact .held ((hopened.toKeyed.kept hkept).route hroute) (hkept.writes _ hopened.own) hstate
  | execute hdelegated _ hwritten hattempt hexecuted hresource hchecked =>
    exact .executed ((hdelegated.toKeyed.kept hkept).route hroute) hwritten hattempt hexecuted
      hresource hchecked

end OrderStage

structure Sound (σ : Tx) : Prop extends Framed σ where
  step : ∀ key, Life.Step (life σ.snap key) (life σ.view key) (natives key σ.events)
  own : ∀ key, .attempt key ∈ σ.writes →
    (life σ.snap key).attempt = none ∨ (life σ.view key).attempt = some .executed
  approved : ∀ key, (life σ.view key).approval = some .approved →
    (life σ.snap key).approval = some .approved
  orders : ∀ id order', σ.view.lookup (.order id) = some order' → ∃ order,
    σ.snap.lookup (.order id) = some order ∧ order.SameRoute order' ∧ OrderStage σ id order order'
  consumed : ∀ key approval, σ.view.lookup (.approval key) = some approval →
    approval.state = .consumed → (life σ.snap key).approval ≠ some .consumed →
    ∃ order order', σ.snap.lookup (.order approval.purchaseOrderId) = some order ∧
      order.state = .toApprove ∧ σ.view.lookup (.order approval.purchaseOrderId) = some order' ∧
      order'.state.isFinal = true ∧ Keyed σ.view order' key
  checked : ∀ id key, .native id (some key) ∈ σ.events → Checked σ id key
  human : ∀ id, .native id none ∈ σ.events → ∃ order : Order,
    σ.snap.lookup (.order id) = some order ∧ order.delegationGrantId = none

namespace Sound

variable {σ σ' : Tx} {orderId : Id}

theorem start (db : Db) : Sound (.start db) where
  toFramed := .start db
  step := fun _ ↦ .stay _
  own := fun _ h ↦ absurd h List.not_mem_nil
  approved := fun _ h ↦ h
  orders := fun _ order horder ↦ ⟨order, horder, .refl order, .same rfl⟩
  consumed := fun _ _ hrow hstate hsnap ↦
    absurd ((approval_life hrow).trans (congrArg some hstate)) hsnap
  checked := fun _ _ h ↦ absurd h List.not_mem_nil
  human := fun _ h ↦ absurd h List.not_mem_nil

theorem toApprove_of_approved (h : Sound σ) (hbacked : ∀ key, (life σ.snap key).Backed)
    {order : Order} {key : AttemptKey} {attempt : Attempt} {approval : Approval}
    (happroved : Approved σ orderId order key attempt approval) :
    ∃ order₀, σ.snap.lookup (.order orderId) = some order₀ ∧ order₀.state = .toApprove := by
  obtain ⟨order₀, hsnap, _, hstage⟩ := h.orders orderId order happroved.visible
  refine ⟨order₀, hsnap, ?_⟩
  cases hstage with
  | same hstate => exact hstate.symm.trans happroved.toApprove
  | human hgrant => exact absurd hgrant happroved.toKeyed.grant_ne_none
  | held hkeyed hwritten =>
    -- The transaction would have created the attempt, and then there is no approval for it.
    cases hkeyed.unique happroved.toKeyed
    have hattempt := attempt_life happroved.tried
    rw [happroved.required] at hattempt
    have hfree := (h.own key hwritten).resolve_right (by rw [hattempt]; simp)
    have happroval := approval_life happroved.requested
    rw [happroved.approved] at happroval
    cases (h.approved key happroval).symm.trans (hbacked key hfree)
  | executed hkeyed _ htried hexecuted =>
    cases hkeyed.unique happroved.toKeyed
    cases htried.symm.trans happroved.tried
    cases hexecuted.symm.trans happroved.required

theorem final_of_executed (hmove : Move orderId σ σ') {id : Id} {order : Order} {key : AttemptKey}
    (horder : σ.view.lookup (.order id) = some order) (hfinal : order.state.isFinal = true)
    (hkeyed : Keyed σ.view order key) (hexecuted : (life σ.view key).attempt = some .executed) :
    ∃ order', σ'.view.lookup (.order id) = some order' ∧ order'.state.isFinal = true ∧
      Keyed σ'.view order' key := by
  have hkept := hmove.kept
  -- The attempt of a confirmation under way is not executed.
  have hnot : ∀ {attempt : Attempt} {k : AttemptKey}, Delegated σ id order k attempt →
      attempt.state = .executed := by
    intro _ _ hdelegated
    cases hkeyed.unique hdelegated.toKeyed
    exact Option.some.inj ((attempt_life hdelegated.tried).symm.trans hexecuted)
  obtain ⟨order', horder'⟩ := hkept.order id order horder
  refine ⟨order', horder', ?_⟩
  rcases hmove.order horder' with hsame | ⟨_, hrow, hroute, hchange⟩
  · cases hsame.symm.trans horder
    exact ⟨hfinal, hkeyed.kept hkept⟩
  · cases hrow.symm.trans horder
    cases hchange with
    | annotate hstate => exact ⟨hstate ▸ hfinal, (hkeyed.kept hkept).route hroute⟩
    | human hgrant => exact absurd hgrant hkeyed.grant_ne_none
    | hold hopened =>
      cases hopened.pending.symm.trans (hnot hopened.toDelegated)
    | execute hdelegated hstate => exact absurd (hnot hdelegated) hstate

theorem move (h : Sound σ) (hbacked : ∀ key, (life σ.snap key).Backed)
    (hmove : Move orderId σ σ') : Sound σ' := by
  have hkept := hmove.kept
  have hstep : ∀ key, Life.Step (life σ'.snap key) (life σ'.view key) (natives key σ'.events) := by
    intro key
    obtain ⟨_, hadvance⟩ := hmove.advancesBy key
    rw [hkept.snap, hadvance.natives]
    exact (h.step key).advance (hbacked key) (h.own key) (h.approved key) hadvance.advance
  refine ⟨h.toFramed.move hmove, hstep, ?_, ?_, ?_, ?_, ?_, ?_⟩
  · intro key hwritten
    obtain ⟨m, hadvance⟩ := hmove.advancesBy key
    rw [hkept.snap]
    have hwas : .attempt key ∈ σ.writes → (life σ.snap key).attempt = none ∨
        (life σ'.view key).attempt = some .executed :=
      fun hwritten ↦ (h.own key hwritten).imp_right hadvance.advance.executed
    rcases hadvance.written hwritten with hwritten | hfree | hexecuted
    · exact hwas hwritten
    · by_cases hwritten : .attempt key ∈ σ.writes
      · exact hwas hwritten
      · refine .inl ?_
        rw [life, h.frame _ hwritten] at hfree
        exact hfree
    · exact .inr hexecuted
  · intro key happroved
    obtain ⟨_, hadvance⟩ := hmove.advancesBy key
    rw [hkept.snap]
    exact h.approved key (hadvance.advance.approved happroved)
  · intro id order'' horder''
    rw [hkept.snap]
    rcases hmove.order horder'' with horder | ⟨order', horder', hroute', hchange⟩
    · obtain ⟨order, hsnap, hroute, hstage⟩ := h.orders id order'' horder
      exact ⟨order, hsnap, hroute, hstage.kept hkept⟩
    · obtain ⟨order, hsnap, hroute, hstage⟩ := h.orders id order' horder'
      exact ⟨order, hsnap, hroute.trans hroute', hstage.change hkept hroute' hchange⟩
  · intro key approval hrow hstate hsnap
    rw [hkept.snap] at hsnap ⊢
    rcases hmove.consumed hrow hstate with hrow | ⟨hid, order, order', _, _,
      happroved, horder', hroute, hfinal⟩
    · obtain ⟨order, order', horder, htoApprove, horder', hfinal, hkeyed⟩ :=
        h.consumed key approval hrow hstate hsnap
      have hlife := (h.step key).consumed hsnap
        ((approval_life hrow).trans (congrArg some hstate))
      obtain ⟨order'', horder'', hfinal'', hkeyed''⟩ :=
        final_of_executed hmove horder' hfinal hkeyed (by rw [hlife.2])
      exact ⟨order, order'', horder, htoApprove, horder'', hfinal'', hkeyed''⟩
    · obtain ⟨order₀, horder₀, htoApprove⟩ := h.toApprove_of_approved hbacked happroved
      rw [hid]
      exact ⟨order₀, order', horder₀, htoApprove, horder', hfinal,
        (happroved.toKeyed.kept hkept).route hroute⟩
  · intro id key hmem
    rcases hmove.native hmem with hmem | ⟨hnone, -⟩ | ⟨k, hk, hchecked⟩
    · exact hkept.checked (h.checked id key hmem)
    · cases hnone
    · cases hk
      exact hchecked
  · intro id hmem
    rw [hkept.snap]
    rcases hmove.native hmem with hmem | ⟨-, order', horder', hgrant⟩ | ⟨_, hk, -⟩
    · exact h.human id hmem
    · obtain ⟨order, hsnap, hroute, -⟩ := h.orders id order' horder'
      exact ⟨order, hsnap, hroute.grant.symm.trans hgrant⟩
    · cases hk

theorem confirms {ids : List Id} {db : Db} (hbacked : ∀ key, (life db key).Backed)
    (h : Confirms ids (.start db) σ) : Sound σ ∧ σ.snap = db := by
  induction h with
  | refl => exact ⟨.start db, rfl⟩
  | tail _ hmove ih =>
    obtain ⟨_, -, hmove⟩ := hmove
    exact ⟨ih.1.move (by rw [ih.2]; exact hbacked) hmove, hmove.kept.snap.trans ih.2⟩

end Sound

end PolicyEngine.Odoo

import PolicyEngine.Odoo.Moves

namespace PolicyEngine.Odoo

open PolicyEngine.Go PolicyEngine.Txn

structure Extends (σ σ' : Tx) : Prop where
  view : ∀ key, (∀ tenantId grantId, key ≠ .fence tenantId grantId) →
    σ'.view.lookup key = σ.view.lookup key
  writes : ∀ key ∈ σ.writes, key ∈ σ'.writes
  locks : ∀ key ∈ σ.locks, key ∈ σ'.locks
  events : ∀ effect ∈ σ.events, effect ∈ σ'.events

theorem Reads.extends {σ σ' : Tx} (h : Reads σ σ') : Extends σ σ' := by
  refine ⟨fun _ _ ↦ by rw [h.view], fun _ hkey ↦ by rwa [h.writes], h.locks, ?_⟩
  intro _ hmem
  obtain ⟨_, hevents, -⟩ := h.events
  rw [hevents]
  exact List.mem_append_left _ hmem

namespace Extends

variable {σ σ' σ'' : Tx} {orderId : Id} {order : Order} {key : AttemptKey} {attempt : Attempt}
  {approval : Approval}

theorem trans (h : Extends σ σ') (h' : Extends σ' σ'') : Extends σ σ'' where
  view := fun key hkey ↦ (h'.view key hkey).trans (h.view key hkey)
  writes := fun key hkey ↦ h'.writes key (h.writes key hkey)
  locks := fun key hkey ↦ h'.locks key (h.locks key hkey)
  events := fun effect heffect ↦ h'.events effect (h.events effect heffect)

theorem tenantOf_eq (h : Extends σ σ') (order : Order) :
    tenantOf σ'.view order = tenantOf σ.view order := by
  rw [tenantOf, tenantOf, h.view _ (by simp)]

theorem delegated (h : Extends σ σ') (hd : Delegated σ orderId order key attempt) :
    Delegated σ' orderId order key attempt := by
  refine ⟨?_, hd.grant, ?_, hd.nonce, ?_, hd.resource⟩
  · rw [h.view _ (by simp), hd.visible]
  · rw [attemptKey, h.tenantOf_eq]
    exact hd.keyed
  · rw [h.view _ (by simp), hd.tried]

theorem opened (h : Extends σ σ') (ho : Opened σ orderId order key attempt) :
    Opened σ' orderId order key attempt :=
  ⟨h.delegated ho.toDelegated, ho.pending, h.writes _ ho.own⟩

theorem approved (h : Extends σ σ') (ha : Approved σ orderId order key attempt approval) :
    Approved σ' orderId order key attempt approval :=
  ⟨h.delegated ha.toDelegated, ha.toApprove, h.locks _ ha.orderLocked, ha.required,
    h.locks _ ha.attemptLocked, (h.view _ (by simp)).trans ha.requested, ha.approved,
    h.locks _ ha.approvalLocked, ha.approvalOrder⟩

end Extends

theorem wp_writeOrder {sentinel : Bool} {orderId : Id} {values : Values}
    {post : Unit → Tx → Prop} {exc : Exc → Tx → Prop} {σ : Tx} (hexc : ∀ error, exc error σ)
    (hpost : ∀ order now, σ.view.lookup (.order orderId) = some order →
      post () (σ.put (.order orderId) (order.written now values))) :
    (writeOrder sentinel orderId values).wp post exc σ := by
  refine wp_get (hexc _) fun order horder ↦ ?_
  split
  · exact hexc _
  · exact Prog.wp_ask fun now ↦ Prog.wp_update (hpost order now horder)

section Routes

variable {σ : Tx} {orderId : Id} {order : Order} {key : AttemptKey} {attempt : Attempt}

theorem lockedDelegationNonce_wp (horder : σ.view.lookup (.order orderId) = some order) :
    (lockedDelegationNonce orderId).wp (fun nonce σ' ↦ Moves orderId σ σ' ∧ nonce ≠ "" ∧
      (∀ id, σ'.view.lookup (.company id) = σ.view.lookup (.company id)) ∧
      ∃ order', σ'.view.lookup (.order orderId) = some order' ∧ order.SameRoute order' ∧
        order'.pdpDelegationNonce = nonce) (fun _ _ ↦ True) σ := by
  have hlock : Moves orderId σ (σ.lock (.order orderId)) := (Reads.lock σ _).moves
  apply Prog.wp_lock
  refine Prog.wp_guard trivial fun _ ↦ wp_get trivial fun row hrow ↦ ?_
  rw [σ.lock_view, horder] at hrow
  cases hrow
  split
  case isTrue hnonce =>
    refine ⟨hlock, hnonce, fun id ↦ by rw [σ.lock_view], order, ?_, .refl order, rfl⟩
    rw [σ.lock_view, horder]
  case isFalse hnonce =>
    refine Prog.wp_ask fun nonce ↦ ?_
    rw [Prog.wp_bind]
    refine wp_writeOrder (fun _ ↦ trivial) ?_
    intro _ now hrow
    rw [σ.lock_view, horder] at hrow
    cases hrow
    have hroute : order.SameRoute
        (order.written now { pdpDelegationNonce := some nonce.1 }) :=
      .written order now _ rfl rfl rfl rfl fun hne ↦ absurd hne hnonce
    refine ⟨hlock.tail (.annotate (by rw [σ.lock_view, horder]) hroute ?_), nonce.2, ?_,
      _, AList.lookup_insert _, hroute, ?_⟩
    · exact order.state_written now _
    · intro _
      rw [Local.put_view, AList.lookup_insert_ne (by simp), σ.lock_view]
    · simp [Order.written, Values.setsMarker, Values.clearsMarker, Order.store]

theorem completedAuthorizationAttempt_wp {post : Option Attempt → Tx → Prop}
    {exc : Exc → Tx → Prop} (hexc : ∀ error, exc error σ)
    (hnone : σ.view.lookup (.attempt key) = none → post none σ)
    (hsome : ∀ attempt, σ.view.lookup (.attempt key) = some attempt →
      attempt.businessResId = orderId → post (some attempt) σ) :
    (completedAuthorizationAttempt orderId key).wp post exc σ := by
  apply wp_find
  split
  case h_1 hrow => exact hnone hrow
  case h_2 attempt hrow =>
    refine Prog.wp_guard (hexc _) fun hcommand ↦ Prog.wp_guard (hexc _) fun _ ↦ ?_
    exact hsome attempt hrow (not_not.mp (not_or.mp hcommand).2)

theorem validateExistingAttempt_wp {fingerprint : String} {post : Unit → Tx → Prop}
    {exc : Exc → Tx → Prop} (hexc : ∀ error, exc error σ)
    (hpost : attempt.businessResId = orderId → post () σ) :
    (validateExistingAttempt orderId attempt fingerprint).wp post exc σ := by
  refine Prog.wp_guard (hexc _) fun hcommand ↦ Prog.wp_guard (hexc _) fun _ ↦ ?_
  simp only [not_or, not_not] at hcommand
  exact hpost hcommand.2.2

theorem authorizationAttempt_wp {fingerprint : String} {post : Attempt × Bool → Tx → Prop}
    {exc : Exc → Tx → Prop} (hexc : ∀ error, exc error σ)
    (hexisting : ∀ attempt, σ.view.lookup (.attempt key) = some attempt →
      attempt.businessResId = orderId → post (attempt, false) σ)
    (hcreated : ∀ attempt : Attempt, σ.view.lookup (.attempt key) = none →
      attempt.state = .pending → attempt.businessResId = orderId →
      post (attempt, true) (σ.put (.attempt key) attempt)) :
    (authorizationAttempt orderId key fingerprint).wp post exc σ := by
  apply wp_find
  split
  case h_1 existing hrow =>
    rw [Prog.wp_bind]
    exact validateExistingAttempt_wp hexc fun hresource ↦ hexisting existing hrow hresource
  case h_2 hfree =>
    refine wp_get (hexc _) fun _ _ ↦ Prog.wp_insert ?_ fun _ ↦ hcreated _ hfree rfl rfl
    -- A duplicate: the search that follows sees no more than the first one.
    rw [if_neg (by decide)]
    apply wp_find
    rw [hfree]
    exact hexc _

theorem delegatedRequest_wp (P : Protocol) {grantId : Id}
    (horder : σ.view.lookup (.order orderId) = some order)
    (hgrant : order.delegationGrantId = some grantId) :
    (delegatedRequest P orderId grantId).wp (fun result σ' ↦ Moves orderId σ σ' ∧ ∃ order',
      Delegated σ' orderId order' result.2.1 result.2.2.1 ∧
      (result.2.2.2 = true → Opened σ' orderId order' result.2.1 result.2.2.1 ∧
        ∀ request, result.1 = some request → request.IsFor orderId result.2.1))
      (fun _ _ ↦ True) σ := by
  refine wp_get trivial fun _ hrow ↦ ?_
  cases hrow.symm.trans horder
  refine wp_get trivial fun _ _ ↦ wp_get trivial fun _ _ ↦ Prog.wp_guard trivial fun _ ↦ ?_
  refine Prog.wp_seq (lockedDelegationNonce_wp horder) ?_
  rintro _ σ₁ ⟨hmoves, hnonce, -, order', horder', hroute, rfl⟩
  refine (tenantId_gives order).andThen ?_
  rintro _ σ₁ - ⟨rfl, rfl⟩
  obtain ⟨key, hkey⟩ : ∃ key : AttemptKey,
      key = ⟨tenantOf σ₁.view order, grantId, order'.pdpDelegationNonce⟩ := ⟨_, rfl⟩
  have hkeyed : attemptKey σ₁.view order' = key := by
    rw [hkey, attemptKey, hroute.grant.trans hgrant, tenantOf, hroute.company]
    rfl
  have hgrant' : order'.delegationGrantId = some key.delegationGrantId := by
    rw [hroute.grant, hgrant, hkey]
  have hnonce' : key.delegationNonce = order'.pdpDelegationNonce := by rw [hkey]
  rw [← hkey, Prog.wp_bind]
  refine completedAuthorizationAttempt_wp (fun _ ↦ trivial) ?_ ?_
  · intro hfree
    refine (buildProtectedIntent_gives P grantId orderId _).andThen ?_
    rintro ⟨_, _, _, _, _⟩ σ₂ h₂ ⟨-, ⟨_, hintent⟩, hproof⟩
    have hmoves₂ := hmoves.trans h₂.moves
    rw [← h₂.view] at horder' hkeyed hfree
    rw [Prog.wp_bind]
    refine authorizationAttempt_wp (fun _ ↦ trivial) ?_ ?_
    · intro attempt hattempt
      exact absurd (hfree.symm.trans hattempt) (by simp)
    · intro attempt hfree hpending hresource
      have hopen := hmoves₂.tail
        (.openAttempt horder' hgrant' hkeyed (hnonce' ▸ hnonce) hfree hpending hresource)
      have hopened : Opened (σ₂.put (.attempt key) attempt) orderId order' key attempt :=
        ⟨⟨by rw [Local.put_view, AList.lookup_insert_ne (by simp), horder'], hgrant',
          by rw [Local.put_view, attemptKey_insert _ (by simp), hkeyed], hnonce' ▸ hnonce,
          AList.lookup_insert _, hresource⟩, hpending, List.mem_cons_self⟩
      refine wp_get trivial fun _ _ ↦ ?_
      refine ⟨hopen, order', hopened.toDelegated, fun _ ↦ ⟨hopened, ?_⟩⟩
      intro _ hrequest
      cases hrequest
      exact ⟨P, _, _, _, _, _, congrArg (protectedDelegatedRequest P _ _ _ · _ _) hproof,
        hintent.resource, by rw [hintent.grantId, hkey], by rw [hintent.command, hnonce']⟩
  · intro _ hattempt hresource
    exact ⟨hmoves, order', ⟨horder', hgrant', hkeyed, hnonce' ▸ hnonce, hattempt, hresource⟩,
      fun h ↦ absurd h (by simp)⟩

theorem lockDelegationRevocationFence_wp (horder : σ.view.lookup (.order orderId) = some order) :
    (lockDelegationRevocationFence orderId).wp (fun unrevoked σ' ↦ Moves orderId σ σ' ∧ Extends σ σ' ∧
      (unrevoked = true →
        .fence (tenantOf σ.view order) (idText order.delegationGrantId) ∈ σ'.locks ∧
        σ'.view.lookup (.fence (tenantOf σ.view order) (idText order.delegationGrantId)) =
          some false)) (fun _ _ ↦ True) σ := by
  refine wp_get trivial fun row hrow ↦ ?_
  cases hrow.symm.trans horder
  refine (tenantId_gives order).andThen ?_
  rintro tenant σ - ⟨rfl, rfl⟩
  generalize tenantOf σ.view order = tenant
  generalize idText order.delegationGrantId = grantId
  -- Once the row is visible, locking it gives what it says.
  have hlock : ∀ σ₁, Moves orderId σ σ₁ → Extends σ σ₁ →
      (do let row ← Prog.lock (.fence tenant grantId); return row = some false : M Bool).wp
        (fun unrevoked σ' ↦ Moves orderId σ σ' ∧ Extends σ σ' ∧ (unrevoked = true →
          .fence tenant grantId ∈ σ'.locks ∧ σ'.view.lookup (.fence tenant grantId) = some false))
        (fun _ _ ↦ True) σ₁ := by
    intro σ₁ hmoves hextends
    apply Prog.wp_lock
    have hread := Reads.lock σ₁ (.fence tenant grantId)
    refine ⟨hmoves.trans hread.moves, hextends.trans hread.extends, ?_⟩
    intro hrow
    have hrow := of_decide_eq_true hrow
    exact ⟨Local.mem_lock_self hrow, by rw [σ₁.lock_view, hrow]⟩
  apply Prog.wp_insertIgnore
  · exact hlock σ .refl (Reads.refl σ).extends
  · intro hfree
    refine hlock _ (.single (.openFence hfree)) ⟨?_, ?_, ?_, fun _ h ↦ h⟩
    · intro _ hkey
      rw [Local.put_view, AList.lookup_insert_ne (hkey tenant grantId)]
    · exact fun _ h ↦ List.mem_cons_of_mem _ h
    · exact fun _ h ↦ List.mem_cons_of_mem _ h

theorem wp_markCompleted {state : AttemptState} {decision : Decision} {resultState : OrderState}
    {post : Unit → Tx → Prop} {exc : Exc → Tx → Prop}
    (hattempt : σ.view.lookup (.attempt key) = some attempt) (hpending : attempt.state = .pending)
    (hpost : ∀ attempt' : Attempt, attempt'.state = state →
      attempt'.businessResId = attempt.businessResId →
      post () (σ.put (.attempt key) attempt')) :
    (markCompleted key state decision resultState).wp post exc σ := by
  rw [markCompleted, get, bind_assoc]
  apply wp_find
  rw [hattempt]
  change Prog.wp post exc (if attempt.state = .pending then _ else _) σ
  rw [if_pos hpending]
  exact Prog.wp_ask fun _ ↦ Prog.wp_update (hpost _ rfl rfl)

theorem wp_runNative {query : Query} {chosen : query.Answer → Option OrderState}
    {attempt : Option AttemptKey} {post : Unit → Tx → Prop} {exc : Exc → Tx → Prop}
    (hexc : ∀ error, exc error σ) (hnone : post () (σ.emit (.native orderId attempt)))
    (hsome : ∀ order now state, σ.view.lookup (.order orderId) = some order →
      post () ((σ.put (.order orderId) (order.written now { state := some state })).emit
        (.native orderId attempt))) :
    (runNative query orderId attempt chosen).wp post exc σ := by
  refine Prog.wp_ask fun _ ↦ ?_
  split
  · rw [Prog.wp_bind]
    refine wp_writeOrder hexc ?_
    intro order now horder
    exact Prog.wp_emit (hsome order now _ horder)
  · exact Prog.wp_emit hnone

theorem Delegated.put_order (h : Delegated σ orderId order key attempt) {order' : Order}
    (hroute : order.SameRoute order') :
    Delegated (σ.put (.order orderId) order') orderId order' key attempt := by
  have hkeyed : order.pdpDelegationNonce = key.delegationNonce :=
    congrArg AttemptKey.delegationNonce h.keyed
  have hnonce : order.pdpDelegationNonce ≠ "" := hkeyed ▸ h.nonce
  refine ⟨AList.lookup_insert _, hroute.grant.trans h.grant, ?_, h.nonce, ?_, h.resource⟩
  · rw [Local.put_view, attemptKey_insert _ (by simp), hroute.attemptKey_eq _ hnonce, h.keyed]
  · rw [Local.put_view, AList.lookup_insert_ne (by simp), h.tried]

theorem Opened.put_order (h : Opened σ orderId order key attempt) {order' : Order}
    (hroute : order.SameRoute order') :
    Opened (σ.put (.order orderId) order') orderId order' key attempt :=
  ⟨h.toDelegated.put_order hroute, h.pending, List.mem_cons_of_mem _ h.own⟩

theorem Checked.put_order (h : Checked σ orderId key) (id : Id) (order' : Order) :
    Checked (σ.put (.order id) order') orderId key := by
  obtain ⟨request, verdict, policyRevisions, hevent, hallow, hfor, hmem, hfresh⟩ := h.decided
  refine ⟨List.mem_cons_of_mem _ h.fence, ?_, List.mem_cons_of_mem _ h.policy, request, verdict,
    policyRevisions, hevent, hallow, hfor, hmem, ?_⟩
  · rw [Local.put_view, AList.lookup_insert_ne (by simp), h.unrevoked]
  · rw [Local.put_view, AList.lookup_insert_ne (by simp), hfresh]

theorem wp_fences {policyRevisions : List (Option String)} {request : Request}
    {verdict : Verdict} {p q : M Unit} {post : Unit → Tx → Prop}
    (hdelegated : Delegated σ orderId order key attempt)
    (hdecided : .decided request verdict ∈ σ.events) (hallow : verdict.decision = .allow)
    (hfor : request.IsFor orderId key) (hmem : verdict.erpPolicyRevision ∈ policyRevisions)
    (hrevoked : ∀ σ', Moves orderId σ σ' → Extends σ σ' → p.wp post (fun _ _ ↦ True) σ')
    (hpost : ∀ σ', Moves orderId σ σ' → Extends σ σ' → Checked σ' orderId key →
      q.wp post (fun _ _ ↦ True) σ') :
    (do
      let unrevoked ← lockDelegationRevocationFence orderId
      if !unrevoked then p
      else
        lockCurrentAuthority orderId policyRevisions
        q : M Unit).wp post (fun _ _ ↦ True) σ := by
  have htenant : tenantOf σ.view order = key.tenantId :=
    congrArg AttemptKey.tenantId hdelegated.keyed
  refine Prog.wp_seq (lockDelegationRevocationFence_wp hdelegated.visible) ?_
  rintro _ σ₁ ⟨hmoves, hextends, hfence⟩
  split
  case isTrue => exact hrevoked σ₁ hmoves hextends
  case isFalse hunrevoked =>
    obtain ⟨hlock, hrow⟩ := hfence (by simpa using hunrevoked)
    rw [htenant, hdelegated.grant] at hlock hrow
    refine (lockCurrentAuthority_gives orderId policyRevisions).andThen ?_
    rintro _ σ₂ h₂ ⟨order', horder', hpolicy, hfresh⟩
    have hsame : order' = order := by
      rw [hextends.view _ (by simp), hdelegated.visible] at horder'
      exact (Option.some.inj horder').symm
    rw [hsame, hextends.tenantOf_eq, htenant] at hpolicy hfresh
    refine hpost σ₂ (hmoves.trans h₂.moves) (hextends.trans h₂.extends) ⟨h₂.locks _ hlock, ?_,
      hpolicy, request, verdict, policyRevisions, ?_, hallow, hfor, hmem, ?_⟩
    · rw [h₂.view]
      exact hrow
    · exact (hextends.trans h₂.extends).events _ hdecided
    · rw [h₂.view, hfresh]

/-- The attempt and the request a decision is asked for: an attempt opened for
the order, or none for an order without a grant. -/
def Routed (σ : Tx) (orderId : Id) (request : Request) : Option AttemptKey → Prop
  | some key => (∃ order attempt, Opened σ orderId order key attempt) ∧ request.IsFor orderId key
  | none => ∃ order : Order,
      σ.view.lookup (.order orderId) = some order ∧ order.delegationGrantId = none

theorem Extends.routed {σ' : Tx} {request : Request} {attempt? : Option AttemptKey}
    (h : Extends σ σ') (hrouted : Routed σ orderId request attempt?) :
    Routed σ' orderId request attempt? := by
  cases attempt? with
  | some =>
    obtain ⟨⟨order, attempt, hopened⟩, hfor⟩ := hrouted
    exact ⟨⟨order, attempt, h.opened hopened⟩, hfor⟩
  | none =>
    obtain ⟨order, horder, hgrant⟩ := hrouted
    exact ⟨order, (h.view _ (by simp)).trans horder, hgrant⟩

theorem confirmAllowed_wp {request : Request} {verdict : Verdict} {attempt? : Option AttemptKey}
    (hrouted : Routed σ orderId request attempt?) (hdecided : .decided request verdict ∈ σ.events)
    (hallow : verdict.decision = .allow) :
    (confirmAllowed orderId attempt? verdict).wp (fun _ ↦ Moves orderId σ) (fun _ _ ↦ True) σ := by
  cases attempt? with
  | some =>
    obtain ⟨⟨order, _, hopened⟩, hfor⟩ := hrouted
    refine wp_fences hopened.toDelegated hdecided hallow hfor List.mem_cons_self
      (fun _ _ _ ↦ trivial) ?_
    intro _ hmoves hextends hchecked
    have hopened := hextends.opened hopened
    rw [Prog.wp_bind]
    refine wp_writeOrder (fun _ ↦ trivial) ?_
    intro row now hrow
    cases hrow.symm.trans hopened.visible
    have hroute : order.SameRoute (order.written now { pdpStatus := some .allow }) :=
      .written order now _ rfl rfl rfl rfl fun _ ↦ rfl
    have hmoves := hmoves.tail (.annotate hopened.visible hroute (order.state_written now _))
    have hopened := hopened.put_order hroute
    have hchecked := hchecked.put_order orderId (order.written now { pdpStatus := some .allow })
    rw [Prog.wp_bind]
    refine wp_runNative (fun _ ↦ trivial) ?_ ?_
    · refine wp_get trivial fun row _ ↦ ?_
      refine wp_markCompleted hopened.tried hopened.pending ?_
      intro attempt' hstate hresource
      exact hmoves.tail (.execute hopened hchecked (.inl rfl) hstate
        (hresource.trans hopened.resource))
    · intro row now' state hrow
      cases hrow.symm.trans hopened.visible
      refine wp_get trivial fun _ _ ↦ ?_
      have hroute' : Order.SameRoute _ (Order.written _ now' { state := some state }) :=
        .written (order.written now { pdpStatus := some .allow }) now' _ rfl rfl rfl rfl fun _ ↦ rfl
      have hput := hopened.put_order hroute'
      refine wp_markCompleted hput.tried hput.pending ?_
      intro _ hstate hresource
      exact hmoves.tail (.execute hopened hchecked (.inr ⟨_, hroute', rfl⟩) hstate
        (hresource.trans hopened.resource))
  | none =>
    obtain ⟨order, horder, hgrant⟩ := hrouted
    simp only [confirmAllowed]
    rw [Prog.wp_bind]
    refine wp_writeOrder (fun _ ↦ trivial) ?_
    intro row now hrow
    cases hrow.symm.trans horder
    have hroute : order.SameRoute (order.written now { pdpStatus := some .allow }) :=
      .written order now _ rfl rfl rfl rfl fun _ ↦ rfl
    have hmoves : Moves orderId σ _ := .single (.human horder hgrant hroute)
    have hgrant' := hroute.grant.trans hgrant
    rw [Prog.wp_bind]
    refine wp_runNative (fun _ ↦ trivial) ?_ ?_
    · exact hmoves.tail (.humanNative (AList.lookup_insert _) hgrant')
    · intro row now' state hrow
      have hroute' : row.SameRoute (row.written now' { state := some state }) :=
        .written row now' _ rfl rfl rfl rfl fun _ ↦ rfl
      have hgrant'' : row.delegationGrantId = none := by
        cases hrow.symm.trans (AList.lookup_insert _)
        exact hgrant'
      exact (hmoves.tail (.human hrow hgrant'' hroute')).tail
        (.humanNative (AList.lookup_insert _) (hroute'.grant.trans hgrant''))

theorem wp_orRaise {α β : Type} {error : Exc} {value : Option β} {next : β → M α}
    {post : α → Tx → Prop} (h : ∀ x, value = some x → (next x).wp post (fun _ _ ↦ True) σ) :
    (orRaise error value >>= next).wp post (fun _ _ ↦ True) σ := by
  cases value with
  | some x => exact h x rfl
  | none => trivial

theorem createPending_wp (P : Protocol) {intent : Intent} {post : Unit → Tx → Prop}
    (hpost : ∀ approval : Approval, σ.view.lookup (.approval key) = none →
      approval.state = .pending → approval.activityId = none →
      approval.requestedApproverUserId = none → post () (σ.put (.approval key) approval)) :
    (createPending P orderId key intent).wp post (fun _ _ ↦ True) σ := by
  refine wp_get trivial fun _ _ ↦ wp_orRaise fun _ _ ↦ Prog.wp_guard trivial fun _ ↦ ?_
  refine Prog.wp_ask fun _ ↦ Prog.wp_insert trivial fun hfree ↦ ?_
  exact hpost _ hfree rfl rfl rfl

theorem attachActivity_wp {approval : Approval} {activityId approverId : Id}
    {post : Unit → Tx → Prop} (hvisible : σ.view.lookup (.approval key) = some approval)
    (hactivity : approval.activityId = none) (happrover : approval.requestedApproverUserId = none)
    (hpost : ∀ approval' : Approval, approval'.state = approval.state →
      post () (σ.put (.approval key) approval')) :
    (attachActivity key activityId approverId).wp post (fun _ _ ↦ True) σ := by
  refine wp_get trivial fun _ hrow ↦ ?_
  cases hrow.symm.trans hvisible
  rw [if_neg (by simp [happrover]), if_neg (by simp [hactivity]), if_pos (.inl (by simp [hactivity]))]
  exact Prog.wp_update (hpost _ rfl)

theorem confirmPending_wp (P : Protocol) (uid : Id) {obligation : Obligation} {request : Request}
    {verdict : Verdict} {attempt? : Option AttemptKey}
    (hrouted : Routed σ orderId request attempt?) :
    (confirmPending P uid orderId attempt? obligation verdict).wp (fun _ ↦ Moves orderId σ)
      (fun _ _ ↦ True) σ := by
  unfold confirmPending
  rw [Prog.wp_bind]
  refine wp_writeOrder (fun _ ↦ trivial) ?_
  intro order now horder
  have hroute : order.SameRoute
      (order.written now { state := some .toApprove, pdpStatus := some .requireApproval }) :=
    .written order now _ rfl rfl rfl rfl fun _ ↦ rfl
  cases attempt? with
  | some key =>
    obtain ⟨⟨_, attempt, hopened⟩, -⟩ := hrouted
    cases horder.symm.trans hopened.visible
    have hmoves : Moves orderId σ _ := .single (.hold hopened hroute (order.state_written now _))
    have hopened := hopened.put_order hroute
    dsimp only
    refine (buildPurchaseOrderIntent_gives P _ _ _).andThen ?_
    intro _ _ h₁ _
    have hmoves := hmoves.trans h₁.moves
    have hopened := h₁.extends.opened hopened
    rw [Prog.wp_bind]
    refine createPending_wp P ?_
    intro approval hfree hpending hactivity happrover
    refine (selectActivityApprover_reads P key).andThen fun _ _ h₂ ↦ ?_
    refine (ask_reads _).andThen fun _ σ₃ h₃ ↦ ?_
    have hreads := h₂.trans h₃
    rw [Prog.wp_bind]
    have hrequested : σ₃.view.lookup (.approval key) = some approval := by
      rw [hreads.view]
      exact AList.lookup_insert _
    refine attachActivity_wp hrequested hactivity happrover ?_
    intro approval' hstate
    refine wp_get trivial fun _ _ ↦ ?_
    have htried : (σ₃.put (.approval key) approval').view.lookup (.attempt key) = some attempt := by
      rw [Local.put_view, AList.lookup_insert_ne (by simp), hreads.view, Local.put_view,
        AList.lookup_insert_ne (by simp), hopened.tried]
    refine wp_markCompleted htried hopened.pending ?_
    intro _ hrequired hresource
    exact hmoves.tail (.request hopened hfree hreads (hstate.trans hpending) hrequired
      (hresource.trans hopened.resource))
  | none =>
    obtain ⟨_, horder', hgrant⟩ := hrouted
    cases horder.symm.trans horder'
    have hmoves : Moves orderId σ _ := .single (.human horder hgrant hroute)
    exact (ask_reads _).andThen fun _ _ h₁ ↦ hmoves.trans h₁.moves

theorem wp_moves {p : M Unit} {σ' : Tx} (hmoves : Moves orderId σ σ')
    (h : p.wp (fun _ ↦ Moves orderId σ') (fun _ _ ↦ True) σ') :
    p.wp (fun _ ↦ Moves orderId σ) (fun _ _ ↦ True) σ' :=
  Prog.wp_post h fun _ _ h ↦ hmoves.trans h

theorem confirmDecided_wp (P : Protocol) (uid : Id) {request : Request}
    {attempt? : Option AttemptKey} (hrouted : Routed σ orderId request attempt?) :
    (confirmDecided P uid orderId attempt? request).wp (fun _ ↦ Moves orderId σ) (fun _ _ ↦ True) σ := by
  have hdeny : ∀ σ', (do
      writeOrder false orderId { pdpStatus := some .deny }
      throw (.accessError "The PDP denied this purchase-order confirmation.") : M Unit).wp
        (fun _ ↦ Moves orderId σ) (fun _ _ ↦ True) σ' := by
    intro _
    rw [Prog.wp_bind]
    exact wp_writeOrder (fun _ ↦ trivial) fun _ _ _ ↦ trivial
  refine wp_get trivial fun order _ ↦ (tenantId_reads order).andThen fun _ _ h₁ ↦ ?_
  refine wp_get trivial fun _ _ ↦ (checkAccess_gives _ _ request).andThen fun _ σ₂ h₂ hdecided ↦ ?_
  have hreads := h₁.trans h₂
  have hrouted := hreads.extends.routed hrouted
  refine Prog.wp_guard trivial fun _ ↦ ?_
  split
  case isTrue hallow => exact wp_moves hreads.moves (confirmAllowed_wp hrouted hdecided hallow.1)
  case isFalse =>
    split
    case h_1 =>
      split
      case isTrue => exact wp_moves hreads.moves (confirmPending_wp P uid hrouted)
      case isFalse => exact hdeny σ₂
    case h_2 => exact hdeny σ₂

theorem setTerminal_wp (orderId : Id) {approval : Approval} {state : ApprovalState} {reason : String}
    (hvisible : σ.view.lookup (.approval key) = some approval)
    (happroved : approval.state = .approved) :
    (setTerminal key state reason).wp (fun _ ↦ Moves orderId σ) (fun _ _ ↦ True) σ := by
  refine Prog.wp_guard trivial fun hstate ↦ wp_get trivial fun _ hrow ↦ ?_
  cases hrow.symm.trans hvisible
  refine Prog.wp_ask fun _ ↦ Prog.wp_update (.single (.terminate hvisible happroved ?_))
  exact Decidable.or_iff_not_not_and_not.mpr hstate

theorem attemptTo_gives {α : Type} {catches : Exc → Bool} {p : M α} {F : Tx → α → Tx → Prop}
    (hp : Gives p F) : Gives (attemptTo catches p) fun σ result σ' ↦
      ∀ value, result = some value → F σ value σ' := by
  intro σ
  rw [attemptTo, Prog.wp_tryCatch, Prog.wp_bind]
  refine Prog.wp_mono (hp σ) ?_ ?_
  · intro _ σ' h
    refine ⟨h.1, ?_⟩
    intro _ hvalue
    cases hvalue
    exact h.2
  · intro _ _ h
    split
    · exact ⟨h, fun _ hvalue ↦ by cases hvalue⟩
    · exact h

theorem revalidateApprovedCapability_wp (P : Protocol) (orderId : Id) (key : AttemptKey) :
    (revalidateApprovedCapability P key).wp (fun result σ' ↦ Moves orderId σ σ' ∧
      ∀ policyRevisions, result = some policyRevisions → Reads σ σ') (fun _ _ ↦ True) σ := by
  -- Each failure ends with a terminal state and no revisions.
  have hfailed : ∀ {σ' : Tx} {approval : Approval} {state : ApprovalState} {reason : String},
      Reads σ σ' → σ'.view.lookup (.approval key) = some approval → approval.state = .approved →
      (do setTerminal key state reason; return none : M (Option (List (Option String)))).wp
        (fun result σ' ↦ Moves orderId σ σ' ∧ ∀ policyRevisions, result = some policyRevisions →
          Reads σ σ') (fun _ _ ↦ True) σ' := by
    intro _ _ _ _ hreads hvisible happroved
    refine Prog.wp_seq (setTerminal_wp orderId hvisible happroved) ?_
    intro _ _ h
    exact ⟨hreads.moves.trans h, fun _ hnone ↦ by cases hnone⟩
  refine (lockApprovalContext_gives key).andThen fun _ σ₁ h₁ _ ↦ wp_get trivial fun _ hvisible ↦ ?_
  refine Prog.wp_guard trivial fun _ ↦ Prog.wp_guard trivial fun happroved ↦ ?_
  have happroved := not_not.mp happroved
  refine (deterministicBindingFailure_reads P key).andThen fun _ _ h₂ ↦ ?_
  rw [← h₂.view] at hvisible
  have hreads := h₁.trans h₂
  split
  case h_1 => exact hfailed hreads hvisible happroved
  case h_2 =>
    refine (attemptTo_reads (verifyCurrentApprovalAuthority_reads P key)).andThen fun _ _ h₃ ↦ ?_
    rw [← h₃.view] at hvisible
    have hreads := hreads.trans h₃
    split
    case h_1 => exact hfailed hreads hvisible happroved
    case h_2 =>
      split
      case isTrue => exact ⟨hreads.moves, fun _ _ ↦ hreads⟩
      case isFalse => exact hfailed hreads hvisible happroved

theorem prepareFinalIntent_wp (P : Protocol) (hdelegated : Delegated σ orderId order key attempt) :
    (prepareFinalIntent P key).wp (fun result σ' ↦ Moves orderId σ σ' ∧ ∀ current, result = some current →
      Reads σ σ' ∧ (∃ approval, Approved σ' orderId order key attempt approval) ∧
        current.resourceId = orderId ∧ current.delegationGrantId = key.delegationGrantId ∧
        current.commandId = key.delegationNonce) (fun _ _ ↦ True) σ := by
  refine (lockApprovalContext_gives key).andThen ?_
  rintro _ σ₁ h₁ ⟨approval, hvisible, hlock, horderLock⟩
  rw [← h₁.view] at hvisible
  refine wp_get trivial fun row hrow ↦ ?_
  cases hrow.symm.trans hvisible
  refine Prog.wp_guard trivial fun happroved ↦ Prog.wp_lock ?_
  have happroved := not_not.mp happroved
  have h₂ := h₁.trans (Reads.lock σ₁ (.attempt key))
  have hdelegated := h₂.extends.delegated hdelegated
  have hattemptLock : Key.attempt key ∈ (σ₁.lock (.attempt key)).locks :=
    Local.mem_lock_self ((congrArg (AList.lookup _) (σ₁.lock_view _)).symm.trans hdelegated.tried)
  refine Prog.wp_guard trivial fun _ ↦ wp_get trivial fun _ hrow ↦ ?_
  cases hrow.symm.trans hdelegated.tried
  refine wp_get trivial fun _ _ ↦ Prog.wp_guard trivial fun hbound ↦ ?_
  simp only [not_or, not_not] at hbound
  obtain ⟨hrequired, -, hgrant, hcommand, -, hresource, -, -⟩ := hbound
  have horder := hresource.symm.trans hdelegated.resource
  refine (boundIntent_reads P approval).andThen fun _ _ h₃ ↦ ?_
  refine (attemptTo_gives (buildPurchaseOrderIntent_gives P _ _ _)).andThen ?_
  intro current σ₄ h₄ hcurrent
  have hlocked : ∀ {k}, k ∈ (σ₁.lock (.attempt key)).locks → k ∈ σ₄.locks :=
    fun hk ↦ h₄.locks _ (h₃.locks _ hk)
  have hreads := (h₂.trans h₃).trans h₄
  have hvisible₄ : σ₄.view.lookup (.approval key) = some approval := by
    rw [h₄.view, h₃.view, σ₁.lock_view, hvisible]
  have hchanged : (do setTerminal key .invalidated "intent_changed"; return none :
      M (Option Intent)).wp (fun result σ' ↦ Moves orderId σ σ' ∧ ∀ current, result = some current →
        Reads σ σ' ∧ (∃ approval, Approved σ' orderId order key attempt approval) ∧
        current.resourceId = orderId ∧ current.delegationGrantId = key.delegationGrantId ∧
        current.commandId = key.delegationNonce) (fun _ _ ↦ True) σ₄ := by
    refine Prog.wp_seq (setTerminal_wp orderId hvisible₄ happroved) ?_
    intro _ _ h
    exact ⟨hreads.moves.trans h, fun _ hnone ↦ by cases hnone⟩
  split
  case h_1 => exact hchanged
  case h_2 intent =>
    split
    case isTrue => exact hchanged
    case isFalse hsame =>
      simp only [not_or, not_not] at hsame
      obtain ⟨-, _, hintent⟩ := hcurrent intent rfl
      have hvisible' := hintent.visible
      rw [horder, h₃.view, hdelegated.visible] at hvisible'
      cases hvisible'
      refine ⟨hreads.moves, ?_⟩
      intro _ hresult
      cases hresult
      refine ⟨hreads, ⟨approval, ?_⟩, ?_, ?_, ?_⟩
      · exact {
          toDelegated := (h₃.trans h₄).extends.delegated hdelegated
          toApprove := hintent.state.symm.trans hsame.2.1
          orderLocked := hlocked (Local.mem_locks_lock (horder ▸ horderLock))
          required := hrequired
          attemptLocked := hlocked hattemptLock
          requested := hvisible₄
          approved := happroved
          approvalLocked := hlocked (Local.mem_locks_lock hlock)
          approvalOrder := horder }
      · rw [hintent.resource, horder]
      · rw [hintent.grantId, hgrant]
      · rw [hintent.command, hcommand]

theorem consumeApproval_wp {approval : Approval}
    (happroved : Approved σ orderId order key attempt approval)
    (hchecked : Checked σ orderId key) :
    (consumeApproval orderId key).wp (fun _ ↦ Moves orderId σ) (fun _ _ ↦ True) σ := by
  refine wp_get trivial fun row hrow ↦ ?_
  cases hrow.symm.trans happroved.requested
  refine Prog.wp_ask fun _ ↦ Prog.wp_update ?_
  rw [Prog.wp_bind]
  refine wp_runNative (fun _ ↦ trivial) ?_ ?_
  · -- Without a new state the order is still waiting for its approval.
    refine wp_get trivial fun row hrow ↦ ?_
    have hrow := (AList.lookup_insert_ne (by simp)).symm.trans hrow
    cases hrow.symm.trans happroved.visible
    rw [if_pos (by rw [happroved.toApprove]; rfl)]
    trivial
  · intro row now' state hrow
    have hrow := (AList.lookup_insert_ne (by simp)).symm.trans hrow
    cases hrow.symm.trans happroved.visible
    have hroute : order.SameRoute (order.written now' { state := some state }) :=
      .written order now' _ rfl rfl rfl rfl fun _ ↦ rfl
    refine wp_get trivial fun row hrow ↦ ?_
    cases hrow.symm.trans (AList.lookup_insert _)
    refine Prog.wp_guard trivial fun hfinal ↦ ?_
    rw [Prog.wp_bind]
    refine wp_writeOrder (fun _ ↦ trivial) ?_
    intro row now'' hrow
    cases hrow.symm.trans (AList.lookup_insert _)
    obtain ⟨order', horder'⟩ : ∃ order', order' = order.written now' { state := some state } :=
      ⟨_, rfl⟩
    rw [← horder'] at hfinal hroute ⊢
    have hroute' : order'.SameRoute (order'.written now'' { pdpStatus := some .allow }) :=
      .written order' now'' _ rfl rfl rfl rfl fun _ ↦ rfl
    refine wp_get trivial fun row hrow ↦ ?_
    have hrow : σ.view.lookup (.attempt key) = some row := by
      simpa [AList.lookup_insert_ne] using hrow
    cases hrow.symm.trans happroved.tried
    refine wp_get trivial fun _ _ ↦ Prog.wp_ask fun _ ↦ Prog.wp_update ?_
    exact .single (.consume happroved hchecked rfl happroved.approvalOrder (hroute.trans hroute')
      (by rw [order'.state_written]; simpa using hfinal) rfl happroved.resource)

theorem executeApprovedConfirmation_wp (P : Protocol)
    (hdelegated : Delegated σ orderId order key attempt) :
    (executeApprovedConfirmation P orderId key).wp (fun _ ↦ Moves orderId σ) (fun _ _ ↦ True) σ := by
  apply wp_find
  split
  case h_1 => trivial
  case h_2 approval _ =>
    split
    case isTrue => exact .refl
    case isFalse =>
      refine Prog.wp_guard trivial fun _ ↦ Prog.wp_seq (prepareFinalIntent_wp P hdelegated) ?_
      rintro result _ ⟨hmoves, hprepared⟩
      split
      case h_1 => exact hmoves
      case h_2 current =>
        obtain ⟨-, ⟨_, happroved⟩, hresource, hgrant, hcommand⟩ := hprepared current rfl
        refine Prog.wp_seq (revalidateApprovedCapability_wp P orderId key) ?_
        rintro _ _ ⟨hmoves', hvalid⟩
        split
        case h_1 => exact hmoves.trans hmoves'
        case h_2 policyRevisions =>
          have h₂ := hvalid policyRevisions rfl
          refine (buildProtectedIntent_gives P _ _ _).andThen ?_
          rintro ⟨_, _, _, _, _⟩ _ h₃ ⟨-, -, hproof⟩
          refine Prog.wp_guard trivial fun hsigned ↦ ?_
          cases not_not.mp hsigned
          refine wp_get trivial fun _ _ ↦ wp_get trivial fun _ _ ↦ ?_
          refine (checkAccess_gives _ _ _).andThen fun _ _ h₄ hdecided ↦ ?_
          have hreads := (h₂.trans h₃).trans h₄
          have happroved := hreads.extends.approved happroved
          have hmoves := hmoves.trans hreads.moves
          refine Prog.wp_guard trivial fun hallow ↦ ?_
          refine wp_fences happroved.toDelegated hdecided (not_not.mp (not_or.mp hallow).1)
            ⟨P, _, _, _, _, _, congrArg (protectedDelegatedRequest P _ _ _ · _ _) hproof,
              hresource, hgrant, hcommand⟩
            (List.mem_append_right _ List.mem_cons_self) ?_ ?_
          · intro σ₇ hmoves' hextends
            have happroved := hextends.approved happroved
            exact wp_moves (hmoves.trans hmoves')
              (setTerminal_wp orderId happroved.requested happroved.approved)
          · intro _ hmoves' hextends hchecked
            exact wp_moves (hmoves.trans hmoves')
              (consumeApproval_wp (hextends.approved happroved) hchecked)

theorem pdpConfirmOne_wp (P : Protocol) (uid orderId : Id) (σ : Tx) :
    (pdpConfirmOne P uid orderId).wp (fun _ ↦ Moves orderId σ) (fun _ _ ↦ True) σ := by
  refine wp_get trivial fun order horder ↦ ?_
  split
  case h_1 grantId hgrant =>
    refine Prog.wp_seq (delegatedRequest_wp P horder hgrant) ?_
    rintro ⟨_, key, attempt, _⟩ σ₁ ⟨hmoves, order', hdelegated, hcreated⟩
    dsimp only at hdelegated hcreated ⊢
    split
    case isTrue =>
      split
      case isTrue => exact wp_moves hmoves (executeApprovedConfirmation_wp P hdelegated)
      case isFalse => exact hmoves
    case isFalse hnew =>
      obtain ⟨hopened, hfor⟩ := hcreated (by simpa using hnew)
      refine wp_orRaise fun request' hrequest ↦ ?_
      have hrouted : Routed σ₁ orderId request' (some key) :=
        ⟨⟨order', attempt, hopened⟩, hfor request' hrequest⟩
      exact wp_moves hmoves (confirmDecided_wp P uid hrouted)
  case h_2 hgrant =>
    refine (baseRequest_reads P uid orderId).andThen fun request σ₁ h₁ ↦ ?_
    have hrouted : Routed σ₁ orderId request none := h₁.extends.routed ⟨order, horder, hgrant⟩
    exact wp_moves h₁.moves (confirmDecided_wp P uid hrouted)

theorem buttonConfirm_wp (P : Protocol) (uid : Id) (ids : List Id) (σ : Tx) :
    (buttonConfirm P uid ids).wp (fun _ ↦ Confirms ids σ) (fun _ _ ↦ True) σ := by
  refine Prog.wp_forM ?_ Relation.ReflTransGen.refl
  intro orderId hmem σ' h
  refine Prog.wp_post (pdpConfirmOne_wp P uid orderId σ') ?_
  intro _ _ hmoves
  exact h.trans (hmoves.lift id fun _ _ hmove ↦ ⟨orderId, hmem, hmove⟩)

end Routes

end PolicyEngine.Odoo

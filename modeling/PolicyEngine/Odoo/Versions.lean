import PolicyEngine.Odoo.Edits
import PolicyEngine.Odoo.Stages
import PolicyEngine.Txn.Snapshot

namespace PolicyEngine.Odoo

open PolicyEngine.Txn

/-- What every transaction on the database keeps to, between its snapshot and
its commit. -/
structure Lawful (σ : Tx) : Prop where
  step : ∀ key, Life.Step (life σ.snap key) (life σ.view key) (natives key σ.events)
  consumed : ∀ key approval, σ.view.lookup (.approval key) = some approval →
    approval.state = .consumed → (life σ.snap key).approval ≠ some .consumed →
    ∃ order order', σ.snap.lookup (.order approval.purchaseOrderId) = some order ∧
      order.state = .toApprove ∧ σ.view.lookup (.order approval.purchaseOrderId) = some order' ∧
      order'.state.isFinal = true ∧ Keyed σ.view order' key
  fences : ∀ tenantId grantId, σ.snap.lookup (.fence tenantId grantId) = some true →
    σ.view.lookup (.fence tenantId grantId) = some true
  checked : ∀ id key, .native id (some key) ∈ σ.events → Checked σ id key
  scope : ∀ id order, σ.snap.lookup (.order id) = some order → ∃ order' : Order,
    σ.view.lookup (.order id) = some order' ∧
      (order.pdpDelegatedScope = true → order'.pdpDelegatedScope = true)
  lines : ∀ id line order, .line id ∈ σ.writes →
    (σ.snap.lookup (.line id) = some line ∨ σ.view.lookup (.line id) = some line) →
    σ.snap.lookup (.order line.orderId) = some order → order.inScope = true →
    .order line.orderId ∈ σ.writes
  digests : ∀ orderId lines, .digest orderId lines ∈ σ.events → .order orderId ∈ σ.locks ∧
    (∀ entry, entry ∈ lines ↔ entry ∈ linesOf σ.snap orderId) ∧ ∀ id, .line id ∉ σ.writes

theorem Framed.line_notMem {σ : Tx} (h : Framed σ) (id : Id) : .line id ∉ σ.writes := by
  intro hmem
  rcases h.footprint _ hmem with hrecord | ⟨_, _, hfence⟩
  · cases hrecord
  · cases hfence

theorem Framed.fences_kept {σ : Tx} (h : Framed σ) {tenantId grantId : String}
    (hrevoked : σ.snap.lookup (.fence tenantId grantId) = some true) :
    σ.view.lookup (.fence tenantId grantId) = some true := by
  by_cases hwritten : .fence tenantId grantId ∈ σ.writes
  · cases (h.fences _ _ hwritten).1.symm.trans hrevoked
  · exact (h.frame _ hwritten).trans hrevoked

theorem Framed.digest_lines {σ : Tx} (h : Framed σ) {orderId : Id} {lines : List (Id × Line)}
    (hmem : .digest orderId lines ∈ σ.events) : .order orderId ∈ σ.locks ∧
      (∀ entry, entry ∈ lines ↔ entry ∈ linesOf σ.snap orderId) ∧ ∀ id, .line id ∉ σ.writes :=
  ⟨(h.digests _ _ hmem).1, (h.digests _ _ hmem).2, h.line_notMem⟩

theorem Confirms.kept {σ σ' : Tx} {ids : List Id} (h : Confirms ids σ σ') : Kept σ σ' := by
  induction h with
  | refl => exact .reads (.refl σ)
  | tail _ hmove ih =>
    obtain ⟨_, -, hmove⟩ := hmove
    exact ih.trans hmove.kept

theorem actionIssueCapability_wp (P : Protocol) (uid : Id) (key : AttemptKey) (σ : Tx) :
    (actionIssueCapability P uid key).wp (fun _ σ' ↦ Reads σ σ' ∨ ∃ σ₁ approval approval',
      Reads σ σ₁ ∧ σ.view.lookup (.approval key) = some approval ∧ approval.state = .pending ∧
        approval'.state = .approved ∧ σ' = σ₁.put (.approval key) approval')
      (fun _ _ ↦ True) σ := by
  refine wp_get trivial fun approval happroval ↦ ?_
  refine (lock_reads _).andThen fun _ σ₁ h₁ ↦ (lock_reads _).andThen fun _ σ₂ h₂ ↦ ?_
  split
  case isTrue =>
    exact Prog.wp_mono (verifyIdempotentRetry_reads P uid key σ₂)
      (fun _ _ h ↦ .inl ((h₁.trans h₂).trans h)) (fun _ _ _ ↦ trivial)
  case isFalse =>
    refine wp_get trivial fun approver _ ↦ ?_
    refine (checkCurrentApprover_reads P uid key).andThen fun subject σ₃ h₃ ↦ ?_
    have hread₃ := (h₁.trans h₂).trans h₃
    refine (validatedPendingIntent_gives P key).andThen ?_
    rintro _ _ h₄ ⟨_, hrow, hpending⟩
    rw [hread₃.view] at hrow
    cases hrow.symm.trans happroval
    refine wp_get trivial fun grant _ ↦ Prog.wp_ask fun now ↦ Prog.wp_guard trivial fun _ ↦ ?_
    refine Prog.wp_ask fun token ↦ Prog.wp_ask fun reply ↦ ?_
    refine (expect_reads _).andThen fun capability _ h₅ ↦ ?_
    refine (validateIssuedBinding_reads _ _ _ _ _).andThen fun _ _ h₆ ↦ Prog.wp_ask fun reply ↦ ?_
    refine (expect_reads _).andThen fun _ σ₇ h₇ ↦ Prog.wp_update ?_
    have hread₇ := (((hread₃.trans h₄).trans h₅).trans h₆).trans h₇
    exact .inr ⟨σ₇, approval, _, hread₇, happroval, hpending, rfl, rfl⟩

namespace Lawful

variable {db : Db} {σ : Tx} {key : AttemptKey}

theorem of_confirms {ids : List Id} (hbacked : ∀ key, (life db key).Backed)
    (h : Confirms ids (.start db) σ) : Lawful σ := by
  obtain ⟨hsound, hsnap⟩ := Sound.confirms hbacked h
  refine ⟨hsound.step, hsound.consumed, fun _ _ ↦ hsound.toFramed.fences_kept, hsound.checked,
    ?_, ?_, fun _ _ ↦ hsound.toFramed.digest_lines⟩
  · intro id order horder
    obtain ⟨order', horder'⟩ := h.kept.order id order (by rw [← hsnap]; exact horder)
    obtain ⟨_, hrow, hroute, -⟩ := hsound.orders id order' horder'
    cases hrow.symm.trans horder
    exact ⟨order', horder', fun hscope ↦ hroute.scope.trans hscope⟩
  · exact fun id _ _ hmem ↦ absurd hmem (hsound.toFramed.line_notMem id)

theorem step_of_frame (hframe : σ.FrameOf σ.snap) (hevents : σ.events = [])
    (hattempt : .attempt key ∉ σ.writes) (happroval : .approval key ∉ σ.writes) :
    Life.Step (life σ.snap key) (life σ.view key) (natives key σ.events) := by
  rw [life_congr (hframe _ hattempt) (hframe _ happroval), hevents]
  exact .stay _

theorem of_edited (h : Edited db σ) : Lawful σ := by
  obtain ⟨_, hedits, htouched⟩ := h
  have hframe : σ.FrameOf σ.snap := hedits.snap ▸ hedits.frame
  -- No other table is written.
  have hother : ∀ key : Key, (∀ id, key ≠ .order id) → (∀ id, key ≠ .line id) → key ∉ σ.writes := by
    intro key horder hline hmem
    rcases hedits.footprint key hmem with ⟨id, rfl⟩ | ⟨id, rfl⟩
    · exact horder id rfl
    · exact hline id rfl
  have hnone : ∀ effect, effect ∉ σ.events := by
    intro _ hmem
    rw [hedits.events] at hmem
    exact List.not_mem_nil hmem
  refine ⟨?_, ?_, ?_, fun _ _ hmem ↦ absurd hmem (hnone _), ?_, ?_,
    fun _ _ hmem ↦ absurd hmem (hnone _)⟩
  · intro key
    exact step_of_frame hframe hedits.events (hother _ (by simp) (by simp))
      (hother _ (by simp) (by simp))
  · intro _ _ hrow hstate hsnap
    rw [hframe _ (hother _ (by simp) (by simp))] at hrow
    exact absurd ((approval_life hrow).trans (congrArg some hstate)) hsnap
  · intro _ _ hrevoked
    rw [hframe _ (hother _ (by simp) (by simp)), hrevoked]
  · rw [hedits.snap]
    exact hedits.orders
  · intro id line order hmem hline horder hscope
    rw [hedits.snap] at hline horder
    refine htouched _ ?_ order horder hscope
    cases hline with
    | inl hline => exact hedits.before id line hmem hline
    | inr hline => exact hedits.after id line hmem hline

theorem of_revoke (tenantId grantId : String) :
    Lawful ((Local.start db : Tx).put (.fence tenantId grantId) true) := by
  have hframe : ((Local.start db : Tx).put (.fence tenantId grantId) true).FrameOf db :=
    Local.FrameOf.put (fun _ _ ↦ rfl) _ _
  refine ⟨?_, ?_, ?_, fun _ _ hmem ↦ absurd hmem List.not_mem_nil, ?_, ?_,
    fun _ _ hmem ↦ absurd hmem List.not_mem_nil⟩
  · exact fun key ↦ step_of_frame hframe rfl (by simp [Local.start]) (by simp [Local.start])
  · intro _ _ hrow hstate hsnap
    rw [hframe _ (by simp [Local.start])] at hrow
    exact absurd ((approval_life hrow).trans (congrArg some hstate)) hsnap
  · intro t g hrevoked
    by_cases heq : Key.fence t g = .fence tenantId grantId
    · cases heq
      exact AList.lookup_insert _
    · exact (AList.lookup_insert_ne heq).trans hrevoked
  · intro id order horder
    exact ⟨order, (AList.lookup_insert_ne (by simp)).trans horder, fun h ↦ h⟩
  · intro _ _ _ hmem
    simp [Local.start] at hmem

theorem of_issued {σ₁ : Tx} {approval approval' : Approval} (hreads : Reads (.start db) σ₁)
    (hrow : db.lookup (.approval key) = some approval) (hpending : approval.state = .pending)
    (happroved : approval'.state = .approved) :
    Lawful (σ₁.put (.approval key) approval') := by
  have hframed : Framed (σ₁.put (.approval key) approval') := ((Framed.start db).reads hreads).put _ rfl
  have hsnap : (σ₁.put (.approval key) approval').snap = db := hreads.snap
  have hview : (σ₁.put (.approval key) approval').view = db.insert (.approval key) approval' := by
    rw [Local.put_view, hreads.view]
    rfl
  have hnatives : ∀ k, natives k (σ₁.put (.approval key) approval').events = 0 :=
    fun k ↦ hreads.natives_eq k
  have hlife : life db key = ⟨(life db key).attempt, some .pending⟩ :=
    eq_of_approval ((approval_life hrow).trans (congrArg some hpending))
  refine ⟨?_, ?_, fun _ _ ↦ hframed.fences_kept, ?_, ?_, ?_, fun _ _ ↦ hframed.digest_lines⟩
  · intro k
    rw [hsnap, hview, hnatives]
    by_cases hk : k = key
    · subst hk
      rw [life_insert_approval, happroved, hlife]
      exact .issue _
    · rw [life_insert_of_ne (by simp) (by simpa using Ne.symm hk)]
      exact .stay _
  · intro k _ hrow' hstate hnot
    rw [hsnap] at hnot
    rw [hview] at hrow'
    by_cases hk : k = key
    · subst hk
      cases (AList.lookup_insert _).symm.trans hrow'
      cases hstate.symm.trans happroved
    · rw [AList.lookup_insert_ne (by simpa using hk)] at hrow'
      exact absurd ((approval_life hrow').trans (congrArg some hstate)) hnot
  · intro id k hmem
    have hzero := hnatives k
    rw [natives, List.countP_eq_zero] at hzero
    exact absurd (by simp [Effect.isNativeFor]) (hzero _ hmem)
  · intro id order horder
    rw [hsnap] at horder
    exact ⟨order, by rw [hview, AList.lookup_insert_ne (by simp), horder], fun h ↦ h⟩
  · exact fun id _ _ hmem ↦ absurd hmem (hframed.line_notMem id)

end Lawful

def Tx.Call.Spec : Tx.Call → Tx → Prop
  | .buttonConfirm _ ids, σ => Sound σ ∧ ∀ id, .order id ∈ σ.writes → id ∈ ids
  | .revokeFence tenantId grantId, σ => .fence tenantId grantId ∈ σ.writes ∧
      σ.view.lookup (.fence tenantId grantId) = some true
  | _, _ => True

def Backed (db : Db) : Prop := ∀ key, (life db key).Backed

theorem Tx.Call.prog_wp (P : Protocol) (call : Tx.Call) (db : Db) (hbacked : Backed db) :
    (call.prog P).wp (fun _ σ ↦ Lawful σ ∧ call.Spec σ) (fun _ _ ↦ True) (.start db) := by
  cases call with
  | buttonConfirm uid ids =>
    refine Prog.wp_post (buttonConfirm_wp P uid ids (.start db)) ?_
    intro _ _ h
    exact ⟨.of_confirms hbacked h, (Sound.confirms hbacked h).1, fun _ hmem ↦ h.order_mem hmem⟩
  | actionIssueCapability uid key =>
    refine Prog.wp_post (actionIssueCapability_wp P uid key (.start db)) ?_
    rintro _ _ (hreads | ⟨_, _, _, hreads, hrow, hpending, happroved, rfl⟩)
    · exact ⟨.of_confirms hbacked (.single ⟨0, List.mem_singleton_self 0, .reads hreads⟩), trivial⟩
    · exact ⟨.of_issued hreads hrow hpending happroved, trivial⟩
  | revalidateApprovedCapability key =>
    refine Prog.wp_seq (revalidateApprovedCapability_wp P 0 key) ?_
    intro _ _ h
    exact ⟨.of_confirms hbacked
      (h.1.lift id fun _ _ hmove ↦ ⟨0, List.mem_singleton_self 0, hmove⟩), trivial⟩
  | writeOrders ids values =>
    exact Prog.wp_post (writeOrders_wp db ids values) fun _ _ h ↦ ⟨.of_edited h, trivial⟩
  | createLines defaultOrder valuesList =>
    exact Prog.wp_post (createLines_wp db defaultOrder valuesList)
      fun _ _ h ↦ ⟨.of_edited h, trivial⟩
  | writeLines ids values =>
    exact Prog.wp_post (writeLines_wp db ids values) fun _ _ h ↦ ⟨.of_edited h, trivial⟩
  | unlinkLines ids =>
    exact Prog.wp_post (unlinkLines_wp db ids) fun _ _ h ↦ ⟨.of_edited h, trivial⟩
  | revokeFence tenantId grantId =>
    apply Prog.wp_upsert
    exact ⟨.of_revoke tenantId grantId, List.mem_cons_self, AList.lookup_insert _⟩

theorem rebased_lookup {α : Type} {db : Db} {σ : Tx} (hcommits : Commits db σ) (key : Key)
    (f : Option (Row key) → α) : Life.Step.Rebased (f (σ.snap.lookup key)) (f (σ.view.lookup key))
      (f (db.lookup key)) (f ((σ.commit db).lookup key)) := by
  by_cases hkey : key ∈ σ.writes
  · rw [Local.lookup_commit_of_mem hkey, hcommits.agree key (hcommits.locked key hkey)]
    exact .inl ⟨rfl, rfl⟩
  · rw [Local.lookup_commit_of_notMem hkey, hcommits.frame key hkey]
    exact .inr ⟨rfl, rfl⟩

theorem Life.Step.commit {db : Db} {σ : Tx} {key : AttemptKey} {n : ℕ} (hcommits : Commits db σ)
    (hbacked : (life db key).Backed) (h : Life.Step (life σ.snap key) (life σ.view key) n) :
    Life.Step (life db key) (life (σ.commit db) key) n :=
  h.rebase hbacked
    (rebased_lookup hcommits (.attempt key) (·.map fun attempt : Attempt ↦ attempt.state))
    (rebased_lookup hcommits (.approval key) (·.map fun approval : Approval ↦ approval.state))

section Histories

variable {S : Type} {P : Protocol} {n : ℕ} {entry : Entry Tx.Call Row Effect}
  {W : History S Tx.Call Row Query.Answer Effect Exc Unit}

theorem backed_version (h : W.Inv (Tx.Call.prog P)) (hinit : Backed W.init) (n : ℕ) :
    Backed (W.version n) := by
  refine h.version_invariant (fun call db ↦ call.prog_wp P db) ?_ hinit n
  intro _ _ _ _ hbacked hpost hcommits key
  exact ((hpost.1.step key).commit hcommits (hbacked key)).backed (hbacked key)

theorem lawful_entry (h : W.Inv (Tx.Call.prog P)) (hinit : Backed W.init)
    (hn : W.log[n]? = some entry) : Lawful entry.done ∧ entry.call.Spec entry.done :=
  h.post_of_version (fun call db ↦ call.prog_wp P db) (backed_version h hinit) hn

theorem step_version (h : W.Inv (Tx.Call.prog P)) (hinit : Backed W.init)
    (hn : W.log[n]? = some entry) (key : AttemptKey) :
    Life.Step (life (W.version n) key) (life (W.version (n + 1)) key)
      (natives key entry.done.events) := by
  rw [History.version_succ hn]
  exact ((lawful_entry h hinit hn).1.step key).commit (h.commits hn) (backed_version h hinit n key)

theorem lookup_of_written (h : W.Inv (Tx.Call.prog P)) (hn : W.log[n]? = some entry) {k : Key}
    (hmem : k ∈ entry.done.writes) :
    (W.version n).lookup k = entry.done.snap.lookup k ∧
      (W.version (n + 1)).lookup k = entry.done.view.lookup k := by
  have hcommits := h.commits hn
  exact ⟨hcommits.agree k (hcommits.locked k hmem),
    by rw [History.version_succ hn, Local.lookup_commit_of_mem hmem]⟩

theorem lookup_of_unwritten (hn : W.log[n]? = some entry) {k : Key}
    (hmem : k ∉ entry.done.writes) : (W.version (n + 1)).lookup k = (W.version n).lookup k := by
  rw [History.version_succ hn, Local.lookup_commit_of_notMem hmem]

end Histories

end PolicyEngine.Odoo

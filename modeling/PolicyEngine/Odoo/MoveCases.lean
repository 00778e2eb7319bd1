import PolicyEngine.Odoo.Lifecycle
import PolicyEngine.Odoo.Refinement

namespace PolicyEngine.Odoo

open PolicyEngine.Go PolicyEngine.Txn

def life (db : Db) (key : AttemptKey) : Life where
  attempt := (db.lookup (.attempt key)).map fun attempt : Attempt ↦ attempt.state
  approval := (db.lookup (.approval key)).map fun approval : Approval ↦ approval.state

def Effect.isNativeFor (key : AttemptKey) : Effect → Bool
  | .native _ attempt => attempt == some key
  | .digest _ _ | .decided _ _ => false

def natives (key : AttemptKey) (events : List Effect) : ℕ := events.countP (·.isNativeFor key)

section Lives

variable {db : Db} {key key' : AttemptKey} {attempt : Attempt} {approval : Approval}

theorem life_congr {db' : Db} (hattempt : db'.lookup (.attempt key) = db.lookup (.attempt key))
    (happroval : db'.lookup (.approval key) = db.lookup (.approval key)) :
    life db' key = life db key := by
  rw [life, life, hattempt, happroval]

theorem life_insert_of_ne {k : Key} {row : Row k} (hattempt : k ≠ .attempt key)
    (happroval : k ≠ .approval key) : life (db.insert k row) key = life db key :=
  life_congr (AList.lookup_insert_ne hattempt.symm) (AList.lookup_insert_ne happroval.symm)

theorem life_insert_attempt :
    life (db.insert (.attempt key) attempt) key = ⟨some attempt.state, (life db key).approval⟩ := by
  rw [life, AList.lookup_insert, AList.lookup_insert_ne (by simp)]
  rfl

theorem life_insert_approval :
    life (db.insert (.approval key) approval) key = ⟨(life db key).attempt, some approval.state⟩ := by
  rw [life, AList.lookup_insert, AList.lookup_insert_ne (by simp)]
  rfl

theorem attempt_life (h : db.lookup (.attempt key) = some attempt) :
    (life db key).attempt = some attempt.state := by
  rw [life, h]
  rfl

theorem approval_life (h : db.lookup (.approval key) = some approval) :
    (life db key).approval = some approval.state := by
  rw [life, h]
  rfl

theorem eq_of_attempt {state : Option AttemptState} (h : (life db key).attempt = state) :
    life db key = ⟨state, (life db key).approval⟩ := by
  rw [← h]

theorem eq_of_approval {state : Option ApprovalState} (h : (life db key).approval = state) :
    life db key = ⟨(life db key).attempt, state⟩ := by
  rw [← h]

theorem natives_emit (σ : Tx) (effect : Effect) (key : AttemptKey) :
    natives key (σ.emit effect).events =
      natives key σ.events + if effect.isNativeFor key then 1 else 0 := by
  rw [Local.emit_events, natives, List.countP_append, List.countP_singleton, natives]

theorem Reads.natives_eq {σ σ' : Tx} (h : Reads σ σ') (key : AttemptKey) :
    natives key σ'.events = natives key σ.events := by
  obtain ⟨effects, hevents, heffects⟩ := h.events
  have hzero : effects.countP (·.isNativeFor key) = 0 := by
    rw [List.countP_eq_zero]
    intro effect hmem
    have hquery := heffects effect hmem
    cases effect with
    | native => exact absurd hquery id
    | digest => exact Bool.false_ne_true
    | decided => exact Bool.false_ne_true
  rw [hevents, natives, List.countP_append, hzero, Nat.add_zero, natives]

end Lives

structure AdvancesBy (key : AttemptKey) (σ σ' : Tx) (m : ℕ) : Prop where
  advance : Life.Advance (.attempt key ∈ σ.writes) (life σ.view key) (life σ'.view key) m
  natives : natives key σ'.events = natives key σ.events + m
  written : .attempt key ∈ σ'.writes → .attempt key ∈ σ.writes ∨
    (life σ.view key).attempt = none ∨ (life σ'.view key).attempt = some .executed

section Advances

variable {σ σ' : Tx} {key key' : AttemptKey} {orderId : Id}

theorem AdvancesBy.stay (hlife : life σ'.view key = life σ.view key)
    (hnatives : Odoo.natives key σ'.events = Odoo.natives key σ.events)
    (hwrites : .attempt key ∈ σ'.writes → .attempt key ∈ σ.writes) : AdvancesBy key σ σ' 0 :=
  ⟨hlife ▸ .stay _, hnatives, fun h ↦ .inl (hwrites h)⟩

theorem AdvancesBy.put {k : Key} (row : Row k) (hattempt : k ≠ .attempt key)
    (happroval : k ≠ .approval key) : AdvancesBy key σ (σ.put k row) 0 := by
  refine .stay (life_insert_of_ne hattempt happroval) rfl ?_
  intro hmem
  exact (List.mem_cons.mp hmem).resolve_left hattempt.symm

theorem Move.advancesBy (h : Move orderId σ σ') (key : AttemptKey) :
    ∃ m, AdvancesBy key σ σ' m := by
  cases h with
  | reads h =>
    exact ⟨0, .stay (by rw [h.view]) (h.natives_eq key) (fun hmem ↦ h.writes ▸ hmem)⟩
  | annotate => exact ⟨0, .put _ (by simp) (by simp)⟩
  | openFence => exact ⟨0, .put (k := .fence _ _) false (by simp) (by simp)⟩
  | human => exact ⟨0, .put _ (by simp) (by simp)⟩
  | humanNative =>
    refine ⟨0, .stay rfl ?_ id⟩
    rw [natives_emit]
    rfl
  | hold => exact ⟨0, .put _ (by simp) (by simp)⟩
  | @openAttempt _ k _ _ _ _ _ hfree hpending =>
    by_cases hk : key = k
    · subst hk
      have hnone : (life σ.view key).attempt = none := by rw [life, hfree]; rfl
      refine ⟨0, ⟨?_, rfl, fun _ ↦ .inr (.inl hnone)⟩⟩
      rw [Local.put_view, life_insert_attempt, hpending, eq_of_attempt hnone]
      exact .start _
    · exact ⟨0, .put _ (by simp [Ne.symm hk]) (by simp)⟩
  | @request σ₁ _ k _ attempt' _ approval' hopened hfree hreads happroval hattempt =>
    have hnatives : natives key ((σ₁.put (.approval k) approval').put (.attempt k)
        attempt').events = natives key σ.events := hreads.natives_eq key
    by_cases hk : key = k
    · subst hk
      have hlife : life σ.view key = ⟨some .pending, none⟩ := by
        rw [life, hopened.tried, hfree, ← hopened.pending]
        rfl
      refine ⟨0, ⟨?_, hnatives, fun _ ↦ .inl hopened.own⟩⟩
      rw [Local.put_view, life_insert_attempt, Local.put_view, life_insert_approval, hlife,
        hattempt, happroval]
      exact .request hopened.own
    · refine ⟨0, .stay ?_ hnatives ?_⟩
      · rw [Local.put_view, life_insert_of_ne (by simp [Ne.symm hk]) (by simp), Local.put_view,
          life_insert_of_ne (by simp) (by simp [Ne.symm hk]), hreads.view, Local.put_view,
          life_insert_of_ne (by simp) (by simp [Ne.symm hk])]
      · simp [hk, hreads.writes]
  | @execute σ₁ order k _ _ hopened _ hnative hattempt =>
    -- The native method may have written the order, which is no part of the life.
    have hsame : life σ₁.view key = life σ.view key ∧ σ₁.events = σ.events ∧
        (Key.attempt key ∈ σ₁.writes → .attempt key ∈ σ.writes) := by
      rcases hnative with rfl | ⟨_, -, rfl⟩
      · exact ⟨rfl, rfl, id⟩
      · exact ⟨life_insert_of_ne (by simp) (by simp), rfl, by simp⟩
    obtain ⟨hlife, hevents, hwrites⟩ := hsame
    by_cases hk : key = k
    · subst hk
      have hattempt₀ := attempt_life hopened.tried
      rw [hopened.pending] at hattempt₀
      refine ⟨1, ⟨?_, ?_, fun _ ↦ .inl hopened.own⟩⟩
      · rw [Local.put_view, life_insert_attempt, Local.emit_view, hlife, hattempt,
          eq_of_attempt hattempt₀]
        exact .execute _ hopened.own
      · rw [Local.put_events, natives_emit, hevents]
        simp [Effect.isNativeFor]
    · refine ⟨0, .stay ?_ ?_ ?_⟩
      · rw [Local.put_view, life_insert_of_ne (by simp [Ne.symm hk]) (by simp), Local.emit_view,
          hlife]
      · rw [Local.put_events, natives_emit, hevents]
        simp [Effect.isNativeFor, Ne.symm hk]
      · simpa [hk] using hwrites
  | @terminate k _ _ hvisible happroved hstate =>
    by_cases hk : key = k
    · subst hk
      have happroval := approval_life hvisible
      rw [happroved] at happroval
      refine ⟨0, ⟨?_, rfl, fun hmem ↦ .inl ?_⟩⟩
      · rw [Local.put_view, life_insert_approval, eq_of_approval happroval]
        exact .terminate _ hstate
      · exact (List.mem_cons.mp hmem).resolve_left (by simp)
    · exact ⟨0, .put _ (by simp) (by simp [Ne.symm hk])⟩
  | @consume _ _ _ k _ _ _ _ happroved _ happroval _ _ _ hattempt =>
    by_cases hk : key = k
    · subst hk
      have hlife : life σ.view key = ⟨some .approvalRequired, some .approved⟩ := by
        rw [life, happroved.tried, happroved.requested, ← happroved.required, ← happroved.approved]
        rfl
      refine ⟨1, ⟨?_, ?_, fun _ ↦ .inr (.inr ?_)⟩⟩
      · simp only [Local.put_view, Local.emit_view, life_insert_attempt]
        rw [life_insert_of_ne (by simp) (by simp), life_insert_of_ne (by simp) (by simp),
          life_insert_approval, hlife, hattempt, happroval]
        exact .consume
      · simp only [Local.put_events, natives_emit]
        simp [Effect.isNativeFor]
      · rw [Local.put_view, life_insert_attempt, hattempt]
    · refine ⟨0, .stay ?_ ?_ ?_⟩
      · simp only [Local.put_view, Local.emit_view]
        rw [life_insert_of_ne (by simp [Ne.symm hk]) (by simp), life_insert_of_ne (by simp) (by simp),
          life_insert_of_ne (by simp) (by simp), life_insert_of_ne (by simp) (by simp [Ne.symm hk])]
      · simp only [Local.put_events, natives_emit]
        simp [Effect.isNativeFor, Ne.symm hk]
      · simp [hk]

end Advances

/-- What no move takes back. -/
structure Kept (σ σ' : Tx) : Prop where
  snap : σ'.snap = σ.snap
  writes : ∀ key ∈ σ.writes, key ∈ σ'.writes
  locks : ∀ key ∈ σ.locks, key ∈ σ'.locks
  events : ∀ effect ∈ σ.events, effect ∈ σ'.events
  company : ∀ id, σ'.view.lookup (.company id) = σ.view.lookup (.company id)
  policy : ∀ tenantId, σ'.view.lookup (.policyFence tenantId) =
    σ.view.lookup (.policyFence tenantId)
  fence : ∀ tenantId grantId revoked, σ.view.lookup (.fence tenantId grantId) = some revoked →
    σ'.view.lookup (.fence tenantId grantId) = some revoked
  executed : ∀ key attempt, σ.view.lookup (.attempt key) = some attempt →
    attempt.state = .executed → σ'.view.lookup (.attempt key) = some attempt
  order : ∀ id order, σ.view.lookup (.order id) = some order →
    ∃ order', σ'.view.lookup (.order id) = some order'

namespace Kept

variable {σ σ' σ'' : Tx} {key : AttemptKey}

theorem trans (h : Kept σ σ') (h' : Kept σ' σ'') : Kept σ σ'' where
  snap := h'.snap.trans h.snap
  writes := fun key hkey ↦ h'.writes key (h.writes key hkey)
  locks := fun key hkey ↦ h'.locks key (h.locks key hkey)
  events := fun effect heffect ↦ h'.events effect (h.events effect heffect)
  company := fun id ↦ (h'.company id).trans (h.company id)
  policy := fun tenantId ↦ (h'.policy tenantId).trans (h.policy tenantId)
  fence := fun t g revoked hrow ↦ h'.fence t g revoked (h.fence t g revoked hrow)
  executed := fun key attempt hrow hstate ↦
    h'.executed key attempt (h.executed key attempt hrow hstate) hstate
  order := fun id order hrow ↦ by
    obtain ⟨order', hrow'⟩ := h.order id order hrow
    exact h'.order id order' hrow'

theorem reads (h : Reads σ σ') : Kept σ σ' where
  snap := h.snap
  writes := h.extends.writes
  locks := h.locks
  events := h.extends.events
  company := fun id ↦ by rw [h.view]
  policy := fun tenantId ↦ by rw [h.view]
  fence := fun t g revoked hrow ↦ by rw [h.view, hrow]
  executed := fun key attempt hrow _ ↦ by rw [h.view, hrow]
  order := fun id order hrow ↦ ⟨order, by rw [h.view, hrow]⟩

theorem emit (σ : Tx) (effect : Effect) : Kept σ (σ.emit effect) where
  snap := rfl
  writes := fun _ h ↦ h
  locks := fun _ h ↦ h
  events := fun _ h ↦ List.mem_append_left _ h
  company := fun _ ↦ rfl
  policy := fun _ ↦ rfl
  fence := fun _ _ _ h ↦ h
  executed := fun _ _ h _ ↦ h
  order := fun _ order h ↦ ⟨order, h⟩

theorem put (k : Key) (row : Row k) (hcompany : ∀ id, Key.company id ≠ k)
    (hpolicy : ∀ tenantId, Key.policyFence tenantId ≠ k)
    (hfence : ∀ t g revoked, σ.view.lookup (.fence t g) = some revoked → Key.fence t g ≠ k)
    (hexecuted : ∀ key attempt, σ.view.lookup (.attempt key) = some attempt →
      attempt.state = .executed → Key.attempt key ≠ k) : Kept σ (σ.put k row) where
  snap := rfl
  writes := fun _ h ↦ List.mem_cons_of_mem _ h
  locks := fun _ h ↦ List.mem_cons_of_mem _ h
  events := fun _ h ↦ h
  company := fun id ↦ AList.lookup_insert_ne (hcompany id)
  policy := fun tenantId ↦ AList.lookup_insert_ne (hpolicy tenantId)
  fence := fun t g revoked hrow ↦ (AList.lookup_insert_ne (hfence t g revoked hrow)).trans hrow
  executed := fun key attempt hrow hstate ↦
    (AList.lookup_insert_ne (hexecuted key attempt hrow hstate)).trans hrow
  order := fun id order hrow ↦ by
    by_cases hk : Key.order id = k
    · subst hk
      exact ⟨row, AList.lookup_insert _⟩
    · exact ⟨order, (AList.lookup_insert_ne hk).trans hrow⟩

theorem put_order (σ : Tx) (id : Id) (order : Order) : Kept σ (σ.put (.order id) order) :=
  put (.order id) order (by simp) (by simp) (by simp) (by simp)

theorem put_approval (σ : Tx) (key : AttemptKey) (approval : Approval) :
    Kept σ (σ.put (.approval key) approval) :=
  put (.approval key) approval (by simp) (by simp) (by simp) (by simp)

theorem put_attempt {attempt : Attempt} (attempt' : Attempt)
    (hvisible : σ.view.lookup (.attempt key) = some attempt) (hstate : attempt.state ≠ .executed) :
    Kept σ (σ.put (.attempt key) attempt') := by
  refine put (.attempt key) attempt' (by simp) (by simp) (by simp) ?_
  intro _ _ hrow hexecuted hk
  cases hk
  cases hrow.symm.trans hvisible
  exact hstate hexecuted

theorem checked (h : Kept σ σ') {orderId : Id} (hc : Checked σ orderId key) :
    Checked σ' orderId key := by
  obtain ⟨request, verdict, policyRevisions, hevent, hallow, hfor, hmem, hfresh⟩ := hc.decided
  exact ⟨h.locks _ hc.fence, h.fence _ _ _ hc.unrevoked, h.locks _ hc.policy, request, verdict,
    policyRevisions, h.events _ hevent, hallow, hfor, hmem, (h.policy _).symm ▸ hfresh⟩

theorem attemptKey_eq (h : Kept σ σ') (order : Order) :
    attemptKey σ'.view order = attemptKey σ.view order := by
  rw [attemptKey, attemptKey, tenantOf, tenantOf, h.company]

end Kept

theorem Move.kept {σ σ' : Tx} {orderId : Id} (h : Move orderId σ σ') : Kept σ σ' := by
  cases h with
  | reads h => exact .reads h
  | annotate => exact .put_order _ _ _
  | @openAttempt _ key attempt _ _ _ _ hfree =>
    refine .put (.attempt key) attempt (by simp) (by simp) (by simp) ?_
    intro _ _ hrow _ hk
    cases hk
    cases hrow.symm.trans hfree
  | @openFence tenantId grantId hfree =>
    refine .put (.fence tenantId grantId) false (by simp) (by simp) ?_ (by simp)
    intro _ _ _ hrow hk
    cases hk
    cases hrow.symm.trans hfree
  | human => exact .put_order _ _ _
  | humanNative => exact .emit _ _
  | hold => exact .put_order _ _ _
  | @request σ₁ _ key attempt _ _ approval' hopened _ hreads =>
    have htried : (σ₁.put (.approval key) approval').view.lookup (.attempt key) = some attempt := by
      rw [Local.put_view, AList.lookup_insert_ne (by simp), hreads.view, Local.put_view,
        AList.lookup_insert_ne (by simp), hopened.tried]
    have hstate : attempt.state ≠ .executed := by simp [hopened.pending]
    exact (((Kept.put_approval _ _ _).trans (.reads hreads)).trans (.put_approval _ _ _)).trans
      (.put_attempt _ htried hstate)
  | @execute _ _ _ attempt _ hopened _ hnative =>
    have hstate : attempt.state ≠ .executed := by simp [hopened.pending]
    rcases hnative with rfl | ⟨_, -, rfl⟩
    · exact (Kept.emit _ _).trans (.put_attempt _ hopened.tried hstate)
    · refine ((Kept.put_order _ _ _).trans (.emit _ _)).trans (.put_attempt _ ?_ hstate)
      rw [Local.emit_view, Local.put_view, AList.lookup_insert_ne (by simp), hopened.tried]
  | terminate => exact .put_approval _ _ _
  | @consume _ _ _ _ attempt _ _ _ happroved =>
    have hstate : attempt.state ≠ .executed := by simp [happroved.required]
    refine ((((Kept.put_approval _ _ _).trans (.put_order _ _ _)).trans (.emit _ _)).trans
      (.put_order _ _ _)).trans (.put_attempt _ ?_ hstate)
    simp only [Local.put_view, Local.emit_view]
    rw [AList.lookup_insert_ne (by simp), AList.lookup_insert_ne (by simp),
      AList.lookup_insert_ne (by simp), happroved.tried]

def Key.isRecord : Key → Bool
  | .order _ | .attempt _ | .approval _ => true
  | _ => false

/-- What a confirming transaction leaves alone: all other tables, fences that
exist, and so the lines under every digest. -/
structure Framed (σ : Tx) : Prop where
  frame : σ.FrameOf σ.snap
  footprint : ∀ key ∈ σ.writes, key.isRecord = true ∨ ∃ tenantId grantId, key = .fence tenantId grantId
  fences : ∀ tenantId grantId, .fence tenantId grantId ∈ σ.writes →
    σ.snap.lookup (.fence tenantId grantId) = none ∧
      σ.view.lookup (.fence tenantId grantId) = some false
  digests : ∀ orderId lines, .digest orderId lines ∈ σ.events →
    .order orderId ∈ σ.locks ∧ ∀ entry, entry ∈ lines ↔ entry ∈ linesOf σ.snap orderId

namespace Framed

variable {σ σ' : Tx}

theorem start (db : Db) : Framed (.start db) where
  frame := fun _ _ ↦ rfl
  footprint := fun _ h ↦ absurd h List.not_mem_nil
  fences := fun _ _ h ↦ absurd h List.not_mem_nil
  digests := fun _ _ h ↦ absurd h List.not_mem_nil

theorem mem_linesOf_view (h : Framed σ) (orderId : Id) (entry : Id × Line) :
    entry ∈ linesOf σ.view orderId ↔ entry ∈ linesOf σ.snap orderId := by
  have hline : Key.line entry.1 ∉ σ.writes := by
    intro hmem
    rcases h.footprint _ hmem with hrecord | ⟨_, _, hfence⟩
    · cases hrecord
    · cases hfence
  rw [mem_linesOf, mem_linesOf, h.frame _ hline]

theorem reads (h : Framed σ) (hreads : Reads σ σ') : Framed σ' := by
  refine ⟨?_, ?_, ?_, ?_⟩
  · rw [Local.FrameOf, hreads.writes, hreads.view, hreads.snap]
    exact h.frame
  · rw [hreads.writes]
    exact h.footprint
  · rw [hreads.writes, hreads.snap, hreads.view]
    exact h.fences
  · intro orderId lines hmem
    obtain ⟨_, hevents, heffects⟩ := hreads.events
    rw [hevents, List.mem_append] at hmem
    rw [hreads.snap]
    cases hmem with
    | inl hmem =>
      obtain ⟨hlock, hlines⟩ := h.digests orderId lines hmem
      exact ⟨hreads.locks _ hlock, hlines⟩
    | inr hmem =>
      obtain ⟨hlines, hlock⟩ := heffects _ hmem
      refine ⟨hlock, ?_⟩
      intro _
      rw [hlines, hreads.view, h.mem_linesOf_view]

theorem put (h : Framed σ) {k : Key} (row : Row k) (hk : k.isRecord = true) :
    Framed (σ.put k row) := by
  have hfence : ∀ tenantId grantId, Key.fence tenantId grantId ≠ k := by
    intro _ _ heq
    subst heq
    cases hk
  refine ⟨h.frame.put _ _, ?_, ?_, ?_⟩
  · rw [Local.put_writes]
    exact List.forall_mem_cons.mpr ⟨.inl hk, h.footprint⟩
  · intro tenantId grantId hmem
    rw [Local.put_view, AList.lookup_insert_ne (hfence tenantId grantId), Local.put_snap]
    exact h.fences _ _ ((List.mem_cons.mp hmem).resolve_left (hfence tenantId grantId))
  · intro orderId lines hmem
    obtain ⟨hlock, hlines⟩ := h.digests orderId lines hmem
    exact ⟨List.mem_cons_of_mem _ hlock, hlines⟩

theorem openFence (h : Framed σ) {tenantId grantId : String}
    (hfree : σ.view.lookup (.fence tenantId grantId) = none) :
    Framed (σ.put (.fence tenantId grantId) false) := by
  refine ⟨h.frame.put _ _, ?_, ?_, ?_⟩
  · rw [Local.put_writes]
    exact List.forall_mem_cons.mpr ⟨.inr ⟨tenantId, grantId, rfl⟩, h.footprint⟩
  · intro t g hmem
    by_cases heq : Key.fence t g = .fence tenantId grantId
    · cases heq
      refine ⟨?_, AList.lookup_insert _⟩
      -- It was not visible, so this transaction had not written it either.
      rw [Local.put_snap, ← h.frame _ ?_, hfree]
      intro hwritten
      cases hfree.symm.trans (h.fences _ _ hwritten).2
    · rw [Local.put_view, AList.lookup_insert_ne heq, Local.put_snap]
      exact h.fences t g ((List.mem_cons.mp hmem).resolve_left heq)
  · intro orderId lines hmem
    obtain ⟨hlock, hlines⟩ := h.digests orderId lines hmem
    exact ⟨List.mem_cons_of_mem _ hlock, hlines⟩

theorem emit (h : Framed σ) (orderId : Id) (attempt : Option AttemptKey) :
    Framed (σ.emit (.native orderId attempt)) := by
  refine ⟨h.frame, h.footprint, h.fences, ?_⟩
  intro id lines hmem
  rw [Local.emit_events, List.mem_append, List.mem_singleton] at hmem
  cases hmem with
  | inl hmem => exact h.digests id lines hmem
  | inr heq => cases heq

theorem move {orderId : Id} (h : Framed σ) (hmove : Move orderId σ σ') : Framed σ' := by
  cases hmove with
  | reads hreads => exact h.reads hreads
  | annotate => exact h.put _ rfl
  | openAttempt => exact h.put _ rfl
  | openFence hfree => exact h.openFence hfree
  | human => exact h.put _ rfl
  | humanNative => exact h.emit _ _
  | hold => exact h.put _ rfl
  | request _ _ hreads =>
    exact (((h.put _ rfl).reads hreads).put _ rfl).put _ rfl
  | execute _ _ hnative =>
    rcases hnative with rfl | ⟨_, -, rfl⟩
    · exact (h.emit _ _).put _ rfl
    · exact ((h.put _ rfl).emit _ _).put _ rfl
  | terminate => exact h.put _ rfl
  | consume =>
    exact ((((h.put _ rfl).put _ rfl).emit _ _).put _ rfl).put _ rfl

end Framed

inductive OrderChange (σ σ' : Tx) (orderId : Id) (order order' : Order) : Prop
  | annotate (hstate : order'.state = order.state)
  | human (hgrant : order.delegationGrantId = none)
  | hold {key : AttemptKey} {attempt : Attempt} (hopened : Opened σ orderId order key attempt)
      (hstate : order'.state = .toApprove)
  | execute {key : AttemptKey} {attempt attempt' : Attempt}
      (hdelegated : Delegated σ orderId order key attempt) (hstate : attempt.state ≠ .executed)
      (hwritten : .attempt key ∈ σ'.writes)
      (hattempt : σ'.view.lookup (.attempt key) = some attempt')
      (hexecuted : attempt'.state = .executed) (hresource : attempt'.businessResId = orderId)
      (hchecked : Checked σ' orderId key)

theorem Move.order {σ σ' : Tx} {orderId id : Id} {order' : Order} (h : Move orderId σ σ')
    (horder' : σ'.view.lookup (.order id) = some order') :
    σ.view.lookup (.order id) = some order' ∨ ∃ order, σ.view.lookup (.order id) = some order ∧
      order.SameRoute order' ∧ OrderChange σ σ' id order order' := by
  have hkept := h.kept
  -- A row put at the order's key is the one seen, any other leaves it as it was.
  have hput : ∀ {τ : Tx} {row : Order}, (τ.put (.order orderId) row).view.lookup (.order id) =
      some order' → id = orderId ∧ row = order' ∨
        id ≠ orderId ∧ τ.view.lookup (.order id) = some order' := by
    intro _ _ hrow
    by_cases hid : id = orderId
    · subst hid
      exact .inl ⟨rfl, Option.some.inj ((AList.lookup_insert _).symm.trans hrow)⟩
    · exact .inr ⟨hid, (AList.lookup_insert_ne (by simpa using hid)).symm.trans hrow⟩
  have hother : ∀ {τ : Tx} {k : Key} {row : Row k}, Key.order id ≠ k →
      (τ.put k row).view.lookup (.order id) = some order' →
      τ.view.lookup (.order id) = some order' :=
    fun hk hrow ↦ (AList.lookup_insert_ne hk).symm.trans hrow
  cases h with
  | reads hreads => exact .inl (hreads.view ▸ horder')
  | annotate hvisible hroute hstate =>
    rcases hput horder' with ⟨rfl, rfl⟩ | ⟨-, horder⟩
    · exact .inr ⟨_, hvisible, hroute, .annotate hstate⟩
    · exact .inl horder
  | openAttempt =>
    exact .inl (hother (by simp) horder')
  | @openFence tenantId grantId =>
    exact .inl (hother (k := .fence tenantId grantId) (by simp) horder')
  | human hvisible hgrant hroute =>
    rcases hput horder' with ⟨rfl, rfl⟩ | ⟨-, horder⟩
    · exact .inr ⟨_, hvisible, hroute, .human hgrant⟩
    · exact .inl horder
  | humanNative => exact .inl horder'
  | hold hopened hroute hstate =>
    rcases hput horder' with ⟨rfl, rfl⟩ | ⟨-, horder⟩
    · exact .inr ⟨_, hopened.visible, hroute, .hold hopened hstate⟩
    · exact .inl horder
  | request _ _ hreads =>
    have horder := hother (by simp) (hother (by simp) horder')
    rw [hreads.view] at horder
    exact .inl (hother (by simp) horder)
  | execute hopened hchecked hnative hattempt hresource =>
    have horder := hother (by simp) horder'
    rcases hnative with rfl | ⟨_, hroute, rfl⟩
    · exact .inl horder
    · rcases hput horder with ⟨rfl, rfl⟩ | ⟨-, horder⟩
      · refine .inr ⟨_, hopened.visible, hroute, .execute hopened.toDelegated ?_ List.mem_cons_self
          (AList.lookup_insert _) hattempt hresource (hkept.checked hchecked)⟩
        simp [hopened.pending]
      · exact .inl horder
  | terminate => exact .inl (hother (by simp) horder')
  | consume happroved hchecked _ _ hroute _ hattempt hresource =>
    have horder := hother (by simp) horder'
    rcases hput horder with ⟨rfl, rfl⟩ | ⟨hid', horder⟩
    · refine .inr ⟨_, happroved.visible, hroute, .execute happroved.toDelegated ?_
        List.mem_cons_self (AList.lookup_insert _) hattempt hresource (hkept.checked hchecked)⟩
      simp [happroved.required]
    · rcases hput horder with ⟨heq, -⟩ | ⟨-, horder⟩
      · exact absurd heq hid'
      · exact .inl (hother (by simp) horder)

theorem Move.consumed {σ σ' : Tx} {orderId : Id} {key : AttemptKey} {approval : Approval}
    (h : Move orderId σ σ') (hrow : σ'.view.lookup (.approval key) = some approval)
    (hstate : approval.state = .consumed) :
    σ.view.lookup (.approval key) = some approval ∨ approval.purchaseOrderId = orderId ∧
      ∃ order order' attempt approval', Approved σ orderId order key attempt approval' ∧
        σ'.view.lookup (.order orderId) = some order' ∧ order.SameRoute order' ∧
        order'.state.isFinal = true := by
  have hother : ∀ {τ : Tx} {k : Key} {row : Row k}, Key.approval key ≠ k →
      (τ.put k row).view.lookup (.approval key) = some approval →
      τ.view.lookup (.approval key) = some approval :=
    fun hk hrow ↦ (AList.lookup_insert_ne hk).symm.trans hrow
  cases h with
  | reads hreads => exact .inl (hreads.view ▸ hrow)
  | annotate => exact .inl (hother (by simp) hrow)
  | openAttempt =>
    exact .inl (hother (by simp) hrow)
  | @openFence tenantId grantId =>
    exact .inl (hother (k := .fence tenantId grantId) (by simp) hrow)
  | human => exact .inl (hother (by simp) hrow)
  | humanNative => exact .inl hrow
  | hold => exact .inl (hother (by simp) hrow)
  | @request _ _ k _ _ _ _ _ _ hreads happroval =>
    have hrow := hother (by simp) hrow
    by_cases hk : key = k
    · subst hk
      cases (AList.lookup_insert _).symm.trans hrow
      cases happroval.symm.trans hstate
    · have hrow := hother (by simpa using hk) hrow
      rw [hreads.view] at hrow
      exact .inl (hother (by simpa using hk) hrow)
  | execute _ _ hnative =>
    have hrow := hother (by simp) hrow
    rcases hnative with rfl | ⟨_, -, rfl⟩
    · exact .inl hrow
    · exact .inl (hother (by simp) hrow)
  | @terminate k _ _ _ _ hterminal =>
    by_cases hk : key = k
    · subst hk
      cases (AList.lookup_insert _).symm.trans hrow
      rw [hstate] at hterminal
      cases hterminal with
      | inl h => cases h
      | inr h => cases h
    · exact .inl (hother (by simpa using hk) hrow)
  | @consume order order' order'' k attempt _ approval₁ approval' happroved _ _ horder hroute
      hfinal =>
    have hrow := hother (by simp) (hother (by simp) hrow)
    have hrow := hother (by simp) (show ((σ.put (.approval k) approval').put (.order orderId)
      order').view.lookup (.approval key) = some approval from hrow)
    by_cases hk : key = k
    · subst hk
      cases (AList.lookup_insert _).symm.trans hrow
      refine .inr ⟨horder, order, order'', attempt, approval₁, happroved, ?_, hroute, hfinal⟩
      rw [Local.put_view, AList.lookup_insert_ne (by simp)]
      exact AList.lookup_insert _
    · exact .inl (hother (by simpa using hk) hrow)

theorem Move.native {σ σ' : Tx} {orderId id : Id} {attempt? : Option AttemptKey}
    (h : Move orderId σ σ') (hmem : .native id attempt? ∈ σ'.events) :
    .native id attempt? ∈ σ.events ∨
      (attempt? = none ∧ ∃ order : Order, σ.view.lookup (.order id) = some order ∧
        order.delegationGrantId = none) ∨ ∃ key, attempt? = some key ∧ Checked σ' id key := by
  have hkept := h.kept
  have hemit : ∀ {τ : Tx} {o : Id} {a : Option AttemptKey},
      .native id attempt? ∈ (τ.emit (.native o a)).events →
      .native id attempt? ∈ τ.events ∨ id = o ∧ attempt? = a := by
    intro _ _ _ hmem
    rw [Local.emit_events, List.mem_append, List.mem_singleton] at hmem
    cases hmem with
    | inl hmem => exact .inl hmem
    | inr heq => cases heq; exact .inr ⟨rfl, rfl⟩
  have hreads : ∀ {τ τ' : Tx}, Reads τ τ' → .native id attempt? ∈ τ'.events →
      .native id attempt? ∈ τ.events := by
    intro _ _ h hmem
    obtain ⟨_, hevents, heffects⟩ := h.events
    rw [hevents, List.mem_append] at hmem
    exact hmem.resolve_right fun hnew ↦ heffects _ hnew
  cases h with
  | reads h => exact .inl (hreads h hmem)
  | annotate => exact .inl hmem
  | openAttempt => exact .inl hmem
  | openFence => exact .inl hmem
  | human => exact .inl hmem
  | humanNative hvisible hgrant =>
    rcases hemit hmem with hmem | ⟨rfl, rfl⟩
    · exact .inl hmem
    · exact .inr (.inl ⟨rfl, _, hvisible, hgrant⟩)
  | hold => exact .inl hmem
  | request _ _ h =>
    have hmem := hreads h hmem
    exact .inl hmem
  | execute _ hchecked hnative =>
    rcases hemit hmem with hmem | ⟨rfl, rfl⟩
    · rcases hnative with rfl | ⟨_, -, rfl⟩
      · exact .inl hmem
      · exact .inl hmem
    · exact .inr (.inr ⟨_, rfl, hkept.checked hchecked⟩)
  | terminate => exact .inl hmem
  | consume _ hchecked =>
    rcases hemit hmem with hmem | ⟨rfl, rfl⟩
    · exact .inl hmem
    · exact .inr (.inr ⟨_, rfl, hkept.checked hchecked⟩)

theorem Move.order_mem {σ σ' : Tx} {orderId id : Id} (h : Move orderId σ σ')
    (hmem : .order id ∈ σ'.writes) : .order id ∈ σ.writes ∨ id = orderId := by
  cases h with
  | reads hreads => exact .inl (hreads.writes ▸ hmem)
  | annotate => simpa [or_comm] using hmem
  | openAttempt => exact .inl (by simpa using hmem)
  | openFence => exact .inl (by simpa using hmem)
  | human => simpa [or_comm] using hmem
  | humanNative => exact .inl hmem
  | hold => simpa [or_comm] using hmem
  | request _ _ hreads =>
    exact .inl (by simpa [hreads.writes] using hmem)
  | execute _ _ hnative =>
    rcases hnative with rfl | ⟨_, -, rfl⟩
    · exact .inl (by simpa using hmem)
    · simpa [or_comm] using hmem
  | terminate => exact .inl (by simpa using hmem)
  | consume =>
    simpa [or_comm] using hmem

theorem Confirms.order_mem {σ : Tx} {ids : List Id} {id : Id} {db : Db}
    (h : Confirms ids (.start db) σ) (hmem : .order id ∈ σ.writes) : id ∈ ids := by
  induction h with
  | refl => exact absurd hmem List.not_mem_nil
  | tail _ hmove ih =>
    obtain ⟨_, hid, hmove⟩ := hmove
    rcases hmove.order_mem hmem with hmem | rfl
    · exact ih hmem
    · exact hid

end PolicyEngine.Odoo

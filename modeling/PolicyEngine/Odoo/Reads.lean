import PolicyEngine.Odoo.Calls

namespace PolicyEngine.Odoo

open PolicyEngine.Txn

def Effect.OfQuery (σ : Tx) : Effect → Prop
  | .digest orderId lines => lines = linesOf σ.view orderId ∧ .order orderId ∈ σ.locks
  | .decided _ _ => True
  | .native _ _ => False

theorem Effect.OfQuery.mono {σ σ' : Tx} {effect : Effect} (h : effect.OfQuery σ)
    (hview : σ'.view = σ.view) (hlocks : ∀ key ∈ σ.locks, key ∈ σ'.locks) :
    effect.OfQuery σ' := by
  cases effect with
  | digest => exact ⟨hview ▸ h.1, hlocks _ h.2⟩
  | decided => trivial
  | native => exact h

structure Reads (σ σ' : Tx) : Prop where
  snap : σ'.snap = σ.snap
  view : σ'.view = σ.view
  writes : σ'.writes = σ.writes
  locks : ∀ key ∈ σ.locks, key ∈ σ'.locks
  events : ∃ effects, σ'.events = σ.events ++ effects ∧ ∀ effect ∈ effects, effect.OfQuery σ'

namespace Reads

variable {σ σ' σ'' : Tx}

theorem refl (σ : Tx) : Reads σ σ :=
  ⟨rfl, rfl, rfl, fun _ h ↦ h, [], (List.append_nil _).symm, fun _ h ↦ absurd h List.not_mem_nil⟩

theorem trans (h : Reads σ σ') (h' : Reads σ' σ'') : Reads σ σ'' := by
  obtain ⟨effects, hevents, heffects⟩ := h.events
  obtain ⟨effects', hevents', heffects'⟩ := h'.events
  refine ⟨h'.snap.trans h.snap, h'.view.trans h.view, h'.writes.trans h.writes,
    fun key hkey ↦ h'.locks key (h.locks key hkey), effects ++ effects', ?_, ?_⟩
  · rw [hevents', hevents, List.append_assoc]
  · intro effect hmem
    cases List.mem_append.mp hmem with
    | inl hmem => exact (heffects effect hmem).mono h'.view h'.locks
    | inr hmem => exact heffects' effect hmem

instance : Std.Refl Reads := ⟨refl⟩

instance : IsTrans Tx Reads := ⟨fun _ _ _ ↦ trans⟩

theorem lock (σ : Tx) (key : Key) : Reads σ (σ.lock key) :=
  ⟨σ.lock_snap key, σ.lock_view key, σ.lock_writes key, fun _ ↦ Local.mem_locks_lock, [],
    by rw [σ.lock_events, List.append_nil], fun _ h ↦ absurd h List.not_mem_nil⟩

theorem emit (σ : Tx) {effect : Effect} (h : effect.OfQuery σ) : Reads σ (σ.emit effect) :=
  ⟨rfl, rfl, rfl, fun _ h ↦ h, [effect], rfl, fun _ hmem ↦ List.mem_singleton.mp hmem ▸ h⟩

end Reads

section Programs

variable {α : Type}

theorem view_reads : (Prog.view : M Db).Keeps Reads := fun σ ↦ Prog.wp_view (.refl σ)

theorem ask_reads (query : Query) : (Prog.ask query : M _).Keeps Reads :=
  fun σ ↦ Prog.wp_ask fun _ ↦ .refl σ

theorem lock_reads (key : Key) : (Prog.lock key : M _).Keeps Reads :=
  fun σ ↦ Prog.wp_lock (.lock σ key)

theorem find_reads (key : Key) : (find key).Keeps Reads := view_reads.bind fun _ ↦ .pure _

theorem get_reads (key : Key) : (get key).Keeps Reads := by
  refine (find_reads key).bind fun row ↦ ?_
  split
  · exact .pure _
  · exact .throw _

theorem orRaise_reads (error : Exc) (value : Option α) : (orRaise error value).Keeps Reads := by
  cases value with
  | some value => exact .pure value
  | none => exact .throw error

theorem expect_reads (value : Except Exc α) : (expect value).Keeps Reads := by
  cases value with
  | ok value => exact .pure value
  | error error => exact .throw error

theorem attemptTo_reads {catches : Exc → Bool} {p : M α} (hp : p.Keeps Reads) :
    (attemptTo catches p).Keeps Reads := by
  refine (hp.bind fun _ ↦ .pure _).tryCatch fun error ↦ ?_
  split
  · exact .pure _
  · exact .throw _

theorem tenantId_reads (order : Order) : (tenantId order).Keeps Reads :=
  (get_reads _).bind fun _ ↦ .ite (.throw _) (.pure _)

theorem grantTenantId_reads (grant : Grant) : (grantTenantId grant).Keeps Reads :=
  (get_reads _).bind fun _ ↦ (get_reads _).bind fun _ ↦ .ite (.throw _) (.pure _)

theorem checkAccess_reads (tenant : String) (attributes : List (String × String))
    (request : Request) : (checkAccess tenant attributes request).Keeps Reads := by
  refine (ask_reads _).bind fun _ ↦ (ask_reads _).bind fun _ ↦ (expect_reads _).bind fun verdict ↦ ?_
  intro σ
  apply Prog.wp_emit
  exact .emit σ trivial

end Programs

def Gives {α : Type} (p : M α) (F : Tx → α → Tx → Prop) : Prop :=
  ∀ σ, p.wp (fun value σ' ↦ Reads σ σ' ∧ F σ value σ') (fun _ ↦ Reads σ) σ

section Values

variable {α β : Type} {σ : Tx}

section

variable {p : M β} {F : Tx → β → Tx → Prop} {f : β → M α} {post : α → Tx → Prop}

theorem Gives.keeps (hp : Gives p F) : p.Keeps Reads :=
  fun σ ↦ Prog.wp_post (hp σ) fun _ _ h ↦ h.1

theorem Gives.andThen (hp : Gives p F)
    (hf : ∀ value σ', Reads σ σ' → F σ value σ' → (f value).wp post (fun _ _ ↦ True) σ') :
    (p >>= f).wp post (fun _ _ ↦ True) σ := by
  rw [Prog.wp_bind]
  exact Prog.wp_mono (hp σ) (fun value σ' h ↦ hf value σ' h.1 h.2) fun _ _ _ ↦ trivial

theorem Gives.next {σ₀ : Tx} (hp : Gives p F) (h₀ : Reads σ₀ σ)
    (hf : ∀ value σ', Reads σ σ' → Reads σ₀ σ' → F σ value σ' →
      (f value).wp post (fun _ ↦ Reads σ₀) σ') :
    (p >>= f).wp post (fun _ ↦ Reads σ₀) σ := by
  rw [Prog.wp_bind]
  exact Prog.wp_mono (hp σ) (fun value σ' h ↦ hf value σ' h.1 (h₀.trans h.1) h.2)
    fun _ _ h ↦ h₀.trans h

end

theorem wp_find {key : Key} {next : Option (Row key) → M α} {post : α → Tx → Prop}
    {exc : Exc → Tx → Prop} (h : (next (σ.view.lookup key)).wp post exc σ) :
    (find key >>= next).wp post exc σ := by
  rw [find, bind_assoc]
  exact Prog.wp_view h

theorem wp_get {key : Key} {next : Row key → M α} {post : α → Tx → Prop} {exc : Exc → Tx → Prop}
    (hexc : exc .missing σ)
    (h : ∀ row, σ.view.lookup key = some row → (next row).wp post exc σ) :
    (get key >>= next).wp post exc σ := by
  rw [get, bind_assoc]
  apply wp_find
  split
  case h_1 row hrow => exact h row hrow
  case h_2 => exact hexc

/-- The tenant of an order, as `_tenant_id` reads it. -/
def tenantOf (db : Db) (order : Order) : String :=
  (db.lookup (.company order.companyId)).elim "" fun company : Company ↦ strip company.pdpTenantId

theorem tenantId_gives (order : Order) :
    Gives (tenantId order) fun σ tenant σ' ↦ σ' = σ ∧ tenant = tenantOf σ.view order := by
  intro σ
  refine wp_get (.refl σ) fun company hcompany ↦ Prog.wp_guard (.refl σ) fun _ ↦ ?_
  refine ⟨.refl σ, rfl, ?_⟩
  rw [tenantOf, hcompany]
  rfl

theorem lockOrderSnapshot_gives (orderId : Id) :
    Gives (lockOrderSnapshot orderId) fun σ snapshot σ' ↦
      .order orderId ∈ σ'.locks ∧ orderSnapshot σ.view orderId = some snapshot := by
  intro σ
  apply Prog.wp_view
  split
  case h_1 => exact Reads.refl σ
  case h_2 snapshot hsnapshot =>
    apply Prog.wp_lock
    refine ⟨.lock σ _, ?_, hsnapshot⟩
    obtain ⟨_, horder, -⟩ := Option.bind_eq_some_iff.mp hsnapshot
    exact Local.mem_lock_self horder

theorem persistedLines_gives (orderId : Id) :
    Gives (persistedLines orderId) fun σ lines _ ↦ lines = linesOf σ.view orderId := by
  intro σ
  apply Prog.wp_view
  refine (Prog.Keeps.forM (T := Reads) fun _ ↦ (lock_reads _).bind fun _ ↦ .pure _).next (.refl σ) ?_
  intro _ _ h _
  exact ⟨h, rfl⟩

structure IntentOf (σ : Tx) (orderId grantId : Id) (commandId : String) (intent : Intent)
    (order : Order) : Prop where
  visible : σ.view.lookup (.order orderId) = some order
  grant : order.delegationGrantId = some grantId
  tenant : intent.tenantId = tenantOf σ.view order
  state : intent.recordState = order.state
  resource : intent.resourceId = orderId
  grantId : intent.delegationGrantId = grantId
  command : intent.commandId = commandId

theorem buildPurchaseOrderIntent_gives (P : Protocol) (orderId grantId : Id) (commandId : String) :
    Gives (buildPurchaseOrderIntent P orderId grantId commandId) fun σ intent σ' ↦
      .order orderId ∈ σ'.locks ∧ ∃ order, IntentOf σ orderId grantId commandId intent order := by
  intro σ
  refine (lockOrderSnapshot_gives orderId).next (.refl σ) ?_
  rintro ⟨order, _, _, _⟩ _ - h ⟨hlock, hsnapshot⟩
  refine wp_get h fun grant _ ↦ wp_get h fun _ _ ↦ Prog.wp_guard h fun hidentity ↦ ?_
  refine (grantTenantId_reads grant).next h fun _ _ h₂ h ↦ Prog.wp_guard h fun _ ↦ ?_
  refine (persistedLines_gives orderId).next h fun lines σ₃ h₃ h hlines ↦ ?_
  have hlock := h₃.locks _ (h₂.locks _ hlock)
  -- The digest is of the lines in view, under the lock of their order.
  have hemit : Reads σ (σ₃.emit (.digest orderId lines)) :=
    h.trans (.emit σ₃ ⟨by rw [hlines, h₃.view], hlock⟩)
  apply Prog.wp_emit
  refine (expect_reads _).next hemit fun _ _ h₄ h ↦ ?_
  refine (orRaise_reads _ _).next h fun _ _ h₅ h ↦ ?_
  refine (orRaise_reads _ _).next h fun _ _ h₆ h ↦ ?_
  refine (orRaise_reads _ _).next h fun _ _ h₇ h ↦ ?_
  refine ⟨h, (((h₄.trans h₅).trans h₆).trans h₇).locks _ hlock, order, ?_⟩
  simp only [orderSnapshot, bind, Option.bind_eq_some_iff, pure, Option.some.injEq,
    Prod.mk.injEq] at hsnapshot
  obtain ⟨_, horder, _, hcompany, _, -, _, -, rfl, rfl, -, -⟩ := hsnapshot
  simp only [not_or, not_not] at hidentity
  refine ⟨horder, hidentity.1, ?_, rfl, rfl, rfl, rfl⟩
  rw [tenantOf, hcompany]
  rfl

theorem buildProtectedIntent_gives (P : Protocol) (grantId orderId : Id) (commandId : String) :
    Gives (buildProtectedIntent P grantId orderId commandId) fun σ result σ' ↦
      .order orderId ∈ σ'.locks ∧
        (∃ order, IntentOf σ orderId grantId commandId result.1 order) ∧
        result.2.1 = P.signProof result.1 result.2.2.2.1 result.2.2.2.2 := by
  intro σ
  refine wp_get (.refl σ) fun _ _ ↦ Prog.wp_guard (.refl σ) fun _ ↦ ?_
  refine wp_get (.refl σ) fun _ _ ↦ Prog.wp_guard (.refl σ) fun _ ↦ ?_
  refine (buildPurchaseOrderIntent_gives P orderId grantId commandId).next (.refl σ) ?_
  rintro _ _ - h ⟨hlock, hintent⟩
  refine wp_get h fun _ _ ↦ Prog.wp_guard h fun _ ↦ Prog.wp_guard h fun _ ↦ ?_
  refine (orRaise_reads _ _).next h fun _ _ h₂ h ↦ Prog.wp_guard h fun _ ↦ ?_
  exact ⟨h, h₂.locks _ hlock, hintent, rfl⟩

theorem checkAccess_gives (tenant : String) (attributes : List (String × String))
    (request : Request) : Gives (checkAccess tenant attributes request) fun _ verdict σ' ↦
      .decided request verdict ∈ σ'.events := by
  intro σ
  refine (ask_reads _).next (.refl σ) fun token _ _ h ↦ ?_
  refine (ask_reads _).next h fun reply _ _ h ↦ ?_
  refine (expect_reads _).next h fun verdict σ₃ _ h ↦ ?_
  apply Prog.wp_emit
  exact ⟨h.trans (.emit σ₃ trivial), List.mem_append_right _ List.mem_cons_self⟩

theorem lockCurrentAuthority_gives (orderId : Id) (policyRevisions : List (Option String)) :
    Gives (lockCurrentAuthority orderId policyRevisions) fun σ _ σ' ↦ ∃ order,
      σ.view.lookup (.order orderId) = some order ∧
        .policyFence (tenantOf σ.view order) ∈ σ'.locks ∧
        Storage.staleAgainst policyRevisions
          (σ.view.lookup (.policyFence (tenantOf σ.view order))) = false := by
  intro σ
  refine Prog.wp_guard (.refl σ) fun _ ↦ ?_
  apply Prog.wp_lock
  have h₁ := Reads.lock σ .localAuthority
  refine Prog.wp_guard h₁ fun _ ↦ wp_get h₁ fun order horder ↦ ?_
  refine (tenantId_gives _).next h₁ ?_
  rintro _ _ - - ⟨rfl, rfl⟩
  rw [σ.lock_view] at horder ⊢
  apply Prog.wp_lock
  rw [σ.lock_view]
  have h₂ := h₁.trans (Reads.lock (σ.lock .localAuthority) (.policyFence (tenantOf σ.view order)))
  refine Prog.wp_guard h₂ fun hfresh ↦ ?_
  refine ⟨h₂, order, horder, ?_, Bool.eq_false_iff.mpr hfresh⟩
  -- A fence without a row is stale, so there was a row to lock.
  cases hrow : σ.view.lookup (.policyFence (tenantOf σ.view order)) with
  | none => exact absurd (by rw [hrow]; rfl) hfresh
  | some row =>
    have hvisible : (σ.lock .localAuthority).view.lookup
        (.policyFence (tenantOf σ.view order)) = some row := by rw [σ.lock_view, hrow]
    exact Local.mem_lock_self hvisible

theorem lockApprovalContext_gives (key : AttemptKey) :
    Gives (lockApprovalContext key) fun σ _ σ' ↦ ∃ approval,
      σ.view.lookup (.approval key) = some approval ∧ .approval key ∈ σ'.locks ∧
        .order approval.purchaseOrderId ∈ σ'.locks := by
  intro σ
  refine wp_get (.refl σ) fun approval happroval ↦ ?_
  apply Prog.wp_lock
  refine Prog.wp_guard (.lock _ _) fun horder ↦ ?_
  apply Prog.wp_lock
  have h := (Reads.lock σ (.order approval.purchaseOrderId)).trans (.lock _ (.approval key))
  refine Prog.wp_guard h fun _ ↦ ⟨h, approval, happroval, ?_, ?_⟩
  · have hvisible : (σ.lock (.order approval.purchaseOrderId)).view.lookup (.approval key) =
        some approval := by rw [σ.lock_view, happroval]
    exact Local.mem_lock_self hvisible
  · obtain ⟨_, hvisible⟩ := Option.ne_none_iff_exists'.mp (by simpa using horder)
    exact Local.mem_locks_lock (Local.mem_lock_self hvisible)

end Values

section Approvals

variable (P : Protocol)

theorem storedIntent_reads (approval : Approval) : (storedIntent P approval).Keeps Reads :=
  orRaise_reads _ _

theorem validatedPendingIntent_gives (key : AttemptKey) :
    Gives (validatedPendingIntent P key) fun σ _ _ ↦ ∃ approval : Approval,
      σ.view.lookup (.approval key) = some approval ∧ approval.state = .pending := by
  intro σ
  refine wp_get (.refl σ) fun approval happroval ↦ wp_get (.refl σ) fun order _ ↦ ?_
  refine (orRaise_reads _ _).next (.refl σ) fun intent _ _ h ↦ ?_
  refine (orRaise_reads _ _).next h fun encoded _ _ h ↦ Prog.wp_guard h fun hvalid ↦ ?_
  exact ⟨h, approval, happroval, not_not.mp (not_or.mp hvalid).1⟩

theorem selectActivityApprover_reads (key : AttemptKey) :
    (selectActivityApprover P key).Keeps Reads := by
  refine (get_reads _).bind fun _ ↦ (validatedPendingIntent_gives P key).keeps.bind fun _ ↦
    view_reads.bind fun _ ↦ ?_
  split
  · exact .pure _
  · exact .throw _

theorem checkCurrentApprover_reads (uid : Id) (key : AttemptKey) :
    (checkCurrentApprover P uid key).Keeps Reads :=
  (get_reads _).bind fun _ ↦ (get_reads _).bind fun _ ↦
    (validatedPendingIntent_gives P key).keeps.bind fun _ ↦ (get_reads _).bind fun _ ↦
    (get_reads _).bind fun _ ↦ .ite (.throw _) (view_reads.bind fun _ ↦ .ite (.throw _)
      (.ite (.throw _) (.ite (.throw _) ((checkAccess_reads _ _ _).bind fun _ ↦
        .ite (.throw _) (.pure _)))))

theorem storedCapability_reads (approval : Approval) : (storedCapability P approval).Keeps Reads :=
  .ite (.throw _) ((storedIntent_reads P approval).bind fun _ ↦ .ite (.throw _) (.pure _))

theorem verifyCapability_reads (approval : Approval) (subject : String) (approver : User)
    (capability : Capability) : (verifyCapability approval subject approver capability).Keeps Reads :=
  (ask_reads _).bind fun _ ↦ (ask_reads _).bind fun _ ↦ expect_reads _

theorem verifyIdempotentRetry_reads (uid : Id) (key : AttemptKey) :
    (verifyIdempotentRetry P uid key).Keeps Reads :=
  (get_reads _).bind fun _ ↦ (get_reads _).bind fun _ ↦ .ite (.throw _)
    ((storedCapability_reads P _).bind fun _ ↦ verifyCapability_reads _ _ _ _)

theorem validateIssuedBinding_reads (approval : Approval) (capability : Capability)
    (intent : Intent) (uid : Id) (subject : String) :
    (validateIssuedBinding approval capability intent uid subject).Keeps Reads :=
  .ite (.throw _) (.ite (.throw _) (.pure _))

theorem deterministicBindingFailure_reads (key : AttemptKey) :
    (deterministicBindingFailure P key).Keeps Reads := by
  have hintents : ∀ approval, (currentAndStored P approval).Keeps Reads := fun approval ↦
    attemptTo_reads ((buildPurchaseOrderIntent_gives P _ _ _).keeps.bind fun _ ↦
      (storedIntent_reads P approval).bind fun _ ↦ .pure _)
  refine (ask_reads _).bind fun _ ↦ (get_reads _).bind fun approval ↦ .ite (.pure _)
    ((get_reads _).bind fun _ ↦ .ite (.pure _) (.ite (.pure _) (.ite (.pure _)
      ((hintents approval).bind fun _ ↦ ?_))))
  split
  · exact .pure _
  · exact .ite (.pure _) (.pure _)

theorem verifyCurrentApprovalAuthority_reads (key : AttemptKey) :
    (verifyCurrentApprovalAuthority P key).Keeps Reads := by
  refine (get_reads _).bind fun approval ↦ (storedIntent_reads P approval).bind fun _ ↦ ?_
  split
  · exact .pure _
  · exact (get_reads _).bind fun _ ↦ (get_reads _).bind fun _ ↦ (get_reads _).bind fun _ ↦
      view_reads.bind fun _ ↦ .ite (.pure _) ((storedCapability_reads P _).bind fun _ ↦
        (verifyCapability_reads _ _ _ _).bind fun _ ↦ (checkAccess_reads _ _ _).bind fun _ ↦ .pure _)

theorem boundIntent_reads (approval : Approval) : (boundIntent P approval).Keeps Reads :=
  (orRaise_reads _ _).bind fun _ ↦ (orRaise_reads _ _).bind fun _ ↦ .ite (.throw _) (.pure _)

theorem baseRequest_reads (uid orderId : Id) : (baseRequest P uid orderId).Keeps Reads :=
  (get_reads _).bind fun _ ↦ (get_reads _).bind fun _ ↦ (get_reads _).bind fun _ ↦
    (get_reads _).bind fun _ ↦ (get_reads _).bind fun _ ↦ .pure _

end Approvals

end PolicyEngine.Odoo

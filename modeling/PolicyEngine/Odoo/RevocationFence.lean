import PolicyEngine.Odoo.ApprovalLifecycle

namespace PolicyEngine.Odoo

open PolicyEngine.Go PolicyEngine.Txn

section Fences

variable {S : Type} {P : Protocol} {n : ℕ} {entry : Entry Tx.Call Row Effect}
  {W : History S Tx.Call Row Query.Answer Effect Exc Unit} {tenantId grantId : String}

theorem revoked_succ (h : W.Inv (Tx.Call.prog P)) (hinit : Backed W.init)
    (hn : W.log[n]? = some entry)
    (hrevoked : (W.version n).lookup (.fence tenantId grantId) = some true) :
    (W.version (n + 1)).lookup (.fence tenantId grantId) = some true := by
  by_cases hmem : .fence tenantId grantId ∈ entry.done.writes
  · obtain ⟨hbefore, hafter⟩ := lookup_of_written h hn hmem
    rw [hafter]
    exact (lawful_entry h hinit hn).1.fences _ _ (hbefore.symm.trans hrevoked)
  · rw [lookup_of_unwritten hn hmem, hrevoked]

theorem revoked_version (h : W.Inv (Tx.Call.prog P)) (hinit : Backed W.init)
    (hn : W.log[n]? = some entry) (hcall : entry.call = .revokeFence tenantId grantId) {m : ℕ}
    (hlt : n < m) : (W.version m).lookup (.fence tenantId grantId) = some true := by
  have hspec := (lawful_entry h hinit hn).2
  rw [hcall] at hspec
  have hwritten : (W.version (n + 1)).lookup (.fence tenantId grantId) = some true := by
    rw [(lookup_of_written h hn hspec.1).2, hspec.2]
  exact History.version_induction (I := fun db : Db ↦ db.lookup (.fence tenantId grantId) = some true)
    hwritten (fun _ _ hk hrevoked ↦ revoked_succ h hinit hk hrevoked) hlt

theorem unrevoked_of_native (h : W.Inv (Tx.Call.prog P)) (hinit : Backed W.init)
    (hn : W.log[n]? = some entry) {id : Id} {key : AttemptKey}
    (hmem : .native id (some key) ∈ entry.done.events) :
    (W.version n).lookup (.fence key.tenantId (Strconv.formatNat key.delegationGrantId)) ≠
      some true := by
  have hlawful := (lawful_entry h hinit hn).1
  have hchecked := hlawful.checked id key hmem
  -- The fence was locked, so its committed row is still the one of the snapshot.
  rw [(h.commits hn).agree _ hchecked.fence]
  intro hrevoked
  cases (hlawful.fences _ _ hrevoked).symm.trans hchecked.unrevoked

end Fences

structure RevocationRecord where
  tenantId : String
  grantId : String
  revokedBy : String
  revokedAt : ℤ
  expiresAt : ℤ
deriving DecidableEq

/-- The table `delegation_revocations` of the PDP. -/
abbrev Revocations := AList fun _ : String × String ↦ RevocationRecord

/-- The steps of `Storage.PersistRevocation` that may fail. -/
inductive PdpStatement
  | begin
  | persist
  | encode
  | notify
  | commit
deriving DecidableEq

def PdpStatement.wrap : PdpStatement → String → String
  | .begin, message => message
  | .persist, message => "persist delegation revocation: " ++ message
  | .encode, message => "encode delegation revocation: " ++ message
  | .notify, message => "notify delegation revocation: " ++ message
  | .commit, message => "commit delegation revocation: " ++ message

/-- What the upsert stores: repeated revocations never shorten the window. -/
def RevocationRecord.upsert (record : RevocationRecord) :
    Option RevocationRecord → RevocationRecord
  | none => record
  | some stored => { record with
      revokedAt := min stored.revokedAt record.revokedAt
      expiresAt := max stored.expiresAt record.expiresAt }

/-- `Storage.PersistRevocation`, with the step that fails if one does. -/
def Revocations.persistRevocation (table : Revocations) (record : RevocationRecord) :
    Option (PdpStatement × String) → Except String RevocationRecord × Revocations
  | some (statement, message) => (.error (statement.wrap message), table)
  | none =>
    let persisted := record.upsert (table.lookup (record.tenantId, record.grantId))
    (.ok persisted, table.insert (record.tenantId, record.grantId) persisted)

inductive ErpStatement
  | begin
  | exec
  | commit
deriving DecidableEq

def ErpStatement.wrap : ErpStatement → String → String
  | .begin, message => "begin ERP revocation fence: " ++ message
  | .exec, message | .commit, message => "commit ERP revocation fence: " ++ message

/-- Where a call of `ERPRevocationStore.PersistRevocation` stands: in its
transaction on the ERP database, or after the commit of that. -/
inductive Persist
  | fencing (record : RevocationRecord)
  | publishing (record : RevocationRecord)

structure Deployment (S : Type) where
  erp : History S Tx.Call Row Query.Answer Effect Exc Unit
  pdp : Revocations
  calls : S → Option Persist
  replies : List (RevocationRecord × Except String RevocationRecord)

namespace Deployment

/-- A step of a transaction on the ERP database, a call of `PersistRevocation`,
the failure of its transaction, or its step on the PDP's database. A crash in
between is a call that makes no more steps. -/
inductive Action (S : Type)
  | erp (event : Event S Tx.Call Query.Answer)
  | persist (s : S) (record : RevocationRecord)
  | fail (s : S) (statement : ErpStatement) (message : String)
  | publish (s : S) (failure : Option (PdpStatement × String))

variable {S : Type} [DecidableEq S] [Fintype S] (P : Protocol)

def setCall (D : Deployment S) (s : S) (call : Option Persist) : Deployment S :=
  { D with calls := Function.update D.calls s call }

def reply (D : Deployment S) (record : RevocationRecord)
    (result : Except String RevocationRecord) : Deployment S :=
  { D with replies := D.replies ++ [(record, result)] }

def step (D : Deployment S) : Action S → Option (Deployment S)
  | .erp (.begin s call) =>
    if (D.calls s).isSome then none
    else (D.erp.step (Tx.Call.prog P) (.begin s call)).map fun erp ↦ { D with erp := erp }
  | .erp (.perform s answer) =>
    (D.erp.step (Tx.Call.prog P) (.perform s answer)).map fun erp ↦ { D with erp := erp }
  | .erp (.commit s) =>
    (D.erp.step (Tx.Call.prog P) (.commit s)).map fun erp ↦
      match D.calls s with
      | some (.fencing record) => { D with erp := erp }.setCall s (some (.publishing record))
      | _ => { D with erp := erp }
  | .erp (.rollback s) =>
    if (D.calls s).isSome then none
    else (D.erp.step (Tx.Call.prog P) (.rollback s)).map fun erp ↦ { D with erp := erp }
  | .persist s record =>
    if (D.calls s).isSome then none
    else if record.tenantId = "" ∨ record.grantId = "" then
      some (D.reply record (.error "ERP revocation requires tenant and grant"))
    else
      (D.erp.step (Tx.Call.prog P) (.begin s (.revokeFence record.tenantId record.grantId))).map
        fun erp ↦ { D with erp := erp }.setCall s (some (.fencing record))
  | .fail s statement message =>
    match D.calls s with
    | some (.fencing record) =>
      (D.erp.step (Tx.Call.prog P) (.rollback s)).map fun erp ↦
        ({ D with erp := erp }.setCall s none).reply record (.error (statement.wrap message))
    | _ => none
  | .publish s failure =>
    match D.calls s with
    | some (.publishing record) =>
      let (result, pdp) := D.pdp.persistRevocation record failure
      some (({ D with pdp := pdp }.setCall s none).reply record result)
    | _ => none

def idle (db : Db) (pdp : Revocations) : Deployment S := ⟨History.idle db, pdp, fun _ ↦ none, []⟩

/-- Each call under way has its transaction open, or committed. -/
structure Inv (db : Db) (D : Deployment S) : Prop where
  erp : D.erp.Inv (Tx.Call.prog P)
  init : D.erp.init = db
  fencing : ∀ s record, D.calls s = some (.fencing record) → ∃ session,
    D.erp.active s = some session ∧ session.call = .revokeFence record.tenantId record.grantId
  publishing : ∀ s record, D.calls s = some (.publishing record) → ∃ entry ∈ D.erp.log,
    entry.call = .revokeFence record.tenantId record.grantId

variable {P} {db : Db} {D D' : Deployment S}
  {erp : History S Tx.Call Row Query.Answer Effect Exc Unit}

omit [DecidableEq S] [Fintype S] in
theorem inv_idle (db : Db) (pdp : Revocations) : Inv P db (idle db pdp : Deployment S) where
  erp := History.inv_idle db
  init := rfl
  fencing := fun _ _ h ↦ by cases h
  publishing := fun _ _ h ↦ by cases h

theorem Inv.change (h : Inv P db D) {event : Event S Tx.Call Query.Answer}
    (hstep : D.erp.step (Tx.Call.prog P) event = some D'.erp)
    (hcalls : ∀ t, t ≠ event.session → D'.calls t = D.calls t)
    (hfencing : ∀ record, D'.calls event.session = some (.fencing record) → ∃ session,
      D'.erp.active event.session = some session ∧
        session.call = .revokeFence record.tenantId record.grantId)
    (hpublishing : ∀ record, D'.calls event.session = some (.publishing record) →
      ∃ entry ∈ D'.erp.log, entry.call = .revokeFence record.tenantId record.grantId) :
    Inv P db D' := by
  obtain ⟨hinit, hactive, hlog⟩ := History.step_frame hstep
  refine ⟨h.erp.step hstep, hinit.trans h.init, ?_, ?_⟩
  · intro t record ht
    by_cases hts : t = event.session
    · subst hts
      exact hfencing record ht
    · rw [hactive t hts]
      exact h.fencing t record ((hcalls t hts).symm.trans ht)
  · intro t record ht
    by_cases hts : t = event.session
    · subst hts
      exact hpublishing record ht
    · obtain ⟨entry, hmem, hcall⟩ := h.publishing t record ((hcalls t hts).symm.trans ht)
      exact ⟨entry, hlog entry hmem, hcall⟩

theorem Inv.change_idle (h : Inv P db D) {event : Event S Tx.Call Query.Answer}
    (hstep : D.erp.step (Tx.Call.prog P) event = some erp)
    (hidle : D.calls event.session = none) : Inv P db { D with erp := erp } := by
  refine h.change hstep (fun _ _ ↦ rfl) ?_ ?_
  · intro record hcall
    cases hidle.symm.trans hcall
  · intro _ hcall
    cases hidle.symm.trans hcall

theorem Inv.published (h : Inv P db D) {event : Event S Tx.Call Query.Answer}
    (hstep : D.erp.step (Tx.Call.prog P) event = some erp) {s : S} {record : RevocationRecord}
    (hcall : D.calls s = some (.publishing record)) :
    ∃ entry ∈ erp.log, entry.call = .revokeFence record.tenantId record.grantId := by
  obtain ⟨entry, hmem, hrevoke⟩ := h.publishing s record hcall
  exact ⟨entry, (History.step_frame hstep).2.2 entry hmem, hrevoke⟩

theorem Inv.perform (h : Inv P db D) {s : S} {answer : (query : Query) → query.Answer}
    (hstep : D.erp.step (Tx.Call.prog P) (.perform s answer) = some erp) :
    Inv P db { D with erp := erp } := by
  obtain ⟨session, rest, σ, hs, herp⟩ := History.perform_cases hstep
  refine h.change hstep (fun _ _ ↦ rfl) ?_ ?_
  · intro record hcall
    obtain ⟨_, hs', hrevoke⟩ := h.fencing s record hcall
    cases hs.symm.trans hs'
    refine ⟨⟨session.call, session.since, rest, σ⟩, ?_, hrevoke⟩
    rw [herp]
    exact Function.update_self _ _ _
  · intro _ hcall
    exact h.published hstep hcall

theorem Inv.fence (h : Inv P db D) {s : S} {record : RevocationRecord}
    (hstep : D.erp.step (Tx.Call.prog P)
      (.begin s (.revokeFence record.tenantId record.grantId)) = some erp) :
    Inv P db ({ D with erp := erp }.setCall s (some (.fencing record))) := by
  refine h.change hstep (fun _ ht ↦ Function.update_of_ne ht _ _) ?_ ?_
  · intro record' hcall
    cases (Function.update_self _ _ _).symm.trans hcall
    let call := Tx.Call.revokeFence record.tenantId record.grantId
    refine ⟨⟨call, D.erp.log.length, call.prog P, .start D.erp.db⟩, ?_, rfl⟩
    change erp.active s = _
    rw [History.begin_cases hstep]
    exact Function.update_self _ _ _
  · intro _ hcall
    cases (Function.update_self _ _ _).symm.trans hcall

theorem Inv.commit (h : Inv P db D) {s : S} {record : RevocationRecord}
    (hstep : D.erp.step (Tx.Call.prog P) (.commit s) = some erp)
    (hs : D.calls s = some (.fencing record)) :
    Inv P db ({ D with erp := erp }.setCall s (some (.publishing record))) := by
  obtain ⟨session, hsession, herp⟩ := History.commit_cases hstep
  refine h.change hstep (fun _ ht ↦ Function.update_of_ne ht _ _) ?_ ?_
  · intro record' hcall
    cases (Function.update_self _ _ _).symm.trans hcall
  · intro _ hcall
    cases (Function.update_self _ _ _).symm.trans hcall
    obtain ⟨_, hsession', hrevoke⟩ := h.fencing s record hs
    cases hsession.symm.trans hsession'
    refine ⟨⟨session.call, session.since, session.state⟩, ?_, hrevoke⟩
    change _ ∈ erp.log
    rw [herp]
    exact List.mem_append_right _ (List.mem_singleton_self _)

theorem Inv.step {action : Action S} (h : Inv P db D) (hstep : D.step P action = some D') :
    Inv P db D' := by
  cases action with
  | erp event =>
    cases event with
    | begin | rollback =>
      simp only [Deployment.step] at hstep
      split at hstep
      case isTrue => cases hstep
      case isFalse hs =>
        obtain ⟨_, herp, rfl⟩ := Option.map_eq_some_iff.mp hstep
        exact h.change_idle herp (Option.not_isSome_iff_eq_none.mp hs)
    | perform =>
      obtain ⟨_, herp, rfl⟩ := Option.map_eq_some_iff.mp hstep
      exact h.perform herp
    | commit =>
      obtain ⟨_, herp, rfl⟩ := Option.map_eq_some_iff.mp hstep
      split
      case h_1 record hs => exact h.commit herp hs
      case h_2 hs =>
        refine h.change herp (fun _ _ ↦ rfl) (fun record hcall ↦ absurd hcall (hs record)) ?_
        intro _ hcall
        exact h.published herp hcall
  | persist =>
    simp only [Deployment.step] at hstep
    split at hstep
    case isTrue => cases hstep
    case isFalse =>
      split at hstep
      case isTrue =>
        cases hstep
        exact ⟨h.erp, h.init, h.fencing, h.publishing⟩
      case isFalse =>
        obtain ⟨_, herp, rfl⟩ := Option.map_eq_some_iff.mp hstep
        exact h.fence herp
  | fail =>
    simp only [Deployment.step] at hstep
    split at hstep
    case h_1 record hs =>
      obtain ⟨_, herp, rfl⟩ := Option.map_eq_some_iff.mp hstep
      refine h.change herp (fun _ ht ↦ Function.update_of_ne ht _ _) ?_ ?_
      · intro record' hcall
        cases (Function.update_self _ _ _).symm.trans hcall
      · intro _ hcall
        cases (Function.update_self _ _ _).symm.trans hcall
    case h_2 => cases hstep
  | publish s =>
    simp only [Deployment.step] at hstep
    split at hstep
    case h_1 record hs =>
      cases hstep
      -- Only the session's own call has ended.
      have hcalls : ∀ {t : S} {call : Persist},
          Function.update D.calls s none t = some call → D.calls t = some call :=
        fun hcall ↦ (Trace.eq_or_of_update hcall).resolve_left nofun
      exact ⟨h.erp, h.init, fun t record hcall ↦ h.fencing t record (hcalls hcall),
        fun t record hcall ↦ h.publishing t record (hcalls hcall)⟩
    case h_2 => cases hstep

theorem inv_of_run {pdp : Revocations} {actions : List (Action S)}
    (hrun : Trace.run (Deployment.step P) (idle db pdp) actions = some D) : Inv P db D :=
  Trace.run_preserves (fun _ _ _ h hstep ↦ h.step hstep) (inv_idle db pdp) hrun

end Deployment

/-- In every interleaving of transactions on the ERP database with calls of
`PersistRevocation`: once the ERP step of a revocation has committed its
tombstone stays in every later version, no transaction with a native effect for
the tenant and grant commits any more, and a failure of the PDP step is an error
to the caller that leaves the tombstone where it is. -/
theorem revocation_precedes_execution {S : Type} [DecidableEq S] [Fintype S] (P : Protocol)
    {db : Db} (hdb : Backed db) {pdp : Revocations} {actions : List (Deployment.Action S)}
    {D : Deployment S}
    (hrun : Trace.run (Deployment.step P) (Deployment.idle db pdp) actions = some D) :
    (∀ (n : ℕ) entry tenantId grantId, D.erp.log[n]? = some entry →
      entry.call = .revokeFence tenantId grantId →
      (∀ m, n < m → (D.erp.version m).lookup (.fence tenantId grantId) = some true) ∧
      ∀ (m : ℕ) later id key, n < m → D.erp.log[m]? = some later →
        .native id (some key) ∈ later.done.events →
        ¬ (key.tenantId = tenantId ∧ Strconv.formatNat key.delegationGrantId = grantId)) ∧
    ∀ s record statement message, D.calls s = some (.publishing record) → ∃ D',
      D.step P (.publish s (some (statement, message))) = some D' ∧
      D'.replies = D.replies ++ [(record, .error (statement.wrap message))] ∧
      D'.erp = D.erp ∧
      D'.erp.db.lookup (.fence record.tenantId record.grantId) = some true := by
  have hinv := Deployment.inv_of_run hrun
  have h := hinv.erp
  have hinit : Backed D.erp.init := hinv.init.symm ▸ hdb
  refine ⟨?_, ?_⟩
  · intro n entry _ _ hn hcall
    refine ⟨fun m hlt ↦ revoked_version h hinit hn hcall hlt, ?_⟩
    rintro _ _ _ _ hlt hm hmem ⟨rfl, rfl⟩
    exact unrevoked_of_native h hinit hm hmem (revoked_version h hinit hn hcall hlt)
  · intro s record statement message hs
    obtain ⟨_, hmem, hcall⟩ := hinv.publishing s record hs
    obtain ⟨_, hn⟩ := List.getElem?_of_mem hmem
    have hlt := (List.getElem?_eq_some_iff.mp hn).1
    have hrevoked := revoked_version h hinit hn hcall hlt
    rw [History.version, List.take_length] at hrevoked
    refine ⟨(D.setCall s none).reply record (.error (statement.wrap message)), ?_, rfl, rfl,
      hrevoked⟩
    simp only [Deployment.step, hs]
    rfl

def sampleRevocation : RevocationRecord := ⟨"t1", "3", "user:delegator", 9, 100⟩

/-- A confirmation that has begun before a call of `PersistRevocation` commits on the ERP
database, and goes on after it up to its own statement on the fence. -/
def fenced : List (Deployment.Action Bool) :=
  [.erp (.begin true (.buttonConfirm 8 [7])), .persist false sampleRevocation,
    .erp (.perform false sampleAnswers), .erp (.commit false)] ++
      List.replicate 31 (.erp (.perform true sampleAnswers))

theorem revocation_precedes_execution_fenced : ∃ D D' : Deployment Bool,
    Trace.run (Deployment.step sampleProtocol) (Deployment.idle (sampleDb .draft) ∅) fenced =
      some D ∧
    D.step sampleProtocol (.erp (.perform true sampleAnswers)) = none ∧
    D.step sampleProtocol (.erp (.commit true)) = none ∧
    D.step sampleProtocol (.publish false (some (.notify, "connection closed"))) = some D' ∧
    D'.replies =
      [(sampleRevocation, .error "notify delegation revocation: connection closed")] ∧
    D'.erp.db.lookup (.fence "t1" "3") = some true := by
  have hsome : ((Trace.run (Deployment.step sampleProtocol)
      (Deployment.idle (sampleDb .draft) ∅) fenced).map fun D ↦ (D.replies, D.calls false,
        (D.step sampleProtocol (.erp (.perform true sampleAnswers))).isNone,
        (D.step sampleProtocol (.erp (.commit true))).isNone)) =
      some ([], some (.publishing sampleRevocation), true, true) := rfl
  obtain ⟨D, hrun, hstate⟩ := Option.map_eq_some_iff.mp hsome
  simp only [Prod.mk.injEq, Option.isNone_iff_eq_none] at hstate
  obtain ⟨hempty, hcall, hperform, hcommit⟩ := hstate
  obtain ⟨D', hstep, hreplies, -, hfence⟩ :=
    (revocation_precedes_execution sampleProtocol (backed_sampleDb .draft) hrun).2 false
      sampleRevocation .notify "connection closed" hcall
  rw [hempty] at hreplies
  exact ⟨D, D', hrun, hperform, hcommit, hstep, hreplies, hfence⟩

end PolicyEngine.Odoo

import Mathlib.Data.Fintype.Basic
import PolicyEngine.Odoo.Versions

namespace PolicyEngine.Odoo

open PolicyEngine.Txn

section Runs

variable {S : Type} {P : Protocol} {W : History S Tx.Call Row Query.Answer Effect Exc Unit}
  {key : AttemptKey} {n : ℕ}

theorem step_or_same (h : W.Inv (Tx.Call.prog P)) (hinit : Backed W.init) (key : AttemptKey)
    (n : ℕ) : ∃ m, Life.Step (life (W.version n) key) (life (W.version (n + 1)) key) m := by
  cases hn : W.log[n]? with
  | some => exact ⟨_, step_version h hinit hn key⟩
  | none =>
    rw [History.version_of_length_le (List.getElem?_eq_none_iff.mp hn)]
    exact ⟨0, .stay _⟩

theorem terminal_version (h : W.Inv (Tx.Call.prog P)) (hinit : Backed W.init)
    {state : ApprovalState} (hterminal : state.isTerminal = true) {m : ℕ} (hle : n ≤ m)
    (hstate : (life (W.version n) key).approval = some state) :
    (life (W.version m) key).approval = some state := by
  refine History.version_induction (I := fun db : Db ↦ (life db key).approval = some state)
    hstate ?_ hle
  intro _ _ hk ih
  exact (step_version h hinit hk key).terminal ih hterminal

theorem natives_take (h : W.Inv (Tx.Call.prog P)) (hinit : Backed W.init) (key : AttemptKey)
    (n : ℕ) : (life W.init key).executed +
      natives key ((W.log.take n).flatMap fun entry ↦ entry.done.events) =
        (life (W.version n) key).executed := by
  induction n with
  | zero => rfl
  | succ n ih =>
    cases hn : W.log[n]? with
    | some =>
      have hstep := (step_version h hinit hn key).executed_add
      rw [List.take_add_one, hn, Option.toList_some, List.flatMap_append, natives,
        List.countP_append, List.flatMap_singleton]
      rw [natives] at ih hstep
      omega
    | none =>
      have hlen := List.getElem?_eq_none_iff.mp hn
      rw [History.version_of_length_le hlen, ← ih, List.take_of_length_le hlen,
        List.take_of_length_le (Nat.le_succ_of_le hlen)]

/-- The transaction that commits version `n + 1` consumes the approval. -/
def Consumes (W : History S Tx.Call Row Query.Answer Effect Exc Unit) (key : AttemptKey)
    (n : ℕ) : Prop :=
  (life (W.version n) key).approval ≠ some .consumed ∧
    (life (W.version (n + 1)) key).approval = some .consumed

def Executes (W : History S Tx.Call Row Query.Answer Effect Exc Unit) (key : AttemptKey)
    (n : ℕ) : Prop :=
  (life (W.version n) key).attempt ≠ some .executed ∧
    (life (W.version (n + 1)) key).attempt = some .executed

def Finalizes (W : History S Tx.Call Row Query.Answer Effect Exc Unit) (orderId : Id)
    (n : ℕ) : Prop := ∃ order order' : Order,
  (W.version n).lookup (.order orderId) = some order ∧ order.state.isFinal = false ∧
    (W.version (n + 1)).lookup (.order orderId) = some order' ∧ order'.state.isFinal = true

theorem Consumes.executes (h : W.Inv (Tx.Call.prog P)) (hinit : Backed W.init)
    (hconsumes : Consumes W key n) : Executes W key n := by
  obtain ⟨_, hstep⟩ := step_or_same h hinit key n
  obtain ⟨hbefore, hafter⟩ := hstep.consumed hconsumes.1 hconsumes.2
  rw [Executes, hbefore, hafter]
  exact ⟨by simp, rfl⟩

theorem Consumes.finalizes (h : W.Inv (Tx.Call.prog P)) (hinit : Backed W.init)
    (hconsumes : Consumes W key n) : ∃ approval : Approval,
      (W.version (n + 1)).lookup (.approval key) = some approval ∧
        Finalizes W approval.purchaseOrderId n := by
  cases hn : W.log[n]? with
  | none =>
    have hsame := hconsumes.2
    rw [History.version_of_length_le (List.getElem?_eq_none_iff.mp hn)] at hsame
    exact absurd hsame hconsumes.1
  | some entry =>
    obtain ⟨approval, hrow, hstate⟩ := Option.map_eq_some_iff.mp hconsumes.2
    have hwritten : .approval key ∈ entry.done.writes := by
      by_contra hmem
      rw [lookup_of_unwritten hn hmem] at hrow
      exact hconsumes.1 ((approval_life hrow).trans (congrArg some hstate))
    obtain ⟨hbefore, hafter⟩ := lookup_of_written h hn hwritten
    have hsnap : (life entry.done.snap key).approval ≠ some .consumed := by
      rw [life, ← hbefore]
      exact hconsumes.1
    obtain ⟨order, order', horder, htoApprove, horder', hfinal, -⟩ :=
      (lawful_entry h hinit hn).1.consumed key approval (hafter.symm.trans hrow) hstate hsnap
    -- The order's state has changed, so its row was written too.
    have hwritten' : .order approval.purchaseOrderId ∈ entry.done.writes := by
      by_contra hmem
      have hsame := (h.commits hn).frame _ hmem
      rw [horder, horder'] at hsame
      cases hsame
      rw [htoApprove] at hfinal
      cases hfinal
    obtain ⟨hbefore', hafter'⟩ := lookup_of_written h hn hwritten'
    exact ⟨approval, hrow, order, order', hbefore'.trans horder, by rw [htoApprove]; rfl,
      hafter'.trans horder', hfinal⟩

theorem Executes.consumes (h : W.Inv (Tx.Call.prog P)) (hinit : Backed W.init)
    (hexecutes : Executes W key n)
    (happroval : ((W.version (n + 1)).lookup (.approval key)).isSome = true) :
    Consumes W key n := by
  obtain ⟨_, hstep⟩ := step_or_same h hinit key n
  have hsome : (life (W.version (n + 1)) key).approval ≠ none := by
    rw [life, Ne, Option.map_eq_none_iff]
    exact Option.isSome_iff_ne_none.mp happroval
  obtain ⟨hbefore, hafter⟩ := hstep.consumes hexecutes.1 hexecutes.2 hsome
  exact ⟨by rw [hbefore]; simp, hafter⟩

theorem Consumes.unique (h : W.Inv (Tx.Call.prog P)) (hinit : Backed W.init) {i j : ℕ}
    (hi : Consumes W key i) (hj : Consumes W key j) : i = j := by
  have hstays : ∀ {a b : ℕ}, Consumes W key a → Consumes W key b → ¬ a < b := by
    intro _ _ ha hb hlt
    exact hb.1 (terminal_version h hinit rfl hlt ha.2)
  have hij := hstays hi hj
  have hji := hstays hj hi
  omega

end Runs

/-- In every interleaving of transactions, from a database with its foreign key,
terminal approvals keep their state, an approval is consumed at most once, it is
consumed together with its order becoming final and its attempt executed, an
attempt with an approval is executed only so, and the native effect of a command
is committed at most once. -/
theorem approval_lifecycle {S : Type} [DecidableEq S] [Fintype S] (P : Protocol) {db : Db}
    (hdb : Backed db) {schedule : List (Event S Tx.Call Query.Answer)}
    {W : History S Tx.Call Row Query.Answer Effect Exc Unit}
    (hrun : Trace.run (History.step (Tx.Call.prog P)) (History.idle db) schedule = some W)
    (key : AttemptKey) :
    (∀ n m state, n ≤ m → state.isTerminal = true →
      (life (W.version n) key).approval = some state →
      (life (W.version m) key).approval = some state) ∧
    (∀ i j, Consumes W key i → Consumes W key j → i = j) ∧
    (∀ n, Consumes W key n → Executes W key n ∧ ∃ approval : Approval,
      (W.version (n + 1)).lookup (.approval key) = some approval ∧
        Finalizes W approval.purchaseOrderId n) ∧
    (∀ n, Executes W key n → ((W.version (n + 1)).lookup (.approval key)).isSome = true →
      Consumes W key n) ∧
    natives key (W.log.flatMap fun entry ↦ entry.done.events) ≤ 1 := by
  have h := History.inv_of_run hrun
  have hinit : Backed W.init := (History.init_of_run hrun).symm ▸ hdb
  refine ⟨?_, ?_, ?_, ?_, ?_⟩
  · intro n _ _ hle hterminal hstate
    exact terminal_version h hinit hterminal hle hstate
  · intro _ _ hi hj
    exact hi.unique h hinit hj
  · intro n hconsumes
    exact ⟨hconsumes.executes h hinit, hconsumes.finalizes h hinit⟩
  · intro _ hexecutes happroval
    exact hexecutes.consumes h hinit happroval
  · have hcount := natives_take h hinit key W.log.length
    have hle : (life (W.version W.log.length) key).executed ≤ 1 := by
      rw [Life.executed]
      split <;> omega
    rw [List.take_length] at hcount
    omega

section Sample

def sampleIntent : Intent where
  tenantId := "t1"
  companyId := 1
  resourceId := 7
  vendorId := 4
  currencyCode := "USD"
  currencyScale := 2
  amountMinor := 1
  lineDigest := "digest"
  recordState := .toApprove
  recordWriteVersion := "1"
  creatorSubject := "user:creator"
  delegationGrantId := 3
  delegatorSubject := "user:delegator"
  agentSubject := "agent:a"
  commandId := "nonce"
  stateWitness := "witness"

def sampleProtocol : Protocol where
  amountToMinorUnits := fun _ _ ↦ some 1
  minorUnitsToDecimal := fun _ _ ↦ "1"
  ceil := id
  canonicalDecimal := .ok
  utcTimestamp := fun _ ↦ "1"
  lineDigest := fun _ ↦ some "digest"
  stateWitness := fun _ ↦ some "witness"
  canonicalIntent := fun _ ↦ some "canonical"
  intentHash := fun _ ↦ "hash"
  intentContext := fun _ ↦ []
  dumps := fun _ ↦ "json"
  loads := fun _ ↦ some sampleIntent
  signProof := fun _ _ _ ↦ "proof"
  base64url := id
  decodeBase64url := id
  fingerprint := id
  databaseName := "erp"

def sampleOrder (state : OrderState) : Order where
  companyId := 1
  partnerId := 4
  currencyId := 2
  amountTotal := "1"
  pdpDepartment := "Procurement"
  createUid := 5
  writeDate := 1
  state := state
  pdpStatus := .pending
  aiAgentId := "agent:a"
  delegatedById := some 6
  delegationGrantId := some 3
  pdpDelegationNonce := "nonce"
  pdpDelegatedScope := true

def sampleKey : AttemptKey := ⟨"t1", 3, "nonce"⟩

def sampleUser (login : String) (manager : Bool) : User :=
  ⟨login, 1, [1], true, false, "Procurement", manager, false⟩

def sampleDb (state : OrderState) : Db :=
  [⟨.order 7, sampleOrder state⟩,
    ⟨.company 1, (⟨"t1", "Local"⟩ : Company)⟩,
    ⟨.currency 2, (⟨"USD", 2, true⟩ : Currency)⟩,
    ⟨.user 5, sampleUser "creator" false⟩,
    ⟨.user 6, sampleUser "delegator" false⟩,
    ⟨.user 8, sampleUser "approver" true⟩,
    ⟨.grant 3, (⟨6, "agent:a", 2, "1", 0, 100, .active⟩ : Grant)⟩,
    ⟨.policyFence "t1", (⟨1, true, none⟩ : Storage.FenceRow String)⟩,
    ⟨.localAuthority, (1 : ℕ)⟩].toAList

def sampleAnswers : (query : Query) → query.Answer
  | .now => (9 : ℕ)
  | .secret => ⟨"token", by decide⟩
  | .newId => (30 : ℕ)
  | .issueJwt _ _ _ => "jwt"
  | .checkAccess _ _ _ => .ok ⟨.allow, [], some "1", none⟩
  | .issueApprovalCapability _ _ _ _ _ => .error .missing
  | .verifyApprovalCapability _ _ _ => .ok ()
  | .buttonConfirm _ => some .purchase
  | .buttonApprove _ => some .purchase
  | .activitySchedule _ _ _ => (40 : ℕ)

def sampleAttempt : Attempt :=
  ⟨"hash", "purchase.order", 7, 100, .approvalRequired, some .deny, some .toApprove, some 1⟩

def sampleApproval : Approval where
  approvalId := "approval"
  tenantId := "t1"
  companyId := 1
  purchaseOrderId := 7
  delegationGrantId := 3
  commandId := "nonce"
  intentJson := "json"
  canonicalIntentB64 := "canonical"
  intentHash := "hash"
  stateWitness := "witness"
  state := .approved
  requestedApproverUserId := some 8
  activityId := some 40
  approverUserId := some 8
  approverSubject := "user:approver"
  requiredPermission := "permission"
  issuancePolicyRevision := 1
  issuedAt := 1
  expiresAt := some 50
  oneTimeId := "once"
  capabilityVersion := "ac.v1"
  capabilityPurpose := "purpose"
  capabilityAlgorithm := "HS256"
  capabilityKeyId := "key"
  capabilityPayloadB64 := "payload"
  capabilitySignatureB64 := "signature"
  capabilityFingerprint := "fingerprint"
  terminalReason := ""
  terminalAt := none

def approvedDb : Db :=
  ((sampleDb .toApprove).insert (.attempt sampleKey) sampleAttempt).insert (.approval sampleKey)
    sampleApproval

def alone (call : Tx.Call) (operations : ℕ) : List (Event Unit Tx.Call Query.Answer) :=
  .begin () call :: (List.replicate operations (.perform () sampleAnswers) ++ [.commit ()])

def sampleRun (db : Db) (schedule : List (Event Unit Tx.Call Query.Answer)) :
    Option (History Unit Tx.Call Row Query.Answer Effect Exc Unit) :=
  Trace.run (History.step (Tx.Call.prog sampleProtocol)) (History.idle db) schedule

theorem backed_sampleDb (state : OrderState) : Backed (sampleDb state) := fun _ _ ↦ rfl

theorem backed_approvedDb : Backed approvedDb := by
  intro key hnone
  by_cases hkey : key = sampleKey
  · subst hkey
    cases hnone
  · have hrow : approvedDb.lookup (.approval key) = none := by
      rw [approvedDb, AList.lookup_insert_ne (by simpa using hkey),
        AList.lookup_insert_ne (by simp)]
      rfl
    rw [life, hrow, Option.map_none]

theorem approvedDb_confirms :
    (sampleRun approvedDb (alone (.buttonConfirm 8 [7]) 89)).map
      (fun W ↦ ((life (W.version 0) sampleKey).approval, (life (W.version 1) sampleKey).approval,
        natives sampleKey (W.log.flatMap fun entry ↦ entry.done.events))) =
      some (some .approved, some .consumed, 1) := by
  rfl

end Sample

theorem approval_lifecycle_approvedDb : ∃ W,
    sampleRun approvedDb (alone (.buttonConfirm 8 [7]) 89) = some W ∧ Consumes W sampleKey 0 ∧
      Executes W sampleKey 0 ∧
      natives sampleKey (W.log.flatMap fun entry ↦ entry.done.events) = 1 := by
  obtain ⟨W, hrun, hlife⟩ := Option.map_eq_some_iff.mp approvedDb_confirms
  simp only [Prod.mk.injEq] at hlife
  obtain ⟨hbefore, hafter, hnatives⟩ := hlife
  have hconsumes : Consumes W sampleKey 0 := ⟨by rw [hbefore]; simp, hafter⟩
  obtain ⟨-, -, hexecutes, -, -⟩ :=
    approval_lifecycle sampleProtocol backed_approvedDb hrun sampleKey
  exact ⟨W, hrun, hconsumes, (hexecutes 0 hconsumes).1, hnatives⟩

end PolicyEngine.Odoo

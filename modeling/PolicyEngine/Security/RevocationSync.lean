import PolicyEngine.Security.RevocationMap

namespace PolicyEngine.Security

open PolicyEngine.Go PolicyEngine.Go.SyncMap PolicyEngine.Trace
open DelegationManager (zeroTime)

deriving instance DecidableEq for RevocationRecord

namespace RevocationRecord

def stored (r : RevocationRecord) : RevocationRecord :=
  { r with revokedAt := r.revokedAt / 1000 * 1000, expiresAt := r.expiresAt / 1000 * 1000 }

/-- The record `RevokeDelegation` persists. -/
def ofRequest (now : ℤ) (tenantId grantId subject : String) : RevocationRecord where
  tenantId := tenantId
  grantId := grantId
  revokedBy := subject
  revokedAt := now
  expiresAt := now + maxDelegationTTL

def upsert (record : RevocationRecord) : Option RevocationRecord → RevocationRecord
  | none => record
  | some row => { record with
      revokedAt := min row.revokedAt record.revokedAt
      expiresAt := max row.expiresAt record.expiresAt }

/-- The other record keeps the grant revoked for at least as long. -/
def OutlivedBy (r r' : RevocationRecord) : Prop := r'.key = r.key ∧ r.expiresAt ≤ r'.expiresAt

/-- A row that `ApplyRevocation` accepts until it expires. -/
structure Applicable (r : RevocationRecord) : Prop where
  tenantId : r.tenantId ≠ ""
  grantId : r.grantId ≠ ""
  revokedAt : zeroTime < r.revokedAt
  expiresAt : NanosecondRange r.expiresAt

end RevocationRecord

namespace RevocationRecord

variable {now : ℤ} {tenantId grantId subject : String} {row : Option RevocationRecord}

theorem key_upsert : ((ofRequest now tenantId grantId subject).stored.upsert row).key =
    (ofRequest now tenantId grantId subject).key := by
  cases row <;> rfl

theorem le_expiresAt_upsert {record row : RevocationRecord} {found : Option RevocationRecord}
    (h : found = some row) : row.expiresAt ≤ (record.upsert found).expiresAt := by
  subst h
  exact le_max_left _ _

theorem applicable_upsert (htenant : tenantId ≠ "") (hgrant : grantId ≠ "")
    (hnow : NanosecondRange now) (hexpires : NanosecondRange (now + maxDelegationTTL))
    (hrow : ∀ r, row = some r → r.Applicable) :
    ((ofRequest now tenantId grantId subject).stored.upsert row).Applicable := by
  obtain ⟨_, _⟩ := hnow
  obtain ⟨_, _⟩ := hexpires
  have hrevoked : zeroTime < now / 1000 * 1000 := by
    simp only [zeroTime, Time.second]
    omega
  have hrange : NanosecondRange ((now + maxDelegationTTL) / 1000 * 1000) := by
    simp only [maxDelegationTTL, Time.second] at *
    constructor <;> omega
  cases row with
  | none => exact ⟨htenant, hgrant, hrevoked, hrange⟩
  | some row =>
    obtain ⟨-, -, hrow, hrowRange⟩ := hrow row rfl
    refine ⟨htenant, hgrant, lt_min hrow hrevoked, ?_⟩
    exact ⟨hrange.1.trans (le_max_right _ _), max_lt hrowRange.2 hrange.2⟩

end RevocationRecord

/-- The table `delegation_revocations`, by its primary key. -/
abbrev RevocationTable := AList fun _ : String × String ↦ RevocationRecord

def RevocationTable.active (table : RevocationTable) (now : ℤ) : List RevocationRecord :=
  (table.entries.map (·.2)).filter fun row ↦ now < row.expiresAt

/-- The watcher's connection. A failed one keeps, for the statements only, the
notifications it had not delivered and those of later commits. -/
inductive Connection
  | closed
  | live (queue : List RevocationRecord)
  | failed (undelivered missed : List RevocationRecord)

namespace Connection

def notify (record : RevocationRecord) : Connection → Connection
  | .closed => .closed
  | .live queue => .live (queue ++ [record])
  | .failed undelivered missed => .failed undelivered (missed ++ [record])

def fail : Connection → Connection
  | .live queue => .failed queue []
  | c => c

/-- The next notification in the order of the commits. What had arrived before a
failure can still be read after it. -/
def receive : Connection → Option (RevocationRecord × Connection)
  | .live (record :: queue) => some (record, .live queue)
  | .failed (record :: undelivered) missed => some (record, .failed undelivered missed)
  | _ => none

def outstanding : Connection → List RevocationRecord
  | .closed => []
  | .live queue => queue
  | .failed undelivered missed => undelivered ++ missed

def opened : Connection → Bool
  | .closed => false
  | _ => true

variable {c c' : Connection} {record r : RevocationRecord}

theorem mem_outstanding_notify (h : r ∈ (c.notify record).outstanding) :
    r = record ∨ r ∈ c.outstanding := by
  cases c with
  | closed => cases h
  | live =>
    rcases List.mem_append.mp h with h | h
    · exact .inr h
    · exact .inl (List.mem_singleton.mp h)
  | failed =>
    simp only [notify, outstanding, List.mem_append, List.mem_singleton] at h ⊢
    tauto

theorem outstanding_subset_notify : c.outstanding ⊆ (c.notify record).outstanding := by
  intro _ h
  cases c with
  | closed => cases h
  | live => exact List.mem_append_left _ h
  | failed =>
    simp only [notify, outstanding, List.mem_append] at h ⊢
    tauto

theorem mem_notify_of_opened (h : c.opened = true) : record ∈ (c.notify record).outstanding := by
  cases c with
  | closed => cases h
  | live => simp [notify, outstanding]
  | failed => simp [notify, outstanding]

theorem opened_notify : (c.notify record).opened = c.opened := by cases c <;> rfl

theorem opened_fail : c.fail.opened = c.opened := by cases c <;> rfl

theorem outstanding_fail : c.fail.outstanding = c.outstanding := by
  cases c <;> simp [fail, outstanding]

theorem outstanding_of_receive (h : c.receive = some (record, c')) :
    c.outstanding = record :: c'.outstanding ∧ c'.opened = true := by
  unfold receive at h
  split at h <;> cases h <;> exact ⟨rfl, rfl⟩

end Connection

/-- Where `run` and the `WatchRevocations` it calls are. -/
inductive Watcher (κ : Type)
  | created
  | connecting
  | listening
  | installing (rows : List RevocationRecord)
  | installingRow (call : κ) (record : RevocationRecord) (rows : List RevocationRecord)
  | waiting
  | received (record : RevocationRecord)
  | applying (call : κ) (record : RevocationRecord)
  | returned
  | backoff
  | stopped

namespace Watcher

variable {κ : Type}

@[simp]
def pending : Watcher κ → List RevocationRecord
  | .installing rows => rows
  | .installingRow _ record rows => record :: rows
  | _ => []

@[simp]
def handling : Watcher κ → List RevocationRecord
  | .received record | .applying _ record => [record]
  | _ => []

@[simp]
def calling : Watcher κ → Option (κ × RevocationRecord)
  | .installingRow k record _ | .applying k record => some (k, record)
  | _ => none

end Watcher

/-- A process that follows the table. `committed` lists the rows as the
transactions of all nodes left them. -/
structure RevocationSyncer (κ : Type) where
  shared : SharedRevocations κ
  table : RevocationTable
  committed : List RevocationRecord
  connection : Connection
  watcher : Watcher κ
  revocationReady : Bool
  initialized : Bool
  ctxDone : Bool

inductive SyncEvent (κ : Type)
  | map (e : MapEvent κ)
  | commit (now : ℤ) (tenantId grantId subject : String)
  | cancel
  | connectionError
  | start
  | listen
  | query (now : ℤ) (rows : List RevocationRecord)
  | watch (call : κ)
  | receive
  | interrupted
  | giveUp
  | timer

namespace RevocationSyncer

variable {κ : Type}

def fresh (clock : ℤ) (table : RevocationTable) : RevocationSyncer κ :=
  ⟨.fresh clock, table, table.entries.map (·.2), .closed, .created, true, false, false⟩

/-- The manager that answers `IsRevoked`; its keys play no part. -/
def manager (w : RevocationSyncer κ) : DelegationManager :=
  { newDelegationManagerWithSecret "" with
    revocationMap := w.shared.revocationMap
    revocationReady := w.revocationReady }

/-- `PersistRevocation`: the notification is sent with the commit. -/
def persistRevocation (w : RevocationSyncer κ) (record : RevocationRecord) : RevocationSyncer κ :=
  let persisted := record.stored.upsert (w.table.lookup record.key)
  { w with
    table := w.table.insert record.key persisted
    committed := persisted :: w.committed
    connection := w.connection.notify persisted }

def call [DecidableEq κ] (w : RevocationSyncer κ) (k : κ) (record : RevocationRecord)
    (watcher : Watcher κ) : Option (RevocationSyncer κ) :=
  (w.shared.step (.applyRevocation k record)).map fun shared ↦
    { w with shared := shared, watcher := watcher }

def resume (w : RevocationSyncer κ) (k : κ) (watcher : Watcher κ) : Option (RevocationSyncer κ) :=
  match w.shared.calls k with
  | .applied _ _ => some { w with watcher := watcher }
  | _ => none

def step [DecidableEq κ] (w : RevocationSyncer κ) : SyncEvent κ → Option (RevocationSyncer κ)
  | .map e => (w.shared.step e).map fun shared ↦ { w with shared := shared }
  | .commit now tenantId grantId subject =>
    if now ≤ w.shared.clock ∧ tenantId ≠ "" ∧ grantId ≠ "" then
      some (w.persistRevocation (.ofRequest now tenantId grantId subject))
    else none
  | .cancel => some { w with ctxDone := true }
  | .connectionError => some { w with connection := w.connection.fail }
  | .start =>
    match w.watcher with
    | .created => some { w with watcher := .connecting, revocationReady := false }
    | _ => none
  | .listen =>
    match w.watcher with
    | .connecting => some { w with watcher := .listening, connection := .live [] }
    | _ => none
  -- `CURRENT_TIMESTAMP` is when the statement's transaction began.
  | .query now rows =>
    match w.watcher, w.connection with
    | .listening, .live _ =>
      if now ≤ w.shared.clock ∧ rows.Perm (w.table.active now) then
        some { w with watcher := .installing rows }
      else none
    | _, _ => none
  | .watch k =>
    match w.watcher with
    | .installing (record :: rows) => w.call k record (.installingRow k record rows)
    | .installingRow k _ rows => w.resume k (.installing rows)
    | .installing [] =>
      some { w with watcher := .waiting, revocationReady := true, initialized := true }
    | .received record => w.call k record (.applying k record)
    | .applying k _ => w.resume k .waiting
    | _ => none
  | .receive =>
    match w.watcher, w.connection.receive with
    | .waiting, some (record, connection) =>
      some { w with watcher := .received record, connection := connection }
    | _, _ => none
  -- A wait fails with the connection, or closes it when the context is done.
  | .interrupted =>
    match w.watcher, w.connection with
    | .connecting, _ | .listening, _ => some { w with watcher := .returned }
    | .waiting, .failed _ _ => some { w with watcher := .returned }
    | .waiting, .live queue =>
      if w.ctxDone then some { w with watcher := .returned, connection := .failed queue [] }
      else none
    | _, _ => none
  | .giveUp =>
    match w.watcher with
    | .returned =>
      if w.ctxDone then
        some { w with watcher := .stopped, connection := .closed, revocationReady := false }
      else if w.initialized = false then
        some { w with watcher := .stopped, connection := .closed }
      else some { w with watcher := .backoff, connection := .closed, revocationReady := false }
    | .backoff => if w.ctxDone then some { w with watcher := .stopped } else none
    | _ => none
  | .timer =>
    match w.watcher with
    | .backoff => some { w with watcher := .connecting, revocationReady := false }
    | _ => none

def Reported (w : RevocationSyncer κ) (r : RevocationRecord) : Prop :=
  (w.manager.isRevoked w.shared.clock r.tenantId r.grantId).1 = true

def Settled (w : RevocationSyncer κ) (r : RevocationRecord) : Prop :=
  r.expiresAt ≤ w.shared.clock ∨ ∃ r' ∈ w.shared.completed, r'.Applicable ∧ r.OutlivedBy r'

def Tracked (w : RevocationSyncer κ) (r : RevocationRecord) : Prop :=
  w.Settled r ∨ (∃ r' ∈ w.watcher.pending ++ w.watcher.handling, r.OutlivedBy r') ∨
    r ∈ w.connection.outstanding

def Following (w : RevocationSyncer κ) : Prop :=
  match w.watcher with
  | .installing _ | .installingRow _ _ _ | .waiting | .received _ | .applying _ _ => True
  | .returned => w.revocationReady = true
  | _ => False

structure Sourced (w : RevocationSyncer κ) : Prop where
  shared : w.shared.Ok
  keys : ∀ k row, w.table.lookup k = some row → row.key = k
  rows : ∀ k row, w.table.lookup k = some row → row.Applicable
  committed : ∀ r ∈ w.committed, ∃ row, w.table.lookup r.key = some row ∧
    r.expiresAt ≤ row.expiresAt
  valid : ∀ r ∈ w.committed, r.Applicable
  outstanding : ∀ r ∈ w.connection.outstanding, r.Applicable

structure Ok (w : RevocationSyncer κ) : Prop where
  sourced : w.Sourced
  inHand : ∀ r ∈ w.watcher.pending ++ w.watcher.handling, r.Applicable
  calling : ∀ k r, w.watcher.calling = some (k, r) → (w.shared.calls k).record = some r
  following : w.Following → w.connection.opened = true ∧ ∀ r ∈ w.committed, w.Tracked r
  ready : w.revocationReady = true →
    w.watcher = .created ∨ w.initialized = true ∧ w.Following ∧ w.watcher.pending = []

variable {w w' : RevocationSyncer κ} {r : RevocationRecord}

theorem Settled.mono (h : w.Settled r) (hclock : w.shared.clock ≤ w'.shared.clock)
    (hcompleted : w.shared.completed ⊆ w'.shared.completed) : w'.Settled r := by
  rcases h with h | ⟨r', hr', hrest⟩
  · exact .inl (h.trans hclock)
  · exact .inr ⟨r', hcompleted hr', hrest⟩

theorem Sourced.reported (h : w.Sourced) (hsettled : w.Settled r)
    (hlater : w.shared.clock < r.expiresAt) : w.Reported r := by
  obtain ⟨r', hr', happlicable, hkey, hle⟩ := hsettled.resolve_left (not_le.mpr hlater)
  have hvalid : r'.Valid := ⟨happlicable.tenantId, happlicable.grantId, happlicable.revokedAt.ne'⟩
  have hcovered := h.shared.covered r' hr' hvalid
  obtain ⟨entry, hentry, _⟩ := hcovered.resolve_left (not_le.mpr (hlater.trans_le hle))
  have hnames : ¬ (r.tenantId = "" ∨ r.grantId = "") := by
    obtain ⟨htenant, hgrant⟩ := Prod.mk.inj hkey
    rw [← htenant, ← hgrant]
    exact not_or.mpr ⟨happlicable.tenantId, happlicable.grantId⟩
  have hunexpired : ¬ Time.unixNano w.shared.clock ≥ entry.expiresAt := by
    rw [RevocationEntry.expiry_le_iff h.shared.range]
    omega
  rw [hkey] at hentry
  have hfound : w.manager.revocationMap (r.tenantId, r.grantId) = some entry := hentry
  rw [Reported, DelegationManager.isRevoked, if_neg hnames, hfound]
  dsimp only
  rw [if_neg hunexpired]

/-- Instants at which the clock does not wrap, and does not either once the
revocation of that moment expires. -/
def InRange (w : RevocationSyncer κ) : SyncEvent κ → Prop
  | .map e => w.shared.InRange e
  | .commit now _ _ _ => NanosecondRange now ∧ NanosecondRange (now + maxDelegationTTL)
  | _ => True

theorem Sourced.of_same (h : w.Sourced) (hshared : w'.shared = w.shared) (htable : w'.table = w.table)
    (hcommitted : w'.committed = w.committed)
    (houtstanding : w'.connection.outstanding ⊆ w.connection.outstanding) : w'.Sourced := by
  refine ⟨hshared ▸ h.shared, htable ▸ h.keys, htable ▸ h.rows, ?_, hcommitted ▸ h.valid, ?_⟩
  · rw [hcommitted, htable]
    exact h.committed
  · intro r hr
    exact h.outstanding r (houtstanding hr)

theorem Sourced.persistRevocation (h : w.Sourced) {now : ℤ} {tenantId grantId subject : String}
    (htenant : tenantId ≠ "") (hgrant : grantId ≠ "") (hnow : NanosecondRange now)
    (hexpires : NanosecondRange (now + maxDelegationTTL)) :
    (w.persistRevocation (.ofRequest now tenantId grantId subject)).Sourced := by
  let record := RevocationRecord.ofRequest now tenantId grantId subject
  let persisted := record.stored.upsert (w.table.lookup record.key)
  have happlicable : persisted.Applicable :=
    RevocationRecord.applicable_upsert htenant hgrant hnow hexpires
      fun row hrow ↦ h.rows record.key row hrow
  have hkey : persisted.key = record.key := RevocationRecord.key_upsert
  have hinserted : (w.persistRevocation record).table.lookup record.key = some persisted :=
    AList.lookup_insert _
  have hlookup {k : String × String} {row : RevocationRecord}
      (hrow : (w.persistRevocation record).table.lookup k = some row) :
      k = record.key ∧ row = persisted ∨ w.table.lookup k = some row := by
    by_cases hk : k = record.key
    · subst hk
      exact .inl ⟨rfl, Option.some.inj (hrow.symm.trans hinserted)⟩
    · exact .inr ((AList.lookup_insert_ne hk).symm.trans hrow)
  refine ⟨h.shared, ?_, ?_, ?_, ?_, ?_⟩
  · intro k row hrow
    rcases hlookup hrow with ⟨rfl, rfl⟩ | hrow
    · exact hkey
    · exact h.keys k row hrow
  · intro k row hrow
    rcases hlookup hrow with ⟨-, rfl⟩ | hrow
    · exact happlicable
    · exact h.rows k row hrow
  · intro r hr
    rcases List.mem_cons.mp hr with rfl | hr
    · refine ⟨persisted, ?_, le_rfl⟩
      change (w.persistRevocation record).table.lookup persisted.key = some persisted
      rw [hkey, hinserted]
    · obtain ⟨row, hrow, hle⟩ := h.committed r hr
      by_cases hk : r.key = record.key
      · rw [hk] at hrow ⊢
        exact ⟨persisted, hinserted, hle.trans (RevocationRecord.le_expiresAt_upsert hrow)⟩
      · exact ⟨row, (AList.lookup_insert_ne hk).trans hrow, hle⟩
  · intro r hr
    rcases List.mem_cons.mp hr with rfl | hr
    · exact happlicable
    · exact h.valid r hr
  · intro r hr
    rcases Connection.mem_outstanding_notify hr with rfl | hr
    · exact happlicable
    · exact h.outstanding r hr

theorem Ok.move (h : w.Ok) {watcher : Watcher κ} {connection : Connection} {ready initialized : Bool}
    (houtstanding : connection.outstanding ⊆ w.connection.outstanding)
    (hinHand : ∀ r ∈ watcher.pending ++ watcher.handling, r.Applicable)
    (hcalling : ∀ k r, watcher.calling = some (k, r) → (w.shared.calls k).record = some r)
    (hfollowing : Following { w with watcher, revocationReady := ready } →
      connection.opened = true ∧ ∀ r ∈ w.committed, Tracked { w with watcher, connection } r)
    (hready : ready = true → watcher = .created ∨ initialized = true ∧
      Following { w with watcher, revocationReady := ready } ∧ watcher.pending = []) :
    Ok { w with watcher, connection, revocationReady := ready, initialized } where
  sourced := h.sourced.of_same rfl rfl rfl houtstanding
  inHand := hinHand
  calling := hcalling
  following := hfollowing
  ready := hready

theorem Ok.leave (h : w.Ok) {watcher : Watcher κ} {connection : Connection}
    (houtstanding : connection.outstanding ⊆ w.connection.outstanding)
    (hpending : watcher.pending = []) (hhandling : watcher.handling = [])
    (hcalling : watcher.calling = none)
    (hfollowing : ¬ Following { w with watcher, revocationReady := false }) :
    Ok { w with watcher, connection, revocationReady := false } := by
  refine h.move houtstanding ?_ ?_ (fun hf ↦ absurd hf hfollowing) (by simp)
  · rw [hpending, hhandling]
    exact List.forall_mem_nil _
  · rw [hcalling]
    exact nofun

theorem Ok.map [DecidableEq κ] (h : w.Ok) {e : MapEvent κ} (hrange : w.shared.InRange e)
    {shared : SharedRevocations κ} (hs : w.shared.step e = some shared) :
    Ok { w with shared } := by
  have hframe := SharedRevocations.frame_step hs
  refine ⟨⟨h.sourced.shared.step hrange hs, h.sourced.keys, h.sourced.rows, h.sourced.committed,
    h.sourced.valid, h.sourced.outstanding⟩, h.inHand, ?_, ?_, h.ready⟩
  · intro k r hk
    exact hframe.record k r (h.calling k r hk)
  · intro hf
    refine ⟨(h.following hf).1, ?_⟩
    intro r hr
    exact ((h.following hf).2 r hr).imp_left fun hsettled ↦
      hsettled.mono hframe.clock hframe.completed

theorem Ok.commit (h : w.Ok) {now : ℤ} {tenantId grantId subject : String}
    (htenant : tenantId ≠ "") (hgrant : grantId ≠ "")
    (hrange : w.InRange (.commit now tenantId grantId subject)) :
    (w.persistRevocation (.ofRequest now tenantId grantId subject)).Ok := by
  refine ⟨h.sourced.persistRevocation htenant hgrant hrange.1 hrange.2, h.inHand, h.calling, ?_,
    h.ready⟩
  intro hf
  obtain ⟨hopened, htracked⟩ := h.following hf
  refine ⟨Connection.opened_notify.trans hopened, ?_⟩
  intro r hr
  rcases List.mem_cons.mp hr with rfl | hr
  · exact .inr (.inr (Connection.mem_notify_of_opened hopened))
  · rcases htracked r hr with hsettled | hinHand | hqueued
    · exact .inl hsettled
    · exact .inr (.inl hinHand)
    · exact .inr (.inr (Connection.outstanding_subset_notify hqueued))

theorem Ok.call [DecidableEq κ] (h : w.Ok) {k : κ} {record : RevocationRecord} {watcher : Watcher κ}
    (hs : w.call k record watcher = some w') (hrecord : record.Applicable)
    (hsame : watcher.pending = w.watcher.pending ∧ watcher.handling = w.watcher.handling)
    (hcalling : watcher.calling = some (k, record)) (hold : w.Following)
    (hready : w.watcher ≠ .created)
    (hnew : ∀ shared, Following { w with shared, watcher }) : w'.Ok := by
  obtain ⟨shared, hshared, rfl⟩ := Option.map_eq_some_iff.mp hs
  have hok := h.map (e := .applyRevocation k record) hrecord.expiresAt hshared
  have hstarted : (shared.calls k).record = some record := by
    simp only [SharedRevocations.step] at hshared
    split at hshared <;> cases hshared
    simp only [SharedRevocations.goto, Function.update_self]
    rfl
  refine ⟨hok.sourced.of_same rfl rfl rfl (List.Subset.refl _), ?_, ?_, ?_, ?_⟩
  · intro r hr
    simp only [hsame] at hr
    exact h.inHand r hr
  · intro _ r hk
    rw [hcalling] at hk
    cases hk
    exact hstarted
  · intro _
    refine ⟨(hok.following hold).1, ?_⟩
    intro r hr
    have htracked := (hok.following hold).2 r hr
    simp only [Tracked, hsame] at htracked ⊢
    exact htracked
  · intro hr
    right
    obtain ⟨hinit, -, hpending⟩ := (h.ready hr).resolve_left hready
    exact ⟨hinit, hnew shared, hsame.1.trans hpending⟩

theorem Ok.resume (h : w.Ok) {k : κ} {record : RevocationRecord} {watcher : Watcher κ}
    (hs : w.resume k watcher = some w') (hcalling : w.watcher.calling = some (k, record))
    (hinHand : w.watcher.pending ++ w.watcher.handling =
      record :: (watcher.pending ++ watcher.handling)) (hnone : watcher.calling = none)
    (hpending : w.watcher.pending = [] → watcher.pending = []) (hold : w.Following)
    (hcreated : w.watcher ≠ .created) (hnew : Following { w with watcher }) : w'.Ok := by
  simp only [RevocationSyncer.resume] at hs
  split at hs <;> cases hs
  rename_i happlied
  have hrecord := h.calling k record hcalling
  have hphase := h.sourced.shared.phases k
  rw [happlied] at hrecord hphase
  cases hrecord
  have hmem : ∀ r ∈ watcher.pending ++ watcher.handling,
      r ∈ w.watcher.pending ++ w.watcher.handling := by
    intro _ hr
    rw [hinHand]
    exact List.mem_cons_of_mem _ hr
  have happlicable := h.inHand record (hinHand ▸ List.mem_cons_self)
  refine h.move (List.Subset.refl _) (fun r hr ↦ h.inHand r (hmem r hr)) ?_ ?_ ?_
  · rw [hnone]
    exact nofun
  · intro _
    refine ⟨(h.following hold).1, ?_⟩
    intro r hr
    rcases (h.following hold).2 r hr with hsettled | ⟨r', hr', houtlived⟩ | hqueued
    · exact .inl hsettled
    · rw [hinHand] at hr'
      rcases List.mem_cons.mp hr' with rfl | hr'
      · exact .inl (.inr ⟨_, hphase, happlicable, houtlived⟩)
      · exact .inr (.inl ⟨r', hr', houtlived⟩)
    · exact .inr (.inr hqueued)
  · intro hr
    obtain ⟨hinit, -, hempty⟩ := (h.ready hr).resolve_left hcreated
    exact .inr ⟨hinit, hnew, hpending hempty⟩

theorem Ok.not_ready (h : w.Ok) (hcreated : w.watcher ≠ .created)
    (hnot : w.initialized = true → ¬ w.Following) : w.revocationReady = false := by
  rw [Bool.eq_false_iff]
  intro hready
  obtain ⟨hinit, hfollowing, -⟩ := (h.ready hready).resolve_left hcreated
  exact hnot hinit hfollowing

theorem Ok.query (h : w.Ok) {now : ℤ} {rows queue : List RevocationRecord}
    (hwatcher : w.watcher = .listening) (hlive : w.connection = .live queue)
    (hnow : now ≤ w.shared.clock) (hrows : rows.Perm (w.table.active now)) :
    Ok { w with watcher := .installing rows } := by
  have hmem : ∀ row, row ∈ rows ↔ (∃ k, w.table.lookup k = some row) ∧ now < row.expiresAt := by
    intro _
    simp only [hrows.mem_iff, RevocationTable.active, List.mem_filter, decide_eq_true_iff,
      List.mem_map, Sigma.exists, exists_eq_right, ← AList.mem_lookup_iff, Option.mem_def]
  have hnotReady : w.revocationReady = false :=
    h.not_ready (by simp [hwatcher]) (by simp [Following, hwatcher])
  refine h.move (List.Subset.refl _) ?_ (by simp) ?_ (by simp [hnotReady])
  · intro row hrow
    simp only [Watcher.pending, Watcher.handling, List.append_nil, hmem] at hrow
    obtain ⟨⟨k, hk⟩, -⟩ := hrow
    exact h.sourced.rows k row hk
  · intro _
    refine ⟨by rw [hlive]; rfl, ?_⟩
    intro r hr
    obtain ⟨row, hrow, hle⟩ := h.sourced.committed r hr
    by_cases hactive : now < row.expiresAt
    · refine .inr (.inl ⟨row, ?_, h.sourced.keys _ _ hrow, hle⟩)
      simp only [Watcher.pending, Watcher.handling, List.append_nil, hmem]
      exact ⟨⟨_, hrow⟩, hactive⟩
    · exact .inl (.inl (hle.trans ((not_lt.mp hactive).trans hnow)))

theorem Ok.watch [DecidableEq κ] (h : w.Ok) {k : κ} (hs : w.step (.watch k) = some w') : w'.Ok := by
  cases hwatcher : w.watcher with
  | installing rows =>
    cases rows with
    | nil =>
      simp only [RevocationSyncer.step, hwatcher] at hs
      cases hs
      have hfollowing := h.following (by simp [Following, hwatcher])
      refine h.move (List.Subset.refl _) (by simp)
        (by simp) ?_ (by simp [Following])
      intro _
      simpa [Tracked, Settled, hwatcher] using hfollowing
    | cons record =>
      simp only [RevocationSyncer.step, hwatcher] at hs
      refine h.call hs (h.inHand record ?_) ?_ rfl ?_ ?_ ?_
      all_goals simp [Following, hwatcher]
  | installingRow k' record =>
    simp only [RevocationSyncer.step, hwatcher] at hs
    have hcalling : w.watcher.calling = some (k', record) := by rw [hwatcher]; rfl
    refine h.resume hs hcalling ?_ ?_ ?_ ?_ ?_ ?_
    all_goals simp [Following, hwatcher]
  | received record =>
    simp only [RevocationSyncer.step, hwatcher] at hs
    refine h.call hs (h.inHand record ?_) ?_ rfl ?_ ?_ ?_
    all_goals simp [Following, hwatcher]
  | applying k' record =>
    simp only [RevocationSyncer.step, hwatcher] at hs
    have hcalling : w.watcher.calling = some (k', record) := by rw [hwatcher]; rfl
    refine h.resume hs hcalling ?_ ?_ ?_ ?_ ?_ ?_
    all_goals simp [Following, hwatcher]
  | created | connecting | listening | waiting | returned | backoff | stopped =>
    simp only [RevocationSyncer.step, hwatcher] at hs
    cases hs

theorem Ok.receive (h : w.Ok) {record : RevocationRecord} {connection : Connection}
    (hwatcher : w.watcher = .waiting) (hreceive : w.connection.receive = some (record, connection)) :
    Ok { w with watcher := .received record, connection := connection } := by
  obtain ⟨hqueue, hopened⟩ := Connection.outstanding_of_receive hreceive
  have hfollowing := h.following (by simp [Following, hwatcher])
  refine h.move ?_ ?_ (by simp) ?_ ?_
  · rw [hqueue]
    exact List.subset_cons_self _ _
  · intro r hr
    apply h.sourced.outstanding
    simp only [Watcher.pending, Watcher.handling, List.nil_append, List.mem_singleton] at hr
    rw [hqueue, hr]
    exact List.mem_cons_self
  · intro _
    refine ⟨hopened, ?_⟩
    intro r hr
    rcases hfollowing.2 r hr with hsettled | ⟨_, hr', -⟩ | hqueued
    · exact .inl hsettled
    · simp [hwatcher] at hr'
    · rw [hqueue] at hqueued
      rcases List.mem_cons.mp hqueued with rfl | hqueued
      · exact .inr (.inl ⟨r, by simp, rfl, le_rfl⟩)
      · exact .inr (.inr hqueued)
  · intro hready
    obtain ⟨hinit, -, -⟩ := (h.ready hready).resolve_left (by simp [hwatcher])
    exact .inr ⟨hinit, trivial, rfl⟩

theorem Ok.interrupt (h : w.Ok) (hwatcher : w.watcher = .waiting) {connection : Connection}
    (hopened : connection.opened = true)
    (hsame : connection.outstanding = w.connection.outstanding) :
    Ok { w with watcher := .returned, connection := connection } := by
  have hfollowing := h.following (by simp [Following, hwatcher])
  refine h.move (by rw [hsame]; exact List.Subset.refl _)
    (by simp) (by simp) ?_ ?_
  · intro _
    refine ⟨hopened, ?_⟩
    intro r hr
    simpa [Tracked, hwatcher, hsame, Settled] using hfollowing.2 r hr
  · intro hready
    obtain ⟨hinit, -, -⟩ := (h.ready hready).resolve_left (by simp [hwatcher])
    exact .inr ⟨hinit, hready, rfl⟩

theorem Ok.connectionError (h : w.Ok) : Ok { w with connection := w.connection.fail } := by
  refine h.move (by rw [Connection.outstanding_fail]; exact List.Subset.refl _) h.inHand h.calling
    ?_ h.ready
  intro hf
  refine ⟨Connection.opened_fail.trans (h.following hf).1, ?_⟩
  intro r hr
  simpa only [Tracked, Settled, Connection.outstanding_fail] using (h.following hf).2 r hr

theorem Ok.step [DecidableEq κ] (h : w.Ok) {event : SyncEvent κ} (hrange : w.InRange event)
    (hs : w.step event = some w') : w'.Ok := by
  cases event with
  | map =>
    obtain ⟨_, hshared, rfl⟩ := Option.map_eq_some_iff.mp hs
    exact h.map hrange hshared
  | commit =>
    simp only [RevocationSyncer.step] at hs
    split_ifs at hs with hvalid
    cases hs
    exact h.commit hvalid.2.1 hvalid.2.2 hrange
  | cancel =>
    cases hs
    exact ⟨h.sourced.of_same rfl rfl rfl (List.Subset.refl _), h.inHand, h.calling, h.following,
      h.ready⟩
  | connectionError =>
    cases hs
    exact h.connectionError
  | start =>
    simp only [RevocationSyncer.step] at hs
    split at hs <;> cases hs
    exact h.leave (List.Subset.refl _) rfl rfl rfl (by simp [Following])
  | listen =>
    simp only [RevocationSyncer.step] at hs
    split at hs <;> cases hs
    rename_i hwatcher
    rw [h.not_ready (by simp [hwatcher]) (by simp [Following, hwatcher])]
    exact h.leave (List.nil_subset _) rfl rfl rfl (by simp [Following])
  | query =>
    simp only [RevocationSyncer.step] at hs
    split at hs
    · rename_i hwatcher hlive
      split_ifs at hs with hquery
      cases hs
      exact h.query hwatcher hlive hquery.1 hquery.2
    · cases hs
  | watch => exact h.watch hs
  | receive =>
    simp only [RevocationSyncer.step] at hs
    split at hs <;> cases hs
    exact h.receive ‹_› ‹_›
  | interrupted =>
    simp only [RevocationSyncer.step] at hs
    split at hs
    case h_1 hwatcher | h_2 hwatcher =>
      cases hs
      rw [h.not_ready (by simp [hwatcher]) (by simp [Following, hwatcher])]
      exact h.leave (List.Subset.refl _) rfl rfl rfl (by simp [Following])
    case h_3 hwatcher hfailed =>
      cases hs
      exact h.interrupt hwatcher (by rw [hfailed]; rfl) rfl
    case h_4 hwatcher hlive =>
      split_ifs at hs
      cases hs
      exact h.interrupt hwatcher rfl (by simp [hlive, Connection.outstanding])
    case h_5 => cases hs
  | giveUp =>
    simp only [RevocationSyncer.step] at hs
    split at hs
    · rename_i hwatcher
      split_ifs at hs with hdone hinit <;> cases hs
      · exact h.leave (List.nil_subset _) rfl rfl rfl (by simp [Following])
      · rw [h.not_ready (by simp [hwatcher]) (by simp [hinit])]
        exact h.leave (List.nil_subset _) rfl rfl rfl (by simp [Following])
      · exact h.leave (List.nil_subset _) rfl rfl rfl (by simp [Following])
    · rename_i hwatcher
      split_ifs at hs
      cases hs
      rw [h.not_ready (by simp [hwatcher]) (by simp [Following, hwatcher])]
      exact h.leave (List.Subset.refl _) rfl rfl rfl (by simp [Following])
    · cases hs
  | timer =>
    simp only [RevocationSyncer.step] at hs
    split at hs <;> cases hs
    exact h.leave (List.Subset.refl _) rfl rfl rfl (by simp [Following])

/-- The revocation is reported, or queued on the live connection, or in the
hands of the watcher, or the connection failed before it was delivered. -/
def Traced (w : RevocationSyncer κ) (r : RevocationRecord) : Prop :=
  w.Reported r ∨ (∃ queue, w.connection = .live queue ∧ r ∈ queue) ∨
    (∃ r' ∈ w.watcher.handling, r.OutlivedBy r') ∨
    ∃ undelivered missed, w.connection = .failed undelivered missed ∧ r ∈ undelivered ++ missed

/-- From `Start` on, while the process says that it is ready. -/
def MissesNothing (w : RevocationSyncer κ) : Prop :=
  w.watcher ≠ .created → w.revocationReady = true →
    ∀ r ∈ w.committed, w.shared.clock < r.expiresAt → w.Traced r

theorem Ok.missesNothing (h : w.Ok) : w.MissesNothing := by
  intro hstarted hready r hr hlater
  obtain ⟨-, hfollowing, hpending⟩ := (h.ready hready).resolve_left hstarted
  obtain ⟨hopened, htracked⟩ := h.following hfollowing
  rcases htracked r hr with hsettled | hinHand | hqueued
  · exact .inl (h.sourced.reported hsettled hlater)
  · rw [hpending, List.nil_append] at hinHand
    exact .inr (.inr (.inl hinHand))
  · cases hconnection : w.connection with
    | closed =>
      rw [hconnection] at hopened
      cases hopened
    | live queue =>
      rw [hconnection] at hqueued
      exact .inr (.inl ⟨queue, hconnection, hqueued⟩)
    | failed undelivered missed =>
      rw [hconnection] at hqueued
      exact .inr (.inr (.inr ⟨undelivered, missed, hconnection, hqueued⟩))

theorem ok_fresh {clock : ℤ} (hclock : NanosecondRange clock) {table : RevocationTable}
    (htable : ∀ k row, table.lookup k = some row → row.key = k ∧ row.Applicable) :
    (fresh clock table : RevocationSyncer κ).Ok := by
  have hrow : ∀ r ∈ table.entries.map (·.2), table.lookup r.key = some r := by
    intro _ hr
    obtain ⟨⟨k, row⟩, hentry, rfl⟩ := List.mem_map.mp hr
    have hk : table.lookup k = some row := AList.mem_lookup_iff.mpr hentry
    rwa [(htable k row hk).1]
  refine ⟨⟨SharedRevocations.ok_fresh hclock, fun k row hk ↦ (htable k row hk).1,
    fun k row hk ↦ (htable k row hk).2, ?_, ?_, List.forall_mem_nil _⟩, List.forall_mem_nil _, ?_,
    False.elim, fun _ ↦ .inl rfl⟩
  · intro r hr
    exact ⟨r, hrow r hr, le_rfl⟩
  · intro r hr
    exact (htable r.key r (hrow r hr)).2
  · intro _ _ hk
    cases hk

/-- In every interleaving of commits by any node with the watcher's statements,
connection errors, reconnects and the calls at work on the map. -/
theorem ready_misses_nothing [DecidableEq κ] (clock : ℤ) (hclock : NanosecondRange clock)
    (table : RevocationTable)
    (htable : ∀ k row, table.lookup k = some row → row.key = k ∧ row.Applicable)
    (schedule : List (SyncEvent κ)) (h : Meets step InRange (fresh clock table) schedule) :
    Always step MissesNothing (fresh clock table) schedule :=
  always_of_invariant (fun _ _ _ hok hrange hs ↦ hok.step hrange hs) (fun _ ↦ Ok.missesNothing)
    (ok_fresh hclock htable) h

def firstSnapshot : List (SyncEvent ℕ) := [.start, .listen, .query 0 [], .watch 0]

def deliveredRevocation : List (SyncEvent ℕ) :=
  firstSnapshot ++ [.commit 0 "t1" "9" "user:alice", .receive, .watch 1, .map (.advance 1),
    .map (.advance 1), .map (.advance 1), .watch 1]

theorem ready_misses_nothing_delivered :
    (run step (fresh 0 ∅) deliveredRevocation).map (fun w ↦ (w.revocationReady,
      (w.manager.isRevoked w.shared.clock "t1" "9").1)) = some (true, true) ∧
    Always step MissesNothing (fresh 0 ∅) deliveredRevocation := by
  refine ⟨by decide, ready_misses_nothing 0 (by decide) ∅ (fun k row hk ↦ by cases hk) _ ?_⟩
  refine ⟨trivial, fun _ _ ↦ ⟨trivial, fun _ _ ↦ ⟨trivial, fun _ _ ↦ ⟨trivial, fun _ _ ↦ ?_⟩⟩⟩⟩
  have hrange : NanosecondRange 0 ∧ NanosecondRange (0 + maxDelegationTTL) := by decide
  refine ⟨hrange, fun _ _ ↦ ⟨trivial, fun _ _ ↦ ⟨trivial, fun _ _ ↦ ?_⟩⟩⟩
  exact ⟨trivial, fun _ _ ↦ ⟨trivial, fun _ _ ↦ ⟨trivial, fun _ _ ↦ ⟨trivial, fun _ _ ↦ trivial⟩⟩⟩⟩

/-- The revocation is reported, or queued on the live connection, or was
committed after its failure while the watcher is still in its wait. -/
def TracedUntilReturn (w : RevocationSyncer κ) (r : RevocationRecord) : Prop :=
  w.Reported r ∨ (∃ queue, w.connection = .live queue ∧ r ∈ queue) ∨
    (∃ undelivered missed, w.connection = .failed undelivered missed ∧ r ∈ missed) ∧
      w.watcher ≠ .returned

/-- The wait has returned its error, and `run` has not taken readiness back yet
when another node commits. -/
def lateReadiness : List (SyncEvent ℕ) :=
  firstSnapshot ++ [.connectionError, .interrupted, .commit 0 "t1" "9" "user:alice"]

/-- The notification is taken from the connection and not applied yet. -/
def dequeued : List (SyncEvent ℕ) := firstSnapshot ++ [.commit 0 "t1" "9" "user:alice", .receive]

/-- The notification is still queued when the connection fails. -/
def undelivered : List (SyncEvent ℕ) :=
  firstSnapshot ++ [.commit 0 "t1" "9" "user:alice", .connectionError]

/-- The schedule ends with a process that says it is ready and has no trace of a
revocation still in force. -/
def EndsUntraced (schedule : List (SyncEvent ℕ)) : Prop := ∃ w r,
  run step (fresh 0 ∅) schedule = some w ∧ w.watcher ≠ .created ∧ w.revocationReady = true ∧
    r ∈ w.committed ∧ w.shared.clock < r.expiresAt ∧ ¬ w.TracedUntilReturn r

theorem endsUntraced {schedule : List (SyncEvent ℕ)} {w : RevocationSyncer ℕ}
    (hrun : run step (fresh 0 ∅) schedule = some w) (hwatcher : w.watcher ≠ .created)
    (hready : w.revocationReady = true)
    (hcommitted : w.committed = [.ofRequest 0 "t1" "9" "user:alice"]) (hclock : w.shared.clock = 0)
    (hreported : (w.manager.isRevoked w.shared.clock "t1" "9").1 = false)
    (hlive : ∀ queue, w.connection = .live queue → queue = [])
    (hfailed : ∀ undelivered missed, w.connection = .failed undelivered missed → missed ≠ [] →
      w.watcher = .returned) : EndsUntraced schedule := by
  refine ⟨w, .ofRequest 0 "t1" "9" "user:alice", hrun, hwatcher, hready, ?_, ?_, ?_⟩
  · rw [hcommitted]
    exact List.mem_singleton_self _
  · rw [hclock]
    decide
  · rintro (htraced | ⟨queue, hqueue, hmem⟩ | ⟨⟨_, missed, hmissed, hmem⟩, hwaiting⟩)
    · exact absurd (hreported.symm.trans htraced) (by decide)
    · rw [hlive queue hqueue] at hmem
      cases hmem
    · exact hwaiting (hfailed _ missed hmissed (List.ne_nil_of_mem hmem))

theorem ready_after_wait_returned :
    EndsUntraced lateReadiness ∧ EndsUntraced dequeued ∧ EndsUntraced undelivered := by
  refine ⟨?_, ?_, ?_⟩
  · exact endsUntraced rfl nofun rfl rfl rfl rfl nofun fun _ _ _ _ ↦ rfl
  · refine endsUntraced rfl nofun rfl rfl rfl rfl ?_ nofun
    rintro _ ⟨⟩
    rfl
  · refine endsUntraced rfl nofun rfl rfl rfl rfl nofun ?_
    rintro _ _ ⟨⟩ hmissed
    exact absurd rfl hmissed

end RevocationSyncer

end PolicyEngine.Security

import PolicyEngine.Engine.Sync
import PolicyEngine.Storage.Snapshots

namespace PolicyEngine.Engine

open Function PolicyEngine.Go PolicyEngine.Parser PolicyEngine.Storage PolicyEngine.Trace

section Parts

variable (letter : Char → Bool) (hash : String → UInt64)

/-- What `SyncTenantWithRevision` publishes of the bundle it reads, with the sources
that it saves. -/
def fetch (db : Map TenantPolicyBundle) (tenantId : String) (revision : UInt64) :
    Except String (Update × List PolicySource) :=
  (readBundle (compilePolicySet letter) db tenantId revision).map fun u ↦
    (u, (db.lookup tenantId).elim [] TenantPolicyBundle.policies)

def publish (u : Update) (orders : ℕ → RoleDag.MapOrders) (state : EngineState) :
    EngineState × Except UpdateError Unit :=
  match (updateTenantPoliciesWithRevision hash).prepare (u, orders) with
  | .error result => (state, result)
  | .ok p =>
    let (new, result) := (updateTenantPoliciesWithRevision hash).commit p state
    (new.getD state, result)

def snapshotOf (u : Update) (sources : List PolicySource) (now : ℤ) : PolicySnapshot where
  formatVersion := policySnapshotFormatVersion
  tenantId := u.tenantId
  policies := sources.map fun source ↦ ⟨source.id, source.text⟩
  inheritances := u.inheritances
  revision := u.revision
  snapshotAt := now

variable {letter hash} {u : Update} {orders : ℕ → RoleDag.MapOrders} {state state' : EngineState}

theorem publish_eq_ok (h : publish hash u orders state = (state', .ok ())) :
    ∃ trie, u.Builds hash orders trie ∧
      (state' = stateWithTenant state u.tenantId trie ∨
        state' = state ∧ state.revision u.tenantId = u.revision) := by
  unfold publish at h
  split at h
  · next hprep =>
    cases h
    unfold updateTenantPoliciesWithRevision at hprep
    dsimp only at hprep
    split at hprep <;> cases hprep
  · next p hprep =>
    obtain ⟨hu, hbuilds⟩ := prepare_eq_ok.mp hprep
    refine ⟨p.2, hbuilds, ?_⟩
    simp only [updateTenantPoliciesWithRevision, publishTenantTrie, hu] at h
    split_ifs at h with hstale hdup <;> cases h
    · right
      refine ⟨rfl, ?_⟩
      unfold revisionIsDuplicate at hdup
      split at hdup
      · next hcurrent =>
        rw [revision_of_lookup hcurrent]
        exact (of_decide_eq_true hdup).2.symm
      · cases hdup
    · exact .inl rfl

theorem publish_eq_error {e : UpdateError} (h : publish hash u orders state = (state', .error e)) :
    state' = state := by
  unfold publish at h
  split at h
  · exact (Prod.mk.inj h).1.symm
  · simp only [updateTenantPoliciesWithRevision, publishTenantTrie] at h
    split_ifs at h <;> cases h
    rfl

end Parts

/-- How far a call of `SyncTenantWithRevision` is. -/
inductive SyncCall
  | idle
  | started (tenantId : String) (revision : UInt64)
  | holding (u : Update) (sources : List PolicySource)
  | saving (u : Update) (sources : List PolicySource)

/-- A process with its database and its snapshots. -/
structure EdgeReplica (ι : Type) where
  db : Map TenantPolicyBundle
  state : EngineState
  store : BadgerStore
  calls : ι → SyncCall

inductive EdgeEvent (ι : Type)
  | commit (tenantId : String) (bundle : TenantPolicyBundle)
  | start (call : ι) (tenantId : String) (revision : UInt64)
  | read (call : ι)
  | publish (call : ι) (orders : ℕ → RoleDag.MapOrders)
  | save (call : ι) (now : ℤ)

namespace EdgeReplica

variable {ι : Type}

/-- The revision in memory is in the store, or on its way to it. -/
def Recorded (r : EdgeReplica ι) (t : String) : Prop :=
  r.state.revision t ≤ r.store.revision t ∨
    ∃ call u sources, r.calls call = .saving u sources ∧ u.tenantId = t ∧
      u.revision = r.state.revision t

/-- What a call saves for the tenant is not older than what is in memory by then. -/
def SavesCurrent (t : String) (r : EdgeReplica ι) : EdgeEvent ι → Prop
  | .save call _ => ∀ u sources, r.calls call = .saving u sources → u.tenantId = t →
      r.state.revision t ≤ u.revision
  | _ => True

variable (letter : Char → Bool) (hash : String → UInt64) [DecidableEq ι]

def setCall (r : EdgeReplica ι) (call : ι) (phase : SyncCall) : EdgeReplica ι :=
  { r with calls := update r.calls call phase }

def step (r : EdgeReplica ι) : EdgeEvent ι → Option (EdgeReplica ι)
  | .commit tenantId bundle => some { r with db := r.db.insert tenantId bundle }
  | .start call tenantId revision =>
    match r.calls call with
    | .idle => some (r.setCall call (.started tenantId revision))
    | _ => none
  | .read call =>
    match r.calls call with
    | .started tenantId revision =>
      match fetch letter r.db tenantId revision with
      | .ok (u, sources) => some (r.setCall call (.holding u sources))
      | .error _ => some (r.setCall call .idle)
    | _ => none
  | .publish call orders =>
    match r.calls call with
    | .holding u sources =>
      match Engine.publish hash u orders r.state with
      | (state, .ok ()) => some { r.setCall call (.saving u sources) with state := state }
      -- a stale revision is not an error of the call, but it ends it as well
      | (state, .error _) => some { r.setCall call .idle with state := state }
    | _ => none
  | .save call now =>
    match r.calls call with
    | .saving u sources =>
      match r.store.savePolicySnapshot (snapshotOf u sources now) with
      | .ok store => some { r.setCall call .idle with store := store }
      -- every save succeeds
      | .error _ => none
    | _ => none

inductive Step (r : EdgeReplica ι) : EdgeEvent ι → EdgeReplica ι → Prop
  | commit {e : EdgeEvent ι} (db : Map TenantPolicyBundle) : Step r e { r with db := db }
  | move {e : EdgeEvent ι} {call : ι} {phase : SyncCall}
      (h : ∀ u sources, r.calls call ≠ .saving u sources) : Step r e (r.setCall call phase)
  | publish {e : EdgeEvent ι} {call : ι} {u : Update} {sources : List PolicySource}
      {state : EngineState} (h : r.calls call = .holding u sources)
      (hstate : state = r.state ∨ ∃ trie, trie.revision = u.revision ∧
        state = stateWithTenant r.state u.tenantId trie) :
      Step r e { r.setCall call (.saving u sources) with state := state }
  | save {call : ι} {u : Update} {sources : List PolicySource} {now : ℤ} {store : BadgerStore}
      (h : r.calls call = .saving u sources)
      (hstore : r.store.savePolicySnapshot (snapshotOf u sources now) = .ok store) :
      Step r (.save call now) { r.setCall call .idle with store := store }

variable {letter hash} {r r' : EdgeReplica ι}

theorem step_cases {e : EdgeEvent ι} (h : r.step letter hash e = some r') : Step r e r' := by
  cases e with
  | commit =>
    cases h
    exact .commit _
  | start =>
    simp only [step] at h
    split at h <;> cases h
    exact .move (by simp [*])
  | read =>
    simp only [step] at h
    split at h
    · split at h <;> cases h <;> exact .move (by simp [*])
    · cases h
  | publish =>
    simp only [step] at h
    split at h
    · next hcall =>
      split at h <;> cases h
      · next hpublish =>
        obtain ⟨trie, hbuilds, hstate⟩ := publish_eq_ok hpublish
        refine .publish hcall (hstate.symm.imp And.left fun heq ↦ ⟨trie, hbuilds.revision, heq⟩)
      · next hpublish =>
        rw [publish_eq_error hpublish]
        exact .move (by simp [*])
    · cases h
  | save =>
    simp only [step] at h
    split at h
    · split at h <;> cases h
      exact .save ‹_› ‹_›
    · cases h

section Runs

variable {t : String} {call : ι} {phase : SyncCall}

theorem Recorded.setCall (h : r.Recorded t) (hcall : ∀ u sources, r.calls call ≠ .saving u sources) :
    (r.setCall call phase).Recorded t := by
  refine h.imp_right ?_
  intro ⟨other, u, sources, hother, hu⟩
  refine ⟨other, u, sources, ?_, hu⟩
  have hne : other ≠ call := by
    intro heq
    exact hcall u sources (heq ▸ hother)
  exact (update_of_ne hne _ _).trans hother

theorem Recorded.step {e : EdgeEvent ι} (h : r.Recorded t) (hcurrent : SavesCurrent t r e)
    (hstep : Step r e r') : r'.Recorded t := by
  cases hstep with
  | commit db => exact h
  | move hcall => exact h.setCall hcall
  | @publish _ call u sources state hcall hstate =>
    have hkept : (r.setCall call (.saving u sources)).Recorded t := h.setCall (by simp [hcall])
    obtain rfl | ⟨trie, htrie, rfl⟩ := hstate
    · exact hkept
    · by_cases ht : t = u.tenantId
      · subst ht
        refine .inr ⟨call, u, sources, update_self _ _ _, rfl, ?_⟩
        exact htrie.symm.trans (revision_of_lookup lookup_stateWithTenant).symm
      · have hsame : (stateWithTenant r.state u.tenantId trie).revision t = r.state.revision t := by
          rw [EngineState.revision, EngineState.revision, lookup_stateWithTenant_ne ht]
        rw [Recorded, hsame]
        exact hkept
  | @save call u sources now store hcall hstore =>
    by_cases ht : u.tenantId = t
    · left
      have hstored : store.revision t = u.revision := ht ▸ BadgerStore.revision_save hstore
      exact hstored ▸ hcurrent u sources hcall ht
    · have hstored : store.revision t = r.store.revision t :=
        BadgerStore.revision_save_ne hstore (Ne.symm ht)
      refine h.imp (fun hle ↦ hstored ▸ hle) ?_
      rintro ⟨other, v, sources', hother, hv, hrevision⟩
      have hne : other ≠ call := by
        rintro rfl
        cases hother.symm.trans hcall
        exact ht hv
      exact ⟨other, v, sources', (update_of_ne hne _ _).trans hother, hv, hrevision⟩

def startup (db : Map TenantPolicyBundle) (store : BadgerStore) : EdgeReplica ι :=
  ⟨db, ⟨∅⟩, store, fun _ ↦ .idle⟩

/-- A save is not guarded as a publication is. The snapshot keeps up with the engine
in every run whose saves come before something newer is in memory. -/
theorem snapshots_keep_up (letter : Char → Bool) (hash : String → UInt64)
    {db : Map TenantPolicyBundle} {store : BadgerStore} {events : List (EdgeEvent ι)} {t : String}
    (hcurrent : Meets (step letter hash) (SavesCurrent t) (startup db store) events)
    (hrun : run (step letter hash) (startup db store) events = some r)
    (hdone : ∀ call, r.calls call = .idle) : r.state.revision t ≤ r.store.revision t := by
  have hstart : (startup db store : EdgeReplica ι).Recorded t := .inl UInt64.zero_le
  have hstep (s : EdgeReplica ι) (e : EdgeEvent ι) (s' : EdgeReplica ι) (h : s.Recorded t)
      (hcurrent : SavesCurrent t s e) (hs : s.step letter hash e = some s') : s'.Recorded t :=
    h.step hcurrent (step_cases hs)
  obtain hle | ⟨call, u, sources, hcall, -⟩ := run_invariant hstep hstart hcurrent hrun
  · exact hle
  · cases (hdone call).symm.trans hcall

def overlappingSyncs : List (EdgeEvent Bool) :=
  [.start false "t1" 0, .read false, .commit "t1" ⟨[], [], 2⟩, .start true "t1" 2, .read true,
    .publish false fun _ ↦ .uniform .listed, .save false 0,
    .publish true fun _ ↦ .uniform .listed, .save true 0]

theorem snapshots_keep_up_overlappingSyncs : ∃ r, run (step (fun _ ↦ false) (fun _ ↦ 0))
    (startup Replica.newTenant ∅) overlappingSyncs = some r ∧ r.state.revision "t1" = 2 ∧
      r.state.revision "t1" ≤ r.store.revision "t1" := by
  obtain ⟨r, hrun, hdone, hrevision⟩ : ∃ r, run (step (fun _ ↦ false) (fun _ ↦ 0))
      (startup Replica.newTenant ∅) overlappingSyncs = some r ∧ (∀ call, r.calls call = .idle) ∧
        r.state.revision "t1" = 2 := ⟨_, rfl, by rintro (_ | _) <;> rfl, rfl⟩
  have hsave {s : EdgeReplica Bool} {call : Bool} {u : Update} {sources : List PolicySource}
      (hcall : s.calls call = .saving u sources) (hle : s.state.revision "t1" ≤ u.revision)
      (now : ℤ) : SavesCurrent "t1" s (.save call now) := by
    intro v _ hv _
    cases hcall.symm.trans hv
    exact hle
  refine ⟨r, hrun, hrevision, snapshots_keep_up _ _ ?_ hrun hdone⟩
  exact .cons trivial rfl <| .cons trivial rfl <| .cons trivial rfl <| .cons trivial rfl <|
    .cons trivial rfl <| .cons trivial rfl <| .cons (hsave rfl (by decide) 0) rfl <|
    .cons trivial rfl <| .cons (hsave rfl (by decide) 0) rfl trivial

def lateSave : List (EdgeEvent Bool) :=
  [.start false "t1" 0, .read false, .publish false fun _ ↦ .uniform .listed,
    .commit "t1" ⟨[], [], 2⟩, .start true "t1" 2, .read true,
    .publish true fun _ ↦ .uniform .listed, .save true 0, .save false 0]

theorem lateSave_rolls_back : ∃ r, run (step (fun _ ↦ false) (fun _ ↦ 0))
    (startup Replica.newTenant ∅) lateSave = some r ∧ (∀ call, r.calls call = .idle) ∧
      r.state.revision "t1" = 2 ∧ r.store.revision "t1" = 1 := by
  refine ⟨_, rfl, ?_, rfl, rfl⟩
  intro call
  cases call <;> rfl

end Runs

end EdgeReplica

end PolicyEngine.Engine

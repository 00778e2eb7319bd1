import PolicyEngine.Engine.StateWriter
import PolicyEngine.Parser.PolicySet

namespace PolicyEngine.Engine

open Function PolicyEngine.Concurrent PolicyEngine.Go PolicyEngine.Parser PolicyEngine.Trace

structure TenantPolicyBundle where
  policies : List PolicySource
  inheritances : List (String × String)
  revision : UInt64

def shouldSyncRevision (current received : UInt64) : Bool := received = 0 ∨ received > current

inductive Trigger
  | event (revision : UInt64)
  | reconcile (dbRevision : UInt64)
  | lazyLoad

namespace Trigger

def admitted (state : EngineState) (tenantId : String) : Trigger → Bool
  | .event revision => shouldSyncRevision (state.revision tenantId) revision
  | .reconcile dbRevision => dbRevision > state.revision tenantId
  | .lazyLoad => (state.tenants.lookup tenantId).isNone

def revision : Trigger → UInt64
  | .event revision => revision
  | .reconcile dbRevision => dbRevision
  | .lazyLoad => 0

end Trigger

variable (hash : String → UInt64)
  (compilePolicySet : List PolicySource → Except String (List PolicyNode))

def readBundle (db : Map TenantPolicyBundle) (tenantId : String) (revision : UInt64) :
    Except String Update :=
  match db.lookup tenantId with
  | none =>
    .error ("load policy bundle for tenant " ++ tenantId ++ ": tenant not found: " ++ tenantId)
  | some bundle =>
    match compilePolicySet bundle.policies with
    | .error e => .error ("compile active policy set for tenant " ++ tenantId ++ ": " ++ e)
    | .ok compiledPolicies =>
      if revision > bundle.revision then
        .error ("policy event revision " ++ Strconv.formatNat revision.toNat ++
          " is ahead of database bundle revision " ++ Strconv.formatNat bundle.revision.toNat ++
          " for tenant " ++ tenantId)
      else
        .ok { tenantId := tenantId
              policies := compiledPolicies.map some
              inheritances := bundle.inheritances
              revision := bundle.revision }

inductive Loading
  | idle
  | started (tenantId : String) (revision : UInt64)
  | holding (update : Update)

/-- A process and the database it follows. `served` lists, in the order in
which they were obtained, the snapshots decisions were evaluated on. -/
structure Replica (ι : Type) where
  db : Map TenantPolicyBundle
  state : EngineState
  loading : ι → Loading
  served : List (String × UInt64)

inductive Event (ι : Type)
  | commit (tenantId : String) (policies : List PolicySource) (inheritances : List (String × String))
  | start (loader : ι) (trigger : Trigger) (tenantId : String)
  | read (loader : ι)
  | giveUp (loader : ι)
  | publish (loader : ι) (orders : ℕ → RoleDag.MapOrders)
  | unload (tenantId : String)
  | decide (tenantId : String)

namespace Replica

variable {ι : Type}

def committed (r : Replica ι) (tenantId : String) : UInt64 :=
  match r.db.lookup tenantId with
  | some bundle => bundle.revision
  | none => 0

/-- A policy transaction: new contents under the next revision, which has to fit
the column. -/
def commit (r : Replica ι) (tenantId : String) (policies : List PolicySource)
    (inheritances : List (String × String)) : Option (Replica ι) :=
  match r.db.lookup tenantId with
  | none => none
  | some bundle =>
    if bundle.revision.toNat + 1 < 2 ^ 63 then
      some { r with db := r.db.insert tenantId ⟨policies, inheritances, bundle.revision + 1⟩ }
    else none

/-- No decision is evaluated on an older revision than one before it. -/
def NeverBackwards (r : Replica ι) : Prop :=
  r.served.Pairwise fun earlier later ↦ earlier.1 = later.1 → earlier.2 ≤ later.2

/-- An unload finds no loader with an older bundle of that tenant in its hands. -/
def UnloadsQuietly (r : Replica ι) : Event ι → Prop
  | .unload tenantId => ∀ i u, r.loading i = .holding u → u.tenantId = tenantId →
      r.state.revision tenantId ≤ u.revision
  | _ => True

structure Ok (r : Replica ι) : Prop where
  db_pos : ∀ t bundle, r.db.lookup t = some bundle → 1 ≤ bundle.revision
  loaded_le : ∀ t, r.state.revision t ≤ r.committed t
  holding_pos : ∀ i u, r.loading i = .holding u → 1 ≤ u.revision
  holding_le : ∀ i u, r.loading i = .holding u → u.revision ≤ r.committed u.tenantId
  served_le : ∀ p ∈ r.served, p.2 ≤ r.committed p.1
  served_loaded : ∀ p ∈ r.served, ∀ trie, r.state.tenants.lookup p.1 = some trie →
    p.2 ≤ trie.revision
  served_holding : ∀ p ∈ r.served, r.state.tenants.lookup p.1 = none →
    ∀ i u, r.loading i = .holding u → u.tenantId = p.1 → p.2 ≤ u.revision
  monotone : r.NeverBackwards

variable {hash compilePolicySet} {r r' : Replica ι}

theorem readBundle_eq_ok {db : Map TenantPolicyBundle} {tenantId : String} {revision : UInt64}
    {u : Update} (h : readBundle compilePolicySet db tenantId revision = .ok u) :
    u.tenantId = tenantId ∧
      ∃ bundle, db.lookup tenantId = some bundle ∧ u.revision = bundle.revision := by
  unfold readBundle at h
  split at h
  · cases h
  · next bundle hbundle =>
    split at h
    · cases h
    · split_ifs at h
      cases h
      exact ⟨rfl, bundle, hbundle, rfl⟩

theorem committed_of_lookup {t : String} {bundle : TenantPolicyBundle}
    (h : r.db.lookup t = some bundle) : r.committed t = bundle.revision := by
  rw [committed, h]

theorem Ok.commit (h : r.Ok) {tenantId : String} {policies : List PolicySource}
    {inheritances : List (String × String)}
    (hs : r.commit tenantId policies inheritances = some r') : r'.Ok := by
  unfold Replica.commit at hs
  split at hs
  · cases hs
  · next bundle hbundle =>
    split_ifs at hs with hfits
    have hnext : (bundle.revision + 1).toNat = bundle.revision.toNat + 1 := by
      rw [UInt64.toNat_add, UInt64.toNat_one]
      omega
    have hrev : bundle.revision ≤ bundle.revision + 1 := by
      rw [UInt64.le_iff_toNat_le]
      omega
    cases hs
    have hle : ∀ t, r.committed t ≤
        committed { r with db := r.db.insert tenantId ⟨policies, inheritances, bundle.revision + 1⟩ }
          t := by
      intro t
      by_cases ht : t = tenantId
      · subst ht
        rw [committed_of_lookup hbundle, committed_of_lookup (AList.lookup_insert _)]
        exact hrev
      · simp only [committed, AList.lookup_insert_ne ht]
        exact UInt64.le_refl _
    refine ⟨?_, ?_, h.holding_pos, ?_, ?_, h.served_loaded, h.served_holding, h.monotone⟩
    · intro t b hb
      by_cases ht : t = tenantId
      · subst ht
        rw [AList.lookup_insert] at hb
        rw [← Option.some.inj hb]
        exact UInt64.le_trans (h.db_pos t bundle hbundle) hrev
      · rw [AList.lookup_insert_ne ht] at hb
        exact h.db_pos t b hb
    · intro t
      exact UInt64.le_trans (h.loaded_le t) (hle t)
    · intro i u hu
      exact UInt64.le_trans (h.holding_le i u hu) (hle u.tenantId)
    · intro p hp
      exact UInt64.le_trans (h.served_le p hp) (hle p.1)

theorem Ok.publish (h : r.Ok) {u : Update} (hpos : 1 ≤ u.revision)
    (hle : u.revision ≤ r.committed u.tenantId)
    (hserved : ∀ p ∈ r.served, r.state.tenants.lookup p.1 = none → u.tenantId = p.1 →
      p.2 ≤ u.revision) (orders : ℕ → RoleDag.MapOrders) :
    Ok { r with state := (updateTenantPoliciesWithRevision hash).call r.state (u, orders) } := by
  rcases call_cases hash orders hpos r.state with ⟨hsame, _⟩ | ⟨_, htrie, hnewer, hnew⟩
  · rw [hsame]
    exact h
  · rw [hnew]
    refine ⟨h.db_pos, ?_, h.holding_pos, h.holding_le, h.served_le, ?_, ?_, h.monotone⟩
    · intro t
      by_cases ht : t = u.tenantId
      · subst ht
        rw [revision_of_lookup lookup_stateWithTenant, htrie.revision]
        exact hle
      · rw [EngineState.revision, lookup_stateWithTenant_ne ht]
        exact h.loaded_le t
    · intro p hp trie' htrie'
      by_cases ht : p.1 = u.tenantId
      · rw [ht, lookup_stateWithTenant] at htrie'
        rw [← Option.some.inj htrie', htrie.revision]
        cases hcur : r.state.tenants.lookup p.1 with
        | none => exact hserved p hp hcur ht.symm
        | some current =>
          have hp' := h.served_loaded p hp current hcur
          rw [ht] at hcur
          exact UInt64.le_of_lt (UInt64.lt_of_le_of_lt hp' (hnewer current hcur))
      · rw [lookup_stateWithTenant_ne ht] at htrie'
        exact h.served_loaded p hp trie' htrie'
    · intro p hp hnone
      have ht : p.1 ≠ u.tenantId := by
        intro ht
        rw [ht, lookup_stateWithTenant] at hnone
        cases hnone
      rw [lookup_stateWithTenant_ne ht] at hnone
      exact h.served_holding p hp hnone

theorem Ok.unload (h : r.Ok) {tenantId : String} (hquiet : r.UnloadsQuietly (.unload tenantId)) :
    Ok { r with state := stateWithoutTenant r.state tenantId } := by
  have hgone : (stateWithoutTenant r.state tenantId).tenants.lookup tenantId = none :=
    AList.lookup_erase _ _
  have hkept : ∀ t, t ≠ tenantId → (stateWithoutTenant r.state tenantId).tenants.lookup t =
      r.state.tenants.lookup t := fun t ht ↦ AList.lookup_erase_ne ht
  refine ⟨h.db_pos, ?_, h.holding_pos, h.holding_le, h.served_le, ?_, ?_, h.monotone⟩
  · intro t
    by_cases ht : t = tenantId
    · subst ht
      rw [EngineState.revision, hgone]
      exact UInt64.zero_le
    · rw [EngineState.revision, hkept t ht]
      exact h.loaded_le t
  · intro p hp trie htrie
    have ht : p.1 ≠ tenantId := by
      intro ht
      rw [ht, hgone] at htrie
      cases htrie
    rw [hkept p.1 ht] at htrie
    exact h.served_loaded p hp trie htrie
  · intro p hp hnone i u hu hut
    cases hcur : r.state.tenants.lookup p.1 with
    | none => exact h.served_holding p hp hcur i u hu hut
    | some current =>
      -- The tenant was in memory, so it is the one that is being unloaded.
      have ht : p.1 = tenantId := by
        by_contra ht
        rw [hkept p.1 ht, hcur] at hnone
        cases hnone
      have hle := hquiet i u hu (hut.trans ht)
      rw [← ht, revision_of_lookup hcur] at hle
      exact UInt64.le_trans (h.served_loaded p hp current hcur) hle

theorem Ok.decide (h : r.Ok) {tenantId : String} {trie : TrieRoot}
    (htrie : r.state.tenants.lookup tenantId = some trie) :
    Ok { r with served := r.served ++ [(tenantId, trie.revision)] } := by
  have hcases : ∀ p ∈ r.served ++ [(tenantId, trie.revision)],
      p ∈ r.served ∨ p = (tenantId, trie.revision) := by
    intro _ hp
    rwa [List.mem_append, List.mem_singleton] at hp
  refine ⟨h.db_pos, h.loaded_le, h.holding_pos, h.holding_le, ?_, ?_, ?_, ?_⟩
  · intro p hp
    rcases hcases p hp with hp | rfl
    · exact h.served_le p hp
    · have hle := h.loaded_le tenantId
      rwa [revision_of_lookup htrie] at hle
  · intro p hp trie' htrie'
    rcases hcases p hp with hp | rfl
    · exact h.served_loaded p hp trie' htrie'
    · rw [htrie] at htrie'
      exact UInt64.le_of_eq (congrArg TrieRoot.revision (Option.some.inj htrie'))
  · intro p hp hnone
    rcases hcases p hp with hp | rfl
    · exact h.served_holding p hp hnone
    · rw [htrie] at hnone
      cases hnone
  · apply List.pairwise_append.mpr
    refine ⟨h.monotone, List.pairwise_singleton _ _, ?_⟩
    intro p hp _ hq hpq
    rw [List.mem_singleton.mp hq] at hpq ⊢
    exact h.served_loaded p hp trie (hpq ▸ htrie)

def fresh (db : Map TenantPolicyBundle) : Replica ι := ⟨db, ⟨∅⟩, fun _ ↦ .idle, []⟩

theorem ok_fresh {db : Map TenantPolicyBundle}
    (hdb : ∀ t bundle, db.lookup t = some bundle → 1 ≤ bundle.revision) :
    (fresh db : Replica ι).Ok where
  db_pos := hdb
  loaded_le t := UInt64.zero_le
  holding_pos i u hu := by cases hu
  holding_le i u hu := by cases hu
  served_le p hp := by cases hp
  served_loaded p hp := by cases hp
  served_holding p hp := by cases hp
  monotone := .nil

variable [DecidableEq ι] (hash compilePolicySet)

def setLoading (r : Replica ι) (loader : ι) (phase : Loading) : Replica ι :=
  { r with loading := update r.loading loader phase }

def step (r : Replica ι) : Event ι → Option (Replica ι)
  | .commit tenantId policies inheritances => r.commit tenantId policies inheritances
  | .start loader trigger tenantId =>
    match r.loading loader with
    | .idle =>
      if trigger.admitted r.state tenantId then
        some (r.setLoading loader (.started tenantId trigger.revision))
      else none
    | _ => none
  | .read loader =>
    match r.loading loader with
    | .started tenantId revision =>
      match readBundle compilePolicySet r.db tenantId revision with
      | .ok u => some (r.setLoading loader (.holding u))
      | .error _ => some (r.setLoading loader .idle)
    | _ => none
  | .giveUp loader => some (r.setLoading loader .idle)
  | .publish loader orders =>
    match r.loading loader with
    | .holding u =>
      some { r.setLoading loader .idle with
        state := (updateTenantPoliciesWithRevision hash).call r.state (u, orders) }
    | _ => none
  | .unload tenantId => some { r with state := stateWithoutTenant r.state tenantId }
  | .decide tenantId =>
    match r.state.tenants.lookup tenantId with
    | some trie => some { r with served := r.served ++ [(tenantId, trie.revision)] }
    | none => none

inductive Step (r : Replica ι) : Event ι → Replica ι → Prop
  | commit {tenantId : String} {policies : List PolicySource}
      {inheritances : List (String × String)} {r' : Replica ι}
      (h : r.commit tenantId policies inheritances = some r') :
      Step r (.commit tenantId policies inheritances) r'
  | start {loader : ι} {trigger : Trigger} {tenantId : String} (hi : r.loading loader = .idle)
      (h : trigger.admitted r.state tenantId) :
      Step r (.start loader trigger tenantId)
        (r.setLoading loader (.started tenantId trigger.revision))
  | read {loader : ι} {tenantId : String} {revision : UInt64} {u : Update}
      (hi : r.loading loader = .started tenantId revision)
      (h : readBundle compilePolicySet r.db tenantId revision = .ok u) :
      Step r (.read loader) (r.setLoading loader (.holding u))
  | fail {loader : ι} {tenantId : String} {revision : UInt64}
      (hi : r.loading loader = .started tenantId revision) :
      Step r (.read loader) (r.setLoading loader .idle)
  | giveUp {loader : ι} : Step r (.giveUp loader) (r.setLoading loader .idle)
  | publish {loader : ι} {orders : ℕ → RoleDag.MapOrders} {u : Update}
      (hi : r.loading loader = .holding u) :
      Step r (.publish loader orders) { r.setLoading loader .idle with
        state := (updateTenantPoliciesWithRevision hash).call r.state (u, orders) }
  | unload {tenantId : String} :
      Step r (.unload tenantId) { r with state := stateWithoutTenant r.state tenantId }
  | decide {tenantId : String} {trie : TrieRoot}
      (h : r.state.tenants.lookup tenantId = some trie) :
      Step r (.decide tenantId) { r with served := r.served ++ [(tenantId, trie.revision)] }

variable {hash compilePolicySet} {loader : ι}

theorem step_cases {e : Event ι} (hs : r.step hash compilePolicySet e = some r') :
    r.Step hash compilePolicySet e r' := by
  cases e with
  | commit => exact .commit hs
  | start =>
    simp only [Replica.step] at hs
    split at hs
    · split_ifs at hs
      cases hs
      exact .start ‹_› ‹_›
    · cases hs
  | read =>
    simp only [Replica.step] at hs
    split at hs
    · split at hs <;> cases hs
      · exact .read ‹_› ‹_›
      · exact .fail ‹_›
    · cases hs
  | giveUp =>
    cases hs
    exact .giveUp
  | publish =>
    simp only [Replica.step] at hs
    split at hs <;> cases hs
    exact .publish ‹_›
  | unload =>
    cases hs
    exact .unload
  | decide =>
    simp only [Replica.step] at hs
    split at hs <;> cases hs
    exact .decide ‹_›

omit [DecidableEq ι] in
theorem lookup_call {u : Update} {orders : ℕ → RoleDag.MapOrders} {state : EngineState} {t : String}
    (ht : t ≠ u.tenantId) :
    ((updateTenantPoliciesWithRevision hash).call state (u, orders)).tenants.lookup t =
      state.tenants.lookup t := by
  unfold Locked.call
  split
  · rename_i hp
    obtain ⟨rfl, -⟩ := prepare_eq_ok.mp hp
    simp only [updateTenantPoliciesWithRevision, publishTenantTrie]
    split_ifs
    · rfl
    · rfl
    · exact lookup_stateWithTenant_ne ht
  · rfl

theorem lookup_step {e : Event ι} {t : String} (h : r.step hash compilePolicySet e = some r')
    (hpublish : ∀ loader orders u, e = .publish loader orders → r.loading loader = .holding u →
      t ≠ u.tenantId) :
    r'.state.tenants.lookup t = r.state.tenants.lookup t ∨
      e = .unload t ∧ r'.state.tenants.lookup t = none := by
  cases step_cases h with
  | commit hcommit =>
    simp only [Replica.commit] at hcommit
    split at hcommit
    · cases hcommit
    · split_ifs at hcommit
      cases hcommit
      exact .inl rfl
  | start => exact .inl rfl
  | read => exact .inl rfl
  | fail => exact .inl rfl
  | giveUp => exact .inl rfl
  | publish hu => exact .inl (lookup_call (hpublish _ _ _ rfl hu))
  | @unload tenantId =>
    by_cases ht : t = tenantId
    · subst ht
      exact .inr ⟨rfl, AList.lookup_erase _ _⟩
    · exact .inl (AList.lookup_erase_ne ht)
  | decide => exact .inl rfl

theorem Ok.setLoading (h : r.Ok) {phase : Loading}
    (hphase : ∀ u, phase = .holding u → 1 ≤ u.revision ∧ u.revision = r.committed u.tenantId) :
    (r.setLoading loader phase).Ok := by
  refine ⟨h.db_pos, h.loaded_le, ?_, ?_, h.served_le, h.served_loaded, ?_, h.monotone⟩
  · intro i u hu
    rcases eq_or_of_update hu with hu | hu
    · exact (hphase u hu).1
    · exact h.holding_pos i u hu
  · intro i u hu
    rcases eq_or_of_update hu with hu | hu
    · exact UInt64.le_of_eq (hphase u hu).2
    · exact h.holding_le i u hu
  · intro p hp hnone i u hu hut
    rcases eq_or_of_update hu with hu | hu
    · rw [(hphase u hu).2, hut]
      exact h.served_le p hp
    · exact h.served_holding p hp hnone i u hu hut

theorem Ok.step (h : r.Ok) {e : Event ι} (hquiet : r.UnloadsQuietly e)
    (hs : r.step hash compilePolicySet e = some r') : r'.Ok := by
  cases step_cases hs with
  | commit hcommit => exact h.commit hcommit
  | start => exact h.setLoading (by simp)
  | @read _ tenantId _ _ _ hu =>
    obtain ⟨ht, bundle, hbundle, hrev⟩ := readBundle_eq_ok hu
    apply h.setLoading
    intro _ hu'
    cases hu'
    rw [ht, committed_of_lookup hbundle]
    exact ⟨hrev ▸ h.db_pos tenantId bundle hbundle, hrev⟩
  | fail => exact h.setLoading (by simp)
  | giveUp => exact h.setLoading (by simp)
  | @publish loader orders u hu =>
    have hidle : (r.setLoading loader .idle).Ok := h.setLoading (by simp)
    refine hidle.publish (h.holding_pos loader u hu) (h.holding_le loader u hu) ?_ orders
    intro p hp hnone hut
    exact h.served_holding p hp hnone loader u hu hut
  | unload => exact h.unload hquiet
  | decide htrie => exact h.decide htrie

/-- Decisions never go back to an older revision in a run whose unloads find no
older bundle of the tenant on its way into memory. -/
theorem served_never_backwards (hash : String → UInt64)
    (compilePolicySet : List PolicySource → Except String (List PolicyNode))
    {db : Map TenantPolicyBundle}
    (hdb : ∀ t bundle, db.lookup t = some bundle → 1 ≤ bundle.revision) {events : List (Event ι)}
    (hquiet : Meets (step hash compilePolicySet) UnloadsQuietly (fresh db) events) :
    Always (step hash compilePolicySet) NeverBackwards (fresh db) events := by
  refine always_of_invariant ?_ (fun _ h ↦ Ok.monotone h) (ok_fresh hdb) hquiet
  intro _ _ _ h hq hs
  exact h.step hq hs

def newTenant : Map TenantPolicyBundle := Map.ofList [("t1", ⟨[], [], 1⟩)]

def lazyCycle : List (Event Unit) :=
  [.start () .lazyLoad "t1", .read (), .publish () fun _ ↦ .uniform .listed, .decide "t1",
    .commit "t1" [] [], .unload "t1", .start () .lazyLoad "t1", .read (),
    .publish () fun _ ↦ .uniform .listed, .decide "t1"]

theorem served_never_backwards_lazyCycle :
    (run (step (fun _ ↦ 0) (fun _ ↦ .ok [])) (fresh newTenant) lazyCycle).map served =
        some [("t1", 1), ("t1", 2)] ∧
      Always (step (fun _ ↦ 0) (fun _ ↦ .ok [])) NeverBackwards (fresh newTenant) lazyCycle := by
  refine ⟨rfl, ?_⟩
  apply served_never_backwards
  · intro t _ hbundle
    by_cases ht : t = "t1"
    · subst ht
      cases hbundle
      decide
    · rw [newTenant, Map.ofList, List.foldl_cons, List.foldl_nil, AList.lookup_insert_ne ht] at hbundle
      cases hbundle
  · exact .cons trivial rfl <| .cons trivial rfl <| .cons trivial rfl <| .cons trivial rfl <|
      .cons trivial rfl <| .cons (fun _ _ hu ↦ by cases hu) rfl <| .cons trivial rfl <|
      .cons trivial rfl <| .cons trivial rfl <| .cons trivial rfl trivial

def overtakenLoad : List (Event Bool) :=
  [.start false .lazyLoad "t1", .read false, .commit "t1" [] [], .start true (.event 2) "t1",
    .read true, .publish true fun _ ↦ .uniform .listed, .decide "t1", .unload "t1",
    .publish false fun _ ↦ .uniform .listed, .decide "t1"]

theorem overtakenLoad_serves_older_revision :
    (run (step (fun _ ↦ 0) (fun _ ↦ .ok [])) (fresh newTenant) overtakenLoad).map served =
        some [("t1", 2), ("t1", 1)] ∧
      ¬ Always (step (fun _ ↦ 0) (fun _ ↦ .ok [])) NeverBackwards (fresh newTenant)
        overtakenLoad := by
  obtain ⟨r, hrun, hserved⟩ : ∃ r : Replica Bool,
      run (step (fun _ ↦ 0) (fun _ ↦ .ok [])) (fresh newTenant) overtakenLoad = some r ∧
        r.served = [("t1", 2), ("t1", 1)] := ⟨_, rfl, rfl⟩
  refine ⟨by rw [hrun, Option.map_some, hserved], ?_⟩
  intro h
  have hlast := h.last hrun
  rw [NeverBackwards, hserved] at hlast
  exact absurd hlast (by decide)

end Replica

end PolicyEngine.Engine

import PolicyEngine.Concurrent.Locked
import PolicyEngine.Engine.OrderFree

namespace PolicyEngine.Engine

open PolicyEngine.Concurrent PolicyEngine.Go PolicyEngine.Parser PolicyEngine.Trace

structure EngineState where
  tenants : Map TrieRoot

def revisionIsStale (oldState : EngineState) (tenantId : String) (revision : UInt64) : Bool :=
  match oldState.tenants.lookup tenantId with
  | some current => revision > 0 ∧ revision < current.revision
  | none => false

def revisionIsDuplicate (oldState : EngineState) (tenantId : String) (revision : UInt64) : Bool :=
  match oldState.tenants.lookup tenantId with
  | some current => revision > 0 ∧ revision = current.revision
  | none => false

def stateWithTenant (oldState : EngineState) (tenantId : String) (tenantTrie : TrieRoot) :
    EngineState :=
  ⟨oldState.tenants.insert tenantId tenantTrie⟩

def stateWithoutTenant (oldState : EngineState) (tenantId : String) : EngineState :=
  ⟨oldState.tenants.erase tenantId⟩

def EngineState.revision (state : EngineState) (tenantId : String) : UInt64 :=
  match state.tenants.lookup tenantId with
  | some trie => trie.revision
  | none => 0

inductive UpdateError
  | build (text : String)
  | stale (tenantId : String) (current received : UInt64)

def UpdateError.text : UpdateError → String
  | .build text => text
  | .stale tenantId current received =>
    "stale policy revision: tenant=" ++ tenantId ++ " current=" ++
      Strconv.formatNat current.toNat ++ " received=" ++ Strconv.formatNat received.toNat

/-- The arguments of `UpdateTenantPoliciesWithRevision`. -/
structure Update where
  tenantId : String
  policies : List (Option PolicyNode)
  inheritances : List (String × String)
  revision : UInt64

/-- What the call does while it holds `writeMu`: the state to publish, if any,
and what the caller is told. -/
def publishTenantTrie (tenantId : String) (revision : UInt64) (newTrie : TrieRoot)
    (oldState : EngineState) : Option EngineState × Except UpdateError Unit :=
  if revisionIsStale oldState tenantId revision then
    (none, .error (.stale tenantId (oldState.revision tenantId) revision))
  else if revisionIsDuplicate oldState tenantId revision then (none, .ok ())
  else (some (stateWithTenant oldState tenantId newTrie), .ok ())

variable (hash : String → UInt64)

/-- One call with the orders in which it ranges over its maps. The trie is
built before the lock is taken. -/
def updateTenantPoliciesWithRevision :
    Locked (Update × (ℕ → RoleDag.MapOrders)) (Update × TrieRoot) EngineState
      (Except UpdateError Unit) where
  prepare j :=
    match buildTenantTrie hash j.2 j.1.tenantId j.1.policies j.1.inheritances j.1.revision with
    | .ok trie => .ok (j.1, trie)
    | .error e => .error (.error (.build e))
  commit u := publishTenantTrie u.1.tenantId u.1.revision u.2

section Publish

variable {state : EngineState} {tenantId : String} {revision : UInt64} {trie : TrieRoot}

theorem lookup_stateWithTenant_ne {t : String} (h : t ≠ tenantId) :
    (stateWithTenant state tenantId trie).tenants.lookup t = state.tenants.lookup t :=
  AList.lookup_insert_ne h

theorem lookup_stateWithTenant :
    (stateWithTenant state tenantId trie).tenants.lookup tenantId = some trie :=
  AList.lookup_insert _

theorem revision_of_lookup (h : state.tenants.lookup tenantId = some trie) :
    state.revision tenantId = trie.revision := by
  rw [EngineState.revision, h]

theorem publishTenantTrie_cases (state : EngineState) (tenantId : String) (trie : TrieRoot)
    (hrev : 1 ≤ revision) :
    ((publishTenantTrie tenantId revision trie state).1 = none ∧
        ∃ current, state.tenants.lookup tenantId = some current ∧ revision ≤ current.revision) ∨
      ((publishTenantTrie tenantId revision trie state).1 = some (stateWithTenant state tenantId trie) ∧
        ∀ current, state.tenants.lookup tenantId = some current → current.revision < revision) := by
  have hpos : revision > 0 := by
    rw [UInt64.le_iff_toNat_le] at hrev
    rw [gt_iff_lt, UInt64.lt_iff_toNat_lt]
    exact hrev
  unfold publishTenantTrie revisionIsStale revisionIsDuplicate
  cases hcur : state.tenants.lookup tenantId with
  | none => simp
  | some current =>
    by_cases hlt : revision < current.revision
    · left
      simp [hpos, hlt, UInt64.le_of_lt hlt]
    · by_cases heq : revision = current.revision
      · left
        rw [heq] at hpos
        simp [heq, gt_iff_lt.mp hpos]
      · right
        have hgt : current.revision < revision := by
          rw [UInt64.lt_iff_toNat_lt] at hlt ⊢
          have hne : revision.toNat ≠ current.revision.toNat := fun h ↦ heq (UInt64.toNat_inj.mp h)
          omega
        simp [hlt, heq, hgt]

end Publish

def Update.Builds (u : Update) (orders : ℕ → RoleDag.MapOrders) (trie : TrieRoot) : Prop :=
  buildTenantTrie hash orders u.tenantId u.policies u.inheritances u.revision = .ok trie

section Call

variable {hash} {u : Update} {orders : ℕ → RoleDag.MapOrders} {trie : TrieRoot}

theorem Update.Builds.revision (h : u.Builds hash orders trie) : trie.revision = u.revision := by
  rcases buildTenantTrie_spec hash orders u.tenantId u.policies u.inheritances u.revision with
    ⟨trie', hok, _, _, hrev, _⟩ | ⟨⟨e, herr⟩, _⟩
  · rw [h] at hok
    rw [Except.ok.inj hok, hrev]
  · rw [h] at herr
    cases herr

theorem prepare_eq_ok {p : Update × TrieRoot} :
    (updateTenantPoliciesWithRevision hash).prepare (u, orders) = .ok p ↔
      p.1 = u ∧ u.Builds hash orders p.2 := by
  simp only [updateTenantPoliciesWithRevision, Update.Builds]
  cases hb : buildTenantTrie hash orders u.tenantId u.policies u.inheritances u.revision with
  | error => simp
  | ok =>
    simp only [Except.ok.injEq]
    constructor
    · intro h
      subst h
      exact ⟨rfl, rfl⟩
    · intro h
      exact Prod.ext h.1.symm h.2

variable (hash orders) in
theorem call_cases (hrev : 1 ≤ u.revision) (state : EngineState) :
    ((updateTenantPoliciesWithRevision hash).call state (u, orders) = state ∧
        ∀ trie, u.Builds hash orders trie → ∃ current,
          state.tenants.lookup u.tenantId = some current ∧ u.revision ≤ current.revision) ∨
      ∃ trie, u.Builds hash orders trie ∧
        (∀ current, state.tenants.lookup u.tenantId = some current →
          current.revision < u.revision) ∧
        (updateTenantPoliciesWithRevision hash).call state (u, orders) =
          stateWithTenant state u.tenantId trie := by
  unfold Locked.call
  split
  · next p hp =>
    obtain ⟨h₁, h₂⟩ := prepare_eq_ok.mp hp
    simp only [updateTenantPoliciesWithRevision, h₁]
    rcases publishTenantTrie_cases state u.tenantId p.2 hrev with ⟨hnone, hcur⟩ | ⟨hsome, hcur⟩
    · rw [hnone]
      exact .inl ⟨rfl, fun _ _ ↦ hcur⟩
    · rw [hsome]
      exact .inr ⟨p.2, h₂, hcur, rfl⟩
  · next hr =>
    refine .inl ⟨rfl, ?_⟩
    intro trie htrie
    have hok : (updateTenantPoliciesWithRevision hash).prepare (u, orders) = .ok (u, trie) :=
      prepare_eq_ok.mpr ⟨rfl, htrie⟩
    rw [hr] at hok
    cases hok

end Call

section Converge

variable {hash} {ι : Type} (updates : ι → Update) (orders : ι → ℕ → RoleDag.MapOrders)

/-- No update of the tenant that builds has a higher revision. -/
def Highest (hash : String → UInt64) (updates : ι → Update) (orders : ι → ℕ → RoleDag.MapOrders)
    (i : ι) : Prop :=
  (∃ trie, (updates i).Builds hash (orders i) trie) ∧
    ∀ j trie, (updates j).tenantId = (updates i).tenantId → (updates j).Builds hash (orders j) trie →
      (updates j).revision ≤ (updates i).revision

def jobs (i : ι) : Update × (ℕ → RoleDag.MapOrders) := (updates i, orders i)

variable {updates orders} {i : ι} {trie : TrieRoot} {t : String}

/-- The state after some of the calls, made one after the other: no trie is
older than an update of its tenant that built, and each is the one from the
start or comes from one of the calls. -/
structure Settled (hash : String → UInt64) (updates : ι → Update)
    (orders : ι → ℕ → RoleDag.MapOrders) (init : EngineState) (order : List ι)
    (state : EngineState) : Prop where
  newest : ∀ i ∈ order, ∀ trie, (updates i).Builds hash (orders i) trie →
    ∃ current, state.tenants.lookup (updates i).tenantId = some current ∧
      (updates i).revision ≤ current.revision
  grows : ∀ t current, init.tenants.lookup t = some current →
    ∃ current', state.tenants.lookup t = some current' ∧ current.revision ≤ current'.revision
  origin : ∀ t, state.tenants.lookup t = init.tenants.lookup t ∨
    ∃ i ∈ order, ∃ trie, (updates i).tenantId = t ∧ (updates i).Builds hash (orders i) trie ∧
      state.tenants.lookup t = some trie ∧
      ∀ current, init.tenants.lookup t = some current → current.revision < (updates i).revision

theorem settled_nil (init : EngineState) : Settled hash updates orders init [] init where
  newest i hi := by cases hi
  grows t current hcur := ⟨current, hcur, UInt64.le_refl _⟩
  origin t := .inl rfl

theorem Settled.publish {init state : EngineState} {order : List ι}
    (h : Settled hash updates orders init order state) (htrie : (updates i).Builds hash (orders i) trie)
    (hnewer : ∀ current, state.tenants.lookup (updates i).tenantId = some current →
      current.revision < (updates i).revision) :
    Settled hash updates orders init (order ++ [i])
      (stateWithTenant state (updates i).tenantId trie) := by
  have hkeeps : ∀ t current, state.tenants.lookup t = some current →
      ∃ current', (stateWithTenant state (updates i).tenantId trie).tenants.lookup t =
        some current' ∧ current.revision ≤ current'.revision := by
    intro t current hcur
    by_cases ht : t = (updates i).tenantId
    · subst ht
      refine ⟨trie, lookup_stateWithTenant, ?_⟩
      rw [htrie.revision]
      exact UInt64.le_of_lt (hnewer current hcur)
    · exact ⟨current, (lookup_stateWithTenant_ne ht).trans hcur, UInt64.le_refl _⟩
  refine ⟨?_, ?_, ?_⟩
  · intro j hj trie' htrie'
    rcases List.mem_append.mp hj with hj | hj
    · obtain ⟨current, hcur, hle⟩ := h.newest j hj trie' htrie'
      obtain ⟨current', hcur', hle'⟩ := hkeeps _ current hcur
      exact ⟨current', hcur', UInt64.le_trans hle hle'⟩
    · rw [List.mem_singleton.mp hj]
      exact ⟨trie, lookup_stateWithTenant, htrie.revision ▸ UInt64.le_refl _⟩
  · intro t current hcur
    obtain ⟨current', hcur', hle⟩ := h.grows t current hcur
    obtain ⟨current'', hcur'', hle'⟩ := hkeeps t current' hcur'
    exact ⟨current'', hcur'', UInt64.le_trans hle hle'⟩
  · intro t
    by_cases ht : t = (updates i).tenantId
    · subst ht
      refine .inr ⟨i, by simp, trie, rfl, htrie, lookup_stateWithTenant, ?_⟩
      intro current hcur
      obtain ⟨current', hcur', hle⟩ := h.grows _ current hcur
      exact UInt64.lt_of_le_of_lt hle (hnewer current' hcur')
    · rw [lookup_stateWithTenant_ne ht]
      refine (h.origin t).imp_right ?_
      intro hfrom
      obtain ⟨j, hj, trie', hrest⟩ := hfrom
      exact ⟨j, List.mem_append_left _ hj, trie', hrest⟩

theorem Settled.call (hrev : ∀ i, 1 ≤ (updates i).revision) {init state : EngineState}
    {order : List ι} (h : Settled hash updates orders init order state) (i : ι) :
    Settled hash updates orders init (order ++ [i])
      ((updateTenantPoliciesWithRevision hash).call state (jobs updates orders i)) := by
  rcases call_cases hash (orders i) (hrev i) state with ⟨hsame, hnewer⟩ | ⟨trie, htrie, hnewer, hnew⟩
  · rw [jobs, hsame]
    refine ⟨?_, h.grows, ?_⟩
    · intro j hj trie htrie
      rcases List.mem_append.mp hj with hj | hj
      · exact h.newest j hj trie htrie
      · rw [List.mem_singleton.mp hj] at htrie ⊢
        exact hnewer trie htrie
    · intro t
      refine (h.origin t).imp_right ?_
      intro hfrom
      obtain ⟨j, hj, hrest⟩ := hfrom
      exact ⟨j, List.mem_append_left _ hj, hrest⟩
  · rw [jobs, hnew]
    exact h.publish htrie hnewer

theorem settled_foldl (hrev : ∀ i, 1 ≤ (updates i).revision) (init : EngineState)
    (order : List ι) :
    Settled hash updates orders init order (order.foldl
      (fun s i ↦ (updateTenantPoliciesWithRevision hash).call s (jobs updates orders i)) init) := by
  induction order using List.reverseRecOn with
  | nil => exact settled_nil init
  | append_singleton _ i ih =>
    rw [List.foldl_append]
    exact ih.call hrev i

theorem cell_step [DecidableEq ι] {init : EngineState} {order : List ι}
    {w w' : World ι (Update × TrieRoot) EngineState (Except UpdateError Unit)}
    (hw : (updateTenantPoliciesWithRevision hash).Linear (jobs updates orders) init w order)
    (hs : (updateTenantPoliciesWithRevision hash).step (jobs updates orders) w i = some w') :
    w'.cell = w.cell ∨ ∃ trie, (updates i).Builds hash (orders i) trie ∧
      revisionIsStale w.cell (updates i).tenantId (updates i).revision = false ∧
      w'.cell = stateWithTenant w.cell (updates i).tenantId trie := by
  rcases Locked.step_cases hs with ⟨u, _, _, rfl⟩ | ⟨r, _, _, rfl⟩ | ⟨u, _, _, rfl⟩ | ⟨u, _, rfl⟩ |
    ⟨u, old, hp, rfl⟩ | ⟨r, _, rfl⟩
  case inr.inr.inr.inr.inl =>
    have hfits := hw.fits i
    have hold := hw.fresh i
    rw [hp] at hfits hold
    obtain ⟨hu, hbuilds⟩ := prepare_eq_ok.mp hfits
    have hcell : old = w.cell := hold
    subst hcell
    simp only [updateTenantPoliciesWithRevision, publishTenantTrie, hu]
    split_ifs with hstale hdup
    · exact .inl rfl
    · exact .inl rfl
    · exact .inr ⟨u.2, hbuilds, Bool.eq_false_iff.mpr hstale, rfl⟩
  all_goals exact .inl rfl

/-- Concurrent updates converge. Whatever the interleaving, once all calls are
over a tenant has the trie of its highest update that builds, or the one it had
when no such update is newer; a step that is not the publication of a newer
trie leaves the state as it was; and every interleaving comes to its end. -/
theorem updates_converge [DecidableEq ι] [Fintype ι] (hash : String → UInt64)
    (updates : ι → Update) (orders : ι → ℕ → RoleDag.MapOrders)
    (hrev : ∀ i, 1 ≤ (updates i).revision)
    (hsame : ∀ i j, (updates i).tenantId = (updates j).tenantId →
      (updates i).revision = (updates j).revision → updates i = updates j)
    (init : EngineState) {schedule : List ι}
    {w : World ι (Update × TrieRoot) EngineState (Except UpdateError Unit)}
    (hrun : run ((updateTenantPoliciesWithRevision hash).step (jobs updates orders))
      (Locked.start init) schedule = some w) :
    (w.Finished → ∀ t,
      ((∀ i trie, (updates i).tenantId = t → (updates i).Builds hash (orders i) trie →
          ∃ current, init.tenants.lookup t = some current ∧
            (updates i).revision ≤ current.revision) →
        w.cell.tenants.lookup t = init.tenants.lookup t) ∧
      ∀ i, (updates i).tenantId = t → Highest hash updates orders i →
        (∀ current, init.tenants.lookup t = some current →
          current.revision < (updates i).revision) →
        ∃ j trie, updates j = updates i ∧ (updates j).Builds hash (orders j) trie ∧
          w.cell.tenants.lookup t = some trie) ∧
    (∀ i w', (updateTenantPoliciesWithRevision hash).step (jobs updates orders) w i = some w' →
      w'.cell = w.cell ∨ ∃ trie, (updates i).Builds hash (orders i) trie ∧
        revisionIsStale w.cell (updates i).tenantId (updates i).revision = false ∧
        w'.cell = stateWithTenant w.cell (updates i).tenantId trie) ∧
    (∃ rest w', run ((updateTenantPoliciesWithRevision hash).step (jobs updates orders)) w rest =
      some w' ∧ w'.Finished) ∧
    schedule.length ≤ 5 * Fintype.card ι := by
  obtain ⟨order, hlin⟩ := Locked.run_linear hrun
  have hlen := Locked.length_add_remaining hrun
  rw [Locked.remaining_start] at hlen
  refine ⟨?_, fun i w' hs ↦ cell_step hlin hs, hlin.completes, by omega⟩
  intro hend t
  have hset : Settled hash updates orders init order w.cell := by
    rw [hlin.cell_eq]
    exact settled_foldl hrev init order
  refine ⟨?_, ?_⟩
  · intro hold
    rcases hset.origin t with h | ⟨i, _, trie, hi, htrie, _, hnewer⟩
    · exact h
    · obtain ⟨current, hcur, hle⟩ := hold i trie hi htrie
      exact absurd (hnewer current hcur) (UInt64.not_lt.mpr hle)
  · intro i hi hhigh hnewer
    obtain ⟨⟨trie₀, htrie₀⟩, hmax⟩ := hhigh
    -- Every call that built is past the lock by now.
    have hmem : i ∈ order := by
      obtain ⟨_, hr⟩ := hend i
      refine (hlin.mem_order i).mpr ⟨by rw [hr]; rfl, (updates i, trie₀), ?_⟩
      exact prepare_eq_ok.mpr ⟨rfl, htrie₀⟩
    obtain ⟨current, hcur, hle⟩ := hset.newest i hmem trie₀ htrie₀
    rw [hi] at hcur
    rcases hset.origin t with h | ⟨j, _, trie, hj, htrie, hlookup, _⟩
    · rw [h] at hcur
      exact absurd (hnewer current hcur) (UInt64.not_lt.mpr hle)
    · have heq : trie = current := Option.some.inj (hlookup.symm.trans hcur)
      have hge : (updates i).revision ≤ (updates j).revision := by
        rw [← htrie.revision, heq]
        exact hle
      have hji : (updates j).tenantId = (updates i).tenantId := hj.trans hi.symm
      have hrevs : (updates j).revision = (updates i).revision :=
        UInt64.le_antisymm (hmax j trie hji htrie) hge
      exact ⟨j, trie, hsame j i hji hrevs, htrie, hlookup⟩

end Converge

def twoRevisions (i : Fin 2) : Update where
  tenantId := "t1"
  policies := []
  inheritances := [("user:alice", "role:buyer")]
  revision := if i = 0 then 1 else 2

/-- The older update is built first and reaches the lock last. -/
theorem updates_converge_late :
    ∃ w trie, run ((updateTenantPoliciesWithRevision fun _ ↦ 0).step
        (jobs twoRevisions fun _ _ ↦ .uniform .listed)) (Locked.start ⟨∅⟩)
        [0, 1, 1, 1, 1, 1, 0, 0, 0, 0] = some w ∧
      w.cell.tenants.lookup "t1" = some trie ∧ trie.revision = 2 := by
  obtain ⟨w, hw⟩ : ∃ w, run ((updateTenantPoliciesWithRevision fun _ ↦ 0).step
      (jobs twoRevisions fun _ _ ↦ .uniform .listed)) (Locked.start ⟨∅⟩)
      [0, 1, 1, 1, 1, 1, 0, 0, 0, 0] = some w := ⟨_, rfl⟩
  have hend : w.Finished := by
    cases hw
    exact Fin.forall_fin_two.mpr ⟨⟨_, rfl⟩, ⟨_, rfl⟩⟩
  have hconv := updates_converge (fun _ ↦ 0) twoRevisions (fun _ _ ↦ .uniform .listed)
    (by decide) (by intro i j _ hrev; simp only [twoRevisions, Update.mk.injEq, true_and]; exact hrev)
    ⟨∅⟩ hw
  have hhigh : Highest (fun _ ↦ 0) twoRevisions (fun _ _ ↦ .uniform .listed) 1 := by
    have hmax : ∀ j, (twoRevisions j).revision ≤ (twoRevisions 1).revision := by decide
    exact ⟨⟨_, rfl⟩, fun j _ _ _ ↦ hmax j⟩
  obtain ⟨_, trie, hj, htrie, hlookup⟩ := (hconv.1 hend "t1").2 1 rfl hhigh (by
    intro _ hcur
    cases hcur)
  refine ⟨w, trie, hw, hlookup, ?_⟩
  rw [htrie.revision, hj]
  rfl

end PolicyEngine.Engine

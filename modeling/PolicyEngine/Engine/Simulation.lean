import PolicyEngine.Engine.EngineGC
import PolicyEngine.Engine.StoredTrie

namespace PolicyEngine.Engine

open PolicyEngine.Go PolicyEngine.Heap PolicyEngine.Parser

structure TenantBundle where
  policies : List (Option PolicyNode)
  roleDag : RoleDag
  revision : UInt64

variable (hash : String → UInt64)

def TenantBundle.trie (bundle : TenantBundle) (tenantId : String) : TrieRoot :=
  { newTrieRoot tenantId with
    revision := bundle.revision, roleDag := some bundle.roleDag }.addPolicies hash bundle.policies

def StoredTrie.build (σ : NodeStore) (tenantId : String) (bundle : TenantBundle) :
    StoredTrie × NodeStore :=
  { newStoredTrie tenantId with
    revision := bundle.revision, roleDag := some bundle.roleDag }.addPolicies hash σ bundle.policies

/-- The engine with its tries in a store. Whatever happened before, no node has
two parents and every root refers to allocated nodes. -/
structure StoredEngine where
  store : NodeStore
  tenants : Map StoredTrie
  lazyLoader : Option (Option CtxError → String → Option TenantBundle) := none
  owned : store.Owned
  bounded : ∀ tenantId trie, tenants.lookup tenantId = some trie → store.Bounded trie.subjects

variable {hash} in
theorem StoredTrie.built_build {σ : NodeStore} (hσ : σ.Owned) (tenantId : String)
    (bundle : TenantBundle) :
    Built hash σ (build hash σ tenantId bundle).1 (build hash σ tenantId bundle).2
      (bundle.trie hash tenantId) := by
  refine Built.addPolicies ⟨hσ, ?_, Store.region_next hσ, ?_, fun _ _ ↦ rfl, .refl _⟩
    bundle.policies
  · exact fun _ r hr ↦ nomatch hr
  · exact fun _ r hr ↦ nomatch hr

structure Request where
  ctxErr : Option CtxError := none
  tenantId : String
  subject : String
  action : String
  resource : String
  ctxMap : Map String := ∅

namespace StoredEngine

def install (e : StoredEngine) (tenantId : String) (bundle : TenantBundle) : StoredEngine where
  store := (StoredTrie.build hash e.store tenantId bundle).2
  tenants := e.tenants.insert tenantId (StoredTrie.build hash e.store tenantId bundle).1
  lazyLoader := e.lazyLoader
  owned := (StoredTrie.built_build e.owned tenantId bundle).owned
  bounded t trie htrie := by
    have hbuilt : StoredTrie.Built hash e.store _ _ _ :=
      StoredTrie.built_build e.owned tenantId bundle
    by_cases ht : t = tenantId
    · subst ht
      rw [AList.lookup_insert] at htrie
      exact Option.some.inj htrie ▸ hbuilt.bounded
    · rw [AList.lookup_insert_ne ht] at htrie
      exact fun w r hr ↦ Nat.lt_of_lt_of_le (e.bounded t trie htrie w r hr) hbuilt.region.le_next

def getTenantTrie (e : StoredEngine) (ctxErr : Option CtxError) (tenantId : String) :
    Option StoredTrie × StoredEngine :=
  match e.tenants.lookup tenantId with
  | some trie => (some trie, e)
  | none =>
    match e.lazyLoader.bind (· ctxErr tenantId) with
    | some bundle =>
      (some (StoredTrie.build hash e.store tenantId bundle).1, e.install hash tenantId bundle)
    | none => (none, e)

def checkPermission (e : StoredEngine) (req : Request) : DecisionResult × StoredEngine :=
  match req.ctxErr with
  | some err =>
    ({ decision := .deny, reason := "Yêu cầu bị hủy hoặc hết thời gian chờ: " ++ err.text }, e)
  | none =>
    match e.getTenantTrie hash none req.tenantId with
    | (none, e) =>
      ({ decision := .deny, reason := "Tenant không tồn tại hoặc chưa được nạp chính sách" }, e)
    | (some trie, e) =>
      ({ Engine.checkPermission hash none (some (trie.view e.store)) req.subject req.action
          req.resource req.ctxMap with policyRevision := trie.revision }, e)

theorem bounded_getTenantTrie (e : StoredEngine) (ctxErr : Option CtxError) (tenantId : String) :
    ∀ trie ∈ (e.getTenantTrie hash ctxErr tenantId).1,
      (e.getTenantTrie hash ctxErr tenantId).2.store.Bounded trie.subjects := by
  intro _ htrie
  unfold getTenantTrie at htrie ⊢
  cases hloaded : e.tenants.lookup tenantId with
  | some trie' =>
    rw [hloaded] at htrie
    exact Option.some.inj htrie ▸ e.bounded tenantId trie' hloaded
  | none =>
    rw [hloaded] at htrie
    cases hbundle : e.lazyLoader.bind (· ctxErr tenantId) with
    | none => simp [hbundle] at htrie
    | some bundle =>
      simp only [hbundle, Option.mem_some_iff] at htrie
      exact htrie ▸ (StoredTrie.built_build e.owned tenantId bundle).bounded

/-- The root `SimulateDecision` starts from: the subject buckets are copied, the
nodes in them are not. -/
def simTrie (tenantId : String) : Option StoredTrie → StoredTrie
  | none => newStoredTrie tenantId
  | some trie =>
    { newStoredTrie tenantId with
      subjects := trie.subjects
      globalPolicies := trie.globalPolicies
      roleDag := trie.roleDag }

theorem bounded_simTrie {σ : NodeStore} (tenantId : String) {trie : Option StoredTrie}
    (h : ∀ t ∈ trie, σ.Bounded t.subjects) : σ.Bounded (simTrie tenantId trie).subjects := by
  cases trie with
  | none => exact fun _ r hr ↦ nomatch hr
  | some trie => exact h trie rfl

def simulateDecision (e : StoredEngine) (simPolicy : Option PolicyNode) (req : Request) :
    DecisionResult × StoredEngine :=
  let trie := (e.getTenantTrie hash req.ctxErr req.tenantId).1
  let live := (e.getTenantTrie hash req.ctxErr req.tenantId).2
  let sim := (simTrie req.tenantId trie).addPolicy hash live.store simPolicy
  have hsim := StoredTrie.owned_addPolicy live.owned
    (bounded_simTrie req.tenantId (e.bounded_getTenantTrie hash req.ctxErr req.tenantId)) simPolicy
  (Engine.checkPermission hash (req.ctxErr.map CtxError.text) (some (sim.1.view sim.2)) req.subject
      req.action req.resource req.ctxMap,
    { live with
      store := sim.2
      owned := hsim.1
      bounded := fun t trie htrie w r hr ↦
        Nat.lt_of_lt_of_le (live.bounded t trie htrie w r hr) hsim.2.2 })

inductive Call
  | check (req : Request)
  | simulate (simPolicy : Option PolicyNode) (req : Request)

def Call.isCheck : Call → Bool
  | .check _ => true
  | .simulate _ _ => false

/-- The answers to the `CheckPermission` calls of a run. -/
def run : StoredEngine → List Call → List DecisionResult
  | _, [] => []
  | e, .check req :: calls => (e.checkPermission hash req).1 :: run (e.checkPermission hash req).2 calls
  | e, .simulate simPolicy req :: calls => run (e.simulateDecision hash simPolicy req).2 calls

/-- The trie a tenant has, in memory or with the loader. -/
def serves (e : StoredEngine) (ctxErr : Option CtxError) (tenantId : String) : Option TrieRoot :=
  match e.tenants.lookup tenantId with
  | some trie => some (trie.view e.store)
  | none => (e.lazyLoader.bind (· ctxErr tenantId)).map (·.trie hash tenantId)

/-- A draft that shares no node with the tenant's trie: there is none, it goes to
the global partition, or its principal has no subject node yet. -/
def DraftApart (e : StoredEngine) (simPolicy : Option PolicyNode) (req : Request) : Prop :=
  ∀ draft ∈ simPolicy, isGlobal draft = true ∨
    ∀ root ∈ e.serves hash req.ctxErr req.tenantId,
      root.hasSubject hash (buildKey draft.principal) = false

def DraftsApart : StoredEngine → List Call → Prop
  | _, [] => True
  | e, .check req :: calls => DraftsApart (e.checkPermission hash req).2 calls
  | e, .simulate simPolicy req :: calls =>
    e.DraftApart hash simPolicy req ∧ DraftsApart (e.simulateDecision hash simPolicy req).2 calls

/-- The database does not change: what the loader reads under a context that is
done, it also reads under a live one. -/
def Steady (e : StoredEngine) : Prop :=
  ∀ load ∈ e.lazyLoader, ∀ err tenantId bundle,
    load err tenantId = some bundle → load none tenantId = some bundle

variable {hash} {e e' : StoredEngine} {ctxErr : Option CtxError} {tenantId : String}

theorem rel_refl (o : Option TrieRoot) : Option.Rel (SameContents hash) o o := by
  cases o with
  | none => exact .none
  | some t => exact .some (.refl t)

theorem rel_trans {o o' o'' : Option TrieRoot} (h : Option.Rel (SameContents hash) o o')
    (h' : Option.Rel (SameContents hash) o' o'') : Option.Rel (SameContents hash) o o'' := by
  cases h with
  | none => exact h'
  | some h =>
    cases h' with
    | some h' => exact .some (h.trans h')

variable (hash) in
theorem getTenantTrie_refines (e : StoredEngine) (ctxErr : Option CtxError) (tenantId : String) :
    Option.Rel (fun trie root ↦
        SameContents hash (trie.view (e.getTenantTrie hash ctxErr tenantId).2.store) root)
      (e.getTenantTrie hash ctxErr tenantId).1 (e.serves hash ctxErr tenantId) := by
  unfold getTenantTrie serves
  cases e.tenants.lookup tenantId with
  | some => exact .some (.refl _)
  | none =>
    cases e.lazyLoader.bind (· ctxErr tenantId) with
    | none => exact .none
    | some bundle => exact .some (StoredTrie.built_build e.owned tenantId bundle).contents

theorem lazyLoader_getTenantTrie :
    (e.getTenantTrie hash ctxErr tenantId).2.lazyLoader = e.lazyLoader := by
  unfold getTenantTrie
  cases e.tenants.lookup tenantId with
  | some => rfl
  | none => cases e.lazyLoader.bind (· ctxErr tenantId) <;> rfl

theorem serves_getTenantTrie (hsteady : e.Steady) (ctxErr : Option CtxError)
    (tenantId t : String) :
    Option.Rel (SameContents hash) ((e.getTenantTrie hash ctxErr tenantId).2.serves hash none t)
      (e.serves hash none t) := by
  unfold getTenantTrie
  cases hloaded : e.tenants.lookup tenantId with
  | some => exact rel_refl _
  | none =>
    cases hbundle : e.lazyLoader.bind (· ctxErr tenantId) with
    | none => exact rel_refl _
    | some bundle =>
      have hbuilt : StoredTrie.Built hash e.store _ _ _ :=
        StoredTrie.built_build e.owned tenantId bundle
      -- The new trie holds what the loader reads; the others lie below the new cells.
      by_cases ht : t = tenantId
      · subst ht
        obtain ⟨load, hload, hread⟩ := Option.bind_eq_some_iff.mp hbundle
        have hlive : e.lazyLoader.bind (· none t) = some bundle :=
          Option.bind_eq_some_iff.mpr ⟨load, hload, hsteady load hload ctxErr t bundle hread⟩
        simp only [serves, install, AList.lookup_insert, hloaded, hlive, Option.map_some]
        exact .some hbuilt.contents
      · simp only [serves, install, AList.lookup_insert_ne ht]
        cases htrie : e.tenants.lookup t with
        | none => exact rel_refl _
        | some trie =>
          exact .some (StoredTrie.view_of_agree e.owned (e.bounded t trie htrie) hbuilt.agrees)

theorem find_simTrie_of_apart {simPolicy : Option PolicyNode} {req : Request}
    (hapart : e.DraftApart hash simPolicy req) :
    ∀ draft ∈ simPolicy, isGlobal draft = true ∨
      (e.getTenantTrie hash req.ctxErr req.tenantId).2.store.find
        ((simTrie req.tenantId (e.getTenantTrie hash req.ctxErr req.tenantId).1).subjects
          (hash (buildKey draft.principal))) (buildKey draft.principal) = none := by
  intro draft hdraft
  refine (hapart draft hdraft).imp_right fun hroot ↦ ?_
  have href := e.getTenantTrie_refines hash req.ctxErr req.tenantId
  cases htrie : (e.getTenantTrie hash req.ctxErr req.tenantId).1 with
  | none => rfl
  | some trie =>
    rw [htrie] at href
    obtain ⟨root, hserves, hsame⟩ : ∃ root, e.serves hash req.ctxErr req.tenantId = some root ∧
        SameContents hash (trie.view (e.getTenantTrie hash req.ctxErr req.tenantId).2.store)
          root := by
      generalize e.serves hash req.ctxErr req.tenantId = served at href
      cases href with
      | some h => exact ⟨_, rfl, h⟩
    have hnone := (hsame.hasSubject (buildKey draft.principal)).trans (hroot root hserves)
    rw [StoredTrie.hasSubject_view] at hnone
    simpa [simTrie] using hnone

theorem serves_simulateDecision (hsteady : e.Steady) {simPolicy : Option PolicyNode}
    {req : Request} (hapart : e.DraftApart hash simPolicy req) (t : String) :
    Option.Rel (SameContents hash) ((e.simulateDecision hash simPolicy req).2.serves hash none t)
      (e.serves hash none t) := by
  refine rel_trans ?_ (serves_getTenantTrie hsteady req.ctxErr req.tenantId t)
  have hfind := find_simTrie_of_apart hapart
  have hbounded := bounded_simTrie req.tenantId
    (e.bounded_getTenantTrie hash req.ctxErr req.tenantId)
  simp only [simulateDecision, serves]
  generalize (e.getTenantTrie hash req.ctxErr req.tenantId).2 = live at *
  obtain ⟨-, hagree, -⟩ := StoredTrie.addPolicy_frame live.owned hbounded
    (Store.region_next live.owned) simPolicy
    fun draft hdraft ↦ (hfind draft hdraft).imp_right fun hnone r hr ↦ nomatch hnone.symm.trans hr
  cases htrie : live.tenants.lookup t with
  | none => exact rel_refl _
  | some trie =>
    exact .some (StoredTrie.view_of_agree live.owned (live.bounded t trie htrie) hagree)

/-- A stored engine and an engine of values that have the same tries. -/
def Represents (hash : String → UInt64) (e : StoredEngine) (p : EngineWithGC) : Prop :=
  ∀ t, Option.Rel (SameContents hash) (e.serves hash none t) (p.getTenantTrie t).1

theorem checkPermission_refines {p : EngineWithGC} (h : e.Represents hash p) (req : Request) :
    (e.checkPermission hash req).1 =
      (p.checkPermission hash req.ctxErr req.tenantId req.subject req.action req.resource
        req.ctxMap).1 := by
  have href := e.getTenantTrie_refines hash none req.tenantId
  have hrep := h req.tenantId
  unfold checkPermission EngineWithGC.checkPermission
  cases req.ctxErr with
  | some => rfl
  | none =>
    dsimp only
    generalize e.serves hash none req.tenantId = served at href hrep
    rcases he : e.getTenantTrie hash none req.tenantId with ⟨_, _⟩
    rcases hp : p.getTenantTrie req.tenantId with ⟨_, _⟩
    rw [he] at href
    rw [hp] at hrep
    cases href with
    | none =>
      cases hrep with
      | none => rfl
    | some htrie =>
      cases hrep with
      | some hroot =>
        have hsame := htrie.trans hroot
        simp only [Engine.checkPermission, hsame.evaluatePermission]
        rw [← hsame.revision]
        rfl

theorem steady_of_lazyLoader (h : e'.lazyLoader = e.lazyLoader) (hsteady : e.Steady) :
    e'.Steady := by
  unfold Steady
  rw [h]
  exact hsteady

theorem checkPermission_keeps (hsteady : e.Steady) (req : Request) :
    (e.checkPermission hash req).2.Steady ∧
      ∀ t, Option.Rel (SameContents hash) ((e.checkPermission hash req).2.serves hash none t)
        (e.serves hash none t) := by
  have hstate : (e.checkPermission hash req).2 = e ∨
      (e.checkPermission hash req).2 = (e.getTenantTrie hash none req.tenantId).2 := by
    unfold checkPermission
    cases req.ctxErr with
    | some => exact .inl rfl
    | none => rcases e.getTenantTrie hash none req.tenantId with ⟨trie | trie, live⟩ <;> exact .inr rfl
  rcases hstate with hstate | hstate
  · rw [hstate]
    exact ⟨hsteady, fun t ↦ rel_refl _⟩
  · rw [hstate]
    exact ⟨steady_of_lazyLoader lazyLoader_getTenantTrie hsteady,
      serves_getTenantTrie hsteady none req.tenantId⟩

def checks (calls : List Call) : List Request :=
  calls.filterMap fun
    | .check req => some req
    | .simulate _ _ => none

theorem run_refines {p : EngineWithGC} {calls : List Call} (hsteady : e.Steady)
    (h : e.Represents hash p) (hapart : e.DraftsApart hash calls) :
    e.run hash calls = (checks calls).map fun req ↦
      (p.checkPermission hash req.ctxErr req.tenantId req.subject req.action req.resource
        req.ctxMap).1 := by
  -- The engine of values stays as it is; each call leaves the stored one with its tries.
  induction calls generalizing e with
  | nil => rfl
  | cons call _ ih =>
    cases call with
    | check req =>
      obtain ⟨hsteady', hserves⟩ := checkPermission_keeps hsteady req
      have hrest := ih hsteady' (fun t ↦ rel_trans (hserves t) (h t)) hapart
      exact congrArg₂ List.cons (checkPermission_refines h req) hrest
    | simulate =>
      obtain ⟨hdraft, hrest⟩ := hapart
      refine ih (steady_of_lazyLoader ?_ hsteady) (fun t ↦ ?_) hrest
      · exact lazyLoader_getTenantTrie
      · exact rel_trans (serves_simulateDecision hsteady hdraft t) (h t)

def snapshot (hash : String → UInt64) (e : StoredEngine) : EngineWithGC where
  tenants := ∅
  lazyLoader := some (e.serves hash none)

theorem represents_snapshot (e : StoredEngine) : e.Represents hash (e.snapshot hash) := by
  intro t
  have hget : ((e.snapshot hash).getTenantTrie t).1 = e.serves hash none t := by
    simp only [EngineWithGC.getTenantTrie, snapshot, AList.lookup_empty, Option.bind_some]
    cases e.serves hash none t <;> rfl
  rw [hget]
  exact rel_refl _

theorem draftsApart_filter (calls : List Call) :
    e.DraftsApart hash (calls.filter Call.isCheck) := by
  induction calls generalizing e with
  | nil => trivial
  | cons call _ ih =>
    cases call with
    | check => exact ih
    | simulate => exact ih

theorem checks_filter (calls : List Call) : checks (calls.filter Call.isCheck) = checks calls := by
  induction calls with
  | nil => rfl
  | cons call _ ih =>
    cases call with
    | check req => exact congrArg (req :: ·) ih
    | simulate => exact ih

/-- Simulations whose drafts share no node with the trie of their tenant leave
every later answer as it would have been without them. -/
theorem simulation_frame (hash : String → UInt64) (e : StoredEngine) (calls : List Call)
    (hsteady : e.Steady) (hapart : e.DraftsApart hash calls) :
    e.run hash calls = e.run hash (calls.filter Call.isCheck) := by
  rw [run_refines hsteady (represents_snapshot e) hapart,
    run_refines hsteady (represents_snapshot e) (draftsApart_filter calls), checks_filter]

def newEngine : StoredEngine where
  store := ⟨fun _ ↦ .blank "", 0⟩
  tenants := ∅
  owned := ⟨fun h ↦ (nomatch h), fun h ↦ (nomatch h), fun _ ↦ ⟨fun _ ↦ rfl, rfl⟩⟩
  bounded _ _ h := nomatch h

def aliceReads : StoredEngine :=
  newEngine.install fnvHash "t1"
    { policies := [some {
        id := "p-read"
        effect := .permit
        principal := some ⟨.eq, "user", "alice"⟩
        action := some ⟨.eq, "action", "READ"⟩
        resource := some ⟨.eq, "file", "report"⟩ }]
      roleDag := RoleDag.newRoleDag
      revision := 7 }

def writeDraft (user : String) : PolicyNode where
  id := "SIMULATED_CANDIDATE"
  effect := .permit
  principal := some ⟨.eq, "user", user⟩
  action := some ⟨.eq, "action", "WRITE"⟩
  resource := some ⟨.eq, "file", "report"⟩

def writes (user : String) : Request where
  tenantId := "t1"
  subject := "user:" ++ user
  action := "WRITE"
  resource := "file:report"

theorem simulation_frame_bob :
    aliceReads.DraftsApart fnvHash [.simulate (some (writeDraft "bob")) (writes "bob"),
        .check (writes "bob"), .check (writes "alice")] ∧
      aliceReads.run fnvHash [.simulate (some (writeDraft "bob")) (writes "bob"),
        .check (writes "bob"), .check (writes "alice")] =
      aliceReads.run fnvHash [.check (writes "bob"), .check (writes "alice")] := by
  have hsteady : aliceReads.Steady := by
    have hnone : aliceReads.lazyLoader = none := rfl
    intro _ hload
    rw [hnone] at hload
    exact nomatch hload
  have hapart : aliceReads.DraftsApart fnvHash
      [.simulate (some (writeDraft "bob")) (writes "bob"), .check (writes "bob"),
        .check (writes "alice")] := by
    refine ⟨fun draft hdraft ↦ .inr fun root hroot ↦ ?_, trivial⟩
    obtain rfl := Option.some.inj hdraft
    obtain rfl := Option.some.inj hroot
    rfl
  exact ⟨hapart, simulation_frame fnvHash aliceReads _ hsteady hapart⟩

theorem simulated_draft_goes_live :
    (aliceReads.run fnvHash [.check (writes "alice")]).map DecisionResult.decision = [.deny] ∧
      (aliceReads.run fnvHash [.simulate (some (writeDraft "alice")) (writes "alice"),
        .check (writes "alice")]).map DecisionResult.decision = [.allow] := by
  constructor <;> rfl

end StoredEngine

end PolicyEngine.Engine

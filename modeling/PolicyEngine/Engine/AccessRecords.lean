import PolicyEngine.Engine.EngineGC
import PolicyEngine.Engine.StateWriter

namespace PolicyEngine.Engine

open Function PolicyEngine.Go PolicyEngine.Trace

/-- How far a call on the engine is: a check or a simulation up to `rereading`, an
update, the touch with which all of them end, and the collector. -/
inductive AccessCall
  | idle
  | checking (tenantId : String)
  | getting (tenantId : String)
  | loading (tenantId : String)
  | rereading (tenantId : String)
  | updating (tenantId : String) (revision : Option UInt64) (newTrie : TrieRoot)
  | touching (tenantId : String)
  | stamping (record : ℕ)
  | collecting (now : Int64) (toUnload : List String)
  | unloading (toUnload : List String)
  /-- The lock is held: the state is stored, and the record still to be deleted. -/
  | deleting (tenantId : String) (toUnload : List String)

def AccessCall.entry : AccessCall → Bool
  | .checking _ | .getting _ | .updating _ _ _ | .collecting _ [] | .unloading [_] => true
  | _ => false

/-- The engine with its access records, by their addresses. `late` is a record: the
tenant was touched while it was not loaded, and since then it has not been published
and its access record has not been deleted. -/
structure AccessEngine (ι : Type) where
  state : EngineState
  records : Map ℕ
  lastAccess : ℕ → Int64
  allocated : ℕ
  locked : Bool
  calls : ι → AccessCall
  late : String → Bool

/-- A call starts or goes on: with the time it reads, whether its loader succeeds, and
the record its range visits. -/
inductive AccessEvent (ι : Type)
  | start (i : ι) (call : AccessCall)
  | next (i : ι) (now : Int64) (ok : Bool) (key : Option String)

def AccessEvent.caller {ι : Type} : AccessEvent ι → ι
  | .start i _ | .next i _ _ _ => i

namespace AccessEngine

variable {ι : Type}

def opened : AccessEngine ι :=
  ⟨⟨∅⟩, ∅, fun _ ↦ 0, 0, false, fun _ ↦ .idle, fun _ ↦ false⟩

def unloadTenant (s : AccessEngine ι) (t : String) : AccessEngine ι :=
  if t ∈ s.state.tenants then
    { s with state := stateWithoutTenant s.state t, records := s.records.erase t }
  else s

def toUnload (maxIdle now : Int64) (s : AccessEngine ι) : List String :=
  (s.records.entries.filter fun r ↦ now - s.lastAccess r.2 > maxIdle).map (·.1)

/-- `runGCCycle` on its own. -/
def runGCCycle (maxIdle now : Int64) (s : AccessEngine ι) : AccessEngine ι :=
  (s.toUnload maxIdle now).foldl unloadTenant s

def published (state : EngineState) (t : String) (revision : Option UInt64) (newTrie : TrieRoot) :
    Option EngineState :=
  match revision with
  | some revision => (publishTenantTrie t revision newTrie state).1
  | none => some (stateWithTenant state t { newTrie with revision := state.revision t + 1 })

def Deleting (s : AccessEngine ι) (t : String) : Prop := ∃ i ts, s.calls i = .deleting t ts

structure Ok (t : String) (s : AccessEngine ι) : Prop where
  unloaded : t ∉ s.state.tenants → ¬ s.Deleting t → (t ∈ s.records ↔ s.late t = true)
  loaded : t ∈ s.state.tenants → s.late t = false

variable {s s' : AccessEngine ι} {t u : String}

theorem Ok.frame (h : Ok t s) (htenants : t ∈ s'.state.tenants ↔ t ∈ s.state.tenants)
    (hrecords : t ∈ s'.records ↔ t ∈ s.records) (hlate : s'.late t = s.late t)
    (hdeleting : s.Deleting t → s'.Deleting t) : Ok t s' where
  unloaded ht hdel := by
    rw [hrecords, hlate]
    exact h.unloaded (mt htenants.mpr ht) (mt hdeleting hdel)
  loaded ht := by
    rw [hlate]
    exact h.loaded (htenants.mp ht)

theorem published_eq_some {state state' : EngineState} {revision : Option UInt64} {trie : TrieRoot}
    (h : published state t revision trie = some state') :
    ∃ trie', state' = stateWithTenant state t trie' := by
  unfold published publishTenantTrie at h
  split at h
  · split_ifs at h
    exact ⟨_, (Option.some.inj h).symm⟩
  · exact ⟨_, (Option.some.inj h).symm⟩

theorem mem_foldl_unloadTenant (ts : List String) (s : AccessEngine ι) (t : String) :
    (t ∈ (ts.foldl unloadTenant s).state.tenants ↔ t ∈ s.state.tenants ∧ t ∉ ts) ∧
      (t ∈ (ts.foldl unloadTenant s).records ↔
        t ∈ s.records ∧ ¬ (t ∈ s.state.tenants ∧ t ∈ ts)) := by
  induction ts generalizing s with
  | nil => simp
  | cons u ts ih =>
    rw [List.foldl_cons, (ih _).1, (ih _).2, List.mem_cons]
    unfold unloadTenant
    split_ifs with hu
    · simp only [stateWithoutTenant, AList.mem_erase]
      grind
    · grind

theorem mem_runGCCycle {maxIdle now : Int64}
    (hidle : ∀ t r, s.records.lookup t = some r → now - s.lastAccess r > maxIdle) :
    (t ∈ (s.runGCCycle maxIdle now).state.tenants ↔ t ∈ s.state.tenants ∧ t ∉ s.records) ∧
      (t ∈ (s.runGCCycle maxIdle now).records ↔ t ∈ s.records ∧ t ∉ s.state.tenants) := by
  have hall : (s.records.entries.filter fun r ↦ now - s.lastAccess r.2 > maxIdle) =
      s.records.entries :=
    List.filter_eq_self.mpr fun r hr ↦ decide_eq_true (hidle r.1 r.2 (AList.mem_lookup_iff.mpr hr))
  have hkeys : t ∈ s.toUnload maxIdle now ↔ t ∈ s.records := by
    rw [toUnload, hall]
    rfl
  unfold runGCCycle
  rw [(mem_foldl_unloadTenant _ s t).1, (mem_foldl_unloadTenant _ s t).2, hkeys]
  tauto

theorem lookup_unloadTenant : (s.unloadTenant u).state.tenants.lookup t =
    if t = u then none else s.state.tenants.lookup t := by
  unfold unloadTenant
  split_ifs with hu ht ht
  · rw [ht]
    exact AList.lookup_erase _ _
  · exact AList.lookup_erase_ne ht
  · rw [ht]
    exact AList.lookup_eq_none.mpr hu
  · rfl

theorem lookup_foldl_unloadTenant (ts : List String) (s : AccessEngine ι) (t : String) :
    (ts.foldl unloadTenant s).state.tenants.lookup t =
      if t ∈ ts then none else s.state.tenants.lookup t := by
  induction ts generalizing s with
  | nil => rfl
  | cons u ts ih =>
    rw [List.foldl_cons, ih, lookup_unloadTenant]
    by_cases ht : t = u <;> simp [ht]

/-- A cycle takes the idle tenants from memory and touches no other: the next check finds
what it would have found, or has to go to the loader, if there is one. -/
theorem checkPermission_runGCCycle (s : AccessEngine ι) (maxIdle now : Int64)
    (hash : String → UInt64) (loader : Option (String → Option TrieRoot)) (ctxErr : Option CtxError)
    (t subject action resource : String) (context : Map String) :
    ((⟨(s.runGCCycle maxIdle now).state.tenants, loader⟩ : EngineWithGC).checkPermission hash ctxErr t
        subject action resource context).1 =
      ((⟨if t ∈ s.toUnload maxIdle now then ∅ else s.state.tenants, loader⟩ :
        EngineWithGC).checkPermission hash ctxErr t subject action resource context).1 := by
  have hlookup : (s.runGCCycle maxIdle now).state.tenants.lookup t =
      (if t ∈ s.toUnload maxIdle now then (∅ : Map TrieRoot) else s.state.tenants).lookup t := by
    rw [runGCCycle, lookup_foldl_unloadTenant]
    split_ifs <;> rfl
  unfold EngineWithGC.checkPermission EngineWithGC.getTenantTrie
  cases ctxErr with
  | some => rfl
  | none =>
    dsimp only
    rw [hlookup]
    generalize AList.lookup t _ = trie
    cases trie <;> cases loader.bind (· t) <;> rfl

theorem idle_of_entries {r : ℕ} {maxIdle now : Int64} (hentries : s.records.entries = [⟨t, r⟩])
    (hlast : now - s.lastAccess r > maxIdle) :
    ∀ t r, s.records.lookup t = some r → now - s.lastAccess r > maxIdle := by
  intro t r h
  have hmem := AList.mem_lookup_iff.mp h
  rw [hentries] at hmem
  cases List.mem_singleton.mp hmem
  exact hlast

variable [DecidableEq ι]

def goto (s : AccessEngine ι) (i : ι) (call : AccessCall) : AccessEngine ι :=
  { s with calls := update s.calls i call }

variable (lazyLoader : Bool) (maxIdle : Int64)

def step (s : AccessEngine ι) : AccessEvent ι → Option (AccessEngine ι)
  | .start i call =>
    match s.calls i with
    | .idle => if call.entry then some (s.goto i call) else none
    | _ => none
  | .next i now ok key =>
    match s.calls i with
    | .idle => none
    | .checking t => some (s.goto i (if t ∈ s.state.tenants then .touching t else .getting t))
    | .getting t =>
      some (s.goto i (if t ∈ s.state.tenants then .touching t
        else if lazyLoader then .loading t else .idle))
    | .loading t => some (s.goto i (if ok then .rereading t else .idle))
    | .rereading t => some (s.goto i (if t ∈ s.state.tenants then .touching t else .idle))
    | .updating t revision newTrie =>
      if s.locked then none
      else
        match published s.state t revision newTrie with
        | some state => some ({ s with
            state := state
            late := update s.late t false }.goto i (.touching t))
        | none => some (s.goto i .idle)
    | .touching t =>
      let late := if t ∈ s.state.tenants then s.late else update s.late t true
      match s.records.lookup t with
      | some r => some ({ s with late := late }.goto i (.stamping r))
      | none => some ({ s with
          records := s.records.insert t s.allocated
          lastAccess := update s.lastAccess s.allocated 0
          allocated := s.allocated + 1
          late := late }.goto i (.stamping s.allocated))
    | .stamping r => some ({ s with lastAccess := update s.lastAccess r now }.goto i .idle)
    | .collecting start toUnload =>
      match key with
      | some t =>
        (s.records.lookup t).map fun r ↦
          if start - s.lastAccess r > maxIdle then s.goto i (.collecting start (toUnload ++ [t]))
          else s
      | none => some (s.goto i (.unloading toUnload))
    | .unloading [] => some (s.goto i .idle)
    | .unloading (t :: ts) =>
      if s.locked then none
      else if t ∈ s.state.tenants then
        some ({ s with state := stateWithoutTenant s.state t, locked := true }.goto i
          (.deleting t ts))
      else some (s.goto i (.unloading ts))
    | .deleting t ts => some ({ s with
        records := s.records.erase t
        locked := false
        late := update s.late t false }.goto i (.unloading ts))

/-- What a step of the call `i` can do. -/
inductive Change (s : AccessEngine ι) (i : ι) : AccessEngine ι → Prop
  | move {call : AccessCall} {lastAccess : ℕ → Int64} (hi : ∀ t ts, s.calls i ≠ .deleting t ts) :
      Change s i ({ s with lastAccess }.goto i call)
  | publish {u : String} {trie : TrieRoot} {call : AccessCall}
      (hi : ∀ t ts, s.calls i ≠ .deleting t ts) :
      Change s i ({ s with
        state := stateWithTenant s.state u trie
        late := update s.late u false }.goto i call)
  | touch {u : String} {records : Map ℕ} {lastAccess : ℕ → Int64} {allocated : ℕ}
      {call : AccessCall} (hi : s.calls i = .touching u)
      (hrecords : ∀ k, k ∈ records ↔ k = u ∨ k ∈ s.records) :
      Change s i ({ s with
        records := records
        lastAccess := lastAccess
        allocated := allocated
        late := if u ∈ s.state.tenants then s.late else update s.late u true }.goto i call)
  | unload {u : String} {ts : List String} (hi : ∀ t ts, s.calls i ≠ .deleting t ts) :
      Change s i ({ s with state := stateWithoutTenant s.state u, locked := true }.goto i
        (.deleting u ts))
  | delete {u : String} {ts : List String} {call : AccessCall} (hi : s.calls i = .deleting u ts) :
      Change s i ({ s with
        records := s.records.erase u
        locked := false
        late := update s.late u false }.goto i call)

variable {lazyLoader maxIdle} {i : ι} {call : AccessCall} {e : AccessEvent ι}

theorem step_cases (hs : s.step lazyLoader maxIdle e = some s') : s.Change e.caller s' := by
  cases e with
  | start i call =>
    simp only [step] at hs
    split at hs
    case h_1 hi =>
      split_ifs at hs
      cases hs
      exact .move fun _ _ ↦ hi ▸ AccessCall.noConfusion
    case h_2 => cases hs
  | next i now ok key =>
    by_cases hdel : ∃ u ts, s.calls i = .deleting u ts
    · obtain ⟨u, ts, hi⟩ := hdel
      simp only [step, hi] at hs
      cases hs
      exact .delete hi
    · have hi : ∀ t ts, s.calls i ≠ .deleting t ts := fun t ts hts ↦ hdel ⟨t, ts, hts⟩
      simp only [step] at hs
      split at hs
      case h_1 => cases hs
      case h_6 u revision newTrie _ =>
        split_ifs at hs
        cases hpub : published s.state u revision newTrie with
        | none =>
          simp only [hpub] at hs
          cases hs
          exact .move hi
        | some =>
          obtain ⟨trie, rfl⟩ := published_eq_some hpub
          simp only [hpub] at hs
          cases hs
          exact .publish hi
      case h_7 u hcall =>
        cases hlookup : s.records.lookup u with
        | none =>
          simp only [hlookup] at hs
          cases hs
          exact .touch hcall fun _ ↦ AList.mem_insert _
        | some =>
          have hu : u ∈ s.records := AList.lookup_isSome.mp (by rw [hlookup]; rfl)
          simp only [hlookup] at hs
          cases hs
          exact .touch hcall fun _ ↦ ⟨.inr, fun hk ↦ hk.elim (fun hk ↦ hk ▸ hu) id⟩
      case h_9 =>
        split at hs
        · obtain ⟨r, -, rfl⟩ := Option.map_eq_some_iff.mp hs
          split_ifs
          · exact .move hi
          · have hstay : s.Change i (s.goto i (s.calls i)) := .move hi
            rwa [goto, update_eq_self] at hstay
        · cases hs
          exact .move hi
      case h_11 =>
        split_ifs at hs
        · cases hs
          exact .unload hi
        · cases hs
          exact .move hi
      case h_12 u ts hcall => exact absurd ⟨u, ts, hcall⟩ hdel
      all_goals
        cases hs
        exact .move hi

theorem deleting_goto (hi : ∀ ts, s.calls i ≠ .deleting t ts) (h : s.Deleting t) :
    (s.goto i call).Deleting t := by
  obtain ⟨j, ts, hj⟩ := h
  have hij : j ≠ i := fun hij ↦ hi ts (hij ▸ hj)
  exact ⟨j, ts, (update_of_ne hij _ _).trans hj⟩

theorem Ok.change (h : Ok t s) (hs : s.Change i s') : Ok t s' := by
  cases hs with
  | move hi => exact h.frame Iff.rfl Iff.rfl rfl (deleting_goto (hi t))
  | @publish u _ _ hi =>
    by_cases hu : t = u
    · subst hu
      exact ⟨fun ht ↦ absurd ((AList.mem_insert _).mpr (.inl rfl)) ht, fun _ ↦ update_self _ _ _⟩
    · exact h.frame ((AList.mem_insert _).trans (or_iff_right hu)) Iff.rfl (update_of_ne hu _ _)
        (deleting_goto (hi t))
  | @touch u _ _ _ _ hi hrecords =>
    by_cases hu : t = u
    · subst hu
      refine ⟨fun ht _ ↦ iff_of_true ((hrecords t).mpr (.inl rfl)) ?_, fun ht ↦ ?_⟩
      · exact (congrFun (if_neg ht) t).trans (update_self _ _ _)
      · exact (congrFun (if_pos ht) t).trans (h.loaded ht)
    · refine h.frame Iff.rfl ((hrecords t).trans (or_iff_right hu)) ?_
        (deleting_goto fun _ hcall ↦ by cases hi.symm.trans hcall)
      change (if u ∈ s.state.tenants then s.late else update s.late u true) t = s.late t
      split_ifs
      · rfl
      · exact update_of_ne hu _ _
  | @unload u ts hi =>
    by_cases hu : t = u
    · subst hu
      refine ⟨fun _ hdel ↦ absurd ⟨i, ts, update_self _ _ _⟩ hdel, fun ht ↦ ?_⟩
      exact absurd rfl (AList.mem_erase.mp ht).1
    · exact h.frame (AList.mem_erase.trans (and_iff_right hu)) Iff.rfl rfl (deleting_goto (hi t))
  | @delete u _ _ hi =>
    by_cases hu : t = u
    · subst hu
      have hlate : update s.late t false t = false := update_self _ _ _
      exact ⟨fun _ _ ↦ iff_of_false (fun hmem ↦ (AList.mem_erase.mp hmem).1 rfl)
        (Bool.eq_false_iff.mp hlate), fun _ ↦ hlate⟩
    · refine h.frame Iff.rfl (AList.mem_erase.trans (and_iff_right hu)) (update_of_ne hu _ _)
        (deleting_goto fun _ hcall ↦ ?_)
      rw [hi] at hcall
      exact hu (AccessCall.deleting.inj hcall).1.symm

/-- When every call has returned and every record is idle, a cycle leaves records of
loaded tenants only, exactly when no touch of a tenant came after its unloading. -/
theorem records_of_loaded_iff {schedule : List (AccessEvent ι)} {now : Int64}
    (hrun : run (step lazyLoader maxIdle) opened schedule = some s)
    (hreturned : ∀ i, s.calls i = .idle)
    (hidle : ∀ t r, s.records.lookup t = some r → now - s.lastAccess r > maxIdle) :
    (∀ t ∈ (s.runGCCycle maxIdle now).records, t ∈ (s.runGCCycle maxIdle now).state.tenants) ↔
      ∀ t, s.late t = false := by
  have hok (t : String) : Ok t s := by
    refine run_preserves (fun _ _ _ h hs ↦ h.change (step_cases hs)) ⟨fun _ _ ↦ ?_, fun ht ↦ ?_⟩ hrun
    · exact iff_of_false (AList.notMem_empty _) Bool.false_ne_true
    · exact absurd ht (AList.notMem_empty _)
  have hdeleting (t : String) : ¬ s.Deleting t := by
    intro ⟨i, ts, hi⟩
    rw [hreturned i] at hi
    cases hi
  refine forall_congr' fun t ↦ ?_
  rw [(mem_runGCCycle hidle).1, (mem_runGCCycle hidle).2]
  by_cases ht : t ∈ s.state.tenants
  · exact iff_of_true (fun hmem ↦ absurd ht hmem.2) ((hok t).loaded ht)
  · rw [← Bool.not_eq_true, ← (hok t).unloaded ht (hdeleting t)]
    exact ⟨fun h hmem ↦ ht (h ⟨hmem, ht⟩).1, fun h hmem ↦ absurd hmem.1 h⟩

/-- The step does not touch a tenant that is not loaded. -/
def TouchesLoaded (s : AccessEngine ι) (e : AccessEvent ι) : Prop :=
  ∀ t, s.calls e.caller = .touching t → t ∈ s.state.tenants

theorem late_change (hloaded : ∀ t, s.calls i = .touching t → t ∈ s.state.tenants)
    (hs : s.Change i s') (h : ∀ t, s.late t = false) : ∀ t, s'.late t = false := by
  cases hs with
  | move | unload => exact h
  | publish | delete =>
    intro t
    by_contra hlate
    exact (eq_or_of_update (Bool.eq_true_of_not_eq_false hlate)).elim nofun (by simp [h])
  | @touch u _ _ _ _ hi =>
    intro t
    exact (congrFun (if_pos (hloaded u hi)) t).trans (h t)

/-- So it leaves records of loaded tenants only when no step touches a tenant that is not
loaded. -/
theorem late_eq_false {schedule : List (AccessEvent ι)}
    (hmeets : Meets (step lazyLoader maxIdle) TouchesLoaded opened schedule)
    (hrun : run (step lazyLoader maxIdle) opened schedule = some s) (t : String) :
    s.late t = false := by
  have hstep (s : AccessEngine ι) (e : AccessEvent ι) (s' : AccessEngine ι)
      (h : ∀ t, s.late t = false) (hloaded : s.TouchesLoaded e)
      (hs : s.step lazyLoader maxIdle e = some s') : ∀ t, s'.late t = false :=
    late_change hloaded (step_cases hs) h
  exact run_invariant hstep (fun _ ↦ rfl) hmeets hrun t

def firstUpdate : List (AccessEvent Bool) :=
  [.start true (.updating "t" (some 1) (newTrieRoot "t")), .next true 0 true none,
    .next true 0 true none, .next true 1 true none, .start true (.checking "t"),
    .next true 0 true none]

/-- The tenant is published and checked, and loaded at both touches. -/
def loadedTouches : List (AccessEvent Bool) :=
  firstUpdate ++ [.next true 0 true none, .next true 21 true none]

theorem records_of_loaded_iff_loadedTouches : ∃ s,
    run (step true 10) opened loadedTouches = some s ∧ (∀ t, s.late t = false) ∧
    ((∀ t ∈ (s.runGCCycle 10 40).records, t ∈ (s.runGCCycle 10 40).state.tenants) ↔
      ∀ t, s.late t = false) := by
  obtain ⟨s, hrun, hcalls, hentries, hlast⟩ :
      ∃ s, run (step true 10) opened loadedTouches = some s ∧ (∀ i, s.calls i = .idle) ∧
        s.records.entries = [⟨"t", 0⟩] ∧ s.lastAccess 0 = 21 :=
    ⟨_, rfl, fun i ↦ by cases i <;> rfl, rfl, rfl⟩
  refine ⟨s, hrun, late_eq_false ?_ hrun, records_of_loaded_iff hrun hcalls ?_⟩
  · have hmem : "t" ∈ ["t"] := List.mem_singleton_self _
    exact .cons nofun rfl <| .cons nofun rfl <| .cons (fun | _, rfl => hmem) rfl <|
      .cons nofun rfl <| .cons nofun rfl <| .cons nofun rfl <| .cons (fun | _, rfl => hmem) rfl <|
      .cons nofun rfl trivial
  · exact idle_of_entries hentries (hlast ▸ by decide)

/-- A check has read the state when the collector unloads the tenant; its touch makes
a record that no cycle removes. -/
def lateTouch : List (AccessEvent Bool) :=
  firstUpdate ++ [.start false (.collecting 20 []), .next false 0 true (some "t"),
    .next false 0 true none, .next false 0 true none, .next false 0 true none,
    .next false 0 true none, .next true 0 true none, .next true 21 true none]

theorem lateTouch_leaks : ∃ s, run (step true 10) opened lateTouch = some s ∧
    (∀ i, s.calls i = .idle) ∧
    (∀ t r, s.records.lookup t = some r → (40 : Int64) - s.lastAccess r > 10) ∧
    ∃ t ∈ (s.runGCCycle 10 40).records, t ∉ (s.runGCCycle 10 40).state.tenants := by
  obtain ⟨s, hrun, hreturned, hentries, hlast, hrecords, htenants⟩ :
      ∃ s, run (step true 10) opened lateTouch = some s ∧ (∀ i, s.calls i = .idle) ∧
        s.records.entries = [⟨"t", 1⟩] ∧ s.lastAccess 1 = 21 ∧
        (s.runGCCycle 10 40).records.keys = ["t"] ∧ (s.runGCCycle 10 40).state.tenants.keys = [] :=
    ⟨_, rfl, fun i ↦ by cases i <;> rfl, rfl, rfl, rfl, rfl⟩
  refine ⟨s, hrun, hreturned, idle_of_entries hentries (hlast ▸ by decide), "t", ?_, ?_⟩
  · rw [AList.mem_keys, hrecords]
    exact List.mem_singleton_self _
  · rw [AList.mem_keys, htenants]
    exact List.not_mem_nil

end AccessEngine

end PolicyEngine.Engine

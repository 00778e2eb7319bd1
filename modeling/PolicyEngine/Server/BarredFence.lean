import PolicyEngine.Server.PolicyRequests

namespace PolicyEngine.Storage.World

open Function

variable {ι ρ : Type} {revision : ℕ} {i : ι}

structure Pending (revision : ℕ) (i : ι) (w : World ι ρ) : Prop where
  row : w.row = some ⟨revision, false, some i⟩
  holder : w.holder = none
  atRest : ∀ j, (w.phase j).AtRest

theorem Pending.phase_ne {w : World ι ρ} (h : w.Pending revision i) {j : ι} {p : Phase ι}
    (hp : ¬ p.AtRest) : w.phase j ≠ p := by
  intro hj
  exact hp (hj ▸ h.atRest j)

theorem Pending.not_authority {w : World ι ρ} (h : w.Pending revision i)
    (localRevision : Option ℕ) (policyRevisions : List (Option String)) :
    lockCurrentAuthority localRevision w.row policyRevisions ≠ .ok () := by
  unfold lockCurrentAuthority
  rw [h.row]
  split_ifs with hmissing hlocal hstale
  · simp
  · simp
  · simp
  · exact absurd rfl hstale

variable [DecidableEq ι] [DecidableEq ρ]

omit [DecidableEq ρ] in
theorem Pending.goto {w : World ι ρ} (h : w.Pending revision i) {j : ι} {p : Phase ι}
    (hp : p.AtRest) : (w.goto j p).Pending revision i where
  row := h.row
  holder := h.holder
  atRest := by
    intro k
    show (update w.phase j p k).AtRest
    by_cases hk : k = j
    · rw [hk, update_self]
      exact hp
    · rw [update_of_ne hk]
      exact h.atRest k

omit [DecidableEq ρ] in
theorem Pending.leave {w : World ι ρ} (h : w.Pending revision i) {j : ι} {p : Phase ι}
    (hp : p.AtRest) : ((w.rollback j).goto j p).Pending revision i := by
  have hrollback : w.rollback j = w := by
    unfold rollback
    rw [h.holder]
    rfl
  rw [hrollback]
  exact h.goto hp

/-- No step gets the fence out of this state: there is no owner left to publish
it, and everybody else needs it ready. -/
theorem Pending.step {tenant : String} {w w' : World ι ρ} {e : Event ι ρ}
    (h : w.Pending revision i) (hstep : w.step tenant e = some w') : w'.Pending revision i := by
  cases step_cases hstep with
  | begin => exact h.goto trivial
  | seed _ hseed =>
    simp only [World.seed, h.row] at hseed
    cases hseed
    exact h.goto trivial
  | mark _ hmark =>
    simp only [World.mark, h.row, h.holder] at hmark
    cases hmark
    exact h.leave trivial
  | commit hj => exact absurd hj (h.phase_ne id)
  | mutate hj => exact absurd hj (h.phase_ne id)
  | fetch hj => exact absurd hj (h.phase_ne id)
  | publish hj => exact absurd hj (h.phase_ne id)
  | crash => exact h.leave trivial
  | load => exact ⟨h.row, h.holder, h.atRest⟩
  | evaluate => exact h.goto trivial
  | ensure _ hensure =>
    simp only [World.ensure, h.row] at hensure
    cases hensure
    exact h.goto trivial
  | pass _ _ hok => exact absurd hok (h.not_authority _ _)
  | refuse => exact h.goto trivial
  | finish hj => exact absurd hj (h.phase_ne id)

end PolicyEngine.Storage.World

namespace PolicyEngine.Server.Site

open Function PolicyEngine.Storage PolicyEngine.Trace

variable {letter : Char → Bool} {json : Json} {ι ρ : Type} [DecidableEq ι] [DecidableEq ρ]

def raiseFence (i : ι) : List (SiteEvent ι ρ) :=
  [.fence (.begin i), .fence (.seed i), .fence (.mark i), .fence (.commit i)]

def Barred (tenant : String) (revision : ℕ) (i : ι) (s : Site letter json ι ρ) : Prop :=
  s.fence.Pending revision i ∧
    (∀ localRevision policyRevisions,
      lockCurrentAuthority localRevision s.fence.row policyRevisions ≠ .ok ()) ∧
    ∀ j, s.fence.mark tenant j = some (s.fence.goto j
      (.returned (.error ("ERP policy publication already pending for tenant " ++ tenant))))

variable {tenant : String} {revision : ℕ} {i : ι} {s t : Site letter json ι ρ} {e : SiteEvent ι ρ}

omit [DecidableEq ι] in
theorem eq_fenced_of_atMutation {p : Phase ι} (h : atMutation true p = true) : p = .fenced := by
  cases p <;> first | rfl | cases h

omit [DecidableEq ρ] in
theorem barred_of_pending (h : s.fence.Pending revision i) : s.Barred tenant revision i := by
  refine ⟨h, h.not_authority, ?_⟩
  intro _
  simp [World.mark, World.rollback, h.row, h.holder]

theorem pending_step (h : s.fence.Pending revision i) (hstep : s.step true tenant e = some t) :
    t.fence.Pending revision i := by
  cases e with
  | create =>
    obtain ⟨_, -, rfl⟩ := Option.map_eq_some_iff.mp hstep
    exact h
  | receive =>
    simp only [step] at hstep
    split at hstep
    · split at hstep <;> cases hstep
      · exact h
      · exact h.goto trivial
    · cases hstep
  | fence =>
    simp only [step] at hstep
    split at hstep
    · obtain ⟨_, hw, rfl⟩ := Option.map_eq_some_iff.mp hstep
      exact h.step hw
    · cases hstep
  | mutate j =>
    have hj := h.atRest j
    simp only [step] at hstep
    split at hstep
    · cases hstep
    · split at hstep
      · rename_i hmutation
        rw [eq_fenced_of_atMutation hmutation] at hj
        exact hj.elim
      · cases hstep

theorem run_raiseFence (tenant : String) {row : FenceRow ι} (hidle : s.fence.phase i = .idle)
    (hfree : s.fence.holder = none) (hrow : s.fence.row = some row)
    (hready : row.ready = true) :
    ∃ t, Trace.run (step true tenant) s (raiseFence i) = some t ∧
      t.policies = s.policies ∧ t.request = s.request ∧ t.fence.pdp = s.fence.pdp ∧
      t.fence.row = some ⟨row.revision, false, some i⟩ ∧ t.fence.holder = none ∧
      t.fence.phase i = .fenced ∧ ∀ j, j ≠ i → t.fence.phase j = s.fence.phase j := by
  refine ⟨{ s with fence :=
    { ((((s.fence.goto i .begun).goto i .seeded).goto i .marked).goto i .fenced) with
      row := some ⟨row.revision, false, some i⟩, holder := none, draft := none } }, ?_⟩
  refine ⟨?_, rfl, rfl, rfl, rfl, rfl, update_self _ _ _, ?_⟩
  · simp [Trace.run, raiseFence, step, permits, World.step, World.seed, World.mark, World.goto,
      hidle, hfree, hrow, hready]
  · intro _ hj
    simp [World.goto, update_of_ne hj]

theorem step_mutate_of_missing (fenced : Bool) (tenant : String) {r : Request letter json}
    (hr : s.request i = some r) (hphase : atMutation fenced (s.fence.phase i) = true)
    (hmissing : s.policies r.policyId = none) :
    s.step fenced tenant (.mutate i .settled) = some { s with
      fence := settle fenced s.fence i
        ⟨false, some (errPolicyNotFound ++ ": " ++ r.policyId)⟩ } := by
  simp only [step, hr, hphase, Request.mutate_of_missing hmissing, Fate.outcome, if_true]

/-- A mutation of a policy that does not exist changes nothing in the PDP. It
also leaves the fence as it was where none is configured; behind a fence it
leaves its publication pending, at the revision before, for good. -/
theorem missing_policy_leaves_fence_pending (tenant : String) (s : Site letter json ι ρ) (i : ι)
    (r : Request letter json) (row : FenceRow ι) (hr : s.request i = some r)
    (hidle : s.fence.phase i = .idle) (hrest : ∀ j, (s.fence.phase j).AtRest)
    (hfree : s.fence.holder = none) (hrow : s.fence.row = some row) (hready : row.ready = true)
    (hmissing : s.policies r.policyId = none) :
    (∃ t, s.step false tenant (.mutate i .settled) = some t ∧
      t.policies = s.policies ∧ t.fence.pdp = s.fence.pdp ∧ t.fence.row = s.fence.row ∧
      t.fence.phase i = .returned (.error (errPolicyNotFound ++ ": " ++ r.policyId))) ∧
    ∃ t, Trace.run (step true tenant) s (raiseFence i ++ [.mutate i .settled]) = some t ∧
      t.policies = s.policies ∧ t.fence.pdp = s.fence.pdp ∧
      t.fence.phase i = .returned (.error ("policy publication remains fenced pending recovery: " ++
        (errPolicyNotFound ++ ": " ++ r.policyId))) ∧
      ∀ schedule, Always (step true tenant) (Barred tenant row.revision i) t schedule := by
  constructor
  · refine ⟨_, step_mutate_of_missing false tenant hr (by rw [hidle]; rfl) hmissing, rfl, rfl, rfl, ?_⟩
    exact update_self _ _ _
  · obtain ⟨u, hrun, hpolicies, hrequest, hpdp, hpending, hholder, hfenced, hothers⟩ :=
      run_raiseFence tenant hidle hfree hrow hready
    have hmutate := step_mutate_of_missing true tenant (hrequest ▸ hr) (by rw [hfenced]; rfl)
      (hpolicies ▸ hmissing)
    refine ⟨_, run_append_eq_some.mpr ⟨u, hrun, run_cons_eq_some.mpr ⟨_, hmutate, rfl⟩⟩, hpolicies,
      hpdp, update_self _ _ _, ?_⟩
    intro _
    refine always_of_invariant (fun s _ _ (h : s.fence.Pending row.revision i) _ hstep ↦
      pending_step h hstep) (fun _ h ↦ barred_of_pending h) ?_ meets_true
    refine ⟨hpending, hholder, ?_⟩
    intro j
    show (update u.fence.phase i _ j).AtRest
    by_cases hj : j = i
    · rw [hj, update_self]
      trivial
    · rw [update_of_ne hj, hothers j hj]
      exact hrest j

def deletingSite : Site (fun _ ↦ false) ⟨fun _ ↦ "[]", fun _ ↦ .ok "ast"⟩ Bool Unit :=
  { draftSite with request := fun _ ↦ some (.delete "p2") }

theorem missing_policy_leaves_fence_pending_p2 : deletingSite.policies "p2" = none ∧
    ∃ t, Trace.run (step true "t1") deletingSite (raiseFence true ++ [.mutate true .settled]) =
        some t ∧
      ∀ schedule, Always (step true "t1") (Barred "t1" 1 true) t schedule := by
  refine ⟨rfl, ?_⟩
  obtain ⟨-, t, hrun, -, -, -, halways⟩ := missing_policy_leaves_fence_pending "t1" deletingSite true
    (.delete "p2") ⟨1, true, none⟩ rfl rfl (fun _ ↦ trivial) rfl rfl rfl rfl
  exact ⟨t, hrun, halways⟩

/-- The row was ready, no policy has changed, and the row is not ready any more. -/
theorem missing_policy_unreadies_fence :
    deletingSite.fence.row = some ⟨1, true, none⟩ ∧ deletingSite.policies "p2" = none ∧
    ∃ t, Trace.run (step true "t1") deletingSite (raiseFence true ++ [.mutate true .settled]) =
        some t ∧
      t.policies = deletingSite.policies ∧ t.fence.pdp = deletingSite.fence.pdp ∧
      t.fence.phase true = .returned (.error
        "policy publication remains fenced pending recovery: policy not found: p2") ∧
      t.fence.row = some ⟨1, false, some true⟩ :=
  ⟨rfl, rfl, _, rfl, rfl, rfl, rfl, rfl⟩

end PolicyEngine.Server.Site

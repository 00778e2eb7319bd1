import Mathlib.Algebra.BigOperators.Group.Finset.Basic
import Mathlib.Algebra.Order.BigOperators.Group.Finset
import Mathlib.Data.Fintype.Basic
import Mathlib.Logic.Function.Basic
import PolicyEngine.Trace.Run

namespace PolicyEngine.Concurrent

open Function PolicyEngine.Trace

variable {ι J U S R : Type}

/-- An operation on a shared cell. The first part is made without the lock and
may fail; the second works on the contents it loads while it holds the lock, and
stores new contents or leaves the old ones. -/
structure Locked (J U S R : Type) where
  prepare : J → Except R U
  commit : U → S → Option S × R

inductive Phase (U S R : Type)
  | ready
  | prepared (u : U)
  | holding (u : U)
  | loaded (u : U) (old : S)
  | leaving (result : R)
  | returned (result : R)

structure World (ι U S R : Type) where
  cell : S
  owner : Option ι
  phase : ι → Phase U S R

def World.Finished (w : World ι U S R) : Prop := ∀ i, ∃ r, w.phase i = .returned r

namespace Phase

def inside : Phase U S R → Bool
  | .holding _ | .loaded _ _ | .leaving _ => true
  | _ => false

def past : Phase U S R → Bool
  | .leaving _ | .returned _ => true
  | _ => false

def rank : Phase U S R → ℕ
  | .ready => 5
  | .prepared _ => 4
  | .holding _ => 3
  | .loaded _ _ => 2
  | .leaving _ => 1
  | .returned _ => 0

def Fits (result : Except R U) : Phase U S R → Prop
  | .prepared u | .holding u | .loaded u _ => result = .ok u
  | .leaving _ => ∃ u, result = .ok u
  | .ready | .returned _ => True

def Fresh (cell : S) : Phase U S R → Prop
  | .loaded _ old => old = cell
  | _ => True

theorem rank_eq_zero {p : Phase U S R} : p.rank = 0 ↔ ∃ r, p = .returned r := by
  cases p <;> simp [rank]

theorem fresh_of_outside {p : Phase U S R} (h : p.inside = false) (cell : S) : p.Fresh cell := by
  cases p with
  | loaded => cases h
  | _ => trivial

end Phase

namespace Locked

variable (op : Locked J U S R)

def call (s : S) (j : J) : S :=
  match op.prepare j with
  | .ok u => (op.commit u s).1.getD s
  | .error _ => s

def start (s : S) : World ι U S R := ⟨s, none, fun _ ↦ .ready⟩

variable [DecidableEq ι] (job : ι → J)

def step (w : World ι U S R) (i : ι) : Option (World ι U S R) :=
  match w.phase i with
  | .ready =>
    match op.prepare (job i) with
    | .ok u => some { w with phase := update w.phase i (.prepared u) }
    | .error r => some { w with phase := update w.phase i (.returned r) }
  | .prepared u =>
    match w.owner with
    | none => some { w with owner := some i, phase := update w.phase i (.holding u) }
    | some _ => none
  | .holding u => some { w with phase := update w.phase i (.loaded u w.cell) }
  | .loaded u old =>
    some { w with
      cell := (op.commit u old).1.getD w.cell
      phase := update w.phase i (.leaving (op.commit u old).2) }
  | .leaving r => some { w with owner := none, phase := update w.phase i (.returned r) }
  | .returned _ => none

/-- What every interleaving keeps. The calls that are past the lock, in the
order in which they took it, explain the contents of the cell. -/
structure Linear (init : S) (w : World ι U S R) (order : List ι) : Prop where
  owner_iff : ∀ i, w.owner = some i ↔ (w.phase i).inside = true
  fits : ∀ i, (w.phase i).Fits (op.prepare (job i))
  fresh : ∀ i, (w.phase i).Fresh w.cell
  nodup : order.Nodup
  mem_order : ∀ i, i ∈ order ↔ (w.phase i).past = true ∧ ∃ u, op.prepare (job i) = .ok u
  cell_eq : w.cell = order.foldl (fun s i ↦ op.call s (job i)) init

def Linearizable (init : S) (w : World ι U S R) : Prop := ∃ order, op.Linear job init w order

variable {op job} {init : S} {w w' : World ι U S R} {order : List ι} {i : ι}

theorem step_cases (h : op.step job w i = some w') :
    (∃ u, w.phase i = .ready ∧ op.prepare (job i) = .ok u ∧
      w' = { w with phase := update w.phase i (.prepared u) }) ∨
    (∃ r, w.phase i = .ready ∧ op.prepare (job i) = .error r ∧
      w' = { w with phase := update w.phase i (.returned r) }) ∨
    (∃ u, w.phase i = .prepared u ∧ w.owner = none ∧
      w' = { w with owner := some i, phase := update w.phase i (.holding u) }) ∨
    (∃ u, w.phase i = .holding u ∧
      w' = { w with phase := update w.phase i (.loaded u w.cell) }) ∨
    (∃ u old, w.phase i = .loaded u old ∧
      w' = { w with
        cell := (op.commit u old).1.getD w.cell
        phase := update w.phase i (.leaving (op.commit u old).2) }) ∨
    (∃ r, w.phase i = .leaving r ∧
      w' = { w with owner := none, phase := update w.phase i (.returned r) }) := by
  unfold step at h
  split at h
  · next hp =>
    split at h
    · next u hu => exact .inl ⟨u, hp, hu, (Option.some.inj h).symm⟩
    · next r hr => exact .inr (.inl ⟨r, hp, hr, (Option.some.inj h).symm⟩)
  · next u hp =>
    split at h
    · next ho => exact .inr (.inr (.inl ⟨u, hp, ho, (Option.some.inj h).symm⟩))
    · cases h
  · next u hp => exact .inr (.inr (.inr (.inl ⟨u, hp, (Option.some.inj h).symm⟩)))
  · next u old hp =>
    exact .inr (.inr (.inr (.inr (.inl ⟨u, old, hp, (Option.some.inj h).symm⟩))))
  · next r hp => exact .inr (.inr (.inr (.inr (.inr ⟨r, hp, (Option.some.inj h).symm⟩))))
  · cases h

omit [DecidableEq ι] in
theorem linear_start (init : S) : op.Linear job init (start init) [] where
  owner_iff i := by simp [start, Phase.inside]
  fits i := trivial
  fresh i := trivial
  nodup := .nil
  mem_order i := by simp [start, Phase.past]
  cell_eq := rfl

theorem Linear.advance (h : op.Linear job init w order) {q : Phase U S R}
    (hinside : q.inside = (w.phase i).inside) (hfits : q.Fits (op.prepare (job i)))
    (hfresh : q.Fresh w.cell)
    (hpast : (∃ u, op.prepare (job i) = .ok u) → q.past = (w.phase i).past) :
    op.Linear job init { w with phase := update w.phase i q } order where
  owner_iff := by
    refine (forall_update_iff w.phase fun j p ↦ w.owner = some j ↔ p.inside = true).mpr ⟨?_, ?_⟩
    · rw [h.owner_iff i, hinside]
    · intro j _
      exact h.owner_iff j
  fits := (forall_update_iff w.phase fun j p ↦ p.Fits (op.prepare (job j))).mpr
    ⟨hfits, fun j _ ↦ h.fits j⟩
  fresh := (forall_update_iff w.phase fun _ p ↦ p.Fresh w.cell).mpr ⟨hfresh, fun j _ ↦ h.fresh j⟩
  nodup := h.nodup
  mem_order := by
    refine (forall_update_iff w.phase fun j p ↦
      j ∈ order ↔ p.past = true ∧ ∃ u, op.prepare (job j) = .ok u).mpr ⟨?_, ?_⟩
    · rw [h.mem_order i]
      exact and_congr_left fun hu ↦ by rw [hpast hu]
    · intro j _
      exact h.mem_order j
  cell_eq := h.cell_eq

omit [DecidableEq ι] in
theorem Linear.outside (h : op.Linear job init w order) {i j : ι} (hi : (w.phase i).inside = true)
    (hj : j ≠ i) : (w.phase j).inside = false := by
  apply Bool.eq_false_iff.mpr
  intro hin
  have howner := (h.owner_iff i).mpr hi
  rw [(h.owner_iff j).mpr hin] at howner
  exact hj (Option.some.inj howner)

theorem Linear.acquire (h : op.Linear job init w order) {u : U} (hp : w.phase i = .prepared u)
    (howner : w.owner = none) :
    op.Linear job init { w with owner := some i, phase := update w.phase i (.holding u) } order where
  owner_iff := by
    refine (forall_update_iff w.phase fun j p ↦ some i = some j ↔ p.inside = true).mpr ⟨?_, ?_⟩
    · simp [Phase.inside]
    · intro j hj
      have hout := (h.owner_iff j).not.mp (by simp [howner])
      simp [hout, Ne.symm hj]
  fits := by
    refine (forall_update_iff w.phase fun j p ↦ p.Fits (op.prepare (job j))).mpr
      ⟨?_, fun j _ ↦ h.fits j⟩
    have hfits := h.fits i
    rw [hp] at hfits
    exact hfits
  fresh := (forall_update_iff w.phase fun _ p ↦ p.Fresh w.cell).mpr ⟨trivial, fun j _ ↦ h.fresh j⟩
  nodup := h.nodup
  mem_order := by
    refine (forall_update_iff w.phase fun j p ↦
      j ∈ order ↔ p.past = true ∧ ∃ u, op.prepare (job j) = .ok u).mpr
      ⟨?_, fun j _ ↦ h.mem_order j⟩
    rw [h.mem_order i, hp]
    rfl
  cell_eq := h.cell_eq

/-- The store is where a call takes effect: the contents it loaded are still
those of the cell. -/
theorem Linear.store (h : op.Linear job init w order) {u : U} {old : S}
    (hp : w.phase i = .loaded u old) :
    op.Linear job init
      { w with
        cell := (op.commit u old).1.getD w.cell
        phase := update w.phase i (.leaving (op.commit u old).2) } (order ++ [i]) := by
  have hin : (w.phase i).inside = true := by rw [hp]; rfl
  have hprep : op.prepare (job i) = .ok u := by
    have hfits := h.fits i
    rwa [hp] at hfits
  have hcell : old = w.cell := by
    have hfresh := h.fresh i
    rwa [hp] at hfresh
  have hnot : i ∉ order := by
    rw [h.mem_order i, hp]
    simp [Phase.past]
  refine ⟨?_, ?_, ?_, ?_, ?_, ?_⟩
  · refine (forall_update_iff w.phase fun j p ↦ w.owner = some j ↔ p.inside = true).mpr
      ⟨?_, fun j _ ↦ h.owner_iff j⟩
    rw [h.owner_iff i, hin]
    rfl
  · exact (forall_update_iff w.phase fun j p ↦ p.Fits (op.prepare (job j))).mpr
      ⟨⟨u, hprep⟩, fun j _ ↦ h.fits j⟩
  · exact (forall_update_iff w.phase fun _ p ↦ p.Fresh _).mpr
      ⟨trivial, fun j hj ↦ Phase.fresh_of_outside (h.outside hin hj) _⟩
  · exact List.nodup_append_comm.mp (List.nodup_cons.mpr ⟨hnot, h.nodup⟩)
  · refine (forall_update_iff w.phase fun j p ↦
      j ∈ order ++ [i] ↔ p.past = true ∧ ∃ u, op.prepare (job j) = .ok u).mpr ⟨?_, ?_⟩
    · simp [Phase.past, hprep]
    · intro j hj
      rw [List.mem_append, List.mem_singleton, h.mem_order j]
      simp [hj]
  · rw [List.foldl_append, ← h.cell_eq]
    simp only [List.foldl_cons, List.foldl_nil, call, hprep, hcell]

theorem Linear.release (h : op.Linear job init w order) {r : R} (hp : w.phase i = .leaving r) :
    op.Linear job init { w with owner := none, phase := update w.phase i (.returned r) } order := by
  have hin : (w.phase i).inside = true := by rw [hp]; rfl
  refine ⟨?_, ?_, ?_, h.nodup, ?_, h.cell_eq⟩
  · refine (forall_update_iff w.phase fun j p ↦ none = some j ↔ p.inside = true).mpr ⟨?_, ?_⟩
    · simp [Phase.inside]
    · intro _ hj
      simp [h.outside hin hj]
  · exact (forall_update_iff w.phase fun j p ↦ p.Fits (op.prepare (job j))).mpr
      ⟨trivial, fun j _ ↦ h.fits j⟩
  · exact (forall_update_iff w.phase fun _ p ↦ p.Fresh w.cell).mpr
      ⟨trivial, fun j _ ↦ h.fresh j⟩
  · refine (forall_update_iff w.phase fun j p ↦
      j ∈ order ↔ p.past = true ∧ ∃ u, op.prepare (job j) = .ok u).mpr
      ⟨?_, fun j _ ↦ h.mem_order j⟩
    rw [h.mem_order i, hp]
    rfl

theorem Linear.step (h : op.Linear job init w order) (hs : op.step job w i = some w') :
    op.Linearizable job init w' := by
  rcases step_cases hs with ⟨u, hp, hu, rfl⟩ | ⟨r, hp, hr, rfl⟩ | ⟨u, hp, ho, rfl⟩ | ⟨u, hp, rfl⟩ |
    ⟨u, old, hp, rfl⟩ | ⟨r, hp, rfl⟩
  · exact ⟨order, h.advance (by rw [hp]; rfl) hu trivial (by rw [hp]; intro _; rfl)⟩
  · refine ⟨order, h.advance (by rw [hp]; rfl) trivial trivial ?_⟩
    intro hok
    obtain ⟨_, hu⟩ := hok
    rw [hr] at hu
    cases hu
  · exact ⟨order, h.acquire hp ho⟩
  · have hfits := h.fits i
    rw [hp] at hfits
    exact ⟨order, h.advance (by rw [hp]; rfl) hfits rfl (by rw [hp]; intro _; rfl)⟩
  · exact ⟨order ++ [i], h.store hp⟩
  · exact ⟨order, h.release hp⟩

theorem run_linear {schedule : List ι} (hrun : run (op.step job) (start init) schedule = some w) :
    op.Linearizable job init w := by
  have hinit : op.Linearizable job init (start init) := ⟨[], linear_start init⟩
  refine run_preserves ?_ hinit hrun
  intro _ _ _ hw hs
  obtain ⟨_, h⟩ := hw
  exact h.step hs

theorem rank_step (hs : op.step job w i = some w') :
    (w'.phase i).rank < (w.phase i).rank ∧ ∀ j, j ≠ i → w'.phase j = w.phase j := by
  rcases step_cases hs with ⟨u, hp, _, rfl⟩ | ⟨r, hp, _, rfl⟩ | ⟨u, hp, _, rfl⟩ | ⟨u, hp, rfl⟩ |
    ⟨u, old, hp, rfl⟩ | ⟨r, hp, rfl⟩
  all_goals
    refine ⟨?_, ?_⟩
    · simp only [update_self, hp, Phase.rank]
      omega
    · intro _ hj
      simp only [update_of_ne hj]

theorem Linear.enabled (h : op.Linear job init w order) {i : ι} (hi : (w.phase i).rank ≠ 0) :
    ∃ j w', op.step job w j = some w' := by
  cases ho : w.owner with
  | some j =>
    have hin := (h.owner_iff j).mp ho
    refine ⟨j, ?_⟩
    unfold Locked.step
    cases hp : w.phase j with
    | holding => exact ⟨_, rfl⟩
    | loaded => exact ⟨_, rfl⟩
    | leaving => exact ⟨_, rfl⟩
    | ready | prepared | returned =>
      rw [hp] at hin
      cases hin
  | none =>
    have hout : (w.phase i).inside = false := by
      apply Bool.eq_false_iff.mpr
      intro hin
      rw [(h.owner_iff i).mpr hin] at ho
      cases ho
    refine ⟨i, ?_⟩
    unfold Locked.step
    cases hp : w.phase i with
    | ready =>
      cases op.prepare (job i) with
      | ok => exact ⟨_, rfl⟩
      | error => exact ⟨_, rfl⟩
    | prepared => exact ⟨_, by rw [ho]⟩
    | returned =>
      rw [hp] at hi
      exact absurd rfl hi
    | holding | loaded | leaving =>
      rw [hp] at hout
      cases hout

section Completion

variable [Fintype ι]

def remaining (w : World ι U S R) : ℕ := ∑ i, (w.phase i).rank

theorem remaining_step (hs : op.step job w i = some w') : remaining w' < remaining w := by
  obtain ⟨hlt, hrest⟩ := rank_step hs
  apply Finset.sum_lt_sum
  · intro j _
    by_cases hj : j = i
    · subst hj
      exact hlt.le
    · rw [hrest j hj]
  · exact ⟨i, Finset.mem_univ i, hlt⟩

omit [DecidableEq ι] in
theorem remaining_start (init : S) :
    remaining (start init : World ι U S R) = 5 * Fintype.card ι := by
  simp [remaining, start, Phase.rank, mul_comm]

theorem length_add_remaining {schedule : List ι} (hrun : run (op.step job) w schedule = some w') :
    schedule.length + remaining w' ≤ remaining w := by
  induction schedule generalizing w with
  | nil =>
    cases hrun
    simp
  | cons _ _ ih =>
    obtain ⟨_, hs, hrun'⟩ := run_cons_eq_some.mp hrun
    have hlt := remaining_step hs
    have hle := ih hrun'
    rw [List.length_cons]
    omega

theorem Linear.completes (h : op.Linear job init w order) :
    ∃ schedule w', run (op.step job) w schedule = some w' ∧ w'.Finished := by
  induction hn : remaining w using Nat.strong_induction_on generalizing w order with
  | _ _ ih =>
    by_cases hdone : w.Finished
    · exact ⟨[], w, rfl, hdone⟩
    · obtain ⟨_, hi⟩ := not_forall.mp hdone
      obtain ⟨j, w₁, hs⟩ := h.enabled (Phase.rank_eq_zero.not.mpr hi)
      obtain ⟨_, h₁⟩ := h.step hs
      obtain ⟨schedule, w', hrun, hend⟩ := ih _ (hn ▸ remaining_step hs) h₁ rfl
      exact ⟨j :: schedule, w', run_cons_eq_some.mpr ⟨w₁, hs, hrun⟩, hend⟩

end Completion

end Locked

end PolicyEngine.Concurrent

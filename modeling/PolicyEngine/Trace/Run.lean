import Mathlib.Logic.Function.Basic

namespace PolicyEngine.Trace

variable {σ α : Type} (step : σ → α → Option σ)

def run : σ → List α → Option σ
  | s, [] => some s
  | s, a :: as => (step s a).bind fun t ↦ run t as

def Meets (cond : σ → α → Prop) : σ → List α → Prop
  | _, [] => True
  | s, a :: as => cond s a ∧ ∀ t, step s a = some t → Meets cond t as

def Always (P : σ → Prop) : σ → List α → Prop
  | s, [] => P s
  | s, a :: as => P s ∧ ∀ t, step s a = some t → Always P t as

variable {step} {cond : σ → α → Prop} {P Inv : σ → Prop} {s t : σ} {a : α} {as bs : List α}

theorem run_cons_eq_some : run step s (a :: as) = some t ↔
    ∃ s', step s a = some s' ∧ run step s' as = some t := Option.bind_eq_some_iff

theorem run_append_eq_some : run step s (as ++ bs) = some t ↔
    ∃ s', run step s as = some s' ∧ run step s' bs = some t := by
  induction as generalizing s with
  | nil => simp [run]
  | cons _ _ ih =>
    simp only [List.cons_append, run_cons_eq_some, ih]
    constructor
    · rintro ⟨s', hs', u, hu, ht⟩
      exact ⟨u, ⟨s', hs', hu⟩, ht⟩
    · rintro ⟨u, ⟨s', hs', hu⟩, ht⟩
      exact ⟨s', hs', u, hu, ht⟩

theorem Always.head (h : Always step P s as) : P s := by
  cases as with
  | nil => exact h
  | cons => exact h.1

theorem Always.last (h : Always step P s as) (hrun : run step s as = some t) : P t := by
  induction as generalizing s with
  | nil => exact Option.some.inj hrun ▸ h
  | cons _ _ ih =>
    obtain ⟨s', hs', hrun'⟩ := run_cons_eq_some.mp hrun
    exact ih (h.2 s' hs') hrun'

theorem always_of_invariant (hstep : ∀ s a t, Inv s → cond s a → step s a = some t → Inv t)
    (hinv : ∀ s, Inv s → P s) (hinit : Inv s) (hmeets : Meets step cond s as) :
    Always step P s as := by
  induction as generalizing s with
  | nil => exact hinv s hinit
  | cons a _ ih =>
    refine ⟨hinv s hinit, ?_⟩
    intro t ht
    exact ih (hstep s a t hinit hmeets.1 ht) (hmeets.2 t ht)

/-- The rule for invariants: what every step that meets the condition keeps
holds at the end of every run of such steps. -/
theorem run_invariant (hstep : ∀ s a t, Inv s → cond s a → step s a = some t → Inv t)
    (hinit : Inv s) (hmeets : Meets step cond s as) (hrun : run step s as = some t) : Inv t :=
  (always_of_invariant hstep (fun _ h ↦ h) hinit hmeets).last hrun

theorem meets_of_always (hcond : ∀ s a, P s → (∀ t, step s a = some t → P t) → cond s a)
    (h : Always step P s as) : Meets step cond s as := by
  induction as generalizing s with
  | nil => trivial
  | cons a _ ih =>
    refine ⟨hcond s a h.1 ?_, ?_⟩
    · intro t ht
      exact (h.2 t ht).head
    · intro t ht
      exact ih (h.2 t ht)

theorem Meets.cons (hcond : cond s a) (hstep : step s a = some t) (h : Meets step cond t as) :
    Meets step cond s (a :: as) := by
  refine ⟨hcond, ?_⟩
  intro t' ht'
  exact Option.some.inj (hstep.symm.trans ht') ▸ h

theorem meets_true : Meets step (fun _ _ ↦ True) s as := by
  induction as generalizing s with
  | nil => trivial
  | cons _ _ ih => exact ⟨trivial, fun _ _ ↦ ih⟩

theorem run_preserves (hstep : ∀ s a t, Inv s → step s a = some t → Inv t) (hinit : Inv s)
    (hrun : run step s as = some t) : Inv t := by
  refine run_invariant ?_ hinit meets_true hrun
  intro s a t h _ ht
  exact hstep s a t h ht

/-- What one of several calls has come to, when one of them has gone on. -/
theorem eq_or_of_update {ι : Type} [DecidableEq ι] {f : ι → α} {i j : ι} {b : α}
    (h : Function.update f i a j = b) : a = b ∨ f j = b := by
  rw [Function.update_apply] at h
  split at h
  · exact .inl h
  · exact .inr h

end PolicyEngine.Trace

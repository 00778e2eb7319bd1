import PolicyEngine.Odoo.Database

namespace PolicyEngine.Odoo

/-- A protected command as its two tables show it: the state of its attempt and
that of the attempt's approval. -/
structure Life where
  attempt : Option AttemptState
  approval : Option ApprovalState
deriving DecidableEq

namespace Life

def Backed (life : Life) : Prop := life.attempt = none → life.approval = none

def executed (life : Life) : ℕ := if life.attempt = some .executed then 1 else 0

/-- What one committed transaction makes of a command, and how many native
effects it has for it. -/
inductive Step : Life → Life → ℕ → Prop
  | stay (life : Life) : Step life life 0
  | start : Step ⟨none, none⟩ ⟨some .pending, none⟩ 0
  | execute : Step ⟨none, none⟩ ⟨some .executed, none⟩ 1
  | request : Step ⟨none, none⟩ ⟨some .approvalRequired, some .pending⟩ 0
  | issue (attempt : Option AttemptState) :
      Step ⟨attempt, some .pending⟩ ⟨attempt, some .approved⟩ 0
  | terminate (attempt : Option AttemptState) {state : ApprovalState}
      (hstate : state = .invalidated ∨ state = .expired) :
      Step ⟨attempt, some .approved⟩ ⟨attempt, some state⟩ 0
  | consume :
      Step ⟨some .approvalRequired, some .approved⟩ ⟨some .executed, some .consumed⟩ 1

/-- The parts of such a step inside its transaction. `own` says that the
transaction has written the attempt. -/
inductive Advance (own : Prop) : Life → Life → ℕ → Prop
  | stay (life : Life) : Advance own life life 0
  | start (approval : Option ApprovalState) :
      Advance own ⟨none, approval⟩ ⟨some .pending, approval⟩ 0
  | execute (approval : Option ApprovalState) (hown : own) :
      Advance own ⟨some .pending, approval⟩ ⟨some .executed, approval⟩ 1
  | request (hown : own) :
      Advance own ⟨some .pending, none⟩ ⟨some .approvalRequired, some .pending⟩ 0
  | terminate (attempt : Option AttemptState) {state : ApprovalState}
      (hstate : state = .invalidated ∨ state = .expired) :
      Advance own ⟨attempt, some .approved⟩ ⟨attempt, some state⟩ 0
  | consume :
      Advance own ⟨some .approvalRequired, some .approved⟩ ⟨some .executed, some .consumed⟩ 1

variable {own : Prop} {life₀ life life' : Life} {n m : ℕ}

theorem Advance.approved (h : Advance own life life' m)
    (happroved : life'.approval = some .approved) : life.approval = some .approved := by
  cases h with
  | stay => exact happroved
  | start => exact happroved
  | execute => exact happroved
  | request => cases happroved
  | terminate => rfl
  | consume => rfl

theorem Advance.executed (h : Advance own life life' m) (hlife : life.attempt = some .executed) :
    life'.attempt = some .executed := by
  cases h with
  | stay => exact hlife
  | start => cases hlife
  | execute => rfl
  | request => cases hlife
  | terminate => exact hlife
  | consume => rfl

namespace Step

/-- A transaction's parts add up to one step, when the attempts it has written
were not there before it and the approvals it sees approved were so before it. -/
theorem advance (h : Step life₀ life n) (hbacked : life₀.Backed)
    (hown : own → life₀.attempt = none ∨ life.attempt = some .executed)
    (happroved : life.approval = some .approved → life₀.approval = some .approved)
    (hadvance : Advance own life life' m) : Step life₀ life' (n + m) := by
  cases hadvance with
  | stay => exact h
  | start =>
    cases h with
    | stay =>
      cases hbacked rfl
      exact .start
    | issue => cases hbacked rfl
    | terminate => cases hbacked rfl
  | execute _ hmine =>
    have hfree := (hown hmine).resolve_right (by simp)
    cases h with
    | start => exact .execute
    | stay => cases hfree
    | issue => cases hfree
    | terminate => cases hfree
  | request hmine =>
    have hfree := (hown hmine).resolve_right (by simp)
    cases h with
    | start => exact .request
    | stay => cases hfree
  | terminate attempt hstate =>
    cases h with
    | stay => exact .terminate attempt hstate
    | issue => cases happroved rfl
    | terminate _ hstate' => cases hstate' with
      | inl hstate' => cases hstate'
      | inr hstate' => cases hstate'
  | consume =>
    cases h with
    | stay => exact .consume
    | issue => cases happroved rfl
    | terminate _ hstate' => cases hstate' with
      | inl hstate' => cases hstate'
      | inr hstate' => cases hstate'

/-- A column is committed when the transaction wrote it, which it did on the row
of its snapshot, and else is left alone. -/
def Rebased {α : Type} (snap view before after : α) : Prop :=
  before = snap ∧ after = view ∨ view = snap ∧ after = before

theorem Rebased.unchanged {α : Type} {snap before after : α} (h : Rebased snap snap before after) :
    after = before := by
  rcases h with ⟨hbefore, hafter⟩ | ⟨-, hafter⟩
  · rw [hafter, hbefore]
  · exact hafter

theorem Rebased.changed {α : Type} {snap view before after : α}
    (h : Rebased snap view before after) (hne : view ≠ snap) : before = snap ∧ after = view :=
  h.resolve_right fun hsame ↦ hne hsame.1

theorem rebase {before after : Life} (h : Step life life' n) (hbacked : before.Backed)
    (hattempt : Rebased life.attempt life'.attempt before.attempt after.attempt)
    (happroval : Rebased life.approval life'.approval before.approval after.approval) :
    Step before after n := by
  obtain ⟨_, _⟩ := before
  obtain ⟨_, _⟩ := after
  cases h with
  | stay =>
    cases hattempt.unchanged
    cases happroval.unchanged
    exact .stay _
  | start =>
    obtain ⟨rfl, rfl⟩ := hattempt.changed (by simp)
    cases happroval.unchanged
    cases hbacked rfl
    exact .start
  | execute =>
    obtain ⟨rfl, rfl⟩ := hattempt.changed (by simp)
    cases happroval.unchanged
    cases hbacked rfl
    exact .execute
  | request =>
    obtain ⟨rfl, rfl⟩ := hattempt.changed (by simp)
    obtain ⟨rfl, rfl⟩ := happroval.changed (by simp)
    exact .request
  | issue =>
    cases hattempt.unchanged
    obtain ⟨rfl, rfl⟩ := happroval.changed (by simp)
    exact .issue _
  | @terminate _ state hstate =>
    have hne : state ≠ .approved := by rcases hstate with rfl | rfl <;> simp
    cases hattempt.unchanged
    obtain ⟨rfl, rfl⟩ := happroval.changed (by simpa using hne)
    exact .terminate _ hstate
  | consume =>
    obtain ⟨rfl, rfl⟩ := hattempt.changed (by simp)
    obtain ⟨rfl, rfl⟩ := happroval.changed (by simp)
    exact .consume

theorem backed (h : Step life life' n) (hbacked : life.Backed) : life'.Backed := by
  cases h with
  | stay => exact hbacked
  | start => exact fun _ ↦ rfl
  | execute => exact fun _ ↦ rfl
  | request => exact fun hnone ↦ by cases hnone
  | issue => exact fun hnone ↦ by cases hbacked hnone
  | terminate => exact fun hnone ↦ by cases hbacked hnone
  | consume => exact fun hnone ↦ by cases hnone

theorem executed_add (h : Step life life' n) : life.executed + n = life'.executed := by
  cases h with
  | stay => rfl
  | start => rfl
  | execute => rfl
  | request => rfl
  | issue => rfl
  | terminate => rfl
  | consume => rfl

theorem terminal (h : Step life life' n) {state : ApprovalState}
    (hstate : life.approval = some state) (hterminal : state.isTerminal = true) :
    life'.approval = some state := by
  cases h with
  | stay => exact hstate
  | start => cases hstate
  | execute => cases hstate
  | request => cases hstate
  | issue => cases hstate; cases hterminal
  | terminate => cases hstate; cases hterminal
  | consume => cases hstate; cases hterminal

theorem consumed (h : Step life life' n) (hbefore : life.approval ≠ some .consumed)
    (hafter : life'.approval = some .consumed) :
    life = ⟨some .approvalRequired, some .approved⟩ ∧
      life' = ⟨some .executed, some .consumed⟩ := by
  cases h with
  | consume => exact ⟨rfl, rfl⟩
  | stay => exact absurd hafter hbefore
  | terminate _ hstate =>
    cases hafter
    cases hstate with
    | inl hstate => cases hstate
    | inr hstate => cases hstate
  | start => cases hafter
  | execute => cases hafter
  | request => cases hafter
  | issue => cases hafter

theorem consumes (h : Step life life' n) (hbefore : life.attempt ≠ some .executed)
    (hafter : life'.attempt = some .executed) (happroval : life'.approval ≠ none) :
    life.approval = some .approved ∧ life'.approval = some .consumed := by
  cases h with
  | consume => exact ⟨rfl, rfl⟩
  | execute => exact absurd rfl happroval
  | stay => exact absurd hafter hbefore
  | issue => exact absurd hafter hbefore
  | terminate => exact absurd hafter hbefore
  | start => cases hafter
  | request => cases hafter

end Step

end Life

end PolicyEngine.Odoo

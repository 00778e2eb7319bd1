import Mathlib.Tactic.SplitIfs

namespace PolicyEngine.Go.Result

variable {ε α β : Type}

def rejectIf (c : Prop) [Decidable c] (e : ε) : Except ε Unit := if c then .error e else .ok ()

theorem bind_eq_ok {x : Except ε α} {f : α → Except ε β} {b : β} :
    (x >>= f) = .ok b ↔ ∃ a, x = .ok a ∧ f a = .ok b := by
  cases x with
  | error => simp [bind, Except.bind]
  | ok => simp [bind, Except.bind]

theorem bind_unit_eq_ok {x : Except ε Unit} {f : Unit → Except ε β} {b : β} :
    (x >>= f) = .ok b ↔ x = .ok () ∧ f () = .ok b := by
  rw [bind_eq_ok]
  exact ⟨fun ⟨_, h⟩ ↦ h, fun h ↦ ⟨(), h⟩⟩

theorem rejectIf_eq_ok {c : Prop} [Decidable c] {e : ε} : rejectIf c e = .ok () ↔ ¬ c := by
  unfold rejectIf
  split_ifs with h <;> simp [h]

theorem bind_check_eq_ok {γ : Type} {x : Except ε α} {check : α → Except ε γ}
    {rest : Except ε β} {b : β} :
    (x >>= fun a ↦ check a >>= fun _ ↦ rest) = .ok b ↔
      (∃ a, x = .ok a ∧ ∃ c, check a = .ok c) ∧ rest = .ok b := by
  simp only [bind_eq_ok]
  constructor
  · rintro ⟨a, ha, c, hc, h⟩
    exact ⟨⟨a, ha, c, hc⟩, h⟩
  · rintro ⟨⟨a, ha, c, hc⟩, h⟩
    exact ⟨a, ha, c, hc, h⟩

theorem exists_unit_eq_ok {x : Except ε Unit} : (∃ c, x = .ok c) ↔ x = .ok () :=
  ⟨fun ⟨_, h⟩ ↦ h, fun h ↦ ⟨(), h⟩⟩

theorem exists_of_isOk {x : Except ε α} (h : x.isOk = true) : ∃ a, x = .ok a := by
  cases x with
  | error => cases h
  | ok a => exact ⟨a, rfl⟩

theorem isOk_mapM_iff {f : α → Except ε β} {l : List α} :
    (l.mapM f).isOk = true ↔ ∀ a ∈ l, (f a).isOk = true := by
  induction l with
  | nil => simp [pure, Except.pure, Except.isOk, Except.toBool]
  | cons a l ih =>
    rw [List.mapM_cons, List.forall_mem_cons, ← ih]
    cases f a with
    | error => simp [bind, Except.bind, Except.isOk, Except.toBool]
    | ok =>
      cases l.mapM f with
      | error => simp [bind, Except.bind, Except.isOk, Except.toBool]
      | ok => simp [bind, Except.bind, pure, Except.pure, Except.isOk, Except.toBool]

end PolicyEngine.Go.Result

import PolicyEngine.Fuel.Returns

namespace PolicyEngine.Fuel

variable {σ α β : Type}

/-- If the run from `s` is not cut off, what it ends with satisfies `Q`. -/
def Ensures (f : StateT σ Option α) (s : σ) (Q : α → σ → Prop) : Prop :=
  ∀ a s', f s = some (a, s') → Q a s'

namespace Ensures

variable {f : StateT σ Option α} {g : α → StateT σ Option β} {s : σ} {Q : α → σ → Prop}
  {R : β → σ → Prop}

theorem mono {Q' : α → σ → Prop} (h : Ensures f s Q) (hQ : ∀ a s', Q a s' → Q' a s') :
    Ensures f s Q' := fun a s' ha ↦ hQ a s' (h a s' ha)

theorem pure {a : α} (h : Q a s) : Ensures (Pure.pure a) s Q := by
  intro _ _ hb
  cases hb
  exact h

theorem bind (h : Ensures f s Q) (hg : ∀ a s', Q a s' → Ensures (g a) s' R) :
    Ensures (f >>= g) s R := by
  intro b t hb
  change (f s).bind (fun r ↦ g r.1 r.2) = some (b, t) at hb
  obtain ⟨⟨a, s'⟩, ha, hb⟩ := Option.bind_eq_some_iff.mp hb
  exact hg a s' (h a s' ha) b t hb

theorem get_bind {g : σ → StateT σ Option β} (h : Ensures (g s) s R) : Ensures (get >>= g) s R := h

theorem modify_bind {t : σ → σ} {g : PUnit → StateT σ Option β} (h : Ensures (g ⟨⟩) (t s) R) :
    Ensures (modify t >>= g) s R := h

theorem ite {c : Prop} [Decidable c] {f g : StateT σ Option α} (hf : c → Ensures f s Q)
    (hg : ¬ c → Ensures g s Q) : Ensures (if c then f else g) s Q := by
  by_cases h : c
  · rw [if_pos h]
    exact hf h
  · rw [if_neg h]
    exact hg h

variable {T : Option β → σ → Prop}

theorem run_pure {b : β} (h : T (some b) s) :
    Ensures (Pure.pure b : OptionT (StateT σ Option) β).run s T := pure h

theorem run_failure (h : T none s) : Ensures (failure : OptionT (StateT σ Option) β).run s T :=
  pure h

theorem run_get_bind {g : σ → OptionT (StateT σ Option) β} (h : Ensures (g s).run s T) :
    Ensures (get >>= g).run s T := h

theorem run_lift_bind {g : α → OptionT (StateT σ Option) β} (h : Ensures f s Q)
    (hg : ∀ a s', Q a s' → Ensures (g a).run s' T) : Ensures (liftM f >>= g).run s T := by
  have hlift : Ensures (liftM f : OptionT (StateT σ Option) α).run s
      fun o s' ↦ ∃ a, o = some a ∧ Q a s' :=
    h.bind (g := fun a ↦ Pure.pure (some a)) fun a _ ha ↦ pure ⟨a, rfl, ha⟩
  rw [OptionT.run_bind]
  refine hlift.bind fun o s' ho ↦ ?_
  obtain ⟨a, rfl, ha⟩ := ho
  exact hg a s' ha

theorem run_modify_bind {t : σ → σ} {g : PUnit → OptionT (StateT σ Option) β}
    (h : Ensures (g ⟨⟩).run (t s) T) :
    Ensures (liftM (modify t : StateT σ Option PUnit) >>= g).run s T := h

theorem run_bind {f : OptionT (StateT σ Option) α} {g : α → OptionT (StateT σ Option) β}
    {Q : Option α → σ → Prop} (h : Ensures f.run s Q)
    (hsome : ∀ a s', Q (some a) s' → Ensures (g a).run s' T) (hnone : ∀ s', Q none s' → T none s') :
    Ensures (f >>= g).run s T := by
  rw [OptionT.run_bind]
  refine h.bind fun o s' ho ↦ ?_
  cases o with
  | none => exact pure (hnone s' ho)
  | some a => exact hsome a s' ho

theorem run_bind_some {f : OptionT (StateT σ Option) α} {g : α → OptionT (StateT σ Option) β}
    {a : α} {t : σ} (h : Ensures f.run s fun o s' ↦ o = some a ∧ s' = t)
    (hg : Ensures (g a).run t T) : Ensures (f >>= g).run s T := by
  refine run_bind h ?_ ?_
  · rintro _ s' ⟨hb, rfl⟩
    cases hb
    exact hg
  · rintro _ ⟨h, -⟩
    cases h

theorem run_ite {c : Prop} [Decidable c] {f g : OptionT (StateT σ Option) β}
    (hf : c → Ensures f.run s T) (hg : ¬ c → Ensures g.run s T) :
    Ensures (if c then f else g).run s T := by
  by_cases h : c
  · rw [if_pos h]
    exact hf h
  · rw [if_neg h]
    exact hg h

end Ensures

end PolicyEngine.Fuel

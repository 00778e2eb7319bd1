import Mathlib.Init

/-!
Programs with a state that may run out of fuel: `none` is a run that was cut
off. `OptionT` on top is a result that may be missing after a run that was not.
-/

namespace PolicyEngine.Fuel

variable {σ α β : Type}

/-- The run from `s` is not cut off, and what it ends with satisfies `Q`. -/
def Returns (f : StateT σ Option α) (s : σ) (Q : α → σ → Prop) : Prop :=
  ∃ a s', f s = some (a, s') ∧ Q a s'

/-- From a state of `I` every run returns, to a state of `I`. -/
def Keeps (I : σ → Prop) (f : StateT σ Option α) : Prop :=
  ∀ s, I s → Returns f s fun _ s' ↦ I s'

namespace Returns

variable {f : StateT σ Option α} {g : α → StateT σ Option β} {s : σ} {Q : α → σ → Prop}

theorem isSome (h : Returns f s Q) : (f s).isSome = true := by
  obtain ⟨_, _, h, _⟩ := h
  rw [h]
  rfl

theorem mono {Q' : α → σ → Prop} (h : Returns f s Q) (hQ : ∀ a s', Q a s' → Q' a s') :
    Returns f s Q' := by
  obtain ⟨a, s', h, hq⟩ := h
  exact ⟨a, s', h, hQ a s' hq⟩

theorem pure {a : α} (h : Q a s) : Returns (Pure.pure a) s Q := ⟨a, s, rfl, h⟩

theorem bind {R : β → σ → Prop} (h : Returns f s Q)
    (hg : ∀ a s', Q a s' → Returns (g a) s' R) : Returns (f >>= g) s R := by
  obtain ⟨a, s', h, hq⟩ := h
  obtain ⟨b, t, ht, hr⟩ := hg a s' hq
  refine ⟨b, t, ?_, hr⟩
  change (f s).bind (fun r ↦ g r.1 r.2) = some (b, t)
  rw [h]
  exact ht

theorem get_bind {g : σ → StateT σ Option β} {R : β → σ → Prop} (h : Returns (g s) s R) :
    Returns (get >>= g) s R := h

theorem modify {t : σ → σ} {R : PUnit → σ → Prop} (h : R ⟨⟩ (t s)) :
    Returns (modify t : StateT σ Option PUnit) s R := ⟨⟨⟩, t s, rfl, h⟩

variable {R : Option β → σ → Prop}

theorem run_get_bind {g : σ → OptionT (StateT σ Option) β} (h : Returns (g s).run s R) :
    Returns (get >>= g).run s R := h

theorem run_lift_bind {g : α → OptionT (StateT σ Option) β} (h : Returns f s Q)
    (hg : ∀ a s', Q a s' → Returns (g a).run s' R) : Returns (liftM f >>= g).run s R := by
  have hlift : Returns (liftM f : OptionT (StateT σ Option) α).run s
      fun o s' ↦ ∃ a, o = some a ∧ Q a s' :=
    h.bind (g := fun a ↦ Pure.pure (some a)) fun a _ ha ↦ pure ⟨a, rfl, ha⟩
  rw [OptionT.run_bind]
  refine hlift.bind fun o s' ho ↦ ?_
  obtain ⟨a, rfl, ha⟩ := ho
  exact hg a s' ha

end Returns

namespace Keeps

variable {I : σ → Prop}

theorem pure (a : α) : Keeps I (Pure.pure a : StateT σ Option α) := fun _ h ↦ .pure h

theorem get : Keeps I (MonadState.get : StateT σ Option σ) := fun s h ↦ ⟨s, s, rfl, h⟩

theorem modify {t : σ → σ} (h : ∀ s, I s → I (t s)) :
    Keeps I (modify t : StateT σ Option PUnit) := fun s hs ↦ .modify (h s hs)

theorem bind {f : StateT σ Option α} {g : α → StateT σ Option β} (hf : Keeps I f)
    (hg : ∀ a, Keeps I (g a)) : Keeps I (f >>= g) :=
  fun s h ↦ (hf s h).bind fun a s' ↦ hg a s'

end Keeps

def KeepsT (I : σ → Prop) (f : OptionT (StateT σ Option) α) : Prop := Keeps I f.run

namespace KeepsT

variable {I : σ → Prop}

theorem pure (a : α) : KeepsT I (Pure.pure a : OptionT (StateT σ Option) α) := Keeps.pure (some a)

theorem failure : KeepsT I (failure : OptionT (StateT σ Option) α) := Keeps.pure none

theorem lift {f : StateT σ Option α} (h : Keeps I f) :
    KeepsT I (liftM f : OptionT (StateT σ Option) α) := h.bind fun a ↦ .pure (some a)

theorem get : KeepsT I (MonadState.get : OptionT (StateT σ Option) σ) := lift Keeps.get

theorem run_bind {f : OptionT (StateT σ Option) α} {g : α → OptionT (StateT σ Option) β} {s : σ}
    (hf : KeepsT I f) (hs : I s) (hg : ∀ a s', I s' → Returns (g a).run s' fun _ t ↦ I t) :
    Returns (f >>= g).run s fun _ t ↦ I t := by
  rw [OptionT.run_bind]
  refine (hf s hs).bind fun a s' hs' ↦ ?_
  cases a with
  | none => exact .pure hs'
  | some a => exact hg a s' hs'

theorem bind {f : OptionT (StateT σ Option) α} {g : α → OptionT (StateT σ Option) β}
    (hf : KeepsT I f) (hg : ∀ a, KeepsT I (g a)) : KeepsT I (f >>= g) :=
  fun _ hs ↦ hf.run_bind hs fun a ↦ hg a

theorem ite {c : Prop} [Decidable c] {f g : OptionT (StateT σ Option) α} (hf : KeepsT I f)
    (hg : KeepsT I g) : KeepsT I (if c then f else g) := by
  by_cases h : c
  · rwa [if_pos h]
  · rwa [if_neg h]

end KeepsT

end PolicyEngine.Fuel

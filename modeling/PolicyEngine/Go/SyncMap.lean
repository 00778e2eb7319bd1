import Mathlib.Logic.Function.Basic
import Mathlib.Order.Basic

/-! The atomic operations of a `sync.Map`, and what they keep when entries only
grow in a level and are only deleted once a clock has reached it. -/

namespace PolicyEngine.Go.SyncMap

open Function

variable {K V T : Type} [DecidableEq K]

def loadOrStore (m : K → Option V) (k : K) (v : V) : (K → Option V) × Bool :=
  match m k with
  | some _ => (m, true)
  | none => (update m k (some v), false)

variable [DecidableEq V]

def compareAndSwap (m : K → Option V) (k : K) (old new : V) : (K → Option V) × Bool :=
  if m k = some old then (update m k (some new), true) else (m, false)

def compareAndDelete (m : K → Option V) (k : K) (old : V) : K → Option V :=
  if m k = some old then update m k none else m

/-- The clock has reached `x`, or the entry's level has. -/
def Covered [LE T] (level : V → T) (m : K → Option V) (clock : T) (k : K) (x : T) : Prop :=
  x ≤ clock ∨ ∃ v, m k = some v ∧ x ≤ level v

variable [Preorder T] {level : V → T} {m : K → Option V} {clock : T} {k k' : K} {x : T} {v old new : V}

namespace Covered

omit [DecidableEq K] [DecidableEq V] in
theorem mono_clock (h : Covered level m clock k x) {clock' : T} (hle : clock ≤ clock') :
    Covered level m clock' k x := by
  rcases h with h | h
  · exact .inl (h.trans hle)
  · exact .inr h

omit [DecidableEq V] in
theorem update (h : Covered level m clock k x) {entry : Option V}
    (hentry : ∀ w, m k' = some w → level w ≤ clock ∨ ∃ v, entry = some v ∧ level w ≤ level v) :
    Covered level (Function.update m k' entry) clock k x := by
  obtain h | ⟨w, hw, hx⟩ := h
  · exact .inl h
  · by_cases hk : k = k'
    · subst hk
      obtain hle | ⟨v, rfl, hle⟩ := hentry w hw
      · exact .inl (hx.trans hle)
      · exact .inr ⟨v, update_self _ _ _, hx.trans hle⟩
    · exact .inr ⟨w, (update_of_ne hk _ _).trans hw, hx⟩

theorem compareAndDelete (h : Covered level m clock k x) (hle : level old ≤ clock) :
    Covered level (compareAndDelete m k' old) clock k x := by
  unfold SyncMap.compareAndDelete
  split_ifs with hold
  · refine h.update fun w hw ↦ .inl ?_
    cases hold.symm.trans hw
    exact hle
  · exact h

end Covered

theorem eq_some_of_compareAndDelete (h : compareAndDelete m k' old k = some v) : m k = some v := by
  unfold compareAndDelete at h
  split_ifs at h
  · by_cases hk : k = k'
    · subst hk
      simp at h
    · rwa [update_of_ne hk] at h
  · exact h

end PolicyEngine.Go.SyncMap

import Mathlib.Data.Nat.Notation
import Mathlib.Logic.Basic

namespace PolicyEngine.Code

variable {α β γ : Type}

/-- What the words of a layout determine: if two of them, each followed by
anything, are the same word, then the values are related and what follows is
the same. Only values that meet the condition are encoded. -/
def Determines (P : α → Prop) (enc : α → List γ) (R : α → α → Prop) : Prop :=
  ∀ ⦃a b⦄, P a → P b → ∀ ⦃x y⦄, enc a ++ x = enc b ++ y → R a b ∧ x = y

namespace Determines

variable {P Q : α → Prop} {enc enc' : α → List γ} {R R' : α → α → Prop}

theorem apply (h : Determines P enc R) {a b : α} (ha : P a) (hb : P b) (heq : enc a = enc b) :
    R a b :=
  (@h a b ha hb [] [] (by rw [heq])).1

theorem const (P : α → Prop) (word : List γ) : Determines P (fun _ ↦ word) fun _ _ ↦ True := by
  intro _ _ _ _ _ _ heq
  exact ⟨trivial, List.append_cancel_left heq⟩

theorem of_length {n : ℕ} (hlen : ∀ a, P a → (enc a).length = n)
    (hinj : ∀ a b, P a → P b → enc a = enc b → R a b) : Determines P enc R := by
  intro a b ha hb _ _ heq
  obtain ⟨hword, hrest⟩ := List.append_inj heq ((hlen a ha).trans (hlen b hb).symm)
  exact ⟨hinj a b ha hb hword, hrest⟩

theorem append (h : Determines P enc R) (h' : Determines P enc' R') :
    Determines P (fun a ↦ enc a ++ enc' a) fun a b ↦ R a b ∧ R' a b := by
  intro _ _ ha hb _ _ heq
  rw [List.append_assoc, List.append_assoc] at heq
  obtain ⟨hfst, hrest⟩ := h ha hb heq
  obtain ⟨hsnd, hxy⟩ := h' ha hb hrest
  exact ⟨⟨hfst, hsnd⟩, hxy⟩

theorem comp {f : β → α} {P' : β → Prop} (h : Determines P enc R) (hf : ∀ b, P' b → P (f b)) :
    Determines P' (fun b ↦ enc (f b)) fun a b ↦ R (f a) (f b) :=
  fun a b ha hb ↦ h (hf a ha) (hf b hb)

theorem flatMap_inj (h : Determines P enc Eq) {as bs : List α} (hlen : as.length = bs.length)
    (has : ∀ a ∈ as, P a) (hbs : ∀ b ∈ bs, P b) {x y : List γ}
    (heq : as.flatMap enc ++ x = bs.flatMap enc ++ y) : as = bs ∧ x = y := by
  induction as generalizing bs with
  | nil =>
    obtain rfl := List.length_eq_zero_iff.mp hlen.symm
    exact ⟨rfl, heq⟩
  | cons a _ ih =>
    obtain _ | ⟨b, bs⟩ := bs
    · cases hlen
    · rw [List.flatMap_cons, List.flatMap_cons, List.append_assoc, List.append_assoc] at heq
      obtain ⟨hab, hrest⟩ := h (has a List.mem_cons_self) (hbs b List.mem_cons_self) heq
      obtain ⟨hrest, hxy⟩ := ih (Nat.succ.inj hlen) (fun c hc ↦ has c (List.mem_cons_of_mem a hc))
        (fun c hc ↦ hbs c (List.mem_cons_of_mem b hc)) hrest
      exact ⟨by rw [hab, hrest], hxy⟩

theorem list {f : β → List α} {Q : β → Prop} {n : ℕ} (h : Determines P enc Eq)
    (hlen : ∀ b, Q b → (f b).length = n) (hf : ∀ b, Q b → ∀ a ∈ f b, P a) :
    Determines Q (fun b ↦ (f b).flatMap enc) fun a b ↦ f a = f b :=
  fun a b ha hb _ _ ↦
    h.flatMap_inj ((hlen a ha).trans (hlen b hb).symm) (hf a ha) (hf b hb)

theorem congr (h : Determines P enc R) (heq : ∀ a, P a → enc' a = enc a) :
    Determines P enc' R := by
  intro a b ha hb _ _ hab
  rw [heq a ha, heq b hb] at hab
  exact h ha hb hab

theorem mono (h : Determines P enc R) (hPQ : ∀ a, Q a → P a)
    (hR : ∀ a b, Q a → Q b → R a b → R' a b) : Determines Q enc R' := by
  intro a b ha hb _ _ heq
  obtain ⟨hr, hxy⟩ := h (hPQ a ha) (hPQ b hb) heq
  exact ⟨hR a b ha hb hr, hxy⟩

end Determines

end PolicyEngine.Code

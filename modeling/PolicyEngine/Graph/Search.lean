import Mathlib.Data.Finset.Card
import Mathlib.Logic.Relation

namespace PolicyEngine.Graph.Search

variable {V S : Type}

def Edge (succ : V → List V) (v w : V) : Prop := w ∈ succ v

def Acyclic (succ : V → List V) : Prop := ∀ v, ¬ Relation.TransGen (Edge succ) v v

/-- The vertices `new` were visited from one of the `roots`, each once and
together with all their successors. -/
structure Explored (succ : V → List V) (roots seen new : List V) : Prop where
  nodup : new.Nodup
  fresh : ∀ x ∈ new, x ∉ seen
  reach : ∀ x ∈ new, ∃ r ∈ roots, Relation.ReflTransGen (Edge succ) r x
  closed : ∀ x ∈ new, ∀ w ∈ succ x, w ∈ seen ∨ w ∈ new
  roots_mem : ∀ r ∈ roots, r ∈ seen ∨ r ∈ new

variable {succ : V → List V}

theorem Explored.nil (seen : List V) : Explored succ [] seen [] := by
  constructor <;> simp

theorem Explored.skip {roots seen new : List V} {w : V} (hw : w ∈ seen)
    (h : Explored succ roots seen new) : Explored succ (w :: roots) seen new where
  nodup := h.nodup
  fresh := h.fresh
  reach x hx := by
    obtain ⟨r, hr, hrx⟩ := h.reach x hx
    exact ⟨r, List.mem_cons_of_mem w hr, hrx⟩
  closed := h.closed
  roots_mem r hr := by
    rcases List.mem_cons.mp hr with rfl | hr
    · exact .inl hw
    · exact h.roots_mem r hr

theorem Explored.append {roots seen a b : List V} {w : V} (ha : Explored succ [w] seen a)
    (hb : Explored succ roots (seen ++ a) b) : Explored succ (w :: roots) seen (a ++ b) where
  nodup := List.nodup_append.mpr ⟨ha.nodup, hb.nodup, fun x hx y hy hxy ↦
    hb.fresh y hy (List.mem_append_right seen (hxy ▸ hx))⟩
  fresh x hx := by
    rcases List.mem_append.mp hx with hx | hx
    · exact ha.fresh x hx
    · exact fun hs ↦ hb.fresh x hx (List.mem_append_left a hs)
  reach x hx := by
    rcases List.mem_append.mp hx with hx | hx
    · obtain ⟨r, hr, hrx⟩ := ha.reach x hx
      exact ⟨r, List.mem_cons.mpr (.inl (List.mem_singleton.mp hr)), hrx⟩
    · obtain ⟨r, hr, hrx⟩ := hb.reach x hx
      exact ⟨r, List.mem_cons_of_mem w hr, hrx⟩
  closed x hx y hy := by
    rw [List.mem_append]
    rcases List.mem_append.mp hx with hx | hx
    · exact (ha.closed x hx y hy).imp_right .inl
    · have h := hb.closed x hx y hy
      rw [List.mem_append] at h
      tauto
  roots_mem r hr := by
    rw [List.mem_append]
    rcases List.mem_cons.mp hr with rfl | hr
    · exact (ha.roots_mem r (List.mem_singleton_self r)).imp_right .inl
    · have h := hb.roots_mem r hr
      rw [List.mem_append] at h
      tauto

theorem Explored.cons {seen new : List V} {v : V} (hv : v ∉ seen)
    (h : Explored succ (succ v) (seen ++ [v]) new) : Explored succ [v] seen (v :: new) where
  nodup := List.nodup_cons.mpr ⟨fun hn ↦ h.fresh v hn (by simp), h.nodup⟩
  fresh x hx := by
    rcases List.mem_cons.mp hx with rfl | hx
    · exact hv
    · exact fun hs ↦ h.fresh x hx (List.mem_append_left [v] hs)
  reach x hx := by
    refine ⟨v, List.mem_singleton_self v, ?_⟩
    rcases List.mem_cons.mp hx with rfl | hx
    · exact .refl
    · obtain ⟨_, hr, hrx⟩ := h.reach x hx
      exact .head hr hrx
  closed x hx y hy := by
    have h' : y ∈ seen ++ [v] ∨ y ∈ new := by
      rcases List.mem_cons.mp hx with rfl | hx
      · exact h.roots_mem y hy
      · exact h.closed x hx y hy
    simp only [List.mem_append, List.mem_singleton] at h'
    rw [List.mem_cons]
    tauto
  roots_mem r hr := by
    rw [List.mem_singleton.mp hr]
    exact .inr List.mem_cons_self

theorem Explored.mem_iff {v : V} {new : List V} (h : Explored succ [v] [] new) (x : V) :
    x ∈ new ↔ Relation.ReflTransGen (Edge succ) v x := by
  constructor
  · intro hx
    obtain ⟨_, hr, _⟩ := h.reach x hx
    rwa [← List.mem_singleton.mp hr]
  · intro hx
    induction hx with
    | refl => simpa using h.roots_mem v (List.mem_singleton_self v)
    | tail _ he ih => simpa using h.closed _ ih _ he

variable [DecidableEq V]

/-- Depth-first visit that marks a vertex, runs `act` on it and descends into
the successors that are not marked yet. -/
def visit (succ : V → List V) (act : S → V → S) : ℕ → List V × S → V → List V × S
  | 0, st, _ => st
  | n + 1, (seen, s), v =>
    (succ v).foldl (fun st w ↦ if w ∈ st.1 then st else visit succ act n st w) (seen ++ [v], act s v)

variable {U : Finset V}

theorem card_sdiff_append_lt {seen : List V} (rest : List V) {v : V} (hU : v ∈ U) (hv : v ∉ seen) :
    (U \ (seen ++ v :: rest).toFinset).card < (U \ seen.toFinset).card := by
  apply Finset.card_lt_card
  refine Finset.ssubset_iff_of_subset (fun x hx ↦ ?_) |>.mpr ⟨v, ?_, ?_⟩
  · simp only [Finset.mem_sdiff, List.mem_toFinset, List.mem_append] at hx ⊢
    tauto
  · simp [hU, hv]
  · simp

/-- With fuel for every unmarked vertex of a closed universe, a visit marks
exactly one explored batch and runs `act` over it in order. -/
theorem visit_explored (act : S → V → S) (hclosed : ∀ x ∈ U, ∀ w ∈ succ x, w ∈ U) (n : ℕ)
    (seen : List V) (s : S) (v : V) (hU : v ∈ U) (hv : v ∉ seen) (hn : (U \ seen.toFinset).card ≤ n) :
    ∃ new, visit succ act n (seen, s) v = (seen ++ new, new.foldl act s) ∧
      Explored succ [v] seen new := by
  induction n generalizing seen s v with
  | zero =>
    have hmem : v ∈ U \ seen.toFinset := by simp [hU, hv]
    rw [Finset.card_eq_zero.mp (Nat.le_zero.mp hn)] at hmem
    exact absurd hmem (Finset.notMem_empty v)
  | succ n ih =>
    have loop (ws : List V) : ∀ (batch : List V) (t : S), (∀ w ∈ ws, w ∈ U) →
        ∃ new, ws.foldl (fun st w ↦ if w ∈ st.1 then st else visit succ act n st w)
            (seen ++ v :: batch, t) = (seen ++ v :: batch ++ new, new.foldl act t) ∧
          Explored succ ws (seen ++ v :: batch) new := by
      induction ws with
      | nil => exact fun batch t _ ↦ ⟨[], by simp, .nil _⟩
      | cons w ws ihw =>
        intro batch t hws
        have hrest : ∀ x ∈ ws, x ∈ U := fun x hx ↦ hws x (List.mem_cons_of_mem w hx)
        by_cases hw : w ∈ seen ++ v :: batch
        · obtain ⟨new, hnew, hexp⟩ := ihw batch t hrest
          refine ⟨new, ?_, hexp.skip hw⟩
          rw [List.foldl_cons, if_pos hw, hnew]
        · have hfuel := card_sdiff_append_lt batch hU hv
          obtain ⟨a, ha, hea⟩ := ih (seen ++ v :: batch) t w (hws w List.mem_cons_self) hw (by omega)
          obtain ⟨b, hb, heb⟩ := ihw (batch ++ a) (a.foldl act t) hrest
          have hassoc : seen ++ v :: (batch ++ a) = seen ++ v :: batch ++ a := by simp
          rw [hassoc] at hb heb
          refine ⟨a ++ b, ?_, hea.append heb⟩
          rw [List.foldl_cons, if_neg hw, ha, hb]
          simp
    obtain ⟨new, hnew, hexp⟩ := loop (succ v) [] (act s v) (hclosed v hU)
    refine ⟨v :: new, ?_, hexp.cons hv⟩
    rw [visit, hnew]
    simp

end PolicyEngine.Graph.Search

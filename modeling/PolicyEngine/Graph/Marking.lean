import PolicyEngine.Graph.Cycle

/-!
Cycle detection by a recursive visit that keeps two sets of marks and looks at
them when it enters a vertex.
-/

namespace PolicyEngine.Graph.Marking

open Relation PolicyEngine.Graph.Search PolicyEngine.Graph.Cycle

structure Marks (V : Type) where
  visiting : V → Bool
  visited : V → Bool

variable {V : Type} [DecidableEq V]

def unmarked : Marks V := ⟨fun _ ↦ false, fun _ ↦ false⟩

def enter (m : Marks V) (v : V) : Marks V :=
  { m with visiting := Function.update m.visiting v true }

def leave (m : Marks V) (v : V) : Marks V :=
  ⟨Function.update m.visiting v false, Function.update m.visited v true⟩

def visit (succ : V → List V) : ℕ → Marks V → V → Except V (Marks V)
  | 0, m, _ => .ok m
  | n + 1, m, v =>
    if m.visiting v then .error v
    else if m.visited v then .ok m
    else ((succ v).foldlM (visit succ n) (enter m v)).map fun m ↦ leave m v

def colour (m : Marks V) (v : V) : Colour :=
  bif m.visiting v then .gray else bif m.visited v then .black else .white

theorem colour_enter (m : Marks V) (v : V) :
    colour (enter m v) = Function.update (colour m) v .gray := by
  funext x
  by_cases h : x = v
  · simp [h, colour, enter]
  · simp only [colour, enter, Function.update_of_ne h]

theorem colour_leave (m : Marks V) (v : V) :
    colour (leave m v) = Function.update (colour m) v .black := by
  funext x
  by_cases h : x = v
  · simp [h, colour, leave]
  · simp only [colour, leave, Function.update_of_ne h]

variable {succ : V → List V} {U : Finset V}

/-- A visit stops at a vertex of a cycle, or finishes the vertices `vs`. -/
def Reports (succ : V → List V) (m : Marks V) (vs : List V) : Except V (Marks V) → Prop
  | .error _ => ∃ x, TransGen (Edge succ) x x
  | .ok m' => Finished succ (colour m') ∧ Extends (colour m) (colour m') ∧
      ∀ v ∈ vs, colour m' v = .black

omit [DecidableEq V] in
theorem foldlM_reports {visit : Marks V → V → Except V (Marks V)} (P : Marks V → Prop)
    (hP : ∀ m m', P m → Extends (colour m) (colour m') → P m') (vs : List V) {m : Marks V}
    (hvisit : ∀ m, ∀ v ∈ vs, Finished succ (colour m) → P m → Reports succ m [v] (visit m v))
    (hfin : Finished succ (colour m)) (hm : P m) : Reports succ m vs (vs.foldlM visit m) := by
  induction vs generalizing m with
  | nil => exact ⟨hfin, .refl _, fun _ h ↦ absurd h List.not_mem_nil⟩
  | cons v vs ih =>
    have hfirst := hvisit m v List.mem_cons_self hfin hm
    rw [List.foldlM_cons]
    cases hv : visit m v with
    | error =>
      rw [hv] at hfirst
      exact hfirst
    | ok m' =>
      rw [hv] at hfirst
      obtain ⟨hfin', hext, hblack⟩ := hfirst
      have hrest := ih (fun m w hw ↦ hvisit m w (List.mem_cons_of_mem v hw)) hfin' (hP m m' hm hext)
      change Reports succ m (v :: vs) (vs.foldlM visit m')
      cases hr : vs.foldlM visit m' with
      | error =>
        rw [hr] at hrest
        exact hrest
      | ok =>
        rw [hr] at hrest
        obtain ⟨hfin'', hext', hblack'⟩ := hrest
        refine ⟨hfin'', hext.trans hext', List.forall_mem_cons.mpr ⟨?_, hblack'⟩⟩
        exact hext'.black v (hblack v (List.mem_singleton_self v))

theorem visit_reports (hclosed : ∀ x ∈ U, ∀ w ∈ succ x, w ∈ U) (n : ℕ) (m : Marks V) (v : V)
    (hU : v ∈ U) (hfin : Finished succ (colour m))
    (hpath : ∀ g, colour m g = .gray → TransGen (Edge succ) g v)
    (hn : (whites U (colour m)).card < n) : Reports succ m [v] (visit succ n m v) := by
  induction n generalizing m v with
  | zero => omega
  | succ n ih =>
    unfold visit
    by_cases hgray : m.visiting v = true
    · rw [if_pos hgray]
      exact ⟨v, hpath v (by rw [colour, hgray, cond_true])⟩
    · rw [if_neg hgray]
      by_cases hblack : m.visited v = true
      · rw [if_pos hblack]
        refine ⟨hfin, .refl _, List.forall_mem_singleton.mpr ?_⟩
        simp [colour, hgray, hblack]
      · rw [if_neg hblack]
        have hwhite : colour m v = .white := by simp [colour, hgray, hblack]
        have hfuel := whites_update_lt hU hwhite
        -- Everything gray while the successors are visited lies on the path to `v`.
        have hloop : Reports succ (enter m v) (succ v) ((succ v).foldlM (visit succ n) (enter m v)) := by
          refine foldlM_reports (fun m' ↦ Extends (colour (enter m v)) (colour m'))
            (fun _ _ h h' ↦ h.trans h') (succ v) (fun m' w hw hfin' hext ↦ ?_) ?_ (.refl _)
          · refine ih m' w (hclosed v hU w hw) hfin' (fun g hg ↦ ?_) ?_
            · have hg' := (hext.gray g).mp hg
              rw [colour_enter] at hg'
              by_cases he : g = v
              · rw [he]
                exact .single hw
              · rw [Function.update_of_ne he] at hg'
                exact (hpath g hg').tail hw
            · have hle := Finset.card_le_card (hext.whites_subset (U := U))
              rw [colour_enter] at hle
              omega
          · rw [colour_enter]
            exact hfin.update_gray hwhite
        cases hr : (succ v).foldlM (visit succ n) (enter m v) with
        | error =>
          rw [hr] at hloop
          exact hloop
        | ok m' =>
          rw [hr] at hloop
          obtain ⟨hfin', hext, hdone⟩ := hloop
          rw [colour_enter] at hext
          have hv : colour m' v = .gray := (hext.gray v).mpr (by simp)
          have hne {x : V} (hx : colour m x ≠ .white) : x ≠ v := fun he ↦ hx (he ▸ hwhite)
          refine ⟨?_, ⟨fun x ↦ ?_, fun x hx ↦ ?_⟩, List.forall_mem_singleton.mpr ?_⟩
          · rw [colour_leave]
            exact hfin'.update_black hv hdone
          · rw [colour_leave]
            by_cases he : x = v
            · simp [he, hwhite]
            · have h := hext.gray x
              rwa [Function.update_of_ne he] at h ⊢
          · have he := hne (x := x) (by rw [hx]; decide)
            rw [colour_leave, Function.update_of_ne he]
            exact hext.black x (by rwa [Function.update_of_ne he])
          · rw [colour_leave, Function.update_self]

theorem isOk_visits_iff (hclosed : ∀ x ∈ U, ∀ w ∈ succ x, w ∈ U) {n : ℕ} (hn : U.card < n)
    {vs : List V} (hvs : ∀ v ∈ vs, v ∈ U) (hall : ∀ v, succ v ≠ [] → v ∈ vs) :
    (vs.foldlM (visit succ n) unmarked).isOk = true ↔ Acyclic succ := by
  have hfin : Finished succ (colour (unmarked : Marks V)) :=
    ⟨(fun _ h ↦ nomatch h), (fun _ h ↦ nomatch h)⟩
  have hloop := foldlM_reports (fun m ↦ ∀ x, colour m x ≠ .gray)
    (fun _ _ h hext x hx ↦ h x ((hext.gray x).mp hx)) vs
    (fun m v hv hfin hgray ↦ visit_reports hclosed n m v (hvs v hv) hfin
      (fun g hg ↦ absurd hg (hgray g)) ((Finset.card_filter_le U _).trans_lt hn))
    hfin (fun _ h ↦ nomatch h)
  cases hr : vs.foldlM (visit succ n) unmarked with
  | error =>
    rw [hr] at hloop
    obtain ⟨y, hy⟩ := hloop
    exact ⟨(fun h ↦ nomatch h), fun h ↦ absurd hy (h y)⟩
  | ok =>
    rw [hr] at hloop
    obtain ⟨hfin', -, hblack⟩ := hloop
    refine ⟨fun _ v hv ↦ ?_, fun _ ↦ rfl⟩
    obtain ⟨_, hw, -⟩ := TransGen.head'_iff.mp hv
    exact hfin'.acyclic v (hblack v (hall v (List.ne_nil_of_mem hw))) hv

end PolicyEngine.Graph.Marking

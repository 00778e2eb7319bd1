import PolicyEngine.Graph.Search

namespace PolicyEngine.Graph.Cycle

open Relation PolicyEngine.Graph.Search

/-- White vertices are untouched, gray ones are on the current path and black
ones are finished. -/
inductive Colour
  | white
  | gray
  | black
deriving DecidableEq, Repr

variable {V : Type}

def scan (descend : (V → Colour) → V → (V → Colour) × Bool) :
    (V → Colour) → List V → (V → Colour) × Bool
  | c, [] => (c, false)
  | c, w :: ws =>
    match c w with
    | .gray => (c, true)
    | .black => scan descend c ws
    | .white => if (descend c w).2 then descend c w else scan descend (descend c w).1 ws

def search [DecidableEq V] (succ : V → List V) : ℕ → (V → Colour) → V → (V → Colour) × Bool
  | 0, c, _ => (c, false)
  | n + 1, c, v =>
    let r := scan (search succ n) (Function.update c v .gray) (succ v)
    if r.2 then r else (Function.update r.1 v .black, false)

def sweep [DecidableEq V] (succ : V → List V) (n : ℕ) : (V → Colour) → List V → Bool
  | _, [] => false
  | c, v :: vs =>
    if c v = .white then
      if (search succ n c v).2 then true else sweep succ n (search succ n c v).1 vs
    else sweep succ n c vs

variable {succ : V → List V} {U : Finset V} {c c' : V → Colour}

structure Finished (succ : V → List V) (c : V → Colour) : Prop where
  closed : ∀ v, c v = .black → ∀ w ∈ succ v, c w = .black
  acyclic : ∀ v, c v = .black → ¬ TransGen (Edge succ) v v

structure Extends (c c' : V → Colour) : Prop where
  gray : ∀ x, c' x = .gray ↔ c x = .gray
  black : ∀ x, c x = .black → c' x = .black

theorem Extends.refl (c : V → Colour) : Extends c c := ⟨fun _ ↦ Iff.rfl, fun _ h ↦ h⟩

theorem Extends.trans {d : V → Colour} (h : Extends c c') (h' : Extends c' d) : Extends c d :=
  ⟨fun x ↦ (h'.gray x).trans (h.gray x), fun x hx ↦ h'.black x (h.black x hx)⟩

theorem Extends.white (h : Extends c c') {x : V} (hx : c' x = .white) : c x = .white := by
  cases hc : c x with
  | white => rfl
  | gray => rw [(h.gray x).mpr hc] at hx; cases hx
  | black => rw [h.black x hc] at hx; cases hx

theorem Finished.black_of_reach (h : Finished succ c) {v x : V} (hv : c v = .black)
    (hx : ReflTransGen (Edge succ) v x) : c x = .black := by
  induction hx with
  | refl => exact hv
  | tail _ he ih => exact h.closed _ ih _ he

def whites (U : Finset V) (c : V → Colour) : Finset V := U.filter fun x ↦ c x = .white

theorem Extends.whites_subset (h : Extends c c') : whites U c' ⊆ whites U c := by
  intro _ hx
  simp only [whites, Finset.mem_filter] at hx ⊢
  exact ⟨hx.1, h.white hx.2⟩

variable [DecidableEq V]

theorem whites_update_lt {v : V} (hU : v ∈ U) (hv : c v = .white) :
    (whites U (Function.update c v .gray)).card < (whites U c).card := by
  apply Finset.card_lt_card
  refine Finset.ssubset_iff_of_subset (fun x hx ↦ ?_) |>.mpr ⟨v, ?_, ?_⟩
  · simp only [whites, Finset.mem_filter] at hx ⊢
    refine ⟨hx.1, ?_⟩
    by_cases h : x = v
    · rwa [h]
    · simpa [Function.update_of_ne h] using hx.2
  · simp [whites, hU, hv]
  · simp [whites]

theorem Finished.update_gray {v : V} (h : Finished succ c) (hv : c v = .white) :
    Finished succ (Function.update c v .gray) := by
  have hne {x : V} (hx : Function.update c v .gray x = .black) : c x = .black := by
    by_cases h : x = v
    · simp [h] at hx
    · rwa [Function.update_of_ne h] at hx
  refine ⟨fun x hx w hw ↦ ?_, fun x hx ↦ h.acyclic x (hne hx)⟩
  have hb := h.closed x (hne hx) w hw
  rw [Function.update_of_ne (fun he ↦ by rw [he, hv] at hb; cases hb)]
  exact hb

/-- A vertex all of whose successors are black can be blackened: a cycle
through it would have to come back to it through black vertices. -/
theorem Finished.update_black {v : V} (h : Finished succ c) (hv : c v = .gray)
    (hs : ∀ w ∈ succ v, c w = .black) : Finished succ (Function.update c v .black) := by
  have hblack {x : V} (hx : c x = .black) : Function.update c v .black x = .black := by
    by_cases he : x = v
    · simp [he]
    · rwa [Function.update_of_ne he]
  constructor
  · intro x hx w hw
    by_cases he : x = v
    · exact hblack (hs w (he ▸ hw))
    · rw [Function.update_of_ne he] at hx
      exact hblack (h.closed x hx w hw)
  · intro x hx hcyc
    by_cases he : x = v
    · subst he
      obtain ⟨w, hw, hreach⟩ := TransGen.head'_iff.mp hcyc
      rw [h.black_of_reach (hs w hw) hreach] at hv
      cases hv
    · rw [Function.update_of_ne he] at hx
      exact h.acyclic x hx hcyc

/-- What a search reports: a cycle it really found, or a colouring in which
the vertices `vs` are finished. -/
def Reports (succ : V → List V) (c : V → Colour) (vs : List V) (r : (V → Colour) × Bool) : Prop :=
  if r.2 then ∃ x, TransGen (Edge succ) x x
  else Finished succ r.1 ∧ Extends c r.1 ∧ ∀ v ∈ vs, r.1 v = .black

omit [DecidableEq V] in
theorem scan_reports {descend : (V → Colour) → V → (V → Colour) × Bool} {v : V} (m : ℕ)
    (hdescend : ∀ c w, w ∈ succ v → c w = .white → Finished succ c →
      (∀ g, c g = .gray → ReflTransGen (Edge succ) g v) → (whites U c).card ≤ m →
      Reports succ c [w] (descend c w))
    (ws : List V) (c : V → Colour) (hws : ∀ w ∈ ws, w ∈ succ v) (hfin : Finished succ c)
    (hpath : ∀ g, c g = .gray → ReflTransGen (Edge succ) g v) (hm : (whites U c).card ≤ m) :
    Reports succ c ws (scan descend c ws) := by
  induction ws generalizing c with
  | nil => simp [scan, Reports, hfin, Extends.refl]
  | cons w ws ih =>
    have hw : w ∈ succ v := hws w List.mem_cons_self
    have hrest : ∀ x ∈ ws, x ∈ succ v := fun x hx ↦ hws x (List.mem_cons_of_mem w hx)
    rw [scan]
    cases hcw : c w with
    | gray =>
      simp only [Reports, if_true]
      exact ⟨w, TransGen.tail' (hpath w hcw) hw⟩
    | black =>
      have h := ih c hrest hfin hpath hm
      simp only [Reports, List.forall_mem_cons] at h ⊢
      split_ifs at h ⊢
      · exact h
      · exact ⟨h.1, h.2.1, h.2.1.black w hcw, h.2.2⟩
    | white =>
      have h := hdescend c w hw hcw hfin hpath hm
      by_cases hr : (descend c w).2
      · simp only [Reports, hr, if_true] at h ⊢
        exact h
      · simp only [Reports, hr, Bool.false_eq_true, if_false, List.forall_mem_singleton] at h
        obtain ⟨hfin', hext, hblack⟩ := h
        have h' := ih (descend c w).1 hrest hfin' (fun g hg ↦ hpath g ((hext.gray g).mp hg))
          ((Finset.card_le_card hext.whites_subset).trans hm)
        simp only [hr, Bool.false_eq_true, if_false]
        simp only [Reports, List.forall_mem_cons] at h' ⊢
        split_ifs at h' ⊢
        · exact h'
        · exact ⟨h'.1, hext.trans h'.2.1, h'.2.1.black w hblack, h'.2.2⟩

theorem search_reports (hclosed : ∀ x ∈ U, ∀ w ∈ succ x, w ∈ U) (n : ℕ) (c : V → Colour) (v : V)
    (hU : v ∈ U) (hv : c v = .white) (hfin : Finished succ c)
    (hpath : ∀ g, c g = .gray → TransGen (Edge succ) g v) (hn : (whites U c).card ≤ n) :
    Reports succ c [v] (search succ n c v) := by
  induction n generalizing c v with
  | zero =>
    have hmem : v ∈ whites U c := by simp [whites, hU, hv]
    rw [Finset.card_eq_zero.mp (Nat.le_zero.mp hn)] at hmem
    exact absurd hmem (Finset.notMem_empty v)
  | succ n ih =>
    have hpath' (g : V) (hg : Function.update c v .gray g = .gray) :
        ReflTransGen (Edge succ) g v := by
      by_cases he : g = v
      · rw [he]
      · exact (hpath g (by rwa [Function.update_of_ne he] at hg)).to_reflTransGen
    have hfuel := whites_update_lt hU hv
    have h := scan_reports n
      (fun d w hw hdw hfd hpd hd ↦ ih d w (hclosed v hU w hw) hdw hfd
        (fun g hg ↦ TransGen.tail' (hpd g hg) hw) hd)
      (succ v) (Function.update c v .gray) (fun _ h ↦ h) (hfin.update_gray hv) hpath' (by omega)
    simp only [search]
    set r := scan (search succ n) (Function.update c v .gray) (succ v) with hrdef
    by_cases hr : r.2
    · simp only [Reports, hr, if_true] at h ⊢
      exact h
    · simp only [Reports, hr, Bool.false_eq_true, if_false, List.forall_mem_singleton] at h ⊢
      obtain ⟨hfin', hext, hblack⟩ := h
      have hgray : r.1 v = .gray := (hext.gray v).mpr (by simp)
      refine ⟨hfin'.update_black hgray hblack, ⟨fun x ↦ ?_, fun x hx ↦ ?_⟩, by simp⟩
      · by_cases he : x = v
        · simp [he, hv]
        · have h := hext.gray x
          rwa [Function.update_of_ne he] at h ⊢
      · have he : x ≠ v := fun he ↦ by rw [he, hv] at hx; cases hx
        rw [Function.update_of_ne he]
        exact hext.black x (by rwa [Function.update_of_ne he])

theorem sweep_spec (hclosed : ∀ x ∈ U, ∀ w ∈ succ x, w ∈ U) {n : ℕ} (hn : U.card ≤ n)
    (vs : List V) (c : V → Colour) (hvs : ∀ v ∈ vs, v ∈ U) (hfin : Finished succ c)
    (hgray : ∀ x, c x ≠ .gray) :
    if sweep succ n c vs then ∃ x, TransGen (Edge succ) x x
    else ∀ v ∈ vs, ¬ TransGen (Edge succ) v v := by
  induction vs generalizing c with
  | nil => simp [sweep]
  | cons v vs ih =>
    have hrest : ∀ x ∈ vs, x ∈ U := fun x hx ↦ hvs x (List.mem_cons_of_mem v hx)
    rw [sweep]
    by_cases hv : c v = .white
    · have h := search_reports hclosed n c v (hvs v List.mem_cons_self) hv hfin
        (fun g hg ↦ absurd hg (hgray g)) ((Finset.card_filter_le U _).trans hn)
      rw [if_pos hv]
      by_cases hr : (search succ n c v).2
      · simp only [Reports, hr, if_true] at h ⊢
        exact h
      · simp only [Reports, hr, Bool.false_eq_true, if_false, List.forall_mem_singleton] at h ⊢
        obtain ⟨hfin', hext, hblack⟩ := h
        have h' := ih (search succ n c v).1 hrest hfin' (fun x hx ↦ hgray x ((hext.gray x).mp hx))
        split_ifs at h' ⊢
        · exact h'
        · exact List.forall_mem_cons.mpr ⟨hfin'.acyclic v hblack, h'⟩
    · rw [if_neg hv]
      have hblack : c v = .black := by
        cases hc : c v with
        | white => exact absurd hc hv
        | gray => exact absurd hc (hgray v)
        | black => rfl
      have h' := ih c hrest hfin hgray
      split_ifs at h' ⊢
      · exact h'
      · exact List.forall_mem_cons.mpr ⟨hfin.acyclic v hblack, h'⟩

theorem sweep_eq_false_iff (hclosed : ∀ x ∈ U, ∀ w ∈ succ x, w ∈ U) {n : ℕ} (hn : U.card ≤ n)
    {vs : List V} (hvs : ∀ v ∈ vs, v ∈ U) (hall : ∀ v, succ v ≠ [] → v ∈ vs) :
    sweep succ n (fun _ ↦ .white) vs = false ↔ Acyclic succ := by
  have h := sweep_spec hclosed hn vs (fun _ ↦ .white) hvs
    ⟨(fun _ hv ↦ nomatch hv), (fun _ hv ↦ nomatch hv)⟩ (fun _ hx ↦ nomatch hx)
  cases hs : sweep succ n (fun _ ↦ .white) vs with
  | true =>
    rw [hs, if_pos rfl] at h
    obtain ⟨x, hx⟩ := h
    exact ⟨fun hf ↦ absurd hf (by simp), fun ha ↦ absurd hx (ha x)⟩
  | false =>
    rw [hs, if_neg (by simp)] at h
    refine ⟨fun _ v hv ↦ h v (hall v ?_) hv, fun _ ↦ rfl⟩
    obtain ⟨_, hw, _⟩ := TransGen.head'_iff.mp hv
    exact List.ne_nil_of_mem hw

end PolicyEngine.Graph.Cycle

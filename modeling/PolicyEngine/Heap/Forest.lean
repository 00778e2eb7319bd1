import Mathlib.Data.List.Induction
import Mathlib.Logic.Function.Basic
import Mathlib.Tactic.SplitIfs

namespace PolicyEngine.Heap

open Function

variable {W K α : Type}

structure Cell (W K α : Type) where
  key : K
  children : W → List ℕ
  items : List α

def Cell.blank (k : K) : Cell W K α := ⟨k, fun _ ↦ [], []⟩

structure Store (W K α : Type) where
  cells : ℕ → Cell W K α
  next : ℕ

namespace Store

def alloc (σ : Store W K α) (k : K) : Store W K α :=
  ⟨update σ.cells σ.next (.blank k), σ.next + 1⟩

def push (σ : Store W K α) (r : ℕ) (a : α) : Store W K α :=
  { σ with cells := update σ.cells r { σ.cells r with items := (σ.cells r).items ++ [a] } }

/-- No cell has two parents, links lead to allocated cells, and what is not
allocated is empty. -/
structure Owned (σ : Store W K α) : Prop where
  bounded : ∀ {p h c}, c ∈ (σ.cells p).children h → c < σ.next
  parent : ∀ {p p' h h' c}, c ∈ (σ.cells p).children h → c ∈ (σ.cells p').children h' → p = p'
  blank : ∀ {p}, σ.next ≤ p → (∀ h, (σ.cells p).children h = []) ∧ (σ.cells p).items = []

structure Grows (σ σ' : Store W K α) : Prop where
  next_le : σ.next ≤ σ'.next
  key : ∀ {x}, x < σ.next → (σ'.cells x).key = (σ.cells x).key
  children : ∀ {x}, x < σ.next → ∀ h, ∃ new,
    (σ'.cells x).children h = (σ.cells x).children h ++ new ∧ ∀ c ∈ new, σ.next ≤ c
  fresh : ∀ {x}, σ.next ≤ x → ∀ {h c}, c ∈ (σ'.cells x).children h → σ.next ≤ c
  items : ∀ x, (σ'.cells x).items = (σ.cells x).items

variable {σ σ' σ'' : Store W K α}

theorem Grows.refl (hσ : σ.Owned) : σ.Grows σ where
  next_le := Nat.le_refl _
  key _ := rfl
  children _ _ := ⟨[], by simp⟩
  fresh hx _ _ hc := by simp [(hσ.blank hx).1] at hc
  items _ := rfl

theorem Grows.trans (h : σ.Grows σ') (h' : σ'.Grows σ'') : σ.Grows σ'' where
  next_le := Nat.le_trans h.next_le h'.next_le
  key hx := (h'.key (Nat.lt_of_lt_of_le hx h.next_le)).trans (h.key hx)
  children hx w := by
    obtain ⟨new, hnew, hle⟩ := h.children hx w
    obtain ⟨new', hnew', hle'⟩ := h'.children (Nat.lt_of_lt_of_le hx h.next_le) w
    refine ⟨new ++ new', by rw [hnew', hnew, List.append_assoc], fun c hc ↦ ?_⟩
    rcases List.mem_append.mp hc with hc | hc
    · exact hle c hc
    · exact Nat.le_trans h.next_le (hle' c hc)
  fresh {x} hx w c hc := by
    by_cases hx' : x < σ'.next
    · obtain ⟨_, hnew', hle'⟩ := h'.children hx' w
      rw [hnew'] at hc
      rcases List.mem_append.mp hc with hc | hc
      · exact h.fresh hx hc
      · exact Nat.le_trans h.next_le (hle' c hc)
    · exact Nat.le_trans h.next_le (h'.fresh (Nat.not_lt.mp hx') hc)
  items x := (h'.items x).trans (h.items x)

section Cells

variable {r : ℕ} {k : K} {a : α}

theorem children_push (x : ℕ) : ((σ.push r a).cells x).children = (σ.cells x).children := by
  by_cases hx : x = r
  · subst hx
    simp [push]
  · simp [push, hx]

theorem key_push (x : ℕ) : ((σ.push r a).cells x).key = (σ.cells x).key := by
  by_cases hx : x = r
  · subst hx
    simp [push]
  · simp [push, hx]

theorem items_push (x : ℕ) :
    ((σ.push r a).cells x).items = (σ.cells x).items ++ if x = r then [a] else [] := by
  by_cases hx : x = r
  · subst hx
    simp [push]
  · simp [push, hx]

theorem owned_push (hσ : σ.Owned) (hr : r < σ.next) : (σ.push r a).Owned where
  bounded hc := hσ.bounded (children_push _ ▸ hc)
  parent hc hc' := hσ.parent (children_push _ ▸ hc) (children_push _ ▸ hc')
  blank {p} hp := by
    have hpr : p ≠ r := fun h ↦ Nat.not_lt.mpr hp (h ▸ hr)
    rw [children_push, items_push, if_neg hpr]
    exact ⟨(hσ.blank hp).1, by rw [(hσ.blank hp).2]; rfl⟩

def AgreeBelow (n : ℕ) (σ σ' : Store W K α) : Prop := ∀ x < n, σ'.cells x = σ.cells x

theorem agreeBelow_alloc : AgreeBelow σ.next σ (σ.alloc k) :=
  fun x hx ↦ by simp [alloc, Nat.ne_of_lt hx]

theorem children_alloc (hσ : σ.Owned) (x : ℕ) (w : W) :
    ((σ.alloc k).cells x).children w = (σ.cells x).children w := by
  by_cases hx : x = σ.next
  · subst hx
    simp [alloc, Cell.blank, (hσ.blank (Nat.le_refl _)).1]
  · simp [alloc, hx]

theorem items_alloc (hσ : σ.Owned) (x : ℕ) :
    ((σ.alloc k).cells x).items = (σ.cells x).items := by
  by_cases hx : x = σ.next
  · subst hx
    simp [alloc, Cell.blank, (hσ.blank (Nat.le_refl _)).2]
  · simp [alloc, hx]

theorem owned_alloc (hσ : σ.Owned) : (σ.alloc k).Owned where
  bounded hc := Nat.lt_succ_of_lt (hσ.bounded (children_alloc hσ _ _ ▸ hc))
  parent hc hc' := hσ.parent (children_alloc hσ _ _ ▸ hc) (children_alloc hσ _ _ ▸ hc')
  blank {p} hp := by
    have hle : σ.next ≤ p := Nat.le_of_succ_le hp
    exact ⟨fun w ↦ (children_alloc hσ p w).trans ((hσ.blank hle).1 w),
      (items_alloc hσ p).trans (hσ.blank hle).2⟩

/-- From the cells numbered `n` on, links lead to cells numbered `n` on. -/
structure Region (n : ℕ) (σ : Store W K α) : Prop where
  le_next : n ≤ σ.next
  closed : ∀ {p}, n ≤ p → ∀ {w c}, c ∈ (σ.cells p).children w → n ≤ c

theorem region_next (hσ : σ.Owned) : Region σ.next σ :=
  ⟨Nat.le_refl _, fun hp _ _ hc ↦ by simp [(hσ.blank hp).1] at hc⟩

end Cells

variable [DecidableEq K] (hash : K → W)

def find (σ : Store W K α) (refs : List ℕ) (k : K) : Option ℕ :=
  refs.find? fun r ↦ (σ.cells r).key = k

def walkFrom (σ : Store W K α) (r : ℕ) : List K → Option ℕ
  | [] => some r
  | k :: ks =>
    match σ.find ((σ.cells r).children (hash k)) k with
    | some c => walkFrom σ c ks
    | none => none

def itemsFrom (σ : Store W K α) (r : ℕ) (ks : List K) : List α :=
  match σ.walkFrom hash r ks with
  | some c => (σ.cells c).items
  | none => []

section Find

variable {refs : List ℕ} {k : K} {c : ℕ}

theorem mem_of_find (h : σ.find refs k = some c) : c ∈ refs := List.mem_of_find?_eq_some h

theorem key_of_find (h : σ.find refs k = some c) : (σ.cells c).key = k := by
  simpa using List.find?_some h

theorem find_congr (h : ∀ c ∈ refs, (σ'.cells c).key = (σ.cells c).key) :
    σ'.find refs k = σ.find refs k := by
  unfold find
  induction refs with
  | nil => rfl
  | cons r _ ih =>
    rw [List.find?_cons, List.find?_cons, h r List.mem_cons_self,
      ih fun c hc ↦ h c (List.mem_cons_of_mem r hc)]

theorem find_append (refs' : List ℕ) :
    σ.find (refs ++ refs') k = (σ.find refs k).or (σ.find refs' k) := List.find?_append

end Find

section Walk

variable {hash} {x y r c : ℕ} {k : K} {ks : List K}

/-- In a store that has grown, a search below an old cell finds what it found
before, or a new cell where it found nothing. -/
theorem Grows.find (h : σ.Grows σ') (hσ : σ.Owned) (hx : x < σ.next) (w : W) (k : K) :
    ∃ new, σ'.find ((σ'.cells x).children w) k = (σ.find ((σ.cells x).children w) k).or new ∧
      ∀ c, new = some c → σ.next ≤ c := by
  obtain ⟨new, hnew, hle⟩ := h.children hx w
  refine ⟨σ'.find new k, ?_, fun c hc ↦ hle c (mem_of_find hc)⟩
  rw [hnew, find_append, find_congr fun c hc ↦ h.key (hσ.bounded hc)]

theorem walkFrom_lt (hσ : σ.Owned) (hx : x < σ.next)
    (hwalk : σ.walkFrom hash x ks = some y) : y < σ.next := by
  induction ks generalizing x with
  | nil => exact Option.some.inj hwalk ▸ hx
  | cons k _ ih =>
    unfold Store.walkFrom at hwalk
    cases hc : σ.find ((σ.cells x).children (hash k)) k with
    | none => simp [hc] at hwalk
    | some =>
      rw [hc] at hwalk
      exact ih (hσ.bounded (mem_of_find hc)) hwalk

theorem Grows.walkFrom (h : σ.Grows σ') (hσ : σ.Owned) (hx : x < σ.next)
    (hwalk : σ.walkFrom hash x ks = some y) : σ'.walkFrom hash x ks = some y := by
  induction ks generalizing x with
  | nil => exact hwalk
  | cons k _ ih =>
    obtain ⟨_, hfind, -⟩ := h.find hσ hx (hash k) k
    unfold Store.walkFrom at hwalk ⊢
    cases hc : σ.find ((σ.cells x).children (hash k)) k with
    | none => simp [hc] at hwalk
    | some =>
      rw [hc] at hwalk hfind
      rw [hfind]
      exact ih (hσ.bounded (mem_of_find hc)) hwalk

theorem Grows.walkFrom_fresh (h : σ.Grows σ') (hx : σ.next ≤ x)
    (hwalk : σ'.walkFrom hash x ks = some y) : σ.next ≤ y := by
  induction ks generalizing x with
  | nil => exact Option.some.inj hwalk ▸ hx
  | cons k _ ih =>
    unfold Store.walkFrom at hwalk
    cases hc : σ'.find ((σ'.cells x).children (hash k)) k with
    | none => simp [hc] at hwalk
    | some =>
      rw [hc] at hwalk
      exact ih (h.fresh hx (mem_of_find hc)) hwalk

theorem Grows.walkFrom_old (h : σ.Grows σ') (hσ : σ.Owned) (hx : x < σ.next)
    (hwalk : σ'.walkFrom hash x ks = some y) (hy : y < σ.next) :
    σ.walkFrom hash x ks = some y := by
  induction ks generalizing x with
  | nil => exact hwalk
  | cons k _ ih =>
    obtain ⟨new, hfind, hnew⟩ := h.find hσ hx (hash k) k
    unfold Store.walkFrom at hwalk ⊢
    rw [hfind] at hwalk
    cases hc : σ.find ((σ.cells x).children (hash k)) k with
    | some =>
      rw [hc] at hwalk
      exact ih (hσ.bounded (mem_of_find hc)) hwalk
    | none =>
      rw [hc, Option.none_or] at hwalk
      cases hnew' : new with
      | none => simp [hnew'] at hwalk
      | some c =>
        rw [hnew'] at hwalk
        exact absurd (h.walkFrom_fresh (hnew c hnew') hwalk) (Nat.not_le.mpr hy)

theorem walkFrom_append (x : ℕ) (ks ks' : List K) :
    σ.walkFrom hash x (ks ++ ks') = (σ.walkFrom hash x ks).bind (σ.walkFrom hash · ks') := by
  induction ks generalizing x with
  | nil => rfl
  | cons k _ ih =>
    simp only [List.cons_append, Store.walkFrom]
    cases σ.find ((σ.cells x).children (hash k)) k with
    | none => rfl
    | some c => exact ih c

theorem walkFrom_singleton (x : ℕ) (k : K) :
    σ.walkFrom hash x [k] = σ.find ((σ.cells x).children (hash k)) k := by
  simp only [Store.walkFrom]
  cases σ.find ((σ.cells x).children (hash k)) k <;> rfl

theorem walkFrom_cons (h : σ.walkFrom hash x [k] = some c) :
    σ.walkFrom hash x (k :: ks) = σ.walkFrom hash c ks := by
  rw [← List.singleton_append, walkFrom_append, h]
  rfl

theorem walkFrom_inj (hσ : σ.Owned) {q : List K} (hlen : q.length = ks.length)
    (hq : σ.walkFrom hash x q = some y) (hks : σ.walkFrom hash r ks = some y) :
    x = r ∧ q = ks := by
  -- From the end of the paths: the common last cell has one parent and one key.
  induction ks using List.reverseRecOn generalizing q y with
  | nil =>
    obtain rfl := List.length_eq_zero_iff.mp hlen
    exact ⟨(Option.some.inj hq).trans (Option.some.inj hks).symm, rfl⟩
  | append_singleton _ _ ih =>
    obtain rfl | ⟨q, _, rfl⟩ := List.eq_nil_or_concat q
    · simp at hlen
    rw [List.concat_eq_append] at hlen hq ⊢
    rw [walkFrom_append, Option.bind_eq_some_iff] at hq hks
    obtain ⟨_, hp, hlast⟩ := hq
    obtain ⟨_, hp', hlast'⟩ := hks
    rw [walkFrom_singleton] at hlast hlast'
    obtain rfl := hσ.parent (mem_of_find hlast) (mem_of_find hlast')
    obtain ⟨rfl, rfl⟩ := ih (by simpa using hlen) hp hp'
    rw [← key_of_find hlast, ← key_of_find hlast']
    exact ⟨rfl, rfl⟩

end Walk

variable [DecidableEq W]

def link (σ : Store W K α) (r : ℕ) (k : K) : Store W K α :=
  let table := update (σ.cells r).children (hash k) ((σ.cells r).children (hash k) ++ [σ.next])
  { σ.alloc k with cells := update (σ.alloc k).cells r { σ.cells r with children := table } }

section Link

variable {hash} {r : ℕ} {k : K} (hσ : σ.Owned) (hr : r < σ.next)

include hσ hr

omit [DecidableEq K]

theorem children_link (x : ℕ) (w : W) :
    ((σ.link hash r k).cells x).children w =
      (σ.cells x).children w ++ if x = r ∧ w = hash k then [σ.next] else [] := by
  by_cases hx : x = r
  · subst hx
    by_cases hw : w = hash k
    · subst hw
      simp [link]
    · simp [link, hw]
  · by_cases hnext : x = σ.next
    · subst hnext
      simp [link, alloc, hx, Cell.blank, (hσ.blank (Nat.le_refl _)).1]
    · simp [link, alloc, hx, hnext]

theorem items_link (x : ℕ) : ((σ.link hash r k).cells x).items = (σ.cells x).items := by
  by_cases hx : x = r
  · subst hx
    simp [link]
  · by_cases hnext : x = σ.next
    · subst hnext
      simp [link, alloc, hx, Cell.blank, (hσ.blank (Nat.le_refl _)).2]
    · simp [link, alloc, hx, hnext]

omit hσ in
theorem key_link (x : ℕ) :
    ((σ.link hash r k).cells x).key = if x = σ.next then k else (σ.cells x).key := by
  by_cases hx : x = r
  · subst hx
    simp [link, Nat.ne_of_lt hr]
  · by_cases hnext : x = σ.next
    · subst hnext
      simp [link, alloc, hx, Cell.blank]
    · simp [link, alloc, hx, hnext]

theorem mem_children_link {x c : ℕ} {w : W} :
    c ∈ ((σ.link hash r k).cells x).children w ↔
      c ∈ (σ.cells x).children w ∨ c = σ.next ∧ x = r ∧ w = hash k := by
  rw [children_link hσ hr, List.mem_append]
  split_ifs with h <;> simp [h]

theorem grows_link : σ.Grows (σ.link hash r k) where
  next_le := Nat.le_succ _
  key {x} hx := by rw [key_link hr, if_neg (Nat.ne_of_lt hx)]
  children {x} _ w := by
    refine ⟨_, children_link hσ hr x w, fun c hc ↦ ?_⟩
    split_ifs at hc
    · exact Nat.le_of_eq (List.mem_singleton.mp hc).symm
    · exact nomatch hc
  fresh {x} hx w c hc := by
    rcases (mem_children_link hσ hr).mp hc with hc | ⟨rfl, -, -⟩
    · simp [(hσ.blank hx).1] at hc
    · exact Nat.le_refl _
  items := items_link hσ hr

theorem owned_link : (σ.link hash r k).Owned where
  bounded {p w c} hc := by
    rcases (mem_children_link hσ hr).mp hc with hc | ⟨rfl, -, -⟩
    · exact Nat.lt_succ_of_lt (hσ.bounded hc)
    · exact Nat.lt_succ_self _
  parent {p p' w w' c} hc hc' := by
    rcases (mem_children_link hσ hr).mp hc with hc | ⟨hnext, hp, -⟩ <;>
      rcases (mem_children_link hσ hr).mp hc' with hc' | ⟨_, hp', -⟩
    · exact hσ.parent hc hc'
    · exact absurd (hσ.bounded hc) (by omega)
    · exact absurd (hσ.bounded hc') (by omega)
    · rw [hp, hp']
  blank {p} hp := by
    have hlt : σ.next < p := hp
    refine ⟨fun w ↦ ?_, ?_⟩
    · rw [children_link hσ hr, (hσ.blank (Nat.le_of_lt hlt)).1, if_neg (fun h ↦ by omega)]
      rfl
    · rw [items_link hσ hr, (hσ.blank (Nat.le_of_lt hlt)).2]

end Link

def child (σ : Store W K α) (r : ℕ) (k : K) : ℕ × Store W K α :=
  match σ.find ((σ.cells r).children (hash k)) k with
  | some c => (c, σ)
  | none => (σ.next, σ.link hash r k)

def reach (σ : Store W K α) (r : ℕ) : List K → ℕ × Store W K α
  | [] => (r, σ)
  | k :: ks => reach (σ.child hash r k).2 (σ.child hash r k).1 ks

structure Reached (σ σ' : Store W K α) (r : ℕ) (ks : List K) (c : ℕ) : Prop where
  grows : σ.Grows σ'
  owned : σ'.Owned
  bound : c < σ'.next
  walk : σ'.walkFrom hash r ks = some c

section Reach

variable {hash} {r : ℕ} {k : K}

theorem reached_child (hσ : σ.Owned) (hr : r < σ.next) :
    Reached hash σ (σ.child hash r k).2 r [k] (σ.child hash r k).1 := by
  unfold child
  cases hc : σ.find ((σ.cells r).children (hash k)) k with
  | some => exact ⟨.refl hσ, hσ, hσ.bounded (mem_of_find hc), by simp [walkFrom, hc]⟩
  | none =>
    refine ⟨grows_link hσ hr, owned_link hσ hr, Nat.lt_succ_self _, ?_⟩
    have hkeys : ∀ c ∈ (σ.cells r).children (hash k),
        ((σ.link hash r k).cells c).key = (σ.cells c).key :=
      fun c hc ↦ (grows_link hσ hr).key (hσ.bounded hc)
    rw [walkFrom_singleton, children_link hσ hr, if_pos ⟨rfl, rfl⟩, find_append, find_congr hkeys, hc]
    simp [find, key_link hr]

theorem reached_reach (hσ : σ.Owned) (hr : r < σ.next) (ks : List K) :
    Reached hash σ (σ.reach hash r ks).2 r ks (σ.reach hash r ks).1 := by
  induction ks generalizing σ r with
  | nil => exact ⟨.refl hσ, hσ, hr, rfl⟩
  | cons k _ ih =>
    have hchild : Reached hash σ _ r [k] _ := reached_child hσ hr
    have hrest := ih hchild.owned hchild.bound
    refine ⟨hchild.grows.trans hrest.grows, hrest.owned, hrest.bound, ?_⟩
    have hstep := hrest.grows.walkFrom hchild.owned
      (Nat.lt_of_lt_of_le hr hchild.grows.next_le) hchild.walk
    exact (walkFrom_cons hstep).trans hrest.walk

end Reach

section Push

variable {hash} {r : ℕ} {a : α}

omit [DecidableEq W] in
theorem walkFrom_push (x : ℕ) (ks : List K) :
    (σ.push r a).walkFrom hash x ks = σ.walkFrom hash x ks := by
  induction ks generalizing x with
  | nil => rfl
  | cons _ _ ih =>
    simp only [walkFrom, children_push, find_congr fun c _ ↦ key_push c, ih]

theorem itemsFrom_reach_push (hσ : σ.Owned) (hr : r < σ.next) {x : ℕ} (hx : x < σ.next)
    {ks q : List K} (hlen : q.length = ks.length) :
    ((σ.reach hash r ks).2.push (σ.reach hash r ks).1 a).itemsFrom hash x q =
      σ.itemsFrom hash x q ++ if x = r ∧ q = ks then [a] else [] := by
  have hreach : Reached hash σ (σ.reach hash r ks).2 r ks (σ.reach hash r ks).1 :=
    reached_reach hσ hr ks
  generalize (σ.reach hash r ks).1 = c, (σ.reach hash r ks).2 = σ₁ at *
  unfold itemsFrom
  rw [walkFrom_push]
  cases hwalk : σ₁.walkFrom hash x q with
  | none =>
    have hbefore : σ.walkFrom hash x q = none := by
      cases hy : σ.walkFrom hash x q with
      | none => rfl
      | some => exact nomatch hwalk.symm.trans (hreach.grows.walkFrom hσ hx hy)
    have hcond : ¬ (x = r ∧ q = ks) := by
      rintro ⟨rfl, rfl⟩
      exact nomatch hwalk.symm.trans hreach.walk
    rw [hbefore, if_neg hcond]
    rfl
  | some y =>
    have hcond : y = c ↔ x = r ∧ q = ks := by
      constructor
      · rintro rfl
        exact walkFrom_inj hreach.owned hlen hwalk hreach.walk
      · rintro ⟨rfl, rfl⟩
        exact Option.some.inj (hwalk.symm.trans hreach.walk)
    simp only [items_push, hcond, hreach.grows.items]
    congr 1
    by_cases hy : y < σ.next
    · rw [hreach.grows.walkFrom_old hσ hx hwalk hy]
    · -- A cell that is new at the end of the path had no items, and the path led nowhere.
      cases hz : σ.walkFrom hash x q with
      | none => exact (hσ.blank (Nat.not_lt.mp hy)).2
      | some =>
        have hzy := hwalk.symm.trans (hreach.grows.walkFrom hσ hx hz)
        exact absurd (walkFrom_lt hσ hx hz) (Option.some.inj hzy ▸ hy)

end Push

def entry (σ : Store W K α) (table : W → List ℕ) (k : K) : ℕ × (W → List ℕ) × Store W K α :=
  match σ.find (table (hash k)) k with
  | some r => (r, table, σ)
  | none => (σ.next, update table (hash k) (table (hash k) ++ [σ.next]), σ.alloc k)

def insert (σ : Store W K α) (table : W → List ℕ) (k : K) (ks : List K) (a : α) :
    (W → List ℕ) × Store W K α :=
  let (r, table', σ₁) := σ.entry hash table k
  let (c, σ₂) := σ₁.reach hash r ks
  (table', σ₂.push c a)

omit [DecidableEq W] in
def itemsAt (σ : Store W K α) (table : W → List ℕ) (k : K) (ks : List K) : List α :=
  match σ.find (table (hash k)) k with
  | some r => σ.itemsFrom hash r ks
  | none => []

def Bounded (σ : Store W K α) (table : W → List ℕ) : Prop := ∀ w, ∀ r ∈ table w, r < σ.next

section Agree

variable {hash} {table : W → List ℕ}

omit [DecidableEq W]

theorem find_of_agree (h : AgreeBelow σ.next σ σ') {refs : List ℕ} (hrefs : ∀ c ∈ refs, c < σ.next)
    (k : K) : σ'.find refs k = σ.find refs k :=
  find_congr fun c hc ↦ by rw [h c (hrefs c hc)]

theorem walkFrom_of_agree (hσ : σ.Owned) (h : AgreeBelow σ.next σ σ') {x : ℕ} (hx : x < σ.next)
    (ks : List K) : σ'.walkFrom hash x ks = σ.walkFrom hash x ks := by
  induction ks generalizing x with
  | nil => rfl
  | cons k _ ih =>
    unfold walkFrom
    rw [h x hx, find_of_agree h fun c hc ↦ hσ.bounded hc]
    cases hc : σ.find ((σ.cells x).children (hash k)) k with
    | none => rfl
    | some => exact ih (hσ.bounded (mem_of_find hc))

theorem itemsFrom_of_agree (hσ : σ.Owned) (h : AgreeBelow σ.next σ σ') {x : ℕ}
    (hx : x < σ.next) (ks : List K) : σ'.itemsFrom hash x ks = σ.itemsFrom hash x ks := by
  unfold itemsFrom
  rw [walkFrom_of_agree hσ h hx]
  cases hy : σ.walkFrom hash x ks with
  | none => rfl
  | some y => exact congrArg Cell.items (h y (walkFrom_lt hσ hx hy))

theorem itemsAt_of_agree (hσ : σ.Owned) (ht : σ.Bounded table) (h : AgreeBelow σ.next σ σ')
    (k : K) (ks : List K) : σ'.itemsAt hash table k ks = σ.itemsAt hash table k ks := by
  unfold itemsAt
  rw [find_of_agree h (ht _)]
  cases hr : σ.find (table (hash k)) k with
  | none => rfl
  | some r => exact itemsFrom_of_agree hσ h (ht _ r (mem_of_find hr)) ks

end Agree

section Insert

variable {hash} {table : W → List ℕ} {k : K} {ks : List K} {a : α}

structure Entered (hash : K → W) (σ : Store W K α) (table : W → List ℕ) (k : K) (r : ℕ)
    (table' : W → List ℕ) (σ' : Store W K α) : Prop where
  owned : σ'.Owned
  bounded : σ'.Bounded table'
  bound : r < σ'.next
  found : σ'.find (table' (hash k)) k = some r
  other : ∀ k' ≠ k, σ'.find (table' (hash k')) k' = σ.find (table (hash k')) k'
  items : ∀ k' q, σ'.itemsAt hash table' k' q = σ.itemsAt hash table k' q
  refs : ∀ w, ∀ r ∈ table' w, r ∈ table w ∨ σ.next ≤ r
  agrees : AgreeBelow σ.next σ σ'
  next_le : σ.next ≤ σ'.next

omit [DecidableEq W] in
theorem itemsFrom_alloc_next (k : K) (q : List K) :
    (σ.alloc k).itemsFrom hash σ.next q = [] := by
  cases q with
  | nil => simp [itemsFrom, walkFrom, alloc, Cell.blank]
  | cons => simp [itemsFrom, walkFrom, alloc, Cell.blank, find]

theorem itemsAt_alloc (hσ : σ.Owned) (ht : σ.Bounded table) (k' : K) (q : List K) :
    (σ.alloc k).itemsAt hash (update table (hash k) (table (hash k) ++ [σ.next])) k' q =
      σ.itemsAt hash table k' q := by
  have hold : (σ.alloc k).itemsAt hash table k' q = σ.itemsAt hash table k' q :=
    itemsAt_of_agree hσ ht agreeBelow_alloc k' q
  rw [← hold]
  unfold itemsAt
  by_cases hw : hash k' = hash k
  · rw [hw, update_self, find_append]
    cases hr : (σ.alloc k).find (table (hash k)) k' with
    | some => rfl
    | none =>
      by_cases hk : k = k'
      · subst hk
        simpa [find, alloc, Cell.blank] using itemsFrom_alloc_next k q
      · simp [find, alloc, Cell.blank, hk]
  · rw [update_of_ne hw]

theorem entered_entry (hσ : σ.Owned) (ht : σ.Bounded table) :
    Entered hash σ table k (σ.entry hash table k).1 (σ.entry hash table k).2.1
      (σ.entry hash table k).2.2 := by
  unfold entry
  cases hr : σ.find (table (hash k)) k with
  | some r =>
    exact ⟨hσ, ht, ht _ r (mem_of_find hr), hr, fun _ _ ↦ rfl, fun _ _ ↦ rfl,
      fun _ _ hmem ↦ .inl hmem, fun _ _ ↦ rfl, Nat.le_refl _⟩
  | none =>
    dsimp only
    have hrefs : ∀ w, ∀ r ∈ update table (hash k) (table (hash k) ++ [σ.next]) w,
        r ∈ table w ∨ σ.next = r := by
      intro w _ hmem
      by_cases hw : w = hash k
      · rw [hw, update_self, List.mem_append, List.mem_singleton] at hmem
        exact hw ▸ hmem.imp_right Eq.symm
      · rw [update_of_ne hw] at hmem
        exact .inl hmem
    have hfind : ∀ k' w, (σ.alloc k).find (table w) k' = σ.find (table w) k' :=
      fun k' w ↦ find_of_agree agreeBelow_alloc (ht w) k'
    refine ⟨owned_alloc hσ, fun w r hmem ↦ ?_, Nat.lt_succ_self _, ?_, fun k' hk ↦ ?_,
      itemsAt_alloc hσ ht, fun w r hmem ↦ (hrefs w r hmem).imp_right Nat.le_of_eq,
      agreeBelow_alloc, Nat.le_succ _⟩
    · rcases hrefs w r hmem with hmem | rfl
      · exact Nat.lt_succ_of_lt (ht w r hmem)
      · exact Nat.lt_succ_self _
    · rw [update_self, find_append, hfind, hr]
      simp [find, alloc, Cell.blank]
    · by_cases hw : hash k' = hash k
      · rw [hw, update_self, find_append, hfind]
        simp [find, alloc, Cell.blank, hk.symm]
      · rw [update_of_ne hw, hfind]

theorem owned_insert (hσ : σ.Owned) (ht : σ.Bounded table) :
    (σ.insert hash table k ks a).2.Owned := by
  have hentry : Entered hash σ table k _ _ _ := entered_entry hσ ht
  have hreach : Reached hash _ _ _ ks _ := reached_reach hentry.owned hentry.bound ks
  exact owned_push hreach.owned hreach.bound

theorem next_le_insert (hσ : σ.Owned) (ht : σ.Bounded table) :
    σ.next ≤ (σ.insert hash table k ks a).2.next := by
  have hentry : Entered hash σ table k _ _ _ := entered_entry hσ ht
  have hreach : Reached hash _ _ _ ks _ := reached_reach hentry.owned hentry.bound ks
  exact Nat.le_trans hentry.next_le hreach.grows.next_le

theorem isSome_find_insert (hσ : σ.Owned) (ht : σ.Bounded table) (k' : K) :
    ((σ.insert hash table k ks a).2.find ((σ.insert hash table k ks a).1 (hash k')) k').isSome =
      (decide (k' = k) || (σ.find (table (hash k')) k').isSome) := by
  have hentry : Entered hash σ table k _ _ _ := entered_entry hσ ht
  have hreach : Reached hash _ _ _ ks _ := reached_reach hentry.owned hentry.bound ks
  have hfind : (σ.insert hash table k ks a).2.find ((σ.insert hash table k ks a).1 (hash k')) k' =
      (σ.entry hash table k).2.2.find ((σ.entry hash table k).2.1 (hash k')) k' :=
    find_congr fun c hc ↦ (key_push c).trans (hreach.grows.key (hentry.bounded _ c hc))
  rw [hfind]
  by_cases hk : k' = k
  · subst hk
    simp [hentry.found]
  · simp [hentry.other k' hk, hk]

theorem bounded_insert (hσ : σ.Owned) (ht : σ.Bounded table) :
    (σ.insert hash table k ks a).2.Bounded (σ.insert hash table k ks a).1 := by
  have hentry : Entered hash σ table k _ _ _ := entered_entry hσ ht
  have hreach : Reached hash _ _ _ ks _ := reached_reach hentry.owned hentry.bound ks
  exact fun w r hr ↦ Nat.lt_of_lt_of_le (hentry.bounded w r hr) hreach.grows.next_le

theorem itemsAt_reach_push (hσ : σ.Owned) (ht : σ.Bounded table) {r : ℕ}
    (hfound : σ.find (table (hash k)) k = some r) (k' : K) {q : List K}
    (hlen : q.length = ks.length) :
    ((σ.reach hash r ks).2.push (σ.reach hash r ks).1 a).itemsAt hash table k' q =
      σ.itemsAt hash table k' q ++ if k' = k ∧ q = ks then [a] else [] := by
  have hr : r < σ.next := ht _ r (mem_of_find hfound)
  have hreach : Reached hash _ _ _ ks _ := reached_reach hσ hr ks
  unfold itemsAt
  rw [find_congr fun c hc ↦ (key_push c).trans (hreach.grows.key (ht _ c hc))]
  cases hx : σ.find (table (hash k')) k' with
  | none =>
    have hk : ¬ (k' = k ∧ q = ks) := by
      rintro ⟨rfl, -⟩
      exact nomatch hx.symm.trans hfound
    rw [if_neg hk, List.append_nil]
  | some x =>
    have hxr : x = r ↔ k' = k := by
      constructor
      · rintro rfl
        exact (key_of_find hx).symm.trans (key_of_find hfound)
      · rintro rfl
        exact Option.some.inj (hx.symm.trans hfound)
    simp only [← hxr]
    exact itemsFrom_reach_push hσ hr (ht _ x (mem_of_find hx)) hlen

theorem itemsAt_insert (hσ : σ.Owned) (ht : σ.Bounded table) (k' : K) {q : List K}
    (hlen : q.length = ks.length) :
    (σ.insert hash table k ks a).2.itemsAt hash (σ.insert hash table k ks a).1 k' q =
      σ.itemsAt hash table k' q ++ if k' = k ∧ q = ks then [a] else [] := by
  have hentry : Entered hash σ table k _ _ _ := entered_entry hσ ht
  rw [← hentry.items]
  exact itemsAt_reach_push hentry.owned hentry.bounded hentry.found k' hlen

end Insert

section Frame

variable {hash} {n r : ℕ} {k : K}

theorem child_frame (hσ : σ.Owned) (hr : r < σ.next) (hn : Region n σ) (hle : n ≤ r) :
    Region n (σ.child hash r k).2 ∧ n ≤ (σ.child hash r k).1 ∧
      AgreeBelow n σ (σ.child hash r k).2 := by
  unfold child
  cases hc : σ.find ((σ.cells r).children (hash k)) k with
  | some => exact ⟨hn, hn.closed hle (mem_of_find hc), fun _ _ ↦ rfl⟩
  | none =>
    refine ⟨⟨Nat.le_succ_of_le hn.le_next, fun hp w c hmem ↦ ?_⟩, hn.le_next, fun x hx ↦ ?_⟩
    · rcases (mem_children_link hσ hr).mp hmem with hmem | ⟨rfl, -, -⟩
      · exact hn.closed hp hmem
      · exact hn.le_next
    · have hxr : x ≠ r := by omega
      have hxn : x ≠ σ.next := Nat.ne_of_lt (Nat.lt_of_lt_of_le hx hn.le_next)
      simp [link, alloc, hxr, hxn]

theorem reach_frame (hσ : σ.Owned) (hr : r < σ.next) (hn : Region n σ) (hle : n ≤ r)
    (ks : List K) :
    Region n (σ.reach hash r ks).2 ∧ n ≤ (σ.reach hash r ks).1 ∧
      AgreeBelow n σ (σ.reach hash r ks).2 := by
  induction ks generalizing σ r with
  | nil => exact ⟨hn, hle, fun _ _ ↦ rfl⟩
  | cons k _ ih =>
    have hchild : Reached hash σ _ r [k] _ := reached_child hσ hr
    obtain ⟨hn', hle', hagree⟩ := child_frame (k := k) hσ hr hn hle
    obtain ⟨hn'', hle'', hagree'⟩ := ih hchild.owned hchild.bound hn' hle'
    exact ⟨hn'', hle'', fun x hx ↦ (hagree' x hx).trans (hagree x hx)⟩

theorem insert_frame (hσ : σ.Owned) {table : W → List ℕ} (ht : σ.Bounded table)
    (hn : Region n σ) (hentry : ∀ r, σ.find (table (hash k)) k = some r → n ≤ r)
    (ks : List K) (a : α) :
    Region n (σ.insert hash table k ks a).2 ∧ AgreeBelow n σ (σ.insert hash table k ks a).2 ∧
      ∀ w, ∀ r ∈ (σ.insert hash table k ks a).1 w, r ∈ table w ∨ n ≤ r := by
  have hspec : Entered hash σ table k _ _ _ := entered_entry hσ ht
  have hn₁ : Region n (σ.entry hash table k).2.2 ∧ n ≤ (σ.entry hash table k).1 := by
    unfold entry
    cases hr : σ.find (table (hash k)) k with
    | some r => exact ⟨hn, hentry r hr⟩
    | none =>
      refine ⟨⟨Nat.le_succ_of_le hn.le_next, fun hp w c hc ↦ ?_⟩, hn.le_next⟩
      exact hn.closed hp (children_alloc hσ _ _ ▸ hc)
  obtain ⟨hn₂, _, hagree⟩ := reach_frame hspec.owned hspec.bound hn₁.1 hn₁.2 ks
  refine ⟨⟨hn₂.le_next, fun hp w c hc ↦ hn₂.closed hp (children_push _ ▸ hc)⟩, fun x hx ↦ ?_,
    fun w r hr ↦ (hspec.refs w r hr).imp_right (Nat.le_trans hn.le_next)⟩
  have hne : x ≠ ((σ.entry hash table k).2.2.reach hash (σ.entry hash table k).1 ks).1 := by omega
  calc ((σ.insert hash table k ks a).2).cells x
    _ = (((σ.entry hash table k).2.2.reach hash (σ.entry hash table k).1 ks).2).cells x := by
      simp [insert, push, hne]
    _ = (σ.entry hash table k).2.2.cells x := hagree x hx
    _ = σ.cells x := hspec.agrees x (Nat.lt_of_lt_of_le hx hn.le_next)

end Frame

end Store

end PolicyEngine.Heap

import PolicyEngine.Go.Map
import PolicyEngine.Graph.Cycle

namespace PolicyEngine.Engine

open Relation PolicyEngine.Go PolicyEngine.Graph

structure RoleDag where
  adj : Map (List String)
  transitiveClosure : Map (Map Bool)
  inheritedRoles : Map (List String)

namespace RoleDag

def newRoleDag : RoleDag := ⟨∅, ∅, ∅⟩

/-- The orders in which one `AddInheritance` call happens to range over its
maps. -/
structure MapOrders where
  cycle : RangeOrder
  nodes : RangeOrder
  closure : String → RangeOrder

def MapOrders.uniform (o : RangeOrder) : MapOrders := ⟨o, o, fun _ ↦ o⟩

def roles (adj : Map (List String)) : Finset String :=
  (adj.entries.flatMap fun e ↦ e.1 :: e.2).toFinset

def hasCycle (o : RangeOrder) (adj : Map (List String)) : Bool :=
  Cycle.sweep (adj.get []) (roles adj).card (fun _ ↦ .white) (o.keys adj)

def dfsCollect (adj : Map (List String)) (startNode : String) : Map Bool :=
  (Search.visit (adj.get [])
    (fun closure currentNode ↦
      if startNode ≠ currentNode then closure.insert currentNode true else closure)
    (roles adj).card ([], ∅) startNode).2

def rebuildNode (o : MapOrders) (g : RoleDag) (node : String) : RoleDag :=
  let closure := dfsCollect g.adj node
  { g with
    transitiveClosure := g.transitiveClosure.insert node closure
    inheritedRoles := g.inheritedRoles.insert node (node :: (o.closure node).keys closure) }

def rebuildTransitiveClosure (o : MapOrders) (g : RoleDag) : RoleDag :=
  (o.nodes.keys g.adj).foldl (rebuildNode o) ⟨g.adj, ∅, ∅⟩

def addInheritance (o : MapOrders) (g : RoleDag) (parent child : String) :
    Except String RoleDag :=
  let tempAdj := g.adj.insert parent (g.adj.get [] parent ++ [child])
  if parent = child then .error "một vai trò không thể kế thừa chính nó"
  else if hasCycle o.cycle tempAdj then
    .error ("phát hiện quan hệ thừa kế vòng lặp (chu trình) giữa '" ++ parent ++ "' và '" ++ child
      ++ "'")
  else .ok (rebuildTransitiveClosure o { g with adj := tempAdj })

def isDescendant (g : Option RoleDag) (parent child : String) : Bool :=
  if parent = child then true
  else
    match g with
    | none => false
    | some g =>
      match g.transitiveClosure.lookup parent with
      | none => false
      | some ancestors => ancestors.get false child

def getInheritedRoles (g : Option RoleDag) (role : String) : List String :=
  match g.bind fun g ↦ g.inheritedRoles.lookup role with
  | some roles => roles
  | none => [role]

/-- The same answer as `getInheritedRoles`; the source only saves the
allocation of the one-element slice. -/
def getInheritedRolesInto (g : Option RoleDag) (role : String) : List String :=
  getInheritedRoles g role

def addInheritances (orders : ℕ → MapOrders) (g : RoleDag) :
    List (String × String) → Except String RoleDag
  | [] => .ok g
  | pair :: rest =>
    match g.addInheritance (orders 0) pair.1 pair.2 with
    | .error e => .error e
    | .ok g => addInheritances (fun i ↦ orders (i + 1)) g rest

def Inherits (edges : List (String × String)) (parent child : String) : Prop :=
  (parent, child) ∈ edges

def AcyclicRoles (edges : List (String × String)) : Prop := ∀ r, ¬ TransGen (Inherits edges) r r

theorem mem_roles {adj : Map (List String)} {r s : String} (h : s ∈ adj.get [] r) :
    r ∈ roles adj ∧ s ∈ roles adj := by
  unfold Map.get at h
  cases hl : adj.lookup r with
  | none => simp [hl] at h
  | some l =>
    rw [hl, Option.getD_some] at h
    have hm : (⟨r, l⟩ : Sigma fun _ : String ↦ List String) ∈ adj.entries :=
      AList.mem_lookup_iff.mp hl
    simp only [roles, List.mem_toFinset, List.mem_flatMap, List.mem_cons]
    exact ⟨⟨_, hm, .inl rfl⟩, ⟨_, hm, .inr h⟩⟩

theorem mem_roles_of_key {adj : Map (List String)} {r : String} (h : r ∈ adj) :
    r ∈ roles adj := by
  obtain ⟨l, hl⟩ := Option.isSome_iff_exists.mp (AList.lookup_isSome.mpr h)
  have hm : (⟨r, l⟩ : Sigma fun _ : String ↦ List String) ∈ adj.entries :=
    AList.mem_lookup_iff.mp hl
  simp only [roles, List.mem_toFinset, List.mem_flatMap, List.mem_cons]
  exact ⟨_, hm, .inl rfl⟩

theorem mem_of_get {adj : Map (List String)} {r : String} (h : adj.get [] r ≠ []) : r ∈ adj := by
  by_contra hr
  exact h (Map.get_of_notMem hr [])

theorem hasCycle_eq_false_iff (o : RangeOrder) (adj : Map (List String)) :
    hasCycle o adj = false ↔ Search.Acyclic (adj.get []) :=
  Cycle.sweep_eq_false_iff (fun _ _ _ hw ↦ (mem_roles hw).2) le_rfl
    (fun _ hv ↦ mem_roles_of_key ((o.mem_keys).mp hv)) (fun _ hv ↦ (o.mem_keys).mpr (mem_of_get hv))

theorem foldl_insert_get (start : String) (new : List String) (m : Map Bool) (c : String) :
    (new.foldl (fun closure cur ↦ if start ≠ cur then closure.insert cur true else closure) m).get
      false c = true ↔ (c ∈ new ∧ c ≠ start) ∨ m.get false c = true := by
  induction new generalizing m with
  | nil => simp
  | cons x _ ih =>
    rw [List.foldl_cons, ih]
    by_cases hx : start = x
    · rw [if_neg (by simp [hx]), List.mem_cons]
      have : ¬ (c = x ∧ c ≠ start) := fun h ↦ h.2 (h.1.trans hx.symm)
      tauto
    · rw [if_pos hx, List.mem_cons]
      by_cases hc : c = x
      · subst hc
        simp [Map.get_insert, Ne.symm hx]
      · rw [Map.get_insert_ne _ _ _ hc]
        tauto

theorem foldl_insert_keys (start : String) (new : List String) (m : Map Bool) (c : String) :
    c ∈ new.foldl (fun closure cur ↦ if start ≠ cur then closure.insert cur true else closure) m ↔
      (c ∈ new ∧ c ≠ start) ∨ c ∈ m := by
  induction new generalizing m with
  | nil => simp
  | cons x _ ih =>
    rw [List.foldl_cons, ih, List.mem_cons]
    by_cases hx : start = x
    · rw [if_neg (by simp [hx])]
      have : ¬ (c = x ∧ c ≠ start) := fun h ↦ h.2 (h.1.trans hx.symm)
      tauto
    · rw [if_pos hx, AList.mem_insert]
      have : c = x → c ≠ start := fun h hs ↦ hx (hs.symm.trans h)
      tauto

theorem dfsCollect_spec {adj : Map (List String)} {r : String} (hr : r ∈ adj) (c : String) :
    ((dfsCollect adj r).get false c = true ↔
        ReflTransGen (Search.Edge (adj.get [])) r c ∧ c ≠ r) ∧
      (c ∈ dfsCollect adj r ↔ ReflTransGen (Search.Edge (adj.get [])) r c ∧ c ≠ r) := by
  obtain ⟨_, hnew, hexp⟩ := Search.visit_explored (U := roles adj)
    (fun closure cur ↦ if r ≠ cur then AList.insert cur true closure else closure)
    (fun _ _ _ (hw : _ ∈ adj.get [] _) ↦ (mem_roles hw).2) (roles adj).card [] (∅ : Map Bool) r
    (mem_roles_of_key hr) (by simp) (by simp)
  have hmem := hexp.mem_iff c
  unfold dfsCollect
  rw [hnew, foldl_insert_get, foldl_insert_keys, hmem]
  simp [Map.get_of_notMem]

theorem foldl_rebuildNode (o : MapOrders) (nodes : List String) (g : RoleDag) :
    (nodes.foldl (rebuildNode o) g).adj = g.adj ∧ ∀ r,
      (nodes.foldl (rebuildNode o) g).transitiveClosure.lookup r =
        (if r ∈ nodes then some (dfsCollect g.adj r) else g.transitiveClosure.lookup r) ∧
      (nodes.foldl (rebuildNode o) g).inheritedRoles.lookup r =
        (if r ∈ nodes then some (r :: (o.closure r).keys (dfsCollect g.adj r))
          else g.inheritedRoles.lookup r) := by
  induction nodes generalizing g with
  | nil => simp
  | cons node nodes ih =>
    obtain ⟨hadj, hlook⟩ := ih (rebuildNode o g node)
    refine ⟨hadj, fun r ↦ ?_⟩
    rw [List.foldl_cons, (hlook r).1, (hlook r).2]
    have hadj' : (rebuildNode o g node).adj = g.adj := rfl
    rw [hadj']
    by_cases hr : r ∈ nodes
    · simp [hr]
    · by_cases hn : r = node
      · subst hn
        simp [hr, rebuildNode]
      · simp [hr, hn, rebuildNode, AList.lookup_insert_ne hn]

theorem lookup_rebuild (o : MapOrders) (g : RoleDag) (r : String) :
    (rebuildTransitiveClosure o g).transitiveClosure.lookup r =
        (if r ∈ g.adj then some (dfsCollect g.adj r) else none) ∧
      (rebuildTransitiveClosure o g).inheritedRoles.lookup r =
        (if r ∈ g.adj then some (r :: (o.closure r).keys (dfsCollect g.adj r)) else none) := by
  obtain ⟨-, h⟩ := foldl_rebuildNode o (o.nodes.keys g.adj) ⟨g.adj, ∅, ∅⟩
  have h' := h r
  simp only [o.nodes.mem_keys, AList.lookup_empty] at h'
  exact h'

/-- The graph holds exactly the given inheritances, and both caches answer for
their reflexive transitive closure. -/
structure Exact (g : RoleDag) (edges : List (String × String)) : Prop where
  adj : ∀ r s, s ∈ g.adj.get [] r ↔ Inherits edges r s
  descends : ∀ p c, isDescendant (some g) p c = true ↔ ReflTransGen (Inherits edges) p c
  nodup : ∀ r, (getInheritedRoles (some g) r).Nodup
  inherited : ∀ r c, c ∈ getInheritedRoles (some g) r ↔ ReflTransGen (Inherits edges) r c
  head : ∀ r, (getInheritedRoles (some g) r).head? = some r

theorem reach_of_no_successor {edges : List (String × String)} {r c : String}
    (h : ∀ s, ¬ Inherits edges r s) : ReflTransGen (Inherits edges) r c ↔ r = c := by
  constructor
  · intro hr
    rcases ReflTransGen.cases_head hr with hrc | ⟨s, hs, _⟩
    · exact hrc
    · exact absurd hs (h s)
  · rintro rfl
    exact .refl

theorem exact_newRoleDag : newRoleDag.Exact [] where
  adj r s := by simp [newRoleDag, Map.get, Inherits]
  descends p c := by
    rw [reach_of_no_successor (by simp [Inherits])]
    simp [isDescendant, newRoleDag]
  nodup r := by simp [getInheritedRoles, newRoleDag]
  inherited r c := by
    rw [reach_of_no_successor (by simp [Inherits])]
    simp [getInheritedRoles, newRoleDag, eq_comm]
  head r := by simp [getInheritedRoles, newRoleDag]

theorem exact_rebuild (o : MapOrders) {g : RoleDag} {edges : List (String × String)}
    (hadj : ∀ r s, s ∈ g.adj.get [] r ↔ Inherits edges r s) :
    (rebuildTransitiveClosure o g).Exact edges := by
  have hedge : Search.Edge (g.adj.get []) = Inherits edges := by
    funext r s
    exact propext (hadj r s)
  have hleaf {r : String} (hr : r ∉ g.adj) (s : String) : ¬ Inherits edges r s := by
    rw [← hadj, Map.get_of_notMem hr]
    exact List.not_mem_nil
  refine ⟨fun r s ↦ ?_, fun p c ↦ ?_, fun r ↦ ?_, fun r c ↦ ?_, fun r ↦ ?_⟩
  · rw [rebuildTransitiveClosure, (foldl_rebuildNode o _ _).1]
    exact hadj r s
  · unfold isDescendant
    by_cases hpc : p = c
    · simp [hpc, ReflTransGen.refl]
    · simp only [hpc, if_false, (lookup_rebuild o g p).1]
      by_cases hp : p ∈ g.adj
      · have h := (dfsCollect_spec hp c).1
        rw [hedge] at h
        simpa [hp, Ne.symm hpc] using h
      · rw [if_neg hp, reach_of_no_successor (hleaf hp)]
        simp [hpc]
  · simp only [getInheritedRoles, Option.bind_some, (lookup_rebuild o g r).2]
    by_cases hr : r ∈ g.adj
    · simp only [hr, if_true, List.nodup_cons]
      refine ⟨?_, (o.closure r).nodup_keys _⟩
      rw [RangeOrder.mem_keys, (dfsCollect_spec hr r).2]
      simp
    · simp [hr]
  · simp only [getInheritedRoles, Option.bind_some, (lookup_rebuild o g r).2]
    by_cases hr : r ∈ g.adj
    · simp only [hr, if_true, List.mem_cons, RangeOrder.mem_keys, (dfsCollect_spec hr c).2, hedge]
      by_cases hc : c = r
      · simp [hc, ReflTransGen.refl]
      · simp [hc]
    · simp only [hr, if_false, List.mem_singleton]
      rw [reach_of_no_successor (hleaf hr), eq_comm]
  · simp only [getInheritedRoles, Option.bind_some, (lookup_rebuild o g r).2]
    by_cases hr : r ∈ g.adj <;> simp [hr]

theorem get_addEdge (adj : Map (List String)) (parent child r s : String) :
    s ∈ Map.get (adj.insert parent (adj.get [] parent ++ [child])) [] r ↔
      s ∈ adj.get [] r ∨ (r, s) = (parent, child) := by
  by_cases h : r = parent
  · subst h
    simp [Map.get_insert]
  · simp [Map.get_insert_ne _ _ _ h, h]

theorem addInheritance_spec (o : MapOrders) {g : RoleDag} {edges : List (String × String)}
    (hg : g.Exact edges) (pair : String × String) :
    (∃ g', g.addInheritance o pair.1 pair.2 = .ok g' ∧ g'.Exact (edges ++ [pair]) ∧
        AcyclicRoles (edges ++ [pair])) ∨
      ((∃ e, g.addInheritance o pair.1 pair.2 = .error e) ∧ ¬ AcyclicRoles (edges ++ [pair])) := by
  set tempAdj : Map (List String) := g.adj.insert pair.1 (g.adj.get [] pair.1 ++ [pair.2]) with htemp
  have hadj (r s : String) : s ∈ tempAdj.get [] r ↔ Inherits (edges ++ [pair]) r s := by
    rw [htemp, get_addEdge, hg.adj]
    simp [Inherits]
  have hedge : Search.Edge (tempAdj.get []) = Inherits (edges ++ [pair]) := by
    funext r s
    exact propext (hadj r s)
  have hcycle := hasCycle_eq_false_iff o.cycle tempAdj
  rw [Search.Acyclic, hedge] at hcycle
  unfold addInheritance
  by_cases hself : pair.1 = pair.2
  · refine .inr ⟨⟨_, if_pos hself⟩, fun h ↦ h pair.1 (.single ?_)⟩
    simp [Inherits, hself, Prod.ext_iff]
  · simp only [hself, if_false, ← htemp]
    cases hc : hasCycle o.cycle tempAdj with
    | true =>
      refine .inr ⟨⟨_, if_pos rfl⟩, fun h ↦ ?_⟩
      rw [hcycle.mpr h] at hc
      cases hc
    | false => exact .inl ⟨_, if_neg (by simp), exact_rebuild o hadj, hcycle.mp hc⟩

theorem AcyclicRoles.mono {edges edges' : List (String × String)} (h : AcyclicRoles edges')
    (hsub : ∀ e ∈ edges, e ∈ edges') : AcyclicRoles edges :=
  fun r hr ↦ h r (TransGen.mono (r := Inherits edges) (fun _ _ he ↦ hsub _ he) _ _ hr)

theorem addInheritances_spec (orders : ℕ → MapOrders) (pairs : List (String × String))
    {g : RoleDag} {edges : List (String × String)} (hg : g.Exact edges)
    (hacyc : AcyclicRoles edges) :
    (∃ g', addInheritances orders g pairs = .ok g' ∧ g'.Exact (edges ++ pairs) ∧
        AcyclicRoles (edges ++ pairs)) ∨
      ((∃ e, addInheritances orders g pairs = .error e) ∧ ¬ AcyclicRoles (edges ++ pairs)) := by
  induction pairs generalizing orders g edges with
  | nil =>
    rw [List.append_nil]
    exact .inl ⟨g, rfl, hg, hacyc⟩
  | cons pair pairs ih =>
    have hassoc : edges ++ pair :: pairs = edges ++ [pair] ++ pairs := by simp
    rw [addInheritances, hassoc]
    rcases addInheritance_spec (orders 0) hg pair with ⟨_, hok, hex, hac⟩ | ⟨⟨e, herr⟩, hac⟩
    · rw [hok]
      exact ih (fun i ↦ orders (i + 1)) hex hac
    · rw [herr]
      refine .inr ⟨⟨e, rfl⟩, fun h ↦ hac (h.mono fun x hx ↦ List.mem_append_left _ hx)⟩

theorem acyclicRoles_nil : AcyclicRoles [] := by
  intro _ hr
  obtain ⟨_, hs, _⟩ := TransGen.head'_iff.mp hr
  exact absurd hs List.not_mem_nil

theorem acyclicRoles_of_isOk (orders : ℕ → MapOrders) {pairs : List (String × String)}
    (h : (addInheritances orders newRoleDag pairs).isOk = true) : AcyclicRoles pairs := by
  rcases addInheritances_spec orders pairs exact_newRoleDag acyclicRoles_nil with
    ⟨_, _, _, hacyc⟩ | ⟨⟨e, herr⟩, _⟩
  · exact hacyc
  · rw [herr] at h
    cases h

end RoleDag

end PolicyEngine.Engine

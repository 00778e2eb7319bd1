import PolicyEngine.Engine.OrderFree
import PolicyEngine.Go.Result
import PolicyEngine.Graph.Marking

namespace PolicyEngine.Storage

open Relation PolicyEngine.Engine PolicyEngine.Engine.RoleDag PolicyEngine.Go PolicyEngine.Go.Result
open PolicyEngine.Graph

def validatePair (seen : List (String × String)) (pair : String × String) : Except String Unit :=
  let parent := Text.trimSpace pair.1
  let child := Text.trimSpace pair.2
  if parent = "" ∨ child = "" ∨ parent ≠ pair.1 ∨ child ≠ pair.2 then
    .error "role inheritance endpoints must be non-empty and trimmed"
  else if parent.utf8ByteSize > 255 ∨ child.utf8ByteSize > 255 then
    .error "role inheritance endpoint exceeds 255 characters"
  else if parent = child then .error ("role inheritance self-edge is not allowed: " ++ parent)
  else if pair ∈ seen then .error ("duplicate role inheritance: " ++ parent ++ " -> " ++ child)
  else .ok ()

def collectEdges : List (String × String) → Map (List String) → List (String × String) →
    Except String (Map (List String))
  | _, edges, [] => .ok edges
  | seen, edges, pair :: rest => do
    validatePair seen pair
    collectEdges (pair :: seen) (edges.insert pair.1 (edges.get [] pair.1 ++ [pair.2])) rest

def validateRoleInheritances (o : RangeOrder) (inheritances : List (String × String)) :
    Except String Unit := do
  let edges ← collectEdges [] ∅ inheritances
  match (o.keys edges).foldlM (Marking.visit (edges.get []) ((roles edges).card + 1))
      Marking.unmarked with
  | .error node => .error ("role inheritance cycle detected at " ++ node)
  | .ok _ => .ok ()

def IsEndpoint (role : String) : Prop :=
  role ≠ "" ∧ Text.trimSpace role = role ∧ role.utf8ByteSize ≤ 255

instance decidableIsEndpoint (role : String) : Decidable (IsEndpoint role) :=
  inferInstanceAs (Decidable
    (role ≠ "" ∧ Text.trimSpace role = role ∧ role.utf8ByteSize ≤ 255))

theorem validatePair_eq_ok_iff {seen : List (String × String)} {pair : String × String} :
    validatePair seen pair = .ok () ↔
      (IsEndpoint pair.1 ∧ IsEndpoint pair.2) ∧ pair.1 ≠ pair.2 ∧ pair ∉ seen := by
  unfold validatePair
  dsimp only
  constructor
  · intro h
    split_ifs at h with hform hlong hself hseen
    simp only [not_or, not_not, not_lt] at hform hlong
    obtain ⟨hparent, hchild, hparent', hchild'⟩ := hform
    rw [hparent'] at hparent hself
    rw [hchild'] at hchild hself
    rw [hparent', hchild'] at hlong
    exact ⟨⟨⟨hparent, hparent', hlong.1⟩, hchild, hchild', hlong.2⟩, hself, hseen⟩
  · intro h
    obtain ⟨⟨⟨hparent, hparent', hshort⟩, hchild, hchild', hshort'⟩, hself, hseen⟩ := h
    rw [hparent', hchild', if_neg (by simp [hparent, hchild]),
      if_neg (not_or.mpr ⟨hshort.not_gt, hshort'.not_gt⟩), if_neg hself, if_neg hseen]

theorem collectEdges_ok {pairs seen : List (String × String)} {edges final : Map (List String)}
    (hedges : ∀ r s, s ∈ edges.get [] r ↔ (r, s) ∈ seen)
    (h : collectEdges seen edges pairs = .ok final) :
    (∀ r s, s ∈ final.get [] r ↔ (r, s) ∈ seen ∨ (r, s) ∈ pairs) ∧
      (∀ pair ∈ pairs, IsEndpoint pair.1 ∧ IsEndpoint pair.2) ∧
      pairs.Nodup ∧ ∀ pair ∈ pairs, pair ∉ seen := by
  induction pairs generalizing seen edges with
  | nil =>
    cases h
    simp [hedges]
  | cons pair _ ih =>
    rw [collectEdges, bind_unit_eq_ok, validatePair_eq_ok_iff] at h
    obtain ⟨⟨hends, -, hfresh⟩, hrest⟩ := h
    have hedges' (r s : String) :
        s ∈ Map.get (edges.insert pair.1 (edges.get [] pair.1 ++ [pair.2])) [] r ↔
          (r, s) ∈ pair :: seen := by
      rw [get_addEdge, hedges, List.mem_cons, or_comm]
    obtain ⟨hfinal, hall, hnodup, hnew⟩ := ih hedges' hrest
    refine ⟨fun r s ↦ ?_, List.forall_mem_cons.mpr ⟨hends, hall⟩,
      List.nodup_cons.mpr ⟨fun hmem ↦ hnew pair hmem List.mem_cons_self, hnodup⟩,
      List.forall_mem_cons.mpr ⟨hfresh, fun p hp hs ↦ hnew p hp (List.mem_cons_of_mem _ hs)⟩⟩
    rw [hfinal, List.mem_cons, List.mem_cons]
    tauto

theorem collectEdges_error {pairs seen : List (String × String)} {edges : Map (List String)}
    {e : String} (h : collectEdges seen edges pairs = .error e) (hnodup : pairs.Nodup)
    (hends : ∀ pair ∈ pairs, IsEndpoint pair.1 ∧ IsEndpoint pair.2)
    (hfresh : ∀ pair ∈ pairs, pair ∉ seen) : ∃ pair ∈ pairs, pair.1 = pair.2 := by
  induction pairs generalizing seen edges with
  | nil => cases h
  | cons pair pairs ih =>
    rw [List.nodup_cons] at hnodup
    rw [List.forall_mem_cons] at hends hfresh
    rw [collectEdges] at h
    cases hpair : validatePair seen pair with
    | error =>
      refine ⟨pair, List.mem_cons_self, ?_⟩
      by_contra hne
      rw [validatePair_eq_ok_iff.mpr ⟨hends.1, hne, hfresh.1⟩] at hpair
      cases hpair
    | ok =>
      rw [hpair] at h
      have hrest : ∀ p ∈ pairs, p ∉ pair :: seen := by
        intro p hp hmem
        obtain rfl | hmem := List.mem_cons.mp hmem
        · exact hnodup.1 hp
        · exact hfresh.2 p hp hmem
      obtain ⟨p, hp, hself⟩ := ih h hnodup.2 hends.2 hrest
      exact ⟨p, List.mem_cons_of_mem pair hp, hself⟩

theorem isOk_visits_iff (o : RangeOrder) (edges : Map (List String)) :
    ((o.keys edges).foldlM (Marking.visit (edges.get []) ((roles edges).card + 1))
      Marking.unmarked).isOk = true ↔ Search.Acyclic (edges.get []) :=
  Marking.isOk_visits_iff (fun _ _ _ hw ↦ (mem_roles hw).2) (Nat.lt_succ_self _)
    (fun _ hv ↦ mem_roles_of_key (o.mem_keys.mp hv)) (fun _ hv ↦ o.mem_keys.mpr (mem_of_get hv))

theorem acyclic_iff {edges : Map (List String)} {pairs : List (String × String)}
    (h : ∀ r s, s ∈ edges.get [] r ↔ (r, s) ∈ pairs) :
    Search.Acyclic (edges.get []) ↔ AcyclicRoles pairs := by
  have hedge : Search.Edge (edges.get []) = Inherits pairs := by
    funext r s
    exact propext (h r s)
  rw [Search.Acyclic, hedge, AcyclicRoles]

theorem not_acyclicRoles_of_self {pairs : List (String × String)} {pair : String × String}
    (hmem : pair ∈ pairs) (hself : pair.1 = pair.2) : ¬ AcyclicRoles pairs := by
  intro h
  refine h pair.1 (.single ?_)
  have hpair : (pair.1, pair.1) = pair := by rw [Prod.ext_iff]; exact ⟨rfl, hself⟩
  rw [Inherits, hpair]
  exact hmem

theorem isOk_validateRoleInheritances_iff (o : RangeOrder) (pairs : List (String × String)) :
    (validateRoleInheritances o pairs).isOk = true ↔
      (∀ pair ∈ pairs, IsEndpoint pair.1 ∧ IsEndpoint pair.2) ∧ pairs.Nodup ∧
        AcyclicRoles pairs := by
  unfold validateRoleInheritances
  cases hcollect : collectEdges [] ∅ pairs with
  | error =>
    refine ⟨fun h ↦ absurd h Bool.false_ne_true, fun h ↦ ?_⟩
    obtain ⟨hends, hnodup, hacyc⟩ := h
    obtain ⟨_, hmem, hself⟩ :=
      collectEdges_error hcollect hnodup hends fun _ _ ↦ List.not_mem_nil
    exact absurd hacyc (not_acyclicRoles_of_self hmem hself)
  | ok edges =>
    obtain ⟨hedges, hends, hnodup, -⟩ := collectEdges_ok (by simp [Map.get]) hcollect
    have hpairs (r s : String) : s ∈ edges.get [] r ↔ (r, s) ∈ pairs := by
      rw [hedges]
      simp
    have hvisits := (isOk_visits_iff o edges).trans (acyclic_iff hpairs)
    cases hloop : (o.keys edges).foldlM (Marking.visit (edges.get []) ((roles edges).card + 1))
        Marking.unmarked with
    | error =>
      rw [hloop] at hvisits
      simp only [bind, Except.bind, hloop]
      exact ⟨fun h ↦ absurd h Bool.false_ne_true,
        fun h ↦ absurd (hvisits.mpr h.2.2) Bool.false_ne_true⟩
    | ok =>
      rw [hloop] at hvisits
      simp only [bind, Except.bind, hloop]
      exact ⟨fun _ ↦ ⟨hends, hnodup, hvisits.mp rfl⟩, fun _ ↦ rfl⟩

theorem addInheritances_error {orders : ℕ → MapOrders} {g : RoleDag}
    {pairs : List (String × String)} {e : String}
    (h : addInheritances orders g pairs = .error e) :
    ∃ front pair back g' o, pairs = front ++ pair :: back ∧
      addInheritances orders g front = .ok g' ∧ g'.addInheritance o pair.1 pair.2 = .error e := by
  induction pairs generalizing orders g with
  | nil => cases h
  | cons pair pairs ih =>
    rw [addInheritances] at h
    cases hpair : g.addInheritance (orders 0) pair.1 pair.2 with
    | error =>
      rw [hpair] at h
      cases h
      exact ⟨[], pair, pairs, g, orders 0, rfl, rfl, hpair⟩
    | ok =>
      rw [hpair] at h
      obtain ⟨front, failing, back, g', o, rfl, hfront, herr⟩ := ih h
      refine ⟨pair :: front, failing, back, g', o, rfl, ?_, herr⟩
      rw [addInheritances, hpair]
      exact hfront

/-- What the storage accepts the engine loads in every order, with one
descendant relation; among well formed lists of distinct pairs, what it rejects
the engine refuses in every order. -/
theorem role_validators_agree (o : RangeOrder) (pairs : List (String × String)) :
    ((validateRoleInheritances o pairs).isOk = true →
      ∀ hash orders tenantId policies pairs' revision, pairs.Perm pairs' →
        ∃ trie, buildTenantTrie hash orders tenantId policies pairs' revision = .ok trie ∧
          ∀ p c, isDescendant trie.roleDag p c = true ↔ ReflTransGen (Inherits pairs) p c) ∧
    ((validateRoleInheritances o pairs).isOk = false → pairs.Nodup →
      (∀ pair ∈ pairs, IsEndpoint pair.1 ∧ IsEndpoint pair.2) →
      ∀ orders pairs', pairs.Perm pairs' →
        ∃ front pair back g o' e, pairs' = front ++ pair :: back ∧
          addInheritances orders newRoleDag front = .ok g ∧
          g.addInheritance o' pair.1 pair.2 = .error e) := by
  have hvalid := isOk_validateRoleInheritances_iff o pairs
  constructor
  · intro hok hash orders tenantId policies pairs' revision hperm
    obtain ⟨-, -, hacyc⟩ := hvalid.mp hok
    obtain ⟨trie, htrie, hbuilt⟩ := exists_built hash orders tenantId policies revision
      (acyclicRoles_perm hperm hacyc)
    obtain ⟨g, hg, hexact⟩ := hbuilt.roles
    refine ⟨trie, htrie, fun p c ↦ ?_⟩
    rw [hg, hexact.descends, inherits_perm hperm]
  · intro hrej hnodup hends orders pairs' hperm
    have hcyc : ¬ AcyclicRoles pairs' := by
      intro hacyc
      rw [hvalid.mpr ⟨hends, hnodup, acyclicRoles_perm hperm.symm hacyc⟩] at hrej
      cases hrej
    obtain ⟨-, -, -, hacyc⟩ | ⟨⟨e, herr⟩, -⟩ :=
      addInheritances_spec orders pairs' exact_newRoleDag acyclicRoles_nil
    · exact absurd hacyc hcyc
    · obtain ⟨front, pair, back, g, o', hsplit, hfront, hfail⟩ := addInheritances_error herr
      exact ⟨front, pair, back, g, o', e, hsplit, hfront, hfail⟩

/-- Two pairs are loaded in either order; with the edge that closes their cycle
neither order is. -/
theorem role_validators_agree_manager :
    (∃ trie, buildTenantTrie fnvHash (fun _ ↦ .uniform .listed) "t1" []
        [("role:manager", "role:staff"), ("user:alice", "role:manager")] 1 = .ok trie ∧
      isDescendant trie.roleDag "user:alice" "role:staff" = true) ∧
    ∃ front pair back g o' e,
      [("role:staff", "user:alice"), ("role:manager", "role:staff"), ("user:alice", "role:manager")] =
        front ++ pair :: back ∧
      addInheritances (fun _ ↦ .uniform .listed) newRoleDag front = .ok g ∧
      g.addInheritance o' pair.1 pair.2 = .error e := by
  constructor
  · obtain ⟨trie, htrie, hdesc⟩ := (role_validators_agree .listed
      [("user:alice", "role:manager"), ("role:manager", "role:staff")]).1 (by rfl) fnvHash
      (fun _ ↦ .uniform .listed) "t1" [] _ 1 (List.Perm.swap _ _ [])
    refine ⟨trie, htrie, (hdesc _ _).mpr ?_⟩
    refine ReflTransGen.head (b := "role:manager") ?_ (.single ?_)
    · exact List.mem_cons_self
    · exact List.mem_cons_of_mem _ List.mem_cons_self
  · refine (role_validators_agree .listed [("role:staff", "user:alice"),
      ("role:manager", "role:staff"), ("user:alice", "role:manager")]).2 (by rfl)
      (by decide) ?_ _ _ (.refl _)
    decide

end PolicyEngine.Storage

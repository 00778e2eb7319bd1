import PolicyEngine.Engine.RoleDag

namespace PolicyEngine.Engine.RoleDag

open Relation PolicyEngine.Go PolicyEngine.Graph

def call (o : MapOrders) (g : RoleDag) (parent child : String) : RoleDag × Option String :=
  match g.addInheritance o parent child with
  | .ok g' => (g', none)
  | .error e => (g, some e)

def run (g : RoleDag) (calls : List (MapOrders × String × String)) : RoleDag :=
  calls.foldl (fun g c ↦ (g.call c.1 c.2.1 c.2.2).1) g

/-- `GetInheritedRolesInto` together with the array it may write to. -/
def getInheritedRolesScratch (g : Option RoleDag) (role : String) (scratch : Vector String 16) :
    List String × Vector String 16 :=
  match g.bind fun g ↦ g.inheritedRoles.lookup role with
  | some roles => (roles, scratch)
  | none =>
    let scratch := scratch.set 0 role (Nat.zero_lt_succ 15)
    (scratch.toList.take 1, scratch)

def Stored (g : RoleDag) (parent child : String) : Prop := child ∈ g.adj.get [] parent

def WithEdge (g : RoleDag) (parent child r s : String) : Prop :=
  g.Stored r s ∨ (r, s) = (parent, child)

structure Lists (g : RoleDag) (role : String) (roles : List String) : Prop where
  nodup : roles.Nodup
  mem_iff : ∀ c, c ∈ roles ↔ role = c ∨ TransGen g.Stored role c

/-- The caches answer for the transitive closure of an acyclic edge relation. -/
structure IsClosure (g : RoleDag) : Prop where
  acyclic : ∀ r, ¬ TransGen g.Stored r r
  isDescendant : ∀ p c, isDescendant (some g) p c = true ↔ p = c ∨ TransGen g.Stored p c
  getInheritedRoles : ∀ r, g.Lists r (getInheritedRoles (some g) r)
  getInheritedRolesInto : ∀ r scratch, g.Lists r (getInheritedRolesScratch (some g) r scratch).1

theorem getInheritedRolesScratch_eq (g : Option RoleDag) (role : String)
    (scratch : Vector String 16) :
    (getInheritedRolesScratch g role scratch).1 = getInheritedRolesInto g role := by
  unfold getInheritedRolesScratch getInheritedRolesInto RoleDag.getInheritedRoles
  cases g.bind fun g ↦ g.inheritedRoles.lookup role with
  | some => rfl
  | none =>
    obtain ⟨⟨items⟩, hsize⟩ := scratch
    cases items with
    | nil => cases hsize
    | cons => rfl

section Step

variable {g : RoleDag} {edges : List (String × String)}

theorem Exact.stored (hg : g.Exact edges) : g.Stored = Inherits edges := by
  funext r s
  exact propext (hg.adj r s)

theorem Exact.withEdge (hg : g.Exact edges) (parent child : String) :
    g.WithEdge parent child = Inherits (edges ++ [(parent, child)]) := by
  funext r s
  rw [WithEdge, hg.stored]
  simp [Inherits]

theorem Exact.isClosure (hg : g.Exact edges) (hacyc : AcyclicRoles edges) : g.IsClosure := by
  have hreach (r c : String) :
      ReflTransGen (Inherits edges) r c ↔ r = c ∨ TransGen g.Stored r c := by
    rw [hg.stored, reflTransGen_iff_eq_or_transGen, eq_comm]
  have hlists (r : String) : g.Lists r (RoleDag.getInheritedRoles (some g) r) :=
    ⟨hg.nodup r, fun c ↦ (hg.inherited r c).trans (hreach r c)⟩
  refine ⟨?_, fun p c ↦ (hg.descends p c).trans (hreach p c), hlists, fun r scratch ↦ ?_⟩
  · rw [hg.stored]
    exact hacyc
  · rw [getInheritedRolesScratch_eq]
    exact hlists r

theorem call_spec (o : MapOrders) (hg : g.Exact edges) (parent child : String) :
    ((g.call o parent child).2 = none ∧
        (g.call o parent child).1.Exact (edges ++ [(parent, child)]) ∧
        AcyclicRoles (edges ++ [(parent, child)])) ∨
      ((g.call o parent child).2.isSome = true ∧ (g.call o parent child).1 = g ∧
        ¬ AcyclicRoles (edges ++ [(parent, child)])) := by
  unfold call
  obtain ⟨_, hok, hexact, hacyc⟩ | ⟨⟨_, herr⟩, hcyc⟩ := addInheritance_spec o hg (parent, child)
  · rw [hok]
    exact .inl ⟨rfl, hexact, hacyc⟩
  · rw [herr]
    exact .inr ⟨rfl, rfl, hcyc⟩

end Step

theorem run_exact (calls : List (MapOrders × String × String)) {g : RoleDag}
    {edges : List (String × String)} (hg : g.Exact edges) (hacyc : AcyclicRoles edges) :
    ∃ edges', (g.run calls).Exact edges' ∧ AcyclicRoles edges' := by
  induction calls generalizing g edges with
  | nil => exact ⟨edges, hg, hacyc⟩
  | cons c calls ih =>
    have hcons : g.run (c :: calls) = (g.call c.1 c.2.1 c.2.2).1.run calls := rfl
    rw [hcons]
    obtain ⟨-, hexact, hacyc'⟩ | ⟨-, hsame, -⟩ := call_spec c.1 hg c.2.1 c.2.2
    · exact ih hexact hacyc'
    · rw [hsame]
      exact ih hg hacyc

/-- After any sequence of calls the graph is an acyclic relation with its exact
closure, and the next call fails exactly when its edge would close a cycle. -/
theorem role_graph_exact (calls : List (MapOrders × String × String)) :
    (newRoleDag.run calls).IsClosure ∧ ∀ o parent child,
      let g := newRoleDag.run calls
      let after := g.call o parent child
      (after.2.isSome = true ↔ parent = child ∨ ∃ r, TransGen (g.WithEdge parent child) r r) ∧
        (after.2.isSome = true → after.1 = g) ∧
        (after.2 = none → after.1.Stored = g.WithEdge parent child) := by
  obtain ⟨edges, hg, hacyc⟩ := run_exact calls exact_newRoleDag acyclicRoles_nil
  refine ⟨hg.isClosure hacyc, fun o parent child ↦ ?_⟩
  dsimp only
  rw [hg.withEdge]
  have hself : parent = child → ¬ AcyclicRoles (edges ++ [(parent, child)]) := by
    intro heq h
    refine h parent (.single ?_)
    rw [Inherits, heq]
    exact List.mem_append_right edges (List.mem_singleton_self _)
  obtain ⟨hnone, hexact, hacyc'⟩ | ⟨hsome, hsame, hcyc⟩ := call_spec o hg parent child
  · rw [hnone]
    have hfail : ¬ (none : Option String).isSome = true := Bool.false_ne_true
    refine ⟨⟨fun h ↦ absurd h hfail, fun h ↦ ?_⟩, fun h ↦ absurd h hfail, fun _ ↦ hexact.stored⟩
    obtain heq | ⟨r, hr⟩ := h
    · exact absurd hacyc' (hself heq)
    · exact absurd hr (hacyc' r)
  · refine ⟨⟨fun _ ↦ .inr ?_, fun _ ↦ hsome⟩, fun _ ↦ hsame, fun h ↦ ?_⟩
    · unfold AcyclicRoles at hcyc
      push Not at hcyc
      exact hcyc
    · rw [h] at hsome
      cases hsome

end PolicyEngine.Engine.RoleDag

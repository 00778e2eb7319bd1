import PolicyEngine.Engine.Decision
import PolicyEngine.Heap.Forest

namespace PolicyEngine.Engine

open PolicyEngine.Go PolicyEngine.Heap PolicyEngine.Parser

/-- The subject, resource and action nodes of all tries. A subject or resource
node carries no policies, and an action node no children. -/
abbrev NodeStore := Store UInt64 String PolicyNode

structure StoredTrie where
  tenantId : String
  revision : UInt64
  requiredAttributes : List String
  subjects : UInt64 → List ℕ
  globalPolicies : List PolicyNode
  roleDag : Option RoleDag

def newStoredTrie (tenantId : String) : StoredTrie where
  tenantId := tenantId
  revision := 1
  requiredAttributes := []
  subjects := fun _ ↦ []
  globalPolicies := []
  roleDag := some RoleDag.newRoleDag

def actionNode (σ : NodeStore) (r : ℕ) : ActionNode := ⟨(σ.cells r).key, (σ.cells r).items⟩

def resourceNode (σ : NodeStore) (r : ℕ) : ResourceNode :=
  ⟨(σ.cells r).key, fun h ↦ ((σ.cells r).children h).map (actionNode σ)⟩

def subjectNode (σ : NodeStore) (r : ℕ) : SubjectNode :=
  ⟨(σ.cells r).key, fun h ↦ ((σ.cells r).children h).map (resourceNode σ)⟩

namespace StoredTrie

def view (t : StoredTrie) (σ : NodeStore) : TrieRoot where
  tenantId := t.tenantId
  revision := t.revision
  requiredAttributes := t.requiredAttributes
  subjects := fun h ↦ (t.subjects h).map (subjectNode σ)
  globalPolicies := t.globalPolicies
  roleDag := t.roleDag

variable (hash : String → UInt64)

/-- `AddPolicy` writes to the nodes in place. -/
def addPolicy (t : StoredTrie) (σ : NodeStore) : Option PolicyNode → StoredTrie × NodeStore
  | none => (t, σ)
  | some policy =>
    let t := { t with
      requiredAttributes := addRequiredAttributes policy.requiredAttributes t.requiredAttributes }
    if isGlobal policy then ({ t with globalPolicies := t.globalPolicies ++ [policy] }, σ)
    else
      let (subjects, σ) := σ.insert hash t.subjects (buildKey policy.principal)
        [buildKey policy.resource, buildKey policy.action] policy
      ({ t with subjects := subjects }, σ)

def addPolicies (t : StoredTrie) (σ : NodeStore) (policies : List (Option PolicyNode)) :
    StoredTrie × NodeStore :=
  policies.foldl (fun (t, σ) policy ↦ addPolicy hash t σ policy) (t, σ)

end StoredTrie

def TrieRoot.hasSubject (hash : String → UInt64) (t : TrieRoot) (key : String) : Bool :=
  (findSubjectNode (t.subjects (hash key)) key).isSome

/-- Two roots that neither a lookup nor `AddPolicy` can tell apart. -/
structure SameContents (hash : String → UInt64) (t t' : TrieRoot) : Prop where
  revision : t.revision = t'.revision
  globalPolicies : t.globalPolicies = t'.globalPolicies
  roleDag : t.roleDag = t'.roleDag
  hasSubject : ∀ k, t.hasSubject hash k = t'.hasSubject hash k
  leaf : ∀ s r a, t.leaf hash s r a = t'.leaf hash s r a

theorem hasSubject_addPolicy {hash : String → UInt64} (t : TrieRoot) (policy : PolicyNode)
    (k : String) :
    (t.addPolicy hash (some policy)).hasSubject hash k =
      (!isGlobal policy && decide (k = buildKey policy.principal) || t.hasSubject hash k) := by
  cases hglobal : isGlobal policy with
  | true => simp [TrieRoot.addPolicy, hglobal, TrieRoot.hasSubject]
  | false =>
    simp only [TrieRoot.addPolicy, hglobal, TrieRoot.hasSubject, findSubjectNode,
      Bool.false_eq_true, if_false]
    rw [Hash.Buckets.find_modify (by rfl) (fun _ ↦ by rfl)]
    split_ifs with hk <;> simp [hk]

namespace SameContents

variable {hash : String → UInt64} {t t' t'' : TrieRoot}

theorem refl (t : TrieRoot) : SameContents hash t t := ⟨rfl, rfl, rfl, fun _ ↦ rfl, fun _ _ _ ↦ rfl⟩

theorem trans (h : SameContents hash t t') (h' : SameContents hash t' t'') :
    SameContents hash t t'' :=
  ⟨h.revision.trans h'.revision, h.globalPolicies.trans h'.globalPolicies,
    h.roleDag.trans h'.roleDag, fun k ↦ (h.hasSubject k).trans (h'.hasSubject k),
    fun s r a ↦ (h.leaf s r a).trans (h'.leaf s r a)⟩

theorem evaluatePermission (h : SameContents hash t t') (subject action resource : String)
    (context : Map String) :
    evaluatePermission hash t subject action resource context =
      evaluatePermission hash t' subject action resource context := by
  have hmatched : matchedPolicies hash t subject action resource =
      matchedPolicies hash t' subject action resource := by
    simp only [matchedPolicies, lookup_eq_leaves, h.globalPolicies, h.roleDag, h.leaf]
  simp only [Engine.evaluatePermission, hmatched, evalContext, h.roleDag]

theorem addPolicy (h : SameContents hash t t') (policy : Option PolicyNode) :
    SameContents hash (t.addPolicy hash policy) (t'.addPolicy hash policy) := by
  cases policy with
  | none => exact h
  | some =>
    refine ⟨?_, ?_, ?_, fun k ↦ ?_, fun s r a ↦ ?_⟩
    · simp only [TrieRoot.addPolicy]
      split_ifs <;> exact h.revision
    · rw [globalPolicies_addPolicy, globalPolicies_addPolicy, h.globalPolicies]
    · simp only [TrieRoot.addPolicy]
      split_ifs <;> exact h.roleDag
    · rw [hasSubject_addPolicy, hasSubject_addPolicy, h.hasSubject]
    · rw [leaf_addPolicy, leaf_addPolicy, h.leaf]

end SameContents

namespace StoredTrie

variable {hash : String → UInt64} {t : StoredTrie} {σ σ' : NodeStore} {n : ℕ}

theorem find_map (σ : NodeStore) {N : Type} (key : N → String) (node : ℕ → N)
    (hkey : ∀ r, key (node r) = (σ.cells r).key) (refs : List ℕ) (k : String) :
    Hash.Buckets.find key k (refs.map node) = (σ.find refs k).map node := by
  rw [Hash.Buckets.find, Store.find, List.find?_map]
  simp only [Function.comp_def, hkey]

theorem findSubjectNode_map (σ : NodeStore) (refs : List ℕ) (k : String) :
    findSubjectNode (refs.map (subjectNode σ)) k = (σ.find refs k).map (subjectNode σ) :=
  find_map σ SubjectNode.key (subjectNode σ) (fun _ ↦ rfl) refs k

theorem findResourceNode_map (σ : NodeStore) (refs : List ℕ) (k : String) :
    findResourceNode (refs.map (resourceNode σ)) k = (σ.find refs k).map (resourceNode σ) :=
  find_map σ ResourceNode.key (resourceNode σ) (fun _ ↦ rfl) refs k

theorem findActionNode_map (σ : NodeStore) (refs : List ℕ) (k : String) :
    findActionNode (refs.map (actionNode σ)) k = (σ.find refs k).map (actionNode σ) :=
  find_map σ ActionNode.key (actionNode σ) (fun _ ↦ rfl) refs k

theorem hasSubject_view (t : StoredTrie) (σ : NodeStore) (k : String) :
    (t.view σ).hasSubject hash k = (σ.find (t.subjects (hash k)) k).isSome := by
  rw [TrieRoot.hasSubject, view, findSubjectNode_map, Option.isSome_map]

theorem leaf_view (t : StoredTrie) (σ : NodeStore) (s r a : String) :
    (t.view σ).leaf hash s r a = σ.itemsAt hash t.subjects s [r, a] := by
  simp only [TrieRoot.leaf, view, findSubjectNode_map, Store.itemsAt]
  cases σ.find (t.subjects (hash s)) s with
  | none => rfl
  | some sub =>
    simp only [Option.map_some, subjectNode, findResourceNode_map, Store.itemsFrom, Store.walkFrom]
    cases σ.find ((σ.cells sub).children (hash r)) r with
    | none => rfl
    | some res =>
      simp only [Option.map_some, ResourceNode.tryAction, resourceNode, findActionNode_map]
      cases σ.find ((σ.cells res).children (hash a)) a <;> rfl

theorem addPolicy_global (t : StoredTrie) (σ : NodeStore) {policy : PolicyNode}
    (h : isGlobal policy = true) :
    t.addPolicy hash σ (some policy) =
      ({ t with
        requiredAttributes :=
          addRequiredAttributes policy.requiredAttributes t.requiredAttributes
        globalPolicies := t.globalPolicies ++ [policy] }, σ) := by
  simp [addPolicy, h]

theorem addPolicy_keyed (t : StoredTrie) (σ : NodeStore) {policy : PolicyNode}
    (h : isGlobal policy = false) :
    t.addPolicy hash σ (some policy) =
      ({ t with
        requiredAttributes :=
          addRequiredAttributes policy.requiredAttributes t.requiredAttributes
        subjects := (σ.insert hash t.subjects (buildKey policy.principal)
          [buildKey policy.resource, buildKey policy.action] policy).1 },
        (σ.insert hash t.subjects (buildKey policy.principal)
          [buildKey policy.resource, buildKey policy.action] policy).2) := by
  simp [addPolicy, h]

theorem owned_addPolicy (hσ : σ.Owned) (ht : σ.Bounded t.subjects) (policy : Option PolicyNode) :
    (t.addPolicy hash σ policy).2.Owned ∧
      (t.addPolicy hash σ policy).2.Bounded (t.addPolicy hash σ policy).1.subjects ∧
        σ.next ≤ (t.addPolicy hash σ policy).2.next := by
  cases policy with
  | none => exact ⟨hσ, ht, Nat.le_refl _⟩
  | some policy =>
    cases hglobal : isGlobal policy with
    | true =>
      rw [addPolicy_global t σ hglobal]
      exact ⟨hσ, ht, Nat.le_refl _⟩
    | false =>
      rw [addPolicy_keyed t σ hglobal]
      dsimp only
      exact ⟨Store.owned_insert hσ ht, Store.bounded_insert hσ ht, Store.next_le_insert hσ ht⟩

theorem addPolicy_view (hσ : σ.Owned) (ht : σ.Bounded t.subjects) (policy : Option PolicyNode) :
    SameContents hash ((t.addPolicy hash σ policy).1.view (t.addPolicy hash σ policy).2)
      ((t.view σ).addPolicy hash policy) := by
  cases policy with
  | none => exact .refl _
  | some policy =>
    cases hglobal : isGlobal policy with
    | true =>
      rw [addPolicy_global t σ hglobal]
      simp only [TrieRoot.addPolicy, hglobal, if_true]
      exact .refl _
    | false =>
      rw [addPolicy_keyed t σ hglobal]
      refine ⟨?_, ?_, ?_, fun k ↦ ?_, fun s r a ↦ ?_⟩
      · simp [TrieRoot.addPolicy, hglobal, view]
      · simp [TrieRoot.addPolicy, hglobal, view]
      · simp [TrieRoot.addPolicy, hglobal, view]
      · rw [hasSubject_addPolicy, hasSubject_view, hasSubject_view]
        dsimp only
        rw [Store.isSome_find_insert hσ ht, hglobal]
        rfl
      · have hlen : [r, a].length = [buildKey policy.resource, buildKey policy.action].length := rfl
        rw [leaf_addPolicy, leaf_view, leaf_view]
        dsimp only
        rw [Store.itemsAt_insert hσ ht s hlen]
        simp [hglobal]

theorem addPolicy_frame (hσ : σ.Owned) (ht : σ.Bounded t.subjects) (hn : Store.Region n σ)
    (policy : Option PolicyNode)
    (h : ∀ p ∈ policy, isGlobal p = true ∨
      ∀ r, σ.find (t.subjects (hash (buildKey p.principal))) (buildKey p.principal) = some r →
        n ≤ r) :
    Store.Region n (t.addPolicy hash σ policy).2 ∧
      Store.AgreeBelow n σ (t.addPolicy hash σ policy).2 ∧
        ∀ w, ∀ r ∈ (t.addPolicy hash σ policy).1.subjects w, r ∈ t.subjects w ∨ n ≤ r := by
  cases policy with
  | none => exact ⟨hn, fun _ _ ↦ rfl, fun _ _ hr ↦ .inl hr⟩
  | some policy =>
    cases hglobal : isGlobal policy with
    | true =>
      rw [addPolicy_global t σ hglobal]
      exact ⟨hn, fun _ _ ↦ rfl, fun _ _ hr ↦ .inl hr⟩
    | false =>
      have hentry := (h policy rfl).resolve_left (by simp [hglobal])
      rw [addPolicy_keyed t σ hglobal]
      dsimp only
      exact Store.insert_frame hσ ht hn hentry _ _

/-- A trie under construction: it holds what its value-level twin holds, in
cells that were free when the construction began. -/
structure Built (hash : String → UInt64) (σ₀ : NodeStore) (t : StoredTrie) (σ : NodeStore)
    (root : TrieRoot) : Prop where
  owned : σ.Owned
  bounded : σ.Bounded t.subjects
  region : Store.Region σ₀.next σ
  refs : ∀ w, ∀ r ∈ t.subjects w, σ₀.next ≤ r
  agrees : Store.AgreeBelow σ₀.next σ₀ σ
  contents : SameContents hash (t.view σ) root

theorem Built.addPolicy {σ₀ : NodeStore} {root : TrieRoot} (h : Built hash σ₀ t σ root)
    (policy : Option PolicyNode) :
    Built hash σ₀ (t.addPolicy hash σ policy).1 (t.addPolicy hash σ policy).2
      (root.addPolicy hash policy) := by
  obtain ⟨howned, hbounded, -⟩ := owned_addPolicy h.owned h.bounded policy
  obtain ⟨hregion, hagree, hrefs⟩ := addPolicy_frame h.owned h.bounded h.region policy
    fun p _ ↦ .inr fun r hr ↦ h.refs _ r (Store.mem_of_find hr)
  refine ⟨howned, hbounded, hregion, fun w r hr ↦ ?_, fun x hx ↦ ?_, ?_⟩
  · exact (hrefs w r hr).elim (h.refs w r) id
  · exact (hagree x hx).trans (h.agrees x hx)
  · exact (addPolicy_view h.owned h.bounded policy).trans (h.contents.addPolicy policy)

theorem Built.addPolicies {σ₀ : NodeStore} {root : TrieRoot} (h : Built hash σ₀ t σ root)
    (policies : List (Option PolicyNode)) :
    Built hash σ₀ (t.addPolicies hash σ policies).1 (t.addPolicies hash σ policies).2
      (root.addPolicies hash policies) := by
  induction policies generalizing t σ root with
  | nil => exact h
  | cons policy _ ih => exact ih (h.addPolicy policy)

theorem view_of_agree (hσ : σ.Owned) (ht : σ.Bounded t.subjects)
    (h : Store.AgreeBelow σ.next σ σ') : SameContents hash (t.view σ') (t.view σ) where
  revision := rfl
  globalPolicies := rfl
  roleDag := rfl
  hasSubject k := by
    rw [hasSubject_view, hasSubject_view, Store.find_of_agree h (ht _)]
  leaf s r a := by rw [leaf_view, leaf_view, Store.itemsAt_of_agree hσ ht h]

end StoredTrie

end PolicyEngine.Engine

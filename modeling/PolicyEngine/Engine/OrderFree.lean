import PolicyEngine.Engine.Decision

namespace PolicyEngine.Engine

open PolicyEngine.Go PolicyEngine.Parser

variable {hash : String → UInt64}

theorem ensureAnyInto_perm {keys keys' : List String} (h : keys.Perm keys') :
    (ensureAnyInto keys).Perm (ensureAnyInto keys') := by
  rw [ensureAnyInto_eq, ensureAnyInto_eq]
  by_cases hany : "any" ∈ keys
  · rwa [if_pos hany, if_pos (h.mem_iff.mp hany)]
  · rw [if_neg hany, if_neg (fun h' ↦ hany (h.mem_iff.mpr h'))]
    exact h.append_right ["any"]

theorem lookup_perm {policies policies' : List (Option PolicyNode)} {subjects subjects' : List String}
    (hp : policies.Perm policies') (hs : subjects.Perm subjects') (tenantId tenantId' : String)
    (resources : List String) (action : String) :
    (((newTrieRoot tenantId).addPolicies hash policies).lookupPoliciesInto hash [] subjects resources
        action).Perm
      (((newTrieRoot tenantId').addPolicies hash policies').lookupPoliciesInto hash [] subjects'
        resources action) := by
  have hred : policies.reduceOption.Perm policies'.reduceOption := hp.filterMap id
  rw [lookup_built, lookup_built]
  refine (hred.filter _).append (List.Perm.flatMap (ensureAnyInto_perm hs) fun s _ ↦ ?_)
  refine List.Perm.flatMap_left _ fun r _ ↦ (hred.filter _).append ?_
  split_ifs
  · exact .refl _
  · exact hred.filter _

theorem addPolicy_with (t : TrieRoot) (revision : UInt64) (dag : Option RoleDag)
    (policy : Option PolicyNode) :
    TrieRoot.addPolicy hash { t with revision := revision, roleDag := dag } policy =
      { t.addPolicy hash policy with revision := revision, roleDag := dag } := by
  cases policy with
  | none => rfl
  | some policy => cases h : isGlobal policy <;> simp [TrieRoot.addPolicy, h]

theorem addPolicies_with (t : TrieRoot) (revision : UInt64) (dag : Option RoleDag)
    (policies : List (Option PolicyNode)) :
    TrieRoot.addPolicies hash { t with revision := revision, roleDag := dag } policies =
      { t.addPolicies hash policies with revision := revision, roleDag := dag } := by
  induction policies generalizing t with
  | nil => rfl
  | cons _ _ ih =>
    simp only [TrieRoot.addPolicies, List.foldl_cons] at ih ⊢
    rw [addPolicy_with, ih]

/-- A trie as `buildTenantTrie` leaves it: its role graph is exact and its
index holds the policies. -/
structure BuiltFrom (hash : String → UInt64) (trie : TrieRoot)
    (policies : List (Option PolicyNode)) (inheritances : List (String × String)) : Prop where
  roles : ∃ g, trie.roleDag = some g ∧ g.Exact inheritances
  lookup : ∀ subjects resources action, trie.lookupPoliciesInto hash [] subjects resources action =
    ((newTrieRoot trie.tenantId).addPolicies hash policies).lookupPoliciesInto hash [] subjects
      resources action

theorem tenantId_addPolicies (t : TrieRoot) (policies : List (Option PolicyNode)) :
    (t.addPolicies hash policies).tenantId = t.tenantId := by
  induction policies generalizing t with
  | nil => rfl
  | cons policy _ ih =>
    simp only [TrieRoot.addPolicies, List.foldl_cons] at ih ⊢
    rw [ih]
    cases policy with
    | none => rfl
    | some policy => cases h : isGlobal policy <;> simp [TrieRoot.addPolicy, h]

theorem buildTenantTrie_spec (hash : String → UInt64) (orders : ℕ → RoleDag.MapOrders)
    (tenantId : String) (policies : List (Option PolicyNode))
    (inheritances : List (String × String)) (revision : UInt64) :
    (∃ trie, buildTenantTrie hash orders tenantId policies inheritances revision = .ok trie ∧
        BuiltFrom hash trie policies inheritances ∧ trie.tenantId = tenantId ∧
        trie.revision = revision ∧ RoleDag.AcyclicRoles inheritances) ∨
      ((∃ e, buildTenantTrie hash orders tenantId policies inheritances revision = .error e) ∧
        ¬ RoleDag.AcyclicRoles inheritances) := by
  unfold buildTenantTrie
  rcases RoleDag.addInheritances_spec orders inheritances RoleDag.exact_newRoleDag
    RoleDag.acyclicRoles_nil with
    ⟨g, hok, hexact, hacyc⟩ | ⟨⟨e, herr⟩, hacyc⟩
  · rw [hok]
    refine .inl ⟨_, rfl, ⟨⟨g, ?_, hexact⟩, fun subjects resources action ↦ ?_⟩, ?_, ?_, hacyc⟩
    all_goals dsimp only
    all_goals rw [addPolicies_with]
    · rw [show (TrieRoot.addPolicies hash (newTrieRoot tenantId) policies).tenantId = tenantId from
        tenantId_addPolicies _ _]
      rfl
    · exact tenantId_addPolicies _ _
  · rw [herr]
    exact .inr ⟨⟨e, rfl⟩, hacyc⟩

def satisfiedPermits (hash : String → UInt64) (subject action resource : String)
    (context : Map String) (trie : TrieRoot) : List PolicyNode :=
  (matchedPolicies hash trie subject action resource).filter
    (satisfiedPermit (evalContext trie subject action resource context))

section Reordering

variable {trie trie' : TrieRoot} {policies policies' : List (Option PolicyNode)}
  {inheritances inheritances' : List (String × String)}

theorem inherits_perm (h : inheritances.Perm inheritances') :
    RoleDag.Inherits inheritances = RoleDag.Inherits inheritances' := by
  funext a b
  exact propext h.mem_iff

theorem BuiltFrom.matched_perm (h : BuiltFrom hash trie policies inheritances)
    (h' : BuiltFrom hash trie' policies' inheritances') (hp : policies.Perm policies')
    (hi : inheritances.Perm inheritances') (subject action resource : String) :
    (matchedPolicies hash trie subject action resource).Perm
      (matchedPolicies hash trie' subject action resource) := by
  obtain ⟨_, hg, hex⟩ := h.roles
  obtain ⟨_, hg', hex'⟩ := h'.roles
  unfold matchedPolicies
  rw [h.lookup, h'.lookup, hg, hg']
  refine lookup_perm hp ?_ _ _ _ _
  refine (List.perm_ext_iff_of_nodup (hex.nodup subject) (hex'.nodup subject)).mpr fun c ↦ ?_
  exact (hex.inherited subject c).trans (by rw [inherits_perm hi, ← hex'.inherited subject c])

theorem BuiltFrom.satisfied_congr (h : BuiltFrom hash trie policies inheritances)
    (h' : BuiltFrom hash trie' policies' inheritances') (hi : inheritances.Perm inheritances')
    (subject action resource : String) (context : Map String) (p : PolicyNode) :
    isConditionSatisfied (evalContext trie subject action resource context) p =
      isConditionSatisfied (evalContext trie' subject action resource context) p := by
  obtain ⟨g, hg, hex⟩ := h.roles
  obtain ⟨g', hg', hex'⟩ := h'.roles
  have hdesc (a b : String) :
      RoleDag.isDescendant (some g) a b = RoleDag.isDescendant (some g') a b := by
    rw [Bool.eq_iff_iff, hex.descends, hex'.descends, inherits_perm hi]
  have heval := evaluate_roleDag_congr ⟨subject, action, resource, context, none⟩ hdesc p.condition
  unfold isConditionSatisfied evalContext
  rw [hg, hg', heval]

theorem BuiltFrom.permits_iff (h : BuiltFrom hash trie policies inheritances)
    (h' : BuiltFrom hash trie' policies' inheritances') (hp : policies.Perm policies')
    (hi : inheritances.Perm inheritances') (subject action resource : String)
    (context : Map String) (p : PolicyNode) :
    p ∈ satisfiedPermits hash subject action resource context trie' ↔
      p ∈ satisfiedPermits hash subject action resource context trie := by
  rw [satisfiedPermits, satisfiedPermits, List.mem_filter, List.mem_filter,
    (h.matched_perm h' hp hi subject action resource).mem_iff]
  simp only [satisfiedPermit, h.satisfied_congr h' hi]

theorem BuiltFrom.allow_iff (h : BuiltFrom hash trie policies inheritances)
    (h' : BuiltFrom hash trie' policies' inheritances') (hp : policies.Perm policies')
    (hi : inheritances.Perm inheritances') (subject action resource : String)
    (context : Map String) :
    (evaluatePermission hash trie' subject action resource context).decision = .allow ↔
      (evaluatePermission hash trie subject action resource context).decision = .allow := by
  have hmem (p : PolicyNode) := (h.matched_perm h' hp hi subject action resource).mem_iff (a := p)
  have hsat (p : PolicyNode) := h.satisfied_congr h' hi subject action resource context p
  simp only [evaluatePermission_allow_iff, satisfiedPermit, satisfiedForbid, hmem, hsat]

theorem decision_eq_of_allow_iff {d d' : Decision} (h : d' = .allow ↔ d = .allow) : d' = d := by
  cases d <;> cases d' <;> simp_all

end Reordering

section Request

variable (hash : String → UInt64) (orders : ℕ → RoleDag.MapOrders) (tenantId : String)
  (policies : List (Option PolicyNode)) (inheritances : List (String × String)) (revision : UInt64)
  (subject action resource : String) (context : Map String)

theorem exists_built {inheritances : List (String × String)}
    (hacyc : RoleDag.AcyclicRoles inheritances) :
    ∃ trie, buildTenantTrie hash orders tenantId policies inheritances revision = .ok trie ∧
      BuiltFrom hash trie policies inheritances := by
  rcases buildTenantTrie_spec hash orders tenantId policies inheritances revision with
    ⟨trie, hok, hbuilt, _⟩ | ⟨_, hcyc⟩
  · exact ⟨trie, hok, hbuilt⟩
  · exact absurd hacyc hcyc

theorem acyclicRoles_perm {inheritances inheritances' : List (String × String)}
    (hi : inheritances.Perm inheritances') (hacyc : RoleDag.AcyclicRoles inheritances) :
    RoleDag.AcyclicRoles inheritances' :=
  hacyc.mono fun _ he ↦ hi.mem_iff.mpr he

/-- Forbid overrides and deny by default, whatever the order in which policies
and inheritances are loaded and maps are ranged over. -/
theorem checkPermission_order_free (hacyc : RoleDag.AcyclicRoles inheritances) :
    ∃ trie, buildTenantTrie hash orders tenantId policies inheritances revision = .ok trie ∧
      ((checkPermission hash none (some trie) subject action resource context).decision = .allow ↔
        (∃ p ∈ matchedPolicies hash trie subject action resource, p.effect = .permit ∧
          isConditionSatisfied (evalContext trie subject action resource context) p = true) ∧
        ∀ p ∈ matchedPolicies hash trie subject action resource, p.effect = .forbid →
          isConditionSatisfied (evalContext trie subject action resource context) p = false) ∧
      ∀ orders' policies' inheritances', policies.Perm policies' →
        inheritances.Perm inheritances' →
        ∃ trie', buildTenantTrie hash orders' tenantId policies' inheritances' revision = .ok trie' ∧
          ∀ ctxErr, (checkPermission hash ctxErr (some trie') subject action resource
              context).decision =
            (checkPermission hash ctxErr (some trie) subject action resource context).decision := by
  obtain ⟨trie, hok, hbuilt⟩ := exists_built hash orders tenantId policies revision hacyc
  refine ⟨trie, hok, ?_, fun orders' policies' inheritances' hp hi ↦ ?_⟩
  · simp only [checkPermission, evaluatePermission_allow_iff, satisfiedPermit, satisfiedForbid,
      Bool.and_eq_true, decide_eq_true_eq, not_exists, not_and, Bool.eq_false_iff, ne_eq]
    constructor
    · rintro ⟨⟨p, hp, hsat, heff⟩, hforbid⟩
      exact ⟨⟨p, hp, heff, hsat⟩, fun q hq heff' hsat' ↦ hforbid q hq hsat' heff'⟩
    · rintro ⟨⟨p, hp, heff, hsat⟩, hforbid⟩
      exact ⟨⟨p, hp, hsat, heff⟩, fun q hq hsat' heff' ↦ hforbid q hq heff' hsat'⟩
  · obtain ⟨trie', hok', hbuilt'⟩ :=
      exists_built hash orders' tenantId policies' revision (acyclicRoles_perm hi hacyc)
    refine ⟨trie', hok', fun ctxErr ↦ ?_⟩
    cases ctxErr with
    | some => rfl
    | none =>
      exact decision_eq_of_allow_iff
        (hbuilt.allow_iff hbuilt' hp hi subject action resource context)

def plainPermit : PolicyNode where
  id := "p-plain"
  effect := .permit
  principal := some ⟨.in, "role", "buyer"⟩
  action := some ⟨.eq, "action", "CONFIRM"⟩
  resource := some ⟨.any, "", ""⟩

def approvalPermit : PolicyNode :=
  { plainPermit with
    id := "p-approval"
    obligations := [{ type := obligationRequireHumanApproval }] }

def aliceIsBuyer : List (String × String) := [("user:alice", "role:buyer")]

theorem aliceIsBuyer_acyclic : RoleDag.AcyclicRoles aliceIsBuyer :=
  RoleDag.acyclicRoles_of_isOk (fun _ ↦ .uniform .listed) (by decide)

theorem checkPermission_order_free_alice :
    ∃ trie, buildTenantTrie fnvHash (fun _ ↦ .uniform .listed) "t1"
        [some plainPermit, some approvalPermit] aliceIsBuyer 1 = .ok trie ∧
      ∃ trie', buildTenantTrie fnvHash (fun _ ↦ .uniform .reversed) "t1"
          [some approvalPermit, some plainPermit] aliceIsBuyer 1 = .ok trie' ∧
        (checkPermission fnvHash none (some trie') "user:alice" "CONFIRM" "po:1" ∅).decision =
          (checkPermission fnvHash none (some trie) "user:alice" "CONFIRM" "po:1" ∅).decision := by
  obtain ⟨trie, hok, _, h⟩ := checkPermission_order_free fnvHash (fun _ ↦ .uniform .listed) "t1"
    [some plainPermit, some approvalPermit] aliceIsBuyer 1 "user:alice" "CONFIRM" "po:1" ∅
    aliceIsBuyer_acyclic
  obtain ⟨trie', hok', hd⟩ := h (fun _ ↦ .uniform .reversed) _ _ (.swap _ _ _) (.refl _)
  exact ⟨trie, hok, trie', hok', hd none⟩

/-- Which permits are satisfied does not depend on the load order, and an ALLOW carries
the obligations of one of them, so the obligations do not depend on it either as soon as
these permits carry the same ones. -/
theorem obligations_of_satisfied_permit (hacyc : RoleDag.AcyclicRoles inheritances) :
    ∃ trie, buildTenantTrie hash orders tenantId policies inheritances revision = .ok trie ∧
      ∀ orders' policies' inheritances', policies.Perm policies' →
        inheritances.Perm inheritances' →
        ∃ trie', buildTenantTrie hash orders' tenantId policies' inheritances' revision = .ok trie' ∧
          (∀ p, p ∈ satisfiedPermits hash subject action resource context trie' ↔
            p ∈ satisfiedPermits hash subject action resource context trie) ∧
          ((checkPermission hash none (some trie) subject action resource context).decision = .allow →
            (∃ p ∈ satisfiedPermits hash subject action resource context trie,
              (checkPermission hash none (some trie') subject action resource context).obligations =
                p.obligations) ∧
            ((∀ p ∈ satisfiedPermits hash subject action resource context trie,
                ∀ q ∈ satisfiedPermits hash subject action resource context trie,
                ∀ o, o ∈ p.obligations ↔ o ∈ q.obligations) →
              ∀ o, o ∈ (checkPermission hash none (some trie') subject action resource
                    context).obligations ↔
                  o ∈ (checkPermission hash none (some trie) subject action resource
                    context).obligations)) := by
  obtain ⟨trie, hok, hbuilt⟩ := exists_built hash orders tenantId policies revision hacyc
  refine ⟨trie, hok, fun orders' policies' inheritances' hp hi ↦ ?_⟩
  obtain ⟨trie', hok', hbuilt'⟩ :=
    exists_built hash orders' tenantId policies' revision (acyclicRoles_perm hi hacyc)
  have hpermits := hbuilt.permits_iff hbuilt' hp hi subject action resource context
  refine ⟨trie', hok', hpermits, fun hallow ↦ ?_⟩
  simp only [checkPermission] at hallow ⊢
  have hallow' := (hbuilt.allow_iff hbuilt' hp hi subject action resource context).mpr hallow
  obtain ⟨p, hpm, hps, hpo⟩ := evaluatePermission_obligations hash hallow
  obtain ⟨q, hqm, hqs, hqo⟩ := evaluatePermission_obligations hash hallow'
  have hq := (hpermits q).mp (List.mem_filter.mpr ⟨hqm, hqs⟩)
  refine ⟨⟨q, hq, hqo⟩, fun hsame o ↦ ?_⟩
  rw [hpo, hqo]
  exact hsame q hq p (List.mem_filter.mpr ⟨hpm, hps⟩) o

theorem obligations_of_satisfied_permit_alice :
    ∃ trie, buildTenantTrie fnvHash (fun _ ↦ .uniform .listed) "t1"
        [some plainPermit, some approvalPermit] aliceIsBuyer 1 = .ok trie ∧
      ∃ trie', buildTenantTrie fnvHash (fun _ ↦ .uniform .reversed) "t1"
          [some approvalPermit, some plainPermit] aliceIsBuyer 1 = .ok trie' ∧
        ((checkPermission fnvHash none (some trie) "user:alice" "CONFIRM" "po:1" ∅).decision = .allow →
          ∃ p ∈ satisfiedPermits fnvHash "user:alice" "CONFIRM" "po:1" ∅ trie,
            (checkPermission fnvHash none (some trie') "user:alice" "CONFIRM" "po:1" ∅).obligations =
              p.obligations) := by
  obtain ⟨trie, hok, h⟩ := obligations_of_satisfied_permit fnvHash (fun _ ↦ .uniform .listed) "t1"
    [some plainPermit, some approvalPermit] aliceIsBuyer 1 "user:alice" "CONFIRM" "po:1" ∅
    aliceIsBuyer_acyclic
  obtain ⟨trie', hok', -, hd⟩ := h (fun _ ↦ .uniform .reversed) _ _ (.swap _ _ _) (.refl _)
  exact ⟨trie, hok, trie', hok', fun hallow ↦ (hd hallow).1⟩

def decisionOf (policies : List (Option PolicyNode)) : Except String DecisionResult :=
  (buildTenantTrie fnvHash (fun _ ↦ .uniform .listed) "t1" policies aliceIsBuyer 1).map fun trie ↦
    checkPermission fnvHash none (some trie) "user:alice" "CONFIRM" "po:1" ∅

theorem approval_lost_by_reordering :
    decisionOf [some approvalPermit, some plainPermit] =
        .ok { decision := .allow, reason := reasonAllowPermit, explanations := ["p-approval"],
              obligations := [{ type := obligationRequireHumanApproval }] } ∧
      decisionOf [some plainPermit, some approvalPermit] =
        .ok { decision := .allow, reason := reasonAllowPermit, explanations := ["p-plain"],
              obligations := [] } :=
  ⟨rfl, rfl⟩

end Request

section Adding

variable (hash : String → UInt64) (t : TrieRoot) (p : PolicyNode) (subject action resource : String)
  (context : Map String)

theorem roleDag_addPolicy : (t.addPolicy hash (some p)).roleDag = t.roleDag := by
  cases h : isGlobal p <;> simp [TrieRoot.addPolicy, h]

theorem mem_matched_addPolicy (q : PolicyNode) :
    q ∈ matchedPolicies hash (t.addPolicy hash (some p)) subject action resource ↔
      q ∈ matchedPolicies hash t subject action resource ∨ q = p ∧
        p ∈ matchedPolicies hash (t.addPolicy hash (some p)) subject action resource := by
  unfold matchedPolicies
  simp only [lookup_eq_leaves, roleDag_addPolicy, globalPolicies_addPolicy, leaf_addPolicy,
    List.mem_append, List.mem_flatMap, List.not_mem_nil, false_or]
  grind

/-- Whatever the trie holds, a policy that is added leaves a decision as it is, or the
lookup finds it and it turns the decision to its own effect. -/
theorem decision_addPolicy : ∃ d d',
    (evaluatePermission hash t subject action resource context).decision = d ∧
    (evaluatePermission hash (t.addPolicy hash (some p)) subject action resource context).decision =
      d' ∧
    (d' = d ∨ p ∈ matchedPolicies hash (t.addPolicy hash (some p)) subject action resource ∧
      match p.effect with
      | .permit => d = .deny ∧ d' = .allow
      | .forbid => d = .allow ∧ d' = .deny) := by
  refine ⟨_, _, rfl, rfl, ?_⟩
  have hmem := mem_matched_addPolicy hash t p subject action resource
  have hd := evaluatePermission_allow_iff hash t subject action resource context
  have hd' := evaluatePermission_allow_iff hash (t.addPolicy hash (some p)) subject action resource
    context
  simp only [satisfiedPermit, satisfiedForbid, evalContext, roleDag_addPolicy, Bool.and_eq_true,
    decide_eq_true_eq] at hd hd'
  generalize (evaluatePermission hash t subject action resource context).decision = d at hd ⊢
  generalize (evaluatePermission hash (t.addPolicy hash (some p)) subject action resource
    context).decision = d' at hd' ⊢
  cases heffect : p.effect <;> cases d <;> cases d' <;> grind

end Adding

end PolicyEngine.Engine

import PolicyEngine.Engine.Trie

namespace PolicyEngine.Engine

open PolicyEngine.Parser

/-- A static scope admits a list of keys: it is `any` or names one of them. -/
def ScopeMatches (scope : Option ScopeNode) (keys : List String) : Prop :=
  scopeIsAny scope = true ∨ buildKey scope ∈ keys

structure ScopesMatch (p : PolicyNode) (subjects resources : List String) (action : String) :
    Prop where
  principal : ScopeMatches p.principal subjects
  resource : ScopeMatches p.resource resources
  action : ScopeMatches p.action [action]

theorem scopeMatches_iff {scope : Option ScopeNode} {keys : List String} :
    ScopeMatches scope keys ↔ buildKey scope ∈ ensureAnyInto keys := by
  rw [mem_ensureAnyInto, buildKey_eq_any_iff, ScopeMatches]

variable (hash : String → UInt64)

theorem built_contents (tenantId : String) (policies : List (Option PolicyNode)) :
    ((newTrieRoot tenantId).addPolicies hash policies).globalPolicies =
        policies.reduceOption.filter isGlobal ∧
      ∀ s r a, ((newTrieRoot tenantId).addPolicies hash policies).leaf hash s r a =
        policies.reduceOption.filter (keyedBy s r a) := by
  simpa [newTrieRoot, TrieRoot.leaf, findSubjectNode] using
    addPolicies_contents hash (newTrieRoot tenantId) policies

theorem lookup_built (tenantId : String) (policies : List (Option PolicyNode))
    (subjects resources : List String) (action : String) :
    ((newTrieRoot tenantId).addPolicies hash policies).lookupPoliciesInto hash [] subjects resources
        action =
      policies.reduceOption.filter isGlobal ++ (ensureAnyInto subjects).flatMap fun s ↦
        (ensureAnyInto resources).flatMap fun r ↦
          policies.reduceOption.filter (keyedBy s r action) ++
            if hash action = hash "any" then [] else policies.reduceOption.filter (keyedBy s r "any")
    := by
  obtain ⟨hglobal, hleaf⟩ := built_contents hash tenantId policies
  rw [lookup_eq_leaves, hglobal, List.nil_append]
  simp only [hleaf]

theorem mem_lookup_iff (tenantId : String) (policies : List (Option PolicyNode))
    (subjects resources : List String) (action : String) (p : PolicyNode) :
    p ∈ ((newTrieRoot tenantId).addPolicies hash policies).lookupPoliciesInto hash [] subjects
        resources action ↔
      some p ∈ policies ∧ (isGlobal p = true ∨ isGlobal p = false ∧
        ScopeMatches p.principal subjects ∧ ScopeMatches p.resource resources ∧
          (buildKey p.action = action ∨ hash action ≠ hash "any" ∧ scopeIsAny p.action = true)) := by
  have hkeyed (s r a : String) : p ∈ policies.reduceOption.filter (keyedBy s r a) ↔
      some p ∈ policies ∧ isGlobal p = false ∧ s = buildKey p.principal ∧
        r = buildKey p.resource ∧ a = buildKey p.action := by
    simp [keyedBy, List.reduceOption_mem_iff, and_assoc]
  rw [lookup_built, List.mem_append, List.mem_filter, List.reduceOption_mem_iff]
  simp only [List.mem_flatMap, List.mem_append, hkeyed, scopeMatches_iff]
  constructor
  · rintro (⟨hp, hg⟩ | ⟨_, hs, _, hr, h | h⟩)
    · exact ⟨hp, .inl hg⟩
    · obtain ⟨hp, hg, rfl, rfl, ha⟩ := h
      exact ⟨hp, .inr ⟨hg, hs, hr, .inl ha.symm⟩⟩
    · split_ifs at h with hh
      · exact absurd h List.not_mem_nil
      · obtain ⟨hp, hg, rfl, rfl, ha⟩ := (hkeyed _ _ _).mp h
        exact ⟨hp, .inr ⟨hg, hs, hr, .inr ⟨hh, (buildKey_eq_any_iff _).mp ha.symm⟩⟩⟩
  · rintro ⟨hp, hg | ⟨hg, hs, hr, ha | ⟨hh, ha⟩⟩⟩
    · exact .inl ⟨hp, hg⟩
    · exact .inr ⟨_, hs, _, hr, .inl ⟨hp, hg, rfl, rfl, ha.symm⟩⟩
    · refine .inr ⟨_, hs, _, hr, .inr ?_⟩
      rw [if_neg hh, hkeyed]
      exact ⟨hp, hg, rfl, rfl, ((buildKey_eq_any_iff _).mpr ha).symm⟩

theorem isGlobal_iff (p : PolicyNode) :
    isGlobal p = true ↔ scopeIsAny p.principal = true ∧ scopeIsAny p.resource = true := by
  simp [isGlobal]

/-- The index is sound exactly when no double wildcard policy is written for
another action: that partition is returned without looking at the action. -/
theorem lookup_sound_iff (tenantId : String)
    (policies : List (Option PolicyNode)) (subjects resources : List String) (action : String) :
    (∀ p ∈ ((newTrieRoot tenantId).addPolicies hash policies).lookupPoliciesInto hash [] subjects
        resources action, ScopesMatch p subjects resources action) ↔
      ∀ p, some p ∈ policies → scopeIsAny p.principal = true → scopeIsAny p.resource = true →
        ScopeMatches p.action [action] := by
  constructor
  · intro h p hp hprincipal hresource
    have hmem := (mem_lookup_iff hash tenantId policies subjects resources action p).mpr
      ⟨hp, .inl ((isGlobal_iff p).mpr ⟨hprincipal, hresource⟩)⟩
    exact (h p hmem).action
  · intro h p hmem
    obtain ⟨hp, hg | ⟨_, hs, hr, ha⟩⟩ := (mem_lookup_iff hash tenantId policies _ _ _ p).mp hmem
    · obtain ⟨hprincipal, hresource⟩ := (isGlobal_iff p).mp hg
      exact ⟨.inl hprincipal, .inl hresource, h p hp hprincipal hresource⟩
    · refine ⟨hs, hr, ?_⟩
      rcases ha with ha | ⟨_, ha⟩
      · exact .inr (by simp [ha])
      · exact .inl ha

def readOnly : PolicyNode where
  id := "p-read"
  effect := .forbid
  principal := some ⟨.any, "", ""⟩
  action := some ⟨.eq, "action", "READ"⟩
  resource := some ⟨.any, "", ""⟩

theorem read_policy_returned_for_write :
    readOnly ∈ ((newTrieRoot "t1").addPolicies fnvHash [some readOnly]).lookupPoliciesInto fnvHash []
        ["user:alice"] ["file:report"] "action:WRITE" ∧
      ¬ ScopesMatch readOnly ["user:alice"] ["file:report"] "action:WRITE" := by
  refine ⟨?_, fun h ↦ ?_⟩
  · rw [mem_lookup_iff]
    exact ⟨by simp, .inl (by decide)⟩
  · have ha := h.action
    revert ha
    unfold ScopeMatches
    decide

theorem count_reduceOption (policies : List (Option PolicyNode)) (p : PolicyNode) :
    policies.reduceOption.count p = policies.count (some p) := by
  induction policies with
  | nil => rfl
  | cons q _ ih =>
    cases q with
    | none => simpa [List.reduceOption_cons_of_none] using ih
    | some => simp [List.reduceOption_cons_of_some, List.count_cons, ih]

theorem count_flatMap_unique {α : Type} [DecidableEq α] {keys : List α} (hnodup : keys.Nodup)
    {k : α} (hk : k ∈ keys) {f : α → List PolicyNode} {p : PolicyNode}
    (hf : ∀ x, x ≠ k → (f x).count p = 0) : (keys.flatMap f).count p = (f k).count p := by
  induction keys with
  | nil => exact absurd hk List.not_mem_nil
  | cons x keys ih =>
    rw [List.nodup_cons] at hnodup
    rw [List.flatMap_cons, List.count_append]
    rcases List.mem_cons.mp hk with rfl | hk
    · have hrest : (keys.flatMap f).count p = 0 := by
        rw [List.count_eq_zero, List.mem_flatMap]
        rintro ⟨y, hy, hp⟩
        have hne : y ≠ k := fun h ↦ hnodup.1 (h ▸ hy)
        exact List.count_eq_zero.mp (hf y hne) hp
      omega
    · have hne : x ≠ k := fun h ↦ hnodup.1 (h ▸ hk)
      rw [hf x hne, ih hnodup.2 hk]
      omega

theorem count_keyed (policies : List (Option PolicyNode)) (p : PolicyNode) (s r a : String) :
    (policies.reduceOption.filter (keyedBy s r a)).count p =
      if keyedBy s r a p then policies.count (some p) else 0 := by
  split_ifs with h
  · rw [List.count_filter h, count_reduceOption]
  · rw [List.count_eq_zero, List.mem_filter]
    exact fun hp ↦ h hp.2

theorem count_lookup_of_not_global (tenantId : String) (policies : List (Option PolicyNode))
    {subjects resources : List String} (action : String) {p : PolicyNode}
    (hsub : subjects.Nodup) (hres : resources.Nodup) (hg : isGlobal p = false)
    (hs : ScopeMatches p.principal subjects) (hr : ScopeMatches p.resource resources) :
    (((newTrieRoot tenantId).addPolicies hash policies).lookupPoliciesInto hash [] subjects resources
        action).count p =
      (if buildKey p.action = action then policies.count (some p) else 0) +
        if hash action ≠ hash "any" ∧ buildKey p.action = "any" then policies.count (some p)
        else 0 := by
  have hglobal : (policies.reduceOption.filter isGlobal).count p = 0 := by
    rw [List.count_eq_zero, List.mem_filter]
    exact fun h ↦ by rw [hg] at h; exact absurd h.2 Bool.false_ne_true
  have hcell (s r : String) : (policies.reduceOption.filter (keyedBy s r action) ++
      if hash action = hash "any" then []
      else policies.reduceOption.filter (keyedBy s r "any")).count p =
        (if keyedBy s r action p then policies.count (some p) else 0) +
          if hash action = hash "any" then 0
          else if keyedBy s r "any" p then policies.count (some p) else 0 := by
    rw [List.count_append, count_keyed]
    by_cases hh : hash action = hash "any"
    · rw [if_pos hh, if_pos hh, List.count_nil]
    · rw [if_neg hh, if_neg hh, count_keyed]
  rw [lookup_built, List.count_append, hglobal, Nat.zero_add,
    count_flatMap_unique (nodup_ensureAnyInto hsub) (scopeMatches_iff.mp hs),
    count_flatMap_unique (nodup_ensureAnyInto hres) (scopeMatches_iff.mp hr), hcell]
  · simp only [keyedBy, hg, Bool.not_false, Bool.true_and, beq_self_eq_true, beq_iff_eq]
    congr 1
    · simp only [eq_comm]
    · by_cases hh : hash action = hash "any"
      · simp [hh]
      · simp [hh, eq_comm]
  · intro r hne
    rw [hcell]
    simp [keyedBy, hne]
  · intro s hne
    rw [List.count_eq_zero, List.mem_flatMap]
    rintro ⟨r, _, hp⟩
    have hzero := hcell s r
    rw [show keyedBy s r action p = false by simp [keyedBy, hne],
      show keyedBy s r "any" p = false by simp [keyedBy, hne]] at hzero
    exact List.count_eq_zero.mp (by simpa using hzero) hp

theorem count_lookup_of_global (tenantId : String) {policies : List (Option PolicyNode)}
    {subjects resources : List String} {action : String} {p : PolicyNode} (hg : isGlobal p = true) :
    (((newTrieRoot tenantId).addPolicies hash policies).lookupPoliciesInto hash [] subjects resources
        action).count p = policies.count (some p) := by
  have hleaf (s r a : String) : p ∉ policies.reduceOption.filter (keyedBy s r a) := by
    simp [keyedBy, hg]
  rw [lookup_built, List.count_append, List.count_filter hg, count_reduceOption]
  have hrest : ((ensureAnyInto subjects).flatMap fun s ↦ (ensureAnyInto resources).flatMap fun r ↦
      policies.reduceOption.filter (keyedBy s r action) ++ if hash action = hash "any" then []
        else policies.reduceOption.filter (keyedBy s r "any")).count p = 0 := by
    simp only [List.count_eq_zero, List.mem_flatMap, List.mem_append, hleaf, false_or]
    rintro ⟨_, _, _, _, hp⟩
    split_ifs at hp
    · exact List.not_mem_nil hp
    · exact hleaf _ _ _ hp
  omega

/-- Completeness with multiplicity, for an arbitrary hash. The wildcard action
is skipped when the hashes coincide, not when the keys do, and that is the one
way to lose a policy. -/
theorem lookup_complete_iff (tenantId : String) (policies : List (Option PolicyNode))
    (subjects resources : List String) (action : String) (hsub : subjects.Nodup)
    (hres : resources.Nodup) :
    (∀ p, some p ∈ policies → ScopesMatch p subjects resources action →
        (((newTrieRoot tenantId).addPolicies hash policies).lookupPoliciesInto hash [] subjects
          resources action).count p = policies.count (some p)) ↔
      hash action ≠ hash "any" ∨ action = "any" ∨
        ∀ p, some p ∈ policies → ScopesMatch p subjects resources action →
          scopeIsAny p.action = true → isGlobal p = true := by
  have hcount {p : PolicyNode} (hp : ScopesMatch p subjects resources action)
      (hg : isGlobal p = false) :=
    count_lookup_of_not_global hash tenantId policies action hsub hres hg hp.principal hp.resource
  constructor
  · intro h
    by_cases hh : hash action = hash "any"
    · by_cases hany : action = "any"
      · exact .inr (.inl hany)
      · refine .inr (.inr fun p hp hmatch hwild ↦ ?_)
        cases hg : isGlobal p with
        | true => rfl
        | false =>
          have hkey : buildKey p.action = "any" := (buildKey_eq_any_iff _).mpr hwild
          have hzero := (hcount hmatch hg).symm.trans (h p hp hmatch)
          rw [if_neg (by rw [hkey]; exact Ne.symm hany), if_neg (fun hc ↦ hc.1 hh)] at hzero
          have hpos : 0 < policies.count (some p) := List.count_pos_iff.mpr hp
          omega
    · exact .inl hh
  · intro h p hp hmatch
    cases hg : isGlobal p with
    | true => exact count_lookup_of_global hash tenantId hg
    | false =>
      rw [hcount hmatch hg]
      rcases hmatch.action with hwild | hact
      · have hkey : buildKey p.action = "any" := (buildKey_eq_any_iff _).mpr hwild
        rcases h with hh | rfl | hglobal
        · have hne : "any" ≠ action := fun he ↦ hh (by rw [he])
          rw [hkey, if_neg hne, if_pos ⟨hh, rfl⟩, Nat.zero_add]
        · rw [hkey, if_pos rfl, if_neg (fun hc ↦ hc.1 rfl), Nat.add_zero]
        · rw [hglobal p hp hmatch hwild] at hg
          cases hg
      · have hkey : buildKey p.action = action := List.mem_singleton.mp hact
        rw [if_pos hkey, if_neg (fun hc ↦ hc.1 (by rw [← hkey, hc.2])), Nat.add_zero]

def anyAction : PolicyNode where
  id := "p-any"
  effect := .forbid
  principal := some ⟨.eq, "user", "alice"⟩
  action := some ⟨.any, "", ""⟩
  resource := some ⟨.eq, "file", "report"⟩

theorem anyAction_matches (action : String) :
    ScopesMatch anyAction ["user:alice"] ["file:report"] action :=
  ⟨.inr (by decide), .inr (by decide), .inl (by decide)⟩

theorem anyAction_found_once :
    (((newTrieRoot "t1").addPolicies fnvHash [some anyAction]).lookupPoliciesInto fnvHash []
      ["user:alice"] ["file:report"] "action:READ").count anyAction = 1 :=
  (lookup_complete_iff fnvHash "t1" [some anyAction] ["user:alice"] ["file:report"] "action:READ"
    (by decide) (by decide)).mpr (.inl (by decide)) anyAction (by simp) (anyAction_matches _)

/-- This action has the same FNV-1a hash as `any`, so the forbid is not found. -/
theorem colliding_action_misses_forbid :
    fnvHash "action:RFJx3ot9pvV7" = fnvHash "any" ∧
      ScopesMatch anyAction ["user:alice"] ["file:report"] "action:RFJx3ot9pvV7" ∧
      (((newTrieRoot "t1").addPolicies fnvHash [some anyAction]).lookupPoliciesInto fnvHash []
        ["user:alice"] ["file:report"] "action:RFJx3ot9pvV7").count anyAction = 0 :=
  ⟨by decide, anyAction_matches _, by decide⟩

end PolicyEngine.Engine

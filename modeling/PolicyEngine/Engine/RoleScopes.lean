import PolicyEngine.Engine.Conditions
import PolicyEngine.Engine.OrderFree

namespace PolicyEngine.Engine

open Relation PolicyEngine.Go PolicyEngine.Parser

def Reaches (inheritances : List (String × String)) (name role : String) : Prop :=
  ReflTransGen (RoleDag.Inherits inheritances) name role

section Literal

variable {letter : Char → Bool} (role : Ident letter)

theorem notMem_ident {c : Char} (hletter : Lexer.isLetter letter c = false)
    (hdigit : isDigit c = false) : c ∉ role.text.toList := by
  obtain ⟨_, _, htext, hfirst, hrest⟩ := role.identifier
  rw [htext, List.mem_cons, not_or]
  constructor
  · rintro rfl
    rw [hletter] at hfirst
    cases hfirst
  · intro hmem
    have h := hrest c hmem
    rw [hletter, hdigit] at h
    cases h

theorem notMem_role {c : Char} (hkind : c ∉ "role:".toList)
    (hletter : Lexer.isLetter letter c = false) (hdigit : isDigit c = false) :
    c ∉ ("role:" ++ role.text).toList := by
  rw [String.toList_append, List.mem_append, not_or]
  exact ⟨hkind, notMem_ident role hletter hdigit⟩

def roleLiteral : Quoted where
  text := "role:" ++ role.text
  noQuote := notMem_role role (by decide) (by simp [Lexer.isLetter]) (by decide)
  noNul := notMem_role role (by decide) (by simp [Lexer.isLetter, nul]) (by decide)

theorem toList_roleLiteral : (roleLiteral role).text.toList =
    'r' :: 'o' :: 'l' :: 'e' :: ':' :: role.text.toList := String.toList_append

theorem optimizeValue_roleLiteral :
    optimizeValue (.string (roleLiteral role).text) = .string (roleLiteral role).text := by
  have haddr : Net.parseIP (roleLiteral role).text = none := by
    rw [Net.parseIP, toList_roleLiteral]
    rfl
  have hnet : Net.parseCIDR (roleLiteral role).text = none := by
    have hslash : '/' ∉ (roleLiteral role).text.toList :=
      notMem_role role (by decide) (by simp [Lexer.isLetter]) (by decide)
    rw [Net.parseCIDR, List.splitOn_eq_singleton hslash]
  have hstamp : Time.parseRFC3339 (roleLiteral role).text = none := by
    rw [Time.parseRFC3339, toList_roleLiteral]
    rfl
  have hscan : Strconv.scanInt (roleLiteral role).text.toList = none := by
    rw [toList_roleLiteral]
    rfl
  have hclock : scanClock (roleLiteral role).text = none := by
    simp [scanClock, Strconv.sscanf, Strconv.sscanfThen, Strconv.scanLayout, hscan]
  have htime : Parser.tryParseDateTimeOrTime (roleLiteral role).text = none := by
    simp [Parser.tryParseDateTimeOrTime, hstamp, hclock, Strconv.sscanf, Strconv.scanLayout, hscan]
  rw [optimizeValue, tryParseIPOrCIDR, haddr, hnet, htime]
  rfl

end Literal

variable {letter : Char → Bool} {hash : String → UInt64} {trie : TrieRoot}
  {policies : List (Option PolicyNode)} {inheritances : List (String × String)}
  {policy : PolicyNode} {subject action resource : String}

def idField (letter : Char → Bool) : Ident letter where
  text := "id"
  identifier := ⟨'i', ['d'], rfl, rfl, by simp [Lexer.isLetter]⟩
  plain := by decide

theorem BuiltFrom.mem_matchedPolicies_iff (h : BuiltFrom hash trie policies inheritances)
    (hpolicy : some policy ∈ policies) {role : String}
    (hscope : policy.principal = some ⟨.in, "role", role⟩)
    (hresource : ScopeMatches policy.resource [resource])
    (haction : buildKey policy.action = normalizeAction action ∨
      hash (normalizeAction action) ≠ hash "any" ∧ scopeIsAny policy.action = true) :
    policy ∈ matchedPolicies hash trie subject action resource ↔
      Reaches inheritances subject ("role:" ++ role) := by
  obtain ⟨g, hg, hexact⟩ := h.roles
  have hany : scopeIsAny policy.principal = false := by rw [hscope]; rfl
  have hglobal : isGlobal policy = false := by rw [isGlobal, hany, Bool.false_and]
  have hkey : buildKey policy.principal = "role:" ++ role := by rw [hscope]; rfl
  have hmatches : ScopeMatches policy.principal (RoleDag.getInheritedRolesInto (some g) subject) ↔
      Reaches inheritances subject ("role:" ++ role) := by
    rw [ScopeMatches, hany, hkey]
    simp only [Bool.false_eq_true, false_or]
    exact hexact.inherited subject _
  rw [matchedPolicies, h.lookup, mem_lookup_iff, hg, hmatches]
  simp only [hpolicy, hglobal, hresource, haction, Bool.false_eq_true, false_or, true_and, and_true]

theorem outcome_membership (role : Ident letter) (ctx : EvalContext) :
    outcome letter (comparison .principal "id" .in ("role:" ++ role.text)) ctx =
      .ok (.ok (.bool (memberOf ctx.roleDag ctx.subject ("role:" ++ role.text)))) := by
  have houtcome := outcome_comparison .principal (idField letter) (roleLiteral role)
    (by decide : BinaryOp.in ≠ .and) (by decide) ctx
  rw [optimizeValue_roleLiteral] at houtcome
  exact houtcome

theorem BuiltFrom.memberOf_iff (h : BuiltFrom hash trie policies inheritances) (role : String) :
    memberOf trie.roleDag subject ("role:" ++ role) = true ↔
      Reaches inheritances (Text.trimPrefix subject "role:") role := by
  obtain ⟨_, hg, hexact⟩ := h.roles
  have hstrip : Text.trimPrefix ("role:" ++ role) "role:" = role := by
    rw [Text.trimPrefix, if_pos (Text.hasPrefix_append _ _), String.toList_append, List.drop_left,
      String.ofList_toList]
  rw [hg, memberOf, hstrip]
  exact hexact.descends _ _

/-- A role means the same in a scope and in a condition exactly when the subject
has it under its full name and, stripped, under its bare name, or neither. -/
theorem role_scope_iff_condition_iff (role : Ident letter) {orders : ℕ → RoleDag.MapOrders}
    {tenantId : String} {revision : UInt64} (subject action resource : String)
    (context : Map String)
    (hbuild : buildTenantTrie hash orders tenantId policies inheritances revision = .ok trie)
    (hpolicy : some policy ∈ policies)
    (hscope : policy.principal = some ⟨.in, "role", role.text⟩)
    (hresource : ScopeMatches policy.resource [resource])
    (haction : buildKey policy.action = normalizeAction action ∨
      hash (normalizeAction action) ≠ hash "any" ∧ scopeIsAny policy.action = true) :
    (policy ∈ matchedPolicies hash trie subject action resource ↔
      outcome letter (comparison .principal "id" .in ("role:" ++ role.text))
        (evalContext trie subject action resource context) = .ok (.ok (.bool true))) ↔
      (Reaches inheritances subject ("role:" ++ role.text) ↔
        Reaches inheritances (Text.trimPrefix subject "role:") role.text) := by
  have hbuilt : BuiltFrom hash trie policies inheritances := by
    obtain ⟨_, hok, hbuilt, -⟩ | ⟨⟨_, herror⟩, -⟩ :=
      buildTenantTrie_spec hash orders tenantId policies inheritances revision
    · rw [hbuild] at hok
      cases hok
      exact hbuilt
    · rw [hbuild] at herror
      cases herror
  have hcondition : outcome letter (comparison .principal "id" .in ("role:" ++ role.text))
      (evalContext trie subject action resource context) = .ok (.ok (.bool true)) ↔
        memberOf trie.roleDag subject ("role:" ++ role.text) = true := by
    rw [outcome_membership]
    simp [evalContext]
  rw [hcondition, hbuilt.memberOf_iff,
    hbuilt.mem_matchedPolicies_iff hpolicy hscope hresource haction]

def buyer : Ident fun _ ↦ false where
  text := "buyer"
  identifier := ⟨'b', "uyer".toList, rfl, by decide, List.all_eq_true.mp (by decide)⟩
  plain := by decide

theorem role_scope_iff_condition_buyer :
    ∃ trie, buildTenantTrie fnvHash (fun _ ↦ .uniform .listed) "t1" [some plainPermit] aliceIsBuyer 1 =
        .ok trie ∧
      (plainPermit ∈ matchedPolicies fnvHash trie "role:buyer" "CONFIRM" "po:1" ↔
        outcome (fun _ ↦ false) "principal.id in \"role:buyer\""
          (evalContext trie "role:buyer" "CONFIRM" "po:1" ∅) = .ok (.ok (.bool true))) := by
  obtain ⟨trie, hbuild, -⟩ := exists_built fnvHash (fun _ ↦ .uniform .listed) "t1"
    [some plainPermit] 1 aliceIsBuyer_acyclic
  have hagree := role_scope_iff_condition_iff buyer "role:buyer" "CONFIRM" "po:1" ∅ hbuild
    (List.mem_singleton_self _) rfl (.inl rfl) (.inl (by decide))
  exact ⟨trie, hbuild, hagree.mpr ⟨fun _ ↦ .refl, fun _ ↦ .refl⟩⟩

/-- The index finds the policy of a role the subject inherits; the condition
looks for the subject and the role under names that are not stored. -/
theorem role_scope_found_condition_false :
    ∃ trie, buildTenantTrie fnvHash (fun _ ↦ .uniform .listed) "t1" [some plainPermit] aliceIsBuyer 1 =
        .ok trie ∧
      plainPermit ∈ matchedPolicies fnvHash trie "user:alice" "CONFIRM" "po:1" ∧
      outcome (fun _ ↦ false) "principal.id in \"role:buyer\""
        (evalContext trie "user:alice" "CONFIRM" "po:1" ∅) = .ok (.ok (.bool false)) :=
  ⟨_, rfl, by decide, (outcome_membership buyer _).trans rfl⟩

end PolicyEngine.Engine

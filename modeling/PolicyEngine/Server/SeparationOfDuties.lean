import PolicyEngine.Addon.Reconstruction
import PolicyEngine.Parser.PolicySet
import PolicyEngine.Server.RestRefinement

namespace PolicyEngine.Server

open PolicyEngine.Go PolicyEngine.Go.Result PolicyEngine.Parser PolicyEngine.Engine
open PolicyEngine.Security

section Items

variable {text item : String}

def items (text : String) : List String := (Text.split text ',').map Text.trimSpace

theorem items_append (s t : String) : items (s ++ "," ++ t) = items s ++ items t := by
  rw [items, items, items, ← List.map_append]
  exact congrArg (List.map Text.trimSpace) (Text.split_append_self s t ',')

theorem comma_notMem_of_mem_items (h : item ∈ items text) : ',' ∉ item.toList := by
  obtain ⟨_, hpiece, rfl⟩ := List.mem_map.mp h
  intro hcomma
  exact Text.notMem_of_mem_split hpiece (Text.mem_of_mem_trimSpace hcomma)

theorem mem_items_iff_of_plain (hplain : ',' ∉ text.toList) (htrim : Text.trimSpace text = text) :
    item ∈ items text ↔ item = text := by
  rw [items, Text.split_eq_singleton hplain, List.map_singleton, htrim, List.mem_singleton]

variable {creator delegator agent : String}

/-- The creator of the record delegates to the agent and is not found in the
chain. -/
def Evades (creator delegator : String) : Prop := creator = delegator ∧ ',' ∈ creator.toList

/-- The creator's name stands as an entry inside the name of another subject. -/
def Implicated (creator subject : String) : Prop :=
  ',' ∈ subject.toList ∧ creator ∈ items subject

instance : Decidable (Evades creator delegator) := inferInstanceAs (Decidable (_ ∧ _))

instance : Decidable (Implicated creator delegator) := inferInstanceAs (Decidable (_ ∧ _))

theorem mem_items_of_not_implicated (htrim : Text.trimSpace text = text)
    (h : ¬ Implicated item text) (hmem : item ∈ items text) : item = text := by
  by_cases hcomma : ',' ∈ text.toList
  · exact absurd ⟨hcomma, hmem⟩ h
  · exact (mem_items_iff_of_plain hcomma htrim).mp hmem

theorem items_chain_exact_iff (hdelegator : Text.trimSpace delegator = delegator)
    (hagent : Text.trimSpace agent = agent) (hne : creator ≠ agent) :
    (creator ∈ items (delegator ++ "," ++ agent) ↔ creator = delegator ∨ creator = agent) ↔
      ¬ Evades creator delegator ∧
        (creator ≠ delegator → ¬ Implicated creator delegator ∧ ¬ Implicated creator agent) := by
  rw [items_append, List.mem_append, or_iff_left hne]
  constructor
  · intro h
    refine ⟨?_, ?_⟩
    · rintro ⟨rfl, hcomma⟩
      obtain hmem | hmem := h.mpr rfl
      · exact comma_notMem_of_mem_items hmem hcomma
      · exact comma_notMem_of_mem_items hmem hcomma
    · intro hother
      exact ⟨fun himp ↦ hother (h.mp (.inl himp.2)), fun himp ↦ hother (h.mp (.inr himp.2))⟩
  · rintro ⟨hevades, himplicated⟩
    by_cases hsame : creator = delegator
    · subst hsame
      have hplain : ',' ∉ creator.toList := fun hcomma ↦ hevades ⟨rfl, hcomma⟩
      exact ⟨fun _ ↦ rfl, fun _ ↦ .inl ((mem_items_iff_of_plain hplain hdelegator).mpr rfl)⟩
    · obtain ⟨himpd, himpa⟩ := himplicated hsame
      refine ⟨?_, fun h ↦ absurd h hsame⟩
      rintro (hmem | hmem)
      · exact mem_items_of_not_implicated hdelegator himpd hmem
      · exact absurd (mem_items_of_not_implicated hagent himpa hmem) hne

end Items

section Condition

/-- The parsed condition of Rule 6, `context.delegation_chain contains
resource.creator_id`. -/
def chainContainsCreator (chainPos creatorPos pos : Position) : Node :=
  .binaryExprNode .contains (.variableNode .context "delegation_chain" chainPos)
    (.variableNode .resource "creator_id" creatorPos) pos

example :
    ((parse (fun _ ↦ false) ("forbid(principal == any, action == action:APPROVE, resource == any)\n" ++
      "when \x7b context.delegation_chain contains resource.creator_id \x7d;")).1.map (·.condition)) =
      [chainContainsCreator ⟨2, 8, 75⟩ ⟨2, 42, 109⟩ ⟨2, 33, 100⟩] := by
  decide +kernel

variable {chainPos creatorPos pos : Position} {policy compiled : PolicyNode}

theorem condition_of_compile
    (hcondition : policy.condition = chainContainsCreator chainPos creatorPos pos)
    (h : compile (some policy) = .ok compiled) :
    compiled.condition = chainContainsCreator chainPos creatorPos pos := by
  obtain ⟨-, h⟩ := bind_unit_eq_ok.mp h
  obtain ⟨⟨_, _⟩, hpolicy, h⟩ := bind_eq_ok.mp h
  have hnil : chainContainsCreator chainPos creatorPos pos ≠ .nil := nofun
  rw [compileCondition, hcondition, if_neg hnil] at hpolicy
  obtain ⟨-, hpolicy⟩ := bind_unit_eq_ok.mp hpolicy
  cases hpolicy
  cases h
  rfl

theorem evaluate_chainContainsCreator {ctx : EvalContext} {chain creator : String}
    (hchain : ctx.context.lookup "delegation_chain" = some chain)
    (hcreator : ctx.context.lookup "resource.creator_id" = some creator) :
    evaluate ctx (chainContainsCreator chainPos creatorPos pos) = .ok (.bool true) ↔
      creator ∈ items chain := by
  have hleft : ctx.getAttribute .context "delegation_chain" .string = .ok (.string chain) := by
    simp [EvalContext.getAttribute, EvalContext.attributeText, hchain, parseStringValue]
  have hright : ctx.getAttribute .resource "creator_id" .string = .ok (.string creator) := by
    simp [EvalContext.getAttribute, EvalContext.attributeText, hcreator, parseStringValue]
  have hevaluate : evaluate ctx (chainContainsCreator chainPos creatorPos pos) =
      .ok (.bool ((Text.split chain ',').any fun part ↦ Text.trimSpace part == creator)) := by
    simp only [chainContainsCreator, evaluate, expectedType, hleft, hright, evaluateComparison,
      compareValues]
    rfl
  rw [hevaluate, Except.ok.injEq, Value.bool.injEq, List.any_eq_true, items, List.mem_map]
  simp only [beq_iff_eq]

end Condition

section Bound

variable {prim : Primitives} {mgr : DelegationManager} {now : ℤ} {req req' : CheckAccessRequest}
  {proof : String}

theorem lookup_bound (req : CheckAccessRequest) (intent : CanonicalBusinessIntent) :
    (bindCanonicalIntentContext req intent).context.lookup "delegation_chain" =
        some (intent.delegatorSubject ++ "," ++ intent.agentSubject) ∧
      (bindCanonicalIntentContext req intent).context.lookup "resource.creator_id" =
        some intent.creatorSubject := by
  constructor
  · simp [bindCanonicalIntentContext, boundEntries, AList.lookup_insert_ne]
  · simp [bindCanonicalIntentContext, boundEntries, AList.lookup_insert_ne]

theorem creator_ne_agent {intent : CanonicalBusinessIntent} (h : intent.WellFormed) :
    intent.creatorSubject ≠ intent.agentSubject := by
  obtain ⟨_, hcreator⟩ := Text.hasPrefix_iff.mp h.creatorSubject.kindPrefix
  obtain ⟨_, hagent⟩ := Text.hasPrefix_iff.mp h.agentSubject.kindPrefix
  intro heq
  rw [hcreator, hagent] at heq
  have hhead := congrArg (fun text ↦ text.toList.head?) heq
  simp at hhead

theorem of_validateDelegationV2 (h : validateDelegationV2 prim mgr now req proof = .ok req') :
    ∃ input, req.delegationProofV2Input prim = .ok input ∧
      req' = bindCanonicalIntentContext req input.intent := by
  simp only [validateDelegationV2, bind_eq_ok] at h
  obtain ⟨input, hinput, _, -, hreq⟩ := h
  exact ⟨input, hinput, (Except.ok.inj hreq).symm⟩

end Bound

section Samples

open PolicyEngine.Addon

theorem exists_verified_request {intent : CanonicalBusinessIntent} (hvalid : intent.Valid .standard) :
    ∃ req proof, req.delegationProofV2Input .standard = .ok ⟨intent, 1000, 4600⟩ ∧
      validateDelegationV2 .standard (newDelegationManagerWithSecret
        "0123456789abcdef0123456789abcdef") (2000 * Time.second) req proof =
        .ok (bindCanonicalIntentContext req intent) := by
  obtain ⟨proof, hsigned⟩ : ∃ proof, Signed .standard intent "legacy"
      "0123456789abcdef0123456789abcdef" 1000 4600 proof :=
    exists_signed _ _ hvalid (by decide) (by decide) (by decide) (by decide) (by decide)
  let req := protectedRequest intent ⟨"ops", "city", "erp"⟩ proof "1" (1000 : Int64).toInt
    (4600 : Int64).toInt
  have hinput : req.delegationProofV2Input .standard = .ok ⟨intent, 1000, 4600⟩ :=
    delegationProofV2Input_protectedRequest hvalid (by decide) (by decide)
  refine ⟨req, proof, hinput, ?_⟩
  rw [validateDelegationV2, hinput]
  refine bind_eq_ok.mpr ⟨_, rfl, bind_unit_eq_ok.mpr ⟨?_, rfl⟩⟩
  exact verifyProofV2_of_signed (fun _ _ ↦ Crypto.Sha256.length_sha256 _) hvalid hsigned rfl
    (by decide) (by decide)

def sodPolicy : PolicyNode where
  id := "sod"
  effect := .forbid
  condition := chainContainsCreator {} {} {}

def commaIntent : CanonicalBusinessIntent :=
  CanonicalBusinessIntent.witnessed .standard
    { orderIntent with creatorSubject := "user:a,b", delegatorSubject := "user:a,b" }

theorem commaIntent_valid : commaIntent.Valid .standard :=
  CanonicalBusinessIntent.valid_witnessed Crypto.Sha256.length_sha256
    (CanonicalBusinessIntent.validateFields_eq_ok.mp (by rfl))

end Samples

/-- On a verified delegated request the condition of Rule 6 finds the creator
among the subjects of the chain, and finds nobody else, exactly when a creator
who delegates has no comma in the name, and the name of a creator who does not
is no entry of a name with a comma. -/
theorem separation_of_duties_exact_iff {prim : Primitives} {mgr : DelegationManager} {now : ℤ}
    {req req' : CheckAccessRequest} {proof : String}
    (h : validateDelegationV2 prim mgr now req proof = .ok req') {chainPos creatorPos pos : Position}
    (policy : PolicyNode) {compiled : PolicyNode}
    (hcondition : policy.condition = chainContainsCreator chainPos creatorPos pos)
    (hcompile : compile (some policy) = .ok compiled) (ctx : EvalContext)
    (hctx : ctx.context = req'.context) :
    ∃ input, req.delegationProofV2Input prim = .ok input ∧
      ((evaluate ctx compiled.condition = .ok (.bool true) ↔
          input.intent.creatorSubject = input.intent.delegatorSubject ∨
            input.intent.creatorSubject = input.intent.agentSubject) ↔
        ¬ Evades input.intent.creatorSubject input.intent.delegatorSubject ∧
          (input.intent.creatorSubject ≠ input.intent.delegatorSubject →
            ¬ Implicated input.intent.creatorSubject input.intent.delegatorSubject ∧
              ¬ Implicated input.intent.creatorSubject input.intent.agentSubject)) := by
  obtain ⟨input, hinput, rfl⟩ := of_validateDelegationV2 h
  refine ⟨input, hinput, ?_⟩
  have hvalid := CanonicalBusinessIntent.validate_eq_ok.mp
    (CheckAccessRequest.intent_of_delegationProofV2Input hinput).1
  obtain ⟨hchain, hcreator⟩ := lookup_bound req input.intent
  rw [← hctx] at hchain hcreator
  rw [condition_of_compile hcondition hcompile, evaluate_chainContainsCreator hchain hcreator]
  exact items_chain_exact_iff hvalid.delegatorSubject.trimmed hvalid.agentSubject.trimmed
    (creator_ne_agent hvalid.toWellFormed)

theorem separation_of_duties_exact_order : ∃ req proof req',
    validateDelegationV2 .standard (newDelegationManagerWithSecret
      "0123456789abcdef0123456789abcdef") (2000 * Time.second) req proof = .ok req' ∧
    evaluate ⟨req'.subject, req'.action, req'.resource, req'.context, none⟩
      sodPolicy.condition ≠ .ok (.bool true) := by
  obtain ⟨req, proof, hinput, haccepted⟩ :=
    exists_verified_request (CanonicalBusinessIntent.validate_eq_ok.mp orderIntent_valid)
  refine ⟨req, proof, _, haccepted, ?_⟩
  obtain ⟨_, hinput', hexact⟩ := separation_of_duties_exact_iff haccepted sodPolicy rfl rfl
    ⟨req.subject, req.action, req.resource, (bindCanonicalIntentContext req orderIntent).context,
      none⟩ rfl
  obtain rfl := Except.ok.inj (hinput.symm.trans hinput')
  have hiff := hexact.mpr (by decide)
  intro htrue
  exact absurd (hiff.mp htrue) (by decide)

/-- A creator with a comma in the login approves through an agent. -/
theorem comma_creator_evades : ∃ req proof req',
    validateDelegationV2 .standard (newDelegationManagerWithSecret
      "0123456789abcdef0123456789abcdef") (2000 * Time.second) req proof = .ok req' ∧
    req.delegationProofV2Input .standard = .ok ⟨commaIntent, 1000, 4600⟩ ∧
    commaIntent.creatorSubject = commaIntent.delegatorSubject ∧
    evaluate ⟨req'.subject, req'.action, req'.resource, req'.context, none⟩
      sodPolicy.condition ≠ .ok (.bool true) := by
  obtain ⟨req, proof, hinput, haccepted⟩ := exists_verified_request commaIntent_valid
  refine ⟨req, proof, _, haccepted, hinput, rfl, ?_⟩
  obtain ⟨hchain, hcreator⟩ := lookup_bound req commaIntent
  intro htrue
  exact absurd ((evaluate_chainContainsCreator hchain hcreator).mp htrue) (by decide)

end PolicyEngine.Server

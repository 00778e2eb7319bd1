import PolicyEngine.Server.ApprovalIssuance
import PolicyEngine.Server.PrincipalAttributes

namespace PolicyEngine.Server

open PolicyEngine.Go PolicyEngine.Go.Result PolicyEngine.Parser PolicyEngine.Engine
open PolicyEngine.Security

structure Carries (claims : Map Claim) (field : String) (n : ℤ) : Prop where
  claim : claims.lookup field = some (.float64 (.ofInt n))
  isAttribute : IsAttribute field
  alone : claims.lookup ("principal." ++ field) = none

def decimal (n : ℤ) : String := Strconv.formatInt (Int64.ofInt n)

def companyMismatch : Status :=
  ⟨.permissionDenied, "approver company does not match signed identity"⟩

/-- The checks of `IssueApprovalCapability` before the one on the company. -/
structure PassesBefore (identity : AuthenticatedIdentity) (req : IssueApprovalCapabilityRequest) :
    Prop where
  tenant : validateTenantAndGetClaims identity req.tenantId = .ok ()
  separated : ¬ (Text.hasPrefix identity.subject "user:" = false ∨
    identity.subject = req.agentSubject ∨ identity.subject = req.creatorSubject ∨
    identity.subject = req.delegatorSubject)

variable (letter : Char → Bool)

/-- An integer claim reaches the policies and the company check as the integer. -/
structure KeepsInteger (n : ℤ) : Prop where
  text : ∀ {claims : Map Claim} {o : RangeOrder} {subject : String} {attributes : Map String},
    extractSubjectAttributes o claims = .ok (subject, attributes) →
    ∀ field : Ident letter, Carries claims field.text n →
      attributes.lookup field.text = some (decimal n)
  conditions : ∀ {claims : Map Claim} {o o' : RangeOrder} {request ctx : EvalContext},
    claimedRequest o o' claims request = .ok ctx →
    ∀ field : Ident letter, Carries claims field.text n → ∀ (k : Int64) (hk : 0 ≤ k.toInt),
      outcome letter (Expr.binary .eq (.var .principal field) (.int k hk)).print ctx =
          .ok (.ok (.bool (n = k.toInt))) ∧
        outcome letter (Expr.binary .ge (.var .principal field) (.int k hk)).print ctx =
          .ok (.ok (.bool (k.toInt ≤ n)))
  company : ∀ {claims : Map Claim} {o : RangeOrder} {subject : String} {attributes : Map String},
    extractSubjectAttributes o claims = .ok (subject, attributes) → Carries claims "company_id" n →
    ∀ (s : GRPCServer) (mgr : ApprovalCapabilityManager) (now : ℤ) (o' : RangeOrder)
      (tenantId : String) (req : IssueApprovalCapabilityRequest),
      PassesBefore ⟨tenantId, subject, attributes⟩ req →
      (checkApprovalRequest s (some mgr) now o' ⟨tenantId, subject, attributes⟩ req =
        .error companyMismatch ↔ req.companyId.toInt ≠ n)

variable {letter} {n : ℤ}

section Text

theorem toInt_ofInt (h : n.natAbs < 2 ^ 53) : (Int64.ofInt n).toInt = n :=
  Int64.toInt_ofInt_of_le (by omega) (by omega)

theorem formatG_eq_decimal (h : n.natAbs < 10 ^ 6) : (Float64.ofInt n).formatG = decimal n := by
  rw [Float64.formatG_ofInt h, decimal, Strconv.formatInt, toInt_ofInt (by omega)]
  by_cases hneg : n < 0
  · simp [Float64.sign, Float64.ofInt, hneg]
  · simp [Float64.sign, Float64.ofInt, hneg]

theorem notMem_formatInt (m : Int64) : 'e' ∉ (Strconv.formatInt m).toList := by
  have hdigits : 'e' ∉ Nat.toDigits 10 m.toInt.natAbs := fun hmem ↦
    absurd (Strconv.isDigit_of_mem hmem) (by decide)
  unfold Strconv.formatInt
  split_ifs
  · simp [Strconv.formatNat, hdigits]
  · simp [Strconv.formatNat, hdigits]

theorem formatG_ne_decimal (h : 10 ^ 6 ≤ n.natAbs) : (Float64.ofInt n).formatG ≠ decimal n := by
  intro heq
  have he := Float64.mem_formatG_ofInt h
  rw [heq] at he
  exact notMem_formatInt _ he

end Text

section Reading

variable {claims : Map Claim} {o o' : RangeOrder} {field subject : String}
  {attributes requestContext : Map String}

theorem Carries.lookup (h : extractSubjectAttributes o claims = .ok (subject, attributes))
    (hcarries : Carries claims field n) :
    attributes.lookup field = some (Float64.ofInt n).formatG := by
  have hreserved : field ∉ tokenClaims := fun hmem ↦
    hcarries.isAttribute (List.mem_cons_of_mem _ (List.mem_cons_of_mem _ hmem))
  rw [lookup_attributes h, if_neg hreserved, hcarries.claim]
  rfl

theorem Carries.lookup_merge (h : extractSubjectAttributes o claims = .ok (subject, attributes))
    (hcarries : Carries claims field n) (hfield : '.' ∉ field.toList) :
    (mergeTrustedPrincipalContext o' requestContext attributes).lookup ("principal." ++ field) =
      some (Float64.ofInt n).formatG := by
  have htenant : field ≠ "tenant_id" := fun heq ↦
    hcarries.isAttribute (List.mem_cons_of_mem _ (heq ▸ List.mem_cons_self))
  have hown : ownClaim attributes field = some (Float64.ofInt n).formatG := by
    rw [ownClaim, if_neg htenant, hcarries.lookup h]
  have hnamed : attributes.lookup ("principal." ++ field) = none := by
    rw [lookup_attributes_principal h, hcarries.alone]
    rfl
  rw [lookup_merge_principal hfield (fun s t _ ht ↦ ?_), hown, Option.some_or]
  rw [hnamed] at ht
  cases ht

end Reading

section Kept

variable {claims : Map Claim} {o o' : RangeOrder} {request ctx : EvalContext}

theorem claimedRequest_eq_ok (h : claimedRequest o o' claims request = .ok ctx) :
    ∃ subject attributes, extractSubjectAttributes o claims = .ok (subject, attributes) ∧
      ctx.context = mergeTrustedPrincipalContext o' request.context attributes := by
  obtain ⟨⟨subject, attributes⟩, hextract, hctx⟩ := bind_eq_ok.mp h
  cases hctx
  exact ⟨subject, attributes, hextract, rfl⟩

theorem getAttribute_carried (h : claimedRequest o o' claims request = .ok ctx)
    (hn : n.natAbs < 10 ^ 6) (field : Ident letter) (hcarries : Carries claims field.text n) :
    ctx.getAttribute .principal field.text .int = .ok (.int (Int64.ofInt n)) := by
  obtain ⟨_, _, hextract, hctx⟩ := claimedRequest_eq_ok h
  have hid : field.text ≠ "id" := fun heq ↦
    hcarries.isAttribute (heq ▸ List.mem_cons_self)
  have hlookup : ctx.context.lookup ("principal." ++ field.text) = some (decimal n) := by
    rw [hctx, hcarries.lookup_merge hextract (notMem_dot field), formatG_eq_decimal hn]
  simp [EvalContext.getAttribute, EvalContext.attributeText, hid, hlookup, parseStringValue, decimal,
    Strconv.parseInt_formatInt]

theorem outcome_carried (h : claimedRequest o o' claims request = .ok ctx)
    (hn : n.natAbs < 10 ^ 6) (field : Ident letter) (hcarries : Carries claims field.text n)
    (k : Int64) (hk : 0 ≤ k.toInt) {op : BinaryOp} (hand : op ≠ .and) (hor : op ≠ .or)
    (hin : op ≠ .in) :
    outcome letter (Expr.binary op (.var .principal field) (.int k hk)).print ctx =
      .ok ((compareValues ctx.roleDag op (.int (Int64.ofInt n)) (.int k)).map .bool) := by
  have hliteral : (Expr.int k hk : Expr letter).node = .valueNode (.int k) := rfl
  have htype : expectedType op (.valueNode (optimizeValue (.int k))) = .int := by
    simp [expectedType, hin, optimizeValue, Value.valType]
  rw [outcome_literal .principal field hliteral hand hor, htype, getAttribute_carried h hn field hcarries]
  rfl

theorem checkApprovalRequest_company {s : GRPCServer} {mgr : ApprovalCapabilityManager} {now : ℤ}
    {identity : AuthenticatedIdentity} {req : IssueApprovalCapabilityRequest}
    (h : PassesBefore identity req) :
    checkApprovalRequest s (some mgr) now o' identity req = .error companyMismatch ↔
      (mergeTrustedPrincipalContext o' req.context identity.principalAttributes).get ""
        "principal.company_id" ≠ Strconv.formatInt req.companyId := by
  have hseparated := rejectIf_eq_ok (e := (⟨.permissionDenied,
    "approval identity violates separation of duties"⟩ : Status)).mpr h.separated
  unfold checkApprovalRequest
  dsimp only
  rw [h.tenant, hseparated]
  by_cases hcompany : (mergeTrustedPrincipalContext o' req.context identity.principalAttributes).get ""
      "principal.company_id" = Strconv.formatInt req.companyId
  · -- The later checks have other messages.
    refine iff_of_false ?_ (not_not.mpr hcompany)
    simp only [rejectIf, hcompany, ne_eq, not_true_eq_false, if_false]
    split_ifs <;> simp [bind, Except.bind, pure, Except.pure, companyMismatch]
  · refine iff_of_true ?_ hcompany
    rw [rejectIf, if_pos hcompany]
    rfl

end Kept

theorem company_carried {claims : Map Claim} {o o' : RangeOrder} {subject : String}
    {attributes requestContext : Map String}
    (h : extractSubjectAttributes o claims = .ok (subject, attributes)) (hn : n.natAbs < 10 ^ 6)
    (hcarries : Carries claims "company_id" n) :
    (mergeTrustedPrincipalContext o' requestContext attributes).get "" "principal.company_id" =
      decimal n := by
  have hdot : '.' ∉ "company_id".toList := by decide
  have hlookup : (mergeTrustedPrincipalContext o' requestContext attributes).lookup
      ("principal." ++ "company_id") = some (Float64.ofInt n).formatG := hcarries.lookup_merge h hdot
  rw [← formatG_eq_decimal hn]
  exact congrArg (Option.getD · "") hlookup

section Order

variable {l r : Int64}

theorem compareEq_int : compareEq (.int l) (.int r) = decide (l.toInt = r.toInt) := by
  rw [compareEq, Bool.eq_iff_iff, beq_iff_eq, decide_eq_true_iff, Int64.toInt_inj]

theorem compareInt_ne_lt : (compareInt l r != .lt) = decide (r.toInt ≤ l.toInt) := by
  rw [Bool.eq_iff_iff, bne_iff_ne, decide_eq_true_iff, compareInt]
  split_ifs with hgt hlt
  · simpa using (Int64.lt_iff_toInt_lt.mp hgt).le
  · simpa using Int64.lt_iff_toInt_lt.mp hlt
  · simpa using not_lt.mp (mt Int64.lt_iff_toInt_lt.mpr hlt)

end Order

theorem formatInt_injective {l r : Int64} (h : Strconv.formatInt l = Strconv.formatInt r) : l = r := by
  have hparse := Strconv.parseInt_formatInt l
  rw [h, Strconv.parseInt_formatInt] at hparse
  exact (Option.some.inj hparse).symm

theorem keepsInteger_of_lt (hn : n.natAbs < 10 ^ 6) : KeepsInteger letter n where
  text := fun h field hcarries ↦ by rw [hcarries.lookup h, formatG_eq_decimal hn]
  conditions := fun h field hcarries k hk ↦ by
    have hvalue := toInt_ofInt (n := n) (by omega)
    constructor
    · rw [outcome_carried h hn field hcarries k hk (by decide) (by decide) (by decide), compareValues,
        compareEq_int, hvalue]
      rfl
    · rw [outcome_carried h hn field hcarries k hk (by decide) (by decide) (by decide), compareValues,
        compareRelational, compareOrder]
      dsimp only
      rw [compareInt_ne_lt, hvalue]
      rfl
  company := fun h hcarries s mgr now o' tenantId req hbefore ↦ by
    have hvalue := toInt_ofInt (n := n) (by omega)
    rw [checkApprovalRequest_company hbefore, company_carried h hn hcarries, decimal, not_iff_not]
    constructor
    · intro heq
      rw [← formatInt_injective heq, hvalue]
    · intro heq
      rw [← heq, Int64.ofInt_toInt]

def levelField (letter : Char → Bool) : Ident letter where
  text := "level"
  identifier := ⟨'l', ['e', 'v', 'e', 'l'], rfl, rfl, by simp [Lexer.isLetter]⟩
  plain := by decide

def levelClaims (n : ℤ) : Map Claim :=
  Map.ofList [("sub", .string "user:alice"), ("level", .float64 (.ofInt n)),
    ("company_id", .float64 (.ofInt n))]

theorem carries_levelClaims (n : ℤ) {field : String} (h : field ∈ ["level", "company_id"]) :
    Carries (levelClaims n) field n := by
  rw [List.mem_pair] at h
  obtain rfl | rfl := h
  · exact ⟨rfl, (by decide : "level" ∉ "id" :: "tenant_id" :: tokenClaims), rfl⟩
  · exact ⟨rfl, (by decide : "company_id" ∉ "id" :: "tenant_id" :: tokenClaims), rfl⟩

theorem not_keepsInteger_of_ge (hn : 10 ^ 6 ≤ n.natAbs) : ¬ KeepsInteger letter n := by
  intro h
  have hcarries : Carries (levelClaims n) "level" n := carries_levelClaims n (by decide)
  have hsub : (levelClaims n).lookup "sub" = some (.string "user:alice") := rfl
  obtain ⟨_, hextract⟩ := extract_eq_ok (o := .listed) hsub (by decide)
  have htext := h.text hextract (levelField letter) hcarries
  have hprinted := hcarries.lookup hextract
  have heq : some (decimal n) = some (Float64.ofInt n).formatG := htext.symm.trans hprinted
  exact formatG_ne_decimal hn (Option.some.inj heq).symm

theorem integer_claim_kept_iff (letter : Char → Bool) (n : ℤ) :
    KeepsInteger letter n ↔ n.natAbs < 10 ^ 6 := by
  refine ⟨fun h ↦ ?_, keepsInteger_of_lt⟩
  by_contra hlarge
  exact not_keepsInteger_of_ge (not_lt.mp hlarge) h

def levelRequest : IssueApprovalCapabilityRequest where
  tenantId := "t1"
  resource := "purchase_order:17"
  context := ∅
  approvalId := "a1"
  companyId := 1000000
  intentHash := ""
  stateWitness := ""
  commandId := ""
  delegationGrantId := 9
  delegatorSubject := "user:carol"
  agentSubject := "agent:bot"
  creatorSubject := "user:carol"
  approverUserId := 11
  delegationValidUntil := 1790000600

/-- A million is printed as `1e+06`: it is not at least five, and the company of
that number is not the approver's. -/
theorem million_not_kept :
    (extractSubjectAttributes .listed (levelClaims 1000000)).map (·.2.lookup "level") =
        .ok (some "1e+06") ∧
      (claimedRequest .listed .listed (levelClaims 1000000) ⟨"", "", "", ∅, none⟩).map (fun ctx ↦
          outcome (fun _ ↦ false)
            (Expr.binary .ge (.var .principal (levelField fun _ ↦ false)) (.int 5 (by decide))).print
              ctx) = .ok (.ok (.ok (.bool false))) ∧
      (extractSubjectAttributes .listed (levelClaims 1000000)).map (fun e ↦
          checkApprovalRequest ⟨none, {}⟩ (some SignedMessage.sharedManager) 0 .listed
            ⟨"t1", e.1, e.2⟩ levelRequest) = .ok (.error companyMismatch) ∧
      ¬ KeepsInteger (fun _ ↦ false) 1000000 := by
  have hliteral : (Expr.int 5 (by decide) : Expr fun _ ↦ false).node = .valueNode (.int 5) := rfl
  refine ⟨by rfl, ?_, by rfl, not_keepsInteger_of_ge (by decide)⟩
  simp only [outcome_literal .principal (levelField fun _ ↦ false) hliteral
    (by decide : BinaryOp.ge ≠ .and) (by decide : BinaryOp.ge ≠ .or)]
  rfl

end PolicyEngine.Server

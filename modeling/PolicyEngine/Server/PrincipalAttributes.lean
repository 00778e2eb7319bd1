import PolicyEngine.Engine.Conditions
import PolicyEngine.Security.Jwt
import PolicyEngine.Server.RestRefinement

namespace PolicyEngine.Server

open PolicyEngine.Go PolicyEngine.Parser PolicyEngine.Engine PolicyEngine.Security

/-- The request as the policies see it: the subject and the principal attributes
come from the claims. The two orders are those of the loops over the claims and
over the attributes. -/
def claimedRequest (o o' : RangeOrder) (claims : Map Claim) (request : EvalContext) :
    Except String EvalContext := do
  let (subject, attributes) ← extractSubjectAttributes o claims
  return { request with
    subject := subject
    context := mergeTrustedPrincipalContext o' request.context attributes }

def principalAttribute (o o' : RangeOrder) (claims : Map Claim) (request : EvalContext)
    (field : String) (type : ValueType) : Except String (Except EvalError Value) :=
  (claimedRequest o o' claims request).map (·.getAttribute .principal field type)

variable (letter : Char → Bool)

def DeterminedByClaims (claims : Map Claim) : Prop :=
  ∀ (o₁ o₁' o₂ o₂' : RangeOrder) (request₁ request₂ : EvalContext) (field : Ident letter)
    (type : ValueType),
    principalAttribute o₁ o₁' claims request₁ field.text type =
      principalAttribute o₂ o₂' claims request₂ field.text type

def HasSubject (claims : Map Claim) : Prop :=
  ∃ sub, claims.lookup "sub" = some (.string sub) ∧ sub ≠ ""

def IsAttribute (field : String) : Prop := field ∉ "id" :: "tenant_id" :: tokenClaims

/-- A field that is claimed with its name and with the name of the namespace has
one text. -/
def NoClash (claims : Map Claim) : Prop :=
  ∀ field : Ident letter, IsAttribute field.text → ∀ v w, claims.lookup field.text = some v →
    claims.lookup ("principal." ++ field.text) = some w → v.attributeText = w.attributeText

variable {letter} {field claim : String} {attributes requestContext : Map String}

theorem notMem_dot (field : Ident letter) : '.' ∉ field.text.toList := by
  intro hmem
  obtain ⟨_, _, hw, hc, hrest⟩ := field.identifier
  have hspecial : '.' ∈ Lexer.specials := by decide
  rw [hw] at hmem
  obtain rfl | hmem := List.mem_cons.mp hmem
  · exact Lexer.not_special_of_isLetter hc hspecial
  · obtain hletter | hdigit := Bool.or_eq_true_iff.mp (hrest _ hmem)
    · exact Lexer.not_special_of_isLetter hletter hspecial
    · exact Lexer.not_special_of_isDigit hdigit hspecial

theorem mem_dot_of_hasPrefix (h : Text.hasPrefix claim "principal." = true) :
    '.' ∈ claim.toList := by
  obtain ⟨_, rfl⟩ := Text.hasPrefix_iff.mp h
  simp

theorem principalKey_eq_some_iff (hfield : '.' ∉ field.toList) :
    principalKey claim = some ("principal." ++ field) ↔
      (claim = field ∧ field ≠ "tenant_id") ∨ claim = "principal." ++ field := by
  have hne : claim = "principal." ++ field → claim ≠ "tenant_id" := by
    rintro rfl htenant
    have hmem : '.' ∈ "tenant_id".toList := htenant ▸ mem_dot_of_hasPrefix (Text.hasPrefix_append _ _)
    exact absurd hmem (by decide)
  have hdot : Text.contains claim "." = true ↔ '.' ∈ claim.toList := by
    have hsingleton : "." = String.singleton '.' := by decide
    rw [hsingleton, Text.contains_singleton]
  unfold principalKey
  split_ifs with htenant hnamed hcontains
  · constructor
    · intro h
      cases h
    · intro h
      obtain ⟨rfl, h⟩ | h := h
      · exact absurd htenant h
      · exact absurd htenant (hne h)
  · rw [Option.some_inj]
    constructor
    · exact .inr
    · intro h
      obtain ⟨rfl, -⟩ | h := h
      · exact absurd (mem_dot_of_hasPrefix hnamed) hfield
      · exact h
  · constructor
    · intro h
      cases h
    · intro h
      obtain ⟨rfl, -⟩ | rfl := h
      · exact absurd (hdot.mp hcontains) hfield
      · exact absurd (Text.hasPrefix_append _ _) hnamed
  · rw [Option.some_inj, String.append_right_inj]
    constructor
    · rintro rfl
      exact .inl ⟨rfl, htenant⟩
    · intro h
      obtain ⟨h, -⟩ | rfl := h
      · exact h
      · exact absurd (Text.hasPrefix_append _ _) hnamed

theorem lookup_requestKeys_principal (field : String) :
    (requestKeys requestContext).lookup ("principal." ++ field) = none := by
  have hempty : (∅ : Map String).lookup ("principal." ++ field) = none := rfl
  unfold requestKeys
  generalize (∅ : Map String) = m at hempty
  induction requestContext.entries generalizing m with
  | nil => exact hempty
  | cons e _ ih =>
    rw [List.foldl_cons]
    refine ih _ ?_
    split_ifs with hreserved
    · exact hempty
    · have hne : "principal." ++ field ≠ e.1 := fun heq ↦
        hreserved (.inr (heq ▸ Text.hasPrefix_append _ _))
      rw [AList.lookup_insert_ne hne, hempty]

def ownClaim (attributes : Map String) (field : String) : Option String :=
  if field = "tenant_id" then none else attributes.lookup field

theorem lookup_merge_principal (hfield : '.' ∉ field.toList)
    (hagree : ∀ s t, ownClaim attributes field = some s →
      attributes.lookup ("principal." ++ field) = some t → s = t) (o : RangeOrder) :
    (mergeTrustedPrincipalContext o requestContext attributes).lookup ("principal." ++ field) =
      (ownClaim attributes field).or (attributes.lookup ("principal." ++ field)) := by
  rw [mergeTrustedPrincipalContext, lookup_mergeClaims, lookup_requestKeys_principal, Option.or_none]
  cases hlast : ((o.keys attributes).filter
      (principalKey · = some ("principal." ++ field))).getLast? with
  | none =>
    have hno (claim : String) (hclaim : principalKey claim = some ("principal." ++ field)) :
        attributes.lookup claim = none := by
      rw [AList.lookup_eq_none, ← o.mem_keys]
      intro hmem
      have hfilter := List.filter_eq_nil_iff.mp (List.getLast?_eq_none_iff.mp hlast) claim hmem
      exact hfilter (decide_eq_true hclaim)
    have hown : ownClaim attributes field = none := by
      unfold ownClaim
      split_ifs with htenant
      · rfl
      · exact hno field ((principalKey_eq_some_iff hfield).mpr (.inl ⟨rfl, htenant⟩))
    rw [hown, hno _ ((principalKey_eq_some_iff hfield).mpr (.inr rfl))]
    rfl
  | some =>
    obtain ⟨hmem, hkey⟩ := List.mem_filter.mp (List.mem_of_getLast? hlast)
    obtain ⟨s, hs⟩ := Option.isSome_iff_exists.mp (AList.lookup_isSome.mpr (o.mem_keys.mp hmem))
    rw [Option.map_some, Map.get, hs, Option.getD_some]
    obtain ⟨rfl, htenant⟩ | rfl := (principalKey_eq_some_iff hfield).mp (of_decide_eq_true hkey)
    · rw [ownClaim, if_neg htenant, hs, Option.some_or]
    · cases hown : ownClaim attributes field with
      | none => rw [hs, Option.none_or]
      | some t => rw [hagree t s hown hs, Option.some_or]

section Claims

variable {claims : Map Claim} {o : RangeOrder} {subject : String}

theorem extract_eq_ok {sub : String} (h : claims.lookup "sub" = some (.string sub)) (hne : sub ≠ "") :
    ∃ attributes, extractSubjectAttributes o claims = .ok (sub, attributes) := by
  refine ⟨(o.keys claims).foldl (extractClaim claims) ∅, ?_⟩
  unfold extractSubjectAttributes
  rw [h]
  exact if_neg hne

def bareClaim (claims : Map Claim) (field : String) : Option Claim :=
  if field ∈ "tenant_id" :: tokenClaims then none else claims.lookup field

theorem ownClaim_eq (h : extractSubjectAttributes o claims = .ok (subject, attributes))
    (field : String) : ownClaim attributes field = (bareClaim claims field).map Claim.attributeText := by
  unfold ownClaim bareClaim
  rw [lookup_attributes h]
  by_cases htenant : field = "tenant_id"
  · simp [htenant]
  · by_cases hreserved : field ∈ tokenClaims
    · simp [htenant, hreserved]
    · simp [htenant, hreserved]

theorem lookup_attributes_principal (h : extractSubjectAttributes o claims = .ok (subject, attributes))
    (field : String) :
    attributes.lookup ("principal." ++ field) =
      (claims.lookup ("principal." ++ field)).map Claim.attributeText := by
  have hnot : "principal." ++ field ∉ tokenClaims := by
    intro hmem
    have hall : ∀ k ∈ tokenClaims, '.' ∉ k.toList := by decide
    exact hall _ hmem (mem_dot_of_hasPrefix (Text.hasPrefix_append _ _))
  rw [lookup_attributes h, if_neg hnot]

def claimedAttribute (claims : Map Claim) (subject field : String) (type : ValueType) :
    Except EvalError Value :=
  if field = "id" then .ok (.string subject)
  else
    match (bareClaim claims field).or (claims.lookup ("principal." ++ field)) with
    | some v => parseStringValue v.attributeText type
    | none => .error .missingAttribute

theorem principalAttribute_eq {field : Ident letter} {request : EvalContext} {o' : RangeOrder}
    (h : extractSubjectAttributes o claims = .ok (subject, attributes))
    (hagree : field.text ≠ "id" → ∀ v w, bareClaim claims field.text = some v →
      claims.lookup ("principal." ++ field.text) = some w → v.attributeText = w.attributeText)
    (type : ValueType) :
    principalAttribute o o' claims request field.text type =
      .ok (claimedAttribute claims subject field.text type) := by
  have hrequest : claimedRequest o o' claims request = .ok { request with
      subject := subject
      context := mergeTrustedPrincipalContext o' request.context attributes } := by
    rw [claimedRequest, h]
    rfl
  rw [principalAttribute, hrequest]
  by_cases hid : field.text = "id"
  · simp [Except.map, EvalContext.getAttribute, claimedAttribute, hid]
  · have hown : ∀ s t, ownClaim attributes field.text = some s →
        attributes.lookup ("principal." ++ field.text) = some t → s = t := by
      intro _ _ hs ht
      rw [ownClaim_eq h, Option.map_eq_some_iff] at hs
      rw [lookup_attributes_principal h, Option.map_eq_some_iff] at ht
      obtain ⟨v, hv, rfl⟩ := hs
      obtain ⟨w, hw, rfl⟩ := ht
      exact hagree hid v w hv hw
    have hlookup : (mergeTrustedPrincipalContext o' request.context attributes).lookup
        ("principal." ++ field.text) =
          ((bareClaim claims field.text).or (claims.lookup ("principal." ++ field.text))).map
            Claim.attributeText := by
      rw [lookup_merge_principal (notMem_dot field) hown o', ownClaim_eq h,
        lookup_attributes_principal h, Option.map_or]
    simp only [Except.map, EvalContext.getAttribute, claimedAttribute, hid, and_false, if_false,
      EvalContext.attributeText, hlookup, reduceCtorEq]
    cases (bareClaim claims field.text).or (claims.lookup ("principal." ++ field.text)) with
    | none => rfl
    | some => rfl

theorem principalAttribute_lastly {request : EvalContext} {claim : String} {v : Claim}
    (h : extractSubjectAttributes o claims = .ok (subject, attributes))
    (hid : field ≠ "id") (hkey : principalKey claim = some ("principal." ++ field))
    (hclaim : attributes.lookup claim = some v.attributeText) :
    principalAttribute o (.lastly claim) claims request field .string =
      .ok (.ok (.string v.attributeText)) := by
  have hmem : claim ∈ attributes := AList.lookup_isSome.mp (by rw [hclaim]; rfl)
  have hlookup : (mergeTrustedPrincipalContext (.lastly claim) request.context attributes).lookup
      ("principal." ++ field) = some v.attributeText := by
    rw [lookup_merge_lastly hmem hkey, Map.get, hclaim, Option.getD_some]
  rw [principalAttribute, claimedRequest, h]
  simp [bind, Except.bind, pure, Except.pure, Except.map, EvalContext.getAttribute, hid,
    EvalContext.attributeText, hlookup, parseStringValue]

theorem principal_attributes_determined_iff (letter : Char → Bool) (claims : Map Claim) :
    DeterminedByClaims letter claims ↔ (HasSubject claims → NoClash letter claims) := by
  constructor
  · intro hdetermined hsubject field hfield v w hv hw
    obtain ⟨sub, hsub, hne⟩ := hsubject
    obtain ⟨attributes, h⟩ := extract_eq_ok (o := .listed) hsub hne
    rw [IsAttribute, List.mem_cons, List.mem_cons, not_or, not_or] at hfield
    obtain ⟨hid, htenant, hreserved⟩ := hfield
    have hdot := notMem_dot field
    have hown : attributes.lookup field.text = some v.attributeText := by
      rw [lookup_attributes h, if_neg hreserved, hv, Option.map_some]
    have hnamed : attributes.lookup ("principal." ++ field.text) = some w.attributeText := by
      rw [lookup_attributes_principal h, hw, Option.map_some]
    have hruns := hdetermined .listed (.lastly field.text) .listed
      (.lastly ("principal." ++ field.text)) ⟨"", "", "", ∅, none⟩ ⟨"", "", "", ∅, none⟩ field .string
    rw [principalAttribute_lastly h hid ((principalKey_eq_some_iff hdot).mpr (.inl ⟨rfl, htenant⟩)) hown,
      principalAttribute_lastly h hid ((principalKey_eq_some_iff hdot).mpr (.inr rfl)) hnamed] at hruns
    simpa using hruns
  · intro hclash o₁ _ o₂ _ _ _ field _
    by_cases hsubject : HasSubject claims
    · obtain ⟨sub, hsub, hne⟩ := hsubject
      obtain ⟨_, h₁⟩ := extract_eq_ok (o := o₁) hsub hne
      obtain ⟨_, h₂⟩ := extract_eq_ok (o := o₂) hsub hne
      have hagree : field.text ≠ "id" → ∀ v w, bareClaim claims field.text = some v →
          claims.lookup ("principal." ++ field.text) = some w →
            v.attributeText = w.attributeText := by
        intro hid v w hv hw
        unfold bareClaim at hv
        split_ifs at hv with hreserved
        have hfield : IsAttribute field.text := by
          rw [IsAttribute, List.mem_cons, not_or]
          exact ⟨hid, hreserved⟩
        exact hclash ⟨sub, hsub, hne⟩ field hfield v w hv hw
      rw [principalAttribute_eq h₁ hagree, principalAttribute_eq h₂ hagree]
    · have herror (o : RangeOrder) : extractSubjectAttributes o claims =
          .error "thieu hoac sai kieu truong 'sub' trong token claims" := by
        unfold extractSubjectAttributes
        split
        · rename_i sub hsub
          refine if_pos ?_
          by_contra hne
          exact hsubject ⟨sub, hsub, hne⟩
        · rfl
      rw [principalAttribute, principalAttribute, claimedRequest, claimedRequest, herror, herror]
      rfl

end Claims

def roleField : Ident fun _ ↦ false where
  text := "role"
  identifier := ⟨'r', ['o', 'l', 'e'], rfl, rfl, List.all_eq_true.mp rfl⟩
  plain := rfl

def twoRoles : Map Claim :=
  Map.ofList [("sub", .string "user:alice"), ("role", .string "clerk"),
    ("principal.role", .string "manager")]

theorem twoRoles_not_determined : ¬ DeterminedByClaims (fun _ ↦ false) twoRoles := by
  intro h
  have hclerk : principalAttribute .listed (.lastly "role") twoRoles ⟨"", "", "", ∅, none⟩ "role"
      .string = .ok (.ok (.string "clerk")) := by rfl
  have hmanager : principalAttribute .listed (.lastly "principal.role") twoRoles
      ⟨"", "", "", ∅, none⟩ "role" .string = .ok (.ok (.string "manager")) := by rfl
  have hruns := h .listed (.lastly "role") .listed (.lastly "principal.role") ⟨"", "", "", ∅, none⟩
    ⟨"", "", "", ∅, none⟩ roleField .string
  rw [roleField, hclerk, hmanager] at hruns
  simp at hruns

end PolicyEngine.Server

import PolicyEngine.Security.ApprovalCapability

namespace PolicyEngine.Security

open PolicyEngine.Code PolicyEngine.Go PolicyEngine.Go.Result

/-- What a signature is made for: a delegation tuple, a delegated intent or an
approval capability, under the id of the signing key. -/
inductive SignedMessage
  | delegation (keyId : String) (input : DelegationProofInput)
  | delegationV2 (keyId : String) (input : DelegationProofV2Input)
  | approval (keyId : String) (capability : ApprovalCapability)

inductive SignedMessage.Kind
  | delegation
  | delegationV2
  | approval
deriving DecidableEq

def DelegationProofInput.texts (input : DelegationProofInput) : List String :=
  [input.tenantId, input.grantId, input.delegator, input.agent, input.action, input.resource,
    input.amount, input.delegationChain, input.creatorId, input.toolContext, input.executionMode,
    input.nonce]

namespace SignedMessage

variable (prim : Primitives)

def kind : SignedMessage → Kind
  | .delegation _ _ => .delegation
  | .delegationV2 _ _ => .delegationV2
  | .approval _ _ => .approval

def keyId : SignedMessage → String
  | .delegation keyId _ | .delegationV2 keyId _ | .approval keyId _ => keyId

def bytes : SignedMessage → Except String (List UInt8)
  | .delegation keyId input => do
    input.validateStructure
    return input.canonicalBytes keyId
  | .delegationV2 keyId input => input.canonicalBytes prim keyId
  | .approval _ capability => capability.canonicalBytes

/-- The strings no check bounds are shorter than 2^32 bytes. -/
def Short : SignedMessage → Prop
  | .delegation keyId input =>
    keyId.utf8ByteSize < 2 ^ 32 ∧ ∀ text ∈ input.texts, text.utf8ByteSize < 2 ^ 32
  | .delegationV2 keyId _ => keyId.utf8ByteSize < 2 ^ 32
  | .approval _ _ => True

def SameFields : SignedMessage → SignedMessage → Prop
  | .delegation keyId input, .delegation keyId' input' => keyId = keyId' ∧ input = input'
  | .delegationV2 keyId input, .delegationV2 keyId' input' =>
    keyId = keyId' ∧ input.intent.intentHash prim = input'.intent.intentHash prim ∧
      input.intent.delegationGrantId = input'.intent.delegationGrantId ∧
      input.intent.agentSubject = input'.intent.agentSubject ∧
      input.issuedAt = input'.issuedAt ∧ input.validUntil = input'.validUntil
  | .approval _ capability, .approval _ capability' => capability = capability'
  | _, _ => False

end SignedMessage

section Layouts

variable {prim : Primitives}

theorem DelegationProofInput.canonicalBytes_eq (input : DelegationProofInput) (keyId : String) :
    input.canonicalBytes keyId = Text.bytes "PDP-DELEGATION-PROOF" ++
      ("v1" :: keyId :: input.texts).flatMap canonicalString ++ Encoding.beInt64 input.issuedAt ++
      Encoding.beInt64 input.validUntil := by
  unfold canonicalBytes
  rfl

theorem determines_delegation :
    Determines (fun p : String × DelegationProofInput ↦
        (SignedMessage.delegation p.1 p.2).Short)
      (fun p ↦ p.2.canonicalBytes p.1) Eq := by
  have htexts := determines_canonicalString.list (n := 14)
    (f := fun p : String × DelegationProofInput ↦ "v1" :: p.1 :: p.2.texts)
    (Q := fun p ↦ (SignedMessage.delegation p.1 p.2).Short) (fun _ _ ↦ rfl) (by
      rintro _ ⟨hkey, htexts⟩ text htext
      simp only [List.mem_cons] at htext
      obtain rfl | rfl | htext := htext
      · decide
      · exact hkey
      · exact htexts text htext)
  have hlayout := (((Determines.const _ (Text.bytes "PDP-DELEGATION-PROOF")).append htexts).append
    (determines_number fun p ↦ p.2.issuedAt)).append (determines_number fun p ↦ p.2.validUntil)
  refine (hlayout.congr fun p _ ↦ p.2.canonicalBytes_eq p.1).mono (fun _ h ↦ h) ?_
  rintro ⟨_, input⟩ ⟨_, input'⟩ - - ⟨⟨⟨-, hfields⟩, _⟩, _⟩
  simp only [DelegationProofInput.texts, List.cons.injEq] at hfields
  cases input
  cases input'
  simp_all

theorem intentHash_of_validateStructure {input : DelegationProofV2Input}
    (h : input.validateStructure prim = .ok ()) :
    ∃ bytes, input.intent.canonicalBytes prim = .ok bytes ∧
      input.intent.intentHash prim = .ok (prim.sha256 bytes) := by
  have hvalid := CanonicalBusinessIntent.validate_eq_ok.mp
    (DelegationProofV2Input.of_validateStructure h).1
  obtain ⟨bytes, hbytes⟩ := hvalid.exists_canonicalBytes
  exact ⟨bytes, hbytes, CanonicalBusinessIntent.intentHash_eq_ok.mpr ⟨bytes, hbytes, rfl⟩⟩

theorem determines_delegationV2 (hlen : ∀ bytes, (prim.sha256 bytes).length = 32) :
    Determines (fun p : String × DelegationProofV2Input ↦
        p.1.utf8ByteSize < 2 ^ 32 ∧ p.2.validateStructure prim = .ok ())
      (fun p ↦ (p.2.canonicalBytes prim p.1).toOption.getD [])
      fun p q ↦ (SignedMessage.delegationV2 p.1 p.2).SameFields prim (.delegationV2 q.1 q.2) := by
  have hhash : Determines (fun p : String × DelegationProofV2Input ↦
        p.1.utf8ByteSize < 2 ^ 32 ∧ p.2.validateStructure prim = .ok ())
      (fun p ↦ (p.2.intent.intentHash prim).toOption.getD [])
      fun p q ↦ p.2.intent.intentHash prim = q.2.intent.intentHash prim := by
    refine .of_length (n := 32) ?_ ?_
    · rintro p ⟨-, hp⟩
      obtain ⟨bytes, -, hp⟩ := intentHash_of_validateStructure hp
      rw [hp]
      exact hlen bytes
    · rintro _ _ ⟨-, hp⟩ ⟨-, hq⟩ heq
      obtain ⟨_, -, hp⟩ := intentHash_of_validateStructure hp
      obtain ⟨_, -, hq⟩ := intentHash_of_validateStructure hq
      rw [hp, hq] at heq ⊢
      exact congrArg Except.ok heq
  have hlayout := ((((((((Determines.const _ (Text.bytes "PDP-DELEGATION-PROOF-V2")).append
    (determines_text (f := fun _ ↦ "v2") fun _ _ ↦ by decide)).append
    (determines_text (f := Prod.fst) fun _ h ↦ h.1)).append hhash).append
    (determines_number fun p ↦ p.2.intent.delegationGrantId)).append
    (determines_text (f := fun p ↦ p.2.intent.agentSubject) fun p h ↦
      (CanonicalBusinessIntent.validate_eq_ok.mp
        (DelegationProofV2Input.of_validateStructure h.2).1).agentSubject.short)).append
    (determines_number fun p ↦ p.2.issuedAt)).append (determines_number fun p ↦ p.2.validUntil))
  refine (hlayout.congr ?_).mono (fun _ h ↦ h) ?_
  · rintro p ⟨-, hp⟩
    obtain ⟨_, -, hhash⟩ := intentHash_of_validateStructure hp
    rw [DelegationProofV2Input.canonicalBytes, hp, hhash]
    rfl
  · rintro _ _ - - ⟨⟨⟨⟨⟨⟨⟨-, -⟩, hkey⟩, hhash⟩, hgrant⟩, hagent⟩, hissued⟩, hvalid⟩
    exact ⟨hkey, hhash, hgrant, hagent, hissued, hvalid⟩

open ApprovalCapability in
theorem determines_approval :
    Determines (fun capability : ApprovalCapability ↦ capability.Encodable ∧
        capability.validate = .ok (digest capability.intentHash))
      (fun capability ↦ capability.canonicalBytes.toOption.getD []) Eq := by
  have hlayout := (Determines.const (fun capability : ApprovalCapability ↦ capability.Encodable ∧
        capability.validate = .ok (digest capability.intentHash))
      (Text.bytes "PDP-APPROVAL-CAPABILITY-V1")).append
    (determines_text (f := capabilityVersion) fun _ h ↦ by rw [h.1.capabilityVersion]; decide)
    |>.append (determines_text (f := purpose) fun _ h ↦ by rw [h.1.purpose]; decide)
    |>.append (determines_text (f := approvalId) fun _ h ↦ h.1.approvalId.trans_lt (by decide))
    |>.append (determines_text (f := tenantId) fun _ h ↦ h.1.tenantId.short)
    |>.append (determines_number companyId)
    |>.append (determines_digest.comp (f := intentHash) fun _ h ↦ h.1.intentHash)
    |>.append (determines_digest.comp (f := stateWitness) fun _ h ↦ h.1.stateWitness)
    |>.append (determines_text (f := commandId) fun _ h ↦
      short_of_validateCommandID h.1.commandId)
    |>.append (determines_number delegationGrantId)
    |>.append (determines_text (f := delegatorSubject) fun _ h ↦ h.1.delegatorSubject.short)
    |>.append (determines_text (f := agentSubject) fun _ h ↦ h.1.agentSubject.short)
    |>.append (determines_text (f := creatorSubject) fun _ h ↦ h.1.creatorSubject.short)
    |>.append (determines_number approverUserId)
    |>.append (determines_text (f := approverSubject) fun _ h ↦ h.1.approverSubject.short)
    |>.append (determines_text (f := requiredPermission) fun _ h ↦ by
      rw [h.1.requiredPermission]; decide)
    |>.append (determines_number issuancePolicyRevision)
    |>.append (determines_number issuedAt)
    |>.append (determines_number expiresAt)
    |>.append (determines_text (f := oneTimeId) fun _ h ↦ h.1.oneTimeId.trans_lt (by decide))
  refine (hlayout.congr ?_).mono (fun _ h ↦ h) ?_
  · intro _ ⟨hform, hvalidate⟩
    rw [ApprovalCapability.canonicalBytes, hvalidate,
      decodeCanonicalDigest_eq_ok.mpr ⟨hform.stateWitness, rfl⟩]
    rfl
  · rintro ⟨⟩ ⟨⟩ - - ⟨⟨⟨⟨⟨⟨⟨⟨⟨⟨⟨⟨⟨⟨⟨⟨⟨⟨⟨-, rfl⟩, rfl⟩, rfl⟩, rfl⟩, rfl⟩, rfl⟩, rfl⟩, rfl⟩, rfl⟩, rfl⟩, rfl⟩,
      rfl⟩, rfl⟩, rfl⟩, rfl⟩, rfl⟩, rfl⟩, rfl⟩, rfl⟩
    rfl

end Layouts

namespace SignedMessage

variable {prim : Primitives} {a b : SignedMessage} {word : List UInt8}

/-- The first 21 bytes: the domain of the tuples is the beginning of the domain
of the intents, but a length follows it. -/
def Kind.head : Kind → List UInt8
  | .delegation => Text.bytes "PDP-DELEGATION-PROOF" ++ [0]
  | .delegationV2 => Text.bytes "PDP-DELEGATION-PROOF-"
  | .approval => Text.bytes "PDP-APPROVAL-CAPABILI"

theorem Kind.length_head (kind : Kind) : kind.head.length = 21 := by
  cases kind <;> rfl

theorem Kind.head_injective : Function.Injective Kind.head := by
  intro kind kind'
  cases kind <;> cases kind' <;> decide

theorem begins_with_head (h : a.bytes prim = .ok word) : a.kind.head <+: word := by
  cases a with
  | delegation =>
    obtain ⟨-, hword⟩ := bind_unit_eq_ok.mp h
    obtain rfl := Except.ok.inj hword
    rw [DelegationProofInput.canonicalBytes_eq, List.flatMap_cons, List.append_assoc,
      List.append_assoc, List.append_assoc]
    refine (List.prefix_append_right_inj _).mpr ?_
    exact ⟨(canonicalString "v1").tail ++ _, rfl⟩
  | delegationV2 =>
    obtain ⟨-, hword⟩ := bind_unit_eq_ok.mp h
    obtain ⟨_, -, hword⟩ := bind_eq_ok.mp hword
    obtain rfl := Except.ok.inj hword
    simp only [List.append_assoc]
    exact ⟨Text.bytes "V2" ++ _, rfl⟩
  | approval =>
    obtain ⟨_, -, hword⟩ := bind_eq_ok.mp h
    obtain ⟨_, -, hword⟩ := bind_eq_ok.mp hword
    obtain rfl := Except.ok.inj hword
    simp only [List.append_assoc]
    exact ⟨Text.bytes "TY-V1" ++ _, rfl⟩

theorem kind_eq (ha : a.bytes prim = .ok word) (hb : b.bytes prim = .ok word) :
    a.kind = b.kind := by
  have hle : a.kind.head.length ≤ b.kind.head.length := by
    rw [Kind.length_head, Kind.length_head]
  have hbegins := List.prefix_of_prefix_length_le (begins_with_head ha) (begins_with_head hb) hle
  exact Kind.head_injective (hbegins.eq_of_length (by rw [Kind.length_head, Kind.length_head]))

theorem bytes_inj (hlen : ∀ bytes, (prim.sha256 bytes).length = 32) (hshort : a.Short)
    (hshort' : b.Short) (ha : a.bytes prim = .ok word) (hb : b.bytes prim = .ok word) :
    a.SameFields prim b := by
  have hkind := kind_eq ha hb
  cases a with
  | delegation keyId input =>
    cases b with
    | delegation keyId' input' =>
      obtain ⟨-, ha⟩ := bind_unit_eq_ok.mp ha
      obtain ⟨-, hb⟩ := bind_unit_eq_ok.mp hb
      have heq := determines_delegation.apply (a := (keyId, input)) (b := (keyId', input')) hshort
        hshort' (Except.ok.inj (ha.trans hb.symm))
      exact Prod.mk.inj heq
    | delegationV2 => cases hkind
    | approval => cases hkind
  | delegationV2 keyId input =>
    cases b with
    | delegation => cases hkind
    | delegationV2 keyId' input' =>
      refine (determines_delegationV2 hlen).apply (a := (keyId, input)) (b := (keyId', input'))
        ⟨hshort, (bind_unit_eq_ok.mp ha).1⟩ ⟨hshort', (bind_unit_eq_ok.mp hb).1⟩ ?_
      exact congrArg (·.toOption.getD []) (ha.trans hb.symm)
    | approval => cases hkind
  | approval _ capability =>
    cases b with
    | delegation => cases hkind
    | delegationV2 => cases hkind
    | approval _ capability' =>
      refine determines_approval.apply (a := capability) (b := capability')
        (ApprovalCapability.of_canonicalBytes ha) (ApprovalCapability.of_canonicalBytes hb) ?_
      exact congrArg (·.toOption.getD []) (ha.trans hb.symm)

end SignedMessage

end PolicyEngine.Security

import PolicyEngine.Security.SignedMessages

namespace PolicyEngine.Security

open PolicyEngine.Go PolicyEngine.Go.Result

section Verifiers

variable {prim : Primitives} {now : ℤ} {proof : String}

theorem entries_ne_nil {ring : Map (List UInt8)} {keyId : String} {secret : List UInt8}
    (h : ring.lookup keyId = some secret) : ring.entries ≠ [] := by
  intro hempty
  have hmem : keyId ∈ ring.keys := AList.mem_keys.mp (AList.lookup_isSome.mp (by rw [h]; rfl))
  rw [AList.keys, hempty] at hmem
  cases hmem

theorem verifyProof_eq_ok {m : DelegationManager} {input : DelegationProofInput} :
    m.verifyProof prim now input proof = .ok () ↔ input.validateAt now = .ok () ∧
      ∃ keyId text secret, Text.split proof '.' = ["v1", keyId, text] ∧
        validDelegationKeyID keyId = true ∧ m.signingKeys.lookup keyId = some secret ∧
        secret ≠ [] ∧ Encoding.hexDecode text = some (prim.hmac secret (input.canonicalBytes keyId)) := by
  constructor
  · intro h
    unfold DelegationManager.verifyProof at h
    split_ifs at h with hring
    obtain ⟨hat, h⟩ := bind_unit_eq_ok.mp h
    refine ⟨hat, ?_⟩
    split at h
    · rename_i keyId text hsplit
      split_ifs at h with hform
      rw [not_or, not_not, Bool.not_eq_false] at hform
      split at h
      · cases h
      · cases h
      · rename_i secret hnonempty hlookup
        split at h
        · cases h
        · rename_i hdecode
          split_ifs at h with heq
          exact ⟨keyId, text, secret, by rw [hsplit, hform.1], hform.2, hlookup,
            fun hnil ↦ hnonempty hnil, by rw [hdecode, heq]⟩
    · cases h
  · rintro ⟨hat, _, _, _, hsplit, hkey, hlookup, hnonempty, hdecode⟩
    rw [DelegationManager.verifyProof, if_neg (entries_ne_nil hlookup), hat, hsplit]
    refine bind_unit_eq_ok.mpr ⟨rfl, ?_⟩
    obtain ⟨_, _, rfl⟩ := List.exists_cons_of_ne_nil hnonempty
    simp only [ne_eq, not_true_eq_false, hkey, Bool.true_eq_false, or_self, if_false, hlookup,
      hdecode, if_true]

theorem verifyProofV2_eq_ok {m : DelegationManager} {input : DelegationProofV2Input} :
    m.verifyProofV2 prim now input proof = .ok () ↔ input.validateAt prim now = .ok () ∧
      ∃ keyId text secret payload, Text.split proof '.' = ["v2", keyId, text] ∧
        validDelegationKeyID keyId = true ∧ m.signingKeys.lookup keyId = some secret ∧
        secret ≠ [] ∧ text.utf8ByteSize = 64 ∧ Encoding.isLower text = true ∧
        input.canonicalBytes prim keyId = .ok payload ∧
        Encoding.hexDecode text = some (prim.hmac secret payload) := by
  constructor
  · intro h
    unfold DelegationManager.verifyProofV2 at h
    split_ifs at h with hring
    obtain ⟨hat, h⟩ := bind_unit_eq_ok.mp h
    refine ⟨hat, ?_⟩
    split at h
    · rename_i version keyId text hsplit
      by_cases hform : version ≠ "v2" ∨ validDelegationKeyID keyId = false
      · rw [if_pos hform] at h
        cases h
      rw [if_neg hform] at h
      rw [not_or, not_not, Bool.not_eq_false] at hform
      split at h
      · cases h
      · cases h
      · rename_i secret hnonempty hlookup
        split_ifs at h with htext
        rw [not_or, not_not, Bool.not_eq_false] at htext
        split at h
        · cases h
        · rename_i hdecode
          obtain ⟨payload, hpayload, h⟩ := bind_eq_ok.mp h
          split_ifs at h with heq
          exact ⟨keyId, text, secret, payload, by rw [hsplit, hform.1], hform.2, hlookup,
            fun hnil ↦ hnonempty hnil, htext.1, htext.2, hpayload, by rw [hdecode, heq]⟩
    · cases h
  · rintro ⟨hat, _, _, _, payload, hsplit, hkey, hlookup, hnonempty, hsize, hlower,
      hpayload, hdecode⟩
    rw [DelegationManager.verifyProofV2, if_neg (entries_ne_nil hlookup), hat, hsplit]
    refine bind_unit_eq_ok.mpr ⟨rfl, ?_⟩
    obtain ⟨_, _, rfl⟩ := List.exists_cons_of_ne_nil hnonempty
    simp only [ne_eq, not_true_eq_false, hkey, Bool.true_eq_false, or_self, if_false, hlookup,
      hsize, hlower, hdecode, hpayload]
    exact bind_eq_ok.mpr ⟨payload, rfl, if_pos rfl⟩

theorem verify_iff {m : ApprovalCapabilityManager} {capability : ApprovalCapability}
    {envelope : ApprovalCapabilityEnvelope} :
    m.verify prim now capability envelope = .ok () ↔
      envelope.algorithm = approvalCapabilityAlgorithm ∧
      approvalKeyIDPattern envelope.keyId = true ∧
      ∃ secret, m.keys.lookup envelope.keyId = some secret ∧
        capability.canonicalBytes = .ok envelope.payload ∧ envelope.signature.length = 32 ∧
        prim.hmac secret envelope.payload = envelope.signature ∧
        capability.issuedAt.toInt ≤ Time.unix (now + approvalCapabilityClockSkew) ∧
        Time.unix now ≤ capability.expiresAt.toInt := by
  constructor
  · intro h
    unfold ApprovalCapabilityManager.verify at h
    split_ifs at h with hring hform
    rw [not_or, not_not, Bool.not_eq_false] at hform
    split at h
    · cases h
    · rename_i secret hlookup
      obtain ⟨_, hpayload, h⟩ := bind_eq_ok.mp h
      simp only [bind_unit_eq_ok, rejectIf_eq_ok, not_not, ne_eq, not_lt, gt_iff_lt] at h
      obtain ⟨rfl, hlength, hsignature, hactive, hexpires⟩ := h
      exact ⟨hform.1, hform.2, secret, hlookup, hpayload, hlength, hsignature, hactive, hexpires⟩
  · intro h
    obtain ⟨halgorithm, hkey, _, hlookup, hpayload, hlength, hsignature, hactive, hexpires⟩ := h
    rw [ApprovalCapabilityManager.verify, if_neg (entries_ne_nil hlookup),
      if_neg (by simp [halgorithm, hkey]), hlookup, hpayload]
    refine bind_eq_ok.mpr ⟨envelope.payload, rfl, ?_⟩
    simp only [bind_unit_eq_ok, rejectIf_eq_ok, not_not, ne_eq, not_lt, gt_iff_lt]
    exact ⟨trivial, hlength, hsignature, hactive, hexpires⟩

theorem verify_eq_ok {m : ApprovalCapabilityManager} {capability : ApprovalCapability}
    {envelope : ApprovalCapabilityEnvelope} (h : m.verify prim now capability envelope = .ok ()) :
    ∃ secret, m.keys.lookup envelope.keyId = some secret ∧
      capability.canonicalBytes = .ok envelope.payload ∧
      prim.hmac secret envelope.payload = envelope.signature := by
  obtain ⟨-, -, secret, hlookup, hpayload, -, hsignature, -⟩ := verify_iff.mp h
  exact ⟨secret, hlookup, hpayload, hsignature⟩

theorem verify_issued {m : ApprovalCapabilityManager} {random : Except String (List UInt8)}
    {request issued : ApprovalCapability} {validUntil : Int64}
    {envelope : ApprovalCapabilityEnvelope} {keyId : String}
    (hmac : ∀ key word, (prim.hmac key word).length = 32)
    (hnow : (Int64.ofInt (Time.unix now)).toInt = Time.unix now)
    (hissue : m.issue prim now random request validUntil = .ok (issued, envelope))
    (hkey : approvalKeyIDPattern keyId = true)
    (hlookup : m.keys.lookup keyId = some (m.keys.get [] m.activeKeyId)) :
    m.verify prim now issued { envelope with keyId := keyId } = .ok () := by
  obtain ⟨⟨_, hpayload, rfl⟩, hat, hexpires, -⟩ := ApprovalCapabilityManager.of_issue hissue
  have hskew : Time.unix now ≤ Time.unix (now + approvalCapabilityClockSkew) :=
    Time.unix_mono (Int.le_add_of_nonneg_right (by decide))
  rw [Int64.lt_iff_toInt_lt, hat, hnow] at hexpires
  refine verify_iff.mpr ⟨rfl, hkey, _, hlookup, hpayload, hmac _ _, rfl, ?_, hexpires.le⟩
  rw [hat, hnow]
  exact hskew

end Verifiers

namespace SignedMessage

inductive Produced (prim : Primitives) : Map (List UInt8) → SignedMessage → List UInt8 → Prop
  | delegation {m : DelegationManager} {input : DelegationProofInput} {signature : List UInt8}
    (h : m.generateProof prim input =
      .ok ("v1." ++ m.activeKeyId ++ "." ++ Encoding.hexEncode signature)) :
    Produced prim m.signingKeys (.delegation m.activeKeyId input) signature
  | delegationV2 {m : DelegationManager} {input : DelegationProofV2Input} {signature : List UInt8}
    (h : m.generateProofV2 prim input =
      .ok ("v2." ++ m.activeKeyId ++ "." ++ Encoding.hexEncode signature)) :
    Produced prim m.signingKeys (.delegationV2 m.activeKeyId input) signature
  | approval {m : ApprovalCapabilityManager} {now : ℤ} {random : Except String (List UInt8)}
    {request issued : ApprovalCapability} {validUntil : Int64}
    {envelope : ApprovalCapabilityEnvelope}
    (h : m.issue prim now random request validUntil = .ok (issued, envelope)) :
    Produced prim m.keys (.approval envelope.keyId issued) envelope.signature

/-- A signature that a verifier with this key ring accepts for the message: in
the text of a proof, whatever that text is, or in an envelope. -/
inductive Accepted (prim : Primitives) : Map (List UInt8) → SignedMessage → List UInt8 → Prop
  | delegation {m : DelegationManager} {now : ℤ} {input : DelegationProofInput}
    {proof keyId text : String} {signature : List UInt8}
    (h : m.verifyProof prim now input proof = .ok ())
    (hsplit : Text.split proof '.' = ["v1", keyId, text])
    (hdecode : Encoding.hexDecode text = some signature) :
    Accepted prim m.signingKeys (.delegation keyId input) signature
  | delegationV2 {m : DelegationManager} {now : ℤ} {input : DelegationProofV2Input}
    {proof keyId text : String} {signature : List UInt8}
    (h : m.verifyProofV2 prim now input proof = .ok ())
    (hsplit : Text.split proof '.' = ["v2", keyId, text])
    (hdecode : Encoding.hexDecode text = some signature) :
    Accepted prim m.signingKeys (.delegationV2 keyId input) signature
  | approval {m : ApprovalCapabilityManager} {now : ℤ} {capability : ApprovalCapability}
    {envelope : ApprovalCapabilityEnvelope}
    (h : m.verify prim now capability envelope = .ok ()) :
    Accepted prim m.keys (.approval envelope.keyId capability) envelope.signature

def signings (prim : Primitives) (ring : Map (List UInt8)) (a : SignedMessage) :
    Set (List UInt8 × List UInt8) :=
  {p | p.1 = ring.get [] a.keyId ∧ a.bytes prim = .ok p.2}

def hashed (prim : Primitives) : SignedMessage → Set (List UInt8)
  | .delegationV2 _ input => {word | input.intent.canonicalBytes prim = .ok word}
  | _ => ∅

def withKeyId (keyId : String) : SignedMessage → SignedMessage
  | .delegation _ input => .delegation keyId input
  | .delegationV2 _ input => .delegationV2 keyId input
  | .approval _ capability => .approval keyId capability

variable {prim : Primitives} {ring ring' : Map (List UInt8)} {a b : SignedMessage}
  {signature : List UInt8}

theorem hexEncode_inj {head : String} {bs bs' : List UInt8}
    (h : head ++ Encoding.hexEncode bs = head ++ Encoding.hexEncode bs') : bs = bs' := by
  apply Encoding.hexEncode_injective
  apply String.toList_inj.mp
  have hlist := congrArg String.toList h
  rw [String.toList_append, String.toList_append] at hlist
  exact List.append_cancel_left hlist

theorem Produced.signing (h : Produced prim ring a signature) :
    ∃ word, a.bytes prim = .ok word ∧ prim.hmac (ring.get [] a.keyId) word = signature := by
  cases h with
  | @delegation _ _ _ h =>
    unfold DelegationManager.generateProof at h
    dsimp only at h
    split_ifs at h
    obtain ⟨hvalid, h⟩ := bind_unit_eq_ok.mp h
    exact ⟨_, bind_unit_eq_ok.mpr ⟨hvalid, rfl⟩, hexEncode_inj (Except.ok.inj h)⟩
  | @delegationV2 _ _ _ h =>
    unfold DelegationManager.generateProofV2 at h
    dsimp only at h
    split_ifs at h
    obtain ⟨payload, hpayload, h⟩ := bind_eq_ok.mp h
    exact ⟨payload, hpayload, hexEncode_inj (Except.ok.inj h)⟩
  | @approval _ _ _ _ _ _ _ h =>
    obtain ⟨⟨payload, hpayload, rfl⟩, -⟩ := ApprovalCapabilityManager.of_issue h
    exact ⟨payload, hpayload, rfl⟩

theorem Accepted.signing (h : Accepted prim ring a signature) :
    ∃ word secret, a.bytes prim = .ok word ∧ ring.lookup a.keyId = some secret ∧
      prim.hmac secret word = signature := by
  cases h with
  | @delegation _ _ _ _ _ _ _ h hsplit hdecode =>
    obtain ⟨hat, _, _, secret, hsplit', _, hlookup, _, hdecode'⟩ :=
      verifyProof_eq_ok.mp h
    have hparts := hsplit.symm.trans hsplit'
    simp only [List.cons.injEq, true_and, and_true] at hparts
    obtain ⟨rfl, rfl⟩ := hparts
    exact ⟨_, secret, bind_unit_eq_ok.mpr ⟨(bind_unit_eq_ok.mp hat).1, rfl⟩, hlookup,
      Option.some.inj (hdecode'.symm.trans hdecode)⟩
  | @delegationV2 _ _ _ _ _ _ _ h hsplit hdecode =>
    obtain ⟨hat, keyId', text', secret, payload, hsplit', hkey, hlookup, hnonempty, -, -, hpayload,
      hdecode'⟩ := verifyProofV2_eq_ok.mp h
    have hparts := hsplit.symm.trans hsplit'
    simp only [List.cons.injEq, true_and, and_true] at hparts
    obtain ⟨rfl, rfl⟩ := hparts
    exact ⟨payload, secret, hpayload, hlookup, Option.some.inj (hdecode'.symm.trans hdecode)⟩
  | @approval _ _ _ envelope h =>
    obtain ⟨secret, hlookup, hpayload, hsignature⟩ := verify_eq_ok h
    exact ⟨envelope.payload, secret, hpayload, hlookup, hsignature⟩

theorem eq_withKeyId (hsha : Set.InjOn prim.sha256 (a.hashed prim ∪ b.hashed prim))
    {word word' : List UInt8} (ha : a.bytes prim = .ok word) (hb : b.bytes prim = .ok word')
    (h : a.SameFields prim b) :
    a = b.withKeyId a.keyId ∧ (a.kind ≠ .approval → a.keyId = b.keyId) := by
  cases a with
  | delegation =>
    cases b with
    | delegation =>
      obtain ⟨rfl, rfl⟩ := h
      exact ⟨rfl, fun _ ↦ rfl⟩
    | delegationV2 => cases h
    | approval => cases h
  | delegationV2 _ input =>
    cases b with
    | delegation => cases h
    | delegationV2 _ input' =>
      obtain ⟨rfl, hhash, -, -, hissued, hvalid⟩ := h
      obtain ⟨_, hbytes, hsum⟩ := intentHash_of_validateStructure (bind_unit_eq_ok.mp ha).1
      obtain ⟨_, hbytes', hsum'⟩ := intentHash_of_validateStructure (bind_unit_eq_ok.mp hb).1
      rw [hsum, hsum'] at hhash
      obtain rfl := hsha (Or.inl hbytes) (Or.inr hbytes') (Except.ok.inj hhash)
      have hintent := CanonicalBusinessIntent.canonicalBytes_inj hbytes hbytes'
      cases input
      cases input'
      dsimp only at hintent hissued hvalid
      subst hintent hissued hvalid
      exact ⟨rfl, fun _ ↦ rfl⟩
    | approval => cases h
  | approval _ capability =>
    cases b with
    | delegation => cases h
    | delegationV2 => cases h
    | approval _ capability' =>
      obtain rfl : capability = capability' := h
      exact ⟨rfl, fun hkind ↦ absurd rfl hkind⟩

def sharedKeys : Map String :=
  Map.ofList [("k1", "0123456789abcdef0123456789abcdef"), ("k2", "0123456789abcdef0123456789abcdef")]

def approvalRequest : ApprovalCapability where
  capabilityVersion := ""
  purpose := ""
  approvalId := "AAAAAAAAAAAAAAAAAAAAAA"
  tenantId := orderIntent.tenantId
  companyId := orderIntent.companyId
  intentHash := "ba7816bf8f01cfea414140de5dae2223b00361a396177a9cb410ff61f20015ad"
  stateWitness := orderIntent.stateWitness
  commandId := orderIntent.commandId
  delegationGrantId := orderIntent.delegationGrantId
  delegatorSubject := orderIntent.delegatorSubject
  agentSubject := orderIntent.agentSubject
  creatorSubject := orderIntent.creatorSubject
  approverUserId := 11
  approverSubject := "user:bob"
  requiredPermission := ""
  issuancePolicyRevision := 3
  issuedAt := 0
  expiresAt := 0
  oneTimeId := ""

def sharedManager : ApprovalCapabilityManager where
  activeKeyId := "k1"
  keys := Map.ofList [("k2", Text.bytes "0123456789abcdef0123456789abcdef"),
    ("k1", Text.bytes "0123456789abcdef0123456789abcdef")]
  ttl := 3600 * Time.second

theorem new_sharedManager : newApprovalCapabilityManagerWithKeyring "k1" sharedKeys
    (3600 * Time.second) = .ok sharedManager := rfl

theorem sharedManager_issues : ∃ issued envelope,
    sharedManager.issue .standard (1790000000 * Time.second) (.ok (List.replicate 32 7))
      approvalRequest 1790000600 = .ok (issued, envelope) := by
  have hissue : (sharedManager.issue .standard (1790000000 * Time.second)
      (.ok (List.replicate 32 7)) approvalRequest 1790000600).isOk = true := by decide +kernel
  obtain ⟨⟨issued, envelope⟩, h⟩ := exists_of_isOk hissue
  exact ⟨issued, envelope, h⟩

theorem sharedManager_accepts : ∃ issued signature,
    Produced .standard sharedManager.keys (.approval "k1" issued) signature ∧
      Accepted .standard sharedManager.keys (.approval "k2" issued) signature := by
  obtain ⟨issued, _, hissue⟩ := sharedManager_issues
  have hkey : approvalKeyIDPattern "k2" = true := by decide
  have hverify := verify_issued (fun _ _ ↦ Crypto.Sha256.length_sha256 _) (by decide) hissue hkey rfl
  obtain ⟨⟨_, -, rfl⟩, -⟩ := ApprovalCapabilityManager.of_issue hissue
  exact ⟨issued, _, .approval hissue, .approval hverify⟩

def SecretsDistinct (ring : Map (List UInt8)) : Prop :=
  ∀ id id' secret, ring.lookup id = some secret → ring.lookup id' = some secret → id = id'

/-- The formats are jointly unambiguous, and a signature is accepted only for
the kind and the fields it was made for, under the secret it was made with. The
key id is one of the signed fields of both delegation formats; of an approval
it is the id that the ring gives the secret. -/
theorem signature_binds_message (prim : Primitives)
    (hlen : ∀ bytes, (prim.sha256 bytes).length = 32) (ring ring' : Map (List UInt8))
    (a b : SignedMessage) (hsha : Set.InjOn prim.sha256 (a.hashed prim ∪ b.hashed prim))
    (hhmac : Set.InjOn (fun p : List UInt8 × List UInt8 ↦ prim.hmac p.1 p.2)
      (a.signings prim ring ∪ b.signings prim ring')) (hshort : a.Short) (hshort' : b.Short) :
    (∀ word, a.bytes prim = .ok word → b.bytes prim = .ok word → a.SameFields prim b) ∧
    ∀ signature, Produced prim ring a signature → Accepted prim ring' b signature →
      a = b.withKeyId a.keyId ∧ (a.kind ≠ .approval → a.keyId = b.keyId) ∧
      ring'.lookup b.keyId = some (ring.get [] a.keyId) ∧
      (SecretsDistinct ring' → ring'.lookup a.keyId = some (ring.get [] a.keyId) → a = b) := by
  refine ⟨fun word ↦ bytes_inj hlen hshort hshort', ?_⟩
  intro _ hproduced haccepted
  obtain ⟨word, hword, hsig⟩ := hproduced.signing
  obtain ⟨word', secret, hword', hlookup, hsig'⟩ := haccepted.signing
  have hget : ring'.get [] b.keyId = secret := by rw [Map.get, hlookup, Option.getD_some]
  have hpair : (ring.get [] a.keyId, word) = (secret, word') :=
    hhmac (Or.inl ⟨rfl, hword⟩) (Or.inr ⟨hget.symm, hword'⟩) (hsig.trans hsig'.symm)
  obtain ⟨hsecret, rfl⟩ := Prod.mk.inj hpair
  obtain ⟨hmessage, hkey⟩ := eq_withKeyId hsha hword hword' (bytes_inj hlen hshort hshort' hword hword')
  refine ⟨hmessage, hkey, by rw [hlookup, hsecret], ?_⟩
  intro hdistinct hlookup'
  have hid : a.keyId = b.keyId := hdistinct _ _ secret (by rw [hlookup', hsecret]) hlookup
  rw [hmessage, hid]
  cases b <;> rfl

theorem signature_binds_message_shared : ∃ issued signature,
    Produced .standard sharedManager.keys (.approval "k1" issued) signature ∧
      Accepted .standard sharedManager.keys (.approval "k2" issued) signature ∧
      sharedManager.keys.lookup "k2" = some (sharedManager.keys.get [] "k1") := by
  obtain ⟨issued, signature, hproduced, haccepted⟩ := sharedManager_accepts
  refine ⟨issued, signature, hproduced, haccepted, ?_⟩
  refine ((signature_binds_message .standard Crypto.Sha256.length_sha256 sharedManager.keys
    sharedManager.keys (.approval "k1" issued) (.approval "k2" issued) ?_ ?_ trivial trivial).2
    signature hproduced haccepted).2.2.1
  · exact (Set.union_self (∅ : Set (List UInt8))).symm ▸ Set.injOn_empty _
  · -- Both ids stand for one secret, so the two signings are one.
    intro p hp q hq _
    have hone : ∀ r ∈ signings .standard sharedManager.keys (.approval "k1" issued) ∪
        signings .standard sharedManager.keys (.approval "k2" issued),
        r.1 = sharedManager.keys.get [] "k1" ∧ issued.canonicalBytes = .ok r.2 := by
      intro _ hr
      obtain ⟨hkey, hbytes⟩ | ⟨hkey, hbytes⟩ := hr
      · exact ⟨hkey, hbytes⟩
      · exact ⟨hkey, hbytes⟩
    obtain ⟨hp₁, hp₂⟩ := hone p hp
    obtain ⟨hq₁, hq₂⟩ := hone q hq
    exact Prod.ext (hp₁.trans hq₁.symm) (Except.ok.inj (hp₂.symm.trans hq₂))

/-- A capability issued under `k1` is accepted in an envelope that says `k2`. -/
theorem approval_accepted_under_other_key :
    newApprovalCapabilityManagerWithKeyring "k1" sharedKeys (3600 * Time.second) =
      .ok sharedManager ∧
    ∃ issued signature, Produced .standard sharedManager.keys (.approval "k1" issued) signature ∧
      Accepted .standard sharedManager.keys (.approval "k2" issued) signature ∧
      SignedMessage.approval "k1" issued ≠ .approval "k2" issued := by
  obtain ⟨issued, signature, hproduced, haccepted⟩ := sharedManager_accepts
  exact ⟨new_sharedManager, issued, signature, hproduced, haccepted, by simp⟩

end SignedMessage

end PolicyEngine.Security

import Mathlib.Data.Set.Function
import PolicyEngine.Security.Intent

namespace PolicyEngine.Security

open PolicyEngine.Code PolicyEngine.Go PolicyEngine.Go.Result

section Fields

variable {field value kind : String} {decoded : List UInt8}

def digest (value : String) : List UInt8 := (Encoding.hexDecode value).getD []

structure IsDigest (value : String) : Prop where
  size : value.utf8ByteSize = 64
  lower : Encoding.isLower value = true
  decodes : (Encoding.hexDecode value).isSome = true

theorem IsDigest.hexDecode (h : IsDigest value) : Encoding.hexDecode value = some (digest value) := by
  obtain ⟨_, hbs⟩ := Option.isSome_iff_exists.mp h.decodes
  rw [digest, hbs, Option.getD_some]

theorem decodeCanonicalDigest_eq_ok :
    decodeCanonicalDigest field value = .ok decoded ↔ IsDigest value ∧ decoded = digest value := by
  unfold decodeCanonicalDigest
  constructor
  · intro h
    split_ifs at h with hform
    rw [not_or, not_not, Bool.not_eq_false] at hform
    split at h
    · rename_i hbs
      cases h
      exact ⟨⟨hform.1, hform.2, by rw [hbs]; rfl⟩, by rw [digest, hbs, Option.getD_some]⟩
    · cases h
  · rintro ⟨h, rfl⟩
    rw [if_neg (by simp [h.size, h.lower]), h.hexDecode]

theorem IsDigest.length (h : IsDigest value) : (digest value).length = 32 := by
  have hsize := (Encoding.utf8ByteSize_of_hexDecode h.lower h.hexDecode).2
  rw [h.size] at hsize
  omega

theorem determines_digest : Determines IsDigest digest Eq := by
  refine .of_length (fun _ h ↦ h.length) ?_
  intro a b ha hb heq
  calc
    a = Encoding.hexEncode (digest a) :=
      (Encoding.utf8ByteSize_of_hexDecode ha.lower ha.hexDecode).1.symm
    _ = Encoding.hexEncode (digest b) := by rw [heq]
    _ = b := (Encoding.utf8ByteSize_of_hexDecode hb.lower hb.hexDecode).1

theorem determines_canonicalString :
    Determines (fun value ↦ value.utf8ByteSize < 2 ^ 32) canonicalString Eq :=
  (Encoding.determines_lengthPrefixed.comp (f := Text.bytes) fun _ h ↦ h).mono (fun _ h ↦ h)
    fun _ _ _ _ heq ↦ Text.bytes_injective heq

section Record

variable {α : Type} {P : α → Prop}

theorem determines_text {f : α → String} (h : ∀ a, P a → (f a).utf8ByteSize < 2 ^ 32) :
    Determines P (fun a ↦ canonicalString (f a)) fun a b ↦ f a = f b :=
  determines_canonicalString.comp h

theorem determines_number (f : α → Int64) :
    Determines P (fun a ↦ Encoding.beInt64 (f a)) fun a b ↦ f a = f b :=
  Encoding.determines_beInt64.comp fun _ _ ↦ trivial

end Record

structure CanonicalText (value : String) : Prop where
  nonempty : value ≠ ""
  short : value.utf8ByteSize < 2 ^ 32
  trimmed : Text.trimSpace value = value

theorem validateCanonicalText_eq_ok :
    validateCanonicalText field value = .ok () ↔ CanonicalText value := by
  unfold validateCanonicalText
  split_ifs with h
  · refine ⟨nofun, fun htext ↦ ?_⟩
    obtain hempty | hlong | htrim := h
    · exact absurd hempty htext.nonempty
    · exact absurd htext.short (Nat.not_lt.mpr hlong)
    · exact absurd htext.trimmed htrim
  · rw [not_or, not_or, not_not, ge_iff_le, Nat.not_le] at h
    exact ⟨fun _ ↦ ⟨h.1, h.2.1, h.2.2⟩, fun _ ↦ rfl⟩

structure CanonicalSubject (kind value : String) : Prop extends CanonicalText value where
  kindPrefix : Text.hasPrefix value kind = true
  named : value.utf8ByteSize ≠ kind.utf8ByteSize

theorem validateCanonicalSubject_eq_ok :
    validateCanonicalSubject field value kind = .ok () ↔ CanonicalSubject kind value := by
  rw [validateCanonicalSubject, bind_unit_eq_ok, validateCanonicalText_eq_ok, rejectIf_eq_ok,
    not_or, Bool.not_eq_false]
  exact ⟨fun ⟨htext, hprefix, hnamed⟩ ↦ ⟨htext, hprefix, hnamed⟩,
    fun h ↦ ⟨h.toCanonicalText, h.kindPrefix, h.named⟩⟩

theorem length_of_timestampShape {shape cs : List Char} (h : timestampShape shape cs = true) :
    cs.length = shape.length := by
  fun_induction timestampShape shape cs with
  | case1 => rfl
  | case2 shape c cs ih =>
    rw [Bool.and_eq_true] at h
    rw [List.length_cons, List.length_cons, ih h.2]
  | case3 s shape c cs _ ih =>
    rw [Bool.and_eq_true] at h
    rw [List.length_cons, List.length_cons, ih h.2]
  | case4 => cases h

theorem short_of_validateCanonicalTimestamp (h : validateCanonicalTimestamp field value = .ok ()) :
    value.utf8ByteSize < 2 ^ 32 := by
  unfold validateCanonicalTimestamp at h
  split_ifs at h with hshape
  have hlen := length_of_timestampShape hshape.1
  have hsize := Text.utf8ByteSize_le value
  simp at hlen
  omega

theorem utf8ByteSize_encode (bs : List UInt8) :
    (Base64.rawURL.encode bs).utf8ByteSize ≤ 8 * bs.length := by
  have hlen := Base64.length_sextets_le bs
  have hsize := Text.utf8ByteSize_le (Base64.rawURL.encode bs)
  have hchars : (Base64.rawURL.encode bs).toList =
      (Base64.sextets bs).map Base64.rawURL.char := by
    rw [Base64.Encoding.encode, String.toList_ofList]
    exact List.append_nil _
  rw [hchars, List.length_map] at hsize
  omega

theorem short_of_validateCommandID (h : validateCommandID value = .ok ()) :
    value.utf8ByteSize < 2 ^ 32 := by
  unfold validateCommandID at h
  split at h
  · rename_i decoded _
    split_ifs at h with hform
    rw [not_or, not_not, not_not] at hform
    have hsize := utf8ByteSize_encode decoded
    rw [hform.2] at hsize
    omega
  · cases h

end Fields

namespace CanonicalBusinessIntent

structure WellFormed (intent : CanonicalBusinessIntent) : Prop where
  intentVersion : intent.intentVersion = canonicalBusinessIntentVersion
  tenantId : CanonicalText intent.tenantId
  positive : ¬ intent.companyId ≤ 0 ∧ ¬ intent.resourceId ≤ 0 ∧ ¬ intent.vendorId ≤ 0 ∧
    ¬ intent.delegationGrantId ≤ 0
  resourceType : intent.resourceType = purchaseOrderResourceType
  action : intent.action = confirmPurchaseOrderAction
  currencyCode : intent.currencyCode.utf8ByteSize = 3 ∧
    intent.currencyCode.toList.all Char.isUpper = true
  currencyScale : ¬ intent.currencyScale < 0 ∧ ¬ intent.currencyScale > 6
  amountMinor : ¬ intent.amountMinor < 0
  lineDigest : IsDigest intent.lineDigest
  recordState : CanonicalText intent.recordState
  recordWriteVersion :
    validateCanonicalTimestamp "record_write_version" intent.recordWriteVersion = .ok ()
  creatorSubject : CanonicalSubject "user:" intent.creatorSubject
  delegatorSubject : CanonicalSubject "user:" intent.delegatorSubject
  agentSubject : CanonicalSubject "agent:" intent.agentSubject
  commandId : validateCommandID intent.commandId = .ok ()
  proofVersion : intent.proofVersion = canonicalIntentProofVersion

variable {prim : Primitives} {intent a b : CanonicalBusinessIntent}

theorem validateFields_eq_ok : intent.validateFields = .ok () ↔ intent.WellFormed := by
  simp only [validateFields, bind_unit_eq_ok, bind_eq_ok (α := List UInt8), rejectIf_eq_ok,
    validateCanonicalText_eq_ok,
    validateCanonicalSubject_eq_ok, decodeCanonicalDigest_eq_ok, not_or, not_not, ne_eq,
    Bool.not_eq_false]
  constructor
  · rintro ⟨h₁, h₂, h₃, h₄, h₅, h₆, h₇, h₈, _, ⟨h₉, -⟩, h₁₀, h₁₁, h₁₂, h₁₃, h₁₄, h₁₅, h₁₆⟩
    exact ⟨h₁, h₂, h₃, h₄, h₅, h₆, h₇, h₈, h₉, h₁₀, h₁₁, h₁₂, h₁₃, h₁₄, h₁₅, h₁₆⟩
  · intro h
    exact ⟨h.intentVersion, h.tenantId, h.positive, h.resourceType, h.action, h.currencyCode,
      h.currencyScale, h.amountMinor, _, ⟨h.lineDigest, rfl⟩, h.recordState,
      h.recordWriteVersion, h.creatorSubject, h.delegatorSubject, h.agentSubject, h.commandId,
      h.proofVersion⟩

structure Valid (prim : Primitives) (intent : CanonicalBusinessIntent) : Prop
    extends intent.WellFormed where
  stateWitness : IsDigest intent.stateWitness
  witnessed :
    digest intent.stateWitness = prim.sha256 (intent.stateWitnessPayload (digest intent.lineDigest))

theorem computeStateWitness_eq_ok {witness : List UInt8} :
    intent.computeStateWitness prim = .ok witness ↔ IsDigest intent.lineDigest ∧
      prim.sha256 (intent.stateWitnessPayload (digest intent.lineDigest)) = witness := by
  simp only [computeStateWitness, bind_eq_ok, decodeCanonicalDigest_eq_ok]
  constructor
  · rintro ⟨_, ⟨hdigest, rfl⟩, hsha⟩
    exact ⟨hdigest, Except.ok.inj hsha⟩
  · rintro ⟨hdigest, rfl⟩
    exact ⟨_, ⟨hdigest, rfl⟩, rfl⟩

theorem validate_eq_ok : intent.validate prim = .ok () ↔ intent.Valid prim := by
  simp only [validate, bind_unit_eq_ok, bind_eq_ok (α := List UInt8), validateFields_eq_ok,
    decodeCanonicalDigest_eq_ok, computeStateWitness_eq_ok, rejectIf_eq_ok, not_not, ne_eq]
  constructor
  · rintro ⟨hform, _, ⟨hwitness, rfl⟩, _, ⟨-, rfl⟩, heq⟩
    exact ⟨hform, hwitness, heq⟩
  · intro h
    exact ⟨h.toWellFormed, _, ⟨h.stateWitness, rfl⟩, _, ⟨h.lineDigest, rfl⟩, h.witnessed⟩

def witnessed (prim : Primitives) (intent : CanonicalBusinessIntent) : CanonicalBusinessIntent :=
  { intent with
    stateWitness :=
      Encoding.hexEncode (prim.sha256 (intent.stateWitnessPayload (digest intent.lineDigest))) }

theorem valid_witnessed (hsha : ∀ bytes, (prim.sha256 bytes).length = 32)
    (h : (intent.witnessed prim).WellFormed) : (intent.witnessed prim).Valid prim := by
  have hdecode := Encoding.hexDecode_hexEncode
    (prim.sha256 (intent.stateWitnessPayload (digest intent.lineDigest)))
  have hlower := Encoding.isLower_hexEncode
    (prim.sha256 (intent.stateWitnessPayload (digest intent.lineDigest)))
  have hsize := (Encoding.utf8ByteSize_of_hexDecode hlower hdecode).2
  rw [hsha] at hsize
  refine ⟨h, ⟨hsize, hlower, ?_⟩, ?_⟩
  · rw [witnessed, hdecode]
    rfl
  · rw [witnessed, digest, hdecode, Option.getD_some]
    rfl

structure MaterialState where
  tenantId : String
  companyId : Int64
  resourceType : String
  resourceId : Int64
  vendorId : Int64
  currencyCode : String
  currencyScale : Int64
  amountMinor : Int64
  lineDigest : String
  recordState : String
  recordWriteVersion : String
  delegationGrantId : Int64
  creatorSubject : String

def material (intent : CanonicalBusinessIntent) : MaterialState where
  tenantId := intent.tenantId
  companyId := intent.companyId
  resourceType := intent.resourceType
  resourceId := intent.resourceId
  vendorId := intent.vendorId
  currencyCode := intent.currencyCode
  currencyScale := intent.currencyScale
  amountMinor := intent.amountMinor
  lineDigest := intent.lineDigest
  recordState := intent.recordState
  recordWriteVersion := intent.recordWriteVersion
  delegationGrantId := intent.delegationGrantId
  creatorSubject := intent.creatorSubject

section Layout

theorem short_of_eq {s t : String} (h : s = t) (ht : t.utf8ByteSize < 2 ^ 32) :
    s.utf8ByteSize < 2 ^ 32 := h ▸ ht

theorem WellFormed.short_resourceType (h : intent.WellFormed) :
    intent.resourceType.utf8ByteSize < 2 ^ 32 := short_of_eq h.resourceType (by decide)

theorem WellFormed.short_currencyCode (h : intent.WellFormed) :
    intent.currencyCode.utf8ByteSize < 2 ^ 32 := h.currencyCode.1.trans_lt (by decide)

theorem determines_stateWitnessPayload :
    Determines WellFormed (fun intent ↦ intent.stateWitnessPayload (digest intent.lineDigest))
      fun a b ↦ a.material = b.material := by
  have hlayout := (Determines.const WellFormed (Text.bytes "PDP-ODOO-PO-STATE-V1")).append
    (determines_text (f := tenantId) fun _ h ↦ h.tenantId.short)
    |>.append (determines_number companyId)
    |>.append (determines_text (f := resourceType) fun _ h ↦ h.short_resourceType)
    |>.append (determines_number resourceId)
    |>.append (determines_number vendorId)
    |>.append (determines_text (f := currencyCode) fun _ h ↦ h.short_currencyCode)
    |>.append (determines_number currencyScale)
    |>.append (determines_number amountMinor)
    |>.append (determines_digest.comp (f := lineDigest) fun _ h ↦ h.lineDigest)
    |>.append (determines_text (f := recordState) fun _ h ↦ h.recordState.short)
    |>.append (determines_text (f := recordWriteVersion) fun _ h ↦
      short_of_validateCanonicalTimestamp h.recordWriteVersion)
    |>.append (determines_number delegationGrantId)
    |>.append (determines_text (f := creatorSubject) fun _ h ↦ h.creatorSubject.short)
  refine hlayout.mono (fun _ h ↦ h) ?_
  rintro _ _ - - ⟨⟨⟨⟨⟨⟨⟨⟨⟨⟨⟨⟨⟨-, h₁⟩, h₂⟩, h₃⟩, h₄⟩, h₅⟩, h₆⟩, h₇⟩, h₈⟩, h₉⟩, h₁₀⟩, h₁₁⟩, h₁₂⟩, h₁₃⟩
  simp only [material, h₁, h₂, h₃, h₄, h₅, h₆, h₇, h₈, h₉, h₁₀, h₁₁, h₁₂, h₁₃]

theorem determines_canonicalBytes :
    Determines (Valid prim) (fun intent ↦ (intent.canonicalBytes prim).toOption.getD []) Eq := by
  have hlayout := (Determines.const (Valid prim) (Text.bytes "PDP-CANONICAL-BUSINESS-INTENT")).append
    (determines_text (f := intentVersion) fun _ h ↦ short_of_eq h.intentVersion (by decide))
    |>.append (determines_text (f := tenantId) fun _ h ↦ h.tenantId.short)
    |>.append (determines_number companyId)
    |>.append (determines_text (f := resourceType) fun _ h ↦ h.short_resourceType)
    |>.append (determines_number resourceId)
    |>.append (determines_text (f := action) fun _ h ↦ short_of_eq h.action (by decide))
    |>.append (determines_number vendorId)
    |>.append (determines_text (f := currencyCode) fun _ h ↦ h.short_currencyCode)
    |>.append (determines_number currencyScale)
    |>.append (determines_number amountMinor)
    |>.append (determines_digest.comp (f := lineDigest) fun _ h ↦ h.lineDigest)
    |>.append (determines_text (f := recordState) fun _ h ↦ h.recordState.short)
    |>.append (determines_text (f := recordWriteVersion) fun _ h ↦
      short_of_validateCanonicalTimestamp h.recordWriteVersion)
    |>.append (determines_digest.comp (f := stateWitness) fun _ h ↦ h.stateWitness)
    |>.append (determines_text (f := creatorSubject) fun _ h ↦ h.creatorSubject.short)
    |>.append (determines_number delegationGrantId)
    |>.append (determines_text (f := delegatorSubject) fun _ h ↦ h.delegatorSubject.short)
    |>.append (determines_text (f := agentSubject) fun _ h ↦ h.agentSubject.short)
    |>.append (determines_text (f := commandId) fun _ h ↦ short_of_validateCommandID h.commandId)
    |>.append (determines_text (f := proofVersion) fun _ h ↦ short_of_eq h.proofVersion (by decide))
  refine (hlayout.congr ?_).mono (fun _ h ↦ h) ?_
  · intro _ h
    rw [canonicalBytes, validate_eq_ok.mpr h,
      decodeCanonicalDigest_eq_ok.mpr ⟨h.lineDigest, rfl⟩,
      decodeCanonicalDigest_eq_ok.mpr ⟨h.stateWitness, rfl⟩]
    rfl
  · rintro ⟨⟩ ⟨⟩ - - ⟨⟨⟨⟨⟨⟨⟨⟨⟨⟨⟨⟨⟨⟨⟨⟨⟨⟨⟨⟨-, rfl⟩, rfl⟩, rfl⟩, rfl⟩, rfl⟩, rfl⟩, rfl⟩, rfl⟩, rfl⟩, rfl⟩,
      rfl⟩, rfl⟩, rfl⟩, rfl⟩, rfl⟩, rfl⟩, rfl⟩, rfl⟩, rfl⟩, rfl⟩
    rfl

theorem valid_of_canonicalBytes {bytes : List UInt8} (h : intent.canonicalBytes prim = .ok bytes) :
    intent.Valid prim :=
  validate_eq_ok.mp (bind_unit_eq_ok.mp h).1

theorem Valid.exists_canonicalBytes (h : intent.Valid prim) :
    ∃ bytes, intent.canonicalBytes prim = .ok bytes := by
  rw [canonicalBytes, validate_eq_ok.mpr h, decodeCanonicalDigest_eq_ok.mpr ⟨h.lineDigest, rfl⟩,
    decodeCanonicalDigest_eq_ok.mpr ⟨h.stateWitness, rfl⟩]
  exact ⟨_, rfl⟩

theorem canonicalBytes_inj {bytes : List UInt8} (ha : a.canonicalBytes prim = .ok bytes)
    (hb : b.canonicalBytes prim = .ok bytes) : a = b := by
  refine determines_canonicalBytes.apply (valid_of_canonicalBytes ha) (valid_of_canonicalBytes hb) ?_
  rw [ha, hb]

theorem intentHash_eq_ok {hash : List UInt8} : intent.intentHash prim = .ok hash ↔
    ∃ bytes, intent.canonicalBytes prim = .ok bytes ∧ prim.sha256 bytes = hash := by
  simp only [intentHash, bind_eq_ok, pure, Except.pure, Except.ok.injEq]

end Layout

end CanonicalBusinessIntent

namespace CanonicalBusinessIntent

/-- Canonical intents are unambiguous: the bytes of valid intents, the payload
of the state witness and, where SHA-256 has no collision among the strings in
question, the witness and the hash determine what they are made from. -/
theorem canonical_intents_unambiguous (prim : Primitives) {hashed : Set (List UInt8)}
    (hsha : Set.InjOn prim.sha256 hashed) (a b : CanonicalBusinessIntent) :
    (∀ bytes, a.canonicalBytes prim = .ok bytes → b.canonicalBytes prim = .ok bytes → a = b) ∧
    (a.validateFields = .ok () → b.validateFields = .ok () →
      a.stateWitnessPayload (digest a.lineDigest) = b.stateWitnessPayload (digest b.lineDigest) →
      a.material = b.material) ∧
    (a.validate prim = .ok () → b.validateFields = .ok () →
      a.stateWitnessPayload (digest a.lineDigest) ∈ hashed →
      b.stateWitnessPayload (digest b.lineDigest) ∈ hashed →
      b.computeStateWitness prim = .ok (digest a.stateWitness) → b.material = a.material) ∧
    ∀ bytes bytes' hash, a.canonicalBytes prim = .ok bytes → b.canonicalBytes prim = .ok bytes' →
      bytes ∈ hashed → bytes' ∈ hashed → a.intentHash prim = .ok hash →
      b.intentHash prim = .ok hash → a = b := by
  refine ⟨fun bytes ↦ canonicalBytes_inj, ?_, ?_, ?_⟩
  · intro ha hb
    exact determines_stateWitnessPayload.apply (validateFields_eq_ok.mp ha)
      (validateFields_eq_ok.mp hb)
  · intro ha hb hma hmb hwitness
    have hvalid := validate_eq_ok.mp ha
    have hsame := (computeStateWitness_eq_ok.mp hwitness).2.trans hvalid.witnessed
    exact determines_stateWitnessPayload.apply (validateFields_eq_ok.mp hb) hvalid.toWellFormed
      (hsha hmb hma hsame)
  · intro _ _ _ ha hb hmem hmem' hhash hhash'
    obtain ⟨_, hbytes, rfl⟩ := intentHash_eq_ok.mp hhash
    obtain ⟨_, hbytes', hsame⟩ := intentHash_eq_ok.mp hhash'
    obtain rfl := Except.ok.inj (ha.symm.trans hbytes)
    obtain rfl := Except.ok.inj (hb.symm.trans hbytes')
    obtain rfl := hsha hmem' hmem hsame
    exact canonicalBytes_inj ha hb

end CanonicalBusinessIntent

def orderIntent : CanonicalBusinessIntent where
  intentVersion := canonicalBusinessIntentVersion
  tenantId := "t1"
  companyId := 7
  resourceType := purchaseOrderResourceType
  resourceId := 42
  action := confirmPurchaseOrderAction
  vendorId := 5
  currencyCode := "USD"
  currencyScale := 2
  amountMinor := 990
  lineDigest := "ba7816bf8f01cfea414140de5dae2223b00361a396177a9cb410ff61f20015ad"
  recordState := "draft"
  recordWriteVersion := "2026-09-20T08:00:00.000000Z"
  stateWitness := "2fced1bfb96422b4160e0c2123f408583988adfb858e40371cbae974caceec3d"
  creatorSubject := "user:carol"
  delegationGrantId := 9
  delegatorSubject := "user:alice"
  agentSubject := "agent:bot"
  commandId := "AAcOFRwjKjE4P0ZNVFtiaXB3foWMk5qhqK-2vcTL0tk"
  proofVersion := canonicalIntentProofVersion

theorem orderIntent_valid : orderIntent.validate .standard = .ok () := by decide +kernel

def raisedIntent : CanonicalBusinessIntent := { orderIntent with amountMinor := 991 }

/-- The witness of the order does not fit the raised amount. -/
theorem canonical_intents_unambiguous_order :
    Set.InjOn Primitives.standard.sha256
        {orderIntent.stateWitnessPayload (digest orderIntent.lineDigest),
          raisedIntent.stateWitnessPayload (digest raisedIntent.lineDigest)} ∧
      orderIntent.validate .standard = .ok () ∧ raisedIntent.validateFields = .ok () ∧
      raisedIntent.computeStateWitness .standard ≠ .ok (digest orderIntent.stateWitness) := by
  have hsha : Set.InjOn Primitives.standard.sha256
      {orderIntent.stateWitnessPayload (digest orderIntent.lineDigest),
        raisedIntent.stateWitnessPayload (digest raisedIntent.lineDigest)} := by
    rw [Set.injOn_pair]
    intro heq
    exact absurd heq (by decide +kernel)
  have hfields : raisedIntent.validateFields = .ok () := by rfl
  refine ⟨hsha, orderIntent_valid, hfields, ?_⟩
  intro hwitness
  have hmaterial := (CanonicalBusinessIntent.canonical_intents_unambiguous .standard hsha
    orderIntent raisedIntent).2.2.1 orderIntent_valid hfields (by simp) (by simp) hwitness
  exact absurd (congrArg CanonicalBusinessIntent.MaterialState.amountMinor hmaterial) (by decide)

end PolicyEngine.Security

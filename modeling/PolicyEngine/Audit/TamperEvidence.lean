import PolicyEngine.Audit.Sealing

namespace PolicyEngine.Audit

open PolicyEngine.Go PolicyEngine.Go.Marshal PolicyEngine.Go.Result PolicyEngine.Json
  PolicyEngine.Security

/-- The fields are the same, and so is what the context has under every key. -/
structure AuditPayload.Same (p q : AuditPayload) : Prop where
  subject : p.subject = q.subject
  action : p.action = q.action
  resource : p.resource = q.resource
  context : ∀ key, (p.context.getD ∅).lookup key = (q.context.getD ∅).lookup key

namespace AuditPayload

theorem unmarshal_marshal (payload : AuditPayload) :
    ∃ read, unmarshal payload.marshal = some read ∧ read.Same payload := by
  have hfields : Column.Within columns (Column.fields columns) := by
    simp only [Column.Within, columns, List.forall_mem_cons]
    exact ⟨rfl, rfl, rfl, rfl, List.forall_mem_nil _⟩
  refine ⟨_, Column.unmarshal_marshal hfields payload zero, rfl, rfl, rfl, ?_⟩
  intro key
  change ((if decide ((payload.context.getD ∅).keys = []) then none
    else some (Map.ofList (mapEntries (payload.context.getD ∅)))).getD ∅).lookup key = _
  split_ifs with hempty
  · have hnone : (payload.context.getD ∅).lookup key = none := by
      rw [AList.lookup_eq_none, AList.mem_keys, of_decide_eq_true hempty]
      exact List.not_mem_nil
    rw [hnone]
    rfl
  · exact lookup_mapEntries _ key

end AuditPayload

namespace AuditAAD

def zero : AuditAAD := ⟨0, "", 0, 0, "", "", "", "", "", ""⟩

theorem copyAll_columns (aad : AuditAAD) : Column.copyAll columns aad zero = aad := by
  cases aad
  simp +contextual [Column.copyAll, Column.copy, columns, Format.int64, Format.uint64, Format.num,
    Format.str, Format.optional, zero]

theorem marshal_injective : Function.Injective marshal := by
  intro _ _ h
  have hfields : Column.Within columns (Column.fields columns) := by
    simp only [Column.Within, columns, List.forall_mem_cons]
    exact ⟨rfl, rfl, rfl, rfl, rfl, rfl, rfl, rfl, rfl, rfl, List.forall_mem_nil _⟩
  have hread := congrArg (Column.unmarshal (Column.fields columns) zero) h
  simp only [marshal, Column.unmarshal_marshal hfields, copyAll_columns] at hread
  exact Option.some.inj hread

end AuditAAD

def LogEntry.protectedFields (entry : LogEntry) : AuditAAD × String × String :=
  (entry.aad, entry.encryptedDek, entry.encryptedPayload)

/-- The parts are Go slices, so `len` gives their lengths. -/
def LogEntry.Fits (entry : LogEntry) : Prop := ∀ part ∈ entry.parts, part.length < 2 ^ 63

theorem protectedFields_of_parts {a b : LogEntry} (h : a.parts = b.parts) :
    a.protectedFields = b.protectedFields := by
  simp only [LogEntry.parts, List.cons.injEq, and_true] at h
  obtain ⟨haad, hdek, hpayload⟩ := h
  have haad' : a.aad = b.aad := AuditAAD.marshal_injective haad
  rw [LogEntry.protectedFields, haad', Text.bytes_injective hdek, Text.bytes_injective hpayload]
  rfl

section Envelope

variable {cipher : AeadCipher} {prim : Primitives}

structure Sealed (cipher : AeadCipher) (prim : Primitives) (crypto : EnvelopeCrypto)
    (entry sealed : LogEntry) : Prop where
  keyId : sealed.keyId = crypto.activeKeyId
  isEncrypted : sealed.isEncrypted = true
  payloadVersion : sealed.payloadVersion = auditPayloadVersion
  tag : ∃ kek, crypto.keks.lookup sealed.keyId = some kek ∧
    sealed.integrityTag = Base64.std.encode (EnvelopeCrypto.mac prim kek sealed.parts)
  decrypts : ∀ other : EnvelopeCrypto,
    other.keks.lookup sealed.keyId = crypto.keks.lookup sealed.keyId →
    other.decryptWithAAD cipher sealed.encryptedPayload sealed.encryptedDek sealed.keyId
        (auditEntryAAD sealed) =
      .ok (AuditPayload.marshal ⟨entry.subject, entry.action, entry.resource, entry.context⟩)

theorem exists_sealAuditEntry (crypto : EnvelopeCrypto) (auditId : String) (draws : Draws)
    (entry : LogEntry) : ∃ sealed,
      sealAuditEntry cipher prim (some crypto) auditId draws entry = .ok sealed ∧
        Sealed cipher prim crypto entry sealed := by
  obtain ⟨kek, hkek, -, -⟩ := crypto.exists_active
  obtain ⟨_, _, hencrypt, hdecrypt⟩ := crypto.exists_encryptWithAAD cipher draws
    (AuditPayload.marshal ⟨entry.subject, entry.action, entry.resource, entry.context⟩)
    (auditEntryAAD { entry with
      auditId := auditId
      payloadVersion := auditPayloadVersion
      keyId := crypto.activeKeyId
      requestId := (entry.context.getD ∅).get "" "request_id"
      traceId := (entry.context.getD ∅).get "" "trace_id" })
  refine ⟨_, bind_eq_ok.mpr ⟨_, hencrypt, bind_eq_ok.mpr
    ⟨_, EnvelopeCrypto.integrityTag_eq_ok.mpr ⟨kek, hkek, rfl⟩, rfl⟩⟩, rfl, rfl, rfl, ?_, hdecrypt⟩
  exact ⟨kek, hkek, rfl⟩

variable {crypto : EnvelopeCrypto} {entry sealed : LogEntry}

theorem Sealed.verifies (h : Sealed cipher prim crypto entry sealed) {other : EnvelopeCrypto}
    (hother : other.keks.lookup sealed.keyId = crypto.keks.lookup sealed.keyId) :
    ∃ payload, verifyAndDecryptEntry cipher prim other (some sealed) = .ok payload ∧
      payload.Same ⟨entry.subject, entry.action, entry.resource, entry.context⟩ := by
  obtain ⟨kek, hkek, htag⟩ := h.tag
  obtain ⟨payload, hpayload, hsame⟩ := AuditPayload.unmarshal_marshal
    ⟨entry.subject, entry.action, entry.resource, entry.context⟩
  have hsupported : ¬ (sealed.isEncrypted = false ∨ sealed.payloadVersion ≠ auditPayloadVersion) := by
    simp [h.isEncrypted, h.payloadVersion]
  have hverified : other.verifyIntegrityTag prim sealed.integrityTag sealed.keyId sealed.parts =
      .ok () := by
    rw [EnvelopeCrypto.verifyIntegrityTag_eq_ok, hother, htag]
    exact ⟨kek, hkek, Base64.std.decode_encode _⟩
  refine ⟨payload, ?_, hsame⟩
  refine bind_unit_eq_ok.mpr ⟨rejectIf_eq_ok.mpr hsupported, bind_unit_eq_ok.mpr ⟨hverified, ?_⟩⟩
  refine bind_eq_ok.mpr ⟨_, h.decrypts other hother, ?_⟩
  rw [hpayload]

theorem Sealed.protectedFields_eq (h : Sealed cipher prim crypto entry sealed)
    (hhmac : Function.Injective2 prim.hmac) {other : EnvelopeCrypto} {changed : LogEntry}
    (hsealed : sealed.Fits) (hchanged : changed.Fits)
    (htag : changed.integrityTag = sealed.integrityTag) {payload : AuditPayload}
    (hok : verifyAndDecryptEntry cipher prim other (some changed) = .ok payload) :
    changed.protectedFields = sealed.protectedFields := by
  obtain ⟨-, hverify⟩ := bind_unit_eq_ok.mp hok
  obtain ⟨hverified, -⟩ := bind_unit_eq_ok.mp hverify
  obtain ⟨kek', -, hdecode⟩ := EnvelopeCrypto.verifyIntegrityTag_eq_ok.mp hverified
  obtain ⟨kek, -, hencode⟩ := h.tag
  rw [htag, hencode, Base64.Encoding.decode_encode] at hdecode
  have hlt {e : LogEntry} (he : e.Fits) : ∀ part ∈ e.parts, part.length < 2 ^ 64 := by
    intro part hpart
    have hint := he part hpart
    omega
  have hmac : EnvelopeCrypto.mac prim kek' changed.parts = EnvelopeCrypto.mac prim kek sealed.parts :=
    (Option.some.inj hdecode).symm
  have hthree (e : LogEntry) : e.parts.length = 3 := rfl
  have hlength : changed.parts.length = sealed.parts.length := by rw [hthree, hthree]
  have hparts : changed.parts = sealed.parts :=
    EnvelopeCrypto.mac_inj hhmac hlength (hlt hchanged) (hlt hsealed) hmac
  exact protectedFields_of_parts hparts

/-- Sealing succeeds. The record gives the payload back under every ring that
has its key, and a record that differs in a covered field fails with its tag. -/
theorem sealed_entry_tamper_evident (cipher : AeadCipher)
    (hhmac : Function.Injective2 prim.hmac) (crypto : EnvelopeCrypto) (auditId : String)
    (draws : Draws) (entry : LogEntry) :
    ∃ sealed, sealAuditEntry cipher prim (some crypto) auditId draws entry = .ok sealed ∧
      sealed.keyId = crypto.activeKeyId ∧
      (∀ other : EnvelopeCrypto,
        other.keks.lookup sealed.keyId = crypto.keks.lookup sealed.keyId →
        ∃ payload, verifyAndDecryptEntry cipher prim other (some sealed) = .ok payload ∧
          payload.Same ⟨entry.subject, entry.action, entry.resource, entry.context⟩) ∧
      ∀ (other : EnvelopeCrypto) (changed : LogEntry), sealed.Fits → changed.Fits →
        changed.integrityTag = sealed.integrityTag →
        changed.protectedFields ≠ sealed.protectedFields →
        ∃ e, verifyAndDecryptEntry cipher prim other (some changed) = .error e := by
  obtain ⟨sealed, hok, hsealed⟩ := exists_sealAuditEntry crypto auditId draws entry
  refine ⟨sealed, hok, hsealed.keyId, fun _ ↦ hsealed.verifies, ?_⟩
  intro other changed hfits hfits' htag hchanged
  cases hresult : verifyAndDecryptEntry cipher prim other (some changed) with
  | error e => exact ⟨e, rfl⟩
  | ok =>
    exact absurd (hsealed.protectedFields_eq hhmac hfits hfits' htag hresult) hchanged

end Envelope

section Sample

def pairMac : Primitives where
  sha256 := id
  hmac key message := key.flatMap (fun b ↦ [1, b]) ++ 0 :: message

theorem pairMac_injective2 : Function.Injective2 pairMac.hmac := by
  intro k k' _ _ h
  induction k generalizing k' with
  | nil =>
    cases k' with
    | nil => exact ⟨rfl, (List.cons.inj h).2⟩
    | cons => exact absurd (List.cons.inj h).1 (by decide)
  | cons _ _ ih =>
    cases k' with
    | nil => exact absurd (List.cons.inj h).1 (by decide)
    | cons =>
      obtain ⟨hb, htail⟩ := List.cons.inj (List.cons.inj h).2
      obtain ⟨hk, hm⟩ := ih htail
      exact ⟨by rw [hb, hk], hm⟩

/-- The plaintext after everything that must be known to open it. -/
def plainCipher : AeadCipher where
  sealText key nonce plaintext aad := key ++ nonce ++ aad ++ plaintext
  openText key nonce ciphertext aad :=
    if (key ++ nonce ++ aad).isPrefixOf ciphertext then
      some (ciphertext.drop (key ++ nonce ++ aad).length)
    else none
  open_eq_some_iff {key nonce ciphertext aad plaintext} := by
    rw [Option.ite_none_right_eq_some, List.isPrefixOf_iff_prefix, Option.some_inj]
    constructor
    · intro h
      obtain ⟨⟨_, rfl⟩, hdrop⟩ := h
      rw [List.drop_left] at hdrop
      rw [hdrop]
    · intro h
      rw [h]
      exact ⟨⟨plaintext, rfl⟩, List.drop_left⟩

def zeroDraws : Draws where
  dek := List.replicate 32 0
  payloadNonce := List.replicate 12 0
  dekNonce := List.replicate 12 1
  dek_length := rfl
  payloadNonce_length := rfl
  dekNonce_length := rfl

def readEntry : LogEntry where
  auditId := ""
  payloadVersion := 0
  timestamp := 1700000000
  revisionId := 7
  tenantId := "t1"
  subject := "user:bob"
  action := "READ"
  resource := "doc:1"
  decision := "ALLOW"
  matchedPolicyId := ""
  context := some (Map.ofList [("request_id", "r-1"), ("device", "ios")])
  isEncrypted := false
  keyId := ""
  requestId := ""
  traceId := ""
  encryptedDek := ""
  encryptedPayload := ""
  integrityTag := ""

/-- The key `k1` stays in the ring after `k2` has become active. -/
theorem sealed_entry_tamper_evident_rotated : ∃ crypto rotated sealed payload,
    newEnvelopeCryptoWithKeyring "k1" (Map.ofList [("k1", "0123456789abcdef0123456789abcdef")]) =
        .ok crypto ∧
      newEnvelopeCryptoWithKeyring "k2" (Map.ofList [("k1", "0123456789abcdef0123456789abcdef"),
        ("k2", "fedcba9876543210fedcba9876543210")]) = .ok rotated ∧
      sealAuditEntry plainCipher pairMac (some crypto) "a-1" zeroDraws readEntry = .ok sealed ∧
      verifyAndDecryptEntry plainCipher pairMac rotated (some sealed) = .ok payload ∧
      payload.subject = "user:bob" := by
  obtain ⟨crypto, hcrypto⟩ := exists_of_isOk (x := newEnvelopeCryptoWithKeyring "k1"
    (Map.ofList [("k1", "0123456789abcdef0123456789abcdef")])) rfl
  obtain ⟨rotated, hrotated⟩ := exists_of_isOk (x := newEnvelopeCryptoWithKeyring "k2"
    (Map.ofList [("k1", "0123456789abcdef0123456789abcdef"),
      ("k2", "fedcba9876543210fedcba9876543210")])) rfl
  obtain ⟨sealed, hsealed, hkeyId, hverify, -⟩ := sealed_entry_tamper_evident plainCipher
    pairMac_injective2 crypto "a-1" zeroDraws readEntry
  obtain ⟨hactive, hkeys⟩ := of_newEnvelopeCryptoWithKeyring hcrypto
  obtain ⟨-, hrotatedKeys⟩ := of_newEnvelopeCryptoWithKeyring hrotated
  obtain ⟨payload, hpayload, hsame⟩ := hverify rotated (by
    rw [hkeyId, hactive, hkeys, hrotatedKeys]
    rfl)
  exact ⟨crypto, rotated, sealed, payload, hcrypto, hrotated, hsealed, hpayload, hsame.subject⟩

end Sample

end PolicyEngine.Audit

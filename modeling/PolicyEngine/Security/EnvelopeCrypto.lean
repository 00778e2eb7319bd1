import PolicyEngine.Go.Base64
import PolicyEngine.Security.Delegation

namespace PolicyEngine.Security

open PolicyEngine.Go PolicyEngine.Go.Result

section Cipher

/-- AES in Galois/counter mode as an ideal authenticated cipher: what was
sealed can be opened, and nothing else opens. -/
structure AeadCipher where
  sealText : (key nonce plaintext aad : List UInt8) → List UInt8
  openText : (key nonce ciphertext aad : List UInt8) → Option (List UInt8)
  open_eq_some_iff : ∀ {key nonce ciphertext aad plaintext},
    openText key nonce ciphertext aad = some plaintext ↔
      ciphertext = sealText key nonce plaintext aad

def nonceSize : ℕ := 12

variable (cipher : AeadCipher)

def encryptAESGCM (nonce plaintext key aad : List UInt8) : Except String (List UInt8) := do
  rejectIf (key.length ∉ [16, 24, 32])
    ("crypto/aes: invalid key size " ++ Strconv.formatNat key.length)
  return nonce ++ cipher.sealText key nonce plaintext aad

def decryptAESGCM (ciphertext key aad : List UInt8) : Except String (List UInt8) := do
  rejectIf (key.length ∉ [16, 24, 32])
    ("crypto/aes: invalid key size " ++ Strconv.formatNat key.length)
  rejectIf (ciphertext.length < nonceSize) "audit ciphertext is too short"
  match cipher.openText key (ciphertext.take nonceSize) (ciphertext.drop nonceSize) aad with
  | none => .error "cipher: message authentication failed"
  | some plaintext => .ok plaintext

theorem decryptAESGCM_of_encryptAESGCM {nonce plaintext key aad ciphertext : List UInt8}
    (hnonce : nonce.length = nonceSize)
    (h : encryptAESGCM cipher nonce plaintext key aad = .ok ciphertext) :
    decryptAESGCM cipher ciphertext key aad = .ok plaintext := by
  obtain ⟨hkey, hsealed⟩ := bind_unit_eq_ok.mp h
  cases hsealed
  have hlength : ¬ (nonce ++ cipher.sealText key nonce plaintext aad).length < nonceSize := by
    rw [List.length_append]
    omega
  have hopen : cipher.openText key nonce (cipher.sealText key nonce plaintext aad) aad =
      some plaintext := cipher.open_eq_some_iff.mpr rfl
  refine bind_unit_eq_ok.mpr ⟨hkey, bind_unit_eq_ok.mpr ⟨rejectIf_eq_ok.mpr hlength, ?_⟩⟩
  rw [← hnonce, List.take_left, List.drop_left, hopen]

theorem exists_encryptAESGCM {key : List UInt8} (hkey : key.length = 32)
    (nonce plaintext aad : List UInt8) :
    ∃ ciphertext, encryptAESGCM cipher nonce plaintext key aad = .ok ciphertext := by
  have hsize : ¬ key.length ∉ [16, 24, 32] := by
    rw [hkey]
    decide
  exact ⟨_, bind_unit_eq_ok.mpr ⟨rejectIf_eq_ok.mpr hsize, rfl⟩⟩

end Cipher

/-- Keys of another size never get into a ring, nor does an active key that
the ring lacks. -/
structure EnvelopeCrypto where
  activeKeyId : String
  keks : Map (List UInt8)
  active : activeKeyId ∈ keks
  size : ∀ {keyId kek}, keks.lookup keyId = some kek → kek.length = 32

def decodedKeys (keys : Map String) : Map (List UInt8) :=
  Map.ofList (keys.keys.map fun keyId ↦ (keyId, Text.bytes (keys.get "" keyId)))

theorem lookup_decodedKeys {keys : Map String} {keyId : String} :
    (decodedKeys keys).lookup keyId = (keys.lookup keyId).map Text.bytes :=
  Map.lookup_ofList_map (.refl _) "" (fun _ ↦ Text.bytes) keyId

theorem active_decodedKeys {keys : Map String} {keyId : String} (h : keyId ∈ keys) :
    keyId ∈ decodedKeys keys := by
  rw [← AList.lookup_isSome, lookup_decodedKeys, Option.isSome_map]
  exact AList.lookup_isSome.mpr h

theorem size_decodedKeys {keys : Map String}
    (h : keys.keys.find? (fun keyId ↦
      keyId == "" || decide ((keys.get "" keyId).utf8ByteSize ≠ 32)) = none)
    {keyId : String} {kek : List UInt8} (hkek : (decodedKeys keys).lookup keyId = some kek) :
    kek.length = 32 := by
  rw [lookup_decodedKeys, Option.map_eq_some_iff] at hkek
  obtain ⟨_, hkey, rfl⟩ := hkek
  have hmem : keyId ∈ keys.keys := AList.lookup_isSome.mp (by rw [hkey]; rfl)
  have hchecks := List.find?_eq_none.mp h keyId hmem
  rw [Map.get, hkey, Option.getD_some] at hchecks
  rw [Text.length_bytes]
  by_contra hsize
  exact hchecks (by simp [hsize])

def newEnvelopeCryptoWithKeyring (activeKeyId : String) (keys : Map String) :
    Except String EnvelopeCrypto :=
  if activeKeyId = "" then .error "audit active KEK id is required"
  else if hactive : activeKeyId ∈ keys then
    -- The source ranges over a map here, so with several bad keys the one named may differ.
    match hbad : keys.keys.find? fun keyId ↦
        keyId == "" || decide ((keys.get "" keyId).utf8ByteSize ≠ 32) with
    | some keyId => .error ("audit KEK \"" ++ keyId ++ "\" must be exactly 32 bytes")
    | none => .ok ⟨activeKeyId, decodedKeys keys, active_decodedKeys hactive, size_decodedKeys hbad⟩
  else .error ("audit active KEK \"" ++ activeKeyId ++ "\" is absent from key ring")

theorem of_newEnvelopeCryptoWithKeyring {activeKeyId : String} {keys : Map String}
    {crypto : EnvelopeCrypto} (h : newEnvelopeCryptoWithKeyring activeKeyId keys = .ok crypto) :
    crypto.activeKeyId = activeKeyId ∧
      ∀ keyId, crypto.keks.lookup keyId = (keys.lookup keyId).map Text.bytes := by
  unfold newEnvelopeCryptoWithKeyring at h
  split_ifs at h
  split at h
  · cases h
  · cases h
    exact ⟨rfl, fun _ ↦ lookup_decodedKeys⟩

structure Draws where
  dek : List UInt8
  payloadNonce : List UInt8
  dekNonce : List UInt8
  dek_length : dek.length = 32
  payloadNonce_length : payloadNonce.length = nonceSize
  dekNonce_length : dekNonce.length = nonceSize

namespace EnvelopeCrypto

variable (cipher : AeadCipher) (prim : Primitives) (crypto : EnvelopeCrypto)

def dekAAD (keyId : String) : List UInt8 := Text.bytes ("audit-dek|v1|" ++ keyId)

def encryptWithAAD (draws : Draws) (plaintext aad : List UInt8) :
    Except String (String × String × String) := do
  let ciphertext ← (encryptAESGCM cipher draws.payloadNonce plaintext draws.dek aad).mapError
    ("encrypt audit payload: " ++ ·)
  let encryptedDek ← (encryptAESGCM cipher draws.dekNonce draws.dek
    (crypto.keks.get [] crypto.activeKeyId) (dekAAD crypto.activeKeyId)).mapError
    ("wrap audit DEK: " ++ ·)
  return (Base64.std.encode ciphertext, Base64.std.encode encryptedDek, crypto.activeKeyId)

def decryptWithAAD (ciphertextText encryptedDekText keyId : String) (aad : List UInt8) :
    Except String (List UInt8) :=
  match crypto.keks.lookup keyId with
  | none => .error ("unknown audit KEK id \"" ++ keyId ++ "\"")
  | some kek =>
    match Base64.std.decode ciphertextText, Base64.std.decode encryptedDekText with
    | none, _ => .error "decode audit ciphertext: illegal base64 data"
    | _, none => .error "decode encrypted audit DEK: illegal base64 data"
    | some ciphertext, some encryptedDek => do
      let dek ← (decryptAESGCM cipher encryptedDek kek (dekAAD keyId)).mapError
        ("unwrap audit DEK: " ++ ·)
      (decryptAESGCM cipher ciphertext dek aad).mapError ("decrypt audit payload: " ++ ·)

def framed (part : List UInt8) : List UInt8 := Encoding.beBytes 8 part.length ++ part

def mac (kek : List UInt8) (parts : List (List UInt8)) : List UInt8 :=
  prim.hmac (prim.hmac kek (Text.bytes "audit-integrity-key|v1")) (parts.flatMap framed)

def integrityTag (keyId : String) (parts : List (List UInt8)) : Except String String :=
  match crypto.keks.lookup keyId with
  | none => .error ("unknown audit KEK id \"" ++ keyId ++ "\"")
  | some kek => .ok (Base64.std.encode (mac prim kek parts))

def verifyIntegrityTag (tag keyId : String) (parts : List (List UInt8)) : Except String Unit := do
  let want ← crypto.integrityTag prim keyId parts
  match Base64.std.decode tag with
  | none => .error "invalid audit integrity tag encoding"
  | some provided =>
    rejectIf (some provided ≠ Base64.std.decode want) "audit integrity verification failed"

theorem exists_active : ∃ kek, crypto.keks.lookup crypto.activeKeyId = some kek ∧
    crypto.keks.get [] crypto.activeKeyId = kek ∧ kek.length = 32 := by
  obtain ⟨kek, hkek⟩ := Option.isSome_iff_exists.mp (AList.lookup_isSome.mpr crypto.active)
  exact ⟨kek, hkek, by rw [Map.get, hkek, Option.getD_some], crypto.size hkek⟩

theorem exists_encryptWithAAD (draws : Draws) (plaintext aad : List UInt8) :
    ∃ ciphertext encryptedDek,
      crypto.encryptWithAAD cipher draws plaintext aad =
        .ok (ciphertext, encryptedDek, crypto.activeKeyId) ∧
      ∀ other : EnvelopeCrypto,
        other.keks.lookup crypto.activeKeyId = crypto.keks.lookup crypto.activeKeyId →
        other.decryptWithAAD cipher ciphertext encryptedDek crypto.activeKeyId aad =
          .ok plaintext := by
  obtain ⟨_, hkek, hget, hsize⟩ := crypto.exists_active
  obtain ⟨ciphertext, hciphertext⟩ :=
    exists_encryptAESGCM cipher draws.dek_length draws.payloadNonce plaintext aad
  obtain ⟨encryptedDek, hdek⟩ :=
    exists_encryptAESGCM cipher hsize draws.dekNonce draws.dek (dekAAD crypto.activeKeyId)
  refine ⟨Base64.std.encode ciphertext, Base64.std.encode encryptedDek, ?_, ?_⟩
  · rw [encryptWithAAD, hciphertext, hget, hdek]
    rfl
  · intro _ hother
    have hunwrap := decryptAESGCM_of_encryptAESGCM cipher draws.dekNonce_length hdek
    have hopen := decryptAESGCM_of_encryptAESGCM cipher draws.payloadNonce_length hciphertext
    rw [decryptWithAAD, hother, hkek]
    simp only [Base64.Encoding.decode_encode, hunwrap]
    change (decryptAESGCM cipher ciphertext draws.dek aad).mapError _ = _
    rw [hopen]
    rfl

variable {prim crypto}

theorem integrityTag_eq_ok {keyId tag : String} {parts : List (List UInt8)} :
    crypto.integrityTag prim keyId parts = .ok tag ↔
      ∃ kek, crypto.keks.lookup keyId = some kek ∧ tag = Base64.std.encode (mac prim kek parts) := by
  unfold integrityTag
  cases crypto.keks.lookup keyId with
  | none => simp
  | some => simp [eq_comm]

theorem verifyIntegrityTag_eq_ok {tag keyId : String} {parts : List (List UInt8)} :
    crypto.verifyIntegrityTag prim tag keyId parts = .ok () ↔
      ∃ kek, crypto.keks.lookup keyId = some kek ∧
        Base64.std.decode tag = some (mac prim kek parts) := by
  simp only [verifyIntegrityTag, bind_eq_ok, integrityTag_eq_ok]
  constructor
  · intro hverified
    obtain ⟨_, ⟨kek, hkek, rfl⟩, h⟩ := hverified
    refine ⟨kek, hkek, ?_⟩
    rw [Base64.Encoding.decode_encode] at h
    cases hdecode : Base64.std.decode tag with
    | none =>
      rw [hdecode] at h
      cases h
    | some =>
      rw [hdecode] at h
      exact not_not.mp (rejectIf_eq_ok.mp h)
  · intro htag
    obtain ⟨kek, hkek, hdecode⟩ := htag
    refine ⟨_, ⟨kek, hkek, rfl⟩, ?_⟩
    rw [hdecode, Base64.Encoding.decode_encode]
    exact rejectIf_eq_ok.mpr (not_not.mpr rfl)

theorem determines_framed : Code.Determines (fun part ↦ part.length < 2 ^ 64) framed Eq := by
  intro _ _ _ _ _ _ heq
  unfold framed at heq
  rw [List.append_assoc, List.append_assoc] at heq
  obtain ⟨hlen, hrest⟩ := List.append_inj heq (by simp)
  exact List.append_inj hrest (Encoding.beBytes_inj (by omega) (by omega) hlen)

theorem mac_inj (hhmac : Function.Injective2 prim.hmac) {kek kek' : List UInt8}
    {parts parts' : List (List UInt8)} (hlength : parts.length = parts'.length)
    (hparts : ∀ part ∈ parts, part.length < 2 ^ 64)
    (hparts' : ∀ part ∈ parts', part.length < 2 ^ 64)
    (h : mac prim kek parts = mac prim kek' parts') : parts = parts' := by
  obtain ⟨-, hword⟩ := hhmac h
  exact (determines_framed.flatMap_inj hlength hparts hparts' (congrArg (· ++ []) hword)).1

end EnvelopeCrypto

end PolicyEngine.Security

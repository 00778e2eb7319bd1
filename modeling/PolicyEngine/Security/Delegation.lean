import PolicyEngine.Crypto.Sha256
import PolicyEngine.Go.Map
import PolicyEngine.Go.Result
import PolicyEngine.Go.Time

namespace PolicyEngine.Security

open PolicyEngine.Go PolicyEngine.Go.Result

/-- The two primitives the signatures rest on. Nothing is assumed about them
unless a theorem says so. -/
structure Primitives where
  sha256 : List UInt8 → List UInt8
  hmac : List UInt8 → List UInt8 → List UInt8

def Primitives.standard : Primitives := ⟨Crypto.Sha256.sha256, Crypto.Sha256.hmac⟩

structure RevocationEntry where
  revokedAt : Int64
  expiresAt : Int64
deriving DecidableEq

structure RevocationRecord where
  tenantId : String
  grantId : String
  revokedBy : String := ""
  revokedAt : ℤ
  expiresAt : ℤ

structure DelegationManager where
  activeKeyId : String
  signingKeys : Map (List UInt8)
  revocationTTL : ℤ
  revocationMap : String × String → Option RevocationEntry
  revocationReady : Bool

def maxDelegationTTL : ℤ := 24 * 3600 * Time.second

def delegationClockSkew : ℤ := 30 * Time.second

def newDelegationManagerWithSecret (secret : String) : DelegationManager where
  activeKeyId := "legacy"
  signingKeys := Map.ofList [("legacy", Text.bytes secret)]
  revocationTTL := maxDelegationTTL
  revocationMap := fun _ ↦ none
  revocationReady := true

def validDelegationKeyID (keyId : String) : Bool :=
  0 < keyId.utf8ByteSize && keyId.utf8ByteSize ≤ 64 &&
    keyId.toList.all fun c ↦ c.isAlphanum || c == '-' || c == '_'

namespace DelegationManager

def cleanupExpired (m : DelegationManager) (nowUnixNano : Int64) : DelegationManager :=
  { m with
    revocationMap := fun key ↦ (m.revocationMap key).filter fun r ↦ !(r.expiresAt ≤ nowUnixNano) }

/-- The instant of the zero `time.Time`. -/
def zeroTime : ℤ := -62135596800 * Time.second

def mergeRevocation (current incoming : RevocationEntry) : RevocationEntry where
  revokedAt := if incoming.revokedAt < current.revokedAt then incoming.revokedAt
    else current.revokedAt
  expiresAt := if incoming.expiresAt > current.expiresAt then incoming.expiresAt
    else current.expiresAt

/-- The compare-and-swap loop of the source retries until this merge is what
it stores. -/
def applyRevocation (m : DelegationManager) (now : ℤ) (record : RevocationRecord) :
    Bool × DelegationManager :=
  if record.tenantId = "" ∨ record.grantId = "" ∨ record.revokedAt = zeroTime ∨
      ¬ now < record.expiresAt then
    (false, m)
  else
    let key := (record.tenantId, record.grantId)
    let incoming : RevocationEntry :=
      ⟨Int64.ofInt (Time.unix record.revokedAt), Time.unixNano record.expiresAt⟩
    let entry :=
      match m.revocationMap key with
      | none => incoming
      | some current => mergeRevocation current incoming
    (true, { m with revocationMap := Function.update m.revocationMap key (some entry) })

def revoke (m : DelegationManager) (now : ℤ) (tenantId grantId : String) : DelegationManager :=
  ((m.cleanupExpired (Time.unixNano now)).applyRevocation now
    { tenantId := tenantId, grantId := grantId, revokedAt := now,
      expiresAt := now + m.revocationTTL }).2

def isRevoked (m : DelegationManager) (now : ℤ) (tenantId grantId : String) :
    Bool × DelegationManager :=
  if tenantId = "" ∨ grantId = "" then (false, m)
  else
    match m.revocationMap (tenantId, grantId) with
    | none => (false, m)
    | some record =>
      if Time.unixNano now ≥ record.expiresAt then
        (false, { m with
          revocationMap := Function.update m.revocationMap (tenantId, grantId) none })
      else (true, m)

end DelegationManager

theorem toInt_sub_of_ordered {issued valid : Int64} (hissued : 0 < issued.toInt)
    (huntil : issued.toInt < valid.toInt) :
    (valid - issued).toInt = valid.toInt - issued.toInt := by
  have hhi := Int64.toInt_lt valid
  rw [Int64.toInt_sub]
  exact Int.bmod_eq_of_le (by omega) (by omega)

structure DelegationProofInput where
  tenantId : String
  grantId : String
  delegator : String
  agent : String
  action : String
  resource : String
  amount : String
  delegationChain : String
  creatorId : String
  toolContext : String
  executionMode : String
  nonce : String
  issuedAt : Int64
  validUntil : Int64
deriving DecidableEq

namespace DelegationProofInput

variable (input : DelegationProofInput)

def required : List (String × String) :=
  [("tenant_id", input.tenantId), ("grant_id", input.grantId), ("delegator", input.delegator),
    ("agent", input.agent), ("action", input.action), ("resource", input.resource),
    ("delegation_chain", input.delegationChain), ("nonce", input.nonce)]

def validateStructure : Except String Unit :=
  -- The source ranges over a map here, so with several blank fields the one named may differ.
  match input.required.find? fun f ↦ Text.trimSpace f.2 = "" with
  | some (field, _) => .error ("missing delegation field " ++ field)
  | none =>
    if input.issuedAt ≤ 0 ∨ input.validUntil ≤ 0 ∨ input.validUntil ≤ input.issuedAt then
      .error "invalid delegation validity window"
    else if (input.validUntil - input.issuedAt) * Int64.ofInt Time.second >
        Int64.ofInt maxDelegationTTL then
      .error "delegation TTL exceeds 24h0m0s"
    else if Text.split input.delegationChain ',' ≠ [input.delegator, input.agent] then
      .error "delegation chain must bind delegator directly to agent"
    else .ok ()

theorem of_validateStructure {input : DelegationProofInput}
    (h : input.validateStructure = .ok ()) :
    (∀ f ∈ input.required, f.2 ≠ "") ∧ 0 < input.issuedAt.toInt := by
  unfold validateStructure at h
  split at h
  · exact nomatch h
  · rename_i hnone
    split_ifs at h with hwindow
    refine ⟨fun f hf hempty ↦ ?_, ?_⟩
    · have hblank := List.find?_eq_none.mp hnone f hf
      rw [hempty] at hblank
      exact hblank (by decide)
    · simp only [not_or, Int64.not_le, Int64.lt_iff_toInt_lt] at hwindow
      exact hwindow.1

def validateAt (now : ℤ) : Except String Unit := do
  input.validateStructure
  rejectIf (input.issuedAt.toInt > Time.unix (now + delegationClockSkew))
    "delegation proof is not active yet"
  rejectIf (Time.unix now > input.validUntil.toInt) "delegation proof has expired"

def canonicalBytes (keyId : String) : List UInt8 :=
  Text.bytes "PDP-DELEGATION-PROOF" ++
    ["v1", keyId, input.tenantId, input.grantId, input.delegator, input.agent, input.action,
      input.resource, input.amount, input.delegationChain, input.creatorId, input.toolContext,
      input.executionMode, input.nonce].flatMap
        (fun field ↦ Encoding.lengthPrefixed (Text.bytes field)) ++
    Encoding.beInt64 input.issuedAt ++ Encoding.beInt64 input.validUntil

end DelegationProofInput

namespace DelegationManager

variable (prim : Primitives)

def generateProof (m : DelegationManager) (input : DelegationProofInput) : Except String String :=
  if !validDelegationKeyID m.activeKeyId then .error "delegation signer is not configured"
  else
    let secret := m.signingKeys.get [] m.activeKeyId
    if secret = [] then .error "active delegation signing key is not configured"
    else do
      input.validateStructure
      .ok ("v1." ++ m.activeKeyId ++ "." ++
        Encoding.hexEncode (prim.hmac secret (input.canonicalBytes m.activeKeyId)))

def verifyProof (m : DelegationManager) (now : ℤ) (input : DelegationProofInput)
    (proof : String) : Except String Unit :=
  if m.signingKeys.entries = [] then .error "delegation verifier is not configured"
  else do
    input.validateAt now
    match Text.split proof '.' with
    | [version, keyId, signature] =>
      if version ≠ "v1" ∨ validDelegationKeyID keyId = false then
        .error "unsupported delegation proof version"
      else
        match m.signingKeys.lookup keyId with
        | none | some [] => .error "unknown delegation signing key"
        | some secret =>
          match Encoding.hexDecode signature with
          | none => .error "malformed delegation signature"
          | some provided =>
            if prim.hmac secret (input.canonicalBytes keyId) = provided then .ok ()
            else .error "delegation signature mismatch"
    | _ => .error "unsupported delegation proof version"

end DelegationManager

end PolicyEngine.Security

import PolicyEngine.Security.Intent

namespace PolicyEngine.Security

open PolicyEngine.Go PolicyEngine.Go.Result

inductive ProofInput
  | v1 (input : DelegationProofInput)
  | v2 (input : DelegationProofV2Input)

namespace ProofInput

def tenantId : ProofInput → String
  | v1 input => input.tenantId
  | v2 input => input.intent.tenantId

def grantId : ProofInput → String
  | v1 input => input.grantId
  | v2 input => Strconv.formatInt input.intent.delegationGrantId

def issuedAt : ProofInput → Int64
  | v1 input => input.issuedAt
  | v2 input => input.issuedAt

def validUntil : ProofInput → Int64
  | v1 input => input.validUntil
  | v2 input => input.validUntil

variable (prim : Primitives)

def validateStructure : ProofInput → Except String Unit
  | v1 input => input.validateStructure
  | v2 input => input.validateStructure prim

def validateAt (now : ℤ) : ProofInput → Except String Unit
  | v1 input => input.validateAt now
  | v2 input => input.validateAt prim now

variable {prim} {p : ProofInput}

theorem validateAt_eq_ok_iff {now : ℤ} :
    p.validateAt prim now = .ok () ↔ p.validateStructure prim = .ok () ∧
      p.issuedAt.toInt ≤ Time.unix (now + delegationClockSkew) ∧
      Time.unix now ≤ p.validUntil.toInt := by
  cases p <;>
    simp only [validateAt, DelegationProofInput.validateAt, DelegationProofV2Input.validateAt,
      validateStructure, issuedAt, validUntil, bind_unit_eq_ok, rejectIf_eq_ok, gt_iff_lt, not_lt]

theorem of_validateStructure (h : p.validateStructure prim = .ok ()) :
    p.tenantId ≠ "" ∧ p.grantId ≠ "" ∧ 0 < p.issuedAt.toInt := by
  cases p with
  | v1 input =>
    obtain ⟨hrequired, hissued⟩ := DelegationProofInput.of_validateStructure h
    exact ⟨hrequired ("tenant_id", input.tenantId) (by simp [DelegationProofInput.required]),
      hrequired ("grant_id", input.grantId) (by simp [DelegationProofInput.required]), hissued⟩
  | v2 =>
    obtain ⟨hvalid, hissued⟩ := DelegationProofV2Input.of_validateStructure h
    exact ⟨CanonicalBusinessIntent.tenantId_of_validateFields
      (CanonicalBusinessIntent.validateFields_of_validate hvalid),
      Strconv.formatInt_ne_empty _, hissued⟩

end ProofInput

namespace DelegationManager

variable (m : DelegationManager) (now : ℤ) (tenantId grantId : String)

def revokedUntil : Int64 :=
  let incoming := Time.unixNano (now + m.revocationTTL)
  match m.revocationMap (tenantId, grantId) with
  | some current =>
    if current.expiresAt ≤ Time.unixNano now ∨ current.expiresAt < incoming then incoming
    else current.expiresAt
  | none => incoming

variable {m now tenantId grantId}

theorem revocationMap_revoke (htenant : tenantId ≠ "") (hgrant : grantId ≠ "")
    (hnow : now ≠ zeroTime) (httl : 0 < m.revocationTTL) :
    ∃ entry, (m.revoke now tenantId grantId).revocationMap (tenantId, grantId) = some entry ∧
      entry.expiresAt = m.revokedUntil now tenantId grantId := by
  have happly : ¬ (tenantId = "" ∨ grantId = "" ∨ now = zeroTime ∨
      ¬ now < now + m.revocationTTL) := by
    simp only [not_or, not_not]
    exact ⟨htenant, hgrant, hnow, by omega⟩
  simp only [revoke, applyRevocation, if_neg happly, Function.update_self, cleanupExpired,
    revokedUntil]
  cases m.revocationMap (tenantId, grantId) with
  | none => exact ⟨_, rfl, rfl⟩
  | some current =>
    refine ⟨_, rfl, ?_⟩
    by_cases hexpired : current.expiresAt ≤ Time.unixNano now
    · simp only [Option.filter, hexpired, decide_true, Bool.not_true, Bool.false_eq_true, if_false,
        true_or, if_true]
    · simp only [Option.filter, hexpired, decide_false, Bool.not_false, if_true, false_or,
        mergeRevocation, gt_iff_lt]

theorem isRevoked_revoke (htenant : tenantId ≠ "") (hgrant : grantId ≠ "") (hnow : now ≠ zeroTime)
    (httl : 0 < m.revocationTTL) (later : ℤ) :
    ((m.revoke now tenantId grantId).isRevoked later tenantId grantId).1 = true ↔
      ¬ m.revokedUntil now tenantId grantId ≤ Time.unixNano later := by
  obtain ⟨_, hentry, hexpires⟩ := revocationMap_revoke htenant hgrant hnow httl
  rw [isRevoked, if_neg (by simp [htenant, hgrant]), hentry]
  dsimp only
  rw [hexpires]
  split_ifs with h <;> simpa using h

end DelegationManager

variable {prim : Primitives} {m : DelegationManager} {p : ProofInput} {issued now : ℤ}

/-- A proof that was valid when its grant was revoked stays rejected from then
on exactly when it expires before the revocation does. -/
theorem revocation_outlives_proof_iff (httl : 0 < m.revocationTTL) (hle : issued ≤ now)
    (hvalid : p.validateAt prim issued = .ok ()) :
    (∀ later, now < later → p.validateAt prim later ≠ .ok () ∨
        ((m.revoke now p.tenantId p.grantId).isRevoked later p.tenantId p.grantId).1 = true) ↔
      p.validUntil.toInt <
        Time.unix (Time.firstReach (now + 1) (m.revokedUntil now p.tenantId p.grantId)) := by
  obtain ⟨hstructure, hactive, -⟩ := ProofInput.validateAt_eq_ok_iff.mp hvalid
  obtain ⟨htenant, hgrant, _⟩ := ProofInput.of_validateStructure hstructure
  have hnow : now ≠ DelegationManager.zeroTime := by
    rintro rfl
    have hearly := hactive.trans (Time.unix_mono (Int.add_le_add_right hle delegationClockSkew))
    have hzero : Time.unix (DelegationManager.zeroTime + delegationClockSkew) ≤ 0 := by decide
    omega
  have hrejected (later : ℤ) (hlater : now < later) :
      p.validateAt prim later ≠ .ok () ↔ p.validUntil.toInt < Time.unix later := by
    have hactive' := hactive.trans
      (Time.unix_mono (show issued + delegationClockSkew ≤ later + delegationClockSkew by omega))
    rw [Ne, ProofInput.validateAt_eq_ok_iff]
    simp [hstructure, hactive']
  have hrevoked := DelegationManager.isRevoked_revoke htenant hgrant hnow httl
  generalize m.revokedUntil now p.tenantId p.grantId = expires at hrevoked ⊢
  constructor
  · intro h
    have hfirst := Time.le_firstReach (now + 1) expires
    have hlater : now < Time.firstReach (now + 1) expires := by omega
    rcases h _ hlater with hfail | hrev
    · exact (hrejected _ hlater).mp hfail
    · exact absurd (Time.le_unixNano_firstReach (now + 1) expires) ((hrevoked _).mp hrev)
  · intro h later hlater
    by_cases hreach : expires ≤ Time.unixNano later
    · have hge : Time.firstReach (now + 1) expires ≤ later := Time.firstReach_le hlater hreach
      exact .inl ((hrejected later hlater).mpr (h.trans_le (Time.unix_mono hge)))
    · exact .inr ((hrevoked later).mpr hreach)

def skewedProof : ProofInput :=
  .v1 ⟨"t1", "9", "user:alice", "agent:bot", "action:READ", "invoice:7", "", "user:alice,agent:bot",
    "", "", "", "n1", 1800000030, 1800086430⟩

theorem revocation_outlives_proof_iff_skewed :
    (∀ later, 1800000000 * Time.second < later →
        skewedProof.validateAt .standard later ≠ .ok () ∨
        (((newDelegationManagerWithSecret "secret").revoke (1800000000 * Time.second)
          skewedProof.tenantId skewedProof.grantId).isRevoked later
            skewedProof.tenantId skewedProof.grantId).1 = true) ↔
      skewedProof.validUntil.toInt <
        Time.unix (Time.firstReach (1800000000 * Time.second + 1)
          ((newDelegationManagerWithSecret "secret").revokedUntil (1800000000 * Time.second)
            skewedProof.tenantId skewedProof.grantId)) :=
  revocation_outlives_proof_iff (by decide) (le_refl (1800000000 * Time.second)) (by decide)

theorem proof_outlives_revocation :
    skewedProof.validateAt .standard (1800000000 * Time.second) = .ok () ∧
      skewedProof.validateAt .standard (1800086400 * Time.second) = .ok () ∧
      (((newDelegationManagerWithSecret "secret").revoke (1800000000 * Time.second) "t1" "9").isRevoked
        (1800086400 * Time.second) "t1" "9").1 = false := by
  decide

end PolicyEngine.Security

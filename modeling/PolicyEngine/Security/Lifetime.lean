import PolicyEngine.Security.Revocation

namespace PolicyEngine.Security.ProofInput

open PolicyEngine.Go

variable {prim : Primitives} {p : ProofInput}

def lifetime (p : ProofInput) : ℤ := p.validUntil.toInt - p.issuedAt.toInt

/-- A V1 tuple's lifetime is turned into nanoseconds before it is compared, and
does not fit them. -/
def Overflows : ProofInput → Prop
  | v1 input => 2 ^ 63 ≤ (v1 input).lifetime * Time.second
  | v2 _ => False

theorem lifetime_pos (h : p.validateStructure prim = .ok ()) : 0 < p.lifetime := by
  cases p with
  | v1 =>
    simp only [validateStructure, DelegationProofInput.validateStructure] at h
    split at h
    · cases h
    · split_ifs at h with hwindow
      simp only [not_or, Int64.not_le, Int64.lt_iff_toInt_lt] at hwindow
      exact Int.sub_pos_of_lt hwindow.2.2
  | v2 =>
    simp only [validateStructure, DelegationProofV2Input.validateStructure] at h
    split at h
    · cases h
    · split_ifs at h with hwindow
      simp only [not_or, Int64.not_le, Int64.lt_iff_toInt_lt] at hwindow
      exact Int.sub_pos_of_lt hwindow.2

theorem lifetime_le_iff (h : p.validateStructure prim = .ok ()) :
    p.lifetime ≤ 86400 ↔ ¬ p.Overflows := by
  have hpos := lifetime_pos h
  have hissued := (of_validateStructure h).2.2
  have hsub := toInt_sub_of_ordered hissued (Int.lt_of_sub_pos hpos)
  cases p with
  | v1 =>
    simp only [validateStructure, DelegationProofInput.validateStructure] at h
    split at h
    · cases h
    · split_ifs at h with hwindow hlong
      have hsecond : (Int64.ofInt Time.second).toInt = 1000000000 := by decide
      have hmax : (Int64.ofInt maxDelegationTTL).toInt = 86400000000000 := by decide
      simp only [issuedAt, validUntil] at hsub
      rw [gt_iff_lt, Int64.not_lt, Int64.le_iff_toInt_le, Int64.toInt_mul, hsub, hsecond,
        hmax] at hlong
      simp only [Overflows, lifetime, issuedAt, validUntil, Time.second] at hpos ⊢
      constructor
      · intro _
        omega
      · intro _
        rw [Int.bmod_eq_of_le (by omega) (by omega)] at hlong
        omega
  | v2 =>
    simp only [validateStructure, DelegationProofV2Input.validateStructure] at h
    split at h
    · cases h
    · split_ifs at h with hwindow hlong
      have hmax : (Int64.ofInt (maxDelegationTTL / Time.second)).toInt = 86400 := by decide
      simp only [issuedAt, validUntil] at hsub
      rw [gt_iff_lt, Int64.not_lt, Int64.le_iff_toInt_le, hsub, hmax] at hlong
      simp only [lifetime, issuedAt, validUntil, hlong, Overflows, not_false_eq_true]

theorem apart_lt {t t' : ℤ} (ht : p.validateAt prim t = .ok ()) (ht' : p.validateAt prim t' = .ok ()) :
    t' - t < (p.lifetime + 31) * Time.second := by
  obtain ⟨-, hactive, -⟩ := validateAt_eq_ok_iff.mp ht
  obtain ⟨-, -, hexpires⟩ := validateAt_eq_ok_iff.mp ht'
  simp only [Time.unix, delegationClockSkew, Time.second] at hactive hexpires
  simp only [lifetime, Time.second]
  omega

/-- An accepted proof lives for a day at most, and is valid at no two instants
further apart than that with the skew and the second it ends in, exactly when
its lifetime in nanoseconds does not wrap. A V2 input's never does. -/
theorem lifetime_bounded_iff (h : p.validateStructure prim = .ok ()) :
    (0 < p.lifetime ∧ p.lifetime ≤ 86400 ∧
        ∀ t t', p.validateAt prim t = .ok () → p.validateAt prim t' = .ok () →
          t' - t ≤ (24 * 3600 + 31) * Time.second) ↔
      ¬ p.Overflows := by
  rw [← lifetime_le_iff h]
  constructor
  · intro hbounded
    exact hbounded.2.1
  · intro hle
    refine ⟨lifetime_pos h, hle, ?_⟩
    intro _ _ ht ht'
    have hapart := apart_lt ht ht'
    simp only [Time.second] at hapart ⊢
    omega

theorem lifetime_bounded_iff_skewed :
    skewedProof.validateStructure .standard = .ok () ∧
    ((0 < skewedProof.lifetime ∧ skewedProof.lifetime ≤ 86400 ∧
        ∀ t t', skewedProof.validateAt .standard t = .ok () →
          skewedProof.validateAt .standard t' = .ok () → t' - t ≤ (24 * 3600 + 31) * Time.second) ↔
      ¬ skewedProof.Overflows) :=
  ⟨by decide, lifetime_bounded_iff (by decide)⟩

def wrappedProof : ProofInput :=
  .v1 ⟨"t1", "9", "user:alice", "agent:bot", "action:READ", "invoice:7", "", "user:alice,agent:bot",
    "", "", "", "n1", 1800000000, 11023372037⟩

theorem wrapped_lifetime_accepted :
    wrappedProof.validateStructure .standard = .ok () ∧ wrappedProof.lifetime = 9223372037 ∧
      wrappedProof.validateAt .standard (1800000000 * Time.second) = .ok () ∧
      wrappedProof.validateAt .standard (11023372037 * Time.second) = .ok () := by
  decide

end PolicyEngine.Security.ProofInput

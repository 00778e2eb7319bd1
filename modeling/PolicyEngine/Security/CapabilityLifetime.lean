import PolicyEngine.Security.Signatures

namespace PolicyEngine.Security

open PolicyEngine.Go PolicyEngine.Go.Result

section Ring

variable {activeKeyId : String} {keys : Map String} {ttl : ℤ} {m : ApprovalCapabilityManager}

theorem of_newApprovalCapabilityManager
    (h : newApprovalCapabilityManagerWithKeyring activeKeyId keys ttl = .ok m) :
    approvalKeyIDPattern activeKeyId = true ∧ (0 < ttl ∧ ttl ≤ maxApprovalCapabilityTTL) ∧
      activeKeyId ∈ keys ∧ m.activeKeyId = activeKeyId ∧ m.ttl = ttl ∧
      ∀ keyId, m.keys.lookup keyId = (keys.lookup keyId).map Text.bytes := by
  unfold newApprovalCapabilityManagerWithKeyring at h
  split_ifs at h with hkey httl hactive
  · rw [not_or, not_le, not_lt] at httl
    split at h
    · cases h
    · cases h
      exact ⟨Bool.not_eq_false _ ▸ hkey, httl, hactive, rfl, rfl,
        Map.lookup_ofList_map (List.Perm.refl _) "" fun _ ↦ Text.bytes⟩
  · split at h
    · cases h
    · cases h

end Ring

section Expiry

variable {prim : Primitives} {m : ApprovalCapabilityManager} {now : ℤ}
  {random : Except String (List UInt8)} {request issued : ApprovalCapability} {validUntil : Int64}
  {envelope : ApprovalCapabilityEnvelope}

theorem window_of_canonicalBytes {capability : ApprovalCapability} {bytes : List UInt8}
    (h : capability.canonicalBytes = .ok bytes) :
    (0 < capability.issuedAt.toInt ∧ capability.issuedAt.toInt < capability.expiresAt.toInt ∧
      capability.expiresAt.toInt - capability.issuedAt.toInt ≤ 24 * 3600) ∧
    capability.approverSubject ≠ capability.creatorSubject ∧
    capability.approverSubject ≠ capability.delegatorSubject ∧
    capability.approverSubject ≠ capability.agentSubject := by
  obtain ⟨-, hvalidate⟩ := ApprovalCapability.of_canonicalBytes h
  simp only [ApprovalCapability.validate, bind_unit_eq_ok, bind_eq_ok (α := List UInt8),
    rejectIf_eq_ok, not_or, Int64.not_le, Int64.not_lt, gt_iff_lt] at hvalidate
  obtain ⟨-, -, -, -, _, -, -, -, -, -, -, ⟨hdelegator, hcreator, hagent⟩,
    ⟨hissued, hexpires, hspan⟩, -, -⟩ := hvalidate
  rw [Int64.lt_iff_toInt_lt] at hissued hexpires
  have hday : (Int64.ofInt (maxApprovalCapabilityTTL / Time.second)).toInt = 24 * 3600 := by decide
  rw [Int64.le_iff_toInt_le, toInt_sub_of_ordered hissued hexpires, hday] at hspan
  exact ⟨⟨hissued, hexpires, hspan⟩, hcreator, hdelegator, hagent⟩

theorem toInt_expiresAt_of_issue (httl : 0 < m.ttl ∧ m.ttl ≤ maxApprovalCapabilityTTL)
    (hnow : (Int64.ofInt (Time.unix now)).toInt = Time.unix now)
    (h : m.issue prim now random request validUntil = .ok (issued, envelope)) :
    issued.expiresAt.toInt = min (Time.unix now + m.ttl / Time.second) validUntil.toInt := by
  obtain ⟨⟨_, hpayload, -⟩, hat, hlt, -, hexpires⟩ := ApprovalCapabilityManager.of_issue h
  obtain ⟨_, -⟩ := (window_of_canonicalBytes hpayload).1
  have hissued : issued.issuedAt.toInt = Time.unix now := by rw [hat, hnow]
  have hseconds : 0 ≤ m.ttl / Time.second ∧ m.ttl / Time.second ≤ 86400 := by
    simp only [maxApprovalCapabilityTTL, Time.second] at httl ⊢
    omega
  have hofInt : (Int64.ofInt (m.ttl / Time.second)).toInt = m.ttl / Time.second :=
    Int64.toInt_ofInt_of_le (by omega) (by omega)
  have hsum := Int64.toInt_add issued.issuedAt (Int64.ofInt (m.ttl / Time.second))
  rw [hofInt, hissued] at hsum
  rw [Int64.lt_iff_toInt_lt, hissued] at hlt
  have hmax := Int64.toInt_lt issued.issuedAt
  generalize issued.issuedAt + Int64.ofInt (m.ttl / Time.second) = sum at hexpires hsum
  have hle : issued.expiresAt.toInt ≤ sum.toInt ∧
      issued.expiresAt.toInt = min sum.toInt validUntil.toInt := by
    rw [hexpires]
    split_ifs with hearlier
    · rw [Int64.lt_iff_toInt_lt] at hearlier
      omega
    · rw [Int64.lt_iff_toInt_lt] at hearlier
      omega
  rw [Int.bmod_def] at hsum
  split_ifs at hsum with hwrap
  · omega
  · omega

variable {activeKeyId activeKeyId' : String} {keys keys' : Map String} {ttl ttl' : ℤ}
  {m' : ApprovalCapabilityManager}

theorem verify_issued_iff (hmac : ∀ key word, (prim.hmac key word).length = 32)
    (hm : newApprovalCapabilityManagerWithKeyring activeKeyId keys ttl = .ok m)
    (hm' : newApprovalCapabilityManagerWithKeyring activeKeyId' keys' ttl' = .ok m')
    (hring : keys'.lookup activeKeyId = keys.lookup activeKeyId)
    (hnow : (Int64.ofInt (Time.unix now)).toInt = Time.unix now)
    (h : m.issue prim now random request validUntil = .ok (issued, envelope)) {later : ℤ}
    (hlater : now ≤ later) :
    m'.verify prim later issued envelope = .ok () ↔ Time.unix later ≤ issued.expiresAt.toInt := by
  obtain ⟨hkey, -, hmem, hactive, -, hlookup⟩ := of_newApprovalCapabilityManager hm
  obtain ⟨-, -, -, -, -, hlookup'⟩ := of_newApprovalCapabilityManager hm'
  obtain ⟨⟨_, hpayload, rfl⟩, hat, -⟩ := ApprovalCapabilityManager.of_issue h
  have hsecret : m'.keys.lookup m.activeKeyId = some (m.keys.get [] m.activeKeyId) := by
    obtain ⟨_, hsecret⟩ := Option.isSome_iff_exists.mp (AList.lookup_isSome.mpr hmem)
    rw [hactive, Map.get, hlookup, hlookup', hring, hsecret]
    rfl
  have hskew : Time.unix now ≤ Time.unix (later + approvalCapabilityClockSkew) :=
    Time.unix_mono (hlater.trans (Int.le_add_of_nonneg_right (by decide)))
  rw [verify_iff]
  constructor
  · intro hverify
    obtain ⟨-, -, _, -, -, -, -, -, hexpires⟩ := hverify
    exact hexpires
  · intro hexpires
    refine ⟨rfl, hactive ▸ hkey, _, hsecret, hpayload, hmac _ _, rfl, ?_, hexpires⟩
    rw [hat, hnow]
    exact hskew

/-- The life of a capability under any configuration, and what every accepted
one is bounded by. -/
theorem approval_capability_lifetime (hmac : ∀ key word, (prim.hmac key word).length = 32)
    (hm : newApprovalCapabilityManagerWithKeyring activeKeyId keys ttl = .ok m)
    (hnow : (Int64.ofInt (Time.unix now)).toInt = Time.unix now)
    (h : m.issue prim now random request validUntil = .ok (issued, envelope)) :
    issued.expiresAt.toInt = min (Time.unix now + ttl / Time.second) validUntil.toInt ∧
    (∀ activeKeyId' keys' ttl' m',
      newApprovalCapabilityManagerWithKeyring activeKeyId' keys' ttl' = .ok m' →
      keys'.lookup activeKeyId = keys.lookup activeKeyId → ∀ later, now ≤ later →
        (m'.verify prim later issued envelope = .ok () ↔
          Time.unix later ≤ issued.expiresAt.toInt)) ∧
    ∀ (m' : ApprovalCapabilityManager) later capability envelope,
      m'.verify prim later capability envelope = .ok () →
        capability.expiresAt.toInt - capability.issuedAt.toInt ≤ 24 * 3600 ∧
        capability.approverSubject ≠ capability.creatorSubject ∧
        capability.approverSubject ≠ capability.delegatorSubject ∧
        capability.approverSubject ≠ capability.agentSubject := by
  obtain ⟨-, httl, -, -, hequal, -⟩ := of_newApprovalCapabilityManager hm
  refine ⟨?_, ?_, ?_⟩
  · rw [← hequal] at httl ⊢
    exact toInt_expiresAt_of_issue httl hnow h
  · intro _ _ _ m' hm' hring later hlater
    exact verify_issued_iff hmac hm hm' hring hnow h hlater
  · intro _ _ _ _ hverify
    obtain ⟨_, -, hpayload, -⟩ := verify_eq_ok hverify
    obtain ⟨hwindow, happrover⟩ := window_of_canonicalBytes hpayload
    exact ⟨hwindow.2.2, happrover⟩

/-- At the start of the last second it is accepted, and not in the second after. -/
theorem approval_capability_lifetime_shared : ∃ issued envelope,
    SignedMessage.sharedManager.issue .standard (1790000000 * Time.second)
      (.ok (List.replicate 32 7)) SignedMessage.approvalRequest 1790000600 = .ok (issued, envelope) ∧
    SignedMessage.sharedManager.verify .standard (1790000600 * Time.second) issued envelope = .ok () ∧
    SignedMessage.sharedManager.verify .standard (1790000601 * Time.second) issued envelope ≠
      .ok () := by
  obtain ⟨issued, envelope, hissue⟩ := SignedMessage.sharedManager_issues
  obtain ⟨hexpires, hverify, -⟩ := approval_capability_lifetime
    (fun _ _ ↦ Crypto.Sha256.length_sha256 _) SignedMessage.new_sharedManager (by decide) hissue
  have hat : issued.expiresAt.toInt = 1790000600 := hexpires.trans (by decide)
  have hiff := hverify _ _ _ _ SignedMessage.new_sharedManager rfl
  rw [hat] at hiff
  exact ⟨issued, envelope, hissue, (hiff _ (by decide)).mpr (by decide),
    fun h ↦ absurd ((hiff _ (by decide)).mp h) (by decide)⟩

end Expiry

end PolicyEngine.Security

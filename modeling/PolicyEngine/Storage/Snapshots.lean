import PolicyEngine.Go.Map
import PolicyEngine.Go.Result
import PolicyEngine.Go.Time

namespace PolicyEngine.Storage

open PolicyEngine.Go PolicyEngine.Go.Result

def policySnapshotFormatVersion : Int64 := 1

structure PolicySnapshotPolicy where
  id : String
  text : String

structure PolicySnapshot where
  formatVersion : Int64
  tenantId : String
  policies : List PolicySnapshotPolicy
  inheritances : List (String × String)
  revision : UInt64
  snapshotAt : ℤ

def validatePolicies (seen : List String) : List PolicySnapshotPolicy → Except String Unit
  | [] => .ok ()
  | policy :: policies =>
    if policy.id = "" ∨ policy.text = "" then
      .error "policy snapshot contains an incomplete policy source"
    else if policy.id ∈ seen then
      .error ("policy snapshot contains duplicate policy ID " ++ policy.id)
    else validatePolicies (policy.id :: seen) policies

def validatePolicySnapshot (snapshot : PolicySnapshot) : Except String Unit := do
  rejectIf (snapshot.formatVersion ≠ policySnapshotFormatVersion)
    ("unsupported policy snapshot format version " ++ Strconv.formatInt snapshot.formatVersion)
  rejectIf (snapshot.tenantId = "") "policy snapshot tenant ID is empty"
  rejectIf (snapshot.revision = 0) "policy snapshot revision is zero"
  rejectIf (snapshot.snapshotAt = Time.date 1 1 1 0 0 0 0) "policy snapshot timestamp is empty"
  validatePolicies [] snapshot.policies

/-- The keys of the database, each with what `json.Unmarshal` makes of its value. -/
abbrev BadgerStore := Map (Except String PolicySnapshot)

namespace BadgerStore

def keyHead : String := "policy:tenant:"

def policySnapshotKey (tenantId : String) : String := keyHead ++ tenantId

def savePolicySnapshot (b : BadgerStore) (snapshot : PolicySnapshot) : Except String BadgerStore := do
  validatePolicySnapshot snapshot
  return b.insert (policySnapshotKey snapshot.tenantId) (.ok snapshot)

def loadPolicySnapshot (b : BadgerStore) (tenantId : String) :
    Except String (Option PolicySnapshot) :=
  match b.lookup (policySnapshotKey tenantId) with
  | none => .ok none
  | some (.error e) => .error ("lỗi đọc snapshot từ BadgerDB: " ++ e)
  | some (.ok snapshot) =>
    match validatePolicySnapshot snapshot with
    | .error e => .error ("invalid policy snapshot: " ++ e)
    | .ok () => .ok (some snapshot)

def revision (b : BadgerStore) (tenantId : String) : UInt64 :=
  match b.loadPolicySnapshot tenantId with
  | .ok (some snapshot) => snapshot.revision
  | _ => 0

variable {b b' : BadgerStore} {snapshot : PolicySnapshot} {tenantId : String}

theorem policySnapshotKey_inj {t t' : String} (h : policySnapshotKey t = policySnapshotKey t') :
    t = t' := by
  have hlists := congrArg String.toList h
  rw [policySnapshotKey, policySnapshotKey, String.toList_append, String.toList_append] at hlists
  exact String.toList_inj.mp (List.append_cancel_left hlists)

theorem savePolicySnapshot_eq_ok : b.savePolicySnapshot snapshot = .ok b' ↔
    validatePolicySnapshot snapshot = .ok () ∧
      b' = b.insert (policySnapshotKey snapshot.tenantId) (.ok snapshot) := by
  rw [savePolicySnapshot, bind_unit_eq_ok]
  refine and_congr_right fun _ ↦ ⟨fun h ↦ (Except.ok.inj h).symm, fun h ↦ congrArg _ h.symm⟩

theorem loadPolicySnapshot_eq_some : b.loadPolicySnapshot tenantId = .ok (some snapshot) ↔
    b.lookup (policySnapshotKey tenantId) = some (.ok snapshot) ∧
      validatePolicySnapshot snapshot = .ok () := by
  unfold loadPolicySnapshot
  cases b.lookup (policySnapshotKey tenantId) with
  | none => simp
  | some value =>
    cases value with
    | error => simp
    | ok =>
      rw [Option.some.injEq, Except.ok.injEq]
      constructor
      · intro h
        dsimp only at h
        split at h <;> cases h
        exact ⟨rfl, ‹_›⟩
      · intro h
        rw [h.1]
        simp only [h.2]

theorem loadPolicySnapshot_save (h : b.savePolicySnapshot snapshot = .ok b') :
    b'.loadPolicySnapshot snapshot.tenantId = .ok (some snapshot) := by
  obtain ⟨hvalid, rfl⟩ := savePolicySnapshot_eq_ok.mp h
  exact loadPolicySnapshot_eq_some.mpr ⟨AList.lookup_insert _, hvalid⟩

theorem revision_save (h : b.savePolicySnapshot snapshot = .ok b') :
    b'.revision snapshot.tenantId = snapshot.revision := by
  rw [revision, loadPolicySnapshot_save h]

theorem loadPolicySnapshot_save_ne (h : b.savePolicySnapshot snapshot = .ok b')
    (hne : tenantId ≠ snapshot.tenantId) :
    b'.loadPolicySnapshot tenantId = b.loadPolicySnapshot tenantId := by
  obtain ⟨-, rfl⟩ := savePolicySnapshot_eq_ok.mp h
  unfold loadPolicySnapshot
  rw [AList.lookup_insert_ne fun heq ↦ hne (policySnapshotKey_inj heq)]

theorem revision_save_ne (h : b.savePolicySnapshot snapshot = .ok b')
    (hne : tenantId ≠ snapshot.tenantId) : b'.revision tenantId = b.revision tenantId := by
  rw [revision, revision, loadPolicySnapshot_save_ne h hne]

end BadgerStore

end PolicyEngine.Storage

import PolicyEngine.Ring.Buffer

namespace PolicyEngine.Server

open PolicyEngine.Ring

structure PolicyEvent where
  tenantId : String
  policyId : String
  action : String
  revision : UInt64
  deriving DecidableEq

abbrev ReplayBuffer := Buffer PolicyEvent

namespace ReplayBuffer

def size (capacity : ℤ) : ℕ := if capacity ≤ 0 then 1000 else capacity.toNat

theorem size_pos (capacity : ℤ) : 0 < size capacity := by
  unfold size
  split_ifs <;> omega

def newReplayBuffer (capacity : ℤ) : ReplayBuffer :=
  Buffer.empty (size capacity) (size_pos capacity) ⟨"", "", "", 0⟩

def add (rb : ReplayBuffer) (event : PolicyEvent) : ReplayBuffer := rb.push event

def since (tenantId : String) (afterRevision : UInt64) (events : List PolicyEvent) :
    List PolicyEvent :=
  events.filter fun event ↦ event.tenantId = tenantId ∧ event.revision > afterRevision

def getEventsSince (rb : ReplayBuffer) (tenantId : String) (afterRevision : UInt64) :
    List PolicyEvent × Bool :=
  if rb.count = 0 then ([], true)
  else
    let oldestRev := (rb.slots rb.head).revision
    if afterRevision > 0 ∧ afterRevision < oldestRev then ([], false)
    else (since tenantId afterRevision rb.contents, true)

variable (capacity : ℤ) (history : List PolicyEvent) (tenantId : String) (afterRevision : UInt64)

def filled : ReplayBuffer := history.foldl add (newReplayBuffer capacity)

def overwritten : List PolicyEvent := history.take (history.length - size capacity)

def retained : List PolicyEvent := history.drop (history.length - size capacity)

theorem contents_filled : (filled capacity history).contents = retained capacity history :=
  Buffer.contents_foldl_push _ _ _ _

/-- An answer is all that the tenant has to catch up with, and there is none once a
part of that is gone. -/
def CompleteOrRefused : Prop :=
  let answer := getEventsSince (filled capacity history) tenantId afterRevision
  (answer.2 = true → answer.1 = since tenantId afterRevision history) ∧
    (since tenantId afterRevision (overwritten capacity history) ≠ [] → answer.2 = false)

def LooksRecent (events : List PolicyEvent) (afterRevision : UInt64) : Prop :=
  afterRevision = 0 ∨ ∀ oldest ∈ events.head?, oldest.revision ≤ afterRevision

instance (events : List PolicyEvent) : Decidable (LooksRecent events afterRevision) :=
  inferInstanceAs (Decidable (_ ∨ _))

theorem getEventsSince_eq (rb : ReplayBuffer) :
    getEventsSince rb tenantId afterRevision =
      if LooksRecent rb.contents afterRevision then
        (since tenantId afterRevision rb.contents, true)
      else ([], false) := by
  unfold getEventsSince
  by_cases hcount : rb.count = 0
  · have hnil : rb.contents = [] := by
      rw [← List.length_eq_zero_iff, Buffer.length_contents, hcount]
    rw [if_pos hcount, hnil]
    exact (if_pos (Or.inr (by simp))).symm
  · have hlooks : LooksRecent rb.contents afterRevision ↔
        ¬ (afterRevision > 0 ∧ afterRevision < (rb.slots rb.head).revision) := by
      rw [LooksRecent, Buffer.head?_contents hcount, not_and_or, gt_iff_lt, UInt64.pos_iff_ne_zero,
        not_not, UInt64.not_lt]
      simp
    rw [if_neg hcount, ite_cond_congr (propext hlooks), ite_not]

/-- The test for a lost revision sees one event only, whose tenant it does not look
at, and is not made for the revision zero. -/
theorem catchUp_complete_iff :
    CompleteOrRefused capacity history tenantId afterRevision ↔
      ¬ (LooksRecent (retained capacity history) afterRevision ∧
        since tenantId afterRevision (overwritten capacity history) ≠ []) := by
  have hparts : since tenantId afterRevision history =
      since tenantId afterRevision (overwritten capacity history) ++
        since tenantId afterRevision (retained capacity history) := by
    rw [since, since, since, ← List.filter_append, overwritten, retained, List.take_append_drop]
  unfold CompleteOrRefused
  rw [getEventsSince_eq, contents_filled]
  by_cases hrecent : LooksRecent (retained capacity history) afterRevision
  · rw [if_pos hrecent, hparts]
    constructor
    · intro h hlost
      exact Bool.noConfusion (h.2 hlost.2)
    · intro h
      have hnone : since tenantId afterRevision (overwritten capacity history) = [] :=
        not_not.mp fun hne ↦ h ⟨hrecent, hne⟩
      rw [hnone]
      exact ⟨fun _ ↦ rfl, fun hne ↦ absurd rfl hne⟩
  · rw [if_neg hrecent]
    exact ⟨fun _ h ↦ hrecent h.1, fun _ ↦ ⟨fun h ↦ Bool.noConfusion h, fun _ ↦ rfl⟩⟩

def RevisionsIncrease : Prop :=
  history.Pairwise fun earlier later ↦
    earlier.tenantId = later.tenantId → earlier.revision < later.revision

/-- A subscriber that asks from the start is not told of the events that are gone, and
neither is one that asks from a revision another tenant has not passed. -/
theorem lost_events_not_reported :
    let update (tenantId : String) (revision : UInt64) : PolicyEvent :=
      ⟨tenantId, "P-1", "UPDATE", revision⟩
    (RevisionsIncrease [update "a" 1, update "a" 2] ∧
      getEventsSince (filled 1 [update "a" 1, update "a" 2]) "a" 0 = ([update "a" 2], true) ∧
      ¬ CompleteOrRefused 1 [update "a" 1, update "a" 2] "a" 0) ∧
    (RevisionsIncrease [update "a" 5, update "b" 1] ∧
      getEventsSince (filled 1 [update "a" 5, update "b" 1]) "a" 1 = ([], true) ∧
      ¬ CompleteOrRefused 1 [update "a" 5, update "b" 1] "a" 1) := by
  unfold RevisionsIncrease CompleteOrRefused
  decide

end ReplayBuffer

end PolicyEngine.Server

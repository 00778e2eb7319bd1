import PolicyEngine.Storage.PolicyFence

namespace PolicyEngine.Storage

open Function

inductive Status
  | draft
  | active
deriving DecidableEq

structure PolicyRow where
  policyText : String
  astJson : Option String
  version : ℕ
  status : Status
deriving DecidableEq

abbrev Policies := String → Option PolicyRow

def errPolicyNotFound : String := "policy not found"

/-- A transaction on the row of a policy: what becomes of the row, and whether
the tenant's revision advances with it. -/
def transact (policyId : String) (change : PolicyRow → Option PolicyRow × Bool)
    (policies : Policies) : Except String (Policies × Bool) :=
  match policies policyId with
  | none => .error (errPolicyNotFound ++ ": " ++ policyId)
  | some row => .ok (update policies policyId (change row).1, (change row).2)

def updatePolicy (policyId policyText : String) : Policies → Except String (Policies × Bool) :=
  transact policyId fun row ↦
    (some { row with policyText := policyText, status := .draft, astJson := none },
      row.status = .active)

def publishPolicy (policyId astJson : String) : Policies → Except String (Policies × Bool) :=
  transact policyId fun row ↦
    (some { row with status := .active, astJson := some astJson, version := row.version + 1 }, true)

def deletePolicy (policyId : String) : Policies → Except String (Policies × Bool) :=
  transact policyId fun _ ↦ (none, true)

def createPolicy (policyId policyText : String) (policies : Policies) : Option Policies :=
  match policies policyId with
  | none => some (update policies policyId (some ⟨policyText, none, 1, .draft⟩))
  | some _ => none

/-- How a transaction goes: to its end, rolled back by an error, or committed
with an answer that is lost on the way. -/
inductive Fate
  | settled
  | failed (err : String)
  | unheard (err : String)

def Fate.commits : Fate → Bool
  | .failed _ => false
  | _ => true

def Fate.outcome (fate : Fate) (policies : Policies) (result : Except String (Policies × Bool)) :
    Policies × Mutation :=
  match fate, result with
  | .failed err, _ => (policies, ⟨false, some err⟩)
  | _, .error err => (policies, ⟨false, some err⟩)
  | .settled, .ok (policies', advances) => (policies', ⟨advances, none⟩)
  | .unheard err, .ok (policies', advances) => (policies', ⟨advances, some err⟩)

variable {policyId : String} {change : PolicyRow → Option PolicyRow × Bool}
  {policies policies' : Policies} {advances : Bool}

theorem transact_eq_ok (h : transact policyId change policies = .ok (policies', advances)) :
    ∃ row, policies policyId = some row ∧ policies' = update policies policyId (change row).1 := by
  unfold transact at h
  split at h
  · cases h
  · rename_i row hrow
    cases h
    exact ⟨row, hrow, rfl⟩

theorem transact_of_missing (h : policies policyId = none) :
    transact policyId change policies = .error (errPolicyNotFound ++ ": " ++ policyId) := by
  unfold transact
  rw [h]

theorem Fate.outcome_cases (fate : Fate) (policies : Policies)
    (result : Except String (Policies × Bool)) :
    (fate.outcome policies result).1 = policies ∨
      ∃ advances, fate.commits = true ∧ result = .ok ((fate.outcome policies result).1, advances) := by
  cases fate with
  | failed => exact .inl rfl
  | settled =>
    cases result with
    | error => exact .inl rfl
    | ok r => exact .inr ⟨r.2, rfl, rfl⟩
  | unheard =>
    cases result with
    | error => exact .inl rfl
    | ok r => exact .inr ⟨r.2, rfl, rfl⟩

end PolicyEngine.Storage

import Mathlib.Data.List.Sort
import PolicyEngine.Odoo.TransitionGuard
import PolicyEngine.Storage.PolicyFence
import PolicyEngine.Txn.Prog

namespace PolicyEngine.Odoo

open PolicyEngine.Txn

/-- `CanonicalBusinessIntent` v1, without its four constant fields. -/
structure Intent where
  tenantId : String
  companyId : Id
  resourceId : Id
  vendorId : Id
  currencyCode : String
  currencyScale : ℕ
  amountMinor : ℤ
  lineDigest : String
  recordState : OrderState
  recordWriteVersion : String
  creatorSubject : String
  delegationGrantId : Id
  delegatorSubject : String
  agentSubject : String
  commandId : String
  stateWitness : String
deriving DecidableEq

/-- A row of `purchase_order_line` with its taxes. -/
structure Line where
  orderId : Id
  sequence : ℕ
  displayType : String
  productId : Id
  name : String
  productUom : Id
  productQty : String
  priceUnit : String
  datePlanned : Option Timestamp
  writeDate : Timestamp
  taxesId : List Id
deriving DecidableEq

structure LineItem where
  lineId : Id
  sequence : ℕ
  displayType : String
  productId : Id
  description : String
  uomId : Id
  quantity : String
  unitPrice : String
  taxIds : List Id
  plannedAt : String
  lineWriteVersion : String

inductive GrantState
  | draft
  | active
  | revoked
  | expired
deriving DecidableEq

structure Grant where
  userId : Id
  agentId : String
  currencyId : Id
  maxAmount : String
  validFrom : Timestamp
  validUntil : Timestamp
  state : GrantState
deriving DecidableEq

structure User where
  login : String
  companyId : Id
  companyIds : List Id
  active : Bool
  share : Bool
  pdpDepartment : String
  isPurchaseManager : Bool
  isSystemAdmin : Bool
deriving DecidableEq

structure Company where
  pdpTenantId : String
  city : String
deriving DecidableEq

structure Currency where
  name : String
  decimalPlaces : ℕ
  active : Bool
deriving DecidableEq

/-- The key of `nonce_scope_uniq`. -/
structure AttemptKey where
  tenantId : String
  delegationGrantId : Id
  delegationNonce : String
deriving DecidableEq

inductive AttemptState
  | pending
  | executed
  | approvalRequired
deriving DecidableEq

inductive Decision
  | allow
  | deny
deriving DecidableEq

structure Attempt where
  requestFingerprint : String
  businessModel : String
  businessResId : Id
  validUntil : Timestamp
  state : AttemptState
  decision : Option Decision
  resultState : Option OrderState
  completedAt : Option Timestamp
deriving DecidableEq

inductive ApprovalState
  | pending
  | approved
  | rejected
  | invalidated
  | expired
  | consumed
deriving DecidableEq

def ApprovalState.isTerminal : ApprovalState → Bool
  | .rejected | .invalidated | .expired | .consumed => true
  | .pending | .approved => false

structure Capability where
  capabilityVersion : String
  purpose : String
  approvalId : String
  tenantId : String
  companyId : Id
  intentHash : String
  stateWitness : String
  commandId : String
  delegationGrantId : Id
  delegatorSubject : String
  agentSubject : String
  creatorSubject : String
  approverUserId : Id
  approverSubject : String
  requiredPermission : String
  issuancePolicyRevision : ℤ
  issuedAt : Timestamp
  expiresAt : Timestamp
  oneTimeId : String
  algorithm : String
  keyId : String
  canonicalPayload : String
  signature : String
deriving DecidableEq

/-- A row of `pdp_approval_request`. Its attempt is its key, by
`authorization_attempt_uniq`. -/
structure Approval where
  approvalId : String
  tenantId : String
  companyId : Id
  purchaseOrderId : Id
  delegationGrantId : Id
  commandId : String
  intentJson : String
  canonicalIntentB64 : String
  intentHash : String
  stateWitness : String
  state : ApprovalState
  requestedApproverUserId : Option Id
  activityId : Option Id
  approverUserId : Option Id
  approverSubject : String
  requiredPermission : String
  issuancePolicyRevision : ℤ
  issuedAt : Timestamp
  expiresAt : Option Timestamp
  oneTimeId : String
  capabilityVersion : String
  capabilityPurpose : String
  capabilityAlgorithm : String
  capabilityKeyId : String
  capabilityPayloadB64 : String
  capabilitySignatureB64 : String
  capabilityFingerprint : String
  terminalReason : String
  terminalAt : Option Timestamp
deriving DecidableEq

inductive Key
  | order (id : Id)
  | line (id : Id)
  | grant (id : Id)
  | user (id : Id)
  | company (id : Id)
  | currency (id : Id)
  | attempt (key : AttemptKey)
  | approval (key : AttemptKey)
  | fence (tenantId grantId : String)
  | policyFence (tenantId : String)
  | localAuthority
deriving DecidableEq

/-- The tables. A delegation fence is only its flag `revoked`, the local
authority fence only its revision. -/
abbrev Row : Key → Type
  | .order _ => Order
  | .line _ => Line
  | .grant _ => Grant
  | .user _ => User
  | .company _ => Company
  | .currency _ => Currency
  | .attempt _ => Attempt
  | .approval _ => Approval
  | .fence _ _ => Bool
  | .policyFence _ => Storage.FenceRow String
  | .localAuthority => ℕ

abbrev Db := Store Row

/-- An unavailable PDP is an `AccessError` of its own kind. -/
inductive Exc
  | accessError (message : String)
  | pdpUnavailable (message : String)
  | userError (message : String)
  | valueError
  | missing
  | integrity
deriving DecidableEq

structure Obligation where
  type : String
  message : String
deriving DecidableEq

structure Request where
  subject : String
  action : String
  resource : String
  context : List (String × String)
deriving DecidableEq

structure Verdict where
  decision : Decision
  obligations : List Obligation
  erpPolicyRevision : Option String
  reason : Option String
deriving DecidableEq

/-- What a transaction does besides its writes: it computes the digest of an
order's lines, gets a decision of the PDP, or runs the native confirm or approve
method, for an attempt or on the non-delegated route. -/
inductive Effect
  | digest (orderId : Id) (lines : List (Id × Line))
  | decided (request : Request) (verdict : Verdict)
  | native (orderId : Id) (attempt : Option AttemptKey)
deriving DecidableEq

/-- What a transaction learns from outside its database: the clock, secrets, the
PDP, and what Odoo's own methods do. -/
inductive Query
  | now
  | secret
  | newId
  | issueJwt (subject tenantId : String) (attributes : List (String × String))
  | checkAccess (tenantId : String) (request : Request) (token : String)
  | issueApprovalCapability (approval : Approval) (intent : Intent) (approverUserId : Id)
      (delegationValidUntil : Timestamp) (token : String)
  | verifyApprovalCapability (tenantId : String) (capability : Capability) (token : String)
  | buttonConfirm (orderId : Id)
  | buttonApprove (orderId : Id)
  | activitySchedule (orderId : Id) (note : String) (userId : Id)

/-- The assumption on Odoo's own `button_confirm` and `button_approve`: of the rows here
they write the state of their order, any or none, and nothing else. -/
abbrev NativeWrite := Option OrderState

/-- `token_urlsafe` gives no empty text. -/
abbrev Query.Answer : Query → Type
  | .now => Timestamp
  | .secret => { text : String // text ≠ "" }
  | .newId => Id
  | .issueJwt _ _ _ => String
  | .checkAccess _ _ _ => Except Exc Verdict
  | .issueApprovalCapability _ _ _ _ _ => Except Exc Capability
  | .verifyApprovalCapability _ _ _ => Except Exc Unit
  | .buttonConfirm _ | .buttonApprove _ => NativeWrite
  | .activitySchedule _ _ _ => Id

instance (query : Query) : Nonempty query.Answer := by
  cases query <;> first
    | exact ⟨(0 : ℕ)⟩
    | exact ⟨""⟩
    | exact ⟨⟨"0", by decide⟩⟩
    | exact ⟨.error .missing⟩
    | exact ⟨none⟩

abbrev M := Prog Row Query.Answer Effect Exc

abbrev Tx := Local Row Effect

/-- The functions of the protocol library the transactions use. One that raises
where nothing catches it rolls the transaction back, as may happen anywhere. -/
structure Protocol where
  amountToMinorUnits : String → ℕ → Option ℤ
  minorUnitsToDecimal : ℤ → ℕ → String
  ceil : String → String
  canonicalDecimal : String → Except String String
  utcTimestamp : Timestamp → String
  lineDigest : List LineItem → Option String
  stateWitness : Intent → Option String
  canonicalIntent : Intent → Option String
  intentHash : Intent → String
  intentContext : Intent → List (String × String)
  dumps : Intent → String
  loads : String → Option Intent
  signProof : Intent → Timestamp → Timestamp → String
  base64url : String → String
  decodeBase64url : String → String
  fingerprint : String → String
  databaseName : String

def strip (text : String) : String :=
  String.ofList ((text.toList.dropWhile Char.isWhitespace).reverse.dropWhile
    Char.isWhitespace).reverse

/-- The lines of an order in the order `sequence, id`. -/
def linesOf (db : Db) (orderId : Id) : List (Id × Line) :=
  (db.entries.filterMap fun entry ↦
    match entry with
    | ⟨.line id, line⟩ => if line.orderId = orderId then some (id, line) else none
    | _ => none).insertionSort
      fun a b ↦ a.2.sequence < b.2.sequence ∨ a.2.sequence = b.2.sequence ∧ a.1 ≤ b.1

def usersOf (db : Db) : List (Id × User) :=
  (db.entries.filterMap fun entry ↦
    match entry with
    | ⟨.user id, user⟩ => some (id, user)
    | _ => none).insertionSort fun a b ↦ a.1 ≤ b.1

theorem mem_linesOf {db : Db} {orderId id : Id} {line : Line} :
    (id, line) ∈ linesOf db orderId ↔
      db.lookup (.line id) = some line ∧ line.orderId = orderId := by
  rw [linesOf, List.mem_insertionSort, List.mem_filterMap]
  constructor
  · rintro ⟨⟨key, row⟩, hmem, hrow⟩
    cases key with
    | line id' =>
      change (if row.orderId = orderId then some (id', row) else none) = some (id, line) at hrow
      split at hrow
      case isTrue horder =>
        cases hrow
        exact ⟨AList.mem_lookup_iff.mpr hmem, horder⟩
      case isFalse => cases hrow
    | _ => cases hrow
  · rintro ⟨hlookup, horder⟩
    exact ⟨⟨.line id, line⟩, AList.mem_lookup_iff.mp hlookup, if_pos horder⟩

end PolicyEngine.Odoo

import PolicyEngine.Odoo.Database

namespace PolicyEngine.Odoo

open PolicyEngine.Go PolicyEngine.Txn

def find (key : Key) : M (Option (Row key)) := do
  let db ← Prog.view
  return db.lookup key

def get (key : Key) : M (Row key) := do
  match ← find key with
  | some row => return row
  | none => throw .missing

def tokenUrlsafe : M { text : String // text ≠ "" } := Prog.ask Query.secret

/-- `write` of the transition guard, on one order. -/
def writeOrder (sentinel : Bool) (id : Id) (values : Values) : M Unit := do
  let order ← get (.order id)
  match Order.checkWrite sentinel values [order] with
  | .error message => throw (.accessError message)
  | .ok () =>
    let now ← Prog.ask .now
    Prog.update (.order id) (order.written now values)

def tenantId (order : Order) : M String := do
  let company ← get (.company order.companyId)
  if strip company.pdpTenantId = "" then
    throw (.userError "The purchase-order company has no PDP Tenant ID configured.")
  else return strip company.pdpTenantId

def grantTenantId (grant : Grant) : M String := do
  let delegator ← get (.user grant.userId)
  let company ← get (.company delegator.companyId)
  if strip company.pdpTenantId = "" then
    throw (.userError "The delegator company has no PDP Tenant ID configured.")
  else return strip company.pdpTenantId

def expect {α : Type} : Except Exc α → M α
  | .ok value => return value
  | .error error => throw error

def orRaise {α : Type} (error : Exc) : Option α → M α
  | some value => return value
  | none => throw error

section

variable (P : Protocol)

def lineItem (entry : Id × Line) : Except String LineItem := do
  let quantity ← P.canonicalDecimal entry.2.productQty
  let unitPrice ← P.canonicalDecimal entry.2.priceUnit
  return {
    lineId := entry.1
    sequence := entry.2.sequence
    displayType := entry.2.displayType
    productId := entry.2.productId
    description := entry.2.name
    uomId := entry.2.productUom
    quantity := quantity
    unitPrice := unitPrice
    taxIds := entry.2.taxesId
    plannedAt := entry.2.datePlanned.elim "" P.utcTimestamp
    lineWriteVersion := P.utcTimestamp entry.2.writeDate }

/-- The query of `_persisted_lines`: the lines the transaction sees, each locked. -/
def persistedLines (orderId : Id) : M (List (Id × Line)) := do
  let lines := linesOf (← Prog.view) orderId
  lines.forM fun entry ↦ do
    let _ ← Prog.lock (.line entry.1)
  return lines

def identityError : Exc :=
  .accessError "Purchase order and delegation grant identity do not match."

def orderSnapshot (db : Db) (orderId : Id) : Option (Order × Company × Currency × User) := do
  let order ← db.lookup (.order orderId)
  let company ← db.lookup (.company order.companyId)
  let currency ← db.lookup (.currency order.currencyId)
  let creator ← db.lookup (.user order.createUid)
  return (order, company, currency, creator)

def lockOrderSnapshot (orderId : Id) : M (Order × Company × Currency × User) := do
  match orderSnapshot (← Prog.view) orderId with
  | none => throw (.accessError "Purchase order disappeared during CBI reconstruction.")
  | some snapshot =>
    let _ ← Prog.lock (.order orderId)
    return snapshot

def buildPurchaseOrderIntent (orderId grantId : Id) (commandId : String) : M Intent := do
  let (order, company, currency, creator) ← lockOrderSnapshot orderId
  let grant ← get (.grant grantId)
  let delegator ← get (.user grant.userId)
  if order.delegationGrantId ≠ some grantId ∨ order.delegatedById ≠ some grant.userId ∨
      order.aiAgentId ≠ grant.agentId ∨ order.companyId ≠ delegator.companyId then
    throw identityError
  else if strip company.pdpTenantId ≠ (← grantTenantId grant) then throw identityError
  else
    let lines ← persistedLines orderId
    Prog.emit (.digest orderId lines)
    let items ← expect ((lines.mapM (lineItem P)).mapError .accessError)
    let amountMinor ← orRaise .valueError
      (P.amountToMinorUnits order.amountTotal currency.decimalPlaces)
    let lineDigest ← orRaise .valueError (P.lineDigest items)
    let intent : Intent := {
      tenantId := strip company.pdpTenantId
      companyId := order.companyId
      resourceId := orderId
      vendorId := order.partnerId
      currencyCode := currency.name
      currencyScale := currency.decimalPlaces
      amountMinor := amountMinor
      lineDigest := lineDigest
      recordState := order.state
      recordWriteVersion := P.utcTimestamp order.writeDate
      creatorSubject := "user:" ++ creator.login
      delegationGrantId := grantId
      delegatorSubject := "user:" ++ delegator.login
      agentSubject := grant.agentId
      commandId := commandId
      stateWitness := "" }
    let stateWitness ← orRaise .valueError (P.stateWitness intent)
    return { intent with stateWitness := stateWitness }

/-- `PDPDelegationGrant.build_protected_intent`: the intent, its proof and
fingerprint, and the grant's window. -/
def buildProtectedIntent (grantId orderId : Id) (commandId : String) :
    M (Intent × String × String × Timestamp × Timestamp) := do
  let grant ← get (.grant grantId)
  if grant.state ≠ .active then
    throw (.userError "The selected delegation grant is not active.")
  else
    let order ← get (.order orderId)
    if order.aiAgentId = "" ∨ order.aiAgentId ≠ grant.agentId then
      throw (.userError "The purchase order agent does not match the delegation grant.")
    else
      let intent ← buildPurchaseOrderIntent P orderId grantId commandId
      let currency ← get (.currency grant.currencyId)
      if intent.currencyCode ≠ currency.name ∨ intent.currencyScale ≠ currency.decimalPlaces then
        throw (.accessError
          "Purchase-order currency is outside this delegation grant's currency scope.")
      else if !currency.active then
        throw (.userError "Delegation grant currency must be active and configured.")
      else
        let maximum ← orRaise
          (.userError "Delegation maximum must be exact at the selected currency precision.")
          (P.amountToMinorUnits grant.maxAmount currency.decimalPlaces)
        if intent.amountMinor > maximum then
          throw (.accessError "Purchase-order amount exceeds this delegation grant's maximum.")
        else
          return (intent, P.signProof intent grant.validFrom grant.validUntil,
            P.intentHash intent, grant.validFrom, grant.validUntil)

end

/-- The text of a record's id; an unset relation has the id `False`. -/
def idText : Option Id → String
  | some id => Strconv.formatNat id
  | none => "False"

def lockDelegationRevocationFence (orderId : Id) : M Bool := do
  let order ← get (.order orderId)
  let tenant ← tenantId order
  Prog.insertIgnore (.fence tenant (idText order.delegationGrantId)) false
  let row ← Prog.lock (.fence tenant (idText order.delegationGrantId))
  return row = some false

def lockCurrentAuthority (orderId : Id) (policyRevisions : List (Option String)) : M Unit := do
  if policyRevisions = [] ∨ policyRevisions.any fun value ↦ (Storage.decimal value).isNone then
    throw (.accessError "Missing evaluated policy revision.")
  else
    let localRevision ← Prog.lock .localAuthority
    if localRevision.isNone then throw (.accessError "Local authority fence is unavailable.")
    else
      let order ← get (.order orderId)
      let tenant ← tenantId order
      let row ← Prog.lock (.policyFence tenant)
      if Storage.staleAgainst policyRevisions row then
        throw (.accessError "Policy publication is pending or the authorization is stale.")

/-- A call of the PDP's `CheckAccess` with a token for the request's subject. -/
def checkAccess (tenant : String) (attributes : List (String × String)) (request : Request) :
    M Verdict := do
  let token ← Prog.ask (.issueJwt request.subject tenant attributes)
  let reply ← Prog.ask (.checkAccess tenant request token)
  let verdict ← expect reply
  Prog.emit (.decided request verdict)
  return verdict

end PolicyEngine.Odoo

import PolicyEngine.Odoo.Confirm

namespace PolicyEngine.Odoo

open PolicyEngine.Txn

/-- `write` of the transition guard, on a batch and without the sentinel. -/
def writeOrders (ids : List Id) (values : Values) : M Unit := do
  let self ← ids.mapM fun id ↦ get (.order id)
  match Order.checkWrite false values self with
  | .error message => throw (.accessError message)
  | .ok () =>
    ids.forM fun id ↦ do
      let order ← get (.order id)
      let now ← Prog.ask .now
      Prog.update (.order id) (order.written now values)

/-- The parents `_touch_delegated_parents` selects. -/
def delegatedParents (db : Db) (orderIds : List Id) : List Id :=
  (orderIds.dedup.insertionSort (· ≤ ·)).filter fun id ↦
    (db.lookup (.order id)).any fun order : Order ↦ order.inScope

/-- `_touch_delegated_parents`: lock all, then a real update of each. -/
def touchDelegatedParents (orderIds : List Id) : M Unit := do
  let parents := delegatedParents (← Prog.view) orderIds
  parents.forM fun id ↦ do
    let _ ← Prog.lock (.order id)
  parents.forM fun id ↦ do
    let order ← get (.order id)
    let now ← Prog.ask .now
    Prog.update (.order id) { order with writeDate := now }

/-- The dictionary of a line; an absent field is `none`. -/
structure LineValues where
  orderId : Option Id := none
  sequence : Option ℕ := none
  displayType : Option String := none
  productId : Option Id := none
  name : Option String := none
  productUom : Option Id := none
  productQty : Option String := none
  priceUnit : Option String := none
  datePlanned : Option (Option Timestamp) := none
  taxesId : Option (List Id) := none

def Line.store (line : Line) (now : Timestamp) (values : LineValues) : Line where
  orderId := values.orderId.getD line.orderId
  sequence := values.sequence.getD line.sequence
  displayType := values.displayType.getD line.displayType
  productId := values.productId.getD line.productId
  name := values.name.getD line.name
  productUom := values.productUom.getD line.productUom
  productQty := values.productQty.getD line.productQty
  priceUnit := values.priceUnit.getD line.priceUnit
  datePlanned := values.datePlanned.getD line.datePlanned
  writeDate := now
  taxesId := values.taxesId.getD line.taxesId

def Line.default (orderId : Id) (now : Timestamp) : Line :=
  ⟨orderId, 10, "", 0, "", 0, "1", "0", none, now, []⟩

/-- `create` of the line guard, with the order the context gives by default. -/
def createLines (defaultOrder : Option Id) (valuesList : List LineValues) : M Unit := do
  let parents := valuesList.map fun values ↦ values.orderId.or defaultOrder
  touchDelegatedParents (parents.filterMap id)
  valuesList.forM fun values ↦ do
    let orderId ← orRaise .valueError (values.orderId.or defaultOrder)
    let now ← Prog.ask .now
    let id ← Prog.ask .newId
    let created ← Prog.insert (.line id) ((Line.default orderId now).store now values)
    if created then return () else throw .integrity

def writeLines (ids : List Id) (values : LineValues) : M Unit := do
  let lines ← ids.mapM fun id ↦ get (.line id)
  touchDelegatedParents (lines.map (fun line : Line ↦ line.orderId) ++ values.orderId.toList)
  ids.forM fun id ↦ do
    let line ← get (.line id)
    let now ← Prog.ask .now
    Prog.update (.line id) (line.store now values)

def unlinkLines (ids : List Id) : M Unit := do
  let lines ← ids.mapM fun id ↦ get (.line id)
  touchDelegatedParents (lines.map fun line : Line ↦ line.orderId)
  ids.forM fun id ↦ Prog.delete (.line id)

/-- The transactions that run on the database. The one of `PersistRevocation` is
READ COMMITTED: its single statement sees what is committed when it runs, so it
begins then. -/
inductive Tx.Call
  | buttonConfirm (uid : Id) (ids : List Id)
  | actionIssueCapability (uid : Id) (key : AttemptKey)
  | revalidateApprovedCapability (key : AttemptKey)
  | writeOrders (ids : List Id) (values : Values)
  | createLines (defaultOrder : Option Id) (valuesList : List LineValues)
  | writeLines (ids : List Id) (values : LineValues)
  | unlinkLines (ids : List Id)
  | revokeFence (tenantId grantId : String)

def Tx.Call.prog (P : Protocol) : Tx.Call → M Unit
  | .buttonConfirm uid ids => Odoo.buttonConfirm P uid ids
  | .actionIssueCapability uid key => Odoo.actionIssueCapability P uid key
  | .revalidateApprovedCapability key => do
    let _ ← Odoo.revalidateApprovedCapability P key
  | .writeOrders ids values => Odoo.writeOrders ids values
  | .createLines defaultOrder valuesList => Odoo.createLines defaultOrder valuesList
  | .writeLines ids values => Odoo.writeLines ids values
  | .unlinkLines ids => Odoo.unlinkLines ids
  | .revokeFence tenantId grantId => Prog.upsert (.fence tenantId grantId) true

end PolicyEngine.Odoo

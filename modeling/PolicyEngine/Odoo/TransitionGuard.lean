import Mathlib.Data.List.Basic
import Mathlib.Data.Nat.Notation

namespace PolicyEngine.Odoo

abbrev Id := ℕ

abbrev Timestamp := ℕ

inductive OrderState
  | draft
  | sent
  | toApprove
  | purchase
  | done
  | cancel
deriving DecidableEq

def OrderState.isFinal : OrderState → Bool
  | .purchase | .done => true
  | _ => false

inductive PdpStatus
  | pending
  | allow
  | requireApproval
  | deny
deriving DecidableEq

/-- A row of `purchase_order`. A relation that is not set is `none`, a text that
is not set is empty. -/
structure Order where
  companyId : Id
  partnerId : Id
  currencyId : Id
  amountTotal : String
  pdpDepartment : String
  createUid : Id
  writeDate : Timestamp
  state : OrderState
  pdpStatus : PdpStatus
  aiAgentId : String
  delegatedById : Option Id
  delegationGrantId : Option Id
  pdpDelegationNonce : String
  pdpDelegatedScope : Bool
deriving DecidableEq

/-- The dictionary a caller passes to `create` or `write`: a field that is absent
is `none`. -/
structure Values where
  companyId : Option Id := none
  partnerId : Option Id := none
  currencyId : Option Id := none
  amountTotal : Option String := none
  pdpDepartment : Option String := none
  state : Option OrderState := none
  pdpStatus : Option PdpStatus := none
  aiAgentId : Option String := none
  delegatedById : Option (Option Id) := none
  delegationGrantId : Option (Option Id) := none
  pdpDelegationNonce : Option String := none
  pdpDelegatedScope : Option Bool := none

/-- `any(order[field] for field in DELEGATION_MARKERS)`. -/
def Order.hasMarker (order : Order) : Bool :=
  order.delegationGrantId.isSome || order.aiAgentId != "" || order.delegatedById.isSome

/-- `any(values.get(field) for field in DELEGATION_MARKERS)`. -/
def Values.setsMarker (values : Values) : Bool :=
  values.delegationGrantId.any (·.isSome) || values.aiAgentId.any (· != "") ||
    values.delegatedById.any (·.isSome)

/-- `any(field in values and not values[field] for field in DELEGATION_MARKERS)`. -/
def Values.clearsMarker (values : Values) : Bool :=
  values.delegationGrantId.any (·.isNone) || values.aiAgentId.any (· == "") ||
    values.delegatedById.any (·.isNone)

namespace Order

def store (order : Order) (now : Timestamp) (values : Values) : Order where
  companyId := values.companyId.getD order.companyId
  partnerId := values.partnerId.getD order.partnerId
  currencyId := values.currencyId.getD order.currencyId
  amountTotal := values.amountTotal.getD order.amountTotal
  pdpDepartment := values.pdpDepartment.getD order.pdpDepartment
  createUid := order.createUid
  writeDate := now
  state := values.state.getD order.state
  pdpStatus := values.pdpStatus.getD order.pdpStatus
  aiAgentId := values.aiAgentId.getD order.aiAgentId
  delegatedById := values.delegatedById.getD order.delegatedById
  delegationGrantId := values.delegationGrantId.getD order.delegationGrantId
  pdpDelegationNonce := values.pdpDelegationNonce.getD order.pdpDelegationNonce
  pdpDelegatedScope := values.pdpDelegatedScope.getD order.pdpDelegatedScope

def default (uid : Id) (now : Timestamp) : Order where
  companyId := 0
  partnerId := 0
  currencyId := 0
  amountTotal := "0"
  pdpDepartment := "Procurement"
  createUid := uid
  writeDate := now
  state := .draft
  pdpStatus := .pending
  aiAgentId := ""
  delegatedById := none
  delegationGrantId := none
  pdpDelegationNonce := ""
  pdpDelegatedScope := false

/-- `create`, for one dictionary of its list. -/
def create (uid : Id) (now : Timestamp) (values : Values) : Order :=
  (default uid now).store now
    (if values.setsMarker then { values with pdpDelegatedScope := some true } else values)

/-- The orders `_assert_delegated_final_transition_authorized` filters. -/
def isProtected (incomingScope : Bool) (order : Order) : Bool :=
  (incomingScope || order.pdpDelegatedScope || order.hasMarker) && !order.state.isFinal

def assertDelegatedFinalTransitionAuthorized (sentinel incomingScope : Bool)
    (self : List Order) : Except String Unit :=
  if !self.any (isProtected incomingScope) then .ok ()
  else if !sentinel then
    .error ("Delegated purchase orders must reach a final state through " ++
      "the protected confirmation route.")
  else .ok ()

def checkWrite (sentinel : Bool) (values : Values) (self : List Order) : Except String Unit :=
  if values.state.any OrderState.isFinal then
    assertDelegatedFinalTransitionAuthorized sentinel values.setsMarker self
  else .ok ()

/-- What `write` makes of one record: a legacy record that is about to lose a
marker gets the scope first, a marker that comes in brings the scope with it,
and no caller sets the scope. -/
def written (order : Order) (now : Timestamp) (values : Values) : Order :=
  let legacyScope := !order.pdpDelegatedScope && order.hasMarker
  let order :=
    if legacyScope && values.clearsMarker then { order with pdpDelegatedScope := true } else order
  order.store now
    { values with pdpDelegatedScope := if values.setsMarker then some true else none }

def inScope (order : Order) : Bool := order.pdpDelegatedScope || order.hasMarker

theorem isProtected_eq (incomingScope : Bool) (order : Order) :
    order.isProtected incomingScope = ((incomingScope || order.inScope) && !order.state.isFinal) := by
  simp only [isProtected, inScope, Bool.or_assoc]

theorem checkWrite_ok {values : Values} {self : List Order} {order : Order}
    (hok : checkWrite false values self = .ok ()) (hmem : order ∈ self)
    (hstate : values.state.any OrderState.isFinal = true) (horder : order.state.isFinal = false) :
    values.setsMarker = false ∧ order.inScope = false := by
  rw [checkWrite, if_pos hstate, assertDelegatedFinalTransitionAuthorized] at hok
  by_cases hany : self.any (isProtected values.setsMarker) = true
  · rw [hany] at hok
    cases hok
  · have hnot := List.any_eq_false.mp (Bool.not_eq_true _ ▸ hany) order hmem
    simpa [isProtected_eq, horder] using hnot

theorem hasMarker_store (order : Order) (now : Timestamp) (values : Values)
    (hvalues : values.setsMarker = false) (horder : order.hasMarker = false) :
    (order.store now values).hasMarker = false := by
  cases hg : values.delegationGrantId <;> cases ha : values.aiAgentId <;>
    cases hd : values.delegatedById <;>
    simp_all [hasMarker, Values.setsMarker, store]

theorem hasMarker_written (order : Order) (now : Timestamp) (values : Values)
    (hvalues : values.setsMarker = false) (horder : order.hasMarker = false) :
    (order.written now values).hasMarker = false := by
  apply hasMarker_store
  · exact hvalues
  · simp only [horder, Bool.and_false, Bool.false_and, Bool.false_eq_true, if_false]

theorem hasMarker_store_of_absent (order : Order) (now : Timestamp) (values : Values)
    (hsets : values.setsMarker = false) (hclears : values.clearsMarker = false) :
    (order.store now values).hasMarker = order.hasMarker := by
  cases hg : values.delegationGrantId <;> cases ha : values.aiAgentId <;>
    cases hd : values.delegatedById <;>
    simp_all [hasMarker, Values.setsMarker, Values.clearsMarker, store]

theorem inScope_written (order : Order) (now : Timestamp) (values : Values)
    (h : order.inScope = true) : (order.written now values).inScope = true := by
  cases hsets : values.setsMarker with
  | true => simp [inScope, written, hsets, store]
  | false =>
    cases hscope : order.pdpDelegatedScope with
    | true => simp [inScope, written, hsets, hscope, store]
    | false =>
      have hmarker : order.hasMarker = true := by simpa [inScope, hscope] using h
      cases hclears : values.clearsMarker with
      | true => simp [inScope, written, hsets, hclears, hscope, hmarker, store]
      | false =>
        have hkeep := hasMarker_store_of_absent order now
          { values with pdpDelegatedScope := none } hsets hclears
        simp [inScope, written, hsets, hclears, hkeep, hmarker]

theorem state_written (order : Order) (now : Timestamp) (values : Values) :
    (order.written now values).state = values.state.getD order.state := by
  unfold written
  dsimp only
  split <;> rfl

theorem hasMarker_create (uid : Id) (now : Timestamp) (values : Values) :
    (create uid now values).hasMarker = values.setsMarker := by
  unfold create
  cases hg : values.delegationGrantId <;> cases ha : values.aiAgentId <;>
    cases hd : values.delegatedById <;> split <;>
    simp [hasMarker, Values.setsMarker, store, default, hg, ha, hd]

theorem state_create (uid : Id) (now : Timestamp) (values : Values) :
    (create uid now values).state = values.state.getD .draft := by
  unfold create
  split <;> rfl

end Order

abbrev Table := List Order

inductive Call
  | create (uid : Id) (now : Timestamp) (valuesList : List Values)
  | write (ids : List Id) (now : Timestamp) (values : Values)

namespace Table

def write (db : Table) (ids : List Id) (now : Timestamp) (values : Values) :
    Except String Table := do
  if ids.any (db.length ≤ ·) then
    throw "Record does not exist or has been deleted."
  Order.checkWrite false values (ids.filterMap (db[·]?))
  return db.mapIdx fun id order ↦ if id ∈ ids then order.written now values else order

def step (db : Table) : Call → Table
  | .create uid now valuesList => db ++ valuesList.map (Order.create uid now)
  | .write ids now values =>
    match db.write ids now values with
    | .ok next => next
    | .error _ => db

def FinalAt (db : Table) (id : Id) : Prop := ∃ order, db[id]? = some order ∧ order.state.isFinal = true

def MarkedAt (db : Table) (id : Id) : Prop := ∃ order, db[id]? = some order ∧ order.hasMarker = true

def ScopedAt (db : Table) (id : Id) : Prop := ∃ order, db[id]? = some order ∧ order.inScope = true

/-- An order the call from `db` to `next` made final carries no marker after it
and carried none before. -/
def FinalUnmarked (past : List Table) (db next : Table) : Prop :=
  ∀ id, next.FinalAt id → ¬ db.FinalAt id → ∀ earlier ∈ next :: db :: past, ¬ earlier.MarkedAt id

/-- `FinalUnmarked` at every call of a sequence. -/
def GuardHolds : List Table → Table → List Call → Prop
  | _, _, [] => True
  | past, db, call :: calls =>
    FinalUnmarked past db (db.step call) ∧ GuardHolds (db :: past) (db.step call) calls

theorem write_ok {db next : Table} {ids : List Id} {now : Timestamp} {values : Values}
    (h : db.write ids now values = .ok next) :
    Order.checkWrite false values (ids.filterMap (db[·]?)) = .ok () ∧
      next = db.mapIdx fun id order ↦ if id ∈ ids then order.written now values else order := by
  unfold write at h
  split at h
  · cases h
  · cases hcheck : Order.checkWrite false values (ids.filterMap (db[·]?)) with
    | error => rw [hcheck] at h; cases h
    | ok => rw [hcheck] at h; cases h; exact ⟨rfl, rfl⟩

theorem ScopedAt.step {db : Table} {id : Id} (h : db.ScopedAt id) (call : Call) :
    (db.step call).ScopedAt id := by
  obtain ⟨order, hget, hscope⟩ := h
  cases call with
  | create =>
    have hlt : id < db.length := (List.getElem?_eq_some_iff.mp hget).1
    exact ⟨order, by rw [Table.step, List.getElem?_append_left hlt, hget], hscope⟩
  | write ids now values =>
    simp only [Table.step]
    split
    case h_1 next hok =>
      obtain ⟨-, rfl⟩ := write_ok hok
      refine ⟨if id ∈ ids then order.written now values else order, by simp [hget], ?_⟩
      split
      · exact order.inScope_written now values hscope
      · exact hscope
    case h_2 => exact ⟨order, hget, hscope⟩

theorem MarkedAt.scoped {db : Table} {id : Id} (h : db.MarkedAt id) : db.ScopedAt id := by
  obtain ⟨order, hget, hmarker⟩ := h
  exact ⟨order, hget, by simp [Order.inScope, hmarker]⟩

def Sticky (past : List Table) (db : Table) : Prop :=
  ∀ earlier ∈ past, ∀ id, earlier.MarkedAt id → db.ScopedAt id

theorem Sticky.step {past : List Table} {db : Table} (h : Sticky past db) (call : Call) :
    Sticky (db :: past) (db.step call) := by
  intro earlier hmem id hmarked
  apply ScopedAt.step
  cases List.mem_cons.mp hmem with
  | inl heq => exact (heq ▸ hmarked).scoped
  | inr hpast => exact h earlier hpast id hmarked

theorem finalUnmarked_write {past : List Table} {db : Table} (h : Sticky past db) (ids : List Id)
    (now : Timestamp) (values : Values) : FinalUnmarked past db (db.step (.write ids now values)) := by
  intro id hfinal hnot
  simp only [Table.step] at hfinal ⊢
  split at hfinal
  case h_2 => exact absurd hfinal hnot
  case h_1 next hok =>
    obtain ⟨hcheck, rfl⟩ := write_ok hok
    obtain ⟨order', hget', hfinal'⟩ := hfinal
    obtain ⟨order, hget, rfl⟩ := by simpa using hget'
    have horder : order.state.isFinal = false := by
      rw [← Bool.not_eq_true]
      exact fun hstate ↦ hnot ⟨order, hget, hstate⟩
    by_cases hid : id ∈ ids
    · -- The order is one the call writes, so its new state is the one passed.
      rw [if_pos hid, Order.state_written] at hfinal'
      have hstate : values.state.any OrderState.isFinal = true := by
        cases hv : values.state with
        | none => simp [hv, horder] at hfinal'
        | some => simpa [hv] using hfinal'
      have hmem : order ∈ ids.filterMap (db[·]?) := List.mem_filterMap.mpr ⟨id, hid, hget⟩
      obtain ⟨hsets, hscope⟩ := Order.checkWrite_ok hcheck hmem hstate horder
      have hunscoped : ¬ db.ScopedAt id := by
        rintro ⟨_, hget', hscope'⟩
        cases hget.symm.trans hget'
        rw [hscope] at hscope'
        cases hscope'
      have hmarker : order.hasMarker = false := by
        simpa [Order.inScope] using (Bool.or_eq_false_iff.mp hscope).2
      intro earlier hmem hmarked
      rcases List.mem_cons.mp hmem with rfl | hmem
      · obtain ⟨_, hget', hmarked⟩ := hmarked
        simp only [List.getElem?_mapIdx, hget, Option.map_some, if_pos hid,
          Option.some.injEq] at hget'
        rw [← hget', order.hasMarker_written now values hsets hmarker] at hmarked
        cases hmarked
      · rcases List.mem_cons.mp hmem with rfl | hmem
        · exact hunscoped hmarked.scoped
        · exact hunscoped (h earlier hmem id hmarked)
    · rw [if_neg hid, horder] at hfinal'
      cases hfinal'

theorem ScopedAt.lt_length {db : Table} {id : Id} (h : db.ScopedAt id) : id < db.length := by
  obtain ⟨_, hget, -⟩ := h
  exact (List.getElem?_eq_some_iff.mp hget).1

end Table

/-- A `create` asks for no order that is final and delegated at once. -/
def Call.CreatesNoFinalDelegated : Call → Prop
  | .create _ _ valuesList =>
    ∀ values ∈ valuesList, values.state.any OrderState.isFinal = true → values.setsMarker = false
  | .write _ _ _ => True

namespace Table

theorem finalUnmarked_create {past : List Table} {db : Table} (h : Sticky past db) (uid : Id)
    (now : Timestamp) (valuesList : List Values) :
    FinalUnmarked past db (db.step (.create uid now valuesList)) ↔
      (Call.create uid now valuesList).CreatesNoFinalDelegated := by
  have hstate : ∀ values : Values, (Order.create uid now values).state.isFinal =
      values.state.any OrderState.isFinal := by
    intro values
    rw [Order.state_create]
    cases values.state <;> rfl
  constructor
  · intro hclean values hmem hfinal
    obtain ⟨i, hi⟩ := List.mem_iff_getElem?.mp hmem
    have hget : (db.step (.create uid now valuesList))[db.length + i]? =
        some (Order.create uid now values) := by
      rw [Table.step, List.getElem?_append_right (Nat.le_add_right _ _), Nat.add_sub_cancel_left,
        List.getElem?_map, hi, Option.map_some]
    rw [← Bool.not_eq_true, ← Order.hasMarker_create uid now]
    intro hmarker
    refine hclean (db.length + i) ⟨_, hget, (hstate values).trans hfinal⟩ ?_ _
      List.mem_cons_self ⟨_, hget, hmarker⟩
    rintro ⟨order, hold, -⟩
    simp at hold
  · intro hvalues id hfinal hnot earlier hmem hmarked
    obtain ⟨order, hget, hfinal⟩ := hfinal
    -- The order is a new one, since no other changed.
    have hlen : db.length ≤ id := by
      by_contra hlt
      rw [Table.step, List.getElem?_append_left (by omega)] at hget
      exact hnot ⟨order, hget, hfinal⟩
    rw [Table.step, List.getElem?_append_right hlen] at hget
    obtain ⟨values, hv, rfl⟩ := List.mem_map.mp (List.mem_of_getElem? hget)
    have hunmarked := hvalues values hv ((hstate values).symm.trans hfinal)
    rcases List.mem_cons.mp hmem with rfl | hmem
    · obtain ⟨_, hget', hmarker⟩ := hmarked
      rw [Table.step, List.getElem?_append_right hlen, hget] at hget'
      rw [← Option.some.inj hget', Order.hasMarker_create, hunmarked] at hmarker
      cases hmarker
    · have hscope : db.ScopedAt id := by
        rcases List.mem_cons.mp hmem with rfl | hmem
        · exact hmarked.scoped
        · exact h earlier hmem id hmarked
      exact absurd hscope.lt_length (Nat.not_lt.mpr hlen)

theorem Sticky.guardHolds_iff {past : List Table} {db : Table} (h : Sticky past db) (calls : List Call) :
    GuardHolds past db calls ↔ ∀ call ∈ calls, call.CreatesNoFinalDelegated := by
  induction calls generalizing past db with
  | nil => simp [GuardHolds]
  | cons call _ ih =>
    rw [GuardHolds, ih (h.step call), List.forall_mem_cons]
    apply and_congr_left'
    cases call with
    | create uid now valuesList => exact finalUnmarked_create h uid now valuesList
    | write ids now values => exact iff_of_true (finalUnmarked_write h ids now values) trivial

/-- From any table, legacy rows included: no delegated order is final through
plain calls exactly when no `create` asks for one. -/
theorem guard_holds_iff_creates (db : Table) (calls : List Call) :
    GuardHolds [] db calls ↔ ∀ call ∈ calls, call.CreatesNoFinalDelegated :=
  Sticky.guardHolds_iff (fun _ hmem ↦ absurd hmem List.not_mem_nil) calls

/-- One `create` with a final state and a grant is enough. -/
theorem create_makes_final_delegated_order :
    ¬ GuardHolds [] [] [.create 2 0 [{ state := some .purchase, delegationGrantId := some (some 7) }]] := by
  intro h
  refine h.1 0 ⟨_, rfl, rfl⟩ ?_ _ List.mem_cons_self ⟨_, rfl, rfl⟩
  rintro ⟨_, hget, -⟩
  cases hget

end Table

end PolicyEngine.Odoo

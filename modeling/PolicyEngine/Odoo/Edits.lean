import Mathlib.Data.List.Dedup
import PolicyEngine.Odoo.Reads

namespace PolicyEngine.Odoo

open PolicyEngine.Txn

theorem Order.scope_written {order : Order} (now : Timestamp) (values : Values)
    (h : order.pdpDelegatedScope = true) :
    (order.written now values).pdpDelegatedScope = true := by
  cases hsets : values.setsMarker <;> simp [written, hsets, h, store]

/-- A transaction on `db` that edits orders and lines, and lines of the given
orders only. -/
structure Edits (db : Db) (parents : List Id) (σ : Tx) : Prop where
  snap : σ.snap = db
  events : σ.events = []
  frame : σ.FrameOf db
  footprint : ∀ key ∈ σ.writes, (∃ id, key = .order id) ∨ ∃ id, key = .line id
  orders : ∀ id order, db.lookup (.order id) = some order → ∃ order' : Order,
    σ.view.lookup (.order id) = some order' ∧
      (order.pdpDelegatedScope = true → order'.pdpDelegatedScope = true)
  before : ∀ id line, .line id ∈ σ.writes → db.lookup (.line id) = some line →
    line.orderId ∈ parents
  after : ∀ id line, .line id ∈ σ.writes → σ.view.lookup (.line id) = some line →
    line.orderId ∈ parents

def Touched (db : Db) (parents : List Id) (σ : Tx) : Prop :=
  ∀ id ∈ parents, ∀ order : Order, db.lookup (.order id) = some order → order.inScope = true →
    .order id ∈ σ.writes

namespace Edits

variable {db : Db} {parents : List Id} {σ : Tx}

theorem start (db : Db) (parents : List Id) : Edits db parents (.start db) where
  snap := rfl
  events := rfl
  frame := fun _ _ ↦ rfl
  footprint := fun _ h ↦ absurd h List.not_mem_nil
  orders := fun _ order h ↦ ⟨order, h, id⟩
  before := fun _ _ h ↦ absurd h List.not_mem_nil
  after := fun _ _ h ↦ absurd h List.not_mem_nil

theorem lock (h : Edits db parents σ) (key : Key) : Edits db parents (σ.lock key) where
  snap := (σ.lock_snap key).trans h.snap
  events := (σ.lock_events key).trans h.events
  frame := by rw [Local.FrameOf, σ.lock_writes, σ.lock_view]; exact h.frame
  footprint := by rw [σ.lock_writes]; exact h.footprint
  orders := by rw [σ.lock_view]; exact h.orders
  before := by rw [σ.lock_writes]; exact h.before
  after := by rw [σ.lock_writes, σ.lock_view]; exact h.after

theorem put_order (h : Edits db parents σ) {id : Id} {order order' : Order}
    (hvisible : σ.view.lookup (.order id) = some order)
    (hscope : order.pdpDelegatedScope = true → order'.pdpDelegatedScope = true) :
    Edits db parents (σ.put (.order id) order') where
  snap := h.snap
  events := h.events
  frame := h.frame.put _ _
  footprint := List.forall_mem_cons.mpr ⟨.inl ⟨id, rfl⟩, h.footprint⟩
  orders := by
    intro i row hrow
    obtain ⟨row', hrow', hkeep⟩ := h.orders i row hrow
    by_cases hi : i = id
    · subst hi
      cases hrow'.symm.trans hvisible
      exact ⟨order', AList.lookup_insert _, fun hs ↦ hscope (hkeep hs)⟩
    · exact ⟨row', (AList.lookup_insert_ne (by simpa using hi)).trans hrow', hkeep⟩
  before := fun i line hmem ↦ h.before i line (by simpa using hmem)
  after := by
    intro i line hmem hline
    rw [Local.put_view, AList.lookup_insert_ne (by simp)] at hline
    exact h.after i line (by simpa using hmem) hline

theorem write_line (h : Edits db parents σ) {σ' : Tx} {id : Id} (hsnap : σ'.snap = σ.snap)
    (hevents : σ'.events = σ.events) (hwrites : σ'.writes = .line id :: σ.writes)
    (hview : ∀ key, key ≠ .line id → σ'.view.lookup key = σ.view.lookup key)
    (hbefore : ∀ line : Line, db.lookup (.line id) = some line → line.orderId ∈ parents)
    (hafter : ∀ line : Line, σ'.view.lookup (.line id) = some line → line.orderId ∈ parents) :
    Edits db parents σ' where
  snap := hsnap.trans h.snap
  events := hevents.trans h.events
  frame := by
    intro key hkey
    rw [hwrites, List.mem_cons, not_or] at hkey
    rw [hview key hkey.1]
    exact h.frame key hkey.2
  footprint := by
    rw [hwrites]
    exact List.forall_mem_cons.mpr ⟨.inr ⟨id, rfl⟩, h.footprint⟩
  orders := by
    intro i order horder
    obtain ⟨order', horder', hkeep⟩ := h.orders i order horder
    exact ⟨order', (hview _ (by simp)).trans horder', hkeep⟩
  before := by
    intro i line hmem hline
    rw [hwrites] at hmem
    cases List.mem_cons.mp hmem with
    | inl heq => cases heq; exact hbefore line hline
    | inr hmem => exact h.before i line hmem hline
  after := by
    intro i line hmem hline
    rw [hwrites] at hmem
    by_cases hi : i = id
    · subst hi
      exact hafter line hline
    · rw [hview _ (by simpa using hi)] at hline
      exact h.after i line ((List.mem_cons.mp hmem).resolve_left (by simpa using hi)) hline

theorem put_line (h : Edits db parents σ) {id : Id} {row : Line}
    (hbefore : ∀ line : Line, db.lookup (.line id) = some line → line.orderId ∈ parents)
    (hafter : row.orderId ∈ parents) : Edits db parents (σ.put (.line id) row) := by
  refine h.write_line rfl rfl rfl (fun key hkey ↦ AList.lookup_insert_ne hkey) hbefore ?_
  intro _ hline
  cases (AList.lookup_insert _).symm.trans hline
  exact hafter

theorem remove_line (h : Edits db parents σ) {id : Id}
    (hbefore : ∀ line : Line, db.lookup (.line id) = some line → line.orderId ∈ parents) :
    Edits db parents (σ.remove (.line id)) := by
  refine h.write_line rfl rfl rfl (fun key hkey ↦ AList.lookup_erase_ne hkey) hbefore ?_
  intro _ hline
  cases (AList.lookup_erase _ _).symm.trans hline

end Edits

theorem get_wp {σ : Tx} (key : Key) :
    (get key).wp (fun row σ' ↦ σ' = σ ∧ σ.view.lookup key = some row) (fun _ _ ↦ True) σ := by
  rw [← bind_pure (get key)]
  exact wp_get trivial fun _ hrow ↦ ⟨rfl, hrow⟩

section Calls

variable (db : Db)

def Edited (σ : Tx) : Prop := ∃ parents, Edits db parents σ ∧ Touched db parents σ

theorem writeOrders_wp (ids : List Id) (values : Values) :
    (writeOrders ids values).wp (fun _ ↦ Edited db) (fun _ _ ↦ True) (.start db) := by
  refine Prog.wp_seq (Prog.wp_mapM fun id _ ↦ get_wp (.order id)) ?_
  intro _ σ ⟨hσ, _⟩
  subst hσ
  split
  case h_1 => trivial
  case h_2 =>
    refine Prog.wp_post (Prog.wp_forM (I := Edits db []) ?_ (.start db [])) ?_
    · intro _ _ σ h
      refine wp_get trivial fun _ horder ↦ Prog.wp_ask fun now ↦ Prog.wp_update ?_
      exact h.put_order horder fun hscope ↦ Order.scope_written now values hscope
    · intro _ _ h
      exact ⟨[], h, fun _ hid ↦ absurd hid List.not_mem_nil⟩

theorem touchDelegatedParents_wp (parents : List Id) :
    (touchDelegatedParents parents).wp (fun _ σ ↦ Edits db parents σ ∧ Touched db parents σ)
      (fun _ _ ↦ True) (.start db) := by
  apply Prog.wp_view
  refine Prog.wp_seq (Prog.wp_forM (I := Edits db parents) ?_ (.start db parents)) ?_
  · exact fun _ _ _ h ↦ Prog.wp_lock (h.lock _)
  · intro _ σ h
    refine Prog.wp_post (Prog.wp_forM_all (I := Edits db parents)
      (D := fun id σ ↦ .order id ∈ σ.writes) ?_ h) ?_
    · intro id _ σ h
      refine wp_get trivial fun order horder ↦ Prog.wp_ask fun _ ↦ Prog.wp_update ?_
      exact ⟨h.put_order horder fun hscope ↦ hscope, List.mem_cons_self,
        fun _ hid ↦ List.mem_cons_of_mem _ hid⟩
    · intro _ _ ⟨h, hdone, _⟩
      refine ⟨h, ?_⟩
      intro id hid order horder hscope
      apply hdone
      rw [delegatedParents, List.mem_filter, List.mem_insertionSort, List.mem_dedup]
      refine ⟨hid, ?_⟩
      change ((db.lookup (.order id)).any fun order : Order ↦ order.inScope) = true
      rw [horder]
      exact hscope

theorem wp_touch_forM {α : Type} {parents : List Id} {xs : List α} {f : α → M Unit}
    (hf : ∀ x ∈ xs, ∀ σ, Edits db parents σ → (f x).wp (fun _ σ' ↦ Edits db parents σ' ∧
      ∀ key ∈ σ.writes, key ∈ σ'.writes) (fun _ _ ↦ True) σ) :
    (do touchDelegatedParents parents; xs.forM f : M Unit).wp (fun _ ↦ Edited db)
      (fun _ _ ↦ True) (.start db) := by
  refine Prog.wp_seq (touchDelegatedParents_wp db parents) ?_
  intro _ σ h
  refine Prog.wp_post (Prog.wp_forM (I := fun σ ↦ Edits db parents σ ∧ Touched db parents σ) ?_ h)
    fun _ _ h ↦ ⟨parents, h⟩
  intro x hx σ h
  refine Prog.wp_post (hf x hx σ h.1) ?_
  intro _ _ ⟨h', hwrites⟩
  exact ⟨h', fun id hid order horder hscope ↦ hwrites _ (h.2 id hid order horder hscope)⟩

theorem createLines_wp (defaultOrder : Option Id) (valuesList : List LineValues) :
    (createLines defaultOrder valuesList).wp (fun _ ↦ Edited db) (fun _ _ ↦ True)
      (.start db) := by
  refine wp_touch_forM db ?_
  intro values hvalues σ h
  rw [Prog.wp_bind]
  cases hparent : values.orderId.or defaultOrder with
  | none => trivial
  | some orderId =>
    have hmem : orderId ∈
        (valuesList.map fun values ↦ values.orderId.or defaultOrder).filterMap id := by
      rw [List.mem_filterMap]
      exact ⟨some orderId, List.mem_map.mpr ⟨values, hvalues, hparent⟩, rfl⟩
    change Prog.wp _ _ (pure orderId) σ
    rw [Prog.wp_pure]
    refine Prog.wp_ask fun now ↦ Prog.wp_ask fun lineId ↦ Prog.wp_insert trivial fun hfree ↦ ?_
    refine ⟨h.put_line ?_ ?_, fun _ hkey ↦ List.mem_cons_of_mem _ hkey⟩
    · intro line hline
      by_cases hwritten : Key.line lineId ∈ σ.writes
      · exact h.before _ line hwritten hline
      · cases hfree.symm.trans ((h.frame _ hwritten).trans hline)
    · have hstored : ((Line.default orderId now).store now values).orderId = orderId := by
        change values.orderId.getD orderId = orderId
        cases hvalue : values.orderId with
        | none => rfl
        | some =>
          rw [hvalue] at hparent
          exact Option.some.inj hparent
      rw [hstored]
      exact hmem

omit db in
theorem orderId_mem_map {db : Db} {ids : List Id} {lines : List Line}
    (hlines : ∀ id ∈ ids, ∃ line ∈ lines, db.lookup (.line id) = some line) (id : Id)
    (hid : id ∈ ids) (line : Line) (hline : db.lookup (.line id) = some line) :
    line.orderId ∈ lines.map fun line : Line ↦ line.orderId := by
  obtain ⟨_, hmem, hrow⟩ := hlines id hid
  cases hrow.symm.trans hline
  exact List.mem_map_of_mem hmem

theorem writeLines_wp (ids : List Id) (values : LineValues) :
    (writeLines ids values).wp (fun _ ↦ Edited db) (fun _ _ ↦ True) (.start db) := by
  refine Prog.wp_seq (Prog.wp_mapM fun id _ ↦ get_wp (.line id)) ?_
  intro lines σ ⟨hσ, hlines⟩
  subst hσ
  have hparent : ∀ id ∈ ids, ∀ line : Line, db.lookup (.line id) = some line →
      line.orderId ∈ lines.map (fun line : Line ↦ line.orderId) ++ values.orderId.toList :=
    fun id hid line hline ↦ List.mem_append_left _ (orderId_mem_map hlines id hid line hline)
  refine wp_touch_forM db ?_
  intro id hid σ h
  refine wp_get trivial fun line hline ↦ Prog.wp_ask fun _ ↦ Prog.wp_update ?_
  refine ⟨h.put_line (hparent id hid) ?_, fun _ hkey ↦ List.mem_cons_of_mem _ hkey⟩
  change values.orderId.getD line.orderId ∈ _
  cases hvalue : values.orderId with
  | some => exact List.mem_append_right _ (by simp)
  | none =>
    rw [hvalue] at h hparent
    by_cases hwritten : Key.line id ∈ σ.writes
    · exact h.after id line hwritten hline
    · exact hparent id hid line ((h.frame _ hwritten).symm.trans hline)

theorem unlinkLines_wp (ids : List Id) :
    (unlinkLines ids).wp (fun _ ↦ Edited db) (fun _ _ ↦ True) (.start db) := by
  refine Prog.wp_seq (Prog.wp_mapM fun id _ ↦ get_wp (.line id)) ?_
  intro lines σ ⟨hσ, hlines⟩
  subst hσ
  have hparent : ∀ id ∈ ids, ∀ line : Line, db.lookup (.line id) = some line →
      line.orderId ∈ lines.map fun line : Line ↦ line.orderId := orderId_mem_map hlines
  refine wp_touch_forM db ?_
  intro id hid _ h
  apply Prog.wp_delete
  · exact ⟨h.remove_line (hparent id hid), fun _ hkey ↦ List.mem_cons_of_mem _ hkey⟩
  · exact ⟨h, fun _ hkey ↦ hkey⟩

end Calls

end PolicyEngine.Odoo

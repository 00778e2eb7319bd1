import PolicyEngine.Odoo.ApprovalLifecycle

namespace PolicyEngine.Odoo

open PolicyEngine.Txn

section Confirmations

variable {S : Type} {P : Protocol} {n : ℕ} {entry : Entry Tx.Call Row Effect} {orderId : Id}
  {W : History S Tx.Call Row Query.Answer Effect Exc Unit}

theorem Finalizes.rows (h : W.Inv (Tx.Call.prog P)) (hfinal : Finalizes W orderId n)
    (hn : W.log[n]? = some entry) : .order orderId ∈ entry.done.writes ∧
      ∃ order order' : Order, (W.version n).lookup (.order orderId) = some order ∧
        entry.done.snap.lookup (.order orderId) = some order ∧ order.state.isFinal = false ∧
        entry.done.view.lookup (.order orderId) = some order' ∧ order'.state.isFinal = true := by
  obtain ⟨order, order', hbefore, hopen, hafter, hfinal⟩ := hfinal
  have hwritten : .order orderId ∈ entry.done.writes := by
    by_contra hmem
    rw [lookup_of_unwritten hn hmem, hbefore] at hafter
    cases hafter
    cases hopen.symm.trans hfinal
  obtain ⟨hsnap, hview⟩ := lookup_of_written h hn hwritten
  exact ⟨hwritten, order, order', hbefore, hsnap.symm.trans hbefore, hopen,
    hview.symm.trans hafter, hfinal⟩

end Confirmations

end PolicyEngine.Odoo

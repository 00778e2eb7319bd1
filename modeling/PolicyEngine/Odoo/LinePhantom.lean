import PolicyEngine.Odoo.ApprovalLifecycle

namespace PolicyEngine.Odoo

open PolicyEngine.Txn

section Lines

variable {S : Type} {P : Protocol} {n : ℕ} {entry : Entry Tx.Call Row Effect} {orderId : Id}
  {W : History S Tx.Call Row Query.Answer Effect Exc Unit}

end Lines

end PolicyEngine.Odoo

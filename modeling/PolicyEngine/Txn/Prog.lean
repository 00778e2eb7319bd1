import Mathlib.Data.List.AList

namespace PolicyEngine.Txn

abbrev Store {K : Type} (R : K → Type) := AList R

/-- One statement of a transaction. `view` stands for any plain query: its answer
is computed from all the transaction can see. -/
inductive Stmt {K : Type} (R : K → Type) (Q E : Type)
  | view
  | lock (key : K)
  | update (key : K) (row : R key)
  | insert (key : K) (row : R key)
  | insertIgnore (key : K) (row : R key)
  | upsert (key : K) (row : R key)
  | delete (key : K)
  | ask (query : Q)
  | emit (event : E)

namespace Stmt

variable {K : Type} {R : K → Type} {Q E : Type} (A : Q → Type)

def Reply : Stmt R Q E → Type
  | .view => Store R
  | .lock key => Option (R key)
  | .insert _ _ => Bool
  | .ask query => A query
  | .update _ _ | .insertIgnore _ _ | .upsert _ _ | .delete _ | .emit _ => Unit

def key? : Stmt R Q E → Option K
  | .lock key | .update key _ | .insert key _ | .insertIgnore key _ | .upsert key _
  | .delete key => some key
  | .view | .ask _ | .emit _ => none

end Stmt

/-- A transaction that reads and writes rows `R`, asks its surroundings `Q` for
answers `A`, records events `E`, and ends with a value or raises. -/
inductive Prog {K : Type} (R : K → Type) {Q : Type} (A : Q → Type) (E ε α : Type)
  | pure (value : α)
  | raise (error : ε)
  | stmt (statement : Stmt R Q E) (next : statement.Reply A → Prog R A E ε α)

namespace Prog

variable {K : Type} {R : K → Type} {Q : Type} {A : Q → Type} {E ε α β : Type}

def bind : Prog R A E ε α → (α → Prog R A E ε β) → Prog R A E ε β
  | .pure value, f => f value
  | .raise error, _ => .raise error
  | .stmt statement next, f => .stmt statement fun reply ↦ (next reply).bind f

/-- What was written before the error stays written, as without a savepoint. -/
def tryCatch : Prog R A E ε α → (ε → Prog R A E ε α) → Prog R A E ε α
  | .pure value, _ => .pure value
  | .raise error, handler => handler error
  | .stmt statement next, handler => .stmt statement fun reply ↦ (next reply).tryCatch handler

instance : Monad (Prog R A E ε) where
  pure := .pure
  bind := .bind

theorem bind_assoc {γ : Type} (p : Prog R A E ε α) (f : α → Prog R A E ε β)
    (g : β → Prog R A E ε γ) : (p.bind f).bind g = p.bind fun value ↦ (f value).bind g := by
  induction p with
  | pure => rfl
  | raise => rfl
  | stmt statement _ ih => exact congrArg (Prog.stmt statement) (funext ih)

theorem bind_pure (p : Prog R A E ε α) : p.bind .pure = p := by
  induction p with
  | pure => rfl
  | raise => rfl
  | stmt statement _ ih => exact congrArg (Prog.stmt statement) (funext ih)

instance : LawfulMonad (Prog R A E ε) := .mk' _ bind_pure (fun _ _ ↦ rfl) bind_assoc

instance : MonadExceptOf ε (Prog R A E ε) where
  throw := .raise
  tryCatch := .tryCatch

def view : Prog R A E ε (Store R) := .stmt .view .pure

def lock (key : K) : Prog R A E ε (Option (R key)) := .stmt (.lock key) .pure

def update (key : K) (row : R key) : Prog R A E ε Unit := .stmt (.update key row) .pure

def insert (key : K) (row : R key) : Prog R A E ε Bool := .stmt (.insert key row) .pure

def insertIgnore (key : K) (row : R key) : Prog R A E ε Unit := .stmt (.insertIgnore key row) .pure

def upsert (key : K) (row : R key) : Prog R A E ε Unit := .stmt (.upsert key row) .pure

def delete (key : K) : Prog R A E ε Unit := .stmt (.delete key) .pure

def ask (query : Q) : Prog R A E ε (A query) := .stmt (.ask query) .pure

def emit (event : E) : Prog R A E ε Unit := .stmt (.emit event) .pure

end Prog

/-- A transaction in progress: the database it began with, what it sees of it
after its own writes, the keys it has locked and written, and its events. -/
structure Local {K : Type} (R : K → Type) (E : Type) where
  snap : Store R
  view : Store R
  locks : List K
  writes : List K
  events : List E

namespace Local

variable {K : Type} {R : K → Type} {E : Type}

def start (db : Store R) : Local R E := ⟨db, db, [], [], []⟩

def emit (σ : Local R E) (event : E) : Local R E := { σ with events := σ.events ++ [event] }

@[simp] theorem emit_view (σ : Local R E) (event : E) : (σ.emit event).view = σ.view := rfl

@[simp] theorem emit_snap (σ : Local R E) (event : E) : (σ.emit event).snap = σ.snap := rfl

@[simp] theorem emit_writes (σ : Local R E) (event : E) : (σ.emit event).writes = σ.writes := rfl

@[simp] theorem emit_locks (σ : Local R E) (event : E) : (σ.emit event).locks = σ.locks := rfl

@[simp] theorem emit_events (σ : Local R E) (event : E) :
    (σ.emit event).events = σ.events ++ [event] := rfl

variable [DecidableEq K]

def lock (σ : Local R E) (key : K) : Local R E :=
  if (σ.view.lookup key).isSome then { σ with locks := key :: σ.locks } else σ

def put (σ : Local R E) (key : K) (row : R key) : Local R E :=
  { σ with view := σ.view.insert key row, locks := key :: σ.locks, writes := key :: σ.writes }

def remove (σ : Local R E) (key : K) : Local R E :=
  { σ with view := σ.view.erase key, locks := key :: σ.locks, writes := key :: σ.writes }

/-- One statement. `taken` says that the key has a committed row the transaction
does not see: an insertion then finds a duplicate, and one that would go on with
that row cannot, since it would mix two snapshots. -/
def perform {Q : Type} {A : Q → Type} (answer : (query : Q) → A query) (taken : Bool)
    (σ : Local R E) : (statement : Stmt R Q E) → Option (statement.Reply A × Local R E)
  | .view => some (σ.view, σ)
  | .lock key => some (σ.view.lookup key, σ.lock key)
  | .update key row => if (σ.view.lookup key).isSome then some ((), σ.put key row) else none
  | .insert key row =>
    if taken ∨ (σ.view.lookup key).isSome then some (false, σ) else some (true, σ.put key row)
  | .insertIgnore key row =>
    if (σ.view.lookup key).isSome then some ((), σ)
    else if taken then none
    else some ((), σ.put key row)
  | .upsert key row =>
    if (σ.view.lookup key).isNone ∧ taken then none else some ((), σ.put key row)
  | .delete key => if (σ.view.lookup key).isSome then some ((), σ.remove key) else some ((), σ)
  | .ask query => some (answer query, σ)
  | .emit event => some ((), σ.emit event)

@[simp] theorem put_view (σ : Local R E) (key : K) (row : R key) :
    (σ.put key row).view = σ.view.insert key row := rfl

@[simp] theorem put_snap (σ : Local R E) (key : K) (row : R key) :
    (σ.put key row).snap = σ.snap := rfl

@[simp] theorem put_events (σ : Local R E) (key : K) (row : R key) :
    (σ.put key row).events = σ.events := rfl

@[simp] theorem put_writes (σ : Local R E) (key : K) (row : R key) :
    (σ.put key row).writes = key :: σ.writes := rfl

@[simp] theorem put_locks (σ : Local R E) (key : K) (row : R key) :
    (σ.put key row).locks = key :: σ.locks := rfl

@[simp] theorem remove_view (σ : Local R E) (key : K) :
    (σ.remove key).view = σ.view.erase key := rfl

@[simp] theorem remove_writes (σ : Local R E) (key : K) :
    (σ.remove key).writes = key :: σ.writes := rfl

@[simp] theorem lock_view (σ : Local R E) (key : K) : (σ.lock key).view = σ.view := by
  unfold lock
  split <;> rfl

@[simp] theorem lock_snap (σ : Local R E) (key : K) : (σ.lock key).snap = σ.snap := by
  unfold lock
  split <;> rfl

@[simp] theorem lock_writes (σ : Local R E) (key : K) : (σ.lock key).writes = σ.writes := by
  unfold lock
  split <;> rfl

@[simp] theorem lock_events (σ : Local R E) (key : K) : (σ.lock key).events = σ.events := by
  unfold lock
  split <;> rfl

def FrameOf (db : Store R) (σ : Local R E) : Prop :=
  ∀ key, key ∉ σ.writes → σ.view.lookup key = db.lookup key

theorem FrameOf.put {db : Store R} {σ : Local R E} (h : FrameOf db σ) (key : K) (row : R key) :
    FrameOf db (σ.put key row) := by
  intro k hk
  rw [put_writes, List.mem_cons, not_or] at hk
  rw [put_view, AList.lookup_insert_ne hk.1, h k hk.2]

theorem mem_locks_lock {σ : Local R E} {key k : K} (h : k ∈ σ.locks) : k ∈ (σ.lock key).locks := by
  unfold lock
  split
  · exact List.mem_cons_of_mem key h
  · exact h

theorem mem_lock_self {σ : Local R E} {key : K} {row : R key}
    (h : σ.view.lookup key = some row) : key ∈ (σ.lock key).locks := by
  rw [lock, h, if_pos (Option.isSome_some)]
  exact List.mem_cons_self

end Local

namespace Prog

variable {K : Type} [DecidableEq K] {R : K → Type} {Q : Type} {A : Q → Type} {E ε α β : Type}
variable {post : α → Local R E → Prop} {exc : ε → Local R E → Prop} {σ : Local R E}

/-- Whatever its surroundings answer, the program ends in `post` or raises in
`exc`, if its statements let it get there. -/
def wp (post : α → Local R E → Prop) (exc : ε → Local R E → Prop) :
    Prog R A E ε α → Local R E → Prop
  | .pure value, σ => post value σ
  | .raise error, σ => exc error σ
  | .stmt statement next, σ => ∀ (answer : (query : Q) → A query) taken reply σ',
      σ.perform answer taken statement = some (reply, σ') → (next reply).wp post exc σ'

@[simp] theorem wp_pure (value : α) :
    (Pure.pure value : Prog R A E ε α).wp post exc σ ↔ post value σ := Iff.rfl

@[simp] theorem wp_throw (error : ε) :
    (throw error : Prog R A E ε α).wp post exc σ ↔ exc error σ := Iff.rfl

@[simp] theorem wp_bind (p : Prog R A E ε α) (f : α → Prog R A E ε β)
    (post : β → Local R E → Prop) :
    (p >>= f).wp post exc σ ↔ p.wp (fun value σ ↦ (f value).wp post exc σ) exc σ := by
  show (p.bind f).wp post exc σ ↔ _
  induction p generalizing σ with
  | pure => rfl
  | raise => rfl
  | stmt _ _ ih =>
    simp only [bind, wp]
    exact forall₄_congr fun _ _ reply σ' ↦ imp_congr_right fun _ ↦ ih reply

@[simp] theorem wp_tryCatch (p : Prog R A E ε α) (handler : ε → Prog R A E ε α) :
    (tryCatchThe ε p handler).wp post exc σ ↔
      p.wp post (fun error σ ↦ (handler error).wp post exc σ) σ := by
  show (p.tryCatch handler).wp post exc σ ↔ _
  induction p generalizing σ with
  | pure => rfl
  | raise => rfl
  | stmt _ _ ih =>
    simp only [tryCatch, wp]
    exact forall₄_congr fun _ _ reply σ' ↦ imp_congr_right fun _ ↦ ih reply

theorem wp_mono {post' : α → Local R E → Prop} {exc' : ε → Local R E → Prop}
    {p : Prog R A E ε α} (h : p.wp post exc σ) (hpost : ∀ value σ, post value σ → post' value σ)
    (hexc : ∀ error σ, exc error σ → exc' error σ) : p.wp post' exc' σ := by
  induction p generalizing σ with
  | pure value => exact hpost value σ h
  | raise error => exact hexc error σ h
  | stmt _ _ ih =>
    intro answer taken reply σ' hstep
    exact ih reply (h answer taken reply σ' hstep)

theorem wp_post {post' : α → Local R E → Prop} {p : Prog R A E ε α} (h : p.wp post exc σ)
    (hpost : ∀ value σ, post value σ → post' value σ) : p.wp post' exc σ :=
  wp_mono h hpost fun _ _ h ↦ h

theorem wp_seq {mid : β → Local R E → Prop} {p : Prog R A E ε β} {f : β → Prog R A E ε α}
    (hp : p.wp mid exc σ) (hf : ∀ value σ', mid value σ' → (f value).wp post exc σ') :
    (p >>= f).wp post exc σ := by
  rw [wp_bind]
  exact wp_post hp hf

theorem wp_guard {c : Prop} [Decidable c] {error : ε} {p : Prog R A E ε α} (hexc : exc error σ)
    (h : ¬c → p.wp post exc σ) : (if c then throw error else p).wp post exc σ := by
  split
  case isTrue => exact hexc
  case isFalse hc => exact h hc

section Statements

variable {key : K} {row : R key}

theorem wp_view {next : Store R → Prog R A E ε α} (h : (next σ.view).wp post exc σ) :
    (view >>= next).wp post exc σ := by
  intro _ _ _ _ hstep
  cases hstep
  exact h

theorem wp_lock {next : Option (R key) → Prog R A E ε α}
    (h : (next (σ.view.lookup key)).wp post exc (σ.lock key)) :
    (lock key >>= next).wp post exc σ := by
  intro _ _ _ _ hstep
  cases hstep
  exact h

theorem wp_ask {query : Q} {next : A query → Prog R A E ε α}
    (h : ∀ value, (next value).wp post exc σ) : (ask query >>= next).wp post exc σ := by
  intro answer _ _ _ hstep
  cases hstep
  exact h (answer query)

theorem wp_emit {event : E} {next : Unit → Prog R A E ε α}
    (h : (next ()).wp post exc (σ.emit event)) : (emit event >>= next).wp post exc σ := by
  intro _ _ _ _ hstep
  cases hstep
  exact h

theorem wp_update {next : Unit → Prog R A E ε α} (h : (next ()).wp post exc (σ.put key row)) :
    (update key row >>= next).wp post exc σ := by
  intro _ _ _ _ hstep
  simp only [Local.perform] at hstep
  split at hstep
  case isTrue => cases hstep; exact h
  case isFalse => cases hstep

theorem wp_insert {next : Bool → Prog R A E ε α} (hduplicate : (next false).wp post exc σ)
    (hfree : σ.view.lookup key = none → (next true).wp post exc (σ.put key row)) :
    (insert key row >>= next).wp post exc σ := by
  intro _ _ _ _ hstep
  simp only [Local.perform] at hstep
  split at hstep
  case isTrue => cases hstep; exact hduplicate
  case isFalse hnone =>
    cases hstep
    exact hfree (by simpa using (not_or.mp hnone).2)

theorem wp_insertIgnore {next : Unit → Prog R A E ε α} (hvisible : (next ()).wp post exc σ)
    (hfree : σ.view.lookup key = none → (next ()).wp post exc (σ.put key row)) :
    (insertIgnore key row >>= next).wp post exc σ := by
  intro _ _ _ _ hstep
  simp only [Local.perform] at hstep
  split at hstep
  case isTrue => cases hstep; exact hvisible
  case isFalse hnone =>
    split at hstep
    case isTrue => cases hstep
    case isFalse => cases hstep; exact hfree (by simpa using hnone)

theorem wp_upsert {next : Unit → Prog R A E ε α} (h : (next ()).wp post exc (σ.put key row)) :
    (upsert key row >>= next).wp post exc σ := by
  intro _ _ _ _ hstep
  simp only [Local.perform] at hstep
  split at hstep
  case isTrue => cases hstep
  case isFalse => cases hstep; exact h

theorem wp_delete {next : Unit → Prog R A E ε α} (hvisible : (next ()).wp post exc (σ.remove key))
    (hfree : (next ()).wp post exc σ) : (delete key >>= next).wp post exc σ := by
  intro _ _ _ _ hstep
  simp only [Local.perform] at hstep
  split at hstep
  case isTrue => cases hstep; exact hvisible
  case isFalse => cases hstep; exact hfree

end Statements

theorem wp_forM {I : Local R E → Prop} {xs : List β} {f : β → Prog R A E ε PUnit}
    (hf : ∀ x ∈ xs, ∀ σ, I σ → (f x).wp (fun _ ↦ I) exc σ) (h : I σ) :
    (xs.forM f).wp (fun _ ↦ I) exc σ := by
  induction xs generalizing σ with
  | nil => exact h
  | cons x _ ih =>
    refine wp_seq (hf x List.mem_cons_self σ h) ?_
    intro _ _ h'
    exact ih (fun y hy ↦ hf y (List.mem_cons_of_mem x hy)) h'

theorem wp_forM_all {I : Local R E → Prop} {D : β → Local R E → Prop} {xs : List β}
    {f : β → Prog R A E ε PUnit}
    (hf : ∀ x ∈ xs, ∀ σ, I σ →
      (f x).wp (fun _ σ' ↦ I σ' ∧ D x σ' ∧ ∀ y, D y σ → D y σ') exc σ) (h : I σ) :
    (xs.forM f).wp (fun _ σ' ↦ I σ' ∧ (∀ x ∈ xs, D x σ') ∧ ∀ y, D y σ → D y σ') exc σ := by
  induction xs generalizing σ with
  | nil => exact ⟨h, fun _ hx ↦ absurd hx List.not_mem_nil, fun _ hy ↦ hy⟩
  | cons x _ ih =>
    refine wp_seq (hf x List.mem_cons_self σ h) ?_
    intro _ _ ⟨h₁, hx, hkeep⟩
    refine wp_post (ih (fun y hy ↦ hf y (List.mem_cons_of_mem x hy)) h₁) ?_
    intro _ _ ⟨h₂, hxs, hkeep'⟩
    exact ⟨h₂, List.forall_mem_cons.mpr ⟨hkeep' x hx, hxs⟩, fun y hy ↦ hkeep' y (hkeep y hy)⟩

theorem wp_mapM {γ : Type} {T : β → γ → Prop} {xs : List β} {f : β → Prog R A E ε γ}
    (hf : ∀ x ∈ xs, (f x).wp (fun y σ' ↦ σ' = σ ∧ T x y) exc σ) :
    (xs.mapM f).wp (fun ys σ' ↦ σ' = σ ∧ ∀ x ∈ xs, ∃ y ∈ ys, T x y) exc σ := by
  induction xs with
  | nil => exact ⟨rfl, fun _ hx ↦ absurd hx List.not_mem_nil⟩
  | cons x _ ih =>
    rw [List.mapM_cons]
    refine wp_seq (hf x List.mem_cons_self) ?_
    intro y _ ⟨hσ', hy⟩
    subst hσ'
    refine wp_seq (ih fun z hz ↦ hf z (List.mem_cons_of_mem x hz)) ?_
    intro _ _ ⟨hσ'', hys⟩
    refine ⟨hσ'', List.forall_mem_cons.mpr ⟨⟨y, List.mem_cons_self, hy⟩, ?_⟩⟩
    intro z hz
    obtain ⟨w, hw, hzw⟩ := hys z hz
    exact ⟨w, List.mem_cons_of_mem y hw, hzw⟩

/-- A transition relation the program keeps to, from wherever it starts and
however it ends. -/
def Keeps (T : Local R E → Local R E → Prop) (p : Prog R A E ε α) : Prop :=
  ∀ σ, p.wp (fun _ ↦ T σ) (fun _ ↦ T σ) σ

namespace Keeps

variable {T : Local R E → Local R E → Prop}

theorem bind [IsTrans (Local R E) T] {p : Prog R A E ε α} {f : α → Prog R A E ε β}
    (hp : p.Keeps T) (hf : ∀ value, (f value).Keeps T) : (p >>= f).Keeps T := by
  intro σ
  refine wp_seq (hp σ) ?_
  intro value σ' hσ'
  exact wp_mono (hf value σ') (fun _ _ h ↦ IsTrans.trans σ σ' _ hσ' h)
    (fun _ _ h ↦ IsTrans.trans σ σ' _ hσ' h)

theorem andThen {p : Prog R A E ε β} {f : β → Prog R A E ε α} (hp : p.Keeps T)
    (hf : ∀ value σ', T σ σ' → (f value).wp post (fun _ _ ↦ True) σ') :
    (p >>= f).wp post (fun _ _ ↦ True) σ := by
  rw [wp_bind]
  exact wp_mono (hp σ) hf fun _ _ _ ↦ trivial

theorem next [IsTrans (Local R E) T] {σ₀ : Local R E} {p : Prog R A E ε β}
    {f : β → Prog R A E ε α} (hp : p.Keeps T) (h₀ : T σ₀ σ)
    (hf : ∀ value σ', T σ σ' → T σ₀ σ' → (f value).wp post (fun _ ↦ T σ₀) σ') :
    (p >>= f).wp post (fun _ ↦ T σ₀) σ := by
  rw [wp_bind]
  exact wp_mono (hp σ) (fun value σ' h ↦ hf value σ' h (IsTrans.trans _ _ _ h₀ h))
    fun _ _ h ↦ IsTrans.trans _ _ _ h₀ h

theorem tryCatch [IsTrans (Local R E) T] {p : Prog R A E ε α} {handler : ε → Prog R A E ε α}
    (hp : p.Keeps T) (hh : ∀ error, (handler error).Keeps T) :
    (tryCatchThe ε p handler).Keeps T := by
  intro σ
  rw [wp_tryCatch]
  refine wp_mono (hp σ) (fun _ _ h ↦ h) ?_
  intro error σ' hσ'
  exact wp_mono (hh error σ') (fun _ _ h ↦ IsTrans.trans σ σ' _ hσ' h)
    (fun _ _ h ↦ IsTrans.trans σ σ' _ hσ' h)

theorem ite {c : Prop} [Decidable c] {p q : Prog R A E ε α} (hp : p.Keeps T) (hq : q.Keeps T) :
    (if c then p else q).Keeps T := by
  split
  · exact hp
  · exact hq

theorem pure [Std.Refl T] (value : α) : (Pure.pure value : Prog R A E ε α).Keeps T :=
  fun σ ↦ Std.Refl.refl σ

theorem throw [Std.Refl T] (error : ε) : (throw error : Prog R A E ε α).Keeps T :=
  fun σ ↦ Std.Refl.refl σ

theorem forM [Std.Refl T] [IsTrans (Local R E) T] {xs : List β} {f : β → Prog R A E ε PUnit}
    (hf : ∀ x, (f x).Keeps T) : (xs.forM f).Keeps T := by
  induction xs with
  | nil => exact Keeps.pure _
  | cons x _ ih => exact (hf x).bind fun _ ↦ ih

end Keeps

end Prog

end PolicyEngine.Txn

import Mathlib.Data.Fintype.Defs
import PolicyEngine.Trace.Run
import PolicyEngine.Txn.Prog

namespace PolicyEngine.Txn

variable {K : Type} {R : K → Type} {Q : Type} {A : Q → Type} {E ε α C S : Type}

/-- A committed transaction: the call it ran, how many had committed when it
began, and what it did. -/
structure Entry (C : Type) (R : K → Type) (E : Type) where
  call : C
  since : ℕ
  done : Local R E

structure Session (C : Type) (R : K → Type) (A : Q → Type) (E ε α : Type) where
  call : C
  since : ℕ
  rest : Prog R A E ε α
  state : Local R E

structure History (S C : Type) (R : K → Type) (A : Q → Type) (E ε α : Type) where
  init : Store R
  log : List (Entry C R E)
  active : S → Option (Session C R A E ε α)

inductive Event (S C : Type) {Q : Type} (A : Q → Type)
  | begin (session : S) (call : C)
  | perform (session : S) (answer : (query : Q) → A query)
  | commit (session : S)
  | rollback (session : S)

def Event.session : Event S C A → S
  | .begin s _ | .perform s _ | .commit s | .rollback s => s

section Commit

variable [DecidableEq K]

def Local.settle (σ : Local R E) (key : K) (db : Store R) : Store R :=
  match σ.view.lookup key with
  | some row => db.insert key row
  | none => db.erase key

def Local.commit (σ : Local R E) (db : Store R) : Store R := σ.writes.foldr σ.settle db

theorem Local.lookup_settle_self (σ : Local R E) (key : K) (db : Store R) :
    (σ.settle key db).lookup key = σ.view.lookup key := by
  unfold Local.settle
  cases h : σ.view.lookup key with
  | some => exact AList.lookup_insert db
  | none => exact AList.lookup_erase key db

theorem Local.lookup_settle_ne (σ : Local R E) {key k : K} (h : k ≠ key) (db : Store R) :
    (σ.settle key db).lookup k = db.lookup k := by
  unfold Local.settle
  cases σ.view.lookup key with
  | some => exact AList.lookup_insert_ne h
  | none => exact AList.lookup_erase_ne h

theorem Local.lookup_commit (σ : Local R E) (key : K) (db : Store R) :
    (σ.commit db).lookup key = if key ∈ σ.writes then σ.view.lookup key else db.lookup key := by
  have hfold : ∀ keys : List K, (keys.foldr σ.settle db).lookup key =
      if key ∈ keys then σ.view.lookup key else db.lookup key := by
    intro keys
    induction keys with
    | nil => simp
    | cons k _ ih =>
      rw [List.foldr_cons]
      by_cases hk : key = k
      · subst hk
        rw [if_pos List.mem_cons_self]
        exact σ.lookup_settle_self key _
      · rw [σ.lookup_settle_ne hk, ih]
        simp only [List.mem_cons, hk, false_or]
  exact hfold σ.writes

theorem Local.lookup_commit_of_mem {σ : Local R E} {key : K} (h : key ∈ σ.writes)
    (db : Store R) : (σ.commit db).lookup key = σ.view.lookup key := by
  rw [σ.lookup_commit, if_pos h]

theorem Local.lookup_commit_of_notMem {σ : Local R E} {key : K} (h : key ∉ σ.writes)
    (db : Store R) : (σ.commit db).lookup key = db.lookup key := by
  rw [σ.lookup_commit, if_neg h]

end Commit

section Replay

variable [DecidableEq K]

def replay (init : Store R) (past : List (Entry C R E)) : Store R :=
  past.foldl (fun db entry ↦ entry.done.commit db) init

theorem replay_append (init : Store R) (past : List (Entry C R E)) (entry : Entry C R E) :
    replay init (past ++ [entry]) = entry.done.commit (replay init past) := by
  rw [replay, List.foldl_append]
  rfl

/-- A transaction ready to commit on `db`: what it has not written it sees as in
its snapshot, and what it has locked is in `db` as in its snapshot. -/
structure Commits (db : Store R) (σ : Local R E) : Prop where
  frame : σ.FrameOf σ.snap
  locked : ∀ key ∈ σ.writes, key ∈ σ.locks
  agree : ∀ key ∈ σ.locks, db.lookup key = σ.snap.lookup key

theorem lookup_replay_of_unwritten (init : Store R) (past : List (Entry C R E)) {key : K}
    (h : ∀ entry ∈ past, key ∉ entry.done.writes) :
    (replay init past).lookup key = init.lookup key := by
  induction past generalizing init with
  | nil => rfl
  | cons entry _ ih =>
    have hrest := ih (entry.done.commit init) fun e he ↦ h e (List.mem_cons_of_mem entry he)
    rw [Local.lookup_commit_of_notMem (h entry List.mem_cons_self)] at hrest
    exact hrest

/-- What holds of a transaction that began after `since` of the `past` commits:
it sees its snapshot through its own writes, and the rows it has locked are
those of its snapshot still. -/
structure Consistent (init : Store R) (past : List (Entry C R E)) (since : ℕ)
    (σ : Local R E) : Prop extends Commits (replay init past) σ where
  since_le : since ≤ past.length
  snap : σ.snap = replay init (past.take since)
  unwritten : ∀ key ∈ σ.locks, (σ.snap.lookup key).isSome = true →
    ∀ entry ∈ past.drop since, key ∉ entry.done.writes

namespace Consistent

variable {init : Store R} {past : List (Entry C R E)} {since : ℕ} {σ σ' : Local R E}

theorem start (init : Store R) (past : List (Entry C R E)) :
    Consistent init past past.length (.start (replay init past)) where
  since_le := Nat.le_refl _
  snap := by rw [List.take_length]; rfl
  frame := fun _ _ ↦ rfl
  locked := fun _ h ↦ h
  agree := fun _ _ ↦ rfl
  unwritten := fun _ h ↦ absurd h List.not_mem_nil

theorem append (h : Consistent init past since σ) {entry : Entry C R E}
    (hentry : ∀ key ∈ σ.locks, key ∉ entry.done.writes) :
    Consistent init (past ++ [entry]) since σ where
  since_le := by
    rw [List.length_append]
    exact Nat.le_add_right_of_le h.since_le
  snap := by rw [List.take_append_of_le_length h.since_le, h.snap]
  frame := h.frame
  locked := h.locked
  agree := by
    intro key hkey
    rw [replay_append, Local.lookup_commit_of_notMem (hentry key hkey), h.agree key hkey]
  unwritten := by
    intro key hkey hsome e he
    rw [List.drop_append_of_le_length h.since_le, List.mem_append, List.mem_singleton] at he
    cases he with
    | inl he => exact h.unwritten key hkey hsome e he
    | inr he => exact he ▸ hentry key hkey

theorem agree_of_unwritten (h : Consistent init past since σ) {key : K}
    (hkey : ∀ entry ∈ past.drop since, key ∉ entry.done.writes) :
    (replay init past).lookup key = σ.snap.lookup key := by
  have hsplit : replay init past = replay (replay init (past.take since)) (past.drop since) := by
    rw [replay, replay, replay, ← List.foldl_append, List.take_append_drop]
  rw [hsplit, lookup_replay_of_unwritten _ _ hkey, h.snap]

theorem view_eq (h : Consistent init past since σ) {key : K} (hkey : key ∉ σ.locks) :
    σ.view.lookup key = σ.snap.lookup key :=
  h.frame key fun hwrites ↦ hkey (h.locked key hwrites)

def CanLock (init : Store R) (past : List (Entry C R E)) (since : ℕ) (σ : Local R E)
    (key : K) : Prop :=
  ((σ.view.lookup key).isSome = true → ∀ entry ∈ past.drop since, key ∉ entry.done.writes) ∧
    (σ.view.lookup key = none → (replay init past).lookup key = none)

theorem of_canLock (h : Consistent init past since σ) {key : K}
    (hkey : key ∈ σ.locks ∨ CanLock init past since σ key) :
    (replay init past).lookup key = σ.snap.lookup key ∧
      ((σ.snap.lookup key).isSome = true →
        ∀ entry ∈ past.drop since, key ∉ entry.done.writes) := by
  by_cases hlock : key ∈ σ.locks
  · exact ⟨h.agree key hlock, h.unwritten key hlock⟩
  · obtain ⟨hvisible, hfree⟩ := hkey.resolve_left hlock
    rw [h.view_eq hlock] at hvisible hfree
    refine ⟨?_, hvisible⟩
    cases hsnap : σ.snap.lookup key with
    | none => exact hfree hsnap
    | some => rw [h.agree_of_unwritten (hvisible (by rw [hsnap]; rfl)), hsnap]

theorem lock (h : Consistent init past since σ) {key : K}
    (hkey : (σ.view.lookup key).isSome = true → key ∈ σ.locks ∨ CanLock init past since σ key) :
    Consistent init past since (σ.lock key) := by
  unfold Local.lock
  split
  case isFalse => exact h
  case isTrue hvisible =>
    have hcan := h.of_canLock (hkey hvisible)
    refine ⟨⟨h.frame, ?_, ?_⟩, h.since_le, h.snap, ?_⟩
    · exact fun k hk ↦ List.mem_cons_of_mem key (h.locked k hk)
    · exact List.forall_mem_cons.mpr ⟨hcan.1, h.agree⟩
    · exact List.forall_mem_cons.mpr ⟨hcan.2, h.unwritten⟩

theorem write (h : Consistent init past since σ) {key : K}
    (hkey : key ∈ σ.locks ∨ CanLock init past since σ key) (hsnap : σ'.snap = σ.snap)
    (hlocks : σ'.locks = key :: σ.locks) (hwrites : σ'.writes = key :: σ.writes)
    (hview : ∀ k, k ≠ key → σ'.view.lookup k = σ.view.lookup k) :
    Consistent init past since σ' := by
  have hcan := h.of_canLock hkey
  refine ⟨⟨?_, ?_, ?_⟩, h.since_le, hsnap.trans h.snap, ?_⟩
  · intro k hk
    rw [hwrites, List.mem_cons, not_or] at hk
    rw [hview k hk.1, hsnap, h.frame k hk.2]
  · intro k hk
    rw [hwrites] at hk
    rw [hlocks]
    exact List.mem_cons.mpr ((List.mem_cons.mp hk).imp_right (h.locked k))
  · rw [hlocks, hsnap]
    exact List.forall_mem_cons.mpr ⟨hcan.1, h.agree⟩
  · rw [hlocks, hsnap]
    exact List.forall_mem_cons.mpr ⟨hcan.2, h.unwritten⟩

theorem put (h : Consistent init past since σ) {key : K} (row : R key)
    (hkey : key ∈ σ.locks ∨ CanLock init past since σ key) :
    Consistent init past since (σ.put key row) :=
  h.write hkey rfl rfl rfl fun _ hk ↦ AList.lookup_insert_ne hk

theorem remove (h : Consistent init past since σ) {key : K}
    (hkey : key ∈ σ.locks ∨ CanLock init past since σ key) :
    Consistent init past since (σ.remove key) :=
  h.write hkey rfl rfl rfl fun _ hk ↦ AList.lookup_erase_ne hk

theorem perform (h : Consistent init past since σ) {answer : (query : Q) → A query}
    {taken : Bool} {statement : Stmt R Q E} {reply : statement.Reply A}
    (hstep : σ.perform answer taken statement = some (reply, σ'))
    (htaken : ∀ key, statement.key? = some key → key ∉ σ.locks → taken = false →
      (replay init past).lookup key = none)
    (hgrant : ∀ key ∈ σ'.locks, key ∈ σ.locks ∨ ((σ.view.lookup key).isSome = true →
      ∀ entry ∈ past.drop since, key ∉ entry.done.writes)) :
    Consistent init past since σ' := by
  -- A key that gets locked and is not visible was not taken.
  have hcan : ∀ key, statement.key? = some key → key ∈ σ'.locks →
      (σ.view.lookup key = none → taken = false) →
      key ∈ σ.locks ∨ CanLock init past since σ key := by
    intro key hkey hmem hfree
    by_cases hlock : key ∈ σ.locks
    · exact .inl hlock
    · refine .inr ⟨(hgrant key hmem).resolve_left hlock, ?_⟩
      intro hnone
      exact htaken key hkey hlock (hfree hnone)
  cases statement with
  | view => cases hstep; exact h
  | ask => cases hstep; exact h
  | emit => cases hstep; exact ⟨⟨h.frame, h.locked, h.agree⟩, h.since_le, h.snap, h.unwritten⟩
  | lock key =>
    cases hstep
    apply h.lock
    intro hvisible
    refine hcan key rfl ?_ (fun hnone ↦ absurd hnone (Option.ne_none_iff_isSome.mpr hvisible))
    rw [Local.lock, if_pos hvisible]
    exact List.mem_cons_self
  | update key row =>
    simp only [Local.perform] at hstep
    split at hstep
    case isFalse => cases hstep
    case isTrue hvisible =>
      cases hstep
      exact h.put row (hcan key rfl List.mem_cons_self
        (fun hnone ↦ absurd hnone (Option.ne_none_iff_isSome.mpr hvisible)))
  | insert key row =>
    simp only [Local.perform] at hstep
    split at hstep
    case isTrue => cases hstep; exact h
    case isFalse hfree =>
      cases hstep
      exact h.put row (hcan key rfl List.mem_cons_self
        (fun _ ↦ Bool.eq_false_iff.mpr (not_or.mp hfree).1))
  | insertIgnore key row =>
    simp only [Local.perform] at hstep
    split at hstep
    case isTrue => cases hstep; exact h
    case isFalse =>
      split at hstep
      case isTrue => cases hstep
      case isFalse hfree =>
        cases hstep
        exact h.put row (hcan key rfl List.mem_cons_self (fun _ ↦ Bool.eq_false_iff.mpr hfree))
  | upsert key row =>
    simp only [Local.perform] at hstep
    split at hstep
    case isTrue => cases hstep
    case isFalse hfree =>
      cases hstep
      refine h.put row (hcan key rfl List.mem_cons_self ?_)
      intro hnone
      exact Bool.eq_false_iff.mpr fun htaken ↦ hfree ⟨by rw [hnone]; rfl, htaken⟩
  | delete key =>
    simp only [Local.perform] at hstep
    split at hstep
    case isTrue hvisible =>
      cases hstep
      exact h.remove (hcan key rfl List.mem_cons_self
        (fun hnone ↦ absurd hnone (Option.ne_none_iff_isSome.mpr hvisible)))
    case isFalse => cases hstep; exact h

end Consistent

end Replay

namespace History

section Versions

variable [DecidableEq K] (W : History S C R A E ε α)

def version (n : ℕ) : Store R := replay W.init (W.log.take n)

def db : Store R := replay W.init W.log

def Free (s : S) (key : K) : Prop :=
  ∀ t, t = s ∨ (W.active t).all (fun session ↦ key ∉ session.state.locks) = true

def Unchanged (session : Session C R A E ε α) (key : K) : Prop :=
  (session.state.view.lookup key).isSome = true →
    ∀ entry ∈ W.log.drop session.since, key ∉ entry.done.writes

/-- Each lock a statement takes can be had: its key is free and its row is not a
later one. Else the transaction waits, or rolls back. -/
def Grants (s : S) (session : Session C R A E ε α) (σ : Local R E) : Prop :=
  ∀ key ∈ σ.locks, key ∈ session.state.locks ∨ W.Free s key ∧ W.Unchanged session key

def Taken (session : Session C R A E ε α) (key : K) : Prop :=
  key ∉ session.state.locks ∧ (W.db.lookup key).isSome = true

instance [DecidableEq S] [Fintype S] (s : S) (key : K) : Decidable (W.Free s key) :=
  inferInstanceAs (Decidable (∀ _, _))

instance (session : Session C R A E ε α) (key : K) : Decidable (W.Unchanged session key) :=
  inferInstanceAs (Decidable (_ → _))

instance [DecidableEq S] [Fintype S] (s : S) (session : Session C R A E ε α) (σ : Local R E) :
    Decidable (W.Grants s session σ) :=
  inferInstanceAs (Decidable (∀ _ ∈ _, _))

instance (session : Session C R A E ε α) (key : K) : Decidable (W.Taken session key) :=
  inferInstanceAs (Decidable (_ ∧ _))

end Versions

section Step

variable [DecidableEq K] [DecidableEq S] [Fintype S] (prog : C → Prog R A E ε α)

def setActive (W : History S C R A E ε α) (s : S) (session : Option (Session C R A E ε α)) :
    History S C R A E ε α :=
  { W with active := Function.update W.active s session }

/-- Transactions at the isolation level REPEATABLE READ, interleaved statement by
statement. A transaction may roll back at any point; it must when it has raised,
or when its next statement is refused for good. -/
def step (W : History S C R A E ε α) : Event S C A → Option (History S C R A E ε α)
  | .begin s call =>
    match W.active s with
    | none => some (W.setActive s (some ⟨call, W.log.length, prog call, .start W.db⟩))
    | some _ => none
  | .perform s answer =>
    match W.active s with
    | some ⟨call, since, .stmt statement next, σ⟩ =>
      let session : Session C R A E ε α := ⟨call, since, .stmt statement next, σ⟩
      let taken := statement.key?.any fun key ↦ decide (W.Taken session key)
      match σ.perform answer taken statement with
      | some (reply, σ') =>
        if W.Grants s session σ' then
          some (W.setActive s (some ⟨call, since, next reply, σ'⟩))
        else none
      | none => none
    | _ => none
  | .commit s =>
    match W.active s with
    | some ⟨call, since, .pure _, σ⟩ =>
      some { W.setActive s none with log := W.log ++ [⟨call, since, σ⟩] }
    | _ => none
  | .rollback s =>
    match W.active s with
    | some _ => some (W.setActive s none)
    | none => none

def idle (db : Store R) : History S C R A E ε α := ⟨db, [], fun _ ↦ none⟩

omit [DecidableEq S] [Fintype S] in
/-- What is known of an open transaction and of a committed one: it is consistent
with the commits so far, and ends as its program's conditions say. -/
structure Inv (W : History S C R A E ε α) : Prop where
  session : ∀ s session, W.active s = some session →
    Consistent W.init W.log session.since session.state
  follows : ∀ s session, W.active s = some session → ∀ post exc,
    (prog session.call).wp post exc (.start session.state.snap) →
      session.rest.wp post exc session.state
  exclusive : ∀ s t a b, s ≠ t → W.active s = some a → W.active t = some b →
    ∀ key ∈ a.state.locks, key ∉ b.state.locks
  entry : ∀ n entry, W.log[n]? = some entry →
    Consistent W.init (W.log.take n) entry.since entry.done
  ended : ∀ entry ∈ W.log, ∀ post exc,
    (prog entry.call).wp post exc (.start entry.done.snap) → ∃ value, post value entry.done

variable {prog} {W W' : History S C R A E ε α}

omit [DecidableEq S] [Fintype S] in
theorem inv_idle (db : Store R) : Inv prog (idle db : History S C R A E ε α) where
  session := fun _ _ h ↦ by cases h
  follows := fun _ _ h ↦ by cases h
  exclusive := fun _ _ _ _ _ h ↦ by cases h
  entry := fun _ _ h ↦ by cases h
  ended := fun _ h ↦ absurd h List.not_mem_nil

omit [Fintype S] in
theorem Inv.setActive (h : Inv prog W) {s : S} {next : Option (Session C R A E ε α)}
    (hnext : ∀ session, next = some session →
      Consistent W.init W.log session.since session.state ∧
      (∀ post exc, (prog session.call).wp post exc (.start session.state.snap) →
        session.rest.wp post exc session.state) ∧
      ∀ t b, t ≠ s → W.active t = some b → ∀ key ∈ session.state.locks, key ∉ b.state.locks) :
    Inv prog (W.setActive s next) := by
  have hcase : ∀ t session, (W.setActive s next).active t = some session →
      t = s ∧ next = some session ∨ t ≠ s ∧ W.active t = some session := by
    intro t _ ht
    by_cases hts : t = s
    · subst hts
      exact .inl ⟨rfl, by simpa [History.setActive] using ht⟩
    · exact .inr ⟨hts, by simpa [History.setActive, hts] using ht⟩
  refine ⟨?_, ?_, ?_, h.entry, h.ended⟩
  · intro t session ht
    rcases hcase t session ht with ⟨-, hs⟩ | ⟨-, ht⟩
    · exact (hnext session hs).1
    · exact h.session t session ht
  · intro t session ht
    rcases hcase t session ht with ⟨-, hs⟩ | ⟨-, ht⟩
    · exact (hnext session hs).2.1
    · exact h.follows t session ht
  · intro t u a b htu ha hb key hkey
    rcases hcase t a ha with ⟨ht, ha⟩ | ⟨ht, ha⟩
    · rcases hcase u b hb with ⟨hu, -⟩ | ⟨hu, hb⟩
      · exact absurd (ht.trans hu.symm) htu
      · exact (hnext a ha).2.2 u b hu hb key hkey
    · rcases hcase u b hb with ⟨-, hb⟩ | ⟨-, hb⟩
      · exact fun hkey' ↦ (hnext b hb).2.2 t a ht ha key hkey' hkey
      · exact h.exclusive t u a b htu ha hb key hkey

omit [Fintype S] in
theorem Inv.commit (h : Inv prog W) {s : S} {call : C} {since : ℕ} {value : α} {σ : Local R E}
    (hs : W.active s = some ⟨call, since, .pure value, σ⟩) :
    Inv prog { W.setActive s none with log := W.log ++ [⟨call, since, σ⟩] } := by
  have hothers : ∀ t session, (W.setActive s none).active t = some session →
      t ≠ s ∧ W.active t = some session := by
    intro t _ ht
    by_cases hts : t = s
    · simp [History.setActive, hts] at ht
    · exact ⟨hts, by simpa [History.setActive, hts] using ht⟩
  refine ⟨?_, ?_, ?_, ?_, ?_⟩
  · -- What this transaction wrote it had locked, so nobody else had.
    intro t session ht
    obtain ⟨hts, ht⟩ := hothers t session ht
    apply (h.session t session ht).append
    intro key hkey hwrites
    exact h.exclusive t s session _ hts ht hs key hkey ((h.session s _ hs).locked key hwrites)
  · intro t session ht
    exact h.follows t session (hothers t session ht).2
  · intro t u a b htu ha hb
    exact h.exclusive t u a b htu (hothers t a ha).2 (hothers u b hb).2
  · intro n entry hn
    by_cases hlt : n < W.log.length
    · have htake : (W.log ++ [(⟨call, since, σ⟩ : Entry C R E)]).take n = W.log.take n :=
        List.take_append_of_le_length (Nat.le_of_lt hlt)
      simp only [List.getElem?_append_left hlt] at hn
      rw [htake]
      exact h.entry n entry hn
    · have hlen : n = W.log.length := by
        have hbound := (List.getElem?_eq_some_iff.mp hn).1
        simp only [List.length_append, List.length_singleton] at hbound
        omega
      subst hlen
      simp only [List.getElem?_concat_length, Option.some.injEq] at hn
      subst hn
      rw [List.take_append_of_le_length (Nat.le_refl _), List.take_length]
      exact h.session s _ hs
  · intro entry hmem
    rw [List.mem_append, List.mem_singleton] at hmem
    cases hmem with
    | inl hmem => exact h.ended entry hmem
    | inr heq =>
      subst heq
      intro post exc hwp
      exact ⟨value, h.follows s _ hs post exc hwp⟩

omit [Fintype S] in
theorem Inv.perform (h : Inv prog W) {s : S} {call : C} {since : ℕ} {statement : Stmt R Q E}
    {next : statement.Reply A → Prog R A E ε α} {σ σ' : Local R E} {reply : statement.Reply A}
    {answer : (query : Q) → A query} {session : Session C R A E ε α}
    (hsession : session = ⟨call, since, .stmt statement next, σ⟩) (hs : W.active s = some session)
    (hstep : σ.perform answer (statement.key?.any fun key ↦ decide (W.Taken session key))
      statement = some (reply, σ'))
    (hgrants : W.Grants s session σ') :
    Inv prog (W.setActive s (some ⟨call, since, next reply, σ'⟩)) := by
  subst hsession
  have hσ := h.session s _ hs
  have hsnap : σ'.snap = σ.snap := by
    cases statement <;> simp only [Local.perform] at hstep
    all_goals (try split at hstep) <;> (try split at hstep) <;> cases hstep <;>
      first | rfl | exact Local.lock_snap _ _
  apply h.setActive
  intro _ hsession
  cases hsession
  refine ⟨hσ.perform hstep ?_ ?_, ?_, ?_⟩
  · intro key hkey hlock htaken
    have hnot : ¬ W.Taken ⟨call, since, .stmt statement next, σ⟩ key := by
      simpa [hkey] using htaken
    by_contra hne
    exact hnot ⟨hlock, Option.isSome_iff_ne_none.mpr hne⟩
  · intro key hkey
    exact (hgrants key hkey).imp_right fun hfree ↦ hfree.2
  · intro post exc hwp
    rw [hsnap] at hwp
    exact h.follows s _ hs post exc hwp answer _ reply σ' hstep
  · intro t b hts hb key hkey
    rcases hgrants key hkey with hold | ⟨hfree, -⟩
    · exact h.exclusive s t _ b (Ne.symm hts) hs hb key hold
    · have hall := (hfree t).resolve_left hts
      simpa [hb] using hall

theorem Inv.step {event : Event S C A} (h : Inv prog W) (hstep : W.step prog event = some W') :
    Inv prog W' := by
  cases event with
  | begin =>
    simp only [History.step] at hstep
    split at hstep
    case h_1 =>
      cases hstep
      apply h.setActive
      intro _ hsession
      cases hsession
      exact ⟨Consistent.start W.init W.log, fun _ _ hwp ↦ hwp,
        fun _ _ _ _ _ hkey ↦ absurd hkey List.not_mem_nil⟩
    case h_2 => cases hstep
  | perform =>
    simp only [History.step] at hstep
    split at hstep
    case h_1 call since statement next σ hs =>
      split at hstep
      case h_1 reply σ' hperform =>
        split at hstep
        case isTrue hgrants =>
          cases hstep
          exact h.perform rfl hs hperform hgrants
        case isFalse => cases hstep
      case h_2 => cases hstep
    case h_2 => cases hstep
  | commit =>
    simp only [History.step] at hstep
    split at hstep
    case h_1 call since value σ hs => cases hstep; exact h.commit hs
    case h_2 => cases hstep
  | rollback =>
    simp only [History.step] at hstep
    split at hstep
    case h_1 =>
      cases hstep
      apply h.setActive
      intro _ hsession
      cases hsession
    case h_2 => cases hstep

theorem inv_of_run {db : Store R} {schedule : List (Event S C A)}
    (hrun : Trace.run (History.step prog) (idle db) schedule = some W) : Inv prog W :=
  Trace.run_preserves (fun _ _ _ h hstep ↦ h.step hstep) (inv_idle db) hrun

theorem begin_cases {s : S} {call : C} (h : W.step prog (.begin s call) = some W') :
    W' = W.setActive s (some ⟨call, W.log.length, prog call, .start W.db⟩) := by
  simp only [History.step] at h
  split at h
  case h_1 => cases h; rfl
  case h_2 => cases h

theorem perform_cases {s : S} {answer : (query : Q) → A query}
    (h : W.step prog (.perform s answer) = some W') : ∃ session rest σ,
      W.active s = some session ∧
        W' = W.setActive s (some ⟨session.call, session.since, rest, σ⟩) := by
  simp only [History.step] at h
  split at h
  case h_1 call since statement next σ hs =>
    split at h
    case h_1 reply σ' _ =>
      split at h
      case isTrue => cases h; exact ⟨_, _, _, hs, rfl⟩
      case isFalse => cases h
    case h_2 => cases h
  case h_2 => cases h

theorem commit_cases {s : S} (h : W.step prog (.commit s) = some W') : ∃ session,
    W.active s = some session ∧ W' = { W.setActive s none with
      log := W.log ++ [⟨session.call, session.since, session.state⟩] } := by
  simp only [History.step] at h
  split at h
  case h_1 hs => cases h; exact ⟨_, hs, rfl⟩
  case h_2 => cases h

theorem rollback_cases {s : S} (h : W.step prog (.rollback s) = some W') :
    W' = W.setActive s none := by
  simp only [History.step] at h
  split at h
  case h_1 => cases h; rfl
  case h_2 => cases h

theorem step_frame {event : Event S C A} (h : W.step prog event = some W') :
    W'.init = W.init ∧ (∀ t, t ≠ event.session → W'.active t = W.active t) ∧
      ∀ entry ∈ W.log, entry ∈ W'.log := by
  cases event with
  | begin =>
    rw [begin_cases h]
    exact ⟨rfl, fun _ ht ↦ Function.update_of_ne ht _ _, fun _ hmem ↦ hmem⟩
  | perform =>
    obtain ⟨_, _, _, _, rfl⟩ := perform_cases h
    exact ⟨rfl, fun _ ht ↦ Function.update_of_ne ht _ _, fun _ hmem ↦ hmem⟩
  | commit =>
    obtain ⟨_, _, rfl⟩ := commit_cases h
    exact ⟨rfl, fun _ ht ↦ Function.update_of_ne ht _ _, fun _ hmem ↦ List.mem_append_left _ hmem⟩
  | rollback =>
    rw [rollback_cases h]
    exact ⟨rfl, fun _ ht ↦ Function.update_of_ne ht _ _, fun _ hmem ↦ hmem⟩

theorem init_of_run {db : Store R} {schedule : List (Event S C A)}
    (hrun : Trace.run (History.step prog) (idle db) schedule = some W) : W.init = db := by
  let BeganWith (W : History S C R A E ε α) : Prop := W.init = db
  have hW : BeganWith W :=
    Trace.run_preserves (fun _ _ _ hinit hstep ↦ (step_frame hstep).1.trans hinit) rfl hrun
  exact hW

end Step

section Rules

variable [DecidableEq K] {prog : C → Prog R A E ε α} {W : History S C R A E ε α} {n : ℕ}
  {entry : Entry C R E}

theorem version_succ (hn : W.log[n]? = some entry) :
    W.version (n + 1) = entry.done.commit (W.version n) := by
  rw [version, version, List.take_add_one, hn, Option.toList_some, replay_append]

theorem version_of_length_le (hn : W.log.length ≤ n) : W.version (n + 1) = W.version n := by
  rw [version, version, List.take_of_length_le hn, List.take_of_length_le (Nat.le_succ_of_le hn)]

theorem version_induction {I : Store R → Prop} (hstart : I (W.version n))
    (hstep : ∀ k entry, W.log[k]? = some entry → I (W.version k) → I (W.version (k + 1))) {m : ℕ}
    (hle : n ≤ m) : I (W.version m) := by
  induction hle with
  | refl => exact hstart
  | @step m _ ih =>
    cases hm : W.log[m]? with
    | none => rwa [version_of_length_le (List.getElem?_eq_none_iff.mp hm)]
    | some entry => exact hstep m entry hm ih

theorem Inv.commits (h : Inv prog W) (hn : W.log[n]? = some entry) :
    Commits (W.version n) entry.done := (h.entry n entry hn).toCommits

theorem Inv.snap_eq (h : Inv prog W) (hn : W.log[n]? = some entry) :
    entry.since ≤ n ∧ entry.done.snap = W.version entry.since := by
  have hentry := h.entry n entry hn
  have hle : entry.since ≤ n :=
    Nat.le_trans hentry.since_le (by rw [List.length_take]; exact Nat.min_le_left n _)
  refine ⟨hle, hentry.snap.trans ?_⟩
  rw [version, List.take_take, Nat.min_eq_left hle]

/-- The rule for invariants of the committed database: from the conditions on
each program, for a snapshot with the invariant, and on each commit. -/
theorem Inv.version_invariant {J : Store R → Prop} {post : C → Local R E → Prop}
    (h : Inv prog W)
    (hwp : ∀ call db, J db → (prog call).wp (fun _ ↦ post call) (fun _ _ ↦ True) (.start db))
    (hcommit : ∀ call σ db, J σ.snap → J db → post call σ → Commits db σ → J (σ.commit db))
    (hinit : J W.init) (n : ℕ) : J (W.version n) := by
  induction n using Nat.strongRecOn with
  | ind n ih =>
    cases n with
    | zero => exact hinit
    | succ n =>
      cases hn : W.log[n]? with
      | none =>
        rw [version_of_length_le (List.getElem?_eq_none_iff.mp hn)]
        exact ih n (Nat.lt_succ_self n)
      | some entry =>
        obtain ⟨hsince, hsnap⟩ := h.snap_eq hn
        have hJ : J entry.done.snap := hsnap ▸ ih entry.since (Nat.lt_succ_of_le hsince)
        obtain ⟨-, hpost⟩ := h.ended entry (List.mem_of_getElem? hn) _ _ (hwp entry.call _ hJ)
        rw [version_succ hn]
        exact hcommit entry.call entry.done _ hJ (ih n (Nat.lt_succ_self n)) hpost (h.commits hn)

theorem Inv.post_of_version {J : Store R → Prop} {post : C → Local R E → Prop}
    (h : Inv prog W)
    (hwp : ∀ call db, J db → (prog call).wp (fun _ ↦ post call) (fun _ _ ↦ True) (.start db))
    (hJ : ∀ n, J (W.version n)) (hn : W.log[n]? = some entry) : post entry.call entry.done := by
  obtain ⟨-, hsnap⟩ := h.snap_eq hn
  obtain ⟨-, hpost⟩ := h.ended entry (List.mem_of_getElem? hn) _ _
    (hwp entry.call _ (hsnap ▸ hJ entry.since))
  exact hpost

end Rules

end History

end PolicyEngine.Txn

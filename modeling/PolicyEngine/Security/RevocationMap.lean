import PolicyEngine.Go.SyncMap
import PolicyEngine.Security.Delegation
import PolicyEngine.Trace.Run

namespace PolicyEngine.Security

open Function PolicyEngine.Go PolicyEngine.Go.SyncMap PolicyEngine.Trace
open DelegationManager (mergeRevocation zeroTime)

namespace RevocationRecord

def key (r : RevocationRecord) : String × String := (r.tenantId, r.grantId)

def entry (r : RevocationRecord) : RevocationEntry :=
  ⟨Int64.ofInt (Time.unix r.revokedAt), Time.unixNano r.expiresAt⟩

/-- What `ApplyRevocation` asks of a record apart from its expiry. -/
def Valid (r : RevocationRecord) : Prop :=
  r.tenantId ≠ "" ∧ r.grantId ≠ "" ∧ r.revokedAt ≠ zeroTime

end RevocationRecord

/-- The instants `UnixNano` can tell apart. -/
def NanosecondRange (t : ℤ) : Prop := -2 ^ 63 ≤ t ∧ t < 2 ^ 63

instance (t : ℤ) : Decidable (NanosecondRange t) :=
  inferInstanceAs (Decidable (-2 ^ 63 ≤ t ∧ t < 2 ^ 63))

namespace RevocationEntry

def expiry (e : RevocationEntry) : ℤ := e.expiresAt.toInt

theorem expiry_entry {r : RevocationRecord} (h : NanosecondRange r.expiresAt) :
    r.entry.expiry = r.expiresAt := by
  obtain ⟨_, _⟩ := h
  simp only [expiry, RevocationRecord.entry, Time.toInt_unixNano]
  exact Int.bmod_eq_of_le (by omega) (by omega)

theorem expiry_le_iff {e : RevocationEntry} {t : ℤ} (h : NanosecondRange t) :
    Time.unixNano t ≥ e.expiresAt ↔ e.expiry ≤ t := by
  obtain ⟨_, _⟩ := h
  rw [ge_iff_le, Int64.le_iff_toInt_le, Time.toInt_unixNano,
    Int.bmod_eq_of_le (by omega) (by omega), expiry]

theorem expiry_mergeRevocation (current incoming : RevocationEntry) :
    (mergeRevocation current incoming).expiry = max current.expiry incoming.expiry := by
  simp only [mergeRevocation, expiry, gt_iff_lt, Int64.lt_iff_toInt_lt]
  split_ifs <;> omega

end RevocationEntry

/-- A call of `IsRevoked`, with the records whose application had returned when
it began. -/
structure RevocationQuery where
  key : String × String
  before : List RevocationRecord

/-- What the call answered, with the clock it read and the records whose
application had begun when it ended. A call that finds no entry reads no clock;
its time is that of the lookup. -/
structure RevocationAnswer extends RevocationQuery where
  time : ℤ
  revoked : Bool
  after : List RevocationRecord

namespace RevocationAnswer

def Required (a : RevocationAnswer) : Prop :=
  ∃ r ∈ a.before, r.Valid ∧ r.key = a.key ∧ a.time < r.expiresAt

def Permitted (a : RevocationAnswer) : Prop :=
  ∃ r ∈ a.after, r.Valid ∧ r.key = a.key ∧ a.time < r.expiresAt

def Sound (a : RevocationAnswer) : Prop :=
  (a.Required → a.revoked = true) ∧ (a.revoked = true → a.Permitted)

def Settled (a : RevocationAnswer) : Prop := ∀ r ∈ a.after, r ∈ a.before

theorem Sound.revoked_iff {a : RevocationAnswer} (h : a.Sound) (hsettled : a.Settled) :
    a.revoked = true ↔ a.Required := by
  refine ⟨fun hrevoked ↦ ?_, h.1⟩
  obtain ⟨r, hr, hcounts⟩ := h.2 hrevoked
  exact ⟨r, hsettled r hr, hcounts⟩

theorem revoked_eq_of_settled {a b : RevocationAnswer} (ha : a.Sound) (hb : b.Sound)
    (hsettled : a.Settled) (hsettled' : b.Settled) (hkey : a.key = b.key) (htime : a.time = b.time)
    (hrecords : ∀ r, r ∈ a.before ↔ r ∈ b.before) : a.revoked = b.revoked := by
  rw [Bool.eq_iff_iff, ha.revoked_iff hsettled, hb.revoked_iff hsettled']
  simp only [Required, hkey, htime, hrecords]

end RevocationAnswer

inductive MapCall
  | idle
  | checking (record : RevocationRecord)
  | loading (record : RevocationRecord)
  | storing (record : RevocationRecord)
  | swapping (record : RevocationRecord) (current : RevocationEntry)
  | applied (record : RevocationRecord) (merged : Bool)
  | querying (q : RevocationQuery)
  | holding (q : RevocationQuery) (entry : RevocationEntry)
  | deleting (q : RevocationQuery) (entry : RevocationEntry) (time : ℤ)
  | answered (a : RevocationAnswer)
  | cleaning (now : ℤ) (seen : List ((String × String) × RevocationEntry))
  | cleaned

def MapCall.record : MapCall → Option RevocationRecord
  | .checking r | .loading r | .storing r | .swapping r _ | .applied r _ => some r
  | _ => none

def MapCall.revoked : MapCall → Option Bool
  | .answered a => some a.revoked
  | _ => none

/-- The revocation map and the calls at work on it. `started` and `completed`
list the records whose application has begun, and has returned. -/
structure SharedRevocations (κ : Type) where
  clock : ℤ
  revocationMap : String × String → Option RevocationEntry
  calls : κ → MapCall
  started : List RevocationRecord
  completed : List RevocationRecord

inductive MapEvent (κ : Type)
  | tick (now : ℤ)
  | applyRevocation (call : κ) (record : RevocationRecord)
  | isRevoked (call : κ) (tenantId grantId : String)
  | cleanupExpired (call : κ)
  | advance (call : κ)
  | visit (call : κ) (key : String × String)
  | visited (call : κ) (key : String × String) (entry : RevocationEntry)
  | finish (call : κ)

namespace SharedRevocations

variable {κ : Type}

section Steps

variable [DecidableEq κ]

def fresh (clock : ℤ) : SharedRevocations κ := ⟨clock, fun _ ↦ none, fun _ ↦ .idle, [], []⟩

def goto (w : SharedRevocations κ) (call : κ) (phase : MapCall) : SharedRevocations κ :=
  { w with calls := update w.calls call phase }

def complete (w : SharedRevocations κ) (call : κ) (record : RevocationRecord) (merged : Bool) :
    SharedRevocations κ :=
  { w.goto call (.applied record merged) with completed := record :: w.completed }

def answer (w : SharedRevocations κ) (call : κ) (q : RevocationQuery) (time : ℤ) (revoked : Bool) :
    SharedRevocations κ :=
  w.goto call (.answered ⟨q, time, revoked, w.started⟩)

def store (w : SharedRevocations κ) (m : String × String → Option RevocationEntry) :
    SharedRevocations κ :=
  { w with revocationMap := m }

/-- The next atomic step of a call to `ApplyRevocation` or `IsRevoked`. -/
def advance (w : SharedRevocations κ) (call : κ) : Option (SharedRevocations κ) :=
  match w.calls call with
  | .checking record =>
    if record.tenantId = "" ∨ record.grantId = "" ∨ record.revokedAt = zeroTime ∨
        ¬ w.clock < record.expiresAt then
      some (w.complete call record false)
    else some (w.goto call (.loading record))
  | .loading record =>
    match w.revocationMap record.key with
    | none => some (w.goto call (.storing record))
    | some current =>
      if mergeRevocation current record.entry = current then some (w.complete call record true)
      else some (w.goto call (.swapping record current))
  | .storing record =>
    match loadOrStore w.revocationMap record.key record.entry with
    | (m, false) => some ((w.store m).complete call record true)
    | (_, true) => some (w.goto call (.loading record))
  | .swapping record current =>
    match compareAndSwap w.revocationMap record.key current
      (mergeRevocation current record.entry) with
    | (m, true) => some ((w.store m).complete call record true)
    | (_, false) => some (w.goto call (.loading record))
  | .querying q =>
    if q.key.1 = "" ∨ q.key.2 = "" then some (w.answer call q w.clock false)
    else
      match w.revocationMap q.key with
      | none => some (w.answer call q w.clock false)
      | some entry => some (w.goto call (.holding q entry))
  | .holding q entry =>
    if Time.unixNano w.clock ≥ entry.expiresAt then
      some (w.goto call (.deleting q entry w.clock))
    else some (w.answer call q w.clock true)
  | .deleting q entry time =>
    some ((w.store (compareAndDelete w.revocationMap q.key entry)).answer call q time false)
  | _ => none

def step (w : SharedRevocations κ) : MapEvent κ → Option (SharedRevocations κ)
  | .tick now => if w.clock ≤ now then some { w with clock := now } else none
  | .applyRevocation call record =>
    match w.calls call with
    | .idle => some { w.goto call (.checking record) with started := record :: w.started }
    | _ => none
  | .isRevoked call tenantId grantId =>
    match w.calls call with
    | .idle => some (w.goto call (.querying ⟨(tenantId, grantId), w.completed⟩))
    | _ => none
  | .cleanupExpired call =>
    match w.calls call with
    | .idle => some (w.goto call (.cleaning w.clock []))
    | _ => none
  | .advance call => w.advance call
  -- `Range` may show a key with any of the values it has during the call.
  | .visit call key =>
    match w.calls call, w.revocationMap key with
    | .cleaning now seen, some entry => some (w.goto call (.cleaning now ((key, entry) :: seen)))
    | _, _ => none
  | .visited call key entry =>
    match w.calls call with
    | .cleaning now seen =>
      if (key, entry) ∈ seen then
        if Time.unixNano now ≥ entry.expiresAt then
          some (w.store (compareAndDelete w.revocationMap key entry))
        else some w
      else none
    | _ => none
  | .finish call =>
    match w.calls call with
    | .cleaning _ _ => some (w.goto call .cleaned)
    | _ => none

end Steps

section Frame

variable {w w' : SharedRevocations κ} {call : κ}

/-- What every step keeps: time does not go back, a record that has been applied
stays applied, and a call applies the record it was called with. -/
structure Frame (w w' : SharedRevocations κ) : Prop where
  clock : w.clock ≤ w'.clock
  completed : w.completed ⊆ w'.completed
  record : ∀ k r, (w.calls k).record = some r → (w'.calls k).record = some r

theorem Frame.refl (w : SharedRevocations κ) : Frame w w :=
  ⟨le_rfl, List.Subset.refl _, fun _ _ h ↦ h⟩

variable [DecidableEq κ]

theorem frame_goto {old phase : MapCall} {m : String × String → Option RevocationEntry}
    (hcall : w.calls call = old) (h : old.record = none ∨ old.record = phase.record) :
    Frame w ((w.store m).goto call phase) := by
  refine ⟨le_rfl, List.Subset.refl _, ?_⟩
  intro k r hr
  by_cases hk : k = call
  · subst hk
    rw [hcall] at hr
    rcases h with h | h
    · cases h.symm.trans hr
    · simpa only [goto, update_self] using h.symm.trans hr
  · simpa only [goto, store, update_of_ne hk] using hr

theorem frame_complete {record : RevocationRecord} {old : MapCall} {merged : Bool}
    {m : String × String → Option RevocationEntry} (hcall : w.calls call = old)
    (h : old.record = some record) : Frame w ((w.store m).complete call record merged) := by
  have hgoto : Frame w ((w.store m).goto call (.applied record merged)) := frame_goto hcall (.inr h)
  exact ⟨hgoto.clock, List.subset_cons_self _ _, hgoto.record⟩

theorem frame_advance (hs : w.advance call = some w') : Frame w w' := by
  unfold advance at hs
  split at hs
  case h_1 hcall =>
    split_ifs at hs <;> cases hs
    · exact frame_complete hcall rfl
    · exact frame_goto hcall (.inr rfl)
  case h_2 hcall =>
    split at hs
    · cases hs
      exact frame_goto hcall (.inr rfl)
    · split_ifs at hs <;> cases hs
      · exact frame_complete hcall rfl
      · exact frame_goto hcall (.inr rfl)
  case h_3 hcall =>
    split at hs <;> cases hs
    · exact frame_complete hcall rfl
    · exact frame_goto hcall (.inr rfl)
  case h_4 hcall =>
    split at hs <;> cases hs
    · exact frame_complete hcall rfl
    · exact frame_goto hcall (.inr rfl)
  case h_5 hcall =>
    split_ifs at hs
    · cases hs
      exact frame_goto hcall (.inl rfl)
    · split at hs <;> cases hs <;> exact frame_goto hcall (.inl rfl)
  case h_6 hcall => split_ifs at hs <;> cases hs <;> exact frame_goto hcall (.inl rfl)
  case h_7 hcall =>
    cases hs
    exact frame_goto hcall (.inl rfl)
  case h_8 => cases hs

theorem frame_step {event : MapEvent κ} (hs : w.step event = some w') : Frame w w' := by
  cases event with
  | tick =>
    simp only [step] at hs
    split_ifs at hs with hle
    cases hs
    exact ⟨hle, List.Subset.refl _, fun _ _ h ↦ h⟩
  | applyRevocation call record =>
    simp only [step] at hs
    split at hs <;> cases hs
    rename_i hcall
    have hgoto : Frame w ((w.store w.revocationMap).goto call (.checking record)) :=
      frame_goto hcall (.inl rfl)
    exact ⟨hgoto.clock, hgoto.completed, hgoto.record⟩
  | isRevoked | cleanupExpired | finish =>
    simp only [step] at hs
    split at hs <;> cases hs
    rename_i hcall
    exact frame_goto hcall (.inl rfl)
  | advance => exact frame_advance hs
  | visit =>
    simp only [step] at hs
    split at hs <;> cases hs
    rename_i hcall _
    exact frame_goto hcall (.inl rfl)
  | visited =>
    simp only [step] at hs
    split at hs
    · split_ifs at hs <;> cases hs
      · exact ⟨le_rfl, List.Subset.refl _, fun _ _ h ↦ h⟩
      · exact Frame.refl w
    · cases hs

end Frame

/-- The entry's expiry is that of a record that has been applied to its key. -/
def Backed (w : SharedRevocations κ) (key : String × String) (entry : RevocationEntry) : Prop :=
  ∃ r ∈ w.started, r.Valid ∧ r.key = key ∧ r.expiresAt = entry.expiry

def PhaseOk (w : SharedRevocations κ) : MapCall → Prop
  | .checking r => r ∈ w.started
  | .loading r | .storing r | .swapping r _ => r ∈ w.started ∧ r.Valid
  | .querying q => q.before ⊆ w.completed
  | .holding q entry => w.Backed q.key entry ∧
      ∀ r ∈ q.before, r.Valid → r.key = q.key → r.expiresAt ≤ w.clock ∨ r.expiresAt ≤ entry.expiry
  | .deleting q entry time => entry.expiry ≤ time ∧ time ≤ w.clock ∧
      ∀ r ∈ q.before, r.Valid → r.key = q.key → r.expiresAt ≤ time
  | .applied r _ => r ∈ w.completed
  | .answered a => a.Sound
  | .cleaning now _ => NanosecondRange now ∧ now ≤ w.clock
  | _ => True

structure Ok (w : SharedRevocations κ) : Prop where
  range : NanosecondRange w.clock
  started_range : ∀ r ∈ w.started, NanosecondRange r.expiresAt
  covered : ∀ r ∈ w.completed, r.Valid →
    Covered RevocationEntry.expiry w.revocationMap w.clock r.key r.expiresAt
  backed : ∀ key entry, w.revocationMap key = some entry → w.Backed key entry
  phases : ∀ call, w.PhaseOk (w.calls call)

variable {w w' : SharedRevocations κ} {call : κ} {phase : MapCall} {record : RevocationRecord}
  {current entry : RevocationEntry} {q : RevocationQuery} {key : String × String} {time : ℤ}

theorem Backed.mono (h : w.Backed key entry)
    (hstarted : w.started ⊆ w'.started) : w'.Backed key entry := by
  obtain ⟨r, hr, hrest⟩ := h
  exact ⟨r, hstarted hr, hrest⟩

theorem PhaseOk.mono (h : w.PhaseOk phase) (hclock : w.clock ≤ w'.clock)
    (hstarted : w.started ⊆ w'.started) (hcompleted : w.completed ⊆ w'.completed) :
    w'.PhaseOk phase := by
  cases phase with
  | idle => trivial
  | checking => exact hstarted h
  | loading => exact ⟨hstarted h.1, h.2⟩
  | storing => exact ⟨hstarted h.1, h.2⟩
  | swapping => exact ⟨hstarted h.1, h.2⟩
  | applied => exact hcompleted h
  | querying => exact List.Subset.trans h hcompleted
  | holding =>
    refine ⟨h.1.mono hstarted, ?_⟩
    intro r hr hvalid hkey
    exact (h.2 r hr hvalid hkey).imp_left fun hle ↦ hle.trans hclock
  | deleting => exact ⟨h.1, h.2.1.trans hclock, h.2.2⟩
  | answered => exact h
  | cleaning => exact ⟨h.1, h.2.trans hclock⟩
  | cleaned => trivial

theorem Ok.store (h : w.Ok) {m : String × String → Option RevocationEntry}
    (hcovered : ∀ key x, Covered RevocationEntry.expiry w.revocationMap w.clock key x →
      Covered RevocationEntry.expiry m w.clock key x)
    (hbacked : ∀ key entry, m key = some entry → w.Backed key entry) : (w.store m).Ok where
  range := h.range
  started_range := h.started_range
  covered r hr hvalid := hcovered _ _ (h.covered r hr hvalid)
  backed := hbacked
  phases k := (h.phases k).mono le_rfl (List.Subset.refl _) (List.Subset.refl _)

theorem Ok.delete (h : w.Ok) (hexpired : entry.expiry ≤ w.clock) :
    (w.store (compareAndDelete w.revocationMap key entry)).Ok := by
  apply h.store
  · intro k _ hcovered
    exact hcovered.compareAndDelete hexpired
  · intro k e he
    exact h.backed k e (eq_some_of_compareAndDelete he)

theorem Ok.merge (h : w.Ok) (hrecord : record ∈ w.started ∧ record.Valid)
    (hcurrent : w.revocationMap record.key = some current) :
    w.Backed record.key (mergeRevocation current record.entry) := by
  have hentry := RevocationEntry.expiry_entry (h.started_range record hrecord.1)
  rcases le_total current.expiry record.entry.expiry with hle | hle
  · refine ⟨record, hrecord.1, hrecord.2, rfl, ?_⟩
    rw [RevocationEntry.expiry_mergeRevocation, max_eq_right hle, hentry]
  · obtain ⟨r, hr, hvalid, hkey, hexpiry⟩ := h.backed record.key current hcurrent
    refine ⟨r, hr, hvalid, hkey, ?_⟩
    rw [RevocationEntry.expiry_mergeRevocation, max_eq_left hle, hexpiry]

theorem Ok.covered_query (h : w.Ok) (hq : w.PhaseOk (.querying q)) :
    ∀ r ∈ q.before, r.Valid → r.key = q.key →
      Covered RevocationEntry.expiry w.revocationMap w.clock q.key r.expiresAt := by
  intro r hr hvalid hkey
  rw [← hkey]
  exact h.covered r (hq hr) hvalid

theorem Ok.tick (h : w.Ok) {now : ℤ} (hle : w.clock ≤ now) (hrange : NanosecondRange now) :
    Ok { w with clock := now } where
  range := hrange
  started_range := h.started_range
  covered r hr hvalid := (h.covered r hr hvalid).mono_clock hle
  backed := h.backed
  phases k := (h.phases k).mono hle (List.Subset.refl _) (List.Subset.refl _)

section Calls

variable [DecidableEq κ]

theorem Ok.goto (h : w.Ok) (hphase : w.PhaseOk phase) : (w.goto call phase).Ok where
  range := h.range
  started_range := h.started_range
  covered := h.covered
  backed := h.backed
  phases k := by
    refine PhaseOk.mono (w := w) ?_ le_rfl (List.Subset.refl _) (List.Subset.refl _)
    exact (forall_update_iff w.calls fun _ p ↦ w.PhaseOk p).mpr ⟨hphase, fun k _ ↦ h.phases k⟩ k

theorem Ok.complete (h : w.Ok) {merged : Bool}
    (hcovered : record.Valid →
      Covered RevocationEntry.expiry w.revocationMap w.clock record.key record.expiresAt) :
    (w.complete call record merged).Ok where
  range := h.range
  started_range := h.started_range
  covered := by
    intro r hr hvalid
    rcases List.mem_cons.mp hr with rfl | hr
    · exact hcovered hvalid
    · exact h.covered r hr hvalid
  backed := h.backed
  phases := by
    refine (forall_update_iff w.calls fun _ p ↦ (w.complete call record merged).PhaseOk p).mpr
      ⟨List.mem_cons_self, fun k _ ↦ ?_⟩
    exact (h.phases k).mono le_rfl (List.Subset.refl _) (List.subset_cons_self _ _)

/-- An entry that expires no earlier than the one it replaces or than the record. -/
theorem Ok.write (h : w.Ok) (hcovers : record.expiresAt ≤ entry.expiry)
    (hgrows : ∀ current, w.revocationMap record.key = some current → current.expiry ≤ entry.expiry)
    (hbacked : w.Backed record.key entry) :
    ((w.store (update w.revocationMap record.key (some entry))).complete call record true).Ok := by
  refine Ok.complete (h.store (fun key x hcovered ↦ ?_) fun key e he ↦ ?_) fun _ ↦
    .inr ⟨entry, update_self _ _ _, hcovers⟩
  · exact hcovered.update fun current hcurrent ↦ .inr ⟨entry, rfl, hgrows current hcurrent⟩
  · by_cases hkey : key = record.key
    · subst hkey
      rw [update_self] at he
      cases he
      exact hbacked
    · rw [update_of_ne hkey] at he
      exact h.backed key e he

theorem Ok.storing (h : w.Ok) (hrecord : record ∈ w.started ∧ record.Valid)
    (hnone : w.revocationMap record.key = none) :
    ((w.store (update w.revocationMap record.key (some record.entry))).complete call record
      true).Ok := by
  have hentry := RevocationEntry.expiry_entry (h.started_range record hrecord.1)
  refine h.write hentry.ge ?_ ⟨record, hrecord.1, hrecord.2, rfl, hentry.symm⟩
  intro current hcurrent
  cases hnone.symm.trans hcurrent

theorem Ok.swapping (h : w.Ok) (hrecord : record ∈ w.started ∧ record.Valid)
    (hcurrent : w.revocationMap record.key = some current) :
    ((w.store (update w.revocationMap record.key
      (some (mergeRevocation current record.entry)))).complete call record true).Ok := by
  have hmax := RevocationEntry.expiry_mergeRevocation current record.entry
  refine h.write ?_ (fun old hold ↦ ?_) (h.merge hrecord hcurrent)
  · rw [hmax, RevocationEntry.expiry_entry (h.started_range record hrecord.1)]
    exact le_max_right _ _
  · cases hcurrent.symm.trans hold
    rw [hmax]
    exact le_max_left _ _

theorem Ok.merged (h : w.Ok) (hrecord : record ∈ w.started ∧ record.Valid)
    (hcurrent : w.revocationMap record.key = some current)
    (hmerged : mergeRevocation current record.entry = current) :
    (w.complete call record true).Ok := by
  have hmax := RevocationEntry.expiry_mergeRevocation current record.entry
  rw [hmerged, RevocationEntry.expiry_entry (h.started_range record hrecord.1)] at hmax
  apply h.complete
  intro _
  refine .inr ⟨current, hcurrent, ?_⟩
  rw [hmax]
  exact le_max_right _ _

theorem Ok.answer (h : w.Ok) {revoked : Bool}
    (hsound : RevocationAnswer.Sound ⟨q, time, revoked, w.started⟩) :
    (w.answer call q time revoked).Ok := h.goto hsound

theorem sound_false {after : List RevocationRecord}
    (h : ∀ r ∈ q.before, r.Valid → r.key = q.key → r.expiresAt ≤ time) :
    RevocationAnswer.Sound ⟨q, time, false, after⟩ := by
  constructor
  · rintro ⟨r, hr, hvalid, hkey, hlater⟩
    exact absurd (h r hr hvalid hkey) (not_le.mpr hlater)
  · intro hfalse
    cases hfalse

theorem Ok.querying (h : w.Ok) (call : κ) (hq : w.PhaseOk (.querying q)) :
    (q.key.1 = "" ∨ q.key.2 = "" → (w.answer call q w.clock false).Ok) ∧
      (w.revocationMap q.key = none → (w.answer call q w.clock false).Ok) ∧
      ∀ entry, w.revocationMap q.key = some entry → (w.goto call (.holding q entry)).Ok := by
  have hcovered := h.covered_query hq
  refine ⟨?_, ?_, ?_⟩
  · intro hempty
    apply h.answer
    apply sound_false
    intro r hr hvalid hkey
    -- No valid record has an empty name.
    rw [← hkey] at hempty
    exact absurd hempty (not_or.mpr ⟨hvalid.1, hvalid.2.1⟩)
  · intro hnone
    apply h.answer
    apply sound_false
    intro r hr hvalid hkey
    rcases hcovered r hr hvalid hkey with hle | ⟨e, he, -⟩
    · exact hle
    · cases hnone.symm.trans he
  · intro entry hentry
    apply h.goto
    refine ⟨h.backed q.key entry hentry, ?_⟩
    intro r hr hvalid hkey
    rcases hcovered r hr hvalid hkey with hle | ⟨_, he, hle⟩
    · exact .inl hle
    · cases hentry.symm.trans he
      exact .inr hle

theorem Ok.advance (h : w.Ok) (hs : w.advance call = some w') : w'.Ok := by
  have hphase := h.phases call
  unfold SharedRevocations.advance at hs
  split at hs
  case h_1 hcall =>
    rw [hcall] at hphase
    split_ifs at hs with hrejected <;> cases hs
    · apply h.complete
      rintro ⟨htenant, hgrant, hzero⟩
      simp only [htenant, hgrant, hzero, false_or, not_lt] at hrejected
      exact .inl hrejected
    · simp only [not_or] at hrejected
      exact h.goto ⟨hphase, hrejected.1, hrejected.2.1, hrejected.2.2.1⟩
  case h_2 hcall =>
    rw [hcall] at hphase
    split at hs
    · cases hs
      exact h.goto hphase
    · rename_i hcurrent
      split_ifs at hs with hmerged <;> cases hs
      · exact h.merged hphase hcurrent hmerged
      · exact h.goto hphase
  case h_3 record hcall =>
    rw [hcall] at hphase
    cases hcurrent : w.revocationMap record.key with
    | none =>
      simp only [loadOrStore, hcurrent] at hs
      cases hs
      exact h.storing hphase hcurrent
    | some =>
      simp only [loadOrStore, hcurrent] at hs
      cases hs
      exact h.goto hphase
  case h_4 record current hcall =>
    rw [hcall] at hphase
    by_cases hcurrent : w.revocationMap record.key = some current
    · simp only [compareAndSwap, hcurrent, if_true] at hs
      cases hs
      exact h.swapping hphase hcurrent
    · simp only [compareAndSwap, hcurrent, if_false] at hs
      cases hs
      exact h.goto hphase
  case h_5 hcall =>
    rw [hcall] at hphase
    obtain ⟨hempty, hnone, hsome⟩ := h.querying call hphase
    split_ifs at hs with hnames
    · cases hs
      exact hempty hnames
    · split at hs <;> cases hs
      · exact hnone ‹_›
      · exact hsome _ ‹_›
  case h_6 q entry hcall =>
    obtain ⟨⟨r, hr, hvalid, hkey, hexpiry⟩, hbefore⟩ : w.PhaseOk (.holding q entry) := hcall ▸ hphase
    simp only [RevocationEntry.expiry_le_iff h.range] at hs
    split_ifs at hs with hexpired <;> cases hs
    · apply h.goto
      refine ⟨hexpired, le_rfl, ?_⟩
      intro r hr hvalid hkey
      exact (hbefore r hr hvalid hkey).elim id fun hle ↦ hle.trans hexpired
    · apply h.answer
      refine ⟨fun _ ↦ rfl, fun _ ↦ ⟨r, hr, hvalid, hkey, ?_⟩⟩
      exact (not_le.mp hexpired).trans_eq hexpiry.symm
  case h_7 hcall =>
    rw [hcall] at hphase
    cases hs
    exact (h.delete (hphase.1.trans hphase.2.1)).answer (sound_false hphase.2.2)
  case h_8 => cases hs

/-- The clock and the expiries stay where `UnixNano` does not wrap. -/
def InRange (_ : SharedRevocations κ) : MapEvent κ → Prop
  | .tick now => NanosecondRange now
  | .applyRevocation _ record => NanosecondRange record.expiresAt
  | _ => True

theorem Ok.start (h : w.Ok) (hrange : NanosecondRange record.expiresAt) :
    Ok { w.goto call (.checking record) with started := record :: w.started } := by
  have hgrown : Ok { w with started := record :: w.started } := by
    refine ⟨h.range, ?_, h.covered, ?_, ?_⟩
    · intro r hr
      rcases List.mem_cons.mp hr with rfl | hr
      · exact hrange
      · exact h.started_range r hr
    · intro key entry hentry
      exact (h.backed key entry hentry).mono (List.subset_cons_self _ _)
    · intro k
      exact (h.phases k).mono le_rfl (List.subset_cons_self _ _) (List.Subset.refl _)
  exact hgrown.goto (List.mem_cons_self : record ∈ record :: w.started)

theorem Ok.step (h : w.Ok) {event : MapEvent κ} (hrange : w.InRange event)
    (hs : w.step event = some w') : w'.Ok := by
  cases event with
  | tick =>
    simp only [SharedRevocations.step] at hs
    split_ifs at hs with hle
    cases hs
    exact h.tick hle hrange
  | applyRevocation =>
    simp only [SharedRevocations.step] at hs
    split at hs <;> cases hs
    exact h.start hrange
  | isRevoked =>
    simp only [SharedRevocations.step] at hs
    split at hs <;> cases hs
    exact h.goto (List.Subset.refl w.completed)
  | cleanupExpired =>
    simp only [SharedRevocations.step] at hs
    split at hs <;> cases hs
    exact h.goto ⟨h.range, le_rfl⟩
  | advance => exact h.advance hs
  | visit call =>
    simp only [SharedRevocations.step] at hs
    split at hs <;> cases hs
    rename_i hcall hentry
    have hphase := h.phases call
    rw [hcall] at hphase
    exact h.goto hphase
  | visited call =>
    simp only [SharedRevocations.step] at hs
    split at hs
    · rename_i now seen hcall
      obtain ⟨hnow, hpast⟩ : w.PhaseOk (.cleaning now seen) := hcall ▸ h.phases call
      split_ifs at hs with hseen hexpired <;> cases hs
      · exact h.delete (((RevocationEntry.expiry_le_iff hnow).mp hexpired).trans hpast)
      · exact h
    · cases hs
  | finish =>
    simp only [SharedRevocations.step] at hs
    split at hs <;> cases hs
    exact h.goto trivial

end Calls

theorem ok_fresh {clock : ℤ} (hclock : NanosecondRange clock) :
    (fresh clock : SharedRevocations κ).Ok where
  range := hclock
  started_range := List.forall_mem_nil _
  covered := List.forall_mem_nil _
  backed key entry hentry := by cases hentry
  phases call := trivial

/-- Every answer is right, and a completed record that still counts is in the
map, whatever has been cleaned up. -/
structure Merges (w : SharedRevocations κ) : Prop where
  answers : ∀ call a, w.calls call = .answered a → a.Sound
  kept : ∀ r ∈ w.completed, r.Valid → w.clock < r.expiresAt →
    ∃ entry, w.revocationMap r.key = some entry ∧ r.expiresAt ≤ entry.expiry

theorem Ok.merges (h : w.Ok) : w.Merges where
  answers := by
    intro call _ hcall
    have hphase := h.phases call
    rwa [hcall] at hphase
  kept := by
    intro r hr hvalid hlater
    exact (h.covered r hr hvalid).resolve_left (not_le.mpr hlater)

/-- In every interleaving the answers are right and no record that still counts
is lost; and two answers at one time, in this run or another, after the same
records have been applied in any order and number, are the same. -/
theorem revocations_merge_monotonically [DecidableEq κ] (clock : ℤ) (hclock : NanosecondRange clock)
    (schedule : List (MapEvent κ)) (h : Meets step InRange (fresh clock) schedule) :
    Always step Merges (fresh clock) schedule ∧
    ∀ clock' (schedule' : List (MapEvent κ)) w w' call call' a a', NanosecondRange clock' →
      Meets step InRange (fresh clock') schedule' →
      run step (fresh clock) schedule = some w → run step (fresh clock') schedule' = some w' →
      w.calls call = .answered a → w'.calls call' = .answered a' → a.Settled → a'.Settled →
      a.key = a'.key → a.time = a'.time → (∀ r, r ∈ a.before ↔ r ∈ a'.before) →
      a.revoked = a'.revoked := by
  have hstep : ∀ (s : SharedRevocations κ) e t, s.Ok → s.InRange e → s.step e = some t → t.Ok :=
    fun _ _ _ hok hrange hs ↦ hok.step hrange hs
  refine ⟨always_of_invariant hstep (fun _ ↦ Ok.merges) (ok_fresh hclock) h, ?_⟩
  intro _ _ _ _ call call' a a' hclock' h' hrun hrun' hcall hcall'
  have hok := run_invariant hstep (ok_fresh hclock) h hrun
  have hok' := run_invariant hstep (ok_fresh hclock') h' hrun'
  exact RevocationAnswer.revoked_eq_of_settled (hok.merges.answers call a hcall)
    (hok'.merges.answers call' a' hcall')

def minuteRecord : RevocationRecord where
  tenantId := "t1"
  grantId := "9"
  revokedAt := 1800000000 * Time.second
  expiresAt := 1800000060 * Time.second

def applyThenQuery : List (MapEvent ℕ) :=
  [.applyRevocation 0 minuteRecord, .advance 0, .advance 0, .advance 0, .cleanupExpired 1,
    .visit 1 ("t1", "9"), .visited 1 ("t1", "9") minuteRecord.entry, .isRevoked 2 "t1" "9",
    .advance 2, .advance 2]

theorem revocations_merge_monotonically_minute :
    (run step (fresh (1800000000 * Time.second)) applyThenQuery).bind
      (fun w ↦ (w.calls 2).revoked) = some true ∧
    Always step Merges (fresh (1800000000 * Time.second)) applyThenQuery := by
  refine ⟨by decide, (revocations_merge_monotonically _ (by decide) _ ?_).1⟩
  have hrange : NanosecondRange minuteRecord.expiresAt := by decide
  refine ⟨hrange, fun _ _ ↦ ⟨trivial, fun _ _ ↦ ⟨trivial, fun _ _ ↦ ⟨trivial, fun _ _ ↦ ?_⟩⟩⟩⟩
  exact ⟨trivial, fun _ _ ↦ ⟨trivial, fun _ _ ↦ ⟨trivial, fun _ _ ↦ ⟨trivial, fun _ _ ↦
    ⟨trivial, fun _ _ ↦ ⟨trivial, fun _ _ ↦ trivial⟩⟩⟩⟩⟩⟩

end SharedRevocations

end PolicyEngine.Security

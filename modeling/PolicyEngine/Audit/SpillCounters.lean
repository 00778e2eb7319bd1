import Mathlib.Data.UInt
import Mathlib.Tactic.Abel
import PolicyEngine.Audit.SpillSafety

namespace PolicyEngine.Audit

open PolicyEngine.File PolicyEngine.Trace

def fileEntries (codec : BatchCodec) (name : String) (data : List UInt8) : ℕ :=
  if isSpill name then ((codec.unmarshal data).map (·.entries.length)).getD 0 else 0

def entriesOnDisk (codec : BatchCodec) (dir : Directory) : ℕ := dir.total (fileEntries codec)

def SpillBatch.count (batch : SpillBatch) : UInt64 := UInt64.ofNat batch.entries.length

/-- The spill store of a logger with the two counters. The callers of `WriteBatch` and
of `Replay` that are still to add what it returned are kept as what they will add;
`lost` is a record: what calls of `Replay` that returned an error had counted. -/
structure SpillCounters where
  store : SpillStore
  spilled : UInt64
  replayed : UInt64
  spilling : List UInt64
  replaying : List UInt64
  lost : UInt64

inductive CounterEvent
  | store (e : SpillEvent)
  | addSpilled (n : UInt64)
  | addReplayed (n : UInt64)

namespace SpillCounters

def settle (c : SpillCounters) (t : SpillStore) : SpillCounters :=
  let returned := c.store.call.replaying && !t.call.replaying
  { c with
    store := t
    spilling := (t.accepted.drop c.store.accepted.length).map SpillBatch.count ++ c.spilling
    replaying :=
      if returned && t.replayed.2.isNone then t.replayed.1 :: c.replaying else c.replaying
    -- the worker returns on an error, and does not add the count
    lost := if returned && t.replayed.2.isSome then c.lost + t.replayed.1 else c.lost }

variable (codec : BatchCodec) (maxBytes : Int64)

def step (c : SpillCounters) : CounterEvent → Option SpillCounters
  | .store e => (c.store.step codec maxBytes e).map c.settle
  | .addSpilled n =>
    if n ∈ c.spilling then
      some { c with spilled := c.spilled + n, spilling := c.spilling.erase n }
    else none
  | .addReplayed n =>
    if n ∈ c.replaying then
      some { c with replayed := c.replayed + n, replaying := c.replaying.erase n }
    else none

def opened (issued : List String) : SpillCounters where
  store := .opened ∅ issued
  spilled := 0
  replayed := 0
  spilling := []
  replaying := []
  lost := 0

structure Quiet (c : SpillCounters) : Prop where
  call : c.store.call = .idle
  spilling : c.spilling = []
  replaying : c.replaying = []

/-- What is spilled has been replayed, is lost, is counted by the call in progress, or
is on disk. -/
structure Balanced (issued : List String) (c : SpillCounters) : Prop where
  ok : SpillStore.Ok codec maxBytes ∅ issued c.store
  sum : c.spilled + c.spilling.sum = c.replayed + c.replaying.sum + c.lost + c.store.running +
    UInt64.ofNat (entriesOnDisk codec c.store.dir)

variable {codec maxBytes} {issued : List String} {s t : SpillStore} {e : SpillEvent}
  {c d : SpillCounters}

section Disk

variable {dir dir' : Directory} {batch : SpillBatch}

theorem fileEntries_of_not {name : String} (data : List UInt8) (h : isSpill name = false) :
    fileEntries codec name data = 0 := by
  rw [fileEntries, if_neg (Bool.eq_false_iff.mp h)]

theorem fileEntries_of_spill {name : String} {data : List UInt8} (h : isSpill name = true)
    (hbatch : codec.unmarshal data = some batch) :
    fileEntries codec name data = batch.entries.length := by
  rw [fileEntries, if_pos h, hbatch]
  rfl

theorem entriesOnDisk_congr (h : SpillStore.SameSpills dir dir') :
    entriesOnDisk codec dir' = entriesOnDisk codec dir :=
  h.total _ fun _ data ↦ fileEntries_of_not data

theorem entriesOnDisk_erase {name : String} (hfile : SpillStore.FileOf codec dir name batch) :
    entriesOnDisk codec (dir.erase name) + batch.entries.length = entriesOnDisk codec dir := by
  obtain ⟨hspill, data, hlookup, hbatch⟩ := hfile
  have herase : Directory.total (dir.erase name) (fileEntries codec) + _ = _ :=
    Directory.total_erase
  rwa [hlookup, Option.elim_some, fileEntries_of_spill hspill hbatch] at herase

theorem entriesOnDisk_rename {base : String} {data : List UInt8} (hspill : isSpill base = true)
    (hlookup : dir.lookup (tempName base) = some data)
    (hbatch : codec.unmarshal data = some batch) (hbase : base ∉ dir) :
    entriesOnDisk codec (dir.rename (tempName base) base) =
      batch.entries.length + entriesOnDisk codec dir := by
  rw [← fileEntries_of_spill hspill hbatch]
  refine Eq.trans ?_ (Directory.total_rename hlookup hbase)
  rw [fileEntries_of_not data (isSpill_tempName base)]
  rfl

end Disk

theorem replaying_of_drawn {call : SpillCall} (h : call.drawn ≠ []) : call.replaying = false := by
  cases call with
  | listing | reading | checking | inserting | removing => exact absurd rfl h
  | _ => rfl

theorem replaying_of_source {call : SpillCall} {entries : List LogEntry}
    (h : entries ∈ call.source) : call.replaying = false := by
  cases call with
  | listing | reading | checking | inserting | removing => cases h
  | _ => rfl

theorem balance_of_not {n : UInt64} (hold : s.call.replaying = false)
    (hnew : t.call.replaying = false)
    (hdisk : n + UInt64.ofNat (entriesOnDisk codec s.dir) =
      UInt64.ofNat (entriesOnDisk codec t.dir)) :
    n + s.running + UInt64.ofNat (entriesOnDisk codec s.dir) =
      (if s.call.replaying || t.call.replaying then t.replayed.1 else 0) +
        UInt64.ofNat (entriesOnDisk codec t.dir) := by
  simp [SpillStore.running, hold, hnew, hdisk]

theorem balance_step (hok : SpillStore.Ok codec maxBytes ∅ issued s)
    (hs : s.Step codec maxBytes e t) :
    ((t.accepted.drop s.accepted.length).map SpillBatch.count).sum + s.running +
        UInt64.ofNat (entriesOnDisk codec s.dir) =
      (if s.call.replaying || t.call.replaying then t.replayed.1 else 0) +
        UInt64.ofNat (entriesOnDisk codec t.dir) := by
  cases hs with
  | begin hcall => exact balance_of_not (hcall ▸ rfl) rfl (by simp)
  | @pass _ call _ _ _ _ _ hcount =>
    by_cases hreplay : s.call.replaying = true ∨ call.replaying = true
    · simp [hreplay, hcount hreplay]
    · simp only [not_or, Bool.not_eq_true] at hreplay
      exact balance_of_not hreplay.1 hreplay.2 (by simp)
  | draw _ _ hsource => exact balance_of_not (replaying_of_source hsource) rfl (by simp)
  | unmarshallable _ _ hsource =>
    exact balance_of_not (replaying_of_source hsource) rfl (by simp [SpillStore.refuse])
  | touch hdir _ hdrawn _ hwriting =>
    refine balance_of_not (replaying_of_drawn hwriting)
      (replaying_of_drawn (hdrawn.trans_ne hwriting)) ?_
    simp [entriesOnDisk_congr hdir]
  | refuse hdir hdrawn =>
    refine balance_of_not (replaying_of_drawn (hdrawn.trans_ne (List.cons_ne_nil _ _))) rfl ?_
    simp [SpillStore.refuse, entriesOnDisk_congr hdir]
  | @accept _ batch _ _ _ hcall hready =>
    obtain ⟨hdata, -, ⟨now, rfl⟩, htemp⟩ := hready
    have hdisk := entriesOnDisk_rename (isSpill_spillName now batch.batchId) htemp
      (codec.unmarshal_marshal hdata) (hok.base_notMem (hcall ▸ rfl))
    exact balance_of_not (hcall ▸ rfl) rfl (by simp [hdisk, SpillBatch.count, UInt64.ofNat_add])
  | insert hcall => simp [SpillStore.running, SpillCall.replaying, hcall]
  | insertFails hcall => simp [SpillStore.running, SpillCall.replaying, hcall]
  | @remove _ _ batch _ hcall hfile =>
    rw [← entriesOnDisk_erase hfile, UInt64.ofNat_add]
    simp only [SpillStore.running, SpillCall.replaying, hcall, List.drop_length, List.map_nil,
      List.sum_nil, Bool.or_true, if_true]
    abel

theorem Balanced.settle (h : Balanced codec maxBytes issued c)
    (hs : c.store.Step codec maxBytes e t) : Balanced codec maxBytes issued (c.settle t) := by
  refine ⟨h.ok.step hs, ?_⟩
  have hstore := balance_step h.ok hs
  have hreturned : (c.settle t).replaying.sum + (c.settle t).lost + t.running =
      c.replaying.sum + c.lost +
        (if c.store.call.replaying || t.call.replaying then t.replayed.1 else 0) := by
    unfold SpillCounters.settle SpillStore.running
    cases c.store.call.replaying <;> cases t.call.replaying <;> cases t.replayed.2 <;> simp <;> abel
  have hspilling : (c.settle t).spilling.sum =
      ((t.accepted.drop c.store.accepted.length).map SpillBatch.count).sum + c.spilling.sum :=
    List.sum_append
  change c.spilled + (c.settle t).spilling.sum = c.replayed + (c.settle t).replaying.sum +
    (c.settle t).lost + t.running + UInt64.ofNat (entriesOnDisk codec t.dir)
  rw [hspilling]
  grind [h.sum]

theorem Balanced.step (h : Balanced codec maxBytes issued c) {e : CounterEvent}
    (hstep : c.step codec maxBytes e = some d) : Balanced codec maxBytes issued d := by
  cases e with
  | store e =>
    obtain ⟨t, ht, rfl⟩ := Option.map_eq_some_iff.mp hstep
    exact h.settle (SpillStore.step_cases h.ok.ready ht)
  | addSpilled n =>
    simp only [SpillCounters.step, Option.ite_none_right_eq_some, Option.some.injEq] at hstep
    obtain ⟨hn, rfl⟩ := hstep
    refine ⟨h.ok, ?_⟩
    rw [← h.sum, ← List.sum_erase hn]
    exact add_assoc _ _ _
  | addReplayed n =>
    simp only [SpillCounters.step, Option.ite_none_right_eq_some, Option.some.injEq] at hstep
    obtain ⟨hn, rfl⟩ := hstep
    refine ⟨h.ok, ?_⟩
    have hsum := h.sum
    rw [← List.sum_erase hn, ← add_assoc c.replayed] at hsum
    exact hsum

theorem balanced_opened (codec : BatchCodec) (maxBytes : Int64) (issued : List String) :
    Balanced codec maxBytes issued (opened issued) :=
  ⟨SpillStore.ok_opened SpillStore.known_empty, rfl⟩

/-- At every moment, whatever has failed, what was spilled is replayed, lost or on disk,
up to what the calls under way have still to add. -/
theorem spilled_conserved (codec : BatchCodec) (maxBytes : Int64) (issued : List String)
    (events : List CounterEvent) :
    Always (step codec maxBytes) (fun c ↦ c.spilled + c.spilling.sum = c.replayed +
      c.replaying.sum + c.lost + c.store.running + UInt64.ofNat (entriesOnDisk codec c.store.dir))
      (opened issued) events :=
  always_of_invariant (fun _ _ _ h _ ↦ h.step) (fun _ ↦ Balanced.sum)
    (balanced_opened codec maxBytes issued) meets_true

/-- Once every operation has completed, the counters agree with the files exactly when
no `Replay` returned an error after it had counted. -/
theorem spilled_eq_replayed_add_onDisk_iff {events : List CounterEvent}
    (hrun : run (step codec maxBytes) (opened issued) events = some c) (hquiet : c.Quiet) :
    c.spilled = c.replayed + UInt64.ofNat (entriesOnDisk codec c.store.dir) ↔ c.lost = 0 := by
  have hsum := (run_preserves (fun _ _ _ h ↦ h.step) (balanced_opened codec maxBytes issued)
    hrun).sum
  rw [SpillStore.running, hquiet.call, hquiet.spilling, hquiet.replaying] at hsum
  simp only [SpillCall.replaying, List.sum_nil, add_zero, Bool.false_eq_true, if_false] at hsum
  rw [hsum, add_right_comm]
  exact add_eq_left

/-- The step does not end a call of `Replay` with an error after it has counted. -/
def FailsUncounted (codec : BatchCodec) (maxBytes : Int64) (c : SpillCounters) : CounterEvent → Prop
  | .store e => ∀ t, c.store.step codec maxBytes e = some t → c.store.call.replaying = true →
      t.call.replaying = false → t.replayed.2.isSome = true → t.replayed.1 = 0
  | _ => True

/-- So they agree when no `Replay` fails after it has counted. -/
theorem lost_eq_zero {events : List CounterEvent}
    (hmeets : Meets (step codec maxBytes) (FailsUncounted codec maxBytes) (opened issued) events)
    (hrun : run (step codec maxBytes) (opened issued) events = some c) : c.lost = 0 := by
  have hstep (c : SpillCounters) (e : CounterEvent) (d : SpillCounters) (h : c.lost = 0)
      (huncounted : FailsUncounted codec maxBytes c e) (hs : c.step codec maxBytes e = some d) :
      d.lost = 0 := by
    cases e with
    | store e =>
      obtain ⟨t, ht, rfl⟩ := Option.map_eq_some_iff.mp hs
      unfold settle
      dsimp only
      split_ifs with hfailed
      · simp only [Bool.and_eq_true, Bool.not_eq_true'] at hfailed
        rw [h, huncounted t ht hfailed.1.1 hfailed.1.2 hfailed.2, add_zero]
      · exact h
    | addSpilled | addReplayed =>
      simp only [SpillCounters.step, Option.ite_none_right_eq_some, Option.some.injEq] at hs
      obtain ⟨-, rfl⟩ := hs
      exact h
  exact (run_invariant hstep rfl hmeets hrun :)

/-- Two batches are spilled. `Replay` inserts the first one and removes its file, and
the insert of the second one fails. -/
def partialReplay : List CounterEvent :=
  let verify : SpillEvent := .verify (fun _ ↦ true) ""
  let spill (batchId : String) (now : Int64) : List CounterEvent :=
    ([.writeBatch [SpillStore.sampleEntry], verify, .marshal batchId, .size none, .create now none,
      .write none, .sync none, .close none, .rename none] : List SpillEvent).map .store ++
        [.addSpilled 1]
  spill "b" 5 ++ spill "c" 6 ++ ([.replay, .list none, .read none, verify, .insert none, .remove none,
    .read none, verify, .insert (some "down")] : List SpillEvent).map .store

theorem run_partialReplay : ∃ c, run (step jsonBatchCodec 600) (opened []) partialReplay = some c ∧
    c.Quiet ∧ c.spilled = 2 ∧ c.replayed = 0 ∧ c.lost = 1 ∧
    entriesOnDisk jsonBatchCodec c.store.dir = 1 := by
  have hshape : (run (step jsonBatchCodec 600) (opened []) partialReplay).map (fun c ↦
      (c.store.call, [c.spilling, c.replaying, [c.spilled, c.replayed, c.lost]],
        entriesOnDisk jsonBatchCodec c.store.dir)) = some (.idle, [[], [], [2, 0, 1]], 1) := by
    decide +kernel
  obtain ⟨c, hrun, hc⟩ := Option.map_eq_some_iff.mp hshape
  simp only [Prod.mk.injEq, List.cons.injEq, and_true] at hc
  obtain ⟨hcall, ⟨hspilling, hreplaying, hspilled, hreplayed, hlost⟩, hdisk⟩ := hc
  exact ⟨c, hrun, ⟨hcall, hspilling, hreplaying⟩, hspilled, hreplayed, hlost, hdisk⟩

theorem spilled_eq_replayed_add_onDisk_iff_partialReplay : ∃ c,
    run (step jsonBatchCodec 600) (opened []) partialReplay = some c ∧ c.Quiet ∧
    (c.spilled = c.replayed + UInt64.ofNat (entriesOnDisk jsonBatchCodec c.store.dir) ↔ c.lost = 0) := by
  obtain ⟨c, hrun, hquiet, -⟩ := run_partialReplay
  exact ⟨c, hrun, hquiet, spilled_eq_replayed_add_onDisk_iff hrun hquiet⟩

theorem partialReplay_not_counted : ∃ c,
    run (step jsonBatchCodec 600) (opened []) partialReplay = some c ∧ c.Quiet ∧
    c.spilled ≠ c.replayed + UInt64.ofNat (entriesOnDisk jsonBatchCodec c.store.dir) := by
  obtain ⟨c, hrun, hquiet, hspilled, hreplayed, -, hdisk⟩ := run_partialReplay
  refine ⟨c, hrun, hquiet, ?_⟩
  rw [hspilled, hreplayed, hdisk]
  decide

end SpillCounters

end PolicyEngine.Audit

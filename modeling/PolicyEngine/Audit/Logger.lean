import Mathlib.Algebra.Group.Nat.Defs
import Mathlib.Data.List.Perm.Basic
import Mathlib.Data.Nat.Basic
import Mathlib.Logic.Function.Basic
import PolicyEngine.Trace.Run

namespace PolicyEngine.Audit

open Function PolicyEngine.Trace

/-- What `NewBatchAuditLogger` accepts, without the times and the key ring. -/
structure BatchConfig where
  queueCapacity : ℕ
  batchSize : ℕ
  spillStore : Bool
  batchSize_pos : 0 < batchSize
  batchSize_le : batchSize ≤ queueCapacity

structure BatchStats where
  queued : UInt64
  written : UInt64
  dropped : UInt64
  writeFailures : UInt64
  spilled : UInt64
  replayed : UInt64
  spillFailures : UInt64

inductive Outcome
  | written
  | spilled
  | dropped
deriving DecidableEq

namespace BatchStats

def counter (stats : BatchStats) : Outcome → UInt64
  | .written => stats.written
  | .spilled => stats.spilled
  | .dropped => stats.dropped

def add (stats : BatchStats) (n : UInt64) : Outcome → BatchStats
  | .written => { stats with written := stats.written + n }
  | .spilled => { stats with spilled := stats.spilled + n }
  | .dropped => { stats with dropped := stats.dropped + n }

theorem counter_add (stats : BatchStats) (n : UInt64) (o o' : Outcome) :
    (stats.add n o).counter o' = if o' = o then stats.counter o' + n else stats.counter o' := by
  cases o <;> cases o' <;> rfl

end BatchStats

/-- A call of `Log`. From `checking` to `unlocking` it is in `enqueue`, under the
read lock; an entry that could not be sealed is dropped without it. -/
inductive LogCall
  | idle
  | sealing
  | sealed
  | checking
  | sending
  | sent
  | spilling
  | dropping (locked : Bool)
  | unlocking
  | returned
deriving DecidableEq

namespace LogCall

def reading : LogCall → Bool
  | .checking | .sending | .sent | .spilling | .dropping true | .unlocking => true
  | _ => false

def handedOver : LogCall → Bool
  | .sent | .unlocking | .returned => true
  | _ => false

end LogCall

inductive Next
  | selecting
  | draining
  | returning
deriving DecidableEq

/-- `runBatchWorker`. -/
inductive Worker
  | starting
  | selecting
  | ticked
  | draining
  | flushing (next : Next)
  | spilling (next : Next)
  | dropping (entries : List ℕ) (next : Next)
  | replaying (next : Next)
  | returned
deriving DecidableEq

def Next.worker : Next → Worker
  | .selecting => .selecting
  | .draining => .draining
  | .returning => .returned

namespace Worker

def held (batch : List ℕ) : Worker → List ℕ
  | .dropping entries _ => entries
  | .replaying _ => []
  | _ => batch

def stopping : Worker → Bool
  | .draining | .returned => true
  | .flushing next | .spilling next | .dropping _ next | .replaying next => next ≠ .selecting
  | _ => false

def leaving : Worker → Bool
  | .returned => true
  | .flushing next | .spilling next | .dropping _ next | .replaying next => next = .returning
  | _ => false

end Worker

/-- `Stop`, without the connection, which a batch logger does not have. -/
inductive Stop
  | idle
  | locking
  | locked
  | stored
  | cancelled
  | waiting
  | returned
deriving DecidableEq

def Stop.writing : Stop → Bool
  | .locked | .stored | .cancelled => true
  | _ => false

/-- A batch logger after `Start`. The entry of a call bears the number of the
call. The lists beside the counters say which entries they were raised for. -/
structure Logger where
  stats : BatchStats
  counted : Outcome → List ℕ
  queue : List ℕ
  batch : List ℕ
  calls : ℕ → LogCall
  started : ℕ
  worker : Worker
  stop : Stop
  stopped : Bool
  cancelled : Bool

inductive LoggerEvent
  /-- A step of a call; the flag is the result of the sealing or of `WriteBatch`. -/
  | call (number : ℕ) (ok : Bool)
  | receive
  | tick
  | done
  | default
  /-- The result of `InsertAuditLogsBatch`. -/
  | insert (ok : Bool)
  /-- The result of `WriteBatch` in the worker. -/
  | spill (ok : Bool)
  | drop
  /-- The result of `Replay`. -/
  | replay (result : Option UInt64)
  | stop

namespace Logger

def start : Logger where
  stats := ⟨0, 0, 0, 0, 0, 0, 0⟩
  counted _ := []
  queue := []
  batch := []
  calls _ := .idle
  started := 0
  worker := .starting
  stop := .idle
  stopped := false
  cancelled := false

def goto (s : Logger) (i : ℕ) (p : LogCall) : Logger := { s with calls := update s.calls i p }

theorem calls_goto (s : Logger) (i : ℕ) (p : LogCall) :
    (s.goto i p).calls = update s.calls i p := rfl

def record (s : Logger) (o : Outcome) (entries : List ℕ) : Logger :=
  { s with
    stats := s.stats.add (UInt64.ofNat entries.length) o
    counted := update s.counted o (s.counted o ++ entries) }

def addQueued (s : Logger) : Logger :=
  { s with stats := { s.stats with queued := s.stats.queued + 1 } }

def addWriteFailure (s : Logger) : Logger :=
  { s with stats := { s.stats with writeFailures := s.stats.writeFailures + 1 } }

def addSpillFailure (s : Logger) : Logger :=
  { s with stats := { s.stats with spillFailures := s.stats.spillFailures + 1 } }

variable (config : BatchConfig)

def replay (s : Logger) (result : Option UInt64) : Logger :=
  { s with stats :=
      if config.spillStore then
        match result with
        | some count => { s.stats with replayed := s.stats.replayed + count }
        | none => s.addSpillFailure.stats
      else s.stats }

def receive (s : Logger) (next : Next) : Option Logger :=
  match s.queue with
  | [] => none
  | entry :: queue =>
    let batch := s.batch ++ [entry]
    some { s with
      queue := queue
      batch := batch
      worker := if batch.length = config.batchSize then .flushing next else next.worker }

def stepCall (s : Logger) (i : ℕ) (ok : Bool) : Option Logger :=
  match s.calls i with
  | .idle =>
    if i = s.started then some ({ s with started := s.started + 1 }.goto i .sealing) else none
  | .sealing => some (s.goto i (if ok then .sealed else .dropping false))
  | .sealed => if s.stop.writing then none else some (s.goto i .checking)
  | .checking => some (s.goto i (if s.stopped then .dropping true else .sending))
  | .sending =>
    if s.queue.length < config.queueCapacity then
      some ({ s with queue := s.queue ++ [i] }.goto i .sent)
    else some (s.goto i .spilling)
  | .sent => some (s.addQueued.goto i .unlocking)
  | .spilling =>
    if config.spillStore && ok then some ((s.record .spilled [i]).goto i .unlocking)
    else some (s.addSpillFailure.goto i (.dropping true))
  | .dropping locked =>
    some ((s.record .dropped [i]).goto i (if locked then .unlocking else .returned))
  | .unlocking => some (s.goto i .returned)
  | .returned => none

def stepStop (s : Logger) : Option Logger :=
  match s.stop with
  | .idle => some { s with stop := .locking }
  | .locking =>
    if ∀ i < s.started, (s.calls i).reading = false then some { s with stop := .locked } else none
  | .locked => some { s with stopped := true, stop := .stored }
  | .stored => some { s with cancelled := true, stop := .cancelled }
  | .cancelled => some { s with stop := .waiting }
  | .waiting => if s.worker = .returned then some { s with stop := .returned } else none
  | .returned => none

def step (s : Logger) : LoggerEvent → Option Logger
  | .call i ok => s.stepCall config i ok
  | .stop => s.stepStop
  | .receive =>
    match s.worker with
    | .selecting => s.receive config .selecting
    | .draining => s.receive config .draining
    | _ => none
  | .tick => if s.worker = .selecting then some { s with worker := .ticked } else none
  | .done =>
    if s.worker = .selecting ∧ s.cancelled then some { s with worker := .draining } else none
  | .default =>
    if s.worker = .draining ∧ s.queue = [] then some { s with worker := .flushing .returning }
    else none
  | .insert ok =>
    match s.worker with
    | .flushing next =>
      if s.batch = [] then some { s with worker := next.worker }
      else if ok then some { s.record .written s.batch with worker := .replaying next }
      else some { s.addWriteFailure with worker := .spilling next }
    | _ => none
  | .spill ok =>
    match s.worker with
    | .spilling next =>
      if config.spillStore && ok then
        some { s.record .spilled s.batch with batch := [], worker := next.worker }
      else some { s.addSpillFailure with worker := .dropping s.batch next }
    | _ => none
  | .drop =>
    match s.worker with
    | .dropping (entry :: entries) next =>
      some { s.record .dropped [entry] with worker := .dropping entries next }
    | .dropping [] next => some { s with batch := [], worker := next.worker }
    | _ => none
  | .replay result =>
    match s.worker with
    | .starting => some { s.replay config result with worker := .selecting }
    | .ticked => some { s.replay config result with worker := .flushing .selecting }
    | .replaying next => some { s.replay config result with batch := [], worker := next.worker }
    | _ => none

section Steps

structure Follows (s : Logger) (w : Worker) (batch : List ℕ) : Prop where
  running : s.worker ≠ .returned
  stopping : w.stopping = true → s.worker.stopping = true ∨ s.cancelled = true
  leaving : w.leaving = true → s.worker.leaving = true ∨ s.worker = .draining ∧ s.queue = []
  returned : w = .returned → batch = []

inductive Step (s : Logger) : Logger → Prop
  | begin {i : ℕ} (hi : i = s.started) :
      Step s ({ s with started := s.started + 1 }.goto i .sealing)
  | move {i : ℕ} {q : LogCall} {stats : BatchStats} (hi : s.calls i ≠ .idle) (hq : q ≠ .idle)
      (hstats : stats.counter = s.stats.counter)
      (hhanded : q.handedOver = (s.calls i).handedOver)
      (hreading : q.reading = true → (s.calls i).reading = true ∨ s.stop.writing = false)
      (hsending : q = .sending → s.stopped = false) :
      Step s ({ s with stats := stats }.goto i q)
  | send {i : ℕ} (hi : s.calls i = .sending) :
      Step s ({ s with queue := s.queue ++ [i] }.goto i .sent)
  | settle {i : ℕ} {q : LogCall} {o : Outcome} (hi : s.calls i ≠ .idle)
      (hhanded : (s.calls i).handedOver = false) (hq : q.handedOver = true)
      (hreading : q.reading = true → (s.calls i).reading = true) :
      Step s ((s.record o [i]).goto i q)
  | receive {entry : ℕ} {queue : List ℕ} {w : Worker} (hqueue : s.queue = entry :: queue)
      (hrunning : s.worker ≠ .returned) (hheld : s.worker.held s.batch = s.batch)
      (hheld' : w.held (s.batch ++ [entry]) = s.batch ++ [entry])
      (hstopping : w.stopping = s.worker.stopping) (hleaving : w.leaving = false) :
      Step s { s with queue := queue, batch := s.batch ++ [entry], worker := w }
  | pass {stats : BatchStats} {batch : List ℕ} {w : Worker}
      (hstats : stats.counter = s.stats.counter)
      (hheld : w.held batch = s.worker.held s.batch) (hnext : s.Follows w batch) :
      Step s { s with stats := stats, batch := batch, worker := w }
  | count {o : Outcome} {entries batch : List ℕ} {w : Worker}
      (hheld : entries ++ w.held batch = s.worker.held s.batch) (hnext : s.Follows w batch) :
      Step s { s.record o entries with batch := batch, worker := w }
  | callStop (h : s.stop = .idle) : Step s { s with stop := .locking }
  | lock (h : s.stop = .locking) (hfree : ∀ i < s.started, (s.calls i).reading = false) :
      Step s { s with stop := .locked }
  | store (h : s.stop = .locked) : Step s { s with stopped := true, stop := .stored }
  | cancel (h : s.stop = .stored) : Step s { s with cancelled := true, stop := .cancelled }
  | unlock (h : s.stop = .cancelled) : Step s { s with stop := .waiting }
  | finish (h : s.stop = .waiting) (hw : s.worker = .returned) : Step s { s with stop := .returned }

variable {config} {s t : Logger}

theorem counter_addQueued (s : Logger) : s.addQueued.stats.counter = s.stats.counter := by
  funext o
  cases o <;> rfl

theorem counter_addWriteFailure (s : Logger) :
    s.addWriteFailure.stats.counter = s.stats.counter := by
  funext o
  cases o <;> rfl

theorem counter_addSpillFailure (s : Logger) :
    s.addSpillFailure.stats.counter = s.stats.counter := by
  funext o
  cases o <;> rfl

theorem counter_replay (s : Logger) (result : Option UInt64) :
    (s.replay config result).stats.counter = s.stats.counter := by
  funext o
  simp only [replay]
  split_ifs
  · cases result <;> cases o <;> rfl
  · rfl

theorem held_worker (next : Next) (batch : List ℕ) : next.worker.held batch = batch := by
  cases next <;> rfl

theorem follows_within {w w' : Worker} {batch : List ℕ} (hw : s.worker = w)
    (hrunning : w ≠ .returned) (hstopping : w'.stopping = w.stopping)
    (hleaving : w'.leaving = w.leaving) (hw' : w' ≠ .returned) : s.Follows w' batch where
  running := hw ▸ hrunning
  stopping h := .inl (hw ▸ hstopping ▸ h)
  leaving h := .inl (hw ▸ hleaving ▸ h)
  returned h := absurd h hw'

theorem follows_flush {w : Worker} {next : Next} {batch : List ℕ} (hw : s.worker = w)
    (hrunning : w ≠ .returned) (hstopping : w.stopping = decide (next ≠ .selecting))
    (hleaving : w.leaving = decide (next = .returning)) (hbatch : batch = []) :
    s.Follows next.worker batch := by
  refine ⟨hw ▸ hrunning, ?_, ?_, fun _ ↦ hbatch⟩
  · intro h
    rw [hw, hstopping]
    cases next <;> first | exact .inl rfl | cases h
  · intro h
    rw [hw, hleaving]
    cases next <;> first | exact .inl rfl | cases h

theorem stepCall_cases {i : ℕ} {ok : Bool} (h : s.stepCall config i ok = some t) : s.Step t := by
  unfold stepCall at h
  cases hp : s.calls i with
  | idle =>
    simp only [hp] at h
    split_ifs at h with hi
    cases h
    exact .begin hi
  | sealing =>
    simp only [hp] at h
    cases h
    refine .move ?_ ?_ rfl ?_ ?_ ?_ <;> cases ok <;> simp [hp, LogCall.handedOver, LogCall.reading]
  | sealed =>
    simp only [hp] at h
    split_ifs at h with hw
    cases h
    refine .move ?_ ?_ rfl ?_ ?_ ?_ <;> simp [hp, LogCall.handedOver, hw]
  | checking =>
    simp only [hp] at h
    cases h
    refine .move ?_ ?_ rfl ?_ ?_ ?_ <;> cases hstopped : s.stopped <;>
      simp [hp, LogCall.handedOver, LogCall.reading]
  | sending =>
    simp only [hp] at h
    split_ifs at h
    · cases h
      exact .send hp
    · cases h
      refine .move ?_ ?_ rfl ?_ ?_ ?_ <;> simp [hp, LogCall.handedOver, LogCall.reading]
  | sent =>
    simp only [hp] at h
    cases h
    refine .move ?_ ?_ (counter_addQueued s) ?_ ?_ ?_ <;>
      simp [hp, LogCall.handedOver, LogCall.reading]
  | spilling =>
    simp only [hp] at h
    split_ifs at h
    · cases h
      refine .settle ?_ ?_ rfl ?_ <;> simp [hp, LogCall.handedOver, LogCall.reading]
    · cases h
      refine .move ?_ ?_ (counter_addSpillFailure s) ?_ ?_ ?_ <;>
        simp [hp, LogCall.handedOver, LogCall.reading]
  | dropping locked =>
    simp only [hp] at h
    cases h
    refine .settle ?_ ?_ ?_ ?_ <;> cases locked <;> simp [hp, LogCall.handedOver, LogCall.reading]
  | unlocking =>
    simp only [hp] at h
    cases h
    refine .move ?_ ?_ rfl ?_ ?_ ?_ <;> simp [hp, LogCall.handedOver, LogCall.reading]
  | returned =>
    simp only [hp] at h
    cases h

theorem stepStop_cases (h : s.stepStop = some t) : s.Step t := by
  unfold stepStop at h
  cases hp : s.stop with
  | idle =>
    simp only [hp] at h
    cases h
    exact .callStop hp
  | locking =>
    simp only [hp] at h
    split_ifs at h with hfree
    cases h
    exact .lock hp hfree
  | locked =>
    simp only [hp] at h
    cases h
    exact .store hp
  | stored =>
    simp only [hp] at h
    cases h
    exact .cancel hp
  | cancelled =>
    simp only [hp] at h
    cases h
    exact .unlock hp
  | waiting =>
    simp only [hp] at h
    split_ifs at h with hw
    cases h
    exact .finish hp hw
  | returned =>
    simp only [hp] at h
    cases h

theorem receive_cases (next : Next) (hw : s.worker = next.worker) (hnext : next ≠ .returning)
    (h : s.receive config next = some t) : s.Step t := by
  unfold receive at h
  cases hqueue : s.queue with
  | nil =>
    simp only [hqueue] at h
    cases h
  | cons =>
    simp only [hqueue] at h
    cases h
    refine .receive hqueue ?_ ?_ ?_ ?_ ?_
    · rw [hw]
      cases next <;> first | exact absurd rfl hnext | decide
    · rw [hw, held_worker]
    · split_ifs
      · rfl
      · rw [held_worker]
    · rw [hw]
      split_ifs <;> cases next <;> rfl
    · split_ifs <;> cases next <;> first | rfl | exact absurd rfl hnext

theorem step_cases {e : LoggerEvent} (h : s.step config e = some t) : s.Step t := by
  cases e with
  | call => exact stepCall_cases h
  | stop => exact stepStop_cases h
  | receive =>
    simp only [step] at h
    split at h
    · next hw => exact receive_cases .selecting hw (by decide) h
    · next hw => exact receive_cases .draining hw (by decide) h
    · cases h
  | tick =>
    simp only [step] at h
    split_ifs at h with hw
    cases h
    refine .pass rfl ?_ ⟨?_, ?_, ?_, ?_⟩ <;> simp [hw, Worker.held, Worker.stopping, Worker.leaving]
  | done =>
    simp only [step] at h
    split_ifs at h with hw
    cases h
    refine .pass rfl ?_ ⟨?_, ?_, ?_, ?_⟩ <;> simp [hw, Worker.held, Worker.leaving]
  | default =>
    simp only [step] at h
    split_ifs at h with hw
    cases h
    refine .pass rfl ?_ ⟨?_, ?_, ?_, ?_⟩ <;> simp [hw, Worker.held, Worker.stopping]
  | insert =>
    simp only [step] at h
    split at h
    · next hw =>
      split_ifs at h with hbatch
      · cases h
        refine .pass rfl ?_ (follows_flush hw (by simp) rfl rfl hbatch)
        rw [held_worker, hw]
        rfl
      · cases h
        refine .count ?_ (follows_within hw (by simp) rfl rfl (by simp))
        rw [hw]
        exact List.append_nil _
      · cases h
        refine .pass (counter_addWriteFailure s) ?_ (follows_within hw (by simp) rfl rfl (by simp))
        rw [hw]
        rfl
    · cases h
  | spill =>
    simp only [step] at h
    split at h
    · next hw =>
      split_ifs at h
      · cases h
        refine .count ?_ (follows_flush hw (by simp) rfl rfl rfl)
        rw [held_worker, hw]
        exact List.append_nil _
      · cases h
        refine .pass (counter_addSpillFailure s) ?_ (follows_within hw (by simp) rfl rfl (by simp))
        rw [hw]
        rfl
    · cases h
  | drop =>
    simp only [step] at h
    split at h
    · next hw =>
      cases h
      refine .count ?_ (follows_within hw (by simp) rfl rfl (by simp))
      rw [hw]
      rfl
    · next hw =>
      cases h
      refine .pass rfl ?_ (follows_flush hw (by simp) rfl rfl rfl)
      rw [held_worker, hw]
      rfl
    · cases h
  | replay result =>
    simp only [step] at h
    split at h
    · next hw =>
      cases h
      refine .pass (counter_replay s result) ?_ (follows_within hw (by simp) rfl rfl (by simp))
      rw [hw]
      rfl
    · next hw =>
      cases h
      refine .pass (counter_replay s result) ?_ (follows_within hw (by simp) rfl rfl (by simp))
      rw [hw]
      rfl
    · next hw =>
      cases h
      refine .pass (counter_replay s result) ?_ (follows_flush hw (by simp) rfl rfl rfl)
      rw [held_worker, hw]
      rfl
    · cases h

end Steps

section Handshake

/-- What `enqueue`, the worker and `Stop` agree on. No entry is sent once the
worker may take the context as cancelled, so a queue it has then seen empty stays
so. -/
structure Handshake (s : Logger) : Prop where
  idle : ∀ i, s.calls i = .idle ↔ s.started ≤ i
  exclusive : s.stop.writing = true → ∀ i, (s.calls i).reading = false
  sending : ∀ i, s.calls i = .sending → s.stopped = false
  stored : s.stop = .stored → s.stopped = true
  cancelled : s.cancelled = true → s.stopped = true
  stopping : s.worker.stopping = true → s.cancelled = true
  leaving : s.worker.leaving = true → s.queue = []
  returned : s.worker = .returned → s.batch = []
  finished : s.stop = .returned → s.worker = .returned

variable {config} {s t : Logger} {i : ℕ} {q : LogCall}

theorem stopping_of_leaving {w : Worker} (h : w.leaving = true) : w.stopping = true := by
  cases w with
  | returned => rfl
  | flushing next | spilling next | dropping _ next | replaying next =>
    cases next <;> first | rfl | cases h
  | starting | selecting | ticked | draining => cases h

theorem handshake_start : start.Handshake where
  idle i := by simp [start]
  exclusive h := by cases h
  sending i h := by cases h
  stored h := by cases h
  cancelled h := by cases h
  stopping h := by cases h
  leaving h := by cases h
  returned h := by cases h
  finished h := by cases h

theorem Handshake.counters (h : s.Handshake) (stats : BatchStats) (counted : Outcome → List ℕ) :
    { s with stats := stats, counted := counted }.Handshake :=
  ⟨h.idle, h.exclusive, h.sending, h.stored, h.cancelled, h.stopping, h.leaving, h.returned,
    h.finished⟩

theorem Handshake.goto (h : s.Handshake) (hi : s.calls i ≠ .idle) (hq : q ≠ .idle)
    (hreading : q.reading = true → (s.calls i).reading = true ∨ s.stop.writing = false)
    (hsending : q = .sending → s.stopped = false) : (s.goto i q).Handshake where
  idle := by
    refine (forall_update_iff s.calls fun j p ↦ p = .idle ↔ s.started ≤ j).mpr ⟨?_, ?_⟩
    · rw [← h.idle i]
      exact iff_of_false hq hi
    · intro j _
      exact h.idle j
  exclusive hw := by
    refine (forall_update_iff s.calls fun _ p ↦ p.reading = false).mpr ⟨?_, ?_⟩
    · apply Bool.eq_false_iff.mpr
      intro hq
      rcases hreading hq with hi | hfree
      · rw [h.exclusive hw i] at hi
        cases hi
      · rw [show s.stop.writing = true from hw] at hfree
        cases hfree
    · intro j _
      exact h.exclusive hw j
  sending := (forall_update_iff s.calls fun _ p ↦ p = .sending → s.stopped = false).mpr
    ⟨hsending, fun j _ ↦ h.sending j⟩
  stored := h.stored
  cancelled := h.cancelled
  stopping := h.stopping
  leaving := h.leaving
  returned := h.returned
  finished := h.finished

theorem Handshake.begin (h : s.Handshake) (hi : i = s.started) :
    ({ s with started := s.started + 1 }.goto i .sealing).Handshake where
  idle := by
    refine (forall_update_iff s.calls fun j p ↦ p = .idle ↔ s.started + 1 ≤ j).mpr ⟨?_, ?_⟩
    · exact iff_of_false (by decide) (by omega)
    · intro j _
      rw [h.idle j]
      omega
  exclusive hw := (forall_update_iff s.calls fun _ p ↦ p.reading = false).mpr
    ⟨rfl, fun j _ ↦ h.exclusive hw j⟩
  sending := (forall_update_iff s.calls fun _ p ↦ p = .sending → s.stopped = false).mpr
    ⟨fun hq ↦ (by cases hq), fun j _ ↦ h.sending j⟩
  stored := h.stored
  cancelled := h.cancelled
  stopping := h.stopping
  leaving := h.leaving
  returned := h.returned
  finished := h.finished

theorem Handshake.send (h : s.Handshake) (hi : s.calls i = .sending) :
    { s with queue := s.queue ++ [i] }.Handshake := by
  refine ⟨h.idle, h.exclusive, h.sending, h.stored, h.cancelled, h.stopping, ?_, h.returned,
    h.finished⟩
  intro hleaving
  have hstopped := h.cancelled (h.stopping (stopping_of_leaving hleaving))
  rw [h.sending i hi] at hstopped
  cases hstopped

theorem Handshake.follows (h : s.Handshake) {w : Worker} {batch : List ℕ}
    (hw : s.Follows w batch) : { s with batch := batch, worker := w }.Handshake where
  idle := h.idle
  exclusive := h.exclusive
  sending := h.sending
  stored := h.stored
  cancelled := h.cancelled
  stopping hstopping := (hw.stopping hstopping).elim h.stopping id
  leaving hleaving := (hw.leaving hleaving).elim h.leaving And.right
  returned := hw.returned
  finished hstop := absurd (h.finished hstop) hw.running

theorem Handshake.step (h : s.Handshake) (hs : s.Step t) : t.Handshake := by
  cases hs with
  | begin hi => exact h.begin hi
  | move hi hq _ _ hreading hsending =>
    exact (h.counters _ s.counted).goto hi hq hreading hsending
  | send hi =>
    refine (h.send hi).goto ?_ (by decide) ?_ ?_
    · rw [show s.calls _ = _ from hi]
      decide
    · intro _
      left
      rw [show s.calls _ = _ from hi]
      rfl
    · intro hq
      cases hq
  | settle hi _ hq hreading =>
    refine (h.counters _ _).goto hi ?_ (fun hr ↦ .inl (hreading hr)) ?_
    · rintro rfl
      cases hq
    · rintro rfl
      cases hq
  | receive _ hrunning _ _ hstopping hleaving =>
    refine ⟨h.idle, h.exclusive, h.sending, h.stored, h.cancelled, ?_, ?_, ?_, ?_⟩
    · intro hw
      exact h.stopping (hstopping ▸ hw)
    · intro hw
      rw [show Worker.leaving _ = false from hleaving] at hw
      cases hw
    · rintro rfl
      cases hleaving
    · intro hstop
      exact absurd (h.finished hstop) hrunning
  | pass _ _ hnext => exact (h.follows hnext).counters _ _
  | count _ hnext => exact (h.follows hnext).counters _ _
  | callStop =>
    exact ⟨h.idle, fun hw ↦ (by cases hw), h.sending, fun hw ↦ (by cases hw), h.cancelled,
      h.stopping, h.leaving, h.returned, fun hw ↦ (by cases hw)⟩
  | lock _ hfree =>
    refine ⟨h.idle, ?_, h.sending, fun hw ↦ (by cases hw), h.cancelled, h.stopping, h.leaving,
      h.returned, fun hw ↦ (by cases hw)⟩
    intro _ i
    rcases Nat.lt_or_ge i s.started with hi | hi
    · exact hfree i hi
    · rw [show s.calls i = _ from (h.idle i).mpr hi]
      rfl
  | store hstop =>
    -- the write lock keeps every call out of the selection
    have hwriting : s.stop.writing = true := by
      rw [hstop]
      rfl
    refine ⟨h.idle, fun _ ↦ h.exclusive hwriting, ?_, fun _ ↦ rfl, fun _ ↦ rfl, h.stopping,
      h.leaving, h.returned, fun hw ↦ (by cases hw)⟩
    intro i hi
    have hreading := h.exclusive hwriting i
    rw [show s.calls i = _ from hi] at hreading
    cases hreading
  | cancel hstop =>
    have hwriting : s.stop.writing = true := by
      rw [hstop]
      rfl
    exact ⟨h.idle, fun _ ↦ h.exclusive hwriting, h.sending, fun hw ↦ (by cases hw),
      fun _ ↦ h.stored hstop, fun _ ↦ rfl, h.leaving, h.returned, fun hw ↦ (by cases hw)⟩
  | unlock =>
    exact ⟨h.idle, fun hw ↦ (by cases hw), h.sending, fun hw ↦ (by cases hw), h.cancelled,
      h.stopping, h.leaving, h.returned, fun hw ↦ (by cases hw)⟩
  | finish _ hw =>
    exact ⟨h.idle, fun hw ↦ (by cases hw), h.sending, fun hw ↦ (by cases hw), h.cancelled,
      h.stopping, h.leaving, h.returned, fun _ ↦ hw⟩

end Handshake

section Conservation

def counts (s : Logger) (entry : ℕ) : ℕ :=
  (s.counted .written).count entry + (s.counted .spilled).count entry +
    (s.counted .dropped).count entry

/-- How often it is somewhere: counted, queued or held by the worker. -/
def places (s : Logger) (entry : ℕ) : ℕ :=
  s.counts entry + s.queue.count entry + (s.worker.held s.batch).count entry

/-- An entry its call has handed over is in one place, any other entry in none. -/
structure Conserved (s : Logger) : Prop where
  counters : ∀ o, s.stats.counter o = UInt64.ofNat (s.counted o).length
  once : ∀ j, s.places j = if (s.calls j).handedOver then 1 else 0

variable {config} {s t : Logger} {i : ℕ} {q : LogCall}

theorem counts_record (s : Logger) (o : Outcome) (entries : List ℕ) (j : ℕ) :
    (s.record o entries).counts j = s.counts j + entries.count j := by
  cases o <;> simp [record, counts, List.count_append] <;> omega

theorem counters_record {o : Outcome} {entries : List ℕ}
    (h : ∀ o, s.stats.counter o = UInt64.ofNat (s.counted o).length) (o' : Outcome) :
    (s.record o entries).stats.counter o' =
      UInt64.ofNat ((s.record o entries).counted o').length := by
  simp only [record, BatchStats.counter_add, h o']
  split_ifs with ho
  · rw [ho, update_self, List.length_append, UInt64.ofNat_add]
  · rw [update_of_ne ho]

theorem conserved_start : start.Conserved where
  counters o := by cases o <;> rfl
  once j := rfl

theorem once_goto (h : ∀ j, s.places j = if (s.calls j).handedOver then 1 else 0)
    (hq : q.handedOver = (s.calls i).handedOver) (j : ℕ) :
    s.places j = if ((s.goto i q).calls j).handedOver then 1 else 0 := by
  rw [h j, calls_goto]
  rcases eq_or_ne j i with rfl | hj
  · rw [update_self, hq]
  · rw [update_of_ne hj]

theorem once_handOver (h : ∀ j, s.places j = if (s.calls j).handedOver then 1 else 0)
    (hi : (s.calls i).handedOver = false) (hq : q.handedOver = true) (j : ℕ) :
    s.places j + [i].count j = if ((s.goto i q).calls j).handedOver then 1 else 0 := by
  rw [h j, calls_goto]
  rcases eq_or_ne j i with rfl | hj
  · rw [update_self, hi, hq, List.count_singleton_self]
    rfl
  · rw [update_of_ne hj, List.count_eq_zero.mpr (by simpa using hj)]
    rfl

theorem Conserved.step (h : s.Conserved) (hshake : s.Handshake) (hs : s.Step t) : t.Conserved := by
  cases hs with
  | @begin i =>
    have hidle : s.calls i = .idle := (hshake.idle i).mpr (by omega)
    exact ⟨h.counters, once_goto h.once (hidle ▸ rfl)⟩
  | move _ _ hstats hhanded =>
    exact ⟨fun o ↦ (congrFun hstats o).trans (h.counters o), once_goto h.once hhanded⟩
  | @send _ hi =>
    refine ⟨h.counters, fun j ↦ ?_⟩
    refine Eq.trans ?_ (once_handOver h.once (hi ▸ rfl) rfl j)
    simp only [places, goto, counts, List.count_append]
    omega
  | @settle i _ o _ hhanded hq =>
    refine ⟨counters_record h.counters, fun j ↦ ?_⟩
    refine Eq.trans ?_ (once_handOver h.once hhanded hq j)
    change (s.record o [i]).counts j + s.queue.count j + (s.worker.held s.batch).count j = _
    rw [counts_record, places]
    omega
  | @receive _ _ _ hqueue _ hheld hheld' =>
    refine ⟨h.counters, fun j ↦ Eq.trans ?_ (h.once j)⟩
    simp only [places, counts, hqueue, hheld, hheld', List.count_append, List.count_cons,
      List.count_nil]
    omega
  | pass hstats hheld =>
    refine ⟨fun o ↦ (congrFun hstats o).trans (h.counters o), fun j ↦ Eq.trans ?_ (h.once j)⟩
    simp only [places, counts, hheld]
  | @count o entries batch w hheld =>
    refine ⟨counters_record h.counters, fun j ↦ Eq.trans ?_ (h.once j)⟩
    change (s.record o entries).counts j + s.queue.count j + (w.held batch).count j = _
    rw [counts_record, places, ← hheld, List.count_append]
    omega
  | callStop | lock | store | cancel | unlock | finish => exact ⟨h.counters, h.once⟩

structure Ok (s : Logger) : Prop where
  handshake : s.Handshake
  conserved : s.Conserved

theorem Ok.step (h : s.Ok) {e : LoggerEvent} (ht : s.step config e = some t) : t.Ok :=
  have hstep := step_cases ht
  ⟨h.handshake.step hstep, h.conserved.step h.handshake hstep⟩

theorem run_ok {schedule : List LoggerEvent} (hrun : run (step config) start schedule = some s) :
    s.Ok :=
  run_preserves (fun _ _ _ h ↦ h.step) ⟨handshake_start, conserved_start⟩ hrun

/-- At every moment an entry that has been handed over is counted, queued or held by the
worker, in one of these places and once; the counters are those of the entries counted. -/
theorem entry_in_one_place (config : BatchConfig) (schedule : List LoggerEvent) :
    Always (step config) (fun s ↦ (∀ o, s.stats.counter o = UInt64.ofNat (s.counted o).length) ∧
      ∀ j, s.places j = if (s.calls j).handedOver then 1 else 0) start schedule :=
  always_of_invariant (fun _ _ _ h _ ↦ h.step)
    (fun _ (h : Ok _) ↦ ⟨h.conserved.counters, h.conserved.once⟩)
    ⟨handshake_start, conserved_start⟩ meets_true

theorem Conserved.perm_range (h : s.Conserved) (hshake : s.Handshake) (hqueue : s.queue = [])
    (hheld : s.worker.held s.batch = []) (hcalls : ∀ i < s.started, s.calls i = .returned) :
    (s.counted .written ++ s.counted .spilled ++ s.counted .dropped).Perm
      (List.range s.started) := by
  rw [List.perm_iff_count]
  intro j
  have honce := h.once j
  rw [places, counts, hqueue, hheld, ← List.count_append, ← List.count_append] at honce
  refine Eq.trans honce ?_
  rw [List.nodup_range.count]
  by_cases hj : j < s.started
  · rw [if_pos (List.mem_range.mpr hj), hcalls j hj]
    rfl
  · rw [if_neg (List.mem_range.not.mpr hj), (hshake.idle j).mpr (by omega)]
    rfl

/-- Once `Stop` and all the calls have returned, nothing is queued or held and every
call has its entry counted once. The uint64 counters hold these numbers. -/
theorem every_event_accounted {schedule : List LoggerEvent}
    (hrun : run (step config) start schedule = some s) (hstop : s.stop = .returned)
    (hcalls : ∀ i < s.started, s.calls i = .returned) :
    s.queue = [] ∧ s.batch = [] ∧
      (s.counted .written ++ s.counted .spilled ++ s.counted .dropped).Perm
        (List.range s.started) ∧
      (∀ o, s.stats.counter o = UInt64.ofNat (s.counted o).length) ∧
      UInt64.ofNat s.started = s.stats.written + s.stats.spilled + s.stats.dropped ∧
      (s.started < 2 ^ 64 → s.started =
        s.stats.written.toNat + s.stats.spilled.toNat + s.stats.dropped.toNat) := by
  obtain ⟨hshake, hconserved⟩ := run_ok hrun
  have hworker := hshake.finished hstop
  have hqueue : s.queue = [] := hshake.leaving (by rw [hworker]; rfl)
  have hbatch : s.batch = [] := hshake.returned hworker
  have hheld : s.worker.held s.batch = [] := by
    rw [hworker, hbatch]
    rfl
  have hperm := hconserved.perm_range hshake hqueue hheld hcalls
  have hlength : s.started = (s.counted .written).length + (s.counted .spilled).length +
      (s.counted .dropped).length := by
    rw [← List.length_append, ← List.length_append, hperm.length_eq, List.length_range]
  have hwritten := hconserved.counters .written
  have hspilled := hconserved.counters .spilled
  have hdropped := hconserved.counters .dropped
  simp only [BatchStats.counter] at hwritten hspilled hdropped
  refine ⟨hqueue, hbatch, hperm, hconserved.counters, ?_, ?_⟩
  · rw [hwritten, hspilled, hdropped, hlength, UInt64.ofNat_add, UInt64.ofNat_add]
  · intro _
    have hsize : UInt64.size = 2 ^ 64 := rfl
    rw [hwritten, hspilled, hdropped, UInt64.toNat_ofNat_of_lt' (by omega),
      UInt64.toNat_ofNat_of_lt' (by omega), UInt64.toNat_ofNat_of_lt' (by omega), hlength]

def smallConfig : BatchConfig := ⟨1, 1, false, Nat.one_pos, Nat.le_refl 1⟩

def smallRun : List LoggerEvent :=
  LoggerEvent.replay none :: List.replicate 7 (LoggerEvent.call 0 true) ++
    List.replicate 8 (LoggerEvent.call 1 true) ++ List.replicate 5 LoggerEvent.stop ++
    List.replicate 6 (LoggerEvent.call 2 true) ++
    ([.done, .receive, .insert true, .replay none, .default, .insert true, .stop] :
      List LoggerEvent)

def smallEnd : Logger := (run (step smallConfig) start smallRun).getD start

theorem every_event_accounted_small :
    smallEnd.counted .written = [0] ∧ smallEnd.counted .dropped = [1, 2] ∧ smallEnd.queue = [] ∧
      3 = smallEnd.stats.written.toNat + smallEnd.stats.spilled.toNat +
        smallEnd.stats.dropped.toNat := by
  have hrun : run (step smallConfig) start smallRun = some smallEnd := rfl
  have hcalls : ∀ i < smallEnd.started, smallEnd.calls i = .returned := by decide
  obtain ⟨hqueue, -, -, -, -, htotal⟩ := every_event_accounted hrun rfl hcalls
  exact ⟨rfl, rfl, hqueue, htotal (by decide)⟩

end Conservation

end Logger

end PolicyEngine.Audit

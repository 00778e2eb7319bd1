import PolicyEngine.Audit.SpillSafety

namespace PolicyEngine.Audit

open PolicyEngine.Go PolicyEngine.File PolicyEngine.Trace SpillStore

/-- The worker, the overflowing calls of `Log` and the spill store with an archiving
writer behind them. `before` are the audit identifiers in use when the store was
opened. `submitted` are the batches handed over since, and `archived` those of
which an insert has returned success. -/
structure Pipeline where
  store : SpillStore
  archive : Archive
  before : List String
  submitted : List (List LogEntry)
  archived : List (List LogEntry)
  failed : Option (List LogEntry)

inductive PipelineEvent
  | flush (logs : List LogEntry) (durable : Option String) (deliveries : List Delivery)
  /-- `spillOrDrop` after a failed insert. -/
  | spill
  /-- `spillOrDrop` when the queue is full. -/
  | overflow (entry : LogEntry)
  | replay (durable : Option String) (deliveries : List Delivery)
  | store (e : SpillEvent)

def SpillEvent.isInner : SpillEvent → Bool
  | .writeBatch _ | .insert _ => false
  | _ => true

def Distinct (before : List String) (submitted : List (List LogEntry)) : Prop :=
  (submitted.flatten.map (·.auditId)).Nodup ∧ ∀ entry ∈ submitted.flatten, entry.auditId ∉ before

instance (before : List String) (submitted : List (List LogEntry)) :
    Decidable (Distinct before submitted) := inferInstanceAs (Decidable (_ ∧ _))

namespace Pipeline

def opened (dir : Directory) (issued : List String) (archive : Archive) (before : List String) :
    Pipeline where
  store := SpillStore.opened dir issued
  archive := archive
  before := before
  submitted := []
  archived := []
  failed := none

def submit (s : Pipeline) (logs : List LogEntry) : Pipeline :=
  { s with submitted := s.submitted ++ [logs] }

variable (codec : EntryCodec) (sum256 : List UInt8 → List UInt8) (keyPrefix : String)

def insert (s : Pipeline) (logs : List LogEntry) (durable : Option String)
    (deliveries : List Delivery) : Pipeline × Option String :=
  let (archive, err) := insertAuditLogsBatch codec sum256 keyPrefix s.archive logs durable deliveries
  ({ s with
    archive := archive
    archived := if err.isNone then s.archived ++ [logs] else s.archived }, err)

variable (batchCodec : BatchCodec) (maxBytes : Int64)

def stepStore (s : Pipeline) (e : SpillEvent) : Option Pipeline :=
  (s.store.step batchCodec maxBytes e).map fun store ↦ { s with store := store }

def step (s : Pipeline) : PipelineEvent → Option Pipeline
  | .flush logs durable deliveries =>
    if s.failed.isNone ∧ Distinct s.before (s.submit logs).submitted then
      let (s, err) := (s.submit logs).insert codec sum256 keyPrefix logs durable deliveries
      some { s with failed := err.map fun _ ↦ logs }
    else none
  | .spill =>
    match s.failed with
    | some logs => { s with failed := none }.stepStore batchCodec maxBytes (.writeBatch logs)
    | none => none
  | .overflow entry =>
    if Distinct s.before (s.submit [entry]).submitted then
      (s.submit [entry]).stepStore batchCodec maxBytes (.writeBatch [entry])
    else none
  | .replay durable deliveries =>
    match s.store.call with
    | .inserting _ batch _ =>
      let (s, err) := s.insert codec sum256 keyPrefix batch.entries durable deliveries
      s.stepStore batchCodec maxBytes (.insert err)
    | _ => none
  | .store e => if e.isInner then s.stepStore batchCodec maxBytes e else none

end Pipeline

section Inserts

variable {codec : EntryCodec} {sum256 : List UInt8 → List UInt8} {keyPrefix : String}
  {archive : Archive} {logs : List LogEntry} {durable : Option String} {deliveries : List Delivery}

theorem puts_insertAuditLogsBatch : Puts (archiveSegments codec sum256 keyPrefix logs) archive
    (insertAuditLogsBatch codec sum256 keyPrefix archive logs durable deliveries).1 := by
  cases durable with
  | some => exact .refl _
  | none => exact puts_putSegments

def Archived (codec : EntryCodec) (sum256 : List UInt8 → List UInt8) (keyPrefix : String)
    (archive : Archive) (logs : List LogEntry) : Prop :=
  ∀ x ∈ archiveSegments codec sum256 keyPrefix logs, ∃ segment, x = .ok segment ∧
    segment.key ∈ archive

theorem archived_of_none
    (h : (insertAuditLogsBatch codec sum256 keyPrefix archive logs durable deliveries).2 = none) :
    Archived codec sum256 keyPrefix
      (insertAuditLogsBatch codec sum256 keyPrefix archive logs durable deliveries).1 logs := by
  cases durable with
  | some => cases h
  | none => exact putSegments_of_none (Option.map_eq_none_iff.mp h)

theorem Archived.puts {archive' : Archive} {segments : List (Except String ArchiveSegment)}
    (h : Archived codec sum256 keyPrefix archive logs) (hputs : Puts segments archive archive') :
    Archived codec sum256 keyPrefix archive' logs := by
  intro x hx
  obtain ⟨segment, hsegment, hkey⟩ := h x hx
  exact ⟨segment, hsegment, hputs.mem hkey⟩

/-- An object lies under the digest of its payload. It holds entries from before,
or those of one tenant in one batch. -/
structure ObjectOk (codec : EntryCodec) (sum256 : List UInt8 → List UInt8) (keyPrefix : String)
    (before : List String) (submitted : List (List LogEntry)) (key : String)
    (payload : List UInt8) : Prop where
  addressed : ∃ tenantId timestamp, key = segmentKey sum256 keyPrefix tenantId timestamp payload
  origin : (∀ entry ∈ objectEntries codec payload, entry.auditId ∈ before) ∨
    ∃ logs ∈ submitted, ∃ tenantId,
      newArchiveSegment codec sum256 keyPrefix tenantId (ofTenant logs tenantId) =
        .ok ⟨key, payload⟩

def Origin (before : List String) (submitted : List (List LogEntry)) (logs : List LogEntry) : Prop :=
  (∀ entry ∈ logs, entry.auditId ∈ before) ∨ logs ∈ submitted

theorem objectOk_of_mem {before : List String} {submitted : List (List LogEntry)}
    {segment : ArchiveSegment} (horigin : Origin before submitted logs)
    (h : .ok segment ∈ archiveSegments codec sum256 keyPrefix logs) :
    ObjectOk codec sum256 keyPrefix before submitted segment.key segment.payload := by
  obtain ⟨tenantId, hsegment⟩ := mem_archiveSegments h
  refine ⟨addressed_newArchiveSegment hsegment, ?_⟩
  rcases horigin with hold | hsubmitted
  · left
    rw [objectEntries_newArchiveSegment hsegment]
    intro entry hentry
    exact hold entry (List.mem_of_mem_filter hentry)
  · exact .inr ⟨logs, hsubmitted, tenantId, hsegment⟩

end Inserts

namespace Pipeline

section Runs

variable (codec : EntryCodec) (sum256 : List UInt8 → List UInt8) (keyPrefix : String)
  (batchCodec : BatchCodec) (maxBytes : Int64) (dir : Directory) (issued : List String)

structure Ok (s : Pipeline) : Prop where
  store : SpillStore.Ok batchCodec maxBytes dir issued s.store
  old : ∀ batch, OnDisk batchCodec dir batch → ∀ entry ∈ batch.entries, entry.auditId ∈ s.before
  distinct : Distinct s.before s.submitted
  failed : ∀ logs, s.failed = some logs → logs ∈ s.submitted
  source : ∀ logs ∈ s.store.call.source, logs ∈ s.submitted
  accepted : ∀ batch ∈ s.store.accepted, batch.entries ∈ s.submitted
  inserted : ∀ batch ∈ s.store.inserted, batch.entries ∈ s.archived
  objects : ∀ key payload, s.archive.lookup key = some payload →
    ObjectOk codec sum256 keyPrefix s.before s.submitted key payload
  archived : ∀ logs ∈ s.archived, Archived codec sum256 keyPrefix s.archive logs

variable {codec sum256 keyPrefix batchCodec maxBytes dir issued} {s t : Pipeline}
  {logs : List LogEntry}

theorem Ok.setFailed (h : s.Ok codec sum256 keyPrefix batchCodec maxBytes dir issued)
    {failed : Option (List LogEntry)} (hfailed : ∀ logs, failed = some logs → logs ∈ s.submitted) :
    { s with failed := failed }.Ok codec sum256 keyPrefix batchCodec maxBytes dir issued :=
  ⟨h.store, h.old, h.distinct, hfailed, h.source, h.accepted, h.inserted, h.objects, h.archived⟩

theorem Ok.submit (h : s.Ok codec sum256 keyPrefix batchCodec maxBytes dir issued)
    (hdistinct : Distinct s.before (s.submit logs).submitted) :
    (s.submit logs).Ok codec sum256 keyPrefix batchCodec maxBytes dir issued where
  store := h.store
  old := h.old
  distinct := hdistinct
  failed l hl := List.mem_append_left _ (h.failed l hl)
  source l hl := List.mem_append_left _ (h.source l hl)
  accepted batch hbatch := List.mem_append_left _ (h.accepted batch hbatch)
  inserted := h.inserted
  objects key payload hlookup := by
    obtain ⟨haddressed, horigin⟩ := h.objects key payload hlookup
    refine ⟨haddressed, horigin.imp_right ?_⟩
    rintro ⟨l, hl, hsegment⟩
    exact ⟨l, List.mem_append_left _ hl, hsegment⟩
  archived := h.archived

theorem Ok.insert (h : s.Ok codec sum256 keyPrefix batchCodec maxBytes dir issued)
    (durable : Option String) (deliveries : List Delivery)
    (horigin : Origin s.before s.submitted logs) :
    (s.insert codec sum256 keyPrefix logs durable deliveries).1.Ok codec sum256 keyPrefix batchCodec
      maxBytes dir issued := by
  have hputs : Puts (archiveSegments codec sum256 keyPrefix logs) s.archive
      (insertAuditLogsBatch codec sum256 keyPrefix s.archive logs durable deliveries).1 :=
    puts_insertAuditLogsBatch
  refine ⟨h.store, h.old, h.distinct, h.failed, h.source, h.accepted, ?_, ?_, ?_⟩
  · intro batch hbatch
    have hmem := h.inserted batch hbatch
    simp only [Pipeline.insert]
    split_ifs
    · exact List.mem_append_left _ hmem
    · exact hmem
  · intro key payload hlookup
    rcases hputs.new key payload hlookup with hlookup | hmem
    · exact h.objects key payload hlookup
    · exact objectOk_of_mem horigin hmem
  · intro l hl
    simp only [Pipeline.insert] at hl
    split_ifs at hl with hnone
    · rcases List.mem_append.mp hl with hl | hl
      · exact (h.archived l hl).puts hputs
      · cases List.mem_singleton.mp hl
        exact archived_of_none (Option.isNone_iff_eq_none.mp hnone)
    · exact (h.archived l hl).puts hputs

theorem Ok.stepStore (h : s.Ok codec sum256 keyPrefix batchCodec maxBytes dir issued)
    {e : SpillEvent} (hwrite : ∀ logs, e = .writeBatch logs → logs ∈ s.submitted)
    (hinsert : e = .insert none → ∀ name batch names, s.store.call = .inserting name batch names →
      batch.entries ∈ s.archived)
    (hs : s.stepStore batchCodec maxBytes e = some t) :
    t.Ok codec sum256 keyPrefix batchCodec maxBytes dir issued := by
  obtain ⟨_, hstore, rfl⟩ := Option.map_eq_some_iff.mp hs
  have hstep := step_cases h.store.ready hstore
  obtain ⟨hsource, haccepted⟩ := hstep.source
  refine ⟨h.store.step hstep, h.old, h.distinct, h.failed, ?_, ?_, ?_, h.objects, h.archived⟩
  · intro l hl
    exact (hsource l hl).elim (h.source l) (hwrite l)
  · intro batch hbatch
    exact (haccepted batch hbatch).elim (h.accepted batch) (h.source _)
  · intro batch hbatch
    rcases hstep.inserted batch hbatch with hbatch | ⟨he, name, names, hcall⟩
    · exact h.inserted batch hbatch
    · exact hinsert he name batch names hcall

theorem Ok.origin (h : s.Ok codec sum256 keyPrefix batchCodec maxBytes dir issued) {name : String}
    {batch : SpillBatch} {names : List String} (hcall : s.store.call = .inserting name batch names) :
    Origin s.before s.submitted batch.entries := by
  have hready := h.store.ready
  rw [hcall] at hready
  rcases h.store.source batch (FileOf.onDisk hready) with hdisk | haccepted
  · exact .inl (h.old batch hdisk)
  · exact .inr (h.accepted batch haccepted)

theorem Ok.step (h : s.Ok codec sum256 keyPrefix batchCodec maxBytes dir issued) {e : PipelineEvent}
    (hs : s.step codec sum256 keyPrefix batchCodec maxBytes e = some t) :
    t.Ok codec sum256 keyPrefix batchCodec maxBytes dir issued := by
  cases e with
  | flush logs durable deliveries =>
    simp only [Pipeline.step] at hs
    split_ifs at hs with hguard
    cases hs
    have hmem : logs ∈ (s.submit logs).submitted := List.mem_concat_self
    refine ((h.submit hguard.2).insert durable deliveries (.inr hmem)).setFailed ?_
    intro _ hl
    obtain ⟨_, -, rfl⟩ := Option.map_eq_some_iff.mp hl
    exact hmem
  | spill =>
    simp only [Pipeline.step] at hs
    split at hs
    · next logs hfailed =>
      have hok : { s with failed := none }.Ok codec sum256 keyPrefix batchCodec maxBytes dir issued :=
        h.setFailed fun l hl ↦ (by cases hl)
      refine hok.stepStore ?_ (fun he ↦ by cases he) hs
      intro _ hl
      cases hl
      exact h.failed logs hfailed
    · cases hs
  | overflow =>
    simp only [Pipeline.step] at hs
    split_ifs at hs with hguard
    refine (h.submit hguard).stepStore ?_ (fun he ↦ by cases he) hs
    intro _ hl
    cases hl
    exact List.mem_concat_self
  | replay durable deliveries =>
    simp only [Pipeline.step] at hs
    split at hs
    · next hcall =>
      refine (h.insert durable deliveries (h.origin hcall)).stepStore (fun l hl ↦ by cases hl) ?_ hs
      intro he name' batch' names' hcall'
      have hsame : s.store.call = .inserting name' batch' names' := hcall'
      rw [hcall] at hsame
      cases hsame
      have hnone := SpillEvent.insert.inj he
      simp only [Pipeline.insert] at hnone ⊢
      rw [hnone]
      exact List.mem_concat_self
    · cases hs
  | store =>
    simp only [Pipeline.step] at hs
    split_ifs at hs with hinner
    refine h.stepStore ?_ ?_ hs
    · rintro _ rfl
      cases hinner
    · rintro rfl
      cases hinner

theorem ok_opened {archive : Archive} {before : List String} (hknown : Known batchCodec dir issued)
    (hdir : ∀ batch, OnDisk batchCodec dir batch → ∀ entry ∈ batch.entries, entry.auditId ∈ before)
    (harchive : ∀ key payload, archive.lookup key = some payload →
      ObjectOk codec sum256 keyPrefix before [] key payload) :
    (opened dir issued archive before).Ok codec sum256 keyPrefix batchCodec maxBytes dir issued where
  store := SpillStore.ok_opened hknown
  old := hdir
  distinct := ⟨List.nodup_nil, List.forall_mem_nil _⟩
  failed logs h := by cases h
  source := List.forall_mem_nil _
  accepted := List.forall_mem_nil _
  inserted := List.forall_mem_nil _
  objects := harchive
  archived := List.forall_mem_nil _

theorem unique_of_distinct {before : List String} {submitted : List (List LogEntry)}
    (h : Distinct before submitted) {logs logs' : List LogEntry} {entry entry' : LogEntry}
    (hlogs : logs ∈ submitted) (hlogs' : logs' ∈ submitted) (hentry : entry ∈ logs)
    (hentry' : entry' ∈ logs') (hid : entry'.auditId = entry.auditId) :
    entry' = entry ∧ logs' = logs := by
  have hmem := List.mem_flatten.mpr ⟨logs, hlogs, hentry⟩
  have hmem' := List.mem_flatten.mpr ⟨logs', hlogs', hentry'⟩
  have heq := List.inj_on_of_nodup_map h.1 hmem' hmem hid
  refine ⟨heq, ?_⟩
  by_contra hne
  have hsymm : Std.Symm (List.Disjoint (α := LogEntry)) := ⟨fun _ _ h ↦ h.symm⟩
  have hdisjoint := (List.nodup_flatten.mp h.1.of_map).2
  exact (hdisjoint.forall hlogs' hlogs hne) hentry' (heq ▸ hentry)

theorem Ok.exists_object (h : s.Ok codec sum256 keyPrefix batchCodec maxBytes dir issued)
    (hsum : Function.Injective sum256) (hlogs : logs ∈ s.archived) {entry : LogEntry}
    (hentry : entry ∈ logs) :
    ∃ key payload, s.archive.lookup key = some payload ∧
      newArchiveSegment codec sum256 keyPrefix entry.tenantId (ofTenant logs entry.tenantId) =
        .ok ⟨key, payload⟩ := by
  have hdone := h.archived logs hlogs
  have hall : ∀ x ∈ archiveSegments codec sum256 keyPrefix logs, ∃ segment, x = .ok segment := by
    intro x hx
    obtain ⟨segment, hsegment, -⟩ := hdone x hx
    exact ⟨segment, hsegment⟩
  obtain ⟨segment, hmem, hsegment⟩ := exists_mem_archiveSegments hall hentry
  obtain ⟨_, hsame, hkey⟩ := hdone _ hmem
  cases hsame
  -- what lies under the key is the payload, also where another put was first
  obtain ⟨payload, hlookup⟩ := Option.isSome_iff_exists.mp (AList.lookup_isSome.mpr hkey)
  obtain ⟨_, _, haddress⟩ := (h.objects _ _ hlookup).addressed
  obtain ⟨_, _, haddress'⟩ := addressed_newArchiveSegment hsegment
  have hpayload : payload = segment.payload := segmentKey_inj hsum (haddress.symm.trans haddress')
  exact ⟨segment.key, segment.payload, hpayload ▸ hlookup, hsegment⟩

/-- Every spilled batch is in a spill file or an insert of it has succeeded. After
that each entry of a batch is in exactly one object, with the entries of its tenant
in the order of the batch, and there are no other objects than such ones. -/
theorem archived_exactly_once {archive : Archive} {before : List String}
    {events : List PipelineEvent} (hsum : Function.Injective sum256)
    (hknown : Known batchCodec dir issued)
    (hdir : ∀ batch, OnDisk batchCodec dir batch → ∀ entry ∈ batch.entries, entry.auditId ∈ before)
    (harchive : ∀ key payload, archive.lookup key = some payload →
      ObjectOk codec sum256 keyPrefix before [] key payload)
    (hrun : run (step codec sum256 keyPrefix batchCodec maxBytes)
      (opened dir issued archive before) events = some s) :
    (∀ batch ∈ s.store.accepted, OnDisk batchCodec s.store.dir batch ∨ batch.entries ∈ s.archived) ∧
    (∀ logs ∈ s.archived, logs ∈ s.submitted → ∀ entry ∈ logs, ∃ key payload,
      s.archive.lookup key = some payload ∧
        objectEntries codec payload = ofTenant logs entry.tenantId ∧
        ∀ key' payload', s.archive.lookup key' = some payload' →
          ∀ entry' ∈ objectEntries codec payload', entry'.auditId = entry.auditId → key' = key) ∧
    ∀ key payload, s.archive.lookup key = some payload →
      (∀ entry ∈ objectEntries codec payload, entry.auditId ∈ s.before) ∨
        ∃ logs ∈ s.submitted, ∃ tenantId, objectEntries codec payload = ofTenant logs tenantId := by
  have hok : s.Ok codec sum256 keyPrefix batchCodec maxBytes dir issued := by
    refine run_preserves ?_ (ok_opened hknown hdir harchive) hrun
    intro _ _ _ h ht
    exact h.step ht
  refine ⟨?_, ?_, ?_⟩
  · intro batch hbatch
    exact (hok.store.stored batch hbatch).imp_right (hok.inserted batch)
  · intro logs harchived hsubmitted entry hentry
    obtain ⟨key, payload, hlookup, hsegment⟩ := hok.exists_object hsum harchived hentry
    refine ⟨key, payload, hlookup, objectEntries_newArchiveSegment hsegment, ?_⟩
    intro key' payload' hlookup' entry' hentry' hid
    rcases (hok.objects key' payload' hlookup').origin with hold | ⟨_, hlogs', tenantId, hsegment'⟩
    · have hnew := hok.distinct.2 entry (List.mem_flatten.mpr ⟨logs, hsubmitted, hentry⟩)
      exact absurd (hid ▸ hold entry' hentry') hnew
    · rw [objectEntries_newArchiveSegment hsegment'] at hentry'
      obtain ⟨hmem, htenant⟩ := List.mem_filter.mp hentry'
      obtain ⟨rfl, rfl⟩ := unique_of_distinct hok.distinct hsubmitted hlogs' hentry hmem hid
      rw [← of_decide_eq_true htenant, hsegment] at hsegment'
      cases hsegment'
      rfl
  · intro key payload hlookup
    refine (hok.objects key payload hlookup).origin.imp_right ?_
    rintro ⟨logs, hlogs, tenantId, hsegment⟩
    exact ⟨logs, hlogs, tenantId, objectEntries_newArchiveSegment hsegment⟩

def retryEntry : LogEntry := { sampleEntry with auditId := "b", tenantId := "u" }

/-- Of the two requests of the worker's insert the second is lost. The batch is spilled,
and replayed twice, since its file cannot be removed the first time. -/
def retryEvents : List PipelineEvent :=
  let look : List PipelineEvent := [.store .replay, .store (.list none), .store (.read none),
    .store (.verify (fun _ ↦ true) ""), .replay none []]
  ([.flush [sampleEntry, retryEntry] none [.answered, .lost], .spill,
    .store (.verify (fun _ ↦ true) ""), .store (.marshal "b"), .store (.size none),
    .store (.create 5 none), .store (.write none), .store (.sync none), .store (.close none),
    .store (.rename none)] : List PipelineEvent) ++ look ++
    [PipelineEvent.store (.remove (some "busy"))] ++ look ++ [PipelineEvent.store (.remove none)]

theorem archived_exactly_once_retry : ∃ s,
    run (step jsonEntryCodec id "audit" jsonBatchCodec 600) (opened ∅ [] ∅ []) retryEvents = some s ∧
      s.archive.keys.length = 2 ∧ ∃ key payload, s.archive.lookup key = some payload ∧
        objectEntries jsonEntryCodec payload = [retryEntry] := by
  have hshape : (run (step jsonEntryCodec id "audit" jsonBatchCodec 600) (opened ∅ [] ∅ [])
      retryEvents).map (fun s ↦ (s.archive.keys.length, s.submitted, s.archived)) =
      some (2, [[sampleEntry, retryEntry]],
        [[sampleEntry, retryEntry], [sampleEntry, retryEntry]]) := by
    decide +kernel
  obtain ⟨s, hrun, hs⟩ := Option.map_eq_some_iff.mp hshape
  simp only [Prod.mk.injEq] at hs
  obtain ⟨hkeys, hsubmitted, harchived⟩ := hs
  obtain ⟨-, honce, -⟩ := archived_exactly_once Function.injective_id known_empty
    (fun _ hdisk ↦ absurd hdisk not_onDisk_empty) (fun _ _ hlookup ↦ by cases hlookup) hrun
  obtain ⟨key, payload, hlookup, hentries, -⟩ := honce [sampleEntry, retryEntry]
    (by rw [harchived]; exact List.mem_cons_self) (by rw [hsubmitted]; exact List.mem_cons_self)
    retryEntry (by simp)
  exact ⟨s, hrun, hkeys, key, payload, hlookup, hentries⟩

end Runs

end Pipeline

end PolicyEngine.Audit

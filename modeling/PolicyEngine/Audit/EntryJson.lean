import PolicyEngine.Audit.Archive
import PolicyEngine.Audit.Spill
import PolicyEngine.Audit.Stream

namespace PolicyEngine.Audit

open PolicyEngine.Go PolicyEngine.Go.Marshal

theorem within_logEntryFields (time : TimeReader) (depth : ℕ) :
    Column.Within (logEntryColumns depth) (logEntryFields time) := by
  simp only [Column.Within, logEntryColumns, List.forall_mem_cons]
  exact ⟨rfl, rfl, rfl, rfl, rfl, rfl, rfl, rfl, rfl, rfl, rfl, rfl, rfl, rfl, rfl, rfl, rfl, rfl,
    List.forall_mem_nil _⟩

theorem copyAll_logEntryColumns (depth : ℕ) {entry : LogEntry} (h : entry.context = none) :
    (Column.copyAll (logEntryColumns depth) ⟨entry, none⟩ zeroEntry).toLogEntry = entry := by
  cases entry
  cases h
  simp +contextual [Column.copyAll, Column.copy, logEntryColumns, Format.int64, Format.uint64,
    Format.num, Format.str, Format.optional, Format.strings, Format.flag, zeroEntry]

/-- The version, the identifier and the entries of a batch. -/
def spillBatchColumns : List (Column 9999 (Int64 × String × List DecodedEntry)) :=
  [⟨"version", .int64, (·.1), fun b x ↦ (x, b.2), fun _ ↦ rfl⟩,
    ⟨"batch_id", .str, (·.2.1), fun b x ↦ (b.1, x, b.2.2), fun _ ↦ rfl⟩,
    ⟨"entries", .slice (within_logEntryFields (fun _ ↦ none) 9996) zeroEntry, (·.2.2),
      fun b x ↦ (b.1, b.2.1, x), fun _ ↦ rfl⟩]

/-- An entry that is archived has no context; its evaluation time is left out. -/
def jsonEntryCodec : EntryCodec where
  marshal entry :=
    if entry.context = none then .ok (Column.marshal (logEntryColumns 9998) ⟨entry, none⟩)
    else .error "unsealed"
  unmarshal line :=
    (Column.unmarshal (logEntryFields fun _ ↦ none) zeroEntry line).map (·.toLogEntry)
  unmarshal_marshal h := by
    split_ifs at h with hcontext
    rw [← Except.ok.inj h, Column.unmarshal_marshal (within_logEntryFields _ 9998)]
    exact congrArg some (copyAll_logEntryColumns 9998 hcontext)
  newline_notMem h := by
    split_ifs at h
    rw [← Except.ok.inj h]
    exact Column.newline_notMem_marshal _

def jsonBatchCodec : BatchCodec where
  marshal batch :=
    if batch.version = spillFormatVersion ∧ ∀ entry ∈ batch.entries, entry.context = none then
      .ok (Column.marshal spillBatchColumns
        (.ofNat batch.version, batch.batchId, batch.entries.map (⟨·, none⟩)))
    else .error "unsealed"
  unmarshal data :=
    (Column.unmarshal (Column.fields spillBatchColumns) (0, "", []) data).map fun b ↦
      ⟨b.1.toNatClampNeg, b.2.1, b.2.2.map (·.toLogEntry)⟩
  unmarshal_marshal {batch _} h := by
    split_ifs at h with hbatch
    obtain ⟨_, batchId, entries⟩ := batch
    obtain ⟨rfl, hcontext⟩ := hbatch
    have hfields : Column.Within spillBatchColumns (Column.fields spillBatchColumns) := by
      simp only [Column.Within, spillBatchColumns, List.forall_mem_cons]
      exact ⟨rfl, rfl, rfl, List.forall_mem_nil _⟩
    have hentries : ((entries.map (⟨·, none⟩)).map
        (Column.copyAll (logEntryColumns 9996) · zeroEntry)).map (·.toLogEntry) = entries := by
      rw [List.map_map, List.map_map]
      exact (List.map_congr_left fun _ he ↦ copyAll_logEntryColumns 9996 (hcontext _ he)).trans
        (List.map_id' _)
    rw [← Except.ok.inj h, Column.unmarshal_marshal hfields]
    exact congrArg (fun entries ↦ some (SpillBatch.mk 1 batchId entries)) hentries

end PolicyEngine.Audit

import PolicyEngine.Audit.Entry
import PolicyEngine.Go.Encoding
import PolicyEngine.Go.Result
import PolicyEngine.Go.Time

namespace PolicyEngine.Audit

open PolicyEngine.Go PolicyEngine.Go.Result

/-- `json.Marshal` and `json.Unmarshal` of an entry. The encoding has no line
break: those of a text are escaped. -/
structure EntryCodec where
  marshal : LogEntry → Except String (List UInt8)
  unmarshal : List UInt8 → Option LogEntry
  unmarshal_marshal : ∀ {entry line}, marshal entry = .ok line → unmarshal line = some entry
  newline_notMem : ∀ {entry line}, marshal entry = .ok line → 10 ∉ line

def validateArchiveEntry (entry : LogEntry) : Except String Unit := do
  rejectIf (entry.auditId = "" ∨ entry.tenantId = "" ∨ entry.timestamp ≤ 0)
    "archive entry requires audit ID, tenant ID and timestamp"
  rejectIf ('/' ∈ entry.tenantId.toList ∨ '\\' ∈ entry.tenantId.toList)
    "archive tenant ID must not contain a path separator"
  rejectIf (entry.isEncrypted = false ∨ entry.subject ≠ "" ∨ entry.action ≠ "" ∨
      entry.resource ≠ "" ∨ entry.context.isSome)
    "archive refuses unsealed audit entry"

/-- `archiveSegment`, without the digests and numbers that only accompany the
payload, and with its error in the place of it. -/
structure ArchiveSegment where
  key : String
  payload : List UInt8

abbrev Archive := Map (List UInt8)

section Segments

variable (codec : EntryCodec) (sum256 : List UInt8 → List UInt8) (keyPrefix : String)

def segmentKey (tenantId : String) (timestamp : Int64) (payload : List UInt8) : String :=
  keyPrefix ++ "/tenant=" ++ tenantId ++ "/date=" ++ Time.formatDate timestamp.toInt ++ "/" ++
    Encoding.hexEncode (sum256 payload) ++ ".ndjson"

def newArchiveSegment (tenantId : String) (entries : List LogEntry) :
    Except String ArchiveSegment := do
  let lines ← (entries.mapM codec.marshal).mapError ("encode audit archive entry: " ++ ·)
  let payload := lines.flatMap (· ++ [10])
  let timestamp := (entries.head?.map (·.timestamp)).getD 0
  return ⟨segmentKey sum256 keyPrefix tenantId timestamp payload, payload⟩

/-- The loop over the entries in `archiveSegments`. -/
def groupByTenant (byTenant : Map (List LogEntry)) :
    List LogEntry → Except String (Map (List LogEntry))
  | [] => .ok byTenant
  | entry :: entries => do
    validateArchiveEntry entry
    groupByTenant
      (byTenant.insert entry.tenantId (byTenant.get [] entry.tenantId ++ [entry])) entries

def archiveSegments (entries : List LogEntry) : List (Except String ArchiveSegment) :=
  match groupByTenant ∅ entries with
  | .error err => [.error err]
  | .ok byTenant =>
    (byTenant.keys.insertionSort (· ≤ ·)).map fun tenantId ↦
      newArchiveSegment codec sum256 keyPrefix tenantId (byTenant.get [] tenantId)

end Segments

section Sink

/-- What the network does to a request: it arrives and is answered, it does not
arrive, or its answer does not. -/
inductive Delivery
  | answered
  | lost
  | unanswered

inductive PutError
  | preconditionFailed
  | other (text : String)
deriving DecidableEq

def PutError.text : PutError → String
  | .preconditionFailed => "PreconditionFailed"
  | .other text => text

def putObject (archive : Archive) (segment : ArchiveSegment) : Delivery → Archive × Option PutError
  | .answered =>
    if segment.key ∈ archive then (archive, some .preconditionFailed)
    else (archive.insert segment.key segment.payload, none)
  | .lost => (archive, some (.other "request failed"))
  | .unanswered =>
    (if segment.key ∈ archive then archive else archive.insert segment.key segment.payload,
      some (.other "no response"))

def isArchiveAlreadyPresent (err : PutError) : Bool := err = .preconditionFailed

/-- The loop of `S3ArchiveSink.Archive`, with the fate of each request. -/
def putSegments (archive : Archive) :
    List (Except String ArchiveSegment) → List Delivery → Archive × Option String
  | [], _ => (archive, none)
  | .error err :: _, _ => (archive, some err)
  | .ok segment :: segments, deliveries =>
    match putObject archive segment (deliveries.headD .answered) with
    | (archive, none) => putSegments archive segments deliveries.tail
    | (archive, some err) =>
      if isArchiveAlreadyPresent err then putSegments archive segments deliveries.tail
      else (archive, some ("put immutable audit segment " ++ segment.key ++ ": " ++ err.text))

variable (codec : EntryCodec) (sum256 : List UInt8 → List UInt8) (keyPrefix : String)

/-- `ArchivingBatchWriter.InsertAuditLogsBatch`, with the result of the durable
writer. -/
def insertAuditLogsBatch (archive : Archive) (logs : List LogEntry) (durable : Option String)
    (deliveries : List Delivery) : Archive × Option String :=
  match durable with
  | some err => (archive, some err)
  | none =>
    let (archive, err) := putSegments archive (archiveSegments codec sum256 keyPrefix logs) deliveries
    (archive, err.map ("archive committed audit entries: " ++ ·))

end Sink

def readLines (line : List UInt8) : List UInt8 → List (List UInt8)
  | [] => []
  | b :: bs => if b = 10 then line :: readLines [] bs else readLines (line ++ [b]) bs

def objectEntries (codec : EntryCodec) (payload : List UInt8) : List LogEntry :=
  (readLines [] payload).filterMap codec.unmarshal

section Lines

variable {codec : EntryCodec}

theorem readLines_append {line rest bs : List UInt8} (h : 10 ∉ line) :
    readLines bs (line ++ 10 :: rest) = (bs ++ line) :: readLines [] rest := by
  induction line generalizing bs with
  | nil => simp [readLines]
  | cons _ _ ih =>
    rw [List.mem_cons, not_or] at h
    rw [List.cons_append, readLines, if_neg (Ne.symm h.1), ih h.2, List.append_assoc]
    rfl

theorem objectEntries_flatMap {entries : List LogEntry} {lines : List (List UInt8)}
    (h : entries.mapM codec.marshal = .ok lines) :
    objectEntries codec (lines.flatMap (· ++ [10])) = entries := by
  induction entries generalizing lines with
  | nil =>
    cases h
    rfl
  | cons _ _ ih =>
    rw [List.mapM_cons, bind_eq_ok] at h
    obtain ⟨line, hline, h⟩ := h
    obtain ⟨rest, hrest, h⟩ := bind_eq_ok.mp h
    cases h
    have hread : readLines [] ((line :: rest).flatMap (· ++ [10])) =
        line :: readLines [] (rest.flatMap (· ++ [10])) := by
      rw [List.flatMap_cons, List.append_assoc]
      exact readLines_append (codec.newline_notMem hline)
    rw [objectEntries, hread, List.filterMap_cons_some (codec.unmarshal_marshal hline)]
    exact congrArg _ (ih hrest)

end Lines

section Grouping

variable {codec : EntryCodec} {sum256 : List UInt8 → List UInt8} {keyPrefix : String}
  {entries : List LogEntry}

def ofTenant (entries : List LogEntry) (tenantId : String) : List LogEntry :=
  entries.filter (·.tenantId = tenantId)

theorem groupByTenant_of_ok {byTenant grouped : Map (List LogEntry)}
    (h : groupByTenant byTenant entries = .ok grouped) (tenantId : String) :
    grouped.get [] tenantId = byTenant.get [] tenantId ++ ofTenant entries tenantId ∧
      (tenantId ∈ grouped ↔ tenantId ∈ byTenant ∨ ∃ entry ∈ entries, entry.tenantId = tenantId) := by
  induction entries generalizing byTenant with
  | nil =>
    cases h
    simp [ofTenant]
  | cons entry _ ih =>
    rw [groupByTenant, bind_unit_eq_ok] at h
    obtain ⟨hget, hmem⟩ := ih h.2
    rw [hget, hmem, ofTenant, ofTenant, List.filter_cons, AList.mem_insert]
    rcases eq_or_ne entry.tenantId tenantId with rfl | hne
    · rw [Map.get_insert]
      simp
    · rw [Map.get_insert_ne _ _ _ hne.symm]
      simp [hne, hne.symm]

theorem mem_archiveSegments {segment : ArchiveSegment}
    (h : .ok segment ∈ archiveSegments codec sum256 keyPrefix entries) :
    ∃ tenantId, newArchiveSegment codec sum256 keyPrefix tenantId (ofTenant entries tenantId) =
      .ok segment := by
  unfold archiveSegments at h
  split at h
  · cases List.mem_singleton.mp h
  · next hgrouped =>
    obtain ⟨tenantId, -, hsegment⟩ := List.mem_map.mp h
    refine ⟨tenantId, ?_⟩
    rwa [(groupByTenant_of_ok hgrouped tenantId).1] at hsegment

theorem exists_mem_archiveSegments
    (h : ∀ x ∈ archiveSegments codec sum256 keyPrefix entries, ∃ segment, x = .ok segment)
    {entry : LogEntry} (hentry : entry ∈ entries) :
    ∃ segment, .ok segment ∈ archiveSegments codec sum256 keyPrefix entries ∧
      newArchiveSegment codec sum256 keyPrefix entry.tenantId (ofTenant entries entry.tenantId) =
        .ok segment := by
  unfold archiveSegments at h ⊢
  split at h
  · next err _ =>
    obtain ⟨segment, hsegment⟩ := h _ (List.mem_singleton_self _)
    cases hsegment
  · next grouped hgrouped =>
    obtain ⟨hget, hmem⟩ := groupByTenant_of_ok hgrouped entry.tenantId
    have htenant : entry.tenantId ∈ grouped.keys := hmem.mpr (.inr ⟨entry, hentry, rfl⟩)
    have hsegment := List.mem_map_of_mem (f := fun tenantId ↦
      newArchiveSegment codec sum256 keyPrefix tenantId (grouped.get [] tenantId))
      ((List.perm_insertionSort (· ≤ ·) _).mem_iff.mpr htenant)
    obtain ⟨segment, hok⟩ := h _ hsegment
    refine ⟨segment, hok ▸ hsegment, ?_⟩
    rwa [hget] at hok

theorem objectEntries_newArchiveSegment {tenantId : String} {segment : ArchiveSegment}
    (h : newArchiveSegment codec sum256 keyPrefix tenantId entries = .ok segment) :
    objectEntries codec segment.payload = entries := by
  rw [newArchiveSegment, bind_eq_ok] at h
  obtain ⟨_, hlines, h⟩ := h
  cases h
  cases hmarshal : entries.mapM codec.marshal with
  | error => cases hmarshal ▸ hlines
  | ok => exact objectEntries_flatMap (Except.ok.inj (hmarshal ▸ hlines) ▸ hmarshal)

theorem addressed_newArchiveSegment {tenantId : String} {segment : ArchiveSegment}
    (h : newArchiveSegment codec sum256 keyPrefix tenantId entries = .ok segment) :
    ∃ tenantId timestamp,
      segment.key = segmentKey sum256 keyPrefix tenantId timestamp segment.payload := by
  rw [newArchiveSegment, bind_eq_ok] at h
  obtain ⟨_, -, h⟩ := h
  cases h
  exact ⟨_, _, rfl⟩

theorem segmentKey_inj (hsum : Function.Injective sum256) {tenantId tenantId' : String}
    {timestamp timestamp' : Int64} {payload payload' : List UInt8}
    (h : segmentKey sum256 keyPrefix tenantId timestamp payload =
      segmentKey sum256 keyPrefix tenantId' timestamp' payload') : payload = payload' := by
  have hslash : ∀ bs, '/' ∉ (Encoding.hexEncode bs ++ ".ndjson").toList := by
    intro _
    rw [String.toList_append, List.mem_append, not_or]
    exact ⟨Encoding.slash_notMem_hexEncode, by decide⟩
  have hkey : ∀ tenantId timestamp payload, segmentKey sum256 keyPrefix tenantId timestamp payload =
      keyPrefix ++ "/tenant=" ++ tenantId ++ "/date=" ++ Time.formatDate timestamp.toInt ++
        String.singleton '/' ++ (Encoding.hexEncode (sum256 payload) ++ ".ndjson") :=
    fun _ _ _ ↦ String.append_assoc
  rw [hkey, hkey] at h
  have hname := Text.append_inj_of_notMem (hslash _) (hslash _) h
  have hlist := congrArg String.toList hname
  rw [String.toList_append, String.toList_append] at hlist
  exact hsum (Encoding.hexEncode_injective (String.toList_inj.mp (List.append_cancel_right hlist)))

end Grouping

section Puts

variable {archive : Archive} {segments : List (Except String ArchiveSegment)}
  {deliveries : List Delivery} {key : String} {payload : List UInt8}

structure Puts (segments : List (Except String ArchiveSegment)) (archive archive' : Archive) :
    Prop where
  kept : ∀ key payload, archive.lookup key = some payload → archive'.lookup key = some payload
  new : ∀ key payload, archive'.lookup key = some payload →
    archive.lookup key = some payload ∨ .ok ⟨key, payload⟩ ∈ segments

theorem Puts.refl (archive : Archive) : Puts segments archive archive :=
  ⟨fun _ _ h ↦ h, fun _ _ h ↦ .inl h⟩

theorem Puts.trans {archive' archive'' : Archive} (h : Puts segments archive archive')
    (h' : Puts segments archive' archive'') : Puts segments archive archive'' where
  kept key payload hlookup := h'.kept key payload (h.kept key payload hlookup)
  new key payload hlookup := (h'.new key payload hlookup).elim (h.new key payload) .inr

theorem Puts.mono {segments' : List (Except String ArchiveSegment)} {archive' : Archive}
    (h : Puts segments archive archive') (hsub : segments ⊆ segments') :
    Puts segments' archive archive' where
  kept := h.kept
  new key payload hlookup := (h.new key payload hlookup).imp_right (@hsub _)

theorem puts_insert {segment : ArchiveSegment} (h : segment.key ∉ archive)
    (hmem : .ok segment ∈ segments) :
    Puts segments archive (archive.insert segment.key segment.payload) where
  kept key payload hlookup := by
    rcases eq_or_ne key segment.key with rfl | hne
    · rw [AList.lookup_eq_none.mpr h] at hlookup
      cases hlookup
    · rwa [AList.lookup_insert_ne hne]
  new key payload hlookup := by
    rcases eq_or_ne key segment.key with rfl | hne
    · rw [AList.lookup_insert] at hlookup
      cases hlookup
      exact .inr hmem
    · rw [AList.lookup_insert_ne hne] at hlookup
      exact .inl hlookup

theorem puts_putObject {segment : ArchiveSegment} (hmem : .ok segment ∈ segments)
    (delivery : Delivery) : Puts segments archive (putObject archive segment delivery).1 := by
  cases delivery with
  | lost => exact .refl _
  | answered =>
    unfold putObject
    split_ifs with h
    · exact .refl _
    · exact puts_insert h hmem
  | unanswered =>
    unfold putObject
    dsimp only
    split_ifs with h
    · exact .refl _
    · exact puts_insert h hmem

theorem mem_putObject {segment : ArchiveSegment} {delivery : Delivery}
    (h : ∀ err, (putObject archive segment delivery).2 = some err →
      isArchiveAlreadyPresent err = true) : segment.key ∈ (putObject archive segment delivery).1 := by
  cases delivery with
  | lost => cases h _ rfl
  | unanswered => cases h _ rfl
  | answered =>
    unfold putObject
    split_ifs with hmem
    · exact hmem
    · exact (AList.mem_insert _).mpr (.inl rfl)

theorem putSegments_cons (archive : Archive) (segment : ArchiveSegment)
    (segments : List (Except String ArchiveSegment)) (deliveries : List Delivery) :
    (segment.key ∈ (putObject archive segment (deliveries.headD .answered)).1 ∧
      putSegments archive (.ok segment :: segments) deliveries =
        putSegments (putObject archive segment (deliveries.headD .answered)).1 segments
          deliveries.tail) ∨
    ∃ err, putSegments archive (.ok segment :: segments) deliveries =
      ((putObject archive segment (deliveries.headD .answered)).1, some err) := by
  rw [putSegments]
  split
  · next hput =>
    refine .inl ⟨mem_putObject ?_, by rw [hput]⟩
    intro err herr
    rw [hput] at herr
    cases herr
  · next hput =>
    split_ifs with hpresent
    · refine .inl ⟨mem_putObject ?_, by rw [hput]⟩
      intro _ herr
      rw [hput] at herr
      cases herr
      exact hpresent
    · exact .inr ⟨_, by rw [hput]⟩

theorem puts_putSegments : Puts segments archive (putSegments archive segments deliveries).1 := by
  induction segments generalizing archive deliveries with
  | nil => exact .refl _
  | cons x segments ih =>
    cases x with
    | error => exact .refl _
    | ok segment =>
      have hput : Puts (.ok segment :: segments) archive
          (putObject archive segment (deliveries.headD .answered)).1 :=
        puts_putObject List.mem_cons_self _
      rcases putSegments_cons archive segment segments deliveries with ⟨-, heq⟩ | ⟨_, heq⟩
      · rw [heq]
        exact hput.trans (ih.mono (List.subset_cons_self _ _))
      · rw [heq]
        exact hput

theorem Puts.mem {archive' : Archive} (h : Puts segments archive archive') (hkey : key ∈ archive) :
    key ∈ archive' := by
  obtain ⟨payload, hlookup⟩ := Option.isSome_iff_exists.mp (AList.lookup_isSome.mpr hkey)
  exact AList.lookup_isSome.mp (Option.isSome_iff_exists.mpr ⟨payload, h.kept key payload hlookup⟩)

theorem putSegments_of_none (h : (putSegments archive segments deliveries).2 = none) :
    ∀ x ∈ segments, ∃ segment, x = .ok segment ∧
      segment.key ∈ (putSegments archive segments deliveries).1 := by
  induction segments generalizing archive deliveries with
  | nil => exact List.forall_mem_nil _
  | cons x segments ih =>
    cases x with
    | error => cases h
    | ok segment =>
      rcases putSegments_cons archive segment segments deliveries with ⟨hkey, heq⟩ | ⟨_, heq⟩
      · rw [heq] at h ⊢
        exact List.forall_mem_cons.mpr ⟨⟨segment, rfl, puts_putSegments.mem hkey⟩, ih h⟩
      · rw [heq] at h
        cases h

end Puts

end PolicyEngine.Audit

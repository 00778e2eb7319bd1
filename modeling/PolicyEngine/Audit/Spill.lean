import PolicyEngine.Audit.Entry
import PolicyEngine.File.Directory
import PolicyEngine.Go.Strconv
import PolicyEngine.Trace.Run

namespace PolicyEngine.Audit

open PolicyEngine.Go PolicyEngine.File PolicyEngine.Trace

structure SpillBatch where
  version : ℕ
  batchId : String
  entries : List LogEntry
deriving DecidableEq

/-- `json.Marshal` and `json.Unmarshal` of a batch. -/
structure BatchCodec where
  marshal : SpillBatch → Except String (List UInt8)
  unmarshal : List UInt8 → Option SpillBatch
  unmarshal_marshal : ∀ {batch data}, marshal batch = .ok data → unmarshal data = some batch

def spillFormatVersion : ℕ := 1

def spillSuffix : String := ".auditspill"

/-- `%020d`. -/
def stamp (now : Int64) : List Char :=
  let digits := Nat.toDigits 10 now.toInt.natAbs
  let sign := if now < 0 then ['-'] else []
  sign ++ (List.replicate (20 - sign.length - digits.length) '0' ++ digits)

/-- `fmt.Sprintf("%020d-%s.auditspill", now, batchID)`. -/
def spillName (now : Int64) (batchId : String) : String :=
  String.ofList (stamp now) ++ "-" ++ batchId ++ spillSuffix

def tempName (base : String) : String := base ++ ".tmp"

def isSpill (name : String) : Bool := Text.hasSuffix name spillSuffix

/-- `sizeLocked`, when no call of it fails. -/
def sizeLocked (dir : Directory) : Int64 :=
  (dir.readDir.filter isSpill).foldl (fun total name ↦ total + Int64.ofNat (dir.fileSize name)) 0

/-- The call that holds the mutex. Up to `discarding` it is `WriteBatch`, from
`listing` on `Replay`. -/
inductive SpillCall
  | idle
  | verifying (entries : List LogEntry)
  | marshalling (entries : List LogEntry)
  | sizing (batch : SpillBatch) (data : List UInt8)
  | opening (batch : SpillBatch) (data : List UInt8)
  | writing (batch : SpillBatch) (data : List UInt8) (base : String)
  | syncing (batch : SpillBatch) (data : List UInt8) (base : String)
  | closing (batch : SpillBatch) (data : List UInt8) (base : String)
  | renaming (batch : SpillBatch) (data : List UInt8) (base : String)
  | discarding (batch : SpillBatch) (base : String) (err : String)
  | listing
  | reading (names : List String)
  | checking (name : String) (batch : SpillBatch) (names : List String)
  | inserting (name : String) (batch : SpillBatch) (names : List String)
  | removing (name : String) (batch : SpillBatch) (names : List String)
deriving DecidableEq

/-- A spill store with its directory. `issued` are the batch identifiers in use,
and the lists after it are a record: the batches `WriteBatch` returned success
and an error for, those `Replay` passed to an insert, and those whose insert
returned success. The last two fields are what the calls returned. -/
structure SpillStore where
  dir : Directory
  call : SpillCall
  issued : List String
  accepted : List SpillBatch
  refused : List SpillBatch
  passed : List SpillBatch
  inserted : List SpillBatch
  written : Option String
  replayed : UInt64 × Option String

/-- What happens to the call in progress. The error of an operation that fails
is given. -/
inductive SpillEvent
  | writeBatch (entries : List LogEntry)
  | verify (verifies : LogEntry → Bool) (err : String)
  | marshal (batchId : String)
  | size (err : Option String)
  | create (now : Int64) (err : Option String)
  | write (failed : Option (ℕ × String))
  | sync (err : Option String)
  | close (err : Option String)
  | rename (err : Option String)
  | discard (ok : Bool)
  | replay
  | list (err : Option String)
  | read (err : Option String)
  | insert (err : Option String)
  | remove (err : Option String)

namespace SpillStore

def refuse (s : SpillStore) (batch : SpillBatch) (err : String) : SpillStore :=
  { s with call := .idle, refused := s.refused ++ [batch], written := some err }

def leave (s : SpillStore) (err : Option String) : SpillStore :=
  { s with call := .idle, replayed := (s.replayed.1, err) }

variable (codec : BatchCodec) (maxBytes : Int64)

/-- The decoding of a spill file in `Replay`. -/
def decode (data : List UInt8) : Option SpillBatch :=
  (codec.unmarshal data).filter fun batch ↦
    batch.version = spillFormatVersion ∧ batch.batchId ≠ ""

def step (s : SpillStore) : SpillEvent → Option SpillStore
  | .writeBatch entries =>
    match s.call with
    | .idle =>
      if entries = [] then some { s with written := none }
      else some { s with call := .verifying entries }
    | _ => none
  | .verify verifies err =>
    match s.call with
    | .verifying entries =>
      if entries.all verifies then some { s with call := .marshalling entries }
      else some { s with
        call := .idle
        written := some ("refuse invalid audit spill entry: " ++ err) }
    | .checking name batch names =>
      if batch.entries.all verifies then some { s with call := .inserting name batch names }
      else some (s.leave (some ("tampered audit spill file " ++ name ++ ": " ++ err)))
    | _ => none
  | .marshal batchId =>
    match s.call with
    | .marshalling entries =>
      let batch := ⟨spillFormatVersion, batchId, entries⟩
      -- a new identifier is not in use
      if batchId ∈ s.issued then none
      else
        let s := { s with issued := batchId :: s.issued }
        match codec.marshal batch with
        | .ok data => some { s with call := .sizing batch data }
        | .error err => some (s.refuse batch err)
    | _ => none
  | .size err =>
    match s.call, err with
    | .sizing batch _, some err => some (s.refuse batch err)
    | .sizing batch data, none =>
      if sizeLocked s.dir + Int64.ofNat data.length > maxBytes then
        some (s.refuse batch "audit spill quota exceeded")
      else some { s with call := .opening batch data }
    | _, _ => none
  | .create now err =>
    match s.call, err with
    | .opening batch _, some err => some (s.refuse batch err)
    | .opening batch data, none =>
      let base := spillName now batch.batchId
      if tempName base ∈ s.dir then none
      else some { s with dir := s.dir.insert (tempName base) [], call := .writing batch data base }
    | _, _ => none
  | .write failed =>
    match s.call, failed with
    | .writing batch data base, some (count, err) =>
      some { s with
        dir := s.dir.write (tempName base) (data.take count)
        call := .discarding batch base err }
    | .writing batch data base, none =>
      -- no file system holds more bytes than an int64 counts
      if s.dir.size (fun _ ↦ true) + data.length < 2 ^ 63 then
        some { s with
          dir := s.dir.write (tempName base) data
          call := .syncing batch data base }
      else none
    | _, _ => none
  | .sync err =>
    match s.call, err with
    | .syncing batch _ base, some err => some { s with call := .discarding batch base err }
    | .syncing batch data base, none => some { s with call := .closing batch data base }
    | _, _ => none
  | .close err =>
    match s.call, err with
    | .closing batch _ base, some err => some { s with call := .discarding batch base err }
    | .closing batch data base, none => some { s with call := .renaming batch data base }
    | _, _ => none
  | .rename err =>
    match s.call, err with
    | .renaming batch _ base, some err => some { s with call := .discarding batch base err }
    | .renaming batch _ base, none =>
      some { s with
        dir := s.dir.rename (tempName base) base
        call := .idle
        accepted := s.accepted ++ [batch]
        written := none }
    | _, _ => none
  | .discard ok =>
    match s.call with
    | .discarding batch base err =>
      some ({ s with dir := if ok then s.dir.erase (tempName base) else s.dir }.refuse batch err)
    | _ => none
  | .replay =>
    match s.call with
    | .idle => some { s with call := .listing, replayed := (0, none) }
    | _ => none
  | .list err =>
    match s.call, err with
    | .listing, some err => some (s.leave (some err))
    | .listing, none => some { s with call := .reading s.dir.readDir }
    | _, _ => none
  | .read err =>
    match s.call with
    | .reading [] => some (s.leave none)
    | .reading (name :: names) =>
      if isSpill name then
        match err, s.dir.lookup name with
        | some err, _ => some (s.leave (some err))
        | none, none => none
        | none, some data =>
          match decode codec data with
          | some batch => some { s with call := .checking name batch names }
          | none => some (s.leave (some ("invalid audit spill file " ++ name)))
      else some { s with call := .reading names }
    | _ => none
  | .insert err =>
    match s.call with
    | .inserting name batch names =>
      let s := { s with passed := s.passed ++ [batch] }
      match err with
      | some err => some (s.leave (some err))
      | none => some { s with
          call := .removing name batch names
          inserted := s.inserted ++ [batch] }
    | _ => none
  | .remove err =>
    match s.call, err with
    | .removing _ _ _, some err => some (s.leave (some err))
    | .removing name batch names, none =>
      some { s with
        dir := s.dir.erase name
        call := .reading names
        replayed := (s.replayed.1 + UInt64.ofNat batch.entries.length, none) }
    | _, _ => none

end SpillStore

section Names

theorem isSpill_iff {name : String} : isSpill name = true ↔ ∃ head, name = head ++ spillSuffix := by
  rw [isSpill, Text.hasSuffix, List.isSuffixOf_iff_suffix]
  constructor
  · rintro ⟨head, hhead⟩
    refine ⟨String.ofList head, String.toList_inj.mp ?_⟩
    rw [String.toList_append, String.toList_ofList, hhead]
  · rintro ⟨head, rfl⟩
    exact ⟨head.toList, (String.toList_append).symm⟩

theorem isSpill_spillName (now : Int64) (batchId : String) : isSpill (spillName now batchId) = true :=
  isSpill_iff.mpr ⟨_, rfl⟩

theorem isSpill_tempName (base : String) : isSpill (tempName base) = false := by
  apply Bool.eq_false_iff.mpr
  intro h
  obtain ⟨head, hhead⟩ := isSpill_iff.mp h
  have hlast := congrArg (fun name ↦ name.toList.getLast?) hhead
  have htemp : (tempName base).toList.getLast? = some 'p' := by
    rw [tempName, String.toList_append, List.getLast?_append]
    rfl
  have hspill : (head ++ spillSuffix).toList.getLast? = some 'l' := by
    rw [String.toList_append, List.getLast?_append]
    rfl
  simp only [htemp, hspill] at hlast
  cases hlast

theorem tempName_ne_of_isSpill {name : String} (h : isSpill name = true) (base : String) :
    name ≠ tempName base := by
  rintro rfl
  rw [isSpill_tempName] at h
  cases h

theorem length_stamp (now : Int64) : (stamp now).length = 20 := by
  have hlo := Int64.le_toInt now
  have hhi := Int64.toInt_lt now
  have hdigits : (Nat.toDigits 10 now.toInt.natAbs).length ≤ 19 :=
    (Nat.length_toDigits_le_iff (by decide) (by decide)).mpr (by omega)
  rw [stamp, List.length_append, List.length_append, List.length_replicate]
  split_ifs
  · simp only [List.length_singleton]
    omega
  · simp only [List.length_nil]
    omega

theorem spillName_inj {now now' : Int64} {batchId batchId' : String}
    (h : spillName now batchId = spillName now' batchId') : batchId = batchId' := by
  have hlist := congrArg String.toList h
  simp only [spillName, String.toList_append, String.toList_ofList, List.append_assoc] at hlist
  have hrest := (List.append_inj hlist (by rw [length_stamp, length_stamp])).2
  exact String.toList_inj.mp (List.append_cancel_right (List.append_cancel_left hrest))

theorem sizeLocked_eq (dir : Directory) : sizeLocked dir = Int64.ofNat (dir.size isSpill) := by
  have hfold : ∀ (names : List String) (total : Int64),
      names.foldl (fun total name ↦ total + Int64.ofNat (dir.fileSize name)) total =
        total + Int64.ofNat (names.map dir.fileSize).sum := by
    intro names
    induction names with
    | nil => simp
    | cons _ _ ih =>
      intro _
      rw [List.foldl_cons, ih, List.map_cons, List.sum_cons, Int64.ofNat_add, Int64.add_assoc]
  rw [sizeLocked, hfold, Directory.sum_readDir, Int64.zero_add]

end Names

end PolicyEngine.Audit

import PolicyEngine.Audit.EntryJson

namespace PolicyEngine.Audit

open PolicyEngine.Go PolicyEngine.File PolicyEngine.Trace

def SpillCall.drawn : SpillCall → List String
  | .sizing batch _ | .opening batch _ | .writing batch _ _ | .syncing batch _ _
  | .closing batch _ _ | .renaming batch _ _ | .discarding batch _ _ => [batch.batchId]
  | _ => []

def SpillCall.source : SpillCall → List (List LogEntry)
  | .verifying entries | .marshalling entries => [entries]
  | .sizing batch _ | .opening batch _ | .writing batch _ _ | .syncing batch _ _
  | .closing batch _ _ | .renaming batch _ _ | .discarding batch _ _ => [batch.entries]
  | _ => []

def SpillCall.replaying : SpillCall → Bool
  | .listing | .reading _ | .checking _ _ _ | .inserting _ _ _ | .removing _ _ _ => true
  | _ => false

namespace SpillStore

/-- What the `Replay` in progress has counted so far. -/
def running (s : SpillStore) : UInt64 := if s.call.replaying then s.replayed.1 else 0

section Steps

variable (codec : BatchCodec) (maxBytes : Int64)

def OnDisk (dir : Directory) (batch : SpillBatch) : Prop :=
  ∃ name data, dir.lookup name = some data ∧ isSpill name = true ∧ codec.unmarshal data = some batch

def FileOf (dir : Directory) (name : String) (batch : SpillBatch) : Prop :=
  isSpill name = true ∧ ∃ data, dir.lookup name = some data ∧ codec.unmarshal data = some batch

/-- The temporary file is complete, and there is room for it among the others. -/
def Complete (dir : Directory) (batch : SpillBatch) (data : List UInt8) (base : String) : Prop :=
  codec.marshal batch = .ok data ∧
    ((dir.size isSpill + data.length : ℕ) : ℤ) ≤ maxBytes.toInt ∧
    (∃ now, base = spillName now batch.batchId) ∧ dir.lookup (tempName base) = some data

def Ready (s : SpillStore) : SpillCall → Prop
  | .sizing batch data => codec.marshal batch = .ok data
  | .opening batch data => codec.marshal batch = .ok data ∧
      ¬ sizeLocked s.dir + Int64.ofNat data.length > maxBytes
  | .writing batch data base => codec.marshal batch = .ok data ∧
      ¬ sizeLocked s.dir + Int64.ofNat data.length > maxBytes ∧
      (∃ now, base = spillName now batch.batchId) ∧ s.dir.lookup (tempName base) = some []
  | .syncing batch data base | .closing batch data base | .renaming batch data base =>
      Complete codec maxBytes s.dir batch data base
  | .checking name batch _ | .inserting name batch _ => FileOf codec s.dir name batch
  | .removing name batch _ => FileOf codec s.dir name batch ∧ batch ∈ s.inserted
  | _ => True

structure SameSpills (dir dir' : Directory) : Prop where
  lookup : ∀ name, isSpill name = true → dir'.lookup name = dir.lookup name
  total : ∀ weight, (∀ name data, isSpill name = false → weight name data = 0) →
    dir'.total weight = dir.total weight

inductive Step (s : SpillStore) : SpillEvent → SpillStore → Prop
  | begin {entries : List LogEntry} (hcall : s.call = .idle) :
      Step s (.writeBatch entries) { s with call := .verifying entries }
  | pass {e : SpillEvent} {call : SpillCall} {written : Option String}
      {replayed : UInt64 × Option String}
      (hcall : Ready codec maxBytes s call) (hdrawn : call.drawn = s.call.drawn)
      (hsource : call.source ⊆ s.call.source)
      (hcount : s.call.replaying = true ∨ call.replaying = true → replayed.1 = s.running) :
      Step s e { s with call := call, written := written, replayed := replayed }
  | draw {e : SpillEvent} {batch : SpillBatch} {data : List UInt8} (hnew : batch.batchId ∉ s.issued)
      (hdrawn : s.call.drawn = []) (hsource : batch.entries ∈ s.call.source)
      (hdata : codec.marshal batch = .ok data) :
      Step s e { s with issued := batch.batchId :: s.issued, call := .sizing batch data }
  | unmarshallable {e : SpillEvent} {batch : SpillBatch} {err : String}
      (hnew : batch.batchId ∉ s.issued) (hdrawn : s.call.drawn = [])
      (hsource : batch.entries ∈ s.call.source) :
      Step s e ({ s with issued := batch.batchId :: s.issued }.refuse batch err)
  | touch {e : SpillEvent} {dir : Directory} {call : SpillCall} (hdir : SameSpills s.dir dir)
      (hcall : Ready codec maxBytes { s with dir := dir } call)
      (hdrawn : call.drawn = s.call.drawn) (hsource : call.source ⊆ s.call.source)
      (hwriting : s.call.drawn ≠ []) : Step s e { s with dir := dir, call := call }
  | refuse {e : SpillEvent} {dir : Directory} {batch : SpillBatch} {err : String}
      (hdir : SameSpills s.dir dir) (hdrawn : s.call.drawn = [batch.batchId]) :
      Step s e ({ s with dir := dir }.refuse batch err)
  | accept {e : SpillEvent} {batch : SpillBatch} {data : List UInt8} {base : String}
      {written : Option String} (hcall : s.call = .renaming batch data base)
      (hready : Complete codec maxBytes s.dir batch data base) :
      Step s e { s with
        dir := s.dir.rename (tempName base) base
        call := .idle
        accepted := s.accepted ++ [batch]
        written := written }
  | insert {name : String} {batch : SpillBatch} {names : List String}
      (hcall : s.call = .inserting name batch names) (hfile : FileOf codec s.dir name batch) :
      Step s (.insert none) { s with
        call := .removing name batch names
        passed := s.passed ++ [batch]
        inserted := s.inserted ++ [batch] }
  | insertFails {e : SpillEvent} {name : String} {batch : SpillBatch} {names : List String}
      {err : Option String} (hcall : s.call = .inserting name batch names)
      (hfile : FileOf codec s.dir name batch) :
      Step s e { s with
        call := .idle
        passed := s.passed ++ [batch]
        replayed := (s.replayed.1, err) }
  | remove {e : SpillEvent} {name : String} {batch : SpillBatch} {names : List String}
      (hcall : s.call = .removing name batch names) (hfile : FileOf codec s.dir name batch)
      (hinserted : batch ∈ s.inserted) :
      Step s e { s with
        dir := s.dir.erase name
        call := .reading names
        replayed := (s.replayed.1 + UInt64.ofNat batch.entries.length, none) }

variable {codec maxBytes} {s t : SpillStore} {e : SpillEvent} {dir : Directory}

theorem SameSpills.refl (dir : Directory) : SameSpills dir dir := ⟨fun _ _ ↦ rfl, fun _ _ ↦ rfl⟩

theorem SameSpills.size {dir' : Directory} (h : SameSpills dir dir') :
    dir'.size isSpill = dir.size isSpill := by
  rw [Directory.size_eq_total, Directory.size_eq_total]
  exact h.total _ fun _ _ hname ↦ by simp [hname]

theorem sameSpills_insert (dir : Directory) (base : String) (data : List UInt8) :
    SameSpills dir (dir.insert (tempName base) data) where
  lookup _ h := AList.lookup_insert_ne (tempName_ne_of_isSpill h base)
  total _ h := Directory.total_insert_of_zero fun _ ↦ h _ _ (isSpill_tempName base)

theorem sameSpills_erase (base : String) : SameSpills dir (dir.erase (tempName base)) where
  lookup _ h := AList.lookup_erase_ne (tempName_ne_of_isSpill h base)
  total _ h := Directory.total_erase_of_zero fun _ ↦ h _ _ (isSpill_tempName base)

theorem SameSpills.sizeLocked {dir' : Directory} (h : SameSpills dir dir') :
    sizeLocked dir' = sizeLocked dir := by
  rw [sizeLocked_eq, sizeLocked_eq, h.size]

theorem room_of_check {data : List UInt8}
    (hcheck : ¬ sizeLocked dir + Int64.ofNat data.length > maxBytes)
    (hdisk : dir.size (fun _ ↦ true) + data.length < 2 ^ 63) :
    ((dir.size isSpill + data.length : ℕ) : ℤ) ≤ maxBytes.toInt := by
  have hsize : dir.size isSpill ≤ dir.size fun _ ↦ true := Directory.size_le_size_all
  rw [sizeLocked_eq, ← Int64.ofNat_add, gt_iff_lt, Int64.not_lt, Int64.le_iff_toInt_le,
    Int64.toInt_ofNat_of_lt (by omega)] at hcheck
  exact hcheck

theorem decode_eq_some {data : List UInt8} {batch : SpillBatch}
    (h : decode codec data = some batch) : codec.unmarshal data = some batch := by
  rw [decode, Option.filter_eq_some_iff] at h
  exact h.1

theorem step_cases (hready : Ready codec maxBytes s s.call)
    (h : s.step codec maxBytes e = some t) : s.Step codec maxBytes e t := by
  obtain ⟨dir, call, issued, accepted, refused, passed, inserted, written, replayed⟩ := s
  cases e with
  | writeBatch =>
    simp only [step] at h
    split at h
    · split_ifs at h
      · cases h
        exact .pass hready rfl (List.Subset.refl _) nofun
      · cases h
        exact .begin rfl
    · cases h
  | verify =>
    simp only [step] at h
    split at h
    · split_ifs at h
      · cases h
        exact .pass trivial rfl (List.Subset.refl _) nofun
      · cases h
        exact .pass trivial rfl (List.nil_subset _) nofun
    · split_ifs at h
      · cases h
        exact .pass hready rfl (List.nil_subset _) fun _ ↦ rfl
      · cases h
        exact .pass trivial rfl (List.nil_subset _) fun _ ↦ rfl
    · cases h
  | marshal batchId =>
    simp only [step] at h
    split at h
    · next entries =>
      split_ifs at h with hnew
      split at h
      · next hdata =>
        cases h
        exact .draw hnew rfl (List.mem_singleton_self _) hdata
      · cases h
        have hbatch : (⟨1, batchId, entries⟩ : SpillBatch).batchId ∉ issued := hnew
        exact .unmarshallable (s := ⟨_, .marshalling entries, _, _, _, _, _, _, _⟩) hbatch rfl
          (List.mem_singleton_self _)
    · cases h
  | size err =>
    simp only [step] at h
    split at h
    · cases h
      exact .refuse (.refl _) rfl
    · split_ifs at h with hquota
      · cases h
        exact .refuse (.refl _) rfl
      · cases h
        exact .pass ⟨hready, hquota⟩ rfl (List.Subset.refl _) nofun
    · cases h
  | create now err =>
    simp only [step] at h
    split at h
    · cases h
      exact .refuse (.refl _) rfl
    · next batch data =>
      split_ifs at h with hnew
      cases h
      have hsame := sameSpills_insert dir (spillName now batch.batchId) []
      refine .touch hsame ⟨hready.1, ?_, ⟨now, rfl⟩, AList.lookup_insert _⟩ rfl
        (List.Subset.refl _) (List.cons_ne_nil _ _)
      rw [hsame.sizeLocked]
      exact hready.2
    · cases h
  | write =>
    simp only [step] at h
    split at h
    · next base count err =>
      cases h
      exact .touch (sameSpills_insert _ base _) trivial rfl (List.Subset.refl _)
        (List.cons_ne_nil _ _)
    · next data base =>
      obtain ⟨hdata, hcheck, hbase, hempty⟩ := hready
      split_ifs at h with hdisk
      cases h
      have hsame : SameSpills dir (dir.write (tempName base) data) := sameSpills_insert _ base _
      refine .touch hsame ⟨hdata, ?_, hbase, ?_⟩ rfl
        (List.Subset.refl _) (List.cons_ne_nil _ _)
      · rw [hsame.size]
        exact room_of_check hcheck hdisk
      · rw [Directory.write, hempty]
        exact AList.lookup_insert _
    · cases h
  | sync err | close err =>
    simp only [step] at h
    split at h
    · cases h
      exact .pass trivial rfl (List.Subset.refl _) nofun
    · cases h
      exact .pass hready rfl (List.Subset.refl _) nofun
    · cases h
  | rename err =>
    simp only [step] at h
    split at h
    · cases h
      exact .pass trivial rfl (List.Subset.refl _) nofun
    · cases h
      exact .accept rfl hready
    · cases h
  | discard =>
    simp only [step] at h
    split at h
    · next base err =>
      cases h
      refine .refuse ?_ rfl
      split_ifs
      · exact sameSpills_erase base
      · exact .refl _
    · cases h
  | replay =>
    simp only [step] at h
    split at h
    · cases h
      exact .pass trivial rfl (List.nil_subset _) fun _ ↦ rfl
    · cases h
  | list err =>
    simp only [step] at h
    split at h
    · cases h
      exact .pass trivial rfl (List.nil_subset _) fun _ ↦ rfl
    · cases h
      exact .pass trivial rfl (List.nil_subset _) fun _ ↦ rfl
    · cases h
  | read =>
    simp only [step] at h
    split at h
    · cases h
      exact .pass trivial rfl (List.nil_subset _) fun _ ↦ rfl
    · split_ifs at h with hspill
      · split at h
        · cases h
          exact .pass trivial rfl (List.nil_subset _) fun _ ↦ rfl
        · cases h
        · next data hdata =>
          split at h
          · next hbatch =>
            cases h
            have hfile := decode_eq_some hbatch
            exact .pass ⟨hspill, data, hdata, hfile⟩ rfl (List.nil_subset _) fun _ ↦ rfl
          · cases h
            exact .pass trivial rfl (List.nil_subset _) fun _ ↦ rfl
      · cases h
        exact .pass trivial rfl (List.nil_subset _) fun _ ↦ rfl
    · cases h
  | insert =>
    simp only [step] at h
    split at h
    · split at h
      · cases h
        exact .insertFails rfl hready
      · cases h
        exact .insert rfl hready
    · cases h
  | remove =>
    simp only [step] at h
    split at h
    · cases h
      exact .pass trivial rfl (List.nil_subset _) fun _ ↦ rfl
    · cases h
      exact .remove rfl hready.1 hready.2
    · cases h

end Steps

section Safety

def opened (dir : Directory) (issued : List String) : SpillStore :=
  ⟨dir, .idle, issued, [], [], [], [], none, (0, none)⟩

variable (codec : BatchCodec) (maxBytes : Int64)

structure Known (dir : Directory) (issued : List String) : Prop where
  names : ∀ now batchId, spillName now batchId ∈ dir → batchId ∈ issued
  batches : ∀ batch, OnDisk codec dir batch → batch.batchId ∈ issued

def ids (s : SpillStore) : List String :=
  (s.accepted ++ s.refused).map (·.batchId) ++ s.call.drawn

structure Identified (issued : List String) (s : SpillStore) : Prop where
  nodup : s.ids.Nodup
  drawn : ∀ batchId ∈ s.ids, batchId ∈ s.issued ∧ batchId ∉ issued
  issued : issued ⊆ s.issued

structure Ok (dir : Directory) (issued : List String) (s : SpillStore) : Prop where
  ready : Ready codec maxBytes s s.call
  stored : ∀ batch ∈ s.accepted, OnDisk codec s.dir batch ∨ batch ∈ s.inserted
  source : ∀ batch, OnDisk codec s.dir batch → OnDisk codec dir batch ∨ batch ∈ s.accepted
  passed : ∀ batch ∈ s.passed, OnDisk codec dir batch ∨ batch ∈ s.accepted
  names : ∀ now batchId, spillName now batchId ∈ s.dir →
    batchId ∈ issued ∨ batchId ∈ s.accepted.map (·.batchId)
  identified : Identified issued s

variable {codec maxBytes} {dir : Directory} {issued : List String} {s t : SpillStore}

theorem ok_opened (hknown : Known codec dir issued) :
    Ok codec maxBytes dir issued (opened dir issued) where
  ready := trivial
  stored := List.forall_mem_nil _
  source _ := .inl
  passed := List.forall_mem_nil _
  names now batchId h := .inl (hknown.names now batchId h)
  identified := ⟨List.nodup_nil, List.forall_mem_nil _, List.Subset.refl _⟩

theorem onDisk_congr {dir' : Directory} (h : SameSpills dir dir') {batch : SpillBatch} :
    OnDisk codec dir' batch ↔ OnDisk codec dir batch := by
  unfold OnDisk
  refine exists_congr fun name ↦ exists_congr fun data ↦ ?_
  constructor
  · rintro ⟨hlookup, hspill, hbatch⟩
    exact ⟨h.lookup name hspill ▸ hlookup, hspill, hbatch⟩
  · rintro ⟨hlookup, hspill, hbatch⟩
    exact ⟨(h.lookup name hspill).trans hlookup, hspill, hbatch⟩

theorem mem_spillName_congr {dir' : Directory} (h : SameSpills dir dir') {now : Int64}
    {batchId : String} : spillName now batchId ∈ dir' ↔ spillName now batchId ∈ dir := by
  rw [← AList.lookup_isSome, ← AList.lookup_isSome, h.lookup _ (isSpill_spillName now batchId)]

theorem Identified.of_perm (h : Identified issued s) (hids : t.ids.Perm s.ids)
    (hissued : t.issued = s.issued) : Identified issued t where
  nodup := hids.nodup_iff.mpr h.nodup
  drawn batchId hid := hissued ▸ h.drawn batchId (hids.mem_iff.mp hid)
  issued := hissued ▸ h.issued

theorem Identified.of_same (h : Identified issued s) (haccepted : t.accepted = s.accepted)
    (hrefused : t.refused = s.refused) (hdrawn : t.call.drawn = s.call.drawn)
    (hissued : t.issued = s.issued) : Identified issued t := by
  refine h.of_perm (.of_eq ?_) hissued
  rw [ids, ids, haccepted, hrefused, hdrawn]

theorem Identified.draw (h : Identified issued s) {batchId : String} (hnew : batchId ∉ s.issued)
    (hids : t.ids.Perm (batchId :: s.ids)) (hissued : t.issued = batchId :: s.issued) :
    Identified issued t where
  nodup := by
    rw [hids.nodup_iff, List.nodup_cons]
    exact ⟨fun hid ↦ hnew (h.drawn batchId hid).1, h.nodup⟩
  drawn := by
    intro id hid
    rw [hissued, List.mem_cons]
    rcases List.mem_cons.mp (hids.mem_iff.mp hid) with rfl | hid
    · exact ⟨.inl rfl, fun hold ↦ hnew (h.issued hold)⟩
    · exact ⟨.inr (h.drawn id hid).1, (h.drawn id hid).2⟩
  issued := by
    rw [hissued]
    exact List.subset_cons_of_subset _ h.issued

theorem ids_refuse {batch : SpillBatch} (err : String) :
    (s.refuse batch err).ids.Perm (batch.batchId :: (s.accepted ++ s.refused).map (·.batchId)) := by
  have hids : (s.refuse batch err).ids =
      (s.accepted ++ s.refused).map (·.batchId) ++ [batch.batchId] := by
    simp [ids, SpillStore.refuse, SpillCall.drawn]
  rw [hids]
  exact List.perm_append_singleton _ _

theorem ids_of_drawn {batchId : String} (h : s.call.drawn = [batchId]) :
    s.ids.Perm (batchId :: (s.accepted ++ s.refused).map (·.batchId)) := by
  rw [ids, h]
  exact List.perm_append_singleton _ _

theorem ids_of_not_drawn (h : s.call.drawn = []) :
    s.ids = (s.accepted ++ s.refused).map (·.batchId) := by
  rw [ids, h, List.append_nil]

theorem Ok.touch (h : Ok codec maxBytes dir issued s) {dir' : Directory} {call : SpillCall}
    {written : Option String} {replayed : UInt64 × Option String} (hdir : SameSpills s.dir dir')
    (hcall : Ready codec maxBytes { s with dir := dir' } call) (hdrawn : call.drawn = s.call.drawn) :
    Ok codec maxBytes dir issued
      { s with dir := dir', call := call, written := written, replayed := replayed } where
  ready := by
    cases call <;> exact hcall
  stored batch hbatch := (h.stored batch hbatch).imp_left (onDisk_congr hdir).mpr
  source batch hbatch := h.source batch ((onDisk_congr hdir).mp hbatch)
  passed := h.passed
  names now batchId hname := h.names now batchId ((mem_spillName_congr hdir).mp hname)
  identified := h.identified.of_same rfl rfl hdrawn rfl

theorem Ok.refuse (h : Ok codec maxBytes dir issued s) {dir' : Directory} {batch : SpillBatch}
    {err : String} (hdir : SameSpills s.dir dir') (hdrawn : s.call.drawn = [batch.batchId]) :
    Ok codec maxBytes dir issued ({ s with dir := dir' }.refuse batch err) := by
  have hfailed : Ok codec maxBytes dir issued
      { s with dir := dir', call := .discarding batch "" err } := h.touch hdir trivial hdrawn.symm
  exact ⟨trivial, hfailed.stored, hfailed.source, hfailed.passed, hfailed.names,
    h.identified.of_perm ((ids_refuse err).trans (ids_of_drawn hdrawn).symm) rfl⟩

theorem FileOf.onDisk {name : String} {batch : SpillBatch} (h : FileOf codec dir name batch) :
    OnDisk codec dir batch := by
  obtain ⟨hspill, data, hlookup, hbatch⟩ := h
  exact ⟨name, data, hlookup, hspill, hbatch⟩

theorem Ok.pass (h : Ok codec maxBytes dir issued s) {name : String} {batch : SpillBatch}
    (hfile : FileOf codec s.dir name batch) :
    ∀ b ∈ s.passed ++ [batch], OnDisk codec dir b ∨ b ∈ s.accepted := by
  intro b hb
  rcases List.mem_append.mp hb with hb | hb
  · exact h.passed b hb
  · cases List.mem_singleton.mp hb
    exact h.source batch hfile.onDisk

theorem Ok.base_notMem (h : Ok codec maxBytes dir issued s) {now : Int64} {batchId : String}
    (hdrawn : s.call.drawn = [batchId]) : spillName now batchId ∉ s.dir := by
  intro hmem
  have hids := ids_of_drawn hdrawn
  rcases h.names now batchId hmem with hold | hold
  · exact (h.identified.drawn batchId (hids.mem_iff.mpr List.mem_cons_self)).2 hold
  · have hnodup := hids.nodup_iff.mp h.identified.nodup
    rw [List.nodup_cons, List.map_append, List.mem_append] at hnodup
    exact hnodup.1 (.inl hold)

theorem onDisk_rename {base : String} {batch b : SpillBatch} {data : List UInt8}
    (hspill : isSpill base = true) (hlookup : dir.lookup (tempName base) = some data)
    (hdata : codec.unmarshal data = some batch)
    (h : OnDisk codec (dir.rename (tempName base) base) b) : OnDisk codec dir b ∨ b = batch := by
  obtain ⟨name, data', hlookup', hspill', hb⟩ := h
  rcases eq_or_ne name base with rfl | hname
  · rw [Directory.lookup_rename hlookup] at hlookup'
    cases hlookup'
    rw [hdata] at hb
    exact .inr (Option.some.inj hb).symm
  · rw [Directory.lookup_rename_ne hname (tempName_ne_of_isSpill hspill' base)] at hlookup'
    exact .inl ⟨name, data', hlookup', hspill', hb⟩

theorem OnDisk.rename {base : String} {b : SpillBatch} (hbase : base ∉ dir)
    (h : OnDisk codec dir b) : OnDisk codec (dir.rename (tempName base) base) b := by
  obtain ⟨name, data, hlookup, hspill, hb⟩ := h
  refine ⟨name, data, ?_, hspill, hb⟩
  rw [Directory.lookup_rename_ne ?_ (tempName_ne_of_isSpill hspill base)]
  · exact hlookup
  · rintro rfl
    rw [AList.lookup_eq_none.mpr hbase] at hlookup
    cases hlookup

theorem Ok.accept (h : Ok codec maxBytes dir issued s) {batch : SpillBatch} {data : List UInt8}
    {base : String} {written : Option String} (hcall : s.call = .renaming batch data base)
    (hready : Complete codec maxBytes s.dir batch data base) :
    Ok codec maxBytes dir issued { s with
      dir := s.dir.rename (tempName base) base
      call := .idle
      accepted := s.accepted ++ [batch]
      written := written } := by
  obtain ⟨hdata, _, ⟨now, rfl⟩, htemp⟩ := hready
  have hdrawn : s.call.drawn = [batch.batchId] := hcall ▸ rfl
  have hspill := isSpill_spillName now batch.batchId
  have hbatch := codec.unmarshal_marshal hdata
  refine ⟨trivial, ?_, ?_, ?_, ?_, ?_⟩
  · intro b hb
    rcases List.mem_append.mp hb with hb | hb
    · exact (h.stored b hb).imp_left (OnDisk.rename (h.base_notMem hdrawn))
    · cases List.mem_singleton.mp hb
      exact .inl ⟨_, data, Directory.lookup_rename htemp, hspill, hbatch⟩
  · intro b hb
    rcases onDisk_rename hspill htemp hbatch hb with hb | rfl
    · exact (h.source b hb).imp_right (List.mem_append_left _)
    · exact .inr List.mem_concat_self
  · intro b hb
    exact (h.passed b hb).imp_right (List.mem_append_left _)
  · intro now' batchId hname
    rw [List.map_append, List.mem_append]
    by_cases hsame : spillName now' batchId = spillName now batch.batchId
    · rw [spillName_inj hsame]
      exact .inr (.inr (List.mem_singleton_self _))
    · have hne := tempName_ne_of_isSpill (isSpill_spillName now' batchId) (spillName now batch.batchId)
      rw [← AList.lookup_isSome, Directory.lookup_rename_ne hsame hne, AList.lookup_isSome] at hname
      exact (h.names now' batchId hname).imp_right .inl
  · refine h.identified.of_perm ?_ rfl
    refine List.Perm.trans ?_ (ids_of_drawn hdrawn).symm
    rw [ids_of_not_drawn rfl, List.append_assoc]
    exact List.perm_middle.map _

theorem Ok.remove (h : Ok codec maxBytes dir issued s) {name : String} {batch : SpillBatch}
    {names : List String} {replayed : UInt64 × Option String}
    (hfile : FileOf codec s.dir name batch) (hinserted : batch ∈ s.inserted)
    (hdrawn : s.call.drawn = []) :
    Ok codec maxBytes dir issued
      { s with dir := s.dir.erase name, call := .reading names, replayed := replayed } := by
  obtain ⟨-, _, hlookup, hbatch⟩ := hfile
  refine ⟨trivial, ?_, ?_, h.passed, ?_, h.identified.of_same rfl rfl hdrawn.symm rfl⟩
  · intro b hb
    rcases h.stored b hb with ⟨name', data', hlookup', hspill', hb'⟩ | hb
    · rcases eq_or_ne name' name with rfl | hname
      · rw [hlookup] at hlookup'
        cases hlookup'
        rw [hbatch] at hb'
        cases hb'
        exact .inr hinserted
      · exact .inl ⟨name', data', (AList.lookup_erase_ne hname).trans hlookup', hspill', hb'⟩
    · exact .inr hb
  · rintro b ⟨name', data', hlookup', hspill', hb'⟩
    refine h.source b ⟨name', data', ?_, hspill', hb'⟩
    rcases eq_or_ne name' name with rfl | hname
    · rw [AList.lookup_erase] at hlookup'
      cases hlookup'
    · rwa [AList.lookup_erase_ne hname] at hlookup'
  · intro now batchId hmem
    exact h.names now batchId (AList.mem_erase.mp hmem).2

theorem Ok.step (h : Ok codec maxBytes dir issued s) {e : SpillEvent}
    (hs : s.Step codec maxBytes e t) :
    Ok codec maxBytes dir issued t := by
  cases hs with
  | begin hcall => exact h.touch (.refl _) trivial (hcall ▸ rfl)
  | pass hcall hdrawn => exact h.touch (.refl _) hcall hdrawn
  | @draw _ _ _ hnew hdrawn _ hdata =>
    refine ⟨hdata, h.stored, h.source, h.passed, h.names, ?_⟩
    refine h.identified.draw hnew ?_ rfl
    rw [ids_of_not_drawn hdrawn]
    exact ids_of_drawn rfl
  | @unmarshallable _ _ err hnew hdrawn =>
    refine ⟨trivial, h.stored, h.source, h.passed, h.names, ?_⟩
    refine h.identified.draw hnew ?_ rfl
    rw [ids_of_not_drawn hdrawn]
    exact ids_refuse err
  | touch hdir hcall hdrawn => exact h.touch hdir hcall hdrawn
  | refuse hdir hdrawn => exact h.refuse hdir hdrawn
  | accept hcall hready => exact h.accept hcall hready
  | insert hcall hfile =>
    have hdrawn : s.call.drawn = [] := hcall ▸ rfl
    refine ⟨⟨hfile, List.mem_concat_self⟩, ?_, h.source, h.pass hfile, h.names,
      h.identified.of_same rfl rfl hdrawn.symm rfl⟩
    intro b hb
    exact (h.stored b hb).imp_right (List.mem_append_left _)
  | insertFails hcall hfile =>
    have hdrawn : s.call.drawn = [] := hcall ▸ rfl
    exact ⟨trivial, h.stored, h.source, h.pass hfile, h.names,
      h.identified.of_same rfl rfl hdrawn.symm rfl⟩
  | remove hcall hfile hinserted => exact h.remove hfile hinserted (hcall ▸ rfl)

theorem Step.source {e : SpillEvent} (hs : s.Step codec maxBytes e t) :
    (∀ entries ∈ t.call.source, entries ∈ s.call.source ∨ e = .writeBatch entries) ∧
      ∀ batch ∈ t.accepted, batch ∈ s.accepted ∨ batch.entries ∈ s.call.source := by
  cases hs with
  | begin =>
    refine ⟨?_, fun _ ↦ .inl⟩
    intro _ hl
    cases List.mem_singleton.mp hl
    exact .inr rfl
  | pass _ _ hsource => exact ⟨fun _ hl ↦ .inl (hsource hl), fun _ ↦ .inl⟩
  | draw _ _ hsource =>
    refine ⟨?_, fun _ ↦ .inl⟩
    intro _ hl
    cases List.mem_singleton.mp hl
    exact .inl hsource
  | touch _ _ _ hsource => exact ⟨fun _ hl ↦ .inl (hsource hl), fun _ ↦ .inl⟩
  | @accept _ _ _ _ _ hcall =>
    refine ⟨List.forall_mem_nil _, ?_⟩
    intro _ hb
    rcases List.mem_append.mp hb with hb | hb
    · exact .inl hb
    · cases List.mem_singleton.mp hb
      exact .inr (hcall ▸ List.mem_singleton_self _)
  | unmarshallable | refuse | insert | insertFails | remove =>
    exact ⟨List.forall_mem_nil _, fun _ ↦ .inl⟩

theorem Step.inserted {e : SpillEvent} (hs : s.Step codec maxBytes e t) :
    ∀ batch ∈ t.inserted, batch ∈ s.inserted ∨
      e = .insert none ∧ ∃ name names, s.call = .inserting name batch names := by
  cases hs with
  | @insert name _ names hcall =>
    intro _ hb
    rcases List.mem_append.mp hb with hb | hb
    · exact .inl hb
    · cases List.mem_singleton.mp hb
      exact .inr ⟨rfl, name, names, hcall⟩
  | begin | pass | draw | touch | accept | unmarshallable | refuse | insertFails | remove =>
    exact fun _ ↦ .inl

theorem quota_step {e : SpillEvent} (hs : s.Step codec maxBytes e t)
    (h : (s.dir.size isSpill : ℤ) ≤ maxBytes.toInt) :
    (t.dir.size isSpill : ℤ) ≤ maxBytes.toInt := by
  cases hs with
  | begin | pass | draw | unmarshallable | insert | insertFails => exact h
  | touch hdir =>
    rw [hdir.size]
    exact h
  | refuse hdir =>
    refine le_of_eq_of_le ?_ h
    exact congrArg _ hdir.size
  | accept _ hready =>
    obtain ⟨-, hroom, -, htemp⟩ := hready
    refine le_trans ?_ hroom
    exact_mod_cast (Directory.size_rename_le htemp).trans (Nat.add_comm _ _).le
  | remove =>
    refine le_trans ?_ h
    exact_mod_cast Directory.size_erase_le

theorem not_onDisk_empty {batch : SpillBatch} : ¬ OnDisk codec ∅ batch := by
  rintro ⟨_, _, hlookup, -⟩
  cases hlookup

theorem known_empty : Known codec ∅ issued where
  names _ _ hmem := by cases hmem
  batches _ hdisk := absurd hdisk not_onDisk_empty

/-- Whatever fails, a file under a spill name is that of a batch `WriteBatch` returned
success for, and nothing else can be read from it. -/
theorem spill_files_accepted (codec : BatchCodec) (maxBytes : Int64) (events : List SpillEvent) :
    Always (step codec maxBytes) (fun s ↦ (∀ batch, OnDisk codec s.dir batch → batch ∈ s.accepted) ∧
      ∀ now batchId, spillName now batchId ∈ s.dir → batchId ∈ s.accepted.map (·.batchId))
      (opened ∅ []) events := by
  refine always_of_invariant (fun _ _ _ h _ ht ↦ h.step (step_cases h.ready ht)) ?_
    (ok_opened known_empty) meets_true
  intro s h
  constructor
  · intro batch hdisk
    exact (h.source batch hdisk).resolve_left not_onDisk_empty
  · intro now batchId hname
    exact (h.names now batchId hname).resolve_left List.not_mem_nil

structure OkWithin (codec : BatchCodec) (maxBytes : Int64) (dir : Directory) (issued : List String)
    (s : SpillStore) : Prop where
  ok : Ok codec maxBytes dir issued s
  quota : (s.dir.size isSpill : ℤ) ≤ maxBytes.toInt

theorem run_ok {events : List SpillEvent} (hknown : Known codec dir issued)
    (hquota : (dir.size isSpill : ℤ) ≤ maxBytes.toInt)
    (hrun : run (step codec maxBytes) (opened dir issued) events = some s) :
    OkWithin codec maxBytes dir issued s := by
  refine run_preserves ?_ ⟨ok_opened hknown, hquota⟩ hrun
  intro _ _ _ h ht
  have hstep := step_cases h.ok.ready ht
  exact ⟨h.ok.step hstep, quota_step hstep h.quota⟩

/-- In every state of every run: the entries of a batch `WriteBatch` returned
success for are in a spill file or their insert has succeeded, what `Replay` has
passed to an insert was there before or comes from such a batch and not from one
`WriteBatch` returned an error for, and the spill files are within the quota. -/
theorem spilled_entries_kept {events : List SpillEvent} (hknown : Known codec dir issued)
    (hquota : (dir.size isSpill : ℤ) ≤ maxBytes.toInt)
    (hrun : run (step codec maxBytes) (opened dir issued) events = some s) :
    (∀ batch ∈ s.accepted, ∀ entry ∈ batch.entries,
      (∃ b, OnDisk codec s.dir b ∧ entry ∈ b.entries) ∨ ∃ b ∈ s.inserted, entry ∈ b.entries) ∧
    (∀ b ∈ s.passed, OnDisk codec dir b ∨ b ∈ s.accepted) ∧
    (∀ batch ∈ s.refused, ∀ b ∈ s.passed, b.batchId ≠ batch.batchId) ∧
    (s.dir.size isSpill : ℤ) ≤ maxBytes.toInt := by
  obtain ⟨hok, hsize⟩ := run_ok hknown hquota hrun
  refine ⟨?_, hok.passed, ?_, hsize⟩
  · intro batch hbatch _ hentry
    rcases hok.stored batch hbatch with hdisk | hinserted
    · exact .inl ⟨batch, hdisk, hentry⟩
    · exact .inr ⟨batch, hinserted, hentry⟩
  · intro batch hbatch b hb heq
    have hmem : batch.batchId ∈ s.ids :=
      List.mem_append_left _ (List.mem_map_of_mem (List.mem_append_right _ hbatch))
    rcases hok.passed b hb with hdisk | haccepted
    · exact (hok.identified.drawn _ hmem).2 (heq ▸ hknown.batches b hdisk)
    · have hnodup := hok.identified.nodup.of_append_left
      rw [List.map_append] at hnodup
      exact List.disjoint_of_nodup_append hnodup (List.mem_map_of_mem haccepted)
        (heq ▸ List.mem_map_of_mem hbatch)

def sampleEntry : LogEntry where
  auditId := "a"
  payloadVersion := 1
  timestamp := 1
  revisionId := 1
  tenantId := "t"
  subject := ""
  action := ""
  resource := ""
  decision := "ALLOW"
  matchedPolicyId := ""
  context := none
  isEncrypted := true
  keyId := "k"
  requestId := ""
  traceId := ""
  encryptedDek := "d"
  encryptedPayload := "p"
  integrityTag := "i"

/-- There is no room for the second batch. -/
def sampleEvents : List SpillEvent :=
  let call (batchId : String) : List SpillEvent :=
    [.writeBatch [sampleEntry], .verify (fun _ ↦ true) "", .marshal batchId, .size none]
  let look : List SpillEvent := [.replay, .list none, .read none, .verify (fun _ ↦ true) ""]
  call "b" ++ ([.create 5 none, .write none, .sync none, .close none, .rename none] :
    List SpillEvent) ++ call "c" ++ look ++ [SpillEvent.insert (some "down")] ++ look ++
    ([.insert none, .remove (some "busy")] : List SpillEvent)

theorem spilled_entries_kept_sample : ∃ s,
    run (step jsonBatchCodec 300) (opened ∅ []) sampleEvents = some s ∧ s.accepted.length = 1 ∧
      s.refused.length = 1 ∧ s.passed.length = 2 ∧
      (∀ batch ∈ s.refused, ∀ b ∈ s.passed, b.batchId ≠ batch.batchId) ∧
      (s.dir.size isSpill : ℤ) ≤ Int64.toInt 300 := by
  have hshape : (run (step jsonBatchCodec 300) (opened ∅ []) sampleEvents).map
      (fun s ↦ (s.accepted.length, s.refused.length, s.passed.length)) = some (1, 1, 2) := by
    decide +kernel
  obtain ⟨s, hrun, hs⟩ := Option.map_eq_some_iff.mp hshape
  simp only [Prod.mk.injEq] at hs
  obtain ⟨-, -, hrefused, hquota⟩ := spilled_entries_kept known_empty (by decide) hrun
  exact ⟨s, hrun, hs.1, hs.2.1, hs.2.2, hrefused, hquota⟩

end Safety

end SpillStore

end PolicyEngine.Audit

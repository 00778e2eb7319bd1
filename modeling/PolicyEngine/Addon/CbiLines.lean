import PolicyEngine.Addon.CbiAgreement
import PolicyEngine.Security.PurchaseOrderLines

namespace PolicyEngine.Addon

open PolicyEngine.Go PolicyEngine.Go.Result PolicyEngine.Python PolicyEngine.Security

def int64Min : ℤ := -2 ^ 63

structure LineRecord where
  lineId : ℤ
  sequence : ℤ
  displayType : String
  productId : ℤ
  description : String
  uomId : ℤ
  quantity : String
  unitPrice : String
  taxIds : List ℤ
  plannedAt : String
  lineWriteVersion : String

def stringBytes (value : String) : Except String (List UInt8) :=
  if value.utf8ByteSize > 0xFFFFFFFF then .error "canonical string exceeds uint32 length"
  else packText value

def decimal (field value : String) : Except String Unit :=
  rejectIf (canonicalDecimalPattern value = false ∨ value = "-0")
    (field ++ " must be a canonical decimal")

def taxes (values : List ℤ) : Except String (List ℤ) := do
  rejectIf (values.length > 0xFFFFFFFF) "tax_ids must be a bounded list"
  let checked ← values.mapM fun value ↦ integer "tax_id" 1 int64Max (.int value)
  let taxes := checked.insertionSort (· ≤ ·)
  rejectIf (taxes.length ≠ taxes.dedup.length) "tax_ids must contain unique positive IDs"
  return taxes

def timestamp (field value : String) : Except String Unit := checkTimestamp field (.str value)

variable (nfc : String → String)

/-- `_description`: the newlines and the normal form are those of the Go code. -/
def normalizedDescription (value : String) : Except String String := do
  let normalized := nfc (unifyNewlines value)
  rejectIf (normalized = "") "description must be non-empty canonical UTF-8"
  let _ ← stringBytes normalized
  return normalized

/-- The checks of `_line_bytes`, with the two values they change. -/
def checkRecord (line : LineRecord) : Except String (String × List ℤ) := do
  let _ ← integer "line_id" 1 int64Max (.int line.lineId)
  let _ ← integer "sequence" int64Min int64Max (.int line.sequence)
  rejectIf (line.displayType ∉ ["", "line_section", "line_note"]) "unsupported display_type"
  let displayLine := line.displayType ≠ ""
  let productId ← integer "product_id" 0 int64Max (.int line.productId)
  let uomId ← integer "uom_id" 0 int64Max (.int line.uomId)
  rejectIf ((¬ displayLine ∧ (productId ≤ 0 ∨ uomId ≤ 0)) ∨
      (displayLine ∧ (productId ≠ 0 ∨ uomId ≠ 0)))
    "product_id and uom_id do not match display_type"
  let description ← normalizedDescription nfc line.description
  decimal "quantity" line.quantity
  decimal "unit_price" line.unitPrice
  let taxIds ← taxes line.taxIds
  (if line.plannedAt = "" then
      rejectIf (¬ displayLine) "planned_at is required for product lines"
    else timestamp "planned_at" line.plannedAt)
  timestamp "line_write_version" line.lineWriteVersion
  return (description, taxIds)

def packRecord (line : LineRecord) (description : String) (taxIds : List ℤ) :
    Except String (List UInt8) := do
  return (← packInt64 line.lineId) ++ (← packInt64 line.sequence) ++
    (← stringBytes line.displayType) ++ (← packInt64 line.productId) ++
    (← stringBytes description) ++ (← packInt64 line.uomId) ++ (← stringBytes line.quantity) ++
    (← stringBytes line.unitPrice) ++ Encoding.beBytes 4 taxIds.length ++
    (← taxIds.mapM packInt64).flatten ++ (← stringBytes line.plannedAt) ++
    (← stringBytes line.lineWriteVersion)

/-- `_line_bytes`. -/
def recordBytes (line : LineRecord) : Except String (List UInt8) := do
  let (description, taxIds) ← checkRecord nfc line
  packRecord line description taxIds

def recordsBytes (seenLines : List ℤ) : List LineRecord → Except String (List UInt8)
  | [] => .ok []
  | line :: lines => do
    let lineId ← integer "line_id" 1 int64Max (.int line.lineId)
    rejectIf (lineId ∈ seenLines) "duplicate purchase order line ID"
    let written ← recordBytes nfc line
    let rest ← recordsBytes (lineId :: seenLines) lines
    return written ++ rest

/-- The order of the tuples `(sequence, line_id)`. -/
def LineRecord.NotAfter (a b : LineRecord) : Prop :=
  a.sequence < b.sequence ∨ a.sequence = b.sequence ∧ a.lineId ≤ b.lineId

instance (a b : LineRecord) : Decidable (a.NotAfter b) :=
  inferInstanceAs (Decidable (_ ∨ _))

def canonicalPurchaseOrderRecordsBytes (lines : List LineRecord) : Except String (List UInt8) := do
  rejectIf (lines.length > 0xFFFFFFFF) "purchase order lines must be a bounded list"
  let ordered := lines.insertionSort LineRecord.NotAfter
  let written ← recordsBytes nfc [] ordered
  return Text.bytes "PDP-ODOO-PO-LINES-V1" ++ Encoding.beBytes 4 ordered.length ++ written

section Fields

variable {nfc} {field value : String} {values : List ℤ}

theorem stringBytes_eq_ok {packed : List UInt8} : stringBytes value = .ok packed ↔
    value.utf8ByteSize < 2 ^ 32 ∧ canonicalString value = packed := by
  unfold stringBytes
  split_ifs with h
  · exact ⟨nofun, fun hshort ↦ absurd hshort.1 (by omega)⟩
  · exact packText_eq_ok

theorem normalizedDescription_eq_ok {normalized : String} :
    normalizedDescription nfc value = .ok normalized ↔
      canonicalDescription nfc value ≠ "" ∧
        (canonicalDescription nfc value).utf8ByteSize < 2 ^ 32 ∧
        normalized = canonicalDescription nfc value := by
  simp only [normalizedDescription, bind_unit_eq_ok, rejectIf_eq_ok]
  rw [bind_eq_ok]
  simp only [stringBytes_eq_ok]
  constructor
  · rintro ⟨hne, _, ⟨hshort, -⟩, h⟩
    exact ⟨hne, hshort, (Except.ok.inj h).symm⟩
  · rintro ⟨hne, hshort, rfl⟩
    exact ⟨hne, _, ⟨hshort, rfl⟩, rfl⟩

theorem mapM_integer_eq_ok {minimum maximum : ℤ} {checked : List ℤ} :
    (values.mapM fun value ↦ integer field minimum maximum (.int value)) = .ok checked ↔
      (∀ v ∈ values, minimum ≤ v ∧ v ≤ maximum) ∧ checked = values := by
  induction values generalizing checked with
  | nil => simp [pure, Except.pure, eq_comm]
  | cons v values ih =>
    rw [List.mapM_cons, List.forall_mem_cons, bind_eq_ok]
    simp only [bind_eq_ok, ih, integer_eq_ok, Value.int.injEq]
    constructor
    · rintro ⟨_, ⟨rfl, hv⟩, _, ⟨hvalues, rfl⟩, h⟩
      exact ⟨⟨hv, hvalues⟩, (Except.ok.inj h).symm⟩
    · rintro ⟨⟨hv, hvalues⟩, rfl⟩
      exact ⟨v, ⟨rfl, hv⟩, values, ⟨hvalues, rfl⟩, rfl⟩

theorem mapM_packInt64 {packed : List (List UInt8)} (h : values.mapM packInt64 = .ok packed) :
    packed.flatten = (values.map Int64.ofInt).flatMap Encoding.beInt64 := by
  induction values generalizing packed with
  | nil =>
    cases h
    rfl
  | cons _ _ ih =>
    rw [List.mapM_cons, bind_eq_ok] at h
    obtain ⟨_, hword, h⟩ := h
    obtain ⟨_, hwords, h⟩ := bind_eq_ok.mp h
    cases h
    rw [List.flatten_cons, ih hwords, ← (packInt64_eq_ok.mp hword).2]
    rfl

theorem sortTaxes_map (h : ∀ v ∈ values, (Int64.ofInt v).toInt = v) :
    sortTaxes (values.map Int64.ofInt) = (values.insertionSort (· ≤ ·)).map Int64.ofInt := by
  symm
  apply List.map_insertionSort
  intro a ha b hb
  rw [Int64.le_iff_toInt_le, h a ha, h b hb]

theorem taxes_eq_ok {checked : List ℤ} (h : taxes values = .ok checked) :
    (∀ v ∈ values, 1 ≤ v ∧ v ≤ int64Max) ∧ values.Nodup ∧
      checked = values.insertionSort (· ≤ ·) := by
  rw [taxes, bind_unit_eq_ok, bind_eq_ok] at h
  obtain ⟨-, _, hchecked, h⟩ := h
  obtain ⟨hrange, rfl⟩ := mapM_integer_eq_ok.mp hchecked
  rw [bind_unit_eq_ok, rejectIf_eq_ok, not_not] at h
  refine ⟨hrange, ?_, (Except.ok.inj h.2).symm⟩
  have hdedup := (List.dedup_sublist _).eq_of_length h.1.symm
  exact (List.perm_insertionSort _ _).nodup_iff.mp (List.dedup_eq_self.mp hdedup)

theorem timestamp_of_ok (h : timestamp field value = .ok ()) (field' : String) :
    validateCanonicalTimestamp field' value = .ok () := by
  obtain ⟨_, htext, hshape, htime⟩ := checkTimestamp_eq_ok.mp h
  cases htext
  exact validateCanonicalTimestamp_of_strptime hshape htime

end Fields

namespace LineRecord

def ofGo (line : CanonicalPurchaseOrderLine) : LineRecord where
  lineId := line.lineId.toInt
  sequence := line.sequence.toInt
  displayType := line.displayType
  productId := line.productId.toInt
  description := line.description
  uomId := line.uomId.toInt
  quantity := line.quantity
  unitPrice := line.unitPrice
  taxIds := line.taxIds.map Int64.toInt
  plannedAt := line.plannedAt
  lineWriteVersion := line.lineWriteVersion

def toGo (line : LineRecord) : CanonicalPurchaseOrderLine where
  lineId := Int64.ofInt line.lineId
  sequence := Int64.ofInt line.sequence
  displayType := line.displayType
  productId := Int64.ofInt line.productId
  description := line.description
  uomId := Int64.ofInt line.uomId
  quantity := line.quantity
  unitPrice := line.unitPrice
  taxIds := line.taxIds.map Int64.ofInt
  plannedAt := line.plannedAt
  lineWriteVersion := line.lineWriteVersion

theorem toGo_ofGo (line : CanonicalPurchaseOrderLine) : (ofGo line).toGo = line := by
  have htaxes : (line.taxIds.map Int64.toInt).map Int64.ofInt = line.taxIds := by
    rw [List.map_map]
    exact (List.map_congr_left fun v _ ↦ Int64.ofInt_toInt v).trans (List.map_id _)
  simp only [toGo, ofGo, Int64.ofInt_toInt, htaxes]

/-- The integers are values of `int64`. -/
structure Fits (line : LineRecord) : Prop where
  lineId : (Int64.ofInt line.lineId).toInt = line.lineId
  sequence : (Int64.ofInt line.sequence).toInt = line.sequence
  productId : (Int64.ofInt line.productId).toInt = line.productId
  uomId : (Int64.ofInt line.uomId).toInt = line.uomId
  taxIds : ∀ v ∈ line.taxIds, (Int64.ofInt v).toInt = v

theorem Fits.ofGo_toGo {line : LineRecord} (h : line.Fits) : ofGo line.toGo = line := by
  have htaxes : (line.taxIds.map Int64.ofInt).map Int64.toInt = line.taxIds := by
    rw [List.map_map]
    exact (List.map_congr_left h.taxIds).trans (List.map_id _)
  obtain ⟨⟩ := line
  simp only [ofGo, toGo, h.lineId, h.sequence, h.productId, h.uomId] at *
  simp [htaxes]

end LineRecord

section Agreement

variable {nfc} {line : LineRecord} {lines : List LineRecord}

theorem pos_ofInt {n : ℤ} (hfits : (Int64.ofInt n).toInt = n) (hpos : 0 < n) :
    0 < Int64.ofInt n := by
  rw [Int64.lt_iff_toInt_lt, hfits]
  exact hpos

theorem packRecord_of_ok {description : String} {taxIds : List ℤ} {written : List UInt8}
    (h : packRecord line description taxIds = .ok written) :
    written = lineBytes { line.toGo with
      description := description, taxIds := taxIds.map Int64.ofInt } := by
  simp only [packRecord, bind_eq_ok, packInt64_eq_ok, stringBytes_eq_ok] at h
  obtain ⟨_, ⟨-, rfl⟩, _, ⟨-, rfl⟩, _, ⟨-, rfl⟩, _, ⟨-, rfl⟩, _, ⟨-, rfl⟩, _, ⟨-, rfl⟩, _, ⟨-, rfl⟩,
    _, ⟨-, rfl⟩, words, hwords, _, ⟨-, rfl⟩, _, ⟨-, rfl⟩, h⟩ := h
  cases h
  simp only [mapM_packInt64 hwords, lineBytes, LineRecord.toGo, List.length_map, List.append_assoc]

theorem displayType_of_ok {displayType : String} {productId uomId : ℤ}
    (hproduct : 0 ≤ productId ∧ productId ≤ int64Max) (huom : 0 ≤ uomId ∧ uomId ≤ int64Max)
    (htype : displayType ∈ ["", "line_section", "line_note"])
    (hids : ¬ ((¬ displayType ≠ "" ∧ (productId ≤ 0 ∨ uomId ≤ 0)) ∨
      (displayType ≠ "" ∧ (productId ≠ 0 ∨ uomId ≠ 0)))) :
    displayType = "" ∧ 0 < Int64.ofInt productId ∧ 0 < Int64.ofInt uomId ∨
      (displayType = "line_section" ∨ displayType = "line_note") ∧ Int64.ofInt productId = 0 ∧
        Int64.ofInt uomId = 0 := by
  have hfits := toInt_ofInt_of_mem (by decide) le_rfl hproduct
  have hfits' := toInt_ofInt_of_mem (by decide) le_rfl huom
  simp only [not_or, not_and, not_not] at hids
  rcases List.mem_cons.mp htype with rfl | htype
  · left
    have hpos := hids.1 rfl
    exact ⟨rfl, pos_ofInt hfits (by omega), pos_ofInt hfits' (by omega)⟩
  · right
    have hdisplay : displayType = "line_section" ∨ displayType = "line_note" := by simpa using htype
    have hne : displayType ≠ "" := by
      rcases hdisplay with rfl | rfl <;> decide
    obtain ⟨rfl, rfl⟩ := hids.2 hne
    exact ⟨hdisplay, rfl, rfl⟩

theorem plannedAt_of_ok {displayType plannedAt : String} {productId uomId : Int64}
    (hdisplay : displayType = "" ∧ 0 < productId ∧ 0 < uomId ∨
      (displayType = "line_section" ∨ displayType = "line_note") ∧ productId = 0 ∧ uomId = 0)
    (h : (if plannedAt = "" then
        rejectIf (¬ displayType ≠ "") "planned_at is required for product lines"
      else timestamp "planned_at" plannedAt) = .ok ()) :
    validatePlannedAt displayType plannedAt = .ok () := by
  unfold validatePlannedAt
  split_ifs at h ⊢ with hempty
  · have hne := not_not.mp (rejectIf_eq_ok.mp h)
    refine rejectIf_eq_ok.mpr (not_not.mpr ?_)
    exact (hdisplay.resolve_left fun hproduct ↦ hne hproduct.1).1
  · exact timestamp_of_ok h _

theorem checkRecord_of_ok {checked : String × List ℤ} (h : checkRecord nfc line = .ok checked) :
    line.Fits ∧ ValidLine nfc line.toGo ∧
      checked = (canonicalDescription nfc line.description,
        line.taxIds.insertionSort (· ≤ ·)) := by
  rw [checkRecord, bind_eq_ok] at h
  obtain ⟨_, hlineId, h⟩ := h
  obtain ⟨hlineId, hlineIdRange⟩ := integer_eq_ok.mp hlineId
  obtain ⟨_, hsequence, h⟩ := bind_eq_ok.mp h
  obtain ⟨hsequence, hsequenceRange⟩ := integer_eq_ok.mp hsequence
  obtain ⟨htype, h⟩ := bind_unit_eq_ok.mp h
  obtain ⟨_, hproductId, h⟩ := bind_eq_ok.mp h
  obtain ⟨hproductId, hproductIdRange⟩ := integer_eq_ok.mp hproductId
  obtain ⟨_, huomId, h⟩ := bind_eq_ok.mp h
  obtain ⟨huomId, huomIdRange⟩ := integer_eq_ok.mp huomId
  cases hlineId
  cases hsequence
  cases hproductId
  cases huomId
  obtain ⟨hids, h⟩ := bind_unit_eq_ok.mp h
  obtain ⟨_, hdescription, h⟩ := bind_eq_ok.mp h
  obtain ⟨hne, hshort, rfl⟩ := normalizedDescription_eq_ok.mp hdescription
  obtain ⟨hquantity, h⟩ := bind_unit_eq_ok.mp h
  obtain ⟨hprice, h⟩ := bind_unit_eq_ok.mp h
  obtain ⟨_, htaxes, h⟩ := bind_eq_ok.mp h
  obtain ⟨htaxRange, hnodup, rfl⟩ := taxes_eq_ok htaxes
  obtain ⟨hplanned, h⟩ := bind_unit_eq_ok.mp h
  obtain ⟨hversion, h⟩ := bind_unit_eq_ok.mp h
  cases h
  have hmin : -2 ^ 63 ≤ int64Min := le_rfl
  have hfits : line.Fits :=
    ⟨toInt_ofInt_of_mem (by decide) le_rfl hlineIdRange, toInt_ofInt_of_mem hmin le_rfl hsequenceRange,
      toInt_ofInt_of_mem (by decide) le_rfl hproductIdRange,
      toInt_ofInt_of_mem (by decide) le_rfl huomIdRange,
      fun v hv ↦ toInt_ofInt_of_mem (by decide) le_rfl (htaxRange v hv)⟩
  have hdisplay := displayType_of_ok hproductIdRange huomIdRange
    (not_not.mp (rejectIf_eq_ok.mp htype)) (rejectIf_eq_ok.mp hids)
  refine ⟨hfits, ⟨?_, hdisplay, hne, hshort, ?_, ?_, ?_, ?_, plannedAt_of_ok hdisplay hplanned,
    timestamp_of_ok hversion _⟩, rfl⟩
  · exact pos_ofInt hfits.lineId (by omega)
  · exact validateCanonicalDecimal_eq_ok.mp hquantity
  · exact validateCanonicalDecimal_eq_ok.mp hprice
  · intro _ htaxId
    obtain ⟨v, hv, rfl⟩ := List.mem_map.mp htaxId
    have hrange := htaxRange v hv
    exact pos_ofInt (hfits.taxIds v hv) (by omega)
  · refine hnodup.map_on ?_
    intro v hv v' hv' heq
    rw [← hfits.taxIds v hv, ← hfits.taxIds v' hv', heq]

theorem recordBytes_of_ok {written : List UInt8} (h : recordBytes nfc line = .ok written) :
    line.Fits ∧ ValidLine nfc line.toGo ∧ written = lineBytes (normalLine nfc line.toGo) := by
  rw [recordBytes, bind_eq_ok] at h
  obtain ⟨_, hchecked, hpacked⟩ := h
  obtain ⟨hfits, hvalid, rfl⟩ := checkRecord_of_ok hchecked
  refine ⟨hfits, hvalid, (packRecord_of_ok hpacked).trans ?_⟩
  rw [← sortTaxes_map hfits.taxIds]
  rfl

theorem recordsBytes_of_ok {seenLines : List ℤ} {written : List UInt8}
    (h : recordsBytes nfc seenLines lines = .ok written) :
    (∀ line ∈ lines, line.Fits ∧ ValidLine nfc line.toGo) ∧ (lines.map (·.lineId)).Nodup ∧
      (∀ line ∈ lines, line.lineId ∉ seenLines) ∧
      written = lines.flatMap fun line ↦ lineBytes (normalLine nfc line.toGo) := by
  induction lines generalizing seenLines written with
  | nil =>
    cases h
    exact ⟨List.forall_mem_nil _, List.nodup_nil, List.forall_mem_nil _, rfl⟩
  | cons _ _ ih =>
    rw [recordsBytes, bind_eq_ok] at h
    obtain ⟨_, hlineId, h⟩ := h
    cases (integer_eq_ok.mp hlineId).1
    obtain ⟨hseen, h⟩ := bind_unit_eq_ok.mp h
    obtain ⟨_, hfirst, h⟩ := bind_eq_ok.mp h
    obtain ⟨_, hrest, h⟩ := bind_eq_ok.mp h
    cases h
    obtain ⟨hfits, hvalid, rfl⟩ := recordBytes_of_ok hfirst
    obtain ⟨hall, hnodup, hnew, rfl⟩ := ih hrest
    refine ⟨List.forall_mem_cons.mpr ⟨⟨hfits, hvalid⟩, hall⟩, List.nodup_cons.mpr ⟨?_, hnodup⟩,
      List.forall_mem_cons.mpr ⟨rejectIf_eq_ok.mp hseen, ?_⟩, rfl⟩
    · intro hmem
      obtain ⟨l, hl, heq⟩ := List.mem_map.mp hmem
      exact hnew l hl (heq ▸ List.mem_cons_self)
    · intro l hl hmem
      exact hnew l hl (List.mem_cons_of_mem _ hmem)

theorem sortLines_map_toGo (h : ∀ line ∈ lines, line.Fits) :
    sortLines (lines.map LineRecord.toGo) =
      (lines.insertionSort LineRecord.NotAfter).map LineRecord.toGo := by
  symm
  apply List.map_insertionSort
  intro a ha b hb
  rw [CanonicalPurchaseOrderLine.notAfter_iff]
  simp only [LineRecord.toGo, LineRecord.NotAfter, (h a ha).sequence, (h b hb).sequence,
    (h a ha).lineId, (h b hb).lineId]

theorem canonicalPurchaseOrderRecordsBytes_of_ok {written : List UInt8}
    (h : canonicalPurchaseOrderRecordsBytes nfc lines = .ok written) :
    (∀ line ∈ lines, line.Fits) ∧
      canonicalPurchaseOrderLinesBytes nfc (lines.map LineRecord.toGo) = .ok written := by
  have hperm := List.perm_insertionSort LineRecord.NotAfter lines
  rw [canonicalPurchaseOrderRecordsBytes, bind_unit_eq_ok, rejectIf_eq_ok, bind_eq_ok] at h
  obtain ⟨_, _, hpayload, h⟩ := h
  cases h
  obtain ⟨hall, hnodup, -, rfl⟩ := recordsBytes_of_ok hpayload
  simp only [hperm.mem_iff] at hall
  rw [(hperm.map (·.lineId)).nodup_iff] at hnodup
  have hfits : ∀ line ∈ lines, line.Fits := fun line hline ↦ (hall line hline).1
  refine ⟨hfits, canonicalPurchaseOrderLinesBytes_eq_ok.mpr ⟨⟨?_, ?_, ?_⟩, ?_⟩⟩
  · rw [List.length_map]
    omega
  · intro _ hline
    obtain ⟨record, hrecord, rfl⟩ := List.mem_map.mp hline
    exact (hall record hrecord).2
  · -- equal identifiers of Go lines are equal identifiers of records
    rw [List.map_map]
    have hids := hnodup.map_on (f := Int64.ofInt) ?_
    · rwa [List.map_map] at hids
    · intro _ ha _ hb heq
      obtain ⟨_, hrecord, rfl⟩ := List.mem_map.mp ha
      obtain ⟨_, hrecord', rfl⟩ := List.mem_map.mp hb
      rw [← (hfits _ hrecord).lineId, ← (hfits _ hrecord').lineId, heq]
  · rw [sortLines_map_toGo hfits, linesBytes, List.length_map, List.length_map, List.map_map,
      List.flatMap_map, List.append_assoc]
    rfl

/-- Whenever the Python encoder succeeds its records are those of Go lines, and
the Go encoder succeeds on these lines with the same bytes; whenever both succeed
they agree. -/
theorem line_encoders_agree (nfc : String → String) :
    (∀ lines written, canonicalPurchaseOrderRecordsBytes nfc lines = .ok written →
      ∃ goLines, goLines.map LineRecord.ofGo = lines ∧
        canonicalPurchaseOrderLinesBytes nfc goLines = .ok written) ∧
    ∀ goLines written written',
      canonicalPurchaseOrderRecordsBytes nfc (goLines.map LineRecord.ofGo) = .ok written →
        canonicalPurchaseOrderLinesBytes nfc goLines = .ok written' → written = written' := by
  constructor
  · intro lines written h
    obtain ⟨hfits, hgo⟩ := canonicalPurchaseOrderRecordsBytes_of_ok h
    refine ⟨lines.map LineRecord.toGo, ?_, hgo⟩
    rw [List.map_map]
    exact (List.map_congr_left fun line hline ↦ (hfits line hline).ofGo_toGo).trans (List.map_id _)
  · intro goLines _ _ hpython hgo
    have hlines : (goLines.map LineRecord.ofGo).map LineRecord.toGo = goLines := by
      rw [List.map_map]
      exact (List.map_congr_left fun line _ ↦ LineRecord.toGo_ofGo line).trans (List.map_id _)
    have hsame := (canonicalPurchaseOrderRecordsBytes_of_ok hpython).2
    rw [hlines, hgo] at hsame
    exact (Except.ok.inj hsame).symm

def noteRecord : LineRecord where
  lineId := 7
  sequence := -1
  displayType := "line_note"
  productId := 0
  description := "deliver\r\nearly"
  uomId := 0
  quantity := "0"
  unitPrice := "-1.5"
  taxIds := [3, 2]
  plannedAt := ""
  lineWriteVersion := "2026-07-19T08:00:00.000000Z"

/-- Two lines against the order in which they are encoded. -/
def noteRecords : List LineRecord := [noteRecord, { noteRecord with lineId := 5, sequence := -2 }]

theorem line_encoders_agree_note : ∃ written,
    canonicalPurchaseOrderRecordsBytes id noteRecords = .ok written ∧
      ∃ goLines, goLines.map LineRecord.ofGo = noteRecords ∧
        canonicalPurchaseOrderLinesBytes id goLines = .ok written := by
  have hok : (canonicalPurchaseOrderRecordsBytes id noteRecords).isOk = true := by rfl
  obtain ⟨written, h⟩ := exists_of_isOk hok
  exact ⟨written, h, (line_encoders_agree id).1 _ _ h⟩

end Agreement

end PolicyEngine.Addon

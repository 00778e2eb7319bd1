import Mathlib.Data.List.Chain
import Mathlib.Data.List.Sort
import PolicyEngine.Decimal.Notation
import PolicyEngine.Security.IntentBytes

namespace PolicyEngine.Security

open PolicyEngine.Decimal PolicyEngine.Go PolicyEngine.Go.Result

structure CanonicalPurchaseOrderLine where
  lineId : Int64
  sequence : Int64
  displayType : String
  productId : Int64
  description : String
  uomId : Int64
  quantity : String
  unitPrice : String
  taxIds : List Int64
  plannedAt : String
  lineWriteVersion : String
deriving DecidableEq

/-- `(?:\.[0-9]*[1-9])?$`. -/
def fractionPattern : List Char → Bool
  | [] => true
  | '.' :: digits => digits.all Char.isDigit && digits.getLast?.any (· != '0')
  | _ => false

/-- `^-?(?:0|[1-9][0-9]*)(?:\.[0-9]*[1-9])?$`. -/
def canonicalDecimalPattern (value : String) : Bool :=
  match value.toList with
  | '-' :: cs => wholeThen fractionPattern cs
  | cs => wholeThen fractionPattern cs

def validateCanonicalDecimal (field value : String) : Except String Unit :=
  rejectIf (canonicalDecimalPattern value = false ∨ value = "-0")
    (field ++ " must be a canonical decimal")

/-- `strings.ReplaceAll(s, "\r\n", "\n")`. -/
def replaceCRLF : List Char → List Char
  | '\r' :: '\n' :: cs => '\n' :: replaceCRLF cs
  | c :: cs => c :: replaceCRLF cs
  | [] => []

def unifyNewlines (s : String) : String :=
  String.ofList ((replaceCRLF s.toList).map fun c ↦ if c = '\r' then '\n' else c)

def sortTaxes (taxIds : List Int64) : List Int64 := taxIds.insertionSort (· ≤ ·)

def validatePlannedAt (displayType plannedAt : String) : Except String Unit :=
  if plannedAt = "" then
    rejectIf (¬ (displayType = "line_section" ∨ displayType = "line_note"))
      "planned_at is required for product lines"
  else validateCanonicalTimestamp "planned_at" plannedAt

variable (nfc : String → String)

def canonicalDescription (description : String) : String := nfc (unifyNewlines description)

/-- A Lean string is valid UTF-8, so the first check of the description is not
there. -/
def validateCanonicalPurchaseOrderLine (line : CanonicalPurchaseOrderLine) :
    Except String (String × List Int64) := do
  rejectIf (line.lineId ≤ 0) "line_id must be positive"
  let displayLine := line.displayType = "line_section" ∨ line.displayType = "line_note"
  rejectIf (line.displayType ≠ "" ∧ ¬ displayLine) "unsupported display_type"
  rejectIf ((¬ displayLine ∧ (line.productId ≤ 0 ∨ line.uomId ≤ 0)) ∨
      (displayLine ∧ (line.productId ≠ 0 ∨ line.uomId ≠ 0)))
    "product_id and uom_id do not match display_type"
  let description := canonicalDescription nfc line.description
  rejectIf (description = "" ∨ description.utf8ByteSize ≥ 2 ^ 32)
    "description must be non-empty canonical UTF-8"
  validateCanonicalDecimal "quantity" line.quantity
  validateCanonicalDecimal "unit_price" line.unitPrice
  let taxes := sortTaxes line.taxIds
  rejectIf ((∃ taxId ∈ taxes, taxId ≤ 0) ∨ ¬ taxes.IsChain (· ≠ ·))
    "tax_ids must contain unique positive IDs"
  validatePlannedAt line.displayType line.plannedAt
  validateCanonicalTimestamp "line_write_version" line.lineWriteVersion
  return (description, taxes)

/-- What is written of a line: its fields with the description and the taxes of
the validation. -/
def lineBytes (line : CanonicalPurchaseOrderLine) : List UInt8 :=
  Encoding.beInt64 line.lineId ++ Encoding.beInt64 line.sequence ++
    canonicalString line.displayType ++ Encoding.beInt64 line.productId ++
    canonicalString line.description ++ Encoding.beInt64 line.uomId ++
    canonicalString line.quantity ++
    (canonicalString line.unitPrice ++
      (Encoding.beBytes 4 line.taxIds.length ++ line.taxIds.flatMap Encoding.beInt64)) ++
    canonicalString line.plannedAt ++ canonicalString line.lineWriteVersion

def writeCanonicalPurchaseOrderLine (line : CanonicalPurchaseOrderLine) :
    Except String (List UInt8) := do
  let (description, taxes) ← validateCanonicalPurchaseOrderLine nfc line
  return lineBytes { line with description := description, taxIds := taxes }

def writeLines (seenLines : List Int64) :
    List CanonicalPurchaseOrderLine → Except String (List UInt8)
  | [] => .ok []
  | line :: lines => do
    rejectIf (line.lineId ∈ seenLines)
      ("duplicate purchase order line ID " ++ Strconv.formatInt line.lineId)
    let written ← writeCanonicalPurchaseOrderLine nfc line
    let rest ← writeLines (line.lineId :: seenLines) lines
    return written ++ rest

namespace CanonicalPurchaseOrderLine

def less (a b : CanonicalPurchaseOrderLine) : Bool :=
  if a.sequence = b.sequence then a.lineId < b.lineId else a.sequence < b.sequence

def NotAfter (a b : CanonicalPurchaseOrderLine) : Prop := less b a = false

instance (a b : CanonicalPurchaseOrderLine) : Decidable (NotAfter a b) :=
  inferInstanceAs (Decidable (less b a = false))

theorem notAfter_iff {a b : CanonicalPurchaseOrderLine} :
    NotAfter a b ↔ a.sequence.toInt < b.sequence.toInt ∨
      a.sequence.toInt = b.sequence.toInt ∧ a.lineId.toInt ≤ b.lineId.toInt := by
  have hseq : b.sequence = a.sequence ↔ b.sequence.toInt = a.sequence.toInt := Int64.toInt_inj.symm
  unfold NotAfter less
  split_ifs with h
  · simp only [decide_eq_false_iff_not, Int64.not_lt, Int64.le_iff_toInt_le]
    rw [hseq] at h
    omega
  · simp only [decide_eq_false_iff_not, Int64.not_lt, Int64.le_iff_toInt_le]
    rw [hseq] at h
    omega

instance : Std.Total NotAfter := ⟨fun a b ↦ by
  simp only [notAfter_iff]
  omega⟩

instance : IsTrans CanonicalPurchaseOrderLine NotAfter := ⟨fun a b c hab hbc ↦ by
  simp only [notAfter_iff] at *
  omega⟩

end CanonicalPurchaseOrderLine

def sortLines (lines : List CanonicalPurchaseOrderLine) : List CanonicalPurchaseOrderLine :=
  lines.insertionSort CanonicalPurchaseOrderLine.NotAfter

def canonicalPurchaseOrderLinesDomain : String := "PDP-ODOO-PO-LINES-V1"

def canonicalPurchaseOrderLinesBytes (lines : List CanonicalPurchaseOrderLine) :
    Except String (List UInt8) := do
  rejectIf (lines.length ≥ 2 ^ 32) "purchase order line count exceeds uint32"
  let ordered := sortLines lines
  let written ← writeLines nfc [] ordered
  return Text.bytes canonicalPurchaseOrderLinesDomain ++ Encoding.beBytes 4 ordered.length ++ written

section Sorting

theorem sortTaxes_perm (taxIds : List Int64) : (sortTaxes taxIds).Perm taxIds :=
  List.perm_insertionSort _ _

theorem sortLines_perm (lines : List CanonicalPurchaseOrderLine) : (sortLines lines).Perm lines :=
  List.perm_insertionSort _ _

instance int64LeTotal : Std.Total (α := Int64) (· ≤ ·) := ⟨Int64.le_total⟩

instance int64LeTrans : IsTrans Int64 (· ≤ ·) := ⟨fun _ _ _ ↦ Int64.le_trans⟩

theorem sortTaxes_sorted (taxIds : List Int64) : (sortTaxes taxIds).Pairwise (· ≤ ·) :=
  List.pairwise_insertionSort _ _

theorem sortTaxes_eq_iff {a b : List Int64} : sortTaxes a = sortTaxes b ↔ a.Perm b := by
  constructor
  · intro h
    exact (sortTaxes_perm a).symm.trans (h ▸ sortTaxes_perm b)
  · intro h
    refine List.Perm.eq_of_pairwise (fun _ _ _ _ ↦ Int64.le_antisymm) (sortTaxes_sorted a)
      (sortTaxes_sorted b) ?_
    exact (sortTaxes_perm a).trans (h.trans (sortTaxes_perm b).symm)

theorem nodup_of_neighbours {taxes : List Int64} (hsorted : taxes.Pairwise (· ≤ ·))
    (h : taxes.IsChain (· ≠ ·)) : taxes.Nodup := by
  induction taxes with
  | nil => exact List.nodup_nil
  | cons a taxes ih =>
    obtain ⟨hle, hsorted⟩ := List.pairwise_cons.mp hsorted
    obtain ⟨hne, hchain⟩ := List.isChain_cons.mp h
    refine List.nodup_cons.mpr ⟨?_, ih hsorted hchain⟩
    intro ha
    cases taxes with
    | nil => cases ha
    | cons b =>
      have hba : b ≤ a := by
        rcases List.mem_cons.mp ha with rfl | ha
        · exact Int64.le_refl _
        · exact (List.pairwise_cons.mp hsorted).1 a ha
      exact hne b rfl (Int64.le_antisymm (hle b List.mem_cons_self) hba)

theorem isChain_sortTaxes_iff {taxIds : List Int64} :
    (sortTaxes taxIds).IsChain (· ≠ ·) ↔ taxIds.Nodup := by
  rw [← (sortTaxes_perm taxIds).nodup_iff]
  exact ⟨nodup_of_neighbours (sortTaxes_sorted taxIds), fun h ↦ h.isChain⟩

end Sorting

theorem validateCanonicalDecimal_eq_ok {field value : String} :
    validateCanonicalDecimal field value = .ok () ↔
      canonicalDecimalPattern value = true ∧ value ≠ "-0" := by
  rw [validateCanonicalDecimal, rejectIf_eq_ok, not_or, Bool.not_eq_false]

theorem displayType_iff {displayType : String} {productId uomId : Int64} :
    (¬ (displayType ≠ "" ∧ ¬ (displayType = "line_section" ∨ displayType = "line_note")) ∧
      ¬ ((¬ (displayType = "line_section" ∨ displayType = "line_note") ∧
          (productId ≤ 0 ∨ uomId ≤ 0)) ∨
        ((displayType = "line_section" ∨ displayType = "line_note") ∧
          (productId ≠ 0 ∨ uomId ≠ 0)))) ↔
    displayType = "" ∧ 0 < productId ∧ 0 < uomId ∨
      (displayType = "line_section" ∨ displayType = "line_note") ∧ productId = 0 ∧ uomId = 0 := by
  rw [← Int64.not_le, ← Int64.not_le]
  by_cases hdisplay : displayType = "line_section" ∨ displayType = "line_note"
  · have hne : displayType ≠ "" := by
      rcases hdisplay with rfl | rfl <;> decide
    simp only [hdisplay, hne, not_true_eq_false, and_false, not_false_eq_true, true_and, false_and,
      false_or, not_or, not_not]
  · simp only [hdisplay, not_false_eq_true, and_true, not_not, true_and, false_and, or_false,
      not_or]

structure ValidLine (line : CanonicalPurchaseOrderLine) : Prop where
  lineId : 0 < line.lineId
  displayType : line.displayType = "" ∧ 0 < line.productId ∧ 0 < line.uomId ∨
    (line.displayType = "line_section" ∨ line.displayType = "line_note") ∧
      line.productId = 0 ∧ line.uomId = 0
  description : canonicalDescription nfc line.description ≠ ""
  descriptionShort : (canonicalDescription nfc line.description).utf8ByteSize < 2 ^ 32
  quantity : canonicalDecimalPattern line.quantity = true ∧ line.quantity ≠ "-0"
  unitPrice : canonicalDecimalPattern line.unitPrice = true ∧ line.unitPrice ≠ "-0"
  taxIds : ∀ taxId ∈ line.taxIds, 0 < taxId
  taxesDiffer : line.taxIds.Nodup
  plannedAt : validatePlannedAt line.displayType line.plannedAt = .ok ()
  lineWriteVersion : validateCanonicalTimestamp "line_write_version" line.lineWriteVersion = .ok ()

def normalLine (line : CanonicalPurchaseOrderLine) : CanonicalPurchaseOrderLine :=
  { line with
    description := canonicalDescription nfc line.description
    taxIds := sortTaxes line.taxIds }

variable {nfc}

theorem validateCanonicalPurchaseOrderLine_eq_ok {line : CanonicalPurchaseOrderLine}
    {validated : String × List Int64} :
    validateCanonicalPurchaseOrderLine nfc line = .ok validated ↔ ValidLine nfc line ∧
      validated = (canonicalDescription nfc line.description, sortTaxes line.taxIds) := by
  have htaxes : (∃ taxId ∈ sortTaxes line.taxIds, taxId ≤ 0) ↔ ∃ taxId ∈ line.taxIds, taxId ≤ 0 := by
    simp only [(sortTaxes_perm line.taxIds).mem_iff]
  simp only [validateCanonicalPurchaseOrderLine, bind_unit_eq_ok, rejectIf_eq_ok,
    validateCanonicalDecimal_eq_ok, isChain_sortTaxes_iff, htaxes]
  constructor
  · rintro ⟨hid, htype, hids, hdescription, hquantity, hprice, htaxIds, hplanned, hversion, h⟩
    rw [not_or, ge_iff_le, Nat.not_le] at hdescription
    rw [not_or, not_not] at htaxIds
    refine ⟨⟨Int64.not_le.mp hid, displayType_iff.mp ⟨htype, hids⟩, hdescription.1, hdescription.2,
      hquantity, hprice, ?_, htaxIds.2, hplanned, hversion⟩, (Except.ok.inj h).symm⟩
    intro taxId hmem
    exact Int64.not_le.mp fun hle ↦ htaxIds.1 ⟨taxId, hmem, hle⟩
  · rintro ⟨h, rfl⟩
    obtain ⟨htype, hids⟩ := displayType_iff.mpr h.displayType
    refine ⟨Int64.not_le.mpr h.lineId, htype, hids, ?_, h.quantity, h.unitPrice, ?_, h.plannedAt,
      h.lineWriteVersion, rfl⟩
    · rw [not_or, ge_iff_le, Nat.not_le]
      exact ⟨h.description, h.descriptionShort⟩
    · rw [not_or, not_not]
      refine ⟨?_, h.taxesDiffer⟩
      rintro ⟨taxId, hmem, hle⟩
      exact Int64.not_le.mpr (h.taxIds taxId hmem) hle

theorem writeCanonicalPurchaseOrderLine_eq_ok {line : CanonicalPurchaseOrderLine}
    {written : List UInt8} : writeCanonicalPurchaseOrderLine nfc line = .ok written ↔
      ValidLine nfc line ∧ written = lineBytes (normalLine nfc line) := by
  simp only [writeCanonicalPurchaseOrderLine, bind_eq_ok, validateCanonicalPurchaseOrderLine_eq_ok]
  constructor
  · rintro ⟨_, ⟨hvalid, rfl⟩, h⟩
    exact ⟨hvalid, (Except.ok.inj h).symm⟩
  · rintro ⟨hvalid, rfl⟩
    exact ⟨_, ⟨hvalid, rfl⟩, rfl⟩

theorem writeLines_eq_ok {lines : List CanonicalPurchaseOrderLine} {seenLines : List Int64}
    {written : List UInt8} : writeLines nfc seenLines lines = .ok written ↔
      (∀ line ∈ lines, ValidLine nfc line) ∧ (lines.map (·.lineId)).Nodup ∧
        (∀ line ∈ lines, line.lineId ∉ seenLines) ∧
        written = (lines.map (normalLine nfc)).flatMap lineBytes := by
  induction lines generalizing seenLines written with
  | nil => simp [writeLines, eq_comm]
  | cons _ _ ih =>
    rw [writeLines, bind_unit_eq_ok, rejectIf_eq_ok, List.forall_mem_cons, List.forall_mem_cons]
    simp only [bind_eq_ok, writeCanonicalPurchaseOrderLine_eq_ok, ih, List.map_cons,
      List.nodup_cons, List.mem_map, List.flatMap_cons, List.mem_cons, not_or]
    constructor
    · rintro ⟨hseen, _, ⟨hvalid, rfl⟩, _, ⟨hvalids, hnodup, hnew, rfl⟩, h⟩
      refine ⟨⟨hvalid, hvalids⟩, ⟨?_, hnodup⟩, ⟨hseen, fun l hl ↦ (hnew l hl).2⟩,
        (Except.ok.inj h).symm⟩
      rintro ⟨l, hl, heq⟩
      exact (hnew l hl).1 heq
    · rintro ⟨⟨hvalid, hvalids⟩, ⟨hne, hnodup⟩, ⟨hseen, hnew⟩, rfl⟩
      refine ⟨hseen, _, ⟨hvalid, rfl⟩, _, ⟨hvalids, hnodup, ?_, rfl⟩, rfl⟩
      intro l hl
      exact ⟨fun heq ↦ hne ⟨l, hl, heq⟩, hnew l hl⟩

structure ValidLines (nfc : String → String) (lines : List CanonicalPurchaseOrderLine) : Prop where
  count : lines.length < 2 ^ 32
  valid : ∀ line ∈ lines, ValidLine nfc line
  lineIds : (lines.map (·.lineId)).Nodup

def linesBytes (lines : List CanonicalPurchaseOrderLine) : List UInt8 :=
  Text.bytes canonicalPurchaseOrderLinesDomain ++
    (Encoding.beBytes 4 lines.length ++ lines.flatMap lineBytes)

theorem canonicalPurchaseOrderLinesBytes_eq_ok {lines : List CanonicalPurchaseOrderLine}
    {written : List UInt8} : canonicalPurchaseOrderLinesBytes nfc lines = .ok written ↔
      ValidLines nfc lines ∧ written = linesBytes ((sortLines lines).map (normalLine nfc)) := by
  have hperm := sortLines_perm lines
  rw [canonicalPurchaseOrderLinesBytes, bind_unit_eq_ok, rejectIf_eq_ok]
  simp only [bind_eq_ok, writeLines_eq_ok, ge_iff_le, Nat.not_le, hperm.mem_iff,
    (hperm.map (·.lineId)).nodup_iff, List.not_mem_nil, not_false_eq_true, implies_true, true_and]
  constructor
  · rintro ⟨hcount, _, ⟨hvalid, hnodup, rfl⟩, h⟩
    refine ⟨⟨hcount, hvalid, hnodup⟩, ?_⟩
    rw [linesBytes, List.length_map, ← List.append_assoc]
    exact (Except.ok.inj h).symm
  · rintro ⟨hvalid, rfl⟩
    refine ⟨hvalid.count, _, ⟨hvalid.valid, hvalid.lineIds, rfl⟩, ?_⟩
    rw [linesBytes, List.length_map, ← List.append_assoc]
    rfl

end PolicyEngine.Security

import PolicyEngine.Security.PurchaseOrderLineBytes

namespace PolicyEngine.Security

open PolicyEngine.Go PolicyEngine.Go.Result

/-- What a line says, whatever the spelling of its description and the order of
its taxes. -/
structure LineMeaning where
  lineId : Int64
  sequence : Int64
  displayType : String
  productId : Int64
  description : String
  uomId : Int64
  quantity : String
  unitPrice : String
  taxIds : Finset Int64
  plannedAt : String
  lineWriteVersion : String

namespace CanonicalPurchaseOrderLine

def read (line : CanonicalPurchaseOrderLine) : LineMeaning where
  lineId := line.lineId
  sequence := line.sequence
  displayType := line.displayType
  productId := line.productId
  description := line.description
  uomId := line.uomId
  quantity := line.quantity
  unitPrice := line.unitPrice
  taxIds := line.taxIds.toFinset
  plannedAt := line.plannedAt
  lineWriteVersion := line.lineWriteVersion

variable (nfc : String → String)

/-- The description counts after the newlines are unified and normalised. -/
def meaning (line : CanonicalPurchaseOrderLine) : LineMeaning :=
  read { line with description := canonicalDescription nfc line.description }

noncomputable def ofMeaning (m : LineMeaning) : CanonicalPurchaseOrderLine where
  lineId := m.lineId
  sequence := m.sequence
  displayType := m.displayType
  productId := m.productId
  description := m.description
  uomId := m.uomId
  quantity := m.quantity
  unitPrice := m.unitPrice
  taxIds := sortTaxes m.taxIds.toList
  plannedAt := m.plannedAt
  lineWriteVersion := m.lineWriteVersion

variable {nfc} {line : CanonicalPurchaseOrderLine}

theorem read_normalLine : read (normalLine nfc line) = meaning nfc line := by
  have htaxes : (sortTaxes line.taxIds).toFinset = line.taxIds.toFinset :=
    List.toFinset_eq_of_perm _ _ (sortTaxes_perm line.taxIds)
  simp only [read, meaning, normalLine, htaxes]

theorem ofMeaning_meaning (h : line.taxIds.Nodup) :
    ofMeaning (meaning nfc line) = normalLine nfc line := by
  have htaxes : sortTaxes line.taxIds.toFinset.toList = sortTaxes line.taxIds :=
    sortTaxes_eq_iff.mpr (List.toFinset_toList h)
  simp only [ofMeaning, meaning, read, normalLine, htaxes]

theorem perm_normalLine_iff {a b : List CanonicalPurchaseOrderLine} (ha : ValidLines nfc a)
    (hb : ValidLines nfc b) :
    (a.map (normalLine nfc)).Perm (b.map (normalLine nfc)) ↔
      (a.map (meaning nfc)).Perm (b.map (meaning nfc)) := by
  have hof : ∀ l, ValidLines nfc l → l.map (normalLine nfc) =
      (l.map (meaning nfc)).map ofMeaning := by
    intro _ hl
    rw [List.map_map]
    apply List.map_congr_left
    intro line hline
    exact (ofMeaning_meaning (hl.valid line hline).taxesDiffer).symm
  have hread : ∀ l : List CanonicalPurchaseOrderLine,
      l.map (meaning nfc) = (l.map (normalLine nfc)).map read := by
    intro _
    rw [List.map_map]
    apply List.map_congr_left
    intro _ _
    exact read_normalLine.symm
  constructor
  · intro h
    rw [hread a, hread b]
    exact h.map read
  · intro h
    rw [hof a ha, hof b hb]
    exact h.map ofMeaning

theorem map_sortLines_eq_iff {a b : List CanonicalPurchaseOrderLine} (ha : ValidLines nfc a) :
    (sortLines a).map (normalLine nfc) = (sortLines b).map (normalLine nfc) ↔
      (a.map (normalLine nfc)).Perm (b.map (normalLine nfc)) := by
  have hpa := (sortLines_perm a).map (normalLine nfc)
  have hpb := (sortLines_perm b).map (normalLine nfc)
  constructor
  · intro h
    exact hpa.symm.trans (h ▸ hpb)
  · intro h
    have hperm := hpa.trans (h.trans hpb.symm)
    have hsorted : ∀ l, ((sortLines l).map (normalLine nfc)).Pairwise NotAfter := by
      intro l
      rw [List.pairwise_map]
      exact List.pairwise_insertionSort NotAfter l
    refine List.Perm.eq_of_pairwise ?_ (hsorted a) (hsorted b) hperm
    intro _ _ hx hy hxy hyx
    have hids : (((sortLines a).map (normalLine nfc)).map (·.lineId)).Nodup := by
      rw [(hpa.map (·.lineId)).nodup_iff, List.map_map]
      exact ha.lineIds
    apply List.inj_on_of_nodup_map hids hx (hperm.mem_iff.mpr hy)
    rw [notAfter_iff] at hxy hyx
    exact Int64.toInt_inj.mp (by omega)

end CanonicalPurchaseOrderLine

open CanonicalPurchaseOrderLine

variable {nfc : String → String} {a b : List CanonicalPurchaseOrderLine}

theorem ValidLine.readable {line : CanonicalPurchaseOrderLine} (h : ValidLine nfc line)
    (hcount : line.taxIds.length < 2 ^ 32) (hquantity : line.quantity.utf8ByteSize ≤ 2 ^ 32) :
    Readable (normalLine nfc line) where
  displayType := by
    rcases h.displayType with ⟨htype, -⟩ | ⟨htype | htype, -⟩ <;>
      simp only [normalLine, htype] <;> decide
  description := h.descriptionShort
  quantity := ⟨h.quantity.1, hquantity⟩
  price := by
    have hperm := sortTaxes_perm line.taxIds
    exact ⟨h.unitPrice.1, hperm.nodup_iff.mpr h.taxesDiffer, hperm.length_eq.trans_lt hcount⟩
  plannedAt := by
    have hplanned := h.plannedAt
    unfold validatePlannedAt at hplanned
    split_ifs at hplanned with hempty
    · simp only [normalLine, hempty]
      decide
    · exact short_of_validateCanonicalTimestamp hplanned
  lineWriteVersion := short_of_validateCanonicalTimestamp h.lineWriteVersion

theorem linesBytes_eq_of_perm (ha : ValidLines nfc a) (hb : ValidLines nfc b)
    (h : (a.map (meaning nfc)).Perm (b.map (meaning nfc))) :
    linesBytes ((sortLines a).map (normalLine nfc)) =
      linesBytes ((sortLines b).map (normalLine nfc)) := by
  rw [(map_sortLines_eq_iff ha).mpr ((perm_normalLine_iff ha hb).mpr h)]

theorem perm_of_linesBytes_eq (ha : ValidLines nfc a) (hb : ValidLines nfc b)
    (hbounds : ∀ line ∈ a ++ b, line.taxIds.length < 2 ^ 32 ∧ line.quantity.utf8ByteSize ≤ 2 ^ 32)
    (h : linesBytes ((sortLines a).map (normalLine nfc)) =
      linesBytes ((sortLines b).map (normalLine nfc))) :
    (a.map (meaning nfc)).Perm (b.map (meaning nfc)) := by
  have hreadable : ∀ l, ValidLines nfc l → (∀ line ∈ l, line ∈ a ++ b) →
      ((sortLines l).map (normalLine nfc)).length < 2 ^ 32 ∧
        ∀ line ∈ (sortLines l).map (normalLine nfc), Readable line := by
    intro l hl hmem
    refine ⟨?_, ?_⟩
    · rw [List.length_map, (sortLines_perm l).length_eq]
      exact hl.count
    · intro _ hline
      obtain ⟨x, hx, rfl⟩ := List.mem_map.mp hline
      have hx := (sortLines_perm l).mem_iff.mp hx
      obtain ⟨hcount, hquantity⟩ := hbounds x (hmem x hx)
      exact (hl.valid x hx).readable hcount hquantity
  obtain ⟨hlena, hreada⟩ := hreadable a ha fun _ h ↦ List.mem_append_left b h
  obtain ⟨hlenb, hreadb⟩ := hreadable b hb fun _ h ↦ List.mem_append_right a h
  have hsame := linesBytes_inj hlena hlenb hreada hreadb h
  exact (perm_normalLine_iff ha hb).mp ((map_sortLines_eq_iff ha).mp hsame)

section Collision

def ones (n : ℕ) : String := String.ofList (List.replicate n '1')

theorem toList_ones (n : ℕ) : (ones n).toList = List.replicate n '1' := String.toList_ofList

theorem bytes_ones (n : ℕ) : Text.bytes (ones n) = List.replicate n 49 := by
  have hascii : ∀ c ∈ (ones n).toList, c.val ≤ 127 := by
    intro _ hc
    rw [toList_ones] at hc
    rw [List.eq_of_mem_replicate hc]
    decide
  rw [Text.bytes_of_ascii hascii, toList_ones, List.map_replicate]
  rfl

theorem utf8ByteSize_ones (n : ℕ) : (ones n).utf8ByteSize = n := by
  rw [← Text.length_bytes, bytes_ones, List.length_replicate]

theorem decimal_ones {n : ℕ} (hn : 0 < n) :
    canonicalDecimalPattern (ones n) = true ∧ ones n ≠ "-0" := by
  obtain ⟨m, rfl⟩ := Nat.exists_eq_add_one_of_ne_zero hn.ne'
  have hchars : (ones (m + 1)).toList = '1' :: List.replicate m '1' := by
    rw [toList_ones, List.replicate_succ]
  have hdigits : (List.replicate m '1').dropWhile Char.isDigit = [] := by
    rw [List.dropWhile_eq_nil_iff]
    intro _ hc
    rw [List.eq_of_mem_replicate hc]
    decide
  constructor
  · rw [canonicalDecimalPattern, hchars]
    change ('1'.isDigit && fractionPattern ((List.replicate m '1').dropWhile Char.isDigit)) = true
    rw [hdigits]
    rfl
  · intro h
    rw [h] at hchars
    exact absurd (List.cons.inj hchars).1 (by decide)

def repunitLine (description : String) (quantity unitPrice : ℕ) : CanonicalPurchaseOrderLine where
  lineId := 1
  sequence := 10
  displayType := ""
  productId := 1
  description := description
  uomId := 1
  quantity := ones quantity
  unitPrice := ones unitPrice
  taxIds := []
  plannedAt := "2026-01-01T00:00:00.000000Z"
  lineWriteVersion := "2026-01-01T00:00:00.000000Z"

variable {description : String}

theorem validLines_repunitLine (hne : canonicalDescription nfc description ≠ "")
    (hshort : (canonicalDescription nfc description).utf8ByteSize < 2 ^ 32) {q p : ℕ} (hq : 0 < q)
    (hp : 0 < p) : ValidLines nfc [repunitLine description q p] := by
  have hvalid : ValidLine nfc (repunitLine description q p) := by
    have hone : (0 : Int64) < 1 := by decide
    refine ⟨hone, .inl ⟨rfl, hone, hone⟩, hne, hshort, decimal_ones hq, decimal_ones hp,
      List.forall_mem_nil _, List.nodup_nil, ?_, ?_⟩
    · exact show validatePlannedAt "" "2026-01-01T00:00:00.000000Z" = .ok () by rfl
    · exact show validateCanonicalTimestamp _ "2026-01-01T00:00:00.000000Z" = .ok () by
        rfl
  refine ⟨by rw [List.length_singleton]; decide, ?_, List.nodup_singleton _⟩
  intro _ hline
  rw [List.mem_singleton.mp hline]
  exact hvalid

/-- A quantity of `2 ^ 32 + 1` ones begins like the quantity 1, and the length
of the price, `0x31313131`, is spelt like four ones. -/
theorem repunits_collide :
    canonicalString (ones 1) ++ (canonicalString (ones (2 ^ 32 + 0x31313131)) ++ taxBytes []) =
      canonicalString (ones (2 ^ 32 + 1)) ++ (canonicalString (ones 0x31313131) ++ taxBytes []) := by
  have hbytes : ∀ n, canonicalString (ones n) = Encoding.beBytes 4 n ++ List.replicate n 49 := by
    intro _
    rw [canonicalString, Encoding.lengthPrefixed, bytes_ones, List.length_replicate]
  have hquantity : Encoding.beBytes 4 (2 ^ 32 + 1) = Encoding.beBytes 4 1 := by decide
  have hprice : Encoding.beBytes 4 0x31313131 = List.replicate 4 49 := by decide
  have hprice' : Encoding.beBytes 4 (2 ^ 32 + 0x31313131) = List.replicate 4 49 := by decide
  have hones : ∀ k l m k' m' : ℕ, k + (l + m) = k' + (l + m') → ∀ t : List UInt8,
      List.replicate k 49 ++ (List.replicate l 49 ++ (List.replicate m 49 ++ t)) =
        List.replicate k' 49 ++ (List.replicate l 49 ++ (List.replicate m' 49 ++ t)) := by
    intro _ _ _ _ _ h _
    simp only [← List.append_assoc, List.replicate_append_replicate]
    rw [h]
  simp only [hbytes, hquantity, hprice, hprice', List.append_assoc]
  rw [hones 1 4 (2 ^ 32 + 0x31313131) (2 ^ 32 + 1) 0x31313131 (by norm_num)]

theorem canonicalBytes_repunitLine (hne : canonicalDescription nfc description ≠ "")
    (hshort : (canonicalDescription nfc description).utf8ByteSize < 2 ^ 32) : ∃ written,
      canonicalPurchaseOrderLinesBytes nfc [repunitLine description 1 (2 ^ 32 + 0x31313131)] =
          .ok written ∧
        canonicalPurchaseOrderLinesBytes nfc [repunitLine description (2 ^ 32 + 1) 0x31313131] =
          .ok written := by
  have hlines : ∀ q p, linesBytes ((sortLines [repunitLine description q p]).map (normalLine nfc)) =
      linesBytes [normalLine nfc (repunitLine description q p)] := fun _ _ ↦ rfl
  have hline : ∀ q p, lineBytes (normalLine nfc (repunitLine description q p)) =
      Encoding.beInt64 1 ++ Encoding.beInt64 10 ++ canonicalString "" ++ Encoding.beInt64 1 ++
        canonicalString (canonicalDescription nfc description) ++ Encoding.beInt64 1 ++
        (canonicalString (ones q) ++ (canonicalString (ones p) ++ taxBytes [])) ++
        canonicalString "2026-01-01T00:00:00.000000Z" ++
        canonicalString "2026-01-01T00:00:00.000000Z" := by
    intro q _
    rw [← List.append_assoc _ (canonicalString (ones q))]
    rfl
  have hsame : lineBytes (normalLine nfc (repunitLine description 1 (2 ^ 32 + 0x31313131))) =
      lineBytes (normalLine nfc (repunitLine description (2 ^ 32 + 1) 0x31313131)) := by
    rw [hline, hline, repunits_collide]
  refine ⟨_, canonicalPurchaseOrderLinesBytes_eq_ok.mpr
    ⟨validLines_repunitLine hne hshort (by norm_num) (by norm_num), rfl⟩,
    canonicalPurchaseOrderLinesBytes_eq_ok.mpr
      ⟨validLines_repunitLine hne hshort (by norm_num) (by norm_num), ?_⟩⟩
  rw [hlines, hlines]
  simp only [linesBytes, List.length_singleton, List.flatMap_singleton, hsame]

theorem not_perm_repunitLine :
    ¬ ([repunitLine description 1 (2 ^ 32 + 0x31313131)].map (meaning nfc)).Perm
      ([repunitLine description (2 ^ 32 + 1) 0x31313131].map (meaning nfc)) := by
  intro h
  have hmeaning := List.singleton_perm_singleton.mp h
  have hquantity : ones 1 = ones (2 ^ 32 + 1) := congrArg LineMeaning.quantity hmeaning
  have hsize := congrArg String.utf8ByteSize hquantity
  rw [utf8ByteSize_ones, utf8ByteSize_ones] at hsize
  omega

end Collision

/-- The bytes tell lines apart exactly up to their order and their spelling as
long as no quantity is longer than `2 ^ 32` bytes, and for no bound above. -/
theorem line_bytes_canonical_iff (nfc : String → String)
    (hnfc : ∃ description, canonicalDescription nfc description ≠ "" ∧
      (canonicalDescription nfc description).utf8ByteSize < 2 ^ 32) (bound : ℕ) :
    (∀ a b written written', canonicalPurchaseOrderLinesBytes nfc a = .ok written →
        canonicalPurchaseOrderLinesBytes nfc b = .ok written' →
        (∀ line ∈ a ++ b, line.taxIds.length < 2 ^ 32 ∧ line.quantity.utf8ByteSize ≤ bound) →
        (written = written' ↔ (a.map (meaning nfc)).Perm (b.map (meaning nfc)))) ↔
      bound ≤ 2 ^ 32 := by
  constructor
  · intro h
    by_contra hbound
    obtain ⟨_, hne, hshort⟩ := hnfc
    obtain ⟨written, hwritten, hwritten'⟩ := canonicalBytes_repunitLine hne hshort
    refine not_perm_repunitLine ((h _ _ _ _ hwritten hwritten' ?_).mp rfl)
    intro line hline
    rcases List.mem_cons.mp hline with rfl | hline
    · exact ⟨by simp [repunitLine], (utf8ByteSize_ones 1).trans_le (by omega)⟩
    · rw [List.mem_singleton.mp hline]
      exact ⟨by simp [repunitLine], (utf8ByteSize_ones (2 ^ 32 + 1)).trans_le (by omega)⟩
  · intro hbound _ _ _ _ ha hb hlines
    obtain ⟨hvalida, rfl⟩ := canonicalPurchaseOrderLinesBytes_eq_ok.mp ha
    obtain ⟨hvalidb, rfl⟩ := canonicalPurchaseOrderLinesBytes_eq_ok.mp hb
    refine ⟨perm_of_linesBytes_eq hvalida hvalidb ?_, linesBytes_eq_of_perm hvalida hvalidb⟩
    intro line hline
    exact ⟨(hlines line hline).1, (hlines line hline).2.trans hbound⟩

def noteLine (lineId : Int64) : CanonicalPurchaseOrderLine where
  lineId := lineId
  sequence := 10
  displayType := "line_note"
  productId := 0
  description := "x"
  uomId := 0
  quantity := "0"
  unitPrice := "0"
  taxIds := []
  plannedAt := ""
  lineWriteVersion := "2026-01-01T00:00:00.000000Z"

/-- Two lines in either order. -/
theorem line_bytes_canonical_swapped : ∃ written,
    canonicalPurchaseOrderLinesBytes id [noteLine 1, noteLine 2] = .ok written ∧
      canonicalPurchaseOrderLinesBytes id [noteLine 2, noteLine 1] = .ok written := by
  have hok : (canonicalPurchaseOrderLinesBytes id [noteLine 1, noteLine 2]).isOk = true := by
    rfl
  have hok' : (canonicalPurchaseOrderLinesBytes id [noteLine 2, noteLine 1]).isOk = true := by
    rfl
  obtain ⟨written, h⟩ := exists_of_isOk hok
  obtain ⟨_, h'⟩ := exists_of_isOk hok'
  have hiff := (line_bytes_canonical_iff id ⟨"x", by decide, by decide⟩ 1).mpr (by decide) _ _ _ _ h h'
  have hlines : ∀ line ∈ [noteLine 1, noteLine 2] ++ [noteLine 2, noteLine 1],
      line.taxIds.length < 2 ^ 32 ∧ line.quantity.utf8ByteSize ≤ 1 := by decide
  exact ⟨written, h, (hiff hlines).mpr (List.Perm.swap _ _ _) ▸ h'⟩

/-- Two different orders with the same bytes. -/
theorem repunit_orders_share_bytes : ∃ written,
    canonicalPurchaseOrderLinesBytes id [repunitLine "x" 1 (2 ^ 32 + 0x31313131)] = .ok written ∧
      canonicalPurchaseOrderLinesBytes id [repunitLine "x" (2 ^ 32 + 1) 0x31313131] = .ok written ∧
      ¬ ([repunitLine "x" 1 (2 ^ 32 + 0x31313131)].map (meaning id)).Perm
        ([repunitLine "x" (2 ^ 32 + 1) 0x31313131].map (meaning id)) := by
  have hne : canonicalDescription id "x" ≠ "" := by decide
  have hshort : (canonicalDescription id "x").utf8ByteSize < 2 ^ 32 := by decide
  obtain ⟨written, h, h'⟩ := canonicalBytes_repunitLine hne hshort
  exact ⟨written, h, h', not_perm_repunitLine⟩

end PolicyEngine.Security

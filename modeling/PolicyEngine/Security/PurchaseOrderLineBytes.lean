import PolicyEngine.Security.PurchaseOrderLines

namespace PolicyEngine.Security

open PolicyEngine.Code PolicyEngine.Decimal PolicyEngine.Go PolicyEngine.Go.Result

section Decimal

variable {value : String} {cs : List Char}

def IsDecimalChar (c : Char) : Prop := c = '.' ∨ c.isDigit = true

theorem decimalChar_of_fractionPattern (h : fractionPattern cs = true) :
    ∀ c ∈ cs, IsDecimalChar c := by
  unfold fractionPattern at h
  split at h
  · exact List.forall_mem_nil _
  · rw [Bool.and_eq_true, List.all_eq_true] at h
    rw [List.forall_mem_cons]
    exact ⟨.inl rfl, fun c hc ↦ .inr (h.1 c hc)⟩
  · cases h

theorem decimalChar_of_wholeThen (h : wholeThen fractionPattern cs = true) :
    cs ≠ [] ∧ ∀ c ∈ cs, IsDecimalChar c := by
  obtain ⟨whole, tail, hwhole, rfl, htail⟩ := exists_of_wholeThen h
  refine ⟨List.append_ne_nil_of_left_ne_nil hwhole.ne_nil _, List.forall_mem_append.mpr ⟨?_, ?_⟩⟩
  · exact fun c hc ↦ .inr (hwhole.digits c hc)
  · exact decimalChar_of_fractionPattern htail

theorem chars_of_decimal (h : canonicalDecimalPattern value = true) :
    ∃ c cs, value.toList = c :: cs ∧ (c = '-' ∨ IsDecimalChar c) ∧ ∀ x ∈ cs, IsDecimalChar x := by
  unfold canonicalDecimalPattern at h
  split at h
  · rename_i cs hvalue
    exact ⟨'-', cs, hvalue, .inl rfl, (decimalChar_of_wholeThen h).2⟩
  · obtain ⟨hne, hall⟩ := decimalChar_of_wholeThen h
    obtain ⟨c, cs, hvalue⟩ := List.exists_cons_of_ne_nil hne
    rw [hvalue, List.forall_mem_cons] at hall
    exact ⟨c, cs, hvalue, .inr hall.1, hall.2⟩

def decimalBytes : Finset UInt8 := {46, 48, 49, 50, 51, 52, 53, 54, 55, 56, 57}

theorem byte_of_decimalChar {c : Char} (h : IsDecimalChar c) :
    c.val ≤ 127 ∧ c.val.toUInt8 ∈ decimalBytes := by
  rcases h with rfl | h
  · decide
  · rw [Char.isDigit, Bool.and_eq_true, decide_eq_true_iff, decide_eq_true_iff] at h
    have hlo : 48 ≤ c.val.toNat := h.1
    have hhi : c.val.toNat ≤ 57 := h.2
    refine ⟨UInt32.le_iff_toNat_le.mpr (hhi.trans (by decide)), ?_⟩
    have hbytes : ∀ n < 58, 48 ≤ n → UInt8.ofNat n ∈ decimalBytes := by decide
    exact hbytes _ (by omega) hlo

theorem bytes_of_decimal (h : canonicalDecimalPattern value = true) :
    ∃ b bs, Text.bytes value = b :: bs ∧ ∀ x ∈ bs, x ∈ decimalBytes := by
  obtain ⟨c, cs, hvalue, hc, hcs⟩ := chars_of_decimal h
  have hascii : ∀ x ∈ value.toList, x.val ≤ 127 := by
    rw [hvalue, List.forall_mem_cons]
    refine ⟨?_, fun x hx ↦ (byte_of_decimalChar (hcs x hx)).1⟩
    rcases hc with rfl | hc
    · decide
    · exact (byte_of_decimalChar hc).1
  refine ⟨c.val.toUInt8, cs.map fun x ↦ x.val.toUInt8, ?_, ?_⟩
  · rw [Text.bytes_of_ascii hascii, hvalue, List.map_cons]
  · intro _ hb
    obtain ⟨x, hx, rfl⟩ := List.mem_map.mp hb
    exact (byte_of_decimalChar (hcs x hx)).2

end Decimal

section Price

def taxBytes (taxes : List Int64) : List UInt8 :=
  Encoding.beBytes 4 taxes.length ++ taxes.flatMap Encoding.beInt64

theorem length_flatMap_beInt64 (ids : List Int64) :
    (ids.flatMap Encoding.beInt64).length = 8 * ids.length := by
  simp [List.length_flatMap, Encoding.beInt64, Nat.mul_comm]

/-- A price cannot be read as one that is longer by a multiple of `2 ^ 32`: its
taxes would have to be spelt in decimal characters, and there are too few of
those for so many different ones. -/
theorem price_not_longer {price price' : String} {taxes : List Int64} {x y : List UInt8}
    (hprice : canonicalDecimalPattern price = true)
    (hprice' : canonicalDecimalPattern price' = true) (hnodup : taxes.Nodup)
    (hcount : taxes.length < 2 ^ 32)
    (heq : Text.bytes price ++ (taxBytes taxes ++ x) = Text.bytes price' ++ y) :
    ¬ price.utf8ByteSize + 2 ^ 32 ≤ price'.utf8ByteSize := by
  intro _
  obtain ⟨_, bs, hbytes, -⟩ := bytes_of_decimal hprice
  obtain ⟨_, bs', hbytes', hdecimal⟩ := bytes_of_decimal hprice'
  have hsize : price.utf8ByteSize = bs.length + 1 := by
    rw [← Text.length_bytes, hbytes, List.length_cons]
  have hsize' : price'.utf8ByteSize = bs'.length + 1 := by
    rw [← Text.length_bytes, hbytes', List.length_cons]
  rw [hbytes, hbytes', List.cons_append, List.cons_append, List.cons.injEq] at heq
  -- Everything that follows the shorter price, as far as the longer one reaches.
  have hwithin : ∀ front, front <+: taxBytes taxes ++ x → front.length ≤ 2 ^ 32 →
      ∀ z ∈ front, z ∈ decimalBytes := by
    intro front hfront _ z hz
    have hpre : bs ++ front <+: bs' ++ y := by
      rw [← heq.2]
      exact (List.prefix_append_right_inj bs).mpr hfront
    have hpre' : bs ++ front <+: bs' := by
      refine List.prefix_of_prefix_length_le hpre (List.prefix_append _ _) ?_
      rw [List.length_append]
      omega
    exact hdecimal z (hpre'.subset (List.mem_append_right bs hz))
  have hmany : 46 * 256 ^ 3 ≤ taxes.length := by
    have hfirst : UInt8.ofNat (taxes.length / 256 ^ 3) ∈ decimalBytes := by
      refine hwithin [_] ?_ (by simp) _ (List.mem_singleton_self _)
      rw [taxBytes, Encoding.beBytes]
      exact ⟨_, rfl⟩
    have hge : ∀ z ∈ decimalBytes, 46 ≤ z.toNat := by simp [decimalBytes]
    have hfirst := hge _ hfirst
    rw [UInt8.toNat_ofNat'] at hfirst
    omega
  have hfew : (taxes.take (2 ^ 29 - 1)).length ≤ decimalBytes.card ^ 8 := by
    refine Encoding.length_le_card_pow (hnodup.sublist (List.take_sublist _ _)) ?_
    intro id hid z hz
    refine hwithin (Encoding.beBytes 4 taxes.length ++
      (taxes.take (2 ^ 29 - 1)).flatMap Encoding.beInt64) ?_ ?_ z ?_
    · refine List.IsPrefix.trans ?_ (List.prefix_append _ _)
      rw [taxBytes, List.prefix_append_right_inj]
      exact (List.take_prefix _ _).flatMap Encoding.beInt64
    · rw [List.length_append, Encoding.length_beBytes, length_flatMap_beInt64, List.length_take]
      omega
    · exact List.mem_append_right _ (List.mem_flatMap.mpr ⟨id, hid, hz⟩)
  have hcard : decimalBytes.card = 11 := by decide
  rw [List.length_take, hcard] at hfew
  omega

structure PricedTaxes (price : String) (taxes : List Int64) : Prop where
  decimal : canonicalDecimalPattern price = true
  nodup : taxes.Nodup
  count : taxes.length < 2 ^ 32

theorem mod_eq_of_beBytes {m n : ℕ} (h : Encoding.beBytes 4 m = Encoding.beBytes 4 n) :
    m % 2 ^ 32 = n % 2 ^ 32 := by
  have hfold := congrArg (List.foldl (fun acc b ↦ acc * 256 + b.toNat) 0) h
  rw [Encoding.foldl_beBytes, Encoding.foldl_beBytes] at hfold
  omega

theorem determines_price :
    Determines (fun line : CanonicalPurchaseOrderLine ↦ PricedTaxes line.unitPrice line.taxIds)
      (fun line ↦ canonicalString line.unitPrice ++ taxBytes line.taxIds)
      fun a b ↦ a.unitPrice = b.unitPrice ∧ a.taxIds = b.taxIds := by
  intro a b ha hb _ _ heq
  simp only [canonicalString, Encoding.lengthPrefixed, List.append_assoc] at heq
  obtain ⟨hlength, hrest⟩ := List.append_inj heq (by simp)
  have hmod := mod_eq_of_beBytes hlength
  simp only [Text.length_bytes] at hmod
  have hshort := price_not_longer ha.decimal hb.decimal ha.nodup ha.count hrest
  have hshort' := price_not_longer hb.decimal ha.decimal hb.nodup hb.count hrest.symm
  have hsize : a.unitPrice.utf8ByteSize = b.unitPrice.utf8ByteSize := by omega
  obtain ⟨hprice, htaxes⟩ := List.append_inj hrest (by simpa using hsize)
  obtain ⟨hsame, hxy⟩ := Encoding.determines_counted Encoding.determines_beInt64
    ⟨ha.count, fun _ _ ↦ trivial⟩ ⟨hb.count, fun _ _ ↦ trivial⟩ htaxes
  exact ⟨⟨Text.bytes_injective hprice, hsame⟩, hxy⟩

end Price

theorem determines_quantity :
    Determines (fun value ↦ canonicalDecimalPattern value = true ∧ value.utf8ByteSize ≤ 2 ^ 32)
      canonicalString Eq := by
  intro a b ha hb _ _ heq
  simp only [canonicalString, Encoding.lengthPrefixed, List.append_assoc] at heq
  obtain ⟨hlength, hrest⟩ := List.append_inj heq (by simp)
  have hmod := mod_eq_of_beBytes hlength
  have hpos : ∀ value, canonicalDecimalPattern value = true → 0 < (Text.bytes value).length := by
    intro _ hvalue
    obtain ⟨_, _, hbytes, -⟩ := bytes_of_decimal hvalue
    rw [hbytes]
    exact Nat.succ_pos _
  have hposa := hpos a ha.1
  have hposb := hpos b hb.1
  simp only [Text.length_bytes] at hmod hposa hposb
  have hsize : a.utf8ByteSize = b.utf8ByteSize := by omega
  obtain ⟨hbytes, hxy⟩ := List.append_inj hrest (by simpa using hsize)
  exact ⟨Text.bytes_injective hbytes, hxy⟩

/-- A line as it is written, with a quantity of at most `2 ^ 32` bytes. -/
structure Readable (line : CanonicalPurchaseOrderLine) : Prop where
  displayType : line.displayType.utf8ByteSize < 2 ^ 32
  description : line.description.utf8ByteSize < 2 ^ 32
  quantity : canonicalDecimalPattern line.quantity = true ∧ line.quantity.utf8ByteSize ≤ 2 ^ 32
  price : PricedTaxes line.unitPrice line.taxIds
  plannedAt : line.plannedAt.utf8ByteSize < 2 ^ 32
  lineWriteVersion : line.lineWriteVersion.utf8ByteSize < 2 ^ 32

theorem determines_lineBytes : Determines Readable lineBytes Eq := by
  have hlayout := (((((((((determines_number (P := Readable) (·.lineId)).append
    (determines_number (·.sequence))).append
    (determines_text (f := (·.displayType)) fun _ h ↦ h.displayType)).append
    (determines_number (·.productId))).append
    (determines_text (f := (·.description)) fun _ h ↦ h.description)).append
    (determines_number (·.uomId))).append
    (determines_quantity.comp (f := (·.quantity)) fun _ h ↦ h.quantity)).append
    (determines_price.mono (fun _ h ↦ h.price) fun _ _ _ _ h ↦ h)).append
    (determines_text (f := (·.plannedAt)) fun _ h ↦ h.plannedAt)).append
    (determines_text (f := (·.lineWriteVersion)) fun _ h ↦ h.lineWriteVersion)
  refine hlayout.mono (fun _ h ↦ h) ?_
  rintro a b - - h
  obtain ⟨⟨⟨⟨⟨⟨⟨⟨⟨hid, hseq⟩, htype⟩, hproduct⟩, hdescription⟩, huom⟩, hquantity⟩, hprice, htaxes⟩,
    hplanned⟩, hversion⟩ := h
  cases a
  cases b
  simp_all

theorem linesBytes_inj {a b : List CanonicalPurchaseOrderLine} (ha : a.length < 2 ^ 32)
    (hb : b.length < 2 ^ 32) (hreada : ∀ line ∈ a, Readable line)
    (hreadb : ∀ line ∈ b, Readable line) (h : linesBytes a = linesBytes b) : a = b :=
  (Encoding.determines_counted determines_lineBytes).apply ⟨ha, hreada⟩ ⟨hb, hreadb⟩
    (List.append_cancel_left h)

end PolicyEngine.Security

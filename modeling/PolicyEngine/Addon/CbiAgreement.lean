import PolicyEngine.Addon.CbiChecks
import PolicyEngine.Security.Signatures

namespace PolicyEngine.Addon

open PolicyEngine.Go PolicyEngine.Go.Result PolicyEngine.Python PolicyEngine.Security

section Fields

variable {text kind : String}

theorem lower_hex_digit {c : Char} (h : (c.isDigit || (decide ('a' ≤ c) && decide (c ≤ 'f'))) = true) :
    (Encoding.hexDigit c).isSome = true ∧ c.isUpper = false ∧ c.val ≤ 127 := by
  have hcase : (48 ≤ c.toNat ∧ c.toNat ≤ 57) ∨ (97 ≤ c.toNat ∧ c.toNat ≤ 102) := by
    rw [Bool.or_eq_true, Bool.and_eq_true, Char.isDigit, Bool.and_eq_true, decide_eq_true_iff,
      decide_eq_true_iff, decide_eq_true_iff, decide_eq_true_iff] at h
    exact h
  refine ⟨?_, ?_, ?_⟩
  · unfold Encoding.hexDigit
    split_ifs with hnum hlow
    · rfl
    · rfl
    · rfl
    · obtain hcase | hcase := hcase
      · exact absurd hcase hnum
      · exact absurd hcase hlow
  · by_contra hupper
    rw [Bool.not_eq_false, Text.isUpper_iff] at hupper
    omega
  · show c.toNat ≤ 127
    omega

theorem isDigest_of_digestPattern (h : digestPattern text = true) : IsDigest text := by
  rw [digestPattern, Bool.and_eq_true, beq_iff_eq, List.all_eq_true] at h
  obtain ⟨hlen, hchars⟩ := h
  refine ⟨?_, ?_, ?_⟩
  · rw [Text.utf8ByteSize_of_ascii fun c hc ↦ (lower_hex_digit (hchars c hc)).2.2, hlen]
  · refine List.all_eq_true.mpr fun c hc ↦ ?_
    rw [(lower_hex_digit (hchars c hc)).2.1]
    rfl
  · exact Encoding.isSome_hexDecodeChars (by rw [hlen]) fun c hc ↦
      (lower_hex_digit (hchars c hc)).1

theorem canonicalText_of_stripped {space : Char → Bool}
    (hspace : ∀ c, Text.isSpace c = true → space c = true) (h : Stripped space text)
    (hshort : text.utf8ByteSize < 2 ^ 32) : CanonicalText text :=
  ⟨h.1, hshort, strip_eq_self_mono hspace h.2⟩

theorem canonicalSubject_of_subjectOf {space : Char → Bool}
    (hspace : ∀ c, Text.isSpace c = true → space c = true) (h : SubjectOf space kind text)
    (hshort : text.utf8ByteSize < 2 ^ 32) : CanonicalSubject kind text := by
  obtain ⟨hne, hstrip, hbegins, hlen⟩ := h
  refine ⟨canonicalText_of_stripped hspace ⟨hne, hstrip⟩ hshort, hbegins, ?_⟩
  obtain ⟨name, rfl⟩ := Text.hasPrefix_iff.mp hbegins
  intro hsize
  rw [String.utf8ByteSize_append] at hsize
  have hname : name = "" := String.utf8ByteSize_eq_zero_iff.mp (by omega)
  rw [hname, String.append_empty] at hlen
  exact hlen rfl

theorem isUpper_ascii {c : Char} (h : c.isUpper = true) : c.val ≤ 127 := by
  have hhi := (Text.isUpper_iff.mp h).2
  show c.toNat ≤ 127
  omega

theorem validateCommandID_of_urlsafeB64decode {decoded : List UInt8}
    (hpattern : commandPattern text = true) (hdecode : urlsafeB64decode text = some decoded)
    (hlen : decoded.length = 32) (hencode : Base64.rawURL.encode decoded = text) :
    validateCommandID text = .ok () := by
  rw [commandPattern, Bool.and_eq_true, List.all_eq_true] at hpattern
  have hfilter : (text.toList.filter fun c ↦ c != '\r' && c != '\n') = text.toList := by
    rw [List.filter_eq_self]
    intro c hc
    have hchar := hpattern.2 c hc
    have hcr : c ≠ '\r' := by
      rintro rfl
      exact absurd hchar (by decide)
    have hlf : c ≠ '\n' := by
      rintro rfl
      exact absurd hchar (by decide)
    simp [hcr, hlf]
  have hbase64 : Base64.rawURL.decode text = some decoded := by
    rw [Base64.Encoding.decode, hfilter]
    exact hdecode
  rw [validateCommandID, hbase64]
  exact if_neg (by simp [hlen, hencode])

end Fields

theorem isSome_bind {α β : Type} {x : Option α} {f : α → Option β} {a : α} (hx : x = some a)
    (hf : (f a).isSome = true) : (x >>= f).isSome = true := by
  rw [hx]
  exact hf

section Timestamps

variable {shape cs : List Char}

theorem shape_digit (h : timestampShape ('0' :: shape) cs = true) :
    ∃ c rest, cs = c :: rest ∧ c.isDigit = true ∧ timestampShape shape rest = true := by
  cases cs with
  | nil => cases h
  | cons c rest =>
    rw [timestampShape, Bool.and_eq_true] at h
    exact ⟨c, rest, rfl, h⟩

theorem shape_char {s : Char} (hs : s ≠ '0') (h : timestampShape (s :: shape) cs = true) :
    ∃ rest, cs = s :: rest ∧ timestampShape shape rest = true := by
  cases cs with
  | nil =>
    rw [timestampShape] at h
    · cases h
    · simp
    · simp
    · simp
  | cons _ rest =>
    rw [timestampShape] at h
    · rw [Bool.and_eq_true, beq_iff_eq] at h
      obtain ⟨rfl, h⟩ := h
      exact ⟨rest, rfl, h⟩
    · exact hs

theorem skip_of_shape {s : Char} (hs : s ≠ '0') (h : timestampShape (s :: shape) cs = true) :
    Time.skip s cs = some (cs.drop 1) ∧ timestampShape shape (cs.drop 1) = true := by
  obtain ⟨_, rfl, hrest⟩ := shape_char hs h
  exact ⟨if_pos rfl, hrest⟩

theorem getnum_of_shape (fixed : Bool) (h : timestampShape ('0' :: '0' :: shape) cs = true) :
    Time.getnum fixed cs = some (number (cs.take 2), cs.drop 2) ∧
      timestampShape shape (cs.drop 2) = true := by
  obtain ⟨_, cs, rfl, ha, h⟩ := shape_digit h
  obtain ⟨_, _, rfl, hb, h⟩ := shape_digit h
  refine ⟨?_, h⟩
  simp [Time.getnum, Time.digit, ha, hb, number, Nat.ofDigitChars]

theorem year_of_shape (h : timestampShape ('0' :: '0' :: '0' :: '0' :: shape) cs = true) :
    Time.year cs = some (number (cs.take 4), cs.drop 4) ∧
      timestampShape shape (cs.drop 4) = true := by
  obtain ⟨_, cs, rfl, ha, h⟩ := shape_digit h
  obtain ⟨_, cs, rfl, hb, h⟩ := shape_digit h
  obtain ⟨_, cs, rfl, hc, h⟩ := shape_digit h
  obtain ⟨_, _, rfl, hd, h⟩ := shape_digit h
  refine ⟨?_, h⟩
  simp [Time.year, Time.digit, ha, hb, hc, hd, number, Nat.ofDigitChars]
  omega

theorem dropWhile_of_shape {digits : ℕ}
    (h : timestampShape (List.replicate digits '0' ++ ['Z']) cs = true) :
    cs.dropWhile Char.isDigit = ['Z'] := by
  induction digits generalizing cs with
  | zero =>
    obtain ⟨rest, rfl, h⟩ := shape_char (by decide) h
    cases rest with
    | nil => rfl
    | cons => cases h
  | succ _ ih =>
    obtain ⟨_, _, rfl, hc, h⟩ := shape_digit h
    rw [List.dropWhile_cons_of_pos hc, ih h]

theorem fraction_of_shape (h : timestampShape ('.' :: (List.replicate 6 '0' ++ ['Z'])) cs = true) :
    (Time.fraction cs).2 = ['Z'] := by
  obtain ⟨_, rfl, h⟩ := shape_char (by decide) h
  obtain ⟨d, rest, rfl, hd, -⟩ := shape_digit h
  have hrest : (d :: rest).dropWhile Char.isDigit = ['Z'] := dropWhile_of_shape h
  rw [Time.fraction, if_pos ⟨.inl rfl, hd⟩]
  exact hrest

theorem validateCanonicalTimestamp_of_strptime {field text : String}
    (hshape : timestampShape "0000-00-00T00:00:00.000000Z".toList text.toList = true)
    (htime : strptime text = true) : validateCanonicalTimestamp field text = .ok () := by
  refine if_pos ⟨hshape, ?_⟩
  rw [show "0000-00-00T00:00:00.000000Z".toList = '0' :: '0' :: '0' :: '0' :: '-' :: '0' :: '0' ::
    '-' :: '0' :: '0' :: 'T' :: '0' :: '0' :: ':' :: '0' :: '0' :: ':' :: '0' :: '0' :: '.' ::
    (List.replicate 6 '0' ++ ['Z']) by decide] at hshape
  obtain ⟨hyear, h⟩ := year_of_shape hshape
  obtain ⟨hdash, h⟩ := skip_of_shape (by decide) h
  obtain ⟨hmonth, h⟩ := getnum_of_shape true h
  obtain ⟨hdash', h⟩ := skip_of_shape (by decide) h
  obtain ⟨hday, h⟩ := getnum_of_shape true h
  obtain ⟨hT, h⟩ := skip_of_shape (by decide) h
  obtain ⟨hhour, h⟩ := getnum_of_shape false h
  obtain ⟨hcolon, h⟩ := skip_of_shape (by decide) h
  obtain ⟨hminute, h⟩ := getnum_of_shape true h
  obtain ⟨hcolon', h⟩ := skip_of_shape (by decide) h
  obtain ⟨hsecond, h⟩ := getnum_of_shape true h
  have hfraction := fraction_of_shape h
  simp only [List.drop_drop, Nat.reduceAdd] at hdash hmonth hdash' hday hT hhour hcolon
  simp only [List.drop_drop, Nat.reduceAdd] at hminute hcolon' hsecond hfraction
  simp only [strptime, Bool.and_eq_true, decide_eq_true_iff] at htime
  obtain ⟨⟨⟨⟨⟨⟨⟨-, hm⟩, hm'⟩, hd⟩, hd'⟩, hh⟩, hmin⟩, hs⟩ := htime
  refine isSome_bind hyear (isSome_bind hdash (isSome_bind hmonth (isSome_bind hdash' ?_)))
  refine isSome_bind hday (isSome_bind hT (isSome_bind hhour (isSome_bind hcolon ?_)))
  refine isSome_bind hminute (isSome_bind hcolon' (isSome_bind hsecond ?_))
  refine isSome_bind (a := (0, [])) (congrArg Time.zone hfraction) ?_
  dsimp only
  rw [if_pos ⟨rfl, hm, hm', hd, hd', hh, hmin, hs⟩]
  rfl

end Timestamps

section Encoding

variable {prim : Primitives} {space : Char → Bool} {values : Dict}
  {intent : CanonicalBusinessIntent} {field text : String} {number : ℤ} {bytes : List UInt8}

theorem encode_text (h : Dict.item values field = .ok (.str text)) :
    Piece.encode values (.text field) = .ok bytes ↔
      text.utf8ByteSize < 2 ^ 32 ∧ canonicalString text = bytes := by
  rw [Piece.encode, h]
  show (if text.utf8ByteSize > 0xFFFFFFFF then _ else packText text) = .ok bytes ↔ _
  split_ifs with hlong
  · refine ⟨nofun, ?_⟩
    rintro ⟨_, -⟩
    omega
  · exact packText_eq_ok

theorem encode_number {n : Int64} (h : Dict.item values field = .ok (.int n.toInt)) :
    Piece.encode values (.number field) = .ok bytes ↔ Encoding.beInt64 n = bytes := by
  rw [Piece.encode, h]
  show packInt64 n.toInt = .ok bytes ↔ _
  rw [packInt64_eq_ok, Int64.ofInt_toInt]
  exact and_iff_right rfl

theorem encode_hex (hdigest : IsDigest text) (h : Dict.item values field = .ok (.str text)) :
    Piece.encode values (.hex field) = .ok bytes ↔ digest text = bytes := by
  have hencode : Piece.encode values (.hex field) = .ok (digest text) := by
    simp only [Piece.encode, h, bind, Except.bind, hdigest.hexDecode]
  rw [hencode, Except.ok.injEq]

theorem stateBytes_eq (hreads : Reads values intent) (hline : IsDigest intent.lineDigest)
    (h : stateBytes values = .ok bytes) :
    bytes = intent.stateWitnessPayload (digest intent.lineDigest) := by
  simp only [Reads, entries, List.forall_mem_cons] at hreads
  obtain ⟨iVersion, iTenant, iCompany, iType, iResource, iAction, iVendor, iCurrency, iScale,
    iAmount, iLine, iState, iWrite, iWitness, iCreator, iGrant, iDelegator, iAgent, iCommand,
    iProof, -⟩ := hreads
  simp only [stateBytes, bind_eq_ok, stateLayout, List.mapM_cons, List.mapM_nil, pure, Except.pure,
    encode_text iTenant, encode_number iCompany, encode_text iType, encode_number iResource,
    encode_number iVendor, encode_text iCurrency, encode_number iScale, encode_number iAmount,
    encode_hex hline iLine, encode_text iState, encode_text iWrite, encode_number iGrant,
    encode_text iCreator, Except.ok.injEq, and_assoc, exists_and_left, exists_eq_left'] at h
  obtain ⟨-, -, -, -, -, -, rfl⟩ := h
  simp only [CanonicalBusinessIntent.stateWitnessPayload, List.flatten_cons, List.flatten_nil,
    List.append_nil, List.append_assoc]

structure Short (intent : CanonicalBusinessIntent) : Prop where
  tenantId : intent.tenantId.utf8ByteSize < 2 ^ 32
  recordState : intent.recordState.utf8ByteSize < 2 ^ 32
  creatorSubject : intent.creatorSubject.utf8ByteSize < 2 ^ 32
  delegatorSubject : intent.delegatorSubject.utf8ByteSize < 2 ^ 32
  agentSubject : intent.agentSubject.utf8ByteSize < 2 ^ 32

theorem intentLayout_eq (hreads : Reads values intent) (hline : IsDigest intent.lineDigest)
    (hwitness : IsDigest intent.stateWitness) {chunks : List (List UInt8)}
    (h : intentLayout.mapM (Piece.encode values) = .ok chunks) :
    Short intent ∧ chunks = [canonicalString intent.intentVersion, canonicalString intent.tenantId,
      Encoding.beInt64 intent.companyId, canonicalString intent.resourceType,
      Encoding.beInt64 intent.resourceId, canonicalString intent.action,
      Encoding.beInt64 intent.vendorId, canonicalString intent.currencyCode,
      Encoding.beInt64 intent.currencyScale, Encoding.beInt64 intent.amountMinor,
      digest intent.lineDigest, canonicalString intent.recordState,
      canonicalString intent.recordWriteVersion, digest intent.stateWitness,
      canonicalString intent.creatorSubject, Encoding.beInt64 intent.delegationGrantId,
      canonicalString intent.delegatorSubject, canonicalString intent.agentSubject,
      canonicalString intent.commandId, canonicalString intent.proofVersion] := by
  simp only [Reads, entries, List.forall_mem_cons] at hreads
  obtain ⟨iVersion, iTenant, iCompany, iType, iResource, iAction, iVendor, iCurrency, iScale,
    iAmount, iLine, iState, iWrite, iWitness, iCreator, iGrant, iDelegator, iAgent, iCommand,
    iProof, -⟩ := hreads
  simp only [bind_eq_ok, intentLayout, List.mapM_cons, List.mapM_nil, pure, Except.pure,
    encode_text iVersion, encode_text iTenant, encode_number iCompany, encode_text iType,
    encode_number iResource, encode_text iAction, encode_number iVendor, encode_text iCurrency,
    encode_number iScale, encode_number iAmount, encode_hex hline iLine, encode_text iState,
    encode_text iWrite, encode_hex hwitness iWitness, encode_text iCreator, encode_number iGrant,
    encode_text iDelegator, encode_text iAgent, encode_text iCommand, encode_text iProof,
    Except.ok.injEq, and_assoc, exists_and_left, exists_eq_left'] at h
  obtain ⟨-, hTenant, -, -, -, hState, -, hCreator, hDelegator, hAgent, -, -, rfl⟩ := h
  exact ⟨⟨hTenant, hState, hCreator, hDelegator, hAgent⟩, rfl⟩

theorem Checked.wellFormed (hspace : ∀ c, Text.isSpace c = true → space c = true)
    (h : Checked space intent) (hshort : Short intent) : intent.WellFormed where
  intentVersion := h.intentVersion
  tenantId := canonicalText_of_stripped hspace h.tenantId hshort.tenantId
  positive := by
    have hpositive := h.positive
    simp only [Int64.not_le, Int64.lt_iff_toInt_lt, Int64.toInt_zero]
    omega
  resourceType := h.resourceType
  action := h.action
  currencyCode := by
    refine ⟨?_, h.currencyCode.2⟩
    rw [Text.utf8ByteSize_of_ascii fun c hc ↦
      isUpper_ascii (List.all_eq_true.mp h.currencyCode.2 c hc), h.currencyCode.1]
  currencyScale := by
    have hscale := h.currencyScale
    simp only [gt_iff_lt, Int64.not_lt, Int64.le_iff_toInt_le]
    exact hscale
  amountMinor := by
    rw [Int64.not_lt, Int64.le_iff_toInt_le]
    exact h.amountMinor
  lineDigest := isDigest_of_digestPattern h.lineDigest
  recordState := canonicalText_of_stripped hspace h.recordState hshort.recordState
  recordWriteVersion :=
    validateCanonicalTimestamp_of_strptime h.recordWriteVersion.1 h.recordWriteVersion.2
  creatorSubject := canonicalSubject_of_subjectOf hspace h.creatorSubject hshort.creatorSubject
  delegatorSubject :=
    canonicalSubject_of_subjectOf hspace h.delegatorSubject hshort.delegatorSubject
  agentSubject := canonicalSubject_of_subjectOf hspace h.agentSubject hshort.agentSubject
  commandId := by
    obtain ⟨_, hpattern, hdecode, hlen, hencode⟩ := h.commandId
    exact validateCommandID_of_urlsafeB64decode hpattern hdecode hlen hencode
  proofVersion := h.proofVersion

theorem canonicalBusinessIntentBytes_of_ok
    (hspace : ∀ c, Text.isSpace c = true → space c = true)
    (h : canonicalBusinessIntentBytes prim space values = .ok bytes) :
    ∃ intent, Reads values intent ∧ intent.canonicalBytes prim = .ok bytes := by
  simp only [canonicalBusinessIntentBytes, bind_unit_eq_ok, bind_eq_ok (α := List UInt8),
    bind_eq_ok (α := Value), bind_eq_ok (α := List (List UInt8)), rejectIf_eq_ok, ne_eq, not_not] at h
  obtain ⟨hfields, _, hstate, _, iExpected, rfl, _, hchunks, hbytes⟩ := h
  obtain ⟨intent, hreads, hchecked⟩ := validateFields_eq_ok hfields
  have hline := isDigest_of_digestPattern hchecked.lineDigest
  have hwitness := isDigest_of_digestPattern hchecked.stateWitness
  obtain ⟨hshort, rfl⟩ := intentLayout_eq hreads hline hwitness hchunks
  obtain rfl := stateBytes_eq hreads hline hstate
  have iWitness : Dict.item values "state_witness" = .ok (.str intent.stateWitness) :=
    hreads ("state_witness", _) (List.mem_of_getElem? (i := 13) rfl)
  have heq : intent.stateWitness = Encoding.hexEncode
      (prim.sha256 (intent.stateWitnessPayload (digest intent.lineDigest))) :=
    Value.str.inj (Except.ok.inj (iWitness.symm.trans iExpected))
  have hvalid : intent.Valid prim := by
    refine ⟨hchecked.wellFormed hspace hshort, hwitness, ?_⟩
    rw [digest, heq, Encoding.hexDecode_hexEncode, Option.getD_some]
  refine ⟨intent, hreads, ?_⟩
  rw [CanonicalBusinessIntent.canonicalBytes, CanonicalBusinessIntent.validate_eq_ok.mpr hvalid,
    decodeCanonicalDigest_eq_ok.mpr ⟨hline, rfl⟩, decodeCanonicalDigest_eq_ok.mpr ⟨hwitness, rfl⟩,
    ← hbytes]
  simp only [List.flatten_cons, List.flatten_nil, List.append_nil, List.append_assoc, bind,
    Except.bind]

end Encoding

end PolicyEngine.Addon

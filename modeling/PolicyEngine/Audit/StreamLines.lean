import PolicyEngine.Audit.Stream

namespace PolicyEngine.Audit

open PolicyEngine.Go PolicyEngine.Go.Marshal PolicyEngine.Json

section Escaping

def streamEscape : Escape where
  write c :=
    if c = '"' then ['\\', '"']
    else if c = '\\' then ['\\', '\\']
    else if c = '\n' then ['\\', 'n']
    else if c = '\r' then ['\\', 'r']
    else if c = '\t' then ['\\', 't']
    else [c]
  covers c := decide (0x20 ≤ c.toNat) || c == '\n' || c == '\r' || c == '\t'
  read c hc := by
    refine ⟨.char c, .inl rfl, fun rest ↦ ?_⟩
    split_ifs with h₁ h₂ h₃ h₄ h₅
    · exact pieces_escaped (by rw [h₁]; rfl) rest
    · exact pieces_escaped (by rw [h₂]; rfl) rest
    · exact pieces_escaped (by rw [h₃]; rfl) rest
    · exact pieces_escaped (by rw [h₄]; rfl) rest
    · exact pieces_escaped (by rw [h₅]; rfl) rest
    · refine pieces_plain h₁ h₂ ?_ rest
      simpa [h₃, h₄, h₅] using hc
  raw c hc := by
    simp only [Bool.or_eq_false_iff, decide_eq_false_iff_not, beq_eq_false_iff_ne, not_le] at hc
    obtain ⟨⟨⟨hlt, hn⟩, hr⟩, ht⟩ := hc
    have hquote : c ≠ '"' := by rintro rfl; exact absurd hlt (by decide)
    have hslash : c ≠ '\\' := by rintro rfl; exact absurd hlt (by decide)
    simp only [hquote, hslash, hn, hr, ht, if_false, true_and]
    exact hlt
  line c := by
    split_ifs with _ _ h₃ _ _
    any_goals decide
    simpa using Ne.symm h₃

theorem escapeByte_of_notMem {b : UInt8} (h : b ∉ [34, 92, 10, 13, 9]) : escapeByte b = [b] := by
  simp only [List.mem_cons, List.not_mem_nil, or_false, not_or] at h
  simp only [escapeByte, h, if_false]

theorem streamEscape_write_of_notMem {c : Char} (h : c ∉ ['"', '\\', '\n', '\r', '\t']) :
    streamEscape.write c = [c] := by
  simp only [List.mem_cons, List.not_mem_nil, or_false, not_or] at h
  simp only [streamEscape, h, if_false]

theorem flatMap_escapeByte (c : Char) :
    (String.utf8EncodeChar c).flatMap escapeByte = Text.utf8 (streamEscape.write c) := by
  by_cases hascii : c.val ≤ 127
  · rw [String.utf8EncodeChar_eq_singleton (Char.utf8Size_eq_one_iff.mpr hascii),
      List.flatMap_singleton]
    by_cases hspecial : c ∈ ['"', '\\', '\n', '\r', '\t']
    · have hall : ∀ c ∈ ['"', '\\', '\n', '\r', '\t'],
          escapeByte c.val.toUInt8 = Text.utf8 (streamEscape.write c) := by
        simp only [List.forall_mem_cons, List.not_mem_nil, false_imp_iff, implies_true]
        decide
      exact hall c hspecial
    · have hbyte : c.val.toUInt8 ∉ [34, 92, 10, 13, 9] := by
        intro hmem
        apply hspecial
        have hlt : c.val.toNat ≤ 127 := hascii
        have hsame : c.val.toUInt8.toNat = c.val.toNat := by
          rw [UInt32.toNat_toUInt8]
          omega
        have hchar : c = Char.ofNat c.val.toUInt8.toNat := by
          rw [hsame]
          exact (Char.ofNat_toNat c).symm
        have hall : ∀ b ∈ ([34, 92, 10, 13, 9] : List UInt8),
            Char.ofNat b.toNat ∈ ['"', '\\', '\n', '\r', '\t'] := by simp
        rw [hchar]
        exact hall _ hmem
      rw [escapeByte_of_notMem hbyte, streamEscape_write_of_notMem hspecial, Text.utf8,
        List.flatMap_singleton, String.utf8EncodeChar_eq_singleton
          (Char.utf8Size_eq_one_iff.mpr hascii)]
  · have hbytes : ∀ b ∈ String.utf8EncodeChar c, escapeByte b = [b] := by
      intro b hb
      have hle := Text.le_of_mem_utf8EncodeChar hascii hb
      apply escapeByte_of_notMem
      intro hmem
      have hall : ∀ b ∈ ([34, 92, 10, 13, 9] : List UInt8), b.toNat < 128 := by simp
      exact absurd (hall b hmem) (by omega)
    have hchar : c ∉ ['"', '\\', '\n', '\r', '\t'] := by
      intro hmem
      have hall : ∀ c ∈ ['"', '\\', '\n', '\r', '\t'], c.val ≤ 127 := by simp
      exact hascii (hall c hmem)
    rw [List.flatMap_congr hbytes, streamEscape_write_of_notMem hchar, Text.utf8,
      List.flatMap_singleton, List.flatMap_singleton']

theorem escapeJSON_eq (dst : List UInt8) (value : String) :
    escapeJSON dst value = dst ++ Text.utf8 (streamEscape.writeAll value.toList) := by
  rw [escapeJSON, List.foldl_append_eq_append, ← List.flatMap_def, Text.bytes_eq_utf8, Text.utf8,
    Text.utf8, Escape.writeAll, List.flatMap_assoc, List.flatMap_assoc]
  exact congrArg (dst ++ ·) (List.flatMap_congr fun c _ ↦ flatMap_escapeByte c)

end Escaping

section Line

variable (order : RangeOrder) (ctxMap : Map String) (nowNano : Int64) (call : LogArguments)

def contextEntry (k : String) : Member := streamEscape.str k (redactedValue k (ctxMap.get "" k))

def contextMembers : List Member := (order.keys ctxMap).map (contextEntry ctxMap)

def headMembers : List Member :=
  [.num "ts" (Strconv.formatInt nowNano), .num "rev" (Strconv.formatNat call.revisionId.toNat),
    streamEscape.str "tenant_id" call.tenantId, streamEscape.str "subject" call.subject,
    streamEscape.str "action" call.action, streamEscape.str "resource" call.resource,
    streamEscape.str "decision" call.decision,
    streamEscape.str "matched_policy_id" call.matchedPolicyId]

def contextMember : List Member :=
  if ctxMap.keys = [] then [] else [streamEscape.obj "context" (contextMembers order ctxMap)]

def lineMembers : List Member := headMembers nowNano call ++ contextMember order call.ctxMap

def lineText : String :=
  String.ofList (streamEscape.object (lineMembers order nowNano call) ++ ['\n'])

theorem appendEntry_eq (buf : List UInt8) (first : Bool) (k : String) :
    appendEntry ctxMap (buf, first) k =
      (buf ++ Text.utf8 ((if first then [] else [',']) ++
        streamEscape.memberText (contextEntry ctxMap k)), false) := by
  have hvalue (dst : List UInt8) :
      (if shouldRedactAuditContextKey k then dst ++ Text.bytes redactedAuditValue
        else escapeJSON dst (ctxMap.get "" k)) =
      dst ++ Text.utf8 (streamEscape.writeAll (redactedValue k (ctxMap.get "" k)).toList) := by
    unfold redactedValue
    cases shouldRedactAuditContextKey k with
    | true =>
      have hmarker : Text.bytes redactedAuditValue =
          Text.utf8 (streamEscape.writeAll redactedAuditValue.toList) := by decide
      exact congrArg (dst ++ ·) hmarker
    | false => exact escapeJSON_eq dst _
  have hcomma : (if first then buf else buf ++ Text.bytes ",") =
      buf ++ Text.utf8 (if first then [] else [',']) := by
    cases first with
    | true => exact (List.append_nil buf).symm
    | false => rfl
  simp only [appendEntry, hvalue, hcomma]
  simp only [escapeJSON_eq, Text.bytes_eq_utf8, List.append_assoc, ← Text.utf8_append]
  have hentry : "\"".toList ++ (streamEscape.writeAll k.toList ++ ("\":\"".toList ++
      (streamEscape.writeAll (redactedValue k (ctxMap.get "" k)).toList ++ "\"".toList))) =
      streamEscape.memberText (contextEntry ctxMap k) := by
    simp [Escape.memberText, contextEntry, Escape.str, Escape.quoted]
  rw [hentry]

theorem foldl_appendEntry (buf : List UInt8) (ks : List String) :
    (ks.foldl (appendEntry ctxMap) (buf, false)).1 =
      buf ++ Text.utf8 ((ks.map fun k ↦ streamEscape.memberText (contextEntry ctxMap k)).flatMap
        (',' :: ·)) := by
  induction ks generalizing buf with
  | nil => exact (List.append_nil buf).symm
  | cons _ _ ih =>
    rw [List.foldl_cons, appendEntry_eq, ih, List.append_assoc, ← Text.utf8_append, List.map_cons,
      List.flatMap_cons]
    rfl

theorem appendContext_eq (buf : List UInt8) :
    appendContext order ctxMap buf = buf ++ Text.utf8
      (((contextMember order ctxMap).map streamEscape.memberText).flatMap (',' :: ·)) := by
  unfold appendContext contextMember
  split_ifs with hempty
  · exact (List.append_nil buf).symm
  · obtain ⟨k, ks, hkeys⟩ : ∃ k ks, order.keys ctxMap = k :: ks := by
      apply List.exists_cons_of_ne_nil
      intro hnil
      exact hempty (List.nil_perm.mp (hnil ▸ (order.perm ctxMap.keys)))
    have hloop (dst : List UInt8) : ((order.keys ctxMap).foldl (appendEntry ctxMap) (dst, true)).1 =
        dst ++ Text.utf8 (commas ((contextMembers order ctxMap).map streamEscape.memberText)) := by
      rw [contextMembers, List.map_map, hkeys, List.foldl_cons, appendEntry_eq, foldl_appendEntry,
        List.map_cons, commas_eq_flatMap, List.append_assoc, ← Text.utf8_append]
      rfl
    simp only [hloop, Text.bytes_eq_utf8, List.append_assoc, ← Text.utf8_append]
    refine congrArg (fun cs ↦ buf ++ Text.utf8 cs) ?_
    simp only [Escape.memberText, Escape.obj, Escape.object, List.map_cons, List.map_nil,
      List.flatMap_cons, List.flatMap_nil, List.append_nil]
    rfl

theorem toList_lineText : (lineText order nowNano call).toList =
    streamEscape.object (lineMembers order nowNano call) ++ ['\n'] :=
  String.toList_ofList

theorem streamLine_eq (hdecision : call.decision = "ALLOW" ∨ call.decision = "DENY") :
    streamLine order nowNano call = Text.bytes (lineText order nowNano call) := by
  have hplain : call.decision.toList = streamEscape.writeAll call.decision.toList := by
    obtain hallow | hdeny := hdecision
    · rw [hallow]
      decide
    · rw [hdeny]
      decide
  unfold streamLine
  simp only [escapeJSON_eq, appendContext_eq, Text.bytes_eq_utf8, List.append_assoc,
    ← Text.utf8_append]
  rw [hplain, toList_lineText]
  refine congrArg Text.utf8 ?_
  rw [Escape.object, lineMembers, headMembers, List.map_append, List.map_cons,
    List.cons_append, List.cons_append, List.cons_append, commas_eq_flatMap, List.flatMap_append]
  generalize ((contextMember order call.ctxMap).map _).flatMap _ = context
  simp only [Escape.memberText, Escape.str, Member.num, Escape.quoted, List.map_cons, List.map_nil,
    List.flatMap_cons, List.flatMap_nil, List.append_assoc, List.cons_append, List.nil_append]
  rfl

theorem reads_lineMembers (depth : ℕ) :
    ∀ m ∈ lineMembers order nowNano call, Reads (value (depth + 1)) m.text m.value := by
  have hnum {key literal : String} (h : IsInteger literal.toList) :
      Reads (value (depth + 1)) (Member.num key literal).text (Member.num key literal).value :=
    reads_literal h (depth + 1)
  have hstr (d : ℕ) (key s : String) :
      Reads (value d) (streamEscape.str key s).text (streamEscape.str key s).value :=
    streamEscape.reads_str s d
  rw [lineMembers, headMembers]
  simp only [List.forall_mem_append, List.forall_mem_cons]
  refine ⟨⟨hnum (isInteger_formatInt nowNano), hnum (isInteger_formatNat _), hstr _ _ _,
    hstr _ _ _, hstr _ _ _, hstr _ _ _, hstr _ _ _, hstr _ _ _, List.forall_mem_nil _⟩, ?_⟩
  intro _ hm
  unfold contextMember at hm
  split_ifs at hm
  · cases hm
  · rw [List.mem_singleton.mp hm]
    apply streamEscape.reads_object
    intro _ hentry
    obtain ⟨_, -, rfl⟩ := List.mem_map.mp hentry
    exact hstr depth _ _

theorem parse_lineText : parse (lineText order nowNano call) =
    streamEscape.objectValue (lineMembers order nowNano call) := by
  rw [parse, toList_lineText]
  exact document_of_reads (streamEscape.reads_object (reads_lineMembers order nowNano call 9998))
    (by decide) (ends_cons (by decide) [])

theorem bytes_lineText : ∃ body : List UInt8,
    Text.bytes (lineText order nowNano call) = body ++ [10] ∧ 10 ∉ body := by
  refine ⟨Text.utf8 (streamEscape.object (lineMembers order nowNano call)), ?_, ?_⟩
  · rw [Text.bytes_eq_utf8, toList_lineText, Text.utf8_append]
    rfl
  · intro hmem
    exact (streamEscape.reads_object (reads_lineMembers order nowNano call 0)).line
      (Text.newline_of_mem_utf8 hmem)

end Line

end PolicyEngine.Audit

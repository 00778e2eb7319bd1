import PolicyEngine.Audit.StreamLines

namespace PolicyEngine.Audit

open PolicyEngine.Go PolicyEngine.Go.Marshal PolicyEngine.Json

/-- Every control character of the text has a short escape in the stream. -/
def Escapable (s : String) : Prop :=
  ∀ c ∈ s.toList, c.toNat < 0x20 → c ∈ ['\n', '\r', '\t']

instance decidableEscapable (s : String) : Decidable (Escapable s) :=
  decidable_of_iff ((s.toList.all fun c ↦ decide (c.toNat < 0x20 → c ∈ ['\n', '\r', '\t'])) = true)
    (by simp only [List.all_eq_true, decide_eq_true_eq, Escapable])

theorem result_of_escapable {s : String} (h : Escapable s) : streamEscape.result s = some s := by
  have hall : s.toList.all streamEscape.covers = true := by
    rw [List.all_eq_true]
    intro c hc
    by_cases hcontrol : c.toNat < 0x20
    · have hshort : ∀ c ∈ ['\n', '\r', '\t'], streamEscape.covers c = true := by
        simp [streamEscape]
      exact hshort c (h c hc hcontrol)
    · have hle : 0x20 ≤ c.toNat := by omega
      simp [streamEscape, hle]
  exact if_pos hall

theorem result_of_not_escapable {s : String} (h : ¬ Escapable s) :
    streamEscape.result s = none := by
  refine if_neg ?_
  intro hall
  apply h
  intro c hc _
  have hcovers := List.all_eq_true.mp hall c hc
  simp only [streamEscape, Bool.or_eq_true, decide_eq_true_eq, beq_iff_eq] at hcovers
  obtain ((_ | hnewline) | hreturn) | htab := hcovers
  · omega
  · simp [hnewline]
  · simp [hreturn]
  · simp [htab]

variable (order : RangeOrder) (nowNano : Int64) (call : LogArguments)

def contextValue (k : String) : String := redactedValue k (call.ctxMap.get "" k)

def written : List String :=
  [call.tenantId, call.subject, call.action, call.resource, call.matchedPolicyId] ++
    call.ctxMap.keys ++ call.ctxMap.keys.map (contextValue call)

/-- The entry has the fields of the call; a redacted value has become the
marker. -/
structure Carries (entry : DecodedEntry) : Prop where
  timestamp : entry.timestamp = nowNano
  revisionId : entry.revisionId = call.revisionId
  tenantId : entry.tenantId = call.tenantId
  subject : entry.subject = call.subject
  action : entry.action = call.action
  resource : entry.resource = call.resource
  decision : entry.decision = call.decision
  matchedPolicyId : entry.matchedPolicyId = call.matchedPolicyId
  context : entry.context.map (fun m key ↦ m.lookup key) =
    (redactedAuditContext call.ctxMap).map (fun m key ↦ m.lookup key)

section Decoding

variable {order nowNano call} (time : TimeReader)

def headValues (nowNano : Int64) (call : LogArguments) : List (String × Value) :=
  [("ts", .num (Strconv.formatInt nowNano)), ("rev", .num (Strconv.formatNat call.revisionId.toNat)),
    ("tenant_id", .str call.tenantId), ("subject", .str call.subject), ("action", .str call.action),
    ("resource", .str call.resource), ("decision", .str call.decision),
    ("matched_policy_id", .str call.matchedPolicyId)]

def contextEntries (order : RangeOrder) (call : LogArguments) : List (String × String) :=
  (order.keys call.ctxMap).map fun k ↦ (k, contextValue call k)

def contextValues (order : RangeOrder) (call : LogArguments) : List (String × Value) :=
  if call.ctxMap.keys = [] then []
  else [("context", .obj ((contextEntries order call).map (Prod.map id .str)))]

theorem memberValue_str {key s : String} (hkey : Escapable key) (hs : Escapable s) :
    streamEscape.memberValue (streamEscape.str key s) = some (key, .str s) := by
  simp only [Escape.memberValue, Escape.str, result_of_escapable hkey, result_of_escapable hs]
  rfl

theorem mapM_headMembers (hdecision : call.decision = "ALLOW" ∨ call.decision = "DENY")
    (h : ∀ s ∈ written call, Escapable s) :
    (headMembers nowNano call).mapM streamEscape.memberValue = some (headValues nowNano call) := by
  have hnum {key literal : String} (hkey : Escapable key) :
      streamEscape.memberValue (.num key literal) = some (key, .num literal) := by
    simp only [Escape.memberValue, Member.num, result_of_escapable hkey]
    rfl
  have hplain : Escapable call.decision := by
    obtain hallow | hdeny := hdecision
    · rw [hallow]
      decide
    · rw [hdeny]
      decide
  simp only [written, List.forall_mem_append, List.forall_mem_cons] at h
  obtain ⟨⟨⟨htenant, hsubject, haction, hresource, hpolicy, -⟩, -⟩, -⟩ := h
  simp only [headMembers, List.mapM_cons, List.mapM_nil]
  rw [hnum (by decide), hnum (by decide), memberValue_str (by decide) htenant,
    memberValue_str (by decide) hsubject, memberValue_str (by decide) haction,
    memberValue_str (by decide) hresource, memberValue_str (by decide) hplain,
    memberValue_str (by decide) hpolicy]
  rfl

theorem mem_written_of_mem_keys {k : String} (hk : k ∈ order.keys call.ctxMap) :
    k ∈ written call ∧ contextValue call k ∈ written call := by
  have hkey : k ∈ call.ctxMap.keys := (order.perm _).mem_iff.mp hk
  simp only [written, List.mem_append]
  exact ⟨.inl (.inr hkey), .inr (List.mem_map_of_mem hkey)⟩

theorem mapM_contextMember (h : ∀ s ∈ written call, Escapable s) :
    (contextMember order call.ctxMap).mapM streamEscape.memberValue =
      some (contextValues order call) := by
  have hentries : (contextMembers order call.ctxMap).mapM streamEscape.memberValue =
      some ((contextEntries order call).map (Prod.map id .str)) := by
    rw [contextMembers, List.mapM_map, contextEntries, List.map_map]
    apply mapM_of_some
    intro _ hk
    obtain ⟨hkey, hvalue⟩ := mem_written_of_mem_keys hk
    exact memberValue_str (h _ hkey) (h _ hvalue)
  have hkey : streamEscape.result "context" = some "context" := rfl
  unfold contextMember contextValues
  split_ifs
  · rfl
  · rw [List.mapM_cons, Escape.memberValue, Escape.obj, Escape.objectValue, hentries, hkey]
    rfl

theorem objectValue_lineMembers (hdecision : call.decision = "ALLOW" ∨ call.decision = "DENY")
    (h : ∀ s ∈ written call, Escapable s) :
    streamEscape.objectValue (lineMembers order nowNano call) =
      some (.obj (headValues nowNano call ++ contextValues order call)) := by
  rw [Escape.objectValue, lineMembers, List.mapM_append, mapM_headMembers hdecision h,
    mapM_contextMember h]
  rfl

theorem objectValue_lineMembers_none {s : String} (hs : s ∈ written call) (h : ¬ Escapable s) :
    streamEscape.objectValue (lineMembers order nowNano call) = none := by
  have hresult := result_of_not_escapable h
  have hvalue (key : String) : (streamEscape.str key s).value = none := by
    rw [Escape.str, hresult, Option.map_none]
  have hhead {key : String} (hmem : streamEscape.str key s ∈ headMembers nowNano call) :
      streamEscape.objectValue (lineMembers order nowNano call) = none :=
    streamEscape.objectValue_of_none (List.mem_append_left _ hmem) (.inr (hvalue key))
  have hentry {k : String} (hk : k ∈ call.ctxMap.keys) (heq : s = k ∨ s = contextValue call k) :
      streamEscape.objectValue (lineMembers order nowNano call) = none := by
    have hmember : streamEscape.obj "context" (contextMembers order call.ctxMap) ∈
        lineMembers order nowNano call := by
      rw [lineMembers, contextMember, if_neg (List.ne_nil_of_mem hk)]
      exact List.mem_append_right _ List.mem_cons_self
    have hk' : k ∈ order.keys call.ctxMap := (order.perm _).mem_iff.mpr hk
    refine streamEscape.objectValue_of_none hmember (.inr ?_)
    refine streamEscape.objectValue_of_none (List.mem_map_of_mem hk') ?_
    obtain rfl | rfl := heq
    · exact .inl hresult
    · exact .inr (hvalue k)
  simp only [written, List.mem_append, List.mem_cons, List.not_mem_nil, or_false,
    List.mem_map] at hs
  obtain ((rfl | rfl | rfl | rfl | rfl) | hk) | ⟨_, hk, rfl⟩ := hs
  · exact hhead (List.mem_of_getElem? (i := 2) rfl)
  · exact hhead (List.mem_of_getElem? (i := 3) rfl)
  · exact hhead (List.mem_of_getElem? (i := 4) rfl)
  · exact hhead (List.mem_of_getElem? (i := 5) rfl)
  · exact hhead (List.mem_of_getElem? (i := 7) rfl)
  · exact hentry hk (.inl rfl)
  · exact hentry hk (.inr rfl)

theorem unmarshal_headValues :
    (headValues nowNano call).foldlM (setMember (logEntryFields time)) zeroEntry =
      some { zeroEntry with
        timestamp := nowNano
        revisionId := call.revisionId
        tenantId := call.tenantId
        subject := call.subject
        action := call.action
        resource := call.resource
        decision := call.decision
        matchedPolicyId := call.matchedPolicyId } := by
  have hts (e : DecodedEntry) (literal : String) :
      setMember (logEntryFields time) e ("ts", .num literal) =
        (Strconv.parseInt literal).map fun x ↦ { e with timestamp := x } := rfl
  have hrev (e : DecodedEntry) (literal : String) :
      setMember (logEntryFields time) e ("rev", .num literal) =
        (Strconv.parseUint literal).map fun x ↦ { e with revisionId := x } := rfl
  rw [headValues, List.foldlM_cons, hts, Strconv.parseInt_formatInt, Option.map_some,
    Option.bind_eq_bind, Option.bind_some, List.foldlM_cons, hrev, Strconv.parseUint_formatNat]
  rfl

def decodedContext (order : RangeOrder) (call : LogArguments) : Option (Map String) :=
  if call.ctxMap.keys = [] then none else some (Map.ofList (contextEntries order call))

theorem unmarshal_contextValues {entry : DecodedEntry} (hentry : entry.context = none) :
    (contextValues order call).foldlM (setMember (logEntryFields time)) entry =
      some { entry with context := decodedContext order call } := by
  have hset (v : Value) : setMember (logEntryFields time) entry ("context", v) =
      (unmarshalMap entry.context v).map fun x ↦ { entry with context := x } := rfl
  unfold contextValues decodedContext
  split_ifs
  · rw [← hentry]
    rfl
  · rw [List.foldlM_cons, hset, hentry, unmarshalMap_strings]
    rfl

theorem lineText_ne_empty : lineText order nowNano call ≠ "" := by
  intro hempty
  have hlist := toList_lineText order nowNano call
  rw [hempty] at hlist
  exact List.append_ne_nil_of_right_ne_nil _ (by decide) hlist.symm

theorem decode_of_escapable (hdecision : call.decision = "ALLOW" ∨ call.decision = "DENY")
    (h : ∀ s ∈ written call, Escapable s) :
    ∃ entry, decodeNDJSONLogEntry time (lineText order nowNano call) = .ok entry ∧
      Carries nowNano call entry := by
  have hcontext : (decodedContext order call).map (fun m key ↦ m.lookup key) =
      (redactedAuditContext call.ctxMap).map (fun m key ↦ m.lookup key) := by
    unfold decodedContext redactedAuditContext
    split_ifs
    · rfl
    · refine congrArg some (funext fun key ↦ ?_)
      exact (Map.lookup_ofList_map (order.perm _) "" redactedValue key).trans
        (Map.lookup_ofList_map (.refl _) "" redactedValue key).symm
  have hread : (parse (lineText order nowNano call)).bind
      (unmarshalStruct (logEntryFields time) zeroEntry) = some { zeroEntry with
        timestamp := nowNano
        revisionId := call.revisionId
        tenantId := call.tenantId
        subject := call.subject
        action := call.action
        resource := call.resource
        decision := call.decision
        matchedPolicyId := call.matchedPolicyId
        context := decodedContext order call } := by
    rw [parse_lineText, objectValue_lineMembers hdecision h, Option.bind_some, unmarshalStruct,
      List.foldlM_append, unmarshal_headValues, Option.bind_eq_bind, Option.bind_some,
      unmarshal_contextValues time rfl]
  rw [decodeNDJSONLogEntry, if_neg lineText_ne_empty, hread]
  dsimp only
  -- The evaluation time is the only field that depends on the sign.
  split_ifs
  · exact ⟨_, rfl, ⟨rfl, rfl, rfl, rfl, rfl, rfl, rfl, rfl, hcontext⟩⟩
  · exact ⟨_, rfl, ⟨rfl, rfl, rfl, rfl, rfl, rfl, rfl, rfl, hcontext⟩⟩

theorem decode_of_not_escapable {s : String} (hs : s ∈ written call) (h : ¬ Escapable s) :
    decodeNDJSONLogEntry time (lineText order nowNano call) = .error .unmarshal := by
  rw [decodeNDJSONLogEntry, if_neg lineText_ne_empty, parse_lineText,
    objectValue_lineMembers_none hs h, Option.bind_none]

end Decoding

/-- A call writes one line, and the line gives the fields of the call back
exactly when no text of it has a control character other than a line feed, a
carriage return or a tab. -/
theorem stream_line_round_trip_iff (time : TimeReader)
    (hdecision : call.decision = "ALLOW" ∨ call.decision = "DENY") :
    ∃ text : String, streamLine order nowNano call = Text.bytes text ∧
      (∃ body : List UInt8, Text.bytes text = body ++ [10] ∧ 10 ∉ body) ∧
      ((∃ entry, decodeNDJSONLogEntry time text = .ok entry ∧ Carries nowNano call entry) ↔
        ∀ s ∈ written call, Escapable s) := by
  refine ⟨lineText order nowNano call, streamLine_eq order nowNano call hdecision,
    bytes_lineText order nowNano call, ?_, decode_of_escapable time hdecision⟩
  intro hentry _ hs
  by_contra h
  obtain ⟨_, hok, -⟩ := hentry
  rw [decode_of_not_escapable time hs h] at hok
  cases hok

def quotedCall : LogArguments where
  revisionId := 10
  tenantId := "tenant\"bad"
  subject := "user:bob\nadmin"
  action := "WRITE"
  resource := "doc\\secret"
  decision := "DENY"
  matchedPolicyId := "P-DENY"
  ctxMap := Map.ofList [("details", "line2\ttab\\slash"), ("ip", "10.0.0.1")]

theorem stream_line_round_trip_quoted : ∃ text : String,
    streamLine .listed 1700000000 quotedCall = Text.bytes text ∧
      ∃ entry, decodeNDJSONLogEntry (fun _ ↦ none) text = .ok entry ∧
        Carries 1700000000 quotedCall entry := by
  obtain ⟨text, hline, -, hdecode⟩ :=
    stream_line_round_trip_iff .listed 1700000000 quotedCall (fun _ ↦ none) (.inr rfl)
  exact ⟨text, hline, hdecode.mpr (by decide)⟩

/-- A backspace in the subject makes the line unreadable. -/
theorem backspace_unreadable : ∃ text : String,
    streamLine .listed 1700000000 { quotedCall with subject := "user:bob\x08" } = Text.bytes text ∧
      decodeNDJSONLogEntry (fun _ ↦ none) text = .error .unmarshal :=
  ⟨_, streamLine_eq _ _ _ (.inr rfl),
    decode_of_not_escapable _ (List.mem_of_getElem? (i := 1) rfl) (by decide)⟩

end PolicyEngine.Audit

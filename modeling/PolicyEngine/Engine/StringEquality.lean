import PolicyEngine.Engine.ClockParsers
import PolicyEngine.Engine.Conditions

namespace PolicyEngine.Engine

open PolicyEngine.Go PolicyEngine.Parser

section Literals

variable {s : String}

theorem tryParseIPOrCIDR_eq_ip_iff {ip : Net.IP} :
    tryParseIPOrCIDR s = some (.ip ip) ↔ Net.parseIP s = some ip := by
  unfold tryParseIPOrCIDR
  cases Net.parseIP s with
  | some => simp
  | none => simp

theorem tryParseIPOrCIDR_eq_cidr_iff {net : Net.IPNet} :
    tryParseIPOrCIDR s = some (.cidr net) ↔
      Net.parseIP s = none ∧ ∃ ip, Net.parseCIDR s = some (ip, net) := by
  unfold tryParseIPOrCIDR
  cases Net.parseIP s with
  | some => simp
  | none => simp

theorem tryParseIPOrCIDR_eq_none_iff :
    tryParseIPOrCIDR s = none ↔ Net.parseIP s = none ∧ Net.parseCIDR s = none := by
  unfold tryParseIPOrCIDR
  cases Net.parseIP s with
  | some => simp
  | none => simp

end Literals

variable {letter : Char → Bool}

theorem reflexive_iff (f : Ident letter) (q : Quoted) (ctx : EvalContext)
    (hctx : ctx.context.lookup f.text = some q.text) :
    (outcome letter (comparison .context f.text .eq q.text) ctx = .ok (.ok (.bool true)) ∧
      outcome letter (comparison .context f.text .ne q.text) ctx = .ok (.ok (.bool false))) ↔
        ∃ v, parseStringValue q.text (optimizeValue (.string q.text)).valType = .ok v ∧
          compareEq v (optimizeValue (.string q.text)) = true := by
  have hread (type : ValueType) :
      ctx.getAttribute .context f.text type = parseStringValue q.text type := by
    simp [EvalContext.getAttribute, EvalContext.attributeText, hctx]
  rw [outcome_comparison _ _ _ (by decide) (by decide),
    outcome_comparison _ _ _ (by decide) (by decide), hread, hread]
  have htype (op : BinaryOp) (hop : op ≠ .in) (v : Value) :
      expectedType op (.valueNode v) = v.valType := by simp [expectedType, hop]
  rw [htype _ (by decide), htype _ (by decide)]
  generalize optimizeValue (.string q.text) = literal
  cases hvalue : parseStringValue q.text literal.valType with
  | error => simp [evaluateComparison]
  | ok => simp [evaluateComparison, compareValues, Except.map]

/-- An attribute equals its own text unless the literal is taken for something
that is not read back: a network, an IPv6 address, or a time in a form that only
the compiler accepts. -/
theorem string_equality_reflexive_iff (f : Ident letter) (q : Quoted) (ctx : EvalContext)
    (hctx : ctx.context.lookup f.text = some q.text) :
    (outcome letter (comparison .context f.text .eq q.text) ctx = .ok (.ok (.bool true)) ∧
      outcome letter (comparison .context f.text .ne q.text) ctx = .ok (.ok (.bool false))) ↔
        (Net.parseIP q.text).isSome = true ∧ ':' ∉ q.text.toList ∨
        Net.parseIP q.text = none ∧ Net.parseCIDR q.text = none ∧
          ((Time.parseRFC3339 q.text).isSome = true ∨ FixedWidth q.text ∨
            ¬ ReadsHourMinute q.text) := by
  rw [reflexive_iff f q ctx hctx, ← tryParseDateTimeOrTime_eq_iff]
  obtain ⟨net, hliteral, h⟩ | ⟨ip, hliteral, h⟩ | ⟨hliteral, dt, htime, h⟩ |
    ⟨hliteral, htime, h⟩ := optimizeValue_string q.text
  · obtain ⟨hip, _, hcidr⟩ := tryParseIPOrCIDR_eq_cidr_iff.mp hliteral
    rw [h, hip, hcidr]
    simp [parseStringValue, Value.valType, hcidr, compareEq]
  · have hip := tryParseIPOrCIDR_eq_ip_iff.mp hliteral
    rw [h, hip, ← parseIPv4FastInto_eq_some_iff hip]
    cases hfast : parseIPv4FastInto q.text with
    | none => simp [parseStringValue, Value.valType, hfast]
    | some => simp [parseStringValue, Value.valType, hfast, compareEq]
  · obtain ⟨hip, hcidr⟩ := tryParseIPOrCIDR_eq_none_iff.mp hliteral
    rw [h, hip, hcidr, htime]
    cases hrun : tryParseDateTimeOrTime q.text with
    | none => simp [parseStringValue, Value.valType, hrun]
    | some => simpa [parseStringValue, Value.valType, hrun, compareEq] using eq_comm
  · obtain ⟨hip, hcidr⟩ := tryParseIPOrCIDR_eq_none_iff.mp hliteral
    rw [h, hip, hcidr, tryParseDateTimeOrTime_eq_iff]
    have hrfc : Time.parseRFC3339 q.text = none := by
      cases hrfc : Time.parseRFC3339 q.text with
      | none => rfl
      | some =>
        rw [Parser.tryParseDateTimeOrTime, hrfc] at htime
        cases htime
    have hreads := (compiled_eq_none_iff hrfc).mp htime
    simp [parseStringValue, Value.valType, compareEq, hreads]

def addressField : Ident fun _ ↦ false where
  text := "address"
  identifier := ⟨'a', "ddress".toList, rfl, by decide, List.all_eq_true.mp (by decide)⟩
  plain := by decide

def oneAttribute (field value : String) : EvalContext where
  subject := "user:alice"
  action := "read"
  resource := "document:1"
  context := (∅ : Map String).insert field value
  roleDag := none

theorem string_equality_reflexive_ipv4 :
    outcome (fun _ ↦ false) "context.address == \"10.0.0.1\"" (oneAttribute "address" "10.0.0.1") =
      .ok (.ok (.bool true)) ∧
    outcome (fun _ ↦ false) "context.address != \"10.0.0.1\"" (oneAttribute "address" "10.0.0.1") =
      .ok (.ok (.bool false)) := by
  have h := string_equality_reflexive_iff addressField ⟨"10.0.0.1", by decide, by decide⟩
    (oneAttribute "address" "10.0.0.1") rfl
  exact h.mpr (.inl ⟨by rfl, by decide⟩)

theorem string_equality_not_reflexive :
    outcome (fun _ ↦ false) "context.address == \"::1\"" (oneAttribute "address" "::1") =
      .ok (.ok (.bool false)) ∧
    outcome (fun _ ↦ false) "context.address == \"10.0.0.0/8\"" (oneAttribute "address" "10.0.0.0/8") =
      .ok (.ok (.bool false)) ∧
    outcome (fun _ ↦ false) "context.address == \"9:30\"" (oneAttribute "address" "9:30") =
      .ok (.ok (.bool false)) := by
  have h (q : Quoted) := outcome_comparison .context addressField q
    (by decide : BinaryOp.eq ≠ .and) (by decide) (oneAttribute "address" q.text)
  refine ⟨?_, ?_, ?_⟩
  · exact (h ⟨"::1", by decide, by decide⟩).trans rfl
  · exact (h ⟨"10.0.0.0/8", by decide, by decide⟩).trans rfl
  · exact (h ⟨"9:30", by decide, by decide⟩).trans rfl

end PolicyEngine.Engine

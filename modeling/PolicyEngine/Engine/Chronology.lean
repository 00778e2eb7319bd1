import PolicyEngine.Engine.StringEquality

namespace PolicyEngine.Engine

open PolicyEngine.Go PolicyEngine.Parser

def stampChars : List Char := ['-', 'T', ':', '.', ',', 'Z', '+']

def ReadsStamp (cs rest : List Char) : Prop :=
  ∃ w, cs = w ++ rest ∧ ∀ c ∈ w, c.isDigit = true ∨ c ∈ stampChars

section Stamp

variable {cs rest rest' : List Char} {n : ℕ}

theorem ReadsStamp.trans (h : ReadsStamp cs rest) (h' : ReadsStamp rest rest') :
    ReadsStamp cs rest' := by
  obtain ⟨w, rfl, hw⟩ := h
  obtain ⟨w', rfl, hw'⟩ := h'
  exact ⟨w ++ w', (List.append_assoc _ _ _).symm, List.forall_mem_append.mpr ⟨hw, hw'⟩⟩

theorem readsStamp_cons {c : Char} (h : c.isDigit = true ∨ c ∈ stampChars) :
    ReadsStamp (c :: rest) rest := ⟨[c], rfl, List.forall_mem_singleton.mpr h⟩

theorem isDigit_of_digit {c : Char} (h : Time.digit c = some n) : c.isDigit = true := by
  unfold Time.digit at h
  split_ifs at h with hc
  exact hc

theorem year_eq_some (h : Time.year cs = some (n, rest)) :
    ∃ a b c d, cs = a :: b :: c :: d :: rest ∧ a.isDigit = true ∧ b.isDigit = true ∧
      c.isDigit = true ∧ d.isDigit = true := by
  unfold Time.year at h
  split at h
  · next a b c d s =>
    simp only [Option.bind_eq_bind, Option.bind_eq_some_iff] at h
    obtain ⟨_, hw, _, hx, _, hy, _, hz, h⟩ := h
    cases h
    exact ⟨a, b, c, d, rfl, isDigit_of_digit hw, isDigit_of_digit hx, isDigit_of_digit hy,
      isDigit_of_digit hz⟩
  · cases h

theorem readsStamp_year (h : Time.year cs = some (n, rest)) : ReadsStamp cs rest := by
  obtain ⟨_, _, _, _, rfl, ha, hb, hc, hd⟩ := year_eq_some h
  exact (readsStamp_cons (.inl ha)).trans ((readsStamp_cons (.inl hb)).trans
    ((readsStamp_cons (.inl hc)).trans (readsStamp_cons (.inl hd))))

theorem readsStamp_getnum {fixed : Bool} (h : Time.getnum fixed cs = some (n, rest)) :
    ReadsStamp cs rest := by
  unfold Time.getnum at h
  split at h
  · next a b s =>
    split at h
    · next hx hy =>
      cases h
      exact (readsStamp_cons (.inl (isDigit_of_digit hx))).trans
        (readsStamp_cons (.inl (isDigit_of_digit hy)))
    · next hx _ =>
      split_ifs at h
      cases h
      exact readsStamp_cons (.inl (isDigit_of_digit hx))
    · cases h
  · next a =>
    split_ifs at h
    obtain ⟨_, hx, heq⟩ := Option.map_eq_some_iff.mp h
    cases heq
    exact readsStamp_cons (.inl (isDigit_of_digit hx))
  · cases h

theorem skip_eq_some {c : Char} (h : Time.skip c cs = some rest) : cs = c :: rest := by
  unfold Time.skip at h
  split at h
  · split_ifs at h with heq
    cases h
    rw [heq]
  · cases h

theorem readsStamp_skip {c : Char} (hc : c ∈ stampChars) (h : Time.skip c cs = some rest) :
    ReadsStamp cs rest := by
  rw [skip_eq_some h]
  exact readsStamp_cons (.inr hc)

theorem readsStamp_fraction (h : Time.fraction cs = (n, rest)) : ReadsStamp cs rest := by
  unfold Time.fraction at h
  split at h
  · next p d s =>
    split_ifs at h with hp
    · cases h
      have hpoint : p ∈ stampChars := by
        obtain rfl | rfl := hp.1 <;> decide
      refine (readsStamp_cons (.inr hpoint)).trans ⟨(d :: s).takeWhile Char.isDigit, ?_, ?_⟩
      · exact List.takeWhile_append_dropWhile.symm
      · exact fun c hc ↦ .inl (List.mem_takeWhile_imp hc)
    · cases h
      exact ⟨[], rfl, List.forall_mem_nil _⟩
  · cases h
    exact ⟨[], rfl, List.forall_mem_nil _⟩

theorem readsStamp_zone {offset : ℤ} (h : Time.zone cs = some (offset, rest)) :
    ReadsStamp cs rest := by
  unfold Time.zone at h
  split at h
  · cases h
    exact readsStamp_cons (.inr (by decide))
  · next sign s =>
    simp only [Option.bind_eq_bind, Option.bind_eq_some_iff] at h
    obtain ⟨⟨_, _⟩, hhour, _, hcolon, ⟨_, _⟩, hmin, h⟩ := h
    have hrest := (readsStamp_getnum hhour).trans
      ((readsStamp_skip (by decide) hcolon).trans (readsStamp_getnum hmin))
    dsimp only at h
    split_ifs at h with _ hplus hminus
    · cases h
      rw [hplus]
      exact (readsStamp_cons (.inr (by decide))).trans hrest
    · cases h
      rw [hminus]
      exact (readsStamp_cons (.inr (by decide))).trans hrest
  · cases h

theorem parseRFC3339_eq_some {s : String} {t : ℤ} (h : Time.parseRFC3339 s = some t) :
    (∃ a b c d rest, s.toList = a :: b :: c :: d :: '-' :: rest ∧ a.isDigit = true ∧
      b.isDigit = true ∧ c.isDigit = true ∧ d.isDigit = true) ∧
      ∀ c ∈ s.toList, c.isDigit = true ∨ c ∈ stampChars := by
  unfold Time.parseRFC3339 at h
  obtain ⟨⟨_, s₁⟩, hyear, h⟩ := Option.bind_eq_some_iff.mp h
  obtain ⟨s₂, hdash, h⟩ := Option.bind_eq_some_iff.mp h
  obtain ⟨⟨_, _⟩, hmonth, h⟩ := Option.bind_eq_some_iff.mp h
  obtain ⟨_, hdash', h⟩ := Option.bind_eq_some_iff.mp h
  obtain ⟨⟨_, _⟩, hday, h⟩ := Option.bind_eq_some_iff.mp h
  obtain ⟨_, hT, h⟩ := Option.bind_eq_some_iff.mp h
  obtain ⟨⟨_, _⟩, hhour, h⟩ := Option.bind_eq_some_iff.mp h
  obtain ⟨_, hcolon, h⟩ := Option.bind_eq_some_iff.mp h
  obtain ⟨⟨_, _⟩, hmin, h⟩ := Option.bind_eq_some_iff.mp h
  obtain ⟨_, hcolon', h⟩ := Option.bind_eq_some_iff.mp h
  obtain ⟨⟨_, s₁₁⟩, hsec, h⟩ := Option.bind_eq_some_iff.mp h
  dsimp only at h
  obtain ⟨nsec, s₁₁', hfraction⟩ : ∃ nsec s', Time.fraction s₁₁ = (nsec, s') := ⟨_, _, rfl⟩
  rw [hfraction] at h
  obtain ⟨⟨_, s₁₂⟩, hzone, h⟩ := Option.bind_eq_some_iff.mp h
  dsimp only at h
  split_ifs at h with hend
  obtain ⟨a, b, c, d, hs, ha, hb, hc, hd⟩ := year_eq_some hyear
  have hread : ReadsStamp s.toList s₁₂ :=
    (readsStamp_year hyear).trans <| (readsStamp_skip (by decide) hdash).trans <|
    (readsStamp_getnum hmonth).trans <| (readsStamp_skip (by decide) hdash').trans <|
    (readsStamp_getnum hday).trans <| (readsStamp_skip (by decide) hT).trans <|
    (readsStamp_getnum hhour).trans <| (readsStamp_skip (by decide) hcolon).trans <|
    (readsStamp_getnum hmin).trans <| (readsStamp_skip (by decide) hcolon').trans <|
    (readsStamp_getnum hsec).trans <| (readsStamp_fraction hfraction).trans (readsStamp_zone hzone)
  constructor
  · have hs₁ : s₁ = '-' :: s₂ := skip_eq_some hdash
    rw [hs₁] at hs
    exact ⟨a, b, c, d, s₂, hs, ha, hb, hc, hd⟩
  · have hs₁₂ : s₁₂ = [] := hend.1
    obtain ⟨_, hw, _⟩ := hread
    rw [hs₁₂, List.append_nil] at hw
    rwa [hw]

end Stamp

section Literal

variable {s : String} {t : ℤ}

theorem notMem_of_timestamp (h : Time.parseRFC3339 s = some t) {c : Char}
    (hdigit : c.isDigit = false) (hc : c ∉ stampChars) : c ∉ s.toList := by
  intro hmem
  obtain hc' | hc' := (parseRFC3339_eq_some h).2 c hmem
  · rw [hdigit] at hc'
    cases hc'
  · exact hc hc'

def quotedTimestamp (h : Time.parseRFC3339 s = some t) : Quoted where
  text := s
  noQuote := notMem_of_timestamp h (by decide) (by decide)
  noNul := notMem_of_timestamp h (by decide) (by decide)

theorem exists_hexDigit {c : Char} (h : c.isDigit = true) : ∃ d, Encoding.hexDigit c = some d := by
  unfold Encoding.hexDigit
  rw [Char.isDigit, Bool.and_eq_true, decide_eq_true_iff, decide_eq_true_iff] at h
  exact ⟨_, if_pos h⟩

theorem hexRun_of_hyphen {a b c d : Char} (rest : List Char) (ha : a.isDigit = true)
    (hb : b.isDigit = true) (hc : c.isDigit = true) (hd : d.isDigit = true) :
    ∃ acc, Net.hexRun (a :: b :: c :: d :: '-' :: rest) 0 0 = (4, acc, '-' :: rest) := by
  obtain ⟨_, hw⟩ := exists_hexDigit ha
  obtain ⟨_, hx⟩ := exists_hexDigit hb
  obtain ⟨_, hy⟩ := exists_hexDigit hc
  obtain ⟨_, hz⟩ := exists_hexDigit hd
  have hhyphen : Encoding.hexDigit '-' = none := by decide
  simp [Net.hexRun, hw, hx, hy, hz, hhyphen]

theorem parseIPv6_of_hyphen {a b c d : Char} {rest : List Char} (ha : a.isDigit = true)
    (hb : b.isDigit = true) (hc : c.isDigit = true) (hd : d.isDigit = true) :
    Net.parseIPv6 (a :: b :: c :: d :: '-' :: rest) = none := by
  have hcolon : a ≠ ':' := by
    rintro rfl
    exact absurd ha (by decide)
  obtain ⟨_, hrun⟩ := hexRun_of_hyphen rest ha hb hc hd
  have hgroups : Net.parseGroups 8 ⟨[], none⟩ (a :: b :: c :: d :: '-' :: rest) = none := by
    rw [Net.parseGroups, hrun]
    simp
  unfold Net.parseIPv6
  simp [hcolon, hgroups]

theorem parseAddr_of_hyphen {a b c d : Char} {rest : List Char} (ha : a.isDigit = true)
    (hb : b.isDigit = true) (hc : c.isDigit = true) (hd : d.isDigit = true) :
    Net.parseAddr (a :: b :: c :: d :: '-' :: rest) = none := by
  have hmem : '-' ∈ a :: b :: c :: d :: '-' :: rest := by simp
  unfold Net.parseAddr
  split
  · rw [parseIPv4Fields_eq_none hmem (by decide) (by decide)]
    rfl
  · rw [parseIPv6_of_hyphen ha hb hc hd]
    rfl
  · rfl

theorem tryParseIPOrCIDR_of_timestamp (h : Time.parseRFC3339 s = some t) :
    tryParseIPOrCIDR s = none := by
  obtain ⟨⟨_, _, _, _, _, hs, ha, hb, hc, hd⟩, -⟩ := parseRFC3339_eq_some h
  rw [tryParseIPOrCIDR_eq_none_iff]
  constructor
  · rw [Net.parseIP, hs, parseAddr_of_hyphen ha hb hc hd]
    rfl
  · rw [Net.parseCIDR, List.splitOn_eq_singleton (notMem_of_timestamp h (by decide) (by decide))]

theorem optimizeValue_of_timestamp (h : Time.parseRFC3339 s = some t) :
    optimizeValue (.string s) = .dateTime (Time.unixNano t) := by
  have htime : Parser.tryParseDateTimeOrTime s = some (Time.unixNano t) := by
    rw [Parser.tryParseDateTimeOrTime, h]
  rw [optimizeValue, tryParseIPOrCIDR_of_timestamp h, htime]

theorem parseStringValue_of_timestamp (h : Time.parseRFC3339 s = some t) :
    parseStringValue s .dateTime = .ok (.dateTime (Time.unixNano t)) := by
  have hclock : clock (Text.trimSuffix s "Z").toList = none := by
    by_contra hne
    obtain ⟨_, hr⟩ := Option.ne_none_iff_exists'.mp hne
    rw [(compiled_of_clock hr).1] at h
    cases h
  rw [parseStringValue, tryParseDateTimeOrTime, parseFastTime_eq, hclock, h]
  rfl

end Literal

variable {letter : Char → Bool}

def dateField (letter : Char → Bool) : Ident letter where
  text := "date"
  identifier := ⟨'d', ['a', 't', 'e'], rfl, rfl, by simp [Lexer.isLetter]⟩
  plain := by decide

def Stands : BinaryOp → ℤ → ℤ → Prop
  | .lt, a, b => a < b
  | .le, a, b => a ≤ b
  | .gt, a, b => b < a
  | .ge, a, b => b ≤ a
  | _, a, b => a = b

def timeOps : List BinaryOp := [.lt, .le, .gt, .ge, .eq]

/-- Which of the spans of `2 ^ 64` nanoseconds an instant is in; the one around
the epoch reaches from 1677 to 2262. -/
def era (t : ℤ) : ℤ := (t + 2 ^ 63) / 2 ^ 64

theorem toInt_unixNano_eq (t : ℤ) : (Time.unixNano t).toInt = t - 2 ^ 64 * era t := by
  rw [Time.toInt_unixNano, era, Int.bmod_def]
  omega

theorem compareInt_eq_gt {l r : Int64} : compareInt l r = .gt ↔ r.toInt < l.toInt := by
  unfold compareInt
  split_ifs with hgt hlt
  · simpa using Int64.lt_iff_toInt_lt.mp hgt
  · simpa using (Int64.lt_iff_toInt_lt.mp hlt).le
  · simpa using not_lt.mp (mt Int64.lt_iff_toInt_lt.mpr hgt)

theorem compareInt_eq_lt {l r : Int64} : compareInt l r = .lt ↔ l.toInt < r.toInt := by
  unfold compareInt
  split_ifs with hgt hlt
  · simpa using (Int64.lt_iff_toInt_lt.mp hgt).le
  · simpa using Int64.lt_iff_toInt_lt.mp hlt
  · simpa using not_lt.mp (mt Int64.lt_iff_toInt_lt.mpr hlt)

theorem compareValues_dateTime (roleDag : Option RoleDag) {op : BinaryOp} (hop : op ∈ timeOps)
    (l r : Int64) : compareValues roleDag op (.dateTime l) (.dateTime r) = .ok true ↔
      Stands op l.toInt r.toInt := by
  simp only [timeOps, List.mem_cons, List.not_mem_nil, or_false] at hop
  obtain rfl | rfl | rfl | rfl | rfl := hop
  · simp [compareValues, compareRelational, compareOrder, Stands, compareInt_eq_lt]
  · simp [compareValues, compareRelational, compareOrder, Stands, compareInt_eq_gt]
  · simp [compareValues, compareRelational, compareOrder, Stands, compareInt_eq_gt]
  · simp [compareValues, compareRelational, compareOrder, Stands, compareInt_eq_lt]
  · simp [compareValues, compareEq, Stands, Int64.toInt_inj]

theorem outcome_timestamps {a b : String} {ta tb : ℤ} (ha : Time.parseRFC3339 a = some ta)
    (hb : Time.parseRFC3339 b = some tb) {ctx : EvalContext}
    (hctx : ctx.context.lookup "date" = some a) {op : BinaryOp} (hop : op ∈ timeOps) :
    outcome letter (comparison .context "date" op b) ctx = .ok (.ok (.bool true)) ↔
      Stands op (Time.unixNano ta).toInt (Time.unixNano tb).toInt := by
  have hand : op ≠ .and := by
    rintro rfl
    exact absurd hop (by decide)
  have hor : op ≠ .or := by
    rintro rfl
    exact absurd hop (by decide)
  have hliteral : optimizeValue (.string (quotedTimestamp hb).text) =
      .dateTime (Time.unixNano tb) := optimizeValue_of_timestamp hb
  have hread : ctx.getAttribute .context (dateField letter).text .dateTime =
      .ok (.dateTime (Time.unixNano ta)) := by
    have hctx' : ctx.context.lookup (dateField letter).text = some a := hctx
    rw [← parseStringValue_of_timestamp ha]
    simp [EvalContext.getAttribute, EvalContext.attributeText, hctx']
  have htype : expectedType op (.valueNode (.dateTime (Time.unixNano tb))) = .dateTime := by
    simp [expectedType, Value.valType]
  have houtcome :=
    outcome_comparison .context (dateField letter) (quotedTimestamp hb) hand hor ctx
  rw [hliteral, htype, hread] at houtcome
  rw [← compareValues_dateTime ctx.roleDag hop]
  change outcome letter (comparison .context (dateField letter).text op (quotedTimestamp hb).text)
    ctx = _ ↔ _
  rw [houtcome, evaluateComparison]
  cases compareValues ctx.roleDag op (.dateTime (Time.unixNano ta))
    (.dateTime (Time.unixNano tb)) with
  | error => simp [Except.map]
  | ok => simp [Except.map]

/-- The five comparisons follow chronology when both instants are in one span, or
when the spans and what is left in them are in the same order. -/
theorem timestamp_comparisons_iff {a b : String} {ta tb : ℤ} (ha : Time.parseRFC3339 a = some ta)
    (hb : Time.parseRFC3339 b = some tb) {ctx : EvalContext}
    (hctx : ctx.context.lookup "date" = some a) :
    (∀ op ∈ timeOps,
      (outcome letter (comparison .context "date" op b) ctx = .ok (.ok (.bool true)) ↔
        Stands op ta tb)) ↔
      era ta = era tb ∨
      era ta < era tb ∧ (Time.unixNano ta).toInt < (Time.unixNano tb).toInt ∨
      era tb < era ta ∧ (Time.unixNano tb).toInt < (Time.unixNano ta).toInt := by
  have hreduce : (∀ op ∈ timeOps,
      (outcome letter (comparison .context "date" op b) ctx = .ok (.ok (.bool true)) ↔
        Stands op ta tb)) ↔ ∀ op ∈ timeOps,
      (Stands op (Time.unixNano ta).toInt (Time.unixNano tb).toInt ↔ Stands op ta tb) :=
    forall₂_congr fun op hop ↦ by rw [outcome_timestamps ha hb hctx hop]
  have hla := Int64.le_toInt (Time.unixNano ta)
  have hua := Int64.toInt_lt (Time.unixNano ta)
  have hlb := Int64.le_toInt (Time.unixNano tb)
  have hub := Int64.toInt_lt (Time.unixNano tb)
  have hta := toInt_unixNano_eq ta
  have htb := toInt_unixNano_eq tb
  rw [hreduce]
  simp only [timeOps, List.forall_mem_cons, Stands]
  generalize (Time.unixNano ta).toInt = ra at *
  generalize (Time.unixNano tb).toInt = rb at *
  generalize era ta = ea at *
  generalize era tb = eb at *
  constructor
  · rintro ⟨_, -, _, -⟩
    omega
  · intro _
    refine ⟨by omega, by omega, by omega, by omega, by omega, List.forall_mem_nil _⟩

theorem timestamp_comparisons_2024 :
    outcome (fun _ ↦ false) (comparison .context "date" .lt "2024-06-01T00:00:00+02:00")
      (oneAttribute "date" "2024-01-01T00:00:00Z") = .ok (.ok (.bool true)) := by
  have ha : Time.parseRFC3339 "2024-01-01T00:00:00Z" = some 1704067200000000000 := by
    rfl
  have hb : Time.parseRFC3339 "2024-06-01T00:00:00+02:00" = some 1717192800000000000 := by
    decide
  have hctx : (oneAttribute "date" "2024-01-01T00:00:00Z").context.lookup "date" =
      some "2024-01-01T00:00:00Z" := rfl
  have hless : Stands .lt 1704067200000000000 1717192800000000000 :=
    (by decide : (1704067200000000000 : ℤ) < 1717192800000000000)
  exact ((timestamp_comparisons_iff ha hb hctx).mpr (.inl rfl) .lt (by decide)).mpr hless

theorem timestamp_comparisons_2300 :
    outcome (fun _ ↦ false) "context.date < \"2024-01-01T00:00:00Z\""
      (oneAttribute "date" "2300-01-01T00:00:00Z") = .ok (.ok (.bool true)) ∧
    Time.parseRFC3339 "2024-01-01T00:00:00Z" = some 1704067200000000000 ∧
    Time.parseRFC3339 "2300-01-01T00:00:00Z" = some 10413792000000000000 := by
  have ha : Time.parseRFC3339 "2300-01-01T00:00:00Z" = some 10413792000000000000 := by
    decide
  have hb : Time.parseRFC3339 "2024-01-01T00:00:00Z" = some 1704067200000000000 := by
    decide
  have hless : outcome (fun _ ↦ false) (comparison .context "date" .lt "2024-01-01T00:00:00Z")
      (oneAttribute "date" "2300-01-01T00:00:00Z") = .ok (.ok (.bool true)) := by
    rw [outcome_timestamps ha hb rfl (by decide)]
    exact (by decide : (Time.unixNano 10413792000000000000).toInt <
      (Time.unixNano 1704067200000000000).toInt)
  exact ⟨hless, hb, ha⟩

end PolicyEngine.Engine

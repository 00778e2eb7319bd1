import PolicyEngine.Engine.AddressParsers
import PolicyEngine.Parser.Compiler

namespace PolicyEngine.Engine

open PolicyEngine.Decimal PolicyEngine.Go

def twoDigits (a b : Char) : Option ℕ := do
  let x ← Time.digit a
  let y ← Time.digit b
  return x * 10 + y

/-- The fixed-width forms `HH:MM:SS` and `HH:MM`. -/
def clock : List Char → Option (ℕ × ℕ × ℕ)
  | [h0, h1, c1, m0, m1, c2, s0, s1] =>
    if c1 ≠ ':' ∨ c2 ≠ ':' then none
    else do
      let hour ← twoDigits h0 h1
      let min ← twoDigits m0 m1
      let sec ← twoDigits s0 s1
      if hour < 24 ∧ min < 60 ∧ sec < 60 then some (hour, min, sec) else none
  | [h0, h1, c1, m0, m1] =>
    if c1 ≠ ':' then none
    else do
      let hour ← twoDigits h0 h1
      let min ← twoDigits m0 m1
      if hour < 24 ∧ min < 60 then some (hour, min, 0) else none
  | _ => none

def seconds (t : ℕ × ℕ × ℕ) : Int64 := Int64.ofNat (t.1 * 3600 + t.2.1 * 60 + t.2.2)

section FastTime

variable {c : Char} {s : String}

theorem digitByte_toUInt8 (h : c.val ≤ 127) :
    digitByte c.val.toUInt8 = (Time.digit c).map Int64.ofNat := by
  have hnat := toNat_toUInt8 h
  have hsub := UInt8.toNat_sub c.val.toUInt8 48
  have hc : c.toNat ≤ 127 := h
  rw [hnat] at hsub
  change _ = (2 ^ 8 - 48 + c.toNat) % 2 ^ 8 at hsub
  unfold digitByte Time.digit
  dsimp only
  by_cases hdigit : c.isDigit = true
  · have hrange := isDigit_iff.mp hdigit
    have hle : c.val.toUInt8 - 48 ≤ 9 := by
      rw [UInt8.le_iff_toNat_le, hsub]
      change _ ≤ 9
      omega
    rw [if_pos hle, if_pos hdigit, Option.map_some, hsub]
    congr 2
    change _ = c.toNat - 48
    omega
  · have hrange : ¬ (48 ≤ c.toNat ∧ c.toNat ≤ 57) := fun h ↦ hdigit (isDigit_iff.mpr h)
    have hle : ¬ c.val.toUInt8 - 48 ≤ 9 := by
      rw [UInt8.le_iff_toNat_le, hsub]
      change ¬ _ ≤ 9
      omega
    rw [if_neg hle, if_neg hdigit]
    rfl

theorem toUInt8_eq_colon (h : c.val ≤ 127) : c.val.toUInt8 = 58 ↔ c = ':' := by
  rw [← UInt8.toNat_inj, toNat_toUInt8 h, ← Char.toNat_inj]
  rfl

theorem digit_le {n : ℕ} (h : Time.digit c = some n) : n ≤ 9 := by
  unfold Time.digit at h
  split_ifs at h with hdigit
  have hrange := isDigit_iff.mp hdigit
  cases h
  change c.toNat - 48 ≤ 9
  omega

theorem ofNat_twoDigits (x y : ℕ) :
    Int64.ofNat x * 10 + Int64.ofNat y = Int64.ofNat (x * 10 + y) := by
  rw [Int64.ofNat_add, Int64.ofNat_mul]
  rfl

theorem ofNat_lt {n k : ℕ} (hn : n ≤ 99) (hk : k ≤ 99) :
    Int64.ofNat n < Int64.ofNat k ↔ n < k := Int64.ofNat_lt_iff_lt (by omega) (by omega)

theorem seconds_eq (hour min sec : ℕ) : Int64.ofNat hour * 3600 + Int64.ofNat min * 60 +
    Int64.ofNat sec = seconds (hour, min, sec) := by
  rw [seconds, Int64.ofNat_add, Int64.ofNat_add, Int64.ofNat_mul, Int64.ofNat_mul]
  rfl

theorem parseFastTime_of_ascii (h : ∀ c ∈ (Text.trimSuffix s "Z").toList, c.val ≤ 127) :
    parseFastTime s = (clock (Text.trimSuffix s "Z").toList).map seconds := by
  unfold parseFastTime
  rw [Text.bytes_of_ascii h]
  generalize (Text.trimSuffix s "Z").toList = cs at h
  obtain _ | ⟨_, _ | ⟨_, _ | ⟨c1, _ | ⟨_, _ | ⟨_, _ | ⟨c2, _ | ⟨_, _ | ⟨_, _ | _⟩⟩⟩⟩⟩⟩⟩⟩ := cs
  case cons.cons.cons.cons.cons.nil =>
    simp only [List.forall_mem_cons] at h
    obtain ⟨hh0, hh1, hc1, hm0, hm1, -⟩ := h
    simp only [List.map_cons, List.map_nil, clock, digitByte_toUInt8, hh0, hh1, hm0, hm1,
      ne_eq, toUInt8_eq_colon hc1, twoDigits]
    by_cases hc : ¬ c1 = ':'
    · rw [if_pos hc, if_pos hc]
      rfl
    · rw [if_neg hc, if_neg hc]
      simp only [Option.bind_eq_bind, Option.bind_assoc, Option.bind_map, Option.map_bind,
        Option.pure_def, Option.bind_some, Function.comp_def]
      refine Option.bind_congr fun a ha ↦ Option.bind_congr fun b hb ↦ ?_
      refine Option.bind_congr fun c hc ↦ Option.bind_congr fun d hd ↦ ?_
      have ha := digit_le ha
      have hb := digit_le hb
      have hc := digit_le hc
      have hd := digit_le hd
      have hvalue := seconds_eq (a * 10 + b) (c * 10 + d) 0
      rw [show Int64.ofNat 0 = 0 from rfl, Int64.add_zero] at hvalue
      rw [ofNat_twoDigits, ofNat_twoDigits, hvalue, apply_ite (Option.map _)]
      refine if_congr ?_ rfl rfl
      exact and_congr (ofNat_lt (by omega) (by decide)) (ofNat_lt (by omega) (by decide))
  case cons.cons.cons.cons.cons.cons.cons.cons.nil =>
    simp only [List.forall_mem_cons] at h
    obtain ⟨hh0, hh1, hc1, hm0, hm1, hc2, hs0, hs1, -⟩ := h
    simp only [List.map_cons, List.map_nil, clock, digitByte_toUInt8, hh0, hh1, hm0, hm1, hs0, hs1,
      ne_eq, toUInt8_eq_colon hc1, toUInt8_eq_colon hc2, twoDigits]
    by_cases hc : ¬ c1 = ':' ∨ ¬ c2 = ':'
    · rw [if_pos hc, if_pos hc]
      rfl
    · rw [if_neg hc, if_neg hc]
      simp only [Option.bind_eq_bind, Option.bind_assoc, Option.bind_map, Option.map_bind,
        Option.pure_def, Option.bind_some, Function.comp_def]
      refine Option.bind_congr fun a ha ↦ Option.bind_congr fun b hb ↦ ?_
      refine Option.bind_congr fun c hc ↦ Option.bind_congr fun d hd ↦ ?_
      refine Option.bind_congr fun e he ↦ Option.bind_congr fun f hf ↦ ?_
      have ha := digit_le ha
      have hb := digit_le hb
      have hc := digit_le hc
      have hd := digit_le hd
      have he := digit_le he
      have hf := digit_le hf
      rw [ofNat_twoDigits, ofNat_twoDigits, ofNat_twoDigits, seconds_eq, apply_ite (Option.map _)]
      refine if_congr ?_ rfl rfl
      exact and_congr (ofNat_lt (by omega) (by decide))
        (and_congr (ofNat_lt (by omega) (by decide)) (ofNat_lt (by omega) (by decide)))
  all_goals rfl

theorem lt_of_digitByte {b : UInt8} {d : Int64} (h : digitByte b = some d) : b.toNat < 128 := by
  unfold digitByte at h
  dsimp only at h
  split_ifs at h with hle
  have hsub := UInt8.toNat_sub b 48
  rw [UInt8.le_iff_toNat_le, hsub] at hle
  change (2 ^ 8 - 48 + b.toNat) % 2 ^ 8 ≤ 9 at hle
  have hb := b.toNat_lt
  omega

theorem ascii_of_parseFastTime {v : Int64} (h : parseFastTime s = some v) :
    ∀ b ∈ Text.bytes (Text.trimSuffix s "Z"), b.toNat < 128 := by
  have hcolon : (58 : UInt8).toNat < 128 := by decide
  unfold parseFastTime at h
  dsimp only at h
  split at h
  · next hbytes =>
    split_ifs at h with hc
    · cases h
    · simp only [Option.bind_eq_bind, Option.bind_eq_some_iff] at h
      obtain ⟨_, ha, _, hb, _, hc', _, hd, _, he, _, hf, -⟩ := h
      have hcolons := not_or.mp hc
      simp only [hbytes, List.forall_mem_cons, not_not.mp hcolons.1, not_not.mp hcolons.2]
      exact ⟨lt_of_digitByte ha, lt_of_digitByte hb, hcolon, lt_of_digitByte hc',
        lt_of_digitByte hd, hcolon, lt_of_digitByte he, lt_of_digitByte hf, List.forall_mem_nil _⟩
  · next hbytes =>
    split_ifs at h with hc
    · cases h
    · simp only [Option.bind_eq_bind, Option.bind_eq_some_iff] at h
      obtain ⟨_, ha, _, hb, _, hc', _, hd, -⟩ := h
      simp only [hbytes, List.forall_mem_cons, not_not.mp hc]
      exact ⟨lt_of_digitByte ha, lt_of_digitByte hb, hcolon, lt_of_digitByte hc',
        lt_of_digitByte hd, List.forall_mem_nil _⟩
  · cases h

theorem isDigit_of_twoDigits {a b : Char} {n : ℕ} (h : twoDigits a b = some n) :
    a.isDigit = true ∧ b.isDigit = true := by
  unfold twoDigits at h
  simp only [Option.bind_eq_bind, Option.bind_eq_some_iff] at h
  obtain ⟨_, hx, _, hy, -⟩ := h
  unfold Time.digit at hx hy
  split_ifs at hx hy with ha hb
  exact ⟨ha, hb⟩

theorem natValue_twoDigits {a b : Char} {n : ℕ} (h : twoDigits a b = some n) :
    natValue [a, b] = n ∧ n ≤ 99 := by
  unfold twoDigits at h
  simp only [Option.bind_eq_bind, Option.bind_eq_some_iff] at h
  obtain ⟨_, hx, _, hy, h⟩ := h
  have hxle := digit_le hx
  have hyle := digit_le hy
  cases h
  refine ⟨?_, by omega⟩
  unfold Time.digit at hx hy
  split_ifs at hx hy
  cases hx
  cases hy
  rw [natValue, Nat.ofDigitChars_cons, Nat.ofDigitChars_cons, Nat.ofDigitChars_nil]
  omega

theorem clock_eq_some {cs : List Char} {hour min sec : ℕ} (h : clock cs = some (hour, min, sec)) :
    hour < 24 ∧ min < 60 ∧ sec < 60 ∧
      ∃ h0 h1 m0 m1, twoDigits h0 h1 = some hour ∧ twoDigits m0 m1 = some min ∧
        ((∃ s0 s1, twoDigits s0 s1 = some sec ∧ cs = [h0, h1, ':', m0, m1, ':', s0, s1]) ∨
          (sec = 0 ∧ cs = [h0, h1, ':', m0, m1])) := by
  unfold clock at h
  split at h
  · next h0 h1 c1 m0 m1 c2 s0 s1 =>
    split_ifs at h with hc
    simp only [Option.bind_eq_bind, Option.bind_eq_some_iff] at h
    obtain ⟨x, hx, y, hy, _, hz, h⟩ := h
    split_ifs at h with hrange
    cases h
    obtain ⟨hc1, hc2⟩ := not_or.mp hc
    rw [not_not.mp hc1, not_not.mp hc2]
    exact ⟨hrange.1, hrange.2.1, hrange.2.2, h0, h1, m0, m1, hx, hy, .inl ⟨s0, s1, hz, rfl⟩⟩
  · next h0 h1 c1 m0 m1 =>
    split_ifs at h with hc
    simp only [Option.bind_eq_bind, Option.bind_eq_some_iff] at h
    obtain ⟨_, hx, _, hy, h⟩ := h
    split_ifs at h with hrange
    cases h
    rw [not_not.mp hc]
    exact ⟨hrange.1, hrange.2, by decide, h0, h1, m0, m1, hx, hy, .inr ⟨rfl, rfl⟩⟩
  · cases h

theorem ascii_of_isDigit (h : c.isDigit = true) : c.val ≤ 127 := by
  have hrange := isDigit_iff.mp h
  change c.toNat ≤ 127
  omega

theorem ascii_of_clock {cs : List Char} {t : ℕ × ℕ × ℕ} (h : clock cs = some t) :
    ∀ c ∈ cs, c.val ≤ 127 := by
  obtain ⟨_, _, _⟩ := t
  obtain ⟨-, -, -, _, _, _, _, hh, hm, hform⟩ := clock_eq_some h
  have hh := isDigit_of_twoDigits hh
  have hm := isDigit_of_twoDigits hm
  have hcolon : ':'.val ≤ 127 := by decide
  obtain ⟨_, _, hs, rfl⟩ | ⟨-, rfl⟩ := hform
  · have hs := isDigit_of_twoDigits hs
    simp only [List.forall_mem_cons]
    exact ⟨ascii_of_isDigit hh.1, ascii_of_isDigit hh.2, hcolon, ascii_of_isDigit hm.1,
      ascii_of_isDigit hm.2, hcolon, ascii_of_isDigit hs.1, ascii_of_isDigit hs.2,
      List.forall_mem_nil _⟩
  · simp only [List.forall_mem_cons]
    exact ⟨ascii_of_isDigit hh.1, ascii_of_isDigit hh.2, hcolon, ascii_of_isDigit hm.1,
      ascii_of_isDigit hm.2, List.forall_mem_nil _⟩

theorem parseFastTime_eq (s : String) :
    parseFastTime s = (clock (Text.trimSuffix s "Z").toList).map seconds := by
  by_cases hascii : ∀ c ∈ (Text.trimSuffix s "Z").toList, c.val ≤ 127
  · exact parseFastTime_of_ascii hascii
  · have hclock : clock (Text.trimSuffix s "Z").toList = none := by
      by_contra hne
      obtain ⟨_, ht⟩ := Option.ne_none_iff_exists'.mp hne
      exact hascii (ascii_of_clock ht)
    rw [hclock, Option.map_none]
    by_contra hne
    obtain ⟨_, hv⟩ := Option.ne_none_iff_exists'.mp hne
    obtain ⟨c, hc⟩ := not_forall.mp hascii
    obtain ⟨hc, hlarge⟩ := Classical.not_imp.mp hc
    obtain ⟨b, _, hencode, _⟩ := Text.utf8EncodeChar_of_not_ascii hlarge
    have hmem : b ∈ Text.bytes (Text.trimSuffix s "Z") := by
      rw [← String.ofList_toList (s := Text.trimSuffix s "Z"), Text.bytes_ofList, List.mem_flatMap]
      exact ⟨c, hc, by rw [hencode]; exact List.mem_cons_self⟩
    have := ascii_of_parseFastTime hv b hmem
    omega

end FastTime

/-- An hour and a minute that `Sscanf` finds at the front of a text. -/
def ReadsHourMinute (s : String) : Prop :=
  ∃ hour min, Strconv.sscanf s.toList [':'] = some [hour, min] ∧ 0 ≤ hour ∧ hour < 24 ∧ 0 ≤ min ∧
    min < 60

/-- `HH:MM` or `HH:MM:SS`, in range and with an optional `Z`. -/
def FixedWidth (s : String) : Prop := (clock (Text.trimSuffix s "Z").toList).isSome = true

section Scanf

variable {a b : Char} {n : ℕ} {rest : List Char}

theorem scanInt_twoDigits (h : twoDigits a b = some n)
    (hrest : ∀ c ∈ rest.head?, c.isDigit = false) :
    Strconv.scanInt (a :: b :: rest) = some ((n : ℤ), rest) := by
  obtain ⟨ha, hb⟩ := isDigit_of_twoDigits h
  have hminus : a ≠ '-' := by
    rintro rfl
    exact absurd ha (by decide)
  have hplus : a ≠ '+' := by
    rintro rfl
    exact absurd ha (by decide)
  obtain ⟨hvalue, hn⟩ := natValue_twoDigits h
  have hn : n < 2 ^ 63 := by omega
  have htake : (a :: b :: rest).takeWhile Char.isDigit = [a, b] := by
    rw [List.takeWhile_cons_of_pos ha, List.takeWhile_cons_of_pos hb]
    cases rest with
    | nil => rfl
    | cons c => rw [List.takeWhile_cons_of_neg (by simp [hrest c rfl])]
  have hdrop : (a :: b :: rest).dropWhile Char.isDigit = rest := by
    rw [List.dropWhile_cons_of_pos ha, List.dropWhile_cons_of_pos hb]
    cases rest with
    | nil => rfl
    | cons c => rw [List.dropWhile_cons_of_neg (by simp [hrest c rfl])]
  have hparse : Strconv.parseDigits [a, b] = some n := by
    rw [Strconv.parseDigits, if_pos ⟨List.cons_ne_nil _ _, by simp [ha, hb]⟩]
    exact congrArg some hvalue
  unfold Strconv.scanInt
  rw [List.dropWhile_cons_of_neg (by simp [Text.isSpace_of_isDigit ha])]
  dsimp only
  split
  · next heq => exact absurd (List.cons.inj heq).1 hminus
  · next heq => exact absurd (List.cons.inj heq).1 hplus
  · rw [htake, hdrop, hparse, Option.bind_some]
    simpa using hn

theorem secondsOfDay_natCast {hour min sec : ℕ} (hhour : hour < 24) (hmin : min < 60)
    (hsec : sec < 60) :
    Parser.secondsOfDay hour min sec = some (seconds (hour, min, sec)) := by
  rw [Parser.secondsOfDay, if_pos (by omega), seconds]
  congr 1

theorem secondsOfDay_eq_some {hour min sec : ℤ} {v : Int64}
    (h : Parser.secondsOfDay hour min sec = some v) :
    0 ≤ hour ∧ hour < 24 ∧ 0 ≤ min ∧ min < 60 := by
  unfold Parser.secondsOfDay at h
  split_ifs at h with hrange
  exact ⟨hrange.1, hrange.2.1, hrange.2.2.1, hrange.2.2.2.1⟩

theorem sscanf_of_scanLayout {cs left : List Char} {hour min sec : ℤ}
    (h : Strconv.scanLayout cs [':', ':'] = some ([hour, min, sec], left)) :
    Strconv.sscanf cs [':'] = some [hour, min] := by
  obtain ⟨_, rest, _, hhour, h, heq⟩ := Strconv.scanLayout_cons_eq_some_iff.mp h
  obtain ⟨_, rest', _, hmin, -, heq'⟩ := Strconv.scanLayout_cons_eq_some_iff.mp h
  cases heq
  cases heq'
  have hlayout : Strconv.scanLayout cs [':'] = some ([hour, min], ':' :: rest') :=
    Strconv.scanLayout_cons_eq_some_iff.mpr
      ⟨hour, rest, [min], hhour, Strconv.scanLayout_nil_eq_some_iff.mpr ⟨min, hmin, rfl⟩, rfl⟩
  rw [Strconv.sscanf, hlayout]
  rfl

theorem readsHourMinute_of_layout {s : String} {left : List Char} {hour min sec : ℤ} {v : Int64}
    (h : Strconv.scanLayout s.toList [':', ':'] = some ([hour, min, sec], left))
    (hv : Parser.secondsOfDay hour min sec = some v) : ReadsHourMinute s :=
  ⟨hour, min, sscanf_of_scanLayout h, secondsOfDay_eq_some hv⟩

theorem readsHourMinute_of_scanClock {s : String} {v : Int64} (h : Parser.scanClock s = some v) :
    ReadsHourMinute s := by
  unfold Parser.scanClock at h
  split_ifs at h
  · split at h
    · next hscan =>
      obtain ⟨⟨_, _⟩, hlayout, hleft⟩ := Option.bind_eq_some_iff.mp hscan
      split_ifs at hleft
      cases hleft
      exact readsHourMinute_of_layout hlayout h
    · cases h
  · split at h
    · next hscan =>
      obtain ⟨⟨_, _⟩, hlayout, hleft⟩ := Option.map_eq_some_iff.mp hscan
      cases hleft
      exact readsHourMinute_of_layout hlayout h
    · cases h

end Scanf

theorem compiled_eq_none_iff {s : String} (h : Time.parseRFC3339 s = none) :
    Parser.tryParseDateTimeOrTime s = none ↔ ¬ ReadsHourMinute s := by
  unfold Parser.tryParseDateTimeOrTime
  rw [h]
  cases hclock : Parser.scanClock s with
  | some => simpa using readsHourMinute_of_scanClock hclock
  | none =>
    dsimp only
    constructor
    · rintro hnone ⟨hour, min, hscan, _⟩
      rw [hscan] at hnone
      dsimp only at hnone
      rw [Parser.secondsOfDay, if_pos (by omega)] at hnone
      cases hnone
    · intro hreads
      split
      · next hour min hscan =>
        by_contra hne
        obtain ⟨_, hv⟩ := Option.ne_none_iff_exists'.mp hne
        exact hreads ⟨hour, min, hscan, secondsOfDay_eq_some hv⟩
      · rfl

theorem parseRFC3339_of_colon {s : String} {a b : Char} {rest : List Char}
    (h : s.toList = a :: b :: ':' :: rest) : Time.parseRFC3339 s = none := by
  have hdigit : Time.digit ':' = none := by decide
  have hyear : Time.year s.toList = none := by
    rw [h]
    cases rest with
    | nil => rfl
    | cons => simp [Time.year, hdigit]
  rw [Time.parseRFC3339, hyear]
  rfl

section Forms

variable {s : String} {h0 h1 m0 m1 s0 s1 : Char} {hour min sec : ℕ} {zs : List Char}

theorem scanLayout_short (hhour : twoDigits h0 h1 = some hour) (hmin : twoDigits m0 m1 = some min)
    (hzs : ∀ c ∈ zs.head?, c.isDigit = false) :
    Strconv.scanLayout (h0 :: h1 :: ':' :: m0 :: m1 :: zs) [':'] =
      some ([(hour : ℤ), (min : ℤ)], zs) := by
  have hcolon : ∀ c ∈ (':' :: m0 :: m1 :: zs).head?, c.isDigit = false := by simp
  exact Strconv.scanLayout_cons_eq_some_iff.mpr ⟨_, _, _, scanInt_twoDigits hhour hcolon,
    Strconv.scanLayout_nil_eq_some_iff.mpr ⟨_, scanInt_twoDigits hmin hzs, rfl⟩, rfl⟩

theorem scanLayout_long (hhour : twoDigits h0 h1 = some hour) (hmin : twoDigits m0 m1 = some min)
    (hsec : twoDigits s0 s1 = some sec) (hzs : ∀ c ∈ zs.head?, c.isDigit = false) :
    Strconv.scanLayout (h0 :: h1 :: ':' :: m0 :: m1 :: ':' :: s0 :: s1 :: zs) [':', ':'] =
      some ([(hour : ℤ), (min : ℤ), (sec : ℤ)], zs) := by
  have hcolon : ∀ c ∈ (':' :: m0 :: m1 :: ':' :: s0 :: s1 :: zs).head?, c.isDigit = false := by simp
  exact Strconv.scanLayout_cons_eq_some_iff.mpr ⟨_, _, _, scanInt_twoDigits hhour hcolon,
    scanLayout_short hmin hsec hzs, rfl⟩

theorem scanLayout_long_of_short (hhour : twoDigits h0 h1 = some hour)
    (hmin : twoDigits m0 m1 = some min) (hzs : ∀ c ∈ zs.head?, c.isDigit = false ∧ c ≠ ':') :
    Strconv.scanLayout (h0 :: h1 :: ':' :: m0 :: m1 :: zs) [':', ':'] = none := by
  by_contra hne
  obtain ⟨⟨_, _⟩, hlayout⟩ := Option.ne_none_iff_exists'.mp hne
  obtain ⟨_, _, _, hfirst, hrest, -⟩ := Strconv.scanLayout_cons_eq_some_iff.mp hlayout
  obtain ⟨_, _, _, hsecond, -⟩ := Strconv.scanLayout_cons_eq_some_iff.mp hrest
  rw [scanInt_twoDigits hhour (by simp)] at hfirst
  cases hfirst
  rw [scanInt_twoDigits hmin fun c hc ↦ (hzs c hc).1] at hsecond
  cases hsecond
  exact (hzs ':' rfl).2 rfl

def zulu (s : String) : List Char := if Text.hasSuffix s "Z" then ['Z'] else []

theorem zulu_head : ∀ c ∈ (zulu s).head?, c.isDigit = false ∧ c ≠ ':' := by
  unfold zulu
  split_ifs
  · simp
  · simp

theorem scanClock_of_none (h : Strconv.scanLayout s.toList [':', ':'] = none) :
    Parser.scanClock s = none := by
  unfold Parser.scanClock Strconv.sscanfThen Strconv.sscanf
  rw [h]
  split_ifs <;> rfl

theorem scanClock_of_some
    (h : Strconv.scanLayout s.toList [':', ':'] =
      some ([(hour : ℤ), (min : ℤ), (sec : ℤ)], zulu s)) :
    Parser.scanClock s = Parser.secondsOfDay hour min sec := by
  unfold Parser.scanClock Strconv.sscanfThen Strconv.sscanf
  rw [h, zulu]
  cases Text.hasSuffix s "Z" <;> rfl

end Forms

theorem compiled_of_clock {s : String} {t : ℕ × ℕ × ℕ}
    (h : clock (Text.trimSuffix s "Z").toList = some t) :
    Time.parseRFC3339 s = none ∧ Parser.tryParseDateTimeOrTime s = some (seconds t) := by
  obtain ⟨hour, min, _⟩ := t
  obtain ⟨hhour, hmin, hsec, _, _, _, _, hh, hm, hform⟩ := clock_eq_some h
  have htext : s.toList = (Text.trimSuffix s "Z").toList ++ zulu s := Text.toList_eq_trimSuffix s "Z"
  obtain ⟨_, _, hs, hcs⟩ | ⟨rfl, hcs⟩ := hform
  · rw [hcs] at htext
    have hrfc := parseRFC3339_of_colon htext
    refine ⟨hrfc, ?_⟩
    have hlayout := scanLayout_long hh hm hs fun c hc ↦ (zulu_head (s := s) c hc).1
    have hclock := scanClock_of_some (s := s) (by rw [htext]; exact hlayout)
    rw [Parser.tryParseDateTimeOrTime, hrfc, hclock, secondsOfDay_natCast hhour hmin hsec]
  · rw [hcs] at htext
    have hrfc := parseRFC3339_of_colon htext
    refine ⟨hrfc, ?_⟩
    have hnone := scanLayout_long_of_short hh hm (zulu_head (s := s))
    have hclock := scanClock_of_none (s := s) (by rw [htext]; exact hnone)
    have hlayout := scanLayout_short hh hm fun c hc ↦ (zulu_head (s := s) c hc).1
    have hshort : Strconv.sscanf s.toList [':'] = some [(hour : ℤ), (min : ℤ)] := by
      rw [Strconv.sscanf, htext]
      exact congrArg _ hlayout
    rw [Parser.tryParseDateTimeOrTime, hrfc, hclock, hshort]
    exact secondsOfDay_natCast hhour hmin hsec

theorem tryParseDateTimeOrTime_eq_iff (s : String) :
    Parser.tryParseDateTimeOrTime s = tryParseDateTimeOrTime s ↔
      (Time.parseRFC3339 s).isSome = true ∨ FixedWidth s ∨ ¬ ReadsHourMinute s := by
  unfold tryParseDateTimeOrTime FixedWidth
  rw [parseFastTime_eq]
  cases hclock : clock (Text.trimSuffix s "Z").toList with
  | some =>
    obtain ⟨-, hcompiled⟩ := compiled_of_clock hclock
    simp [hcompiled]
  | none =>
    cases hrfc : Time.parseRFC3339 s with
    | some t =>
      have hcompiled : Parser.tryParseDateTimeOrTime s = some (Time.unixNano t) := by
        rw [Parser.tryParseDateTimeOrTime, hrfc]
      simp [hcompiled]
    | none => simp [compiled_eq_none_iff hrfc]

/-- The two parsers agree on timestamps, on the fixed-width forms and on what
neither of them accepts. Everything else that `Sscanf` finds an hour and a minute
in is accepted by the compiler only. -/
theorem time_parsers_agree_iff (s : String) :
    (Parser.tryParseDateTimeOrTime s = none ∧ tryParseDateTimeOrTime s = none ∨
      ∃ v, Parser.tryParseDateTimeOrTime s = some v ∧ tryParseDateTimeOrTime s = some v) ↔
        (Time.parseRFC3339 s).isSome = true ∨ FixedWidth s ∨ ¬ ReadsHourMinute s := by
  rw [← tryParseDateTimeOrTime_eq_iff]
  cases Parser.tryParseDateTimeOrTime s with
  | none => simp [eq_comm]
  | some => simp [eq_comm]

theorem time_parsers_short_hour :
    Parser.tryParseDateTimeOrTime "9:30" = some 34200 ∧ tryParseDateTimeOrTime "9:30" = none ∧
      Parser.tryParseDateTimeOrTime "12:30:99" = some 45000 ∧
      tryParseDateTimeOrTime "12:30:99" = none := by
  decide

end PolicyEngine.Engine

import Mathlib.Algebra.Ring.Int.Defs
import Mathlib.Algebra.Ring.Nat
import PolicyEngine.Go.Text

namespace PolicyEngine.Go.Strconv

def parseDigits (cs : List Char) : Option ℕ :=
  if cs ≠ [] ∧ cs.all Char.isDigit then some (Nat.ofDigitChars 10 cs 0) else none

/-- `strconv.ParseInt(s, 10, 64)`: an optional sign, decimal digits only, and
the value has to fit an `int64`. -/
def parseInt (s : String) : Option Int64 :=
  match s.toList with
  | '-' :: cs => (parseDigits cs).bind fun n ↦
      if n ≤ 2 ^ 63 then some (Int64.ofInt (-(n : ℤ))) else none
  | '+' :: cs => (parseDigits cs).bind fun n ↦
      if n < 2 ^ 63 then some (Int64.ofInt n) else none
  | cs => (parseDigits cs).bind fun n ↦
      if n < 2 ^ 63 then some (Int64.ofInt n) else none

/-- `strconv.ParseUint(s, 10, 64)`. -/
def parseUint (s : String) : Option UInt64 :=
  (parseDigits s.toList).bind fun n ↦ if n < 2 ^ 64 then some (UInt64.ofNat n) else none

def formatNat (n : ℕ) : String := String.ofList (Nat.toDigits 10 n)

def formatInt (n : Int64) : String :=
  if n.toInt < 0 then "-" ++ formatNat n.toInt.natAbs else formatNat n.toInt.natAbs

def parseBool (s : String) : Option Bool :=
  if s ∈ ["1", "t", "T", "TRUE", "true", "True"] then some true
  else if s ∈ ["0", "f", "F", "FALSE", "false", "False"] then some false
  else none

/-- The `%d` verb of `fmt.Sscanf`: blanks but no line break before the numeral,
an optional sign, and a value that fits an `int64`. What follows is left over. -/
def scanInt (cs : List Char) : Option (ℤ × List Char) :=
  let cs := cs.dropWhile fun c ↦ Text.isSpace c && c != '\n'
  let (neg, body) : Bool × List Char :=
    match cs with
    | '-' :: cs => (true, cs)
    | '+' :: cs => (false, cs)
    | cs => (false, cs)
  (parseDigits (body.takeWhile Char.isDigit)).bind fun n ↦
    if (if neg then n ≤ 2 ^ 63 else n < 2 ^ 63) then
      some (if neg then -(n : ℤ) else n, body.dropWhile Char.isDigit)
    else none

/-- `fmt.Sscanf` with a layout of numerals, each after the first preceded by a
fixed character; the rest of the input is left over. -/
def scanLayout (cs : List Char) : List Char → Option (List ℤ × List Char)
  | [] => (scanInt cs).map fun r ↦ ([r.1], r.2)
  | sep :: seps =>
    (scanInt cs).bind fun r ↦
      match r.2 with
      | c :: rest => if c = sep then (scanLayout rest seps).map fun q ↦ (r.1 :: q.1, q.2) else none
      | [] => none

def sscanf (cs seps : List Char) : Option (List ℤ) := (scanLayout cs seps).map Prod.fst

def sscanfThen (cs seps : List Char) (last : Char) : Option (List ℤ) :=
  (scanLayout cs seps).bind fun r ↦ if r.2.head? = some last then some r.1 else none

section Layout

variable {cs left : List Char} {v : List ℤ}

theorem scanLayout_nil_eq_some_iff :
    scanLayout cs [] = some (v, left) ↔ ∃ n, scanInt cs = some (n, left) ∧ v = [n] := by
  rw [scanLayout, Option.map_eq_some_iff]
  constructor
  · rintro ⟨⟨n, _⟩, h, heq⟩
    cases heq
    exact ⟨n, h, rfl⟩
  · rintro ⟨n, h, rfl⟩
    exact ⟨(n, left), h, rfl⟩

theorem scanLayout_cons_eq_some_iff {sep : Char} {seps : List Char} :
    scanLayout cs (sep :: seps) = some (v, left) ↔
      ∃ n rest w, scanInt cs = some (n, sep :: rest) ∧ scanLayout rest seps = some (w, left) ∧
        v = n :: w := by
  rw [scanLayout, Option.bind_eq_some_iff]
  constructor
  · rintro ⟨⟨n, rest⟩, h, heq⟩
    cases rest with
    | nil => cases heq
    | cons _ rest =>
      dsimp only at heq
      split_ifs at heq with hc
      obtain ⟨⟨w, _⟩, hw, heq⟩ := Option.map_eq_some_iff.mp heq
      cases heq
      exact ⟨n, rest, w, hc ▸ h, hw, rfl⟩
  · rintro ⟨n, rest, _, h, hw, rfl⟩
    refine ⟨(n, sep :: rest), h, ?_⟩
    dsimp only
    rw [if_pos rfl, hw]
    rfl

end Layout

theorem isDigit_of_mem {n : ℕ} {c : Char} (h : c ∈ Nat.toDigits 10 n) : c.isDigit = true :=
  Nat.isDigit_of_mem_toDigits (by decide) (by decide) h

theorem parseDigits_toDigits (n : ℕ) : parseDigits (Nat.toDigits 10 n) = some n := by
  have hall : (Nat.toDigits 10 n).all Char.isDigit = true :=
    List.all_eq_true.mpr fun _ h ↦ isDigit_of_mem h
  simp only [parseDigits, ne_eq, Nat.toDigits_ne_nil, not_false_eq_true, hall, and_self, if_true,
    Nat.ofDigitChars_ten_toDigits]

theorem parseDigits_eq_none {cs : List Char} {c : Char} (hc : c ∈ cs) (h : c.isDigit = false) :
    parseDigits cs = none := by
  have hall : cs.all Char.isDigit = false := by
    rw [List.all_eq_false]
    exact ⟨c, hc, by simp [h]⟩
  simp [parseDigits, hall]

theorem parseInt_of_digits {s : String} {c : Char} {cs : List Char} (h : s.toList = c :: cs)
    (hc : c.isDigit = true) : parseInt s = (parseDigits (c :: cs)).bind fun n ↦
      if n < 2 ^ 63 then some (Int64.ofInt n) else none := by
  have h₁ : c ≠ '-' := by rintro rfl; exact absurd hc (by decide)
  have h₂ : c ≠ '+' := by rintro rfl; exact absurd hc (by decide)
  unfold parseInt
  rw [h]
  split
  · next heq => exact absurd (List.cons.inj heq).1 h₁
  · next heq => exact absurd (List.cons.inj heq).1 h₂
  · rfl

theorem parseInt_formatNat {n : ℕ} (h : n < 2 ^ 63) :
    parseInt (formatNat n) = some (Int64.ofInt n) := by
  obtain ⟨c, _, hcs⟩ := List.exists_cons_of_ne_nil (Nat.toDigits_ne_nil (n := n) (b := 10))
  have hc : c.isDigit = true := isDigit_of_mem (n := n) (by simp [hcs])
  rw [parseInt_of_digits (s := formatNat n) (by rw [formatNat, String.toList_ofList, hcs]) hc,
    ← hcs, parseDigits_toDigits, Option.bind_some, if_pos h]

theorem parseInt_formatInt (n : Int64) : parseInt (formatInt n) = some n := by
  have hlo := Int64.le_toInt n
  have hhi := Int64.toInt_lt n
  unfold formatInt
  split_ifs with hn
  · have hs : ("-" ++ formatNat n.toInt.natAbs).toList = '-' :: Nat.toDigits 10 n.toInt.natAbs := by
      simp [formatNat]
    have hle : n.toInt.natAbs ≤ 2 ^ 63 := by omega
    have habs : -(n.toInt.natAbs : ℤ) = n.toInt := by omega
    unfold parseInt
    rw [hs]
    simp only [parseDigits_toDigits, Option.bind_some, if_pos hle, habs, Int64.ofInt_toInt]
  · have habs : (n.toInt.natAbs : ℤ) = n.toInt := by omega
    rw [parseInt_formatNat (by omega), habs, Int64.ofInt_toInt]

theorem parseUint_formatNat (n : UInt64) : parseUint (formatNat n.toNat) = some n := by
  have hlt : n.toNat < 2 ^ 64 := n.toNat_lt
  rw [parseUint, formatNat, String.toList_ofList, parseDigits_toDigits, Option.bind_some, if_pos hlt,
    UInt64.ofNat_toNat]

theorem formatInt_ne_empty (n : Int64) : formatInt n ≠ "" := by
  intro h
  have hparse := parseInt_formatInt n
  rw [h] at hparse
  exact nomatch hparse

theorem toList_formatInt_of_nonneg {n : Int64} (h : 0 ≤ n.toInt) :
    (formatInt n).toList = Nat.toDigits 10 n.toInt.natAbs := by
  rw [formatInt, if_neg (by omega), formatNat, String.toList_ofList]

theorem parseInt_eq_none {s : String} {c d : Char} {cs : List Char} (h : s.toList = c :: cs)
    (hc : c.isDigit = true) (hd : d ∈ cs) (hd' : d.isDigit = false) : parseInt s = none := by
  rw [parseInt_of_digits h hc, parseDigits_eq_none (List.mem_cons_of_mem c hd) hd', Option.bind_none]

end PolicyEngine.Go.Strconv

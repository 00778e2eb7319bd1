import Mathlib.Data.Int.Order.Basic
import Mathlib.Data.Nat.Find
import PolicyEngine.Go.Strconv

namespace PolicyEngine.Go.Time

def second : ℤ := 1000000000

def unix (t : ℤ) : ℤ := t / second

/-- `Time.UnixNano`, which wraps outside the years 1678 to 2262. -/
def unixNano (t : ℤ) : Int64 := Int64.ofInt t

def isLeap (year : ℕ) : Bool := year % 4 == 0 && (year % 100 != 0 || year % 400 == 0)

def daysIn (month year : ℕ) : ℕ :=
  match month with
  | 2 => if isLeap year then 29 else 28
  | 4 | 6 | 9 | 11 => 30
  | _ => 31

def daysBeforeYear (year : ℕ) : ℕ :=
  if year = 0 then 0 else 365 * year + ((year - 1) / 4 - (year - 1) / 100 + (year - 1) / 400 + 1)

def daysBeforeMonth (month year : ℕ) : ℕ :=
  ((List.range (month - 1)).map fun m ↦ daysIn (m + 1) year).sum

def daysSinceEpoch (year month day : ℕ) : ℤ :=
  (daysBeforeYear year + daysBeforeMonth month year + (day - 1) : ℕ) - (719528 : ℤ)

def date (year month day hour min sec nsec : ℕ) : ℤ :=
  (((daysSinceEpoch year month day * 24 + hour) * 60 + min) * 60 + sec) * second + nsec

def civil (t : ℤ) : ℕ × ℕ × ℕ :=
  let days := t / (86400 * second)
  let year := Nat.findGreatest (fun y ↦ daysSinceEpoch y 1 1 ≤ days) (1970 + days.toNat / 365)
  let month := Nat.findGreatest (fun m ↦ daysSinceEpoch year m 1 ≤ days) 12
  (year, month, (days - daysSinceEpoch year month 1).toNat + 1)

def formatDate (t : ℤ) : String :=
  let (year, month, day) := civil t
  let padded (width n : ℕ) : String :=
    let digits := Nat.toDigits 10 n
    String.ofList (List.replicate (width - digits.length) '0' ++ digits)
  padded 4 year ++ "-" ++ padded 2 month ++ "-" ++ padded 2 day

def digit (c : Char) : Option ℕ := if c.isDigit then some (c.toNat - '0'.toNat) else none

def getnum (fixed : Bool) : List Char → Option (ℕ × List Char)
  | a :: b :: s =>
    match digit a, digit b with
    | some x, some y => some (10 * x + y, s)
    | some x, none => if fixed then none else some (x, b :: s)
    | _, _ => none
  | [a] => if fixed then none else (digit a).map fun x ↦ (x, [])
  | [] => none

def year : List Char → Option (ℕ × List Char)
  | a :: b :: c :: d :: s => do
    let a ← digit a
    let b ← digit b
    let c ← digit c
    let d ← digit d
    some (((a * 10 + b) * 10 + c) * 10 + d, s)
  | _ => none

def skip (c : Char) : List Char → Option (List Char)
  | x :: s => if x = c then some s else none
  | [] => none

/-- A fraction of a second is read even though the layout has none; digits
after the ninth are dropped. -/
def fraction : List Char → ℕ × List Char
  | p :: d :: s =>
    if (p = '.' ∨ p = ',') ∧ d.isDigit then
      let ds := ((d :: s).takeWhile Char.isDigit).take 9
      (Nat.ofDigitChars 10 ds 0 * 10 ^ (9 - ds.length), (d :: s).dropWhile Char.isDigit)
    else (0, p :: d :: s)
  | s => (0, s)

def zone : List Char → Option (ℤ × List Char)
  | 'Z' :: s => some (0, s)
  | sign :: s => do
    let (hr, s) ← getnum true s
    let s ← skip ':' s
    let (mm, s) ← getnum true s
    if hr > 24 ∨ mm > 60 then none
    else if sign = '+' then some (((hr * 60 + mm) * 60 : ℕ), s)
    else if sign = '-' then some (-(((hr * 60 + mm) * 60 : ℕ) : ℤ), s)
    else none
  | [] => none

/-- `time.Parse(time.RFC3339, s)`, as nanoseconds since the epoch. -/
def parseRFC3339 (s : String) : Option ℤ := do
  let (yr, s) ← year s.toList
  let s ← skip '-' s
  let (month, s) ← getnum true s
  let s ← skip '-' s
  let (day, s) ← getnum true s
  let s ← skip 'T' s
  let (hour, s) ← getnum false s
  let s ← skip ':' s
  let (min, s) ← getnum true s
  let s ← skip ':' s
  let (sec, s) ← getnum true s
  let (nsec, s) := fraction s
  let (offset, s) ← zone s
  if s = [] ∧ 1 ≤ month ∧ month ≤ 12 ∧ 1 ≤ day ∧ day ≤ daysIn month yr ∧ hour < 24 ∧ min < 60 ∧
      sec < 60 then
    some (date yr month day hour min sec nsec - offset * second)
  else none

theorem unix_mono {t t' : ℤ} (h : t ≤ t') : unix t ≤ unix t' :=
  Int.ediv_le_ediv (by decide) h

/-- The first instant from `t` on at which `UnixNano` is at least `e`. It only
falls when it wraps, past every value of its range. -/
def firstReach (t : ℤ) (e : Int64) : ℤ := t + max 0 (e.toInt - (unixNano t).toInt)

section FirstReach

variable (t : ℤ) (e : Int64)

theorem toInt_unixNano : (unixNano t).toInt = t.bmod (2 ^ 64) := Int64.toInt_ofInt

theorem le_firstReach : t ≤ firstReach t e := by
  unfold firstReach
  omega

theorem le_unixNano_firstReach : e ≤ unixNano (firstReach t e) := by
  have hlo := Int64.le_toInt e
  have hhi := Int64.toInt_lt e
  rw [Int64.le_iff_toInt_le, toInt_unixNano, firstReach, toInt_unixNano]
  simp only [Int.bmod_def]
  omega

variable {t e}

theorem firstReach_le {t' : ℤ} (ht : t ≤ t') (he : e ≤ unixNano t') : firstReach t e ≤ t' := by
  have hlo := Int64.le_toInt e
  have hhi := Int64.toInt_lt e
  rw [Int64.le_iff_toInt_le, toInt_unixNano] at he
  rw [firstReach, toInt_unixNano]
  simp only [Int.bmod_def] at *
  omega

end FirstReach

end PolicyEngine.Go.Time

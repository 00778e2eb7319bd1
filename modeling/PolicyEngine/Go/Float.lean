import Mathlib.Algebra.Order.Field.Rat
import Mathlib.Algebra.Order.Field.Power
import Mathlib.Tactic.Linarith
import Mathlib.Tactic.Positivity
import Mathlib.Tactic.NormNum
import PolicyEngine.Decimal.Digits
import PolicyEngine.Go.Strconv

namespace PolicyEngine.Go

/-- A finite `float64` by its shortest decimal digits, as `strconv` holds them:
it is `0.d` times the power `dp` of ten. -/
structure Float64 where
  neg : Bool
  d : List Char
  dp : ℤ
  digits : Decimal.AllDigits d
  head : d.head? ≠ some '0'
  last : d.getLast? ≠ some '0'

namespace Float64

section Format

variable (x : Float64)

def sign : String := if x.neg then "-" else ""

def fmtE : String :=
  let exp : ℤ := if x.d = [] then 0 else x.dp - 1
  x.sign ++ String.singleton (x.d.headD '0') ++
    (if 1 < x.d.length then "." ++ String.ofList x.d.tail else "") ++ "e" ++
    (if exp < 0 then "-" else "+") ++ (if exp.natAbs < 10 then "0" else "") ++
    Strconv.formatNat exp.natAbs

def fmtF : String :=
  let prec := (x.d.length - x.dp).toNat
  x.sign ++
    (if 0 < x.dp then
      String.ofList (x.d.take x.dp.toNat ++ List.replicate (x.dp.toNat - x.d.length) '0')
    else "0") ++
    (if 0 < prec then
      "." ++ String.ofList ((List.range prec).map fun i ↦
        if 0 ≤ x.dp + i then x.d.getD (x.dp + i).toNat '0' else '0')
    else "")

/-- `strconv.FormatFloat(x, 'g', -1, 64)`, which is what the verbs `%g` and `%v`
print: for the shortest digits the notation is chosen as for six of them. -/
def formatG : String := if x.dp - 1 < -4 ∨ 6 ≤ x.dp - 1 then x.fmtE else x.fmtF

end Format

/-- An integer of at most `2 ^ 53`. Its shortest digits are its own without the zeros
at the end; of a larger one they may be fewer. -/
def ofInt (n : ℤ) : Float64 where
  neg := n < 0
  d := (Nat.toDigits 10 n.natAbs).rdropWhile (· == '0')
  dp := if n = 0 then 0 else (Nat.toDigits 10 n.natAbs).length
  digits := fun c hc ↦
    Decimal.allDigits_toDigits n.natAbs c (( List.rdropWhile_prefix _ _).subset hc)
  head := by
    intro h
    obtain ⟨_, hrest⟩ := List.rdropWhile_prefix (· == '0') (Nat.toDigits 10 n.natAbs)
    have hhead : (Nat.toDigits 10 n.natAbs).head? = some '0' := by
      rw [← hrest, List.head?_append, h]
      rfl
    rw [(Decimal.isWhole_toDigits n.natAbs).head hhead] at h
    cases h
  last := Decimal.getLast?_rdropWhile_zero _

section Integers

variable {n : ℤ}

theorem dp_ofInt (h : n ≠ 0) : (ofInt n).dp = (Nat.toDigits 10 n.natAbs).length := if_neg h

theorem formatG_ofInt (h : n.natAbs < 10 ^ 6) :
    (ofInt n).formatG = (ofInt n).sign ++ Strconv.formatNat n.natAbs := by
  by_cases hzero : n = 0
  · rw [hzero]
    decide
  have hdp := dp_ofInt hzero
  have hlength : (Nat.toDigits 10 n.natAbs).length ≤ 6 :=
    (Nat.length_toDigits_le_iff (by decide) (by decide)).mpr h
  have hpos := List.length_pos_iff.mpr (Nat.toDigits_ne_nil (n := n.natAbs) (b := 10))
  obtain ⟨k, hk⟩ := Decimal.exists_rdropWhile_zero (Nat.toDigits 10 n.natAbs)
  change Nat.toDigits 10 n.natAbs = (ofInt n).d ++ List.replicate k '0' at hk
  have hd : (ofInt n).d.length + k = (Nat.toDigits 10 n.natAbs).length := by
    rw [hk, List.length_append, List.length_replicate]
  have hplain : ¬ ((ofInt n).dp - 1 < -4 ∨ 6 ≤ (ofInt n).dp - 1) := by omega
  have hprec : ¬ 0 < ((ofInt n).d.length - (ofInt n).dp).toNat := by omega
  have hwhole : 0 < (ofInt n).dp := by omega
  have htake : (ofInt n).d.take (ofInt n).dp.toNat = (ofInt n).d :=
    List.take_of_length_le (by omega)
  have hzeros : (ofInt n).dp.toNat - (ofInt n).d.length = k := by omega
  rw [formatG, if_neg hplain, fmtF]
  rw [if_neg hprec, if_pos hwhole, htake, hzeros, ← hk, String.append_empty]
  rfl

theorem mem_formatG_ofInt (h : 10 ^ 6 ≤ n.natAbs) : 'e' ∈ (ofInt n).formatG.toList := by
  have hzero : n ≠ 0 := by
    rintro rfl
    exact absurd h (by decide)
  have hlength : ¬ (Nat.toDigits 10 n.natAbs).length ≤ 6 := by
    rw [Nat.length_toDigits_le_iff (by decide) (by decide)]
    omega
  have hdp := dp_ofInt hzero
  rw [formatG, if_pos (.inr (by omega)), fmtE]
  simp

end Integers

end Float64

end PolicyEngine.Go

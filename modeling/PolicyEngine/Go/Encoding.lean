import Mathlib.Data.Fintype.BigOperators
import Mathlib.Tactic.Ring
import PolicyEngine.Code.Layout
import PolicyEngine.Go.Text

namespace PolicyEngine.Go.Encoding

open PolicyEngine.Code

def hexDigit (c : Char) : Option ℕ :=
  if '0' ≤ c ∧ c ≤ '9' then some (c.toNat - '0'.toNat)
  else if 'a' ≤ c ∧ c ≤ 'f' then some (c.toNat - 'a'.toNat + 10)
  else if 'A' ≤ c ∧ c ≤ 'F' then some (c.toNat - 'A'.toNat + 10)
  else none

def hexChars (bs : List UInt8) : List Char :=
  bs.flatMap fun b ↦ [Nat.digitChar (b.toNat / 16), Nat.digitChar (b.toNat % 16)]

def hexEncode (bs : List UInt8) : String := String.ofList (hexChars bs)

def hexDecodeChars : List Char → Option (List UInt8)
  | [] => some []
  | [_] => none
  | a :: b :: cs => do
    let hi ← hexDigit a
    let lo ← hexDigit b
    let rest ← hexDecodeChars cs
    some (UInt8.ofNat (hi * 16 + lo) :: rest)

/-- `hex.DecodeString`, which takes digits of either case. -/
def hexDecode (s : String) : Option (List UInt8) := hexDecodeChars s.toList

def isLower (s : String) : Bool := s.toList.all fun c ↦ !c.isUpper

/-- The `w` low bytes of a number, most significant first. -/
def beBytes : ℕ → ℕ → List UInt8
  | 0, _ => []
  | w + 1, n => UInt8.ofNat (n / 256 ^ w) :: beBytes w n

def beInt64 (n : Int64) : List UInt8 := beBytes 8 n.toUInt64.toNat

/-- Bytes after their length as a big-endian `uint32`. -/
def lengthPrefixed (bs : List UInt8) : List UInt8 := beBytes 4 bs.length ++ bs

section Fixed

@[simp] theorem length_beBytes (w n : ℕ) : (beBytes w n).length = w := by
  induction w with
  | zero => rfl
  | succ _ ih => simp [beBytes, ih]

theorem foldl_beBytes (w n acc : ℕ) :
    (beBytes w n).foldl (fun acc b ↦ acc * 256 + b.toNat) acc = acc * 256 ^ w + n % 256 ^ w := by
  induction w generalizing acc with
  | zero => simp [beBytes, Nat.mod_one]
  | succ _ ih =>
    rw [beBytes, List.foldl_cons, ih, Nat.mod_pow_succ, UInt8.toNat_ofNat',
      show (2 : ℕ) ^ 8 = 256 by decide]
    ring

theorem beBytes_inj {w a b : ℕ} (ha : a < 256 ^ w) (hb : b < 256 ^ w)
    (h : beBytes w a = beBytes w b) : a = b := by
  have hf := congrArg (List.foldl (fun acc b ↦ acc * 256 + b.toNat) 0) h
  rw [foldl_beBytes, foldl_beBytes, Nat.mod_eq_of_lt ha, Nat.mod_eq_of_lt hb] at hf
  omega

theorem beInt64_inj {a b : Int64} (h : beInt64 a = beInt64 b) : a = b := by
  have hlt (n : Int64) : n.toUInt64.toNat < 256 ^ 8 := n.toUInt64.toNat_lt
  have hu : a.toUInt64 = b.toUInt64 := UInt64.toNat.inj (beBytes_inj (hlt a) (hlt b) h)
  rw [← Int64.toInt64_toUInt64 a, ← Int64.toInt64_toUInt64 b, hu]

theorem determines_beInt64 : Determines (fun _ ↦ True) beInt64 Eq :=
  .of_length (fun _ _ ↦ length_beBytes 8 _) fun _ _ _ _ ↦ beInt64_inj

theorem determines_lengthPrefixed :
    Determines (fun bs ↦ bs.length < 2 ^ 32) lengthPrefixed Eq := by
  intro _ _ _ _ _ _ heq
  unfold lengthPrefixed at heq
  rw [List.append_assoc, List.append_assoc] at heq
  obtain ⟨hlen, hrest⟩ := List.append_inj heq (by simp)
  exact List.append_inj hrest (beBytes_inj (by omega) (by omega) hlen)

theorem determines_counted {α : Type} {P : α → Prop} {enc : α → List UInt8}
    (h : Determines P enc Eq) :
    Determines (fun l : List α ↦ l.length < 2 ^ 32 ∧ ∀ a ∈ l, P a)
      (fun l ↦ beBytes 4 l.length ++ l.flatMap enc) Eq := by
  intro a b ha hb _ _ heq
  rw [List.append_assoc, List.append_assoc] at heq
  obtain ⟨hcount, hrest⟩ := List.append_inj heq (by simp)
  have hlen : a.length = b.length := beBytes_inj (by omega) (by omega) hcount
  exact h.flatMap_inj hlen ha.2 hb.2 hrest

theorem length_le_card_pow {ids : List Int64} (hnodup : ids.Nodup) {alphabet : Finset UInt8}
    (h : ∀ id ∈ ids, ∀ b ∈ beInt64 id, b ∈ alphabet) : ids.length ≤ alphabet.card ^ 8 := by
  have hlen (id : Int64) : (beInt64 id).length = 8 := length_beBytes 8 _
  let word (id : Int64) (hid : id ∈ ids) : Fin 8 → alphabet := fun i ↦
    ⟨(beInt64 id).get (i.cast (hlen id).symm), h id hid _ (List.get_mem _ _)⟩
  have hwords : (ids.pmap word fun _ hid ↦ hid).Nodup := by
    refine hnodup.pmap ?_
    intro a _ b _ heq
    apply beInt64_inj
    apply List.ext_get ((hlen a).trans (hlen b).symm)
    intro n hn _
    exact congrArg Subtype.val (congrFun heq ⟨n, (hlen a) ▸ hn⟩)
  have hcard := hwords.length_le_card
  rwa [List.length_pmap, Fintype.card_fun, Fintype.card_fin, Fintype.card_coe] at hcard

end Fixed

section Hex

theorem hexDigit_digitChar {n : ℕ} (h : n < 16) : hexDigit (Nat.digitChar n) = some n := by
  revert n
  decide

theorem hexDecode_hexEncode (bs : List UInt8) : hexDecode (hexEncode bs) = some bs := by
  rw [hexDecode, hexEncode, String.toList_ofList]
  induction bs with
  | nil => rfl
  | cons b _ ih =>
    have hb := b.toNat_lt
    have hval : UInt8.ofNat (b.toNat / 16 * 16 + b.toNat % 16) = b := by
      rw [Nat.div_add_mod' b.toNat 16, UInt8.ofNat_toNat]
    simp only [hexChars, List.flatMap_cons, List.cons_append, List.nil_append] at ih ⊢
    rw [hexDecodeChars, hexDigit_digitChar (by omega), hexDigit_digitChar (by omega), ih]
    simp only [Option.bind_eq_bind, Option.bind_some, hval]

theorem digitChar_of_hexDigit {c : Char} {n : ℕ} (hc : c.isUpper = false)
    (h : hexDigit c = some n) : n < 16 ∧ Nat.digitChar n = c := by
  have hdigit : ∀ n < 10, Nat.digitChar n = Char.ofNat (n + 48) := by decide
  have hletter : ∀ n < 6, Nat.digitChar (n + 10) = Char.ofNat (n + 97) := by decide
  unfold hexDigit at h
  split_ifs at h with hnum hlow hupp
  · obtain ⟨hlo, hhi⟩ := hnum
    have hlo : 48 ≤ c.toNat := hlo
    have hhi : c.toNat ≤ 57 := hhi
    have hn : c.toNat - 48 = n := Option.some.inj h
    refine ⟨by omega, ?_⟩
    rw [hdigit n (by omega), ← hn, Nat.sub_add_cancel hlo, Char.ofNat_toNat]
  · obtain ⟨hlo, hhi⟩ := hlow
    have hlo : 97 ≤ c.toNat := hlo
    have hhi : c.toNat ≤ 102 := hhi
    have hn : c.toNat - 97 + 10 = n := Option.some.inj h
    refine ⟨by omega, ?_⟩
    rw [← hn, hletter _ (by omega), Nat.sub_add_cancel hlo, Char.ofNat_toNat]
  · obtain ⟨hlo, hhi⟩ := hupp
    have hupper : c.isUpper = true :=
      Text.isUpper_iff.mpr ⟨hlo, Nat.le_trans (show c.toNat ≤ 70 from hhi) (by decide)⟩
    rw [hupper] at hc
    cases hc

theorem hexChars_of_hexDecodeChars {cs : List Char} {bs : List UInt8}
    (hlower : ∀ c ∈ cs, c.isUpper = false) (h : hexDecodeChars cs = some bs) :
    hexChars bs = cs := by
  induction cs using hexDecodeChars.induct generalizing bs with
  | case1 =>
    cases h
    rfl
  | case2 => cases h
  | case3 a b _ ih =>
    simp only [hexDecodeChars, Option.bind_eq_bind, Option.bind_eq_some_iff, Option.some.injEq] at h
    obtain ⟨hi, hhi, lo, hlo, _, hrest, rfl⟩ := h
    obtain ⟨_, ha⟩ := digitChar_of_hexDigit (hlower a (by simp)) hhi
    obtain ⟨_, hb⟩ := digitChar_of_hexDigit (hlower b (by simp)) hlo
    have hval : (UInt8.ofNat (hi * 16 + lo)).toNat = hi * 16 + lo :=
      UInt8.toNat_ofNat_of_lt' (show hi * 16 + lo < 256 by omega)
    have hdiv : (hi * 16 + lo) / 16 = hi := by omega
    have hmod : (hi * 16 + lo) % 16 = lo := by omega
    have htail := ih (fun c hc ↦ hlower c (by simp [hc])) hrest
    rw [hexChars, List.flatMap_cons, hval, hdiv, hmod, ha, hb, ← hexChars, htail]
    rfl

theorem utf8ByteSize_of_hexDecode {s : String} {bs : List UInt8} (hlower : isLower s = true)
    (h : hexDecode s = some bs) : hexEncode bs = s ∧ s.utf8ByteSize = 2 * bs.length := by
  have hchars : hexChars bs = s.toList := by
    refine hexChars_of_hexDecodeChars (fun c hc ↦ ?_) h
    simpa using List.all_eq_true.mp hlower c hc
  have hdigit : ∀ n < 16, (Nat.digitChar n).val ≤ 127 := by decide
  have hascii : ∀ c ∈ s.toList, c.val ≤ 127 := by
    intro _ hc
    rw [← hchars, hexChars, List.mem_flatMap] at hc
    obtain ⟨b, -, hc⟩ := hc
    have hb := b.toNat_lt
    simp only [List.mem_cons, List.not_mem_nil, or_false] at hc
    obtain rfl | rfl := hc
    · exact hdigit _ (by omega)
    · exact hdigit _ (by omega)
  refine ⟨by rw [hexEncode, hchars, String.ofList_toList], ?_⟩
  rw [Text.utf8ByteSize_of_ascii hascii, ← hchars, hexChars, List.length_flatMap]
  simp [Nat.mul_comm]

theorem digitChar_of_mem_hexEncode {c : Char} {bs : List UInt8} (h : c ∈ (hexEncode bs).toList) :
    ∃ n < 16, Nat.digitChar n = c := by
  rw [hexEncode, String.toList_ofList, hexChars, List.mem_flatMap] at h
  obtain ⟨b, -, h⟩ := h
  have hb := b.toNat_lt
  simp only [List.mem_cons, List.not_mem_nil, or_false] at h
  obtain rfl | rfl := h
  · exact ⟨_, by omega, rfl⟩
  · exact ⟨_, by omega, rfl⟩

theorem isLower_hexEncode (bs : List UInt8) : isLower (hexEncode bs) = true := by
  have hdigit : ∀ n < 16, (Nat.digitChar n).isUpper = false := by decide
  refine List.all_eq_true.mpr fun c hc ↦ ?_
  obtain ⟨n, hn, rfl⟩ := digitChar_of_mem_hexEncode hc
  rw [hdigit n hn]
  rfl

theorem dot_notMem_hexEncode {bs : List UInt8} : '.' ∉ (hexEncode bs).toList := by
  have hdigit : ∀ n < 16, Nat.digitChar n ≠ '.' := by decide
  intro h
  obtain ⟨n, hn, hdot⟩ := digitChar_of_mem_hexEncode h
  exact hdigit n hn hdot

theorem slash_notMem_hexEncode {bs : List UInt8} : '/' ∉ (hexEncode bs).toList := by
  have hdigit : ∀ n < 16, Nat.digitChar n ≠ '/' := by decide
  intro h
  obtain ⟨n, hn, hslash⟩ := digitChar_of_mem_hexEncode h
  exact hdigit n hn hslash

theorem hexEncode_injective : Function.Injective hexEncode := by
  intro _ _ h
  have hdecode := congrArg hexDecode h
  rw [hexDecode_hexEncode, hexDecode_hexEncode] at hdecode
  exact Option.some.inj hdecode

theorem isSome_hexDecodeChars {cs : List Char} (heven : cs.length % 2 = 0)
    (h : ∀ c ∈ cs, (hexDigit c).isSome = true) : (hexDecodeChars cs).isSome = true := by
  induction cs using hexDecodeChars.induct with
  | case1 => rfl
  | case2 => simp at heven
  | case3 a b cs ih =>
    obtain ⟨_, hhi⟩ := Option.isSome_iff_exists.mp (h a (by simp))
    obtain ⟨_, hlo⟩ := Option.isSome_iff_exists.mp (h b (by simp))
    have hlen : cs.length % 2 = 0 := by
      simp only [List.length_cons] at heven
      omega
    obtain ⟨_, hrest⟩ :=
      Option.isSome_iff_exists.mp (ih hlen fun c hc ↦ h c (by simp [hc]))
    rw [hexDecodeChars, hhi, hlo, hrest]
    rfl

end Hex

end PolicyEngine.Go.Encoding

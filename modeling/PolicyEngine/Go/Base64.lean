import Mathlib.Data.List.DropRight
import PolicyEngine.Go.Text

namespace PolicyEngine.Go.Base64

/-- The six-bit numbers that the bytes are cut into, the last one filled up with zeros. -/
def sextets : List UInt8 → List ℕ
  | [] => []
  | [a] => [a.toNat / 4, a.toNat % 4 * 16]
  | [a, b] => [a.toNat / 4, a.toNat % 4 * 16 + b.toNat / 16, b.toNat % 16 * 4]
  | a :: b :: c :: rest =>
    a.toNat / 4 :: (a.toNat % 4 * 16 + b.toNat / 16) :: (b.toNat % 16 * 4 + c.toNat / 64) ::
      c.toNat % 64 :: sextets rest

/-- Unused low bits of the last number are ignored. -/
def octets : List ℕ → Option (List UInt8)
  | [] => some []
  | [_] => none
  | [a, b] => some [UInt8.ofNat (a * 4 + b / 16)]
  | [a, b, c] => some [UInt8.ofNat (a * 4 + b / 16), UInt8.ofNat (b % 16 * 16 + c / 4)]
  | a :: b :: c :: d :: rest =>
    (octets rest).map fun bs ↦ UInt8.ofNat (a * 4 + b / 16) ::
      UInt8.ofNat (b % 16 * 16 + c / 4) :: UInt8.ofNat (c % 4 * 64 + d) :: bs

/-- An alphabet, and whether `=` fills up the last quantum. -/
structure Encoding where
  alphabet : List Char
  padded : Bool
  index : ∀ n < 64, alphabet.findIdx? (· == alphabet.getD n 'A') = some n
  plain : ∀ n < 64, alphabet.getD n 'A' ∉ ['=', '\r', '\n']

/-- `base64.StdEncoding`. -/
def std : Encoding where
  alphabet := "ABCDEFGHIJKLMNOPQRSTUVWXYZabcdefghijklmnopqrstuvwxyz0123456789+/".toList
  padded := true
  index := by decide
  plain := by decide

/-- `base64.RawURLEncoding`. -/
def rawURL : Encoding where
  alphabet := "ABCDEFGHIJKLMNOPQRSTUVWXYZabcdefghijklmnopqrstuvwxyz0123456789-_".toList
  padded := false
  index := by decide
  plain := by decide

namespace Encoding

variable (e : Encoding)

def char (n : ℕ) : Char := e.alphabet.getD n 'A'

def value (c : Char) : Option ℕ := e.alphabet.findIdx? (· == c)

def padding (length : ℕ) : List Char :=
  if e.padded then List.replicate ((3 - length % 3) % 3) '=' else []

def encode (bs : List UInt8) : String :=
  String.ofList ((sextets bs).map e.char ++ e.padding bs.length)

def withoutPadding (cs : List Char) : Option (List Char) :=
  if e.padded then
    let chars := cs.rdropWhile (· == '=')
    if cs.length % 4 = 0 ∧ cs.length ≤ chars.length + 2 then some chars else none
  else some cs

def decodeChars (cs : List Char) : Option (List UInt8) := (cs.mapM e.value).bind octets

/-- `DecodeString`, which skips line breaks. -/
def decode (s : String) : Option (List UInt8) :=
  (e.withoutPadding (s.toList.filter fun c ↦ c != '\r' && c != '\n')).bind e.decodeChars

end Encoding

section Quanta

theorem lt_of_mem_sextets (bs : List UInt8) : ∀ n ∈ sextets bs, n < 64 := by
  fun_induction sextets bs with
  | case1 => exact List.forall_mem_nil _
  | case2 a =>
    have ha := a.toNat_lt
    simp only [List.forall_mem_cons]
    exact ⟨by omega, by omega, List.forall_mem_nil _⟩
  | case3 a b =>
    have ha := a.toNat_lt
    have hb := b.toNat_lt
    simp only [List.forall_mem_cons]
    exact ⟨by omega, by omega, by omega, List.forall_mem_nil _⟩
  | case4 a b c rest ih =>
    have ha := a.toNat_lt
    have hb := b.toNat_lt
    have hc := c.toNat_lt
    simp only [List.forall_mem_cons]
    exact ⟨by omega, by omega, by omega, by omega, ih⟩

theorem length_sextets_le (bs : List UInt8) : (sextets bs).length ≤ 2 * bs.length := by
  fun_induction sextets bs with
  | case1 => rfl
  | case2 => simp
  | case3 => simp
  | case4 =>
    simp only [List.length_cons]
    omega

theorem length_sextets (bs : List UInt8) :
    ((sextets bs).length + (3 - bs.length % 3) % 3) % 4 = 0 := by
  fun_induction sextets bs with
  | case1 => rfl
  | case2 => simp
  | case3 => simp
  | case4 =>
    simp only [List.length_cons]
    omega

theorem ofNat_eq {n : ℕ} {a : UInt8} (h : n = a.toNat) : UInt8.ofNat n = a := by
  rw [h, UInt8.ofNat_toNat]

theorem octets_sextets (bs : List UInt8) : octets (sextets bs) = some bs := by
  fun_induction sextets bs with
  | case1 => rfl
  | case2 a => rw [octets, ofNat_eq (a := a) (by omega)]
  | case3 a b =>
    have hb := b.toNat_lt
    rw [octets, ofNat_eq (a := a) (by omega), ofNat_eq (a := b) (by omega)]
  | case4 a b c rest ih =>
    have hb := b.toNat_lt
    have hc := c.toNat_lt
    rw [octets, ih, Option.map_some, ofNat_eq (a := a) (by omega), ofNat_eq (a := b) (by omega),
      ofNat_eq (a := c) (by omega)]

end Quanta

namespace Encoding

variable (e : Encoding) (bs : List UInt8)

theorem plain_of_mem {c : Char} (h : c ∈ (sextets bs).map e.char) :
    c ≠ '=' ∧ (c != '\r' && c != '\n') = true := by
  obtain ⟨n, hn, rfl⟩ := List.mem_map.mp h
  have hplain := e.plain n (lt_of_mem_sextets bs n hn)
  simp only [List.mem_cons, List.not_mem_nil, or_false, not_or] at hplain
  simpa [char] using hplain

theorem filter_encode :
    ((e.encode bs).toList.filter fun c ↦ c != '\r' && c != '\n') =
      (e.encode bs).toList := by
  rw [List.filter_eq_self, encode, String.toList_ofList, List.forall_mem_append]
  refine ⟨fun c hc ↦ (e.plain_of_mem bs hc).2, fun c hc ↦ ?_⟩
  unfold padding at hc
  split_ifs at hc
  · rw [List.eq_of_mem_replicate hc]
    decide
  · cases hc

theorem withoutPadding_encode :
    e.withoutPadding (e.encode bs).toList = some ((sextets bs).map e.char) := by
  rw [encode, String.toList_ofList, withoutPadding, padding]
  split_ifs
  · have hchars : ((sextets bs).map e.char ++ List.replicate ((3 - bs.length % 3) % 3) '=').rdropWhile
        (· == '=') = (sextets bs).map e.char := by
      rw [List.rdropWhile, List.reverse_append, List.reverse_replicate,
        List.dropWhile_append_of_pos (by simp), List.dropWhile_eq_self_iff.mpr ?_,
        List.reverse_reverse]
      intro hpos
      have hmem := List.mem_reverse.mp (List.getElem_mem hpos)
      simpa using (e.plain_of_mem bs hmem).1
    have hlength := length_sextets bs
    rw [hchars]
    refine if_pos ?_
    rw [List.length_append, List.length_map, List.length_replicate]
    exact ⟨hlength, by omega⟩
  · rw [List.append_nil]

theorem decode_encode : e.decode (e.encode bs) = some bs := by
  have hvalues {ns : List ℕ} (h : ∀ n ∈ ns, n < 64) : (ns.map e.char).mapM e.value = some ns := by
    induction ns with
    | nil => rfl
    | cons n ns ih =>
      rw [List.forall_mem_cons] at h
      have hn : e.value (e.char n) = some n := e.index n h.1
      rw [List.map_cons, List.mapM_cons, hn, ih h.2]
      rfl
  rw [decode, filter_encode, withoutPadding_encode, Option.bind_some,
    decodeChars, hvalues (lt_of_mem_sextets bs), Option.bind_some, octets_sextets]

end Encoding

end PolicyEngine.Go.Base64

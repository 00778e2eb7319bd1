import Mathlib.Algebra.GroupWithZero.Nat
import Mathlib.Data.List.DropRight
import Mathlib.Data.List.Infix

namespace PolicyEngine.Go.Text

/-- A string is read through its characters; its Go length and its raw
contents are the UTF-8 bytes. -/
def bytes (s : String) : List UInt8 := s.toByteArray.data.toList

def hasPrefix (s p : String) : Bool := p.toList.isPrefixOf s.toList

def trimPrefix (s p : String) : String :=
  if hasPrefix s p then String.ofList (s.toList.drop p.toList.length) else s

def hasSuffix (s p : String) : Bool := p.toList.isSuffixOf s.toList

def trimSuffix (s p : String) : String :=
  if hasSuffix s p then String.ofList (s.toList.take (s.toList.length - p.toList.length)) else s

def contains (s sub : String) : Bool := s.toList.tails.any sub.toList.isPrefixOf

def split (s : String) (sep : Char) : List String := (s.toList.splitOn sep).map String.ofList

def trimRight (s : String) (c : Char) : String := String.ofList (s.toList.rdropWhile (· == c))

def isSpace (c : Char) : Bool :=
  let n := c.toNat
  (9 ≤ n && n ≤ 13) || n == 0x20 || n == 0x85 || n == 0xA0 || n == 0x1680 ||
    (0x2000 ≤ n && n ≤ 0x200A) || n == 0x2028 || n == 0x2029 || n == 0x202F ||
    n == 0x205F || n == 0x3000

def trimSpace (s : String) : String :=
  String.ofList ((s.toList.dropWhile isSpace).rdropWhile isSpace)

theorem trim_of_all {space : Char → Bool} {cs : List Char} (h : ∀ c ∈ cs, space c = false) :
    (cs.dropWhile space).rdropWhile space = cs := by
  have hfront : cs.dropWhile space = cs := by
    rw [List.dropWhile_eq_self_iff]
    intro hl
    simp [h _ (List.getElem_mem hl)]
  rw [hfront, List.rdropWhile_eq_self_iff]
  intro hl
  simp [h _ (List.getLast_mem hl)]

theorem trimSpace_of_all {s : String} (h : ∀ c ∈ s.toList, isSpace c = false) :
    trimSpace s = s := by
  rw [trimSpace, trim_of_all h, String.ofList_toList]

theorem mem_of_mem_trimSpace {s : String} {c : Char} (h : c ∈ (trimSpace s).toList) :
    c ∈ s.toList := by
  rw [trimSpace, String.toList_ofList] at h
  exact (List.dropWhile_sublist isSpace).subset (( List.rdropWhile_prefix isSpace _).subset h)

theorem isSpace_of_isDigit {c : Char} (h : c.isDigit = true) : isSpace c = false := by
  rw [Char.isDigit, Bool.and_eq_true, decide_eq_true_iff, decide_eq_true_iff] at h
  have hlo : 48 ≤ c.toNat := h.1
  have hhi : c.toNat ≤ 57 := h.2
  simp only [isSpace, Bool.or_eq_false_iff, Bool.and_eq_false_iff, decide_eq_false_iff_not,
    beq_eq_false_iff_ne]
  omega

theorem hasPrefix_iff {s p : String} : hasPrefix s p = true ↔ ∃ t, s = p ++ t := by
  rw [hasPrefix, List.isPrefixOf_iff_prefix]
  constructor
  · rintro ⟨t, h⟩
    refine ⟨String.ofList t, String.toList_inj.mp ?_⟩
    rw [String.toList_append, String.toList_ofList, h]
  · rintro ⟨t, rfl⟩
    exact ⟨t.toList, String.toList_append.symm⟩

theorem hasPrefix_append (p t : String) : hasPrefix (p ++ t) p = true :=
  hasPrefix_iff.mpr ⟨t, rfl⟩

theorem contains_iff {s sub : String} : contains s sub = true ↔ sub.toList <:+: s.toList := by
  rw [contains, List.any_eq_true, List.infix_iff_prefix_suffix]
  constructor
  · intro h
    obtain ⟨t, ht, hpre⟩ := h
    exact ⟨t, List.isPrefixOf_iff_prefix.mp hpre, (List.mem_tails _ _).mp ht⟩
  · intro h
    obtain ⟨t, hpre, ht⟩ := h
    exact ⟨t, (List.mem_tails _ _).mpr ht, List.isPrefixOf_iff_prefix.mpr hpre⟩

theorem contains_singleton {s : String} {c : Char} :
    contains s (String.singleton c) = true ↔ c ∈ s.toList := by
  rw [contains_iff, String.toList_singleton, List.singleton_infix_iff]

theorem toList_eq_trimSuffix (s p : String) :
    s.toList = (trimSuffix s p).toList ++ if hasSuffix s p then p.toList else [] := by
  unfold trimSuffix
  cases h : hasSuffix s p with
  | false => rw [if_neg (by decide), if_neg (by decide), List.append_nil]
  | true =>
    rw [hasSuffix, List.isSuffixOf_iff_suffix] at h
    obtain ⟨front, h⟩ := h
    have hlength : s.toList.length - p.toList.length = front.length := by
      rw [← h, List.length_append, Nat.add_sub_cancel]
    rw [if_pos rfl, if_pos rfl, String.toList_ofList, hlength, ← h, List.take_left]

theorem split_eq_singleton {s : String} {sep : Char} (h : sep ∉ s.toList) : split s sep = [s] := by
  simp [split, List.splitOn_eq_singleton h]

theorem split_append_self (s t : String) (sep : Char) :
    split (s ++ String.singleton sep ++ t) sep = split s sep ++ split t sep := by
  have hs : (s ++ String.singleton sep ++ t).toList = s.toList ++ sep :: t.toList := by
    simp [String.toList_append]
  rw [split, hs, List.splitOn_append_cons_self, List.map_append]
  rfl

theorem split_append {s t : String} {sep : Char} (h : sep ∉ s.toList) :
    split (s ++ String.singleton sep ++ t) sep = s :: split t sep := by
  rw [split_append_self, split_eq_singleton h]
  rfl

theorem notMem_of_mem_splitOn {cs piece : List Char} {sep : Char} (h : piece ∈ cs.splitOn sep) :
    sep ∉ piece := by
  by_cases hsep : sep ∈ cs
  · obtain ⟨_, _, rfl, hfront⟩ := List.eq_append_cons_of_mem hsep
    rw [List.splitOn_append_cons_self, List.splitOn_eq_singleton hfront] at h
    obtain rfl | h := List.mem_cons.mp h
    · exact hfront
    · exact notMem_of_mem_splitOn h
  · rw [List.splitOn_eq_singleton hsep, List.mem_singleton] at h
    rw [h]
    exact hsep
termination_by cs.length

theorem notMem_of_mem_split {s piece : String} {sep : Char} (h : piece ∈ split s sep) :
    sep ∉ piece.toList := by
  obtain ⟨_, hcs, rfl⟩ := List.mem_map.mp h
  rw [String.toList_ofList]
  exact notMem_of_mem_splitOn hcs

theorem append_inj_of_notMem {s s' t t' : String} {sep : Char} (ht : sep ∉ t.toList)
    (ht' : sep ∉ t'.toList)
    (h : s ++ String.singleton sep ++ t = s' ++ String.singleton sep ++ t') : t = t' := by
  have hsplit := congrArg (fun text ↦ (split text sep).getLast?) h
  simp only [split_append_self, split_eq_singleton ht, split_eq_singleton ht',
    List.getLast?_concat] at hsplit
  exact Option.some.inj hsplit

theorem split_append_eq_pair_iff {s t : String} {sep : Char} :
    split (s ++ String.singleton sep ++ t) sep = [s, t] ↔ sep ∉ s.toList ∧ sep ∉ t.toList := by
  constructor
  · intro h
    have hpiece : ∀ piece ∈ [s, t], sep ∉ piece.toList := by
      rw [← h]
      exact fun _ ↦ notMem_of_mem_split
    exact ⟨hpiece s (by simp), hpiece t (by simp)⟩
  · rintro ⟨hs, ht⟩
    rw [split_append hs, split_eq_singleton ht]

theorem bytes_injective : Function.Injective bytes := by
  intro _ _ h
  apply String.toByteArray_inj.mp
  apply ByteArray.ext
  exact Array.toList_inj.mp h

@[simp] theorem length_bytes (s : String) : (bytes s).length = s.utf8ByteSize := rfl

theorem utf8ByteSize_eq_sum (s : String) : s.utf8ByteSize = (s.toList.map Char.utf8Size).sum := by
  rw [← String.ofList_toList (s := s)]
  generalize s.toList = cs
  induction cs with
  | nil => rfl
  | cons c cs ih =>
    have happend : String.ofList (c :: cs) = String.singleton c ++ String.ofList cs := by simp
    rw [happend, String.utf8ByteSize_append, String.utf8ByteSize_singleton, ih]
    simp

theorem utf8ByteSize_le (s : String) : s.utf8ByteSize ≤ 4 * s.toList.length := by
  rw [utf8ByteSize_eq_sum]
  induction s.toList with
  | nil => rfl
  | cons c =>
    have hc := c.utf8Size_le_four
    simp only [List.map_cons, List.sum_cons, List.length_cons]
    omega

theorem isUpper_iff {c : Char} : c.isUpper = true ↔ 65 ≤ c.toNat ∧ c.toNat ≤ 90 :=
  decide_eq_true_iff

theorem isLower_iff {c : Char} : c.isLower = true ↔ 97 ≤ c.toNat ∧ c.toNat ≤ 122 := by
  have h : c.isLower = (decide (97 ≤ c.toNat) && decide (c.toNat ≤ 122)) := rfl
  rw [h, Bool.and_eq_true, decide_eq_true_iff, decide_eq_true_iff]

theorem utf8ByteSize_of_ascii {s : String} (h : ∀ c ∈ s.toList, c.val ≤ 127) :
    s.utf8ByteSize = s.toList.length := by
  have hone : s.toList.map Char.utf8Size = s.toList.map fun _ ↦ 1 :=
    List.map_congr_left fun c hc ↦ Char.utf8Size_eq_one_iff.mpr (h c hc)
  rw [utf8ByteSize_eq_sum, hone]
  simp

theorem bytes_ofList (cs : List Char) :
    bytes (String.ofList cs) = cs.flatMap String.utf8EncodeChar := by
  simp [bytes, String.toByteArray_ofList, List.utf8Encode]

theorem bytes_of_ascii {s : String} (h : ∀ c ∈ s.toList, c.val ≤ 127) :
    bytes s = s.toList.map fun c ↦ c.val.toUInt8 := by
  rw [← String.ofList_toList (s := s), bytes_ofList, String.toList_ofList, List.map_eq_flatMap]
  apply List.flatMap_congr
  intro c hc
  exact String.utf8EncodeChar_eq_singleton (Char.utf8Size_eq_one_iff.mpr (h c hc))

theorem utf8EncodeChar_of_not_ascii {c : Char} (h : ¬ c.val ≤ 127) :
    ∃ b bs, String.utf8EncodeChar c = b :: bs ∧ 128 ≤ b.toNat := by
  have hc : ¬ c.val.toNat ≤ 127 := h
  unfold String.utf8EncodeChar
  simp only [hc, if_false]
  split_ifs
  · refine ⟨_, _, rfl, ?_⟩
    rw [UInt8.toNat_ofNat_of_lt' (by change _ < 256; omega)]
    omega
  · refine ⟨_, _, rfl, ?_⟩
    rw [UInt8.toNat_ofNat_of_lt' (by change _ < 256; omega)]
    omega
  · refine ⟨_, _, rfl, ?_⟩
    rw [UInt8.toNat_ofNat_of_lt' (by change _ < 256; omega)]
    omega

def utf8 (cs : List Char) : List UInt8 := cs.flatMap String.utf8EncodeChar

theorem utf8_append (cs ds : List Char) : utf8 (cs ++ ds) = utf8 cs ++ utf8 ds :=
  List.flatMap_append

theorem bytes_eq_utf8 (s : String) : bytes s = utf8 s.toList := by
  rw [utf8, ← bytes_ofList, String.ofList_toList]

theorem le_of_mem_utf8EncodeChar {c : Char} (h : ¬ c.val ≤ 127) {b : UInt8}
    (hb : b ∈ String.utf8EncodeChar c) : 128 ≤ b.toNat := by
  have hc : ¬ c.val.toNat ≤ 127 := h
  unfold String.utf8EncodeChar at hb
  simp only [hc, if_false] at hb
  split_ifs at hb <;> simp only [List.mem_cons, List.not_mem_nil, or_false] at hb
  · obtain rfl | rfl := hb <;> rw [UInt8.toNat_ofNat_of_lt' (by change _ < 256; omega)] <;> omega
  · obtain rfl | rfl | rfl := hb <;>
      rw [UInt8.toNat_ofNat_of_lt' (by change _ < 256; omega)] <;> omega
  · obtain rfl | rfl | rfl | rfl := hb <;>
      rw [UInt8.toNat_ofNat_of_lt' (by change _ < 256; omega)] <;> omega

theorem newline_of_mem_utf8 {cs : List Char} (h : 10 ∈ utf8 cs) : '\n' ∈ cs := by
  obtain ⟨c, _, hbyte⟩ := List.mem_flatMap.mp h
  by_cases hascii : c.val ≤ 127
  · rw [String.utf8EncodeChar_eq_singleton (Char.utf8Size_eq_one_iff.mpr hascii),
      List.mem_singleton] at hbyte
    have hlt : c.val.toNat ≤ 127 := hascii
    have hnat : c.val.toNat = 10 := by
      have hbyte' := congrArg UInt8.toNat hbyte
      rw [UInt32.toNat_toUInt8] at hbyte'
      change 10 = _ at hbyte'
      omega
    have hchar : c = '\n' := by
      rw [← Char.ofNat_toNat c, Char.toNat, hnat]
    rwa [← hchar]
  · exact absurd (le_of_mem_utf8EncodeChar hascii hbyte) (by decide)

end PolicyEngine.Go.Text

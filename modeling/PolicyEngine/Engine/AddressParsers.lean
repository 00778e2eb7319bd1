import PolicyEngine.Decimal.Digits
import PolicyEngine.Engine.Evaluator

namespace PolicyEngine.Engine

open PolicyEngine.Decimal PolicyEngine.Go

def Fits (cs : List Char) : Prop :=
  cs.all Char.isDigit = true ∧ cs.length ≤ 3 ∧ natValue cs ≤ 255

instance decidableFits (cs : List Char) : Decidable (Fits cs) :=
  inferInstanceAs (Decidable (_ ∧ _ ∧ _))

theorem natValue_le_append (cs ds : List Char) : natValue cs ≤ natValue (cs ++ ds) := by
  induction ds using List.reverseRecOn with
  | nil => rw [List.append_nil]
  | append_singleton =>
    rw [← List.append_assoc, natValue_concat]
    omega

theorem Fits.of_append {cs ds : List Char} (h : Fits (cs ++ ds)) : Fits cs := by
  obtain ⟨hall, hlength, hvalue⟩ := h
  rw [List.all_append, Bool.and_eq_true] at hall
  rw [List.length_append] at hlength
  exact ⟨hall.1, by omega, (natValue_le_append cs ds).trans hvalue⟩

def scanFields : List (List Char) → List ℕ → Option (List ℕ × List Char)
  | [], _ => none
  | [last], p => if Fits last then some (p, last) else none
  | field :: rest, p =>
    if Fits field ∧ field ≠ [] ∧ p.length < 3 then scanFields rest (p ++ [natValue field]) else none

theorem scanFields_of_not_fits {field : List Char} (h : ¬ Fits field) (rest : List (List Char))
    (p : List ℕ) : scanFields (field :: rest) p = none := by
  cases rest with
  | nil => rw [scanFields, if_neg h]
  | cons =>
    rw [scanFields, if_neg fun hc ↦ h hc.1]
    exact List.cons_ne_nil _ _

theorem scanFields_cons {field : List Char} {rest : List (List Char)} (hrest : rest ≠ [])
    (p : List ℕ) : scanFields (field :: rest) p =
      if Fits field ∧ field ≠ [] ∧ p.length < 3 then scanFields rest (p ++ [natValue field])
      else none := by
  cases rest with
  | nil => exact absurd rfl hrest
  | cons => rfl

theorem scanFields_append {init : List (List Char)} {last : List Char} {p : List ℕ}
    (hinit : ∀ field ∈ init, Fits field ∧ field ≠ []) (hlast : Fits last)
    (hp : p.length + init.length ≤ 3) :
    scanFields (init ++ [last]) p = some (p ++ init.map natValue, last) := by
  induction init generalizing p with
  | nil =>
    rw [List.nil_append, scanFields, if_pos hlast, List.map_nil, List.append_nil]
  | cons _ _ ih =>
    rw [List.forall_mem_cons] at hinit
    rw [List.length_cons] at hp
    rw [List.cons_append, scanFields_cons (List.append_ne_nil_of_right_ne_nil _ (by simp)),
      if_pos ⟨hinit.1.1, hinit.1.2, by omega⟩, ih hinit.2 (by simp; omega), List.map_cons,
      List.append_assoc, List.singleton_append]

theorem exists_of_scanFields {fields : List (List Char)} {p q : List ℕ} {last : List Char}
    (h : scanFields fields p = some (q, last)) :
    ∃ init, fields = init ++ [last] ∧ q = p ++ init.map natValue ∧
      (∀ field ∈ init, Fits field ∧ field ≠ []) ∧ Fits last := by
  induction fields generalizing p with
  | nil => cases h
  | cons field rest ih =>
    by_cases hrest : rest = []
    · rw [hrest, scanFields] at h
      split_ifs at h with hfits
      cases h
      exact ⟨[], by rw [hrest]; rfl, (List.append_nil _).symm, List.forall_mem_nil _, hfits⟩
    · rw [scanFields_cons hrest] at h
      split_ifs at h with hfield
      obtain ⟨init, hfields, hq, hinit, hlast⟩ := ih h
      refine ⟨field :: init, by rw [hfields]; rfl, ?_, ?_, hlast⟩
      · rw [hq, List.map_cons, List.append_assoc, List.singleton_append]
      · exact List.forall_mem_cons.mpr ⟨⟨hfield.1, hfield.2.1⟩, hinit⟩

section Loop

variable {c : Char} {bs : List UInt8} {p : List ℕ} {val digits : ℕ}

theorem isDigit_iff : c.isDigit = true ↔ 48 ≤ c.toNat ∧ c.toNat ≤ 57 := by
  rw [Char.isDigit, Bool.and_eq_true, decide_eq_true_iff, decide_eq_true_iff]
  rfl

theorem toNat_toUInt8 (h : c.val ≤ 127) : c.val.toUInt8.toNat = c.toNat := by
  have hc : c.val.toNat ≤ 127 := h
  rw [UInt32.toNat_toUInt8]
  exact Nat.mod_eq_of_lt (by omega)

theorem scanIPv4_digit (hc : c.isDigit = true) :
    scanIPv4 (String.utf8EncodeChar c ++ bs) p val digits =
      if val * 10 + (c.toNat - 48) > 255 ∨ digits + 1 > 3 then none
      else scanIPv4 bs p (val * 10 + (c.toNat - 48)) (digits + 1) := by
  have hdigit := isDigit_iff.mp hc
  have hascii : c.val ≤ 127 := by
    change c.toNat ≤ 127
    omega
  rw [String.utf8EncodeChar_eq_singleton (Char.utf8Size_eq_one_iff.mpr hascii),
    List.singleton_append, scanIPv4, toNat_toUInt8 hascii]
  rw [if_pos]
  rw [UInt8.le_iff_toNat_le, UInt8.le_iff_toNat_le, toNat_toUInt8 hascii]
  exact hdigit

theorem scanIPv4_dot : scanIPv4 (String.utf8EncodeChar '.' ++ bs) p val digits =
    if digits = 0 ∨ p.length ≥ 3 then none else scanIPv4 bs (p ++ [val]) 0 0 := rfl

theorem scanIPv4_other (hc : c.isDigit = false) (hdot : c ≠ '.') :
    scanIPv4 (String.utf8EncodeChar c ++ bs) p val digits = none := by
  by_cases hascii : c.val ≤ 127
  · have hrange : ¬ (48 ≤ c.toNat ∧ c.toNat ≤ 57) := by simp [← isDigit_iff, hc]
    have hne : c.toNat ≠ 46 := fun h ↦ hdot (Char.toNat_inj.mp h)
    rw [String.utf8EncodeChar_eq_singleton (Char.utf8Size_eq_one_iff.mpr hascii),
      List.singleton_append, scanIPv4, if_neg, if_neg]
    · intro h
      exact hne (by rw [← toNat_toUInt8 hascii, h]; rfl)
    · rw [UInt8.le_iff_toNat_le, UInt8.le_iff_toNat_le, toNat_toUInt8 hascii]
      exact hrange
  · obtain ⟨b, _, hencode, hb⟩ := Text.utf8EncodeChar_of_not_ascii hascii
    rw [hencode, List.cons_append, scanIPv4, if_neg, if_neg]
    · rintro rfl
      exact absurd hb (by decide)
    · rw [UInt8.le_iff_toNat_le, UInt8.le_iff_toNat_le]
      change ¬ (_ ∧ b.toNat ≤ 57)
      omega

/-- The loop decides by whole fields: after the digits `cur` of a field it does
what it does with `cur` put in front of the rest. -/
theorem scanIPv4_eq (cs : List Char) {cur : List Char} (hcur : Fits cur) :
    scanIPv4 (cs.flatMap String.utf8EncodeChar) p (natValue cur) cur.length =
      (scanFields ((cs.splitOn '.').modifyHead (cur ++ ·)) p).map
        fun r ↦ (r.1, natValue r.2, r.2.length) := by
  induction cs generalizing p cur with
  | nil =>
    rw [List.splitOn_nil, List.modifyHead_cons, List.append_nil, scanFields, if_pos hcur]
    rfl
  | cons c cs ih =>
    obtain ⟨field, _, hsplit⟩ := List.exists_cons_of_ne_nil (List.splitOn_ne_nil '.' cs)
    rw [List.flatMap_cons, List.splitOn_cons_eq_if_modifyHead]
    by_cases hdot : c = '.'
    · rw [hdot, scanIPv4_dot, if_pos (show ('.' == '.') = true by decide), List.modifyHead_cons,
        List.append_nil, scanFields_cons (List.splitOn_ne_nil _ _)]
      by_cases hfield : cur.length = 0 ∨ p.length ≥ 3
      · rw [if_pos hfield, if_neg]
        · rfl
        · rintro ⟨-, hne, _⟩
          exact hfield.elim (fun h ↦ hne (List.length_eq_zero_iff.mp h)) (by omega)
      · obtain ⟨hne, _⟩ := not_or.mp hfield
        have hempty : Fits [] := by decide
        have h := ih (p := p ++ [natValue cur]) hempty
        rw [hsplit, List.modifyHead_cons, List.nil_append, ← hsplit] at h
        rw [if_neg hfield, if_pos ⟨hcur, fun h ↦ hne (List.length_eq_zero_iff.mpr h), by omega⟩]
        exact h
    · rw [if_neg (by simpa using hdot), hsplit, List.modifyHead_cons, List.modifyHead_cons]
      cases hdigit : c.isDigit with
      | false =>
        rw [scanIPv4_other hdigit hdot, scanFields_of_not_fits]
        · rfl
        · rintro ⟨hall, -⟩
          rw [List.all_append, List.all_cons, hdigit] at hall
          simp at hall
      | true =>
        rw [scanIPv4_digit hdigit, ← natValue_concat]
        have hlength : cur.length + 1 = (cur ++ [c]).length := by simp
        have hcons : cur ++ c :: field = (cur ++ [c]) ++ field := by simp
        rw [hlength, hcons]
        split_ifs with htoo
        · rw [scanFields_of_not_fits]
          · rfl
          · intro hfits
            obtain ⟨-, _, _⟩ := hfits.of_append
            omega
        · obtain ⟨_, _⟩ := not_or.mp htoo
          have hall : (cur ++ [c]).all Char.isDigit = true := by
            rw [List.all_append, hcur.1, List.all_cons, hdigit]
            rfl
          have hnext : Fits (cur ++ [c]) := ⟨hall, by omega, by omega⟩
          have h := ih (p := p) hnext
          rw [hsplit, List.modifyHead_cons] at h
          exact h

end Loop

def dotted (octet : List Char → Option ℕ) (cs : List Char) : Option (BitVec 32) :=
  match cs.splitOn '.' with
  | [a, b, c, d] => do
    let a ← octet a
    let b ← octet b
    let c ← octet c
    let d ← octet d
    some (BitVec.ofNat 32 (((a * 256 + b) * 256 + c) * 256 + d))
  | _ => none

def fastOctet (cs : List Char) : Option ℕ := if Fits cs ∧ cs ≠ [] then some (natValue cs) else none

def LeadingZero (cs : List Char) : Prop := cs.length > 1 ∧ cs.head? = some '0'

instance decidableLeadingZero (cs : List Char) : Decidable (LeadingZero cs) :=
  inferInstanceAs (Decidable (_ ∧ _))

theorem parseIPv4Fields_eq (cs : List Char) : Net.parseIPv4Fields cs = dotted Net.octet cs := rfl

section Octets

theorem mul_pow_le_ofDigitChars (cs : List Char) (n : ℕ) :
    n * 10 ^ cs.length ≤ Nat.ofDigitChars 10 cs n := by
  induction cs generalizing n with
  | nil => simp
  | cons c cs ih =>
    rw [Nat.ofDigitChars_cons, List.length_cons, Nat.pow_succ]
    refine le_trans ?_ (ih _)
    calc n * (10 ^ cs.length * 10) = 10 * n * 10 ^ cs.length := by ring
      _ ≤ (10 * n + (c.toNat - '0'.toNat)) * 10 ^ cs.length :=
        Nat.mul_le_mul_right _ (Nat.le_add_right _ _)

theorem length_le_three {cs : List Char} (hall : cs.all Char.isDigit = true)
    (hzero : ¬ LeadingZero cs) (h : natValue cs ≤ 255) : cs.length ≤ 3 := by
  cases cs with
  | nil => decide
  | cons c cs =>
    by_contra hlong
    have hc : c ≠ '0' := by
      rintro rfl
      exact hzero ⟨by omega, rfl⟩
    have hdigit : 48 ≤ c.toNat := (isDigit_iff.mp (List.all_eq_true.mp hall c List.mem_cons_self)).1
    have hne : c.toNat ≠ 48 := fun h ↦ hc (Char.toNat_inj.mp h)
    have hlow := mul_pow_le_ofDigitChars cs (10 * 0 + (c.toNat - '0'.toNat))
    rw [natValue, Nat.ofDigitChars_cons] at h
    have hpow : 10 ^ 3 ≤ 10 ^ cs.length := Nat.pow_le_pow_right (by decide) (by
      rw [List.length_cons] at hlong
      omega)
    have hfirst : 1 ≤ 10 * 0 + (c.toNat - '0'.toNat) := by
      change 1 ≤ 10 * 0 + (c.toNat - 48)
      omega
    have hprod := Nat.mul_le_mul hfirst hpow
    omega

theorem octet_eq (cs : List Char) :
    Net.octet cs = if LeadingZero cs then none else fastOctet cs := by
  by_cases hzero : cs.length > 1 ∧ cs.head? = some '0'
  · rw [Net.octet, if_pos hzero, if_pos (show LeadingZero cs from hzero)]
  · rw [Net.octet, if_neg hzero, if_neg (show ¬ LeadingZero cs from hzero), Strconv.parseDigits,
      fastOctet]
    by_cases hcs : cs ≠ [] ∧ cs.all Char.isDigit = true
    · rw [if_pos hcs, Option.bind_some]
      refine if_congr ?_ rfl rfl
      exact ⟨fun h ↦ ⟨⟨hcs.2, length_le_three hcs.2 hzero h, h⟩, hcs.1⟩, fun h ↦ h.1.2.2⟩
    · rw [if_neg hcs, if_neg fun h ↦ hcs ⟨h.2, h.1.1⟩]
      rfl

end Octets

section Addresses

variable {cs : List Char}

theorem mem_splitOn {c : Char} (sep : Char) (h : c ∈ cs) :
    c = sep ∨ ∃ field ∈ cs.splitOn sep, c ∈ field := by
  induction cs with
  | nil => cases h
  | cons _ cs ih =>
    obtain ⟨_, _, hsplit⟩ := List.exists_cons_of_ne_nil (List.splitOn_ne_nil sep cs)
    rw [List.splitOn_cons_eq_if_modifyHead]
    rw [hsplit] at ih ⊢
    split_ifs with hd
    · obtain rfl | h := List.mem_cons.mp h
      · exact .inl (by simpa using hd)
      · exact (ih h).imp_right fun ⟨f, hf, hc⟩ ↦ ⟨f, List.mem_cons_of_mem _ hf, hc⟩
    · rw [List.modifyHead_cons]
      obtain rfl | h := List.mem_cons.mp h
      · exact .inr ⟨_, List.mem_cons_self, List.mem_cons_self⟩
      · refine (ih h).imp_right fun ⟨f, hf, hc⟩ ↦ ?_
        obtain rfl | hf := List.mem_cons.mp hf
        · exact ⟨_, List.mem_cons_self, List.mem_cons_of_mem _ hc⟩
        · exact ⟨f, List.mem_cons_of_mem _ hf, hc⟩

theorem dotted_eq_some_iff {octet : List Char → Option ℕ} {x : BitVec 32} :
    dotted octet cs = some x ↔ ∃ a b c d, cs.splitOn '.' = [a, b, c, d] ∧
      ∃ k l m n, octet a = some k ∧ octet b = some l ∧ octet c = some m ∧ octet d = some n ∧
        BitVec.ofNat 32 (((k * 256 + l) * 256 + m) * 256 + n) = x := by
  unfold dotted
  constructor
  · intro h
    split at h
    · next a b c d hsplit =>
      refine ⟨a, b, c, d, hsplit, ?_⟩
      simp only [Option.bind_eq_bind, Option.bind_eq_some_iff, Option.some.injEq] at h
      obtain ⟨k, hk, l, hl, m, hm, n, hn, h⟩ := h
      exact ⟨k, l, m, n, hk, hl, hm, hn, h⟩
    · cases h
  · rintro ⟨_, _, _, _, hsplit, _, _, _, _, hk, hl, hm, hn, rfl⟩
    rw [hsplit]
    simp only [hk, hl, hm, hn, Option.bind_eq_bind, Option.bind_some]

theorem dotted_mono {octet octet' : List Char → Option ℕ} {x : BitVec 32}
    (h : ∀ field ∈ cs.splitOn '.', ∀ n, octet field = some n → octet' field = some n)
    (hx : dotted octet cs = some x) : dotted octet' cs = some x := by
  obtain ⟨a, b, c, d, hsplit, k, l, m, n, hk, hl, hm, hn, hx⟩ := dotted_eq_some_iff.mp hx
  simp only [hsplit, List.forall_mem_cons] at h
  obtain ⟨ha, hb, hc, hd, -⟩ := h
  exact dotted_eq_some_iff.mpr
    ⟨a, b, c, d, hsplit, k, l, m, n, ha k hk, hb l hl, hc m hm, hd n hn, hx⟩

theorem fastOctet_of_octet {field : List Char} {n : ℕ} (h : Net.octet field = some n) :
    fastOctet field = some n := by
  rw [octet_eq] at h
  split_ifs at h
  exact h

theorem fastOctet_of_fits {field : List Char} (h : Fits field ∧ field ≠ []) :
    fastOctet field = some (natValue field) := if_pos h

theorem fits_of_fastOctet {field : List Char} {n : ℕ} (h : fastOctet field = some n) :
    Fits field ∧ field ≠ [] := by
  unfold fastOctet at h
  split_ifs at h with hfits
  exact hfits

theorem isDigit_of_dotted {x : BitVec 32} (h : dotted fastOctet cs = some x) {c : Char}
    (hc : c ∈ cs) : c = '.' ∨ c.isDigit = true := by
  obtain ⟨_, _, _, _, hsplit, _, _, _, _, ha, hb, hc', hd, -⟩ := dotted_eq_some_iff.mp h
  refine (mem_splitOn '.' hc).imp_right fun hfield ↦ ?_
  obtain ⟨field, hfield, hc⟩ := hfield
  have hfits : ∀ f ∈ cs.splitOn '.', Fits f := by
    simp only [hsplit, List.forall_mem_cons]
    exact ⟨(fits_of_fastOctet ha).1, (fits_of_fastOctet hb).1, (fits_of_fastOctet hc').1,
      (fits_of_fastOctet hd).1, List.forall_mem_nil _⟩
  exact List.all_eq_true.mp (hfits field hfield).1 c hc

theorem parseIPv4Fields_eq_none {c : Char} (hc : c ∈ cs) (hdot : c ≠ '.')
    (hdigit : c.isDigit = false) : Net.parseIPv4Fields cs = none := by
  by_contra hne
  obtain ⟨_, hx⟩ := Option.ne_none_iff_exists'.mp hne
  have hfast := dotted_mono (fun _ _ _ ↦ fastOctet_of_octet) hx
  obtain h | h := isDigit_of_dotted hfast hc
  · exact hdot h
  · rw [hdigit] at h
    cases h

variable {s : String}

theorem parseIP_of_no_colon (h : ':' ∉ s.toList) :
    Net.parseIP s = (Net.parseIPv4Fields s.toList).map Net.mapped := by
  unfold Net.parseIP Net.parseAddr
  cases hfind : s.toList.find? fun c ↦ c == '.' || c == ':' || c == '%' with
  | none =>
    have hdot : '.' ∉ s.toList := fun hmem ↦ by simpa using List.find?_eq_none.mp hfind '.' hmem
    unfold Net.parseIPv4Fields
    rw [List.splitOn_eq_singleton hdot]
    rfl
  | some c =>
    have hmem := List.mem_of_find?_eq_some hfind
    have hc : c = '.' ∨ c = ':' ∨ c = '%' := by simpa [or_assoc] using List.find?_some hfind
    obtain rfl | rfl | rfl := hc
    · exact Option.map_map _ _ _
    · exact absurd hmem h
    · rw [parseIPv4Fields_eq_none hmem (by decide) (by decide)]
      rfl

theorem scanIPv4_bytes (s : String) : scanIPv4 (Text.bytes s) [] 0 0 =
    (scanFields (s.toList.splitOn '.') []).map fun r ↦ (r.1, natValue r.2, r.2.length) := by
  have hempty : Fits [] := by decide
  have hbytes : Text.bytes s = s.toList.flatMap String.utf8EncodeChar := by
    rw [← Text.bytes_ofList, String.ofList_toList]
  have h := scanIPv4_eq s.toList hempty (p := [])
  obtain ⟨_, _, hsplit⟩ := List.exists_cons_of_ne_nil (List.splitOn_ne_nil '.' s.toList)
  rw [hsplit, List.modifyHead_cons, List.nil_append] at h
  rw [hbytes, hsplit]
  exact h

theorem dotted_fastOctet_eq_none (h : ∀ init last, s.toList.splitOn '.' = init ++ [last] →
      init.length = 3 → (∀ field ∈ init, Fits field ∧ field ≠ []) → ¬ (Fits last ∧ last ≠ [])) :
    dotted fastOctet s.toList = none := by
  by_contra hne
  obtain ⟨_, hx⟩ := Option.ne_none_iff_exists'.mp hne
  obtain ⟨a, b, c, d, hsplit, _, _, _, _, ha, hb, hc, hd, -⟩ := dotted_eq_some_iff.mp hx
  refine h [a, b, c] d hsplit rfl ?_ (fits_of_fastOctet hd)
  simp only [List.forall_mem_cons]
  exact ⟨fits_of_fastOctet ha, fits_of_fastOctet hb, fits_of_fastOctet hc, List.forall_mem_nil _⟩

theorem parseIP_fallback (hfits : ∀ field ∈ s.toList.splitOn '.', Fits field)
    (h : dotted fastOctet s.toList = none) : Net.parseIP s = none := by
  have hcolon : ':' ∉ s.toList := by
    intro hmem
    obtain h | ⟨field, hfield, hmem⟩ := mem_splitOn '.' hmem
    · exact absurd h (by decide)
    · exact absurd (List.all_eq_true.mp (hfits field hfield).1 ':' hmem) (by decide)
  rw [parseIP_of_no_colon hcolon, Option.map_eq_none_iff]
  by_contra hne
  obtain ⟨_, hx⟩ := Option.ne_none_iff_exists'.mp hne
  rw [dotted_mono (fun _ _ _ ↦ fastOctet_of_octet) hx] at h
  cases h

theorem parseIPv4FastInto_eq (s : String) :
    parseIPv4FastInto s = (dotted fastOctet s.toList).map Net.mapped := by
  unfold parseIPv4FastInto
  rw [scanIPv4_bytes]
  cases hscan : scanFields (s.toList.splitOn '.') [] with
  | none =>
    rw [dotted_fastOctet_eq_none]
    · rfl
    · intro _ _ hsplit hlength hinit hlast
      rw [hsplit, scanFields_append hinit hlast.1 (by simp [hlength])] at hscan
      cases hscan
  | some r =>
    obtain ⟨_, last⟩ := r
    obtain ⟨init, hsplit, rfl, hinit, hlast⟩ := exists_of_scanFields hscan
    have hfits : ∀ field ∈ s.toList.splitOn '.', Fits field := by
      rw [hsplit]
      exact List.forall_mem_append.mpr
        ⟨fun f hf ↦ (hinit f hf).1, List.forall_mem_singleton.mpr hlast⟩
    by_cases hfour : init.length = 3 ∧ last ≠ []
    · obtain ⟨hlength, hne⟩ := hfour
      obtain ⟨a, b, c, rfl⟩ := List.length_eq_three.mp hlength
      simp only [List.forall_mem_cons] at hinit
      obtain ⟨ha, hb, hc, -⟩ := hinit
      have hdotted := dotted_eq_some_iff.mpr ⟨a, b, c, last, hsplit, _, _, _, _,
        fastOctet_of_fits ha, fastOctet_of_fits hb, fastOctet_of_fits hc,
        fastOctet_of_fits ⟨hlast, hne⟩, rfl⟩
      rw [hdotted]
      exact if_neg fun h ↦ hne (List.length_eq_zero_iff.mp h)
    · -- Unless there are four fields the fallback decides, and finds nothing.
      have hnone : dotted fastOctet s.toList = none := by
        refine dotted_fastOctet_eq_none fun init' last' hsplit' hlength _ hlast' ↦ ?_
        rw [hsplit] at hsplit'
        obtain ⟨rfl, hlast⟩ := List.append_inj' hsplit' rfl
        cases hlast
        exact hfour ⟨hlength, hlast'.2⟩
      have hIP := parseIP_fallback hfits hnone
      rw [hnone, Option.map_some]
      dsimp only
      split
      · next hq =>
        have hlength : init.length = 3 := by simpa using congrArg List.length hq
        rw [if_pos (List.length_eq_zero_iff.mpr (by_contra fun h ↦ hfour ⟨hlength, h⟩)), hIP]
        rfl
      · exact hIP

/-- Four octets, and one of them is written with a leading zero. -/
def Padded (s : String) : Prop :=
  (s.toList.splitOn '.').length = 4 ∧ (∀ field ∈ s.toList.splitOn '.', Fits field ∧ field ≠ []) ∧
    ∃ field ∈ s.toList.splitOn '.', LeadingZero field

instance decidablePadded (s : String) : Decidable (Padded s) :=
  inferInstanceAs (Decidable (_ ∧ _ ∧ _))

theorem parseIPv4FastInto_of_colon (h : ':' ∈ s.toList) : parseIPv4FastInto s = none := by
  rw [parseIPv4FastInto_eq, Option.map_eq_none_iff]
  by_contra hne
  obtain ⟨_, hx⟩ := Option.ne_none_iff_exists'.mp hne
  obtain h | h := isDigit_of_dotted hx h
  · exact absurd h (by decide)
  · exact absurd h (by decide)

theorem no_colon_of_padded (h : Padded s) : ':' ∉ s.toList := by
  intro hmem
  obtain h' | ⟨field, hfield, hmem⟩ := mem_splitOn '.' hmem
  · exact absurd h' (by decide)
  · exact absurd (List.all_eq_true.mp (h.2.1 field hfield).1.1 ':' hmem) (by decide)

theorem exists_dotted_of_padded (h : Padded s) : ∃ x, dotted fastOctet s.toList = some x := by
  obtain ⟨hlength, hfits, -⟩ := h
  obtain ⟨a, b, c, d, hsplit⟩ := List.length_eq_four.mp hlength
  simp only [hsplit, List.forall_mem_cons] at hfits
  obtain ⟨ha, hb, hc, hd, -⟩ := hfits
  exact ⟨_, dotted_eq_some_iff.mpr ⟨a, b, c, d, hsplit, _, _, _, _, fastOctet_of_fits ha,
    fastOctet_of_fits hb, fastOctet_of_fits hc, fastOctet_of_fits hd, rfl⟩⟩

theorem dotted_octet_of_padded (h : Padded s) : dotted Net.octet s.toList = none := by
  obtain ⟨-, -, field, hfield, hzero⟩ := h
  by_contra hne
  obtain ⟨_, hx⟩ := Option.ne_none_iff_exists'.mp hne
  obtain ⟨_, _, _, _, hsplit, _, _, _, _, ha, hb, hc, hd, -⟩ := dotted_eq_some_iff.mp hx
  have hoctet : ∀ f ∈ s.toList.splitOn '.', Net.octet f ≠ none := by
    simp only [hsplit, List.forall_mem_cons, ha, hb, hc, hd]
    simp
  exact hoctet field hfield (by rw [octet_eq, if_pos hzero])

theorem dotted_eq_of_not_padded (h : ¬ Padded s) :
    dotted fastOctet s.toList = dotted Net.octet s.toList := by
  cases hfast : dotted fastOctet s.toList with
  | none =>
    symm
    by_contra hne
    obtain ⟨_, hx⟩ := Option.ne_none_iff_exists'.mp hne
    rw [dotted_mono (fun _ _ _ ↦ fastOctet_of_octet) hx] at hfast
    cases hfast
  | some =>
    obtain ⟨_, _, _, _, hsplit, _, _, _, n, ha, hb, hc, hd, -⟩ := dotted_eq_some_iff.mp hfast
    have hfits : ∀ f ∈ s.toList.splitOn '.', Fits f ∧ f ≠ [] := by
      simp only [hsplit, List.forall_mem_cons]
      exact ⟨fits_of_fastOctet ha, fits_of_fastOctet hb, fits_of_fastOctet hc,
        fits_of_fastOctet hd, List.forall_mem_nil _⟩
    refine (dotted_mono (fun f hf n hn ↦ ?_) hfast).symm
    rw [octet_eq, if_neg, hn]
    exact fun hzero ↦ h ⟨by rw [hsplit]; rfl, hfits, f, hf, hzero⟩

/-- The two parsers differ on IPv6 addresses, which the fast one never accepts,
and on octets with a leading zero, which only the fast one accepts. -/
theorem parseIPv4FastInto_eq_parseIP_iff (s : String) :
    parseIPv4FastInto s = Net.parseIP s ↔
      ((Net.parseIP s).isSome = true → ':' ∉ s.toList) ∧ ¬ Padded s := by
  by_cases hcolon : ':' ∈ s.toList
  · rw [parseIPv4FastInto_of_colon hcolon]
    cases hIP : Net.parseIP s with
    | none => simpa using fun h ↦ no_colon_of_padded h hcolon
    | some => simpa using fun h ↦ absurd hcolon h
  · rw [parseIPv4FastInto_eq, parseIP_of_no_colon hcolon, parseIPv4Fields_eq]
    by_cases hpadded : Padded s
    · obtain ⟨_, hx⟩ := exists_dotted_of_padded hpadded
      rw [hx, dotted_octet_of_padded hpadded]
      simp [hpadded]
    · rw [dotted_eq_of_not_padded hpadded]
      simp [hpadded, hcolon]

theorem parseIPv4FastInto_loopback :
    Net.parseIP "::1" = some 1 ∧ parseIPv4FastInto "::1" = none ∧
      Net.parseIP "01.2.3.4" = none ∧
      parseIPv4FastInto "01.2.3.4" = some (Net.mapped 0x01020304) := by decide

theorem parseIPv4FastInto_eq_some_iff {ip : Net.IP} (h : Net.parseIP s = some ip) :
    parseIPv4FastInto s = some ip ↔ ':' ∉ s.toList := by
  by_cases hcolon : ':' ∈ s.toList
  · simp [parseIPv4FastInto_of_colon hcolon, hcolon]
  · rw [parseIP_of_no_colon hcolon, Option.map_eq_some_iff] at h
    obtain ⟨_, hx, rfl⟩ := h
    rw [parseIPv4FastInto_eq, dotted_mono (fun _ _ _ ↦ fastOctet_of_octet) hx]
    simp [hcolon]

end Addresses

end PolicyEngine.Engine

import PolicyEngine.Json.Parser

namespace PolicyEngine.Json

open PolicyEngine.Decimal

variable {α β : Type}

def Ends (rest : List Char) : Prop :=
  ∀ c ∈ rest.head?, c.isDigit = false ∧ c ∉ ['.', 'e', 'E']

structure Reads (p : Reader α) (text : List Char) (r : Option α) : Prop where
  starts : ∃ c t, text = c :: t ∧ isSpace c = false
  result : ∀ rest, Ends rest → p (text ++ rest) = r.map (·, rest)
  line : '\n' ∉ text

theorem ends_cons {c : Char} (h : c ∈ [',', ':', ']', '\x7d', '\n']) (rest : List Char) :
    Ends (c :: rest) := by
  have hall : ∀ c ∈ [',', ':', ']', '\x7d', '\n'], c.isDigit = false ∧ c ∉ ['.', 'e', 'E'] := by
    simp
  intro _ hd
  cases Option.some.inj hd
  exact hall c h

theorem skipSpace_cons {c : Char} (h : isSpace c = false) (cs : List Char) :
    skipSpace (c :: cs) = c :: cs :=
  List.dropWhile_cons_of_neg (by rw [h]; decide)

namespace Reads

variable {p : Reader α} {text : List Char} {r : Option α}

theorem skip (h : Reads p text r) {rest : List Char} (hrest : Ends rest) :
    p (skipSpace (text ++ rest)) = r.map (·, rest) := by
  obtain ⟨_, _, rfl, hc⟩ := h.starts
  rw [List.cons_append, skipSpace_cons hc, ← List.cons_append]
  exact h.result rest hrest

theorem length_pos (h : Reads p text r) : 0 < text.length := by
  obtain ⟨_, _, rfl, -⟩ := h.starts
  exact Nat.succ_pos _

end Reads

section Escapes

def Denotes (p : Piece) (c : Char) : Prop := p = .char c ∨ p = .unit c.toNat

theorem joinPieces_cons {p : Piece} {c : Char} (h : Denotes p c) (ps : List Piece) :
    joinPieces (p :: ps) = c :: joinPieces ps := by
  obtain rfl | rfl := h
  · rfl
  · have hc : isSurrogate c.toNat = false := by
      have hvalid := c.valid
      simp only [UInt32.isValidChar, Nat.isValidChar] at hvalid
      simp only [isSurrogate, Bool.and_eq_false_iff, decide_eq_false_iff_not, Char.toNat]
      omega
    have hunit : unitChar c.toNat = c := by
      rw [unitChar, hc, if_neg (by decide), Char.ofNat_toNat]
    cases ps with
    | nil => exact congrArg (· :: joinPieces []) hunit
    | cons q ps =>
      cases q with
      | char d => exact congrArg (· :: joinPieces (.char d :: ps)) hunit
      | unit =>
        simp only [isSurrogate, Bool.and_eq_false_iff, decide_eq_false_iff_not] at hc
        rw [joinPieces, if_neg (by omega), hunit]

/-- A way to write the characters of a string literal. A character that it
does not cover is a control character, and is written as it is. -/
structure Escape where
  write : Char → List Char
  covers : Char → Bool
  read : ∀ c, covers c = true → ∃ p, Denotes p c ∧
    ∀ rest, pieces (write c ++ rest) = (pieces rest).map (onto p)
  raw : ∀ c, covers c = false → write c = [c] ∧ c.toNat < 0x20
  line : ∀ c, '\n' ∉ write c

theorem pieces_plain {c : Char} (hquote : c ≠ '"') (hslash : c ≠ '\\') (h : 0x20 ≤ c.toNat)
    (rest : List Char) : pieces (c :: rest) = (pieces rest).map (onto (.char c)) := by
  rw [pieces]
  · exact if_neg (by omega)
  · exact hquote
  · intro _ _ _ _ _ heq
    exact absurd heq hslash
  · intro _ _ heq
    exact absurd heq hslash

theorem pieces_escaped {k c : Char} (h : escaped k = some c) (rest : List Char) :
    pieces ('\\' :: k :: rest) = (pieces rest).map (onto (.char c)) := by
  have hu : k ≠ 'u' := by
    rintro rfl
    have hnone : (none : Option Char) = some c := h
    cases hnone
  rw [pieces]
  · rw [h, Option.bind_some]
  · intro _ _ _ _ _ heq
    exact absurd heq hu

theorem pieces_unit {a b c d : Char} {n : ℕ} (h : hex4 a b c d = some n) (rest : List Char) :
    pieces ('\\' :: 'u' :: a :: b :: c :: d :: rest) = (pieces rest).map (onto (.unit n)) := by
  rw [pieces, h, Option.bind_some]

namespace Escape

variable (e : Escape)

def writeAll (cs : List Char) : List Char := cs.flatMap e.write

def quoted (s : String) : List Char := '"' :: e.writeAll s.toList ++ ['"']

def result (s : String) : Option String := if s.toList.all e.covers then some s else none

theorem pieces_raw {c : Char} (h : c.toNat < 0x20) (rest : List Char) :
    pieces (c :: rest) = none := by
  have hquote : c ≠ '"' := by rintro rfl; exact absurd h (by decide)
  have hslash : c ≠ '\\' := by rintro rfl; exact absurd h (by decide)
  unfold pieces
  split
  · rfl
  · next heq => exact absurd (List.cons.inj heq).1 hquote
  · next heq => exact absurd (List.cons.inj heq).1 hslash
  · next heq => exact absurd (List.cons.inj heq).1 hslash
  · next heq =>
    obtain ⟨rfl, -⟩ := List.cons.inj heq
    exact if_pos h

theorem pieces_writeAll (cs rest : List Char) :
    (pieces (e.writeAll cs ++ '"' :: rest)).map (Prod.map joinPieces id) =
      if cs.all e.covers then some (cs, rest) else none := by
  induction cs with
  | nil => rfl
  | cons c cs ih =>
    rw [writeAll, List.flatMap_cons, List.append_assoc, List.all_cons]
    cases hc : e.covers c with
    | false =>
      obtain ⟨hwrite, hcontrol⟩ := e.raw c hc
      rw [hwrite, List.singleton_append, pieces_raw hcontrol]
      rfl
    | true =>
      obtain ⟨p, hp, hread⟩ := e.read c hc
      have hjoin (r : List Piece × List Char) :
          Prod.map joinPieces id (onto p r) = Prod.map (c :: ·) id (Prod.map joinPieces id r) :=
        Prod.ext (joinPieces_cons hp r.1) rfl
      rw [hread, Option.map_map, Bool.true_and]
      calc (pieces (e.writeAll cs ++ '"' :: rest)).map (Prod.map joinPieces id ∘ onto p)
          = ((pieces (e.writeAll cs ++ '"' :: rest)).map (Prod.map joinPieces id)).map
              (Prod.map (c :: ·) id) := by
            rw [Option.map_map]
            exact congrArg (Option.map · _) (funext hjoin)
        _ = if cs.all e.covers then some (c :: cs, rest) else none := by
            rw [ih]
            split_ifs <;> rfl

theorem reads_string (s : String) : Reads string (e.quoted s) (e.result s) := by
  refine ⟨⟨'"', e.writeAll s.toList ++ ['"'], rfl, by decide⟩, ?_, by simp [quoted, writeAll, e.line]⟩
  intro rest _
  have hpieces := e.pieces_writeAll s.toList rest
  have hsplit : e.quoted s ++ rest = '"' :: (e.writeAll s.toList ++ '"' :: rest) := by
    simp [quoted]
  have hstring (cs : List Char) : string ('"' :: cs) =
      ((pieces cs).map (Prod.map joinPieces id)).map (Prod.map String.ofList id) := by
    rw [Option.map_map]
    rfl
  rw [hsplit, hstring, hpieces, result]
  split_ifs with hall
  · exact congrArg (fun t ↦ some (t, rest)) String.ofList_toList
  · rfl

end Escape

end Escapes

section Numbers

theorem digits_append {ds rest : List Char} (hds : AllDigits ds) (hne : ds ≠ []) (hrest : Ends rest) :
    digits (ds ++ rest) = some (ds, rest) := by
  have htail : rest.takeWhile Char.isDigit = [] ∧ rest.dropWhile Char.isDigit = rest := by
    cases rest with
    | nil => exact ⟨rfl, rfl⟩
    | cons c =>
      have hc : ¬ c.isDigit = true := by
        rw [(hrest c rfl).1]
        decide
      exact ⟨List.takeWhile_cons_of_neg hc, List.dropWhile_cons_of_neg hc⟩
  rw [digits, List.takeWhile_append_of_pos hds, List.dropWhile_append_of_pos hds, htail.1, htail.2,
    List.append_nil, if_neg hne]

theorem whole_append {ds rest : List Char} (h : IsWhole ds) (hrest : Ends rest) :
    whole (ds ++ rest) = some (ds, rest) := by
  obtain ⟨c, cs, rfl⟩ := List.exists_cons_of_ne_nil h.ne_nil
  by_cases hc : c = '0'
  · obtain rfl : cs = [] := (List.cons.inj (h.head (congrArg some hc))).2
    rw [hc]
    rfl
  · rw [← digits_append h.digits h.ne_nil hrest]
    unfold whole
    split
    · next heq => exact absurd (List.cons.inj heq).1 hc
    · rfl

theorem fraction_of_ends {rest : List Char} (h : Ends rest) : fraction rest = some ([], rest) := by
  unfold fraction
  split
  · exact absurd (h '.' rfl).2 (by decide)
  · rfl

theorem exponent_of_ends {rest : List Char} (h : Ends rest) : exponent rest = some ([], rest) := by
  unfold exponent
  split
  · exact absurd (h 'e' rfl).2 (by decide)
  · exact absurd (h 'E' rfl).2 (by decide)
  · rfl

inductive IsInteger : List Char → Prop where
  | plain {ds : List Char} (h : IsWhole ds) : IsInteger ds
  | negative {ds : List Char} (h : IsWhole ds) : IsInteger ('-' :: ds)

theorem IsInteger.starts {text : List Char} (h : IsInteger text) :
    ∃ c t, text = c :: t ∧ (c = '-' ∨ c.isDigit = true) := by
  cases h with
  | plain h =>
    obtain ⟨c, t, rfl⟩ := List.exists_cons_of_ne_nil h.ne_nil
    exact ⟨c, t, rfl, .inr (h.digits c List.mem_cons_self)⟩
  | negative => exact ⟨'-', _, rfl, .inl rfl⟩

theorem IsInteger.line {text : List Char} (h : IsInteger text) : '\n' ∉ text := by
  have hdigits {ds : List Char} (hds : IsWhole ds) : '\n' ∉ ds := fun hmem ↦
    absurd (hds.digits _ hmem) (by decide)
  cases h with
  | plain h => exact hdigits h
  | negative h => simp [hdigits h]

theorem number_append {text rest : List Char} (h : IsInteger text) (hrest : Ends rest) :
    number (text ++ rest) = some (String.ofList text, rest) := by
  have hparts {ds : List Char} (hds : IsWhole ds) (sign : List Char)
      (hsign : minus (sign ++ ds ++ rest) = (sign, ds ++ rest)) :
      number (sign ++ ds ++ rest) = some (String.ofList (sign ++ ds), rest) := by
    unfold number
    rw [hsign]
    simp [whole_append hds hrest, fraction_of_ends hrest, exponent_of_ends hrest]
  cases h with
  | plain h =>
    refine hparts h [] ?_
    obtain ⟨c, _, rfl⟩ := List.exists_cons_of_ne_nil h.ne_nil
    have hc : c ≠ '-' := by
      intro heq
      exact absurd (h.digits c List.mem_cons_self) (by rw [heq]; decide)
    unfold minus
    split
    · next heq => exact absurd (List.cons.inj heq).1 hc
    · rfl
  | negative h => exact hparts h ['-'] rfl

end Numbers

section Values

theorem scalar_of_numeral {c : Char} (h : c = '-' ∨ c.isDigit = true) (cs : List Char) :
    scalar (c :: cs) = (number (c :: cs)).map (Prod.map .num id) := by
  have hne : c ≠ '"' ∧ c ≠ 'n' ∧ c ≠ 't' ∧ c ≠ 'f' := by
    refine ⟨?_, ?_, ?_, ?_⟩ <;> (rintro rfl; exact absurd h (by decide))
  unfold scalar
  split
  · next heq => exact absurd (List.cons.inj heq).1 hne.1
  · next heq => exact absurd (List.cons.inj heq).1 hne.2.1
  · next heq => exact absurd (List.cons.inj heq).1 hne.2.2.1
  · next heq => exact absurd (List.cons.inj heq).1 hne.2.2.2
  · rfl

theorem value_of_scalar {c : Char} (h : c ≠ '[' ∧ c ≠ '\x7b') (depth : ℕ) (cs : List Char) :
    value depth (c :: cs) = scalar (c :: cs) := by
  unfold value
  split
  · rfl
  · next heq => exact absurd (List.cons.inj heq).1 h.1
  · next heq => exact absurd (List.cons.inj heq).1 h.2
  · rfl

theorem reads_num {text : List Char} (h : IsInteger text) (depth : ℕ) :
    Reads (value depth) text (some (.num (String.ofList text))) := by
  obtain ⟨c, t, rfl, hc⟩ := h.starts
  have hne : c ≠ '[' ∧ c ≠ '\x7b' ∧ isSpace c = false := by
    have hspace : c ≠ ' ' ∧ c ≠ '\t' ∧ c ≠ '\r' ∧ c ≠ '\n' := by
      refine ⟨?_, ?_, ?_, ?_⟩ <;> (rintro rfl; exact absurd hc (by decide))
    refine ⟨?_, ?_, by simp [isSpace, hspace]⟩ <;> (rintro rfl; exact absurd hc (by decide))
  refine ⟨⟨c, t, rfl, hne.2.2⟩, ?_, h.line⟩
  intro _ hrest
  rw [List.cons_append, value_of_scalar ⟨hne.1, hne.2.1⟩, scalar_of_numeral hc, ← List.cons_append,
    number_append h hrest]
  rfl

theorem Escape.reads_str (e : Escape) (s : String) (depth : ℕ) :
    Reads (value depth) (e.quoted s) ((e.result s).map .str) := by
  refine ⟨(e.reads_string s).starts, ?_, (e.reads_string s).line⟩
  intro rest hrest
  have hquoted : e.quoted s ++ rest = '"' :: (e.writeAll s.toList ++ '"' :: rest) := by
    simp [quoted]
  have hread := (e.reads_string s).result rest hrest
  rw [hquoted] at hread ⊢
  rw [value_of_scalar (by decide), scalar, hread, Option.map_map, Option.map_map]
  rfl

def commas (texts : List (List Char)) : List Char := [','].intercalate texts

theorem commas_cons (text next : List Char) (texts : List (List Char)) :
    commas (text :: next :: texts) = text ++ ',' :: commas (next :: texts) := by
  simp [commas, List.intercalate]

variable {ι : Type} {item : Reader α} {text : ι → List Char} {result : ι → Option α}

theorem sequence_commas {close : Char} (hclose : close ∈ [']', '\x7d']) {i : ι} {is : List ι}
    (h : ∀ j ∈ i :: is, Reads item (text j) (result j)) {fuel : ℕ} (hfuel : is.length < fuel)
    (rest : List Char) :
    sequence item close fuel (commas ((i :: is).map text) ++ close :: rest) =
      ((i :: is).mapM result).map (·, rest) := by
  obtain ⟨hends, hspace, hcomma⟩ : close ∈ [',', ':', ']', '\x7d', '\n'] ∧ isSpace close = false ∧
      ',' ≠ close := by
    have hall : ∀ c ∈ [']', '\x7d'], c ∈ [',', ':', ']', '\x7d', '\n'] ∧ isSpace c = false ∧
        ',' ≠ c := by simp [isSpace]
    exact hall close hclose
  induction is generalizing i fuel with
  | nil =>
    obtain ⟨_, rfl⟩ := Nat.exists_eq_add_of_lt hfuel
    have hread := (h i List.mem_cons_self).skip (ends_cons hends rest)
    have hone : commas ([i].map text) = text i := List.append_nil _
    rw [hone, sequence, hread]
    cases hi : result i with
    | none => simp [hi]
    | some => simp [hi, skipSpace_cons hspace]
  | cons j is ih =>
    obtain ⟨fuel, rfl⟩ := Nat.exists_eq_add_of_lt hfuel
    have hread := (h i List.mem_cons_self).skip
      (ends_cons (c := ',') (by decide) (commas ((j :: is).map text) ++ close :: rest))
    have hless : is.length < (j :: is).length + fuel := by
      rw [List.length_cons]
      omega
    have htail := ih (fun k hk ↦ h k (List.mem_cons_of_mem i hk)) hless
    rw [List.map_cons, List.map_cons, commas_cons, ← List.map_cons, List.append_assoc,
      List.cons_append, sequence, hread, List.mapM_cons]
    cases hi : result i with
    | none => rfl
    | some =>
      have hcomma' : isSpace ',' = false := by decide
      simp only [Option.map_some, Option.bind_some, skipSpace_cons hcomma', if_neg hcomma, if_true,
        htail, Option.bind_eq_bind, Option.map_map]
      cases (j :: is).mapM result <;> rfl

theorem length_le_commas {texts : List (List Char)} (h : ∀ text ∈ texts, 0 < text.length) :
    texts.length ≤ (commas texts).length := by
  induction texts with
  | nil => exact Nat.zero_le _
  | cons text texts ih =>
    have hpos := h text List.mem_cons_self
    cases texts with
    | nil => simpa [commas, Nat.one_le_iff_ne_zero] using hpos.ne'
    | cons =>
      have htail := ih fun t ht ↦ h t (List.mem_cons_of_mem text ht)
      rw [commas_cons, List.length_append, List.length_cons, List.length_cons (a := ',')]
      omega

theorem enclosed_commas {close : Char} (hclose : close ∈ [']', '\x7d']) {is : List ι}
    (h : ∀ j ∈ is, Reads item (text j) (result j)) (hstart : ∀ j ∈ is, (text j).head? ≠ some close)
    (rest : List Char) :
    enclosed item close (commas (is.map text) ++ close :: rest) = (is.mapM result).map (·, rest) := by
  have hspace : isSpace close = false := by
    have hall : ∀ c ∈ [']', '\x7d'], isSpace c = false := by simp [isSpace]
    exact hall close hclose
  cases is with
  | nil =>
    have hskip : skipSpace (close :: rest) = close :: rest := skipSpace_cons hspace rest
    change enclosed item close (close :: rest) = some ([], rest)
    rw [enclosed, hskip]
    exact if_pos rfl
  | cons i is =>
    obtain ⟨c, t, htext, hc⟩ := (h i List.mem_cons_self).starts
    obtain ⟨more, hmore⟩ : ∃ more, commas ((i :: is).map text) = c :: more := by
      cases is with
      | nil => exact ⟨t, (List.append_nil _).trans htext⟩
      | cons j is =>
        refine ⟨t ++ ',' :: commas ((j :: is).map text), ?_⟩
        rw [List.map_cons, List.map_cons, commas_cons, htext]
        rfl
    have hopen : (skipSpace (commas ((i :: is).map text) ++ close :: rest)).head? ≠ some close := by
      have hhead := hstart i List.mem_cons_self
      rw [htext] at hhead
      rw [hmore, List.cons_append, skipSpace_cons hc]
      exact hhead
    have hlength : ((i :: is).map text).length ≤ (commas ((i :: is).map text)).length := by
      apply length_le_commas
      intro _ hword
      obtain ⟨j, hj, rfl⟩ := List.mem_map.mp hword
      exact (h j hj).length_pos
    rw [enclosed, if_neg hopen]
    refine sequence_commas hclose h ?_ rest
    rw [List.length_map, List.length_cons] at hlength
    rw [List.length_append, List.length_cons]
    omega

theorem commas_eq_flatMap (text : List Char) (texts : List (List Char)) :
    commas (text :: texts) = text ++ texts.flatMap (',' :: ·) := by
  induction texts generalizing text with
  | nil => rfl
  | cons _ _ ih =>
    rw [commas_cons, ih, List.flatMap_cons]
    rfl

theorem newline_notMem_commas {is : List ι} (h : ∀ i ∈ is, Reads item (text i) (result i)) :
    '\n' ∉ commas (is.map text) := by
  cases is with
  | nil => exact List.not_mem_nil
  | cons i is =>
    rw [List.map_cons, commas_eq_flatMap]
    simpa [(h i List.mem_cons_self).line] using fun j hj ↦ (h j (List.mem_cons_of_mem i hj)).line

theorem reads_array {depth : ℕ} {text : ι → List Char} {result : ι → Option Value} {is : List ι}
    (h : ∀ i ∈ is, Reads (value depth) (text i) (result i))
    (hstart : ∀ i ∈ is, (text i).head? ≠ some ']') :
    Reads (value (depth + 1)) ('[' :: commas (is.map text) ++ [']'])
      ((is.mapM result).map .arr) := by
  refine ⟨⟨'[', _, rfl, by decide⟩, ?_, by simp [newline_notMem_commas h]⟩
  intro rest _
  have hall := enclosed_commas List.mem_cons_self h hstart rest
  have harray : '[' :: commas (is.map text) ++ [']'] ++ rest =
      '[' :: (commas (is.map text) ++ ']' :: rest) := by
    simp
  rw [harray, value, hall, Option.map_map, Option.map_map]
  rfl

theorem mapM_of_some {f : ι → Option β} {g : ι → β} {is : List ι} (h : ∀ i ∈ is, f i = some (g i)) :
    is.mapM f = some (is.map g) := by
  induction is with
  | nil => rfl
  | cons i _ ih =>
    rw [List.mapM_cons, h i List.mem_cons_self, ih fun j hj ↦ h j (List.mem_cons_of_mem i hj)]
    rfl

theorem mapM_of_none {f : ι → Option β} {i : ι} {is : List ι} (hi : i ∈ is) (h : f i = none) :
    is.mapM f = none := by
  induction is with
  | nil => cases hi
  | cons j _ ih =>
    rw [List.mapM_cons]
    obtain rfl | hi := List.mem_cons.mp hi
    · rw [h]
      rfl
    · rw [ih hi]
      cases f j <;> rfl

structure Member where
  key : String
  text : List Char
  value : Option Value

def Member.num (key literal : String) : Member := ⟨key, literal.toList, some (.num literal)⟩

namespace Escape

variable (e : Escape)

def memberText (m : Member) : List Char := e.quoted m.key ++ ':' :: m.text

def memberValue (m : Member) : Option (String × Value) :=
  (e.result m.key).bind fun key ↦ m.value.map (key, ·)

def object (ms : List Member) : List Char :=
  '\x7b' :: commas (ms.map e.memberText) ++ ['\x7d']

def objectValue (ms : List Member) : Option Value := (ms.mapM e.memberValue).map .obj

def str (key s : String) : Member := ⟨key, e.quoted s, (e.result s).map .str⟩

def obj (key : String) (ms : List Member) : Member := ⟨key, e.object ms, e.objectValue ms⟩

theorem reads_member {value : Reader Value} {m : Member} (h : Reads value m.text m.value) :
    Reads (member value) (e.memberText m) (e.memberValue m) := by
  have hkey := e.reads_string m.key
  refine ⟨⟨'"', e.writeAll m.key.toList ++ ['"'] ++ ':' :: m.text, rfl, by decide⟩, ?_,
    by simp [memberText, hkey.line, h.line]⟩
  intro rest hrest
  have hcolon : isSpace ':' = false := by decide
  have hstring := hkey.result (':' :: (m.text ++ rest)) (ends_cons (by decide) _)
  rw [member, memberText, List.append_assoc, List.cons_append, hstring, memberValue]
  cases e.result m.key with
  | none => rfl
  | some key =>
    rw [Option.map_some, Option.bind_some, Option.bind_some, skipSpace_cons hcolon]
    change (value (skipSpace (m.text ++ rest))).map (Prod.map (key, ·) id) = _
    rw [h.skip hrest, Option.map_map, Option.map_map]
    rfl

theorem reads_object {depth : ℕ} {ms : List Member}
    (h : ∀ m ∈ ms, Reads (value depth) m.text m.value) :
    Reads (value (depth + 1)) (e.object ms) (e.objectValue ms) := by
  have hmembers : ∀ m ∈ ms, Reads (member (value depth)) (e.memberText m) (e.memberValue m) :=
    fun m hm ↦ e.reads_member (h m hm)
  refine ⟨⟨'\x7b', _, rfl, by decide⟩, ?_, by simp [object, newline_notMem_commas hmembers]⟩
  intro rest _
  have hstart : ∀ m ∈ ms, (e.memberText m).head? ≠ some '\x7d' := by
    intro _ _
    simp [memberText, quoted]
  have hall := enclosed_commas (List.mem_of_getElem? (i := 1) rfl) hmembers hstart rest
  have hobject : e.object ms ++ rest =
      '\x7b' :: (commas (ms.map e.memberText) ++ '\x7d' :: rest) := by
    simp [object]
  rw [hobject, value, hall, objectValue, Option.map_map, Option.map_map]
  rfl

theorem objectValue_of_some {ms : List Member} {read : Member → Value}
    (hkey : ∀ m ∈ ms, e.result m.key = some m.key) (hvalue : ∀ m ∈ ms, m.value = some (read m)) :
    e.objectValue ms = some (.obj (ms.map fun m ↦ (m.key, read m))) := by
  rw [objectValue, mapM_of_some]
  · rfl
  · intro m hm
    rw [memberValue, hkey m hm, hvalue m hm]
    rfl

theorem objectValue_of_none {ms : List Member} {m : Member} (hm : m ∈ ms)
    (h : e.result m.key = none ∨ m.value = none) : e.objectValue ms = none := by
  rw [objectValue, mapM_of_none hm]
  · rfl
  · obtain hkey | hvalue := h
    · rw [memberValue, hkey]
      rfl
    · rw [memberValue, hvalue]
      cases e.result m.key <;> rfl

end Escape

theorem document_of_reads {text trailing : List Char} {r : Option Value}
    (h : Reads (value maxNestingDepth) text r) (hspace : skipSpace trailing = [])
    (hends : Ends trailing) : document (text ++ trailing) = r := by
  rw [document, h.skip hends]
  cases r with
  | none => rfl
  | some => exact if_pos hspace

end Values

end PolicyEngine.Json

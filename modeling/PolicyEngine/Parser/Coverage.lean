import PolicyEngine.Parser.ErrorFree

set_option linter.dupNamespace false

namespace PolicyEngine.Parser

open PolicyEngine.Fuel

structure Span where
  token : Token
  stop : ℕ

namespace Span

def Covers (s : Span) (i : ℕ) : Prop := s.token.pos.offset ≤ i ∧ i < s.stop

def source (cs : List Char) (s : Span) : List Char :=
  (cs.drop s.token.pos.offset).take (s.stop - s.token.pos.offset)

def Closed (cs : List Char) (s : Span) : Prop :=
  s.token.type = .string → s.source cs = '"' :: s.token.literal.toList ++ ['"']

end Span

namespace Lexer

/-- From `l` to `l'` the lexer has passed over the text `w`, which has no zero
character. -/
structure Passes (l : Lexer) (w : List Char) (l' : Lexer) : Prop where
  rest : l.rest = w ++ l'.rest
  position : l'.position = l.position + w.length
  noNul : nul ∉ w

namespace Passes

variable {l l' l'' : Lexer} {w w' : List Char}

theorem refl (l : Lexer) : Passes l [] l := ⟨rfl, rfl, List.not_mem_nil⟩

theorem trans (h : Passes l w l') (h' : Passes l' w' l'') : Passes l (w ++ w') l'' where
  rest := by rw [h.rest, h'.rest, List.append_assoc]
  position := by rw [h'.position, h.position, List.length_append, Nat.add_assoc]
  noNul := fun hmem ↦ (List.mem_append.mp hmem).elim h.noNul h'.noNul

theorem readChar {l : Lexer} (h : l.ch ≠ nul) : Passes l [l.ch] l.readChar := by
  cases hl : l.rest with
  | nil =>
    rw [ch, hl] at h
    exact absurd rfl h
  | cons c =>
    have hch : l.ch = c := ch_eq hl
    refine ⟨?_, rfl, ?_⟩
    · rw [rest_readChar, hl, hch]
      rfl
    · rw [List.mem_singleton]
      exact h.symm

theorem readWhile {test : Char → Bool} (htest : test nul = false) (l : Lexer) :
    Passes l (l.rest.takeWhile test) (l.readWhile test) where
  rest := by
    rw [Lexer.readWhile, rest_iterate_readChar]
    exact (List.prefix_iff_eq_append.mp (List.takeWhile_prefix test)).symm
  position := by rw [Lexer.readWhile, position_iterate_readChar]
  noNul := fun hmem ↦ by
    rw [List.mem_takeWhile_imp hmem] at htest
    cases htest

theorem textUntil (h : Passes l w l') : l.textUntil l' = String.ofList w := by
  rw [Lexer.textUntil, h.position, Nat.add_sub_cancel_left, h.rest, List.take_left]

end Passes

theorem test_ch_readWhile (test : Char → Bool) (htest : test nul = false) (l : Lexer) :
    test (l.readWhile test).ch = false := by
  have hrest : (l.readWhile test).rest = l.rest.dropWhile test := by
    have h := (Passes.readWhile htest l).rest
    nth_rewrite 1 [← List.takeWhile_append_dropWhile (p := test) (l := l.rest)] at h
    exact (List.append_cancel_left h).symm
  have hhead := List.head?_dropWhile_not test l.rest
  rw [ch, hrest, List.headD_eq_head?_getD]
  cases h : (l.rest.dropWhile test).head? with
  | none => exact htest
  | some => simpa [h] using hhead

theorem exists_passes_readGroups (n : ℕ) (l : Lexer) : ∃ w, Passes l w (l.readGroups n).2 := by
  induction n generalizing l with
  | zero => exact ⟨[], .refl l⟩
  | succ _ ih =>
    unfold readGroups
    by_cases hdot : l.ch = '.'
    · have hch : l.ch ≠ nul := by
        rw [hdot]
        decide
      rw [if_neg (not_not.mpr hdot)]
      by_cases hdigit : isDigit l.readChar.ch = false
      · rw [if_pos hdigit]
        exact ⟨_, .readChar hch⟩
      · rw [if_neg hdigit]
        obtain ⟨_, hw⟩ := ih (l.readChar.readWhile isDigit)
        exact ⟨_, ((Passes.readChar hch).trans (.readWhile rfl _)).trans hw⟩
    · rw [if_pos hdot]
      exact ⟨[], .refl l⟩

theorem exists_passes_readMask (l : Lexer) : ∃ w, Passes l w l.readMask.2 := by
  unfold readMask
  by_cases hslash : l.ch = '/'
  · have hch : l.ch ≠ nul := by
      rw [hslash]
      decide
    rw [if_neg (not_not.mpr hslash)]
    by_cases hdigit : isDigit l.readChar.ch = false
    · rw [if_pos hdigit]
      exact ⟨_, .readChar hch⟩
    · rw [if_neg hdigit]
      exact ⟨_, (Passes.readChar hch).trans (.readWhile rfl _)⟩
  · rw [if_pos hslash]
    exact ⟨[], .refl l⟩

theorem exists_passes_readNumberOrIP (l : Lexer) : ∃ w, Passes l w l.readNumberOrIP.2.2 := by
  have hdigits : Passes l _ (l.readWhile isDigit) := .readWhile rfl l
  obtain ⟨_, hgroups⟩ := exists_passes_readGroups 3 (l.readWhile isDigit)
  obtain ⟨_, hmask⟩ := exists_passes_readMask ((l.readWhile isDigit).readGroups 3).2
  unfold readNumberOrIP
  dsimp only
  split
  · split
    · exact ⟨_, hdigits.trans hgroups⟩
    · exact ⟨_, (hdigits.trans hgroups).trans hmask⟩
  · exact ⟨_, hdigits⟩

theorem readString_cases {l : Lexer} (h : l.ch = '"') :
    Passes l ('"' :: l.readString.1.toList ++ ['"']) l.readString.2 ∨
      ∃ l', Passes l ('"' :: l.readString.1.toList) l' ∧ l'.ch = nul ∧ l.readString.2 = l'.readChar := by
  have hch : l.ch ≠ nul := by
    rw [h]
    decide
  have hopen : Passes l ['"'] l.readChar := h ▸ Passes.readChar hch
  have hbody : Passes l.readChar _ (l.readChar.readWhile fun ch ↦ ch != '"' && ch != nul) :=
    .readWhile rfl _
  have hliteral : l.readString.1.toList = l.readChar.rest.takeWhile fun ch ↦ ch != '"' && ch != nul := by
    change (l.readChar.textUntil _).toList = _
    rw [hbody.textUntil, String.toList_ofList]
  rw [hliteral]
  have hread := hopen.trans hbody
  have hstop : (l.readChar.readWhile fun ch ↦ ch != '"' && ch != nul).ch = '"' ∨
      (l.readChar.readWhile fun ch ↦ ch != '"' && ch != nul).ch = nul := by
    have h := test_ch_readWhile (fun ch ↦ ch != '"' && ch != nul) rfl l.readChar
    rw [or_iff_not_imp_left]
    simpa using h
  obtain hquote | hnul := hstop
  · have hclose := Passes.readChar (hquote ▸ (by decide : '"' ≠ nul))
    rw [hquote] at hclose
    exact .inl (hread.trans hclose)
  · exact .inr ⟨_, hread, hnul, rfl⟩

def IsPlainType (type : TokenType) : Prop := type ≠ .eof ∧ type ≠ .string

instance decidableIsPlainType (type : TokenType) : Decidable (IsPlainType type) :=
  inferInstanceAs (Decidable (_ ∧ _))

theorem of_lookup {α β : Type} [BEq α] [LawfulBEq α] {table : List (α × β)} {P : β → Prop}
    (htable : ∀ e ∈ table, P e.2) {a : α} {b : β} (h : table.lookup a = some b) : P b := by
  obtain ⟨_, _, rfl, -⟩ := List.lookup_eq_some_iff.mp h
  exact htable (a, b) (by simp)

theorem isPlainType_lookupIdent (ident : String) : IsPlainType (lookupIdent ident) := by
  unfold lookupIdent
  cases h : keywords.lookup ident with
  | none => decide
  | some => exact of_lookup (P := IsPlainType) (by decide) h

theorem isPlainType_readNumberOrIP (l : Lexer) : IsPlainType l.readNumberOrIP.2.1 := by
  have hillegal : IsPlainType .illegal := by decide
  have hip : IsPlainType .ip := by decide
  have hint : IsPlainType .int := by decide
  unfold readNumberOrIP
  dsimp only
  split
  · split
    · exact hillegal
    · split
      · exact hip
      · exact hillegal
  · exact hint

@[simp]
theorem position_countBrace (type : TokenType) (l : Lexer) :
    (l.countBrace type).position = l.position := by
  cases type with
  | rBrace =>
    unfold countBrace leaveBrace
    split_ifs <;> rfl
  | _ => rfl

variable (letter : Char → Bool)

inductive Taken (l : Lexer) (tok : Token) (l' : Lexer) : Prop
  | whole (w : List Char) (hw : Passes l w l')
    (hstring : tok.type = .string → w = '"' :: tok.literal.toList ++ ['"'])
  | cut (l₀ : Lexer) (hstring : tok.type = .string) (hw : Passes l ('"' :: tok.literal.toList) l₀)
    (hnul : l₀.ch = nul) (hnext : l' = l₀.readChar)

theorem isWord_nul : isWord letter nul = false := by
  rw [isWord, isLetter_special (by decide)]
  rfl

theorem taken_of_passes {l l' : Lexer} {tok : Token} {w : List Char} (htype : IsPlainType tok.type)
    (hw : Passes l w l') : tok.type ≠ .eof ∧ Taken l tok l' :=
  ⟨htype.1, .whole w hw fun h ↦ absurd h htype.2⟩

theorem taken_scan {l : Lexer} (h : l.ch ≠ nul) :
    (l.scan letter).1.type ≠ .eof ∧ Taken l (l.scan letter).1 (l.scan letter).2 := by
  have hread := Passes.readChar h
  unfold scan
  dsimp only
  cases hop : operators.lookup l.ch with
  | some e =>
    obtain ⟨_, _, _⟩ := e
    obtain ⟨hsecond, hlong, hshort⟩ := of_lookup
      (P := fun e ↦ e.1 ≠ nul ∧ IsPlainType e.2.1 ∧ IsPlainType e.2.2) (by decide) hop
    dsimp only
    split_ifs with hpeek
    · have hnext : l.readChar.ch ≠ nul := hpeek.trans_ne hsecond
      exact taken_of_passes hlong (hread.trans (.readChar hnext))
    · exact taken_of_passes hshort hread
  | none =>
    cases hdelim : delimiters.lookup l.ch with
    | some type =>
      have htype := of_lookup (P := IsPlainType) (by decide) hdelim
      refine taken_of_passes htype (w := [l.ch]) ⟨?_, ?_, hread.noNul⟩
      · rw [rest_readChar, rest_countBrace, ← rest_readChar]
        exact hread.rest
      · exact congrArg (· + 1) (position_countBrace type l)
    | none =>
      have hillegal : IsPlainType .illegal := by decide
      dsimp only
      split_ifs with hquote hletter hdigit
      · refine ⟨TokenType.noConfusion, ?_⟩
        obtain hclosed | ⟨l', hcut, hnul, hnext⟩ := readString_cases hquote
        · exact .whole _ hclosed fun _ ↦ rfl
        · exact .cut l' rfl hcut hnul hnext
      · exact taken_of_passes (isPlainType_lookupIdent _) (.readWhile (isWord_nul letter) l)
      · obtain ⟨_, hw⟩ := exists_passes_readNumberOrIP l
        exact taken_of_passes (isPlainType_readNumberOrIP l) hw
      · exact taken_of_passes hillegal hread

theorem pos_scan (l : Lexer) : (l.scan letter).1.pos = l.pos := by
  unfold scan
  dsimp only
  split
  · split <;> rfl
  · split
    · rfl
    · split_ifs <;> rfl

variable {letter}

/-- What a lexer reads up to the end of the text, with the blanks in between. -/
inductive Lexed : Lexer → List Span → Prop
  | stop {l k : Lexer} {blanks : List Char} (hskip : Passes l blanks k)
    (hblank : ∀ c ∈ blanks, isBlank c = true) (hnul : k.ch = nul) : Lexed l []
  | next {l k l' : Lexer} {blanks : List Char} {tok : Token} {spans : List Span}
    (hskip : Passes l blanks k) (hblank : ∀ c ∈ blanks, isBlank c = true) (hch : k.ch ≠ nul)
    (htoken : Taken k tok l') (hpos : tok.pos.offset = k.position) (h : Lexed l' spans) :
    Lexed l (⟨tok, l'.position⟩ :: spans)

section Positions

variable {cs : List Char} {l l' : Lexer} {w : List Char} {i : ℕ} {c : Char}

def Inside (cs : List Char) (l : Lexer) : Prop := l.rest = cs.drop l.position

theorem Inside.readChar (h : Inside cs l) : Inside cs l.readChar := by
  change l.rest.tail = cs.drop (l.position + 1)
  rw [h, List.tail_drop]

theorem Inside.rest_eq_nil (h : Inside cs l) (hcs : nul ∉ cs) (hch : l.ch = nul) : l.rest = [] := by
  cases hrest : l.rest with
  | nil => rfl
  | cons c =>
    have hc : c = nul := (ch_eq hrest).symm.trans hch
    have hmem : nul ∈ cs.drop l.position := by
      rw [← h, hrest, hc]
      exact List.mem_cons_self
    exact absurd (List.mem_of_mem_drop hmem) hcs

theorem Passes.inside (h : Passes l w l') (hl : Inside cs l) : Inside cs l' := by
  rw [Inside, h.position, ← List.drop_drop, ← hl, h.rest, List.drop_left]

theorem Passes.slice (h : Passes l w l') (hl : Inside cs l) :
    (cs.drop l.position).take (l'.position - l.position) = w := by
  rw [← hl, h.rest, h.position, Nat.add_sub_cancel_left, List.take_left]

theorem mem_slice {start stop : ℕ} (hstart : start ≤ i) (hstop : i < stop) (hc : cs[i]? = some c) :
    c ∈ (cs.drop start).take (stop - start) := by
  refine List.mem_iff_getElem?.mpr ⟨i - start, ?_⟩
  rw [List.getElem?_take_of_lt (by omega), List.getElem?_drop, Nat.add_sub_cancel' hstart, hc]

theorem Passes.mem (h : Passes l w l') (hl : Inside cs l) (hstart : l.position ≤ i)
    (hstop : i < l'.position) (hc : cs[i]? = some c) : c ∈ w := by
  rw [← h.slice hl]
  exact mem_slice hstart hstop hc

theorem Taken.inside {tok : Token} (h : Taken l tok l') (hl : Inside cs l) : Inside cs l' := by
  cases h with
  | whole _ hw => exact hw.inside hl
  | cut _ _ hw _ hnext =>
    rw [hnext]
    exact (hw.inside hl).readChar

theorem Taken.nul_notMem_source {tok : Token} (h : Taken l tok l') (hl : Inside cs l)
    (hpos : tok.pos.offset = l.position) (hclosed : Span.Closed cs ⟨tok, l'.position⟩) :
    nul ∉ Span.source cs ⟨tok, l'.position⟩ := by
  cases h with
  | whole _ hw =>
    rw [Span.source, hpos, hw.slice hl]
    exact hw.noNul
  | cut _ hstring hw =>
    rw [hclosed hstring, List.mem_append, not_or]
    exact ⟨hw.noNul, by decide⟩

theorem Lexed.covers {spans : List Span} (h : Lexed l spans) (hl : Inside cs l) (hcs : nul ∉ cs)
    (hstart : l.position ≤ i) (hc : cs[i]? = some c) (hblank : isBlank c = false) :
    ∃ s ∈ spans, s.Covers i := by
  induction h with
  | @stop _ k _ hskip hall hnul =>
    have hend : cs.length ≤ k.position :=
      List.drop_eq_nil_iff.mp ((hskip.inside hl).symm.trans ((hskip.inside hl).rest_eq_nil hcs hnul))
    have hi : i < cs.length := List.getElem?_eq_some_iff.mp hc |>.1
    have hmem := hskip.mem hl hstart (hi.trans_le hend) hc
    rw [hall c hmem] at hblank
    cases hblank
  | @next _ k l' _ _ _ hskip hall _ htoken hpos _ ih =>
    have hk := hskip.inside hl
    obtain hlt | _ := Nat.lt_or_ge i k.position
    · rw [hall c (hskip.mem hl hstart hlt hc)] at hblank
      cases hblank
    · obtain hlt | hstop := Nat.lt_or_ge i l'.position
      · refine ⟨_, List.mem_cons_self, ?_, hlt⟩
        rwa [hpos]
      · obtain ⟨s, hs, hcovers⟩ := ih (htoken.inside hk) hstop
        exact ⟨s, List.mem_cons_of_mem _ hs, hcovers⟩

theorem Lexed.notMem_nul {spans : List Span} (h : Lexed l spans) (hl : Inside cs l) {s : Span}
    (hs : s ∈ spans) (hclosed : s.Closed cs) : nul ∉ s.source cs := by
  induction h with
  | stop => cases hs
  | @next _ _ _ _ _ _ hskip _ _ htoken hpos _ ih =>
    have hk := hskip.inside hl
    obtain rfl | hs := List.mem_cons.mp hs
    · exact htoken.nul_notMem_source hk hpos hclosed
    · exact ih (htoken.inside hk) hs

theorem Lexed.eq_nil {spans : List Span} (h : Lexed l spans) (hl : l.rest = []) : spans = [] := by
  cases h with
  | stop => rfl
  | @next _ k _ _ _ _ hskip _ hch =>
    have hk : k.rest = [] := by
      have happend := hskip.rest
      rw [hl] at happend
      exact (List.append_eq_nil_iff.mp happend.symm).2
    rw [ch, hk] at hch
    exact absurd rfl hch

theorem Lexed.closed {spans : List Span} (h : Lexed l spans) (hl : Inside cs l) (hcs : nul ∉ cs)
    {s : Span} (hs : s ∈ spans) :
    s.Closed cs ∨ (s.token.type = .string ∧ spans.getLast? = some s) := by
  induction h with
  | stop => cases hs
  | @next _ _ l' _ _ _ hskip _ _ htoken hpos h ih =>
    have hk := hskip.inside hl
    obtain rfl | hs := List.mem_cons.mp hs
    · cases htoken with
      | whole _ hw hstring =>
        refine .inl fun htype ↦ ?_
        rw [Span.source, hpos, hw.slice hk]
        exact hstring htype
      | cut _ hstring hw hnul hnext =>
        have hrest : l'.rest = [] := by
          rw [hnext, rest_readChar, (hw.inside hk).rest_eq_nil hcs hnul, List.tail_nil]
        rw [h.eq_nil hrest]
        exact .inr ⟨hstring, rfl⟩
    · obtain hclosed | ⟨htype, hlast⟩ := ih (htoken.inside hk) hs
      · exact .inl hclosed
      · refine .inr ⟨htype, ?_⟩
        rw [List.getLast?_cons, hlast]
        rfl

end Positions

variable (letter)

def readSpans : ℕ → Lexer → List Span
  | 0, _ => []
  | n + 1, l =>
    ⟨(l.nextToken letter).1, (l.nextToken letter).2.position⟩ ::
      readSpans n (l.nextToken letter).2

theorem map_token_readSpans (n : ℕ) (l : Lexer) :
    (l.readSpans letter n).map Span.token = l.read letter n := by
  induction n generalizing l with
  | zero => rfl
  | succ _ ih => rw [readSpans, read, List.map_cons, ih]

theorem lexed_readSpans (n : ℕ) (l : Lexer) (hn : l.size < n) :
    Lexed l ((l.readSpans letter n).takeWhile (·.token.type != .eof)) := by
  induction n generalizing l with
  | zero => exact absurd hn (Nat.not_lt_zero _)
  | succ _ ih =>
    have hskip : Passes l _ l.skipWhitespace := .readWhile rfl l
    have hblank : ∀ c ∈ l.rest.takeWhile isBlank, isBlank c = true := fun c ↦ List.mem_takeWhile_imp
    rw [readSpans]
    by_cases hch : l.skipWhitespace.ch = nul
    · have heof : (l.nextToken letter).1.type = .eof := (scan_of_nul letter hch).1
      rw [List.takeWhile_cons_of_neg (by simp [heof])]
      exact .stop hskip hblank hch
    · obtain ⟨htype, htaken⟩ : (l.nextToken letter).1.type ≠ .eof ∧
        Taken l.skipWhitespace (l.nextToken letter).1 (l.nextToken letter).2 := taken_scan letter hch
      have hsize := l.weight_add_size_nextToken_le letter
      have hweight : (l.nextToken letter).1.type.weight = 1 := if_neg htype
      rw [List.takeWhile_cons_of_pos (by simpa using htype)]
      refine .next hskip hblank hch htaken ?_ (ih _ (by omega))
      exact congrArg Position.offset (pos_scan letter l.skipWhitespace)

end Lexer

variable (letter : Char → Bool)

def spans (text : String) : List Span :=
  ((newLexer text).readSpans letter (text.toList.length + 1)).takeWhile (·.token.type != .eof)

theorem map_token_spans (text : String) : (spans letter text).map Span.token = tokens letter text := by
  unfold spans tokens
  rw [← Lexer.map_token_readSpans, List.takeWhile_map]
  rfl

theorem lexed_spans (text : String) : Lexer.Lexed (newLexer text) (spans letter text) :=
  Lexer.lexed_readSpans letter _ _ (Nat.lt_succ_self _)

theorem inside_newLexer (text : String) : Lexer.Inside text.toList (newLexer text) := rfl

/-- Every character that is not blank is inside a token that one of the policies
consumed, and every string is closed. -/
def NothingIgnored (text : String) (policies : List PolicyNode) : Prop :=
  ∃ parts : List (List Token), parts.flatten = tokens letter text ∧
    List.Forall₂ (Parser.ConsumedBy letter) parts policies ∧
    (∀ i c, text.toList[i]? = some c → isBlank c = false →
      ∃ part ∈ parts, ∃ s ∈ spans letter text, s.token ∈ part ∧ s.Covers i) ∧
    ∀ s ∈ spans letter text, s.Closed text.toList

variable {letter}

theorem exists_parts {text : String} (h : (parse letter text).2 = []) :
    ∃ parts, parts.flatten = tokens letter text ∧
      List.Forall₂ (fun part policy ↦ Rest part policy ∧ Parser.ConsumedBy letter part policy) parts
        (parse letter text).1 := by
  refine ensures_parseWithin (Q := fun policies errors ↦ errors = [] → ∃ parts,
    parts.flatten = tokens letter text ∧ List.Forall₂ (fun part policy ↦
      Rest part policy ∧ Parser.ConsumedBy letter part policy) parts policies) ?_ h
  refine Ensures.mono (Parser.sound_parsePolicies_parts _) fun policies q hq he ↦ ?_
  obtain ⟨_, ⟨hts, -⟩, parts, _, hparts, heof, hpolicies⟩ := hq he
  have hstatements := statements_flatten (hpolicies.imp fun _ _ h ↦ h.1)
  have htokens := tokens_eq (Parser.read_of_upcoming hts hparts) hstatements.ne_eof heof
  exact ⟨parts, htokens.symm, hpolicies⟩

theorem semicolon_of_getLast? {parts : List (List Token)} {policies : List PolicyNode}
    (h : List.Forall₂ (fun part policy ↦ Rest part policy ∧ Parser.ConsumedBy letter part policy)
      parts policies) {tok : Token} (hlast : parts.flatten.getLast? = some tok) :
    tok.type = .semicolon := by
  induction h with
  | nil => cases hlast
  | @cons _ _ parts _ hpart _ ih =>
    obtain ⟨⟨_, _, rfl, hsemicolon, -⟩, -⟩ := hpart
    rw [List.flatten_cons, List.getLast?_append] at hlast
    cases hrest : parts.flatten.getLast? with
    | some =>
      rw [hrest] at hlast
      exact ih (hrest.trans hlast)
    | none =>
      rw [hrest, List.getLast?_append] at hlast
      cases hlast
      exact hsemicolon

theorem nul_notMem_of_nothingIgnored {text : String} {policies : List PolicyNode}
    (h : NothingIgnored letter text policies) : nul ∉ text.toList := by
  intro hmem
  obtain ⟨_, -, -, hcovered, hclosed⟩ := h
  obtain ⟨i, hi⟩ := List.mem_iff_getElem?.mp hmem
  obtain ⟨-, -, s, hs, -, hcovers⟩ := hcovered i nul hi rfl
  have hnul := (lexed_spans letter text).notMem_nul (inside_newLexer text) hs (hclosed s hs)
  exact hnul (Lexer.mem_slice hcovers.1 hcovers.2 hi)

theorem nothing_ignored_iff (letter : Char → Bool) (text : String)
    (h : (parse letter text).2 = []) :
    NothingIgnored letter text (parse letter text).1 ↔ nul ∉ text.toList := by
  refine ⟨nul_notMem_of_nothingIgnored, fun hnul ↦ ?_⟩
  obtain ⟨parts, hparts, hpolicies⟩ := exists_parts h
  have hlexed := lexed_spans letter text
  have hinside := inside_newLexer text
  refine ⟨parts, hparts, hpolicies.imp fun _ _ hpart ↦ hpart.2, ?_, ?_⟩
  · intro i _ hc hblank
    obtain ⟨s, hs, hcovers⟩ := hlexed.covers hinside hnul (Nat.zero_le i) hc hblank
    have hmem : s.token ∈ parts.flatten := by
      rw [hparts, ← map_token_spans]
      exact List.mem_map_of_mem hs
    obtain ⟨part, hpart, htoken⟩ := List.mem_flatten.mp hmem
    exact ⟨part, hpart, s, hs, htoken, hcovers⟩
  · intro s hs
    obtain hclosed | ⟨hstring, hlast⟩ := hlexed.closed hinside hnul hs
    · exact hclosed
    · -- A string that the end cuts off would be the last token, and that is a semicolon.
      have htoken : parts.flatten.getLast? = some s.token := by
        rw [hparts, ← map_token_spans, List.getLast?_map, hlast]
        rfl
      rw [semicolon_of_getLast? hpolicies htoken] at hstring
      cases hstring

def permitAll : String := "permit(principal==any,action==any,resource==any);"

def forbidAll : String := "forbid(principal==any,action==any,resource==any);"

theorem nothing_ignored_permitAll :
    NothingIgnored (fun _ ↦ false) permitAll (parse (fun _ ↦ false) permitAll).1 :=
  (nothing_ignored_iff (fun _ ↦ false) permitAll (by decide)).mpr (by decide)

/-- After a zero character the prohibition is not there. -/
theorem forbidAll_ignored_after_nul :
    (parse (fun _ ↦ false) (permitAll ++ "\x00" ++ forbidAll)).2 = [] ∧
      (parse (fun _ ↦ false) (permitAll ++ "\x00" ++ forbidAll)).1.map PolicyNode.effect =
        [.permit] ∧
      ¬ NothingIgnored (fun _ ↦ false) (permitAll ++ "\x00" ++ forbidAll)
        (parse (fun _ ↦ false) (permitAll ++ "\x00" ++ forbidAll)).1 := by
  refine ⟨by decide, by decide, fun h ↦ ?_⟩
  exact absurd (nul_notMem_of_nothingIgnored h) (by decide)

end PolicyEngine.Parser

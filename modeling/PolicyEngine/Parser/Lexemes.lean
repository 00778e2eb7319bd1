import PolicyEngine.Parser.Steps

namespace PolicyEngine.Parser

open PolicyEngine.Go

namespace Lexer

theorem rest_iterate_readChar (n : ℕ) (l : Lexer) : (readChar^[n] l).rest = l.rest.drop n := by
  induction n generalizing l with
  | zero => rfl
  | succ _ ih =>
    rw [Function.iterate_succ_apply, ih, ← List.drop_tail]
    rfl

theorem position_iterate_readChar (n : ℕ) (l : Lexer) :
    (readChar^[n] l).position = l.position + n := by
  induction n generalizing l with
  | zero => rfl
  | succ n ih =>
    rw [Function.iterate_succ_apply, ih, Nat.add_comm n, ← Nat.add_assoc]
    rfl

variable {test : Char → Bool} {l : Lexer} {w cs : List Char}

/-- The test holds on `w` and stops right after it. -/
def Spans (test : Char → Bool) (w cs : List Char) : Prop :=
  (∀ c ∈ w, test c = true) ∧ ∀ c ∈ cs.head?, test c = false

theorem Spans.takeWhile (h : Spans test w cs) : (w ++ cs).takeWhile test = w := by
  rw [List.takeWhile_append_of_pos h.1]
  cases cs with
  | nil => simp
  | cons c => simp [h.2 c rfl]

theorem Spans.rest (h : Spans test w cs) (hl : l.rest = w ++ cs) :
    (l.readWhile test).rest = cs := by
  rw [readWhile, rest_iterate_readChar, hl, h.takeWhile, List.drop_left]

theorem Spans.textUntil (h : Spans test w cs) (hl : l.rest = w ++ cs) :
    l.textUntil (l.readWhile test) = String.ofList w := by
  rw [Lexer.textUntil, readWhile, position_iterate_readChar, Nat.add_sub_cancel_left, hl,
    h.takeWhile, List.take_left]

@[simp]
theorem rest_countBrace (type : TokenType) (l : Lexer) : (l.countBrace type).rest = l.rest := by
  cases type with
  | rBrace =>
    unfold countBrace leaveBrace
    split_ifs <;> rfl
  | _ => rfl

@[simp]
theorem rest_readChar (l : Lexer) : l.readChar.rest = l.rest.tail := rfl

variable (letter : Char → Bool)

/-- Whatever was read before, the text `w` in front of `cs` is the token `t`. -/
def Scans (w cs : List Char) (t : Lexeme) : Prop :=
  ∀ l : Lexer, l.rest = w ++ cs → (l.scan letter).1.lexeme = t ∧ (l.scan letter).2.rest = cs

def Writes (cs : List Char) (ts : List Lexeme) : Prop :=
  ∀ l : Lexer, l.rest = cs → (l.read letter ts.length).map Token.lexeme = ts

variable {letter} {c : Char} {t : Lexeme} {ts : List Lexeme}

theorem writes_nil : Writes letter cs [] := fun _ _ ↦ rfl

theorem skipWhitespace_of_not_blank (hl : l.rest = c :: cs) (hc : isBlank c = false) :
    l.skipWhitespace = l := by
  rw [skipWhitespace, readWhile, hl, List.takeWhile_cons_of_neg (by simp [hc])]
  rfl

theorem skipWhitespace_of_blank (hl : l.rest = c :: cs) (hc : isBlank c = true) :
    l.skipWhitespace = l.readChar.skipWhitespace := by
  have htail : l.readChar.rest = cs := congrArg List.tail hl
  rw [skipWhitespace, skipWhitespace, readWhile, readWhile, hl, htail,
    List.takeWhile_cons_of_pos hc, List.length_cons, Function.iterate_succ_apply]

theorem writes_blank (h : Writes letter cs ts) : Writes letter (' ' :: cs) ts := by
  intro l hl
  have hnext : l.nextToken letter = l.readChar.nextToken letter := by
    rw [nextToken, nextToken, skipWhitespace_of_blank hl rfl]
  have hread : l.read letter ts.length = l.readChar.read letter ts.length := by
    cases ts with
    | nil => rfl
    | cons => rw [List.length_cons, read, read, hnext]
  rw [hread]
  exact h _ (congrArg List.tail hl)

theorem writes_cons (hc : isBlank c = false) (hw : Scans letter (c :: w) cs t)
    (h : Writes letter cs ts) : Writes letter (c :: w ++ cs) (t :: ts) := by
  intro l hl
  have hnext : l.nextToken letter = l.scan letter := by
    rw [nextToken, skipWhitespace_of_not_blank hl hc]
  obtain ⟨htoken, hrest⟩ := hw l hl
  rw [List.length_cons, read, List.map_cons, hnext, htoken, h _ hrest]

section Characters

theorem ch_eq (hl : l.rest = c :: cs) : l.ch = c := by rw [ch, hl, List.headD_cons]

theorem peekChar_eq (hl : l.rest = c :: cs) : l.peekChar = cs.headD nul := by
  rw [peekChar, hl, List.tail_cons]

theorem scans_delimiter {type : TokenType} (hop : operators.lookup c = none)
    (h : delimiters.lookup c = some type) : Scans letter [c] cs (type, String.singleton c) := by
  intro l hl
  have hch : l.ch = c := ch_eq hl
  simp [scan, hch, hop, h, Token.lexeme, hl]

theorem scans_long {second : Char} {long short : TokenType}
    (h : operators.lookup c = some (second, long, short)) :
    Scans letter [c, second] cs (long, String.singleton c ++ String.singleton second) := by
  intro l hl
  have hch : l.ch = c := ch_eq hl
  have hpeek : l.peekChar = second := peekChar_eq hl
  simp [scan, hch, hpeek, h, Token.lexeme, hl]

theorem scans_short {second : Char} {long short : TokenType}
    (h : operators.lookup c = some (second, long, short)) (hcs : cs.headD nul ≠ second) :
    Scans letter [c] cs (short, String.singleton c) := by
  intro l hl
  have hch : l.ch = c := ch_eq hl
  have hpeek : l.peekChar ≠ second := by rwa [peekChar_eq hl]
  simp [scan, hch, hpeek, h, Token.lexeme, hl]

def IsPlain (c : Char) : Prop := operators.lookup c = none ∧ delimiters.lookup c = none

theorem isPlain_of (h : c ∉ operators.map Prod.fst ++ delimiters.map Prod.fst) : IsPlain c := by
  rw [List.mem_append, not_or] at h
  constructor
  · rw [List.lookup_eq_none_iff]
    intro p hp
    have hne : c ≠ p.1 := fun heq ↦ h.1 (List.mem_map.mpr ⟨p, hp, heq.symm⟩)
    simpa using hne
  · rw [List.lookup_eq_none_iff]
    intro p hp
    have hne : c ≠ p.1 := fun heq ↦ h.2 (List.mem_map.mpr ⟨p, hp, heq.symm⟩)
    simpa using hne

def specials : List Char :=
  operators.map Prod.fst ++ delimiters.map Prod.fst ++ ['"', nul, ' ', '\t', '\n', '\r']

theorem isLetter_special (h : c ∈ specials) : isLetter letter c = false := by
  have hall : specials.all (fun c ↦ c.toNat < 128 ∧ c.isAlpha = false ∧ c ≠ '_') = true := by
    decide
  obtain ⟨hascii, halpha, hunderscore⟩ := of_decide_eq_true (List.all_eq_true.mp hall c h)
  simp [isLetter, hascii, halpha, hunderscore]

theorem isDigit_special (h : c ∈ specials) : isDigit c = false := by
  have hall : specials.all (fun c ↦ !isDigit c) = true := by decide
  exact (Bool.not_eq_true' _).mp (List.all_eq_true.mp hall c h)

theorem isDigit_iff : isDigit c = true ↔ 48 ≤ c.toNat ∧ c.toNat ≤ 57 := by
  have h : isDigit c = (decide (48 ≤ c.toNat) && decide (c.toNat ≤ 57)) := rfl
  rw [h, Bool.and_eq_true, decide_eq_true_iff, decide_eq_true_iff]

theorem isLetter_of_isDigit (h : isDigit c = true) : isLetter letter c = false := by
  obtain ⟨_, hhi⟩ := isDigit_iff.mp h
  have hupper : c.isUpper = false := by
    rw [Bool.eq_false_iff, ne_eq, Text.isUpper_iff]
    omega
  have hlower : c.isLower = false := by
    rw [Bool.eq_false_iff, ne_eq, Text.isLower_iff]
    omega
  have hunderscore : c ≠ '_' := by
    intro heq
    rw [heq] at hhi
    exact absurd hhi (by decide)
  have hascii : c.toNat < 128 := by omega
  have halpha : c.isAlpha = (c.isUpper || c.isLower) := rfl
  simp [isLetter, hascii, halpha, hupper, hlower, hunderscore]

theorem isPlain_of_not_special (h : c ∉ specials) :
    IsPlain c ∧ c ≠ '"' ∧ c ≠ nul ∧ isBlank c = false := by
  refine ⟨isPlain_of fun hmem ↦ h (List.mem_append_left _ hmem), ?_, ?_, ?_⟩
  · intro heq
    exact h (heq ▸ by decide)
  · intro heq
    exact h (heq ▸ by decide)
  · rw [Bool.eq_false_iff]
    intro hblank
    simp only [isBlank, Bool.or_eq_true, beq_iff_eq] at hblank
    obtain ((rfl | rfl) | rfl) | rfl := hblank
    all_goals exact h (by decide)

theorem not_special_of_isLetter (h : isLetter letter c = true) : c ∉ specials := by
  intro hmem
  rw [isLetter_special hmem] at h
  cases h

theorem not_special_of_isDigit (h : isDigit c = true) : c ∉ specials := by
  intro hmem
  rw [isDigit_special hmem] at h
  cases h

end Characters

def isWord (letter : Char → Bool) (c : Char) : Bool := isLetter letter c || isDigit c

def EndsWord (letter : Char → Bool) (cs : List Char) : Prop :=
  ∀ c ∈ cs.head?, isWord letter c = false

theorem endsWord_of_special (h : c ∈ specials) : EndsWord letter (c :: cs) := by
  intro _ hx
  cases hx
  rw [isWord, isLetter_special h, isDigit_special h]
  rfl

theorem writes_word {word : String} (hword : IsIdentifier letter word.toList)
    (hcs : EndsWord letter cs) (h : Writes letter cs ts) :
    Writes letter (word.toList ++ cs) ((lookupIdent word, word) :: ts) := by
  obtain ⟨c, w, hw, hc, hrest⟩ := hword
  obtain ⟨⟨hop, hdelim⟩, hquote, hnul, hblank⟩ :=
    isPlain_of_not_special (not_special_of_isLetter hc)
  have hspan : Spans (isWord letter) (c :: w) cs := by
    refine ⟨List.forall_mem_cons.mpr ⟨?_, hrest⟩, hcs⟩
    rw [isWord, hc, Bool.true_or]
  have htext : String.ofList (c :: w) = word := by rw [← hw, String.ofList_toList]
  rw [hw]
  refine writes_cons hblank (fun l hl ↦ ?_) h
  have hch : l.ch = c := ch_eq hl
  have hident : l.readIdentifier letter = (word, l.readWhile (isWord letter)) := by
    rw [← htext, ← hspan.textUntil hl]
    rfl
  have hafter : (l.readWhile (isWord letter)).rest = cs := hspan.rest hl
  simp [scan, hch, hop, hdelim, hquote, hnul, hc, hident, hafter, Token.lexeme]

theorem writes_number {w : List Char} (hne : w ≠ []) (hw : ∀ c ∈ w, isDigit c = true)
    (hcs : EndsWord letter cs) (hdot : cs.headD nul ≠ '.') (h : Writes letter cs ts) :
    Writes letter (w ++ cs) ((.int, String.ofList w) :: ts) := by
  obtain ⟨c, w, rfl⟩ := List.exists_cons_of_ne_nil hne
  have hc := hw c List.mem_cons_self
  obtain ⟨⟨hop, hdelim⟩, hquote, hnul, hblank⟩ := isPlain_of_not_special (not_special_of_isDigit hc)
  have hspan : Spans isDigit (c :: w) cs := by
    refine ⟨hw, fun x hx ↦ ?_⟩
    exact (Bool.or_eq_false_iff.mp (hcs x hx)).2
  refine writes_cons hblank (fun l hl ↦ ?_) h
  have hch : l.ch = c := ch_eq hl
  have hafter : (l.readWhile isDigit).rest = cs := hspan.rest hl
  have hstop : (l.readWhile isDigit).ch ≠ '.' := by rwa [ch, hafter]
  have hnumber : l.readNumberOrIP = (String.ofList (c :: w), .int, l.readWhile isDigit) := by
    rw [← hspan.textUntil hl, readNumberOrIP]
    exact if_neg hstop
  simp [scan, hch, hop, hdelim, hquote, hnul, isLetter_of_isDigit hc, hc, hnumber, hafter,
    Token.lexeme]

theorem writes_quoted (s : Quoted) (h : Writes letter cs ts) :
    Writes letter (s.printed.toList ++ cs) (s.token :: ts) := by
  have hspan : Spans (fun ch ↦ ch != '"' && ch != nul) s.text.toList ('"' :: cs) := by
    refine ⟨fun c hc ↦ ?_, fun c hc ↦ ?_⟩
    · have hquote : c ≠ '"' := fun heq ↦ s.noQuote (heq ▸ hc)
      have hnul : c ≠ nul := fun heq ↦ s.noNul (heq ▸ hc)
      simp [hquote, hnul]
    · cases hc
      rfl
  have hprinted : s.printed.toList ++ cs = '"' :: (s.text.toList ++ ['"']) ++ cs := by
    simp [Quoted.printed]
  rw [hprinted]
  refine writes_cons rfl (fun l hl ↦ ?_) h
  have hch : l.ch = '"' := ch_eq hl
  have hstart : l.readChar.rest = s.text.toList ++ '"' :: cs := by
    rw [rest_readChar, hl]
    simp
  have hstring : l.readString = (s.text,
      (l.readChar.readWhile fun ch ↦ ch != '"' && ch != nul).readChar) := by
    rw [readString, hspan.textUntil hstart, String.ofList_toList]
  have hop : operators.lookup '"' = none := rfl
  have hdelim : delimiters.lookup '"' = none := rfl
  simp [scan, hch, hop, hdelim, hstring, hspan.rest hstart, Token.lexeme, Quoted.token]

theorem writes_delimiter (c : Char) {type : TokenType} (hc : isBlank c = false)
    (hop : operators.lookup c = none) (hdelim : delimiters.lookup c = some type)
    (htext : String.singleton c = type.text) (h : Writes letter cs ts) :
    Writes letter (c :: cs) (type.token :: ts) := by
  rw [TokenType.token, ← htext]
  exact writes_cons hc (scans_delimiter hop hdelim) h

theorem writes_eof (n : ℕ) : Writes letter [] (List.replicate n (.eof, "")) := by
  induction n with
  | zero => exact writes_nil
  | succ _ ih =>
    intro l hl
    have hskip : l.skipWhitespace = l := by
      rw [skipWhitespace, readWhile, hl]
      rfl
    have hch : l.ch = nul := by rw [ch, hl, List.headD_nil]
    have hop : operators.lookup nul = none := rfl
    have hdelim : delimiters.lookup nul = none := rfl
    have hquote : nul ≠ '"' := by decide
    have hnext : (l.nextToken letter).1.lexeme = (.eof, "") ∧ (l.nextToken letter).2.rest = [] := by
      rw [nextToken, hskip]
      simp [scan, hch, hop, hdelim, hquote, hl, Token.lexeme]
    rw [List.length_replicate, read, List.map_cons, hnext.1, List.replicate_succ]
    have hrest := ih _ hnext.2
    rw [List.length_replicate] at hrest
    rw [hrest]

theorem isIdentifier_of_alpha (hne : cs ≠ [])
    (h : cs.all (fun c ↦ c.toNat < 128 && c.isAlpha) = true) : IsIdentifier letter cs := by
  obtain ⟨c, w, rfl⟩ := List.exists_cons_of_ne_nil hne
  have hletter (x : Char) (hx : x ∈ c :: w) : isLetter letter x = true := by
    have hascii := List.all_eq_true.mp h x hx
    rw [Bool.and_eq_true, decide_eq_true_iff] at hascii
    simp [isLetter, hascii]
  refine ⟨c, w, rfl, hletter c List.mem_cons_self, fun x hx ↦ ?_⟩
  rw [hletter x (List.mem_cons_of_mem c hx), Bool.true_or]

def IsKeyword (type : TokenType) : Prop :=
  lookupIdent type.text = type ∧ type.text.toList ≠ [] ∧
    type.text.toList.all (fun c ↦ c.toNat < 128 && c.isAlpha) = true

instance decidableIsKeyword (type : TokenType) : Decidable (IsKeyword type) :=
  inferInstanceAs (Decidable (_ ∧ _ ∧ _))

theorem writes_keyword (type : TokenType) (hkey : IsKeyword type) (hcs : EndsWord letter cs)
    (h : Writes letter cs ts) : Writes letter (type.text.toList ++ cs) (type.token :: ts) := by
  have hword := writes_word (isIdentifier_of_alpha hkey.2.1 hkey.2.2) hcs h
  rw [hkey.1] at hword
  exact hword

theorem writes_ident (name : Ident letter) (hcs : EndsWord letter cs) (h : Writes letter cs ts) :
    Writes letter (name.text.toList ++ cs) (name.token :: ts) := by
  have hword := writes_word name.identifier hcs h
  rw [name.plain] at hword
  exact hword

theorem writes_operator (op : BinaryOp) (h : Writes letter cs ts) :
    Writes letter (op.type.text.toList ++ ' ' :: cs) (op.type.token :: ts) := by
  have hrest := writes_blank h
  have hword : EndsWord letter (' ' :: cs) := endsWord_of_special (by decide)
  have hshort : (' ' :: cs).headD nul ≠ '=' := (by decide : ' ' ≠ '=')
  cases op with
  | and => exact writes_cons (c := '&') rfl (scans_long rfl) hrest
  | or => exact writes_cons (c := '|') rfl (scans_long rfl) hrest
  | eq => exact writes_cons (c := '=') rfl (scans_long rfl) hrest
  | ne => exact writes_cons (c := '!') rfl (scans_long rfl) hrest
  | ge => exact writes_cons (c := '>') rfl (scans_long rfl) hrest
  | le => exact writes_cons (c := '<') rfl (scans_long rfl) hrest
  | gt => exact writes_cons (c := '>') rfl (scans_short rfl hshort) hrest
  | lt => exact writes_cons (c := '<') rfl (scans_short rfl hshort) hrest
  | «in» => exact writes_keyword _ (by decide) hword hrest
  | contains => exact writes_keyword _ (by decide) hword hrest

end Lexer

namespace Expr

open Lexer

variable {letter : Char → Bool} {cs : List Char} {ts : List Lexeme}

def Stops (cs : List Char) : Prop := ∃ c rest, cs = c :: rest ∧ (c = ' ' ∨ c = ')')

theorem stops_blank : Stops (' ' :: cs) := ⟨' ', cs, rfl, .inl rfl⟩

theorem Stops.endsWord (h : Stops cs) : EndsWord letter cs := by
  obtain ⟨_, _, rfl, rfl | rfl⟩ := h
  · exact endsWord_of_special (by decide)
  · exact endsWord_of_special (by decide)

theorem Stops.headD_ne (h : Stops cs) : cs.headD nul ≠ '.' := by
  obtain ⟨_, _, rfl, rfl | rfl⟩ := h
  · exact (by decide : ' ' ≠ '.')
  · exact (by decide : ')' ≠ '.')

theorem toList_bracket (needed : Prop) [Decidable needed] (text : String) :
    (bracket needed text).toList =
      if needed then '(' :: (text.toList ++ [')']) else text.toList := by
  unfold bracket
  split_ifs
  · simp
  · rfl

theorem writes_bracket (needed : Prop) [Decidable needed] {text : String} {tokens : List Lexeme}
    (hbody : ∀ cs ts, Stops cs → Writes letter cs ts →
      Writes letter (text.toList ++ cs) (tokens ++ ts))
    (hcs : Stops cs) (h : Writes letter cs ts) :
    Writes letter ((bracket needed text).toList ++ cs) (bracketTokens needed tokens ++ ts) := by
  rw [toList_bracket, bracketTokens]
  split_ifs
  · have hclose : Writes letter (')' :: cs) (TokenType.rParen.token :: ts) :=
      writes_delimiter ')' rfl rfl rfl rfl h
    have hopen : Writes letter ('(' :: (text.toList ++ ')' :: cs))
        (TokenType.lParen.token :: (tokens ++ TokenType.rParen.token :: ts)) :=
      writes_delimiter '(' rfl rfl rfl rfl (hbody (')' :: cs) _ ⟨')', cs, rfl, .inr rfl⟩ hclose)
    simpa using hopen
  · exact hbody cs ts hcs h

theorem exists_cons_scope (scope : VarScope) :
    ∃ c w, scope.token.2.toList = c :: w ∧ c ≠ '=' := by
  cases scope with
  | principal => exact ⟨'p', "rincipal".toList, rfl, by decide⟩
  | resource => exact ⟨'r', "esource".toList, rfl, by decide⟩
  | context => exact ⟨'c', "ontext".toList, rfl, by decide⟩

theorem exists_cons_print (e : Expr letter) : ∃ c w, e.print.toList = c :: w ∧ c ≠ '=' := by
  induction e with
  | var scope field =>
    obtain ⟨c, w, hw, hc⟩ := exists_cons_scope scope
    refine ⟨c, w ++ '.' :: field.text.toList, ?_, hc⟩
    simp [print, hw]
  | int n hn =>
    obtain ⟨c, w, hw⟩ := List.exists_cons_of_ne_nil (Nat.toDigits_ne_nil (n := n.toInt.natAbs) (b := 10))
    have hdigit : c.isDigit = true := Strconv.isDigit_of_mem (n := n.toInt.natAbs) (by simp [hw])
    refine ⟨c, w, by rw [print, Strconv.toList_formatInt_of_nonneg hn, hw], ?_⟩
    intro heq
    rw [heq] at hdigit
    exact absurd hdigit (by decide)
  | bool b =>
    cases b with
    | true => exact ⟨'t', "rue".toList, by rw [print]; rfl, by decide⟩
    | false => exact ⟨'f', "alse".toList, by rw [print]; rfl, by decide⟩
  | string s =>
    refine ⟨'"', s.text.toList ++ ['"'], ?_, by decide⟩
    simp [print, Quoted.printed]
  | not e =>
    refine ⟨'!', (bracket (e.precedence < unaryPrecedence) e.print).toList, ?_, by decide⟩
    simp [print]
  | binary _ _ _ ihl =>
    obtain ⟨c, _, hleft, hc⟩ := ihl
    rw [print]
    simp only [String.toList_append, List.append_assoc, toList_bracket]
    split_ifs
    · exact ⟨'(', _, rfl, by decide⟩
    · exact ⟨'(', _, rfl, by decide⟩
    · exact ⟨c, _, by rw [hleft]; rfl, hc⟩
    · exact ⟨c, _, by rw [hleft]; rfl, hc⟩

theorem exists_cons_bracket (needed : Prop) [Decidable needed] (e : Expr letter) :
    ∃ c w, (bracket needed e.print).toList = c :: w ∧ c ≠ '=' := by
  rw [toList_bracket]
  split_ifs
  · exact ⟨'(', _, rfl, by decide⟩
  · exact exists_cons_print e

theorem writes_print (e : Expr letter) (hcs : Stops cs) (h : Writes letter cs ts) :
    Writes letter (e.print.toList ++ cs) (e.tokens ++ ts) := by
  induction e generalizing cs ts with
  | var scope field =>
    have hfield := writes_ident field hcs.endsWord h
    have hdot : Writes letter ('.' :: (field.text.toList ++ cs))
        (TokenType.dot.token :: field.token :: ts) :=
      writes_delimiter '.' rfl rfl rfl rfl hfield
    have hends : EndsWord letter ('.' :: (field.text.toList ++ cs)) :=
      endsWord_of_special (by decide)
    have hscope : Writes letter (scope.token.2.toList ++ '.' :: (field.text.toList ++ cs))
        (scope.token :: TokenType.dot.token :: field.token :: ts) := by
      cases scope with
      | principal => exact writes_keyword _ (by decide) hends hdot
      | resource => exact writes_keyword _ (by decide) hends hdot
      | context =>
        have hcontext : IsIdentifier letter "context".toList :=
          isIdentifier_of_alpha (by decide) (by decide)
        exact writes_word hcontext hends hdot
    simpa [print, tokens] using hscope
  | int n hn =>
    have hdigits := Strconv.toList_formatInt_of_nonneg hn
    have hnumber := writes_number (Nat.toDigits_ne_nil (n := n.toInt.natAbs) (b := 10))
      (fun c hc ↦ Strconv.isDigit_of_mem hc) hcs.endsWord hcs.headD_ne h
    rw [← hdigits, String.ofList_toList] at hnumber
    rw [print, tokens]
    exact hnumber
  | bool b =>
    have hkey : IsKeyword (boolType b) := by cases b <;> decide
    rw [print, tokens]
    exact writes_keyword _ hkey hcs.endsWord h
  | string s =>
    rw [print, tokens]
    exact writes_quoted s h
  | not e ih =>
    have hchild := writes_bracket (e.precedence < unaryPrecedence)
      (fun _ _ hcs h ↦ ih hcs h) hcs h
    have hnext : ((bracket (e.precedence < unaryPrecedence) e.print).toList ++ cs).headD nul ≠
        '=' := by
      obtain ⟨_, _, hw, _⟩ := exists_cons_bracket (e.precedence < unaryPrecedence) e
      rwa [hw]
    have hnot : Scans letter ['!'] ((bracket (e.precedence < unaryPrecedence) e.print).toList ++ cs)
        TokenType.not.token := scans_short rfl hnext
    simpa [print, tokens] using writes_cons rfl hnot hchild
  | binary op left right ihl ihr =>
    have hright := writes_bracket (right.precedence ≤ op.precedence)
      (fun _ _ hcs h ↦ ihr hcs h) hcs h
    have hop := writes_blank (writes_operator op hright)
    have hleft := writes_bracket (left.precedence < op.precedence)
      (fun _ _ hcs h ↦ ihl hcs h) stops_blank hop
    simpa [print, tokens] using hleft

end Expr

open Lexer

variable {letter : Char → Bool} {cs : List Char} {ts : List Lexeme}

theorem writes_entityId (id : EntityId letter) (hcs : EndsWord letter cs)
    (h : Writes letter cs ts) : Writes letter (id.print.toList ++ cs) (id.token :: ts) := by
  cases id with
  | ident name => exact writes_ident name hcs h
  | string s => exact writes_quoted s h

theorem writes_entityType (type : EntityType letter) (hcs : EndsWord letter cs)
    (h : Writes letter cs ts) : Writes letter (type.token.2.toList ++ cs) (type.token :: ts) := by
  cases type with
  | ident name => exact writes_ident name hcs h
  | principal => exact writes_keyword _ (by decide) hcs h
  | action => exact writes_keyword _ (by decide) hcs h
  | resource => exact writes_keyword _ (by decide) hcs h

theorem writes_scopeOperator (scope : Scope letter) (h : Writes letter cs ts) :
    Writes letter (scope.operator.text.toList ++ ' ' :: cs) (scope.operator.token :: ts) := by
  unfold Scope.operator
  cases scope.isIn with
  | true => exact writes_operator .in h
  | false => exact writes_operator .eq h

theorem writes_scope (scope : Scope letter) (keyword : TokenType) (hkey : IsKeyword keyword)
    (hcs : EndsWord letter cs) (h : Writes letter cs ts) :
    Writes letter ((scope.print keyword).toList ++ cs) (scope.tokens keyword ++ ts) := by
  have hfront {cs : List Char} {ts : List Lexeme} (h : Writes letter cs ts) :
      Writes letter (keyword.text.toList ++ ' ' :: (scope.operator.text.toList ++ ' ' :: cs))
        (keyword.token :: scope.operator.token :: ts) :=
    writes_keyword _ hkey (endsWord_of_special (by decide))
      (writes_blank (writes_scopeOperator scope h))
  cases hentity : scope.entity with
  | none =>
    have hany : Writes letter (TokenType.any.text.toList ++ cs) (TokenType.any.token :: ts) :=
      writes_keyword _ (by decide) hcs h
    simpa [Scope.print, Scope.tokens, hentity] using hfront hany
  | some entity =>
    have hcolon : Writes letter (':' :: (entity.2.print.toList ++ cs))
        (TokenType.colon.token :: entity.2.token :: ts) :=
      writes_delimiter ':' rfl rfl rfl rfl (writes_entityId entity.2 hcs h)
    have htype := writes_entityType entity.1 (endsWord_of_special (by decide)) hcolon
    simpa [Scope.print, Scope.tokens, hentity] using hfront htype

theorem writes_obligation (obligation : Obligation letter) (hcs : EndsWord letter cs)
    (h : Writes letter cs ts) :
    Writes letter (obligation.print.toList ++ cs) (obligation.tokens ++ ts) := by
  have hfront {cs : List Char} {ts : List Lexeme} (hcs : EndsWord letter cs)
      (h : Writes letter cs ts) :
      Writes letter (' ' :: (TokenType.obligation.text.toList ++
        ' ' :: (obligation.type.text.toList ++ cs)))
        (TokenType.obligation.token :: obligation.type.token :: ts) :=
    writes_blank (writes_keyword _ (by decide) (endsWord_of_special (by decide))
      (writes_blank (writes_ident obligation.type hcs h)))
  cases hmessage : obligation.message with
  | none => simpa [Obligation.print, Obligation.tokens, hmessage] using hfront hcs h
  | some message =>
    have hquoted := writes_blank (writes_quoted message h)
    simpa [Obligation.print, Obligation.tokens, hmessage] using
      hfront (endsWord_of_special (by decide)) hquoted

theorem writes_obligations (obligations : List (Obligation letter)) (hcs : EndsWord letter cs)
    (h : Writes letter cs ts) :
    EndsWord letter ((Statement.printObligations obligations).toList ++ cs) ∧
      Writes letter ((Statement.printObligations obligations).toList ++ cs)
        (obligations.flatMap Obligation.tokens ++ ts) := by
  induction obligations with
  | nil => exact ⟨hcs, h⟩
  | cons obligation _ ih =>
    have hfirst := writes_obligation obligation ih.1 ih.2
    refine ⟨?_, by simpa [Statement.printObligations] using hfirst⟩
    have hblank : EndsWord letter (' ' :: (TokenType.obligation.text.toList ++ cs)) :=
      endsWord_of_special (by decide)
    intro c hc
    refine hblank c ?_
    simpa [Statement.printObligations, Obligation.print] using hc

theorem writes_statement (s : Statement letter) (h : Writes letter cs ts) :
    Writes letter (s.print.toList ++ cs) (s.tokens ++ ts) := by
  have hsemicolon : Writes letter (';' :: cs) (TokenType.semicolon.token :: ts) :=
    writes_delimiter ';' rfl rfl rfl rfl h
  obtain ⟨-, hobligations⟩ := writes_obligations s.obligations
    (endsWord_of_special (by decide) : EndsWord letter (';' :: cs)) hsemicolon
  have hclose := writes_delimiter '\x7d' rfl rfl rfl rfl hobligations
  have hcondition := s.condition.writes_print Expr.stops_blank (writes_blank hclose)
  have hopen := writes_delimiter '\x7b' rfl rfl rfl rfl (writes_blank hcondition)
  have hclause := writes_keyword s.clause (by unfold Statement.clause; split_ifs <;> decide)
    (endsWord_of_special (by decide)) (writes_blank hopen)
  have hresource := writes_scope s.resource .resource (by decide)
    (endsWord_of_special (by decide)) (writes_delimiter ')' rfl rfl rfl rfl
      (writes_blank hclause))
  have haction := writes_scope s.action .action (by decide)
    (endsWord_of_special (by decide)) (writes_delimiter ',' rfl rfl rfl rfl
      (writes_blank hresource))
  have hprincipal := writes_scope s.principal .principal (by decide)
    (endsWord_of_special (by decide)) (writes_delimiter ',' rfl rfl rfl rfl
      (writes_blank haction))
  have heffect := writes_keyword s.effect.type (by cases s.effect <;> decide)
    (endsWord_of_special (by decide)) (writes_delimiter '(' rfl rfl rfl rfl hprincipal)
  simpa [Statement.print, Statement.tokens] using heffect

end PolicyEngine.Parser

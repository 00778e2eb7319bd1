import PolicyEngine.Parser.Coverage

set_option linter.dupNamespace false

namespace PolicyEngine.Parser

open PolicyEngine.Fuel

namespace Lexer

variable {cs : List Char} {l l' : Lexer} {w : List Char}

theorem Inside.position_lt (hl : Inside cs l) (h : l.ch ≠ nul) : l.position < cs.length := by
  by_contra hge
  rw [ch, hl, List.drop_eq_nil_of_le (Nat.le_of_not_lt hge)] at h
  exact h rfl

theorem Passes.bounds (h : Passes l w l') (hl : Inside cs l) (hpos : l.position ≤ cs.length) :
    l.position ≤ l'.position ∧ l'.position ≤ cs.length ∧
      l.textUntil l' = String.ofList ((cs.drop l.position).take (l'.position - l.position)) := by
  have hlength := congrArg List.length (hl.symm.trans h.rest)
  rw [List.length_drop, List.length_append] at hlength
  have hstop := h.position
  refine ⟨by omega, by omega, ?_⟩
  rw [h.textUntil, h.slice hl]

variable (letter : Char → Bool)

/-- The bounds of the slice of the input that is taken for the token at the current
character, if one is. -/
def slice (l : Lexer) : Option (ℕ × ℕ) :=
  match operators.lookup l.ch, delimiters.lookup l.ch with
  | none, none =>
    if l.ch = '"' then
      some (l.readChar.position, (l.readChar.readWhile fun ch ↦ ch != '"' && ch != nul).position)
    else if l.ch = nul then none
    else if isLetter letter l.ch then some (l.position, (l.readIdentifier letter).2.position)
    else if isDigit l.ch then some (l.position, l.readNumberOrIP.2.2.position)
    else none
  | _, _ => none

theorem readNumberOrIP_text (l : Lexer) : l.readNumberOrIP.1 = l.textUntil l.readNumberOrIP.2.2 := by
  unfold readNumberOrIP
  dsimp only
  split
  · split <;> rfl
  · rfl

theorem slice_bounds {start stop : ℕ} (hl : Inside cs l)
    (h : l.slice letter = some (start, stop)) :
    start ≤ stop ∧ stop ≤ cs.length ∧
      (l.scan letter).1.literal = String.ofList ((cs.drop start).take (stop - start)) := by
  unfold slice at h
  unfold scan
  cases hoperator : operators.lookup l.ch with
  | some => simp [hoperator] at h
  | none =>
    cases hdelimiter : delimiters.lookup l.ch with
    | some => simp [hoperator, hdelimiter] at h
    | none =>
      simp only [hoperator, hdelimiter] at h ⊢
      split_ifs at h ⊢ with hquote hnul hletter hdigit
      · cases h
        have hpos := hl.position_lt (hquote ▸ by decide)
        exact (Passes.readWhile rfl l.readChar).bounds hl.readChar hpos
      · cases h
        exact (Passes.readWhile (isWord_nul letter) l).bounds hl (hl.position_lt hnul).le
      · cases h
        obtain ⟨_, hw⟩ := exists_passes_readNumberOrIP l
        have hbounds := hw.bounds hl (hl.position_lt hnul).le
        rwa [← readNumberOrIP_text] at hbounds

def next (l : Lexer) : Lexer := (l.nextToken letter).2

theorem inside_next (hl : Inside cs l) : Inside cs (l.next letter) := by
  have hskip : Inside cs l.skipWhitespace := (Passes.readWhile rfl l).inside hl
  by_cases hch : l.skipWhitespace.ch = nul
  · rw [next, nextToken, (scan_of_nul letter hch).2]
    exact hskip.readChar
  · exact (taken_scan letter hch).2.inside hskip

theorem Inside.size_eq (hl : Inside cs l) : l.size = cs.length - l.position := by
  rw [size, hl, List.length_drop]

theorem Inside.position_lt_next (hl : Inside cs l) : l.position < (l.next letter).position := by
  have hskip : Passes l _ l.skipWhitespace := .readWhile rfl l
  have hle : l.position ≤ l.skipWhitespace.position := hskip.position ▸ Nat.le_add_right _ _
  obtain hzero | hpos := Nat.eq_zero_or_pos l.skipWhitespace.size
  · have hnext := (scan_of_nul letter (ch_of_size_eq_zero hzero)).2
    rw [next, nextToken, hnext]
    exact Nat.lt_succ_of_le hle
  · have hlt : (l.next letter).size < l.skipWhitespace.size := size_scan_lt letter hpos
    rw [(inside_next letter hl).size_eq, (hskip.inside hl).size_eq] at hlt
    omega

theorem Inside.iterate_next (hl : Inside cs l) (n : ℕ) : Inside cs ((next letter)^[n] l) := by
  induction n with
  | zero => exact hl
  | succ n ih =>
    rw [Function.iterate_succ_apply']
    exact inside_next letter ih

theorem Inside.injective_next (hl : Inside cs l) :
    Function.Injective fun n ↦ (next letter)^[n] l := by
  have hmono : StrictMono fun n ↦ ((next letter)^[n] l).position := by
    refine strictMono_nat_of_lt_succ fun n ↦ ?_
    rw [Function.iterate_succ_apply']
    exact (hl.iterate_next letter n).position_lt_next letter
  exact fun m n h ↦ hmono.injective (congrArg position h)

end Lexer

namespace Parser

def effort (p : Parser) : ℕ :=
  3 * p.l.size + 2 * p.peekToken.type.weight + p.curToken.type.weight

variable {letter : Char → Bool} {p : Parser}

theorem effort_advance_lt (h : p.Live) : (p.advance letter).effort < p.effort := by
  have hread := p.l.weight_add_size_nextToken_le letter
  have hlive : 1 ≤ p.curToken.type.weight + p.peekToken.type.weight := by
    obtain h | h := h <;> simp only [TokenType.weight, if_neg h] <;> omega
  simp only [effort, advance]
  omega

/-- The parser has called its lexer `n` times since `l`, within a budget. -/
def Reached (letter : Char → Bool) (l : Lexer) (budget : ℕ) (p : Parser) : Prop :=
  ∃ n, p.l = (Lexer.next letter)^[n] l ∧ n + p.effort ≤ budget

theorem stable_reached (l : Lexer) (budget : ℕ) : Stable letter (Reached letter l budget) where
  error _ _ h := h
  advance p h hlive := by
    obtain ⟨n, hn, hle⟩ := h
    have hlt : (p.advance letter).effort < p.effort := effort_advance_lt hlive
    refine ⟨n + 1, ?_, by omega⟩
    rw [Function.iterate_succ_apply', ← hn]
    rfl

theorem reached_newParser (letter : Char → Bool) (l : Lexer) :
    Reached letter l (3 * l.size + 2) (newParser letter l) := by
  have hleft := left_newParser_le letter l
  have hcalls : (newParser letter l).l = (Lexer.next letter)^[2] l := by
    simp only [newParser, Lexer.next, Function.iterate_succ_apply', Function.iterate_zero_apply]
  refine ⟨2, hcalls, ?_⟩
  generalize newParser letter l = p at hleft ⊢
  unfold left ahead at hleft
  unfold effort
  omega

end Parser

variable (letter : Char → Bool)

/-- `Parse` returns, having called `NextToken` a number of times linear in the length of
the text. Its lexer could be called on without end: no slice is ever out of range. -/
theorem parse_calls_linear_and_slices_in_range (text : String) :
    (∃ nodes p n, parseWithin letter text = some (nodes, p) ∧
      (∀ m, p.l = (Lexer.next letter)^[m] (newLexer text) ↔ m = n) ∧
      n ≤ 3 * text.toList.length + 3) ∧
    ∀ n start stop,
      ((Lexer.next letter)^[n] (newLexer text)).skipWhitespace.slice letter = some (start, stop) →
      start ≤ stop ∧ stop ≤ text.toList.length ∧
        (((Lexer.next letter)^[n] (newLexer text)).nextToken letter).1.literal =
          String.ofList ((text.toList.drop start).take (stop - start)) := by
  have hsize : (newLexer text).size = text.toList.length := rfl
  have hinside : Lexer.Inside text.toList (newLexer text) := rfl
  constructor
  · have hfuel := Nat.lt_succ_of_le (left_newParser_le letter (newLexer text))
    obtain ⟨nodes, p, hrun, hp⟩ := Parser.returns_parsePolicies (Parser.stable_reached _ _) hfuel
      (Parser.reached_newParser letter (newLexer text))
    have hcalls : ∃ n, p.l = (Lexer.next letter)^[n] (newLexer text) ∧
        n ≤ 3 * text.toList.length + 3 := by
      obtain ⟨n, hn, hle⟩ | ⟨q, ⟨n, hn, hle⟩, rfl⟩ := hp
      · exact ⟨n, hn, by omega⟩
      · refine ⟨n + 1, ?_, by omega⟩
        rw [Function.iterate_succ_apply', ← hn]
        rfl
    obtain ⟨n, hn, hle⟩ := hcalls
    refine ⟨nodes, p, n, hrun, fun m ↦ ?_, hle⟩
    rw [hn]
    exact (hinside.injective_next letter).eq_iff.trans eq_comm
  · intro n start stop h
    have hl := hinside.iterate_next letter n
    exact Lexer.slice_bounds letter ((Lexer.Passes.readWhile rfl _).inside hl) h

end PolicyEngine.Parser

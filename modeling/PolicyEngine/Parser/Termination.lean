import PolicyEngine.Fuel.Returns
import PolicyEngine.Parser.Parser

set_option linter.dupNamespace false

namespace PolicyEngine.Parser

open PolicyEngine.Fuel

namespace Lexer

def size (l : Lexer) : ℕ := l.rest.length

@[simp]
theorem size_readChar (l : Lexer) : l.readChar.size = l.size - 1 := List.length_tail

@[simp]
theorem size_countBrace (type : TokenType) (l : Lexer) : (l.countBrace type).size = l.size := by
  cases type with
  | rBrace =>
    unfold countBrace leaveBrace
    split_ifs <;> rfl
  | _ => rfl

theorem size_iterate_readChar (n : ℕ) (l : Lexer) : (readChar^[n] l).size = l.size - n := by
  induction n generalizing l with
  | zero => rfl
  | succ _ ih =>
    rw [Function.iterate_succ_apply, ih, size_readChar]
    omega

theorem size_readWhile_le (test : Char → Bool) (l : Lexer) : (l.readWhile test).size ≤ l.size := by
  unfold readWhile
  rw [size_iterate_readChar]
  omega

theorem size_readWhile_lt {test : Char → Bool} {l : Lexer} (hl : 0 < l.size)
    (h : test l.ch = true) : (l.readWhile test).size < l.size := by
  unfold readWhile
  rw [size_iterate_readChar]
  obtain ⟨rest, _, _, _, _, _⟩ := l
  cases rest with
  | nil => cases hl
  | cons c =>
    have hc : test c = true := h
    simp only [size, List.takeWhile_cons_of_pos hc, List.length_cons]
    omega

theorem size_readString_le (l : Lexer) : l.readString.2.size ≤ l.size - 1 := by
  have h := size_readWhile_le (fun ch ↦ ch != '"' && ch != nul) l.readChar
  unfold readString
  simp only [size_readChar] at h ⊢
  omega

theorem size_readGroups_le (n : ℕ) (l : Lexer) : (l.readGroups n).2.size ≤ l.size := by
  induction n generalizing l with
  | zero => exact le_rfl
  | succ _ ih =>
    unfold readGroups
    split_ifs
    · exact le_rfl
    · rw [size_readChar]
      exact Nat.sub_le _ _
    · have h := size_readWhile_le isDigit l.readChar
      rw [size_readChar] at h
      exact (ih _).trans (h.trans (Nat.sub_le _ _))

theorem size_readMask_le (l : Lexer) : l.readMask.2.size ≤ l.size := by
  have h := size_readWhile_le isDigit l.readChar
  rw [size_readChar] at h
  unfold readMask
  split_ifs
  · exact le_rfl
  · rw [size_readChar]
    exact Nat.sub_le _ _
  · exact h.trans (Nat.sub_le _ _)

theorem size_readNumberOrIP_lt {l : Lexer} (hl : 0 < l.size) (h : isDigit l.ch = true) :
    l.readNumberOrIP.2.2.size < l.size := by
  have hdigits := size_readWhile_lt hl h
  have hgroups := size_readGroups_le 3 (l.readWhile isDigit)
  have hmask := size_readMask_le ((l.readWhile isDigit).readGroups 3).2
  unfold readNumberOrIP
  dsimp only
  split
  · split
    · exact hgroups.trans_lt hdigits
    · exact (hmask.trans hgroups).trans_lt hdigits
  · exact hdigits

variable (letter : Char → Bool)

theorem size_scan_lt {l : Lexer} (hl : 0 < l.size) : (l.scan letter).2.size < l.size := by
  have hchar : l.size - 1 < l.size := by omega
  unfold scan
  dsimp only
  split
  · split_ifs
    · simp only [size_readChar]
      omega
    · rwa [size_readChar]
  · split
    · rwa [size_readChar, size_countBrace]
    · split_ifs with hquote hnul hletter hdigit
      · exact (size_readString_le l).trans_lt hchar
      · rwa [size_readChar]
      · exact size_readWhile_lt hl (by simp [hletter])
      · exact size_readNumberOrIP_lt hl hdigit
      · rwa [size_readChar]

theorem scan_of_nul {l : Lexer} (h : l.ch = nul) :
    (l.scan letter).1.type = .eof ∧ (l.scan letter).2 = l.readChar := by
  have hoperator : operators.lookup nul = none := by decide
  have hdelimiter : delimiters.lookup nul = none := by decide
  have hquote : nul ≠ '"' := by decide
  simp [scan, h, hoperator, hdelimiter, hquote]

theorem ch_of_size_eq_zero {l : Lexer} (hl : l.size = 0) : l.ch = nul := by
  unfold ch
  rw [List.eq_nil_of_length_eq_zero hl]
  rfl

end Lexer

def TokenType.weight (t : TokenType) : ℕ := if t = .eof then 0 else 1

namespace Lexer

variable (letter : Char → Bool)

theorem weight_add_size_nextToken_le (l : Lexer) :
    (l.nextToken letter).1.type.weight + (l.nextToken letter).2.size ≤ l.size := by
  have hskip := size_readWhile_le isBlank l
  unfold nextToken skipWhitespace
  obtain hl | hl := Nat.eq_zero_or_pos (l.readWhile isBlank).size
  · obtain ⟨htype, hnext⟩ := scan_of_nul letter (ch_of_size_eq_zero hl)
    rw [htype, hnext, size_readChar, hl]
    exact Nat.zero_le _
  · have hscan := size_scan_lt letter hl
    unfold TokenType.weight
    split_ifs <;> omega

end Lexer

namespace Parser

def ahead (p : Parser) : ℕ := p.l.size + p.peekToken.type.weight

def left (p : Parser) : ℕ := p.ahead + p.curToken.type.weight

theorem left_advance_le (letter : Char → Bool) (p : Parser) : (p.advance letter).left ≤ p.ahead := by
  have h := p.l.weight_add_size_nextToken_le letter
  simp only [left, ahead, advance]
  omega

theorem ahead_le_left (p : Parser) : p.ahead ≤ p.left := Nat.le_add_right _ _

theorem left_le (p : Parser) : p.left ≤ p.ahead + 1 := by
  unfold left TokenType.weight
  split_ifs <;> omega

theorem left_of_ne_eof {p : Parser} (h : p.curToken.type ≠ .eof) : p.left = p.ahead + 1 := by
  unfold left TokenType.weight
  rw [if_neg h]

/-- Some token other than the end has been read and not yet passed over. -/
def Live (p : Parser) : Prop := p.curToken.type ≠ .eof ∨ p.peekToken.type ≠ .eof

structure Stable (letter : Char → Bool) (I : Parser → Prop) : Prop where
  error (p : Parser) (errors : List String) : I p → I { p with errors := errors }
  advance (p : Parser) : I p → p.Live → I (p.advance letter)

variable (I : Parser → Prop)

def Within (k : ℕ) (p : Parser) : Prop := p.ahead ≤ k ∧ I p

def Consumes {α : Type} (f : ParserM α) (p : Parser) : Prop :=
  Returns f p fun _ q ↦ Within I p.ahead q

variable {I} {α β : Type} {k : ℕ} {p : Parser}

theorem Consumes.bind {f : ParserM α} {g : α → ParserM β} (hf : Consumes I f p)
    (hg : ∀ a q, Within I p.ahead q → Consumes I (g a) q) : Consumes I (f >>= g) p :=
  Returns.bind hf fun a q hq ↦ (hg a q hq).mono fun _ _ h ↦ ⟨h.1.trans hq.1, h.2⟩

theorem consumes_of_keeps {f : ParserM α} (hp : I p) (h : Keeps (Within I p.ahead) f) :
    Consumes I f p := h p ⟨le_rfl, hp⟩

theorem keeps_of_consumes {f : ParserM α} (h : ∀ p, Within I k p → Consumes I f p) :
    Keeps (Within I k) f := fun p hp ↦ (h p hp).mono fun _ _ hq ↦ ⟨hq.1.trans hp.1, hq.2⟩

variable {letter : Char → Bool} (hI : Stable letter I)

section Tokens

variable (k)

include hI

theorem keeps_addError (pos : Position) (msg : String) : Keeps (Within I k) (addError pos msg) :=
  .modify fun p h ↦ ⟨h.1, hI.error p _ h.2⟩

theorem keepsT_reject (pos : Position) (msg : String) :
    KeepsT (Within I k) (reject pos msg : OptionT ParserM α) :=
  (KeepsT.lift (keeps_addError k hI pos msg)).bind fun _ ↦ .failure

theorem keeps_parseNumber : Keeps (Within I k) parseNumber := by
  refine Keeps.get.bind fun p ↦ ?_
  cases Go.Strconv.parseInt p.curToken.literal with
  | some => exact .pure _
  | none => exact (keeps_addError k hI _ _).bind fun _ ↦ .pure _

theorem keeps_parseIP : Keeps (Within I k) parseIP := by
  refine Keeps.get.bind fun p ↦ ?_
  cases Go.Net.parseIP p.curToken.literal with
  | some => exact .pure _
  | none =>
    cases Go.Net.parseCIDR p.curToken.literal with
    | some => exact .pure _
    | none => exact (keeps_addError k hI _ _).bind fun _ ↦ .pure _

theorem keepsT_parseEffect : KeepsT (Within I k) parseEffect :=
  KeepsT.get.bind fun _ ↦ .ite (.pure _) (.ite (.pure _) (keepsT_reject k hI _ _))

variable {k}

theorem Within.advance (h : Within I k p) (hlive : p.Live) : Within I k (p.advance letter) :=
  ⟨(ahead_le_left _).trans ((left_advance_le letter p).trans h.1), hI.advance p h.2 hlive⟩

theorem returnsT_nextToken {g : Unit → OptionT ParserM α} {Q : Option α → Parser → Prop}
    (hp : Within I k p) (hlive : p.Live)
    (hg : ∀ q, Within I k q → q.curToken = p.peekToken → Returns (g ()).run q Q) :
    Returns (liftM (nextToken letter) >>= g).run p Q := hg _ (hp.advance hI hlive) rfl

theorem returnsT_expectPeek {t : TokenType} (ht : t ≠ .eof) {g : Unit → OptionT ParserM α}
    (hp : Within I k p)
    (hg : ∀ q, Within I k q → q.Live → Returns (g ()).run q fun _ r ↦ Within I k r) :
    Returns (expectPeek letter t >>= g).run p fun _ r ↦ Within I k r := by
  rw [expectPeek, bind_assoc]
  refine Returns.run_get_bind ?_
  split_ifs with hpeek
  · refine returnsT_nextToken hI hp (.inr (hpeek ▸ ht)) fun q hq hcur ↦ hg q hq (.inl ?_)
    rwa [hcur, hpeek]
  · exact ⟨none, _, rfl, hp.1, hI.error p _ hp.2⟩

theorem keepsT_parseVariable : KeepsT (Within I k) (parseVariable letter) := by
  intro p hp
  refine Returns.run_get_bind ?_
  cases varScopes.lookup p.curToken.literal with
  | none => exact keepsT_reject k hI _ _ p hp
  | some =>
    refine returnsT_expectPeek hI (by decide) hp fun q hq _ ↦ ?_
    refine returnsT_expectPeek hI (by decide) hq fun r hr _ ↦ ?_
    exact Returns.run_get_bind (.pure hr)

theorem keepsT_parseScope (t : TokenType) : KeepsT (Within I k) (parseScope letter t) := by
  intro p hp
  refine Returns.run_get_bind ?_
  split
  · exact keepsT_reject k hI _ _ p hp
  split
  · exact keepsT_reject k hI _ _ p hp
  case isFalse hoperator =>
    have hpeek : p.peekToken.type ≠ .eof := by
      intro heof
      rw [heof] at hoperator
      exact hoperator (by decide)
    refine returnsT_nextToken hI hp (.inr hpeek) fun q hq hcur ↦ ?_
    refine returnsT_nextToken hI hq (.inl (hcur ▸ hpeek)) fun r hr _ ↦ Returns.run_get_bind ?_
    split
    · exact Returns.pure hr
    split
    · refine returnsT_expectPeek hI (by decide) hr fun s hs hlive ↦ Returns.run_get_bind ?_
      split
      · exact keepsT_reject k hI _ _ s hs
      · exact returnsT_nextToken hI hs hlive fun t ht _ ↦ Returns.run_get_bind (.pure ht)
    · exact keepsT_reject k hI _ _ r hr

theorem keepsT_parseObligation : KeepsT (Within I k) (parseObligation letter) := by
  intro p hp
  refine returnsT_expectPeek hI (by decide) hp fun q hq hlive ↦ Returns.run_get_bind ?_
  split_ifs
  · exact returnsT_nextToken hI hq hlive fun r hr _ ↦ Returns.run_get_bind (.pure hr)
  · exact Returns.pure hq

end Tokens

section Expressions

variable {parseExpr : ℕ → ParserM Node}

/-- An expression parser with enough fuel for what is left in `n`. -/
def Suffices (I : Parser → Prop) (n : ℕ) (parseExpr : ℕ → ParserM Node) : Prop :=
  ∀ precedence p, p.left < n → I p → Consumes I (parseExpr precedence) p

variable {n : ℕ} (hE : Suffices I n parseExpr)

include hI hE

theorem consumes_operand (hn : p.ahead < n) (hp : I p) (hcur : p.curToken.type ≠ .eof)
    (precedence : ℕ) {f : Node → ParserM Node} (hf : ∀ a k, Keeps (Within I k) (f a)) :
    Consumes I (nextToken letter >>= fun _ ↦ parseExpr precedence >>= f) p := by
  have hnext : (p.advance letter).left ≤ p.ahead ∧ I (p.advance letter) :=
    ⟨left_advance_le letter p, hI.advance p hp (.inl hcur)⟩
  refine Returns.bind (Q := fun _ q ↦ q.left ≤ p.ahead ∧ I q) (.modify hnext) fun _ q hq ↦ ?_
  have hoperand : Consumes I (parseExpr precedence >>= f) q :=
    (hE precedence q (by omega) hq.2).bind fun a r hr ↦ consumes_of_keeps hr.2 (hf a r.ahead)
  exact hoperand.mono fun _ r hr ↦ ⟨hr.1.trans ((ahead_le_left q).trans hq.1), hr.2⟩

theorem consumes_parsePrefixExpression (hn : p.ahead < n) (hp : I p) :
    Consumes I (parsePrefixExpression letter parseExpr) p := by
  refine Returns.get_bind ?_
  split_ifs with hnot
  · exact consumes_operand hI hE hn hp (hnot ▸ by decide) unaryPrecedence fun _ _ ↦ .pure _
  · exact consumes_of_keeps hp ((keeps_addError _ hI _ _).bind fun _ ↦ .pure _)

theorem consumes_parseGroupedExpression (hn : p.ahead < n) (hp : I p)
    (hcur : p.curToken.type ≠ .eof) : Consumes I (parseGroupedExpression letter parseExpr) p := by
  refine consumes_operand hI hE hn hp hcur lowest fun _ k ↦ Keeps.bind ?_ fun _ ↦ .pure _
  exact fun q hq ↦ returnsT_expectPeek hI (by decide) hq fun _ hr _ ↦ Returns.pure hr

theorem consumes_parseInfixExpression (hn : p.ahead < n) (hp : I p) (hcur : p.curToken.type ≠ .eof)
    (leftExp : Node) : Consumes I (parseInfixExpression letter parseExpr leftExp) p := by
  refine Returns.get_bind ?_
  split
  · exact consumes_of_keeps hp ((keeps_addError _ hI _ _).bind fun _ ↦ .pure _)
  · exact consumes_operand hI hE hn hp hcur _ fun _ _ ↦ .pure _

theorem consumes_of_prefixParseFns (hn : p.ahead < n) (hp : I p) (hcur : p.curToken.type ≠ .eof)
    {type : TokenType} {operand : ParserM Node}
    (h : prefixParseFns letter parseExpr type = some operand) : Consumes I operand p := by
  unfold prefixParseFns at h
  split at h <;> cases h
  · exact consumes_of_keeps hp (keeps_parseNumber _ hI)
  · exact consumes_of_keeps hp (Keeps.get.bind fun _ ↦ .pure _)
  · exact consumes_of_keeps hp (keeps_parseIP _ hI)
  · exact consumes_of_keeps hp (Keeps.get.bind fun _ ↦ .pure _)
  · exact consumes_of_keeps hp (Keeps.get.bind fun _ ↦ .pure _)
  · exact consumes_parsePrefixExpression hI hE hn hp
  · exact consumes_parseGroupedExpression hI hE hn hp hcur
  all_goals exact consumes_of_keeps hp (Keeps.bind (keepsT_parseVariable hI) fun _ ↦ .pure _)

theorem consumes_parseOperators (precedence fuel : ℕ) (leftExp : Node) (hn : p.ahead ≤ n)
    (hfuel : p.ahead < fuel) (hp : I p) :
    Consumes I (parseOperators letter parseExpr precedence fuel leftExp) p := by
  induction fuel generalizing p leftExp with
  | zero => omega
  | succ _ ih =>
    refine Returns.get_bind ?_
    split_ifs with hpeek hop
    · exact Returns.pure ⟨le_rfl, hp⟩
    · have hleft := left_advance_le letter p
      have hcur : (p.advance letter).curToken.type ≠ .eof := hpeek.2.1
      rw [left_of_ne_eof hcur] at hleft
      have hinfix := consumes_parseInfixExpression hI hE (hleft.trans hn)
        (hI.advance p hp (.inr hcur)) hcur leftExp
      -- The operator has been read, so the operand and the loop after it stay below `p`.
      have hloop := hinfix.bind fun a r hr ↦
        ih a (p := r) (by have := hr.1; omega) (by have := hr.1; omega) hr.2
      exact hloop.mono fun _ r hr ↦ ⟨hr.1.trans (Nat.le_of_lt hleft), hr.2⟩
    · exact Returns.pure ⟨le_rfl, hp⟩

end Expressions

include hI

theorem suffices_parseExpression (fuel : ℕ) : Suffices I fuel (parseExpression letter fuel) := by
  induction fuel with
  | zero => exact fun _ _ h ↦ absurd h (Nat.not_lt_zero _)
  | succ fuel ih =>
    intro precedence p _ hp
    refine Returns.get_bind ?_
    cases hoperand : prefixParseFns letter (parseExpression letter fuel) p.curToken.type with
    | none => exact consumes_of_keeps hp ((keeps_addError _ hI _ _).bind fun _ ↦ .pure _)
    | some =>
      have hne : p.curToken.type ≠ .eof := by
        intro h
        rw [h] at hoperand
        cases hoperand
      have hleft := left_of_ne_eof hne
      have hfirst := consumes_of_prefixParseFns hI ih (by omega) hp hne hoperand
      refine hfirst.bind fun a q hq ↦ ?_
      have hahead := hq.1
      exact consumes_parseOperators hI ih precedence fuel a (by omega) (by omega) hq.2

variable {fuel : ℕ}

theorem keeps_parseExpression (h : k + 1 < fuel) (precedence : ℕ) :
    Keeps (Within I k) (parseExpression letter fuel precedence) :=
  keeps_of_consumes fun p hp ↦ suffices_parseExpression hI fuel precedence p
    ((left_le p).trans_lt (Nat.lt_of_le_of_lt (Nat.succ_le_succ hp.1) h)) hp.2

theorem keepsT_parseCondition (h : k + 1 < fuel) :
    KeepsT (Within I k) (parseCondition letter fuel) := by
  intro p hp
  refine Returns.run_get_bind ?_
  split_ifs with hword
  · have hpeek : p.peekToken.type ≠ .eof := by
      obtain hword | hword := hword <;> rw [hword] <;> decide
    refine returnsT_nextToken hI hp (.inr hpeek) fun q hq _ ↦ ?_
    refine returnsT_expectPeek hI (by decide) hq fun r hr hlive ↦ ?_
    refine returnsT_nextToken hI hr hlive fun s hs _ ↦ ?_
    refine Returns.run_lift_bind (keeps_parseExpression hI h lowest s hs) fun condition t ht ↦ ?_
    split_ifs
    · exact Returns.pure ht
    · exact returnsT_expectPeek hI (by decide) ht fun _ hu _ ↦ Returns.pure hu
  · exact Returns.pure hp

theorem keepsT_parseObligations (h : k < fuel) :
    KeepsT (Within I k) (parseObligations letter fuel) := by
  induction fuel generalizing k with
  | zero => omega
  | succ _ ih =>
    intro p hp
    refine Returns.run_get_bind ?_
    split_ifs with hpeek
    · have hcur : (p.advance letter).curToken.type ≠ .eof := ne_of_eq_of_ne hpeek (by decide)
      have hleft := (left_advance_le letter p).trans hp.1
      rw [left_of_ne_eof hcur] at hleft
      have hrest := (keepsT_parseObligation hI).bind fun obligation ↦
        (ih (k := (p.advance letter).ahead) (by omega)).bind fun obligations ↦
          .pure (obligation :: obligations)
      exact (hrest _ ⟨le_rfl, hI.advance p hp.2 (.inr hcur)⟩).mono fun _ r hr ↦
        ⟨hr.1.trans (Nat.le_of_lt hleft), hr.2⟩
    · exact Returns.pure hp

theorem keepsT_parsePolicy (h : k + 1 < fuel) : KeepsT (Within I k) (parsePolicy letter fuel) := by
  refine (keepsT_parseEffect k hI).bind fun effect p hp ↦ ?_
  refine returnsT_expectPeek hI (by decide) hp fun p hp hlive ↦ ?_
  refine returnsT_nextToken hI hp hlive fun p hp _ ↦ ?_
  refine (keepsT_parseScope hI .principal).run_bind hp fun principal p hp ↦ ?_
  refine returnsT_expectPeek hI (by decide) hp fun p hp hlive ↦ ?_
  refine returnsT_nextToken hI hp hlive fun p hp _ ↦ ?_
  refine (keepsT_parseScope hI .action).run_bind hp fun action p hp ↦ ?_
  refine returnsT_expectPeek hI (by decide) hp fun p hp hlive ↦ ?_
  refine returnsT_nextToken hI hp hlive fun p hp _ ↦ ?_
  refine (keepsT_parseScope hI .resource).run_bind hp fun resource p hp ↦ ?_
  refine returnsT_expectPeek hI (by decide) hp fun p hp _ ↦ ?_
  refine (keepsT_parseCondition hI h).run_bind hp fun condition p hp ↦ ?_
  refine (keepsT_parseObligations hI (Nat.lt_of_succ_lt h)).run_bind hp fun obligations p hp ↦ ?_
  exact returnsT_expectPeek hI (by decide) hp fun p hp _ ↦ Returns.pure hp

theorem returns_parsePolicies (h : p.left < fuel) (hp : I p) :
    Returns (parsePolicies letter fuel) p fun _ r ↦ I r ∨ ∃ q, I q ∧ r = q.advance letter := by
  induction fuel generalizing p with
  | zero => omega
  | succ fuel ih =>
    refine Returns.get_bind ?_
    split_ifs with heof
    · exact Returns.pure (.inl hp)
    · have hleft := left_of_ne_eof heof
      refine Returns.bind (keepsT_parsePolicy hI (by omega) p ⟨le_rfl, hp⟩) fun policy q hq ↦ ?_
      have hnext : (q.advance letter).left ≤ p.ahead := (left_advance_le letter q).trans hq.1
      have hrest : Returns (parsePolicies letter fuel) (q.advance letter) fun _ r ↦
          I r ∨ ∃ q, I q ∧ r = q.advance letter := by
        by_cases hlive : q.Live
        · exact ih (by omega) (hI.advance q hq.2 hlive)
        · have hcur : (q.advance letter).curToken.type = .eof := not_not.mp (not_or.mp hlive).2
          cases fuel with
          | zero => omega
          | succ =>
            refine Returns.get_bind ?_
            rw [if_pos hcur]
            exact Returns.pure (.inr ⟨q, hq.2, rfl⟩)
      exact hrest.bind (g := fun policies ↦ pure (policy.toList ++ policies)) fun _ _ hr ↦ .pure hr

end Parser

theorem left_newParser_le (letter : Char → Bool) (l : Lexer) :
    (newParser letter l).left ≤ l.size := by
  have hcur := l.weight_add_size_nextToken_le letter
  have hpeek := (l.nextToken letter).2.weight_add_size_nextToken_le letter
  simp only [newParser, Parser.left, Parser.ahead]
  omega

end PolicyEngine.Parser

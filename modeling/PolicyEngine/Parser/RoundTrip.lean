import PolicyEngine.Parser.Lexemes
import PolicyEngine.Parser.PolicySet

set_option linter.dupNamespace false

namespace PolicyEngine.Parser

open PolicyEngine.Fuel PolicyEngine.Go

theorem BinaryOp.lookup_type (op : BinaryOp) : binaryOps.lookup op.type = some op := by
  cases op <;> rfl

theorem BinaryOp.type_ne (op : BinaryOp) : op.type ≠ .rBrace ∧ op.type ≠ .eof := by
  cases op <;> decide

theorem BinaryOp.precedence_bounds (op : BinaryOp) :
    lowest < op.precedence ∧ op.precedence < unaryPrecedence := by
  cases op <;> decide

theorem Expr.lowest_lt {letter : Char → Bool} (e : Expr letter) : lowest < e.precedence := by
  cases e with
  | binary op => exact op.precedence_bounds.1
  | _ => exact (by decide : lowest < unaryPrecedence)

theorem Expr.precedence_le {letter : Char → Bool} (e : Expr letter) :
    e.precedence ≤ unaryPrecedence := by
  cases e with
  | binary op => exact op.precedence_bounds.2.le
  | _ => exact le_rfl

theorem Effect.type_ne_eof (effect : Effect) : effect.type ≠ .eof := by
  cases effect <;> decide

theorem Expr.node_ne_nil {letter : Char → Bool} (e : Expr letter) : e.node ≠ .nil := by
  cases e <;> exact Node.noConfusion

theorem EntityType.token_mem {letter : Char → Bool} (type : EntityType letter) :
    type.token.1 ∈ [TokenType.ident, .principal, .action, .resource] := by
  cases type <;> simp [EntityType.token, TokenType.token, Ident.token]

theorem EntityType.token_ne_any {letter : Char → Bool} (type : EntityType letter) :
    type.token.1 ≠ .any := by
  cases type <;> simp [EntityType.token, TokenType.token, Ident.token]

theorem EntityId.token_type {letter : Char → Bool} (id : EntityId letter) :
    ¬ (id.token.1 ≠ .string ∧ id.token.1 ≠ .ident) := by
  cases id <;> simp [EntityId.token, Ident.token, Quoted.token]

namespace Parser

variable {letter : Char → Bool} {p : Parser} {m : ℕ} {Q : Node → Parser → Prop}

theorem ensures_outOfFuel : Ensures (outOfFuel : ParserM Node) p Q := fun _ _ h ↦ nomatch h

theorem ensures_nextToken_bind {β : Type} {R : β → Parser → Prop} {g : Unit → ParserM β}
    (h : Ensures (g ()) (p.advance letter) R) : Ensures (nextToken letter >>= g) p R :=
  Ensures.modify_bind h

theorem ensures_orNil {f : OptionT ParserM Node} (h : Ensures f.run p fun o q ↦ Q (o.getD .nil) q) :
    Ensures (orNil f) p Q := h.bind fun _ _ ho ↦ .pure ho

section Loop

variable {parseExpr : ℕ → ParserM Node} {node : Node}

theorem ensures_parseOperators_exit (k : ℕ) (h : precedenceOf p.peekToken.type ≤ m)
    (hQ : Q node p) : Ensures (parseOperators letter parseExpr m k node) p Q := by
  cases k with
  | zero => exact ensures_outOfFuel
  | succ =>
    refine Ensures.get_bind ?_
    rw [if_neg fun hc ↦ by omega]
    exact .pure hQ

theorem ensures_parseOperators_step (k : ℕ) {op : BinaryOp} {R : Node → Parser → Prop}
    (hpeek : p.peekToken.type = op.type) (hm : m < op.precedence)
    (hright : Ensures (parseExpr op.precedence) ((p.advance letter).advance letter) R)
    (hloop : ∀ k right q pos, R right q →
      Ensures (parseOperators letter parseExpr m k (.binaryExprNode op node right pos)) q Q) :
    Ensures (parseOperators letter parseExpr m k node) p Q := by
  cases k with
  | zero => exact ensures_outOfFuel
  | succ k =>
    have hcur : (p.advance letter).curToken.type = op.type := hpeek
    refine Ensures.get_bind ?_
    rw [hpeek, if_pos ⟨op.type_ne.1, op.type_ne.2, hm⟩, op.lookup_type]
    refine ensures_nextToken_bind ?_
    refine Ensures.bind (Q := fun a q ↦ ∃ right pos, a = .binaryExprNode op node right pos ∧
      R right q) ?_ fun a q ha ↦ ?_
    · refine Ensures.get_bind ?_
      rw [hcur, op.lookup_type]
      refine ensures_nextToken_bind ?_
      exact Ensures.bind hright fun right q hq ↦ .pure ⟨right, _, rfl, hq⟩
    · obtain ⟨right, pos, rfl, hR⟩ := ha
      exact hloop k right q pos hR

end Loop

theorem ensures_parseExpression {fuel : ℕ} (operand : ParserM Node) {O : Node → Parser → Prop}
    (hfn : prefixParseFns letter (parseExpression letter fuel) p.curToken.type = some operand)
    (hoperand : Ensures operand p O)
    (hloop : ∀ node q, O node q →
      Ensures (parseOperators letter (parseExpression letter fuel) m fuel node) q Q) :
    Ensures (parseExpression letter (fuel + 1) m) p Q := by
  refine Ensures.get_bind ?_
  rw [hfn]
  exact hoperand.bind hloop

/-- With the tokens `ts` of `e` ahead, the parser comes to its loop with `e`. -/
def Continues (m : ℕ) (e : Expr letter) (ts : List Lexeme) (t : Lexeme) : Prop :=
  ∀ fuel p rest Q, Peeks letter p (ts ++ t :: rest) →
    (∀ k node, node.unplaced = e.node →
      Ensures (parseOperators letter (parseExpression letter fuel) m k node)
        ((advance letter)^[ts.length] p) Q) →
    Ensures (parseExpression letter (fuel + 1) m) (p.advance letter) Q

theorem Continues.ensures {e : Expr letter} {ts : List Lexeme} {t : Lexeme}
    (h : Continues m e ts t) (ht : precedenceOf t.1 ≤ m) (fuel : ℕ) {rest : List Lexeme}
    (hp : Peeks letter p (ts ++ t :: rest)) :
    Ensures (parseExpression letter fuel m) (p.advance letter)
      fun node q ↦ node.unplaced = e.node ∧ q = (advance letter)^[ts.length] p := by
  cases fuel with
  | zero => exact ensures_outOfFuel
  | succ fuel =>
    refine h fuel p rest _ hp fun k node hnode ↦ ?_
    refine ensures_parseOperators_exit k ?_ ⟨hnode, rfl⟩
    rwa [(peeks_append.mp hp).2.type]

theorem continues_bracket {e : Expr letter} {t : Lexeme} (needed : Prop) [Decidable needed]
    (hinner : Continues lowest e e.tokens TokenType.rParen.token)
    (hplain : ¬ needed → Continues m e e.tokens t) :
    Continues m e (Expr.bracketTokens needed e.tokens) t := by
  unfold Expr.bracketTokens
  split_ifs with hneeded
  · intro fuel p rest _ hp hloop
    have hp' : Peeks letter p (TokenType.lParen.token :: (e.tokens ++ TokenType.rParen.token ::
        t :: rest)) := by simpa using hp
    have hcur : (p.advance letter).curToken.type = .lParen := hp'.type
    have hclose := (peeks_append.mp hp'.tail).2
    refine ensures_parseExpression _ (by rw [hcur]; rfl)
      (O := fun node q ↦ node.unplaced = e.node ∧
        q = ((advance letter)^[e.tokens.length] (p.advance letter)).advance letter)
      (ensures_nextToken_bind ?_) fun node q hq ↦ ?_
    · refine (hinner.ensures (by decide) fuel hp'.tail).bind fun node q hq ↦ ?_
      refine ensures_orNil (ensures_expectPeek_bind (fun _ ↦ ?_) fun hno ↦ ?_)
      · refine Ensures.run_pure ?_
        rw [hq.2]
        exact ⟨hq.1, rfl⟩
      · rw [hq.2] at hno
        exact absurd hclose.type hno
    · obtain ⟨hnode, rfl⟩ := hq
      have hlength : (TokenType.lParen.token :: e.tokens ++ [TokenType.rParen.token]).length =
          e.tokens.length + 1 + 1 := by simp
      have h := hloop fuel node hnode
      rw [hlength, Function.iterate_succ_apply', Function.iterate_succ_apply] at h
      exact h
  · exact hplain hneeded

theorem continues_token {e : Expr letter} {s t : Lexeme} (operand : ParserM Node)
    (hfn : ∀ parseExpr, prefixParseFns letter parseExpr s.1 = some operand)
    (hoperand : ∀ p : Parser, p.curToken.lexeme = s →
      Ensures operand p fun node q ↦ node.unplaced = e.node ∧ q = p) :
    Continues m e [s] t := by
  intro fuel p _ _ hp hloop
  have hcur : (p.advance letter).curToken.lexeme = s := (peeks_cons.mp hp).1
  refine ensures_parseExpression operand ?_ (hoperand _ hcur) fun node q hq ↦ ?_
  · rw [← hfn, ← hcur]
    rfl
  · obtain ⟨hnode, rfl⟩ := hq
    exact hloop fuel node hnode

theorem continues_var (scope : VarScope) (field : Ident letter) (t : Lexeme) :
    Continues m (.var scope field) [scope.token, TokenType.dot.token, field.token] t := by
  intro fuel p _ _ hp hloop
  rw [List.cons_append, List.cons_append, List.cons_append, List.nil_append] at hp
  have hdot := hp.tail
  have hfield := hdot.tail
  refine ensures_parseExpression (orNil (parseVariable letter))
    (O := fun node q ↦ node.unplaced = (Expr.var scope field).node ∧
      q = ((p.advance letter).advance letter).advance letter) ?_ ?_ fun node q hq ↦ ?_
  · rw [type_of_lexeme hp.current]
    cases scope <;> rfl
  · refine ensures_orNil (Ensures.run_get_bind ?_)
    have hlookup : varScopes.lookup scope.token.2 = some scope := by cases scope <;> decide
    rw [literal_of_lexeme hp.current, hlookup]
    refine ensures_expectPeek_bind (fun _ ↦ ?_) fun hno ↦ absurd hdot.type hno
    refine ensures_expectPeek_bind (fun _ ↦ ?_) fun hno ↦ absurd hfield.type hno
    refine Ensures.run_get_bind (Ensures.run_pure ⟨?_, rfl⟩)
    rw [literal_of_lexeme hfield.current]
    rfl
  · rw [hq.2]
    exact hloop fuel node hq.1

theorem continues_not {e : Expr letter} {t : Lexeme} {ts : List Lexeme}
    (hchild : Continues unaryPrecedence e ts t) (ht : precedenceOf t.1 ≤ unaryPrecedence) :
    Continues m (.not e) (TokenType.not.token :: ts) t := by
  intro fuel p _ _ hp hloop
  have hcur : (p.advance letter).curToken.type = .not := hp.type
  refine ensures_parseExpression _ (by rw [hcur]; rfl)
    (O := fun node q ↦ node.unplaced = (Expr.not e).node ∧
      q = (advance letter)^[ts.length] (p.advance letter))
    (Ensures.get_bind ?_) fun node q hq ↦ ?_
  · rw [if_pos hcur]
    refine ensures_nextToken_bind ?_
    refine (hchild.ensures ht fuel hp.tail).bind fun node q hq ↦ .pure ⟨?_, hq.2⟩
    exact congrArg (Node.unaryExprNode .not ·) hq.1
  · obtain ⟨hnode, rfl⟩ := hq
    exact hloop fuel node hnode

theorem continues_binary {op : BinaryOp} {left right : Expr letter} {t : Lexeme}
    {ls rs : List Lexeme} (hleft : Continues m left ls op.type.token)
    (hright : Continues op.precedence right rs t) (hm : m < op.precedence)
    (ht : precedenceOf t.1 ≤ op.precedence) :
    Continues m (.binary op left right) (ls ++ op.type.token :: rs) t := by
  intro fuel p rest Q hp hloop
  have hp' : Peeks letter p (ls ++ op.type.token :: (rs ++ t :: rest)) := by simpa using hp
  have hop := (peeks_append.mp hp').2
  have hlength : (ls ++ op.type.token :: rs).length = rs.length + 1 + ls.length := by
    simp only [List.length_append, List.length_cons]
    omega
  refine hleft fuel p _ Q hp' fun k node hnode ↦ ?_
  refine ensures_parseOperators_step k hop.type hm (hright.ensures ht fuel hop.tail) ?_
  rintro k right' _ pos ⟨hright', rfl⟩
  have h := hloop k (.binaryExprNode op node right' pos) (by
    rw [Node.unplaced, hnode, hright']
    rfl)
  rw [hlength, Function.iterate_add_apply, Function.iterate_succ_apply] at h
  exact h

theorem continues_tokens (e : Expr letter) (m : ℕ) (t : Lexeme)
    (hm : m < e.precedence ∨ e.precedence = unaryPrecedence)
    (ht : precedenceOf t.1 ≤ e.precedence) : Continues m e e.tokens t := by
  induction e generalizing m t with
  | var scope field =>
    rw [Expr.tokens]
    exact continues_var scope field t
  | int n =>
    refine continues_token parseNumber (fun _ ↦ rfl) fun p hp ↦ Ensures.get_bind ?_
    rw [show p.curToken.literal = Strconv.formatInt n from congrArg Prod.snd hp,
      Strconv.parseInt_formatInt]
    exact .pure ⟨rfl, rfl⟩
  | bool b =>
    refine continues_token parseBoolean (fun _ ↦ by cases b <;> rfl)
      fun p hp ↦ Ensures.get_bind (.pure ⟨?_, rfl⟩)
    rw [show p.curToken.type = boolType b from congrArg Prod.fst hp]
    cases b <;> rfl
  | string s =>
    refine continues_token parseString (fun _ ↦ rfl)
      fun p hp ↦ Ensures.get_bind (.pure ⟨?_, rfl⟩)
    rw [show p.curToken.literal = s.text from congrArg Prod.snd hp]
    rfl
  | not e ih =>
    refine continues_not (continues_bracket _ ?_ fun hplain ↦ ?_) ht
    · exact ih lowest _ (.inl e.lowest_lt) e.lowest_lt.le
    · have he : e.precedence = unaryPrecedence := le_antisymm e.precedence_le (not_lt.mp hplain)
      exact ih _ t (.inr he) (he ▸ ht)
  | binary op left right ihl ihr =>
    have hm : m < op.precedence := hm.resolve_right op.precedence_bounds.2.ne
    have ht : precedenceOf t.1 ≤ op.precedence := ht
    refine continues_binary (continues_bracket _ ?_ fun hplain ↦ ?_)
      (continues_bracket _ ?_ fun hplain ↦ ?_) hm ht
    · exact ihl lowest _ (.inl left.lowest_lt) left.lowest_lt.le
    · exact ihl m _ (.inl (hm.trans_le (not_lt.mp hplain))) (not_lt.mp hplain)
    · exact ihr lowest _ (.inl right.lowest_lt) right.lowest_lt.le
    · exact ihr _ t (.inl (not_le.mp hplain)) (ht.trans (not_le.mp hplain).le)

variable {rest : List Lexeme}

theorem ensures_parseScope (scope : Scope letter) (keyword : TokenType)
    (hp : Peeks letter p (scope.tokens keyword ++ rest)) :
    Ensures (parseScope letter keyword).run (p.advance letter) fun o q ↦
      o = some scope.node ∧ q = (advance letter)^[(scope.tokens keyword).length] p := by
  obtain ⟨isIn, entity⟩ := scope
  have hkeyword : (p.advance letter).curToken.type = keyword := type_of_lexeme hp.current
  have hoperator := hp.tail
  have hvalue := hoperator.tail
  have hop : (p.advance letter).peekToken.type = if isIn then .in else .eq := hoperator.type
  refine Ensures.run_get_bind ?_
  rw [if_neg (not_not.mpr hkeyword), if_neg (by rw [hop]; cases isIn <;> decide)]
  refine Ensures.run_modify_bind (Ensures.run_modify_bind (Ensures.run_get_bind ?_))
  cases entity with
  | none =>
    have hany : Peeks letter _ (TokenType.any.token :: rest) := hvalue
    exact Ensures.run_ite (fun _ ↦ Ensures.run_pure ⟨rfl, rfl⟩)
      fun hno ↦ absurd (type_of_lexeme hany.current) hno
  | some entity =>
    obtain ⟨type, id⟩ := entity
    have htype : Peeks letter _ (type.token :: TokenType.colon.token :: id.token :: rest) := hvalue
    have hcolon := htype.tail
    have hid := hcolon.tail
    rw [type_of_lexeme htype.current, if_neg type.token_ne_any, if_pos type.token_mem]
    refine ensures_expectPeek_bind (fun _ ↦ ?_) fun hno ↦ absurd hcolon.type hno
    refine Ensures.run_get_bind ?_
    rw [hid.type, if_neg id.token_type]
    refine Ensures.run_modify_bind (Ensures.run_get_bind (Ensures.run_pure ⟨?_, rfl⟩))
    rw [literal_of_lexeme htype.current, literal_of_lexeme hid.current, hop]
    cases isIn <;> rfl

theorem peek_ne_string (obligations : List (Obligation letter))
    (hp : Peeks letter p
      (obligations.flatMap Obligation.tokens ++ TokenType.semicolon.token :: rest)) :
    p.peekToken.type ≠ .string := by
  cases obligations with
  | nil =>
    rw [show p.peekToken.type = .semicolon from Peeks.type hp]
    decide
  | cons =>
    rw [show p.peekToken.type = .obligation from Peeks.type hp]
    decide

theorem ensures_parseObligation (obligation : Obligation letter)
    (hp : Peeks letter p (obligation.tokens ++ rest))
    (hnext : ((advance letter)^[obligation.tokens.length] p).peekToken.type ≠ .string) :
    Ensures (parseObligation letter).run (p.advance letter) fun o q ↦
      o = some obligation.node ∧ q = (advance letter)^[obligation.tokens.length] p := by
  obtain ⟨_, message⟩ := obligation
  have htype := hp.tail
  refine ensures_expectPeek_bind (fun _ ↦ ?_) fun hno ↦ absurd htype.type hno
  refine Ensures.run_get_bind ?_
  rw [literal_of_lexeme htype.current]
  cases message with
  | none =>
    exact Ensures.run_ite (fun hyes ↦ absurd hyes hnext) fun _ ↦ Ensures.run_pure ⟨rfl, rfl⟩
  | some message =>
    have hmessage : Peeks letter _ (message.token :: rest) := htype.tail
    refine Ensures.run_ite (fun _ ↦ ?_) fun hno ↦ absurd hmessage.type hno
    refine Ensures.run_modify_bind (Ensures.run_get_bind (Ensures.run_pure ⟨?_, rfl⟩))
    rw [literal_of_lexeme hmessage.current]
    rfl

theorem ensures_parseObligations (obligations : List (Obligation letter)) (fuel : ℕ)
    (hp : Peeks letter p
      (obligations.flatMap Obligation.tokens ++ TokenType.semicolon.token :: rest)) :
    Ensures (parseObligations letter fuel).run p fun o q ↦
      o = some (obligations.map Obligation.node) ∧
        q = (advance letter)^[(obligations.flatMap Obligation.tokens).length] p := by
  induction obligations generalizing fuel p with
  | nil =>
    cases fuel with
    | zero => exact fun _ _ h ↦ nomatch h
    | succ =>
      have hend : p.peekToken.type = .semicolon := Peeks.type hp
      refine Ensures.run_get_bind ?_
      rw [hend, if_neg (by decide)]
      exact Ensures.run_pure ⟨rfl, rfl⟩
  | cons obligation obligations ih =>
    cases fuel with
    | zero => exact fun _ _ h ↦ nomatch h
    | succ fuel =>
      rw [List.flatMap_cons, List.append_assoc] at hp
      have hrest := (peeks_append.mp hp).2
      have hfirst : p.peekToken.type = .obligation := Peeks.type hp
      refine Ensures.run_get_bind (Ensures.run_ite (fun _ ↦ ?_) fun hno ↦ absurd hfirst hno)
      refine Ensures.run_modify_bind (Ensures.run_bind_some ?_ (Ensures.run_bind_some
        (ih fuel hrest) (Ensures.run_pure ⟨rfl, ?_⟩)))
      · exact ensures_parseObligation obligation hp (peek_ne_string obligations hrest)
      · rw [List.flatMap_cons, List.length_append, Nat.add_comm, Function.iterate_add_apply]

theorem ensures_parseCondition (e : Expr letter) (isUnless : Bool) (fuel : ℕ)
    (hp : Peeks letter p ((if isUnless then TokenType.unless else .when).token ::
      TokenType.lBrace.token :: (e.tokens ++ TokenType.rBrace.token :: rest))) :
    Ensures (parseCondition letter fuel).run p fun o q ↦
      (∃ node, o = some (node, isUnless) ∧ node.unplaced = e.node) ∧ Peeks letter q rest ∧
        q.errors = p.errors := by
  have hbrace := hp.tail
  have hbody := hbrace.tail
  have hclose := (peeks_append.mp hbody).2
  have hclause : p.peekToken.type = if isUnless then .unless else .when := hp.type
  refine Ensures.run_get_bind (Ensures.run_ite (fun _ ↦ ?_) fun hno ↦ ?_)
  · refine Ensures.run_modify_bind ?_
    refine ensures_expectPeek_bind (fun _ ↦ ?_) fun hno ↦ absurd hbrace.type hno
    refine Ensures.run_modify_bind ?_
    refine Ensures.run_lift_bind ((continues_tokens e lowest TokenType.rBrace.token
      (.inl e.lowest_lt) e.lowest_lt.le).ensures le_rfl fuel hbody) ?_
    rintro node _ ⟨hnode, rfl⟩
    have hne : node ≠ .nil := by
      rintro rfl
      exact e.node_ne_nil hnode.symm
    refine Ensures.run_ite (fun hnil ↦ absurd hnil hne) fun _ ↦ ?_
    refine ensures_expectPeek_bind (fun _ ↦ ?_) fun hno ↦ absurd hclose.type hno
    refine Ensures.run_pure ⟨⟨node, ?_, hnode⟩, hclose.tail, ?_⟩
    · rw [hclause]
      cases isUnless <;> rfl
    · rw [errors_advance, errors_iterate_advance, errors_advance, errors_advance]
  · rw [hclause] at hno
    cases isUnless <;> exact absurd (by decide) hno

theorem ensures_parseEffect (effect : Effect) (hp : p.curToken.type = effect.type) :
    Ensures parseEffect.run p fun o q ↦ o = some effect ∧ q = p := by
  refine Ensures.run_get_bind ?_
  rw [hp]
  cases effect
  · exact Ensures.run_pure ⟨rfl, rfl⟩
  · exact Ensures.run_pure ⟨rfl, rfl⟩

theorem ensures_parsePolicy (s : Statement letter) (fuel : ℕ)
    (hp : Peeks letter p (s.tokens ++ rest)) :
    Ensures (parsePolicy letter fuel).run (p.advance letter) fun o q ↦
      o.map PolicyNode.unplaced = some s.node ∧ Peeks letter q rest ∧ q.errors = p.errors := by
  simp only [Statement.tokens, List.append_assoc, List.cons_append, List.nil_append] at hp
  have hopen := hp.tail
  have hprincipal := hopen.tail
  have hcomma := (peeks_append.mp hprincipal).2
  have haction := hcomma.tail
  have hcomma' := (peeks_append.mp haction).2
  have hresource := hcomma'.tail
  have hclose := (peeks_append.mp hresource).2
  have hcondition := hclose.tail
  refine Ensures.run_bind_some (ensures_parseEffect s.effect (type_of_lexeme hp.current)) ?_
  refine ensures_expectPeek_bind (fun _ ↦ ?_) fun hno ↦ absurd hopen.type hno
  refine Ensures.run_modify_bind (Ensures.run_bind_some (ensures_parseScope _ _ hprincipal) ?_)
  refine ensures_expectPeek_bind (fun _ ↦ ?_) fun hno ↦ absurd hcomma.type hno
  refine Ensures.run_modify_bind (Ensures.run_bind_some (ensures_parseScope _ _ haction) ?_)
  refine ensures_expectPeek_bind (fun _ ↦ ?_) fun hno ↦ absurd hcomma'.type hno
  refine Ensures.run_modify_bind (Ensures.run_bind_some (ensures_parseScope _ _ hresource) ?_)
  refine ensures_expectPeek_bind (fun _ ↦ ?_) fun hno ↦ absurd hclose.type hno
  refine Ensures.run_bind (ensures_parseCondition s.condition s.isUnless fuel hcondition) ?_ ?_
  · rintro ⟨node, _⟩ q ⟨⟨_, hnode, hunplaced⟩, hq, herrors⟩
    cases hnode
    have hend := (peeks_append.mp hq).2
    refine Ensures.run_bind_some (ensures_parseObligations s.obligations fuel hq) ?_
    refine ensures_expectPeek_bind (fun _ ↦ ?_) fun hno ↦ absurd hend.type hno
    refine Ensures.run_pure ⟨?_, hend.tail, ?_⟩
    · rw [Option.map_some, PolicyNode.unplaced, hunplaced]
      rfl
    · simp only [errors_advance, errors_iterate_advance, herrors]
  · rintro _ ⟨⟨_, hnode, -⟩, -⟩
    cases hnode

theorem ensures_parsePolicies (statements : List (Statement letter)) (fuel : ℕ)
    (hp : Peeks letter p (statements.flatMap Statement.tokens ++ [(.eof, "")])) :
    Ensures (parsePolicies letter fuel) (p.advance letter) fun nodes q ↦
      nodes.map PolicyNode.unplaced = statements.map Statement.node ∧ q.errors = p.errors := by
  induction statements generalizing fuel p with
  | nil =>
    cases fuel with
    | zero => exact fun _ _ h ↦ nomatch h
    | succ =>
      have heof : (p.advance letter).curToken.type = .eof := type_of_lexeme (Peeks.current hp)
      refine Ensures.get_bind (Ensures.ite (fun _ ↦ ?_) fun hno ↦ absurd heof hno)
      exact .pure ⟨rfl, rfl⟩
  | cons s _ ih =>
    cases fuel with
    | zero => exact fun _ _ h ↦ nomatch h
    | succ fuel =>
      rw [List.flatMap_cons, List.append_assoc] at hp
      have heffect : (p.advance letter).curToken.type = s.effect.type :=
        type_of_lexeme (Peeks.current hp)
      refine Ensures.get_bind (Ensures.ite (fun heof ↦ ?_) fun _ ↦ ?_)
      · rw [heffect] at heof
        exact absurd heof s.effect.type_ne_eof
      · refine (ensures_parsePolicy s (fuel + 1) hp).bind fun o q ho ↦ ?_
        obtain ⟨hnode, hq, herrors⟩ := ho
        obtain ⟨_, rfl, hunplaced⟩ := Option.map_eq_some_iff.mp hnode
        refine ensures_nextToken_bind ((ih fuel hq).bind fun nodes q' hnodes ↦ .pure ⟨?_, ?_⟩)
        · rw [Option.toList_some, List.map_append, hnodes.1, List.map_singleton, hunplaced,
            List.map_cons, List.singleton_append]
        · rw [hnodes.2, herrors]

def before (letter : Char → Bool) (l : Lexer) : Parser :=
  { l := (l.nextToken letter).2
    curToken := (l.nextToken letter).1
    peekToken := (l.nextToken letter).1 }

theorem advance_before (l : Lexer) : (before letter l).advance letter = newParser letter l := by
  simp only [newParser, before, advance]

theorem peeks_before {l : Lexer} {ts : List Lexeme}
    (h : (l.read letter ts.length).map Token.lexeme = ts) : Peeks letter (before letter l) ts := by
  unfold Peeks
  cases ts with
  | nil => rfl
  | cons =>
    rw [List.length_cons, upcoming_succ]
    exact h

end Parser

variable {letter : Char → Bool}

theorem ensures_parseWithin {text : String} {Q : List PolicyNode → List String → Prop}
    (h : Ensures (Parser.parsePolicies letter (text.toList.length + 1))
      (newParser letter (newLexer text)) fun nodes p ↦ Q nodes p.errors) :
    Q (parse letter text).1 (parse letter text).2 := by
  obtain ⟨⟨nodes, p⟩, hrun⟩ := Option.isSome_iff_exists.mp (isSome_parseWithin letter text)
  have hparse : parse letter text = (nodes, p.errors) := by
    unfold parse
    simp only [hrun, Option.get_some]
  rw [hparse]
  exact h nodes p hrun

theorem writes_statements (statements : List (Statement letter)) {cs : List Char} {ts : List Lexeme}
    (h : Lexer.Writes letter cs ts) :
    Lexer.Writes letter (statements.flatMap (·.print.toList) ++ cs)
      (statements.flatMap Statement.tokens ++ ts) := by
  induction statements with
  | nil => exact h
  | cons s _ ih =>
    rw [List.flatMap_cons, List.flatMap_cons, List.append_assoc, List.append_assoc]
    exact writes_statement s ih

theorem parse_statements (statements : List (Statement letter)) {text : String}
    (htext : text.toList = statements.flatMap (·.print.toList)) :
    (parse letter text).1.map PolicyNode.unplaced = statements.map Statement.node ∧
      (parse letter text).2 = [] := by
  have hlex : Lexer.Writes letter text.toList
      (statements.flatMap Statement.tokens ++ [(.eof, "")]) := by
    rw [htext, ← List.append_nil (statements.flatMap _)]
    exact writes_statements statements (Lexer.writes_eof 1)
  refine ensures_parseWithin (Q := fun nodes errors ↦
    nodes.map PolicyNode.unplaced = statements.map Statement.node ∧ errors = []) ?_
  rw [← Parser.advance_before]
  exact Parser.ensures_parsePolicies statements _ (Parser.peeks_before (hlex _ rfl))

/-- A policy is the statement that was printed, up to positions. -/
theorem parse_print (s : Statement letter) :
    (parse letter s.print).1.map PolicyNode.unplaced = [s.node] ∧ (parse letter s.print).2 = [] :=
  parse_statements [s] (List.append_nil _).symm

end PolicyEngine.Parser

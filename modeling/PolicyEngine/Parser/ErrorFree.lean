import PolicyEngine.Parser.RoundTrip

set_option linter.dupNamespace false

namespace PolicyEngine.Parser

open PolicyEngine.Fuel

def Node.nodes : Node → List Node
  | .nil => [.nil]
  | .valueNode v pos => [.valueNode v pos]
  | .variableNode scope field pos => [.variableNode scope field pos]
  | .unaryExprNode op child pos => .unaryExprNode op child pos :: child.nodes
  | .binaryExprNode op left right pos =>
    .binaryExprNode op left right pos :: (left.nodes ++ right.nodes)

def Node.Complete (node : Node) : Prop := .nil ∉ node.nodes

namespace Node

@[simp]
theorem complete_valueNode (v : Value) (pos : Position) : (valueNode v pos).Complete := by
  simp [Complete, nodes]

@[simp]
theorem complete_variableNode (scope : VarScope) (field : String) (pos : Position) :
    (variableNode scope field pos).Complete := by simp [Complete, nodes]

@[simp]
theorem complete_unaryExprNode {op : UnaryOp} {child : Node} {pos : Position} :
    (unaryExprNode op child pos).Complete ↔ child.Complete := by simp [Complete, nodes]

@[simp]
theorem complete_binaryExprNode {op : BinaryOp} {left right : Node} {pos : Position} :
    (binaryExprNode op left right pos).Complete ↔ left.Complete ∧ right.Complete := by
  simp [Complete, nodes]

end Node

def Token.Inner (tok : Token) : Prop := tok.type ∉ [TokenType.semicolon, .eof, .when, .unless]

def Token.Body (tok : Token) : Prop := tok.type ≠ .semicolon ∧ tok.type ≠ .eof

theorem Token.Inner.body {tok : Token} (h : tok.Inner) : tok.Body := by
  simp only [Token.Inner, List.mem_cons, not_or] at h
  exact ⟨h.1, h.2.1⟩

def Written (statement : List Token) : Prop :=
  ∃ tok ∈ statement, tok.type = .when ∨ tok.type = .unless

theorem not_written {ts : List Token} (h : ∀ tok ∈ ts, tok.Inner) : ¬ Written ts := by
  rintro ⟨tok, hmem, htype⟩
  have hinner := h tok hmem
  simp only [Token.Inner, List.mem_cons, not_or] at hinner
  obtain htype | htype := htype
  · exact hinner.2.2.1 htype
  · exact hinner.2.2.2.1 htype

theorem written_append {ts us : List Token} : Written (ts ++ us) ↔ Written ts ∨ Written us := by
  simp only [Written, List.mem_append, or_and_right, exists_or]

structure WellFormed (statement : List Token) (policy : PolicyNode) : Prop where
  principal : policy.principal.isSome = true
  action : policy.action.isSome = true
  resource : policy.resource.isSome = true
  condition : Written statement → policy.condition.Complete

def Rest (ts : List Token) (policy : PolicyNode) : Prop :=
  ∃ body semicolon, ts = body ++ [semicolon] ∧ semicolon.type = .semicolon ∧
    (∀ tok ∈ body, tok.Body) ∧ WellFormed body policy

theorem Rest.append {ts us : List Token} {policy : PolicyNode} (h : Rest us policy)
    (hts : ∀ tok ∈ ts, tok.Inner) : Rest (ts ++ us) policy := by
  obtain ⟨body, semicolon, rfl, hsemicolon, hbody, hwell⟩ := h
  refine ⟨ts ++ body, semicolon, (List.append_assoc _ _ _).symm, hsemicolon, ?_, ?_⟩
  · exact List.forall_mem_append.mpr ⟨fun tok htok ↦ (hts tok htok).body, hbody⟩
  · refine { hwell with condition := fun hwritten ↦ hwell.condition ?_ }
    exact (written_append.mp hwritten).resolve_left (not_written hts)

inductive Statements : List Token → List PolicyNode → Prop
  | nil : Statements [] []
  | cons {ts us : List Token} {policy : PolicyNode} {policies : List PolicyNode} :
    Rest ts policy → Statements us policies → Statements (ts ++ us) (policy :: policies)

theorem statements_flatten {parts : List (List Token)} {policies : List PolicyNode}
    (h : List.Forall₂ Rest parts policies) : Statements parts.flatten policies := by
  induction h with
  | nil => exact .nil
  | cons hpolicy _ ih => exact .cons hpolicy ih

theorem Statements.ne_eof {ts : List Token} {policies : List PolicyNode}
    (h : Statements ts policies) : ∀ tok ∈ ts, tok.type ≠ .eof := by
  induction h with
  | nil => exact List.forall_mem_nil _
  | cons hpolicy _ ih =>
    obtain ⟨_, _, rfl, hsemicolon, hbody, -⟩ := hpolicy
    refine List.forall_mem_append.mpr ⟨List.forall_mem_append.mpr ⟨?_, ?_⟩, ih⟩
    · exact fun tok htok ↦ (hbody tok htok).2
    · rw [List.forall_mem_singleton, hsemicolon]
      decide

theorem Statements.forall₂ {ts : List Token} {policies : List PolicyNode}
    (h : Statements ts policies) :
    List.Forall₂ WellFormed (ts.splitOnP (·.type == .semicolon)).dropLast policies := by
  induction h with
  | nil => exact .nil
  | @cons _ _ _ _ hpolicy _ ih =>
    obtain ⟨_, _, rfl, _, hbody, hwell⟩ := hpolicy
    rw [List.append_assoc, List.singleton_append]
    rw [List.splitOnP_append_cons_of_forall_mem (fun tok htok ↦ by simpa using (hbody tok htok).1) _
      (by simpa)]
    rw [List.dropLast_cons_of_ne_nil (List.splitOnP_ne_nil _ _)]
    exact .cons hwell ih

namespace Parser

variable (letter : Char → Bool)

/-- From `p` to `q` the parser has moved over the tokens `ts`, and has done
nothing else. -/
def Reads (p : Parser) (ts : List Token) (q : Parser) : Prop :=
  upcoming letter ts.length p = ts ∧ q = (advance letter)^[ts.length] p

/-- A run that ends without an error has read some tokens, and `P` holds of them
and of the result. -/
def Sound {α : Type} (f : ParserM α) (p : Parser) (P : List Token → α → Prop) : Prop :=
  Ensures f p fun a q ↦ q.errors = [] → ∃ ts, Reads letter p ts q ∧ P ts a

/-- The same for a function that may return `nil`: without an error it does not. -/
def SoundT {α : Type} (f : OptionT ParserM α) (p : Parser) (P : List Token → α → Prop) : Prop :=
  Sound letter f.run p fun ts o ↦ ∃ a, o = some a ∧ P ts a

variable {letter} {p q r : Parser} {ts us : List Token}

theorem Reads.refl : Reads letter p [] p := ⟨rfl, rfl⟩

theorem Reads.trans (h : Reads letter p ts q) (h' : Reads letter q us r) :
    Reads letter p (ts ++ us) r := by
  obtain ⟨hts, rfl⟩ := h
  obtain ⟨hus, rfl⟩ := h'
  refine ⟨?_, ?_⟩
  · rw [List.length_append, upcoming_add, hts, hus]
  · rw [List.length_append, Nat.add_comm, Function.iterate_add_apply]

theorem reads_advance : Reads letter p [p.peekToken] (p.advance letter) := ⟨rfl, rfl⟩

theorem Reads.errors (h : Reads letter p ts q) : q.errors = p.errors := by
  rw [h.2, errors_iterate_advance]

section Rules

variable {α β : Type} {a : α} {f : ParserM α} {P : List Token → α → Prop} {R : List Token → β → Prop}

namespace Sound

theorem mono {Q : List Token → α → Prop} (h : Sound letter f p P) (hQ : ∀ ts a, P ts a → Q ts a) :
    Sound letter f p Q :=
  Ensures.mono h fun a q hq he ↦ by
    obtain ⟨ts, hread, hP⟩ := hq he
    exact ⟨ts, hread, hQ ts a hP⟩

theorem attach (h : Sound letter f p P) :
    Sound letter f p fun ts a ↦ P ts a ∧ ∃ q, f p = some (a, q) ∧ Reads letter p ts q := by
  intro a q hrun he
  obtain ⟨ts, hread, hP⟩ := h a q hrun he
  exact ⟨ts, hread, hP, q, hrun, hread⟩

protected theorem pure (h : P [] a) : Sound letter (pure a) p P :=
  Ensures.pure fun _ ↦ ⟨[], .refl, h⟩

theorem bind {g : α → ParserM β} (hf : Sound letter f p P)
    (hg : ∀ a q, Sound letter (g a) q fun us b ↦ ∀ ts, P ts a → R (ts ++ us) b) :
    Sound letter (f >>= g) p R := by
  refine Ensures.bind hf fun a q hq ↦ Ensures.mono (hg a q) fun b r hr he ↦ ?_
  obtain ⟨us, hus, hR⟩ := hr he
  -- Nothing takes an error back, so there was none after the first part either.
  obtain ⟨ts, hts, hP⟩ := hq (hus.errors ▸ he)
  exact ⟨ts ++ us, hts.trans hus, hR ts hP⟩

theorem nextToken_bind {g : Unit → ParserM β}
    (h : Sound letter (g ()) (p.advance letter) fun us b ↦ R (p.peekToken :: us) b) :
    Sound letter (nextToken letter >>= g) p R := by
  refine Ensures.modify_bind (Ensures.mono h fun b q hq he ↦ ?_)
  obtain ⟨us, hus, hR⟩ := hq he
  exact ⟨p.peekToken :: us, reads_advance.trans hus, hR⟩

theorem addError {pos : Position} {msg : String} :
    Sound letter (Parser.addError pos msg >>= fun _ ↦ Pure.pure a) p P :=
  ensures_addError_bind fun _ hq ↦ Ensures.pure fun he ↦ absurd he hq

end Sound

namespace SoundT

variable {f : OptionT ParserM α}

protected theorem pure (h : P [] a) : SoundT letter (pure a) p P :=
  Sound.pure ⟨a, rfl, h⟩

theorem mono {Q : List Token → α → Prop} (h : SoundT letter f p P) (hQ : ∀ ts a, P ts a → Q ts a) :
    SoundT letter f p Q :=
  Sound.mono h fun ts _ ho ↦ ho.imp fun a ha ↦ ⟨ha.1, hQ ts a ha.2⟩

theorem bind_run {g : α → OptionT ParserM β} (hf : SoundT letter f p P)
    (hg : ∀ a q, Sound letter (g a).run q fun us o ↦
      ∀ ts, P ts a → ∃ b, o = some b ∧ R (ts ++ us) b) :
    SoundT letter (f >>= g) p R := by
  unfold SoundT
  rw [OptionT.run_bind]
  refine Sound.bind hf fun o q ↦ ?_
  cases o with
  | none =>
    refine Sound.pure fun ts ho ↦ ?_
    obtain ⟨_, ha, -⟩ := ho
    cases ha
  | some a =>
    refine Sound.mono (hg a q) fun us o ho ts ha ↦ ?_
    obtain ⟨_, ha', hP⟩ := ha
    cases ha'
    exact ho ts hP

theorem run {g : OptionT ParserM β} {C : List Token → Prop} {R : List Token → List Token → β → Prop}
    (h : SoundT letter g p fun us b ↦ ∀ ts, C ts → R ts us b) :
    Sound letter g.run p fun us o ↦ ∀ ts, C ts → ∃ b, o = some b ∧ R ts us b :=
  Sound.mono h fun _ _ ho ts hts ↦ ho.imp fun _ hb ↦ ⟨hb.1, hb.2 ts hts⟩

theorem bind {g : α → OptionT ParserM β} (hf : SoundT letter f p P)
    (hg : ∀ a q, SoundT letter (g a) q fun us b ↦ ∀ ts, P ts a → R (ts ++ us) b) :
    SoundT letter (f >>= g) p R := bind_run hf fun a q ↦ (hg a q).run

theorem lift {f : ParserM α} (h : Sound letter f p P) : SoundT letter (liftM f) p P := by
  refine Sound.bind (g := fun a ↦ Pure.pure (some a)) h fun a q ↦ Sound.pure fun ts hP ↦ ?_
  rw [List.append_nil]
  exact ⟨a, rfl, hP⟩

theorem nextToken_bind {g : Unit → OptionT ParserM β}
    (h : SoundT letter (g ()) (p.advance letter) fun us b ↦ R (p.peekToken :: us) b) :
    SoundT letter (liftM (nextToken letter) >>= g) p R :=
  Sound.nextToken_bind (R := fun ts o ↦ ∃ b, o = some b ∧ R ts b) h

theorem get_bind {g : Parser → OptionT ParserM β} (h : SoundT letter (g p) p R) :
    SoundT letter (get >>= g) p R := h

theorem ite {c : Prop} [Decidable c] {f g : OptionT ParserM α} (hf : c → SoundT letter f p P)
    (hg : ¬ c → SoundT letter g p P) : SoundT letter (if c then f else g) p P :=
  Ensures.run_ite hf hg

theorem reject {pos : Position} {msg : String} :
    SoundT letter (Parser.reject pos msg : OptionT ParserM α) p P :=
  ensures_reject pos msg fun _ hq he ↦ absurd he hq

theorem expectPeek_bind {t : TokenType} {g : Unit → OptionT ParserM β}
    (h : p.peekToken.type = t →
      SoundT letter (g ()) (p.advance letter) fun us b ↦ R (p.peekToken :: us) b) :
    SoundT letter (expectPeek letter t >>= g) p R := by
  refine ensures_expectPeek_bind (fun ht ↦ Ensures.mono (h ht) fun o q hq he ↦ ?_)
    fun _ q hq he ↦ absurd he hq
  obtain ⟨us, hus, hR⟩ := hq he
  exact ⟨p.peekToken :: us, reads_advance.trans hus, hR⟩

end SoundT

end Rules

def IsOperand (ts : List Token) (node : Node) : Prop := (∀ tok ∈ ts, tok.Inner) ∧ node.Complete

theorem inner_of_type {tok : Token} {t : TokenType} (h : tok.type = t)
    (ht : t ∉ [TokenType.semicolon, .eof, .when, .unless]) : tok.Inner := by
  unfold Token.Inner
  rwa [h]

theorem inner_of_mem {tok : Token} (types : List TokenType) (h : tok.type ∈ types)
    (ht : ∀ t ∈ types, t ∉ [TokenType.semicolon, .eof, .when, .unless]) : tok.Inner := ht _ h

theorem inner_of_or {tok : Token} {t t' : TokenType} (h : ¬ (tok.type ≠ t ∧ tok.type ≠ t'))
    (ht : ∀ u ∈ [t, t'], u ∉ [TokenType.semicolon, .eof, .when, .unless]) : tok.Inner := by
  refine inner_of_mem [t, t'] ?_ ht
  rw [List.mem_pair]
  by_contra hne
  exact h (not_or.mp hne)

theorem sound_orNil {f : OptionT ParserM Node} {P : List Token → Node → Prop}
    (h : SoundT letter f p P) : Sound letter (orNil f) p P := by
  refine Sound.bind h fun o q ↦ Sound.pure fun ts ho ↦ ?_
  obtain ⟨_, rfl, _⟩ := ho
  rwa [List.append_nil]

theorem sound_parseNumber : Sound letter parseNumber p IsOperand := by
  refine Ensures.get_bind ?_
  cases Go.Strconv.parseInt p.curToken.literal with
  | some => exact Sound.pure ⟨List.forall_mem_nil _, by simp⟩
  | none => exact Sound.addError

theorem sound_parseIP : Sound letter parseIP p IsOperand := by
  refine Ensures.get_bind ?_
  cases Go.Net.parseIP p.curToken.literal with
  | some => exact Sound.pure ⟨List.forall_mem_nil _, by simp⟩
  | none =>
    cases Go.Net.parseCIDR p.curToken.literal with
    | some => exact Sound.pure ⟨List.forall_mem_nil _, by simp⟩
    | none => exact Sound.addError

theorem soundT_parseVariable : SoundT letter (parseVariable letter) p IsOperand := by
  refine SoundT.get_bind ?_
  cases varScopes.lookup p.curToken.literal with
  | none => exact SoundT.reject
  | some =>
    refine SoundT.expectPeek_bind fun hdot ↦ SoundT.expectPeek_bind fun hident ↦ ?_
    refine SoundT.get_bind (SoundT.pure ⟨?_, by simp⟩)
    simp only [List.forall_mem_cons]
    exact ⟨inner_of_type hdot (by decide), inner_of_type hident (by decide),
      List.forall_mem_nil _⟩

section Expressions

variable {parseExpr : ℕ → ParserM Node}

def ReadsOperands (letter : Char → Bool) (parseExpr : ℕ → ParserM Node) : Prop :=
  ∀ m p, Sound letter (parseExpr m) p fun ts node ↦ IsOperand (p.curToken :: ts) node

theorem sound_parsePrefixExpression (h : ReadsOperands letter parseExpr) :
    Sound letter (parsePrefixExpression letter parseExpr) p IsOperand := by
  refine Ensures.get_bind (Ensures.ite (fun _ ↦ ?_) fun _ ↦ Sound.addError)
  refine Sound.nextToken_bind (Sound.bind (h _ _) fun child q ↦ Sound.pure fun ts hts ↦ ?_)
  rw [List.append_nil]
  exact ⟨hts.1, by simpa using hts.2⟩

theorem sound_parseGroupedExpression (h : ReadsOperands letter parseExpr) :
    Sound letter (parseGroupedExpression letter parseExpr) p IsOperand := by
  refine Sound.nextToken_bind (Sound.bind (h _ _) fun expr q ↦ sound_orNil ?_)
  refine SoundT.expectPeek_bind fun hclose ↦ SoundT.pure fun ts hts ↦ ⟨?_, hts.2⟩
  rw [← List.cons_append]
  refine List.forall_mem_append.mpr ⟨hts.1, List.forall_mem_singleton.mpr ?_⟩
  exact inner_of_type hclose (by decide)

theorem sound_prefixParseFns (h : ReadsOperands letter parseExpr) {operand : ParserM Node}
    (hfn : prefixParseFns letter parseExpr p.curToken.type = some operand) :
    p.curToken.Inner ∧ Sound letter operand p IsOperand := by
  generalize ht : p.curToken.type = t at hfn
  cases t <;> cases hfn
  case int => exact ⟨inner_of_type ht (by decide), sound_parseNumber⟩
  case ip => exact ⟨inner_of_type ht (by decide), sound_parseIP⟩
  case not => exact ⟨inner_of_type ht (by decide), sound_parsePrefixExpression h⟩
  case lParen => exact ⟨inner_of_type ht (by decide), sound_parseGroupedExpression h⟩
  case string | true | false =>
    refine ⟨inner_of_type ht (by decide), Ensures.get_bind (Sound.pure ?_)⟩
    exact ⟨List.forall_mem_nil _, by simp⟩
  all_goals exact ⟨inner_of_type ht (by decide), sound_orNil soundT_parseVariable⟩

theorem inner_of_lookup {tok : Token} {op : BinaryOp}
    (h : binaryOps.lookup tok.type = some op) : tok.Inner := by
  generalize ht : tok.type = t at h
  refine inner_of_type ht ?_
  intro hmem
  simp only [List.mem_cons, List.not_mem_nil, or_false] at hmem
  obtain rfl | rfl | rfl | rfl := hmem <;> cases h

theorem sound_parseInfixExpression (h : ReadsOperands letter parseExpr) (left : Node) :
    Sound letter (parseInfixExpression letter parseExpr left) p fun ts node ↦
      left.Complete → IsOperand ts node := by
  refine Ensures.get_bind ?_
  cases hop : binaryOps.lookup p.curToken.type with
  | none => exact Sound.addError
  | some =>
    refine Sound.nextToken_bind (Sound.bind (h _ _) fun right q ↦ Sound.pure fun ts hts hleft ↦ ?_)
    rw [List.append_nil]
    exact ⟨hts.1, Node.complete_binaryExprNode.mpr ⟨hleft, hts.2⟩⟩

theorem sound_parseOperators (h : ReadsOperands letter parseExpr) (m k : ℕ) (left : Node) :
    Sound letter (parseOperators letter parseExpr m k left) p fun ts node ↦
      left.Complete → IsOperand ts node := by
  induction k generalizing p left with
  | zero => exact ensures_outOfFuel
  | succ _ ih =>
    have hexit : Sound letter (pure left) p fun ts node ↦ left.Complete → IsOperand ts node :=
      Sound.pure fun hleft ↦ ⟨List.forall_mem_nil _, hleft⟩
    refine Ensures.get_bind (Ensures.ite (fun _ ↦ ?_) fun _ ↦ hexit)
    refine Ensures.ite (fun _ ↦ hexit) fun hop ↦ ?_
    have hne : binaryOps.lookup p.peekToken.type ≠ none := fun hnone ↦ hop (by rw [hnone]; rfl)
    obtain ⟨_, hop⟩ := Option.ne_none_iff_exists'.mp hne
    refine Sound.nextToken_bind (Sound.bind (sound_parseInfixExpression h left) fun node q ↦ ?_)
    refine Sound.mono (ih node) fun us result hresult ts hts hleft ↦ ?_
    have hfirst := hts hleft
    have hrest := hresult hfirst.2
    refine ⟨List.forall_mem_cons.mpr ⟨inner_of_lookup hop, ?_⟩, hrest.2⟩
    exact List.forall_mem_append.mpr ⟨hfirst.1, hrest.1⟩

end Expressions

theorem readsOperands_parseExpression (fuel : ℕ) :
    ReadsOperands letter (parseExpression letter fuel) := by
  induction fuel with
  | zero => exact fun _ _ ↦ ensures_outOfFuel
  | succ fuel ih =>
    intro m p
    refine Ensures.get_bind ?_
    cases hfn : prefixParseFns letter (parseExpression letter fuel) p.curToken.type with
    | none => exact Sound.addError
    | some =>
      obtain ⟨hinner, hoperand⟩ := sound_prefixParseFns ih hfn
      refine Sound.bind hoperand fun left q ↦ ?_
      refine Sound.mono (sound_parseOperators ih m fuel left) fun us node hnode ts hts ↦ ?_
      have hrest := hnode hts.2
      refine ⟨List.forall_mem_cons.mpr ⟨hinner, ?_⟩, hrest.2⟩
      exact List.forall_mem_append.mpr ⟨hts.1, hrest.1⟩

theorem soundT_parseScope (keyword : TokenType)
    (hkeyword : keyword ∉ [TokenType.semicolon, .eof, .when, .unless]) :
    SoundT letter (parseScope letter keyword) p fun ts _ ↦ ∀ tok ∈ p.curToken :: ts, tok.Inner := by
  refine SoundT.get_bind (SoundT.ite (fun _ ↦ SoundT.reject) fun hcur ↦ ?_)
  refine SoundT.ite (fun _ ↦ SoundT.reject) fun hop ↦ ?_
  have hcur : p.curToken.Inner := inner_of_type (not_not.mp hcur) hkeyword
  have hop : p.peekToken.Inner := inner_of_or hop (by decide)
  refine SoundT.nextToken_bind (SoundT.nextToken_bind (SoundT.get_bind ?_))
  refine SoundT.ite (fun hany ↦ SoundT.pure ?_) fun _ ↦ SoundT.ite (fun htype ↦ ?_) fun _ ↦
    SoundT.reject
  · simp only [List.forall_mem_cons]
    exact ⟨hcur, hop, inner_of_type hany (by decide), List.forall_mem_nil _⟩
  · refine SoundT.expectPeek_bind fun hcolon ↦ SoundT.get_bind ?_
    refine SoundT.ite (fun _ ↦ SoundT.reject) fun hid ↦ ?_
    refine SoundT.nextToken_bind (SoundT.get_bind (SoundT.pure ?_))
    simp only [List.forall_mem_cons]
    exact ⟨hcur, hop, inner_of_mem _ htype (by decide), inner_of_type hcolon (by decide),
      inner_of_or hid (by decide), List.forall_mem_nil _⟩

theorem soundT_parseObligation :
    SoundT letter (parseObligation letter) p fun ts _ ↦ ∀ tok ∈ ts, tok.Inner := by
  refine SoundT.expectPeek_bind fun hident ↦ SoundT.get_bind (SoundT.ite (fun hstring ↦ ?_) fun _ ↦ ?_)
  · refine SoundT.nextToken_bind (SoundT.get_bind (SoundT.pure ?_))
    simp only [List.forall_mem_cons]
    exact ⟨inner_of_type hident (by decide), inner_of_type hstring (by decide),
      List.forall_mem_nil _⟩
  · refine SoundT.pure ?_
    exact List.forall_mem_singleton.mpr (inner_of_type hident (by decide))

theorem soundT_parseObligations (fuel : ℕ) :
    SoundT letter (parseObligations letter fuel) p fun ts _ ↦ ∀ tok ∈ ts, tok.Inner := by
  induction fuel generalizing p with
  | zero => exact fun _ _ h ↦ nomatch h
  | succ _ ih =>
    refine SoundT.get_bind (SoundT.ite (fun hobligation ↦ ?_) fun _ ↦
      SoundT.pure (List.forall_mem_nil _))
    refine SoundT.nextToken_bind (SoundT.bind soundT_parseObligation fun obligation q ↦ ?_)
    refine SoundT.bind ih fun obligations q ↦ SoundT.pure fun us hus ts hts ↦ ?_
    rw [List.append_nil]
    refine List.forall_mem_cons.mpr ⟨inner_of_type hobligation (by decide), ?_⟩
    exact List.forall_mem_append.mpr ⟨hts, hus⟩

theorem soundT_parseCondition (fuel : ℕ) :
    SoundT letter (parseCondition letter fuel) p fun ts r ↦
      (∀ tok ∈ ts, tok.Body) ∧ (Written ts → r.1.Complete) := by
  refine SoundT.get_bind (SoundT.ite (fun hclause ↦ ?_) fun _ ↦ SoundT.pure ?_)
  · refine SoundT.nextToken_bind (SoundT.expectPeek_bind fun hopen ↦ SoundT.nextToken_bind ?_)
    refine SoundT.bind_run (SoundT.lift (readsOperands_parseExpression fuel _ _)) fun node q ↦ ?_
    refine Ensures.run_ite (fun hnil ↦ ?_) fun _ ↦ SoundT.run ?_
    · -- A missing condition is not complete, so there is an error.
      refine Ensures.run_failure fun _ ↦ ⟨[], .refl, fun ts hts ↦ ?_⟩
      rw [hnil] at hts
      exact absurd List.mem_cons_self hts.2
    · refine SoundT.expectPeek_bind fun hclose ↦ SoundT.pure fun ts hts ↦ ⟨?_, fun _ ↦ hts.2⟩
      have hclause : p.peekToken.Body := by
        obtain h | h := hclause <;> simp [Token.Body, h]
      refine List.forall_mem_cons.mpr ⟨hclause, ?_⟩
      refine List.forall_mem_cons.mpr ⟨(inner_of_type hopen (by decide)).body, ?_⟩
      rw [← List.cons_append]
      rw [curToken_advance] at hts
      refine List.forall_mem_append.mpr ⟨fun tok htok ↦ (hts.1 tok htok).body, ?_⟩
      exact List.forall_mem_singleton.mpr (inner_of_type hclose (by decide)).body
  · exact ⟨List.forall_mem_nil _, fun h ↦ absurd h (not_written (List.forall_mem_nil _))⟩

theorem soundT_parseEffect :
    SoundT letter parseEffect p fun ts _ ↦ ∀ tok ∈ p.curToken :: ts, tok.Inner := by
  refine SoundT.get_bind (SoundT.ite (fun h ↦ ?_) fun _ ↦ SoundT.ite (fun h ↦ ?_) fun _ ↦
    SoundT.reject)
  · exact SoundT.pure (List.forall_mem_singleton.mpr (inner_of_type h (by decide)))
  · exact SoundT.pure (List.forall_mem_singleton.mpr (inner_of_type h (by decide)))

section Policy

variable {g : ScopeNode → OptionT ParserM PolicyNode}

theorem soundT_expectPeek_rest {t : TokenType} {g : Unit → OptionT ParserM PolicyNode}
    (ht : t ∉ [TokenType.semicolon, .eof, .when, .unless])
    (hg : ∀ q, SoundT letter (g ()) q Rest) : SoundT letter (expectPeek letter t >>= g) p Rest := by
  refine SoundT.expectPeek_bind fun htype ↦ (hg _).mono fun us policy h ↦ ?_
  have hinner : ∀ tok ∈ [p.peekToken], tok.Inner :=
    List.forall_mem_singleton.mpr (inner_of_type htype ht)
  exact h.append hinner

theorem soundT_parseScope_rest {keyword : TokenType}
    (hkeyword : keyword ∉ [TokenType.semicolon, .eof, .when, .unless])
    (hg : ∀ scope q, SoundT letter (g scope) q Rest) :
    SoundT letter (liftM (nextToken letter) >>= fun _ ↦ parseScope letter keyword >>= g) p Rest := by
  refine SoundT.nextToken_bind (SoundT.bind (soundT_parseScope keyword hkeyword) fun scope q ↦ ?_)
  refine (hg scope q).mono fun us policy h ts hts ↦ ?_
  rw [curToken_advance] at hts
  exact h.append hts

end Policy

theorem soundT_parsePolicy (fuel : ℕ) :
    SoundT letter (parsePolicy letter fuel) p fun ts policy ↦ Rest (p.curToken :: ts) policy := by
  refine SoundT.bind soundT_parseEffect fun effect q ↦ ?_
  refine SoundT.mono (P := Rest) ?_ fun us policy h ts hts ↦ h.append hts
  refine soundT_expectPeek_rest (by decide) fun q ↦ ?_
  refine soundT_parseScope_rest (by decide) fun principal q ↦ ?_
  refine soundT_expectPeek_rest (by decide) fun q ↦ ?_
  refine soundT_parseScope_rest (by decide) fun action q ↦ ?_
  refine soundT_expectPeek_rest (by decide) fun q ↦ ?_
  refine soundT_parseScope_rest (by decide) fun resource q ↦ ?_
  refine soundT_expectPeek_rest (by decide) fun q ↦ ?_
  refine SoundT.bind (soundT_parseCondition fuel) fun r q ↦ ?_
  refine SoundT.bind (soundT_parseObligations fuel) fun obligations q ↦ ?_
  refine SoundT.expectPeek_bind fun hsemicolon ↦ SoundT.pure fun us hus ts hts ↦ ?_
  refine ⟨ts ++ us, q.peekToken, (List.append_assoc _ _ _).symm, hsemicolon, ?_, rfl, rfl, rfl, ?_⟩
  · exact List.forall_mem_append.mpr ⟨hts.1, fun tok htok ↦ (hus tok htok).body⟩
  · exact fun hwritten ↦ hts.2 ((written_append.mp hwritten).resolve_right (not_written hus))

/-- A call of `parsePolicy` that returns the policy and reads these tokens, from
its current one on. -/
def ConsumedBy (letter : Char → Bool) (ts : List Token) (policy : PolicyNode) : Prop :=
  ∃ (fuel : ℕ) (p q : Parser) (us : List Token),
    (parsePolicy letter fuel).run p = some (some policy, q) ∧ Reads letter p us q ∧
      ts = p.curToken :: us

theorem sound_parsePolicies_parts (fuel : ℕ) :
    Sound letter (parsePolicies letter fuel) p fun ts policies ↦
      ∃ parts eof, p.curToken :: ts = parts.flatten ++ [eof] ∧ eof.type = .eof ∧
        List.Forall₂ (fun part policy ↦ Rest part policy ∧ ConsumedBy letter part policy)
          parts policies := by
  induction fuel generalizing p with
  | zero => exact fun _ _ h ↦ nomatch h
  | succ fuel ih =>
    refine Ensures.get_bind (Ensures.ite (fun heof ↦ ?_) fun _ ↦ ?_)
    · exact Sound.pure ⟨[], p.curToken, rfl, heof, .nil⟩
    · refine Sound.bind (soundT_parsePolicy (fuel + 1)).attach fun o q ↦ Sound.nextToken_bind ?_
      refine Sound.bind ih fun policies r ↦ Sound.pure ?_
      intro _ hrest ts' hfirst
      obtain ⟨parts, eof, hparts, heof, hpolicies⟩ := hrest
      obtain ⟨⟨_, rfl, hpolicy⟩, q', hrun, hread⟩ := hfirst
      rw [curToken_advance] at hparts
      refine ⟨(p.curToken :: ts') :: parts, eof, ?_, heof, .cons ⟨hpolicy, ?_⟩ hpolicies⟩
      · rw [List.append_nil, hparts, List.flatten_cons, List.cons_append, List.cons_append,
          List.append_assoc]
      · exact ⟨fuel + 1, p, q', ts', hrun, hread, rfl⟩

theorem sound_parsePolicies (fuel : ℕ) :
    Sound letter (parsePolicies letter fuel) p fun ts policies ↦
      ∃ us eof, p.curToken :: ts = us ++ [eof] ∧ eof.type = .eof ∧ Statements us policies := by
  refine Sound.mono (sound_parsePolicies_parts fuel) fun ts policies h ↦ ?_
  obtain ⟨parts, eof, hparts, heof, hpolicies⟩ := h
  exact ⟨parts.flatten, eof, hparts, heof, statements_flatten (hpolicies.imp fun _ _ h ↦ h.1)⟩

theorem read_succ (n : ℕ) (l : Lexer) : l.read letter (n + 1) =
    (newParser letter l).curToken :: upcoming letter n (newParser letter l) := by
  have h : upcoming letter (n + 1) (before letter l) = l.read letter (n + 1) := upcoming_succ n
  rw [← h, upcoming, advance_before, ← advance_before, curToken_advance]

theorem read_of_upcoming {l : Lexer} {ts us : List Token} {eof : Token}
    (hts : upcoming letter ts.length (newParser letter l) = ts)
    (hus : (newParser letter l).curToken :: ts = us ++ [eof]) :
    l.read letter (us.length + 1) = us ++ [eof] := by
  have hlength : ts.length = us.length := by simpa using congrArg List.length hus
  rw [← hus, ← hlength, read_succ, hts]

end Parser

variable (letter : Char → Bool)

def tokens (text : String) : List Token :=
  ((newLexer text).read letter (text.toList.length + 1)).takeWhile (·.type != .eof)

def statements (text : String) : List (List Token) :=
  ((tokens letter text).splitOnP (·.type == .semicolon)).dropLast

variable {letter}

theorem Lexer.read_add (letter : Char → Bool) (l : Lexer) (m n : ℕ) :
    ∃ l', l.read letter (m + n) = l.read letter m ++ Lexer.read letter n l' := by
  induction m generalizing l with
  | zero => exact ⟨l, by rw [Nat.zero_add]; rfl⟩
  | succ _ ih =>
    obtain ⟨l', h⟩ := ih (l.nextToken letter).2
    refine ⟨l', ?_⟩
    rw [Nat.succ_add, Lexer.read, h]
    rfl

theorem Lexer.length_read (n : ℕ) (l : Lexer) : (l.read letter n).length = n := by
  induction n generalizing l with
  | zero => rfl
  | succ _ ih => rw [Lexer.read, List.length_cons, ih]

theorem Lexer.le_size_of_read (letter : Char → Bool) (n : ℕ) (l : Lexer)
    (h : ∀ tok ∈ l.read letter n, tok.type ≠ .eof) : n ≤ l.size := by
  induction n generalizing l with
  | zero => exact Nat.zero_le _
  | succ _ ih =>
    rw [Lexer.read, List.forall_mem_cons] at h
    have hfirst := l.weight_add_size_nextToken_le letter
    have hrest := ih _ h.2
    rw [TokenType.weight, if_neg h.1] at hfirst
    omega

theorem tokens_eq {text : String} {us : List Token} {eof : Token}
    (hread : (newLexer text).read letter (us.length + 1) = us ++ [eof])
    (hus : ∀ tok ∈ us, tok.type ≠ .eof) (heof : eof.type = .eof) : tokens letter text = us := by
  have hlength : us.length ≤ text.toList.length := by
    refine Lexer.le_size_of_read letter us.length (newLexer text) fun tok htok ↦ hus tok ?_
    obtain ⟨_, hl⟩ := Lexer.read_add letter (newLexer text) us.length 1
    rw [hread] at hl
    rwa [(List.append_inj hl (Lexer.length_read _ _).symm).1]
  obtain ⟨k, _⟩ := Nat.exists_eq_add_of_le hlength
  obtain ⟨_, hl⟩ := Lexer.read_add letter (newLexer text) (us.length + 1) k
  unfold tokens
  rw [show text.toList.length + 1 = us.length + 1 + k by omega, hl, hread, List.append_assoc,
    List.takeWhile_append_of_pos (fun tok htok ↦ by simpa using hus tok htok),
    List.singleton_append, List.takeWhile_cons_of_neg (by simp [heof]), List.append_nil]

theorem forall₂_wellFormed {text : String} (h : (parse letter text).2 = []) :
    List.Forall₂ WellFormed (statements letter text) (parse letter text).1 := by
  refine ensures_parseWithin (Q := fun policies errors ↦ errors = [] →
    List.Forall₂ WellFormed (statements letter text) policies) ?_ h
  refine Ensures.mono (Parser.sound_parsePolicies _) fun policies q hq he ↦ ?_
  obtain ⟨_, ⟨hts, -⟩, _, _, hus, heof, hpolicies⟩ := hq he
  unfold statements
  rw [tokens_eq (Parser.read_of_upcoming hts hus) hpolicies.ne_eof heof]
  exact hpolicies.forall₂

end PolicyEngine.Parser

import PolicyEngine.Fuel.Ensures
import PolicyEngine.Parser.Printer

set_option linter.dupNamespace false

namespace PolicyEngine.Parser

open PolicyEngine.Fuel

def Token.lexeme (tok : Token) : Lexeme := (tok.type, tok.literal)

namespace Lexer

variable (letter : Char → Bool)

def read : ℕ → Lexer → List Token
  | 0, _ => []
  | n + 1, l => (l.nextToken letter).1 :: read n (l.nextToken letter).2

end Lexer

namespace Parser

variable (letter : Char → Bool)

def upcoming : ℕ → Parser → List Token
  | 0, _ => []
  | n + 1, p => p.peekToken :: upcoming n (p.advance letter)

def Peeks (p : Parser) (ts : List Lexeme) : Prop :=
  (upcoming letter ts.length p).map Token.lexeme = ts

variable {letter} {p : Parser}

theorem upcoming_succ (n : ℕ) : upcoming letter (n + 1) p = p.peekToken :: p.l.read letter n := by
  induction n generalizing p with
  | zero => rfl
  | succ _ ih =>
    rw [upcoming, ih]
    rfl

theorem upcoming_add (m n : ℕ) : upcoming letter (m + n) p =
    upcoming letter m p ++ upcoming letter n ((advance letter)^[m] p) := by
  induction m generalizing p with
  | zero =>
    rw [Nat.zero_add]
    rfl
  | succ _ ih =>
    rw [Nat.succ_add, upcoming, ih]
    rfl

theorem peeks_nil : Peeks letter p [] := rfl

theorem peeks_cons {t : Lexeme} {ts : List Lexeme} :
    Peeks letter p (t :: ts) ↔ p.peekToken.lexeme = t ∧ Peeks letter (p.advance letter) ts :=
  List.cons_eq_cons

theorem peeks_append {ts us : List Lexeme} : Peeks letter p (ts ++ us) ↔
    Peeks letter p ts ∧ Peeks letter ((advance letter)^[ts.length] p) us := by
  induction ts generalizing p with
  | nil => simp [peeks_nil]
  | cons _ _ ih => rw [List.cons_append, peeks_cons, peeks_cons, ih, and_assoc]; rfl

theorem Peeks.type {t : Lexeme} {ts : List Lexeme} (h : Peeks letter p (t :: ts)) :
    p.peekToken.type = t.1 := congrArg Prod.fst (peeks_cons.mp h).1

theorem Peeks.tail {t : Lexeme} {ts : List Lexeme} (h : Peeks letter p (t :: ts)) :
    Peeks letter (p.advance letter) ts := (peeks_cons.mp h).2

theorem Peeks.current {t : Lexeme} {ts : List Lexeme} (h : Peeks letter p (t :: ts)) :
    (p.advance letter).curToken.lexeme = t := (peeks_cons.mp h).1

theorem type_of_lexeme {tok : Token} {t : Lexeme} (h : tok.lexeme = t) : tok.type = t.1 :=
  congrArg Prod.fst h

theorem literal_of_lexeme {tok : Token} {t : Lexeme} (h : tok.lexeme = t) : tok.literal = t.2 :=
  congrArg Prod.snd h

theorem curToken_advance : (p.advance letter).curToken = p.peekToken := rfl

theorem errors_advance : (p.advance letter).errors = p.errors := rfl

theorem errors_iterate_advance (n : ℕ) : ((advance letter)^[n] p).errors = p.errors := by
  induction n generalizing p with
  | zero => rfl
  | succ _ ih => rw [Function.iterate_succ_apply, ih, errors_advance]

section Rules

variable {α : Type} {R : Option α → Parser → Prop}

theorem ensures_reject (pos : Position) (msg : String) (h : ∀ q : Parser, q.errors ≠ [] → R none q) :
    Ensures (reject pos msg : OptionT ParserM α).run p R := by
  refine Ensures.run_modify_bind (Ensures.run_failure (h _ ?_))
  exact List.append_ne_nil_of_right_ne_nil _ (List.cons_ne_nil _ _)

theorem ensures_addError_bind {β : Type} {Q : β → Parser → Prop} {g : Unit → ParserM β}
    {pos : Position} {msg : String} (h : ∀ q : Parser, q.errors ≠ [] → Ensures (g ()) q Q) :
    Ensures (addError pos msg >>= g) p Q :=
  Ensures.modify_bind (h _ (List.append_ne_nil_of_right_ne_nil _ (List.cons_ne_nil _ _)))

theorem ensures_expectPeek {R : Option Unit → Parser → Prop} {t : TokenType}
    (hyes : p.peekToken.type = t → R (some ()) (p.advance letter))
    (hno : p.peekToken.type ≠ t → ∀ q : Parser, q.errors ≠ [] → R none q) :
    Ensures (expectPeek letter t).run p R := by
  refine Ensures.run_get_bind (Ensures.run_ite (fun h ↦ ?_) fun h ↦ ensures_reject _ _ (hno h))
  intro _ _ hq
  cases hq
  exact hyes h

theorem ensures_expectPeek_bind {g : Unit → OptionT ParserM α} {t : TokenType}
    (hyes : p.peekToken.type = t → Ensures (g ()).run (p.advance letter) R)
    (hno : p.peekToken.type ≠ t → ∀ q : Parser, q.errors ≠ [] → R none q) :
    Ensures (expectPeek letter t >>= g).run p R := by
  refine Ensures.run_bind (Q := fun o q ↦ (o = some () ∧ p.peekToken.type = t ∧
    q = p.advance letter) ∨ (o = none ∧ p.peekToken.type ≠ t ∧ q.errors ≠ [])) ?_ ?_ ?_
  · exact ensures_expectPeek (fun h ↦ .inl ⟨rfl, h, rfl⟩) fun h q hq ↦ .inr ⟨rfl, h, hq⟩
  · intro _ q hq
    obtain ⟨-, h, rfl⟩ | ⟨h, -⟩ := hq
    · exact hyes h
    · cases h
  · intro q hq
    obtain ⟨h, -⟩ | ⟨-, h, he⟩ := hq
    · cases h
    · exact hno h q he

end Rules

end Parser

end PolicyEngine.Parser

import LoxLang.Token

/-!
# The grammar of programs

The rules of the language in extended Backus–Naur form, as data: `grammar` gives the right side of
each nonterminal, and `Derives` says which token lists a right side derives. Parameter and argument
lists hold at most 255 entries, and a comma may follow the last one.

`Rule.Means` reads a right side with any meaning of the nonterminals in it. A family of meanings
that holds whenever the right side does covers everything derivable.
-/

namespace LoxLang

/-- What a rule names as one token. -/
inductive Terminal where
  | symbol (mark : Symbol)
  | keyword (word : Keyword)
  | identifier
  | string
  | number
  | endMarker
deriving DecidableEq, Repr

/-- Whether a terminal stands for tokens of a kind. -/
def Terminal.accepts : Terminal → Kind → Bool
  | symbol mark, kind => kind = .symbol mark
  | keyword word, kind => kind = .keyword word
  | identifier, kind => kind = .identifier
  | string, .string _ => true
  | number, .number _ => true
  | endMarker, kind => kind = .eof
  | _, _ => false

/-- The left sides of the rules. -/
inductive Nonterminal where
  | program
  | declaration
  | classDecl
  | funDecl
  | function
  | varDecl
  | statement
  | exprStmt
  | forStmt
  | ifStmt
  | printStmt
  | returnStmt
  | whileStmt
  | block
  | parameters
  | expression
  | assignment
  | logicOr
  | logicAnd
  | equality
  | comparison
  | term
  | factor
  | unary
  | call
  | arguments
  | primary
deriving DecidableEq, Repr

/-- The right side of a rule: tokens and nonterminals in sequence, as alternatives, optional or
repeated any number of times or up to a bound. -/
inductive Rule where
  | token (terminal : Terminal)
  | part (name : Nonterminal)
  | sequence (first second : Rule)
  | choice (first second : Rule)
  | optional (inner : Rule)
  | many (inner : Rule)
  | upTo (bound : Nat) (inner : Rule)
deriving Repr

namespace Rule

instance : Append Rule := ⟨sequence⟩

instance : OrOp Rule := ⟨choice⟩

/-- A symbol. -/
@[reducible] def mark (symbol : Symbol) : Rule :=
  token (.symbol symbol)

/-- A reserved word. -/
@[reducible] def word (keyword : Keyword) : Rule :=
  token (.keyword keyword)

/-- An identifier. -/
@[reducible] def name : Rule :=
  token .identifier

/-- Entries with commas between them, at most 255, and perhaps a comma behind the last one. -/
@[reducible] def list (entry : Rule) : Rule :=
  entry ++ upTo 254 (mark .comma ++ entry) ++ optional (mark .comma)

/-- Operands with operators between them. -/
@[reducible] def operands (operand operator : Rule) : Rule :=
  operand ++ many (operator ++ operand)

end Rule

open Rule in
/-- The rules of the language. -/
def grammar : Nonterminal → Rule
  | .program => many (part .declaration) ++ token .endMarker
  | .declaration => part .classDecl ||| part .funDecl ||| part .varDecl ||| part .statement
  | .classDecl =>
    word .classWord ++ name ++ optional (mark .less ++ name) ++ mark .leftBrace ++
      many (part .function) ++ mark .rightBrace
  | .funDecl => word .funWord ++ part .function
  | .function =>
    name ++ mark .leftParen ++ optional (part .parameters) ++ mark .rightParen ++ part .block
  | .varDecl =>
    word .varWord ++ name ++ optional (mark .equal ++ part .expression) ++ mark .semicolon
  | .statement =>
    part .exprStmt ||| part .forStmt ||| part .ifStmt ||| part .printStmt ||| part .returnStmt |||
      part .whileStmt ||| part .block
  | .exprStmt => part .expression ++ mark .semicolon
  | .forStmt =>
    word .forWord ++ mark .leftParen ++ (part .varDecl ||| part .exprStmt ||| mark .semicolon) ++
      optional (part .expression) ++ mark .semicolon ++ optional (part .expression) ++
      mark .rightParen ++ part .statement
  | .ifStmt =>
    word .ifWord ++ mark .leftParen ++ part .expression ++ mark .rightParen ++ part .statement ++
      optional (word .elseWord ++ part .statement)
  | .printStmt => word .printWord ++ part .expression ++ mark .semicolon
  | .returnStmt => word .returnWord ++ optional (part .expression) ++ mark .semicolon
  | .whileStmt =>
    word .whileWord ++ mark .leftParen ++ part .expression ++ mark .rightParen ++ part .statement
  | .block => mark .leftBrace ++ many (part .declaration) ++ mark .rightBrace
  | .parameters => list name
  | .expression => part .assignment
  | .assignment =>
    (optional (part .call ++ mark .dot) ++ name ++ mark .equal ++ part .assignment) |||
      part .logicOr
  | .logicOr => operands (part .logicAnd) (word .orWord)
  | .logicAnd => operands (part .equality) (word .andWord)
  | .equality => operands (part .comparison) (mark .bangEqual ||| mark .equalEqual)
  | .comparison =>
    operands (part .term)
      (mark .greater ||| mark .greaterEqual ||| mark .less ||| mark .lessEqual)
  | .term => operands (part .factor) (mark .minus ||| mark .plus)
  | .factor => operands (part .unary) (mark .slash ||| mark .star)
  | .unary => ((mark .bang ||| mark .minus) ++ part .unary) ||| part .call
  | .call =>
    part .primary ++
      many ((mark .leftParen ++ optional (part .arguments) ++ mark .rightParen) |||
        (mark .dot ++ name))
  | .arguments => list (part .expression)
  | .primary =>
    token .number ||| token .string ||| word .trueWord ||| word .falseWord ||| word .nilWord |||
      word .thisWord ||| name ||| (mark .leftParen ++ part .expression ++ mark .rightParen) |||
      (word .superWord ++ mark .dot ++ name)

/-- The token lists that a right side derives. -/
inductive Derives : Rule → List Token → Prop where
  | token {terminal : Terminal} {token : Token} (accepted : terminal.accepts token.kind = true) :
      Derives (.token terminal) [token]
  | part {name : Nonterminal} {tokens : List Token} (right : Derives (grammar name) tokens) :
      Derives (.part name) tokens
  | sequence {first second : Rule} {before behind : List Token} (head : Derives first before)
      (tail : Derives second behind) : Derives (first ++ second) (before ++ behind)
  | left {first second : Rule} {tokens : List Token} (chosen : Derives first tokens) :
      Derives (first ||| second) tokens
  | right {first second : Rule} {tokens : List Token} (chosen : Derives second tokens) :
      Derives (first ||| second) tokens
  | absent {inner : Rule} : Derives (.optional inner) []
  | present {inner : Rule} {tokens : List Token} (given : Derives inner tokens) :
      Derives (.optional inner) tokens
  | manyEnd {inner : Rule} : Derives (.many inner) []
  | manyMore {inner : Rule} {before behind : List Token} (head : Derives inner before)
      (tail : Derives (.many inner) behind) : Derives (.many inner) (before ++ behind)
  | upToEnd {bound : Nat} {inner : Rule} : Derives (.upTo bound inner) []
  | upToMore {bound : Nat} {inner : Rule} {before behind : List Token}
      (head : Derives inner before) (tail : Derives (.upTo bound inner) behind) :
      Derives (.upTo (bound + 1) inner) (before ++ behind)

namespace Rule

/-- What a right side means when the nonterminals have a given meaning. -/
def Means (meaning : Nonterminal → List Token → Prop) : Rule → List Token → Prop
  | token terminal, tokens => ∃ token, tokens = [token] ∧ terminal.accepts token.kind = true
  | part name, tokens => meaning name tokens
  | sequence first second, tokens =>
    ∃ before behind, first.Means meaning before ∧ second.Means meaning behind ∧
      tokens = before ++ behind
  | choice first second, tokens => first.Means meaning tokens ∨ second.Means meaning tokens
  | optional inner, tokens => tokens = [] ∨ inner.Means meaning tokens
  | many inner, tokens =>
    ∃ parts : List (List Token), (∀ part ∈ parts, inner.Means meaning part) ∧ tokens = parts.flatten
  | upTo bound inner, tokens =>
    ∃ parts : List (List Token), (∀ part ∈ parts, inner.Means meaning part) ∧
      parts.length ≤ bound ∧ tokens = parts.flatten

variable {meaning : Nonterminal → List Token → Prop} {first second : Rule} {tokens : List Token}

@[simp] theorem means_append : (first ++ second).Means meaning tokens ↔
    ∃ before behind, first.Means meaning before ∧ second.Means meaning behind ∧
      tokens = before ++ behind :=
  Iff.rfl

@[simp] theorem means_or : (first ||| second).Means meaning tokens ↔
    first.Means meaning tokens ∨ second.Means meaning tokens :=
  Iff.rfl

end Rule

/-- A family of meanings that holds whenever the right side of its rule does holds of everything
derivable. -/
theorem Derives.means {meaning : Nonterminal → List Token → Prop}
    (closed : ∀ name tokens, (grammar name).Means meaning tokens → meaning name tokens)
    {rule : Rule} {tokens : List Token} (derives : Derives rule tokens) :
    rule.Means meaning tokens := by
  induction derives with
  | token accepted => exact ⟨_, rfl, accepted⟩
  | part _ right => exact closed _ _ right
  | sequence _ _ head tail => exact ⟨_, _, head, tail, rfl⟩
  | left _ chosen => exact Or.inl chosen
  | right _ chosen => exact Or.inr chosen
  | absent => exact Or.inl rfl
  | present _ given => exact Or.inr given
  | manyEnd => exact ⟨[], nofun, rfl⟩
  | manyMore _ _ head tail =>
    obtain ⟨parts, each, rfl⟩ := tail
    exact ⟨_ :: parts, List.forall_mem_cons.mpr ⟨head, each⟩, rfl⟩
  | upToEnd => exact ⟨[], nofun, Nat.zero_le _, rfl⟩
  | upToMore _ _ head tail =>
    obtain ⟨parts, each, bounded, rfl⟩ := tail
    exact ⟨_ :: parts, List.forall_mem_cons.mpr ⟨head, each⟩, Nat.succ_le_succ bounded, rfl⟩

end LoxLang

import LoxLang.Proofs.Number.ReadingBack
import LoxLang.Proofs.Parsing.Formed
import LoxLang.Proofs.Tree.Form
import LoxLang.Proofs.Tree.Relabelled

/-!
# Trees recovered from outlines

`Expr.ofForm` and `Stmt.ofForm` invert outlines: they read a form as the tree that is shown as it,
with each word taken as the token that it is scanned as. Identities and lines are not shown, so the
tree comes back `bare`. A tree is `Legible` if a form that is written as its outline is read as the
bare tree; one lemma for each kind of tree says that it is legible if its parts are.
-/

namespace LoxLang

attribute [simp] Expr.outline Expr.outlines Expr.optionalOutline Stmt.outline Stmt.outlines
  FunctionDecl.outline FunctionDecl.outlines

/-- The same token on the first line. -/
def Token.bare (token : Token) : Token :=
  { token with line := 1 }

/-- Every identity is dropped and every token stands on the first line. -/
def Relabelling.bare : Relabelling :=
  { id := fun _ => 0, token := Token.bare }

@[simp] theorem Relabelling.bare_id (id : Nat) : bare.id id = 0 :=
  rfl

@[simp] theorem Relabelling.bare_token : bare.token = Token.bare :=
  rfl

/-- The same expression without identities and lines. -/
abbrev Expr.bare : Expr → Expr :=
  Expr.relabelled .bare

/-- The same expressions without identities and lines. -/
abbrev Expr.bareAll : List Expr → List Expr :=
  Expr.relabelledAll .bare

/-- The same statement without identities and lines. -/
abbrev Stmt.bare : Stmt → Stmt :=
  Stmt.relabelled .bare

/-- The same statements without identities and lines. -/
abbrev Stmt.bareAll : List Stmt → List Stmt :=
  Stmt.relabelledAll .bare

/-- The same function without identities and lines. -/
abbrev FunctionDecl.bare : FunctionDecl → FunctionDecl :=
  FunctionDecl.relabelled .bare

/-- The same functions without identities and lines. -/
abbrev FunctionDecl.bareAll : List FunctionDecl → List FunctionDecl :=
  FunctionDecl.relabelledAll .bare

/-! ### Reading forms -/

/-- The kind of the token that a word is scanned as. -/
def wordKind (word : String) : Kind :=
  match Piece.cut word.toList with
  | [⟨_, .token kind⟩] => kind
  | _ => .eof

/-- The token that a word is scanned as. -/
def Token.ofWord (word : String) : Token :=
  { kind := wordKind word, lexeme := word, line := 1 }

/-- The expression that one word shows. -/
def Expr.ofWord (word : Token) : Expr :=
  match word.kind with
  | .number value => .literal (.number value)
  | .keyword .trueWord => .literal (.bool true)
  | .keyword .falseWord => .literal (.bool false)
  | .keyword .nilWord => .literal .nil
  | .keyword .thisWord => .this 0 word
  | _ => .reference 0 word

/-- The expression that a list shows whose parts show expressions. -/
@[simp] def Expr.ofParts (head : Token) (parts : List Expr) : Option Expr :=
  match head.kind, parts with
  | .symbol .equal, [.reference _ name, value] => some (.assign 0 name value)
  | .symbol .equal, [.get object name, value] => some (.set object name value)
  | .symbol .dot, [object, .reference _ name] => some (.get object name)
  | .keyword .superWord, [.reference _ method] => some (.super 0 head method)
  | .identifier, first :: others =>
    if head.lexeme = "group" then some (.grouping first)
    else some (.call first (.mark .rightParen) others)
  | .keyword _, [left, right] => some (.logical left head right)
  | _, [operand] => some (.unary head operand)
  | _, [left, right] => some (.binary left head right)
  | _, _ => none

mutual

/-- The expression that a form shows. -/
@[simp] def Expr.ofForm : Form → Option Expr
  | .word text => some (Expr.ofWord (.ofWord text))
  | .list head parts => (Expr.ofForms parts).bind (Expr.ofParts (.ofWord head))
  | .heading _ _ => none

/-- The expressions that forms show, in order. -/
@[simp] def Expr.ofForms : List Form → Option (List Expr)
  | [] => some []
  | first :: rest => do return (← Expr.ofForm first) :: (← Expr.ofForms rest)

end

mutual

/-- The statement that a form shows. -/
@[simp] def Stmt.ofForm : Form → Option Stmt
  | .list ";" [value] => do return .expression (← Expr.ofForm value)
  | .list "print" [value] => do return .print (.word .printWord) (← Expr.ofForm value)
  | .list "var" [.word name] => some (.declare (.ofWord name) none)
  | .list "var" [.word name, value] => do return .declare (.ofWord name) (← Expr.ofForm value)
  | .list "block" body => do return .block (← Stmt.ofForms body)
  | .list "if" [condition, whenTrue] => do
    return .branch (← Expr.ofForm condition) (← Stmt.ofForm whenTrue) none
  | .list "if" [condition, whenTrue, whenFalse] => do
    return .branch (← Expr.ofForm condition) (← Stmt.ofForm whenTrue) (← Stmt.ofForm whenFalse)
  | .list "while" [condition, body] => do
    return .loop (← Expr.ofForm condition) (← Stmt.ofForm body)
  | .list "fun" parts => do return .function (← FunctionDecl.ofParts parts)
  | .list "return" [] => some (.return (.word .returnWord) none)
  | .list "return" [value] => do return .return (.word .returnWord) (← Expr.ofForm value)
  | .list "class" (.word name :: .word _ :: parent :: methods) => do
    return .class (.ofWord name) (← Expr.ofForm parent) (← FunctionDecl.ofForms methods)
  | .list "class" (.word name :: methods) => do
    return .class (.ofWord name) none (← FunctionDecl.ofForms methods)
  | _ => none

/-- The statements that forms show, in order. -/
@[simp] def Stmt.ofForms : List Form → Option (List Stmt)
  | [] => some []
  | first :: rest => do return (← Stmt.ofForm first) :: (← Stmt.ofForms rest)

/-- The function that a heading and a body show. -/
@[simp] def FunctionDecl.ofParts : List Form → Option FunctionDecl
  | [.heading name parameters, .list "block" body] => do
    return .mk (.ofWord name) (parameters.map .ofWord) (← Stmt.ofForms body)
  | _ => none

/-- The methods that forms show, in order. -/
@[simp] def FunctionDecl.ofForms : List Form → Option (List FunctionDecl)
  | [] => some []
  | .list "method" parts :: rest => do
    return (← FunctionDecl.ofParts parts) :: (← FunctionDecl.ofForms rest)
  | _ => none

end

/-! ### Words -/

/-- A word is taken as the token that it stands for, on the first line. -/
theorem Token.ofWord_lexeme {token : Token} (spelled : token.Spelled) :
    Token.ofWord token.lexeme = token.bare := by
  have alone := Piece.cut_lexeme spelled (show Parted [] by simp [Parted])
  have nothing : Piece.cut [] = [] := by rw [Piece.cut]
  rw [List.append_nil, nothing] at alone
  simp [ofWord, wordKind, alone, bare]

/-- A symbol is spelled in one way. -/
theorem Token.Spelled.symbol {token : Token} (spelled : token.Spelled) {mark : Symbol}
    (kind : token.kind = .symbol mark) : token.bare = .mark mark := by
  have unique {text : List Char} (lexeme : Lexeme (.symbol mark) text) :
      text = mark.spelling.toList := by
    cases lexeme
    rfl
  have lexeme := String.toList_inj.mp (unique (kind ▸ spelled : Lexeme _ token.lexeme.toList))
  simp [bare, Token.mark, kind, lexeme]

/-- A reserved word is spelled in one way. -/
theorem Token.Spelled.keyword {token : Token} (spelled : token.Spelled) {word : Keyword}
    (kind : token.kind = .keyword word) : token.bare = .word word := by
  have unique {text : List Char} (lexeme : Lexeme (.keyword word) text) :
      text = word.spelling.toList := by
    cases lexeme
    rfl
  have lexeme := String.toList_inj.mp (unique (kind ▸ spelled : Lexeme _ token.lexeme.toList))
  simp [bare, Token.word, kind, lexeme]

/-- Names and numbers hold no delimiters. -/
theorem not_mem_delimiters {character : Char}
    (inner : (IsInitial character ∨ IsDigit character) ∨ character = '.') :
    character ∉ Form.delimiters := by
  rw [← Piece.continuesName_iff] at inner
  simp only [Form.delimiters, List.mem_cons, List.not_mem_nil, or_false]
  rintro (rfl | rfl | rfl | rfl) <;> exact absurd inner (by decide)

instance (text : String) : Decidable (Form.IsWord text) :=
  decidable_of_iff (text ≠ "" ∧ text.toList.all (· ∉ Form.delimiters) = true)
    (by simp [Form.IsWord])

/-- All lexemes are words, but for strings and parentheses. -/
theorem Lexeme.isWord {kind : Kind} {text : String} (lexeme : Lexeme kind text.toList)
    (string : ∀ contents, kind ≠ .string contents) (opening : kind ≠ .symbol .leftParen)
    (closing : kind ≠ .symbol .rightParen) : Form.IsWord text := by
  refine ⟨fun none => lexeme.ne_nil (by rw [none]; rfl), ?_⟩
  have named {text : List Char} (name : IsName text) :
      ∀ character ∈ text, character ∉ Form.delimiters := by
    obtain ⟨first, rest, rfl, initial, others⟩ := name
    intro character member
    rcases List.mem_cons.mp member with rfl | member
    · exact not_mem_delimiters (.inl (.inl initial))
    · exact not_mem_delimiters (.inl (others character member))
  generalize text.toList = characters at lexeme
  cases kind with
  | symbol mark =>
    cases lexeme
    cases mark with
    | leftParen => exact absurd rfl opening
    | rightParen => exact absurd rfl closing
    | _ => exact (by decide : Form.IsWord (Symbol.spelling _)).2
  | keyword word =>
    cases lexeme
    exact named (Piece.isName_spelling word)
  | identifier =>
    cases lexeme with
    | identifier name _ => exact named name
  | string contents => exact absurd rfl (string contents)
  | number value =>
    intro character member
    exact not_mem_delimiters ((lexeme.number_characters character member).imp_left .inr)
  | eof => exact absurd rfl lexeme.ne_eof

/-- A keyword that is spelled as one is a word. -/
theorem Token.Spelled.isWord_keyword {token : Token} (spelled : token.Spelled) {word : Keyword}
    (kind : token.kind = .keyword word) : Form.IsWord token.lexeme :=
  spelled.isWord (by simp [kind]) (by simp [kind]) (by simp [kind])

/-! ### Legible expressions -/

/-- An identifier that is spelled as one. -/
structure Token.IsName (token : Token) : Prop where
  kind : token.kind = .identifier
  spelled : token.Spelled

/-- A name is a word. -/
theorem Token.IsName.isWord {name : Token} (named : name.IsName) : Form.IsWord name.lexeme :=
  named.spelled.isWord (by simp [named.kind]) (by simp [named.kind]) (by simp [named.kind])

/-- A form that is written as the outline of an expression is read as the bare expression. -/
def Expr.Legible (tree : Expr) : Prop :=
  ∃ form : Form, form.Sound ∧ form.text = tree.outline ∧ Expr.ofForm form = some tree.bare

/-- Forms that are written as the outlines of expressions are read as the bare expressions. -/
def Expr.LegibleAll (trees : List Expr) : Prop :=
  ∃ forms : List Form, Form.SoundAll forms ∧ Form.texts forms = Expr.outlines trees ∧
    Expr.ofForms forms = some (Expr.bareAll trees)

namespace Expr

theorem LegibleAll.nil : LegibleAll [] :=
  ⟨[], trivial, rfl, rfl⟩

/-- Expressions one behind the other are legible if each of them is. -/
theorem LegibleAll.cons {first : Expr} {rest : List Expr} (head : first.Legible)
    (tail : LegibleAll rest) : LegibleAll (first :: rest) := by
  obtain ⟨form, sound, text, read⟩ := head
  obtain ⟨forms, sounds, texts, reads⟩ := tail
  refine ⟨form :: forms, ⟨sound, sounds⟩, ?_, ?_⟩
  · rw [Form.texts, text, texts, outlines]
  · simp [read, reads]

/-- A word is legible if it is taken as the expression that it shows. -/
theorem Legible.word {tree : Expr} {token : Token} (spelled : token.Spelled)
    (shown : Form.IsWord token.lexeme) (written : tree.outline = token.lexeme)
    (taken : Expr.ofWord token.bare = tree.bare) : tree.Legible := by
  refine ⟨.word token.lexeme, shown, written.symm, ?_⟩
  rw [ofForm, Token.ofWord_lexeme spelled, taken]

/-- A list is legible if its parts are. -/
theorem Legible.list {tree : Expr} {head : Token} {parts : List Expr} (spelled : head.Spelled)
    (shown : Form.IsWord head.lexeme) (legible : LegibleAll parts)
    (written : tree.outline = parenthesized head.lexeme (outlines parts))
    (taken : Expr.ofParts head.bare (bareAll parts) = some tree.bare) : tree.Legible := by
  obtain ⟨forms, sound, texts, read⟩ := legible
  refine ⟨.list head.lexeme forms, ⟨shown, sound⟩, ?_, ?_⟩
  · rw [Form.text, texts, written]
  · rw [ofForm, read, Token.ofWord_lexeme spelled]
    exact taken

section Rules

variable {id : Nat} {left right operand callee object value inner : Expr} {arguments : List Expr}
  {operator name keyword method paren : Token}

/-- A literal that is a word is told by its spelling. -/
theorem Legible.literalWord {constant : Literal} {word : Keyword}
    (written : constant.outline = word.spelling)
    (taken : Expr.ofWord (.word word) = .literal constant) : (literal constant).Legible := by
  have spelled : (Token.word word).Spelled := Lexeme.keyword word
  exact .word spelled (spelled.isWord_keyword rfl) written taken

/-- The text of a finite constant is the word of a number. -/
theorem Legible.number {constant : Float} {text : List Char}
    (lexeme : Lexeme (.number constant) text) (finite : Binary64.IsFinite constant) :
    (literal (.number constant)).Legible := by
  obtain ⟨field, below, rfl⟩ := lexeme.exists_field finite
  have spelled : Token.Spelled ⟨.number _, NumberText.literal (Binary64.ofField false field), 1⟩ :=
    NumberText.lexeme_literal below
  exact .word spelled (spelled.isWord (by simp) (by simp) (by simp)) rfl
    (by simp [ofWord, Token.bare])

/-- A variable is told by its name. -/
theorem Legible.reference (named : name.IsName) : (reference id name).Legible :=
  .word named.spelled named.isWord rfl (by simp [ofWord, Token.bare, named.kind])

/-- The keyword `this` is told by its spelling. -/
theorem Legible.this (spelled : keyword.Spelled) (kind : keyword.kind = .keyword .thisWord) :
    (this id keyword).Legible := by
  have word := spelled.keyword kind
  refine .word spelled (spelled.isWord_keyword kind) (congrArg Token.lexeme word).symm ?_
  rw [bare, relabelled, Relabelling.bare_token, word]
  rfl

/-- The heads of groupings and calls are names, though no source need spell them out. -/
theorem isName_head {head : String} (shown : head = "group" ∨ head = "call") :
    (Token.implicit head 1).IsName := by
  refine ⟨rfl, .identifier ?_ ?_⟩
  · rcases shown with rfl | rfl <;>
      exact ⟨_, _, rfl, Piece.startsName_iff.mp rfl, fun character member =>
        Piece.continuesName_iff.mp (List.all_eq_true.mp rfl character member)⟩
  · intro word
    rcases shown with rfl | rfl <;> cases word <;> decide

/-- A grouping is told by its head, and the expression inside follows. -/
theorem Legible.grouping (legible : inner.Legible) : (grouping inner).Legible := by
  have head := isName_head (.inl rfl)
  exact .list head.spelled head.isWord (.cons legible .nil) rfl rfl

/-- A call is told by its head; the callee and the arguments follow. -/
theorem Legible.call (called : callee.Legible) (legible : LegibleAll arguments)
    (spelled : paren.Spelled) (kind : paren.kind = .symbol .rightParen) :
    (call callee paren arguments).Legible := by
  have head := isName_head (.inr rfl)
  refine .list head.spelled head.isWord (.cons called legible) (by rw [outline, outlines]; rfl) ?_
  rw [bare, relabelled, Relabelling.bare_token, spelled.symbol kind]
  rfl

/-- Operators are symbols that mean nothing else in front of parts. -/
theorem symbol_of_operator {kind : Kind} (operator : kind ∈ prefixOperators ++ strictOperators) :
    ∃ mark : Symbol, kind = .symbol mark ∧ mark ∉ [.equal, .dot, .leftParen, .rightParen] := by
  simp only [prefixOperators, strictOperators, Level.operators, List.cons_append, List.nil_append,
    List.mem_cons, List.not_mem_nil, or_false] at operator
  rcases operator with rfl | rfl | rfl | rfl | rfl | rfl | rfl | rfl | rfl | rfl | rfl | rfl <;>
    exact ⟨_, rfl, by decide⟩

/-- The operator is the head of a prefix expression. -/
theorem Legible.unary (spelled : operator.Spelled) (kind : operator.kind ∈ prefixOperators)
    (legible : operand.Legible) : (unary operator operand).Legible := by
  obtain ⟨mark, kind, plain⟩ := symbol_of_operator (List.mem_append_left _ kind)
  refine .list spelled (spelled.isWord ?_ ?_ ?_) (.cons legible .nil) rfl ?_
  all_goals simp_all [Token.bare]

/-- The operator is the head of a binary expression. -/
theorem Legible.binary (spelled : operator.Spelled) (kind : operator.kind ∈ strictOperators)
    (first : left.Legible) (second : right.Legible) : (binary left operator right).Legible := by
  obtain ⟨mark, kind, plain⟩ := symbol_of_operator (List.mem_append_right _ kind)
  refine .list spelled (spelled.isWord ?_ ?_ ?_) (.cons first (.cons second .nil)) rfl ?_
  all_goals simp_all [Token.bare]

/-- The keyword is the head of a logical expression. -/
theorem Legible.logical {word : Keyword} (spelled : operator.Spelled)
    (kind : operator.kind = .keyword word) (first : left.Legible) (second : right.Legible) :
    (logical left operator right).Legible := by
  refine .list spelled (spelled.isWord_keyword kind) (.cons first (.cons second .nil)) rfl ?_
  simp [Token.bare, kind]

/-- Whichever operator of a level it is, the head tells it. -/
theorem Legible.combine {level : Level} (spelled : operator.Spelled)
    (mark : operator.kind ∈ level.operators) (first : left.Legible) (second : right.Legible) :
    (level.combine left operator right).Legible := by
  cases level with
  | disjunction | conjunction => exact .logical spelled (List.mem_singleton.mp mark) first second
  | equality | comparison | sum | product =>
    refine .binary spelled ?_ first second
    simp only [strictOperators, List.mem_append]
    grind

/-- The target of an assignment is shown as the variable or the property that it names. -/
theorem Legible.assign (target : (Expr.reference id name).Legible) (stored : value.Legible) :
    (assign id name value).Legible := by
  have spelled : (Token.mark .equal).Spelled := Lexeme.symbol .equal
  exact .list spelled (by decide) (.cons target (.cons stored .nil)) rfl rfl

/-- The name of a property is read back from its atom. -/
theorem Legible.get (legible : object.Legible) (named : name.IsName) :
    (get object name).Legible := by
  have spelled : (Token.mark .dot).Spelled := Lexeme.symbol .dot
  have property : (Expr.reference 0 name).Legible := .reference named
  exact .list spelled (by decide) (.cons legible (.cons property .nil)) rfl rfl

/-- A property that is set is read like one that is read, with a value behind it. -/
theorem Legible.set (target : (Expr.get object name).Legible) (stored : value.Legible) :
    (set object name value).Legible := by
  have spelled : (Token.mark .equal).Spelled := Lexeme.symbol .equal
  exact .list spelled (by decide) (.cons target (.cons stored .nil)) rfl rfl

/-- The method that is meant by `super` is read back from its atom. -/
theorem Legible.super (spelled : keyword.Spelled) (kind : keyword.kind = .keyword .superWord)
    (named : method.IsName) : (super id keyword method).Legible := by
  have word := spelled.keyword kind
  have property : (Expr.reference 0 method).Legible := .reference named
  refine .list spelled (spelled.isWord_keyword kind) (.cons property .nil) ?_ ?_
  · rw [show keyword.lexeme = "super" from congrArg Token.lexeme word]
    rfl
  · rw [bare, relabelled, Relabelling.bare_token, word]
    rfl

end Rules

end Expr

/-! ### Legible statements -/

/-- A form that is written as the outline of a statement is read as the bare statement. -/
def Stmt.Legible (tree : Stmt) : Prop :=
  ∃ form : Form, form.Sound ∧ form.text = tree.outline ∧ Stmt.ofForm form = some tree.bare

/-- Forms that are written as the outlines of statements are read as the bare statements. -/
def Stmt.LegibleAll (trees : List Stmt) : Prop :=
  ∃ forms : List Form, Form.SoundAll forms ∧ Form.texts forms = Stmt.outlines trees ∧
    Stmt.ofForms forms = some (Stmt.bareAll trees)

/-- Forms that are written, under any label, as the outline of a function are read as the bare
function. -/
def FunctionDecl.Legible (declaration : FunctionDecl) : Prop :=
  ∃ parts : List Form, Form.SoundAll parts ∧
    (∀ label, parenthesized label (Form.texts parts) = declaration.outline label) ∧
    FunctionDecl.ofParts parts = some declaration.bare

/-- Forms that are written as the outlines of methods are read as the bare functions. -/
def FunctionDecl.LegibleAll (declarations : List FunctionDecl) : Prop :=
  ∃ forms : List Form, Form.SoundAll forms ∧
    Form.texts forms = FunctionDecl.outlines declarations ∧
    FunctionDecl.ofForms forms = some (FunctionDecl.bareAll declarations)

namespace Stmt

/-- The outlines of several statements are those of each of them. -/
theorem outlines_eq (trees : List Stmt) : outlines trees = trees.map outline := by
  induction trees with
  | nil => rfl
  | cons first rest inductionHypothesis => rw [outlines, inductionHypothesis, List.map_cons]

theorem LegibleAll.nil : LegibleAll [] :=
  ⟨[], trivial, rfl, rfl⟩

/-- Statements one behind the other are legible if each of them is. -/
theorem LegibleAll.cons {first : Stmt} {rest : List Stmt} (head : first.Legible)
    (tail : LegibleAll rest) : LegibleAll (first :: rest) := by
  obtain ⟨form, sound, text, read⟩ := head
  obtain ⟨forms, sounds, texts, reads⟩ := tail
  refine ⟨form :: forms, ⟨sound, sounds⟩, ?_, ?_⟩
  · rw [Form.texts, text, texts, outlines]
  · simp [read, reads]

section Rules

variable {body whenTrue whenFalse : Stmt} {bodies : List Stmt} {value condition : Expr}
  {initializer result superclass : Option Expr} {keyword name : Token} {declaration : FunctionDecl}
  {methods : List FunctionDecl}

/-- An expression statement is told by its head. -/
theorem Legible.expression (legible : value.Legible) : (expression value).Legible := by
  obtain ⟨form, sound, text, read⟩ := legible
  refine ⟨.list ";" [form], ⟨by decide, sound, trivial⟩, ?_, ?_⟩
  · simp [text]
  · simp [read]

/-- A `print` statement is told by its keyword. -/
theorem Legible.print (spelled : keyword.Spelled) (kind : keyword.kind = .keyword .printWord)
    (legible : value.Legible) : (print keyword value).Legible := by
  obtain ⟨form, sound, text, read⟩ := legible
  refine ⟨.list "print" [form], ⟨by decide, sound, trivial⟩, ?_, ?_⟩
  · simp [text]
  · simp [read, spelled.keyword kind]

/-- A declared variable has its name behind the head, and its initializer if there is one. -/
theorem Legible.declare (named : name.IsName) (legible : ∀ value ∈ initializer, value.Legible) :
    (declare name initializer).Legible := by
  have word := Token.ofWord_lexeme named.spelled
  cases initializer with
  | none =>
    refine ⟨.list "var" [.word name.lexeme], ⟨by decide, named.isWord, trivial⟩, rfl, ?_⟩
    simp [word]
  | some value =>
    obtain ⟨form, sound, text, read⟩ := legible value rfl
    refine ⟨.list "var" [.word name.lexeme, form], ⟨by decide, named.isWord, sound, trivial⟩,
      ?_, ?_⟩
    · simp [text]
    · simp [read, word]

/-- A block has its statements behind the head. -/
theorem Legible.block (legible : LegibleAll bodies) : (block bodies).Legible := by
  obtain ⟨forms, sound, texts, read⟩ := legible
  refine ⟨.list "block" forms, ⟨by decide, sound⟩, ?_, ?_⟩
  · rw [Form.text, texts, outline]
  · simp [read]

/-- A branch without `else` has two parts behind its head. -/
theorem Legible.branch (test : condition.Legible) (first : whenTrue.Legible) :
    (branch condition whenTrue none).Legible := by
  obtain ⟨test, soundTest, textTest, readTest⟩ := test
  obtain ⟨first, soundFirst, textFirst, readFirst⟩ := first
  refine ⟨.list "if" [test, first], ⟨by decide, soundTest, soundFirst, trivial⟩, ?_, ?_⟩
  · simp [textTest, textFirst]
  · simp [readTest, readFirst]

/-- A branch with `else` has three parts behind its head. -/
theorem Legible.branchElse (test : condition.Legible) (first : whenTrue.Legible)
    (second : whenFalse.Legible) : (Stmt.branch condition whenTrue (some whenFalse)).Legible := by
  obtain ⟨test, soundTest, textTest, readTest⟩ := test
  obtain ⟨first, soundFirst, textFirst, readFirst⟩ := first
  obtain ⟨second, soundSecond, textSecond, readSecond⟩ := second
  refine ⟨.list "if" [test, first, second],
    ⟨by decide, soundTest, soundFirst, soundSecond, trivial⟩, ?_, ?_⟩
  · simp [textTest, textFirst, textSecond]
  · simp [readTest, readFirst, readSecond]

/-- A loop has its condition and its body behind the head. -/
theorem Legible.loop (test : condition.Legible) (repeated : body.Legible) :
    (loop condition body).Legible := by
  obtain ⟨test, soundTest, textTest, readTest⟩ := test
  obtain ⟨repeated, soundBody, textBody, readBody⟩ := repeated
  refine ⟨.list "while" [test, repeated], ⟨by decide, soundTest, soundBody, trivial⟩, ?_, ?_⟩
  · simp [textTest, textBody]
  · simp [readTest, readBody]

/-- A function statement is told from a method by where it stands. -/
theorem Legible.function (legible : declaration.Legible) : (function declaration).Legible := by
  obtain ⟨parts, sound, text, read⟩ := legible
  refine ⟨.list "fun" parts, ⟨by decide, sound⟩, ?_, ?_⟩
  · rw [Form.text, text, outline]
  · simp [read]

/-- A `return` statement has its value behind the head if there is one. -/
theorem Legible.return (spelled : keyword.Spelled) (kind : keyword.kind = .keyword .returnWord)
    (legible : ∀ value ∈ result, value.Legible) : (Stmt.return keyword result).Legible := by
  have word := spelled.keyword kind
  cases result with
  | none =>
    refine ⟨.list "return" [], ⟨by decide, trivial⟩, rfl, ?_⟩
    simp [word]
  | some value =>
    obtain ⟨form, sound, text, read⟩ := legible value rfl
    refine ⟨.list "return" [form], ⟨by decide, sound, trivial⟩, ?_, ?_⟩
    · simp [text]
    · simp [read, word]

/-- A class has its name, its superclass if there is one, and its methods behind the head. -/
theorem Legible.class (named : name.IsName) (derived : ∀ parent ∈ superclass, parent.Legible)
    (members : FunctionDecl.LegibleAll methods) :
    (Stmt.class name superclass methods).Legible := by
  have word := Token.ofWord_lexeme named.spelled
  obtain ⟨forms, sounds, texts, reads⟩ := members
  cases superclass with
  | none =>
    refine ⟨.list "class" (.word name.lexeme :: forms), ⟨by decide, named.isWord, sounds⟩, ?_, ?_⟩
    · simp [texts]
    -- Methods are shown as lists, so none is taken for the word in front of a superclass.
    · cases forms with
      | nil => simp_all
      | cons first rest => cases first <;> simp_all
  | some parent =>
    obtain ⟨form, sound, text, read⟩ := derived parent rfl
    refine ⟨.list "class" (.word name.lexeme :: .word "<" :: form :: forms),
      ⟨by decide, named.isWord, (by decide : Form.IsWord "<"), sound, sounds⟩, ?_, ?_⟩
    · simp [text, texts]
    · simp [read, reads, word]

/-- The parts of a `for` loop make a legible statement. -/
theorem Legible.forLoop {clause : Option Stmt} {test increment : Option Expr}
    (first : ∀ tree ∈ clause, tree.Legible) (condition : ∀ value ∈ test, value.Legible)
    (step : ∀ value ∈ increment, value.Legible) (repeated : body.Legible) :
    (Parse.forLoop clause test increment body).Legible := by
  have always : (Expr.literal (.bool true)).Legible :=
    .literalWord (show Literal.outline _ = Keyword.trueWord.spelling from rfl) rfl
  have tested : (test.getD (.literal (.bool true))).Legible := by
    cases test with
    | none => exact always
    | some value => exact condition value rfl
  have looped {inner : Stmt} (legible : inner.Legible) :
      LegibleAll (clause.toList ++ [.loop (test.getD (.literal (.bool true))) inner]) := by
    cases clause with
    | none => exact .cons (.loop tested legible) .nil
    | some tree => exact .cons (first tree rfl) (.cons (.loop tested legible) .nil)
  cases increment with
  | none => exact .block (looped repeated)
  | some value =>
    exact .block (looped (.block (.cons repeated (.cons (.expression (step value rfl)) .nil))))

end Rules

end Stmt

namespace FunctionDecl

theorem LegibleAll.nil : LegibleAll [] :=
  ⟨[], trivial, rfl, rfl⟩

/-- Functions one behind the other are legible if each of them is. -/
theorem LegibleAll.cons {first : FunctionDecl} {rest : List FunctionDecl} (head : first.Legible)
    (tail : LegibleAll rest) : LegibleAll (first :: rest) := by
  obtain ⟨parts, sound, text, read⟩ := head
  obtain ⟨forms, sounds, texts, reads⟩ := tail
  refine ⟨.list "method" parts :: forms, ⟨⟨by decide, sound⟩, sounds⟩, ?_, ?_⟩
  · rw [Form.texts, Form.text, text, texts, outlines]
  · simp [read, reads]

/-- A function is legible if its name, its parameters and its body are. -/
theorem Legible.mk {name : Token} {parameters : List Token} {body : List Stmt}
    (named : name.IsName) (listed : ∀ parameter ∈ parameters, parameter.IsName)
    (legible : Stmt.LegibleAll body) : (FunctionDecl.mk name parameters body).Legible := by
  obtain ⟨forms, sound, texts, read⟩ := legible
  refine ⟨[.heading name.lexeme (parameters.map Token.lexeme), .list "block" forms],
    ⟨⟨named.isWord, ?_⟩, ⟨by decide, sound⟩, trivial⟩, fun label => ?_, ?_⟩
  · simpa using fun parameter member => (listed parameter member).isWord
  · simp [texts]
  · have words : (parameters.map Token.lexeme).map Token.ofWord = parameters.map Token.bare := by
      rw [List.map_map]
      exact List.map_congr_left fun parameter member =>
        Token.ofWord_lexeme (listed parameter member).spelled
    simp [read, words, Token.ofWord_lexeme named.spelled]

end FunctionDecl

end LoxLang

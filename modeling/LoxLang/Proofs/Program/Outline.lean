import LoxLang.Proofs.Program.Joining
import LoxLang.Proofs.Tree.Recovering

/-!
# Programs known from their outlines

Every tree that is read from tokens without strings and with finite numbers is legible. The form
that the outline of a program shows is therefore read as the bare program, and since no other form
is written alike, programs with the same outline are the same but for identities and lines. Strings
are left out: their contents are shown without quotes and may look like anything else.
-/

namespace LoxLang

/-- A kind that an outline shows without loss: no string and no number that is too large. -/
def Kind.IsPlain : Kind → Prop
  | .string _ => False
  | .number value => Binary64.IsFinite value
  | _ => True

instance (kind : Kind) : Decidable kind.IsPlain := by
  unfold Kind.IsPlain
  split <;> infer_instance

/-- What legible trees ask of the tokens that they are read from. -/
def Place.Plain (place : Place) : Prop :=
  ∀ token ∈ place.remaining, token.Spelled ∧ token.kind.IsPlain

namespace Place.Plain

variable {start after : Place} {token : Token} {rest : List Token} {nextId : Nat}

theorem of_suffix (plain : start.Plain) (suffix : after.remaining <:+ start.remaining) :
    after.Plain :=
  fun token member => plain token (suffix.subset member)

theorem tail (plain : Place.Plain ⟨token :: rest, nextId⟩) : Place.Plain ⟨rest, nextId⟩ :=
  plain.of_suffix (List.suffix_cons _ _)

theorem spelled (plain : Place.Plain ⟨token :: rest, nextId⟩) : token.Spelled :=
  (plain token List.mem_cons_self).1

theorem isName (plain : Place.Plain ⟨token :: rest, nextId⟩) (kind : token.kind = .identifier) :
    token.IsName :=
  ⟨kind, plain.spelled⟩

end Place.Plain

/-- The trees of a phrase are legible, those of a rest if the tree before it is. -/
def ExprPhrase.Legible : ExprPhrase → Prop
  | .expression tree => tree.Legible
  | .chain _ tree => tree.Legible
  | .unary tree => tree.Legible
  | .primary tree => tree.Legible
  | .chainRest _ left tree => left.Legible → tree.Legible
  | .accesses object tree => object.Legible → tree.Legible
  | .arguments _ trees => Expr.LegibleAll trees

theorem ExprPhrase.legible_operand {level : Level} {tree : Expr} :
    (ExprPhrase.operand level tree).Legible ↔ tree.Legible := by
  cases level <;> exact Iff.rfl

/-- A reading of an expression makes a legible tree. -/
theorem ExprReads.legible {phrase : ExprPhrase} {start after : Place}
    (reads : ExprReads phrase start after) (plain : start.Plain) : phrase.Legible := by
  induction reads with
  | plain _ _ found => exact found plain
  | assign target _ _ foundTarget foundValue =>
    exact .assign (foundTarget plain) (foundValue (plain.of_suffix target.suffix).tail)
  | set target _ _ foundTarget foundValue =>
    exact .set (foundTarget plain) (foundValue (plain.of_suffix target.suffix).tail)
  | chain operand _ foundOperand foundRest =>
    exact foundRest (plain.of_suffix operand.suffix)
      (ExprPhrase.legible_operand.mp (foundOperand plain))
  | chainEnd _ | accessesEnd _ _ => exact id
  | chainMore mark operand _ foundOperand foundMore =>
    intro left
    have right := ExprPhrase.legible_operand.mp (foundOperand plain.tail)
    exact foundMore (plain.tail.of_suffix operand.suffix) (.combine plain.spelled mark left right)
  | prefixed mark _ found =>
    refine .unary plain.spelled ?_ (found plain.tail)
    rcases mark with mark | mark <;> simp [mark, prefixOperators]
  | accessed head _ foundHead foundMore =>
    exact foundMore (plain.of_suffix head.suffix) (foundHead plain)
  | call _ list closes _ foundList foundMore =>
    intro object
    have closing := plain.tail.of_suffix list.suffix
    exact foundMore closing.tail (.call object (foundList plain.tail) closing.spelled closes)
  | callEmpty _ closes _ found =>
    exact fun object => found plain.tail.tail (.call object .nil plain.tail.spelled closes)
  | property _ named _ found =>
    exact fun object => found plain.tail.tail (.get object (plain.tail.isName named))
  | lastArgument _ _ _ found | trailingArgument _ _ _ _ found => exact .cons (found plain) .nil
  | moreArguments _ entry _ _ foundEntry foundMore =>
    exact .cons (foundEntry plain) (foundMore (plain.of_suffix entry.suffix).tail)
  | falseLiteral _ =>
    exact .literalWord (show Literal.outline _ = Keyword.falseWord.spelling from rfl) rfl
  | trueLiteral _ =>
    exact .literalWord (show Literal.outline _ = Keyword.trueWord.spelling from rfl) rfl
  | nilLiteral _ =>
    exact .literalWord (show Literal.outline _ = Keyword.nilWord.spelling from rfl) rfl
  | number mark =>
    obtain ⟨lexeme, finite⟩ := plain _ List.mem_cons_self
    rw [Token.Spelled, mark] at lexeme
    rw [mark] at finite
    exact .number lexeme finite
  | string mark =>
    have shown := (plain _ List.mem_cons_self).2
    rw [mark] at shown
    exact shown.elim
  | this mark => exact .this plain.spelled mark
  | super mark _ named => exact .super plain.spelled mark (plain.tail.tail.isName named)
  | reference mark => exact .reference (plain.isName mark)
  | group _ _ _ found => exact .grouping (found plain.tail)

/-- The trees of a phrase are legible. -/
def StmtPhrase.Legible : StmtPhrase → Prop
  | .optional _ value => ∀ tree ∈ value, tree.Legible
  | .variable tree => tree.Legible
  | .simple tree => tree.Legible
  | .initializer clause => ∀ tree ∈ clause, tree.Legible
  | .parameters _ names => ∀ name ∈ names, name.IsName
  | .routine tree => tree.Legible
  | .superclass parent => ∀ tree ∈ parent, tree.Legible
  | .methods trees => FunctionDecl.LegibleAll trees
  | .declaration tree => tree.Legible
  | .statement tree => tree.Legible
  | .block trees => Stmt.LegibleAll trees
  | .program trees => Stmt.LegibleAll trees

/-- A reading of a statement or of a program makes legible trees. -/
theorem StmtReads.legible {phrase : StmtPhrase} {start after : Place}
    (reads : StmtReads phrase start after) (plain : start.Plain) : phrase.Legible := by
  induction reads with
  | absent _ | noInitializer _ | noSuperclass _ => exact fun _ => nofun
  | methodsEnd _ | blockEnd _ | programEnd => exact .nil
  | present _ inner => exact fun | _, rfl => inner.legible plain
  | undefined known _ => exact .declare (plain.isName known) fun _ => nofun
  | initialized known _ inner _ =>
    exact .declare (plain.isName known) fun | _, rfl => inner.legible plain.tail.tail
  | simple inner _ => exact .expression (inner.legible plain)
  | variableInitializer _ _ found => exact fun | _, rfl => found plain.tail
  | simpleInitializer _ found => exact fun | _, rfl => found plain
  | lastParameter _ known _ | trailingParameter _ known _ _ =>
    simpa [StmtPhrase.Legible] using plain.isName known
  | moreParameters _ known _ _ found =>
    exact List.forall_mem_cons.mpr ⟨plain.isName known, found plain.tail.tail⟩
  | routine known _ list _ _ _ foundList foundBody =>
    exact .mk (plain.isName known) (foundList plain.tail.tail)
      (foundBody (plain.tail.tail.of_suffix list.suffix).tail.tail)
  | routineEmpty known _ _ _ _ found =>
    exact .mk (plain.isName known) (List.forall_mem_nil _) (found plain.tail.tail.tail.tail)
  | superclass _ known => exact fun | _, rfl => .reference (plain.tail.isName known)
  | methodsMore head _ foundHead foundMore =>
    exact .cons (foundHead plain) (foundMore (plain.of_suffix head.suffix))
  | «class» _ known derived _ _ _ foundParent foundMembers =>
    exact .class (plain.tail.isName known) (foundParent plain.tail.tail)
      (foundMembers (plain.tail.tail.of_suffix derived.suffix).tail)
  | function _ _ found => exact .function (found plain.tail)
  | variableDeclaration _ _ found => exact found plain.tail
  | plain _ found => exact found plain
  | «for» _ _ first condition _ step _ _ foundFirst foundTest foundStep foundBody =>
    have atTest := plain.tail.tail.of_suffix first.suffix
    have atStep := (atTest.of_suffix condition.suffix).tail
    exact .forLoop (foundFirst plain.tail.tail) (foundTest atTest) (foundStep atStep)
      (foundBody (atStep.of_suffix step.suffix).tail)
  | «if» _ _ condition _ _ _ found =>
    exact .branch (condition.legible plain.tail.tail)
      (found (plain.tail.tail.of_suffix condition.suffix).tail)
  | ifElse _ _ condition _ inner _ _ foundInner foundOuter =>
    have atInner := (plain.tail.tail.of_suffix condition.suffix).tail
    exact .branchElse (condition.legible plain.tail.tail) (foundInner atInner)
      (foundOuter (atInner.of_suffix inner.suffix).tail)
  | print mark inner _ => exact .print plain.spelled mark (inner.legible plain.tail)
  | «return» mark _ _ found => exact .return plain.spelled mark (found plain.tail)
  | «while» _ _ condition _ _ found =>
    exact .loop (condition.legible plain.tail.tail)
      (found (plain.tail.tail.of_suffix condition.suffix).tail)
  | block _ _ found => exact .block (found plain.tail)
  | expression _ found => exact found plain
  | blockMore head _ foundHead foundMore | programMore head _ foundHead foundMore =>
    exact .cons (foundHead plain) (foundMore (plain.of_suffix head.suffix))

/-- A source that is read without a diagnostic, from plain tokens, is read as legible statements. -/
theorem Program.legible {source : String} {firstId : Nat}
    (read : (ofSource source firstId).diagnostics = [])
    (plain : ∀ token ∈ scannedTokens (scan source), token.kind.IsPlain) :
    Stmt.LegibleAll (ofSource source firstId).statements := by
  refine (reads_of_read read).2.legible fun token member => ?_
  have listed : token ∈ scannedTokens (scan source) := by
    rw [← takeWhile_scannedTokens] at member
    exact List.takeWhile_subset _ member
  exact ⟨spelled_of_mem_sourceTokens member, plain token listed⟩

/-- Legible statements with the same outline are the same but for identities and lines. -/
theorem Stmt.LegibleAll.bareAll_eq {trees others : List Stmt} (legible : LegibleAll trees)
    (legibleToo : LegibleAll others) (same : outlineProgram trees = outlineProgram others) :
    bareAll trees = bareAll others := by
  obtain ⟨forms, sound, texts, read⟩ := legible
  obtain ⟨formsToo, soundToo, textsToo, readToo⟩ := legibleToo
  have lines : "\n".intercalate (forms.map Form.text) =
      "\n".intercalate (formsToo.map Form.text) := by
    rw [← Form.texts_eq, ← Form.texts_eq, texts, textsToo, outlines_eq, outlines_eq]
    exact same
  obtain rfl := Form.lines_unique (Form.soundAll_iff.mp sound) (Form.soundAll_iff.mp soundToo) lines
  exact Option.some.inj (read.symm.trans readToo)

/-- Two sources without strings and without numbers that are too large, both read without a
diagnostic, that have the same outline are read as the same program but for identities and lines. -/
theorem outline_determines {first second : String} {firstId secondId : Nat}
    (readFirst : (Program.ofSource first firstId).diagnostics = [])
    (readSecond : (Program.ofSource second secondId).diagnostics = [])
    (plainFirst : ∀ token ∈ scannedTokens (scan first), token.kind.IsPlain)
    (plainSecond : ∀ token ∈ scannedTokens (scan second), token.kind.IsPlain)
    (same : outlineProgram (Program.ofSource first firstId).statements =
      outlineProgram (Program.ofSource second secondId).statements) :
    Stmt.bareAll (Program.ofSource first firstId).statements =
      Stmt.bareAll (Program.ofSource second secondId).statements :=
  (Program.legible readFirst plainFirst).bareAll_eq (Program.legible readSecond plainSecond) same

/-- Loops and argument lists that are written in different ways but mean the same. -/
theorem outline_determines_rewritten :
    let first := "class A < B \x7b m(x, y) \x7b this.p = x or super.m(1.50); \x7d \x7d\n" ++
      "\x7b while (true) print -a; \x7d"
    let second := "class A<B\x7bm(x,y,)\x7bthis.p=x or super.m(1.5,);\x7d\x7dfor(;;)print-a;"
    let shown := "(class A < B (method m(x y) (block (; (= (. this p) " ++
      "(or x (call (super m) 1.5)))))))\n(block (while true (print (- a))))"
    outlineProgram (Program.ofSource first 0).statements = shown ∧
      outlineProgram (Program.ofSource second 5).statements = shown ∧
      Stmt.bareAll (Program.ofSource first 0).statements =
        Stmt.bareAll (Program.ofSource second 5).statements := by
  intro first second shown
  have readFirst : (Program.ofSource first 0).diagnostics = [] := by decide +kernel
  have readSecond : (Program.ofSource second 5).diagnostics = [] := by decide +kernel
  have plainFirst : ∀ token ∈ scannedTokens (scan first), token.kind.IsPlain := by decide +kernel
  have plainSecond : ∀ token ∈ scannedTokens (scan second), token.kind.IsPlain := by decide +kernel
  have outlineFirst : outlineProgram (Program.ofSource first 0).statements = shown := by
    decide +kernel
  have outlineSecond : outlineProgram (Program.ofSource second 5).statements = shown := by
    decide +kernel
  exact ⟨outlineFirst, outlineSecond, outline_determines readFirst readSecond plainFirst plainSecond
    (outlineFirst.trans outlineSecond.symm)⟩

/-- A string is shown like the name that it spells. -/
example : outlineProgram (Program.ofSource "print \"a\";" 0).statements =
    outlineProgram (Program.ofSource "print a;" 0).statements := by
  decide +kernel

end LoxLang

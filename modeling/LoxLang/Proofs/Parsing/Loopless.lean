import LoxLang.Proofs.Parsing.Sound

/-!
# Programs without loops

Only `while` and `for` make a tree with a loop in it. So whatever is read from tokens without these
keywords is loopless: its statements and the bodies of all functions and methods in it.
-/

namespace LoxLang

mutual

/-- A statement without a loop, at whatever depth and in whatever function. -/
def Stmt.Loopless : Stmt → Prop
  | .expression _ => True
  | .print _ _ => True
  | .declare _ _ => True
  | .block body => Stmt.LooplessAll body
  | .branch _ whenTrue none => whenTrue.Loopless
  | .branch _ whenTrue (some whenFalse) => whenTrue.Loopless ∧ whenFalse.Loopless
  | .loop _ _ => False
  | .function declaration => declaration.Loopless
  | .return _ _ => True
  | .class _ _ methods => FunctionDecl.LooplessAll methods

/-- Several statements without loops. -/
def Stmt.LooplessAll : List Stmt → Prop
  | [] => True
  | first :: rest => first.Loopless ∧ Stmt.LooplessAll rest

/-- A function without loops. -/
def FunctionDecl.Loopless : FunctionDecl → Prop
  | .mk _ _ body => Stmt.LooplessAll body

/-- Several functions without loops. -/
def FunctionDecl.LooplessAll : List FunctionDecl → Prop
  | [] => True
  | first :: rest => first.Loopless ∧ FunctionDecl.LooplessAll rest

end

theorem Stmt.LooplessAll.of_mem {statements : List Stmt} (loopless : Stmt.LooplessAll statements)
    {statement : Stmt} (member : statement ∈ statements) : statement.Loopless := by
  induction statements with
  | nil => cases member
  | cons first rest inductionHypothesis =>
    cases member with
    | head => exact loopless.1
    | tail _ later => exact inductionHypothesis loopless.2 later

theorem FunctionDecl.Loopless.body {declaration : FunctionDecl} (loopless : declaration.Loopless) :
    Stmt.LooplessAll declaration.body := by
  obtain ⟨name, parameters, body⟩ := declaration
  exact loopless

theorem FunctionDecl.LooplessAll.of_mem {declarations : List FunctionDecl}
    (loopless : FunctionDecl.LooplessAll declarations) {declaration : FunctionDecl}
    (member : declaration ∈ declarations) : declaration.Loopless := by
  induction declarations with
  | nil => cases member
  | cons first rest inductionHypothesis =>
    cases member with
    | head => exact loopless.1
    | tail _ later => exact inductionHypothesis loopless.2 later

/-- A token that starts a loop. -/
def Token.startsLoop (token : Token) : Bool :=
  token.kind = .keyword .whileWord || token.kind = .keyword .forWord

/-- No loop can start behind a place. -/
def Place.Loopless (place : Place) : Prop :=
  ∀ token ∈ place.remaining, token.startsLoop = false

namespace Place.Loopless

variable {start after : Place} {token : Token} {rest : List Token} {nextId : Nat}

theorem of_suffix (loopless : start.Loopless) (suffix : after.remaining <:+ start.remaining) :
    after.Loopless :=
  fun token member => loopless token (suffix.subset member)

theorem tail (loopless : Place.Loopless ⟨token :: rest, nextId⟩) :
    Place.Loopless ⟨rest, nextId⟩ :=
  loopless.of_suffix (List.suffix_cons _ _)

theorem head (loopless : Place.Loopless ⟨token :: rest, nextId⟩) : token.startsLoop = false :=
  loopless token List.mem_cons_self

end Place.Loopless

/-- The trees of a phrase are loopless. -/
def StmtPhrase.Loopless : StmtPhrase → Prop
  | .variable tree => tree.Loopless
  | .simple tree => tree.Loopless
  | .routine tree => tree.Loopless
  | .methods trees => FunctionDecl.LooplessAll trees
  | .declaration tree => tree.Loopless
  | .statement tree => tree.Loopless
  | .block trees => Stmt.LooplessAll trees
  | .program trees => Stmt.LooplessAll trees
  | _ => True

/-- A reading of tokens among which no loop starts makes loopless trees. -/
theorem StmtReads.loopless {phrase : StmtPhrase} {start after : Place}
    (reads : StmtReads phrase start after) (plain : start.Loopless) : phrase.Loopless := by
  induction reads with
  | routine _ _ list _ _ _ _ foundBody =>
    exact foundBody (plain.tail.tail.of_suffix list.suffix).tail.tail
  | routineEmpty _ _ _ _ _ found => exact found plain.tail.tail.tail.tail
  | methodsMore head _ foundHead foundMore =>
    exact ⟨foundHead plain, foundMore (plain.of_suffix head.suffix)⟩
  | «class» _ _ derived _ _ _ _ foundMembers =>
    exact foundMembers (plain.tail.tail.of_suffix derived.suffix).tail
  | function _ _ found => exact found plain.tail
  | variableDeclaration _ _ found => exact found plain.tail
  | plain _ found => exact found plain
  | «for» mark =>
    have absent := plain.head
    simp [Token.startsLoop, mark] at absent
  | «while» mark =>
    have absent := plain.head
    simp [Token.startsLoop, mark] at absent
  | «if» _ _ condition _ _ _ found =>
    exact found (plain.tail.tail.of_suffix condition.suffix).tail
  | ifElse _ _ condition _ inner _ _ foundInner foundOuter =>
    have atInner := (plain.tail.tail.of_suffix condition.suffix).tail
    exact ⟨foundInner atInner, foundOuter (atInner.of_suffix inner.suffix).tail⟩
  | block _ _ found => exact found plain.tail
  | expression _ found => exact found plain
  | blockMore head _ foundHead foundMore | programMore head _ foundHead foundMore =>
    exact ⟨foundHead plain, foundMore (plain.of_suffix head.suffix)⟩
  | _ => trivial

/-- Tokens among which no loop starts are parsed as loopless statements, if there is no violation.
-/
theorem parse_loopless {tokens : List Token} {firstId : Nat}
    (clean : (parse tokens firstId).errors = [])
    (plain : ∀ token ∈ tokens, token.startsLoop = false) :
    Stmt.LooplessAll (parse tokens firstId).statements := by
  apply (parse_reads clean).loopless
  intro token member
  exact plain token (List.takeWhile_subset _ member)

end LoxLang

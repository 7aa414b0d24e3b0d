import Mathlib.Data.List.Forall2
import LoxLang.Tree

/-!
# Trees that differ in identities and spellings

Two trees match if they differ only in the identities of their occurrences and, in some scopes, in
the spelling of names. A `Correspondence` says which identities stand for each other, to which scope
an occurrence refers, and how names are exchanged in the scopes that are *marked*. A name is
respelled where it is declared in a marked scope and wherever an occurrence refers to that scope;
everything else is the same in both trees.
-/

namespace LoxLang

/-- How two trees correspond to each other. -/
structure Correspondence where
  /-- The identities of the one tree and of the other that stand for each other. -/
  ids : Nat → Nat → Prop
  /-- How many scopes further out an occurrence of the one tree refers to, if it is local. -/
  address? : Nat → Option Nat
  /-- How names are exchanged in marked scopes. -/
  swap : String → String
  /-- The names that may occur at all. -/
  visible : String → Prop
  /-- An identity stands for one identity only. -/
  oneToOne : ∀ {id other second image}, ids id other → ids second image →
    (id = second ↔ other = image)
  involutive : ∀ name, swap (swap name) = name
  /-- A name is exchanged only with one that does not occur. -/
  hidden : ∀ name, visible name → swap name = name ∨ ¬ visible (swap name)
  swap_this : swap "this" = "this"
  visible_this : visible "this"
  visible_super : visible "super"

namespace Correspondence

/-- Whether names are the same everywhere, and all of them may occur. -/
structure Transparent (correspondence : Correspondence) : Prop where
  swap : ∀ name, correspondence.swap name = name
  visible : ∀ name, correspondence.visible name

/-- How a name of a scope is spelled in the other tree. -/
def spelling (correspondence : Correspondence) (mark : Bool) (name : String) : String :=
  if mark then correspondence.swap name else name

/-- How a token that names something of a scope is spelled in the other tree. -/
def respelled (correspondence : Correspondence) (mark : Bool) (name : Token) : Token :=
  { name with lexeme := correspondence.spelling mark name.lexeme }

/-- Whether an occurrence refers to a marked scope. -/
def markAt (correspondence : Correspondence) (marks : List Bool) (id : Nat) : Bool :=
  ((correspondence.address? id).bind fun distance => marks[distance]?).getD false

/-- A name as it is declared in the innermost scope of the one tree and of the other. -/
structure Declares (correspondence : Correspondence) (marks : List Bool) (name other : Token) :
    Prop where
  visible : correspondence.visible name.lexeme
  spelled : other = correspondence.respelled (marks.headD false) name

/-- Two occurrences of a name that stand for each other. -/
structure Occurs (correspondence : Correspondence) (marks : List Bool) (id : Nat) (name : Token)
    (otherId : Nat) (other : Token) : Prop where
  ids : correspondence.ids id otherId
  visible : correspondence.visible name.lexeme
  spelled : other = correspondence.respelled (correspondence.markAt marks id) name

variable {correspondence : Correspondence}

/-- An unmarked name is spelled as it was. -/
@[simp] theorem spelling_false (name : String) : correspondence.spelling false name = name :=
  rfl

/-- An unmarked token stays. -/
@[simp] theorem respelled_false (name : Token) : correspondence.respelled false name = name :=
  rfl

/-- A respelled token stays on its line. -/
@[simp] theorem respelled_line (mark : Bool) (name : Token) :
    (correspondence.respelled mark name).line = name.line :=
  rfl

/-- The lexeme of a respelled token is the respelled lexeme. -/
@[simp] theorem respelled_lexeme (mark : Bool) (name : Token) :
    (correspondence.respelled mark name).lexeme = correspondence.spelling mark name.lexeme :=
  rfl

/-- The name `this` is never respelled. -/
@[simp] theorem spelling_this (mark : Bool) : correspondence.spelling mark "this" = "this" := by
  cases mark with
  | false => rfl
  | true => exact correspondence.swap_this

/-- Different names of a scope stay different. -/
theorem spelling_inj {mark : Bool} {name other : String} :
    correspondence.spelling mark name = correspondence.spelling mark other ↔ name = other := by
  constructor
  · intro same
    cases mark with
    | false => exact same
    | true =>
      have twice := congrArg correspondence.swap same
      simpa [spelling, correspondence.involutive] using twice
  · rintro rfl
    rfl

/-- Names of different scopes that are not the same stay different. -/
theorem eq_of_spelling {mark further : Bool} {name other : String}
    (visible : correspondence.visible name) (also : correspondence.visible other)
    (same : correspondence.spelling mark name = correspondence.spelling further other) :
    name = other := by
  cases mark with
  | true =>
    cases further with
    | true => exact spelling_inj.mp same
    | false =>
      have swapped : correspondence.swap name = other := same
      rcases correspondence.hidden name visible with kept | gone
      · exact kept.symm.trans swapped
      · exact absurd (swapped ▸ also) gone
  | false =>
    cases further with
    | false => exact same
    | true =>
      have swapped : name = correspondence.swap other := same
      rcases correspondence.hidden other also with kept | gone
      · exact swapped.trans kept
      · exact absurd (swapped ▸ visible) gone

/-- A correspondence that renames nothing spells all names as they were. -/
theorem Transparent.spelling (transparent : correspondence.Transparent) (mark : Bool)
    (name : String) : correspondence.spelling mark name = name := by
  cases mark with
  | false => rfl
  | true => exact transparent.swap name

/-- A correspondence that renames nothing leaves all tokens. -/
theorem Transparent.respelled (transparent : correspondence.Transparent) (mark : Bool)
    (name : Token) : correspondence.respelled mark name = name := by
  simp [Correspondence.respelled, transparent.spelling]

end Correspondence

mutual

/-- Expressions that differ only as a correspondence says. -/
def Expr.Matches (correspondence : Correspondence) (marks : List Bool) : Expr → Expr → Prop
  | .literal value, other => other = .literal value
  | .grouping inner, other =>
    ∃ image, other = .grouping image ∧ inner.Matches correspondence marks image
  | .unary operator operand, other =>
    ∃ image, other = .unary operator image ∧ operand.Matches correspondence marks image
  | .binary left operator right, other =>
    ∃ first second, other = .binary first operator second ∧
      left.Matches correspondence marks first ∧ right.Matches correspondence marks second
  | .logical left operator right, other =>
    ∃ first second, other = .logical first operator second ∧
      left.Matches correspondence marks first ∧ right.Matches correspondence marks second
  | .reference id name, other =>
    ∃ otherId image, other = .reference otherId image ∧
      correspondence.Occurs marks id name otherId image
  | .assign id name value, other =>
    ∃ otherId image given, other = .assign otherId image given ∧
      correspondence.Occurs marks id name otherId image ∧
      value.Matches correspondence marks given
  | .call callee paren arguments, other =>
    ∃ image others, other = .call image paren others ∧
      callee.Matches correspondence marks image ∧
      Expr.MatchesAll correspondence marks arguments others
  | .get object name, other =>
    ∃ image, other = .get image name ∧ object.Matches correspondence marks image
  | .set object name value, other =>
    ∃ image given, other = .set image name given ∧ object.Matches correspondence marks image ∧
      value.Matches correspondence marks given
  | .this id keyword, other =>
    ∃ otherId image, other = .this otherId image ∧
      correspondence.Occurs marks id keyword otherId image
  | .super id keyword method, other =>
    ∃ otherId image, other = .super otherId image method ∧
      correspondence.Occurs marks id keyword otherId image

/-- Equally many expressions that match each other. -/
def Expr.MatchesAll (correspondence : Correspondence) (marks : List Bool) :
    List Expr → List Expr → Prop
  | [], others => others = []
  | first :: rest, others =>
    ∃ image images, others = image :: images ∧ first.Matches correspondence marks image ∧
      Expr.MatchesAll correspondence marks rest images

end

/-- Expressions that match each other, if there are any. -/
def Expr.MatchesOptional (correspondence : Correspondence) (marks : List Bool) :
    Option Expr → Option Expr → Prop
  | none, other => other = none
  | some value, other => ∃ image, other = some image ∧ value.Matches correspondence marks image

mutual

/-- Statements that differ only as a correspondence says, with one mark for each scope around
them. -/
def Stmt.Matches (correspondence : Correspondence) (marks : List Bool) : Stmt → Stmt → Prop
  | .expression value, other =>
    ∃ image, other = .expression image ∧ value.Matches correspondence marks image
  | .print keyword value, other =>
    ∃ image, other = .print keyword image ∧ value.Matches correspondence marks image
  | .declare name initializer, other =>
    ∃ spelled image, other = .declare spelled image ∧
      correspondence.Declares marks name spelled ∧
      Expr.MatchesOptional correspondence marks initializer image
  | .block body, other =>
    ∃ mark images, other = .block images ∧
      Stmt.MatchesAll correspondence (mark :: marks) body images
  | .branch condition whenTrue none, other =>
    ∃ test image, other = .branch test image none ∧
      condition.Matches correspondence marks test ∧ whenTrue.Matches correspondence marks image
  | .branch condition whenTrue (some whenFalse), other =>
    ∃ test image otherwise, other = .branch test image (some otherwise) ∧
      condition.Matches correspondence marks test ∧ whenTrue.Matches correspondence marks image ∧
      whenFalse.Matches correspondence marks otherwise
  | .loop condition body, other =>
    ∃ test image, other = .loop test image ∧ condition.Matches correspondence marks test ∧
      body.Matches correspondence marks image
  | .function declaration, other =>
    ∃ image, other = .function image ∧
      correspondence.Declares marks declaration.name declaration.name ∧
      declaration.Matches correspondence marks image
  | .return keyword value, other =>
    ∃ image, other = .return keyword image ∧
      Expr.MatchesOptional correspondence marks value image
  | .class name none methods, other =>
    ∃ images, other = .class name none images ∧ correspondence.Declares marks name name ∧
      FunctionDecl.MatchesAll correspondence (false :: marks) methods images
  | .class name (some superclass) methods, other =>
    ∃ parent images, other = .class name (some parent) images ∧
      correspondence.Declares marks name name ∧
      superclass.Matches correspondence marks parent ∧
      FunctionDecl.MatchesAll correspondence (false :: false :: marks) methods images
termination_by structural statement => statement

/-- Equally many statements that match each other. -/
def Stmt.MatchesAll (correspondence : Correspondence) (marks : List Bool) :
    List Stmt → List Stmt → Prop
  | [], others => others = []
  | first :: rest, others =>
    ∃ image images, others = image :: images ∧ first.Matches correspondence marks image ∧
      Stmt.MatchesAll correspondence marks rest images
termination_by structural statements => statements

/-- Functions of the same name that match each other; the scope of the parameters and that of the
body may be marked. -/
def FunctionDecl.Matches (correspondence : Correspondence) (marks : List Bool) :
    FunctionDecl → FunctionDecl → Prop
  | .mk name parameters body, other =>
    ∃ outer inner images,
      other = .mk name (parameters.map (correspondence.respelled outer)) images ∧
      (∀ parameter ∈ parameters, correspondence.visible parameter.lexeme) ∧
      Stmt.MatchesAll correspondence (inner :: outer :: marks) body images
termination_by structural declaration => declaration

/-- Equally many functions that match each other. -/
def FunctionDecl.MatchesAll (correspondence : Correspondence) (marks : List Bool) :
    List FunctionDecl → List FunctionDecl → Prop
  | [], others => others = []
  | first :: rest, others =>
    ∃ image images, others = image :: images ∧ first.Matches correspondence marks image ∧
      FunctionDecl.MatchesAll correspondence marks rest images
termination_by structural declarations => declarations

end

section

variable {correspondence : Correspondence} {marks : List Bool}

/-- Matching functions have one name. -/
theorem FunctionDecl.Matches.name {declaration image : FunctionDecl}
    (matching : declaration.Matches correspondence marks image) :
    image.name = declaration.name := by
  obtain ⟨name, parameters, body⟩ := declaration
  obtain ⟨_, _, _, rfl, _⟩ := matching
  rfl

/-- Matching functions take equally many arguments. -/
theorem FunctionDecl.Matches.parameters {declaration image : FunctionDecl}
    (matching : declaration.Matches correspondence marks image) :
    ∃ outer inner, image.parameters = declaration.parameters.map (correspondence.respelled outer) ∧
      Stmt.MatchesAll correspondence (inner :: outer :: marks) declaration.body image.body := by
  obtain ⟨name, parameters, body⟩ := declaration
  obtain ⟨outer, inner, images, rfl, _, bodies⟩ := matching
  exact ⟨outer, inner, rfl, bodies⟩

/-- Matching lists of expressions match one by one. -/
theorem Expr.MatchesAll.forall₂ {expressions images : List Expr}
    (matching : Expr.MatchesAll correspondence marks expressions images) :
    List.Forall₂ (Expr.Matches correspondence marks) expressions images := by
  induction expressions generalizing images with
  | nil =>
    obtain rfl : images = [] := matching
    exact .nil
  | cons first rest inductionHypothesis =>
    obtain ⟨image, others, rfl, head, tail⟩ := matching
    exact .cons head (inductionHypothesis tail)

/-- Matching optional expressions are both absent or match. -/
theorem Expr.MatchesOptional.rel {value image : Option Expr}
    (matching : Expr.MatchesOptional correspondence marks value image) :
    Option.Rel (Expr.Matches correspondence marks) value image := by
  cases value with
  | none =>
    obtain rfl : image = none := matching
    exact .none
  | some value =>
    obtain ⟨other, rfl, like⟩ := matching
    exact .some like

/-- Matching lists of statements match one by one. -/
theorem Stmt.MatchesAll.forall₂ {statements images : List Stmt}
    (matching : Stmt.MatchesAll correspondence marks statements images) :
    List.Forall₂ (Stmt.Matches correspondence marks) statements images := by
  induction statements generalizing images with
  | nil =>
    obtain rfl : images = [] := matching
    exact .nil
  | cons first rest inductionHypothesis =>
    obtain ⟨image, others, rfl, head, tail⟩ := matching
    exact .cons head (inductionHypothesis tail)

/-- Matching lists of functions match one by one. -/
theorem FunctionDecl.MatchesAll.forall₂ {declarations images : List FunctionDecl}
    (matching : FunctionDecl.MatchesAll correspondence marks declarations images) :
    List.Forall₂ (FunctionDecl.Matches correspondence marks) declarations images := by
  induction declarations generalizing images with
  | nil =>
    obtain rfl : images = [] := matching
    exact .nil
  | cons first rest inductionHypothesis =>
    obtain ⟨image, others, rfl, head, tail⟩ := matching
    exact .cons head (inductionHypothesis tail)

end

namespace Correspondence

/-- A later correspondence relates further identities and leaves the earlier ones as they are. -/
structure Extends (correspondence later : Correspondence) : Prop where
  ids : ∀ id other, correspondence.ids id other → later.ids id other
  address? : ∀ id other, correspondence.ids id other →
    later.address? id = correspondence.address? id
  swap : later.swap = correspondence.swap
  visible : later.visible = correspondence.visible

variable {correspondence later : Correspondence} (extension : correspondence.Extends later)
include extension

/-- An extended correspondence spells as before. -/
theorem Extends.spelling (mark : Bool) (name : String) :
    later.spelling mark name = correspondence.spelling mark name := by
  unfold Correspondence.spelling
  rw [extension.swap]

/-- An extended correspondence respells tokens as before. -/
theorem Extends.respelled (mark : Bool) (name : Token) :
    later.respelled mark name = correspondence.respelled mark name := by
  unfold Correspondence.respelled
  rw [extension.spelling]

/-- A declaration stays one under an extended correspondence. -/
theorem Extends.declares {marks : List Bool} {name other : Token}
    (declares : correspondence.Declares marks name other) : later.Declares marks name other where
  visible := extension.visible ▸ declares.visible
  spelled := (extension.respelled _ name).symm ▸ declares.spelled

/-- An extended correspondence renames nothing if the shorter one does not. -/
theorem Extends.transparent (transparent : correspondence.Transparent) : later.Transparent where
  swap := extension.swap ▸ transparent.swap
  visible := extension.visible ▸ transparent.visible

/-- An occurrence stays one under an extended correspondence. -/
theorem Extends.occurs {marks : List Bool} {id otherId : Nat} {name other : Token}
    (occurs : correspondence.Occurs marks id name otherId other) :
    later.Occurs marks id name otherId other where
  ids := extension.ids id otherId occurs.ids
  visible := extension.visible ▸ occurs.visible
  spelled := by
    unfold markAt
    rw [extension.respelled, extension.address? id otherId occurs.ids]
    exact occurs.spelled

end Correspondence

section Extended

variable {correspondence later : Correspondence}

mutual

/-- Matching expressions match under every later correspondence. -/
theorem Expr.matches_extend (extension : correspondence.Extends later) {marks : List Bool} :
    ∀ (expression : Expr) {image : Expr}, expression.Matches correspondence marks image →
      expression.Matches later marks image
  | .literal _, _, same => same
  | .grouping inner, _, ⟨image, same, matching⟩ =>
    ⟨image, same, inner.matches_extend extension matching⟩
  | .unary _ operand, _, ⟨image, same, matching⟩ =>
    ⟨image, same, operand.matches_extend extension matching⟩
  | .binary left _ right, _, ⟨first, second, same, head, tail⟩
  | .logical left _ right, _, ⟨first, second, same, head, tail⟩ =>
    ⟨first, second, same, left.matches_extend extension head,
      right.matches_extend extension tail⟩
  | .reference _ _, _, ⟨otherId, image, same, occurs⟩ =>
    ⟨otherId, image, same, extension.occurs occurs⟩
  | .assign _ _ value, _, ⟨otherId, image, given, same, occurs, matching⟩ =>
    ⟨otherId, image, given, same, extension.occurs occurs,
      value.matches_extend extension matching⟩
  | .call callee _ arguments, _, ⟨image, others, same, head, tail⟩ =>
    ⟨image, others, same, callee.matches_extend extension head,
      Expr.matchesAll_extend extension arguments tail⟩
  | .get object _, _, ⟨image, same, matching⟩ =>
    ⟨image, same, object.matches_extend extension matching⟩
  | .set object _ value, _, ⟨image, given, same, head, tail⟩ =>
    ⟨image, given, same, object.matches_extend extension head,
      value.matches_extend extension tail⟩
  | .this _ _, _, ⟨otherId, image, same, occurs⟩
  | .super _ _ _, _, ⟨otherId, image, same, occurs⟩ =>
    ⟨otherId, image, same, extension.occurs occurs⟩

/-- Matching expressions match under an extended correspondence. -/
theorem Expr.matchesAll_extend (extension : correspondence.Extends later) {marks : List Bool} :
    ∀ (expressions : List Expr) {images : List Expr},
      Expr.MatchesAll correspondence marks expressions images →
      Expr.MatchesAll later marks expressions images
  | [], _, same => same
  | first :: rest, _, ⟨image, images, same, head, tail⟩ =>
    ⟨image, images, same, first.matches_extend extension head,
      Expr.matchesAll_extend extension rest tail⟩

end

/-- Matching optional expressions match under an extended correspondence. -/
theorem Expr.matchesOptional_extend (extension : correspondence.Extends later)
    {marks : List Bool} (value : Option Expr) {image : Option Expr}
    (matching : Expr.MatchesOptional correspondence marks value image) :
    Expr.MatchesOptional later marks value image := by
  cases value with
  | none => exact matching
  | some value =>
    obtain ⟨image, same, matching⟩ := matching
    exact ⟨image, same, value.matches_extend extension matching⟩

mutual

/-- Matching statements match under every later correspondence. -/
theorem Stmt.matches_extend (extension : correspondence.Extends later) {marks : List Bool} :
    ∀ (statement : Stmt) {image : Stmt}, statement.Matches correspondence marks image →
      statement.Matches later marks image
  | .expression value, _, ⟨image, same, matching⟩ =>
    ⟨image, same, value.matches_extend extension matching⟩
  | .print _ value, _, ⟨image, same, matching⟩ =>
    ⟨image, same, value.matches_extend extension matching⟩
  | .declare name initializer, _, ⟨spelled, image, same, declares, matching⟩ =>
    ⟨spelled, image, same, extension.declares declares,
      Expr.matchesOptional_extend extension initializer matching⟩
  | .block body, _, ⟨mark, images, same, matching⟩ =>
    ⟨mark, images, same, Stmt.matchesAll_extend extension body matching⟩
  | .branch condition whenTrue none, _, ⟨test, image, same, head, tail⟩ =>
    ⟨test, image, same, condition.matches_extend extension head,
      whenTrue.matches_extend extension tail⟩
  | .branch condition whenTrue (some whenFalse), _,
      ⟨test, image, otherwise, same, head, middle, tail⟩ =>
    ⟨test, image, otherwise, same, condition.matches_extend extension head,
      whenTrue.matches_extend extension middle, whenFalse.matches_extend extension tail⟩
  | .loop condition body, _, ⟨test, image, same, head, tail⟩ =>
    ⟨test, image, same, condition.matches_extend extension head,
      body.matches_extend extension tail⟩
  | .function declaration, _, ⟨image, same, declares, matching⟩ =>
    ⟨image, same, extension.declares declares,
      declaration.matches_extend extension matching⟩
  | .return _ value, _, ⟨image, same, matching⟩ =>
    ⟨image, same, Expr.matchesOptional_extend extension value matching⟩
  | .class _ none methods, _, ⟨images, same, declares, matching⟩ =>
    ⟨images, same, extension.declares declares,
      FunctionDecl.matchesAll_extend extension methods matching⟩
  | .class _ (some superclass) methods, _, ⟨parent, images, same, declares, head, tail⟩ =>
    ⟨parent, images, same, extension.declares declares,
      superclass.matches_extend extension head,
      FunctionDecl.matchesAll_extend extension methods tail⟩

/-- Matching statements match under an extended correspondence. -/
theorem Stmt.matchesAll_extend (extension : correspondence.Extends later) {marks : List Bool} :
    ∀ (statements : List Stmt) {images : List Stmt},
      Stmt.MatchesAll correspondence marks statements images →
      Stmt.MatchesAll later marks statements images
  | [], _, same => same
  | first :: rest, _, ⟨image, images, same, head, tail⟩ =>
    ⟨image, images, same, first.matches_extend extension head,
      Stmt.matchesAll_extend extension rest tail⟩

/-- Matching functions match under every later correspondence. -/
theorem FunctionDecl.matches_extend (extension : correspondence.Extends later)
    {marks : List Bool} :
    ∀ (declaration : FunctionDecl) {image : FunctionDecl},
      declaration.Matches correspondence marks image → declaration.Matches later marks image
  | .mk _ parameters body, _, ⟨outer, inner, images, same, visible, matching⟩ => by
    refine ⟨outer, inner, images, ?_, extension.visible ▸ visible,
      Stmt.matchesAll_extend extension body matching⟩
    rw [funext (extension.respelled outer)]
    exact same

/-- Matching functions match under an extended correspondence. -/
theorem FunctionDecl.matchesAll_extend (extension : correspondence.Extends later)
    {marks : List Bool} :
    ∀ (declarations : List FunctionDecl) {images : List FunctionDecl},
      FunctionDecl.MatchesAll correspondence marks declarations images →
      FunctionDecl.MatchesAll later marks declarations images
  | [], _, same => same
  | first :: rest, _, ⟨image, images, same, head, tail⟩ =>
    ⟨image, images, same, first.matches_extend extension head,
      FunctionDecl.matchesAll_extend extension rest tail⟩

end

end Extended

end LoxLang

import Mathlib.Data.List.Nodup
import LoxLang.Proofs.Scope.Lawful
import LoxLang.Proofs.Tree.Renaming

/-!
# Renamed programs match

No scope of a program without violations declares a name twice, so a renamed declaration is the only
one of its name in its scope. The occurrences of the name that refer to that scope are then exactly
those that are bound to the declaration, and the renamed program matches the program itself with a
mark for that scope.
-/

namespace LoxLang

/-- The names that a statement declares in the scope around it. -/
def Stmt.declared : Stmt → List String
  | .declare name _ => [name.lexeme]
  | .function declaration => [declaration.name.lexeme]
  | .class name _ _ => [name.lexeme]
  | .branch _ whenTrue none => whenTrue.declared
  | .branch _ whenTrue (some whenFalse) => whenTrue.declared ++ whenFalse.declared
  | .loop _ body => body.declared
  | _ => []

/-- A statement puts the names it declares into the innermost scope. -/
theorem Stmt.chainAfter_declared (chain : Chain) : ∀ (statement : Stmt) (names : List String),
    statement.chainAfter (names :: chain) = (statement.declared.reverse ++ names) :: chain
  | .declare _ _, _ | .function _, _ | .class _ _ _, _ => rfl
  | .branch _ whenTrue none, names => whenTrue.chainAfter_declared chain names
  | .branch _ whenTrue (some whenFalse), names => by
    rw [chainAfter, whenTrue.chainAfter_declared chain names, whenFalse.chainAfter_declared chain,
      declared, List.reverse_append, List.append_assoc]
  | .loop _ body, names => body.chainAfter_declared chain names
  | .expression _, _ | .print _ _, _ | .block _, _ | .return _ _, _ => rfl

section Lawful

variable {within : FunctionContext} {inside : ClassContext} {chain : Chain}

/-- A lawful statement declares no name that its scope has, and none twice. -/
theorem Stmt.Lawful.nodup : ∀ (statement : Stmt) {names : List String}, names.Nodup →
    statement.Lawful within inside (names :: chain) → (statement.declared.reverse ++ names).Nodup
  | .declare _ _, _, distinct, ⟨fresh, _⟩ | .function _, _, distinct, ⟨fresh, _⟩
  | .class _ none _, _, distinct, ⟨fresh, _⟩ | .class _ (some _) _, _, distinct, ⟨fresh, _⟩ =>
    List.nodup_cons.mpr ⟨fresh, distinct⟩
  | .branch _ whenTrue none, _, distinct, ⟨_, lawful⟩ => nodup whenTrue distinct lawful
  | .branch _ whenTrue (some whenFalse), _, distinct, ⟨_, first, second⟩ => by
    rw [Stmt.chainAfter_declared] at second
    rw [Stmt.declared, List.reverse_append, List.append_assoc]
    exact nodup whenFalse (nodup whenTrue distinct first) second
  | .loop _ body, _, distinct, ⟨_, lawful⟩ => nodup body distinct lawful
  | .expression _, _, distinct, _ | .print _ _, _, distinct, _ | .block _, _, distinct, _
  | .return _ _, _, distinct, _ => distinct

/-- Lawful statements of one scope declare no name twice. -/
theorem Stmt.LawfulAll.nodup {statements : List Stmt} {names : List String}
    (distinct : names.Nodup) (lawful : Stmt.LawfulAll within inside (names :: chain) statements) :
    ((statements.flatMap Stmt.declared).reverse ++ names).Nodup := by
  induction statements generalizing names with
  | nil => exact distinct
  | cons first rest inductionHypothesis =>
    obtain ⟨head, tail⟩ := lawful
    rw [Stmt.chainAfter_declared] at tail
    rw [List.flatMap_cons, List.reverse_append, List.append_assoc]
    exact inductionHypothesis (Stmt.Lawful.nodup first distinct head) tail

/-- A variable is not declared again in its scope. -/
theorem Stmt.LawfulAll.unique {before behind : List Stmt} {name : Token}
    {initializer : Option Expr}
    (lawful : Stmt.LawfulAll within inside ([] :: chain)
      (before ++ .declare name initializer :: behind)) :
    (∀ statement ∈ before, name.lexeme ∉ statement.declared) ∧
      ∀ statement ∈ behind, name.lexeme ∉ statement.declared := by
  have distinct := Stmt.LawfulAll.nodup List.nodup_nil lawful
  rw [List.append_nil, List.nodup_reverse, List.flatMap_append, List.flatMap_cons, Stmt.declared,
    List.singleton_append, List.nodup_middle, List.nodup_cons, List.mem_append] at distinct
  obtain ⟨apart, _⟩ := distinct
  exact ⟨fun statement member declared =>
      apart (.inl (List.mem_flatMap.mpr ⟨statement, member, declared⟩)),
    fun statement member declared =>
      apart (.inr (List.mem_flatMap.mpr ⟨statement, member, declared⟩))⟩

end Lawful

namespace Renaming

/-- The old name and the new one exchanged. -/
def swap (naming : Renaming) (name : String) : String :=
  if name = naming.old then naming.new else if name = naming.new then naming.old else name

/-- A name that is no keyword is not spelled like one. -/
theorem keyword_ne {text : String} (ordinary : Keyword.ofSpelling? text = none) (word : Keyword) :
    word.spelling ≠ text := by
  rintro rfl
  rw [word.ofSpelling?_spelling] at ordinary
  cases ordinary

/-- No keyword is renamed. -/
theorem swap_keyword (naming : Renaming) (word : Keyword) :
    naming.swap word.spelling = word.spelling := by
  unfold swap
  rw [if_neg (keyword_ne naming.old_ordinary word), if_neg (keyword_ne naming.new_ordinary word)]

/-- How a program corresponds to a renamed one. Neither the new name nor `dump` may occur in it. -/
def correspondence (naming : Renaming) (distances : Distances) : Correspondence where
  ids := Eq
  address? := fun id => distances[id]?
  swap := naming.swap
  visible := fun name => name ≠ naming.new ∧ name ≠ Native.dump.name
  oneToOne := by
    rintro id _ second _ rfl rfl
    rfl
  involutive := by
    intro name
    unfold swap
    split_ifs <;> simp_all
  hidden := by
    intro name visible
    unfold swap
    split_ifs with old new
    · exact .inr fun also => also.1 rfl
    · exact absurd new visible.1
    · exact .inl rfl
  swap_this := naming.swap_keyword .thisWord
  visible_this := ⟨keyword_ne naming.new_ordinary .thisWord, by decide⟩
  visible_super := ⟨keyword_ne naming.new_ordinary .superWord, by decide⟩

variable {naming : Renaming} {distances : Distances} {marks : List Bool} {depth : Nat}
  {name : Token}

/-- In the marked scope the old name is spelled anew. -/
theorem respelled_old (named : name.lexeme = naming.old) :
    (naming.correspondence distances).respelled true name = naming.spelled name := by
  simp [Correspondence.respelled, Correspondence.spelling, correspondence, swap, spelled, named]

/-- Every other name is spelled the same everywhere. -/
theorem respelled_other (visible : (naming.correspondence distances).visible name.lexeme)
    (apart : name.lexeme ≠ naming.old) (mark : Bool) :
    (naming.correspondence distances).respelled mark name = name := by
  cases mark with
  | false => rfl
  | true =>
    obtain ⟨kind, lexeme, line⟩ := name
    simp [Correspondence.respelled, Correspondence.spelling, correspondence, swap, apart, visible.1]

/-- A declaration stays as it is unless it is one of the renamed name in the marked scope. -/
theorem declares (visible : (naming.correspondence distances).visible name.lexeme)
    (marked : MarkedAt depth marks) (apart : depth = 0 → name.lexeme ≠ naming.old) :
    (naming.correspondence distances).Declares marks name name := by
  refine ⟨visible, ?_⟩
  cases depth with
  | zero => exact (respelled_other visible (apart rfl) _).symm
  | succ depth =>
    have mark : marks.headD false = false := by
      rw [headD_eq_getD, marked 0]
      rfl
    rw [mark]
    rfl

/-- A reference is renamed when it refers to the renamed name in the marked scope. -/
theorem occurs (visible : (naming.correspondence distances).visible name.lexeme)
    (marked : MarkedAt depth marks) (id : Nat) :
    (naming.correspondence distances).Occurs marks id name id
      (naming.occurrence distances depth id name) := by
  refine ⟨rfl, visible, ?_⟩
  rw [marked.markAt]
  unfold occurrence
  by_cases named : name.lexeme = naming.old
  · by_cases bound : distances[id]? = some depth
    · have mark : (naming.correspondence distances).address? id = some depth := bound
      simp only [bound, named, and_self, if_true, mark, decide_true, respelled_old named]
    · have mark : ¬ (naming.correspondence distances).address? id = some depth := bound
      simp only [bound, false_and, if_false, mark, decide_false, Correspondence.respelled_false]
  · simp only [named, and_false, if_false, respelled_other visible named]

/-- A keyword refers to a name that is never spelled anew. -/
theorem keyword_occurs (word : Keyword) (known : word = .thisWord ∨ word = .superWord)
    (spelled : name.lexeme = word.spelling) (marks : List Bool) (id : Nat) :
    (naming.correspondence distances).Occurs marks id name id name := by
  have visible : (naming.correspondence distances).visible name.lexeme := by
    rw [spelled]
    rcases known with rfl | rfl
    · exact (naming.correspondence distances).visible_this
    · exact (naming.correspondence distances).visible_super
  refine ⟨rfl, visible, (respelled_other visible ?_ _).symm⟩
  exact spelled ▸ keyword_ne naming.old_ordinary word

/-- A single declared name is other than the renamed one. -/
theorem ne_of_declared {text : String} (apart : depth = 0 → naming.old ∉ [text]) :
    depth = 0 → text ≠ naming.old :=
  fun here same => apart here (same ▸ List.mem_cons_self)

end Renaming

section Renamed

variable {naming : Renaming} {distances : Distances}

mutual

/-- An expression in the scope of a renamed declaration matches the renamed one. -/
theorem Expr.renamed_matches {marks : List Bool} {depth : Nat} (marked : MarkedAt depth marks) :
    ∀ expression : Expr, expression.Formed (naming.correspondence distances).rules →
      expression.Matches (naming.correspondence distances) marks
        (expression.renamed naming distances depth)
  | .literal _, _ => rfl
  | .grouping inner, formed => ⟨_, rfl, inner.renamed_matches marked formed⟩
  | .unary _ operand, formed => ⟨_, rfl, operand.renamed_matches marked formed.2⟩
  | .binary left _ right, formed =>
    ⟨_, _, rfl, left.renamed_matches marked formed.2.1, right.renamed_matches marked formed.2.2⟩
  | .logical left _ right, formed =>
    ⟨_, _, rfl, left.renamed_matches marked formed.1, right.renamed_matches marked formed.2⟩
  | .reference id _, visible => ⟨_, _, rfl, Renaming.occurs visible marked id⟩
  | .assign id _ value, formed =>
    ⟨_, _, _, rfl, Renaming.occurs formed.1 marked id, value.renamed_matches marked formed.2⟩
  | .call callee _ arguments, formed =>
    ⟨_, _, rfl, callee.renamed_matches marked formed.1,
      Expr.renamedAll_matches marked arguments formed.2⟩
  | .get object _, formed => ⟨_, rfl, object.renamed_matches marked formed⟩
  | .set object _ value, formed =>
    ⟨_, _, rfl, object.renamed_matches marked formed.1, value.renamed_matches marked formed.2⟩
  | .this id _, formed =>
    ⟨_, _, rfl, Renaming.keyword_occurs .thisWord (.inl rfl) formed.1 marks id⟩
  | .super id _ _, formed =>
    ⟨_, _, rfl, Renaming.keyword_occurs .superWord (.inr rfl) formed.1 marks id⟩

/-- Renamed expressions match. -/
theorem Expr.renamedAll_matches {marks : List Bool} {depth : Nat}
    (marked : MarkedAt depth marks) :
    ∀ expressions : List Expr,
      Expr.FormedAll (naming.correspondence distances).rules expressions →
      Expr.MatchesAll (naming.correspondence distances) marks expressions
        (Expr.renamedAll naming distances depth expressions)
  | [], _ => rfl
  | first :: rest, formed =>
    ⟨_, _, rfl, first.renamed_matches marked formed.1,
      Expr.renamedAll_matches marked rest formed.2⟩

end

/-- A renamed optional expression matches. -/
theorem Expr.renamedOptional_matches {marks : List Bool} {depth : Nat}
    (marked : MarkedAt depth marks) (value : Option Expr)
    (formed : Expr.FormedOptional (naming.correspondence distances).rules value) :
    Expr.MatchesOptional (naming.correspondence distances) marks value
      (Expr.renamedOptional naming distances depth value) := by
  cases value with
  | none => rfl
  | some value => exact ⟨_, rfl, value.renamed_matches marked formed⟩

mutual

/-- A statement in the scope of a renamed declaration matches the renamed one, if it does not
declare the old name in that scope again. -/
theorem Stmt.renamed_matches {marks : List Bool} {depth : Nat} (marked : MarkedAt depth marks) :
    ∀ statement : Stmt, statement.Formed (naming.correspondence distances).rules →
      (depth = 0 → naming.old ∉ statement.declared) →
      statement.Matches (naming.correspondence distances) marks
        (statement.renamed naming distances depth)
  | .expression value, formed, _ | .print _ value, formed, _ =>
    ⟨_, rfl, value.renamed_matches marked formed⟩
  | .declare _ initializer, formed, apart =>
    ⟨_, _, rfl, Renaming.declares formed.1 marked (Renaming.ne_of_declared apart),
      Expr.renamedOptional_matches marked initializer formed.2⟩
  | .block body, formed, _ =>
    ⟨false, _, rfl, Stmt.renamedAll_matches marked.inner body formed nofun⟩
  | .branch condition whenTrue none, formed, apart =>
    ⟨_, _, rfl, condition.renamed_matches marked formed.1,
      whenTrue.renamed_matches marked formed.2 apart⟩
  | .branch condition whenTrue (some whenFalse), formed, apart =>
    ⟨_, _, _, rfl, condition.renamed_matches marked formed.1,
      whenTrue.renamed_matches marked formed.2.1
        fun here declared => apart here (List.mem_append_left _ declared),
      whenFalse.renamed_matches marked formed.2.2
        fun here declared => apart here (List.mem_append_right _ declared)⟩
  | .loop condition body, formed, apart =>
    ⟨_, _, rfl, condition.renamed_matches marked formed.1,
      body.renamed_matches marked formed.2 apart⟩
  | .function declaration, formed, apart =>
    ⟨_, rfl, Renaming.declares formed.name marked (Renaming.ne_of_declared apart),
      declaration.renamed_matches marked formed⟩
  | .return _ value, formed, _ => ⟨_, rfl, Expr.renamedOptional_matches marked value formed⟩
  | .class _ none methods, formed, apart =>
    ⟨_, rfl, Renaming.declares formed.1 marked (Renaming.ne_of_declared apart),
      FunctionDecl.renamedAll_matches marked.inner methods formed.2.2⟩
  | .class _ (some superclass) methods, formed, apart =>
    ⟨_, _, rfl, Renaming.declares formed.1 marked (Renaming.ne_of_declared apart),
      superclass.renamed_matches marked formed.2.1,
      FunctionDecl.renamedAll_matches marked.inner.inner methods formed.2.2⟩
termination_by structural statement => statement

/-- Renamed statements match, if none of them declares the name once more in the marked scope. -/
theorem Stmt.renamedAll_matches {marks : List Bool} {depth : Nat}
    (marked : MarkedAt depth marks) :
    ∀ statements : List Stmt,
      Stmt.FormedAll (naming.correspondence distances).rules statements →
      (depth = 0 → ∀ statement ∈ statements, naming.old ∉ statement.declared) →
      Stmt.MatchesAll (naming.correspondence distances) marks statements
        (Stmt.renamedAll naming distances depth statements)
  | [], _, _ => rfl
  | first :: rest, formed, apart =>
    ⟨_, _, rfl, first.renamed_matches marked formed.1
        fun here => apart here first List.mem_cons_self,
      Stmt.renamedAll_matches marked rest formed.2
        fun here statement member => apart here statement (List.mem_cons_of_mem _ member)⟩
termination_by structural statements => statements

/-- A renamed function matches. -/
theorem FunctionDecl.renamed_matches {marks : List Bool} {depth : Nat}
    (marked : MarkedAt depth marks) :
    ∀ declaration : FunctionDecl,
      declaration.Formed (naming.correspondence distances).rules →
      declaration.Matches (naming.correspondence distances) marks
        (declaration.renamed naming distances depth)
  | .mk _ parameters body, formed =>
    ⟨false, false, _, by rw [Correspondence.map_respelled_false]; rfl, formed.2.1,
      Stmt.renamedAll_matches marked.inner.inner body formed.2.2 nofun⟩
termination_by structural declaration => declaration

/-- Renamed methods match. -/
theorem FunctionDecl.renamedAll_matches {marks : List Bool} {depth : Nat}
    (marked : MarkedAt depth marks) :
    ∀ declarations : List FunctionDecl,
      FunctionDecl.FormedAll (naming.correspondence distances).rules declarations →
      FunctionDecl.MatchesAll (naming.correspondence distances) marks declarations
        (FunctionDecl.renamedAll naming distances depth declarations)
  | [], _ => rfl
  | first :: rest, formed =>
    ⟨_, _, rfl, first.renamed_matches marked formed.1,
      FunctionDecl.renamedAll_matches marked rest formed.2⟩
termination_by structural declarations => declarations

end

/-- Matching statements stay so when others are put behind them on both sides. -/
theorem Stmt.matchesAll_append {correspondence : Correspondence} {marks : List Bool}
    {before behind images others : List Stmt}
    (head : Stmt.MatchesAll correspondence marks before images)
    (tail : Stmt.MatchesAll correspondence marks behind others) :
    Stmt.MatchesAll correspondence marks (before ++ behind) (images ++ others) := by
  induction before generalizing images with
  | nil =>
    obtain rfl : images = [] := head
    exact tail
  | cons first rest inductionHypothesis =>
    obtain ⟨image, _, rfl, firstLike, restLike⟩ := head
    exact ⟨image, _, rfl, firstLike, inductionHypothesis restLike⟩

variable {within : FunctionContext} {inside : ClassContext} {chain : Chain} {marks : List Bool}

/-- The scope of a renamed variable matches with a mark. -/
theorem Stmt.RenamesHere.matches {body images : List Stmt}
    (here : Stmt.RenamesHere naming distances body images) (unmarked : Unmarked marks)
    (formed : Stmt.FormedAll (naming.correspondence distances).rules body)
    (lawful : Stmt.LawfulAll within inside ([] :: chain) body) :
    Stmt.MatchesAll (naming.correspondence distances) (true :: marks) body images := by
  obtain ⟨before, name, initializer, behind, named⟩ := here
  obtain ⟨formedBefore, ⟨visible, formedInitializer⟩, formedBehind⟩ :=
    Stmt.formedAll_append.mp formed
  obtain ⟨apartBefore, apartBehind⟩ := Stmt.LawfulAll.unique lawful
  rw [named] at apartBefore apartBehind
  have marked := unmarked.mark
  refine Stmt.matchesAll_append
    (Stmt.renamedAll_matches marked before formedBefore fun _ => apartBefore)
    ⟨_, _, rfl, ⟨_, _, rfl, ⟨visible, ?_⟩,
      Expr.renamedOptional_matches marked initializer formedInitializer⟩,
    Stmt.renamedAll_matches marked behind formedBehind fun _ => apartBehind⟩
  exact (Renaming.respelled_old named).symm

/-- The scope of a renamed parameter matches with a mark. -/
theorem FunctionDecl.renamedParameter_matches {name parameter : Token} {before behind : List Token}
    {body : List Stmt} (named : parameter.lexeme = naming.old) (unmarked : Unmarked marks)
    (formed : FunctionDecl.Formed (naming.correspondence distances).rules
      (.mk name (before ++ parameter :: behind) body))
    (lawful : FunctionDecl.Lawful within inside chain
      (.mk name (before ++ parameter :: behind) body)) :
    FunctionDecl.Matches (naming.correspondence distances) marks
      (.mk name (before ++ parameter :: behind) body)
      (.mk name (before ++ naming.spelled parameter :: behind)
        (Stmt.renamedAll naming distances 1 body)) := by
  obtain ⟨_, visible, formedBody⟩ := formed
  obtain ⟨distinct, _⟩ := lawful
  rw [List.map_append, List.map_cons, List.nodup_middle, List.nodup_cons, named,
    ← List.map_append] at distinct
  -- Parameters have different names, so all others keep theirs.
  have kept (others : List Token) (listed : others ⊆ before ++ behind) :
      others.map ((naming.correspondence distances).respelled true) = others := by
    refine (List.map_congr_left fun other member => ?_).trans (List.map_id _)
    have apart : other.lexeme ≠ naming.old := fun same =>
      distinct.1 (same ▸ List.mem_map_of_mem (listed member))
    have among : other ∈ before ++ parameter :: behind :=
      (List.mem_append.mp (listed member)).elim (List.mem_append_left _)
        fun last => List.mem_append_right _ (List.mem_cons_of_mem _ last)
    exact Renaming.respelled_other (visible other among) apart true
  refine ⟨true, false, _, ?_, visible, Stmt.renamedAll_matches unmarked.mark.inner body formedBody
    nofun⟩
  rw [List.map_append, List.map_cons, Renaming.respelled_old named,
    kept before (List.subset_append_left _ _), kept behind (List.subset_append_right _ _)]

mutual

/-- A statement matches what it becomes by a renaming inside it. -/
theorem Stmt.Renames.matches {within : FunctionContext} {inside : ClassContext} {chain : Chain}
    {marks : List Bool} (unmarked : Unmarked marks) :
    ∀ (statement image : Stmt), Stmt.Renames naming distances statement image →
      statement.Formed (naming.correspondence distances).rules →
      statement.Lawful within inside chain →
      statement.Matches (naming.correspondence distances) marks image
  | .block body, _, renames, formed, lawful => by
    cases renames with
    | ofBlock here => exact ⟨true, _, rfl, here.matches unmarked formed lawful⟩
    | inBlock inside =>
      exact ⟨false, _, rfl, Stmt.RenamesOne.matches unmarked.inner body _ inside formed lawful⟩
  | .branch condition whenTrue none, _, renames, formed, lawful => by
    cases renames with
    | inTrue _ _ inside =>
      exact ⟨_, _, rfl, condition.matches_refl (fun _ => rfl) unmarked formed.1,
        Stmt.Renames.matches unmarked whenTrue _ inside formed.2 lawful.2⟩
  | .branch condition whenTrue (some whenFalse), _, renames, formed, lawful => by
    have test := condition.matches_refl (fun _ => rfl) unmarked formed.1
    cases renames with
    | inTrue _ _ inside =>
      exact ⟨_, _, _, rfl, test,
        Stmt.Renames.matches unmarked whenTrue _ inside formed.2.1 lawful.2.1,
        whenFalse.matches_refl (fun _ => rfl) unmarked formed.2.2⟩
    | inFalse _ _ inside =>
      exact ⟨_, _, _, rfl, test, whenTrue.matches_refl (fun _ => rfl) unmarked formed.2.1,
        Stmt.Renames.matches unmarked whenFalse _ inside formed.2.2 lawful.2.2⟩
  | .loop condition body, _, renames, formed, lawful => by
    cases renames with
    | inLoop _ inside =>
      exact ⟨_, _, rfl, condition.matches_refl (fun _ => rfl) unmarked formed.1,
        Stmt.Renames.matches unmarked body _ inside formed.2 lawful.2⟩
  | .function declaration, _, renames, formed, lawful => by
    cases renames with
    | inFunction inside =>
      exact ⟨_, rfl, unmarked.declares formed.name,
        FunctionDecl.Renames.matches unmarked declaration _ inside formed lawful.2⟩
  | .class _ none methods, _, renames, formed, lawful => by
    cases renames with
    | inClass _ _ inside =>
      exact ⟨_, rfl, unmarked.declares formed.1,
        FunctionDecl.RenamesOne.matches unmarked.inner methods _ inside formed.2.2 lawful.2⟩
  | .class _ (some superclass) methods, _, renames, formed, lawful => by
    cases renames with
    | inClass _ _ inside =>
      exact ⟨_, _, rfl, unmarked.declares formed.1,
        superclass.matches_refl (fun _ => rfl) unmarked formed.2.1,
        FunctionDecl.RenamesOne.matches unmarked.inner.inner methods _ inside formed.2.2
          lawful.2.2⟩
  | .expression _, _, renames, _, _ | .print _ _, _, renames, _, _
  | .declare _ _, _, renames, _, _ | .return _ _, _, renames, _, _ => by cases renames
termination_by structural statement => statement

/-- Statements match what they become by a renaming inside one of them. -/
theorem Stmt.RenamesOne.matches {within : FunctionContext} {inside : ClassContext} {chain : Chain}
    {marks : List Bool} (unmarked : Unmarked marks) :
    ∀ (statements images : List Stmt), Stmt.RenamesOne naming distances statements images →
      Stmt.FormedAll (naming.correspondence distances).rules statements →
      Stmt.LawfulAll within inside chain statements →
      Stmt.MatchesAll (naming.correspondence distances) marks statements images
  | first :: rest, image :: _, .here renames _, formed, lawful =>
    ⟨_, _, rfl, Stmt.Renames.matches unmarked first image renames formed.1 lawful.1,
      Stmt.matchesAll_refl (fun _ => rfl) unmarked rest formed.2⟩
  | first :: rest, _ :: images, .behind _ renames, formed, lawful =>
    ⟨_, _, rfl, first.matches_refl (fun _ => rfl) unmarked formed.1,
      Stmt.RenamesOne.matches unmarked rest images renames formed.2 lawful.2⟩
termination_by structural statements => statements

/-- A function matches what it becomes by a renaming inside it. -/
theorem FunctionDecl.Renames.matches {within : FunctionContext} {inside : ClassContext}
    {chain : Chain} {marks : List Bool} (unmarked : Unmarked marks) :
    ∀ (declaration image : FunctionDecl),
      FunctionDecl.Renames naming distances declaration image →
      declaration.Formed (naming.correspondence distances).rules →
      declaration.Lawful within inside chain →
      declaration.Matches (naming.correspondence distances) marks image
  | .mk _ _ _, _, .parameter _ _ _ _ _ named, formed, lawful =>
    FunctionDecl.renamedParameter_matches named unmarked formed lawful
  | .mk _ _ _, _, .ofBody _ _ here, formed, lawful =>
    ⟨false, true, _, by rw [Correspondence.map_respelled_false], formed.2.1,
      here.matches unmarked.inner formed.2.2 lawful.2⟩
  | .mk _ _ body, .mk _ _ images, .inBody _ _ renames, formed, lawful =>
    ⟨false, false, _, by rw [Correspondence.map_respelled_false], formed.2.1,
      Stmt.RenamesOne.matches unmarked.inner.inner body images renames formed.2.2 lawful.2⟩
termination_by structural declaration => declaration

/-- Functions match what they become by a renaming inside one of them. -/
theorem FunctionDecl.RenamesOne.matches {inside : ClassContext} {chain : Chain}
    {marks : List Bool} (unmarked : Unmarked marks) :
    ∀ (declarations images : List FunctionDecl),
      FunctionDecl.RenamesOne naming distances declarations images →
      FunctionDecl.FormedAll (naming.correspondence distances).rules declarations →
      FunctionDecl.LawfulAll inside chain declarations →
      FunctionDecl.MatchesAll (naming.correspondence distances) marks declarations images
  | first :: rest, image :: _, .here renames _, formed, lawful =>
    ⟨_, _, rfl, FunctionDecl.Renames.matches unmarked first image renames formed.1 lawful.1,
      FunctionDecl.matchesAll_refl (fun _ => rfl) unmarked rest formed.2⟩
  | first :: rest, _ :: images, .behind _ renames, formed, lawful =>
    ⟨_, _, rfl, first.matches_refl (fun _ => rfl) unmarked formed.1,
      FunctionDecl.RenamesOne.matches unmarked rest images renames formed.2 lawful.2⟩
termination_by structural declarations => declarations

end

end Renamed

end LoxLang

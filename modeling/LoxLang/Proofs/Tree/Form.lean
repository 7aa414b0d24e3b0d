import Mathlib.Data.List.TakeWhile
import LoxLang.Tree.Outline

/-!
# Forms

An outline is a text of words in nested parentheses. A `Form` is what such a text shows: a word, a
list with a word at its head, or a name with parameters in parentheses. `Form.text` writes forms
as outlines are written. A text shows one form at most: a form is known from any text that starts
with it and goes on with a blank or a closing parenthesis (`Form.text_unique`), and so are forms one
to a line (`Form.lines_unique`).
-/

namespace LoxLang

/-- What an outline shows. -/
inductive Form where
  | word (text : String)
  | list (head : String) (parts : List Form)
  | heading (name : String) (parameters : List String)

namespace Form

mutual

/-- The text of a form. -/
@[simp] def text : Form → String
  | word text => text
  | list head parts => parenthesized head (texts parts)
  | heading name parameters => name ++ "(" ++ " ".intercalate parameters ++ ")"

/-- The texts of several forms, in order. -/
@[simp] def texts : List Form → List String
  | [] => []
  | first :: rest => first.text :: texts rest

end

/-- The characters that no word holds. -/
def delimiters : List Char :=
  [' ', '(', ')', '\n']

/-- A text that shows one word. -/
def IsWord (text : String) : Prop :=
  text ≠ "" ∧ ∀ character ∈ text.toList, character ∉ delimiters

mutual

/-- A form all of whose words are words. -/
def Sound : Form → Prop
  | word text => IsWord text
  | list head parts => IsWord head ∧ SoundAll parts
  | heading name parameters => IsWord name ∧ ∀ parameter ∈ parameters, IsWord parameter

/-- Several sound forms. -/
def SoundAll : List Form → Prop
  | [] => True
  | first :: rest => first.Sound ∧ SoundAll rest

end

/-- Forms are sound when each of them is. -/
theorem soundAll_iff {forms : List Form} : SoundAll forms ↔ ∀ form ∈ forms, form.Sound := by
  induction forms with
  | nil => simp [SoundAll]
  | cons first rest inductionHypothesis =>
    simp only [SoundAll, inductionHypothesis, List.forall_mem_cons]

/-- The texts of forms are those of each. -/
theorem texts_eq (forms : List Form) : texts forms = forms.map text := by
  induction forms with
  | nil => rfl
  | cons first rest inductionHypothesis => rw [texts, inductionHypothesis, List.map_cons]

/-! ### Texts as characters -/

/-- Texts behind others, each with a mark in front of it. -/
def trailing (mark : Char) (texts : List String) : List Char :=
  texts.flatMap fun text => mark :: text.toList

/-- Each text trails behind its mark. -/
@[simp] theorem trailing_cons (mark : Char) (first : String) (rest : List String) :
    trailing mark (first :: rest) = mark :: (first.toList ++ trailing mark rest) :=
  rfl

/-- A parenthesized text is a head with its parts trailing behind it. -/
theorem toList_parenthesized (head : String) (parts : List String) :
    (parenthesized head parts).toList = '(' :: (head.toList ++ trailing ' ' parts ++ [')']) := by
  have folded : (parts.foldl (fun text part => text ++ " " ++ part) head).toList =
      head.toList ++ trailing ' ' parts := by
    induction parts generalizing head with
    | nil => simp [trailing]
    | cons part parts inductionHypothesis =>
      rw [List.foldl_cons, inductionHypothesis]
      simp [trailing]
  simp [parenthesized, folded]

/-- Separated texts are a first one with the others trailing behind it. -/
theorem toList_intercalate_cons {separator : String} {mark : Char}
    (spelled : separator.toList = [mark]) (first : String) (rest : List String) :
    (separator.intercalate (first :: rest)).toList = first.toList ++ trailing mark rest := by
  induction rest generalizing first with
  | nil => simp [trailing]
  | cons next rest inductionHypothesis =>
    rw [String.intercalate_cons_cons, String.toList_append, inductionHypothesis]
    simp [spelled]

/-! ### A text shows one form at most -/

/-- A text that is empty or starts with one of some marks. -/
def Ends (marks : List Char) (rest : List Char) : Prop :=
  ∀ character, rest.head? = some character → character ∈ marks

/-- What may stand behind a form. -/
def closers : List Char :=
  [' ', ')', '\n']

/-- What may stand behind a form ends a word. -/
theorem Ends.delimited {rest : List Char} (ends : Ends closers rest) : Ends delimiters rest := by
  intro character head
  have member := ends character head
  simp only [closers, delimiters, List.mem_cons, List.not_mem_nil, or_false] at member ⊢
  rcases member with rfl | rfl | rfl <;> simp

/-- A text ends what one of the marks in front of it ends. -/
theorem ends_cons {marks : List Char} {mark : Char} (member : mark ∈ marks) (rest : List Char) :
    Ends marks (mark :: rest) := by
  intro character head
  obtain rfl := Option.some.inj head
  exact member

/-- Trailing texts end with their mark, or with what stands behind them. -/
theorem ends_trailing {marks : List Char} {mark : Char} (member : mark ∈ marks)
    {texts : List String} {rest : List Char} (ends : Ends marks rest) :
    Ends marks (trailing mark texts ++ rest) := by
  cases texts with
  | nil => exact ends
  | cons first others => exact ends_cons member _

section

variable {rest behind : List Char}

/-- A word is taken up to its end. -/
theorem takeWhile_word {word : String} (shown : IsWord word) (ends : Ends delimiters rest) :
    (word.toList ++ rest).takeWhile (· ∉ delimiters) = word.toList := by
  rw [List.takeWhile_append_of_pos (by simpa using shown.2)]
  cases rest with
  | nil => simp
  | cons character rest => simp [ends character rfl]

/-- Two words with the same text in front are one. -/
theorem word_unique {word other : String} (shown : IsWord word) (alike : IsWord other)
    (ends : Ends delimiters rest) (stops : Ends delimiters behind)
    (same : word.toList ++ rest = other.toList ++ behind) : word = other ∧ rest = behind := by
  have words : word.toList = other.toList := by
    rw [← takeWhile_word shown ends, same, takeWhile_word alike stops]
  rw [words] at same
  exact ⟨String.toList_inj.mp words, List.append_cancel_left same⟩

/-- No word starts with a parenthesis or a blank. -/
theorem word_ne_delimiter {word : String} (shown : IsWord word) {mark : Char}
    (member : mark ∈ delimiters) : word.toList ++ rest ≠ mark :: behind := by
  intro same
  cases characters : word.toList with
  | nil => exact shown.1 (String.toList_eq_nil_iff.mp characters)
  | cons first others =>
    rw [characters, List.cons_append] at same
    obtain ⟨rfl, _⟩ := List.cons.inj same
    exact shown.2 first (by rw [characters]; exact List.mem_cons_self) member

/-- Of these items each is known from a text that starts with what is written for it. -/
def Known {Item : Type} (write : Item → String) (items others : List Item) : Prop :=
  ∀ item ∈ items, ∀ other ∈ others, ∀ rest behind,
    Ends closers rest → Ends closers behind →
    (write item).toList ++ rest = (write other).toList ++ behind → item = other ∧ rest = behind

section Separated

variable {Item : Type} {write : Item → String} {mark : Char} {items others : List Item}

/-- Items with marks in front of them are known if each of them is. -/
theorem trailing_unique (separates : mark ∈ closers) (single : Known write items others)
    (ends : Ends closers rest) (stops : Ends closers behind)
    (unmarked : rest.head? ≠ some mark) (unmarkedBehind : behind.head? ≠ some mark)
    (same : trailing mark (items.map write) ++ rest = trailing mark (others.map write) ++ behind) :
    items = others ∧ rest = behind := by
  induction items generalizing others with
  | nil =>
    cases others with
    | nil => exact ⟨rfl, same⟩
    | cons other others => exact absurd (congrArg List.head? same) unmarked
  | cons item items inductionHypothesis =>
    cases others with
    | nil => exact absurd (congrArg List.head? same).symm unmarkedBehind
    | cons other others =>
      simp only [List.map_cons, trailing_cons, List.cons_append, List.append_assoc,
        List.cons.injEq, true_and] at same
      obtain ⟨rfl, tails⟩ := single item List.mem_cons_self other List.mem_cons_self _ _
        (ends_trailing separates ends) (ends_trailing separates stops) same
      obtain ⟨rfl, closing⟩ := inductionHypothesis
        (fun item member other listed =>
          single item (List.mem_cons_of_mem _ member) other (List.mem_cons_of_mem _ listed)) tails
      exact ⟨rfl, closing⟩

/-- Items with marks between them are known if each of them is, and if what stands behind them is
not taken for an item. -/
theorem intercalate_unique {separator : String} (spelled : separator.toList = [mark])
    (separates : mark ∈ closers) (single : Known write items others)
    (ends : Ends closers rest) (stops : Ends closers behind)
    (unmarked : rest.head? ≠ some mark) (unmarkedBehind : behind.head? ≠ some mark)
    (apart : ∀ item ∈ items, ∀ tail, (write item).toList ++ tail ≠ behind)
    (apartOthers : ∀ other ∈ others, ∀ tail, (write other).toList ++ tail ≠ rest)
    (same : (separator.intercalate (items.map write)).toList ++ rest =
      (separator.intercalate (others.map write)).toList ++ behind) :
    items = others ∧ rest = behind := by
  cases items with
  | nil =>
    cases others with
    | nil => exact ⟨rfl, same⟩
    | cons other others =>
      rw [List.map_cons, toList_intercalate_cons spelled, List.append_assoc] at same
      exact (apartOthers other List.mem_cons_self _ same.symm).elim
  | cons item items =>
    rw [List.map_cons, toList_intercalate_cons spelled, List.append_assoc] at same
    cases others with
    | nil => exact (apart item List.mem_cons_self _ same).elim
    | cons other others =>
      rw [List.map_cons, toList_intercalate_cons spelled, List.append_assoc] at same
      -- With a mark in front of the first item as well, all items are written alike.
      have marked : trailing mark ((item :: items).map write) ++ rest =
          trailing mark ((other :: others).map write) ++ behind := by
        simpa using same
      exact trailing_unique separates single ends stops unmarked unmarkedBehind marked

end Separated

/-- Parameters up to the closing parenthesis. -/
theorem parameters_unique {names others : List String} (shown : ∀ name ∈ names, IsWord name)
    (alike : ∀ other ∈ others, IsWord other)
    (same : (" ".intercalate names).toList ++ ')' :: rest =
      (" ".intercalate others).toList ++ ')' :: behind) : names = others ∧ rest = behind := by
  have single : Known id names others := fun name member other listed _ _ ends stops =>
    word_unique (shown name member) (alike other listed) ends.delimited stops.delimited
  have blank : " ".toList = [' '] := rfl
  rw [← List.map_id names, ← List.map_id others] at same
  obtain ⟨rfl, closing⟩ := intercalate_unique blank (by decide) single
    (ends_cons (by decide) rest) (ends_cons (by decide) behind) (by simp) (by simp)
    (fun name member _ => word_ne_delimiter (shown name member) (by decide))
    (fun other member _ => word_ne_delimiter (alike other member) (by decide)) same
  exact ⟨rfl, (List.cons.inj closing).2⟩

/-- A heading is its name with the parameters in parentheses. -/
theorem toList_heading (name : String) (parameters : List String) :
    (heading name parameters).text.toList ++ rest =
      name.toList ++ '(' :: ((" ".intercalate parameters).toList ++ ')' :: rest) := by
  simp

/-! ### Forms of different kinds -/

/-- A word does not begin with a parenthesis. -/
theorem word_ne_list {word head : String} {parts : List Form} (shown : IsWord word) :
    word.toList ++ rest ≠ (list head parts).text.toList ++ behind := by
  rw [text, toList_parenthesized]
  exact word_ne_delimiter shown (by decide)

/-- A heading does not begin with a parenthesis. -/
theorem heading_ne_list {name head : String} {parameters : List String} {parts : List Form}
    (shown : IsWord name) :
    (heading name parameters).text.toList ++ rest ≠ (list head parts).text.toList ++ behind := by
  rw [toList_heading]
  exact word_ne_list shown

/-- A word in front of a parenthesis is the name of a heading. -/
theorem word_ne_heading {word name : String} {parameters : List String} (shown : IsWord word)
    (alike : IsWord name) (ends : Ends closers rest) :
    word.toList ++ rest ≠ (heading name parameters).text.toList ++ behind := by
  intro same
  rw [toList_heading] at same
  obtain ⟨_, rfl⟩ := word_unique shown alike ends.delimited (ends_cons (by decide) _) same
  exact absurd (ends '(' rfl) (by decide)

end

/-- A form is known from a text that starts with it and does not continue it. -/
theorem text_unique (form other : Form) (shown : form.Sound) (alike : other.Sound)
    (rest behind : List Char) (ends : Ends closers rest) (stops : Ends closers behind)
    (same : form.text.toList ++ rest = other.text.toList ++ behind) :
    form = other ∧ rest = behind := by
  match form, other with
  | word first, word second =>
    obtain ⟨rfl, rest⟩ := word_unique shown alike ends.delimited stops.delimited same
    exact ⟨rfl, rest⟩
  | word first, list head parts => exact (word_ne_list shown same).elim
  | list head parts, word second => exact (word_ne_list alike same.symm).elim
  | word first, heading name parameters => exact (word_ne_heading shown alike.1 ends same).elim
  | heading name parameters, word second =>
    exact (word_ne_heading alike shown.1 stops same.symm).elim
  | heading name parameters, list head parts => exact (heading_ne_list shown.1 same).elim
  | list head parts, heading name parameters => exact (heading_ne_list alike.1 same.symm).elim
  | list head parts, list headOther others =>
    simp only [text, texts_eq, toList_parenthesized, List.cons_append, List.append_assoc,
      List.cons.injEq, true_and, List.nil_append] at same
    have closes (rest : List Char) : Ends closers (')' :: rest) := ends_cons (by decide) rest
    obtain ⟨rfl, tails⟩ := word_unique shown.1 alike.1
      (ends_trailing (by decide) (closes rest).delimited)
      (ends_trailing (by decide) (closes behind).delimited) same
    have partsShown := soundAll_iff.mp shown.2
    have partsAlike := soundAll_iff.mp alike.2
    obtain ⟨rfl, closing⟩ := trailing_unique (by decide)
      (fun part member otherPart listed =>
        text_unique part otherPart (partsShown part member) (partsAlike otherPart listed))
      (closes rest) (closes behind) (by simp) (by simp) tails
    exact ⟨rfl, (List.cons.inj closing).2⟩
  | heading name parameters, heading other others =>
    rw [toList_heading, toList_heading] at same
    have opened (rest : List Char) : Ends delimiters ('(' :: rest) := ends_cons (by decide) rest
    obtain ⟨rfl, tails⟩ := word_unique shown.1 alike.1 (opened _) (opened _) same
    obtain ⟨rfl, closing⟩ := parameters_unique shown.2 alike.2 (List.cons.inj tails).2
    exact ⟨rfl, closing⟩
termination_by sizeOf form
decreasing_by
  have smaller := List.sizeOf_lt_of_mem member
  simp only [list.sizeOf_spec]
  omega

/-- Forms one to a line are known from the whole text. -/
theorem lines_unique {forms others : List Form} (shown : ∀ form ∈ forms, form.Sound)
    (alike : ∀ other ∈ others, other.Sound)
    (same : "\n".intercalate (forms.map text) = "\n".intercalate (others.map text)) :
    forms = others := by
  have single : Known text forms others := fun form member other listed =>
    text_unique form other (shown form member) (alike other listed)
  have nothing : Ends closers [] := by simp [Ends]
  have visible {form : Form} (sound : form.Sound) (tail : List Char) :
      form.text.toList ++ tail ≠ [] := by
    cases form with
    | word shown => simp [text, show shown ≠ "" from sound.1]
    | list head parts => simp [text, toList_parenthesized]
    | heading name parameters => simp [text]
  have newline : "\n".toList = ['\n'] := rfl
  have characters := congrArg (String.toList · ++ []) same
  exact (intercalate_unique newline (by decide) single nothing nothing (by simp) (by simp)
    (fun form member => visible (shown form member))
    (fun other member => visible (alike other member)) characters).1

end Form

end LoxLang

import Mathlib.Data.List.Sort
import Mathlib.Data.String.Basic
import LoxLang.Machine

/-!
# Listings

The bindings of a frame are listed in the order of the bytes of their names. Names are kept in the
order of their characters, which is the same: in UTF-8 a smaller character has smaller bytes
(`bytes_lt`). A listing is its lines (`Store.listing_eq_lines`), and these say what the frames bind
and nothing else (`Store.listsExactly`).
-/

namespace LoxLang

/-- The bytes of a text. -/
def bytes (text : String) : List UInt8 :=
  text.toUTF8.data.toList

/-- Bytes are compared one after the other. -/
theorem ofNat_cons_lt {first second : Nat} {left right : List UInt8} (bounded : second < 256)
    (le : first ≤ second) (further : first = second → left < right) :
    UInt8.ofNat first :: left < UInt8.ofNat second :: right := by
  rcases Nat.lt_or_eq_of_le le with less | rfl
  · refine .rel ?_
    rw [UInt8.lt_iff_toNat_lt, UInt8.toNat_ofNat_of_lt' (Nat.lt_trans less bounded),
      UInt8.toNat_ofNat_of_lt' bounded]
    exact less
  · exact .cons (further rfl)

/-- The bytes of a smaller character are smaller, whatever follows. -/
theorem utf8EncodeChar_lt {first second : Char} (less : first < second)
    (left right : List UInt8) :
    String.utf8EncodeChar first ++ left < String.utf8EncodeChar second ++ right := by
  have less : first.val.toNat < second.val.toNat := less
  have bounded : second.val.toNat < 1114112 := by
    rcases second.valid with valid | valid <;> omega
  unfold String.utf8EncodeChar
  generalize first.val.toNat = low at *
  generalize second.val.toNat = high at *
  dsimp only
  -- A character with more bytes starts with a greater one; of as many bytes, the first that differ
  -- decide.
  split_ifs <;> try omega
  all_goals refine ofNat_cons_lt (by omega) (by omega) fun same => ?_
  all_goals try omega
  all_goals refine ofNat_cons_lt (by omega) (by omega) fun same => ?_
  all_goals try omega
  all_goals refine ofNat_cons_lt (by omega) (by omega) fun same => ?_
  all_goals try omega
  exact ofNat_cons_lt (by omega) (by omega) fun same => by omega

theorem bytes_eq (text : String) : bytes text = text.toList.flatMap String.utf8EncodeChar := by
  rw [bytes, String.toUTF8, ← String.utf8Encode_toList, List.utf8Encode,
    List.toList_data_toByteArray]

/-- The order of texts is that of their bytes. -/
theorem bytes_lt {first second : String} (less : first < second) : bytes first < bytes second := by
  rw [bytes_eq, bytes_eq]
  have less : List.Lex (· < ·) first.toList second.toList := String.lt_iff.mp less
  generalize first.toList = left at *
  generalize second.toList = right at *
  induction less with
  | @nil next rest =>
    obtain ⟨byte, others, same⟩ : ∃ byte others, String.utf8EncodeChar next = byte :: others :=
      List.exists_cons_of_ne_nil String.utf8EncodeChar_ne_nil
    rw [List.flatMap_nil, List.flatMap_cons, same]
    exact .nil
  | rel less =>
    rw [List.flatMap_cons, List.flatMap_cons]
    exact utf8EncodeChar_lt less _ _
  | cons _ inductionHypothesis =>
    rw [List.flatMap_cons, List.flatMap_cons]
    exact List.append_left_lt inductionHypothesis

namespace Store

variable {store other : Store} {frame : Nat} {name : String} {value : Value}

/-- Exactly the names that are bound in a frame are listed, each with its value. -/
theorem mem_bindings : (name, value) ∈ store.bindings frame ↔
    store.binding? frame name = some value := by
  unfold bindings binding? Tables.value?
  cases store.frames[frame]? with
  | none => simp
  | some bindings => exact Std.TreeMap.mem_toList_iff_getElem?_eq_some

/-- Names are listed in the order of their bytes. -/
theorem bindings_pairwise (store : Store) (frame : Nat) :
    (store.bindings frame).Pairwise fun first second => bytes first.1 < bytes second.1 := by
  unfold bindings
  cases store.frames[frame]? with
  | none => exact .nil
  | some bindings =>
    exact bindings.ordered_keys_toList.imp fun less => bytes_lt (compare_lt_iff_lt.mp less)

/-- What is listed of a frame depends on what it binds only. -/
theorem bindings_congr (same : ∀ name, other.binding? frame name = store.binding? frame name) :
    other.bindings frame = store.bindings frame := by
  have antisymmetric : Std.Antisymm fun first second : String × Value =>
      bytes first.1 < bytes second.1 := ⟨fun _ _ less more => (List.lt_asymm less more).elim⟩
  have irreflexive : Std.Irrefl fun first second : String × Value =>
      bytes first.1 < bytes second.1 := ⟨fun _ => List.lt_irrefl _⟩
  refine (other.bindings_pairwise frame).eq_of_mem_iff (store.bindings_pairwise frame) ?_
  intro pair
  rw [mem_bindings, mem_bindings, same]

/-- Bind some names in a frame, one after the other. -/
def defineAll (store : Store) (frame : Nat) (definitions : List (String × Value)) : Store :=
  definitions.foldl (fun store (name, value) => store.define frame name value) store

theorem binding?_defineAll (store : Store) (frame : Nat) (definitions : List (String × Value))
    (other : Nat) (wanted : String) :
    (store.defineAll frame definitions).binding? other wanted =
      definitions.foldl (fun found (name, value) =>
        if other = frame ∧ wanted = name ∧ frame < store.frames.size then some value else found)
        (store.binding? other wanted) := by
  induction definitions generalizing store with
  | nil => rfl
  | cons definition rest inductionHypothesis =>
    change ((store.define frame definition.1 definition.2).defineAll frame rest).binding? _ _ = _
    rw [inductionHypothesis, size_define, List.foldl_cons, binding?, define, Tables.value?_set]
    rfl

/-- The order in which different names are defined in a frame does not matter. -/
theorem binding?_defineAll_of_perm {definitions others : List (String × Value)}
    (reordered : others.Perm definitions) (distinct : (definitions.map Prod.fst).Nodup)
    (other : Nat) (wanted : String) :
    (store.defineAll frame others).binding? other wanted =
      (store.defineAll frame definitions).binding? other wanted := by
  rw [binding?_defineAll, binding?_defineAll]
  refine (reordered.symm.foldl_eq' ?_ _).symm
  intro first here second there found
  by_cases same : first.1 = second.1
  · rw [List.inj_on_of_nodup_map distinct here there same]
  · dsimp only
    split_ifs with inner outer
    · exact absurd (inner.2.1.symm.trans outer.2.1) (Ne.symm same)
    all_goals rfl

end Store

/-- A text of lines. -/
def unlines : List String → String
  | [] => ""
  | line :: rest => line ++ "\n" ++ unlines rest

theorem unlines_append (first second : List String) :
    unlines (first ++ second) = unlines first ++ unlines second := by
  induction first with
  | nil => rw [List.nil_append, unlines, String.empty_append]
  | cons line rest inductionHypothesis =>
    rw [List.cons_append, unlines, unlines, inductionHypothesis]
    simp only [String.append_assoc]

namespace Store

/-- A line for each binding of a frame. -/
def bindingLines (store : Store) (frame : Nat) : List String :=
  (store.bindings frame).map fun (name, value) => name ++ " = " ++ value.display

/-- The frames of an environment from the innermost outwards, each under a heading: the last one is
that of the globals, the others are numbered by how many links lead to them. -/
def lines (store : Store) : (distance : Nat) → Environment → List String
  | _, [] => []
  | _, [frame] => "== globals ==" :: store.bindingLines frame
  | distance, frame :: next :: outer =>
    ("== scope " ++ naturalText distance ++ " ==") :: store.bindingLines frame ++
      store.lines (distance + 1) (next :: outer)

theorem frameListing_eq (store : Store) (heading : String) (frame : Nat) :
    store.frameListing heading frame = unlines (heading :: store.bindingLines frame) := by
  suffices general : ∀ (listed : List (String × Value)) (text : String),
      listed.foldl (fun text (name, value) =>
        text ++ name ++ " = " ++ value.display ++ "\n") text =
      text ++ unlines (listed.map fun (name, value) => name ++ " = " ++ value.display) from
    general _ _
  intro listed
  induction listed with
  | nil => exact fun text => (String.append_empty).symm
  | cons pair rest inductionHypothesis =>
    intro text
    rw [List.foldl_cons, inductionHypothesis, List.map_cons, unlines]
    simp only [String.append_assoc]

/-- The globals are listed last, and only they are called so. -/
theorem listing_eq_lines (store : Store) {environment : Environment} (distinct : environment.Nodup)
    (ends : environment.getLast? = some globalFrame) (distance : Nat) :
    store.listing globalFrame distance environment =
      unlines (store.lines distance environment) := by
  induction environment generalizing distance with
  | nil => cases ends
  | cons frame outer inductionHypothesis =>
    cases outer with
    | nil =>
      obtain rfl := Option.some.inj ends
      rw [listing, listing, if_pos rfl, frameListing_eq, String.append_empty]
      rfl
    | cons next outer =>
      rw [List.getLast?_cons_cons] at ends
      obtain ⟨fresh, distinct⟩ := List.nodup_cons.mp distinct
      have other : frame ≠ globalFrame := by
        rintro rfl
        exact fresh (List.mem_of_getLast? ends)
      rw [listing, if_neg other, frameListing_eq, inductionHypothesis distinct ends,
        ← unlines_append]
      rfl

/-- A text lists the frames of an environment: one heading for each, from the innermost outwards,
and below it one line for each name that the frame binds, in the order of their bytes. The text
depends on nothing else, so it does not matter in which order the names of a frame were defined. -/
structure ListsExactly (store : Store) (environment : Environment) (text : String) : Prop where
  lines : text = unlines (store.lines 0 environment)
  complete : ∀ frame name value,
    (name, value) ∈ store.bindings frame ↔ store.binding? frame name = some value
  ascending : ∀ frame,
    (store.bindings frame).Pairwise fun first second => bytes first.1 < bytes second.1
  determined : ∀ other : Store,
    (∀ frame ∈ environment, ∀ name, other.binding? frame name = store.binding? frame name) →
    unlines (other.lines 0 environment) = text
  reordered : ∀ (before : Store) (frame : Nat) (definitions others : List (String × Value)),
    store = before.defineAll frame definitions →
    (definitions.map Prod.fst).Nodup → others.Perm definitions →
    unlines ((before.defineAll frame others).lines 0 environment) = text

/-- The lines of a listing are those of what its frames bind. -/
theorem lines_congr {store other : Store} {environment : Environment}
    (same : ∀ frame ∈ environment, ∀ name,
      other.binding? frame name = store.binding? frame name) (distance : Nat) :
    other.lines distance environment = store.lines distance environment := by
  induction environment generalizing distance with
  | nil => rfl
  | cons frame outer inductionHypothesis =>
    obtain ⟨innermost, rest⟩ := List.forall_mem_cons.mp same
    have listed : other.bindingLines frame = store.bindingLines frame := by
      rw [bindingLines, bindings_congr innermost, bindingLines]
    cases outer with
    | nil => rw [lines, lines, listed]
    | cons next outer => rw [lines, lines, listed, inductionHypothesis rest]

theorem listsExactly (store : Store) (environment : Environment) :
    store.ListsExactly environment (unlines (store.lines 0 environment)) where
  lines := rfl
  complete _ _ _ := mem_bindings
  ascending := store.bindings_pairwise
  determined _ same := by rw [lines_congr same]
  reordered before frame definitions others same distinct perm := by
    subst same
    rw [lines_congr fun frame _ => binding?_defineAll_of_perm perm distinct frame]

end Store

end LoxLang

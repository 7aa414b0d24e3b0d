import Mathlib.Data.List.TakeWhile
import LoxLang.Proofs.Number.Binary64
import LoxLang.Proofs.Token.Lines
import LoxLang.Proofs.Token.Respaced
import LoxLang.Machine.Evaluation
import LoxLang.Tree.Outline

/-!
# Numbers read back

Every text of a finite number that is not negative is a number lexeme, and the number that the
lexeme stands for is the same one. Whole numbers are written with their exact digits, which name the
same magnitude; all others are written with digits that were chosen because they read back.
-/

namespace LoxLang

namespace Decimal

/-! ### Digits -/

/-- The value of digits is the library's, in base ten. -/
theorem digitsValue_eq (digits : List Char) : digitsValue digits = Nat.ofDigitChars 10 digits 0 :=
  rfl

/-- The digits of a number have its value. -/
theorem digitsValue_toDigits (value : Nat) : digitsValue (Nat.toDigits 10 value) = value :=
  Nat.ofDigitChars_ten_toDigits

/-- Further digits multiply the value by a power of ten. -/
theorem digitsValue_append (first second : List Char) :
    digitsValue (first ++ second) =
      digitsValue first * 10 ^ second.length + digitsValue second := by
  rw [digitsValue_eq, Nat.ofDigitChars_append, Nat.ofDigitChars_eq_ofDigitChars_zero,
    Nat.mul_comm]
  rfl

/-- Zeros in front of digits do not count. -/
theorem digitsValue_padded (zeros : Nat) (digits : List Char) :
    digitsValue (List.replicate zeros '0' ++ digits) = digitsValue digits := by
  rw [digitsValue_eq, Nat.ofDigitChars_append, Nat.ofDigitChars_replicate_zero, Nat.mul_zero]
  rfl

/-- The digits of a number are digits, and there is at least one. -/
theorem isDigits_toDigits (value : Nat) : IsDigits (Nat.toDigits 10 value) :=
  ⟨Nat.toDigits_ne_nil, fun _ member =>
    Piece.isDigit_iff.mp (Nat.isDigit_of_mem_toDigits (by decide) (by decide) member)⟩

/-- Every character of a run of digits is a digit. -/
theorem all_isDigit {digits : List Char} (given : IsDigits digits) :
    ∀ character ∈ digits, character.isDigit = true :=
  fun character member => Piece.isDigit_iff.mpr (given.2 character member)

/-- Digits alone are a whole number. -/
theorem ofNumeral_whole {digits : List Char} (given : IsDigits digits) :
    ofNumeral digits = { digits := digitsValue digits, exponent := 0 } := by
  have all := all_isDigit given
  have run : digits.takeWhile Char.isDigit = digits := List.takeWhile_eq_self_iff.mpr all
  have rest : digits.dropWhile Char.isDigit = [] := List.dropWhile_eq_nil_iff.mpr all
  simp [ofNumeral, run, rest]

/-- Digits behind the point lower the exponent, one place each. -/
theorem ofNumeral_decimal {whole : List Char} (before : IsDigits whole) (places : List Char) :
    ofNumeral (whole ++ '.' :: places) =
      { digits := digitsValue (whole ++ places), exponent := -(places.length : Int) } := by
  have all := all_isDigit before
  have run : (whole ++ '.' :: places).takeWhile Char.isDigit = whole := by
    rw [List.takeWhile_append_of_pos all]
    simp
  have rest : (whole ++ '.' :: places).dropWhile Char.isDigit = '.' :: places := by
    rw [List.dropWhile_append_of_pos all]
    simp
  simp [ofNumeral, run, rest]

/-! ### Positional texts -/

/-- The magnitude that a run of digits spells is that of the natural. -/
theorem numeralValue_whole (value : Nat) :
    numeralValue (Nat.toDigits 10 value) =
      Binary64.ofField false (Binary64.nearestField value 1) := by
  rw [numeralValue, ofNumeral_whole (isDigits_toDigits value), digitsValue_toDigits]
  change Binary64.ofField false (Binary64.nearestField (value * 1) 1) = _
  rw [Nat.mul_one]

/-- The digits of a number scan as the numeral nearest to it. -/
theorem lexeme_naturalText (value : Nat) :
    Lexeme (.number (Binary64.ofField false (Binary64.nearestField value 1)))
      (naturalText value).toList := by
  rw [naturalText, String.toList_ofList, ← numeralValue_whole]
  exact .whole (isDigits_toDigits value)

/-- Digits stay digits behind zeros. -/
theorem isDigits_padded (zeros fraction : Nat) :
    IsDigits (List.replicate zeros '0' ++ Nat.toDigits 10 fraction) := by
  have digits := isDigits_toDigits fraction
  refine ⟨by simp [digits.1], fun character member => ?_⟩
  rcases List.mem_append.mp member with zero | digit
  · rw [List.eq_of_mem_replicate zero]
    exact ⟨by decide, by decide⟩
  · exact digits.2 character digit

/-- The digits of a decimal's whole part, and those of its fraction padded to its places. -/
theorem ofNumeral_padded {digits power zeros : Nat}
    (full : zeros + (Nat.toDigits 10 (digits % 10 ^ (power + 1))).length = power + 1) :
    ofNumeral (Nat.toDigits 10 (digits / 10 ^ (power + 1)) ++ '.' ::
        (List.replicate zeros '0' ++ Nat.toDigits 10 (digits % 10 ^ (power + 1)))) =
      { digits, exponent := .negSucc power } := by
  have places : (List.replicate zeros '0' ++
      Nat.toDigits 10 (digits % 10 ^ (power + 1))).length = power + 1 := by
    rw [List.length_append, List.length_replicate, full]
  rw [ofNumeral_decimal (isDigits_toDigits _), digitsValue_append, places, digitsValue_padded,
    digitsValue_toDigits, digitsValue_toDigits, Nat.div_add_mod']
  rfl

/-- A decimal's text without an exponent is a number lexeme of the nearest number. -/
theorem lexeme_positional (decimal : Decimal) :
    Lexeme (.number (Binary64.ofField false decimal.field)) decimal.positional.toList := by
  obtain ⟨digits, exponent⟩ := decimal
  cases exponent with
  | ofNat power => exact lexeme_naturalText _
  | negSucc power =>
    have small : digits % 10 ^ (power + 1) < 10 ^ (power + 1) := Nat.mod_lt _ (by positivity)
    have short := (Nat.length_toDigits_le_iff (by decide) (Nat.succ_pos power)).mpr small
    have spelled := ofNumeral_padded (Nat.sub_add_cancel short)
    have lexeme := Lexeme.decimal (isDigits_toDigits (digits / 10 ^ (power + 1)))
      (isDigits_padded (power + 1 - (Nat.toDigits 10 (digits % 10 ^ (power + 1))).length)
        (digits % 10 ^ (power + 1)))
    rw [numeralValue, spelled] at lexeme
    simpa [positional, naturalText] using lexeme

/-! ### The shortest decimal -/

/-- A decimal found on the grid reads back as its target. -/
theorem onGrid_field {tie : TieRule} {target : Nat} {exponent : Int} {decimal : Decimal}
    (found : onGrid tie target exponent = some decimal) : decimal.field = target := by
  simp only [onGrid] at found
  split at found
  case isTrue lower =>
    split at found
    case isTrue upper =>
      obtain rfl := Option.some.inj found
      split
      · exact upper
      · exact lower
    case isFalse =>
      obtain rfl := Option.some.inj found
      exact lower
  case isFalse =>
    split at found
    case isTrue upper =>
      obtain rfl := Option.some.inj found
      exact upper
    case isFalse => cases found

/-- On the grid of unit `10 ^ -places` every count of steps of `2 ^ -places` is a whole number. -/
theorem field_of_grid {decimal : Decimal} {target places : Nat}
    (finite : target < Binary64.infinityField) (fine : Binary64.stepsPerUnit = Nat.pow 2 places)
    (some : places ≠ 0) (digits : decimal.digits = Binary64.steps target * Nat.pow 5 places)
    (grid : decimal.exponent = -(places : Int)) : decimal.field = target := by
  obtain ⟨power, rfl⟩ := Nat.exists_eq_succ_of_ne_zero some
  rw [field, grid, digits]
  apply Binary64.nearestField_exact (Nat.pow_pos (by decide)) finite
  rw [fine]
  change Binary64.steps target * 5 ^ (power + 1) * 2 ^ (power + 1) =
    10 ^ (power + 1) * Binary64.steps target
  rw [Nat.mul_assoc, ← Nat.mul_pow, Nat.mul_comm]

/-- The exact decimal of a finite number reads back as that number. -/
theorem exact_field {target : Nat} (finite : target < Binary64.infinityField) :
    (exact target).field = target := by
  have fine : Binary64.stepsPerUnit = Nat.pow 2 1074 := by
    unfold Binary64.stepsPerUnit
    exact Eq.refl _
  have digits : (exact target).digits = Binary64.steps target * Nat.pow 5 1074 := by
    unfold exact
    exact Eq.refl _
  exact field_of_grid finite fine (by decide) digits rfl

/-- The search for the shortest decimal ends with one that reads back. -/
theorem coarsest_field (tie : TieRule) {target : Nat} (finite : target < Binary64.infinityField)
    (fineness : Nat) : (coarsest tie target fineness).field = target := by
  induction fineness with
  | zero => exact exact_field finite
  | succ fineness inductionHypothesis =>
    rw [coarsest]
    split
    case h_1 found => exact onGrid_field found
    case h_2 => exact inductionHypothesis

/-- The shortest decimal of a finite number reads back as that number. -/
theorem shortest_field (tie : TieRule) {target : Nat} (finite : target < Binary64.infinityField) :
    (shortest tie target).field = target :=
  coarsest_field tie finite _

end Decimal

namespace NumberText

variable {field whole : Nat}

/-- A whole number has exactly the steps of its field. -/
theorem exact_of_wholeValue? (found : wholeValue? field = some whole) :
    whole * Binary64.stepsPerUnit = Binary64.steps field := by
  simp only [wholeValue?] at found
  split at found
  case isTrue divides =>
    obtain rfl := Option.some.inj found
    exact Nat.div_mul_cancel (Nat.dvd_of_mod_eq_zero divides)
  case isFalse => cases found

/-- A whole number is read back from its digits. -/
theorem nearestField_whole (finite : field < Binary64.infinityField)
    (found : wholeValue? field = some whole) : Binary64.nearestField whole 1 = field := by
  apply Binary64.nearestField_exact (by decide) finite
  rw [exact_of_wholeValue? found, Nat.one_mul]

/-- A whole number is read back from its digits with a zero behind the point. -/
theorem numeralValue_pointZero (finite : field < Binary64.infinityField)
    (found : wholeValue? field = some whole) :
    numeralValue (Nat.toDigits 10 whole ++ ['.', '0']) = Binary64.ofField false field := by
  have digits : Decimal.digitsValue (Nat.toDigits 10 whole ++ ['0']) = whole * 10 := by
    rw [Decimal.digitsValue_append, Decimal.digitsValue_toDigits]
    rfl
  rw [numeralValue, Decimal.ofNumeral_decimal (Decimal.isDigits_toDigits whole), digits]
  congr 1
  apply Binary64.nearestField_exact (by decide) finite
  rw [← exact_of_wholeValue? found]
  rw [Nat.mul_comm whole, Nat.mul_assoc]

variable (finite : field < Binary64.infinityField)
include finite

/-- The digits of a whole number scan as that number. -/
theorem lexeme_whole (found : wholeValue? field = some whole) :
    Lexeme (.number (Binary64.ofField false field)) (naturalText whole).toList := by
  have lexeme := Decimal.lexeme_naturalText whole
  rwa [nearestField_whole finite found] at lexeme

/-- With a zero behind the point they scan as that number, too. -/
theorem lexeme_pointZero (found : wholeValue? field = some whole) :
    Lexeme (.number (Binary64.ofField false field)) (naturalText whole ++ ".0").toList := by
  rw [String.toList_append, naturalText, String.toList_ofList,
    ← numeralValue_pointZero finite found]
  exact .decimal (Decimal.isDigits_toDigits whole) ⟨by simp, by simp [IsDigit]⟩

/-- The shortest text of a number scans as that number. -/
theorem lexeme_shortestText :
    Lexeme (.number (Binary64.ofField false field)) (shortestText false field).toList := by
  have lexeme := Decimal.lexeme_positional (Decimal.shortest .up field)
  rw [Decimal.shortest_field .up finite] at lexeme
  rw [shortestText, sign, if_neg Bool.false_ne_true, String.empty_append]
  exact lexeme

/-- What `print` writes for a number is a lexeme of it. -/
theorem lexeme_value :
    Lexeme (.number (Binary64.ofField false field))
      (value (Binary64.ofField false field)).toList := by
  rw [value, Binary64.read_ofField false finite]
  dsimp only
  split
  case h_1 whole found =>
    rw [sign, if_neg Bool.false_ne_true, String.empty_append]
    exact lexeme_whole finite found
  case h_2 => exact lexeme_shortestText finite

/-- What the outline of a program shows for a number is a lexeme of it. -/
theorem lexeme_literal :
    Lexeme (.number (Binary64.ofField false field))
      (literal (Binary64.ofField false field)).toList := by
  rw [literal, Binary64.read_ofField false finite]
  dsimp only
  split
  case h_1 whole found =>
    rw [sign, if_neg Bool.false_ne_true, String.empty_append]
    exact lexeme_pointZero finite found
  case h_2 => exact lexeme_shortestText finite

/-- What a token listing shows for a number is a lexeme of it. -/
theorem lexeme_token :
    Lexeme (.number (Binary64.ofField false field))
      (token (Binary64.ofField false field)).toList := by
  rw [token, Binary64.read_ofField false finite]
  dsimp only
  split
  case h_1 whole found =>
    rw [Bool.false_and, sign, if_neg Bool.false_ne_true, String.empty_append]
    split
    · exact lexeme_pointZero finite found
    · exact lexeme_shortestText finite
  case h_2 => exact lexeme_shortestText finite

end NumberText

/-- A text that scans without a fault as one number token and the end marker, and whose number has
the pattern of a given one. -/
def ReadsAs (text : String) (number : Float) : Prop :=
  ∃ again : Float,
    scan text =
        [.token { kind := .number again, lexeme := text, line := 1 },
          .token { kind := .eof, lexeme := "", line := 1 }] ∧
      again.toBits = number.toBits

/-- Numbers are made of digits and points. -/
theorem Lexeme.number_characters {number : Float} {text : List Char}
    (lexeme : Lexeme (.number number) text) :
    ∀ character ∈ text, IsDigit character ∨ character = '.' := by
  intro character member
  cases lexeme with
  | whole given => exact .inl (given.2 character member)
  | decimal before behind =>
    rcases List.mem_append.mp member with digit | member
    · exact .inl (before.2 character digit)
    rcases List.mem_cons.mp member with point | digit
    · exact .inr point
    · exact .inl (behind.2 character digit)

/-- A number lexeme is read as the number that it stands for. -/
theorem Lexeme.readsAs {text : String} {number : Float}
    (lexeme : Lexeme (.number number) text.toList) : ReadsAs text number := by
  have alone := Piece.cut_lexeme lexeme (show Parted [] by simp [Parted])
  have inline : text.toList.count '\n' = 0 := by
    apply List.count_eq_zero_of_not_mem
    intro member
    rcases lexeme.number_characters '\n' member with digit | point
    · exact (ne_of_inner (.inr digit)).1 rfl
    · cases point
  refine ⟨number, ?_, rfl⟩
  rw [scan, ← List.append_nil text.toList, alone, Piece.cut]
  simp [ScanItem.ofPieces, inline]

/-- A number that a lexeme stands for has no sign. -/
theorem Lexeme.exists_field {number : Float} {text : List Char}
    (lexeme : Lexeme (.number number) text) (finite : Binary64.IsFinite number) :
    ∃ field, field < Binary64.infinityField ∧ number = Binary64.ofField false field := by
  have bounded (decimal : Decimal) : decimal.field ≤ Binary64.infinityField := by
    unfold Decimal.field
    split <;> exact Nat.min_le_left _ _
  have spelled {digits : List Char} (same : number = numeralValue digits) :
      ∃ field, field < Binary64.infinityField ∧ number = Binary64.ofField false field := by
    refine ⟨(Decimal.ofNumeral digits).field, ?_, same⟩
    rwa [Binary64.IsFinite, same, numeralValue, Binary64.fieldOf_ofField false (bounded _)]
      at finite
  cases lexeme with
  | whole | decimal => exact spelled rfl

/-- A finite number of a source text is written in three ways: in a listing of its token, in the
outline of a program and as the value that the constant is evaluated to. Each of the texts scans as
one number token, and the number is the same. -/
theorem number_texts_read_back {source : String} {token : Token} {number : Float}
    (scanned : token ∈ scannedTokens (scan source)) (kind : token.kind = .number number)
    (finite : Binary64.IsFinite number) :
    token.display = "NUMBER " ++ token.lexeme ++ " " ++ token.kind.literalText ∧
    ReadsAs token.kind.literalText number ∧
    ReadsAs (Expr.literal (.number number)).outline number ∧
    ∀ fuel machine, ∃ value,
      Eval.evaluate (fuel + 1) (.literal (.number number)) machine = .value value machine ∧
      ReadsAs value.display number := by
  have listed : token ∈ sourceTokens source := by
    rw [← filter_scannedTokens]
    exact List.mem_filter.mpr ⟨scanned, by simp [kind]⟩
  have lexeme : Lexeme (.number number) token.lexeme.toList :=
    kind ▸ spelled_of_mem_sourceTokens listed
  obtain ⟨field, below, rfl⟩ := lexeme.exists_field finite
  refine ⟨?_, ?_, (NumberText.lexeme_literal below).readsAs, fun fuel machine => ?_⟩
  · rw [Token.display, kind]
    rfl
  · rw [kind]
    exact (NumberText.lexeme_token below).readsAs
  · exact ⟨_, rfl, (NumberText.lexeme_value below).readsAs⟩

/-- The number that is spelled with digits half way between two numbers, the upper of which is a
power of two. -/
def halfway : Float :=
  numeralValue "36893488147419101184".toList

/-- A number above the exact whole ones, halfway between two texts of its length, is read back from
each of its texts. -/
theorem number_texts_read_back_halfway :
    let token : Token := { kind := .number halfway, lexeme := "36893488147419101184", line := 2 }
    token ∈ scannedTokens (scan "print 0.1\n+ 36893488147419101184;") ∧
      token.display = "NUMBER 36893488147419101184 36893488147419103000" ∧
      ReadsAs "36893488147419103000" halfway ∧
      ReadsAs "36893488147419103232.0" halfway ∧
      ∀ machine, ∃ value,
        Eval.evaluate 1 (.literal (.number halfway)) machine = .value value machine ∧
        ReadsAs value.display halfway := by
  intro token
  have scanned : token ∈ scannedTokens (scan "print 0.1\n+ 36893488147419101184;") := by
    decide +kernel
  have listed : token.kind.literalText = "36893488147419103000" := by decide +kernel
  have shown : (Expr.literal (.number halfway)).outline = "36893488147419103232.0" := by
    decide +kernel
  obtain ⟨display, listing, outline, values⟩ :=
    number_texts_read_back scanned rfl (show Binary64.IsFinite halfway by decide +kernel)
  rw [listed] at display listing
  rw [shown] at outline
  exact ⟨scanned, display, listing, outline, values 0⟩

end LoxLang

import Vortek.DecimalText

namespace Vortek.StringToInteger

open DecimalText

/-!
# Conversions of texts to integers

`std::stoi` and `std::stoull` skip white space and convert the sign and the
decimal digits that follow; what comes after the digits is not looked at.  The
result of `std::stoi` is an `int`.  `std::stoull` also takes a minus sign and
then returns the number modulo `2 ^ 64`.

`IntegerText` says what it is for a text to be an integer, without an algorithm.
Both functions read such a text as a whole.
-/

/-- `'+'` in ASCII. -/
def plus : UInt8 := 43

/-- `std::isspace` in the "C" locale. -/
def isSpace (byte : UInt8) : Bool :=
  byte = 32 || (9 ≤ byte && byte ≤ 13)

/-- Whether there is a minus sign, and what follows the sign. -/
def splitSign : List UInt8 → Bool × List UInt8
  | [] => (false, [])
  | byte :: rest =>
      if byte = minus then
        (true, rest)
      else if byte = plus then
        (false, rest)
      else
        (false, byte :: rest)

/-- The sign and the digits that are converted, if there are digits. -/
def subject? (text : List UInt8) : Option (Bool × List UInt8) :=
  let signed := splitSign (text.dropWhile isSpace)
  let digits := signed.2.takeWhile isDigit
  if digits = [] then
    none
  else
    some (signed.1, digits)

/-- The exceptions of the conversions. -/
inductive ConversionError where
  | invalidArgument
  | outOfRange
  deriving DecidableEq, Repr

/-- `std::stoi`, for an `int` of 32 bits. -/
def stoi (text : List UInt8) : Except ConversionError Int :=
  match subject? text with
  | none => .error .invalidArgument
  | some (negative, digits) =>
      let value := signedValue negative digits
      if -2 ^ 31 ≤ value ∧ value < 2 ^ 31 then
        .ok value
      else
        .error .outOfRange

/-- `std::stoull` -/
def stoull (text : List UInt8) : Except ConversionError UInt64 :=
  match subject? text with
  | none => .error .invalidArgument
  | some (negative, digits) =>
      if digitsValue digits < 2 ^ 64 then
        .ok (UInt64.ofInt (signedValue negative digits))
      else
        .error .outOfRange

/-- A sign or none. -/
inductive SignText : List UInt8 → Bool → Prop where
  | absent : SignText [] false
  | minus : SignText [minus] true
  | plus : SignText [plus] false

/-- A text that is an integer, perhaps with white space around it. -/
inductive IntegerText : List UInt8 → Int → Prop where
  | intro
      {before sign digits after : List UInt8}
      {negative : Bool}
      (blankBefore : ∀ byte ∈ before, isSpace byte = true)
      (signed : SignText sign negative)
      (nonempty : digits ≠ [])
      (decimal : ∀ digit ∈ digits, isDigit digit = true)
      (blankAfter : ∀ byte ∈ after, isSpace byte = true) :
      IntegerText (before ++ (sign ++ (digits ++ after)))
        (signedValue negative digits)

theorem isDigit_of_isSpace
    {byte : UInt8}
    (space : isSpace byte = true) :
    isDigit byte = false := by
  simp only [isSpace, isDigit, Bool.or_eq_true, Bool.and_eq_true,
    decide_eq_true_eq, Bool.and_eq_false_iff, decide_eq_false_iff_not,
    UInt8.le_iff_toNat_le] at space ⊢
  rcases space with rfl | ⟨_, low⟩
  · exact Or.inl (by decide)
  · refine Or.inl ?_
    have small : (13 : UInt8).toNat = 13 := rfl
    have large : (48 : UInt8).toNat = 48 := rfl
    omega

/-- A digit is no white space and no sign. -/
theorem not_space_of_isDigit
    {byte : UInt8}
    (digit : isDigit byte = true) :
    isSpace byte = false ∧ byte ≠ minus ∧ byte ≠ plus := by
  refine ⟨?_, ne_minus_of_isDigit digit, ?_⟩
  · by_contra space
    rw [isDigit_of_isSpace (Bool.eq_true_of_not_eq_false space)] at digit
    cases digit
  · rintro rfl
    revert digit
    decide

/-- In front of digits there is no white space left but perhaps a sign. -/
theorem splitSign_append
    {sign digits after : List UInt8}
    {negative : Bool}
    (signed : SignText sign negative)
    (nonempty : digits ≠ [])
    (decimal : ∀ digit ∈ digits, isDigit digit = true) :
    splitSign ((sign ++ (digits ++ after)).dropWhile isSpace) =
      (negative, digits ++ after) := by
  cases signed with
  | absent =>
      obtain ⟨first, rest, rfl⟩ := List.exists_cons_of_ne_nil nonempty
      obtain ⟨visible, noMinus, noPlus⟩ :=
        not_space_of_isDigit (decimal first List.mem_cons_self)
      simp only [List.nil_append, List.cons_append,
        List.dropWhile_cons_of_neg (Bool.eq_false_iff.mp visible),
        splitSign, if_neg noMinus, if_neg noPlus]
  | minus =>
      rfl
  | plus =>
      rfl

/-- The conversions read an integer as a whole. -/
theorem subject?_of_integerText
    {text : List UInt8}
    {value : Int}
    (written : IntegerText text value) :
    ∃ negative digits,
      subject? text = some (negative, digits) ∧
        value = signedValue negative digits := by
  cases written with
  | @intro before sign digits after negative blankBefore signed nonempty
      decimal blankAfter =>
      refine ⟨negative, digits, ?_, rfl⟩
      have stops : after.takeWhile isDigit = [] := by
        cases after with
        | nil =>
            rfl
        | cons byte rest =>
            have blank := blankAfter byte List.mem_cons_self
            exact List.takeWhile_cons_of_neg
              (Bool.eq_false_iff.mp (isDigit_of_isSpace blank))
      have scanned : (digits ++ after).takeWhile isDigit = digits := by
        rw [List.takeWhile_append_of_pos decimal, stops, List.append_nil]
      rw [subject?, List.dropWhile_append_of_pos blankBefore,
        splitSign_append signed nonempty decimal]
      simp only [scanned, if_neg nonempty]

/-- A text is one integer at most. -/
theorem IntegerText.unique
    {text : List UInt8}
    {first second : Int}
    (written : IntegerText text first)
    (again : IntegerText text second) :
    first = second := by
  obtain ⟨negative, digits, subject, rfl⟩ :=
    subject?_of_integerText written
  obtain ⟨_, _, same, rfl⟩ := subject?_of_integerText again
  rw [subject] at same
  cases same
  rfl

section Converting

variable {text : List UInt8} {written : Int}

/-- What `std::stoi` returns for an integer is the integer. -/
theorem stoi_of_integerText
    {value : Int}
    (integer : IntegerText text written)
    (converted : stoi text = .ok value) :
    value = written := by
  obtain ⟨negative, digits, subject, rfl⟩ :=
    subject?_of_integerText integer
  simp only [stoi, subject] at converted
  split at converted
  · cases converted
    rfl
  · cases converted

/-- What `std::stoull` returns for an integer is equal to it modulo `2 ^ 64`. -/
theorem stoull_of_integerText
    {value : UInt64}
    (integer : IntegerText text written)
    (converted : stoull text = .ok value) :
    value = UInt64.ofInt written := by
  obtain ⟨negative, digits, subject, rfl⟩ :=
    subject?_of_integerText integer
  simp only [stoull, subject] at converted
  split at converted
  · cases converted
    rfl
  · cases converted

end Converting

end Vortek.StringToInteger

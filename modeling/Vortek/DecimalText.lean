import Mathlib.Data.List.TakeWhile
import Mathlib.Tactic.IntervalCases

namespace Vortek.DecimalText

/-!
# Decimal text of 64-bit integers

`std::to_string` prints an integer as an optional minus sign and decimal
digits without leading zeros.  `std::from_chars` reads the longest prefix of
its input that has this shape, leading zeros allowed, and reports how far it
got; a caller that wants the whole input to be a number compares that position
with the end.

`Int64Text` states the accepted language without an algorithm.  The two
directions proved here are that the whole-input check accepts exactly this
language and that printing lands in it.
-/

/-- `'-'` in ASCII. -/
def minus : UInt8 := 45

/-- The ASCII digits `'0'` to `'9'`. -/
def isDigit (byte : UInt8) : Bool :=
  48 ≤ byte && byte ≤ 57

/-- The number denoted by a sequence of digits, most significant first. -/
def digitsValue (digits : List UInt8) : Nat :=
  digits.foldl
    (fun value digit => 10 * value + (digit.toNat - 48)) 0

/-- The decimal digits of a natural number. -/
def decimalDigits (value : Nat) : List UInt8 :=
  (Nat.toDigits 10 value).map fun digit => UInt8.ofNat digit.toNat

/-- `std::to_string` at a signed 64-bit integer. -/
def stdToString (value : Int64) : List UInt8 :=
  if value.toInt < 0 then
    minus :: decimalDigits value.toInt.natAbs
  else
    decimalDigits value.toInt.natAbs

/-- The error codes `std::from_chars` reports. -/
inductive Errc where
  | ok
  | invalidArgument
  | resultOutOfRange
  deriving Repr, DecidableEq

/-- `std::from_chars_result`, with `ptr` counted from the start. -/
structure FromCharsResult where
  ptr : Nat
  ec : Errc
  value : Int64
  deriving Repr, DecidableEq

/-- The number meant by a sign and digits. -/
def signedValue (negative : Bool) (digits : List UInt8) : Int :=
  if negative then -(digitsValue digits : Int) else digitsValue digits

/-- The range of `int64_t`. -/
def InInt64Range (value : Int) : Prop :=
  -2 ^ 63 ≤ value ∧ value < 2 ^ 63

instance (value : Int) : Decidable (InInt64Range value) :=
  inferInstanceAs (Decidable (_ ∧ _))

/-- Read digits with a sign already chosen, `skipped` bytes into the text. -/
def fromDigits
    (negative : Bool)
    (skipped : Nat)
    (text : List UInt8) :
    FromCharsResult :=
  let digits := text.takeWhile isDigit
  if digits = [] then
    ⟨0, .invalidArgument, 0⟩
  else if InInt64Range (signedValue negative digits) then
    ⟨skipped + digits.length, .ok,
      Int64.ofInt (signedValue negative digits)⟩
  else
    ⟨skipped + digits.length, .resultOutOfRange, 0⟩

/-- `std::from_chars` at a signed 64-bit integer in base ten. -/
def fromChars : List UInt8 → FromCharsResult
  | [] => fromDigits false 0 []
  | byte :: rest =>
      if byte = minus then
        fromDigits true 1 rest
      else
        fromDigits false 0 (byte :: rest)

/--
The check that follows every call: no error and nothing left over, that is
`ec == std::errc{} && ptr == s.data() + s.size()`.
-/
def wholeInt64? (text : List UInt8) : Option Int64 :=
  let result := fromChars text
  if result.ec ≠ .ok ∨ result.ptr ≠ text.length then
    none
  else
    some result.value

/-- An optional minus sign and decimal digits denoting a 64-bit integer. -/
inductive Int64Text : List UInt8 → Int64 → Prop where
  | nonnegative
      {digits : List UInt8}
      {value : Int64}
      (nonempty : digits ≠ [])
      (decimal : ∀ digit ∈ digits, isDigit digit = true)
      (denotes : value.toInt = digitsValue digits) :
      Int64Text digits value
  | negative
      {digits : List UInt8}
      {value : Int64}
      (nonempty : digits ≠ [])
      (decimal : ∀ digit ∈ digits, isDigit digit = true)
      (denotes : value.toInt = -(digitsValue digits : Int)) :
      Int64Text (minus :: digits) value

section Printing

/-- The last digit of a decimal expansion comes off the end. -/
theorem decimalDigits_eq
    (value : Nat) :
    decimalDigits value =
      (if value < 10 then [] else decimalDigits (value / 10)) ++
        [UInt8.ofNat (48 + value % 10)] := by
  have digitByte :
      ∀ digit, digit < 10 →
        UInt8.ofNat (Nat.digitChar digit).toNat =
          UInt8.ofNat (48 + digit) := by
    intro digit small
    interval_cases digit <;> rfl
  unfold decimalDigits
  rw [Nat.toDigits_eq_if (by omega)]
  split
  · rename_i small
    simp [digitByte value small, Nat.mod_eq_of_lt small]
  · simp [digitByte (value % 10) (Nat.mod_lt value (by omega))]

theorem decimalDigits_ne_nil
    (value : Nat) :
    decimalDigits value ≠ [] := by
  rw [decimalDigits_eq]
  simp

/-- The byte written for a digit is a digit of that value. -/
theorem digitByte_spec
    {digit : Nat}
    (small : digit < 10) :
    isDigit (UInt8.ofNat (48 + digit)) = true ∧
      (UInt8.ofNat (48 + digit)).toNat - 48 = digit := by
  interval_cases digit <;> decide

theorem isDigit_of_mem_decimalDigits
    {value : Nat}
    {digit : UInt8}
    (member : digit ∈ decimalDigits value) :
    isDigit digit = true := by
  induction value using Nat.strong_induction_on with
  | h value inductionHypothesis =>
      rw [decimalDigits_eq] at member
      rcases List.mem_append.mp member with earlier | last
      · split at earlier
        · simp at earlier
        · exact inductionHypothesis (value / 10) (by omega) earlier
      · rw [List.mem_singleton] at last
        subst last
        exact (digitByte_spec (Nat.mod_lt value (by omega))).1

/-- Reading the digits of a number back gives the number. -/
theorem digitsValue_decimalDigits
    (value : Nat) :
    digitsValue (decimalDigits value) = value := by
  induction value using Nat.strong_induction_on with
  | h value inductionHypothesis =>
      have last := (digitByte_spec (Nat.mod_lt value (by omega))).2
      rw [decimalDigits_eq]
      split
      · simp only [digitsValue, List.nil_append, List.foldl_cons,
          List.foldl_nil, last]
        omega
      · have earlier := inductionHypothesis (value / 10) (by omega)
        simp only [digitsValue, List.foldl_append, List.foldl_cons,
          List.foldl_nil] at earlier ⊢
        rw [earlier, last]
        omega

/-- Printing a 64-bit integer gives a text denoting it. -/
theorem int64Text_stdToString
    (value : Int64) :
    Int64Text (stdToString value) value := by
  unfold stdToString
  split
  · refine .negative (decimalDigits_ne_nil _)
      (fun _ => isDigit_of_mem_decimalDigits) ?_
    rw [digitsValue_decimalDigits]
    omega
  · refine .nonnegative (decimalDigits_ne_nil _)
      (fun _ => isDigit_of_mem_decimalDigits) ?_
    rw [digitsValue_decimalDigits]
    omega

/-- Sizes below `2 ^ 63` survive the conversion to `int64_t`. -/
theorem toInt_ofInt_natCast
    {size : Nat}
    (small : size < 2 ^ 63) :
    (Int64.ofInt size).toInt = size :=
  Int64.toInt_ofInt_of_le (by omega) (by omega)

/-- Printing a size below `2 ^ 63` gives a text denoting it. -/
theorem int64Text_decimalDigits
    {size : Nat}
    (small : size < 2 ^ 63) :
    Int64Text (decimalDigits size) (Int64.ofInt size) := by
  refine .nonnegative (decimalDigits_ne_nil _)
    (fun _ => isDigit_of_mem_decimalDigits) ?_
  rw [digitsValue_decimalDigits, toInt_ofInt_natCast small]

end Printing

section Reading

/-- The digit scan stops at the end exactly on digits only. -/
theorem length_takeWhile_isDigit_iff
    {text : List UInt8} :
    (text.takeWhile isDigit).length = text.length ↔
      ∀ digit ∈ text, isDigit digit = true := by
  rw [← List.takeWhile_eq_self_iff]
  constructor
  · exact (List.takeWhile_prefix isDigit).eq_of_length
  · intro whole
    rw [whole]

/-- Every digit is different from the minus sign. -/
theorem ne_minus_of_isDigit
    {byte : UInt8}
    (digit : isDigit byte = true) :
    byte ≠ minus := by
  rintro rfl
  exact absurd digit (by decide)

/-- The digit reader accepts a whole text exactly when it is in range. -/
theorem fromDigits_whole_iff
    {negative : Bool}
    {skipped : Nat}
    {text : List UInt8}
    {value : Int64} :
    (fromDigits negative skipped text).ec = .ok ∧
        (fromDigits negative skipped text).ptr = skipped + text.length ∧
        (fromDigits negative skipped text).value = value ↔
      text ≠ [] ∧
        (∀ digit ∈ text, isDigit digit = true) ∧
        value.toInt = signedValue negative text := by
  unfold fromDigits
  simp only
  split
  · rename_i noDigits
    -- nothing was read, so an accepted text would have to be empty
    constructor
    · rintro ⟨bad, -⟩
      cases bad
    · rintro ⟨nonempty, decimal, -⟩
      rw [List.takeWhile_eq_self_iff.mpr decimal] at noDigits
      exact (nonempty noDigits).elim
  · rename_i someDigits
    split
    · rename_i inRange
      constructor
      · rintro ⟨-, reached, rfl⟩
        have decimal :=
          length_takeWhile_isDigit_iff.mp
            (Nat.add_left_cancel reached)
        have whole := List.takeWhile_eq_self_iff.mpr decimal
        rw [whole] at someDigits inRange ⊢
        exact ⟨someDigits, decimal,
          Int64.toInt_ofInt_of_le inRange.1 inRange.2⟩
      · rintro ⟨-, decimal, denotes⟩
        have whole := List.takeWhile_eq_self_iff.mpr decimal
        rw [whole]
        refine ⟨rfl, rfl, ?_⟩
        rw [← denotes, Int64.ofInt_toInt]
    · rename_i outOfRange
      constructor
      · rintro ⟨bad, -⟩
        cases bad
      · rintro ⟨-, decimal, denotes⟩
        have whole := List.takeWhile_eq_self_iff.mpr decimal
        rw [whole, ← denotes] at outOfRange
        exact (outOfRange
          ⟨value.le_toInt, value.toInt_lt⟩).elim

/-- The whole-input check in terms of the result's three fields. -/
theorem wholeInt64?_eq_some
    {text : List UInt8}
    {value : Int64} :
    wholeInt64? text = some value ↔
      (fromChars text).ec = .ok ∧
        (fromChars text).ptr = text.length ∧
        (fromChars text).value = value := by
  unfold wholeInt64?
  simp only
  split
  · rename_i refused
    simp only [reduceCtorEq, false_iff]
    rintro ⟨noError, reached, -⟩
    exact refused.elim (· noError) (· reached)
  · rename_i accepted
    push Not at accepted
    simp [accepted]

/-- The whole-input check accepts exactly the decimal texts in range. -/
theorem wholeInt64?_eq_some_iff
    {text : List UInt8}
    {value : Int64} :
    wholeInt64? text = some value ↔ Int64Text text value := by
  rw [wholeInt64?_eq_some]
  constructor
  · intro accepted
    cases text with
    | nil =>
        simp [fromChars, fromDigits] at accepted
    | cons byte rest =>
        by_cases signed : byte = minus
        · subst signed
          simp only [fromChars, ↓reduceIte, List.length_cons,
            Nat.add_comm rest.length 1] at accepted
          obtain ⟨nonempty, decimal, denotes⟩ :=
            fromDigits_whole_iff.mp accepted
          exact .negative nonempty decimal denotes
        · simp only [fromChars, signed, ↓reduceIte] at accepted
          rw [← Nat.zero_add (byte :: rest).length] at accepted
          obtain ⟨nonempty, decimal, denotes⟩ :=
            fromDigits_whole_iff.mp accepted
          exact .nonnegative nonempty decimal denotes
  · intro denoted
    cases denoted with
    | @nonnegative _ _ nonempty decimal denotes =>
        cases text with
        | nil =>
            exact (nonempty rfl).elim
        | cons byte rest =>
            have unsigned :=
              ne_minus_of_isDigit (decimal byte (by simp))
            simp only [fromChars, unsigned, ↓reduceIte]
            rw [← Nat.zero_add (byte :: rest).length]
            exact fromDigits_whole_iff.mpr
              ⟨nonempty, decimal, denotes⟩
    | @negative digits _ nonempty decimal denotes =>
        simp only [fromChars, ↓reduceIte, List.length_cons,
          Nat.add_comm digits.length 1]
        exact fromDigits_whole_iff.mpr
          ⟨nonempty, decimal, denotes⟩

/-- A decimal text holds only digits and the minus sign. -/
theorem Int64Text.digit_or_minus
    {text : List UInt8}
    {value : Int64}
    (denoted : Int64Text text value)
    {byte : UInt8}
    (member : byte ∈ text) :
    isDigit byte = true ∨ byte = minus := by
  cases denoted with
  | nonnegative nonempty decimal denotes =>
      exact Or.inl (decimal byte member)
  | negative nonempty decimal denotes =>
      rcases List.mem_cons.mp member with isMinus | inDigits
      · exact Or.inr isMinus
      · exact Or.inl (decimal byte inDigits)

end Reading

end Vortek.DecimalText

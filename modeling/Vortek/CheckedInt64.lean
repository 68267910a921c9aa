import Vortek.DecimalText

namespace Vortek.CheckedInt64

open DecimalText

/-!
# Signed 64-bit arithmetic without overflow

The C++ operators on `int64_t` are defined only where the exact result is in
range.  The operations here have no result elsewhere.  Where they have one, it
is the exact one, and it is what the wrapping operators of `Int64` compute.
-/

/-- The 64-bit integer of this value, if there is one. -/
def ofInt? (value : Int) : Option Int64 :=
  if InInt64Range value then some (Int64.ofInt value) else none

/-- The sum, if it fits. -/
def add (first second : Int64) : Option Int64 :=
  ofInt? (first.toInt + second.toInt)

/-- The difference, if it fits. -/
def sub (first second : Int64) : Option Int64 :=
  ofInt? (first.toInt - second.toInt)

/-- The product, if it fits. -/
def mul (first second : Int64) : Option Int64 :=
  ofInt? (first.toInt * second.toInt)

/-- The negation, if it fits. -/
def neg (value : Int64) : Option Int64 :=
  ofInt? (-value.toInt)

/-- Every 64-bit integer is in range. -/
theorem inInt64Range_toInt
    (value : Int64) :
    InInt64Range value.toInt :=
  ⟨value.le_toInt, value.toInt_lt⟩

/-- The wrapping conversion of a value in range is exact. -/
theorem toInt_ofInt_of_inRange
    {value : Int}
    (inRange : InInt64Range value) :
    (Int64.ofInt value).toInt = value :=
  Int64.toInt_ofInt_of_le inRange.1 inRange.2

/-- The result is exact where there is one. -/
theorem ofInt?_eq_some_iff
    {value : Int}
    {result : Int64} :
    ofInt? value = some result ↔ result.toInt = value := by
  unfold ofInt?
  by_cases inRange : InInt64Range value
  · rw [if_pos inRange, Option.some.injEq]
    constructor
    · rintro rfl
      exact toInt_ofInt_of_inRange inRange
    · rintro rfl
      exact Int64.ofInt_toInt result
  · rw [if_neg inRange]
    refine iff_of_false (Option.some_ne_none _).symm ?_
    rintro rfl
    exact inRange (inInt64Range_toInt result)

/-- A nonnegative number survives the conversion to 64 bits without sign. -/
theorem toNat_toUInt64
    {value : Int64}
    (nonnegative : 0 ≤ value.toInt) :
    value.toUInt64.toNat = value.toInt.toNat := by
  have signed : value.toInt = value.toBitVec.toInt :=
    rfl
  have unsigned : value.toUInt64.toNat = value.toBitVec.toNat :=
    rfl
  have cases := BitVec.toInt_eq_toNat_cond value.toBitVec
  have bound := value.toBitVec.isLt
  rw [signed] at nonnegative ⊢
  rw [unsigned]
  split at cases <;> omega

section Operators

variable {first second : Int64}

/-- The wrapping sum is exact if the exact one fits. -/
theorem toInt_add_of_inRange
    (inRange : InInt64Range (first.toInt + second.toInt)) :
    (first + second).toInt = first.toInt + second.toInt := by
  rw [Int64.toInt_add]
  exact Int.bmod_eq_of_le inRange.1 inRange.2

theorem toInt_sub_of_inRange
    (inRange : InInt64Range (first.toInt - second.toInt)) :
    (first - second).toInt = first.toInt - second.toInt := by
  rw [Int64.toInt_sub]
  exact Int.bmod_eq_of_le inRange.1 inRange.2

/-- The wrapping product is exact if the exact one fits. -/
theorem toInt_mul_of_inRange
    (inRange : InInt64Range (first.toInt * second.toInt)) :
    (first * second).toInt = first.toInt * second.toInt := by
  rw [Int64.toInt_mul]
  exact Int.bmod_eq_of_le inRange.1 inRange.2

theorem toInt_neg_of_inRange
    (inRange : InInt64Range (-first.toInt)) :
    (-first).toInt = -first.toInt := by
  rw [Int64.toInt_neg]
  exact Int.bmod_eq_of_le inRange.1 inRange.2

/-- A sum in range is what the wrapping operator computes. -/
theorem add_eq_some
    (inRange : InInt64Range (first.toInt + second.toInt)) :
    add first second = some (first + second) :=
  ofInt?_eq_some_iff.mpr (toInt_add_of_inRange inRange)

/-- A difference that fits is the wrapping one. -/
theorem sub_eq_some
    (inRange : InInt64Range (first.toInt - second.toInt)) :
    sub first second = some (first - second) :=
  ofInt?_eq_some_iff.mpr (toInt_sub_of_inRange inRange)

theorem neg_eq_some
    (inRange : InInt64Range (-first.toInt)) :
    neg first = some (-first) :=
  ofInt?_eq_some_iff.mpr (toInt_neg_of_inRange inRange)

end Operators

end Vortek.CheckedInt64

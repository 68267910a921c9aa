import Vortek.LineSplit

namespace Vortek

/-!
# Byte strings of the server

Every `std::string` of the server is a sequence of bytes: keys, values, command
names and buffers may hold any byte.  Message texts of the source are ASCII
literals.  The case conversions are those of the default "C" locale, which the
server never changes.
-/

/-- Contents of a `std::string`. -/
abbrev Bytes := List UInt8

/-- The bytes of an ASCII literal. -/
def ascii (text : String) : Bytes :=
  text.toList.map fun character => UInt8.ofNat character.toNat

/-- Carriage return. -/
def cr : UInt8 := 13

/-- Line feed. -/
def lf : UInt8 := 10

/-- The line terminator of the protocol. -/
def crlf : Bytes := [cr, lf]

/-- No line terminator occurs inside the text. -/
abbrev CrlfFree (text : Bytes) : Prop :=
  LineSplit.PairFree cr lf text

/-- `buf_.find("\r\n", offset)`, with `none` for `npos`. -/
def findCrlf (buf : Bytes) (offset : Nat) : Option Nat :=
  (LineSplit.findPair cr lf (buf.drop offset)).map (· + offset)

/-- `std::toupper` in the "C" locale. -/
def toUpper (byte : UInt8) : UInt8 :=
  if 97 ≤ byte ∧ byte ≤ 122 then byte - 32 else byte

/-- `std::tolower` in the "C" locale. -/
def toLower (byte : UInt8) : UInt8 :=
  if 65 ≤ byte ∧ byte ≤ 90 then byte + 32 else byte

/-- Upper-case every byte of a text. -/
def upper (text : Bytes) : Bytes :=
  text.map toUpper

/-- Lower-case every byte of a text. -/
def lower (text : Bytes) : Bytes :=
  text.map toLower

/-- Exceptions the modelled code can throw, all caught as `std::exception`. -/
inductive CppException where
  | runtimeError (text : Bytes)
  | badVariantAccess
  | lengthError
  | badAlloc
  deriving Repr, DecidableEq

/--
`std::exception::what`, with the texts of libstdc++.  It is a C string, so the
text of a `std::runtime_error` ends in front of its first NUL.
-/
def CppException.what : CppException → Bytes
  | .runtimeError text => text.takeWhile fun byte => byte != 0
  | .badVariantAccess => ascii "std::get: wrong index for variant"
  | .lengthError => ascii "vector::reserve"
  | .badAlloc => ascii "std::bad_alloc"

/--
How `std::vector::reserve` answers a requested element count: `none` when the
storage is there, otherwise the exception.  Allocation is a function of the
count only.
-/
abbrev Reserve := Nat → Option CppException

theorem cr_ne_lf : cr ≠ lf := by
  decide

/-- Upper-casing twice is upper-casing once. -/
@[simp] theorem toUpper_toUpper
    (byte : UInt8) :
    toUpper (toUpper byte) = toUpper byte := by
  by_cases lowerCase : 97 ≤ byte ∧ byte ≤ 122
  · have shifted : ¬ (97 ≤ byte - 32 ∧ byte - 32 ≤ 122) := by
      simp only [UInt8.le_iff_toNat_le, UInt8.reduceToNat] at lowerCase ⊢
      rw [UInt8.toNat_sub_of_le byte 32
        (UInt8.le_iff_toNat_le.mpr (by simp; omega))]
      simp only [UInt8.reduceToNat]
      omega
    rw [toUpper, toUpper, if_pos lowerCase, if_neg shifted]
  · simp only [toUpper, lowerCase, ↓reduceIte]

@[simp] theorem upper_upper
    (text : Bytes) :
    upper (upper text) = upper text := by
  simp [upper]

/-- A text without carriage return has no line terminator inside. -/
theorem crlfFree_of_not_mem
    {text : Bytes}
    (absent : cr ∉ text) :
    CrlfFree text :=
  LineSplit.pairFree_of_not_mem absent

/-- Quoting a text between bytes that are not CR or LF adds no terminator. -/
theorem crlfFree_quoted_iff
    {before text after : Bytes}
    (beforeClear : cr ∉ before)
    (afterClear : lf ∉ after)
    (afterStart : cr ∉ after) :
    CrlfFree (before ++ text ++ after) ↔ CrlfFree text := by
  constructor
  · intro free
    exact free.of_infix ⟨before, after, rfl⟩
  · intro free
    have frontFree : CrlfFree (before ++ text) := by
      refine (crlfFree_of_not_mem beforeClear).append free (Or.inl ?_)
      intro lastIsCr
      exact beforeClear (List.mem_of_getLast? lastIsCr)
    refine frontFree.append (crlfFree_of_not_mem afterStart) (Or.inr ?_)
    intro headIsLf
    exact afterClear (List.mem_of_head? headIsLf)

/-- A found terminator splits the buffer behind the offset. -/
theorem findCrlf_eq_some_iff
    {buf : Bytes}
    {offset position : Nat} :
    findCrlf buf offset = some position ↔
      ∃ line rest,
        buf.drop offset = line ++ crlf ++ rest ∧
          CrlfFree line ∧
          position = offset + line.length := by
  unfold findCrlf
  rw [Option.map_eq_some_iff]
  constructor
  · rintro ⟨index, found, rfl⟩
    obtain ⟨line, rest, shape, free, rfl⟩ :=
      (LineSplit.findPair_eq_some_iff cr_ne_lf).mp found
    exact ⟨line, rest, by simpa [crlf] using shape, free, by omega⟩
  · rintro ⟨line, rest, shape, free, rfl⟩
    refine ⟨line.length, ?_, by omega⟩
    exact (LineSplit.findPair_eq_some_iff cr_ne_lf).mpr
      ⟨line, rest, by simpa [crlf] using shape, free, rfl⟩

end Vortek

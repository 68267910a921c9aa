import Vortek.RespParser

namespace Vortek

open DecimalText

/-!
# The RESP2 grammar and what the parser accepts

`Frame` is the grammar of one wire value, with the two places left open in
which RESP2 and the parser may differ: the two bytes behind a bulk payload and
the spelling of a null length.  `Dialect.resp2` fills them as the protocol
does.  `Dialect.parser` fills them as the code does: it counts the two bytes
without looking at them, takes any decimal spelling of minus one, and needs
storage for an array before it reads the elements.

`parse_eq_some_iff` identifies the parser with the second grammar.  Properties
of accepted input are then read off the grammar, without the parser.
-/

/-- The choices a grammar of RESP values leaves open. -/
structure Dialect where
  bulkEnd : Bytes → Prop
  nullLength : Bytes → Prop
  arrayCount : Nat → Prop

namespace Dialect

/-- RESP2: CR LF behind a payload, and `-1` written as such. -/
def resp2 : Dialect where
  bulkEnd closing := closing = crlf
  nullLength text := text = ascii "-1"
  arrayCount _ := True

/-- The language of `RespParser::parse`. -/
def parser (reserve : Reserve) : Dialect where
  bulkEnd closing := closing.length = 2
  nullLength text := Int64Text text (-1)
  arrayCount count := reserve count = none

end Dialect

mutual

/-- The bytes of one value. -/
inductive Frame (dialect : Dialect) : Bytes → RespValue → Prop where
  | simpleString
      {line : Bytes}
      (free : CrlfFree line) :
      Frame dialect (byteOf '+' :: (line ++ crlf)) (.simpleString line)
  | error
      {line : Bytes}
      (free : CrlfFree line) :
      Frame dialect (byteOf '-' :: (line ++ crlf)) (.error line)
  | integer
      {text : Bytes}
      {value : Int64}
      (denotes : Int64Text text value) :
      Frame dialect (byteOf ':' :: (text ++ crlf)) (.integer value)
  | bulkString
      {text payload closing : Bytes}
      {length : Int64}
      (denotes : Int64Text text length)
      (measured : length.toInt = payload.length)
      (closed : dialect.bulkEnd closing) :
      Frame dialect
        (byteOf '$' :: (text ++ crlf ++ payload ++ closing))
        (.bulkString payload)
  | nullBulk
      {text : Bytes}
      (spelled : dialect.nullLength text) :
      Frame dialect (byteOf '$' :: (text ++ crlf)) .null
  | nullArray
      {text : Bytes}
      (spelled : dialect.nullLength text) :
      Frame dialect (byteOf '*' :: (text ++ crlf)) .null
  | array
      {text body : Bytes}
      {count : Int64}
      {elements : List RespValue}
      (denotes : Int64Text text count)
      (counted : count.toInt = elements.length)
      (admitted : dialect.arrayCount elements.length)
      (derived : Frames dialect body elements) :
      Frame dialect (byteOf '*' :: (text ++ crlf ++ body)) (.array elements)

/-- The bytes of several values, one after another. -/
inductive Frames (dialect : Dialect) : Bytes → List RespValue → Prop where
  | nil : Frames dialect [] []
  | cons
      {first rest : Bytes}
      {value : RespValue}
      {values : List RespValue}
      (derived : Frame dialect first value)
      (later : Frames dialect rest values) :
      Frames dialect (first ++ rest) (value :: values)

end

section Numbers

/-- Numbers never contain a line terminator. -/
theorem crlfFree_of_int64Text
    {text : Bytes}
    {value : Int64}
    (denoted : Int64Text text value) :
    CrlfFree text := by
  refine crlfFree_of_not_mem fun member => ?_
  rcases denoted.digit_or_minus member with digit | isMinus
  · exact absurd digit (by decide)
  · exact absurd isMinus (by decide)

theorem int64Text_minusOne : Int64Text (ascii "-1") (-1) :=
  wholeInt64?_eq_some_iff.mp (by decide)

/-- A size read from a nonnegative number. -/
theorem toNatClampNeg_of_toInt
    {number : Int64}
    {size : Nat}
    (same : number.toInt = size) :
    number.toNatClampNeg = size ∧ number ≠ -1 ∧ ¬ number < 0 := by
  refine ⟨?_, ?_, ?_⟩
  · rw [← Int64.toNat_toInt, same]
    simp
  · rintro rfl
    have : (-1 : Int64).toInt = -1 := by decide
    omega
  · rw [Int64.lt_iff_toInt_lt, same]
    simp

/-- A number that is neither minus one nor negative is a size. -/
theorem toInt_of_not_negative
    {number : Int64}
    (nonnegative : ¬ number < 0) :
    number.toInt = number.toNatClampNeg := by
  rw [Int64.lt_iff_toInt_lt] at nonnegative
  rw [← Int64.toNat_toInt]
  simp at nonnegative
  omega

end Numbers

section Dialects

variable {narrow wide : Dialect}

mutual

/-- A frame of a narrower dialect is a frame of a wider one. -/
theorem Frame.mono
    (bulkEnd : ∀ closing, narrow.bulkEnd closing → wide.bulkEnd closing)
    (nullLength : ∀ text, narrow.nullLength text → wide.nullLength text)
    {limit : Nat}
    (arrayCount : ∀ count, count ≤ limit → wide.arrayCount count)
    {frame : Bytes}
    {value : RespValue}
    (derived : Frame narrow frame value)
    (short : frame.length ≤ limit) :
    Frame wide frame value := by
  cases derived with
  | simpleString free =>
      exact .simpleString free
  | error free =>
      exact .error free
  | integer denotes =>
      exact .integer denotes
  | bulkString denotes measured closed =>
      exact .bulkString denotes measured (bulkEnd _ closed)
  | nullBulk spelled =>
      exact .nullBulk (nullLength _ spelled)
  | nullArray spelled =>
      exact .nullArray (nullLength _ spelled)
  | @array text body count elements denotes counted admitted derived =>
      have bodyShort : body.length ≤ limit := by
        simp only [List.length_cons, List.length_append] at short
        omega
      obtain ⟨widened, counts⟩ :=
        Frames.mono bulkEnd nullLength arrayCount derived bodyShort
      exact .array denotes counted
        (arrayCount _ (Nat.le_trans counts bodyShort)) widened

/-- The same for several frames, which are at least as long as many. -/
theorem Frames.mono
    (bulkEnd : ∀ closing, narrow.bulkEnd closing → wide.bulkEnd closing)
    (nullLength : ∀ text, narrow.nullLength text → wide.nullLength text)
    {limit : Nat}
    (arrayCount : ∀ count, count ≤ limit → wide.arrayCount count)
    {body : Bytes}
    {values : List RespValue}
    (derived : Frames narrow body values)
    (short : body.length ≤ limit) :
    Frames wide body values ∧ values.length ≤ body.length := by
  cases derived with
  | nil =>
      exact ⟨.nil, Nat.le_refl 0⟩
  | @cons first rest value values head later =>
      simp only [List.length_append] at short
      have headWide :=
        Frame.mono bulkEnd nullLength arrayCount head (by omega)
      obtain ⟨laterWide, counts⟩ :=
        Frames.mono bulkEnd nullLength arrayCount later (by omega)
      have nonempty : 0 < first.length := by
        cases head <;> simp
      refine ⟨.cons headWide laterWide, ?_⟩
      simp only [List.length_cons, List.length_append]
      omega

end

end Dialects

namespace RespParser

variable {reserve : Reserve}

/-- Reading the first byte behind an offset. -/
theorem getElem?_of_drop_eq_cons
    {buf rest : Bytes}
    {offset : Nat}
    {byte : UInt8}
    (shape : buf.drop offset = byte :: rest) :
    buf[offset]? = some byte ∧ buf.drop (offset + 1) = rest := by
  constructor
  · rw [← Nat.add_zero offset, ← List.getElem?_drop, shape]
    rfl
  · rw [← List.drop_drop, shape]
    rfl

theorem drop_eq_cons_of_getElem?
    {buf : Bytes}
    {offset : Nat}
    {byte : UInt8}
    (found : buf[offset]? = some byte) :
    buf.drop offset = byte :: buf.drop (offset + 1) := by
  obtain ⟨inside, rfl⟩ := List.getElem?_eq_some_iff.mp found
  exact List.drop_eq_getElem_cons inside

/-- Dropping a known front of the remaining bytes. -/
theorem drop_add_of_append
    {buf front rest : Bytes}
    {offset : Nat}
    (shape : buf.drop offset = front ++ rest) :
    buf.drop (offset + front.length) = rest := by
  rw [← List.drop_drop, shape]
  simp

section Accepting

/-- The line of a number read behind a type byte. -/
theorem readLine_of_int64Text
    {buf text rest : Bytes}
    {offset : Nat}
    {value : Int64}
    (denotes : Int64Text text value)
    (shape : buf.drop offset = text ++ crlf ++ rest) :
    readLine buf offset = some (text, offset + text.length + 2) ∧
      wholeInt64? text = some value ∧
      buf.drop (offset + text.length + 2) = rest := by
  refine ⟨?_, wholeInt64?_eq_some_iff.mpr denotes, ?_⟩
  · exact readLine_eq_some_iff.mpr
      ⟨rest, shape, crlfFree_of_int64Text denotes, rfl⟩
  · have behind := drop_add_of_append shape
    simpa [crlf, Nat.add_assoc] using behind

/-- A bulk string with any two bytes behind its payload is read. -/
theorem parseBulkString_of_shape
    {buf text payload closing rest : Bytes}
    {offset : Nat}
    {length : Int64}
    (denotes : Int64Text text length)
    (measured : length.toInt = payload.length)
    (two : closing.length = 2)
    (shape :
      buf.drop offset =
        text ++ crlf ++ (payload ++ (closing ++ rest))) :
    parseBulkString buf offset =
      .ok (some (.bulkString payload,
        offset + text.length + 2 + payload.length + 2)) := by
  obtain ⟨read, number, behind⟩ := readLine_of_int64Text denotes shape
  obtain ⟨size, notNull, notNegative⟩ :=
    toNatClampNeg_of_toInt measured
  have room :
      offset + text.length + 2 + payload.length + 2 ≤ buf.length := by
    have lengths := congrArg List.length behind
    simp only [List.length_drop, List.length_append] at lengths
    omega
  simp only [parseBulkString, read, number, notNull, ↓reduceIte,
    notNegative, size, behind, List.take_left, gt_iff_lt,
    Nat.not_lt.mpr room]

mutual

/-- The parser reads every frame of its dialect and stops behind it. -/
theorem parse_of_frame
    {frame : Bytes}
    {value : RespValue}
    (derived : Frame (.parser reserve) frame value)
    {buf rest : Bytes}
    {offset : Nat}
    (shape : buf.drop offset = frame ++ rest) :
    parse reserve buf offset =
      .ok (some (value, offset + frame.length)) := by
  rw [parse_eq]
  cases derived with
  | @simpleString line free =>
      obtain ⟨atOffset, behind⟩ := getElem?_of_drop_eq_cons shape
      have read := readLine_eq_some_iff.mpr ⟨rest, behind, free, rfl⟩
      simp [parseStep_simpleString atOffset, parseSimpleString, read,
        crlf]
      omega
  | @error line free =>
      obtain ⟨atOffset, behind⟩ := getElem?_of_drop_eq_cons shape
      have read := readLine_eq_some_iff.mpr ⟨rest, behind, free, rfl⟩
      simp [parseStep_error atOffset, parseError, read, crlf]
      omega
  | @integer text value denotes =>
      obtain ⟨atOffset, behind⟩ := getElem?_of_drop_eq_cons shape
      obtain ⟨read, number, -⟩ := readLine_of_int64Text denotes behind
      simp [parseStep_integer atOffset, parseInteger, read, number,
        crlf]
      omega
  | @bulkString text payload closing length denotes measured closed =>
      obtain ⟨atOffset, behind⟩ := getElem?_of_drop_eq_cons shape
      have two : closing.length = 2 := closed
      rw [parseStep_bulkString atOffset,
        parseBulkString_of_shape denotes measured two
          (by simpa using behind)]
      simp only [List.length_cons, List.length_append, crlf,
        List.length_nil, two]
      congr 3
      omega
  | @nullBulk text spelled =>
      obtain ⟨atOffset, behind⟩ := getElem?_of_drop_eq_cons shape
      obtain ⟨read, number, -⟩ := readLine_of_int64Text spelled behind
      simp [parseStep_bulkString atOffset, parseBulkString, read,
        number, crlf]
      omega
  | @nullArray text spelled =>
      obtain ⟨atOffset, behind⟩ := getElem?_of_drop_eq_cons shape
      obtain ⟨read, number, -⟩ := readLine_of_int64Text spelled behind
      simp [parseStep_array atOffset, parseArray, read, number, crlf]
      omega
  | @array text body count elements denotes counted admitted derived =>
      obtain ⟨atOffset, behind⟩ := getElem?_of_drop_eq_cons shape
      obtain ⟨read, number, bodyShape⟩ :=
        readLine_of_int64Text denotes
          (by simpa using behind :
            buf.drop (offset + 1) = text ++ crlf ++ (body ++ rest))
      obtain ⟨size, notNull, notNegative⟩ :=
        toNatClampNeg_of_toInt counted
      have storage : reserve elements.length = none := admitted
      have chain := elementChain_of_frames derived bodyShape
      have loop :
          parseElements (parse reserve buf) elements.length []
              (offset + 1 + text.length + 2) =
            .ok (some (.array elements, _)) :=
        parseElements_eq_some_iff.mpr ⟨elements, rfl, by simp, chain⟩
      simp only [parseStep_array atOffset, parseArray, read, number,
        notNull, ↓reduceIte, notNegative, size, storage, loop]
      simp only [List.length_cons, List.length_append, crlf,
        List.length_nil]
      congr 3
      omega

/-- Several frames are read as a chain of elements. -/
theorem elementChain_of_frames
    {body : Bytes}
    {values : List RespValue}
    (derived : Frames (.parser reserve) body values)
    {buf rest : Bytes}
    {offset : Nat}
    (shape : buf.drop offset = body ++ rest) :
    ElementChain (parse reserve buf) offset values
      (offset + body.length) := by
  cases derived with
  | nil =>
      exact .nil offset
  | @cons first later value values head tail =>
      rw [List.append_assoc] at shape
      have one := parse_of_frame head shape
      have more :=
        elementChain_of_frames tail (drop_add_of_append shape)
      rw [List.length_append, ← Nat.add_assoc]
      exact .cons one more

end

end Accepting

section Accepted

/-- A byte in front of a frame body, with its offset. -/
theorem drop_eq_cons_append
    {buf body rest : Bytes}
    {offset : Nat}
    {byte : UInt8}
    (atOffset : buf[offset]? = some byte)
    (shape : buf.drop (offset + 1) = body ++ rest) :
    buf.drop offset = (byte :: body) ++ rest := by
  rw [drop_eq_cons_of_getElem? atOffset, shape]
  rfl

/-- A line value comes from the line in front of a terminator. -/
theorem exists_line_of_parsed
    {buf : Bytes}
    {offset final : Nat}
    {value : RespValue}
    {wrap : Bytes → RespValue}
    (parsed :
      (match readLine buf offset with
        | none => (.ok none : Parsed)
        | some (line, final) => .ok (some (wrap line, final))) =
        .ok (some (value, final))) :
    ∃ line rest,
      buf.drop offset = line ++ crlf ++ rest ∧
        CrlfFree line ∧
        value = wrap line ∧
        final = offset + line.length + 2 := by
  cases read : readLine buf offset with
  | none =>
      simp [read] at parsed
  | some pair =>
      obtain ⟨line, stop⟩ := pair
      obtain ⟨rest, shape, free, rfl⟩ := readLine_eq_some_iff.mp read
      simp only [read, Except.ok.injEq, Option.some.injEq,
        Prod.mk.injEq] at parsed
      exact ⟨line, rest, shape, free, parsed.1.symm, parsed.2.symm⟩

/-- A parsed integer comes from its decimal text. -/
theorem exists_text_of_parseInteger
    {buf : Bytes}
    {offset final : Nat}
    {value : RespValue}
    (parsed : parseInteger buf offset = .ok (some (value, final))) :
    ∃ text number rest,
      buf.drop offset = text ++ crlf ++ rest ∧
        Int64Text text number ∧
        value = .integer number ∧
        final = offset + text.length + 2 := by
  unfold parseInteger at parsed
  cases read : readLine buf offset with
  | none =>
      simp [read] at parsed
  | some pair =>
      obtain ⟨line, stop⟩ := pair
      obtain ⟨rest, shape, -, rfl⟩ := readLine_eq_some_iff.mp read
      simp only [read] at parsed
      cases number : wholeInt64? line with
      | none =>
          simp [number] at parsed
      | some found =>
          simp only [number, Except.ok.injEq, Option.some.injEq,
            Prod.mk.injEq] at parsed
          exact ⟨line, found, rest, shape,
            wholeInt64?_eq_some_iff.mp number,
            parsed.1.symm, parsed.2.symm⟩

/-- A parsed bulk string is a null length or a payload and two bytes. -/
theorem exists_payload_of_parseBulkString
    {buf : Bytes}
    {offset final : Nat}
    {value : RespValue}
    (parsed : parseBulkString buf offset = .ok (some (value, final))) :
    ∃ text rest,
      (buf.drop offset = text ++ crlf ++ rest ∧
        Int64Text text (-1) ∧
        value = .null ∧
        final = offset + text.length + 2) ∨
      ∃ payload closing length,
        buf.drop offset =
            text ++ crlf ++ (payload ++ (closing ++ rest)) ∧
          Int64Text text length ∧
          length.toInt = payload.length ∧
          closing.length = 2 ∧
          value = .bulkString payload ∧
          final = offset + text.length + 2 + payload.length + 2 := by
  unfold parseBulkString at parsed
  cases read : readLine buf offset with
  | none =>
      simp [read] at parsed
  | some pair =>
      obtain ⟨text, afterLen⟩ := pair
      have bounds := readLine_bounds read
      obtain ⟨rest, shape, -, rfl⟩ := readLine_eq_some_iff.mp read
      simp only [read] at parsed
      cases number : wholeInt64? text with
      | none =>
          simp [number] at parsed
      | some len =>
          have denotes := wholeInt64?_eq_some_iff.mp number
          obtain ⟨-, -, behind⟩ := readLine_of_int64Text denotes shape
          simp only [number] at parsed
          by_cases isNull : len = -1
          · subst isNull
            simp only [↓reduceIte, Except.ok.injEq, Option.some.injEq,
              Prod.mk.injEq] at parsed
            exact ⟨text, rest, Or.inl ⟨shape, denotes,
              parsed.1.symm, parsed.2.symm⟩⟩
          · by_cases negative : len < 0
            · simp [isNull, negative] at parsed
            · by_cases short :
                  offset + text.length + 2 + len.toNatClampNeg + 2 >
                    buf.length
              · simp [isNull, negative, short] at parsed
              · simp only [isNull, negative, short, ↓reduceIte,
                  Except.ok.injEq, Option.some.injEq,
                  Prod.mk.injEq] at parsed
                have restLength := congrArg List.length behind
                rw [List.length_drop] at restLength
                -- payload, its two trailing bytes, and what follows
                refine ⟨text, rest.drop (len.toNatClampNeg + 2),
                  Or.inr ⟨rest.take len.toNatClampNeg,
                    (rest.drop len.toNatClampNeg).take 2, len,
                    ?_, denotes, ?_, ?_, ?_, ?_⟩⟩
                · rw [shape, ← List.drop_drop,
                    List.take_append_drop, List.take_append_drop]
                · rw [toInt_of_not_negative negative,
                    List.length_take]
                  omega
                · rw [List.length_take, List.length_drop]
                  omega
                · rw [← parsed.1, behind]
                · rw [← parsed.2, List.length_take]
                  omega

/-- A parsed array is a null count or a chain of that many elements. -/
theorem exists_elements_of_parseArray
    {buf : Bytes}
    {element : Nat → Parsed}
    {offset final : Nat}
    {value : RespValue}
    (parsed :
      parseArray reserve buf element offset =
        .ok (some (value, final))) :
    ∃ text rest,
      buf.drop offset = text ++ crlf ++ rest ∧
        ((Int64Text text (-1) ∧
          value = .null ∧
          final = offset + text.length + 2) ∨
        ∃ count elements,
          Int64Text text count ∧
            count.toInt = (elements : List RespValue).length ∧
            reserve elements.length = none ∧
            value = .array elements ∧
            ElementChain element (offset + text.length + 2)
              elements final) := by
  unfold parseArray at parsed
  cases read : readLine buf offset with
  | none =>
      simp [read] at parsed
  | some pair =>
      obtain ⟨text, afterCount⟩ := pair
      obtain ⟨rest, shape, -, rfl⟩ := readLine_eq_some_iff.mp read
      simp only [read] at parsed
      cases number : wholeInt64? text with
      | none =>
          simp [number] at parsed
      | some count =>
          have denotes := wholeInt64?_eq_some_iff.mp number
          simp only [number] at parsed
          refine ⟨text, rest, shape, ?_⟩
          by_cases isNull : count = -1
          · subst isNull
            simp only [↓reduceIte, Except.ok.injEq, Option.some.injEq,
              Prod.mk.injEq] at parsed
            exact Or.inl ⟨denotes, parsed.1.symm, parsed.2.symm⟩
          · by_cases negative : count < 0
            · simp [isNull, negative] at parsed
            · simp only [isNull, negative, ↓reduceIte] at parsed
              cases storage : reserve count.toNatClampNeg with
              | some exception =>
                  rw [storage] at parsed
                  cases parsed
              | none =>
                  rw [storage] at parsed
                  obtain ⟨elements, counted, rfl, chain⟩ :=
                    parseElements_eq_some_iff.mp parsed
                  refine Or.inr ⟨count, elements, denotes, ?_, ?_,
                    by simp, chain⟩
                  · rw [counted, toInt_of_not_negative negative]
                  · rw [counted, storage]

/-- A chain of accepted elements is a sequence of frames. -/
theorem frames_of_elementChain
    {buf : Bytes}
    {cur final : Nat}
    {elements : List RespValue}
    (chain : ElementChain (parse reserve buf) cur elements final)
    (inside : cur ≤ buf.length)
    (accepted :
      ∀ position element stop,
        cur ≤ position →
        parse reserve buf position = .ok (some (element, stop)) →
        ∃ frame rest,
          buf.drop position = frame ++ rest ∧
            Frame (.parser reserve) frame element ∧
            stop = position + frame.length) :
    ∃ body rest,
      buf.drop cur = body ++ rest ∧
        Frames (.parser reserve) body elements ∧
        final = cur + body.length := by
  induction chain with
  | nil cur =>
      exact ⟨[], buf.drop cur, rfl, .nil, rfl⟩
  | @cons cur middle final element later first chain
      inductionHypothesis =>
      have bounds := parse_bounds first
      obtain ⟨frame, rest, shape, derived, rfl⟩ :=
        accepted cur element middle (Nat.le_refl cur) first
      obtain ⟨body, tail, bodyShape, bodyDerived, rfl⟩ :=
        inductionHypothesis bounds.2
          (fun position found stop behind =>
            accepted position found stop (by omega))
      refine ⟨frame ++ body, tail, ?_, .cons derived bodyDerived, ?_⟩
      · rw [shape, List.append_assoc, ← bodyShape,
          drop_add_of_append shape]
      · rw [List.length_append, Nat.add_assoc]

/-- Everything the parser returns is a frame of its dialect. -/
theorem frame_of_parse
    {buf : Bytes}
    {offset final : Nat}
    {value : RespValue}
    (parsed : parse reserve buf offset = .ok (some (value, final))) :
    ∃ frame rest,
      buf.drop offset = frame ++ rest ∧
        Frame (.parser reserve) frame value ∧
        final = offset + frame.length := by
  induction remaining : buf.length - offset
    using Nat.strong_induction_on generalizing offset final value with
  | h size inductionHypothesis =>
      subst remaining
      rw [parse_eq] at parsed
      cases parseStep_cases parsed with
      | atEnd outside step =>
          cases step
      | simpleString atOffset step =>
          obtain ⟨line, rest, shape, free, rfl, rfl⟩ :=
            exists_line_of_parsed step
          exact ⟨_, rest, drop_eq_cons_append atOffset shape,
            .simpleString free, by simp [crlf]; omega⟩
      | error atOffset step =>
          obtain ⟨line, rest, shape, free, rfl, rfl⟩ :=
            exists_line_of_parsed step
          exact ⟨_, rest, drop_eq_cons_append atOffset shape,
            .error free, by simp [crlf]; omega⟩
      | integer atOffset step =>
          obtain ⟨text, number, rest, shape, denotes, rfl, rfl⟩ :=
            exists_text_of_parseInteger step
          exact ⟨_, rest, drop_eq_cons_append atOffset shape,
            .integer denotes, by simp [crlf]; omega⟩
      | bulkString atOffset step =>
          obtain ⟨text, rest,
              ⟨shape, denotes, rfl, rfl⟩ |
              ⟨payload, closing, length, shape, denotes, measured,
                two, rfl, rfl⟩⟩ :=
            exists_payload_of_parseBulkString step
          · exact ⟨_, rest, drop_eq_cons_append atOffset shape,
              .nullBulk denotes, by simp [crlf]; omega⟩
          · refine ⟨_, rest,
              drop_eq_cons_append atOffset
                (by simpa using shape :
                  buf.drop (offset + 1) =
                    (text ++ crlf ++ payload ++ closing) ++ rest),
              .bulkString denotes measured two, ?_⟩
            simp [crlf, two]
            omega
      | array atOffset step =>
          obtain ⟨text, rest, shape, ⟨denotes, rfl, rfl⟩ |
              ⟨count, elements, denotes, counted, storage, rfl,
                chain⟩⟩ :=
            exists_elements_of_parseArray step
          · exact ⟨_, rest, drop_eq_cons_append atOffset shape,
              .nullArray denotes, by simp [crlf]; omega⟩
          · obtain ⟨read, -, behind⟩ :=
              readLine_of_int64Text denotes shape
            have bounds := readLine_bounds read
            obtain ⟨body, tail, bodyShape, derived, rfl⟩ :=
              frames_of_elementChain chain bounds.2
                (fun position element stop past parsed =>
                  inductionHypothesis _ (by omega) parsed rfl)
            have whole :
                buf.drop (offset + 1) =
                  (text ++ crlf ++ body) ++ tail := by
              rw [shape, ← behind, bodyShape]
              simp
            refine ⟨_, tail, drop_eq_cons_append atOffset whole,
              .array denotes counted storage derived, ?_⟩
            simp [crlf]
            omega
      | unknown what step stays =>
          cases step

/-- The parser accepts exactly the frames of its dialect. -/
theorem parse_eq_some_iff
    {buf : Bytes}
    {offset final : Nat}
    {value : RespValue} :
    parse reserve buf offset = .ok (some (value, final)) ↔
      ∃ frame rest,
        buf.drop offset = frame ++ rest ∧
          Frame (.parser reserve) frame value ∧
          final = offset + frame.length := by
  constructor
  · exact frame_of_parse
  · rintro ⟨frame, rest, shape, derived, rfl⟩
    exact parse_of_frame derived shape

end Accepted

end RespParser

end Vortek

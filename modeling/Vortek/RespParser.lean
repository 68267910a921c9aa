import Vortek.RespValue
import Vortek.IncrementalDecoder

namespace Vortek

open DecimalText

/-!
# The incremental RESP2 parser

The parser keeps the bytes received so far and starts over at offset 0 on every
`feed`.  All `parse` functions read the buffer at an absolute offset and return
the parsed value with the offset behind it, nothing when more data is needed,
or an exception on a protocol violation.

`parse` and `parseArray` call each other.  The model bounds their depth by the
number of bytes behind the offset.  `parse_eq` shows that this bound is never
felt: the parser satisfies the recursion of the source as it is written.
-/

/-- The byte of an ASCII character. -/
def byteOf (character : Char) : UInt8 :=
  UInt8.ofNat character.toNat

/-- A parsed value and its end offset, or `none` when more data is needed. -/
abbrev ParseResult := Option (RespValue × Nat)

/-- What a parse function returns or throws. -/
abbrev Parsed := Except CppException ParseResult

/-- The parser object: bytes received and not yet emitted as a value. -/
structure RespParser where
  buf : Bytes
  deriving Repr, DecidableEq

namespace RespParser

/-- The line between `offset` and the next CR LF, and the offset behind it. -/
def readLine (buf : Bytes) (offset : Nat) : Option (Bytes × Nat) :=
  match findCrlf buf offset with
  | none => none
  | some position =>
      some ((buf.drop offset).take (position - offset), position + 2)

/-- `+line` -/
def parseSimpleString (buf : Bytes) (offset : Nat) : Parsed :=
  match readLine buf offset with
  | none => .ok none
  | some (line, final) => .ok (some (.simpleString line, final))

/-- `-line` -/
def parseError (buf : Bytes) (offset : Nat) : Parsed :=
  match readLine buf offset with
  | none => .ok none
  | some (line, final) => .ok (some (.error line, final))

/-- `:integer` -/
def parseInteger (buf : Bytes) (offset : Nat) : Parsed :=
  match readLine buf offset with
  | none => .ok none
  | some (line, final) =>
      match wholeInt64? line with
      | none =>
          .error (.runtimeError
            (ascii "RESP: invalid integer '" ++ line ++ ascii "'"))
      | some value => .ok (some (.integer value, final))

/-- `$length`, the payload and its two trailing bytes -/
def parseBulkString (buf : Bytes) (offset : Nat) : Parsed :=
  match readLine buf offset with
  | none => .ok none
  | some (line, afterLen) =>
      match wholeInt64? line with
      | none =>
          .error (.runtimeError
            (ascii "RESP: invalid bulk string length '" ++ line ++
              ascii "'"))
      | some len =>
          if len = -1 then
            .ok (some (.null, afterLen))
          else if len < 0 then
            .error (.runtimeError
              (ascii "RESP: negative bulk string length"))
          else
            let dataLen := len.toNatClampNeg
            -- the two bytes behind the payload are counted, not compared
            if afterLen + dataLen + 2 > buf.length then
              .ok none
            else
              .ok (some
                (.bulkString ((buf.drop afterLen).take dataLen),
                  afterLen + dataLen + 2))

/-- The loop of `parseArray`: `remaining` elements are still to come. -/
def parseElements (parse : Nat → Parsed) :
    Nat → List RespValue → Nat → Parsed
  | 0, elements, cur => .ok (some (.array elements, cur))
  | remaining + 1, elements, cur =>
      match parse cur with
      | .error exception => .error exception
      | .ok none => .ok none
      | .ok (some (element, final)) =>
          parseElements parse remaining (elements ++ [element]) final

/-- `*count` and that many values, each read by `parse` -/
def parseArray
    (reserve : Reserve)
    (buf : Bytes)
    (parse : Nat → Parsed)
    (offset : Nat) :
    Parsed :=
  match readLine buf offset with
  | none => .ok none
  | some (line, afterCount) =>
      match wholeInt64? line with
      | none =>
          .error (.runtimeError
            (ascii "RESP: invalid array count '" ++ line ++ ascii "'"))
      | some count =>
          if count = -1 then
            .ok (some (.null, afterCount))
          else if count < 0 then
            .error (.runtimeError (ascii "RESP: negative array count"))
          else
            match reserve count.toNatClampNeg with
            | some exception => .error exception
            | none =>
                parseElements parse count.toNatClampNeg [] afterCount

/-- The body of `parse`, with the recursive call as a parameter. -/
def parseStep
    (reserve : Reserve)
    (buf : Bytes)
    (parse : Nat → Parsed)
    (offset : Nat) :
    Parsed :=
  match buf[offset]? with
  | none => .ok none
  | some byte =>
      if byte = byteOf '+' then
        parseSimpleString buf (offset + 1)
      else if byte = byteOf '-' then
        parseError buf (offset + 1)
      else if byte = byteOf ':' then
        parseInteger buf (offset + 1)
      else if byte = byteOf '$' then
        parseBulkString buf (offset + 1)
      else if byte = byteOf '*' then
        parseArray reserve buf parse (offset + 1)
      else
        .error (.runtimeError
          (ascii "RESP: unknown type byte '" ++ [byte] ++ ascii "'"))

/-- `parse` with at most `depth` nested calls. -/
def parseWithin (reserve : Reserve) (buf : Bytes) : Nat → Nat → Parsed
  | 0, _ => .ok none
  | depth + 1, offset =>
      parseStep reserve buf (parseWithin reserve buf depth) offset

/-- Parse the value that starts at `offset`. -/
def parse (reserve : Reserve) (buf : Bytes) (offset : Nat) : Parsed :=
  parseWithin reserve buf (buf.length - offset) offset

/-- Append a chunk and try to take one value off the front of the buffer. -/
def feed
    (reserve : Reserve)
    (parser : RespParser)
    (chunk : Bytes) :
    Except CppException (Option RespValue) × RespParser :=
  let buf := parser.buf ++ chunk
  match parse reserve buf 0 with
  | .error exception => (.error exception, ⟨buf⟩)
  | .ok none => (.ok none, ⟨buf⟩)
  | .ok (some (value, endPos)) => (.ok (some value), ⟨buf.drop endPos⟩)

/-- `buf_.clear()` -/
def reset (_ : RespParser) : RespParser :=
  ⟨[]⟩

/-- Bytes currently buffered. -/
def bufferedSize (parser : RespParser) : Nat :=
  parser.buf.length

/-- A parser that has received nothing. -/
def empty : RespParser :=
  ⟨[]⟩

/-- One `feed` seen as an incremental decoder of the whole buffer. -/
def decode (reserve : Reserve) :
    IncrementalDecoder.Decoder UInt8 RespValue CppException :=
  fun buf =>
    match parse reserve buf 0 with
    | .error exception => .fault exception
    | .ok none => .more
    | .ok (some (value, endPos)) => .item value (buf.drop endPos)

/-- The values read one after another from `cur` up to `final`. -/
inductive ElementChain (parse : Nat → Parsed) :
    Nat → List RespValue → Nat → Prop where
  | nil (cur : Nat) : ElementChain parse cur [] cur
  | cons
      {cur middle final : Nat}
      {element : RespValue}
      {rest : List RespValue}
      (first : parse cur = .ok (some (element, middle)))
      (later : ElementChain parse middle rest final) :
      ElementChain parse cur (element :: rest) final

section Lines

/-- A read line is the text in front of the first terminator. -/
theorem readLine_eq_some_iff
    {buf : Bytes}
    {offset final : Nat}
    {line : Bytes} :
    readLine buf offset = some (line, final) ↔
      ∃ rest,
        buf.drop offset = line ++ crlf ++ rest ∧
          CrlfFree line ∧
          final = offset + line.length + 2 := by
  unfold readLine
  constructor
  · intro read
    cases found : findCrlf buf offset with
    | none =>
        simp [found] at read
    | some position =>
        obtain ⟨text, rest, shape, free, rfl⟩ :=
          findCrlf_eq_some_iff.mp found
        simp only [found, Option.some.injEq, Prod.mk.injEq] at read
        obtain ⟨rfl, rfl⟩ := read
        have line :
            (buf.drop offset).take (offset + text.length - offset) =
              text := by
          simp [shape]
        exact ⟨rest, by rw [line, shape], by rwa [line],
          by rw [line]⟩
  · rintro ⟨rest, shape, free, rfl⟩
    have found :=
      findCrlf_eq_some_iff.mpr ⟨line, rest, shape, free, rfl⟩
    simp [found, shape]

/-- A line ends inside the buffer. -/
theorem readLine_bounds
    {buf : Bytes}
    {offset final : Nat}
    {line : Bytes}
    (read : readLine buf offset = some (line, final)) :
    offset + 2 ≤ final ∧ final ≤ buf.length := by
  obtain ⟨rest, shape, -, rfl⟩ := readLine_eq_some_iff.mp read
  have lengths := congrArg List.length shape
  simp only [List.length_drop, List.length_append, crlf,
    List.length_cons, List.length_nil] at lengths
  omega

/-- A complete line does not change when more bytes arrive. -/
theorem readLine_append
    {buf : Bytes}
    {offset final : Nat}
    {line : Bytes}
    (read : readLine buf offset = some (line, final))
    (later : Bytes) :
    readLine (buf ++ later) offset = some (line, final) := by
  have bounds := readLine_bounds read
  obtain ⟨rest, shape, free, rfl⟩ := readLine_eq_some_iff.mp read
  refine readLine_eq_some_iff.mpr ⟨rest ++ later, ?_, free, rfl⟩
  rw [List.drop_append_of_le_length (by omega), shape]
  simp

end Lines

section Elements

/-- The element loop succeeds exactly along a chain of its length. -/
theorem parseElements_eq_some_iff
    {parse : Nat → Parsed}
    {remaining : Nat}
    {earlier : List RespValue}
    {cur final : Nat}
    {value : RespValue} :
    parseElements parse remaining earlier cur =
        .ok (some (value, final)) ↔
      ∃ elements,
        elements.length = remaining ∧
          value = .array (earlier ++ elements) ∧
          ElementChain parse cur elements final := by
  induction remaining generalizing earlier cur with
  | zero =>
      simp only [parseElements, Except.ok.injEq, Option.some.injEq,
        Prod.mk.injEq]
      constructor
      · rintro ⟨rfl, rfl⟩
        exact ⟨[], rfl, by simp, .nil cur⟩
      · rintro ⟨elements, isEmpty, rfl, chain⟩
        rw [List.length_eq_zero_iff] at isEmpty
        subst isEmpty
        cases chain
        simp
  | succ remaining inductionHypothesis =>
      constructor
      · intro parsed
        simp only [parseElements] at parsed
        cases first : parse cur with
        | error exception =>
            simp [first] at parsed
        | ok result =>
            cases result with
            | none =>
                simp [first] at parsed
            | some pair =>
                obtain ⟨element, middle⟩ := pair
                simp only [first] at parsed
                obtain ⟨elements, rfl, rfl, chain⟩ :=
                  inductionHypothesis.mp parsed
                exact ⟨element :: elements, rfl, by simp,
                  .cons first chain⟩
      · rintro ⟨elements, length, rfl, chain⟩
        cases chain with
        | nil =>
            simp at length
        | @cons _ middle _ element rest first later =>
            simp only [parseElements, first]
            exact inductionHypothesis.mpr
              ⟨rest, by simpa using length, by simp, later⟩

/-- The element loop fails exactly when an element of it fails. -/
theorem parseElements_eq_error_iff
    {parse : Nat → Parsed}
    {remaining : Nat}
    {earlier : List RespValue}
    {cur : Nat}
    {exception : CppException} :
    parseElements parse remaining earlier cur = .error exception ↔
      ∃ elements middle,
        elements.length < remaining ∧
          ElementChain parse cur elements middle ∧
          parse middle = .error exception := by
  induction remaining generalizing earlier cur with
  | zero =>
      simp [parseElements]
  | succ remaining inductionHypothesis =>
      constructor
      · intro failed
        simp only [parseElements] at failed
        cases first : parse cur with
        | error found =>
            simp only [first, Except.error.injEq] at failed
            subst failed
            exact ⟨[], cur, by simp, .nil cur, first⟩
        | ok result =>
            cases result with
            | none =>
                simp [first] at failed
            | some pair =>
                obtain ⟨element, middle⟩ := pair
                simp only [first] at failed
                obtain ⟨elements, stop, short, chain, stopped⟩ :=
                  inductionHypothesis.mp failed
                exact ⟨element :: elements, stop, by simpa using short,
                  .cons first chain, stopped⟩
      · rintro ⟨elements, stop, short, chain, stopped⟩
        cases chain with
        | nil =>
            simp [parseElements, stopped]
        | @cons _ middle _ element rest first later =>
            simp only [parseElements, first]
            exact inductionHypothesis.mpr
              ⟨rest, stop, by simpa using short, later, stopped⟩

/-- Element loops agree when their parsers agree from the cursor on. -/
theorem parseElements_congr
    {parse other : Nat → Parsed}
    (advances :
      ∀ {position element final},
        parse position = .ok (some (element, final)) →
        position ≤ final)
    (cur : Nat)
    (agree : ∀ position, cur ≤ position → parse position = other position)
    (remaining : Nat)
    (elements : List RespValue) :
    parseElements parse remaining elements cur =
      parseElements other remaining elements cur := by
  induction remaining generalizing elements cur with
  | zero =>
      rfl
  | succ remaining inductionHypothesis =>
      simp only [parseElements, ← agree cur (Nat.le_refl cur)]
      cases first : parse cur with
      | error exception =>
          rfl
      | ok result =>
          cases result with
          | none =>
              rfl
          | some pair =>
              have forward := advances first
              exact inductionHypothesis pair.2
                (fun position behind =>
                  agree position (Nat.le_trans forward behind))
                (elements ++ [pair.1])

namespace ElementChain

/-- A chain whose steps advance inside the buffer does so as a whole. -/
theorem bounds
    {parse : Nat → Parsed}
    {limit : Nat}
    (advances :
      ∀ {position element final},
        parse position = .ok (some (element, final)) →
        position < final ∧ final ≤ limit)
    {cur final : Nat}
    {elements : List RespValue}
    (chain : ElementChain parse cur elements final)
    (inside : cur ≤ limit) :
    cur + elements.length ≤ final ∧ final ≤ limit := by
  induction chain with
  | nil cur =>
      exact ⟨Nat.le_refl cur, inside⟩
  | cons first later inductionHypothesis =>
      have step := advances first
      have rest := inductionHypothesis step.2
      simp only [List.length_cons]
      omega

/-- The end of a chain is determined by its start and its values. -/
theorem final_unique
    {parse : Nat → Parsed}
    {cur first second : Nat}
    {elements : List RespValue}
    (firstChain : ElementChain parse cur elements first)
    (secondChain : ElementChain parse cur elements second) :
    first = second := by
  induction firstChain with
  | nil cur =>
      cases secondChain
      rfl
  | cons head later inductionHypothesis =>
      cases secondChain with
      | cons otherHead otherLater =>
          rw [head] at otherHead
          injection otherHead with sameHead
          injection sameHead with samePair
          injection samePair with _ sameMiddle
          subst sameMiddle
          exact inductionHypothesis otherLater

/-- A chain survives a change of parser that keeps its steps. -/
theorem mono
    {parse other : Nat → Parsed}
    {limit : Nat}
    (advances :
      ∀ {position element final},
        parse position = .ok (some (element, final)) →
        position < final ∧ final ≤ limit)
    {cur final : Nat}
    {elements : List RespValue}
    (chain : ElementChain parse cur elements final)
    (keeps :
      ∀ position element stop,
        cur ≤ position →
        parse position = .ok (some (element, stop)) →
        other position = .ok (some (element, stop))) :
    ElementChain other cur elements final := by
  induction chain with
  | nil cur =>
      exact .nil cur
  | @cons cur middle final element rest first later
      inductionHypothesis =>
      have step := advances first
      refine .cons (keeps cur element middle (Nat.le_refl cur) first) ?_
      exact inductionHypothesis
        (fun position found stop behind =>
          keeps position found stop (by omega))

end ElementChain

end Elements

section Recursion

variable {reserve : Reserve} {buf : Bytes}

section Switch

variable {parse : Nat → Parsed} {offset : Nat}

theorem parseStep_simpleString
    (atOffset : buf[offset]? = some (byteOf '+')) :
    parseStep reserve buf parse offset =
      parseSimpleString buf (offset + 1) := by
  simp [parseStep, atOffset]

theorem parseStep_error
    (atOffset : buf[offset]? = some (byteOf '-')) :
    parseStep reserve buf parse offset =
      parseError buf (offset + 1) := by
  have others : byteOf '-' ≠ byteOf '+' := by decide
  simp [parseStep, atOffset, others]

theorem parseStep_integer
    (atOffset : buf[offset]? = some (byteOf ':')) :
    parseStep reserve buf parse offset =
      parseInteger buf (offset + 1) := by
  have others :
      byteOf ':' ≠ byteOf '+' ∧ byteOf ':' ≠ byteOf '-' := by
    decide
  simp [parseStep, atOffset, others]

theorem parseStep_bulkString
    (atOffset : buf[offset]? = some (byteOf '$')) :
    parseStep reserve buf parse offset =
      parseBulkString buf (offset + 1) := by
  have others :
      byteOf '$' ≠ byteOf '+' ∧ byteOf '$' ≠ byteOf '-' ∧
        byteOf '$' ≠ byteOf ':' := by
    decide
  simp [parseStep, atOffset, others]

theorem parseStep_array
    (atOffset : buf[offset]? = some (byteOf '*')) :
    parseStep reserve buf parse offset =
      parseArray reserve buf parse (offset + 1) := by
  have others :
      byteOf '*' ≠ byteOf '+' ∧ byteOf '*' ≠ byteOf '-' ∧
        byteOf '*' ≠ byteOf ':' ∧ byteOf '*' ≠ byteOf '$' := by
    decide
  simp [parseStep, atOffset, others]

/-- Which branch of the switch produced the result of a step. -/
inductive SwitchCase
    (reserve : Reserve)
    (buf : Bytes)
    (parse : Nat → Parsed)
    (offset : Nat)
    (parsed : Parsed) :
    Prop where
  | atEnd
      (outside : buf[offset]? = none)
      (step : .ok none = parsed)
  | simpleString
      (atOffset : buf[offset]? = some (byteOf '+'))
      (step : parseSimpleString buf (offset + 1) = parsed)
  | error
      (atOffset : buf[offset]? = some (byteOf '-'))
      (step : parseError buf (offset + 1) = parsed)
  | integer
      (atOffset : buf[offset]? = some (byteOf ':'))
      (step : parseInteger buf (offset + 1) = parsed)
  | bulkString
      (atOffset : buf[offset]? = some (byteOf '$'))
      (step : parseBulkString buf (offset + 1) = parsed)
  | array
      (atOffset : buf[offset]? = some (byteOf '*'))
      (step : parseArray reserve buf parse (offset + 1) = parsed)
  | unknown
      (what : Bytes)
      (step : .error (.runtimeError what) = parsed)
      (stays :
        ∀ later other,
          parseStep reserve (buf ++ later) other offset =
            .error (.runtimeError what))

theorem parseStep_cases
    {parsed : Parsed}
    (step : parseStep reserve buf parse offset = parsed) :
    SwitchCase reserve buf parse offset parsed := by
  cases atOffset : buf[offset]? with
  | none =>
      simp only [parseStep, atOffset] at step
      exact .atEnd atOffset step
  | some byte =>
      by_cases plus : byte = byteOf '+'
      · subst plus
        exact .simpleString atOffset
          ((parseStep_simpleString atOffset).symm.trans step)
      by_cases dash : byte = byteOf '-'
      · subst dash
        exact .error atOffset
          ((parseStep_error atOffset).symm.trans step)
      by_cases colon : byte = byteOf ':'
      · subst colon
        exact .integer atOffset
          ((parseStep_integer atOffset).symm.trans step)
      by_cases dollar : byte = byteOf '$'
      · subst dollar
        exact .bulkString atOffset
          ((parseStep_bulkString atOffset).symm.trans step)
      by_cases star : byte = byteOf '*'
      · subst star
        exact .array atOffset
          ((parseStep_array atOffset).symm.trans step)
      · have inside := (List.getElem?_eq_some_iff.mp atOffset).1
        simp only [parseStep, atOffset, plus, dash, colon, dollar, star,
          ↓reduceIte] at step
        refine .unknown _ step ?_
        intro later other
        simp only [parseStep, List.getElem?_append_left inside,
          atOffset, plus, dash, colon, dollar, star, ↓reduceIte]

end Switch

/-- An integer ends inside the buffer. -/
theorem parseInteger_bounds
    {offset final : Nat}
    {value : RespValue}
    (parsed : parseInteger buf offset = .ok (some (value, final))) :
    offset < final ∧ final ≤ buf.length := by
  unfold parseInteger at parsed
  cases read : readLine buf offset with
  | none =>
      simp [read] at parsed
  | some pair =>
      have bounds := readLine_bounds read
      simp only [read] at parsed
      cases number : wholeInt64? pair.1 with
      | none =>
          simp [number] at parsed
      | some found =>
          simp only [number, Except.ok.injEq, Option.some.injEq,
            Prod.mk.injEq] at parsed
          omega

/-- A bulk string ends inside the buffer. -/
theorem parseBulkString_bounds
    {offset final : Nat}
    {value : RespValue}
    (parsed : parseBulkString buf offset = .ok (some (value, final))) :
    offset < final ∧ final ≤ buf.length := by
  unfold parseBulkString at parsed
  cases read : readLine buf offset with
  | none =>
      simp [read] at parsed
  | some pair =>
      obtain ⟨line, afterLen⟩ := pair
      have bounds := readLine_bounds read
      simp only [read] at parsed
      cases number : wholeInt64? line with
      | none =>
          simp [number] at parsed
      | some len =>
          simp only [number] at parsed
          split at parsed
          · simp only [Except.ok.injEq, Option.some.injEq,
              Prod.mk.injEq] at parsed
            omega
          · split at parsed
            · cases parsed
            · split at parsed
              · cases parsed
              · simp only [Except.ok.injEq, Option.some.injEq,
                  Prod.mk.injEq] at parsed
                omega

/-- An array ends inside the buffer when its elements do. -/
theorem parseArray_bounds
    {parse : Nat → Parsed}
    (advances :
      ∀ {position element final},
        parse position = .ok (some (element, final)) →
        position < final ∧ final ≤ buf.length)
    {offset final : Nat}
    {value : RespValue}
    (parsed :
      parseArray reserve buf parse offset = .ok (some (value, final))) :
    offset < final ∧ final ≤ buf.length := by
  unfold parseArray at parsed
  cases read : readLine buf offset with
  | none =>
      simp [read] at parsed
  | some pair =>
      obtain ⟨line, afterCount⟩ := pair
      have bounds := readLine_bounds read
      simp only [read] at parsed
      cases number : wholeInt64? line with
      | none =>
          simp [number] at parsed
      | some count =>
          simp only [number] at parsed
          split at parsed
          · simp only [Except.ok.injEq, Option.some.injEq,
              Prod.mk.injEq] at parsed
            omega
          · split at parsed
            · cases parsed
            · cases storage : reserve count.toNatClampNeg with
              | some exception =>
                  simp [storage] at parsed
              | none =>
                  simp only [storage] at parsed
                  obtain ⟨elements, -, -, chain⟩ :=
                    parseElements_eq_some_iff.mp parsed
                  have rest := chain.bounds advances bounds.2
                  omega

/-- A line value ends inside the buffer. -/
theorem readLine_map_bounds
    {offset final : Nat}
    {value : RespValue}
    {wrap : Bytes → RespValue}
    (parsed :
      (match readLine buf offset with
        | none => (.ok none : Parsed)
        | some (line, final) => .ok (some (wrap line, final))) =
        .ok (some (value, final))) :
    offset < final ∧ final ≤ buf.length := by
  cases read : readLine buf offset with
  | none =>
      simp [read] at parsed
  | some pair =>
      have bounds := readLine_bounds read
      simp only [read, Except.ok.injEq, Option.some.injEq,
        Prod.mk.injEq] at parsed
      omega

/-- One step of the parser advances inside the buffer if its calls do. -/
theorem parseStep_bounds
    {parse : Nat → Parsed}
    (advances :
      ∀ {position element final},
        parse position = .ok (some (element, final)) →
        position < final ∧ final ≤ buf.length)
    {offset final : Nat}
    {value : RespValue}
    (parsed :
      parseStep reserve buf parse offset = .ok (some (value, final))) :
    offset < final ∧ final ≤ buf.length := by
  cases parseStep_cases parsed with
  | atEnd outside step =>
      cases step
  | simpleString atOffset step =>
      have bounds := readLine_map_bounds step
      omega
  | error atOffset step =>
      have bounds := readLine_map_bounds step
      omega
  | integer atOffset step =>
      have bounds := parseInteger_bounds step
      omega
  | bulkString atOffset step =>
      have bounds := parseBulkString_bounds step
      omega
  | array atOffset step =>
      have bounds := parseArray_bounds advances step
      omega
  | unknown what step stays =>
      cases step

theorem parseWithin_bounds
    {depth offset final : Nat}
    {value : RespValue}
    (parsed :
      parseWithin reserve buf depth offset =
        .ok (some (value, final))) :
    offset < final ∧ final ≤ buf.length := by
  induction depth generalizing offset final value with
  | zero =>
      simp [parseWithin] at parsed
  | succ depth inductionHypothesis =>
      exact parseStep_bounds inductionHypothesis parsed

/-- A parsed value ends behind its offset and inside the buffer. -/
theorem parse_bounds
    {offset final : Nat}
    {value : RespValue}
    (parsed : parse reserve buf offset = .ok (some (value, final))) :
    offset < final ∧ final ≤ buf.length :=
  parseWithin_bounds parsed

/-- One step of the parser only looks at recursive calls behind its offset. -/
theorem parseStep_congr
    {parse other : Nat → Parsed}
    (advances :
      ∀ {position element final},
        parse position = .ok (some (element, final)) →
        position ≤ final)
    {offset : Nat}
    (agree :
      ∀ position, offset < position → parse position = other position) :
    parseStep reserve buf parse offset =
      parseStep reserve buf other offset := by
  have arrays :
      parseArray reserve buf parse (offset + 1) =
        parseArray reserve buf other (offset + 1) := by
    unfold parseArray
    cases read : readLine buf (offset + 1) with
    | none =>
        rfl
    | some pair =>
        have bounds := readLine_bounds read
        have loops (remaining : Nat) :=
          parseElements_congr advances pair.2
            (fun position behind => agree position (by omega))
            remaining []
        simp only [loops]
  simp only [parseStep, arrays]

/-- Nothing can be parsed at the end of the buffer. -/
theorem parseWithin_outside
    {offset : Nat}
    (outside : buf.length ≤ offset)
    (depth : Nat) :
    parseWithin reserve buf depth offset = .ok none := by
  cases depth with
  | zero =>
      rfl
  | succ depth =>
      simp [parseWithin, parseStep, List.getElem?_eq_none outside]

/-- Beyond the bytes behind the offset, the depth bound is not felt. -/
theorem parseWithin_eq_of_le
    {depth other offset : Nat}
    (enough : buf.length - offset ≤ depth)
    (otherEnough : buf.length - offset ≤ other) :
    parseWithin reserve buf depth offset =
      parseWithin reserve buf other offset := by
  induction depth generalizing other offset with
  | zero =>
      have outside : buf.length ≤ offset := by omega
      rw [parseWithin_outside outside, parseWithin_outside outside]
  | succ depth inductionHypothesis =>
      cases other with
      | zero =>
          have outside : buf.length ≤ offset := by omega
          rw [parseWithin_outside outside, parseWithin_outside outside]
      | succ other =>
          simp only [parseWithin]
          refine parseStep_congr
            (fun parsed => Nat.le_of_lt (parseWithin_bounds parsed).1)
            ?_
          intro position behind
          exact inductionHypothesis (by omega) (by omega)

/-- The parser satisfies the recursion of the source. -/
theorem parse_eq
    (reserve : Reserve)
    (buf : Bytes)
    (offset : Nat) :
    parse reserve buf offset =
      parseStep reserve buf (parse reserve buf) offset := by
  have deeper :
      parse reserve buf offset =
        parseWithin reserve buf (buf.length - offset + 1) offset :=
    parseWithin_eq_of_le (Nat.le_refl _) (Nat.le_succ _)
  rw [deeper]
  simp only [parseWithin]
  refine parseStep_congr
    (fun parsed => Nat.le_of_lt (parseWithin_bounds parsed).1) ?_
  intro position behind
  exact parseWithin_eq_of_le (by omega) (Nat.le_refl _)

end Recursion

end RespParser

end Vortek

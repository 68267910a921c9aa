import Vortek.AofPersistence
import Vortek.CheckedInt64
import Vortek.Connection
import Vortek.RecursiveCalls

namespace Vortek

open CallScript DecimalText IncrementalDecoder RecursiveCalls

/-!
# Termination of the parser

`parse` and `parse_array` call each other, as often as the sender's count says,
and `handle_data` and `replay` feed the parser until it has no value any more.
Here the recursion and the loops are as the source has them, without a bound on
their depth: `parseBody` is a procedure that calls itself, and `Drains` is a
`while (true)`.  Positions are computed in `std::size_t`, and every access says
whether it stays inside the buffer.

A value ends behind its offset, so that all calls together are no more than the
bytes behind the offset, whatever counts they declare.  No sum wraps: a string
and its terminating null make up at most `PTRDIFF_MAX` bytes, and a declared
length is at most that.
-/

/-- A `std::string`; with the terminating null it is at most `PTRDIFF_MAX`. -/
structure StdString where
  bytes : Bytes
  fits : bytes.length + 1 < 2 ^ 63

/-- Why a run of the parser does not return. -/
inductive Trouble where
  | throws (exception : CppException)
  | tooLong
  | outOfRange
  | wraps
  deriving DecidableEq

/-- A sum in `std::size_t`. -/
def sizeSum (first second : Nat) : Except Trouble Nat :=
  if first + second < 2 ^ 64 then
    .ok (first + second)
  else
    .error .wraps

/-- A difference in `std::size_t`. -/
def sizeDifference (first second : Nat) : Except Trouble Nat :=
  if second ≤ first then
    .ok (first - second)
  else
    .error .wraps

namespace StdString

/-- The empty string. -/
def empty : StdString :=
  ⟨[], by decide⟩

/-- `size()`. -/
def size (string : StdString) : Nat :=
  string.bytes.length

/-- `string[index]` -/
def byteAt (string : StdString) (index : Nat) : Except Trouble UInt8 :=
  match string.bytes[index]? with
  | none => .error .outOfRange
  | some byte => .ok byte

/--
`string.substr(position, count)`, all of it inside the string.  The function of
the library fails only at a position outside and cuts off at the end.
-/
def substr
    (string : StdString)
    (position count : Nat) :
    Except Trouble Bytes :=
  if position + count ≤ string.size then
    .ok ((string.bytes.drop position).take count)
  else
    .error .outOfRange

/-- `string.append(chunk)`, which throws if the result does not fit. -/
def append? (string : StdString) (chunk : Bytes) : Option StdString :=
  if fits : (string.bytes ++ chunk).length + 1 < 2 ^ 63 then
    some ⟨string.bytes ++ chunk, fits⟩
  else
    none

/-- `string.erase(0, count)` -/
def erase (string : StdString) (count : Nat) : StdString where
  bytes := string.bytes.drop count
  fits := by
    have fits := string.fits
    rw [List.length_drop]
    omega

end StdString

namespace RespParser

/-- A script that may call `parse`. -/
abbrev ParseCode := Code Nat ParseResult Trouble

/-- `read_line` in `std::size_t`. -/
def readLine? (buf : StdString) (offset : Nat) :
    Except Trouble (Option (Bytes × Nat)) :=
  match findCrlf buf.bytes offset with
  | none => .ok none
  | some pos => do
      let length ← sizeDifference pos offset
      let line ← buf.substr offset length
      let final ← sizeSum pos 2
      return some (line, final)

/-- `parse_simple_string` and `parse_error`, up to the type of the value. -/
def parseLine?
    (wrap : Bytes → RespValue)
    (buf : StdString)
    (offset : Nat) :
    Except Trouble ParseResult := do
  match ← readLine? buf offset with
  | none => return none
  | some (line, final) => return some (wrap line, final)

/-- `parse_simple_string`. -/
def parseSimpleString? : StdString → Nat → Except Trouble ParseResult :=
  parseLine? .simpleString

/-- `parse_error`. -/
def parseError? : StdString → Nat → Except Trouble ParseResult :=
  parseLine? .error

/-- `parse_integer`, with its exception. -/
def parseInteger? (buf : StdString) (offset : Nat) :
    Except Trouble ParseResult := do
  match ← readLine? buf offset with
  | none => return none
  | some (line, final) =>
      match wholeInt64? line with
      | none =>
          throw (.throws (.runtimeError
            (ascii "RESP: invalid integer '" ++ line ++ ascii "'")))
      | some value => return some (.integer value, final)

/-- `parse_bulk_string`, with its exceptions. -/
def parseBulkString? (buf : StdString) (offset : Nat) :
    Except Trouble ParseResult := do
  match ← readLine? buf offset with
  | none => return none
  | some (line, afterLen) =>
      match wholeInt64? line with
      | none =>
          throw (.throws (.runtimeError
            (ascii "RESP: invalid bulk string length '" ++ line ++
              ascii "'")))
      | some len =>
          if len = -1 then
            return some (.null, afterLen)
          else if len < 0 then
            throw (.throws (.runtimeError
              (ascii "RESP: negative bulk string length")))
          else
            let dataLen := len.toUInt64.toNat
            let behind ← sizeSum afterLen dataLen
            let final ← sizeSum behind 2
            if final > buf.size then
              return none
            else
              let data ← buf.substr afterLen dataLen
              return some (.bulkString data, final)

/-- The loop of `parse_array`: `remaining` elements are still to come. -/
def parseElements? : Nat → List RespValue → Nat → ParseCode
  | 0, elements, cur => .done (some (.array elements, cur))
  | remaining + 1, elements, cur =>
      .call cur fun
        | none => .done none
        | some (element, final) =>
            parseElements? remaining (elements ++ [element]) final

/-- `parse_array`, up to the calls for its elements. -/
def parseArray?
    (reserve : Reserve)
    (buf : StdString)
    (offset : Nat) :
    ParseCode :=
  match readLine? buf offset with
  | .error trouble => .raise trouble
  | .ok none => .done none
  | .ok (some (line, afterCount)) =>
      match wholeInt64? line with
      | none =>
          .raise (.throws (.runtimeError
            (ascii "RESP: invalid array count '" ++ line ++ ascii "'")))
      | some count =>
          if count = -1 then
            .done (some (.null, afterCount))
          else if count < 0 then
            .raise (.throws (.runtimeError
              (ascii "RESP: negative array count")))
          else
            match reserve count.toUInt64.toNat with
            | some exception => .raise (.throws exception)
            | none =>
                parseElements? count.toUInt64.toNat [] afterCount

/-- The body of `parse`. -/
def parseBody
    (reserve : Reserve)
    (buf : StdString)
    (offset : Nat) :
    ParseCode :=
  if buf.size ≤ offset then
    .done none
  else
    match buf.byteAt offset, sizeSum offset 1 with
    | .error trouble, _ => .raise trouble
    | .ok _, .error trouble => .raise trouble
    | .ok byte, .ok next =>
        if byte = byteOf '+' then
          .ofExcept (parseSimpleString? buf next)
        else if byte = byteOf '-' then
          .ofExcept (parseError? buf next)
        else if byte = byteOf ':' then
          .ofExcept (parseInteger? buf next)
        else if byte = byteOf '$' then
          .ofExcept (parseBulkString? buf next)
        else if byte = byteOf '*' then
          parseArray? reserve buf next
        else
          .raise (.throws (.runtimeError
            (ascii "RESP: unknown type byte '" ++ [byte] ++ ascii "'")))

/-- What `feed` does with the outcome of `parse`, and what is buffered then. -/
def emit (joined : StdString) :
    Except Trouble ParseResult →
      Except Trouble (Option RespValue) × StdString
  | .error trouble => (.error trouble, joined)
  | .ok none => (.ok none, joined)
  | .ok (some (value, endPos)) => (.ok (some value), joined.erase endPos)

/-- A call of `feed`. -/
inductive Feeds (reserve : Reserve) (buf : StdString) (chunk : Bytes) :
    Except Trouble (Option RespValue) × StdString → Prop where
  | throws
      (overlong : buf.append? chunk = none) :
      Feeds reserve buf chunk (.error .tooLong, buf)
  | parses
      {joined : StdString}
      {outcome : Except Trouble ParseResult}
      {calls : Nat}
      (appended : buf.append? chunk = some joined)
      (parsed :
        Evaluates (parseBody reserve joined) (parseBody reserve joined 0)
          outcome calls) :
      Feeds reserve buf chunk (emit joined outcome)

/--
The body of the loop behind its call of `feed`: the loop goes on with a state
and a buffer, or it is left.
-/
def afterFeed
    {State : Type}
    (consume : State → RespValue → Control State)
    (state : State) :
    Except Trouble (Option RespValue) × StdString →
      (State × StdString) ⊕ Consumed State UInt8 Trouble
  | (.error trouble, rest) => .inr ⟨state, rest.bytes, .faulted trouble⟩
  | (.ok none, rest) => .inr ⟨state, rest.bytes, .exhausted⟩
  | (.ok (some value), rest) =>
      match consume state value with
      | .leave next => .inr ⟨next, rest.bytes, .left⟩
      | .proceed next => .inl (next, rest)

/--
The loop of `handle_data` and of `replay`, which feeds the chunk and after that
nothing.  The last number counts the calls of `feed`.
-/
inductive Drains
    {State : Type}
    (reserve : Reserve)
    (consume : State → RespValue → Control State) :
    State → StdString → Bytes → Consumed State UInt8 Trouble → Nat → Prop
    where
  | leaves
      {state : State}
      {buf : StdString}
      {chunk : Bytes}
      {fed : Except Trouble (Option RespValue) × StdString}
      {consumed : Consumed State UInt8 Trouble}
      (feeds : Feeds reserve buf chunk fed)
      (left : afterFeed consume state fed = .inr consumed) :
      Drains reserve consume state buf chunk consumed 1
  | goesOn
      {state next : State}
      {buf rest : StdString}
      {chunk : Bytes}
      {fed : Except Trouble (Option RespValue) × StdString}
      {consumed : Consumed State UInt8 Trouble}
      {more : Nat}
      (feeds : Feeds reserve buf chunk fed)
      (proceeds : afterFeed consume state fed = .inl (next, rest))
      (later : Drains reserve consume next rest [] consumed more) :
      Drains reserve consume state buf chunk consumed (more + 1)

/-- The outcome of a parse function that meets no other trouble. -/
def asOutcome (parsed : Parsed) : Except Trouble ParseResult :=
  parsed.mapError .throws

theorem eq_error_of_asOutcome
    {parsed : Parsed}
    {trouble : Trouble}
    (failed : asOutcome parsed = .error trouble) :
    ∃ exception,
      trouble = .throws exception ∧ parsed = .error exception := by
  cases parsed with
  | error exception =>
      cases failed
      exact ⟨exception, rfl, rfl⟩
  | ok result =>
      cases failed

theorem eq_ok_of_asOutcome
    {parsed : Parsed}
    {result : ParseResult}
    (returned : asOutcome parsed = .ok result) :
    parsed = .ok result := by
  cases parsed with
  | error exception =>
      cases returned
  | ok found =>
      cases returned
      rfl

section InRange

variable {buf : StdString}

/-- A length or a count that is not negative, as `std::size_t`. -/
theorem toNat_toUInt64_of_not_neg
    {declared : Int64}
    (nonnegative : ¬declared < 0) :
    declared.toUInt64.toNat = declared.toNatClampNeg := by
  apply CheckedInt64.toNat_toUInt64
  rw [Int64.lt_iff_toInt_lt] at nonnegative
  exact Int.not_lt.mp nonnegative

/-- A declared length is at most the largest signed integer. -/
theorem toNatClampNeg_lt
    (declared : Int64) :
    declared.toNatClampNeg < 2 ^ 63 := by
  have upper := declared.toInt_lt
  have clamped : declared.toNatClampNeg = declared.toInt.toNat :=
    rfl
  omega

/-- A sum of sizes that fits does not wrap. -/
theorem sizeSum_eq
    {first second : Nat}
    (inRange : first + second < 2 ^ 64) :
    sizeSum first second = .ok (first + second) :=
  if_pos inRange

/-- The longest string and the longest declared length leave no room. -/
example :
    sizeSum (2 ^ 63 - 2 + (2 ^ 63 - 1)) 2 = .ok (2 ^ 64 - 1) :=
  rfl

/-- A line is read inside the buffer. -/
theorem readLine?_eq
    (offset : Nat) :
    readLine? buf offset = .ok (readLine buf.bytes offset) := by
  cases found : findCrlf buf.bytes offset with
  | none =>
      simp only [readLine?, readLine, found]
  | some pos =>
      have read :
          readLine buf.bytes offset =
            some ((buf.bytes.drop offset).take (pos - offset), pos + 2) := by
        simp only [readLine, found]
      obtain ⟨behind, inside⟩ := readLine_bounds read
      have fits := buf.fits
      have difference : sizeDifference pos offset = .ok (pos - offset) :=
        if_pos (by omega)
      have line :
          buf.substr offset (pos - offset) =
            .ok ((buf.bytes.drop offset).take (pos - offset)) :=
        if_pos (by rw [StdString.size]; omega)
      have final : sizeSum pos 2 = .ok (pos + 2) :=
        sizeSum_eq (by omega)
      rw [read]
      simp only [readLine?, found, difference, line, final, bind,
        Except.bind, pure, Except.pure]

theorem parseSimpleString?_eq
    (offset : Nat) :
    parseSimpleString? buf offset =
      asOutcome (parseSimpleString buf.bytes offset) := by
  rw [parseSimpleString?, parseLine?, readLine?_eq, parseSimpleString]
  cases readLine buf.bytes offset with
  | none =>
      rfl
  | some read =>
      rfl

theorem parseError?_eq
    (offset : Nat) :
    parseError? buf offset = asOutcome (parseError buf.bytes offset) := by
  rw [parseError?, parseLine?, readLine?_eq, parseError]
  cases readLine buf.bytes offset with
  | none =>
      rfl
  | some read =>
      rfl

theorem parseInteger?_eq
    (offset : Nat) :
    parseInteger? buf offset =
      asOutcome (parseInteger buf.bytes offset) := by
  rw [parseInteger?, readLine?_eq, parseInteger]
  cases readLine buf.bytes offset with
  | none =>
      rfl
  | some read =>
      obtain ⟨line, final⟩ := read
      simp only [bind, Except.bind]
      cases wholeInt64? line with
      | none =>
          rfl
      | some value =>
          rfl

/--
The sums of a bulk string do not wrap: what is buffered and what is declared are
both below `2 ^ 63`, and one of them leaves room for the terminator.
-/
theorem parseBulkString?_eq
    (offset : Nat) :
    parseBulkString? buf offset =
      asOutcome (parseBulkString buf.bytes offset) := by
  rw [parseBulkString?, readLine?_eq, parseBulkString]
  cases read : readLine buf.bytes offset with
  | none =>
      rfl
  | some pair =>
      obtain ⟨line, afterLen⟩ := pair
      simp only [bind, Except.bind]
      cases wholeInt64? line with
      | none =>
          rfl
      | some len =>
          simp only
          split
          · rfl
          · split
            · rfl
            · rename_i nonnegative
              have inside := (readLine_bounds read).2
              have fits := buf.fits
              have dataLen := toNat_toUInt64_of_not_neg nonnegative
              have declared := toNatClampNeg_lt len
              have behind :
                  sizeSum afterLen len.toNatClampNeg =
                    .ok (afterLen + len.toNatClampNeg) :=
                sizeSum_eq (by omega)
              have final :
                  sizeSum (afterLen + len.toNatClampNeg) 2 =
                    .ok (afterLen + len.toNatClampNeg + 2) :=
                sizeSum_eq (by omega)
              rw [dataLen]
              simp only [behind, final]
              change _ =
                asOutcome
                  (if afterLen + len.toNatClampNeg + 2 > buf.size then _
                  else _)
              by_cases cut : afterLen + len.toNatClampNeg + 2 > buf.size
              · rw [if_pos cut, if_pos cut]
                rfl
              · have data :
                    buf.substr afterLen len.toNatClampNeg =
                      .ok ((buf.bytes.drop afterLen).take
                        len.toNatClampNeg) :=
                  if_pos (by omega)
                rw [if_neg cut, if_neg cut, data]
                rfl

end InRange

/-- The bytes behind an offset. -/
def bytesBehind (buf : StdString) (offset : Nat) : Nat :=
  buf.size - offset

section Recursion

variable {reserve : Reserve} {buf : StdString}

/--
A call of `parse` does what the model says.  It makes fewer calls than its value
has bytes, and no more than there are bytes behind the offset.
-/
structure Parses
    (reserve : Reserve)
    (buf : StdString)
    (offset : Nat)
    (outcome : Except Trouble ParseResult)
    (calls : Nat) :
    Prop where
  parsed : outcome = asOutcome (parse reserve buf.bytes offset)
  progress :
    ∀ value final,
      outcome = .ok (some (value, final)) →
      offset + calls < final
  bounded : calls ≤ bytesBehind buf offset

theorem Parses.eq_error
    {offset calls : Nat}
    {trouble : Trouble}
    (parses : Parses reserve buf offset (.error trouble) calls) :
    ∃ exception,
      trouble = .throws exception ∧
        parse reserve buf.bytes offset = .error exception :=
  eq_error_of_asOutcome parses.parsed.symm

/-- What the machine parses is what the parser returns. -/
theorem Parses.eq_ok
    {offset calls : Nat}
    {result : ParseResult}
    (parses : Parses reserve buf offset (.ok result) calls) :
    parse reserve buf.bytes offset = .ok result :=
  eq_ok_of_asOutcome parses.parsed.symm

/--
The loop over the elements.  Each of them takes at least as many bytes as it
makes calls, itself included; the last one, which may be incomplete, is the one
call more.
-/
theorem meets_parseElements
    {limit : Nat}
    (remaining : Nat)
    (elements : List RespValue)
    (cur : Nat)
    (inside : cur ≤ buf.size)
    (below : bytesBehind buf cur < limit)
    {goal : Except Trouble ParseResult → Nat → Prop}
    (reached :
      ∀ outcome calls,
        outcome =
            asOutcome
              (parseElements (parse reserve buf.bytes) remaining elements
                cur) →
        (∀ value final,
          outcome = .ok (some (value, final)) →
          cur + calls ≤ final) →
        calls ≤ bytesBehind buf cur + 1 →
        goal outcome calls) :
    Meets (bytesBehind buf) limit (Parses reserve buf)
      (parseElements? remaining elements cur) goal := by
  induction remaining generalizing elements cur goal with
  | zero =>
      refine reached _ 0 rfl ?_ (Nat.zero_le _)
      intro value final same
      cases same
      exact Nat.le_refl cur
  | succ remaining inductionHypothesis =>
      refine ⟨below, ?_, ?_⟩
      · intro trouble calls parses
        obtain ⟨exception, rfl, failed⟩ := parses.eq_error
        refine reached _ _ ?_ ?_ (Nat.succ_le_succ parses.bounded)
        · rw [parseElements, failed]
          rfl
        · intro value final same
          cases same
      · intro answer calls parses
        have first := parses.eq_ok
        cases answer with
        | none =>
            refine reached _ _ ?_ ?_ (Nat.succ_le_succ parses.bounded)
            · rw [parseElements, first]
              rfl
            · intro value final same
              cases same
        | some pair =>
            obtain ⟨element, middle⟩ := pair
            have taken := parses.progress element middle rfl
            obtain ⟨-, within⟩ := parse_bounds first
            have shrinks :
                bytesBehind buf middle + (middle - cur) =
                  bytesBehind buf cur := by
              unfold bytesBehind StdString.size
              omega
            refine inductionHypothesis (elements ++ [element]) middle within
              (by omega) ?_
            intro outcome later same ahead few
            refine reached outcome _ ?_ ?_ ?_
            · rw [same, parseElements, first]
            · intro value final returned
              have behind := ahead value final returned
              omega
            · omega

/-- `parse_array` makes its calls behind its offset. -/
theorem meets_parseArray
    (offset : Nat)
    {limit : Nat}
    (below : bytesBehind buf offset ≤ limit)
    {goal : Except Trouble ParseResult → Nat → Prop}
    (reached :
      ∀ outcome calls,
        outcome =
            asOutcome
              (parseArray reserve buf.bytes (parse reserve buf.bytes)
                offset) →
        (∀ value final,
          outcome = .ok (some (value, final)) →
          offset + calls < final) →
        calls ≤ bytesBehind buf offset →
        goal outcome calls) :
    Meets (bytesBehind buf) limit (Parses reserve buf)
      (parseArray? reserve buf offset) goal := by
  have failed
      {exception : CppException}
      (same :
        parseArray reserve buf.bytes (parse reserve buf.bytes) offset =
          .error exception) :
      goal (.error (.throws exception)) 0 := by
    refine reached _ 0 ?_ ?_ (Nat.zero_le _)
    · rw [same]
      rfl
    · intro value final returned
      cases returned
  rw [parseArray?, readLine?_eq]
  rw [parseArray] at reached failed
  cases read : readLine buf.bytes offset with
  | none =>
      rw [read] at reached
      refine reached _ 0 rfl ?_ (Nat.zero_le _)
      intro value final returned
      cases returned
  | some pair =>
      obtain ⟨line, afterCount⟩ := pair
      obtain ⟨ahead, inside⟩ := readLine_bounds read
      simp only [read] at reached failed ⊢
      cases number : wholeInt64? line with
      | none =>
          simp only [number] at failed ⊢
          exact failed rfl
      | some count =>
          simp only [number] at reached failed ⊢
          by_cases null : count = -1
          · simp only [if_pos null] at reached ⊢
            refine reached _ 0 rfl ?_ (Nat.zero_le _)
            intro value final returned
            cases returned
            omega
          · simp only [if_neg null] at reached failed ⊢
            by_cases negative : count < 0
            · simp only [if_pos negative] at failed ⊢
              exact failed rfl
            · simp only [if_neg negative] at reached failed ⊢
              rw [toNat_toUInt64_of_not_neg negative]
              cases storage : reserve count.toNatClampNeg with
              | some exception =>
                  simp only [storage] at failed ⊢
                  exact failed rfl
              | none =>
                  simp only [storage] at reached ⊢
                  have shrinks :
                      bytesBehind buf afterCount + (afterCount - offset) =
                        bytesBehind buf offset := by
                    unfold bytesBehind StdString.size
                    omega
                  refine meets_parseElements _ _ _ inside (by omega) ?_
                  intro outcome calls same progress few
                  refine reached outcome calls same ?_ (by omega)
                  intro value final returned
                  have behind := progress value final returned
                  omega

/-- What is parsed without calls. -/
theorem parses_of_parse
    (offset : Nat) :
    Parses reserve buf offset
      (asOutcome (parse reserve buf.bytes offset)) 0 := by
  refine ⟨rfl, ?_, Nat.zero_le _⟩
  intro value final returned
  exact (parse_bounds (eq_ok_of_asOutcome returned)).1

/-- One level of the recursion. -/
theorem meets_parseBody
    (reserve : Reserve)
    (buf : StdString)
    (offset : Nat) :
    Meets (bytesBehind buf) (bytesBehind buf offset) (Parses reserve buf)
      (parseBody reserve buf offset) (Parses reserve buf offset) := by
  have leaf
      {parsed : Parsed}
      {result : Except Trouble ParseResult}
      (step :
        parseStep reserve buf.bytes (parse reserve buf.bytes) offset =
          parsed)
      (same : result = asOutcome parsed) :
      Parses reserve buf offset result 0 := by
    rw [same, ← step, ← parse_eq]
    exact parses_of_parse offset
  rw [parseBody]
  by_cases outside : buf.size ≤ offset
  · rw [if_pos outside]
    have atEnd := List.getElem?_eq_none outside
    exact leaf (by rw [parseStep, atEnd]) rfl
  · rw [if_neg outside]
    have inside : offset < buf.bytes.length := Nat.not_le.mp outside
    have fits := buf.fits
    have next : sizeSum offset 1 = .ok (offset + 1) :=
      sizeSum_eq (by omega)
    obtain ⟨byte, atOffset⟩ : ∃ byte, buf.bytes[offset]? = some byte :=
      ⟨_, List.getElem?_eq_getElem inside⟩
    have here : buf.byteAt offset = .ok byte := by
      rw [StdString.byteAt, atOffset]
    simp only [here, next]
    by_cases plus : byte = byteOf '+'
    · subst plus
      rw [if_pos rfl]
      exact meets_ofExcept
        (leaf (parseStep_simpleString atOffset) (parseSimpleString?_eq _))
    rw [if_neg plus]
    by_cases dash : byte = byteOf '-'
    · subst dash
      rw [if_pos rfl]
      exact meets_ofExcept
        (leaf (parseStep_error atOffset) (parseError?_eq _))
    rw [if_neg dash]
    by_cases colon : byte = byteOf ':'
    · subst colon
      rw [if_pos rfl]
      exact meets_ofExcept
        (leaf (parseStep_integer atOffset) (parseInteger?_eq _))
    rw [if_neg colon]
    by_cases dollar : byte = byteOf '$'
    · subst dollar
      rw [if_pos rfl]
      exact meets_ofExcept
        (leaf (parseStep_bulkString atOffset) (parseBulkString?_eq _))
    rw [if_neg dollar]
    by_cases star : byte = byteOf '*'
    · subst star
      rw [if_pos rfl]
      have fewer : bytesBehind buf (offset + 1) ≤ bytesBehind buf offset :=
        Nat.sub_le_sub_left (Nat.le_succ offset) buf.size
      refine meets_parseArray (offset + 1) fewer ?_
      intro outcome calls same progress bounded
      refine ⟨?_, ?_, Nat.le_trans bounded fewer⟩
      · rw [same, parse_eq, parseStep_array atOffset]
      · intro value final returned
        have behind := progress value final returned
        omega
    · rw [if_neg star]
      have unknown :
          parseStep reserve buf.bytes (parse reserve buf.bytes) offset =
            .error (.runtimeError
              (ascii "RESP: unknown type byte '" ++ [byte] ++
                ascii "'")) := by
        simp only [parseStep, atOffset, plus, dash, colon, dollar, star,
          ↓reduceIte]
      exact leaf unknown rfl

/-- Every call of `parse` comes to an end. -/
theorem exists_parses
    (reserve : Reserve)
    (buf : StdString)
    (offset : Nat) :
    ∃ outcome calls,
      Evaluates (parseBody reserve buf) (parseBody reserve buf offset)
          outcome calls ∧
        Parses reserve buf offset outcome calls :=
  exists_evaluates (meets_parseBody reserve buf) offset

end Recursion

/-- The ending of a loop that meets no other trouble. -/
def withTrouble
    {State : Type}
    (consumed : Consumed State UInt8 CppException) :
    Consumed State UInt8 Trouble where
  state := consumed.state
  rest := consumed.rest
  ending :=
    match consumed.ending with
    | .exhausted => .exhausted
    | .faulted exception => .faulted (.throws exception)
    | .left => .left

section Loops

variable {State : Type}
variable {reserve : Reserve} {consume : State → RespValue → Control State}

theorem append?_nil
    (buf : StdString) :
    buf.append? [] = some buf := by
  have fits : (buf.bytes ++ []).length + 1 < 2 ^ 63 := by
    rw [List.append_nil]
    exact buf.fits
  obtain ⟨bytes, short⟩ := buf
  rw [StdString.append?, dif_pos fits]
  simp only [List.append_nil]

/-- An append that fits is a concatenation. -/
theorem bytes_of_append?
    {buf joined : StdString}
    {chunk : Bytes}
    (appended : buf.append? chunk = some joined) :
    joined.bytes = buf.bytes ++ chunk := by
  unfold StdString.append? at appended
  split at appended
  · cases appended
    rfl
  · cases appended

/-- A call of `feed` returns or throws in one way only. -/
theorem Feeds.unique
    {buf : StdString}
    {chunk : Bytes}
    {first second : Except Trouble (Option RespValue) × StdString}
    (feeds : Feeds reserve buf chunk first)
    (again : Feeds reserve buf chunk second) :
    second = first := by
  cases feeds with
  | throws overlong =>
      cases again with
      | throws _ =>
          rfl
      | parses appended _ =>
          rw [overlong] at appended
          cases appended
  | parses appended parsed =>
      cases again with
      | throws overlong =>
          rw [overlong] at appended
          cases appended
      | parses alsoAppended alsoParsed =>
          rw [appended] at alsoAppended
          cases alsoAppended
          rw [(parsed.unique alsoParsed).1]

/-- The loop runs in one way only. -/
theorem Drains.unique
    {state : State}
    {buf : StdString}
    {chunk : Bytes}
    {first second : Consumed State UInt8 Trouble}
    {count others : Nat}
    (drains : Drains reserve consume state buf chunk first count)
    (again : Drains reserve consume state buf chunk second others) :
    second = first ∧ others = count := by
  induction drains generalizing second others with
  | leaves feeds left =>
      cases again with
      | leaves alsoFeeds alsoLeft =>
          obtain rfl := feeds.unique alsoFeeds
          rw [left] at alsoLeft
          cases alsoLeft
          exact ⟨rfl, rfl⟩
      | goesOn alsoFeeds proceeds _ =>
          obtain rfl := feeds.unique alsoFeeds
          rw [left] at proceeds
          cases proceeds
  | goesOn feeds proceeds later inductionHypothesis =>
      cases again with
      | leaves alsoFeeds left =>
          obtain rfl := feeds.unique alsoFeeds
          rw [proceeds] at left
          cases left
      | goesOn alsoFeeds alsoProceeds alsoLater =>
          obtain rfl := feeds.unique alsoFeeds
          rw [proceeds] at alsoProceeds
          cases alsoProceeds
          obtain ⟨rfl, rfl⟩ := inductionHypothesis alsoLater
          exact ⟨rfl, rfl⟩

/--
The loop ends, since every value takes a byte of the buffer, and where the model
says.
-/
theorem exists_drains_of_append
    (reserve : Reserve)
    (consume : State → RespValue → Control State)
    (state : State)
    {buf joined : StdString}
    {chunk : Bytes}
    (appended : buf.append? chunk = some joined) :
    ∃ count,
      Drains reserve consume state buf chunk
          (withTrouble
            (consumeAll (decode reserve) consume state joined.bytes))
          count ∧
        count ≤ joined.size + 1 := by
  induction length : joined.size using Nat.strongRecOn
    generalizing state buf joined chunk with
  | ind size inductionHypothesis =>
      subst length
      obtain ⟨outcome, calls, parsed, parses⟩ :=
        exists_parses reserve joined 0
      have fed := Feeds.parses appended parsed
      cases outcome with
      | error trouble =>
          obtain ⟨exception, rfl, failed⟩ := parses.eq_error
          have answer : decode reserve joined.bytes = .fault exception := by
            rw [decode, failed]
          refine ⟨1, .leaves fed ?_, Nat.succ_le_succ (Nat.zero_le _)⟩
          rw [consumeAll_fault answer]
          rfl
      | ok result =>
          have found := parses.eq_ok
          cases result with
          | none =>
              have answer : decode reserve joined.bytes = .more := by
                rw [decode, found]
              refine ⟨1, .leaves fed ?_, Nat.succ_le_succ (Nat.zero_le _)⟩
              rw [consumeAll_more answer]
              rfl
          | some pair =>
              obtain ⟨value, endPos⟩ := pair
              have answer :
                  decode reserve joined.bytes =
                    .item value (joined.erase endPos).bytes := by
                rw [decode, found]
                rfl
              have shrinks :
                  (joined.erase endPos).size < joined.size :=
                (incremental_decode reserve).itemShrinks answer
              rw [consumeAll_item (incremental_decode reserve) answer]
              cases served : consume state value with
              | leave next =>
                  refine ⟨1, .leaves fed ?_,
                    Nat.succ_le_succ (Nat.zero_le _)⟩
                  simp only [emit, afterFeed, served]
                  rfl
              | proceed next =>
                  obtain ⟨more, later, few⟩ :=
                    inductionHypothesis _ shrinks next
                      (append?_nil (joined.erase endPos)) rfl
                  refine ⟨more + 1, .goesOn fed ?_ later, by omega⟩
                  simp only [emit, afterFeed, served]

/-- The only trouble of a loop in the model is an exception. -/
theorem exists_throws_of_withTrouble
    {consumed : Consumed State UInt8 CppException}
    {trouble : Trouble}
    (faulted : (withTrouble consumed).ending = .faulted trouble) :
    ∃ exception, trouble = .throws exception := by
  unfold withTrouble at faulted
  dsimp only at faulted
  split at faulted
  · cases faulted
  · rename_i exception _
    cases faulted
    exact ⟨exception, rfl⟩
  · cases faulted

/-- The loop ends in one way, without an access or a sum out of range. -/
structure LoopEnds
    (reserve : Reserve)
    (consume : State → RespValue → Control State)
    (state : State)
    (buf : StdString)
    (chunk : Bytes)
    (consumed : Consumed State UInt8 Trouble)
    (count : Nat) :
    Prop where
  drains : Drains reserve consume state buf chunk consumed count
  only :
    ∀ other more,
      Drains reserve consume state buf chunk other more →
      other = consumed ∧ more = count
  inRange : consumed.ending ≠ .faulted .outOfRange
  unwrapped : consumed.ending ≠ .faulted .wraps
  modelled :
    buf.append? chunk ≠ none →
    consumed =
      withTrouble (feedEach reserve consume state ⟨buf.bytes⟩ chunk)
  bounded : count ≤ buf.size + chunk.length + 1

/-- The loop of `feed` and `next` comes to an end on every chunk. -/
theorem exists_loopEnds
    (reserve : Reserve)
    (consume : State → RespValue → Control State)
    (state : State)
    (buf : StdString)
    (chunk : Bytes) :
    ∃ consumed count,
      LoopEnds reserve consume state buf chunk consumed count := by
  cases appended : buf.append? chunk with
  | none =>
      have drains :
          Drains reserve consume state buf chunk
            ⟨state, buf.bytes, .faulted .tooLong⟩ 1 :=
        .leaves (.throws appended) rfl
      refine ⟨_, _, drains, fun _ _ => drains.unique, ?_, ?_, ?_,
        Nat.succ_le_succ (Nat.zero_le _)⟩
      · intro same
        cases same
      · intro same
        cases same
      · intro fits
        exact absurd appended fits
  | some joined =>
      obtain ⟨count, drains, few⟩ :=
        exists_drains_of_append reserve consume state appended
      have joins := bytes_of_append? appended
      refine ⟨_, _, drains, fun _ _ => drains.unique, ?_, ?_, ?_, ?_⟩
      · intro faulted
        obtain ⟨exception, same⟩ := exists_throws_of_withTrouble faulted
        cases same
      · intro faulted
        obtain ⟨exception, same⟩ := exists_throws_of_withTrouble faulted
        cases same
      · intro _
        rw [feedEach_eq_consumeAll, joins]
      · rw [StdString.size, joins, List.length_append] at few
        exact few

end Loops

/--
A run of the parser that is entered at `offset` ends in one way, without an
access or a sum out of range; a value ends behind the offset and in the buffer,
and there are no more calls than bytes behind the offset.
-/
structure EndsInRange
    (reserve : Reserve)
    (buf : StdString)
    (offset : Nat)
    (code : ParseCode)
    (outcome : Except Trouble ParseResult)
    (calls : Nat) :
    Prop where
  evaluates : Evaluates (parseBody reserve buf) code outcome calls
  only :
    ∀ other more,
      Evaluates (parseBody reserve buf) code other more →
      other = outcome ∧ more = calls
  inRange : outcome ≠ .error .outOfRange
  unwrapped : outcome ≠ .error .wraps
  advances :
    ∀ value final,
      outcome = .ok (some (value, final)) →
      offset < final ∧ final ≤ buf.size
  bounded : calls ≤ bytesBehind buf offset

section Ending

variable {reserve : Reserve} {buf : StdString}

/-- A run that does what the model says, inside the buffer. -/
theorem endsInRange_of_asOutcome
    {offset calls : Nat}
    {code : ParseCode}
    {parsed : Parsed}
    (evaluates :
      Evaluates (parseBody reserve buf) code (asOutcome parsed) calls)
    (bounds :
      ∀ value final,
        parsed = .ok (some (value, final)) →
        offset < final ∧ final ≤ buf.size)
    (bounded : calls ≤ bytesBehind buf offset) :
    EndsInRange reserve buf offset code (asOutcome parsed) calls := by
  refine ⟨evaluates, fun _ _ => evaluates.unique, ?_, ?_, ?_, bounded⟩
  · intro failed
    obtain ⟨exception, same, -⟩ := eq_error_of_asOutcome failed
    cases same
  · intro failed
    obtain ⟨exception, same, -⟩ := eq_error_of_asOutcome failed
    cases same
  · intro value final returned
    exact bounds value final (eq_ok_of_asOutcome returned)

theorem exists_endsInRange_parse
    (reserve : Reserve)
    (buf : StdString)
    (offset : Nat) :
    ∃ outcome calls,
      EndsInRange reserve buf offset (parseBody reserve buf offset)
        outcome calls := by
  obtain ⟨outcome, calls, evaluates, parses⟩ :=
    exists_parses reserve buf offset
  obtain rfl := parses.parsed
  refine ⟨_, calls, endsInRange_of_asOutcome evaluates ?_ parses.bounded⟩
  intro value final parsed
  exact parse_bounds parsed

theorem exists_endsInRange_parseArray
    (reserve : Reserve)
    (buf : StdString)
    (offset : Nat) :
    ∃ outcome calls,
      EndsInRange reserve buf offset (parseArray? reserve buf offset)
        outcome calls := by
  have meets :
      Meets (bytesBehind buf) (bytesBehind buf offset)
        (Parses reserve buf) (parseArray? reserve buf offset)
        fun outcome calls =>
          outcome =
              asOutcome
                (parseArray reserve buf.bytes (parse reserve buf.bytes)
                  offset) ∧
            calls ≤ bytesBehind buf offset :=
    meets_parseArray offset (Nat.le_refl _)
      fun _ _ same _ bounded => ⟨same, bounded⟩
  obtain ⟨outcome, calls, evaluates, rfl, bounded⟩ :=
    meets.exists_evaluates fun arg _ => exists_parses reserve buf arg
  refine ⟨_, calls, endsInRange_of_asOutcome evaluates ?_ bounded⟩
  intro value final parsed
  exact parseArray_bounds parse_bounds parsed

end Ending

/--
Every run of `parse` and of `parse_array`, at every offset of every buffer, ends
in range and behind its offset, and so do the loops of `handle_data` and of
`replay` that call it.
-/
theorem recursion_terminates
    (reserve : Reserve)
    (buf : StdString) :
    (∀ offset,
      ∃ outcome calls,
        EndsInRange reserve buf offset (parseBody reserve buf offset)
          outcome calls) ∧
      (∀ offset,
        ∃ outcome calls,
          EndsInRange reserve buf offset (parseArray? reserve buf offset)
            outcome calls) ∧
      (∀ clock connection server chunk,
        ∃ consumed count,
          LoopEnds reserve (Turn.serve reserve clock)
            (Connection.begin connection server) buf chunk consumed
            count) ∧
      ∀ clock backend,
        ∃ consumed count,
          LoopEnds reserve (AofPersistence.replayValue clock)
            ⟨backend, [], 0⟩ StdString.empty buf.bytes consumed count :=
  ⟨exists_endsInRange_parse reserve buf,
    exists_endsInRange_parseArray reserve buf,
    fun clock connection server chunk =>
      exists_loopEnds reserve (Turn.serve reserve clock)
        (connection.begin server) buf chunk,
    fun clock backend =>
      exists_loopEnds reserve (AofPersistence.replayValue clock)
        ⟨backend, [], 0⟩ StdString.empty buf.bytes⟩

end RespParser

end Vortek

import Vortek.RespGrammar

namespace Vortek

open DecimalText

/-!
# The parser on a stream

Neither a value nor an exception changes when more bytes arrive behind it, so
the parser is an incremental decoder and its drain loop does not depend on how
the stream was cut.  Serialized values are frames of the parser's dialect, so
a value followed by anything comes back as itself; and every value the parser
returns can be serialized and read again.
-/

namespace RespParser

variable {reserve : Reserve}

section Stability

/-- A returned value stays when more bytes arrive. -/
theorem parse_some_append
    {buf : Bytes}
    {offset final : Nat}
    {value : RespValue}
    (parsed : parse reserve buf offset = .ok (some (value, final)))
    (later : Bytes) :
    parse reserve (buf ++ later) offset =
      .ok (some (value, final)) := by
  have bounds := parse_bounds parsed
  obtain ⟨frame, rest, shape, derived, rfl⟩ := parse_eq_some_iff.mp parsed
  refine parse_eq_some_iff.mpr ⟨frame, rest ++ later, ?_, derived, rfl⟩
  rw [List.drop_append_of_le_length (by omega), shape, List.append_assoc]

theorem parseInteger_error_append
    {buf : Bytes}
    {offset : Nat}
    {exception : CppException}
    (failed : parseInteger buf offset = .error exception)
    (later : Bytes) :
    parseInteger (buf ++ later) offset = .error exception := by
  unfold parseInteger at failed ⊢
  cases read : readLine buf offset with
  | none =>
      simp [read] at failed
  | some pair =>
      rw [readLine_append read later]
      rwa [read] at failed

theorem parseBulkString_error_append
    {buf : Bytes}
    {offset : Nat}
    {exception : CppException}
    (failed : parseBulkString buf offset = .error exception)
    (later : Bytes) :
    parseBulkString (buf ++ later) offset = .error exception := by
  unfold parseBulkString at failed ⊢
  cases read : readLine buf offset with
  | none =>
      simp [read] at failed
  | some pair =>
      obtain ⟨line, afterLen⟩ := pair
      rw [readLine_append read later]
      simp only [read] at failed ⊢
      cases number : wholeInt64? line with
      | none =>
          simpa [number] using failed
      | some len =>
          simp only [number] at failed ⊢
          split
          · rename_i isNull
            simp [isNull] at failed
          · rename_i notNull
            split
            · rename_i negative
              simpa [notNull, negative] using failed
            · rename_i notNegative
              -- a length that is accepted never leads to an exception
              simp only [notNull, notNegative, ↓reduceIte] at failed
              split at failed <;> cases failed

/-- An array fails on its count line, on its storage or on an element. -/
theorem parseArray_error_append
    {buf later : Bytes}
    {parse other : Nat → Parsed}
    {offset : Nat}
    {exception : CppException}
    (failed : parseArray reserve buf parse offset = .error exception)
    (elements :
      ∀ cur remaining,
        offset ≤ cur →
        cur ≤ buf.length →
        parseElements parse remaining [] cur = .error exception →
        parseElements other remaining [] cur = .error exception) :
    parseArray reserve (buf ++ later) other offset =
      .error exception := by
  unfold parseArray at failed ⊢
  cases read : readLine buf offset with
  | none =>
      simp [read] at failed
  | some pair =>
      obtain ⟨line, afterCount⟩ := pair
      have bounds := readLine_bounds read
      rw [readLine_append read later]
      simp only [read] at failed ⊢
      cases number : wholeInt64? line with
      | none =>
          simpa [number] using failed
      | some count =>
          simp only [number] at failed ⊢
          split
          · rename_i isNull
            simp [isNull] at failed
          · rename_i notNull
            split
            · rename_i negative
              simpa [notNull, negative] using failed
            · rename_i notNegative
              simp only [notNull, notNegative, ↓reduceIte] at failed
              cases storage : reserve count.toNatClampNeg with
              | some found =>
                  rwa [storage] at failed
              | none =>
                  rw [storage] at failed
                  exact elements afterCount _ (by omega) bounds.2 failed

/-- An exception stays when more bytes arrive. -/
theorem parse_error_append
    {buf : Bytes}
    {offset : Nat}
    {exception : CppException}
    (failed : parse reserve buf offset = .error exception)
    (later : Bytes) :
    parse reserve (buf ++ later) offset = .error exception := by
  induction remaining : buf.length - offset
    using Nat.strong_induction_on generalizing offset exception with
  | h size inductionHypothesis =>
      subst remaining
      rw [parse_eq] at failed ⊢
      have kept
          {byte : UInt8}
          (atOffset : buf[offset]? = some byte) :
          (buf ++ later)[offset]? = some byte := by
        have inside := (List.getElem?_eq_some_iff.mp atOffset).1
        rw [List.getElem?_append_left inside, atOffset]
      cases parseStep_cases failed with
      | atEnd outside step =>
          cases step
      | simpleString atOffset step =>
          unfold parseSimpleString at step
          split at step <;> cases step
      | error atOffset step =>
          unfold parseError at step
          split at step <;> cases step
      | integer atOffset step =>
          rw [parseStep_integer (kept atOffset)]
          exact parseInteger_error_append step later
      | bulkString atOffset step =>
          rw [parseStep_bulkString (kept atOffset)]
          exact parseBulkString_error_append step later
      | array atOffset step =>
          have inside := (List.getElem?_eq_some_iff.mp atOffset).1
          rw [parseStep_array (kept atOffset)]
          refine parseArray_error_append step ?_
          intro cur remaining past insideCur loop
          obtain ⟨elements, middle, short, chain, stopped⟩ :=
            parseElements_eq_error_iff.mp loop
          have reached := chain.bounds parse_bounds insideCur
          refine parseElements_eq_error_iff.mpr
            ⟨elements, middle, short, ?_, ?_⟩
          · exact chain.mono parse_bounds
              (fun position element stop _ parsed =>
                parse_some_append parsed later)
          · exact inductionHypothesis _ (by omega) stopped rfl
      | unknown what step stays =>
          cases step
          exact stays later _

/-- The parser is an incremental decoder. -/
theorem incremental_decode
    (reserve : Reserve) :
    IncrementalDecoder.Incremental (decode reserve) where
  itemShrinks := by
    intro input value rest answer
    unfold decode at answer
    split at answer
    · cases answer
    · cases answer
    · rename_i found endPos parsed
      injection answer with _ restShape
      have bounds := parse_bounds parsed
      subst restShape
      rw [List.length_drop]
      omega
  itemStable := by
    intro input value rest answer later
    unfold decode at answer ⊢
    split at answer
    · cases answer
    · cases answer
    · rename_i found endPos parsed
      injection answer with sameValue restShape
      subst sameValue restShape
      have bounds := parse_bounds parsed
      rw [parse_some_append parsed later]
      simp only [List.drop_append_of_le_length bounds.2]
  faultStable := by
    intro input reason answer later
    unfold decode at answer ⊢
    split at answer
    · rename_i exception failed
      injection answer with sameReason
      subst sameReason
      rw [parse_error_append failed later]
    · cases answer
    · cases answer

/-- `feed` answers as the decoder does on the extended buffer. -/
theorem feed_eq_decode
    (parser : RespParser)
    (chunk : Bytes) :
    parser.feed reserve chunk =
      match decode reserve (parser.buf ++ chunk) with
      | .fault exception => (.error exception, ⟨parser.buf ++ chunk⟩)
      | .more => (.ok none, ⟨parser.buf ++ chunk⟩)
      | .item value rest => (.ok (some value), ⟨rest⟩) := by
  unfold feed decode
  simp only
  cases parse reserve (parser.buf ++ chunk) 0 with
  | error exception =>
      rfl
  | ok result =>
      cases result with
      | none =>
          rfl
      | some pair =>
          rfl

end Stability

section Chunking

open IncrementalDecoder

/--
Feed a chunk, then empty chunks until `feed` returns nullopt or throws, at most
`fuel` times.
-/
def feedWithin (reserve : Reserve) :
    Nat → RespParser → Bytes → Drained UInt8 RespValue CppException
  | 0, parser, _ => ⟨[], none, parser.buf⟩
  | fuel + 1, parser, chunk =>
      match parser.feed reserve chunk with
      | (.error exception, next) => ⟨[], some exception, next.buf⟩
      | (.ok none, next) => ⟨[], none, next.buf⟩
      | (.ok (some value), next) =>
          (feedWithin reserve fuel next []).prepend [value]

/-- The drain loop on one chunk; every value takes at least one byte. -/
def feedAll
    (reserve : Reserve)
    (parser : RespParser)
    (chunk : Bytes) :
    Drained UInt8 RespValue CppException :=
  feedWithin reserve ((parser.buf ++ chunk).length + 1) parser chunk

/-- The drain loop on one chunk after another, up to the first exception. -/
def feedStream (reserve : Reserve) :
    RespParser → List Bytes → Drained UInt8 RespValue CppException
  | parser, [] => ⟨[], none, parser.buf⟩
  | parser, chunk :: chunks =>
      let drained := feedAll reserve parser chunk
      match drained.fault with
      | some exception => ⟨drained.items, some exception, drained.rest⟩
      | none =>
          (feedStream reserve ⟨drained.rest⟩ chunks).prepend drained.items

theorem feedWithin_eq_drainWithin
    (fuel : Nat)
    (parser : RespParser)
    (chunk : Bytes) :
    feedWithin reserve (fuel + 1) parser chunk =
      drainWithin (decode reserve) (fuel + 1) (parser.buf ++ chunk) := by
  induction fuel generalizing parser chunk with
  | zero =>
      simp only [feedWithin, feed_eq_decode, drainWithin]
      cases decode reserve (parser.buf ++ chunk) <;> rfl
  | succ fuel inductionHypothesis =>
      rw [feedWithin, feed_eq_decode, drainWithin]
      cases decode reserve (parser.buf ++ chunk) with
      | more =>
          rfl
      | fault exception =>
          rfl
      | item value rest =>
          simp only
          rw [inductionHypothesis, List.append_nil]

/-- The drain loop over `feed` is the drain of the incremental decoder. -/
theorem feedAll_eq_drain
    (parser : RespParser)
    (chunk : Bytes) :
    feedAll reserve parser chunk =
      drain (decode reserve) (parser.buf ++ chunk) :=
  feedWithin_eq_drainWithin _ parser chunk

theorem feedStream_eq_drainChunks
    (parser : RespParser)
    (chunks : List Bytes) :
    feedStream reserve parser chunks =
      drainChunks (decode reserve) parser.buf chunks := by
  induction chunks generalizing parser with
  | nil =>
      rfl
  | cons chunk chunks inductionHypothesis =>
      simp only [feedStream, drainChunks, feedAll_eq_drain,
        inductionHypothesis]
      cases (drain (decode reserve) (parser.buf ++ chunk)).fault <;> rfl

/-- An empty buffer is a request for more bytes. -/
theorem decode_nil (reserve : Reserve) :
    decode reserve [] = .more :=
  rfl

/--
Two ways of cutting the same stream give the same values, the same exception
if any, and, without an exception, the same bytes left in the buffer.
-/
theorem feedStream_chunking
    (reserve : Reserve)
    (first second : List Bytes)
    (same : first.flatten = second.flatten) :
    (feedStream reserve empty first).items =
        (feedStream reserve empty second).items ∧
      (feedStream reserve empty first).fault =
        (feedStream reserve empty second).fault ∧
      ((feedStream reserve empty first).fault = none →
        (feedStream reserve empty first).rest =
          (feedStream reserve empty second).rest) := by
  have firstDrained :=
    drainChunks_eq_drain (incremental_decode reserve)
      (decode_nil reserve) first
  have secondDrained :=
    drainChunks_eq_drain (incremental_decode reserve)
      (decode_nil reserve) second
  rw [← same] at secondDrained
  rw [feedStream_eq_drainChunks, feedStream_eq_drainChunks]
  refine ⟨?_, ?_, fun sound => ?_⟩
  · exact firstDrained.1.trans secondDrained.1.symm
  · exact firstDrained.2.1.trans secondDrained.2.1.symm
  · have secondSound := secondDrained.2.1.trans
      (firstDrained.2.1.symm.trans sound)
    exact (firstDrained.2.2 sound).trans
      (secondDrained.2.2 secondSound).symm

/-- A frame cut between CR and LF is read like the uncut one. -/
theorem feedStream_chunking_between_cr_lf :
    (feedStream (fun _ => none) empty
        [ascii "+OK\r", ascii "\n:7\r\n"]).items =
      (feedStream (fun _ => none) empty
        [ascii "+OK\r\n:7\r\n"]).items :=
  (feedStream_chunking (fun _ => none) _ _ (by decide)).1

end Chunking

section Consuming

open IncrementalDecoder

variable {State : Type}

/--
The loop of `replay` and `handle_data`: feed a chunk, then empty chunks, and
hand every value to a consumer, at most `fuel` times.
-/
def feedEachWithin
    (reserve : Reserve)
    (consume : State → RespValue → Control State) :
    Nat → State → RespParser → Bytes → Consumed State UInt8 CppException
  | 0, state, parser, _ => ⟨state, parser.buf, .exhausted⟩
  | fuel + 1, state, parser, chunk =>
      match parser.feed reserve chunk with
      | (.error exception, next) =>
          ⟨state, next.buf, .faulted exception⟩
      | (.ok none, next) => ⟨state, next.buf, .exhausted⟩
      | (.ok (some value), next) =>
          match consume state value with
          | .leave final => ⟨final, next.buf, .left⟩
          | .proceed final =>
              feedEachWithin reserve consume fuel final next []

/-- The same loop with enough fuel: every value takes at least one byte. -/
def feedEach
    (reserve : Reserve)
    (consume : State → RespValue → Control State)
    (state : State)
    (parser : RespParser)
    (chunk : Bytes) :
    Consumed State UInt8 CppException :=
  feedEachWithin reserve consume ((parser.buf ++ chunk).length + 1)
    state parser chunk

theorem feedEachWithin_eq_consumeWithin
    {consume : State → RespValue → Control State}
    (fuel : Nat)
    (state : State)
    (parser : RespParser)
    (chunk : Bytes) :
    feedEachWithin reserve consume (fuel + 1) state parser chunk =
      consumeWithin (decode reserve) consume (fuel + 1) state
        (parser.buf ++ chunk) := by
  induction fuel generalizing state parser chunk with
  | zero =>
      simp only [feedEachWithin, feed_eq_decode, consumeWithin]
      cases decode reserve (parser.buf ++ chunk) with
      | more =>
          rfl
      | fault exception =>
          rfl
      | item value rest =>
          cases consume state value <;> rfl
  | succ fuel inductionHypothesis =>
      rw [feedEachWithin, feed_eq_decode, consumeWithin]
      cases decode reserve (parser.buf ++ chunk) with
      | more =>
          rfl
      | fault exception =>
          rfl
      | item value rest =>
          simp only
          cases consume state value with
          | leave final =>
              rfl
          | proceed final =>
              simp only
              rw [inductionHypothesis, List.append_nil]

/-- The loop over `feed` consumes the input as the decoder splits it. -/
theorem feedEach_eq_consumeAll
    {consume : State → RespValue → Control State}
    (state : State)
    (parser : RespParser)
    (chunk : Bytes) :
    feedEach reserve consume state parser chunk =
      consumeAll (decode reserve) consume state (parser.buf ++ chunk) :=
  feedEachWithin_eq_consumeWithin _ state parser chunk

end Consuming

section RoundTrip

/-- Element by element, serialized values are frames. -/
theorem frames_serializeAll
    {dialect : Dialect}
    {elements : List RespValue}
    (framed :
      ∀ element ∈ elements, Frame dialect element.serialize element) :
    Frames dialect (RespValue.serializeAll elements) elements := by
  induction elements with
  | nil =>
      exact .nil
  | cons element elements inductionHypothesis =>
      exact .cons (framed element List.mem_cons_self)
        (inductionHypothesis fun other member =>
          framed other (List.mem_cons_of_mem element member))

/-- The dialect allows what `serialize` writes. -/
structure Canonical (reserve : Reserve) (dialect : Dialect) : Prop where
  bulkEnd : dialect.bulkEnd crlf
  nullLength : dialect.nullLength (ascii "-1")
  arrayCount : ∀ count, reserve count = none → dialect.arrayCount count

theorem canonical_parserDialect :
    Canonical reserve (.parser reserve) :=
  ⟨rfl, int64Text_minusOne, fun _ admitted => admitted⟩

theorem canonical_resp2 :
    Canonical reserve .resp2 :=
  ⟨rfl, rfl, fun _ _ => trivial⟩

/-- The wire form of a line-safe, storable value is a frame. -/
theorem frame_serialize
    {dialect : Dialect}
    {value : RespValue}
    (canonical : Canonical reserve dialect)
    (safe : value.LineSafe)
    (storable : value.Storable reserve) :
    Frame dialect value.serialize value := by
  induction value with
  | null =>
      exact .nullBulk canonical.nullLength
  | simpleString text =>
      exact .simpleString safe
  | error message =>
      exact .error safe
  | integer number =>
      exact .integer (int64Text_stdToString number)
  | bulkString payload =>
      exact .bulkString (int64Text_decimalDigits storable)
        (toInt_ofInt_natCast storable) canonical.bulkEnd
  | array elements inductionHypothesis =>
      refine .array (int64Text_decimalDigits storable.1.1)
        (toInt_ofInt_natCast storable.1.1)
        (canonical.arrayCount _ storable.1.2)
        (frames_serializeAll fun element member => ?_)
      exact inductionHypothesis element member
        (RespValue.everywhereAll_iff.mp safe.2 element member)
        (RespValue.everywhereAll_iff.mp storable.2 element member)

mutual

/-- Values that have a frame are line-safe and storable. -/
theorem lineSafe_and_storable_of_frame
    {bytes : Bytes}
    {value : RespValue}
    (derived : Frame (.parser reserve) bytes value) :
    value.LineSafe ∧ value.Storable reserve := by
  cases derived with
  | simpleString free =>
      exact ⟨free, trivial⟩
  | error free =>
      exact ⟨free, trivial⟩
  | integer denotes =>
      exact ⟨trivial, trivial⟩
  | @bulkString text payload closing length denotes measured closed =>
      have small := length.toInt_lt
      refine ⟨trivial, ?_⟩
      change payload.length < 2 ^ 63
      omega
  | nullBulk spelled =>
      exact ⟨trivial, trivial⟩
  | nullArray spelled =>
      exact ⟨trivial, trivial⟩
  | @array text body count elements denotes counted admitted derived =>
      have small := count.toInt_lt
      have nested := lineSafe_and_storable_of_frames derived
      exact ⟨⟨trivial, nested.1⟩, ⟨⟨by omega, admitted⟩, nested.2⟩⟩

theorem lineSafe_and_storable_of_frames
    {bytes : Bytes}
    {values : List RespValue}
    (derived : Frames (.parser reserve) bytes values) :
    RespValue.EverywhereAll RespValue.LineClear values ∧
      RespValue.EverywhereAll (RespValue.SizeFits reserve) values := by
  cases derived with
  | nil =>
      exact ⟨trivial, trivial⟩
  | cons head tail =>
      have first := lineSafe_and_storable_of_frame head
      have later := lineSafe_and_storable_of_frames tail
      exact ⟨⟨first.1, later.1⟩, ⟨first.2, later.2⟩⟩

end

/-- A frame in front of other bytes is decoded. -/
theorem decode_frame_append
    {frame : Bytes}
    {value : RespValue}
    (derived : Frame (.parser reserve) frame value)
    (later : Bytes) :
    decode reserve (frame ++ later) = .item value later := by
  have parsed :=
    parse_of_frame derived
      (List.drop_zero : (frame ++ later).drop 0 = frame ++ later)
  simp [decode, parsed]

/-- A decoded value has a frame in front of the rest of the input. -/
theorem exists_frame_of_decode
    {input rest : Bytes}
    {value : RespValue}
    (answer : decode reserve input = .item value rest) :
    ∃ frame,
      input = frame ++ rest ∧ Frame (.parser reserve) frame value := by
  unfold decode at answer
  split at answer
  · cases answer
  · cases answer
  · rename_i found final parsed
    injection answer with sameValue restShape
    subst sameValue restShape
    obtain ⟨frame, rest, shape, derived, rfl⟩ :=
      parse_eq_some_iff.mp parsed
    rw [List.drop_zero] at shape
    subst shape
    exact ⟨frame, by simp, derived⟩

/-- A returned value is parsed from its own bytes alone. -/
theorem framed_decode (reserve : Reserve) :
    IncrementalDecoder.Framed (decode reserve) where
  toIncremental := incremental_decode reserve
  start := decode_nil reserve
  frames := by
    intro input value rest answer
    obtain ⟨frame, split, derived⟩ := exists_frame_of_decode answer
    refine ⟨frame, split, ?_⟩
    have whole := decode_frame_append derived []
    rwa [List.append_nil] at whole

/-- A property that every storable value keeps holds after the loop. -/
theorem feedEach_invariant
    {State : Type}
    {consume : State → RespValue → IncrementalDecoder.Control State}
    (holds : State → Prop)
    (keeps :
      ∀ state value,
        value.Storable reserve →
        holds state →
        holds (consume state value).state)
    {state : State}
    (initially : holds state)
    (parser : RespParser)
    (chunk : Bytes) :
    holds (feedEach reserve consume state parser chunk).state := by
  rw [feedEach_eq_consumeAll]
  refine IncrementalDecoder.consumeAll_invariant holds ?_ initially _
  intro state input value rest answer
  obtain ⟨frame, -, derived⟩ := exists_frame_of_decode answer
  exact keeps state value (lineSafe_and_storable_of_frame derived).2

/-- An empty parser returns a serialized value and keeps what follows it. -/
theorem feed_serialize_append
    {value : RespValue}
    (safe : value.LineSafe)
    (storable : value.Storable reserve)
    (later : Bytes) :
    empty.feed reserve (value.serialize ++ later) =
      (.ok (some value), ⟨later⟩) := by
  rw [feed_eq_decode]
  change (match decode reserve (value.serialize ++ later) with
    | .fault exception => _
    | .more => _
    | .item value rest => _) = _
  rw [decode_frame_append
    (frame_serialize canonical_parserDialect safe storable)]

/-- Whatever `feed` returns is line-safe and storable. -/
theorem lineSafe_and_storable_of_feed
    {parser next : RespParser}
    {chunk : Bytes}
    {value : RespValue}
    (fed : parser.feed reserve chunk = (.ok (some value), next)) :
    value.LineSafe ∧ value.Storable reserve := by
  rw [feed_eq_decode] at fed
  cases answer : decode reserve (parser.buf ++ chunk) with
  | more =>
      simp [answer] at fed
  | fault exception =>
      simp [answer] at fed
  | item found rest =>
      simp only [answer, Prod.mk.injEq, Except.ok.injEq,
        Option.some.injEq] at fed
      obtain ⟨frame, -, derived⟩ := exists_frame_of_decode answer
      rw [fed.1] at derived
      exact lineSafe_and_storable_of_frame derived

/--
Serializing and feeding is the identity on line-safe values in front of any
bytes, and the parser returns line-safe values only.
-/
theorem serialize_feed_roundTrip (reserve : Reserve) :
    (∀ value : RespValue,
      value.LineSafe →
      value.Storable reserve →
      ∀ later,
        empty.feed reserve (value.serialize ++ later) =
          (.ok (some value), ⟨later⟩)) ∧
      ∀ (parser : RespParser) chunk value next,
        parser.feed reserve chunk = (.ok (some value), next) →
        value.LineSafe ∧
          ∀ later,
            empty.feed reserve (value.serialize ++ later) =
              (.ok (some value), ⟨later⟩) := by
  constructor
  · intro value safe storable later
    exact feed_serialize_append safe storable later
  · intro parser chunk value next fed
    obtain ⟨safe, storable⟩ := lineSafe_and_storable_of_feed fed
    exact ⟨safe, fun later => feed_serialize_append safe storable later⟩

/-- A nested array with CR LF inside its bulk string comes back. -/
theorem serialize_feed_roundTrip_nested :
    empty.feed (fun _ => none)
        ((RespValue.array [.null, .array [.bulkString crlf]]).serialize ++
          crlf) =
      (.ok (some (.array [.null, .array [.bulkString crlf]])), ⟨crlf⟩) :=
  (serialize_feed_roundTrip (fun _ => none)).1
    (.array [.null, .array [.bulkString crlf]])
    ⟨trivial, trivial, ⟨trivial, trivial, trivial⟩, trivial⟩
    ⟨⟨by decide, rfl⟩, trivial,
      ⟨⟨by decide, rfl⟩, (by decide : 2 < 2 ^ 63), trivial⟩, trivial⟩
    crlf

end RoundTrip

end RespParser

end Vortek

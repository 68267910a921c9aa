import Vortek.RespGrammar

namespace Vortek

/-!
# Where the parser departs from RESP2

The parser is compared with the strict grammar. The frames that it accepts and
RESP2 does not are listed by `Flawed`; on every buffer that does not begin with
one of them the two agree.
-/

namespace RespParser

open DecimalText

variable {reserve : Reserve}

/--
`parse(0)` returns exactly the RESP2 derivations: a value with an end offset
if and only if the bytes in front of that offset derive the value.
-/
def AcceptsResp2 (reserve : Reserve) (buf : Bytes) : Prop :=
  ∀ value final,
    parse reserve buf 0 = .ok (some (value, final)) ↔
      final ≤ buf.length ∧ Frame .resp2 (buf.take final) value

/--
Frames that RESP2 refuses and the parser reads: a bulk payload followed by two
bytes other than CR LF, a null written with padding such as `$-01`, or an array
with such an element.
-/
inductive Flawed : Bytes → RespValue → Prop where
  | bulkEnd
      {text payload closing : Bytes}
      {length : Int64}
      (denotes : Int64Text text length)
      (measured : length.toInt = payload.length)
      (two : closing.length = 2)
      (wrong : closing ≠ crlf) :
      Flawed
        (byteOf '$' :: (text ++ crlf ++ payload ++ closing))
        (.bulkString payload)
  | nullBulk
      {text : Bytes}
      (denotes : Int64Text text (-1))
      (padded : text ≠ ascii "-1") :
      Flawed (byteOf '$' :: (text ++ crlf)) .null
  | nullArray
      {text : Bytes}
      (denotes : Int64Text text (-1))
      (padded : text ≠ ascii "-1") :
      Flawed (byteOf '*' :: (text ++ crlf)) .null
  | array
      {text front middle back : Bytes}
      {count : Int64}
      {before after : List RespValue}
      {value : RespValue}
      (denotes : Int64Text text count)
      (counted : count.toInt = (before ++ value :: after).length)
      (earlier : Frames (.parser fun _ => none) front before)
      (flawed : Flawed middle value)
      (later : Frames (.parser fun _ => none) back after) :
      Flawed
        (byteOf '*' :: (text ++ crlf ++ (front ++ (middle ++ back))))
        (.array (before ++ value :: after))

/-- The buffer begins with a frame that only the parser accepts. -/
def StartsFlawed (buf : Bytes) : Prop :=
  ∃ frame value, frame <+: buf ∧ Flawed frame value

/-- Sequences of frames can be joined. -/
theorem frames_append
    {dialect : Dialect}
    {front back : Bytes}
    {before after : List RespValue}
    (earlier : Frames dialect front before)
    (later : Frames dialect back after) :
    Frames dialect (front ++ back) (before ++ after) := by
  induction before generalizing front with
  | nil =>
      cases earlier
      exact later
  | cons value before inductionHypothesis =>
      cases earlier with
      | cons head tail =>
          rw [List.append_assoc]
          exact .cons head (inductionHypothesis tail)

/-- A joined sequence splits where its values do. -/
theorem exists_split_of_frames
    {dialect : Dialect}
    {body : Bytes}
    {before after : List RespValue}
    (derived : Frames dialect body (before ++ after)) :
    ∃ front back,
      body = front ++ back ∧
        Frames dialect front before ∧
        Frames dialect back after := by
  induction before generalizing body with
  | nil =>
      exact ⟨[], body, rfl, .nil, derived⟩
  | cons value before inductionHypothesis =>
      cases derived with
      | @cons first rest _ _ head tail =>
          obtain ⟨front, back, rfl, earlier, later⟩ :=
            inductionHypothesis tail
          exact ⟨first ++ front, back, by simp,
            .cons head earlier, later⟩

/-- A RESP2 frame is read by a parser that has storage for its arrays. -/
theorem parserFrame_of_resp2
    {frame : Bytes}
    {value : RespValue}
    (derived : Frame .resp2 frame value)
    (storage : ∀ count, count ≤ frame.length → reserve count = none) :
    Frame (.parser reserve) frame value := by
  refine derived.mono ?_ ?_ storage (Nat.le_refl _)
  · rintro closing rfl
    rfl
  · rintro text rfl
    exact int64Text_minusOne

theorem parserFrames_of_resp2
    {body : Bytes}
    {values : List RespValue}
    (derived : Frames .resp2 body values)
    (storage : ∀ count, count ≤ body.length → reserve count = none) :
    Frames (.parser reserve) body values := by
  refine (derived.mono ?_ ?_ storage (Nat.le_refl _)).1
  · rintro closing rfl
    rfl
  · rintro text rfl
    exact int64Text_minusOne

/-- Storage aside, every parser reads the same frames. -/
theorem parserFrame_change
    {other : Reserve}
    {frame : Bytes}
    {value : RespValue}
    (derived : Frame (.parser reserve) frame value)
    (storage : ∀ count, count ≤ frame.length → other count = none) :
    Frame (.parser other) frame value := by
  refine derived.mono ?_ ?_ storage (Nat.le_refl _)
  · exact fun _ two => two
  · exact fun _ spelled => spelled

mutual

/-- What the parser reads is RESP2 or flawed. -/
theorem resp2_or_flawed
    {frame : Bytes}
    {value : RespValue}
    (derived : Frame (.parser fun _ => none) frame value) :
    Frame .resp2 frame value ∨ Flawed frame value := by
  cases derived with
  | simpleString free =>
      exact Or.inl (.simpleString free)
  | error free =>
      exact Or.inl (.error free)
  | integer denotes =>
      exact Or.inl (.integer denotes)
  | @bulkString text payload closing length denotes measured two =>
      by_cases right : closing = crlf
      · exact Or.inl (.bulkString denotes measured right)
      · exact Or.inr (.bulkEnd denotes measured two right)
  | @nullBulk text denotes =>
      by_cases plain : text = ascii "-1"
      · exact Or.inl (.nullBulk plain)
      · exact Or.inr (.nullBulk denotes plain)
  | @nullArray text denotes =>
      by_cases plain : text = ascii "-1"
      · exact Or.inl (.nullArray plain)
      · exact Or.inr (.nullArray denotes plain)
  | array denotes counted admitted derived =>
      rcases resp2_or_flawed_element derived with
          clean | ⟨front, middle, back, before, element, after,
            rfl, rfl, earlier, flawed, later⟩
      · exact Or.inl (.array denotes counted trivial clean)
      · exact Or.inr (.array denotes counted earlier flawed later)

/-- A sequence the parser reads is RESP2 or has a first flawed frame. -/
theorem resp2_or_flawed_element
    {body : Bytes}
    {values : List RespValue}
    (derived : Frames (.parser fun _ => none) body values) :
    Frames .resp2 body values ∨
      ∃ front middle back before element after,
        body = front ++ (middle ++ back) ∧
          values = before ++ element :: after ∧
          Frames (.parser fun _ => none) front before ∧
          Flawed middle element ∧
          Frames (.parser fun _ => none) back after := by
  cases derived with
  | nil =>
      exact Or.inl .nil
  | @cons first rest value values head tail =>
      rcases resp2_or_flawed head with headClean | headFlawed
      · rcases resp2_or_flawed_element tail with
            tailClean | ⟨front, middle, back, before, element, after,
              rfl, rfl, earlier, flawed, later⟩
        · exact Or.inl (.cons headClean tailClean)
        · exact Or.inr ⟨first ++ front, middle, back,
            value :: before, element, after, by simp, rfl,
            .cons head earlier, flawed, later⟩
      · exact Or.inr ⟨[], first, rest, [], value, values,
          by simp, rfl, .nil, headFlawed, tail⟩

end

/-- A flawed frame is read by the parser. -/
theorem parserFrame_of_flawed
    {frame : Bytes}
    {value : RespValue}
    (flawed : Flawed frame value) :
    Frame (.parser fun _ => none) frame value := by
  induction flawed with
  | bulkEnd denotes measured two wrong =>
      exact .bulkString denotes measured two
  | nullBulk denotes padded =>
      exact .nullBulk denotes
  | nullArray denotes padded =>
      exact .nullArray denotes
  | array denotes counted earlier flawed later inductionHypothesis =>
      exact .array denotes counted rfl
        (frames_append earlier (.cons inductionHypothesis later))

/-- Two numbers in front of terminators, in the same bytes, are the same. -/
theorem text_unique
    {text other rest more : Bytes}
    {value number : Int64}
    (denotes : Int64Text text value)
    (otherDenotes : Int64Text other number)
    (same : text ++ crlf ++ rest = other ++ crlf ++ more) :
    text = other ∧ rest = more := by
  have found :=
    findCrlf_eq_some_iff.mpr
      ⟨text, rest, (by simp : (text ++ crlf ++ rest).drop 0 = _),
        crlfFree_of_int64Text denotes, rfl⟩
  have otherFound :=
    findCrlf_eq_some_iff.mpr
      ⟨other, more, (by simp [same] : (text ++ crlf ++ rest).drop 0 = _),
        crlfFree_of_int64Text otherDenotes, rfl⟩
  rw [found] at otherFound
  have lengths : text.length = other.length := by
    simpa using otherFound
  have fronts := List.append_inj same (by simp [lengths])
  exact ⟨(List.append_inj fronts.1 lengths).1, fronts.2⟩

/-- Front parts with the same values, in the same bytes, are the same. -/
theorem frames_front_unique
    {front other back rest : Bytes}
    {values : List RespValue}
    (derived : Frames (.parser fun _ => none) front values)
    (otherDerived : Frames (.parser fun _ => none) other values)
    (same : front ++ back = other ++ rest) :
    front = other ∧ back = rest := by
  have chain :=
    elementChain_of_frames derived
      (by simp : (front ++ back).drop 0 = front ++ back)
  have otherChain :=
    elementChain_of_frames otherDerived
      (by simp [same] : (front ++ back).drop 0 = other ++ rest)
  have lengths := chain.final_unique otherChain
  exact List.append_inj same (by omega)

/-- A flawed frame is not a RESP2 frame. -/
theorem not_resp2_of_flawed
    {frame : Bytes}
    {value : RespValue}
    (flawed : Flawed frame value) :
    ¬ Frame .resp2 frame value := by
  induction flawed with
  | @bulkEnd text payload closing length denotes measured two wrong =>
      intro clean
      generalize shape :
        byteOf '$' :: (text ++ crlf ++ payload ++ closing) = bytes
        at clean
      cases clean with
      | @bulkString other _ otherClosing number otherDenotes
          otherMeasured closed =>
          have same := (List.cons.inj shape).2
          rw [List.append_assoc _ payload closing,
            List.append_assoc _ payload otherClosing] at same
          have tails := (text_unique denotes otherDenotes same).2
          rw [List.append_cancel_left_eq] at tails
          exact wrong (tails.trans closed)
  | @nullBulk text denotes padded =>
      intro clean
      generalize shape : byteOf '$' :: (text ++ crlf) = bytes at clean
      cases clean with
      | @nullBulk other spelled =>
          have same := List.append_inj_left' (List.cons.inj shape).2 rfl
          exact padded (same.trans spelled)
      | @nullArray other spelled =>
          exact absurd (List.cons.inj shape).1 (by decide)
  | @nullArray text denotes padded =>
      intro clean
      generalize shape : byteOf '*' :: (text ++ crlf) = bytes at clean
      cases clean with
      | @nullBulk other spelled =>
          exact absurd (List.cons.inj shape).1 (by decide)
      | @nullArray other spelled =>
          have same := List.append_inj_left' (List.cons.inj shape).2 rfl
          exact padded (same.trans spelled)
  | @array text front middle back count before after value denotes
      counted earlier flawed later inductionHypothesis =>
      intro clean
      generalize shape :
        byteOf '*' :: (text ++ crlf ++ (front ++ (middle ++ back))) =
          bytes at clean
      cases clean with
      | @array other body number _ otherDenotes otherCounted admitted
          derived =>
          have same := (List.cons.inj shape).2
          have bodies := (text_unique denotes otherDenotes same).2
          obtain ⟨cleanFront, cleanRest, rfl, cleanEarlier,
              cleanLater⟩ := exists_split_of_frames derived
          obtain ⟨rfl, rests⟩ :=
            frames_front_unique earlier
              (parserFrames_of_resp2 cleanEarlier fun _ _ => rfl) bodies
          cases cleanLater with
          | @cons cleanMiddle cleanBack _ _ head tail =>
              have one
                  {bytes : Bytes}
                  (derived : Frame (.parser fun _ => none) bytes value) :
                  Frames (.parser fun _ => none) (bytes ++ []) [value] :=
                .cons derived .nil
              have middles :=
                (frames_front_unique
                  (one (parserFrame_of_flawed flawed))
                  (one (parserFrame_of_resp2 head fun _ _ => rfl))
                  (by simpa using rests)).1
              rw [List.append_nil, List.append_nil] at middles
              subst middles
              exact inductionHypothesis head

/--
With storage for every array the buffer could hold, the parser agrees with the
RESP2 grammar on a buffer exactly when the buffer does not begin with a flawed
frame.
-/
theorem acceptsResp2_iff_not_startsFlawed
    (reserve : Reserve)
    (buf : Bytes)
    (storage : ∀ count, count ≤ buf.length → reserve count = none) :
    AcceptsResp2 reserve buf ↔ ¬ StartsFlawed buf := by
  have prefixStorage
      {frame : Bytes}
      (front : frame <+: buf) :
      ∀ count, count ≤ frame.length → reserve count = none :=
    fun count small => storage count (small.trans front.length_le)
  have read
      {frame : Bytes}
      {value : RespValue}
      (front : frame <+: buf)
      (derived : Frame (.parser reserve) frame value) :
      parse reserve buf 0 = .ok (some (value, frame.length)) := by
    obtain ⟨rest, shape⟩ := front
    have parsed :=
      parse_of_frame derived
        (by simp [shape] : buf.drop 0 = frame ++ rest)
    simpa using parsed
  constructor
  · rintro accepts ⟨frame, value, front, flawed⟩
    have derived :=
      parserFrame_change (parserFrame_of_flawed flawed)
        (prefixStorage front)
    have clean := ((accepts value frame.length).mp
      (read front derived)).2
    rw [List.prefix_iff_eq_take.mp front] at flawed
    exact not_resp2_of_flawed flawed clean
  · intro sound value final
    constructor
    · intro parsed
      have bounds := parse_bounds parsed
      obtain ⟨frame, rest, shape, derived, rfl⟩ :=
        parse_eq_some_iff.mp parsed
      have front : frame <+: buf := ⟨rest, by simpa using shape.symm⟩
      have taken : buf.take (0 + frame.length) = frame := by
        rw [Nat.zero_add, ← List.prefix_iff_eq_take.mp front]
      rw [taken]
      refine ⟨bounds.2, ?_⟩
      rcases resp2_or_flawed
          (parserFrame_change derived fun _ _ => rfl) with
          clean | flawed
      · exact clean
      · exact (sound ⟨frame, value, front, flawed⟩).elim
    · rintro ⟨inside, clean⟩
      have front : buf.take final <+: buf := List.take_prefix final buf
      have parsed :=
        read front (parserFrame_of_resp2 clean (prefixStorage front))
      rwa [List.length_take_of_le inside] at parsed

/-- On a simple string the parser and the grammar agree. -/
theorem acceptsResp2_simpleString :
    AcceptsResp2 (fun _ => none) (ascii "+OK\r\n") := by
  refine (acceptsResp2_iff_not_startsFlawed (fun _ => none) _
    fun _ _ => rfl).mpr ?_
  rintro ⟨frame, value, front, flawed⟩
  cases flawed <;>
    exact absurd (List.cons_prefix_cons.mp front).1 (by decide)

/-- The bulk string `abc` is read although `XY` stands for its CR LF. -/
theorem parse_bulkString_ignores_terminator :
    parse (fun _ => none) (ascii "$3\r\nabcXY") 0 =
        .ok (some (.bulkString (ascii "abc"), 9)) ∧
      ¬ AcceptsResp2 (fun _ => none) (ascii "$3\r\nabcXY") := by
  have parsed :
      parse (fun _ => none) (ascii "$3\r\nabcXY") 0 =
        .ok (some (.bulkString (ascii "abc"), 9)) :=
    rfl
  have flawed :
      Flawed (ascii "$3\r\nabcXY") (.bulkString (ascii "abc")) :=
    @Flawed.bulkEnd (ascii "3") (ascii "abc") (ascii "XY") 3
      (int64Text_decimalDigits (by decide : 3 < 2 ^ 63))
      (by decide) (by decide) (by decide)
  refine ⟨parsed, fun accepts => ?_⟩
  exact not_resp2_of_flawed flawed ((accepts _ 9).mp parsed).2

end RespParser

end Vortek

import Vortek.Command
import Vortek.RespStream

namespace Vortek

open DecimalText

/-!
# Where commands start in a stream

A command is an array of bulk strings: an asterisk and a count, and then a
dollar sign and a length in front of every payload.  The numbers hold neither
sign, so an asterisk that starts a command inside another command stands in one
of its payloads.

From there a command of the same payloads does not fit into what is left: it
has to bring the payload in which it starts, and at every later payload it is
behind, because no dollar sign stands in front of the next one.  A reader that
has lost the start of a command therefore cannot find the same command before
the end of its bytes (`overtakes_frame`).
-/

section Headers

variable {text : Bytes} {number : Int64} {byte : UInt8}

/-- The line of a number holds neither an asterisk nor a dollar sign. -/
theorem ne_sign_of_mem_line
    (denotes : Int64Text text number)
    (member : byte ∈ text ++ crlf) :
    byte ≠ byteOf '*' ∧ byte ≠ byteOf '$' := by
  rcases List.mem_append.mp member with inText | inEnd
  · rcases denotes.digit_or_minus inText with digit | minus
    · constructor
      · rintro rfl
        exact absurd digit (by decide)
      · rintro rfl
        exact absurd digit (by decide)
    · subst minus
      decide
  · have either : byte = cr ∨ byte = lf := by
      simpa [crlf] using inEnd
    rcases either with rfl | rfl
    · decide
    · decide

/-- A byte found in the front of two joined texts is a byte of the front. -/
theorem mem_drop_of_found
    {front back rest : Bytes}
    {offset : Nat}
    (inside : offset < front.length)
    (found : (front ++ back).drop offset = byte :: rest) :
    byte ∈ front.drop offset := by
  rw [List.drop_append_of_le_length (Nat.le_of_lt inside)] at found
  cases shape : front.drop offset with
  | nil =>
      have short := List.drop_eq_nil_iff.mp shape
      omega
  | cons first later =>
      rw [shape, List.cons_append] at found
      rw [(List.cons.inj found).1]
      exact List.mem_cons_self

/-- Behind the sign of a header no sign is found in its line. -/
theorem ne_sign_of_found
    (denotes : Int64Text text number)
    {sign : UInt8}
    {back rest : Bytes}
    {offset : Nat}
    (behind : 0 < offset)
    (inside : offset < (sign :: (text ++ crlf)).length)
    (found :
      (sign :: (text ++ crlf) ++ back).drop offset = byte :: rest) :
    byte ≠ byteOf '*' ∧ byte ≠ byteOf '$' := by
  have member := mem_drop_of_found inside found
  obtain ⟨before, rfl⟩ := Nat.exists_eq_add_one.mpr behind
  rw [List.drop_succ_cons] at member
  exact ne_sign_of_mem_line denotes (List.mem_of_mem_drop member)

end Headers

section Elements

variable {dialect : Dialect}

/-- The first bulk string of several values. -/
theorem exists_bulk_of_frames
    {body payload : Bytes}
    {values : List RespValue}
    (derived : Frames dialect body (.bulkString payload :: values)) :
    ∃ text closing rest number,
      Int64Text text number ∧
        dialect.bulkEnd closing ∧
        body =
          byteOf '$' :: (text ++ crlf) ++ (payload ++ closing) ++ rest ∧
        Frames dialect rest values := by
  cases derived with
  | @cons first rest _ _ derived later =>
      cases derived with
      | @bulkString text _ closing number denotes measured closed =>
          refine ⟨text, closing, rest, number, denotes, closed, ?_, later⟩
          simp only [List.cons_append, List.append_assoc]

/-- A command is an array of its name and its arguments. -/
theorem exists_array_of_command
    {frame : Bytes}
    {value : RespValue}
    {cmd : Command}
    (derived : Frame dialect frame value)
    (parsed : parseCommand value = some cmd) :
    ∃ text body number name,
      Int64Text text number ∧
        upper name = cmd.name ∧
        Frames dialect body ((name :: cmd.args).map .bulkString) ∧
        frame = byteOf '*' :: (text ++ crlf) ++ body := by
  obtain ⟨name, rfl, capital⟩ := parseCommand_eq_some_iff.mp parsed
  cases derived with
  | @array text body count elements denotes counted admitted derived =>
      exact ⟨text, body, count, name, denotes, capital.symm, derived, rfl⟩

/-- Two adjacent bytes do not both start a command. -/
theorem RespParser.not_parseCommand_of_adjacent
    {reserve : Reserve}
    {byte : UInt8}
    {later rest left : Bytes}
    {first second : RespValue}
    (answer : decode reserve (byte :: later) = .item first rest)
    (served : (parseCommand first).isSome = true)
    (next : decode reserve later = .item second left) :
    ¬(parseCommand second).isSome = true := by
  intro alsoServed
  obtain ⟨cmd, parsed⟩ := Option.isSome_iff_exists.mp served
  obtain ⟨other, alsoParsed⟩ := Option.isSome_iff_exists.mp alsoServed
  obtain ⟨frame, shape, derived⟩ := exists_frame_of_decode answer
  obtain ⟨copy, rfl, copied⟩ := exists_frame_of_decode next
  obtain ⟨text, body, _, _, denotes, -, -, rfl⟩ :=
    exists_array_of_command derived parsed
  obtain ⟨line, tail, _, _, -, -, -, rfl⟩ :=
    exists_array_of_command copied alsoParsed
  rw [List.append_assoc _ body rest] at shape
  have found := congrArg (List.drop 1) shape
  exact absurd rfl
    (ne_sign_of_found denotes Nat.one_pos (by simp [crlf]) found.symm).1

end Elements

section Overtaking

variable {reserve : Reserve}

/-- Dropping more than a known front. -/
theorem drop_append_of_found
    {front back copied rest : Bytes}
    {offset : Nat}
    (found : (front ++ back).drop offset = copied ++ rest)
    (beyond : front.length ≤ offset + copied.length) :
    back.drop (offset + copied.length - front.length) = rest := by
  have later := congrArg (List.drop copied.length) found
  rw [List.drop_drop, List.drop_left] at later
  rw [← later, List.drop_append, List.drop_eq_nil_of_le beyond,
    List.nil_append]

/--
A copy of the elements that starts behind them ends behind them: it starts with
a dollar sign, and there is none before the next payload.
-/
theorem overtakes_elements
    {payloads copies : List Bytes}
    (same : copies.map List.length = payloads.map List.length)
    {body copy later left : Bytes}
    (derived : Frames .resp2 body (payloads.map .bulkString))
    (copied : Frames (.parser reserve) copy (copies.map .bulkString))
    {offset : Nat}
    (behind : 0 < offset)
    (found : (body ++ later).drop offset = copy ++ left) :
    body.length < offset + copy.length := by
  induction payloads generalizing copies body copy offset with
  | nil =>
      obtain rfl := List.map_eq_nil_iff.mp same
      cases derived
      cases copied
      simpa using behind
  | cons payload payloads inductionHypothesis =>
      cases copies with
      | nil =>
          cases same
      | cons other copies =>
          obtain ⟨sameLength, same⟩ := List.cons.inj same
          obtain ⟨text, closing, rest, _, denotes, closed, rfl,
            restDerived⟩ := exists_bulk_of_frames derived
          obtain ⟨line, ending, tail, _, _, ended, rfl, tailCopied⟩ :=
            exists_bulk_of_frames copied
          have closes : closing.length = 2 := by
            rw [closed]
            rfl
          have ends : ending.length = 2 := ended
          by_cases inside : offset < (byteOf '$' :: (text ++ crlf)).length
          · simp only [List.append_assoc] at found
            exact absurd rfl
              (ne_sign_of_found denotes behind inside found).2
          · rw [List.append_assoc _ rest later,
              List.append_assoc _ tail left] at found
            simp only [List.length_cons, List.length_append] at inside
            have next :=
              drop_append_of_found found (by
                simp only [List.length_cons, List.length_append]
                omega)
            have shorter :=
              inductionHypothesis same restDerived tailCopied (by
                simp only [List.length_cons, List.length_append]
                omega) next
            simp only [List.length_cons, List.length_append] at shorter ⊢
            omega

/--
A command that starts inside a frame of the same command ends behind that
frame.
-/
theorem overtakes_frame
    {frame copy later left : Bytes}
    {value other : RespValue}
    {cmd : Command}
    (derived : Frame .resp2 frame value)
    (parsed : parseCommand value = some cmd)
    (copied : Frame (.parser reserve) copy other)
    (alike : parseCommand other = some cmd)
    {offset : Nat}
    (behind : 0 < offset)
    (found : (frame ++ later).drop offset = copy ++ left) :
    frame.length < offset + copy.length := by
  obtain ⟨text, body, _, name, denotes, capital, elements, rfl⟩ :=
    exists_array_of_command derived parsed
  obtain ⟨line, tail, _, again, _, capitalAgain, copies, rfl⟩ :=
    exists_array_of_command copied alike
  have same :
      (again :: cmd.args).map List.length =
        (name :: cmd.args).map List.length := by
    have lengths := congrArg List.length (capitalAgain.trans capital.symm)
    simp only [upper, List.length_map] at lengths
    rw [List.map_cons, List.map_cons, lengths]
  rw [List.append_assoc, List.append_assoc] at found
  by_cases inside : offset < (byteOf '*' :: (text ++ crlf)).length
  · exact absurd rfl (ne_sign_of_found denotes behind inside found).1
  · simp only [List.length_cons, List.length_append] at inside
    have next :=
      drop_append_of_found found (by
        simp only [List.length_cons, List.length_append]
        omega)
    have shorter :=
      overtakes_elements same elements copies (by
        simp only [List.length_cons, List.length_append]
        omega) next
    simp only [List.length_cons, List.length_append] at shorter ⊢
    omega

end Overtaking

end Vortek

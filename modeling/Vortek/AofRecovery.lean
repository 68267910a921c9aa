import Vortek.AofPersistence

namespace Vortek.AofPersistence

open IncrementalDecoder RespParser

/-!
# Recovery from an arbitrary file

Whatever bytes the file holds, `replay` keeps those of the values that the
parser returned and cuts off the rest.  A value is parsed from its own bytes in
the same way whether or not something follows them, so a second replay finds the
same values in the kept file, up to its end, and has nothing to cut off.
-/

/--
The bytes of the file: one frame for each value that the parser returns, and a
rest at whose start it finds an incomplete or a malformed value, or nothing.
-/
structure Recovered
    (reserve : Reserve)
    (file : Bytes)
    (frames : List Bytes)
    (values : List RespValue)
    (rest : Bytes) :
    Prop where
  joined : file = frames.flatten ++ rest
  returned : (feedAll reserve RespParser.empty file).items = values
  framed :
    List.Forall₂
      (fun frame value => decode reserve frame = .item value [])
      frames values
  stopped :
    decode reserve rest = .more ∨
      ∃ exception, decode reserve rest = .fault exception

section Frames

variable {reserve : Reserve}

/-- Every file is made of frames and a rest. -/
theorem exists_recovered
    (reserve : Reserve)
    (file : Bytes) :
    ∃ frames,
      Recovered reserve file frames
        (drain (decode reserve) file).items
        (drain (decode reserve) file).rest := by
  have incremental := incremental_decode reserve
  obtain ⟨frames, joined, framed⟩ :=
    exists_frames_of_drain (framed_decode reserve) file
  refine ⟨frames, joined, ?_, framed, ?_⟩
  · rw [feedAll_eq_drain]
    rfl
  · cases ended : (drain (decode reserve) file).fault with
    | none =>
        exact Or.inl (decode_rest_drain incremental ended)
    | some exception =>
        exact Or.inr
          ⟨exception, decode_rest_drain_of_fault incremental ended⟩

/-- What replay makes of a file that is made of frames and a rest. -/
theorem replay_of_drain
    (clock : Nat → TimePoint)
    (backend : Backend)
    {frames : List Bytes}
    {values : List RespValue}
    {fault : Option CppException}
    {rest : Bytes}
    (drained :
      drain (decode reserve) (frames.flatten ++ rest) =
        ⟨values, fault, rest⟩) :
    (⟨frames.flatten ++ rest⟩ : AofPersistence).replay reserve clock
        backend =
      { backend :=
          dispatchAll clock 0 backend (values.filterMap parseCommand)
        dispatched := values.filterMap parseCommand
        count := (values.filterMap parseCommand).length
        parseError := fault.isSome
        truncatedTo :=
          if fault.isSome || decide (rest ≠ []) then
            some frames.flatten.length
          else none
        aof := ⟨frames.flatten⟩ } := by
  have kept :
      (frames.flatten ++ rest).length - rest.length =
        frames.flatten.length := by
    rw [List.length_append, Nat.add_sub_cancel]
  rw [replay_eq _ backend drained]
  simp only [kept, List.take_left]
  congr 1
  by_cases whole : rest = []
  · rw [whole, List.append_nil, ite_self]
  · rw [if_pos (by simp [whole])]

/-- Replay keeps the frames of a file and dispatches their commands. -/
theorem exists_replayed_frames
    (clock : Nat → TimePoint)
    (backend : Backend)
    (aof : AofPersistence) :
    ∃ frames values rest,
      Recovered reserve aof.file frames values rest ∧
        (aof.replay reserve clock backend).aof = ⟨frames.flatten⟩ ∧
        (aof.replay reserve clock backend).dispatched =
          values.filterMap parseCommand ∧
        (aof.replay reserve clock backend).count =
          (values.filterMap parseCommand).length := by
  obtain ⟨file⟩ := aof
  obtain ⟨frames, recovered⟩ := exists_recovered reserve file
  generalize ended : drain (decode reserve) file = drained at recovered
  obtain ⟨values, fault, rest⟩ := drained
  obtain rfl := recovered.joined
  refine ⟨frames, values, rest, recovered, ?_⟩
  rw [replay_of_drain clock backend ended]
  exact ⟨rfl, rfl, rfl⟩

end Frames

/--
Replay of any file dispatches the commands among the values that the parser
returned and keeps exactly the bytes of these values.  Replay of what it kept,
on any store and at any time, dispatches the same commands, counts as many, and
changes no byte.  Each leaves the state that its commands lead to.
-/
theorem replay_idempotent
    (reserve : Reserve)
    (clock laterClock : Nat → TimePoint)
    (backend fresh : Backend)
    (aof : AofPersistence) :
    let first := aof.replay reserve clock backend
    let second := first.aof.replay reserve laterClock fresh
    (∃ frames values rest,
      Recovered reserve aof.file frames values rest ∧
        first.aof.file = frames.flatten ∧
        first.dispatched = values.filterMap parseCommand) ∧
      first.backend = dispatchAll clock 0 backend first.dispatched ∧
      second.dispatched = first.dispatched ∧
      second.backend = dispatchAll laterClock 0 fresh first.dispatched ∧
      second.count = first.count ∧
      second.aof = first.aof ∧
      second.truncatedTo = none := by
  intro first second
  obtain ⟨frames, values, rest, recovered, kept, dispatched, count⟩ :=
    exists_replayed_frames clock backend aof
  have drained :
      drain (decode reserve) (frames.flatten ++ []) =
        ⟨values, none, []⟩ := by
    rw [List.append_nil]
    exact drain_flatten (framed_decode reserve) recovered.framed
  have again := replay_of_drain laterClock fresh drained
  rw [List.append_nil, ← kept] at again
  have same : second.dispatched = first.dispatched :=
    (congrArg Replayed.dispatched again).trans dispatched.symm
  refine ⟨⟨frames, values, rest, recovered,
    congrArg AofPersistence.file kept, dispatched⟩,
    backend_replay aof backend, same, ?_, ?_, ?_, ?_⟩
  · rw [← same]
    exact backend_replay first.aof fresh
  · exact (congrArg Replayed.count again).trans count.symm
  · have unchanged := congrArg Replayed.aof again
    exact unchanged
  · exact congrArg Replayed.truncatedTo again

end Vortek.AofPersistence

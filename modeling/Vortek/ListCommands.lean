import Vortek.Command

namespace Vortek

open CallScript DecimalText

/-!
# List commands

The handlers of `list_cmds.cpp`.  LPUSH and RPUSH, and LPOP and RPOP, differ
only in the end of the list that they use.
-/

/-- LPUSH and RPUSH: push the elements one after the other. -/
def pushCommand (push : List Bytes → Bytes → List Bytes) : Handler :=
  fun cmd =>
    match cmd.args with
    | key :: first :: more =>
        getOrCreate listType key [] fun list => do
          let pushed := (first :: more).foldl push list
          Program.set key (.list pushed) 0
          return .integer (toInt64 pushed.length)
    | _ => return wrongArgs cmd.name

/-- LPUSH. -/
def cmdLpush : Handler :=
  pushCommand fun list element => element :: list

/-- RPUSH. -/
def cmdRpush : Handler :=
  pushCommand fun list element => list ++ [element]

/-- The first element and the rest. -/
def popFront : List Bytes → Option (Bytes × List Bytes)
  | [] => none
  | element :: rest => some (element, rest)

/-- The last element and the rest. -/
def popBack (list : List Bytes) : Option (Bytes × List Bytes) :=
  match list.getLast? with
  | none => none
  | some element => some (element, list.dropLast)

/-- LPOP and RPOP: remove one element, and the key with the last one. -/
def popCommand (pop : List Bytes → Option (Bytes × List Bytes)) :
    Handler := fun cmd =>
  match cmd.args with
  | [key] =>
      readTyped listType key .null fun list =>
        match pop list with
        | none => return .null
        | some (element, rest) => do
            storeOrDelete key rest.isEmpty (.list rest)
            return .bulkString element
  | _ => return wrongArgs cmd.name

/-- LPOP. -/
def cmdLpop : Handler :=
  popCommand popFront

/-- RPOP. -/
def cmdRpop : Handler :=
  popCommand popBack

/-- LLEN key. -/
def cmdLlen : Handler := fun cmd =>
  match cmd.args with
  | [key] =>
      readTyped listType key (.integer 0) fun list =>
        return .integer (toInt64 list.length)
  | _ => return wrongArgs cmd.name

/-- Negative indices count from the end. -/
def fromEnd (n index : Int64) : Int64 :=
  if index < 0 then index + n else index

/-- The four index corrections of LRANGE, in the order of the source. -/
def normaliseRange (n start stop : Int64) : Int64 × Int64 :=
  let start := fromEnd n start
  let stop := fromEnd n stop
  let start := if start < 0 then 0 else start
  let stop := if n ≤ stop then n - 1 else stop
  (start, stop)

/-- The positions `start, ..., stop` visited by the loop of LRANGE. -/
def rangePositions (start stop : Int64) : List Nat :=
  if start ≤ stop then
    (List.range (stop.toInt - start.toInt + 1).toNat).map
      (start.toInt.toNat + ·)
  else
    []

/-- `elems[position]`; the model reads nothing outside the list. -/
def elementAt (elements : List Bytes) (position : Nat) : RespValue :=
  .bulkString (elements.getD position [])

/-- LRANGE key start stop. -/
def cmdLrange : Handler := fun cmd =>
  match cmd.args with
  | [key, startText, stopText] =>
      readTyped listType key (.array []) fun elements =>
        match wholeInt64? startText, wholeInt64? stopText with
        | some start, some stop =>
            let range :=
              normaliseRange (toInt64 elements.length) start stop
            return .array ((rangePositions range.1 range.2).map
              (elementAt elements))
        | _, _ => return notAnInteger
  | _ => return wrongArgs cmd.name

/-- LINDEX key index. -/
def cmdLindex : Handler := fun cmd =>
  match cmd.args with
  | [key, indexText] =>
      readTyped listType key .null fun elements =>
        match wholeInt64? indexText with
        | none => return notAnInteger
        | some index =>
            let n := toInt64 elements.length
            let index := fromEnd n index
            if index < 0 || n ≤ index then
              return .null
            else
              return elementAt elements index.toInt.toNat
  | _ => return wrongArgs cmd.name

section Safety

variable {cmd : Command} (clear : CrlfFree cmd.name)

include clear

/-- LPUSH and RPUSH change their key only. -/
theorem always_pushCommand
    {push : List Bytes → Bytes → List Bytes} :
    (pushCommand push cmd).Always
      (Call.Modifies (cmd.args.take 1)) RespValue.LineSafe NoThrow := by
  unfold pushCommand
  split
  · rename_i key first more shape
    have stores
        (list : List Bytes) :
        Script.Always (Call.Modifies (cmd.args.take 1))
          RespValue.LineSafe NoThrow
          (do
            let pushed := (first :: more).foldl push list
            Program.set key (.list pushed) 0
            return .integer (toInt64 pushed.length) :
              Program RespValue) :=
      ⟨by simp [Call.Modifies, shape], fun _ => trivial⟩
    exact always_withTyped trivial lineSafe_kWrongType (stores []) stores
  · exact lineSafe_wrongArgs_iff.mpr clear

/-- LPOP and RPOP change their key only. -/
theorem always_popCommand
    {pop : List Bytes → Option (Bytes × List Bytes)} :
    (popCommand pop cmd).Always
      (Call.Modifies (cmd.args.take 1)) RespValue.LineSafe NoThrow := by
  unfold popCommand
  split
  · rename_i key shape
    refine always_withTyped trivial lineSafe_kWrongType trivial
      fun list => ?_
    split
    · trivial
    · exact always_storeOrDelete_bind
        (by simp [Call.Modifies, shape]) (by simp [Call.Modifies, shape])
        trivial
  · exact lineSafe_wrongArgs_iff.mpr clear

theorem always_cmdLlen :
    (cmdLlen cmd).Always
      Call.Observes RespValue.LineSafe NoThrow := by
  unfold cmdLlen
  split
  · exact always_withTyped trivial lineSafe_kWrongType trivial
      fun _ => trivial
  · exact lineSafe_wrongArgs_iff.mpr clear

/-- LRANGE observes, and its indexes are parsed without a throw. -/
theorem always_cmdLrange :
    (cmdLrange cmd).Always
      Call.Observes RespValue.LineSafe NoThrow := by
  unfold cmdLrange
  split
  · refine always_withTyped trivial lineSafe_kWrongType
      ⟨trivial, trivial⟩ fun elements => ?_
    split
    · refine ⟨trivial, RespValue.everywhereAll_iff.mpr ?_⟩
      intro element member
      obtain ⟨position, -, rfl⟩ := List.mem_map.mp member
      trivial
    · exact lineSafe_notAnInteger
  · exact lineSafe_wrongArgs_iff.mpr clear

theorem always_cmdLindex :
    (cmdLindex cmd).Always
      Call.Observes RespValue.LineSafe NoThrow := by
  unfold cmdLindex
  split
  · refine always_withTyped trivial lineSafe_kWrongType trivial
      fun elements => ?_
    split
    · exact lineSafe_notAnInteger
    · dsimp only
      split
      · trivial
      · trivial
  · exact lineSafe_wrongArgs_iff.mpr clear

end Safety

end Vortek

import Vortek.Command

namespace Vortek

open CallScript DecimalText

/-!
# String commands

The handlers of `string_cmds.cpp`.  Unlike the collection commands, GET and the
counter commands take the string alternative of the value without testing for
it, so that they throw on a value of another type.
-/

/-- What the options of SET say. -/
structure SetOptions where
  ttl : Int64
  nx : Bool
  xx : Bool

/-- The options before any flag has been read. -/
def SetOptions.initial : SetOptions :=
  ⟨0, false, false⟩

/-- The operand of EX or PX: a whole, positive `int64_t`. -/
def expireTime (text : Bytes) : Except RespValue Int64 :=
  match wholeInt64? text with
  | none => .error (err "ERR invalid expire time in 'set' command")
  | some amount =>
      if amount ≤ 0 then
        .error (err "ERR invalid expire time in 'set' command")
      else
        .ok amount

/-- The loop over the flags of SET. -/
def parseSetFlags :
    List Bytes → SetOptions → Except RespValue SetOptions
  | [], options => .ok options
  | flag :: rest, options =>
      if upper flag = ascii "NX" then
        parseSetFlags rest { options with nx := true }
      else if upper flag = ascii "XX" then
        parseSetFlags rest { options with xx := true }
      else if upper flag = ascii "EX" then
        match rest with
        | [] => .error (err "ERR syntax error")
        | operand :: later =>
            match expireTime operand with
            | .error reply => .error reply
            | .ok secs =>
                parseSetFlags later { options with ttl := secs * 1000 }
      else if upper flag = ascii "PX" then
        match rest with
        | [] => .error (err "ERR syntax error")
        | operand :: later =>
            match expireTime operand with
            | .error reply => .error reply
            | .ok ms => parseSetFlags later { options with ttl := ms }
      else
        .error (err "ERR syntax error")

/-- SET key value [EX seconds] [PX milliseconds] [NX] [XX]. -/
def cmdSet : Handler := fun cmd =>
  match cmd.args with
  | key :: value :: flags =>
      match parseSetFlags flags .initial with
      | .error reply => return reply
      | .ok options =>
          if options.nx && options.xx then
            return err
              "ERR XX and NX options at the same time are not compatible"
          else do
            let present ← Program.exists? key
            if options.nx && present then
              return .null
            else if options.xx && !present then
              return .null
            else
              Program.set key (.string value) options.ttl
              return .simpleString (ascii "OK")
  | _ => return wrongArgs cmd.name

/-- GET key. -/
def cmdGet : Handler := fun cmd =>
  match cmd.args with
  | [key] => do
      match ← Program.get key with
      | none => return .null
      | some value =>
          let data ← Script.ofExcept value.asString
          return .bulkString data
  | _ => return wrongArgs cmd.name

/-- The guard of `apply_delta` in front of the addition. -/
def wouldOverflow (num delta : Int64) : Bool :=
  (decide (0 < delta) && decide (Int64.maxValue - delta < num)) ||
    (decide (delta < 0) && decide (num < Int64.minValue - delta))

/-- The second half of `apply_delta`: check, add and store. -/
def storeSum (key : Bytes) (num delta : Int64) : Program RespValue :=
  if wouldOverflow num delta then
    return err "ERR increment or decrement would overflow"
  else do
    Program.set key (.string (stdToString (num + delta))) 0
    return .integer (num + delta)

/-- Add to a counter that is there, whose text must be a whole number. -/
def addToText (key : Bytes) (delta : Int64) (text : Bytes) :
    Program RespValue :=
  match wholeInt64? text with
  | none => return notAnInteger
  | some num => storeSum key num delta

/-- Shared logic of the counter commands. -/
def applyDelta (key : Bytes) (delta : Int64) : Program RespValue := do
  match ← Program.get key with
  | none => storeSum key 0 delta
  | some current =>
      let text ← Script.ofExcept current.asString
      addToText key delta text

/-- INCR and DECR: a fixed step. -/
def countOnce (delta : Int64) : Handler := fun cmd =>
  match cmd.args with
  | [key] => applyDelta key delta
  | _ => return wrongArgs cmd.name

/-- INCR. -/
def cmdIncr : Handler :=
  countOnce 1

/-- DECR. -/
def cmdDecr : Handler :=
  countOnce (-1)

/-- INCRBY key amount. -/
def cmdIncrby : Handler := fun cmd =>
  match cmd.args with
  | [key, amount] =>
      match wholeInt64? amount with
      | none => return notAnInteger
      | some delta => applyDelta key delta
  | _ => return wrongArgs cmd.name

/-- DECRBY key amount; the smallest amount has no negation. -/
def cmdDecrby : Handler := fun cmd =>
  match cmd.args with
  | [key, amount] =>
      match wholeInt64? amount with
      | none => return notAnInteger
      | some delta =>
          if delta = Int64.minValue then
            return err "ERR increment or decrement would overflow"
          else
            applyDelta key (-delta)
  | _ => return wrongArgs cmd.name

section Safety

/-- Every bad expire time gets the same reply. -/
theorem reply_of_expireTime_error
    {text : Bytes}
    {reply : RespValue}
    (failed : expireTime text = .error reply) :
    reply = err "ERR invalid expire time in 'set' command" := by
  unfold expireTime at failed
  split at failed
  · cases failed
    rfl
  · split at failed
    · cases failed
      rfl
    · cases failed

/-- The flag loop refuses with one of two texts. -/
theorem reply_of_parseSetFlags_error
    {flags : List Bytes}
    {options : SetOptions}
    {reply : RespValue}
    (failed : parseSetFlags flags options = .error reply) :
    reply = err "ERR syntax error" ∨
      reply = err "ERR invalid expire time in 'set' command" := by
  fun_induction parseSetFlags flags options with
  | case1 =>
      cases failed
  | case2 | case3 | case6 | case9 =>
      rename_i inductionHypothesis
      exact inductionHypothesis failed
  | case4 | case7 | case10 =>
      cases failed
      exact Or.inl rfl
  | case5 | case8 =>
      rename_i refused
      cases failed
      exact Or.inr (reply_of_expireTime_error refused)

theorem lineSafe_of_parseSetFlags_error
    {flags : List Bytes}
    {options : SetOptions}
    {reply : RespValue}
    (failed : parseSetFlags flags options = .error reply) :
    reply.LineSafe := by
  rcases reply_of_parseSetFlags_error failed with rfl | rfl
  · exact lineSafe_err (by decide)
  · exact lineSafe_err (by decide)

variable {cmd : Command} (clear : CrlfFree cmd.name)

include clear

/-- SET changes its key only, answers one line and never throws. -/
theorem always_cmdSet :
    (cmdSet cmd).Always
      (Call.Within (cmd.args.take 1)) RespValue.LineSafe NoThrow := by
  unfold cmdSet
  split
  · rename_i key value flags shape
    split
    · rename_i reply refused
      exact lineSafe_of_parseSetFlags_error refused
    · split
      · exact lineSafe_err (by decide)
      · refine Script.always_invoke_bind.mpr ⟨trivial, fun present => ?_⟩
        split
        · exact trivial
        · split
          · exact trivial
          · refine ⟨?_, fun _ => (by decide : CrlfFree _)⟩
            simp [Call.Within, shape]
  · exact lineSafe_wrongArgs_iff.mpr clear

/-- GET changes nothing and may throw. -/
theorem always_cmdGet :
    (cmdGet cmd).Always
      Call.Observes RespValue.LineSafe BadAccess := by
  unfold cmdGet
  split
  · refine ⟨trivial, fun answer => ?_⟩
    cases answer with
    | none =>
        exact trivial
    | some value =>
        cases value with
        | string data =>
            exact trivial
        | list | set | hash =>
            exact rfl
  · exact lineSafe_wrongArgs_iff.mpr clear

omit clear in
/-- A sum is stored under the key of the counter. -/
theorem always_storeSum
    {keys : List Bytes}
    {key : Bytes}
    {num delta : Int64}
    (member : key ∈ keys) :
    (storeSum key num delta).Always
      (Call.Modifies keys) RespValue.LineSafe BadAccess := by
  unfold storeSum
  split
  · exact lineSafe_err (by decide)
  · exact ⟨⟨member, rfl⟩, fun _ => trivial⟩

omit clear in
/-- The counters change their key only; `std::get` may throw. -/
theorem always_applyDelta
    {keys : List Bytes}
    {key : Bytes}
    {delta : Int64}
    (member : key ∈ keys) :
    (applyDelta key delta).Always
      (Call.Modifies keys) RespValue.LineSafe BadAccess := by
  refine ⟨trivial, fun answer => ?_⟩
  cases answer with
  | none =>
      exact always_storeSum member
  | some value =>
      cases value with
      | string text =>
          change Script.Always _ _ _ (addToText key delta text)
          unfold addToText
          split
          · exact lineSafe_notAnInteger
          · exact always_storeSum member
      | list | set | hash =>
          exact rfl

/-- The counter commands change their key only and may throw. -/
theorem always_countOnce
    {delta : Int64} :
    (countOnce delta cmd).Always
      (Call.Modifies (cmd.args.take 1)) RespValue.LineSafe BadAccess := by
  unfold countOnce
  split
  · rename_i key shape
    exact always_applyDelta (by simp [shape])
  · exact lineSafe_wrongArgs_iff.mpr clear

theorem always_cmdIncrby :
    (cmdIncrby cmd).Always
      (Call.Modifies (cmd.args.take 1)) RespValue.LineSafe BadAccess := by
  unfold cmdIncrby
  split
  · rename_i key amount shape
    split
    · exact lineSafe_notAnInteger
    · exact always_applyDelta (by simp [shape])
  · exact lineSafe_wrongArgs_iff.mpr clear

theorem always_cmdDecrby :
    (cmdDecrby cmd).Always
      (Call.Modifies (cmd.args.take 1)) RespValue.LineSafe BadAccess := by
  unfold cmdDecrby
  split
  · rename_i key amount shape
    split
    · exact lineSafe_notAnInteger
    · split
      · exact lineSafe_err (by decide)
      · exact always_applyDelta (by simp [shape])
  · exact lineSafe_wrongArgs_iff.mpr clear

end Safety

end Vortek

import Vortek.DispatchSafety

namespace Vortek

open CallScript DecimalText

/-!
# Which commands set a deadline

`expirySet` says which duration a command attaches to a key in a given store:
that of an accepted SET with EX or PX, and that of a successful EXPIRE.  It is
connected to the handlers by `along_attaches`: the calls of a dispatched command
attach nothing else.
-/

/-- The duration that a call attaches to an entry. -/
def Call.attaches
    (now : TimePoint)
    (store : KvStore) :
    Call → Option Int64
  | .set _ _ duration => if 0 < duration then some duration else none
  | .expire key duration =>
      if store.exists? now key then some duration else none
  | _ => none

/-- The duration that SET attaches if it is accepted. -/
def setExpiry
    (now : TimePoint)
    (store : KvStore) :
    List Bytes → Option Int64
  | key :: _ :: flags =>
      match parseSetFlags flags .initial with
      | .error _ => none
      | .ok options =>
          if options.nx && options.xx then
            none
          else if options.nx && store.exists? now key then
            none
          else if options.xx && !store.exists? now key then
            none
          else if 0 < options.ttl then
            some options.ttl
          else
            none
  | _ => none

/-- The duration that EXPIRE attaches if it succeeds. -/
def expireExpiry
    (now : TimePoint)
    (store : KvStore) :
    List Bytes → Option Int64
  | [key, amount] =>
      match wholeInt64? amount with
      | none => none
      | some secs =>
          if secs < 0 then
            none
          else if store.exists? now key then
            some (secs * 1000)
          else
            none
  | _ => none

/-- The duration in milliseconds that a command attaches to its key. -/
def expirySet
    (now : TimePoint)
    (store : KvStore)
    (cmd : Command) :
    Option Int64 :=
  if cmd.name = ascii "SET" then
    setExpiry now store cmd.args
  else if cmd.name = ascii "EXPIRE" then
    expireExpiry now store cmd.args
  else
    none

section Attaching

variable {now : TimePoint} {backend : Backend}

/-- Calls that set no deadline attach no duration. -/
theorem Call.attaches_of_modifies
    {keys : List Bytes}
    {call : Call}
    (modifies : call.Modifies keys)
    (store : KvStore) :
    call.attaches now store = none := by
  cases call with
  | set key value ttl =>
      rw [Call.attaches, modifies.2]
      rfl
  | expire =>
      exact modifies.elim
  | get | del | exists? | ttl | persist | size | approxMemoryBytes
  | stats | uptimeSeconds | publish =>
      rfl

theorem Call.attaches_of_keepsStore
    {call : Call}
    (keeps : call.KeepsStore)
    (store : KvStore) :
    call.attaches now store = none := by
  cases call with
  | set | expire =>
      exact keeps.elim
  | get | del | exists? | ttl | persist | size | approxMemoryBytes
  | stats | uptimeSeconds | publish =>
      rfl

/-- SET attaches what its options say, if it is accepted. -/
theorem along_cmdSet
    (cmd : Command) :
    (cmdSet cmd).Along (Backend.step now)
      (fun call later =>
        call.attaches now later.store = none ∨
          call.attaches now later.store =
            setExpiry now backend.store cmd.args)
      backend := by
  unfold cmdSet
  split
  · rename_i key value flags shape
    rw [shape]
    split
    · exact Script.along_pure
    · rename_i options parsed
      split
      · exact Script.along_pure
      · rename_i compatible
        refine Script.along_invoke_bind.mpr ⟨.inl rfl, ?_⟩
        split
        · exact Script.along_pure
        · rename_i refused
          split
          · exact Script.along_pure
          · rename_i missing
            simp only [Backend.step] at refused missing
            refine ⟨.inr ?_, trivial⟩
            simp only [setExpiry, parsed, compatible, refused, missing,
              Call.attaches, Bool.false_eq_true, if_false]
  · exact Script.along_pure

/-- EXPIRE attaches its amount to a live key. -/
theorem along_cmdExpire
    (cmd : Command) :
    (cmdExpire cmd).Along (Backend.step now)
      (fun call later =>
        call.attaches now later.store = none ∨
          call.attaches now later.store =
            expireExpiry now backend.store cmd.args)
      backend := by
  unfold cmdExpire
  split
  · rename_i key amount shape
    rw [shape]
    split
    · exact Script.along_pure
    · rename_i secs parsed
      split
      · exact Script.along_pure
      · rename_i notNegative
        refine ⟨.inr ?_, trivial⟩
        simp only [expireExpiry, parsed, notNegative, Call.attaches,
          if_false]
  · exact Script.along_pure

/-- The calls of a dispatched command attach its duration or nothing. -/
theorem Backend.along_attaches
    (withBroker : Bool)
    (cmd : Command) :
    ((Dispatcher.makeDefault withBroker).dispatch cmd).Along
      (Backend.step now)
      (fun call later =>
        call.attaches now later.store = none ∨
          call.attaches now later.store =
            expirySet now backend.store cmd)
      backend := by
  obtain ⟨name, args⟩ := cmd
  by_cases set : name = ascii "SET"
  · subst set
    exact along_cmdSet ⟨ascii "SET", args⟩
  by_cases expire : name = ascii "EXPIRE"
  · subst expire
    exact along_cmdExpire ⟨ascii "EXPIRE", args⟩
  refine (Dispatcher.dispatch_mayCall withBroker _).along
    (fun call later may => .inl ?_) backend
  have never : Dispatcher.setsDeadline name = false := by
    simp [Dispatcher.setsDeadline, set, expire]
  unfold Dispatcher.MayCall at may
  split at may
  · rw [never] at may
    exact Call.attaches_of_modifies may later.store
  · exact Call.attaches_of_keepsStore may later.store

end Attaching

end Vortek

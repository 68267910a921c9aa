import Vortek.WriteCommands

namespace Vortek

open CallScript DecimalText

/-!
# Commands that fail

A handler checks its arguments and the value it finds before it changes the
store.  Once it has made a changing call, all that is left to it is to return a
reply that is neither an error nor null.  A command that fails, whether by such
a reply or by an exception, has therefore left the store as it was.
-/

/-- An error or a null reply. -/
def RespValue.isFailure : RespValue → Bool
  | .error _ => true
  | .null => true
  | _ => false

/-- A reply that is neither an error nor null. -/
def RespValue.Succeeds (reply : RespValue) : Prop :=
  reply.isFailure = false

/-- An exception, an error or a null reply. -/
def Failed : Except CppException RespValue → Prop
  | .error _ => True
  | .ok reply => reply.isFailure = true

instance (outcome : Except CppException RespValue) :
    Decidable (Failed outcome) :=
  match outcome with
  | .error _ => inferInstanceAs (Decidable True)
  | .ok reply => inferInstanceAs (Decidable (reply.isFailure = true))

/-- The program changes the store only when it is sure to succeed. -/
def ChecksFirst (program : Program RespValue) : Prop :=
  program.CommitsLast Call.KeepsStore RespValue.Succeeds

section Handlers

variable {cmd : Command} {key : Bytes}

/-- Access to a typed value only reads; its endings decide. -/
theorem checksFirst_withTyped
    {Payload : Type}
    {type : ValueType Payload}
    {absent : Program RespValue}
    {present : Payload → Program RespValue}
    (absentChecks : ChecksFirst absent)
    (presentChecks : ∀ content, ChecksFirst (present content)) :
    ChecksFirst (withTyped type key absent present) := by
  refine Or.inl ⟨trivial, fun answer => ?_⟩
  cases answer with
  | none =>
      exact absentChecks
  | some value =>
      change Script.CommitsLast _ _ (if type.holds value then _ else _)
      split
      · rename_i test
        obtain ⟨content, -, read⟩ := type.payload_wrap value test
        rw [read]
        exact presentChecks content
      · trivial

/-- A stored or deleted collection is followed by the reply. -/
theorem checksFirst_storeOrDelete_bind
    {isEmpty : Bool}
    {value : Value}
    {reply : RespValue}
    (succeeds : reply.Succeeds) :
    ChecksFirst
      (storeOrDelete key isEmpty value >>= fun _ => pure reply) := by
  cases isEmpty
  · exact Or.inr fun _ => succeeds
  · exact Or.inr fun _ => succeeds

/-- SET has checked its options when it stores the value. -/
theorem checksFirst_cmdSet : ChecksFirst (cmdSet cmd) := by
  unfold cmdSet
  split
  · split
    · trivial
    · split
      · trivial
      · refine Or.inl ⟨trivial, fun present => ?_⟩
        change Script.CommitsLast _ _ (if _ then _ else _)
        split
        · trivial
        · split
          · trivial
          · exact Or.inr fun _ => rfl
  · trivial

/-- A sum that overflows is not stored. -/
theorem checksFirst_storeSum
    {num delta : Int64} :
    ChecksFirst (storeSum key num delta) := by
  unfold storeSum
  split
  · trivial
  · exact Or.inr fun _ => rfl

/-- A counter is checked before the sum is stored. -/
theorem checksFirst_applyDelta
    {delta : Int64} :
    ChecksFirst (applyDelta key delta) := by
  refine Or.inl ⟨trivial, fun answer => ?_⟩
  cases answer with
  | none =>
      exact checksFirst_storeSum
  | some value =>
      cases value with
      | string text =>
          change Script.CommitsLast _ _ (addToText key delta text)
          unfold addToText
          split
          · trivial
          · exact checksFirst_storeSum
      | list | set | hash =>
          trivial

theorem checksFirst_countOnce
    {delta : Int64} :
    ChecksFirst (countOnce delta cmd) := by
  unfold countOnce
  split
  · exact checksFirst_applyDelta
  · trivial

theorem checksFirst_cmdIncrby : ChecksFirst (cmdIncrby cmd) := by
  unfold cmdIncrby
  split
  · split
    · trivial
    · exact checksFirst_applyDelta
  · trivial

theorem checksFirst_cmdDecrby : ChecksFirst (cmdDecrby cmd) := by
  unfold cmdDecrby
  split
  · split
    · trivial
    · split
      · trivial
      · exact checksFirst_applyDelta
  · trivial

/-- DEL deletes from the first call on, and answers a number. -/
theorem checksFirst_cmdDel : ChecksFirst (cmdDel cmd) := by
  unfold cmdDel
  cases keys : cmd.args with
  | nil =>
      trivial
  | cons key later =>
      refine Or.inr fun count => ?_
      have deletes :
          (delKeys later).Always
            (fun _ => True) (fun _ => True) fun _ => False :=
        (always_delKeys fun _ member => member).mono
          (fun _ _ => trivial) (fun _ _ => trivial) fun _ none => none
      have counts :
          Script.Always
            (fun _ => True) (fun _ => True) (fun _ => False)
            (do
              let rest ← delKeys later
              return count + rest :
                Program Int64) :=
        Script.always_bind.mpr (deletes.imp fun _ _ => trivial)
      exact Script.always_bind.mpr (counts.imp fun _ _ => rfl)

/-- EXPIRE has parsed its argument when it sets the deadline. -/
theorem checksFirst_cmdExpire : ChecksFirst (cmdExpire cmd) := by
  unfold cmdExpire
  split
  · split
    · trivial
    · split
      · trivial
      · exact Or.inr fun _ => rfl
  · trivial

theorem checksFirst_cmdPersist : ChecksFirst (cmdPersist cmd) := by
  unfold cmdPersist
  split
  · exact Or.inr fun _ => rfl
  · trivial

/-- A push checks the type before it stores the list. -/
theorem checksFirst_pushCommand
    {push : List Bytes → Bytes → List Bytes} :
    ChecksFirst (pushCommand push cmd) := by
  unfold pushCommand
  split
  · exact checksFirst_withTyped (Or.inr fun _ => rfl)
      fun _ => Or.inr fun _ => rfl
  · trivial

/-- A pop that finds nothing leaves the store alone. -/
theorem checksFirst_popCommand
    {pop : List Bytes → Option (Bytes × List Bytes)} :
    ChecksFirst (popCommand pop cmd) := by
  unfold popCommand
  split
  · refine checksFirst_withTyped trivial fun list => ?_
    split
    · trivial
    · exact checksFirst_storeOrDelete_bind rfl
  · trivial

theorem checksFirst_cmdSadd : ChecksFirst (cmdSadd cmd) := by
  unfold cmdSadd
  split
  · exact checksFirst_withTyped (Or.inr fun _ => rfl)
      fun _ => Or.inr fun _ => rfl
  · trivial

/-- SREM on a missing key replies zero and changes nothing. -/
theorem checksFirst_cmdSrem : ChecksFirst (cmdSrem cmd) := by
  unfold cmdSrem
  split
  · exact checksFirst_withTyped trivial
      fun _ => checksFirst_storeOrDelete_bind rfl
  · trivial

/-- HSET counts its arguments before it reads the hash. -/
theorem checksFirst_cmdHset : ChecksFirst (cmdHset cmd) := by
  unfold cmdHset
  split
  · split
    · exact checksFirst_withTyped (Or.inr fun _ => rfl)
        fun _ => Or.inr fun _ => rfl
    · trivial
  · trivial

theorem checksFirst_cmdHdel : ChecksFirst (cmdHdel cmd) := by
  unfold cmdHdel
  split
  · exact checksFirst_withTyped trivial
      fun _ => checksFirst_storeOrDelete_bind rfl
  · trivial

end Handlers

namespace Dispatcher

/-- Every handler of a logged command checks first. -/
theorem writeHandlers_checksFirst
    {cmd : Command} :
    ∀ entry ∈ writeHandlers, ChecksFirst (entry.2 cmd) := by
  simp only [writeHandlers, wholeKeyHandlers, inPlaceHandlers,
    List.cons_append, List.nil_append, List.forall_mem_cons,
    List.not_mem_nil, false_implies, implies_true, and_true]
  exact ⟨checksFirst_cmdDel, checksFirst_cmdExpire,
    checksFirst_cmdPersist, checksFirst_cmdSet, checksFirst_countOnce,
    checksFirst_countOnce, checksFirst_cmdIncrby,
    checksFirst_cmdDecrby, checksFirst_pushCommand,
    checksFirst_pushCommand, checksFirst_popCommand,
    checksFirst_popCommand, checksFirst_cmdSadd, checksFirst_cmdSrem,
    checksFirst_cmdHset, checksFirst_cmdHdel⟩

/-- Whatever the name is, dispatch checks first. -/
theorem dispatch_checksFirst
    (withBroker : Bool)
    (cmd : Command) :
    ChecksFirst ((makeDefault withBroker).dispatch cmd) := by
  cases write : AofPersistence.isWriteCommand cmd.name with
  | true =>
      exact dispatch_of_writeHandlers withBroker
        (fun _ program => ChecksFirst program)
        (fun entry member _ => writeHandlers_checksFirst entry member)
        write
  | false =>
      have keeps := dispatch_mayCall withBroker cmd
      refine (keeps.mono ?_ (fun _ _ => trivial) fun _ _ => trivial
        : Script.Always Call.KeepsStore (fun _ => True)
          (fun _ => True) _).commitsLast
      intro call may
      rwa [MayCall, write] at may

end Dispatcher

/-- What has failed did not return a reply that succeeds. -/
theorem Failed.not_succeeds
    {outcome : Except CppException RespValue}
    {reply : RespValue}
    (failed : Failed outcome)
    (returned : outcome = .ok reply) :
    ¬reply.Succeeds := by
  subst returned
  intro succeeds
  rw [RespValue.Succeeds, failed] at succeeds
  cases succeeds

/-- Only a command that returns a reply that succeeds changes the store. -/
theorem Backend.store_unless_succeeds
    {backend : Backend}
    {now : TimePoint}
    {cmd : Command}
    (fails :
      ∀ reply,
        (backend.dispatch now cmd).1 = .ok reply → ¬reply.Succeeds) :
    (backend.dispatch now cmd).2.store = backend.store :=
  (Dispatcher.dispatch_checksFirst _ cmd).unchanged Backend.store
    (fun _ _ => step_store_of_keepsStore) backend fails

/--
A command that throws or is answered with an error or null leaves the store as
it was, expired entries included.
-/
theorem Backend.store_of_failed
    (backend : Backend)
    (now : TimePoint)
    (cmd : Command)
    (failed : Failed (backend.dispatch now cmd).1) :
    (backend.dispatch now cmd).2.store = backend.store :=
  store_unless_succeeds fun _ returned => failed.not_succeeds returned

/-- A counter that would overflow stays at its largest value. -/
theorem Backend.store_of_failed_overflow :
    let entry : Entry :=
      ⟨.string (ascii "9223372036854775807"), some 5⟩
    let full : Backend :=
      { initial with store := ⟨KvStore.empty.data.insert [107] entry⟩ }
    (full.dispatch 3 ⟨ascii "INCR", [[107]]⟩).2.store = full.store :=
  store_of_failed _ 3 ⟨ascii "INCR", [[107]]⟩ (by decide)

end Vortek

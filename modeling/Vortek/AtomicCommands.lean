import Vortek.InterleavedCalls

namespace Vortek

open CallScript

/-!
# Commands take effect at once

Nearly every command acts at once, whatever the expiry thread does between its
calls.  EXISTS and DEL of several keys, EXPIRE and SET with XX and a duration
use more than one reading of the clock, and act at once as long as no deadline
falls among these.  INFO and METRICS count what is not swept yet, and are left
out.

So a run of the commands, one after the other and with the expiry thread between
all their calls, looks like a run in which each command has one reading of the
clock, and which nobody sweeps.
-/

/-- SET does not store its value, depending on whether there is one. -/
def SetOptions.refuses (options : SetOptions) (present : Bool) : Bool :=
  options.nx && present || options.xx && !present

/-- The rest of SET, once its flags are read. -/
def setChecked
    (key value : Bytes)
    (options : SetOptions) :
    Program RespValue := do
  let present ← Program.exists? key
  if options.refuses present then
    return .null
  else
    Program.set key (.string value) options.ttl
    return .simpleString (ascii "OK")

namespace Backend

variable {opens closes : TimePoint} {schedule : Nat → Moment}
variable {backend other : Backend} {key value : Bytes} {options : SetOptions}

/-- A key that is set gets the deadline of the early reading. -/
theorem stepAt_set
    {moment : Moment}
    (between : moment.Between opens closes)
    (twins : backend.Twins closes other)
    (key : Bytes)
    (value : Value)
    (ttl : Int64) :
    (stepAt moment (.set key value ttl) backend).2.Twins closes
      (step moment.early (.set key value ttl) other).2 := by
  obtain ⟨store, rfl, alike⟩ := twins.sweepAll between.swept_le
  exact ⟨_, rfl,
    alike.insert rfl (fun differs => absurd rfl differs) key⟩

/-- SET without a duration looks once. -/
theorem looksOnce_setChecked
    (forever : ¬0 < options.ttl) :
    (setChecked key value options).LooksOnce
      Call.Looks Call.Clockless Call.Deletes := by
  refine ⟨.inl trivial, fun present => ?_⟩
  change Script.Settles _ _ (ite _ _ _)
  split
  · trivial
  · exact ⟨.inl forever, fun _ => trivial⟩

/-- A look at a later time that does not make SET refuse either. -/
theorem refuses_later
    {moment : Moment}
    {now : TimePoint}
    (between : moment.Between opens closes)
    (begun : moment.first ≤ now)
    (ended : now ≤ closes)
    (twins : backend.Twins opens other)
    (smooth :
      options.xx = false ∨ backend.store.Quiet opens closes)
    (goesOn :
      options.refuses (stepAt moment (.exists? key) backend).1 = false) :
    options.refuses (other.store.exists? now key) = false := by
  rcases smooth with plain | quiet
  · have finds
        (found : other.store.exists? now key = true) :
        (stepAt moment (.exists? key) backend).1 = true := by
      obtain ⟨store, rfl, alike⟩ :=
        (twins.pass between.first_ge).sweepAll between.swept
      obtain ⟨entry, alive⟩ := Option.isSome_iff_exists.mp found
      have before := KvStore.liveEntry_of_later begun alive
      exact Option.isSome_iff_exists.mpr
        ⟨entry, (alike.live key).symm.trans before⟩
    unfold SetOptions.refuses at goesOn ⊢
    rw [plain] at goesOn ⊢
    cases found : other.store.exists? now key with
    | false =>
        simp
    | true =>
        rw [finds found] at goesOn
        exact goesOn
  · have counts : (Call.exists? key).Counts := trivial
    have same :=
      (stepAt_of_still counts between (twins.still quiet)
        (Int64.le_trans between.first_ge begun) ended).1
    rw [same] at goesOn
    exact goesOn

/-- The two conditions of SET in one. -/
theorem setChecked_eq :
    setChecked key value options =
      (do
        let present ← Program.exists? key
        if options.nx && present then
          return .null
        else if options.xx && !present then
          return .null
        else
          Program.set key (.string value) options.ttl
          return .simpleString (ascii "OK")) := by
  refine congrArg (Script.call (Call.exists? key)) (funext fun present => ?_)
  obtain ⟨ttl, nx, xx⟩ := options
  cases nx <;> cases xx <;> cases present <;> rfl

/-- SET looks at the clock when it tests the key and when it stores. -/
theorem runAt_setChecked :
    (setChecked key value options).runAt stepAt schedule backend =
      let looked := stepAt (schedule 0) (.exists? key) backend
      if options.refuses looked.1 then
        (.ok .null, looked.2)
      else
        (.ok (.simpleString (ascii "OK")),
          (stepAt (schedule 1) (.set key (.string value) options.ttl)
            looked.2).2) := by
  change Script.runAt stepAt (ite _ _ _) _ _ = ite _ _ _
  split <;> rfl

/-- SET at one time. -/
theorem exec_setChecked
    (now : TimePoint) :
    backend.exec now (setChecked key value options) =
      if options.refuses (backend.store.exists? now key) then
        (.ok .null, backend)
      else
        (.ok (.simpleString (ascii "OK")),
          (step now (.set key (.string value) options.ttl) backend).2) := by
  change Script.run (step now)
    (if options.refuses (backend.store.exists? now key) then _ else _) _ = _
  split <;> rfl

/-- SET acts where it computes the deadline, or where it refuses. -/
theorem actsAtOnce_setChecked
    (smooth :
      (options.xx && decide (0 < options.ttl)) = false ∨
        backend.store.Quiet opens closes)
    (epoch : 0 ≤ opens)
    (ascends : Ascends opens closes schedule)
    (twins : backend.Twins opens other) :
    ActsAtOnce opens closes schedule backend other
      (setChecked key value options) := by
  by_cases timed : 0 < options.ttl
  · have looks : (Call.exists? key).Looks := trivial
    obtain ⟨now, begun, ended, answer, still⟩ :=
      stepAt_looks looks epoch ascends.head twins
    cases goesOn :
        options.refuses (stepAt (schedule 0) (.exists? key) backend).1 with
    | true =>
        refine ⟨now, begun, ended, ?_⟩
        rw [runAt_setChecked, exec_setChecked]
        dsimp only
        have refusesToo :
            options.refuses (other.store.exists? now key) = true :=
          (congrArg options.refuses answer).symm.trans goesOn
        rw [if_pos goesOn, if_pos refusesToo]
        exact ⟨rfl, still⟩
    | false =>
        have next := ascends.between 1
        have plain :
            options.xx = false ∨ backend.store.Quiet opens closes :=
          smooth.imp_left fun either => by simpa [timed] using either
        have goesOnToo :=
          refuses_later ascends.head
            (Int64.le_trans ascends.head.read (ascends.tail 0).early)
            next.early_le twins plain goesOn
        refine ⟨(schedule 1).early, next.early, next.early_le, ?_⟩
        rw [runAt_setChecked, exec_setChecked]
        dsimp only
        rw [if_neg (by simp [goesOn]), if_neg (by simp [goesOnToo])]
        exact ⟨rfl, stepAt_set next still key _ _⟩
  · exact actsAtOnce_of_looksOnce (looksOnce_setChecked timed) epoch ascends
      twins

end Backend

namespace Dispatcher

/-- The program makes one call that matters, and settles behind it. -/
def Quick (program : Program RespValue) : Prop :=
  program.LooksOnce Call.Looks Call.Clockless Call.Deletes

/-- The program does not depend on the clock any more. -/
def Settled (program : Program RespValue) : Prop :=
  program.Settles Call.Clockless Call.Deletes

section Table

variable {cmd : Command} {key : Bytes}

theorem settled_set
    {value : Value}
    {reply : RespValue} :
    Settled (do
      Program.set key value 0
      return reply) :=
  ⟨.inl (by decide : ¬(0 : Int64) < 0), fun _ => trivial⟩

/-- Storing or deleting what is left is a single call. -/
theorem settled_storeOrDelete
    {isEmpty : Bool}
    {value : Value}
    {reply : RespValue} :
    Settled (do
      storeOrDelete key isEmpty value
      return reply) := by
  cases isEmpty with
  | false =>
      exact settled_set
  | true =>
      exact ⟨.inr ⟨trivial, fun _ _ => rfl⟩, fun _ => trivial⟩

theorem settled_storeSum
    {num delta : Int64} :
    Settled (storeSum key num delta) := by
  unfold storeSum
  split
  · trivial
  · exact settled_set

/-- A read that is followed by at most one call. -/
theorem quick_withTyped
    {Payload : Type}
    {type : ValueType Payload}
    {absent : Program RespValue}
    {present : Payload → Program RespValue}
    (without : Settled absent)
    (each : ∀ content, Settled (present content)) :
    Quick (withTyped type key absent present) := by
  refine ⟨.inl trivial, fun answer => ?_⟩
  cases answer with
  | none =>
      exact without
  | some value =>
      change Settled (if type.holds value then _ else _)
      split
      · rename_i test
        obtain ⟨content, -, read⟩ := type.payload_wrap value test
        rw [read]
        exact each content
      · trivial

/-- A counter is read once and stored once. -/
theorem quick_applyDelta
    {delta : Int64} :
    Quick (applyDelta key delta) := by
  refine ⟨.inl trivial, fun answer => ?_⟩
  cases answer with
  | none =>
      exact settled_storeSum
  | some value =>
      cases value with
      | string text =>
          change Settled (addToText key delta text)
          unfold addToText
          split
          · trivial
          · exact settled_storeSum
      | list | set | hash =>
          trivial

theorem quick_countOnce
    {delta : Int64} :
    Quick (countOnce delta cmd) := by
  unfold countOnce
  split
  · exact quick_applyDelta
  · trivial

theorem quick_pushCommand
    {push : List Bytes → Bytes → List Bytes} :
    Quick (pushCommand push cmd) := by
  unfold pushCommand
  split
  · exact quick_withTyped settled_set fun _ => settled_set
  · trivial

theorem quick_popCommand
    {pop : List Bytes → Option (Bytes × List Bytes)} :
    Quick (popCommand pop cmd) := by
  unfold popCommand
  split
  · refine quick_withTyped trivial fun list => ?_
    split
    · trivial
    · exact settled_storeOrDelete
  · trivial

/-- The names of commands that may need more than one reading. -/
def isSlow (name : Bytes) : Bool :=
  [ascii "SET", ascii "EXISTS", ascii "DEL", ascii "EXPIRE", ascii "INFO",
    ascii "METRICS"].contains name

/-- What is left to show of a table: the handlers with other names. -/
def QuickHandlers
    (cmd : Command)
    (table : List (Bytes × Handler)) :
    Prop :=
  ∀ entry ∈ table, isSlow entry.1 = false → Quick (entry.2 cmd)

/-- A handler that the condition on its name excludes. -/
theorem quick_of_slow
    {name : Bytes}
    {program : Program RespValue}
    (slow : isSlow name = true) :
    isSlow name = false → Quick program := by
  intro quick
  rw [slow] at quick
  cases quick

/-- The generic commands, those that look more than once aside. -/
theorem quickHandlers_registerGeneric :
    QuickHandlers cmd registerGeneric := by
  simp only [QuickHandlers, registerGeneric, List.forall_mem_cons,
    List.not_mem_nil, false_implies, implies_true, and_true]
  refine ⟨fun _ => ?_, quick_of_slow (by decide), quick_of_slow (by decide),
    quick_of_slow (by decide), fun _ => ?_, fun _ => ?_, fun _ => ?_,
    quick_of_slow (by decide), fun _ => ?_, quick_of_slow (by decide)⟩
  · unfold cmdPing
    split <;> trivial
  · unfold cmdTtl
    split
    · refine ⟨.inl trivial, fun ms => ?_⟩
      change Settled (ite _ _ _)
      split <;> trivial
    · trivial
  · unfold cmdPersist
    split
    · exact ⟨.inl trivial, fun _ => trivial⟩
    · trivial
  · unfold cmdHealth
    split <;> trivial
  · unfold cmdReady
    split
    · refine ⟨.inr trivial, fun stats => ?_⟩
      change Settled (ite _ _ _)
      split <;> trivial
    · trivial

/-- The string commands, SET aside. -/
theorem quickHandlers_registerString :
    QuickHandlers cmd registerString := by
  simp only [QuickHandlers, registerString, List.forall_mem_cons,
    List.not_mem_nil, false_implies, implies_true, and_true]
  refine ⟨quick_of_slow (by decide), fun _ => ?_, fun _ => quick_countOnce,
    fun _ => quick_countOnce, fun _ => ?_, fun _ => ?_⟩
  · unfold cmdGet
    split
    · refine ⟨.inl trivial, fun answer => ?_⟩
      cases answer with
      | none =>
          trivial
      | some value =>
          cases value <;> trivial
    · trivial
  · unfold cmdIncrby
    split
    · split
      · trivial
      · exact quick_applyDelta
    · trivial
  · unfold cmdDecrby
    split
    · split
      · trivial
      · split
        · trivial
        · exact quick_applyDelta
    · trivial

theorem quickHandlers_registerList :
    QuickHandlers cmd registerList := by
  simp only [QuickHandlers, registerList, List.forall_mem_cons,
    List.not_mem_nil, false_implies, implies_true, and_true]
  refine ⟨fun _ => quick_pushCommand, fun _ => quick_pushCommand,
    fun _ => quick_popCommand, fun _ => quick_popCommand, fun _ => ?_,
    fun _ => ?_, fun _ => ?_⟩
  · unfold cmdLlen
    split
    · exact quick_withTyped trivial fun _ => trivial
    · trivial
  · unfold cmdLrange
    split
    · refine quick_withTyped trivial fun elements => ?_
      split <;> trivial
    · trivial
  · unfold cmdLindex
    split
    · refine quick_withTyped trivial fun elements => ?_
      split
      · trivial
      · dsimp only
        split <;> trivial
    · trivial

theorem quickHandlers_registerSet :
    QuickHandlers cmd registerSet := by
  simp only [QuickHandlers, registerSet, List.forall_mem_cons,
    List.not_mem_nil, false_implies, implies_true, and_true]
  refine ⟨fun _ => ?_, fun _ => ?_, fun _ => ?_, fun _ => ?_, fun _ => ?_⟩
  · unfold cmdSadd
    split
    · exact quick_withTyped settled_set fun _ => settled_set
    · trivial
  · unfold cmdSrem
    split
    · exact quick_withTyped trivial fun _ => settled_storeOrDelete
    · trivial
  · unfold cmdSmembers
    split
    · exact quick_withTyped trivial fun _ => trivial
    · trivial
  · unfold cmdSismember
    split
    · exact quick_withTyped trivial fun _ => trivial
    · trivial
  · unfold cmdScard
    split
    · exact quick_withTyped trivial fun _ => trivial
    · trivial

theorem quickHandlers_registerHash :
    QuickHandlers cmd registerHash := by
  simp only [QuickHandlers, registerHash, List.forall_mem_cons,
    List.not_mem_nil, false_implies, implies_true, and_true]
  refine ⟨fun _ => ?_, fun _ => ?_, fun _ => ?_, fun _ => ?_, fun _ => ?_,
    fun _ => ?_⟩
  · unfold cmdHset
    split
    · split
      · exact quick_withTyped settled_set fun _ => settled_set
      · trivial
    · trivial
  · unfold cmdHget
    split
    · refine quick_withTyped trivial fun hash => ?_
      split <;> trivial
    · trivial
  · unfold cmdHdel
    split
    · exact quick_withTyped trivial fun _ => settled_storeOrDelete
    · trivial
  · unfold cmdHgetall
    split
    · exact quick_withTyped trivial fun _ => trivial
    · trivial
  · unfold cmdHexists
    split
    · exact quick_withTyped trivial fun _ => trivial
    · trivial
  · unfold cmdHlen
    split
    · exact quick_withTyped trivial fun _ => trivial
    · trivial

theorem quickHandlers_registerPubsub :
    QuickHandlers cmd registerPubsub := by
  simp only [QuickHandlers, registerPubsub, List.forall_mem_cons,
    List.not_mem_nil, false_implies, implies_true, and_true]
  intro _
  unfold cmdPublish
  split
  · exact ⟨.inr trivial, fun _ => trivial⟩
  · trivial

/-- The whole table of handlers. -/
theorem quickHandlers_makeDefault
    (withBroker : Bool) :
    QuickHandlers cmd (makeDefault withBroker).handlers :=
  forall_makeDefault quickHandlers_registerGeneric
    quickHandlers_registerString quickHandlers_registerList
    quickHandlers_registerSet quickHandlers_registerHash
    quickHandlers_registerPubsub withBroker

/-- All but a few commands make one call that matters. -/
theorem quick_dispatch
    (fast : isSlow cmd.name = false)
    (withBroker : Bool) :
    Quick ((makeDefault withBroker).dispatch cmd) := by
  cases registered : (makeDefault withBroker).isRegistered cmd.name with
  | true =>
      exact dispatch_of_table
        (fun name program => isSlow name = false → Quick program)
        (fun entry member _ =>
          quickHandlers_makeDefault withBroker entry member)
        registered fast
  | false =>
      rw [dispatch_of_not_registered registered]
      trivial

end Table

end Dispatcher

/--
The command acts at once even if deadlines fall among its readings of the clock.
-/
def Command.isPrompt (cmd : Command) : Bool :=
  if cmd.name = ascii "SET" then
    match parseSetFlags (cmd.args.drop 2) .initial with
    | .error _ => true
    | .ok options => !(options.xx && decide (0 < options.ttl))
  else if [ascii "EXISTS", ascii "DEL"].contains cmd.name then
    decide (cmd.args.length ≤ 1)
  else
    decide (cmd.name ≠ ascii "EXPIRE")

namespace Command

/-- SET is prompt unless it has both XX and a time to live. -/
theorem isPrompt_set
    {key value : Bytes}
    {flags : List Bytes}
    {options : SetOptions}
    (parsed : parseSetFlags flags .initial = .ok options) :
    (Command.mk (ascii "SET") (key :: value :: flags)).isPrompt =
      !(options.xx && decide (0 < options.ttl)) := by
  unfold isPrompt
  rw [if_pos rfl]
  simp only [List.drop_succ_cons, List.drop_zero, parsed]

/-- EXISTS and DEL are prompt with at most one key. -/
theorem isPrompt_of_counting
    {cmd : Command}
    (counting : cmd.name = ascii "EXISTS" ∨ cmd.name = ascii "DEL") :
    cmd.isPrompt = decide (cmd.args.length ≤ 1) := by
  unfold isPrompt
  rcases counting with named | named <;> rw [named]
  · rw [if_neg (by decide), if_pos (by decide)]
  · rw [if_neg (by decide), if_pos (by decide)]

theorem isPrompt_expire
    (args : List Bytes) :
    (Command.mk (ascii "EXPIRE") args).isPrompt = false := by
  unfold isPrompt
  dsimp only
  rw [if_neg (by decide), if_neg (by decide)]
  exact decide_eq_false (not_not_intro rfl)

end Command

section Keys

/-- EXISTS makes one call for each key. -/
theorem counts_countExisting
    (keys : List Bytes) :
    (countExisting keys).Always
      Call.Counts (fun _ => True) (fun _ => True) := by
  induction keys with
  | nil =>
      trivial
  | cons key later inductionHypothesis =>
      exact Script.always_invoke_bind.mpr
        ⟨trivial, fun _ => inductionHypothesis.bind fun _ _ => trivial⟩

theorem counts_delKeys
    (keys : List Bytes) :
    (delKeys keys).Always
      Call.Counts (fun _ => True) (fun _ => True) := by
  induction keys with
  | nil =>
      trivial
  | cons key later inductionHypothesis =>
      exact Script.always_invoke_bind.mpr
        ⟨trivial, fun _ => inductionHypothesis.bind fun _ _ => trivial⟩

variable {cmd : Command}

theorem counts_cmdExists :
    (cmdExists cmd).Always
      Call.Counts (fun _ => True) (fun _ => True) := by
  unfold cmdExists
  split
  · trivial
  · exact (counts_countExisting cmd.args).bind fun _ _ => trivial

theorem counts_cmdDel :
    (cmdDel cmd).Always
      Call.Counts (fun _ => True) (fun _ => True) := by
  unfold cmdDel
  split
  · trivial
  · exact (counts_delKeys cmd.args).bind fun _ _ => trivial

/-- EXISTS with one key makes one call. -/
theorem quick_cmdExists
    (one : cmd.args.length ≤ 1) :
    Dispatcher.Quick (cmdExists cmd) := by
  obtain ⟨name, args⟩ := cmd
  match args, one with
  | [], _ =>
      trivial
  | [key], _ =>
      exact ⟨.inl trivial, fun _ => trivial⟩

theorem quick_cmdDel
    (one : cmd.args.length ≤ 1) :
    Dispatcher.Quick (cmdDel cmd) := by
  obtain ⟨name, args⟩ := cmd
  match args, one with
  | [], _ =>
      trivial
  | [key], _ =>
      exact ⟨.inl trivial, fun _ => trivial⟩

end Keys

namespace Backend

section SlowCommands

variable {opens closes : TimePoint} {schedule : Nat → Moment}
variable {backend other : Backend} {args : List Bytes}
variable (epoch : 0 ≤ opens) (ascends : Ascends opens closes schedule)
variable (twins : backend.Twins opens other)

include epoch ascends twins

/-- SET acts at one time if it is prompt or nothing expires meanwhile. -/
theorem actsAtOnce_cmdSet
    (smooth :
      (Command.mk (ascii "SET") args).isPrompt = true ∨
        backend.store.Quiet opens closes) :
    ActsAtOnce opens closes schedule backend other
      (cmdSet ⟨ascii "SET", args⟩) := by
  have returns
      (reply : RespValue) :
      ActsAtOnce opens closes schedule backend other
        (pure reply : Program RespValue) :=
    actsAtOnce_of_looksOnce trivial epoch ascends twins
  unfold cmdSet
  dsimp only
  split
  · rename_i key value flags
    split
    · exact returns _
    · rename_i options parsed
      split
      · exact returns _
      · have timed :
            (options.xx && decide (0 < options.ttl)) = false ∨
              backend.store.Quiet opens closes :=
          smooth.imp_left fun prompt => by
            rwa [Command.isPrompt_set parsed, Bool.not_eq_true'] at prompt
        rw [← setChecked_eq]
        exact actsAtOnce_setChecked timed epoch ascends twins
  · exact returns _

/-- Commands that check or delete a key for every argument. -/
theorem actsAtOnce_of_keys
    {cmd : Command}
    {program : Program RespValue}
    (smooth :
      cmd.isPrompt = true ∨ backend.store.Quiet opens closes)
    (counting : cmd.name = ascii "EXISTS" ∨ cmd.name = ascii "DEL")
    (one : cmd.args.length ≤ 1 → Dispatcher.Quick program)
    (each : program.Always Call.Counts (fun _ => True) (fun _ => True)) :
    ActsAtOnce opens closes schedule backend other program := by
  rcases smooth with prompt | quiet
  · rw [Command.isPrompt_of_counting counting] at prompt
    exact actsAtOnce_of_looksOnce (one (of_decide_eq_true prompt)) epoch
      ascends twins
  · exact actsAtOnce_of_counts each ascends (twins.still quiet)

/-- EXPIRE acts at one time if nothing expires meanwhile. -/
theorem actsAtOnce_cmdExpire
    (quiet : backend.store.Quiet opens closes)
    (args : List Bytes) :
    ActsAtOnce opens closes schedule backend other
      (cmdExpire ⟨ascii "EXPIRE", args⟩) := by
  have returns
      (reply : RespValue) :
      ActsAtOnce opens closes schedule backend other
        (pure reply : Program RespValue) :=
    actsAtOnce_of_looksOnce trivial epoch ascends twins
  unfold cmdExpire
  dsimp only
  split
  · rename_i key amount
    split
    · exact returns _
    · rename_i secs _
      split
      · exact returns _
      · obtain ⟨answer, still⟩ :=
          stepAt_expire_of_still ascends.head (twins.still quiet) key
            (secs * 1000)
        refine ⟨(schedule 0).second, ascends.head.second_ge,
          ascends.head.late, ?_, still⟩
        exact congrArg
          (fun changed : Bool =>
            Except.ok (RespValue.integer (if changed then 1 else 0)))
          answer
  · exact returns _

end SlowCommands

/--
Every command but INFO and METRICS acts at once, if it is prompt or no deadline
falls among its readings of the clock.
-/
theorem actsAtOnce_dispatch
    {opens closes : TimePoint}
    {schedule : Nat → Moment}
    {backend other : Backend}
    {cmd : Command}
    (plain : Dispatcher.countsEntries cmd.name = false)
    (smooth :
      cmd.isPrompt = true ∨ backend.store.Quiet opens closes)
    (epoch : 0 ≤ opens)
    (ascends : Ascends opens closes schedule)
    (twins : backend.Twins opens other)
    (withBroker : Bool) :
    ActsAtOnce opens closes schedule backend other
      ((Dispatcher.makeDefault withBroker).dispatch cmd) := by
  cases slow : Dispatcher.isSlow cmd.name with
  | false =>
      exact actsAtOnce_of_looksOnce (Dispatcher.quick_dispatch slow withBroker)
        epoch ascends twins
  | true =>
      obtain ⟨name, args⟩ := cmd
      have listed := List.contains_iff_mem.mp slow
      simp only [List.mem_cons, List.not_mem_nil, or_false] at listed
      dsimp only at plain
      rcases listed with rfl | rfl | rfl | rfl | rfl | rfl
      · have acts := actsAtOnce_cmdSet epoch ascends twins smooth
        cases withBroker <;> exact acts
      · have acts :=
          actsAtOnce_of_keys epoch ascends twins smooth (.inl rfl)
            quick_cmdExists counts_cmdExists
        cases withBroker <;> exact acts
      · have acts :=
          actsAtOnce_of_keys epoch ascends twins smooth (.inr rfl)
            quick_cmdDel counts_cmdDel
        cases withBroker <;> exact acts
      · rw [Command.isPrompt_expire] at smooth
        have acts :=
          actsAtOnce_cmdExpire epoch ascends twins
            (smooth.resolve_left Bool.false_ne_true) args
        cases withBroker <;> exact acts
      · exact absurd plain (by decide)
      · exact absurd plain (by decide)

/-- Two looks at one key, with its deadline between them, count it once. -/
example :
    let stored := (initial.dispatch 0
      ⟨ascii "SET", [ascii "k", ascii "5", ascii "PX", ascii "1"]⟩).2
    (stored.dispatchAt
        (fun position =>
          if position = 0 then ⟨0, [], 0, 0⟩
          else ⟨1000000, [], 1000000, 1000000⟩)
        ⟨ascii "EXISTS", [ascii "k", ascii "k"]⟩).1 =
      .ok (.integer 1) :=
  rfl

end Backend

/-- A command with the moments of its calls, between two clock readings. -/
structure Execution where
  cmd : Command
  opens : TimePoint
  closes : TimePoint
  schedule : Nat → Moment

/-- The execution begins after a reading, and acts at once in this state. -/
structure Execution.Smooth
    (clock : TimePoint)
    (backend : Backend)
    (execution : Execution) :
    Prop where
  begun : clock ≤ execution.opens
  ascends : Ascends execution.opens execution.closes execution.schedule
  plain : Dispatcher.countsEntries execution.cmd.name = false
  quiet :
    execution.cmd.isPrompt = true ∨
      backend.store.Quiet execution.opens execution.closes

/-- The last reading of the executions, or the one before them. -/
def Execution.finish : TimePoint → List Execution → TimePoint
  | clock, [] => clock
  | _, execution :: later => finish execution.closes later

namespace Backend

/-- Execute commands one after the other, with all their outcomes. -/
def executeEach :
    Backend → List Execution →
      List (Except CppException RespValue) × Backend
  | backend, [] => ([], backend)
  | backend, execution :: later =>
      let outcome := backend.dispatchAt execution.schedule execution.cmd
      let rest := executeEach outcome.2 later
      (outcome.1 :: rest.1, rest.2)

/-- The executions follow each other, each one smooth where it begins. -/
def RunsSmoothly : TimePoint → Backend → List Execution → Prop
  | _, _, [] => True
  | clock, backend, execution :: later =>
      execution.Smooth clock backend ∧
        RunsSmoothly execution.closes
          (backend.dispatchAt execution.schedule execution.cmd).2 later

/-- One execution is a dispatch at a reading between its ends. -/
theorem Twins.dispatchAt
    {clock : TimePoint}
    {backend other : Backend}
    {execution : Execution}
    (epoch : 0 ≤ clock)
    (twins : backend.Twins clock other)
    (smooth : execution.Smooth clock backend) :
    ∃ now,
      (execution.opens ≤ now ∧ now ≤ execution.closes) ∧
        (backend.dispatchAt execution.schedule execution.cmd).1 =
          (other.dispatch now execution.cmd).1 ∧
        (backend.dispatchAt execution.schedule execution.cmd).2.Twins
          execution.closes (other.dispatch now execution.cmd).2 := by
  have sameBroker : other.broker = backend.broker := by
    obtain ⟨store, rfl, -⟩ := twins
    rfl
  obtain ⟨now, begun, ended, answer, still⟩ :=
    actsAtOnce_dispatch smooth.plain smooth.quiet
      (Int64.le_trans epoch smooth.begun) smooth.ascends
      (twins.pass smooth.begun) backend.broker.isSome
  unfold dispatch
  rw [sameBroker]
  exact ⟨now, ⟨begun, ended⟩, answer, still⟩

/-- The same for executions that follow each other. -/
theorem Twins.executeEach
    {clock : TimePoint}
    {backend other : Backend}
    {executions : List Execution}
    (epoch : 0 ≤ clock)
    (twins : backend.Twins clock other)
    (smoothly : RunsSmoothly clock backend executions) :
    ∃ readings : List TimePoint,
      List.Forall₂
          (fun execution now =>
            execution.opens ≤ now ∧ now ≤ execution.closes)
          executions readings ∧
        (backend.executeEach executions).1 =
          (other.dispatchEach
            (readings.zip (executions.map Execution.cmd))).1 ∧
        (backend.executeEach executions).2.Twins
          (Execution.finish clock executions)
          (other.dispatchEach
            (readings.zip (executions.map Execution.cmd))).2 := by
  induction executions generalizing clock backend other with
  | nil =>
      exact ⟨[], .nil, rfl, twins⟩
  | cons execution later inductionHypothesis =>
      obtain ⟨smooth, more⟩ := smoothly
      obtain ⟨now, between, answer, still⟩ := twins.dispatchAt epoch smooth
      have nextEpoch :=
        Int64.le_trans (Int64.le_trans epoch smooth.begun)
          smooth.ascends.order
      obtain ⟨readings, inside, answers, left⟩ :=
        inductionHypothesis nextEpoch still more
      refine ⟨now :: readings, .cons between inside, ?_, left⟩
      exact congrArg₂ List.cons answer answers

/--
Commands that are executed one after the other, while time passes and the expiry
thread sweeps the store between any two of their calls, are answered as if each
of them were executed as a whole at one clock reading of its own time, and leave
a store that looks the same, although nobody has swept the other one.
-/
theorem commands_act_at_once
    {clock : TimePoint}
    (epoch : 0 ≤ clock)
    {backend : Backend}
    {executions : List Execution}
    (smoothly : RunsSmoothly clock backend executions) :
    ∃ readings : List TimePoint,
      List.Forall₂
          (fun execution now =>
            execution.opens ≤ now ∧ now ≤ execution.closes)
          executions readings ∧
        (backend.executeEach executions).1 =
          (backend.dispatchEach
            (readings.zip (executions.map Execution.cmd))).1 ∧
        (backend.executeEach executions).2.Twins
          (Execution.finish clock executions)
          (backend.dispatchEach
            (readings.zip (executions.map Execution.cmd))).2 :=
  Twins.executeEach epoch
    ⟨backend.store, rfl, fun _ => rfl, fun differs => absurd rfl differs⟩
    smoothly

/--
A counter that expires, and is swept, between the look of INCR and its storing:
INCR takes effect before the deadline.
-/
theorem commands_act_at_once_swept :
    let steady : TimePoint → Moment := fun now => ⟨now, [], now, now⟩
    let executions : List Execution :=
      [⟨⟨ascii "SET", [ascii "k", ascii "5", ascii "PX", ascii "1"]⟩, 0, 0,
          fun _ => steady 0⟩,
        ⟨⟨ascii "INCR", [ascii "k"]⟩, 1, 2000000,
          fun position =>
            [steady 1, ⟨1, [1500000], 2000000, 2000000⟩].getD position
              (steady 2000000)⟩]
    ∃ readings : List TimePoint,
      List.Forall₂
          (fun execution now =>
            execution.opens ≤ now ∧ now ≤ execution.closes)
          executions readings ∧
        (initial.executeEach executions).1 =
          (initial.dispatchEach
            (readings.zip (executions.map Execution.cmd))).1 ∧
        (initial.executeEach executions).2.Twins
          (Execution.finish 0 executions)
          (initial.dispatchEach
            (readings.zip (executions.map Execution.cmd))).2 := by
  intro steady executions
  have rests
      (now : TimePoint) :
      (steady now).Between now now :=
    ⟨Int64.le_refl now, Int64.le_refl now, List.forall_mem_nil _,
      Int64.le_refl now, Int64.le_refl now⟩
  have expires : (Moment.mk 1 [1500000] 2000000 2000000).Between 1 2000000 :=
    ⟨by decide, by decide, List.forall_mem_singleton.mpr (by decide),
      by decide, by decide⟩
  refine commands_act_at_once (Int64.le_refl 0)
    ⟨⟨Int64.le_refl 0, ⟨rests 0, fun _ => rests 0⟩, by decide,
        .inl (by decide)⟩,
      ⟨by decide, ⟨?_, fun position => ?_⟩, by decide, .inl (by decide)⟩,
      trivial⟩
  · exact { rests 1 with late := by decide }
  · match position with
    | 0 =>
        exact expires
    | 1 =>
        exact rests 2000000
    | _ + 2 =>
        exact rests 2000000

end Backend

end Vortek

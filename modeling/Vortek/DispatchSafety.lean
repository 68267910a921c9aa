import Vortek.AofPersistence

namespace Vortek

open CallScript

/-!
# What a dispatched command may do

One entry of the handler table after the other, this module says what a handler
may call, return and throw.  Logged commands use only entries of the store under
their own arguments; all other commands leave the store as it is.  Only PUBLISH
posts messages.  Replies are single lines or carry their length, except for the
two errors that quote what the client sent.  Only commands that take a string
without testing for it throw.
-/

namespace Dispatcher

/-- The names whose handlers can set a deadline. -/
def setsDeadline (name : Bytes) : Bool :=
  [ascii "SET", ascii "EXPIRE"].contains name

/-- The calls that a command of this name may make. -/
def MayCall (name : Bytes) (args : List Bytes) (call : Call) : Prop :=
  if AofPersistence.isWriteCommand name then
    if setsDeadline name then call.Within args else call.Modifies args
  else
    call.KeepsStore

/-- The names whose handlers take a string without testing for it. -/
def takesString (name : Bytes) : Bool :=
  [ascii "GET", ascii "INCR", ascii "DECR", ascii "INCRBY",
    ascii "DECRBY"].contains name

/-- The exceptions that a command of this name may throw. -/
def MayThrow (name : Bytes) (exception : CppException) : Prop :=
  takesString name = true ∧ exception = .badVariantAccess

/-- INFO quotes no line terminator. -/
def InfoQuotes (name : Bytes) (args : List Bytes) : Prop :=
  name = ascii "INFO" → QuotesSection args

/-- What holds of every registered handler. -/
def Safe
    (name : Bytes)
    (args : List Bytes)
    (program : Program RespValue) :
    Prop :=
  program.Always
    (MayCall name args)
    (fun reply => reply.LineSafe ↔ InfoQuotes name args)
    (MayThrow name)

/-- The program posts no message. -/
def Silent (program : Program RespValue) : Prop :=
  program.Always Call.Silent (fun _ => True) (fun _ => True)

section Entries

variable {name : Bytes} {args keys : List Bytes}
variable {program : Program RespValue}

theorem safe_of_observes
    {raised : CppException → Prop}
    (safe : program.Always Call.Observes RespValue.LineSafe raised)
    (throws : ∀ exception, raised exception → MayThrow name exception)
    (rule :
      AofPersistence.isWriteCommand name = false ∧
        name ≠ ascii "INFO") :
    Safe name args program ∧ Silent program := by
  refine ⟨safe.mono ?_ ?_ throws,
    safe.mono (fun _ observes => observes.silent) (fun _ _ => trivial)
      (fun _ _ => trivial)⟩
  · intro call observes
    simpa [MayCall, rule.1] using observes.keepsStore
  · intro reply lineSafe
    exact iff_of_true lineSafe fun info => (rule.2 info).elim

/-- Logged commands are not INFO. -/
theorem infoQuotes_of_write
    (write : AofPersistence.isWriteCommand name = true) :
    InfoQuotes name args := by
  rintro rfl
  exact absurd write (by decide)

theorem safe_of_modifies
    {raised : CppException → Prop}
    (safe :
      program.Always (Call.Modifies keys) RespValue.LineSafe raised)
    (throws : ∀ exception, raised exception → MayThrow name exception)
    (listed : ∀ key ∈ keys, key ∈ args)
    (rule :
      AofPersistence.isWriteCommand name = true ∧
        setsDeadline name = false) :
    Safe name args program ∧ Silent program := by
  refine ⟨safe.mono ?_ ?_ throws,
    safe.mono (fun _ modifies => modifies.within.silent)
      (fun _ _ => trivial) (fun _ _ => trivial)⟩
  · intro call modifies
    rw [MayCall, if_pos rule.1, rule.2]
    cases call with
    | set =>
        exact ⟨listed _ modifies.1, modifies.2⟩
    | del | persist =>
        exact listed _ modifies
    | get | exists? | ttl =>
        trivial
    | expire | size | approxMemoryBytes | stats | uptimeSeconds
    | publish =>
        exact modifies.elim
  · intro reply lineSafe
    exact iff_of_true lineSafe (infoQuotes_of_write rule.1)

theorem safe_of_within
    {raised : CppException → Prop}
    (safe :
      program.Always (Call.Within keys) RespValue.LineSafe raised)
    (throws : ∀ exception, raised exception → MayThrow name exception)
    (listed : ∀ key ∈ keys, key ∈ args)
    (rule :
      AofPersistence.isWriteCommand name = true ∧
        setsDeadline name = true) :
    Safe name args program ∧ Silent program := by
  refine ⟨safe.mono ?_ ?_ throws,
    safe.mono (fun _ within => within.silent) (fun _ _ => trivial)
      (fun _ _ => trivial)⟩
  · intro call within
    rw [MayCall, if_pos rule.1, if_pos rule.2]
    cases call with
    | set | del | expire | persist =>
        exact listed _ within
    | get | exists? | ttl =>
        trivial
    | size | approxMemoryBytes | stats | uptimeSeconds | publish =>
        exact within.elim
  · intro reply lineSafe
    exact iff_of_true lineSafe (infoQuotes_of_write rule.1)

theorem mayThrow_of_noThrow
    (exception : CppException)
    (none : NoThrow exception) :
    MayThrow name exception :=
  none.elim

theorem mayThrow_of_badAccess
    (takes : takesString name = true)
    (exception : CppException)
    (bad : BadAccess exception) :
    MayThrow name exception :=
  ⟨takes, bad⟩

end Entries

section Table

variable {cmd : Command} (clear : CrlfFree cmd.name)

/-- The first argument is an argument. -/
theorem mem_of_mem_take_one
    {args : List Bytes} :
    ∀ key ∈ args.take 1, key ∈ args :=
  fun _ => List.mem_of_mem_take

include clear

theorem registerGeneric_safe :
    ∀ entry ∈ registerGeneric,
      Safe entry.1 cmd.args (entry.2 cmd) ∧ Silent (entry.2 cmd) := by
  simp only [registerGeneric, List.forall_mem_cons, List.not_mem_nil,
    false_implies, implies_true, and_true]
  refine ⟨?_, ?_, ?_, ?_, ?_, ?_, ?_, ?_, ?_, ?_⟩
  · exact safe_of_observes (always_cmdPing clear) mayThrow_of_noThrow
      (by decide)
  · exact safe_of_modifies (always_cmdDel clear) mayThrow_of_noThrow
      (fun _ member => member) (by decide)
  · exact safe_of_observes (always_cmdExists clear) mayThrow_of_noThrow
      (by decide)
  · exact safe_of_within (always_cmdExpire clear) mayThrow_of_noThrow
      mem_of_mem_take_one (by decide)
  · exact safe_of_observes (always_cmdTtl clear) mayThrow_of_noThrow
      (by decide)
  · exact safe_of_modifies (always_cmdPersist clear) mayThrow_of_noThrow
      mem_of_mem_take_one (by decide)
  · exact safe_of_observes (always_cmdHealth clear) mayThrow_of_noThrow
      (by decide)
  · refine ⟨always_cmdInfo.mono ?_ ?_ mayThrow_of_noThrow,
      always_cmdInfo.mono (fun _ observes => observes.silent)
        (fun _ _ => trivial) (fun _ _ => trivial)⟩
    · intro call observes
      exact observes.keepsStore
    · intro reply quoted
      simpa [InfoQuotes] using quoted
  · exact safe_of_observes (always_cmdReady clear) mayThrow_of_noThrow
      (by decide)
  · exact safe_of_observes (always_cmdMetrics clear) mayThrow_of_noThrow
      (by decide)

theorem registerString_safe :
    ∀ entry ∈ registerString,
      Safe entry.1 cmd.args (entry.2 cmd) ∧ Silent (entry.2 cmd) := by
  simp only [registerString, List.forall_mem_cons, List.not_mem_nil,
    false_implies, implies_true, and_true]
  refine ⟨?_, ?_, ?_, ?_, ?_, ?_⟩
  · exact safe_of_within (always_cmdSet clear) mayThrow_of_noThrow
      mem_of_mem_take_one (by decide)
  · exact safe_of_observes (always_cmdGet clear)
      (mayThrow_of_badAccess (by decide)) (by decide)
  · exact safe_of_modifies (always_countOnce clear)
      (mayThrow_of_badAccess (by decide)) mem_of_mem_take_one
      (by decide)
  · exact safe_of_modifies (always_countOnce clear)
      (mayThrow_of_badAccess (by decide)) mem_of_mem_take_one
      (by decide)
  · exact safe_of_modifies (always_cmdIncrby clear)
      (mayThrow_of_badAccess (by decide)) mem_of_mem_take_one
      (by decide)
  · exact safe_of_modifies (always_cmdDecrby clear)
      (mayThrow_of_badAccess (by decide)) mem_of_mem_take_one
      (by decide)

theorem registerList_safe :
    ∀ entry ∈ registerList,
      Safe entry.1 cmd.args (entry.2 cmd) ∧ Silent (entry.2 cmd) := by
  simp only [registerList, List.forall_mem_cons, List.not_mem_nil,
    false_implies, implies_true, and_true]
  refine ⟨?_, ?_, ?_, ?_, ?_, ?_, ?_⟩
  · exact safe_of_modifies (always_pushCommand clear) mayThrow_of_noThrow
      mem_of_mem_take_one (by decide)
  · exact safe_of_modifies (always_pushCommand clear) mayThrow_of_noThrow
      mem_of_mem_take_one (by decide)
  · exact safe_of_modifies (always_popCommand clear) mayThrow_of_noThrow
      mem_of_mem_take_one (by decide)
  · exact safe_of_modifies (always_popCommand clear) mayThrow_of_noThrow
      mem_of_mem_take_one (by decide)
  · exact safe_of_observes (always_cmdLlen clear) mayThrow_of_noThrow
      (by decide)
  · exact safe_of_observes (always_cmdLrange clear) mayThrow_of_noThrow
      (by decide)
  · exact safe_of_observes (always_cmdLindex clear) mayThrow_of_noThrow
      (by decide)

theorem registerSet_safe :
    ∀ entry ∈ registerSet,
      Safe entry.1 cmd.args (entry.2 cmd) ∧ Silent (entry.2 cmd) := by
  simp only [registerSet, List.forall_mem_cons, List.not_mem_nil,
    false_implies, implies_true, and_true]
  refine ⟨?_, ?_, ?_, ?_, ?_⟩
  · exact safe_of_modifies (always_cmdSadd clear) mayThrow_of_noThrow
      mem_of_mem_take_one (by decide)
  · exact safe_of_modifies (always_cmdSrem clear) mayThrow_of_noThrow
      mem_of_mem_take_one (by decide)
  · exact safe_of_observes (always_cmdSmembers clear)
      mayThrow_of_noThrow (by decide)
  · exact safe_of_observes (always_cmdSismember clear)
      mayThrow_of_noThrow (by decide)
  · exact safe_of_observes (always_cmdScard clear) mayThrow_of_noThrow
      (by decide)

theorem registerHash_safe :
    ∀ entry ∈ registerHash,
      Safe entry.1 cmd.args (entry.2 cmd) ∧ Silent (entry.2 cmd) := by
  simp only [registerHash, List.forall_mem_cons, List.not_mem_nil,
    false_implies, implies_true, and_true]
  refine ⟨?_, ?_, ?_, ?_, ?_, ?_⟩
  · exact safe_of_modifies (always_cmdHset clear) mayThrow_of_noThrow
      mem_of_mem_take_one (by decide)
  · exact safe_of_observes (always_cmdHget clear) mayThrow_of_noThrow
      (by decide)
  · exact safe_of_modifies (always_cmdHdel clear) mayThrow_of_noThrow
      mem_of_mem_take_one (by decide)
  · exact safe_of_observes (always_cmdHgetall clear)
      mayThrow_of_noThrow (by decide)
  · exact safe_of_observes (always_cmdHexists clear)
      mayThrow_of_noThrow (by decide)
  · exact safe_of_observes (always_cmdHlen clear) mayThrow_of_noThrow
      (by decide)

omit clear in
theorem registerPubsub_safe :
    ∀ entry ∈ registerPubsub, Safe entry.1 cmd.args (entry.2 cmd) := by
  simp only [registerPubsub, List.forall_mem_cons, List.not_mem_nil,
    false_implies, implies_true, and_true]
  refine always_cmdPublish.mono ?_ ?_ mayThrow_of_noThrow
  · intro call keeps
    exact keeps
  · intro reply lineSafe
    exact iff_of_true lineSafe fun info => absurd info (by decide)

/-- Without PUBLISH, every handler of the default table is silent as well. -/
theorem makeDefault_silent :
    ∀ entry ∈ (makeDefault false).handlers,
      Safe entry.1 cmd.args (entry.2 cmd) ∧ Silent (entry.2 cmd) := by
  intro entry member
  simp only [makeDefault, List.mem_append] at member
  rcases member with ((((generic | string) | list) | set) | hash) | pubsub
  · exact registerGeneric_safe clear entry generic
  · exact registerString_safe clear entry string
  · exact registerList_safe clear entry list
  · exact registerSet_safe clear entry set
  · exact registerHash_safe clear entry hash
  · exact absurd pubsub List.not_mem_nil

/-- Every handler of the default table is safe. -/
theorem makeDefault_safe
    {withBroker : Bool} :
    ∀ entry ∈ (makeDefault withBroker).handlers,
      Safe entry.1 cmd.args (entry.2 cmd) := by
  intro entry member
  rcases List.mem_append.mp member with other | pubsub
  · exact (makeDefault_silent clear entry
      (List.mem_append_left _ other)).1
  · cases withBroker with
    | false =>
        exact absurd pubsub List.not_mem_nil
    | true =>
        exact registerPubsub_safe entry pubsub

end Table

/-- Registered names hold no line terminator. -/
theorem crlfFree_of_isRegistered
    {withBroker : Bool}
    {name : Bytes}
    (registered : (makeDefault withBroker).isRegistered name = true) :
    CrlfFree name := by
  obtain ⟨handler, found⟩ := Option.isSome_iff_exists.mp registered
  have listed :
      name ∈ (makeDefault withBroker).handlers.map Prod.fst :=
    List.mem_map_of_mem (mem_of_lookup found)
  have names :
      ∀ title ∈ (makeDefault withBroker).handlers.map Prod.fst,
        CrlfFree title := by
    cases withBroker <;> decide
  exact names name listed

/-- A registered command is safe to dispatch. -/
theorem dispatch_safe
    {withBroker : Bool}
    {cmd : Command}
    (registered :
      (makeDefault withBroker).isRegistered cmd.name = true) :
    Safe cmd.name cmd.args ((makeDefault withBroker).dispatch cmd) := by
  have clear := crlfFree_of_isRegistered registered
  exact dispatch_of_table
    (fun name program => Safe name cmd.args program)
    (fun entry member _ => makeDefault_safe clear entry member)
    registered

/-- Only PUBLISH posts messages. -/
theorem silent_dispatch
    {cmd : Command}
    (other : cmd.name ≠ ascii "PUBLISH")
    (withBroker : Bool) :
    Silent ((makeDefault withBroker).dispatch cmd) := by
  rw [dispatch_withBroker other]
  cases registered : (makeDefault false).isRegistered cmd.name with
  | true =>
      have clear := crlfFree_of_isRegistered registered
      exact dispatch_of_table (fun _ program => Silent program)
        (fun entry member _ => (makeDefault_silent clear entry member).2)
        registered
  | false =>
      rw [dispatch_of_not_registered registered]
      trivial

/-- Whatever the name is, dispatch makes only the calls of that name. -/
theorem dispatch_mayCall
    (withBroker : Bool)
    (cmd : Command) :
    ((makeDefault withBroker).dispatch cmd).Always
      (MayCall cmd.name cmd.args) (fun _ => True)
      (MayThrow cmd.name) := by
  cases registered : (makeDefault withBroker).isRegistered cmd.name with
  | true =>
      exact (dispatch_safe registered).imp fun _ _ => trivial
  | false =>
      rw [dispatch_of_not_registered registered]
      trivial

/--
What a reply quotes holds no line terminator: the name, when it is not
registered, and the section of INFO, when it is not known.
-/
def QuotesSafely (withBroker : Bool) (cmd : Command) : Prop :=
  ((makeDefault withBroker).isRegistered cmd.name = true ∨
      CrlfFree cmd.name) ∧
    InfoQuotes cmd.name cmd.args

/-- The reply of dispatch is line-safe exactly when what it quotes is. -/
theorem always_dispatch_lineSafe
    (withBroker : Bool)
    (cmd : Command) :
    ((makeDefault withBroker).dispatch cmd).Always
      (MayCall cmd.name cmd.args)
      (fun reply => reply.LineSafe ↔ QuotesSafely withBroker cmd)
      (MayThrow cmd.name) := by
  cases registered : (makeDefault withBroker).isRegistered cmd.name with
  | true =>
      refine (dispatch_safe registered).imp fun reply quoted => ?_
      simpa [QuotesSafely, registered] using quoted
  | false =>
      rw [dispatch_of_not_registered registered]
      have notInfo : cmd.name ≠ ascii "INFO" := by
        intro info
        rw [info] at registered
        cases withBroker <;> revert registered <;> decide
      change (unknownCommand cmd.name).LineSafe ↔ _
      rw [lineSafe_unknownCommand_iff]
      simp [QuotesSafely, registered, InfoQuotes, notInfo]

end Dispatcher

namespace Backend

variable {now : TimePoint} {backend after : Backend} {cmd : Command}

/-- Commands that are not logged leave the store as it is. -/
theorem dispatch_store_of_not_write
    (notWrite : AofPersistence.isWriteCommand cmd.name = false) :
    (backend.dispatch now cmd).2.store = backend.store := by
  refine (Dispatcher.dispatch_mayCall _ cmd).invariant
    (fun later : Backend => later.store = backend.store) ?_ rfl
  intro call later may same
  rw [Dispatcher.MayCall, notWrite] at may
  rw [step_store_of_keepsStore may, same]

/--
A returned reply is one RESP frame, read back as itself with nothing left over,
exactly when what it quotes holds no line terminator.
-/
theorem dispatch_reply_framed_iff
    (reserve : Reserve)
    (now : TimePoint)
    (backend after : Backend)
    (cmd : Command)
    (reply : RespValue)
    (returned : backend.dispatch now cmd = (.ok reply, after))
    (storable : reply.Storable reserve) :
    RespParser.empty.feed reserve reply.serialize =
        (.ok (some reply), RespParser.empty) ↔
      Dispatcher.QuotesSafely backend.broker.isSome cmd := by
  have lineSafe :
      reply.LineSafe ↔
        Dispatcher.QuotesSafely backend.broker.isSome cmd :=
    (Dispatcher.always_dispatch_lineSafe _ cmd).returned_of_run returned
  rw [← lineSafe]
  constructor
  · intro fed
    exact (RespParser.lineSafe_and_storable_of_feed fed).1
  · intro safe
    have fed := RespParser.feed_serialize_append safe storable []
    rwa [List.append_nil] at fed

/-- The reply of PING is one frame. -/
theorem dispatch_reply_framed_ping :
    RespParser.empty.feed (fun _ => none)
        (RespValue.simpleString (ascii "PONG")).serialize =
      (.ok (some (.simpleString (ascii "PONG"))), RespParser.empty) :=
  (dispatch_reply_framed_iff (fun _ => none) 0 initial initial
    ⟨ascii "PING", []⟩ (.simpleString (ascii "PONG")) rfl trivial).mpr
    ⟨Or.inl (by decide), fun info => absurd info (by decide)⟩

/--
The name `a CR LF +OK` comes back inside an error, upper-cased; a client reads
two frames, the second one forged.
-/
theorem dispatch_reply_splits :
    parseCommand (.array [.bulkString (ascii "a\r\n+OK")]) =
        some ⟨ascii "A\r\n+OK", []⟩ ∧
      (initial.dispatch 0 ⟨ascii "A\r\n+OK", []⟩).1 =
        .ok (Dispatcher.unknownCommand (ascii "A\r\n+OK")) ∧
      RespParser.empty.feed (fun _ => none)
          (Dispatcher.unknownCommand (ascii "A\r\n+OK")).serialize =
        (.ok (some (err "ERR unknown command 'A")),
          ⟨ascii "+OK'\r\n"⟩) ∧
      RespParser.empty.feed (fun _ => none)
          (Dispatcher.unknownCommand (ascii "A\r\n+OK")).serialize ≠
        (.ok (some (Dispatcher.unknownCommand (ascii "A\r\n+OK"))),
          RespParser.empty) := by
  refine ⟨rfl, rfl, rfl, fun same => ?_⟩
  have buffered := congrArg (fun answer => answer.2.buf.length) same
  exact absurd buffered (by decide)

end Backend

end Vortek

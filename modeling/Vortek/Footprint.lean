import Vortek.InPlaceUpdates
import Vortek.TypeErrors

namespace Vortek

open CallScript DecimalText

/-!
# The footprint of a command

A command names the keys it may change: DEL all its arguments, every other
command that writes its first one.  The entries of all other keys are the same
after the command as before.  Under a key it names, a command other than SET
leaves a value of the type that was live there, if it leaves one: what it writes
back it has read from the same key, and it ends at a value of another type.
-/

/-- The keys that a command may change. -/
def Command.namedKeys (cmd : Command) : List Bytes :=
  if cmd.name = ascii "DEL" then
    cmd.args
  else if AofPersistence.isWriteCommand cmd.name then
    cmd.args.take 1
  else
    []

/-- An entry under the key, if there is one, holds a value of this kind. -/
def KvStore.HoldsKind
    (store : KvStore)
    (key : Bytes)
    (kind : Kind) :
    Prop :=
  ∀ entry, store.data.lookup key = some entry → entry.value.kind = kind

/-- The call stores values of this kind only, and only under the target. -/
def Call.Puts (target : Bytes) (kind : Kind) : Call → Prop
  | .set key value _ => key = target ∧ value.kind = kind
  | _ => True

/-- The call stores no value. -/
def Call.PutsNothing : Call → Prop
  | .set _ _ _ => False
  | _ => True

/-- The program reads the target first and ends at a value of another kind. -/
def ReadsKind
    (kind : Kind)
    (target : Bytes)
    (program : Program RespValue) :
    Prop :=
  ∃ resume : Option Value → Program RespValue,
    program = .call (.get target) resume ∧
      ∀ value : Value,
        value.kind ≠ kind →
        (resume (some value)).Always
          (fun _ => False) (fun _ => True) (fun _ => True)

/-- Whatever kind of value is live under a key, no other is there after. -/
def KeepsKind (program : Program RespValue) : Prop :=
  ∀ (now : TimePoint) (backend : Backend) (key : Bytes) (value : Value),
    backend.store.get now key = some value →
    (backend.exec now program).2.store.HoldsKind key value.kind

/-- What one command may do to the store, seen from its keys. -/
structure Footprint
    (now : TimePoint)
    (cmd : Command)
    (before after : KvStore) :
    Prop where
  /-- Keys that the command does not name keep their entries. -/
  others :
    ∀ key,
      key ∉ cmd.namedKeys →
      after.data.lookup key = before.data.lookup key
  /-- A key that is live before and after keeps its type, except by SET. -/
  kinds :
    cmd.name ≠ ascii "SET" →
    ∀ key ∈ cmd.namedKeys,
      ∀ value later changed,
        before.get now key = some value →
        after.get later key = some changed →
        changed.kind = value.kind

section Kinds

variable {store : KvStore} {key target : Bytes} {kind : Kind}

/-- What is live under a key is its entry. -/
theorem KvStore.holdsKind_of_get
    {now : TimePoint}
    {value : Value}
    (live : store.get now key = some value) :
    store.HoldsKind key value.kind := by
  intro entry found
  rw [KvStore.get, Option.map_eq_some_iff] at live
  obtain ⟨current, live, rfl⟩ := live
  rw [(KvStore.liveEntry_eq_some_iff.mp live).1] at found
  cases found
  rfl

/-- A value that is found has the type that its key holds. -/
theorem KvStore.HoldsKind.get
    {now : TimePoint}
    {value : Value}
    (holds : store.HoldsKind key kind)
    (live : store.get now key = some value) :
    value.kind = kind := by
  rw [KvStore.get, Option.map_eq_some_iff] at live
  obtain ⟨current, live, rfl⟩ := live
  exact holds current (KvStore.liveEntry_eq_some_iff.mp live).1

/-- Writing a value of the kind, or any value elsewhere, keeps the kind. -/
theorem KvStore.HoldsKind.insert
    (holds : store.HoldsKind key kind)
    {written : Entry}
    (same : key = target → written.value.kind = kind) :
    (⟨store.data.insert target written⟩ : KvStore).HoldsKind key kind := by
  intro entry found
  by_cases here : key = target
  · rw [here, AList.lookup_insert] at found
    cases found
    exact same here
  · rw [AList.lookup_insert_ne here] at found
    exact holds entry found

/-- Replacing the deadline of a live entry keeps the kind. -/
theorem KvStore.HoldsKind.insert_live
    {now : TimePoint}
    {entry changed : Entry}
    (holds : store.HoldsKind key kind)
    (live : store.liveEntry now target = some entry)
    (value : changed.value = entry.value) :
    (⟨store.data.insert target changed⟩ : KvStore).HoldsKind key kind := by
  refine holds.insert fun here => ?_
  subst here
  rw [value]
  exact holds entry (KvStore.liveEntry_eq_some_iff.mp live).1

/-- One call keeps the kind, if what it stores under the key has that kind. -/
theorem KvStore.HoldsKind.step
    {now : TimePoint}
    {call : Call}
    {backend : Backend}
    (holds : backend.store.HoldsKind key kind)
    (puts :
      ∀ value ttl, call = .set key value ttl → value.kind = kind) :
    (Backend.step now call backend).2.store.HoldsKind key kind := by
  cases call with
  | set target value ttl =>
      refine holds.insert fun here => ?_
      subst here
      exact puts value ttl rfl
  | del target =>
      simp only [Backend.step, KvStore.del]
      split
      · exact holds
      · intro entry found
        by_cases here : key = target
        · rw [here, AList.lookup_erase] at found
          cases found
        · rw [AList.lookup_erase_ne here] at found
          exact holds entry found
  | expire target ttl =>
      simp only [Backend.step, KvStore.expire]
      split
      · exact holds
      · rename_i entry live
        exact holds.insert_live live rfl
  | persist target =>
      simp only [Backend.step, KvStore.persist]
      split
      · exact holds
      · rename_i entry live
        exact holds.insert_live live rfl
  | get | exists? | ttl | size | approxMemoryBytes | stats
  | uptimeSeconds =>
      exact holds
  | publish channel message =>
      have keeps : (Call.publish channel message).KeepsStore :=
        trivial
      rw [Backend.step_store_of_keepsStore keeps]
      exact holds

end Kinds

section Programs

variable {target : Bytes} {kind : Kind} {program : Program RespValue}

/-- A guarded program answers WRONGTYPE at once. -/
theorem Guarded.readsKind
    (guarded : Guarded kind target program) :
    ReadsKind kind target program := by
  obtain ⟨resume, shape, refuses⟩ := guarded
  refine ⟨resume, shape, fun value other => ?_⟩
  rw [refuses value other]
  trivial

/-- A program that takes a string throws at once. -/
theorem TakesString.readsKind
    (takes : TakesString target program) :
    ReadsKind .string target program := by
  obtain ⟨resume, shape, -, ends⟩ := takes
  refine ⟨resume, shape, fun value other => ?_⟩
  rw [(ends value).1 other]
  trivial

/-- A program that stores nothing keeps every kind. -/
theorem keepsKind_of_putsNothing
    (safe :
      program.Always Call.PutsNothing (fun _ => True) (fun _ => True)) :
    KeepsKind program := by
  intro now backend key value live
  refine safe.invariant
    (fun later : Backend => later.store.HoldsKind key value.kind)
    ?_ (KvStore.holdsKind_of_get live)
  intro call later may holds
  refine holds.step fun value ttl stores => ?_
  subst stores
  exact may.elim

/--
A program that reads its target first, and stores only what has the kind it
expects there, keeps every kind.
-/
theorem keepsKind_of_readsKind
    (reads : ReadsKind kind target program)
    (safe :
      program.Always (Call.Puts target kind)
        (fun _ => True) (fun _ => True)) :
    KeepsKind program := by
  intro now backend key value live
  by_cases expected : key = target → value.kind = kind
  · refine safe.invariant
      (fun later : Backend => later.store.HoldsKind key value.kind)
      ?_ (KvStore.holdsKind_of_get live)
    intro call later may holds
    refine holds.step fun stored ttl stores => ?_
    subst stores
    rw [may.2, expected may.1]
  · -- The target holds another kind: the program ends after its first call.
    obtain ⟨rfl, other⟩ := Classical.not_imp.mp expected
    obtain ⟨resume, rfl, ends⟩ := reads
    change (Script.run _ (resume (backend.store.get now key))
      backend).2.store.HoldsKind key value.kind
    rw [live]
    exact (ends value other).invariant
      (fun later : Backend => later.store.HoldsKind key value.kind)
      (fun _ _ may _ => may.elim) (KvStore.holdsKind_of_get live)

/-- A reply alone keeps every kind. -/
theorem keepsKind_pure
    {reply : RespValue} :
    KeepsKind (pure reply) :=
  fun _ _ _ _ live => KvStore.holdsKind_of_get live

/-- Typed access keeps every kind, if it stores values of its type only. -/
theorem keepsKind_withTyped
    {Payload : Type}
    {type : ValueType Payload}
    {absent : Program RespValue}
    {present : Payload → Program RespValue}
    (absentPuts :
      absent.Always (Call.Puts target type.kind)
        (fun _ => True) (fun _ => True))
    (presentPuts :
      ∀ content,
        (present content).Always (Call.Puts target type.kind)
          (fun _ => True) (fun _ => True)) :
    KeepsKind (withTyped type target absent present) :=
  keepsKind_of_readsKind guarded_withTyped.readsKind
    (always_withTyped trivial trivial absentPuts presentPuts)

/-- A counter was a string, or there was nothing. -/
theorem keepsKind_applyDelta
    {delta : Int64} :
    KeepsKind (applyDelta target delta) := by
  have stores (num : Int64) :
      (storeSum target num delta).Always (Call.Puts target .string)
        (fun _ => True) (fun _ => True) := by
    unfold storeSum
    split
    · trivial
    · exact ⟨⟨rfl, rfl⟩, fun _ => trivial⟩
  have safe :
      (applyDelta target delta).Always (Call.Puts target .string)
        (fun _ => True) (fun _ => True) := by
    refine ⟨trivial, fun answer => ?_⟩
    cases answer with
    | none =>
        exact stores 0
    | some value =>
        cases value with
        | string text =>
            change Script.Always _ _ _ (addToText target delta text)
            unfold addToText
            split
            · trivial
            · exact stores _
        | list | set | hash =>
            trivial
  exact keepsKind_of_readsKind takesString_applyDelta.readsKind safe

end Programs

section Handlers

variable {cmd : Command}

theorem keepsKind_countOnce
    {delta : Int64} :
    KeepsKind (countOnce delta cmd) := by
  unfold countOnce
  split
  · exact keepsKind_applyDelta
  · exact keepsKind_pure

theorem keepsKind_cmdIncrby :
    KeepsKind (cmdIncrby cmd) := by
  unfold cmdIncrby
  split
  · split
    · exact keepsKind_pure
    · exact keepsKind_applyDelta
  · exact keepsKind_pure

theorem keepsKind_cmdDecrby :
    KeepsKind (cmdDecrby cmd) := by
  unfold cmdDecrby
  split
  · split
    · exact keepsKind_pure
    · split
      · exact keepsKind_pure
      · exact keepsKind_applyDelta
  · exact keepsKind_pure

/-- A push stores a list where it found one. -/
theorem keepsKind_pushCommand
    {push : List Bytes → Bytes → List Bytes} :
    KeepsKind (pushCommand push cmd) := by
  unfold pushCommand
  split
  · exact keepsKind_withTyped ⟨⟨rfl, rfl⟩, fun _ => trivial⟩
      fun _ => ⟨⟨rfl, rfl⟩, fun _ => trivial⟩
  · exact keepsKind_pure

theorem keepsKind_popCommand
    {pop : List Bytes → Option (Bytes × List Bytes)} :
    KeepsKind (popCommand pop cmd) := by
  unfold popCommand
  split
  · refine keepsKind_withTyped trivial fun list => ?_
    split
    · trivial
    · exact always_storeOrDelete_bind ⟨rfl, rfl⟩ trivial trivial
  · exact keepsKind_pure

theorem keepsKind_cmdSadd :
    KeepsKind (cmdSadd cmd) := by
  unfold cmdSadd
  split
  · exact keepsKind_withTyped ⟨⟨rfl, rfl⟩, fun _ => trivial⟩
      fun _ => ⟨⟨rfl, rfl⟩, fun _ => trivial⟩
  · exact keepsKind_pure

theorem keepsKind_cmdSrem :
    KeepsKind (cmdSrem cmd) := by
  unfold cmdSrem
  split
  · exact keepsKind_withTyped trivial fun _ =>
      always_storeOrDelete_bind ⟨rfl, rfl⟩ trivial trivial
  · exact keepsKind_pure

theorem keepsKind_cmdHset :
    KeepsKind (cmdHset cmd) := by
  unfold cmdHset
  split
  · split
    · exact keepsKind_withTyped ⟨⟨rfl, rfl⟩, fun _ => trivial⟩
        fun _ => ⟨⟨rfl, rfl⟩, fun _ => trivial⟩
    · exact keepsKind_pure
  · exact keepsKind_pure

theorem keepsKind_cmdHdel :
    KeepsKind (cmdHdel cmd) := by
  unfold cmdHdel
  split
  · exact keepsKind_withTyped trivial fun _ =>
      always_storeOrDelete_bind ⟨rfl, rfl⟩ trivial trivial
  · exact keepsKind_pure

/-- DEL puts nothing. -/
theorem putsNothing_delKeys
    (keys : List Bytes) :
    (delKeys keys).Always Call.PutsNothing
      (fun _ => True) (fun _ => True) := by
  induction keys with
  | nil =>
      trivial
  | cons key later inductionHypothesis =>
      refine Script.always_invoke_bind.mpr ⟨trivial, fun count => ?_⟩
      exact inductionHypothesis.bind fun _ _ => trivial

theorem keepsKind_cmdDel :
    KeepsKind (cmdDel cmd) := by
  unfold cmdDel
  split
  · exact keepsKind_pure
  · exact keepsKind_of_putsNothing
      ((putsNothing_delKeys cmd.args).bind fun _ _ => trivial)

/-- EXPIRE changes the deadline and not the value. -/
theorem keepsKind_cmdExpire :
    KeepsKind (cmdExpire cmd) := by
  unfold cmdExpire
  split
  · split
    · exact keepsKind_pure
    · split
      · exact keepsKind_pure
      · exact keepsKind_of_putsNothing ⟨trivial, fun _ => trivial⟩
  · exact keepsKind_pure

theorem keepsKind_cmdPersist :
    KeepsKind (cmdPersist cmd) := by
  unfold cmdPersist
  split
  · exact keepsKind_of_putsNothing ⟨trivial, fun _ => trivial⟩
  · exact keepsKind_pure

end Handlers

namespace Dispatcher

variable {cmd : Command}

/-- Every command that writes, except SET, keeps the kinds of live keys. -/
theorem writeHandlers_keepKind
    (other : cmd.name ≠ ascii "SET") :
    ∀ entry ∈ writeHandlers,
      entry.1 = cmd.name → KeepsKind (entry.2 cmd) := by
  simp only [writeHandlers, wholeKeyHandlers, inPlaceHandlers,
    List.cons_append, List.nil_append, List.forall_mem_cons,
    List.not_mem_nil, false_implies, implies_true, and_true]
  exact ⟨fun _ => keepsKind_cmdDel, fun _ => keepsKind_cmdExpire,
    fun _ => keepsKind_cmdPersist, fun named => absurd named.symm other,
    fun _ => keepsKind_countOnce, fun _ => keepsKind_countOnce,
    fun _ => keepsKind_cmdIncrby, fun _ => keepsKind_cmdDecrby,
    fun _ => keepsKind_pushCommand, fun _ => keepsKind_pushCommand,
    fun _ => keepsKind_popCommand, fun _ => keepsKind_popCommand,
    fun _ => keepsKind_cmdSadd, fun _ => keepsKind_cmdSrem,
    fun _ => keepsKind_cmdHset, fun _ => keepsKind_cmdHdel⟩

/-- Every command that writes changes the keys it names only. -/
theorem writeHandlers_within
    (write : AofPersistence.isWriteCommand cmd.name = true)
    (clear : CrlfFree cmd.name) :
    ∀ entry ∈ writeHandlers,
      entry.1 = cmd.name →
      (entry.2 cmd).Always (Call.Within cmd.namedKeys)
        (fun _ => True) (fun _ => True) := by
  have first
      {program : Program RespValue}
      {allowed : Call → Prop}
      {returned : RespValue → Prop}
      {raised : CppException → Prop}
      (other : cmd.name ≠ ascii "DEL")
      (within :
        ∀ call, allowed call → call.Within (cmd.args.take 1))
      (safe : program.Always allowed returned raised) :
      program.Always (Call.Within cmd.namedKeys)
        (fun _ => True) (fun _ => True) := by
    rw [Command.namedKeys, if_neg other, if_pos write]
    exact safe.mono within (fun _ _ => trivial) fun _ _ => trivial
  intro entry member named
  rcases List.mem_append.mp member with wholeKey | inPlace
  · simp only [wholeKeyHandlers, List.mem_cons, List.not_mem_nil,
      or_false] at wholeKey
    rcases wholeKey with rfl | rfl | rfl | rfl
    · rw [Command.namedKeys, if_pos named.symm]
      exact (always_cmdDel clear).mono (fun _ may => may.within)
        (fun _ _ => trivial) fun _ _ => trivial
    · exact first (named ▸ by decide) (fun _ may => may)
        (always_cmdExpire clear)
    · exact first (named ▸ by decide) (fun _ may => may.within)
        (always_cmdPersist clear)
    · exact first (named ▸ by decide) (fun _ may => may)
        (always_cmdSet clear)
  · have names :
        ∀ name ∈ inPlaceHandlers.map Prod.fst, name ≠ ascii "DEL" := by
      decide
    exact first (named ▸ names _ (List.mem_map_of_mem inPlace))
      (fun _ may => may.within)
      (inPlaceHandlers_modifies clear entry inPlace)

end Dispatcher

namespace Backend

/--
A command changes no entry but those of the keys it names; and under these a
command other than SET leaves no value of another type than the one that was
live, at any time.
-/
theorem dispatch_footprint
    (backend : Backend)
    (now : TimePoint)
    (cmd : Command) :
    Footprint now cmd backend.store
      (backend.dispatch now cmd).2.store := by
  cases write : AofPersistence.isWriteCommand cmd.name with
  | false =>
      rw [dispatch_store_of_not_write write]
      refine ⟨fun key elsewhere => rfl, ?_⟩
      intro _ key _ value later changed live lives
      exact (KvStore.holdsKind_of_get live).get lives
  | true =>
      have clear : CrlfFree cmd.name :=
        Dispatcher.crlfFree_of_isRegistered
          (Dispatcher.isRegistered_of_write backend.broker.isSome write)
      constructor
      · intro key elsewhere
        have within :=
          Dispatcher.dispatch_of_writeHandlers backend.broker.isSome
            (fun _ program =>
              program.Always (Call.Within cmd.namedKeys)
                (fun _ => True) (fun _ => True))
            (Dispatcher.writeHandlers_within write clear) write
        refine within.invariant
          (fun later : Backend =>
            later.store.data.lookup key = backend.store.data.lookup key)
          ?_ rfl
        intro call later may same
        rw [step_lookup_of_within may elsewhere, same]
      · intro other key _ value later changed live lives
        have keeps :=
          Dispatcher.dispatch_of_writeHandlers backend.broker.isSome
            (fun _ program => KeepsKind program)
            (Dispatcher.writeHandlers_keepKind other) write
        exact (keeps now backend key value live).get lives

end Backend

end Vortek

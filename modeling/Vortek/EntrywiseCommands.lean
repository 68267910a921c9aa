import Vortek.ClockShift
import Vortek.LazyExpiry

namespace Vortek

open CallScript

/-!
# Commands that use single entries

INFO and METRICS count what is in the store, and an expired entry counts until
it is swept.  Every other command reaches the store through lookups of single
keys, for which an expired entry is absent.  So it answers alike on two stores
that differ in expired entries only, and leaves two such stores
(`Backend.dispatch_withStore`).
-/

namespace Call

/-- The call does not go through all of the store. -/
def Entrywise : Call → Prop
  | .size | .approxMemoryBytes => False
  | _ => True

/-- A call within some keys looks at single entries. -/
theorem Within.entrywise
    {keys : List Bytes}
    {call : Call}
    (within : call.Within keys) :
    call.Entrywise := by
  cases call <;> first | exact within.elim | trivial

end Call

namespace Dispatcher

/-- The names whose handlers go through all of the store. -/
def countsEntries (name : Bytes) : Bool :=
  [ascii "INFO", ascii "METRICS"].contains name

/-- The program makes no call that goes through all of the store. -/
def Entrywise (program : Program RespValue) : Prop :=
  program.Always Call.Entrywise (fun _ => True) (fun _ => True)

section Table

variable {cmd : Command}

/-- Access to a typed value looks at one entry. -/
theorem entrywise_readTyped
    {Payload : Type}
    {type : ValueType Payload}
    {key : Bytes}
    {missing : RespValue}
    {present : Payload → Program RespValue}
    (each : ∀ content, Entrywise (present content)) :
    Entrywise (readTyped type key missing present) :=
  always_withTyped trivial trivial trivial each

theorem entrywise_countExisting
    (keys : List Bytes) :
    (countExisting keys).Always
      Call.Entrywise (fun _ => True) (fun _ => True) := by
  induction keys with
  | nil =>
      trivial
  | cons key later inductionHypothesis =>
      exact Script.always_invoke_bind.mpr
        ⟨trivial, fun _ => inductionHypothesis.bind fun _ _ => trivial⟩

theorem entrywise_cmdGet :
    Entrywise (cmdGet cmd) := by
  unfold cmdGet
  split
  · refine ⟨trivial, fun answer => ?_⟩
    cases answer with
    | none =>
        trivial
    | some value =>
        cases value <;> trivial
  · trivial

/-- What is left to show of a table: its readers, except for the two counts. -/
def Readers
    (cmd : Command)
    (table : List (Bytes × Handler)) :
    Prop :=
  ∀ entry ∈ table,
    AofPersistence.isWriteCommand entry.1 = false →
    countsEntries entry.1 = false →
    Entrywise (entry.2 cmd)

/-- A handler that the condition on its name excludes. -/
theorem entrywise_of_excluded
    {name : Bytes}
    {program : Program RespValue}
    (excluded :
      AofPersistence.isWriteCommand name = true ∨
        countsEntries name = true) :
    AofPersistence.isWriteCommand name = false →
      countsEntries name = false →
      Entrywise program := by
  intro reads plain
  rw [reads, plain] at excluded
  exact absurd excluded (by decide)

/-- All generic commands but those that count entries. -/
theorem readers_registerGeneric :
    Readers cmd registerGeneric := by
  simp only [Readers, registerGeneric, List.forall_mem_cons,
    List.not_mem_nil, false_implies, implies_true, and_true]
  refine ⟨fun _ _ => ?_, entrywise_of_excluded (by decide),
    fun _ _ => ?_, entrywise_of_excluded (by decide), fun _ _ => ?_,
    entrywise_of_excluded (by decide), fun _ _ => ?_,
    entrywise_of_excluded (by decide), fun _ _ => ?_,
    entrywise_of_excluded (by decide)⟩
  · unfold cmdPing
    split <;> trivial
  · unfold cmdExists
    split
    · trivial
    · exact (entrywise_countExisting cmd.args).bind fun _ _ => trivial
  · unfold cmdTtl
    split
    · refine Script.always_invoke_bind.mpr ⟨trivial, fun ms => ?_⟩
      split <;> trivial
    · trivial
  · unfold cmdHealth
    split <;> trivial
  · unfold cmdReady
    split
    · refine Script.always_invoke_bind.mpr ⟨trivial, fun stats => ?_⟩
      split <;> trivial
    · trivial

theorem readers_registerString :
    Readers cmd registerString := by
  simp only [Readers, registerString, List.forall_mem_cons,
    List.not_mem_nil, false_implies, implies_true, and_true]
  exact ⟨entrywise_of_excluded (by decide), fun _ _ => entrywise_cmdGet,
    entrywise_of_excluded (by decide), entrywise_of_excluded (by decide),
    entrywise_of_excluded (by decide), entrywise_of_excluded (by decide)⟩

theorem readers_registerList :
    Readers cmd registerList := by
  simp only [Readers, registerList, List.forall_mem_cons,
    List.not_mem_nil, false_implies, implies_true, and_true]
  refine ⟨entrywise_of_excluded (by decide),
    entrywise_of_excluded (by decide), entrywise_of_excluded (by decide),
    entrywise_of_excluded (by decide), fun _ _ => ?_, fun _ _ => ?_,
    fun _ _ => ?_⟩
  · unfold cmdLlen
    split
    · exact entrywise_readTyped fun _ => trivial
    · trivial
  · unfold cmdLrange
    split
    · refine entrywise_readTyped fun elements => ?_
      split <;> trivial
    · trivial
  · unfold cmdLindex
    split
    · refine entrywise_readTyped fun elements => ?_
      split
      · trivial
      · dsimp only
        split <;> trivial
    · trivial

theorem readers_registerSet :
    Readers cmd registerSet := by
  simp only [Readers, registerSet, List.forall_mem_cons,
    List.not_mem_nil, false_implies, implies_true, and_true]
  refine ⟨entrywise_of_excluded (by decide),
    entrywise_of_excluded (by decide), fun _ _ => ?_, fun _ _ => ?_,
    fun _ _ => ?_⟩
  · unfold cmdSmembers
    split
    · exact entrywise_readTyped fun _ => trivial
    · trivial
  · unfold cmdSismember
    split
    · exact entrywise_readTyped fun _ => trivial
    · trivial
  · unfold cmdScard
    split
    · exact entrywise_readTyped fun _ => trivial
    · trivial

theorem readers_registerHash :
    Readers cmd registerHash := by
  simp only [Readers, registerHash, List.forall_mem_cons,
    List.not_mem_nil, false_implies, implies_true, and_true]
  refine ⟨entrywise_of_excluded (by decide), fun _ _ => ?_,
    entrywise_of_excluded (by decide), fun _ _ => ?_, fun _ _ => ?_,
    fun _ _ => ?_⟩
  · unfold cmdHget
    split
    · refine entrywise_readTyped fun hash => ?_
      split <;> trivial
    · trivial
  · unfold cmdHgetall
    split
    · exact entrywise_readTyped fun _ => trivial
    · trivial
  · unfold cmdHexists
    split
    · exact entrywise_readTyped fun _ => trivial
    · trivial
  · unfold cmdHlen
    split
    · exact entrywise_readTyped fun _ => trivial
    · trivial

theorem readers_registerPubsub :
    Readers cmd registerPubsub := by
  simp only [Readers, registerPubsub, List.forall_mem_cons,
    List.not_mem_nil, false_implies, implies_true, and_true]
  intro _ _
  unfold cmdPublish
  split
  · exact ⟨trivial, fun _ => trivial⟩
  · trivial

/-- What holds of every list of handlers holds of the whole table. -/
theorem forall_makeDefault
    {holds : Bytes × Handler → Prop}
    (generic : ∀ entry ∈ registerGeneric, holds entry)
    (string : ∀ entry ∈ registerString, holds entry)
    (list : ∀ entry ∈ registerList, holds entry)
    (set : ∀ entry ∈ registerSet, holds entry)
    (hash : ∀ entry ∈ registerHash, holds entry)
    (pubsub : ∀ entry ∈ registerPubsub, holds entry)
    (withBroker : Bool) :
    ∀ entry ∈ (makeDefault withBroker).handlers, holds entry := by
  simp only [makeDefault, List.forall_mem_append]
  refine ⟨⟨⟨⟨⟨generic, string⟩, list⟩, set⟩, hash⟩, ?_⟩
  cases withBroker with
  | false =>
      exact List.forall_mem_nil _
  | true =>
      exact pubsub

/-- The whole table of handlers. -/
theorem readers_makeDefault
    (withBroker : Bool) :
    Readers cmd (makeDefault withBroker).handlers :=
  forall_makeDefault readers_registerGeneric readers_registerString
    readers_registerList readers_registerSet readers_registerHash
    readers_registerPubsub withBroker

/-- Only INFO and METRICS go through all of the store. -/
theorem entrywise_dispatch
    (plain : countsEntries cmd.name = false)
    (withBroker : Bool) :
    Entrywise ((makeDefault withBroker).dispatch cmd) := by
  cases write : AofPersistence.isWriteCommand cmd.name with
  | true =>
      exact (dispatch_mayCall withBroker cmd).mono
        (fun _ may => (Backend.within_of_mayCall write may).entrywise)
        (fun _ _ => trivial) (fun _ _ => trivial)
  | false =>
      cases registered :
          (makeDefault withBroker).isRegistered cmd.name with
      | true =>
          exact dispatch_of_table
            (fun name program =>
              AofPersistence.isWriteCommand name = false →
              countsEntries name = false →
              Entrywise program)
            (fun entry member _ =>
              readers_makeDefault withBroker entry member)
            registered write plain
      | false =>
          rw [dispatch_of_not_registered registered]
          trivial

end Table

end Dispatcher

namespace KvStore

variable {now later : TimePoint} {store other : KvStore}

/-- What is found later is what is found now and has not expired then. -/
theorem liveEntry_later
    (forward : now ≤ later)
    (key : Bytes) :
    store.liveEntry later key =
      (store.liveEntry now key).filter fun entry =>
        !entry.isExpired later := by
  apply Option.ext
  intro entry
  rw [Option.filter_eq_some_iff]
  constructor
  · intro alive
    refine ⟨liveEntry_of_later forward alive, ?_⟩
    rw [(liveEntry_eq_some_iff.mp alive).2]
    rfl
  · rintro ⟨found, alive⟩
    exact liveEntry_eq_some_iff.mpr
      ⟨(liveEntry_eq_some_iff.mp found).1, by simpa using alive⟩

/-- Stores that look alike go on looking alike. -/
theorem Mirrors.pass
    (alike : Mirrors now store now other)
    (forward : now ≤ later) :
    Mirrors later store later other := by
  refine ⟨fun key => ?_, fun differs => absurd rfl differs⟩
  rw [liveEntry_later forward, liveEntry_later forward, alike.live]

/-- A lookup does not miss what an earlier sweep has removed. -/
theorem liveEntry_sweep
    (forward : now ≤ later)
    (key : Bytes) :
    (store.sweep now).liveEntry later key = store.liveEntry later key := by
  apply Option.ext
  intro entry
  rw [liveEntry_eq_some_iff, lookup_sweep]
  constructor
  · rintro ⟨found, alive⟩
    exact liveEntry_eq_some_iff.mpr
      ⟨(liveEntry_eq_some_iff.mp found).1, alive⟩
  · intro found
    exact ⟨liveEntry_of_later forward found,
      (liveEntry_eq_some_iff.mp found).2⟩

/-- A sweep does not change what the store looks like. -/
theorem Mirrors.sweep
    (alike : Mirrors later store later other)
    (forward : now ≤ later) :
    Mirrors later (store.sweep now) later other := by
  refine ⟨fun key => ?_, fun differs => absurd rfl differs⟩
  rw [alike.live, liveEntry_sweep forward]

end KvStore

namespace Backend

variable {now : TimePoint} {backend : Backend} {store : KvStore}

/-- The same with another store. -/
def withStore (backend : Backend) (store : KvStore) : Backend :=
  { backend with store := store }

/-- Only the stores differ, and they look alike. -/
def Twins (now : TimePoint) (backend other : Backend) : Prop :=
  ∃ store,
    other = backend.withStore store ∧
      KvStore.Mirrors now backend.store now store

/-- One call answers alike on twins and leaves twins. -/
theorem step_twins
    {call : Call}
    {other : Backend}
    (entrywise : call.Entrywise)
    (twins : backend.Twins now other) :
    (step now call backend).1 = (step now call other).1 ∧
      (step now call backend).2.Twins now (step now call other).2 := by
  obtain ⟨store, rfl, alike⟩ := twins
  cases call with
  | set key value ttl =>
      exact ⟨rfl, _, rfl, alike.set (.inl rfl) key value⟩
  | get key =>
      have within : (Call.get key).Within [] := trivial
      exact ⟨step_fst_of_mirrors within alike, store, rfl, alike⟩
  | exists? key =>
      have within : (Call.exists? key).Within [] := trivial
      exact ⟨step_fst_of_mirrors within alike, store, rfl, alike⟩
  | ttl key =>
      have within : (Call.ttl key).Within [] := trivial
      exact ⟨step_fst_of_mirrors within alike, store, rfl, alike⟩
  | del key =>
      have within : (Call.del key).Within [key] := List.mem_singleton_self key
      exact ⟨step_fst_of_mirrors within alike, _, rfl, alike.del key⟩
  | expire key ttl =>
      have within : (Call.expire key ttl).Within [key] :=
        List.mem_singleton_self key
      exact ⟨step_fst_of_mirrors within alike, _, rfl,
        alike.expire (.inl rfl)⟩
  | persist key =>
      have within : (Call.persist key).Within [key] :=
        List.mem_singleton_self key
      exact ⟨step_fst_of_mirrors within alike, _, rfl, alike.persist key⟩
  | size | approxMemoryBytes =>
      exact entrywise.elim
  | stats | uptimeSeconds =>
      exact ⟨rfl, store, rfl, alike⟩
  | publish channel message =>
      obtain ⟨held, stats, broker, posted⟩ := backend
      cases broker <;> exact ⟨rfl, store, rfl, alike⟩

/-- Commands on single entries do the same on stores that look alike. -/
theorem dispatch_withStore
    {cmd : Command}
    (plain : Dispatcher.countsEntries cmd.name = false)
    (alike : KvStore.Mirrors now backend.store now store) :
    ∃ left,
      (backend.withStore store).dispatch now cmd =
          ((backend.dispatch now cmd).1,
            (backend.dispatch now cmd).2.withStore left) ∧
        KvStore.Mirrors now (backend.dispatch now cmd).2.store now left := by
  have entrywise :=
    Dispatcher.entrywise_dispatch plain backend.broker.isSome
  have keeps :
      ∀ (call : Call) (first second : Backend),
        call.Entrywise →
        first.Twins now second →
        (step now call first).1 = (step now call second).1 ∧
          (step now call first).2.Twins now (step now call second).2 :=
    fun _ _ _ may twins => step_twins may twins
  obtain ⟨answer, left, after, still⟩ :=
    Script.run_related (Twins now) keeps
      (entrywise.along (fun _ _ may => may) backend)
      ⟨store, rfl, alike⟩
  exact ⟨left, Prod.ext answer.symm after, still⟩

end Backend

end Vortek

import Vortek.AofReplay
import Vortek.WriteCommands

namespace Vortek

open CallScript

/-!
# Stored collections are not empty

A command that empties a list, a set or a hash deletes its key, and a command
that creates one puts something into it.  So whatever commands have been
dispatched, at whatever times, and whatever the expiry sweep has removed, the
store holds no empty collection.
-/

/-- A list, set or hash without elements. -/
def Value.isEmptyCollection : Value → Bool
  | .string _ => false
  | .list elements => elements.isEmpty
  | .set members => members.members.isEmpty
  | .hash fields => fields.entries.isEmpty

/-- What the call stores is not an empty collection. -/
def Call.StoresContent : Call → Prop
  | .set _ value _ => value.isEmptyCollection = false
  | _ => True

namespace KvStore

/-- No entry holds an empty collection. -/
def NoEmptyCollection (store : KvStore) : Prop :=
  ∀ key entry,
    store.data.lookup key = some entry →
    entry.value.isEmptyCollection = false

/-- Stores that commands and sweeps lead to from the empty store. -/
inductive Reachable : KvStore → Prop where
  | empty : Reachable KvStore.empty
  | dispatch
      {backend : Backend}
      (now : TimePoint)
      (cmd : Command)
      (earlier : Reachable backend.store) :
      Reachable (backend.dispatch now cmd).2.store
  | sweep
      {store : KvStore}
      (now : TimePoint)
      (earlier : Reachable store) :
      Reachable (store.sweep now)

namespace NoEmptyCollection

variable {store : KvStore}

/-- An entry that holds something may be added. -/
theorem insert
    (full : store.NoEmptyCollection)
    {key : Bytes}
    {entry : Entry}
    (content : entry.value.isEmptyCollection = false) :
    NoEmptyCollection ⟨store.data.insert key entry⟩ := by
  intro other found lookup
  by_cases same : other = key
  · subst same
    rw [AList.lookup_insert] at lookup
    cases lookup
    exact content
  · rw [AList.lookup_insert_ne same] at lookup
    exact full other found lookup

theorem erase
    (full : store.NoEmptyCollection)
    {key : Bytes} :
    NoEmptyCollection ⟨store.data.erase key⟩ := by
  intro other found lookup
  by_cases same : other = key
  · subst same
    rw [AList.lookup_erase] at lookup
    cases lookup
  · rw [AList.lookup_erase_ne same] at lookup
    exact full other found lookup

/-- Sweeping only removes entries. -/
theorem sweep
    (full : store.NoEmptyCollection)
    (now : TimePoint) :
    (store.sweep now).NoEmptyCollection := by
  intro key entry lookup
  have member := AList.mem_lookup_iff.mp lookup
  have kept := (List.mem_filter.mp member).1
  exact full key entry (AList.mem_lookup_iff.mpr kept)

end NoEmptyCollection

end KvStore

/-- A call that stores content keeps the store free of empty collections. -/
theorem Backend.step_noEmptyCollection
    {now : TimePoint}
    {call : Call}
    {backend : Backend}
    (stores : call.StoresContent)
    (full : backend.store.NoEmptyCollection) :
    (step now call backend).2.store.NoEmptyCollection := by
  cases call with
  | set key value ttl =>
      exact full.insert stores
  | del key =>
      simp only [step, KvStore.del]
      split
      · exact full
      · exact full.erase
  | expire key ttl =>
      simp only [step, KvStore.expire]
      split
      · exact full
      · rename_i entry live
        exact full.insert
          (full key entry (KvStore.liveEntry_eq_some_iff.mp live).1)
  | persist key =>
      simp only [step, KvStore.persist]
      split
      · exact full
      · rename_i entry live
        exact full.insert
          (full key entry (KvStore.liveEntry_eq_some_iff.mp live).1)
  | get | exists? | ttl | size | approxMemoryBytes | stats
  | uptimeSeconds =>
      exact full
  | publish channel message =>
      have keeps : (Call.publish channel message).KeepsStore :=
        trivial
      rw [step_store_of_keepsStore keeps]
      exact full

section Handlers

variable {cmd : Command} {key : Bytes}

/-- Every value that the program stores has content. -/
def StoresContent (program : Program RespValue) : Prop :=
  program.Always Call.StoresContent (fun _ => True) (fun _ => True)

/-- Access to a typed value stores nothing itself. -/
theorem storesContent_withTyped
    {Payload : Type}
    {type : ValueType Payload}
    {absent : Program RespValue}
    {present : Payload → Program RespValue}
    (absentStores : StoresContent absent)
    (presentStores : ∀ content, StoresContent (present content)) :
    StoresContent (withTyped type key absent present) :=
  always_withTyped trivial trivial absentStores presentStores

/-- What is deleted when it is empty is stored with content. -/
theorem storesContent_storeOrDelete_bind
    {isEmpty : Bool}
    {value : Value}
    {reply : RespValue}
    (decides : value.isEmptyCollection = isEmpty) :
    StoresContent
      (storeOrDelete key isEmpty value >>= fun _ => pure reply) := by
  cases isEmpty
  · exact ⟨decides, fun _ => trivial⟩
  · exact ⟨trivial, fun _ => trivial⟩

/-- SET stores a string, which is no collection. -/
theorem storesContent_cmdSet : StoresContent (cmdSet cmd) := by
  unfold cmdSet
  split
  · split
    · trivial
    · split
      · trivial
      · refine Script.always_invoke_bind.mpr ⟨trivial, fun present => ?_⟩
        split
        · trivial
        · split
          · trivial
          · exact ⟨rfl, fun _ => trivial⟩
  · trivial

/-- A counter is stored as a string. -/
theorem storesContent_storeSum
    {num delta : Int64} :
    StoresContent (storeSum key num delta) := by
  unfold storeSum
  split
  · trivial
  · exact ⟨rfl, fun _ => trivial⟩

theorem storesContent_applyDelta
    {delta : Int64} :
    StoresContent (applyDelta key delta) := by
  refine ⟨trivial, fun answer => ?_⟩
  cases answer with
  | none =>
      exact storesContent_storeSum
  | some value =>
      cases value with
      | string text =>
          change Script.Always _ _ _ (addToText key delta text)
          unfold addToText
          split
          · trivial
          · exact storesContent_storeSum
      | list | set | hash =>
          trivial

/-- A list is not empty after a push onto it. -/
theorem foldl_push_ne_nil
    {push : List Bytes → Bytes → List Bytes}
    (pushes : ∀ list element, push list element ≠ [])
    (list : List Bytes)
    (first : Bytes)
    (more : List Bytes) :
    (first :: more).foldl push list ≠ [] := by
  induction more generalizing list first with
  | nil =>
      exact pushes list first
  | cons second later inductionHypothesis =>
      exact inductionHypothesis (push list first) second

/-- A push stores a list with the element that it adds. -/
theorem storesContent_pushCommand
    {push : List Bytes → Bytes → List Bytes}
    (pushes : ∀ list element, push list element ≠ []) :
    StoresContent (pushCommand push cmd) := by
  unfold pushCommand
  split
  · rename_i first more shape
    have stores
        (list : List Bytes) :
        Value.isEmptyCollection
          (.list ((first :: more).foldl push list)) = false := by
      simpa [Value.isEmptyCollection] using
        foldl_push_ne_nil pushes list first more
    exact storesContent_withTyped ⟨stores [], fun _ => trivial⟩
      fun list => ⟨stores list, fun _ => trivial⟩
  · trivial

/-- A pop stores what is left, or deletes the key. -/
theorem storesContent_popCommand
    {pop : List Bytes → Option (Bytes × List Bytes)} :
    StoresContent (popCommand pop cmd) := by
  unfold popCommand
  split
  · refine storesContent_withTyped trivial fun list => ?_
    split
    · trivial
    · exact storesContent_storeOrDelete_bind rfl
  · trivial

/-- SADD has added its first member when it stores the set. -/
theorem storesContent_cmdSadd : StoresContent (cmdSadd cmd) := by
  unfold cmdSadd
  split
  · rename_i first more shape
    have stores
        (set : ByteSet) :
        Value.isEmptyCollection
          (.set (addMembers set (first :: more)).1) = false := by
      have member : first ∈ (addMembers set (first :: more)).1.members :=
        mem_addMembers.mpr (Or.inr List.mem_cons_self)
      simpa [Value.isEmptyCollection] using List.ne_nil_of_mem member
    exact storesContent_withTyped
      ⟨stores ByteSet.empty, fun _ => trivial⟩
      fun set => ⟨stores set, fun _ => trivial⟩
  · trivial

theorem storesContent_cmdSrem : StoresContent (cmdSrem cmd) := by
  unfold cmdSrem
  split
  · exact storesContent_withTyped trivial
      fun _ => storesContent_storeOrDelete_bind rfl
  · trivial

/-- A hash has the first field that is assigned to it. -/
theorem entries_assignFields_ne_nil
    (hash : ByteMap Bytes)
    (field value : Bytes)
    (more : List Bytes) :
    (assignFields hash (field :: value :: more)).1.entries ≠ [] := by
  have step :
      (assignFields hash (field :: value :: more)).1 =
        (assignFields (hash.insert field value) more).1 := by
    simp only [assignFields]
    split <;> rfl
  have member :
      field ∈ (assignFields hash (field :: value :: more)).1 := by
    rw [step]
    exact mem_assignFields_of_mem (by simp)
  intro nothing
  have keys := AList.mem_keys.mp member
  simp [AList.keys, nothing] at keys

/-- HSET has set its first field when it stores the hash. -/
theorem storesContent_cmdHset : StoresContent (cmdHset cmd) := by
  unfold cmdHset
  split
  · rename_i field value more shape
    have stores
        (hash : ByteMap Bytes) :
        Value.isEmptyCollection
          (.hash (assignFields hash (field :: value :: more)).1) =
            false := by
      simpa [Value.isEmptyCollection] using
        entries_assignFields_ne_nil hash field value more
    split
    · exact storesContent_withTyped ⟨stores ∅, fun _ => trivial⟩
        fun hash => ⟨stores hash, fun _ => trivial⟩
    · trivial
  · trivial

theorem storesContent_cmdHdel : StoresContent (cmdHdel cmd) := by
  unfold cmdHdel
  split
  · exact storesContent_withTyped trivial
      fun _ => storesContent_storeOrDelete_bind rfl
  · trivial

theorem storesContent_countOnce
    {delta : Int64} :
    StoresContent (countOnce delta cmd) := by
  unfold countOnce
  split
  · exact storesContent_applyDelta
  · trivial

theorem storesContent_cmdIncrby : StoresContent (cmdIncrby cmd) := by
  unfold cmdIncrby
  split
  · split
    · trivial
    · exact storesContent_applyDelta
  · trivial

theorem storesContent_cmdDecrby : StoresContent (cmdDecrby cmd) := by
  unfold cmdDecrby
  split
  · split
    · trivial
    · split
      · trivial
      · exact storesContent_applyDelta
  · trivial

/-- DEL, EXPIRE and PERSIST store no value of their own. -/
theorem storesContent_cmdDel : StoresContent (cmdDel cmd) := by
  unfold cmdDel
  split
  · trivial
  · have deletes :
        (delKeys cmd.args).Always
          Call.StoresContent (fun _ => True) (fun _ => True) := by
      generalize cmd.args = keys
      induction keys with
      | nil =>
          trivial
      | cons key later inductionHypothesis =>
          exact Script.always_invoke_bind.mpr
            ⟨trivial, fun count =>
              inductionHypothesis.bind fun _ _ => trivial⟩
    exact deletes.bind fun _ _ => trivial

/-- EXPIRE stores no value. -/
theorem storesContent_cmdExpire : StoresContent (cmdExpire cmd) := by
  unfold cmdExpire
  split
  · split
    · trivial
    · split
      · trivial
      · exact ⟨trivial, fun _ => trivial⟩
  · trivial

theorem storesContent_cmdPersist : StoresContent (cmdPersist cmd) := by
  unfold cmdPersist
  split
  · exact ⟨trivial, fun _ => trivial⟩
  · trivial

end Handlers

namespace Dispatcher

/-- No handler stores an empty collection. -/
theorem writeHandlers_storesContent
    {cmd : Command} :
    ∀ entry ∈ writeHandlers, StoresContent (entry.2 cmd) := by
  have pushFront :
      ∀ (list : List Bytes) (element : Bytes), element :: list ≠ [] :=
    fun list element => List.cons_ne_nil element list
  have pushBack :
      ∀ (list : List Bytes) (element : Bytes), list ++ [element] ≠ [] :=
    fun list element => by simp
  simp only [writeHandlers, wholeKeyHandlers, inPlaceHandlers,
    List.cons_append, List.nil_append, List.forall_mem_cons,
    List.not_mem_nil, false_implies, implies_true, and_true]
  exact ⟨storesContent_cmdDel, storesContent_cmdExpire,
    storesContent_cmdPersist, storesContent_cmdSet,
    storesContent_countOnce, storesContent_countOnce,
    storesContent_cmdIncrby, storesContent_cmdDecrby,
    storesContent_pushCommand pushFront,
    storesContent_pushCommand pushBack, storesContent_popCommand,
    storesContent_popCommand, storesContent_cmdSadd,
    storesContent_cmdSrem, storesContent_cmdHset,
    storesContent_cmdHdel⟩

/-- Whatever the name is, dispatch stores no empty collection. -/
theorem dispatch_storesContent
    (withBroker : Bool)
    (cmd : Command) :
    StoresContent ((makeDefault withBroker).dispatch cmd) := by
  cases write : AofPersistence.isWriteCommand cmd.name with
  | true =>
      exact dispatch_of_writeHandlers withBroker
        (fun _ program => StoresContent program)
        (fun entry member _ => writeHandlers_storesContent entry member)
        write
  | false =>
      refine (dispatch_mayCall withBroker cmd).mono ?_
        (fun _ _ => trivial) fun _ _ => trivial
      intro call may
      rw [MayCall, write] at may
      cases call with
      | set =>
          exact may.elim
      | get | del | exists? | expire | ttl | persist | size
      | approxMemoryBytes | stats | uptimeSeconds | publish =>
          trivial

end Dispatcher

namespace KvStore

/-- No reachable store holds an empty list, set or hash. -/
theorem Reachable.noEmptyCollection
    {store : KvStore}
    (reachable : store.Reachable) :
    store.NoEmptyCollection := by
  induction reachable with
  | empty =>
      intro key entry found
      cases found
  | dispatch now cmd _ full =>
      exact (Dispatcher.dispatch_storesContent _ cmd).invariant
        (fun backend : Backend => backend.store.NoEmptyCollection)
        (fun call state stores => Backend.step_noEmptyCollection stores)
        full
  | sweep now _ full =>
      exact full.sweep now

end KvStore

/-- Every run of the server stays within the reachable stores. -/
theorem Server.run_reachable
    (reserve : Reserve)
    {server : Server}
    (reachable : server.backend.store.Reachable)
    (events : List Event) :
    (server.run reserve events).1.backend.store.Reachable := by
  induction events generalizing server with
  | nil =>
      exact reachable
  | cons event later inductionHypothesis =>
      apply inductionHypothesis
      cases event with
      | sweep now =>
          exact .sweep now reachable
      | other stats broker posted =>
          exact reachable
      | read connection clock chunk =>
          refine Connection.handleData_invariant
            (fun state _ => state.backend.store.Reachable) ?_
            reachable connection chunk
          intro turn value next _ step earlier
          cases step with
          | unchanged _ store _ =>
              rw [store]
              exact earlier
          | executed cmd now logged _ logs _ store _ =>
              rw [store]
              have same : logged.backend = turn.server.backend :=
                backend_of_logWrite logs
              exact .dispatch now cmd (same ▸ earlier)

end Vortek

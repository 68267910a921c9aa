import Vortek.FailedCommands
import Vortek.StoredValues

namespace Vortek

open CallScript DecimalText

/-!
# Expiry and updates in place

The twelve commands that update a value in place read it, change a copy, and
write the copy back with `KvStore::set`.  The default duration of that call
means no expiry, so the deadline of the key is lost with the first update.  It
survives only where nothing is written back: when the command fails, and when it
empties a collection, which deletes the key.
-/

/-- One of the twelve commands that update a value in place, on this key. -/
def Command.UpdatesInPlace (cmd : Command) (key : Bytes) : Prop :=
  cmd.name ∈ Dispatcher.inPlaceHandlers.map Prod.fst ∧
    cmd.args.head? = some key

/-- The command takes away everything that the value holds. -/
def Command.RemovesAll (cmd : Command) : Value → Prop
  | .string _ => False
  | .list elements =>
      (cmd.name = ascii "LPOP" ∨ cmd.name = ascii "RPOP") ∧
        elements.length = 1
  | .set members =>
      cmd.name = ascii "SREM" ∧
        ∀ member ∈ members.members, member ∈ cmd.args.tail
  | .hash fields =>
      cmd.name = ascii "HDEL" ∧
        ∀ field ∈ fields.keys, field ∈ cmd.args.tail

/-- SREM or HDEL of what is not in the value. -/
def Command.RemovesNothing (cmd : Command) : Value → Prop
  | .set members =>
      cmd.name = ascii "SREM" ∧
        ∀ member ∈ cmd.args.tail, member ∉ members.members
  | .hash fields =>
      cmd.name = ascii "HDEL" ∧
        ∀ field ∈ cmd.args.tail, field ∉ fields
  | _ => False

/--
The deadline of an entry is still there if the key is, and a removal of nothing
has left the whole entry as it was.
-/
structure ExpiryKept
    (cmd : Command)
    (key : Bytes)
    (entry : Entry)
    (after : KvStore) :
    Prop where
  expiresAt :
    ∀ later,
      after.data.lookup key = some later →
      later.expiresAt = entry.expiresAt
  entry :
    cmd.args.head? = some key →
    cmd.RemovesNothing entry.value →
    after.data.lookup key = some entry

/--
What a command that updates in place leaves under its key: after a failure what
was there, after a removal of everything nothing, and otherwise an entry without
a deadline.
-/
inductive Rewritten
    (cmd : Command)
    (key : Bytes)
    (value : Value)
    (outcome : Except CppException RespValue × Backend) :
    Prop where
  | failed
      (failed : Failed outcome.1)
  | deleted
      (removes : cmd.RemovesAll value)
      (succeeded : ¬ Failed outcome.1)
      (lookup : outcome.2.store.data.lookup key = none)
  | stored
      (stored : Value)
      (leaves : ¬ cmd.RemovesAll value)
      (succeeded : ¬ Failed outcome.1)
      (same : cmd.RemovesNothing value → stored = value)
      (lookup :
        outcome.2.store.data.lookup key = some ⟨stored, none⟩)

section Outcomes

variable {cmd : Command} {key : Bytes} {value : Value}
variable {now : TimePoint} {backend : Backend}

/-- A value that is written back has no deadline. -/
theorem rewritten_set
    {stored : Value}
    {reply : RespValue}
    (leaves : ¬ cmd.RemovesAll value)
    (same : cmd.RemovesNothing value → stored = value)
    (succeeds : reply.Succeeds) :
    Rewritten cmd key value
      (backend.exec now (do
        Program.set key stored 0
        return reply)) := by
  refine .stored stored leaves ?_ same ?_
  · change ¬ reply.isFailure = true
    rw [succeeds]
    exact Bool.false_ne_true
  · exact AList.lookup_insert _

/-- A collection is deleted if it is empty and written back otherwise. -/
theorem rewritten_storeOrDelete
    {isEmpty : Bool}
    {stored : Value}
    {reply : RespValue}
    (removes : isEmpty = true ↔ cmd.RemovesAll value)
    (same : cmd.RemovesNothing value → stored = value)
    (succeeds : reply.Succeeds) :
    Rewritten cmd key value
      (backend.exec now (do
        storeOrDelete key isEmpty stored
        return reply)) := by
  cases isEmpty with
  | false =>
      have leaves : ¬ cmd.RemovesAll value := fun all =>
        Bool.false_ne_true (removes.mpr all)
      exact rewritten_set leaves same succeeds
  | true =>
      refine .deleted (removes.mp rfl) ?_ ?_
      · change ¬ reply.isFailure = true
        rw [succeeds]
        exact Bool.false_ne_true
      · change (backend.store.del now key).2.data.lookup key = none
        unfold KvStore.del
        split
        · assumption
        · exact AList.lookup_erase _ _

/-- Typed access to a live key: refused, or handed to the handler's part. -/
theorem rewritten_withTyped
    {Payload : Type}
    {type : ValueType Payload}
    {absent : Program RespValue}
    {present : Payload → Program RespValue}
    (live : backend.store.get now key = some value)
    (rewrites :
      ∀ content,
        value = type.wrap content →
        Rewritten cmd key value (backend.exec now (present content))) :
    Rewritten cmd key value
      (backend.exec now (withTyped type key absent present)) := by
  cases test : type.holds value with
  | false =>
      have other : value.kind ≠ type.kind := by
        rw [ne_eq, ← type.holds_iff, test]
        exact Bool.false_ne_true
      rw [exec_of_guarded guarded_withTyped live other]
      exact .failed rfl
  | true =>
      obtain ⟨content, shape, read⟩ := type.payload_wrap value test
      rw [exec_withTyped_present live test read]
      exact rewrites content shape

/-- The counter commands write the sum back, or fail. -/
theorem rewritten_applyDelta
    {delta : Int64}
    (live : backend.store.get now key = some value) :
    Rewritten cmd key value
      (backend.exec now (applyDelta key delta)) := by
  simp only [Backend.exec, applyDelta, Program.get,
    Script.run_invoke_bind, Backend.step, live]
  cases value with
  | string text =>
      change Rewritten _ _ _ (backend.exec now (addToText key delta text))
      unfold addToText
      cases wholeInt64? text with
      | none =>
          exact .failed rfl
      | some num =>
          simp only [storeSum]
          split
          · exact .failed rfl
          · exact rewritten_set id False.elim rfl
  | list | set | hash =>
      exact .failed trivial

theorem rewritten_countOnce
    {delta : Int64}
    (live : backend.store.get now key = some value)
    (head : cmd.args.head? = some key) :
    Rewritten cmd key value
      (backend.exec now (countOnce delta cmd)) := by
  unfold countOnce
  split
  · rename_i first shape
    rw [shape] at head
    cases head
    exact rewritten_applyDelta live
  · exact .failed rfl

theorem rewritten_cmdIncrby
    (live : backend.store.get now key = some value)
    (head : cmd.args.head? = some key) :
    Rewritten cmd key value (backend.exec now (cmdIncrby cmd)) := by
  unfold cmdIncrby
  split
  · rename_i first amount shape
    rw [shape] at head
    cases head
    split
    · exact .failed rfl
    · exact rewritten_applyDelta live
  · exact .failed rfl

theorem rewritten_cmdDecrby
    (live : backend.store.get now key = some value)
    (head : cmd.args.head? = some key) :
    Rewritten cmd key value (backend.exec now (cmdDecrby cmd)) := by
  unfold cmdDecrby
  split
  · rename_i first amount shape
    rw [shape] at head
    cases head
    split
    · exact .failed rfl
    · split
      · exact .failed rfl
      · exact rewritten_applyDelta live
  · exact .failed rfl

theorem rewritten_pushCommand
    {push : List Bytes → Bytes → List Bytes}
    (live : backend.store.get now key = some value)
    (head : cmd.args.head? = some key)
    (named : cmd.name ≠ ascii "LPOP" ∧ cmd.name ≠ ascii "RPOP") :
    Rewritten cmd key value
      (backend.exec now (pushCommand push cmd)) := by
  unfold pushCommand
  split
  · rename_i first element more shape
    rw [shape] at head
    cases head
    refine rewritten_withTyped live fun list shape => ?_
    subst shape
    refine rewritten_set ?_ False.elim rfl
    exact fun all => all.1.elim named.1 named.2
  · exact .failed rfl

theorem rewritten_popCommand
    {pop : List Bytes → Option (Bytes × List Bytes)}
    (live : backend.store.get now key = some value)
    (head : cmd.args.head? = some key)
    (named : cmd.name = ascii "LPOP" ∨ cmd.name = ascii "RPOP")
    (pops :
      ∀ list element rest,
        pop list = some (element, rest) →
        (rest = [] ↔ list.length = 1)) :
    Rewritten cmd key value
      (backend.exec now (popCommand pop cmd)) := by
  unfold popCommand
  split
  · rename_i first shape
    rw [shape] at head
    cases head
    refine rewritten_withTyped live fun list shape => ?_
    subst shape
    split
    · exact .failed rfl
    · rename_i element rest popped
      refine rewritten_storeOrDelete ?_ False.elim rfl
      rw [List.isEmpty_iff, pops list element rest popped]
      exact ⟨fun single => ⟨named, single⟩, fun all => all.2⟩
  · exact .failed rfl

theorem popFront_rest_eq_nil_iff
    (list : List Bytes)
    (element : Bytes)
    (rest : List Bytes)
    (popped : popFront list = some (element, rest)) :
    rest = [] ↔ list.length = 1 := by
  cases list with
  | nil =>
      cases popped
  | cons first later =>
      cases popped
      simp

theorem popBack_rest_eq_nil_iff
    (list : List Bytes)
    (element : Bytes)
    (rest : List Bytes)
    (popped : popBack list = some (element, rest)) :
    rest = [] ↔ list.length = 1 := by
  unfold popBack at popped
  split at popped
  · cases popped
  · rename_i last found
    cases popped
    have filled : list ≠ [] := by
      rintro rfl
      cases found
    rw [← List.length_eq_zero_iff, List.length_dropLast]
    have positive := List.length_pos_iff.mpr filled
    omega

theorem rewritten_cmdSadd
    (live : backend.store.get now key = some value)
    (head : cmd.args.head? = some key)
    (named : cmd.name ≠ ascii "SREM") :
    Rewritten cmd key value (backend.exec now (cmdSadd cmd)) := by
  unfold cmdSadd
  split
  · rename_i first member more shape
    rw [shape] at head
    cases head
    refine rewritten_withTyped live fun set shape => ?_
    subst shape
    refine rewritten_set ?_ ?_ rfl
    · exact fun all => named all.1
    · exact fun nothing => (named nothing.1).elim
  · exact .failed rfl

theorem rewritten_cmdSrem
    (live : backend.store.get now key = some value)
    (head : cmd.args.head? = some key)
    (named : cmd.name = ascii "SREM") :
    Rewritten cmd key value (backend.exec now (cmdSrem cmd)) := by
  unfold cmdSrem
  split
  · rename_i first member more args
    rw [args] at head
    cases head
    refine rewritten_withTyped live fun set shape => ?_
    subst shape
    refine rewritten_storeOrDelete ?_ ?_ rfl
    · rw [List.isEmpty_iff, List.eq_nil_iff_forall_not_mem]
      simp only [mem_removeMembers, not_and, not_not]
      refine ⟨fun all => ⟨named, ?_⟩, fun all => ?_⟩
      · rwa [args]
      · have members := all.2
        rwa [args] at members
    · rintro ⟨-, nothing⟩
      rw [args, List.tail_cons] at nothing
      rw [removeMembers_of_disjoint nothing]
      rfl
  · exact .failed rfl

theorem rewritten_cmdHset
    (live : backend.store.get now key = some value)
    (head : cmd.args.head? = some key)
    (named : cmd.name ≠ ascii "HDEL") :
    Rewritten cmd key value (backend.exec now (cmdHset cmd)) := by
  unfold cmdHset
  split
  · rename_i first field content more shape
    rw [shape] at head
    cases head
    split
    · refine rewritten_withTyped live fun hash shape => ?_
      subst shape
      refine rewritten_set ?_ ?_ rfl
      · exact fun all => named all.1
      · exact fun nothing => (named nothing.1).elim
    · exact .failed rfl
  · exact .failed rfl

/-- A hash has no entries when every key has been erased. -/
theorem entries_eraseFields_eq_nil_iff
    {hash : ByteMap Bytes}
    {removed : List Bytes} :
    (eraseFields hash removed).1.entries = [] ↔
      ∀ field ∈ hash.keys, field ∈ removed := by
  rw [← List.map_eq_nil_iff (f := Sigma.fst),
    List.eq_nil_iff_forall_not_mem]
  refine forall_congr' fun field => ?_
  have found :
      field ∈ (eraseFields hash removed).1 ↔
        field ∈ hash ∧ field ∉ removed := by
    rw [← AList.lookup_isSome, lookup_eraseFields,
      ← AList.lookup_isSome]
    by_cases erased : field ∈ removed <;> simp [erased]
  change ¬ field ∈ (eraseFields hash removed).1 ↔ _
  rw [found, AList.mem_keys, not_and, not_not]

theorem rewritten_cmdHdel
    (live : backend.store.get now key = some value)
    (head : cmd.args.head? = some key)
    (named : cmd.name = ascii "HDEL") :
    Rewritten cmd key value (backend.exec now (cmdHdel cmd)) := by
  unfold cmdHdel
  split
  · rename_i first field more args
    rw [args] at head
    cases head
    refine rewritten_withTyped live fun hash shape => ?_
    subst shape
    refine rewritten_storeOrDelete ?_ ?_ rfl
    · rw [List.isEmpty_iff, entries_eraseFields_eq_nil_iff]
      refine ⟨fun all => ⟨named, ?_⟩, fun all => ?_⟩
      · rwa [args]
      · have fields := all.2
        rwa [args] at fields
    · rintro ⟨-, nothing⟩
      rw [args, List.tail_cons] at nothing
      rw [eraseFields_of_disjoint nothing]
      rfl
  · exact .failed rfl

end Outcomes

namespace Dispatcher

/-- On a live key, each of the twelve commands rewrites the entry. -/
theorem inPlaceHandlers_rewritten
    {cmd : Command}
    {key : Bytes}
    {value : Value}
    {now : TimePoint}
    {backend : Backend}
    (live : backend.store.get now key = some value)
    (head : cmd.args.head? = some key) :
    ∀ entry ∈ inPlaceHandlers,
      entry.1 = cmd.name →
      Rewritten cmd key value (backend.exec now (entry.2 cmd)) := by
  simp only [inPlaceHandlers, List.forall_mem_cons, List.not_mem_nil,
    false_implies, implies_true, and_true]
  refine ⟨?_, ?_, ?_, ?_, ?_, ?_, ?_, ?_, ?_, ?_, ?_, ?_⟩
  · exact fun _ => rewritten_countOnce live head
  · exact fun _ => rewritten_countOnce live head
  · exact fun _ => rewritten_cmdIncrby live head
  · exact fun _ => rewritten_cmdDecrby live head
  · intro named
    exact rewritten_pushCommand live head (named ▸ by decide)
  · intro named
    exact rewritten_pushCommand live head (named ▸ by decide)
  · intro named
    exact rewritten_popCommand live head (Or.inl named.symm)
      popFront_rest_eq_nil_iff
  · intro named
    exact rewritten_popCommand live head (Or.inr named.symm)
      popBack_rest_eq_nil_iff
  · intro named
    exact rewritten_cmdSadd live head (named ▸ by decide)
  · exact fun named => rewritten_cmdSrem live head named.symm
  · intro named
    exact rewritten_cmdHset live head (named ▸ by decide)
  · exact fun named => rewritten_cmdHdel live head named.symm

/-- The twelve commands change no key but their first argument. -/
theorem inPlaceHandlers_modifies
    {cmd : Command}
    (clear : CrlfFree cmd.name) :
    ∀ entry ∈ inPlaceHandlers,
      (entry.2 cmd).Always
        (Call.Modifies (cmd.args.take 1))
        (fun _ => True) (fun _ => True) := by
  have weaken
      {program : Program RespValue}
      {raised : CppException → Prop}
      (safe :
        program.Always
          (Call.Modifies (cmd.args.take 1)) RespValue.LineSafe raised) :
      program.Always
        (Call.Modifies (cmd.args.take 1))
        (fun _ => True) (fun _ => True) :=
    safe.mono (fun _ may => may) (fun _ _ => trivial) fun _ _ => trivial
  simp only [inPlaceHandlers, List.forall_mem_cons, List.not_mem_nil,
    false_implies, implies_true, and_true]
  exact ⟨weaken (always_countOnce clear), weaken (always_countOnce clear),
    weaken (always_cmdIncrby clear), weaken (always_cmdDecrby clear),
    weaken (always_pushCommand clear), weaken (always_pushCommand clear),
    weaken (always_popCommand clear), weaken (always_popCommand clear),
    weaken (always_cmdSadd clear), weaken (always_cmdSrem clear),
    weaken (always_cmdHset clear), weaken (always_cmdHdel clear)⟩

/-- A logged command that is not one of the four is one of the twelve. -/
theorem mem_inPlaceHandlers
    {entry : Bytes × Handler}
    (member : entry ∈ writeHandlers)
    (other : entry.1 ∉ wholeKeyHandlers.map Prod.fst) :
    entry ∈ inPlaceHandlers := by
  rcases List.mem_append.mp member with wholeKey | inPlace
  · exact absurd (List.mem_map_of_mem wholeKey) other
  · exact inPlace

end Dispatcher

namespace Backend

variable {backend : Backend} {now : TimePoint} {cmd : Command}
variable {key : Bytes} {entry : Entry}

/-- A call within some keys leaves the entries of all others alone. -/
theorem step_lookup_of_within
    {keys : List Bytes}
    {call : Call}
    (within : call.Within keys)
    (absent : key ∉ keys) :
    (step now call backend).2.store.data.lookup key =
      backend.store.data.lookup key := by
  have different {other : Bytes} (listed : other ∈ keys) :
      key ≠ other := by
    rintro rfl
    exact absent listed
  cases call with
  | set other value ttl =>
      exact AList.lookup_insert_ne (different within)
  | del other =>
      simp only [step, KvStore.del]
      split
      · rfl
      · exact AList.lookup_erase_ne (different within)
  | expire other ttl =>
      simp only [step, KvStore.expire]
      split
      · rfl
      · exact AList.lookup_insert_ne (different within)
  | persist other =>
      simp only [step, KvStore.persist]
      split
      · rfl
      · exact AList.lookup_insert_ne (different within)
  | get | exists? | ttl =>
      rfl
  | size | approxMemoryBytes | stats | uptimeSeconds | publish =>
      exact within.elim

/-- Commands other than the four leave the keys they do not update alone. -/
theorem lookup_of_not_updatesInPlace
    (other : cmd.name ∉ Dispatcher.wholeKeyHandlers.map Prod.fst)
    (elsewhere : ¬ cmd.UpdatesInPlace key) :
    (backend.dispatch now cmd).2.store.data.lookup key =
      backend.store.data.lookup key := by
  cases write : AofPersistence.isWriteCommand cmd.name with
  | false =>
      rw [dispatch_store_of_not_write write]
  | true =>
      have clear : CrlfFree cmd.name :=
        Dispatcher.crlfFree_of_isRegistered
          (Dispatcher.isRegistered_of_write backend.broker.isSome write)
      have modifies :=
        Dispatcher.dispatch_of_writeHandlers backend.broker.isSome
          (fun name program =>
            name ∈ Dispatcher.inPlaceHandlers.map Prod.fst ∧
              program.Always
                (Call.Modifies (cmd.args.take 1))
                (fun _ => True) (fun _ => True))
          (fun found member same =>
            have inPlace :=
              Dispatcher.mem_inPlaceHandlers member (same ▸ other)
            ⟨List.mem_map_of_mem inPlace,
              Dispatcher.inPlaceHandlers_modifies clear found inPlace⟩)
          write
      have absent : key ∉ cmd.args.take 1 := by
        intro member
        refine elsewhere ⟨modifies.1, ?_⟩
        cases shape : cmd.args with
        | nil =>
            simp [shape] at member
        | cons first later =>
            simp only [shape, List.take_succ_cons, List.take_zero,
              List.mem_singleton] at member
            rw [member]
            rfl
      refine modifies.2.invariant
        (fun later : Backend =>
          later.store.data.lookup key = backend.store.data.lookup key)
        ?_ rfl
      intro call later may same
      rw [step_lookup_of_within may.within absent, same]

/-- One of the twelve commands on a live key rewrites its entry. -/
theorem dispatch_rewritten
    (live : backend.store.liveEntry now key = some entry)
    (inPlace : cmd.UpdatesInPlace key) :
    Rewritten cmd key entry.value (backend.dispatch now cmd) := by
  have value : backend.store.get now key = some entry.value := by
    rw [KvStore.get, live]
    rfl
  have names :
      ∀ name ∈ Dispatcher.inPlaceHandlers.map Prod.fst,
        AofPersistence.isWriteCommand name = true ∧
          name ∉ Dispatcher.wholeKeyHandlers.map Prod.fst := by
    decide
  obtain ⟨write, other⟩ := names cmd.name inPlace.1
  exact Dispatcher.dispatch_of_writeHandlers backend.broker.isSome
    (fun _ program =>
      Rewritten cmd key entry.value (backend.exec now program))
    (fun found member same =>
      Dispatcher.inPlaceHandlers_rewritten value inPlace.2 found
        (Dispatcher.mem_inPlaceHandlers member (same ▸ other)) same)
    write

/-- What has content cannot lose all of it and none of it. -/
theorem not_removesNothing_of_removesAll
    {value : Value}
    (content : value.isEmptyCollection = false)
    (all : cmd.RemovesAll value) :
    ¬ cmd.RemovesNothing value := by
  cases value with
  | string data =>
      exact all.elim
  | list elements =>
      exact id
  | set members =>
      intro nothing
      obtain ⟨member, listed⟩ :=
        List.exists_mem_of_ne_nil members.members
          (by simpa [Value.isEmptyCollection] using content)
      exact nothing.2 member (all.2 member listed) listed
  | hash fields =>
      intro nothing
      have filled : fields.keys ≠ [] := by
        simpa [AList.keys, List.keys, Value.isEmptyCollection]
          using content
      obtain ⟨field, listed⟩ :=
        List.exists_mem_of_ne_nil fields.keys filled
      exact nothing.2 field (all.2 field listed)
        (AList.mem_keys.mpr listed)

/--
Every command but SET, EXPIRE, PERSIST and DEL keeps the deadline of a live key,
unless it is one of the twelve that update a value in place, the key has a
deadline, and the command succeeds and leaves something of the value.
-/
theorem expiryKept_iff
    (backend : Backend)
    (now : TimePoint)
    (cmd : Command)
    (key : Bytes)
    (entry : Entry)
    (reachable : backend.store.Reachable)
    (live : backend.store.liveEntry now key = some entry)
    (other : cmd.name ∉ Dispatcher.wholeKeyHandlers.map Prod.fst) :
    ExpiryKept cmd key entry (backend.dispatch now cmd).2.store ↔
      ¬ (cmd.UpdatesInPlace key ∧
        ¬ Failed (backend.dispatch now cmd).1 ∧
        ¬ cmd.RemovesAll entry.value ∧
        entry.expiresAt ≠ none) := by
  obtain ⟨found, -⟩ := KvStore.liveEntry_eq_some_iff.mp live
  have unchanged
      (same :
        (backend.dispatch now cmd).2.store.data.lookup key =
          backend.store.data.lookup key) :
      ExpiryKept cmd key entry (backend.dispatch now cmd).2.store := by
    rw [found] at same
    refine ⟨fun later lookup => ?_, fun _ _ => same⟩
    rw [same] at lookup
    cases lookup
    rfl
  by_cases inPlace : cmd.UpdatesInPlace key
  · cases dispatch_rewritten live inPlace with
    | failed failed =>
        refine iff_of_true (unchanged ?_) fun loses =>
          loses.2.1 failed
        rw [store_unless_succeeds fun _ => failed.not_succeeds]
    | deleted removes _ lookup =>
        refine iff_of_true ⟨fun later present => ?_, fun _ nothing => ?_⟩
          fun loses => loses.2.2.1 removes
        · rw [lookup] at present
          cases present
        · have content :=
            reachable.noEmptyCollection key entry found
          exact absurd nothing
            (not_removesNothing_of_removesAll content removes)
    | stored stored leaves succeeded same lookup =>
        constructor
        · intro kept loses
          exact loses.2.2.2 (kept.expiresAt _ lookup).symm
        · intro keeps
          have timeless : entry.expiresAt = none := by
            by_contra deadline
            exact keeps ⟨inPlace, succeeded, leaves, deadline⟩
          refine ⟨fun later present => ?_, fun _ nothing => ?_⟩
          · rw [lookup] at present
            cases present
            exact timeless.symm
          · rw [lookup, same nothing, ← timeless]
  · refine iff_of_true (unchanged ?_) fun loses => inPlace loses.1
    exact lookup_of_not_updatesInPlace other inPlace

/-- LPOP of the only element deletes the key together with its deadline. -/
theorem expiryKept_lpop_last :
    let pushed := (initial.dispatch 0 ⟨ascii "RPUSH", [[107], [97]]⟩).2
    let timed :=
      (pushed.dispatch 0 ⟨ascii "EXPIRE", [[107], ascii "100"]⟩).2
    let pop : Command := ⟨ascii "LPOP", [[107]]⟩
    let entry : Entry := ⟨.list [[97]], some 100000000000⟩
    ExpiryKept pop [107] entry (timed.dispatch 1 pop).2.store := by
  intro pushed timed pop entry
  have reachable : timed.store.Reachable :=
    .dispatch 0 _ (.dispatch 0 _ .empty)
  refine (expiryKept_iff timed 1 pop [107] entry reachable rfl
    (by decide)).mpr ?_
  exact fun loses => loses.2.2.1 ⟨Or.inl rfl, rfl⟩

/--
INCR on a counter with a deadline of 100 seconds succeeds and leaves a counter
that never expires.
-/
theorem incr_drops_expiry :
    let stored :=
      (initial.dispatch 0
        ⟨ascii "SET", [[107], ascii "1", ascii "EX", ascii "100"]⟩).2
    let incr : Command := ⟨ascii "INCR", [[107]]⟩
    let entry : Entry := ⟨.string (ascii "1"), some 100000000000⟩
    stored.store.Reachable ∧
      stored.store.liveEntry 1 [107] = some entry ∧
      (stored.dispatch 1 incr).1 = .ok (.integer 2) ∧
      (stored.dispatch 1 incr).2.store.data.lookup [107] =
        some ⟨.string (ascii "2"), none⟩ ∧
      ¬ ExpiryKept incr [107] entry (stored.dispatch 1 incr).2.store := by
  intro stored incr entry
  have lookup :
      (stored.dispatch 1 incr).2.store.data.lookup [107] =
        some ⟨.string (ascii "2"), none⟩ :=
    rfl
  refine ⟨.dispatch 0 _ .empty, rfl, rfl, lookup, fun kept => ?_⟩
  exact Option.some_ne_none _ (kept.expiresAt _ lookup).symm

end Backend

end Vortek

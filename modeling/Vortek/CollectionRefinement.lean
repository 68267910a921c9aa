import Vortek.CollectionLoops
import Vortek.CollectionViews

namespace Vortek

open CallScript DecimalText

/-!
# Collection commands refine the plain model

Every collection command, SET without an expiry, DEL and EXISTS are answered as
the plain model says, and leave a store that represents the new contents.  So a
client cannot tell an absent key from an empty collection.

LRANGE and LINDEX convert the length of a list to `int64_t`, so the lists are
assumed to have fewer than `2 ^ 63` elements.
-/

section WholeKeys

variable (now : TimePoint) {backend : Backend} {plain : PlainStore}

/-- The flag loop of SET when no flag takes an operand. -/
theorem parseSetFlags_plain
    {flags : List Bytes}
    (operandFree :
      ∀ flag ∈ flags, upper flag ≠ ascii "EX" ∧ upper flag ≠ ascii "PX")
    (options : SetOptions) :
    parseSetFlags flags options =
      if flags.all fun flag =>
          upper flag = ascii "NX" || upper flag = ascii "XX" then
        .ok { options with
          nx := options.nx ||
            flags.any fun flag => upper flag = ascii "NX"
          xx := options.xx ||
            flags.any fun flag => upper flag = ascii "XX" }
      else
        .error (err "ERR syntax error") := by
  induction flags generalizing options with
  | nil =>
      simp [parseSetFlags]
  | cons flag later inductionHypothesis =>
      obtain ⟨⟨noSeconds, noMillis⟩, rest⟩ :=
        List.forall_mem_cons.mp operandFree
      have differ : ascii "NX" ≠ ascii "XX" := by
        decide
      unfold parseSetFlags
      by_cases isNx : upper flag = ascii "NX"
      · rw [if_pos isNx, inductionHypothesis rest]
        simp [isNx, differ]
      · rw [if_neg isNx]
        by_cases isXx : upper flag = ascii "XX"
        · rw [if_pos isXx, inductionHypothesis rest]
          simp [isXx, differ.symm]
        · rw [if_neg isXx, if_neg noSeconds, if_neg noMillis]
          simp [isNx, isXx]

/-- SET assigns the string, whatever the key held. -/
theorem follows_cmdSet
    (represents : backend.store.Represents plain)
    (key value : Bytes)
    (flags : PlainFlags) :
    Follows
      (backend.exec now
        (cmdSet ⟨ascii "SET", key :: value :: flags.texts⟩))
      (plain.assign key value flags.texts) := by
  have present := represents.exists?_eq now key
  simp only [cmdSet, parseSetFlags_plain flags.plain, SetOptions.initial,
    Bool.false_or, PlainStore.assign]
  generalize (flags.texts.any fun flag => upper flag = ascii "NX") = nx
  generalize (flags.texts.any fun flag => upper flag = ascii "XX") = xx
  cases flags.texts.all fun flag =>
      upper flag = ascii "NX" || upper flag = ascii "XX" with
  | false =>
      exact follows_pure represents rfl
  | true =>
      cases both : nx && xx with
      | true =>
          simp only [both, if_true]
          exact follows_pure represents rfl
      | false =>
          simp only [both, if_true, Backend.exec, Bool.false_eq_true,
            if_false, Script.run_invoke_bind, Backend.step, present,
            Bool.not_not]
          cases blocked : nx && !(plain key).isVacant with
          | true =>
              exact follows_pure represents rfl
          | false =>
              cases lacking : xx && (plain key).isVacant with
              | true =>
                  exact follows_pure represents rfl
              | false =>
                  exact ⟨⟨_, rfl, rfl⟩, represents.set rfl rfl now⟩

/-- Deleting one key first leaves the others to be counted. -/
theorem card_filter_cons
    (plain : PlainStore)
    (key : Bytes)
    (keys : List Bytes) :
    ((key :: keys).toFinset.filter fun key =>
        !(plain key).isVacant).card =
      (keys.toFinset.filter fun other =>
          !(Function.update plain key (.list []) other).isVacant).card +
        if (plain key).isVacant then 0 else 1 := by
  have others :
      (keys.toFinset.filter fun other =>
          !(Function.update plain key (.list []) other).isVacant) =
        (keys.toFinset.filter fun other =>
          !(plain other).isVacant).erase key := by
    ext other
    by_cases same : other = key
    · subst same
      simp [Content.isVacant]
    · simp [same]
  rw [others, List.toFinset_cons, Finset.filter_insert]
  cases vacant : (plain key).isVacant with
  | true =>
      have absent :
          key ∉ keys.toFinset.filter fun other =>
            !(plain other).isVacant := by
        simp [vacant]
      rw [Finset.erase_eq_of_notMem absent]
      rfl
  | false =>
      have member :=
        Finset.mem_insert_self key
          (keys.toFinset.filter fun other => !(plain other).isVacant)
      rw [Bool.not_false, if_pos rfl,
        ← Finset.card_erase_add_one member, Finset.erase_insert_eq_erase]
      rfl

/-- The loop of DEL deletes every key, and counts the ones that were there. -/
theorem exec_delKeys
    (represents : backend.store.Represents plain)
    (keys : List Bytes) :
    ∃ later,
      backend.exec now (delKeys keys) =
          (.ok (toInt64
            (keys.toFinset.filter fun key =>
              !(plain key).isVacant).card), later) ∧
        later.store.Represents (plain.remove keys).2 := by
  induction keys generalizing backend plain with
  | nil =>
      refine ⟨backend, rfl, ?_⟩
      simpa [PlainStore.remove] using represents
  | cons key keys inductionHypothesis =>
      have vacant : (Content.list []).isVacant = true :=
        rfl
      obtain ⟨later, ran, matching⟩ :=
        @inductionHypothesis
          { backend with store := (backend.store.del now key).2 } _
          (represents.del vacant now)
      refine ⟨later, ?_, ?_⟩
      · have deleted := backend.store.del_fst now key
        have alive := represents.exists?_eq now key
        rw [KvStore.exists?] at alive
        rw [alive] at deleted
        refine (Script.run_bind_of_ok ran fun rest =>
          pure ((backend.store.del now key).1 + rest)).trans ?_
        rw [card_filter_cons, toInt64_add, deleted, Int64.add_comm]
        cases (plain key).isVacant <;> rfl
      · convert matching using 1
        funext other
        by_cases same : other = key <;>
          simp [PlainStore.remove, same, Function.update_apply]

/-- DEL removes the keys and counts those that were there. -/
theorem follows_cmdDel
    (represents : backend.store.Represents plain)
    (first : Bytes)
    (more : List Bytes) :
    Follows (backend.exec now (cmdDel ⟨ascii "DEL", first :: more⟩))
      (plain.remove (first :: more)) := by
  obtain ⟨later, ran, matching⟩ :=
    exec_delKeys now represents (first :: more)
  have answered :
      backend.exec now (cmdDel ⟨ascii "DEL", first :: more⟩) =
        (.ok (.integer (toInt64
          ((first :: more).toFinset.filter fun key =>
            !(plain key).isVacant).card)), later) :=
    Script.run_bind_of_ok ran fun count => pure (RespValue.integer count)
  rw [answered]
  exact ⟨⟨_, rfl, rfl⟩, matching⟩

/-- The loop of EXISTS counts the keys that are there. -/
theorem exec_countExisting
    (represents : backend.store.Represents plain)
    (keys : List Bytes) :
    backend.exec now (countExisting keys) =
      (.ok (toInt64
        (keys.filter fun key => !(plain key).isVacant).length),
        backend) := by
  induction keys with
  | nil =>
      rfl
  | cons key keys inductionHypothesis =>
      have alive := represents.exists?_eq now key
      refine (Script.run_bind_of_ok inductionHypothesis fun rest =>
        pure ((if backend.store.exists? now key then 1 else 0) +
          rest)).trans ?_
      rw [alive, List.filter_cons]
      cases (plain key).isVacant with
      | false =>
          simp only [Bool.not_false, if_true, List.length_cons,
            toInt64_succ]
          rw [Int64.add_comm]
          rfl
      | true =>
          simp only [Bool.not_true, Bool.false_eq_true, if_false,
            Int64.zero_add]
          rfl

/-- EXISTS counts the keys that are there, and repetitions twice. -/
theorem follows_cmdExists
    (represents : backend.store.Represents plain)
    (first : Bytes)
    (more : List Bytes) :
    Follows (backend.exec now (cmdExists ⟨ascii "EXISTS", first :: more⟩))
      (plain.countPresent (first :: more), plain) := by
  have answered :
      backend.exec now (cmdExists ⟨ascii "EXISTS", first :: more⟩) =
        (.ok (.integer (toInt64
          ((first :: more).filter fun key =>
            !(plain key).isVacant).length)), backend) :=
    Script.run_bind_of_ok
      (exec_countExisting now represents (first :: more))
      fun count => pure (RespValue.integer count)
  rw [answered]
  exact ⟨⟨_, rfl, rfl⟩, represents⟩

end WholeKeys

section Commands

variable (now : TimePoint) {backend : Backend} {plain : PlainStore}
variable (represents : backend.store.Represents plain)

include represents

/-- A push adds its elements one by one at one end. -/
theorem follows_pushCommand
    {push : List Bytes → Bytes → List Bytes}
    {pushed : List Bytes → List Bytes}
    (name key first : Bytes)
    (more : List Bytes)
    (pushes : ∀ list element, push list element ≠ [])
    (folds : ∀ list, (first :: more).foldl push list = pushed list) :
    Follows
      (backend.exec now (pushCommand push ⟨name, key :: first :: more⟩))
      (PlainStore.update Content.asList .list plain key fun elements =>
        (.count (pushed elements).length, pushed elements)) := by
  refine follows_grow listCollection
    (fun list => (first :: more).foldl push list)
    (fun list => .integer (toInt64 ((first :: more).foldl push list).length))
    represents rfl folds ?_ ?_
  · intro list
    simpa [Value.isEmptyCollection, listCollection, listType] using
      foldl_push_ne_nil pushes list first more
  · intro list
    rw [folds]
    rfl

/-- LPOP and RPOP: the pop finds an element in every list that is stored. -/
theorem follows_popCommand
    {pop : List Bytes → Option (Bytes × List Bytes)}
    {tip? : List Bytes → Option Bytes}
    {rest : List Bytes → List Bytes}
    (name key : Bytes)
    (pops :
      ∀ list,
        list ≠ [] →
        ∃ element,
          tip? list = some element ∧
            pop list = some (element, rest list))
    (ends : tip? [] = none)
    (empty : rest [] = []) :
    Follows (backend.exec now (popCommand pop ⟨name, [key]⟩))
      (PlainStore.update Content.asList .list plain key fun elements =>
        (.element (tip? elements), rest elements)) := by
  refine follows_shrink listCollection represents ?_ ?_ ?_
  · change (Reply.element (tip? [])).Allows .null
    rw [ends]
    rfl
  · change (Content.list (rest [])).isVacant = true
    rw [empty]
    rfl
  · intro list full
    have filled : list ≠ [] := by
      simpa [listCollection, Content.isVacant] using full
    obtain ⟨element, last, popped⟩ := pops list filled
    refine ⟨rest list, .bulkString element, ?_, rfl, ?_⟩
    · simp only [popped]
      rfl
    · change (Reply.element (tip? list)).Allows _
      rw [last]
      rfl

theorem follows_cmdLlen
    (key : Bytes) :
    Follows (backend.exec now (cmdLlen ⟨ascii "LLEN", [key]⟩))
      (PlainStore.query Content.asList plain key fun elements =>
        .count elements.length) :=
  follows_query listCollection represents rfl fun _ _ => ⟨_, rfl, rfl⟩

/-- LRANGE is a slice with both ends included. -/
theorem follows_cmdLrange
    {key : Bytes}
    (short :
      ∀ elements, plain key = .list elements → elements.length < 2 ^ 63)
    (start stop : Index) :
    Follows
      (backend.exec now
        (cmdLrange ⟨ascii "LRANGE", [key, start.text, stop.text]⟩))
      (PlainStore.query Content.asList plain key fun elements =>
        .exactly (memberArray (slice elements start.value stop.value))) := by
  refine follows_query listCollection represents ?_ ?_
  · simp [slice, Reply.Allows, memberArray, listCollection]
  · intro elements stored
    refine ⟨memberArray (slice elements start.value stop.value), ?_, rfl⟩
    simp only [start.reads, stop.reads,
      map_rangePositions (short elements stored)]
    rfl

theorem follows_cmdLindex
    {key : Bytes}
    (short :
      ∀ elements, plain key = .list elements → elements.length < 2 ^ 63)
    (index : Index) :
    Follows
      (backend.exec now (cmdLindex ⟨ascii "LINDEX", [key, index.text]⟩))
      (PlainStore.query Content.asList plain key fun elements =>
        .element (elementAtIndex elements index.value)) := by
  refine follows_query listCollection represents ?_ ?_
  · simp [elementAtIndex, Reply.Allows, Reply.element, listCollection]
  · intro elements stored
    refine ⟨_, ?_, elementAtIndex_eq (short elements stored) index.value⟩
    simp only [index.reads]
    split <;> rfl

/-- SADD is a union, and counts what it adds. -/
theorem follows_cmdSadd
    (key first : Bytes)
    (more : List Bytes) :
    Follows
      (backend.exec now (cmdSadd ⟨ascii "SADD", key :: first :: more⟩))
      (PlainStore.update Content.asSet .set plain key fun members =>
        (.count ((members ∪ (first :: more).toFinset).card - members.card),
          members ∪ (first :: more).toFinset)) := by
  refine follows_grow setCollection
    (fun set => (addMembers set (first :: more)).1)
    (fun set => .integer (addMembers set (first :: more)).2)
    represents rfl ?_ ?_ ?_
  · exact fun set => toFinset_addMembers set (first :: more)
  · intro set
    have member : first ∈ (addMembers set (first :: more)).1.members :=
      mem_addMembers.mpr (Or.inr List.mem_cons_self)
    simpa [Value.isEmptyCollection, setCollection, setType] using
      List.ne_nil_of_mem member
  · intro set
    rw [addMembers_growth]
    rfl

/-- SREM is a difference, and counts what it removes. -/
theorem follows_cmdSrem
    (key first : Bytes)
    (more : List Bytes) :
    Follows
      (backend.exec now (cmdSrem ⟨ascii "SREM", key :: first :: more⟩))
      (PlainStore.update Content.asSet .set plain key fun members =>
        (.count (members.card - (members \ (first :: more).toFinset).card),
          members \ (first :: more).toFinset)) := by
  refine follows_shrink setCollection represents ?_ ?_ fun set _ => ?_
  · simp [setCollection, Reply.count, Reply.Allows, toInt64]
  · simp [setCollection, Content.isVacant]
  · refine ⟨(removeMembers set (first :: more)).1,
      .integer (removeMembers set (first :: more)).2, rfl,
      toFinset_removeMembers set (first :: more), ?_⟩
    rw [removeMembers_shrinkage]
    rfl

theorem follows_cmdSmembers
    (key : Bytes) :
    Follows (backend.exec now (cmdSmembers ⟨ascii "SMEMBERS", [key]⟩))
      (PlainStore.query Content.asSet plain key fun members =>
        .members members) :=
  follows_query setCollection represents ⟨[], List.nodup_nil, rfl, rfl⟩
    fun set _ => ⟨_, rfl, set.members, set.nodup, rfl, rfl⟩

theorem follows_cmdSismember
    (key member : Bytes) :
    Follows
      (backend.exec now (cmdSismember ⟨ascii "SISMEMBER", [key, member]⟩))
      (PlainStore.query Content.asSet plain key fun members =>
        .truth (decide (member ∈ members))) := by
  refine follows_query setCollection represents rfl fun set _ => ?_
  refine ⟨_, rfl, ?_⟩
  have same :
      set.contains member = decide (member ∈ set.members.toFinset) := by
    rw [Bool.eq_iff_iff, ByteSet.contains_iff]
    simp
  rw [same]
  rfl

theorem follows_cmdScard
    (key : Bytes) :
    Follows (backend.exec now (cmdScard ⟨ascii "SCARD", [key]⟩))
      (PlainStore.query Content.asSet plain key fun members =>
        .count members.card) := by
  refine follows_query setCollection represents rfl fun set _ => ?_
  refine ⟨_, rfl, ?_⟩
  rw [← List.toFinset_card_of_nodup set.nodup]
  rfl

/-- HSET overwrites fields, and counts the new ones. -/
theorem follows_cmdHset
    (key field value : Bytes)
    (more : List (Bytes × Bytes)) :
    Follows
      (backend.exec now
        (cmdHset ⟨ascii "HSET", key :: field :: value ::
          more.flatMap fun pair => [pair.1, pair.2]⟩))
      (PlainStore.update Content.asHash .hash plain key fun fields =>
        let grown := ((field, value) :: more).foldl
          (fun hash pair => hash.insert pair.1 pair.2) fields
        (.count (grown.keys.card - fields.keys.card), grown)) := by
  have even :
      (more.flatMap fun pair => [pair.1, pair.2]).length % 2 = 0 := by
    simp
  have assigns := toFinmap_assignFields ((field, value) :: more)
  have counts := assignFields_growth ((field, value) :: more)
  simp only [List.flatMap_cons, List.cons_append, List.nil_append]
    at assigns counts
  generalize (more.flatMap fun pair : Bytes × Bytes => [pair.1, pair.2]) =
    flat at even assigns counts ⊢
  simp only [cmdHset, even, if_true]
  refine follows_grow hashCollection
    (fun hash => (assignFields hash (field :: value :: flat)).1)
    (fun hash => .integer (assignFields hash (field :: value :: flat)).2)
    represents Finmap.empty_toFinmap assigns ?_ ?_
  · intro hash
    simpa [Value.isEmptyCollection, hashCollection, hashType] using
      entries_assignFields_ne_nil hash field value flat
  · intro hash
    rw [counts]
    rfl

theorem follows_cmdHget
    (key field : Bytes) :
    Follows (backend.exec now (cmdHget ⟨ascii "HGET", [key, field]⟩))
      (PlainStore.query Content.asHash plain key fun fields =>
        .element (fields.lookup field)) := by
  refine follows_query hashCollection represents rfl fun hash _ => ?_
  change ∃ reply, _ ∧
    (Reply.element (hash.toFinmap.lookup field)).Allows reply
  rw [Finmap.lookup_toFinmap]
  cases hash.lookup field with
  | none =>
      exact ⟨.null, by simp only, rfl⟩
  | some value =>
      exact ⟨.bulkString value, by simp only, rfl⟩

/-- HDEL erases fields, and counts those that were there. -/
theorem follows_cmdHdel
    (key first : Bytes)
    (more : List Bytes) :
    Follows
      (backend.exec now (cmdHdel ⟨ascii "HDEL", key :: first :: more⟩))
      (PlainStore.update Content.asHash .hash plain key fun fields =>
        let shrunk := (first :: more).foldl
          (fun hash field => hash.erase field) fields
        (.count (fields.keys.card - shrunk.keys.card), shrunk)) := by
  refine follows_shrink hashCollection represents ?_ ?_ fun hash _ => ?_
  · change Reply.Allows (.count (0 - _)) _
    rw [Nat.zero_sub]
    rfl
  · have nothing :
        (first :: more).foldl (fun hash field => hash.erase field)
            (∅ : Finmap fun _ : Bytes => Bytes) = ∅ := by
      rw [← Finmap.empty_toFinmap, ← toFinmap_eraseFields,
        eraseFields_of_disjoint fun _ _ => AList.notMem_empty _]
    change (Content.hash (List.foldl _ ∅ _)).isVacant = true
    rw [nothing]
    rfl
  · refine ⟨(eraseFields hash (first :: more)).1,
      .integer (eraseFields hash (first :: more)).2, rfl,
      toFinmap_eraseFields hash (first :: more), ?_⟩
    rw [eraseFields_shrinkage]
    rfl

theorem follows_cmdHgetall
    (key : Bytes) :
    Follows (backend.exec now (cmdHgetall ⟨ascii "HGETALL", [key]⟩))
      (PlainStore.query Content.asHash plain key fun fields =>
        .fields fields) :=
  follows_query hashCollection represents ⟨∅, rfl, rfl⟩
    fun hash _ => ⟨_, rfl, hash, rfl, rfl⟩

theorem follows_cmdHexists
    (key field : Bytes) :
    Follows (backend.exec now (cmdHexists ⟨ascii "HEXISTS", [key, field]⟩))
      (PlainStore.query Content.asHash plain key fun fields =>
        .truth (fields.lookup field).isSome) :=
  follows_query hashCollection represents rfl fun _ _ => ⟨_, rfl, rfl⟩

theorem follows_cmdHlen
    (key : Bytes) :
    Follows (backend.exec now (cmdHlen ⟨ascii "HLEN", [key]⟩))
      (PlainStore.query Content.asHash plain key fun fields =>
        .count fields.keys.card) := by
  refine follows_query hashCollection represents rfl fun hash _ => ?_
  refine ⟨_, rfl, ?_⟩
  have size : hash.entries.length = hash.toFinmap.keys.card := by
    rw [card_keys_toFinmap]
    exact (List.length_map _).symm
  rw [size]
  rfl

end Commands

/-- No list is longer than this. -/
def PlainStore.ListsWithin (bound : Nat) (plain : PlainStore) : Prop :=
  ∀ key elements, plain key = .list elements → elements.length ≤ bound

/-- The handler that the command is registered with. -/
def CollectionCommand.handler : CollectionCommand → Handler
  | .lpush .. => cmdLpush
  | .rpush .. => cmdRpush
  | .lpop .. => cmdLpop
  | .rpop .. => cmdRpop
  | .llen .. => cmdLlen
  | .lrange .. => cmdLrange
  | .lindex .. => cmdLindex
  | .sadd .. => cmdSadd
  | .srem .. => cmdSrem
  | .smembers .. => cmdSmembers
  | .sismember .. => cmdSismember
  | .scard .. => cmdScard
  | .hset .. => cmdHset
  | .hget .. => cmdHget
  | .hdel .. => cmdHdel
  | .hgetall .. => cmdHgetall
  | .hexists .. => cmdHexists
  | .hlen .. => cmdHlen
  | .set .. => cmdSet
  | .del .. => cmdDel
  | .exists? .. => cmdExists

/-- How many elements the command adds to a list. -/
def CollectionCommand.pushed : CollectionCommand → Nat
  | .lpush _ _ more => more.length + 1
  | .rpush _ _ more => more.length + 1
  | _ => 0

/-- How many elements the commands add to lists. -/
def CollectionCommand.totalPushed : List CollectionCommand → Nat
  | [] => 0
  | command :: later => command.pushed + totalPushed later

/-- A registered command is what its handler does. -/
theorem follows_dispatch
    {now : TimePoint}
    {backend : Backend}
    {cmd : Command}
    {reference : Reply × PlainStore}
    (handler : Handler)
    (found :
      ∀ withBroker,
        (Dispatcher.makeDefault withBroker).handlers.lookup cmd.name =
          some handler)
    (follows : Follows (backend.exec now (handler cmd)) reference) :
    Follows (backend.dispatch now cmd) reference := by
  unfold Backend.dispatch Dispatcher.dispatch
  rw [found]
  exact follows

/-- Every command is answered as the plain model says. -/
theorem follows_apply
    (now : TimePoint)
    {backend : Backend}
    {plain : PlainStore}
    {bound : Nat}
    (represents : backend.store.Represents plain)
    (within : plain.ListsWithin bound)
    (fits : bound < 2 ^ 63)
    (command : CollectionCommand) :
    Follows (backend.dispatch now command.toCommand)
      (plain.apply command) := by
  have short
      (key : Bytes)
      (elements : List Bytes)
      (stored : plain key = .list elements) :
      elements.length < 2 ^ 63 :=
    Nat.lt_of_le_of_lt (within key elements stored) fits
  refine follows_dispatch command.handler ?_ ?_
  · intro withBroker
    cases command <;> cases withBroker <;> rfl
  · cases command with
    | lpush key first more =>
        exact follows_pushCommand now represents (ascii "LPUSH") key first
          more (fun list element => List.cons_ne_nil element list)
          fun list => foldl_pushFront list (first :: more)
    | rpush key first more =>
        exact follows_pushCommand now represents (ascii "RPUSH") key first
          more (fun list element => by simp)
          fun list => foldl_pushBack list (first :: more)
    | lpop key =>
        refine follows_popCommand now represents (ascii "LPOP") key ?_ rfl rfl
        intro list filled
        obtain ⟨element, rest, rfl⟩ := List.exists_cons_of_ne_nil filled
        exact ⟨element, rfl, rfl⟩
    | rpop key =>
        refine follows_popCommand now represents (ascii "RPOP") key ?_ rfl rfl
        intro list filled
        have last := List.getLast?_eq_some_getLast filled
        exact ⟨_, last, by simp only [popBack, last]⟩
    | llen key =>
        exact follows_cmdLlen now represents key
    | lrange key start stop =>
        exact follows_cmdLrange now represents (short key) start stop
    | lindex key index =>
        exact follows_cmdLindex now represents (short key) index
    | sadd key first more =>
        exact follows_cmdSadd now represents key first more
    | srem key first more =>
        exact follows_cmdSrem now represents key first more
    | smembers key =>
        exact follows_cmdSmembers now represents key
    | sismember key member =>
        exact follows_cmdSismember now represents key member
    | scard key =>
        exact follows_cmdScard now represents key
    | hset key field value more =>
        exact follows_cmdHset now represents key field value more
    | hget key field =>
        exact follows_cmdHget now represents key field
    | hdel key first more =>
        exact follows_cmdHdel now represents key first more
    | hgetall key =>
        exact follows_cmdHgetall now represents key
    | hexists key field =>
        exact follows_cmdHexists now represents key field
    | hlen key =>
        exact follows_cmdHlen now represents key
    | set key value flags =>
        exact follows_cmdSet now represents key value flags
    | del first more =>
        exact follows_cmdDel now represents first more
    | exists? first more =>
        exact follows_cmdExists now represents first more

section Lengths

variable {plain : PlainStore} {bound : Nat}

/-- Only the updated key has a new list. -/
theorem PlainStore.listsWithin_update
    {Collection : Type}
    {view : Content → Option Collection}
    {wrap : Collection → Content}
    {key : Bytes}
    {change : Collection → Reply × Collection}
    (within : plain.ListsWithin bound)
    (more : Nat)
    (changed :
      ∀ collection elements,
        view (plain key) = some collection →
        wrap (change collection).2 = .list elements →
        elements.length ≤ bound + more) :
    (update view wrap plain key change).2.ListsWithin (bound + more) := by
  intro other elements stored
  have kept
      (unchanged : plain other = .list elements) :
      elements.length ≤ bound + more :=
    Nat.le_add_right_of_le (within other elements unchanged)
  unfold update access at stored
  cases seen : view (plain key) with
  | none =>
      rw [seen] at stored
      exact kept stored
  | some collection =>
      rw [seen] at stored
      change Function.update plain key _ other = _ at stored
      by_cases same : other = key
      · subst same
        rw [Function.update_self] at stored
        exact changed collection elements seen stored
      · rw [Function.update_of_ne same] at stored
        exact kept stored

/-- A query changes nothing. -/
theorem PlainStore.query_snd
    {Collection : Type}
    (view : Content → Option Collection)
    (plain : PlainStore)
    (key : Bytes)
    (answer : Collection → Reply) :
    (query view plain key answer).2 = plain := by
  unfold query access
  cases view (plain key) <;> rfl

theorem length_le_of_asList
    (within : plain.ListsWithin bound)
    {key : Bytes}
    {elements : List Bytes}
    (seen : (plain key).asList = some elements) :
    elements.length ≤ bound := by
  cases stored : plain key with
  | list found =>
      rw [stored] at seen
      cases seen
      exact within key elements stored
  | string data | set members | hash fields =>
      rw [stored] at seen
      have nothing : elements = [] := by
        simp only [Content.asList] at seen
        split at seen <;> simp_all
      simp [nothing]

/-- A command makes no list longer than by what it pushes. -/
theorem listsWithin_apply
    (within : plain.ListsWithin bound)
    (command : CollectionCommand) :
    (plain.apply command).2.ListsWithin (bound + command.pushed) := by
  cases command with
  | lpush key first more | rpush key first more =>
      refine PlainStore.listsWithin_update within _ ?_
      intro elements pushed seen stored
      cases stored
      have before := length_le_of_asList within seen
      simp [CollectionCommand.pushed]
      omega
  | lpop key | rpop key =>
      refine PlainStore.listsWithin_update within _ ?_
      intro elements left seen stored
      cases stored
      have before := length_le_of_asList within seen
      simp
      omega
  | sadd key first more | srem key first more
  | hset key field value more | hdel key first more =>
      refine PlainStore.listsWithin_update within _ ?_
      intro members elements seen stored
      cases stored
  | llen key | lrange key start stop | lindex key index
  | smembers key | sismember key member | scard key
  | hget key field | hgetall key | hexists key field | hlen key =>
      simp only [PlainStore.apply, PlainStore.query_snd]
      exact within
  | exists? first more =>
      exact within
  | set key value flags =>
      intro other elements stored
      simp only [PlainStore.apply, PlainStore.assign] at stored
      split at stored
      · exact within other elements stored
      · split at stored
        · exact within other elements stored
        · split at stored
          · exact within other elements stored
          · change Function.update plain key _ other = _ at stored
            by_cases same : other = key
            · subst same
              rw [Function.update_self] at stored
              cases stored
            · rw [Function.update_of_ne same] at stored
              exact within other elements stored
  | del first more =>
      intro other elements stored
      simp only [PlainStore.apply, PlainStore.remove] at stored
      split at stored
      · cases stored
        exact Nat.zero_le _
      · exact within other elements stored

end Lengths

/-- The outcome is a reply that the plain model allows. -/
def Reply.Answers
    (wanted : Reply)
    (outcome : Except CppException RespValue) :
    Prop :=
  ∃ reply, outcome = .ok reply ∧ wanted.Allows reply

/-- A represented plain model has no empty collections. -/
theorem KvStore.Represents.noEmptyCollection
    {store : KvStore}
    {plain : PlainStore}
    (represents : store.Represents plain) :
    store.NoEmptyCollection := by
  intro key entry stored
  have found := represents.matching key
  rw [stored] at found
  obtain ⟨stands, full⟩ := found
  rw [← Value.isVacant_content, stands]
  exact full

/-- A run from any represented contents is answered as the model says. -/
theorem Backend.dispatchEach_follows
    {backend : Backend}
    {plain : PlainStore}
    {bound : Nat}
    (represents : backend.store.Represents plain)
    (within : plain.ListsWithin bound)
    (commands : List (TimePoint × CollectionCommand))
    (fits :
      bound +
        CollectionCommand.totalPushed (commands.map Prod.snd) < 2 ^ 63) :
    List.Forall₂ Reply.Answers
        (plain.applyAll (commands.map Prod.snd)).1
        (backend.dispatchEach
          (commands.map (Prod.map id CollectionCommand.toCommand))).1 ∧
      (backend.dispatchEach
          (commands.map
            (Prod.map id CollectionCommand.toCommand))).2.store.Represents
        (plain.applyAll (commands.map Prod.snd)).2 := by
  induction commands generalizing backend plain bound with
  | nil =>
      exact ⟨List.Forall₂.nil, represents⟩
  | cons item later inductionHypothesis =>
      obtain ⟨now, command⟩ := item
      simp only [List.map_cons, CollectionCommand.totalPushed] at fits
      have follows := follows_apply now represents within
        (Nat.lt_of_le_of_lt (Nat.le_add_right _ _) fits) command
      obtain ⟨answered, matching⟩ :=
        inductionHypothesis follows.represents
          (listsWithin_apply within command)
          (by rwa [Nat.add_assoc])
      exact ⟨List.Forall₂.cons follows.answered answered, matching⟩

/--
From an empty store, every command is answered as the plain model says, and the
store never holds an empty collection.
-/
theorem Backend.collections_refine_plain
    (backend : Backend)
    (fresh : backend.store = KvStore.empty)
    (commands : List (TimePoint × CollectionCommand))
    (fits :
      CollectionCommand.totalPushed (commands.map Prod.snd) < 2 ^ 63) :
    let reference := PlainStore.empty.applyAll (commands.map Prod.snd)
    let actual :=
      backend.dispatchEach
        (commands.map (Prod.map id CollectionCommand.toCommand))
    List.Forall₂ Reply.Answers reference.1 actual.1 ∧
      actual.2.store.Represents reference.2 ∧
      actual.2.store.NoEmptyCollection := by
  have represents : backend.store.Represents PlainStore.empty := by
    rw [fresh]
    exact KvStore.Represents.empty
  have within : PlainStore.empty.ListsWithin 0 := by
    intro key elements stored
    cases stored
    exact Nat.le_refl 0
  obtain ⟨answered, matching⟩ :=
    Backend.dispatchEach_follows represents within commands
      (by rwa [Nat.zero_add])
  exact ⟨answered, matching, matching.noEmptyCollection⟩

/-- A list is filled, read and emptied, and its key used for a set. -/
theorem Backend.collections_refine_plain_reused_key :
    let commands : List (TimePoint × CollectionCommand) :=
      [(1, .rpush (ascii "k") (ascii "a") [ascii "b"]),
        (2, .lpop (ascii "k")), (3, .rpop (ascii "k")),
        (4, .exists? (ascii "k") []),
        (5, .sadd (ascii "k") (ascii "m") [ascii "m"])]
    let reference := PlainStore.empty.applyAll (commands.map Prod.snd)
    let actual :=
      Backend.initial.dispatchEach
        (commands.map (Prod.map id CollectionCommand.toCommand))
    List.Forall₂ Reply.Answers reference.1 actual.1 ∧
      actual.2.store.Represents reference.2 ∧
      actual.2.store.NoEmptyCollection :=
  Backend.collections_refine_plain Backend.initial rfl _ (by decide)

end Vortek

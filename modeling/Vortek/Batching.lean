import Vortek.Dispatcher

namespace Vortek

open CallScript

/-!
# Variadic commands

LPUSH, RPUSH, SADD, SREM, HSET and HDEL take any number of elements, DEL and
EXISTS any number of keys.  Each of them does with a list of arguments what it
does with the first part of the list and then with the rest, at the same clock
reading, and the replies are combined by a fixed operation.  The commands that
remove elements delete a key that has become empty; then the rest finds no key
and answers zero, as the loop does that goes on with an empty collection.
-/

/-- The reply of a push is the length that the last part reports. -/
def laterReply (_ later : Int64) : Int64 :=
  later

/-- The reply of the other commands is a count. -/
def sumReply (earlier later : Int64) : Int64 :=
  earlier + later

/-- A command that takes any number of elements under one key. -/
structure Variadic where
  name : Bytes
  kind : Kind
  combine : Int64 → Int64 → Int64
  inPairs : Bool

/-- The commands that can be split into commands with one element each. -/
def variadicCommands : List Variadic :=
  [⟨ascii "LPUSH", .list, laterReply, false⟩,
    ⟨ascii "RPUSH", .list, laterReply, false⟩,
    ⟨ascii "SADD", .set, sumReply, false⟩,
    ⟨ascii "SREM", .set, sumReply, false⟩,
    ⟨ascii "HSET", .hash, sumReply, true⟩,
    ⟨ascii "HDEL", .hash, sumReply, false⟩]

/-- A list of elements that the command takes: not empty, in pairs for HSET. -/
def Variadic.Takes (command : Variadic) (elements : List Bytes) : Prop :=
  elements ≠ [] ∧ (command.inPairs = true → elements.length % 2 = 0)

/-- What a command has answered and left behind. -/
abbrev Outcome := Except CppException RespValue × Backend

/-- Both parts and the batch answer with integers, combined in this way. -/
def IntegerReplies
    (combine : Int64 → Int64 → Int64)
    (first second batch : Outcome) :
    Prop :=
  ∃ earlier later,
    first.1 = .ok (.integer earlier) ∧
      second.1 = .ok (.integer later) ∧
      batch.1 = .ok (.integer (combine earlier later))

/-- A batch under one key is its two parts, one after the other. -/
structure Batched
    (command : Variadic)
    (now : TimePoint)
    (key : Bytes)
    (before : Backend)
    (first second batch : Outcome) :
    Prop where
  state : batch.2 = second.2
  replies :
    (∀ value,
      before.store.get now key = some value →
      value.kind = command.kind) →
    IntegerReplies command.combine first second batch
  wrongType :
    ∀ value,
      before.store.get now key = some value →
      value.kind ≠ command.kind →
      first = (.ok kWrongType, before) ∧
        second = (.ok kWrongType, before) ∧
        batch = (.ok kWrongType, before)

/-- The command with all elements, and with some and then the others. -/
def Variadic.Batches
    (command : Variadic)
    (now : TimePoint)
    (key : Bytes)
    (backend : Backend)
    (xs ys : List Bytes) :
    Prop :=
  let first := backend.dispatch now ⟨command.name, key :: xs⟩
  Batched command now key backend first
    (first.2.dispatch now ⟨command.name, key :: ys⟩)
    (backend.dispatch now ⟨command.name, key :: (xs ++ ys)⟩)

/-- The same for commands on a list of keys, which answer counts. -/
def KeysBatch
    (name : Bytes)
    (now : TimePoint)
    (backend : Backend)
    (xs ys : List Bytes) :
    Prop :=
  let first := backend.dispatch now ⟨name, xs⟩
  let second := first.2.dispatch now ⟨name, ys⟩
  let batch := backend.dispatch now ⟨name, xs ++ ys⟩
  batch.2 = second.2 ∧ IntegerReplies sumReply first second batch

section Loops

variable {xs ys : List Bytes}

theorem succ_add_right_comm
    (earlier later : Int64) :
    earlier + later + 1 = earlier + 1 + later := by
  rw [Int64.add_assoc, Int64.add_comm later 1, Int64.add_assoc]

/-- A loop over elements that changes a collection and counts changes. -/
structure CountingLoop
    {Payload : Type}
    (loop : Payload → List Bytes → Payload × Int64)
    (next : Payload → Bytes → Payload)
    (counts : Payload → Bytes → Bool) :
    Prop where
  nil : ∀ content, loop content [] = (content, 0)
  cons :
    ∀ content element later,
      loop content (element :: later) =
        ((loop (next content element) later).1,
          (loop (next content element) later).2 +
            if counts content element then 1 else 0)

namespace CountingLoop

variable {Payload : Type}
variable {loop : Payload → List Bytes → Payload × Int64}
variable {next : Payload → Bytes → Payload}
variable {counts : Payload → Bytes → Bool}

/-- A loop over two lists is two loops, and its counts add up. -/
theorem append
    (counting : CountingLoop loop next counts)
    (content : Payload) :
    loop content (xs ++ ys) =
      ((loop (loop content xs).1 ys).1,
        (loop content xs).2 + (loop (loop content xs).1 ys).2) := by
  induction xs generalizing content with
  | nil =>
      simp [counting.nil]
  | cons element later inductionHypothesis =>
      simp only [List.cons_append, counting.cons, inductionHypothesis]
      cases counts content element with
      | false =>
          simp
      | true =>
          simp [succ_add_right_comm]

/-- A loop that finds nothing to count in what is empty leaves it empty. -/
theorem staysEmpty
    {isEmpty : Payload → Bool}
    (counting : CountingLoop loop next counts)
    (nothing :
      ∀ content element,
        isEmpty content = true →
        isEmpty (next content element) = true ∧
          counts content element = false)
    (content : Payload)
    (empty : isEmpty content = true) :
    isEmpty (loop content ys).1 = true ∧ (loop content ys).2 = 0 := by
  induction ys generalizing content with
  | nil =>
      rw [counting.nil]
      exact ⟨empty, rfl⟩
  | cons element later inductionHypothesis =>
      obtain ⟨still, uncounted⟩ := nothing content element empty
      obtain ⟨left, count⟩ := inductionHypothesis _ still
      rw [counting.cons, uncounted]
      exact ⟨left, by simp [count]⟩

end CountingLoop

/-- SADD counts the members that were not there. -/
theorem countingLoop_addMembers :
    CountingLoop addMembers ByteSet.insert
      (fun set member => !set.contains member) := by
  refine ⟨fun _ => rfl, fun set member later => ?_⟩
  rw [addMembers]
  cases set.contains member <;> simp

/-- SREM counts the members that were there. -/
theorem countingLoop_removeMembers :
    CountingLoop removeMembers ByteSet.erase ByteSet.contains := by
  refine ⟨fun _ => rfl, fun set member later => ?_⟩
  rw [removeMembers]
  cases set.contains member <;> simp

theorem countingLoop_eraseFields :
    CountingLoop eraseFields (fun hash field => hash.erase field)
      (fun hash field => (hash.lookup field).isSome) := by
  refine ⟨fun _ => rfl, fun hash field later => ?_⟩
  rw [eraseFields]
  cases (hash.lookup field).isSome <;> simp

/-- Nothing can be removed from an empty set. -/
theorem nothingToRemove
    (set : ByteSet)
    (member : Bytes)
    (empty : set.members.isEmpty = true) :
    (set.erase member).members.isEmpty = true ∧
      set.contains member = false := by
  obtain ⟨members, nodup⟩ := set
  cases List.isEmpty_iff.mp empty
  exact ⟨rfl, rfl⟩

/-- Nothing can be erased from an empty hash. -/
theorem nothingToErase
    (hash : ByteMap Bytes)
    (field : Bytes)
    (empty : hash.entries.isEmpty = true) :
    (hash.erase field).entries.isEmpty = true ∧
      (hash.lookup field).isSome = false := by
  obtain ⟨entries, nodup⟩ := hash
  cases List.isEmpty_iff.mp empty
  exact ⟨rfl, rfl⟩

/-- HSET is cut between two pairs. -/
theorem assignFields_append
    (xs ys : List Bytes)
    (even : xs.length % 2 = 0)
    (hash : ByteMap Bytes) :
    assignFields hash (xs ++ ys) =
      ((assignFields (assignFields hash xs).1 ys).1,
        (assignFields hash xs).2 +
          (assignFields (assignFields hash xs).1 ys).2) := by
  match xs with
  | [] =>
      simp [assignFields]
  | [single] =>
      simp at even
  | field :: value :: later =>
      have shorter : later.length % 2 = 0 := by
        simp only [List.length_cons] at even
        omega
      have rest :=
        assignFields_append later ys shorter (hash.insert field value)
      simp only [List.cons_append, assignFields, rest]
      cases (hash.lookup field).isSome with
      | false =>
          simp [succ_add_right_comm]
      | true =>
          rfl

end Loops

section OneKey

variable {Payload : Type}

/-- Read a collection or create it, change it and store it. -/
def growKey
    (type : ValueType Payload)
    (fresh : Payload)
    (change : List Bytes → Payload → Payload × Int64)
    (key : Bytes)
    (elements : List Bytes) :
    Program RespValue :=
  getOrCreate type key fresh fun content => do
    Program.set key (type.wrap (change elements content).1) 0
    return .integer (change elements content).2

/-- Read a collection, change it, and store it or delete its key. -/
def shrinkKey
    (type : ValueType Payload)
    (isEmpty : Payload → Bool)
    (change : List Bytes → Payload → Payload × Int64)
    (key : Bytes)
    (elements : List Bytes) :
    Program RespValue :=
  readTyped type key (.integer 0) fun content => do
    storeOrDelete key (isEmpty (change elements content).1)
      (type.wrap (change elements content).1)
    return .integer (change elements content).2

/-- The change by a list of elements is that by its two parts. -/
structure Splits
    (combine : Int64 → Int64 → Int64)
    (change : List Bytes → Payload → Payload × Int64)
    (xs ys : List Bytes) :
    Prop where
  append :
    ∀ content,
      change (xs ++ ys) content =
        ((change ys (change xs content).1).1,
          combine (change xs content).2
            (change ys (change xs content).1).2)

/-- What is wrapped passes the test and is read back. -/
structure ValueType.ReadsBack (type : ValueType Payload) : Prop where
  holds : ∀ content, type.holds (type.wrap content) = true
  payload : ∀ content, type.payload (type.wrap content) = .ok content

theorem readsBack_listType : listType.ReadsBack :=
  ⟨fun _ => rfl, fun _ => rfl⟩

theorem readsBack_setType : setType.ReadsBack :=
  ⟨fun _ => rfl, fun _ => rfl⟩

theorem readsBack_hashType : hashType.ReadsBack :=
  ⟨fun _ => rfl, fun _ => rfl⟩

variable {type : ValueType Payload} {now : TimePoint}
variable {key : Bytes} {backend : Backend}

/-- A value that has just been stored without a deadline is live. -/
theorem get_set_self
    (store : KvStore)
    (value : Value) :
    (store.set now key value 0).get now key = some value := by
  simp [KvStore.get, KvStore.set, KvStore.liveEntry_insert,
    Entry.isExpired]

theorem get_del_self
    (store : KvStore) :
    (store.del now key).2.get now key = none := by
  rw [KvStore.get, KvStore.liveEntry_del, if_pos rfl]
  rfl

/-- The second value replaces the first. -/
theorem set_set_self
    (store : KvStore)
    (earlier later : Value) :
    (store.set now key earlier 0).set now key later 0 =
      store.set now key later 0 := by
  simp only [KvStore.set, AList.insert_insert]

/-- Deleting a key forgets what was stored under it before. -/
theorem del_set_self
    {store : KvStore}
    {current : Value}
    (live : store.get now key = some current)
    (value : Value) :
    ((store.set now key value 0).del now key).2 =
      (store.del now key).2 := by
  rw [KvStore.get, Option.map_eq_some_iff] at live
  obtain ⟨entry, live, -⟩ := live
  have found := (KvStore.liveEntry_eq_some_iff.mp live).1
  simp only [KvStore.del, KvStore.set, AList.lookup_insert, found]
  congr 1
  exact AList.ext (List.kerase_cons_eq rfl)

/-- What typed access works on: the content of a live key, or a new one. -/
inductive Finds
    (type : ValueType Payload)
    (fresh : Payload)
    (now : TimePoint)
    (key : Bytes)
    (store : KvStore) :
    Payload → Prop where
  | absent
      (missing : store.get now key = none) :
      Finds type fresh now key store fresh
  | present
      (content : Payload)
      (live : store.get now key = some (type.wrap content)) :
      Finds type fresh now key store content

/-- A key without a value of another type has a content to work on. -/
theorem exists_finds
    {store : KvStore}
    (fresh : Payload)
    (typed :
      ∀ value,
        store.get now key = some value → value.kind = type.kind) :
    ∃ content, Finds type fresh now key store content := by
  cases live : store.get now key with
  | none =>
      exact ⟨fresh, .absent live⟩
  | some value =>
      have holds := (type.holds_iff value).mpr (typed value live)
      obtain ⟨content, rfl, -⟩ := type.payload_wrap value holds
      exact ⟨content, .present content live⟩

/-- A key of the right type is read. -/
theorem exec_withTyped_wrap
    {absent : Program RespValue}
    {present : Payload → Program RespValue}
    {content : Payload}
    (readsBack : type.ReadsBack)
    (live : backend.store.get now key = some (type.wrap content)) :
    backend.exec now (withTyped type key absent present) =
      backend.exec now (present content) :=
  exec_withTyped_present live (readsBack.holds content)
    (readsBack.payload content)

section Growing

variable {fresh : Payload}
variable {change : List Bytes → Payload → Payload × Int64}

/-- Growing stores the changed content and answers the count. -/
theorem exec_growKey
    {content : Payload}
    (readsBack : type.ReadsBack)
    (finds : Finds type fresh now key backend.store content)
    (elements : List Bytes) :
    backend.exec now (growKey type fresh change key elements) =
      (.ok (.integer (change elements content).2),
        { backend with
          store :=
            backend.store.set now key
              (type.wrap (change elements content).1) 0 }) := by
  cases finds with
  | absent missing =>
      exact exec_withTyped_absent missing
  | present content live =>
      exact exec_withTyped_wrap readsBack live

/-- Growing in one batch or in two parts. -/
theorem batched_growKey
    {combine : Int64 → Int64 → Int64}
    {xs ys : List Bytes}
    (readsBack : type.ReadsBack)
    (splits : Splits combine change xs ys)
    (typed :
      ∀ value,
        backend.store.get now key = some value →
        value.kind = type.kind) :
    ∃ earlier later between after,
      backend.exec now (growKey type fresh change key xs) =
          (.ok (.integer earlier), between) ∧
        between.exec now (growKey type fresh change key ys) =
          (.ok (.integer later), after) ∧
        backend.exec now (growKey type fresh change key (xs ++ ys)) =
          (.ok (.integer (combine earlier later)), after) := by
  obtain ⟨content, finds⟩ := exists_finds fresh typed
  have again :
      Finds type fresh now key
        (backend.store.set now key
          (type.wrap (change xs content).1) 0)
        (change xs content).1 :=
    .present _ (get_set_self _ _)
  refine ⟨_, _, _, _, exec_growKey readsBack finds xs,
    exec_growKey readsBack again ys, ?_⟩
  rw [exec_growKey readsBack finds, splits.append, set_set_self]

end Growing

section Shrinking

variable {isEmpty : Payload → Bool}
variable {change : List Bytes → Payload → Payload × Int64}

/-- Removing from a missing key does nothing. -/
theorem exec_shrinkKey_absent
    (missing : backend.store.get now key = none)
    (elements : List Bytes) :
    backend.exec now (shrinkKey type isEmpty change key elements) =
      (.ok (.integer 0), backend) :=
  exec_withTyped_absent missing

/-- Shrinking stores what is left, or deletes the key. -/
theorem exec_shrinkKey_present
    {content : Payload}
    (readsBack : type.ReadsBack)
    (live : backend.store.get now key = some (type.wrap content))
    (elements : List Bytes) :
    backend.exec now (shrinkKey type isEmpty change key elements) =
      (.ok (.integer (change elements content).2),
        { backend with
          store :=
            if isEmpty (change elements content).1 then
              (backend.store.del now key).2
            else
              backend.store.set now key
                (type.wrap (change elements content).1) 0 }) := by
  unfold shrinkKey readTyped
  rw [exec_withTyped_wrap readsBack live]
  cases isEmpty (change elements content).1 with
  | true =>
      rfl
  | false =>
      rfl

/-- Shrinking in one batch or in two parts. -/
theorem batched_shrinkKey
    {xs ys : List Bytes}
    (readsBack : type.ReadsBack)
    (splits : Splits sumReply change xs ys)
    (staysEmpty :
      ∀ content,
        isEmpty content = true →
        isEmpty (change ys content).1 = true ∧
          (change ys content).2 = 0)
    (typed :
      ∀ value,
        backend.store.get now key = some value →
        value.kind = type.kind) :
    ∃ earlier later between after,
      backend.exec now (shrinkKey type isEmpty change key xs) =
          (.ok (.integer earlier), between) ∧
        between.exec now (shrinkKey type isEmpty change key ys) =
          (.ok (.integer later), after) ∧
        backend.exec now
            (shrinkKey type isEmpty change key (xs ++ ys)) =
          (.ok (.integer (sumReply earlier later)), after) := by
  cases live : backend.store.get now key with
  | none =>
      exact ⟨0, 0, backend, backend, exec_shrinkKey_absent live xs,
        exec_shrinkKey_absent live ys,
        exec_shrinkKey_absent live (xs ++ ys)⟩
  | some value =>
      have holds := (type.holds_iff value).mpr (typed value live)
      obtain ⟨content, rfl, -⟩ := type.payload_wrap value holds
      by_cases emptied : isEmpty (change xs content).1 = true
      · -- The first part deletes the key, and the second finds none.
        obtain ⟨stays, nothing⟩ := staysEmpty _ emptied
        refine ⟨(change xs content).2, 0,
          { backend with store := (backend.store.del now key).2 }, _,
          ?_, exec_shrinkKey_absent (get_del_self _) ys, ?_⟩
        · rw [exec_shrinkKey_present readsBack live, if_pos emptied]
        · rw [exec_shrinkKey_present readsBack live, splits.append]
          simp only [stays, nothing, if_true]
      · refine ⟨(change xs content).2,
          (change ys (change xs content).1).2,
          { backend with
            store :=
              backend.store.set now key
                (type.wrap (change xs content).1) 0 }, _,
          ?_, exec_shrinkKey_present readsBack (get_set_self _ _) ys,
          ?_⟩
        · rw [exec_shrinkKey_present readsBack live, if_neg emptied]
        · rw [exec_shrinkKey_present readsBack live, splits.append]
          simp only [del_set_self live, set_set_self]

end Shrinking

end OneKey

section Commands

variable {now : TimePoint} {key : Bytes} {command : Variadic}
variable {xs ys : List Bytes}

theorem Variadic.Takes.append
    (first : command.Takes xs)
    (second : command.Takes ys) :
    command.Takes (xs ++ ys) := by
  refine ⟨by simp [first.1], fun inPairs => ?_⟩
  have left := first.2 inPairs
  have right := second.2 inPairs
  rw [List.length_append]
  omega

/-- A command whose program batches on keys of its type is batched. -/
theorem batches_of_program
    (program : List Bytes → Program RespValue)
    (backend : Backend)
    (takesFirst : command.Takes xs)
    (takesSecond : command.Takes ys)
    (runs :
      ∀ (state : Backend) elements,
        command.Takes elements →
        state.dispatch now ⟨command.name, key :: elements⟩ =
          state.exec now (program elements))
    (guarded :
      ∀ elements, Guarded command.kind key (program elements))
    (onType :
      (∀ value,
        backend.store.get now key = some value →
        value.kind = command.kind) →
      ∃ earlier later between after,
        backend.exec now (program xs) =
            (.ok (.integer earlier), between) ∧
          between.exec now (program ys) =
            (.ok (.integer later), after) ∧
          backend.exec now (program (xs ++ ys)) =
            (.ok (.integer (command.combine earlier later)), after)) :
    command.Batches now key backend xs ys := by
  unfold Variadic.Batches
  simp only [runs _ _ takesFirst, runs _ _ takesSecond,
    runs _ _ (takesFirst.append takesSecond)]
  have refused
      (value : Value)
      (live : backend.store.get now key = some value)
      (other : value.kind ≠ command.kind)
      (elements : List Bytes) :
      backend.exec now (program elements) =
        (.ok kWrongType, backend) :=
    exec_of_guarded (guarded elements) live other
  constructor
  · by_cases typed :
        ∀ value,
          backend.store.get now key = some value →
          value.kind = command.kind
    · obtain ⟨earlier, later, between, after, one, two, batch⟩ :=
        onType typed
      rw [one, two, batch]
    · simp only [not_forall] at typed
      obtain ⟨value, live, other⟩ := typed
      rw [refused value live other, refused value live other,
        refused value live other]
  · intro typed
    obtain ⟨earlier, later, between, after, one, two, batch⟩ :=
      onType typed
    refine ⟨earlier, later, ?_, ?_, ?_⟩
    · rw [one]
    · rw [one, two]
    · rw [batch]
  · intro value live other
    rw [refused value live other, refused value live other,
      refused value live other]
    exact ⟨rfl, rfl, rfl⟩

/-- What LPUSH and RPUSH do with the list, and the length they answer. -/
def pushAll
    (push : List Bytes → Bytes → List Bytes)
    (elements list : List Bytes) :
    List Bytes × Int64 :=
  (elements.foldl push list, toInt64 (elements.foldl push list).length)

/-- Pushing two lists is pushing one behind the other. -/
theorem splits_pushAll
    (push : List Bytes → Bytes → List Bytes) :
    Splits laterReply (pushAll push) xs ys :=
  ⟨fun list => by simp only [pushAll, List.foldl_append, laterReply]⟩

/-- LPUSH and RPUSH. -/
theorem batches_push
    {name : Bytes}
    (push : List Bytes → Bytes → List Bytes)
    (backend : Backend)
    (runs :
      ∀ (state : Backend) first more,
        state.dispatch now ⟨name, key :: first :: more⟩ =
          state.exec now
            (pushCommand push ⟨name, key :: first :: more⟩))
    (takesFirst : Variadic.Takes ⟨name, .list, laterReply, false⟩ xs)
    (takesSecond : Variadic.Takes ⟨name, .list, laterReply, false⟩ ys) :
    Variadic.Batches ⟨name, .list, laterReply, false⟩ now key backend
      xs ys := by
  refine batches_of_program
    (growKey listType [] (pushAll push) key) backend
    takesFirst takesSecond (fun state elements takes => ?_)
    (fun _ => guarded_withTyped)
    (batched_growKey readsBack_listType (splits_pushAll push))
  obtain ⟨first, more, rfl⟩ := List.exists_cons_of_ne_nil takes.1
  exact runs state first more

theorem batches_sadd
    (backend : Backend)
    (takesFirst : Variadic.Takes ⟨ascii "SADD", .set, sumReply, false⟩ xs)
    (takesSecond :
      Variadic.Takes ⟨ascii "SADD", .set, sumReply, false⟩ ys) :
    Variadic.Batches ⟨ascii "SADD", .set, sumReply, false⟩ now key
      backend xs ys := by
  refine batches_of_program
    (growKey setType ByteSet.empty
      (fun elements set => addMembers set elements) key)
    backend takesFirst takesSecond (fun state elements takes => ?_)
    (fun _ => guarded_withTyped)
    (batched_growKey readsBack_setType ⟨countingLoop_addMembers.append⟩)
  obtain ⟨first, more, rfl⟩ := List.exists_cons_of_ne_nil takes.1
  rfl

/-- HSET in two parts, each of them with whole pairs. -/
theorem batches_hset
    (backend : Backend)
    (takesFirst : Variadic.Takes ⟨ascii "HSET", .hash, sumReply, true⟩ xs)
    (takesSecond :
      Variadic.Takes ⟨ascii "HSET", .hash, sumReply, true⟩ ys) :
    Variadic.Batches ⟨ascii "HSET", .hash, sumReply, true⟩ now key
      backend xs ys := by
  refine batches_of_program
    (growKey hashType ∅
      (fun elements hash => assignFields hash elements) key)
    backend takesFirst takesSecond (fun state elements takes => ?_)
    (fun _ => guarded_withTyped)
    (batched_growKey readsBack_hashType
      ⟨assignFields_append xs ys (takesFirst.2 rfl)⟩)
  obtain ⟨field, rest, rfl⟩ := List.exists_cons_of_ne_nil takes.1
  have even := takes.2 rfl
  cases rest with
  | nil =>
      simp at even
  | cons value more =>
      have pairs : more.length % 2 = 0 := by
        simp only [List.length_cons] at even
        omega
      change state.exec now
        (cmdHset ⟨ascii "HSET", key :: field :: value :: more⟩) = _
      simp only [cmdHset, if_pos pairs]
      rfl

theorem batches_srem
    (backend : Backend)
    (takesFirst : Variadic.Takes ⟨ascii "SREM", .set, sumReply, false⟩ xs)
    (takesSecond :
      Variadic.Takes ⟨ascii "SREM", .set, sumReply, false⟩ ys) :
    Variadic.Batches ⟨ascii "SREM", .set, sumReply, false⟩ now key
      backend xs ys := by
  refine batches_of_program
    (shrinkKey setType (fun set => set.members.isEmpty)
      (fun elements set => removeMembers set elements) key)
    backend takesFirst takesSecond (fun state elements takes => ?_)
    (fun _ => guarded_withTyped)
    (batched_shrinkKey readsBack_setType
      ⟨countingLoop_removeMembers.append⟩
      (countingLoop_removeMembers.staysEmpty nothingToRemove))
  obtain ⟨first, more, rfl⟩ := List.exists_cons_of_ne_nil takes.1
  rfl

theorem batches_hdel
    (backend : Backend)
    (takesFirst : Variadic.Takes ⟨ascii "HDEL", .hash, sumReply, false⟩ xs)
    (takesSecond :
      Variadic.Takes ⟨ascii "HDEL", .hash, sumReply, false⟩ ys) :
    Variadic.Batches ⟨ascii "HDEL", .hash, sumReply, false⟩ now key
      backend xs ys := by
  refine batches_of_program
    (shrinkKey hashType (fun hash => hash.entries.isEmpty)
      (fun elements hash => eraseFields hash elements) key)
    backend takesFirst takesSecond (fun state elements takes => ?_)
    (fun _ => guarded_withTyped)
    (batched_shrinkKey readsBack_hashType
      ⟨countingLoop_eraseFields.append⟩
      (countingLoop_eraseFields.staysEmpty nothingToErase))
  obtain ⟨first, more, rfl⟩ := List.exists_cons_of_ne_nil takes.1
  rfl

end Commands

section Keys

variable {now : TimePoint} {backend : Backend} {xs ys : List Bytes}

/-- A loop over keys that adds up the answers of calls. -/
structure SummingLoop
    (loop : List Bytes → Program Int64)
    (visit : Bytes → Program Int64) :
    Prop where
  nil : loop [] = pure 0
  cons :
    ∀ key later,
      loop (key :: later) = do
        let count ← visit key
        let rest ← loop later
        return count + rest
  answers :
    ∀ (now : TimePoint) (backend : Backend) key,
      ∃ count after,
        backend.exec now (visit key) = (.ok count, after)

namespace SummingLoop

variable {loop : List Bytes → Program Int64}
variable {visit : Bytes → Program Int64}

/-- One round of the loop, followed by the rest of the keys. -/
theorem exec_cons
    (summing : SummingLoop loop visit)
    {key : Bytes}
    {later : List Bytes}
    {count rest : Int64}
    {between after : Backend}
    (visited : backend.exec now (visit key) = (.ok count, between))
    (looped : between.exec now (loop later) = (.ok rest, after)) :
    backend.exec now (loop (key :: later)) =
      (.ok (count + rest), after) := by
  rw [summing.cons, Backend.exec, Script.run_bind_of_ok visited,
    Script.run_bind_of_ok looped]
  rfl

/-- The loop over the keys never throws. -/
theorem exec_total
    (summing : SummingLoop loop visit)
    (now : TimePoint)
    (backend : Backend)
    (keys : List Bytes) :
    ∃ count after,
      backend.exec now (loop keys) = (.ok count, after) := by
  induction keys generalizing backend with
  | nil =>
      exact ⟨0, backend, by rw [summing.nil]; rfl⟩
  | cons key later inductionHypothesis =>
      obtain ⟨count, between, visited⟩ :=
        summing.answers now backend key
      obtain ⟨rest, after, looped⟩ :=
        inductionHypothesis between
      exact ⟨_, _, summing.exec_cons visited looped⟩

/-- The sums of two parts of a list of keys add up. -/
theorem exec_append
    (summing : SummingLoop loop visit)
    {earlier later : Int64}
    {between after : Backend}
    (first : backend.exec now (loop xs) = (.ok earlier, between))
    (second : between.exec now (loop ys) = (.ok later, after)) :
    backend.exec now (loop (xs ++ ys)) =
      (.ok (earlier + later), after) := by
  induction xs generalizing backend earlier with
  | nil =>
      rw [summing.nil] at first
      cases first
      simpa using second
  | cons key more inductionHypothesis =>
      obtain ⟨count, middle, visited⟩ :=
        summing.answers now backend key
      obtain ⟨rest, last, looped⟩ := summing.exec_total now middle more
      rw [summing.exec_cons visited looped] at first
      cases first
      rw [Int64.add_assoc]
      exact summing.exec_cons visited (inductionHypothesis looped)

end SummingLoop

theorem summingLoop_delKeys :
    SummingLoop delKeys Program.del :=
  ⟨rfl, fun _ _ => rfl, fun _ _ _ => ⟨_, _, rfl⟩⟩

/-- One round of EXISTS. -/
def countOne (key : Bytes) : Program Int64 := do
  let present ← Program.exists? key
  return if present then 1 else 0

theorem summingLoop_countExisting :
    SummingLoop countExisting countOne :=
  ⟨rfl, fun _ _ => rfl, fun _ _ _ => ⟨_, _, rfl⟩⟩

/-- A command that answers the sum over its keys. -/
theorem keysBatch_of_loop
    {name : Bytes}
    {loop : List Bytes → Program Int64}
    {visit : Bytes → Program Int64}
    (summing : SummingLoop loop visit)
    (runs :
      ∀ (state : Backend) keys,
        keys ≠ [] →
        state.dispatch now ⟨name, keys⟩ =
          state.exec now (do
            let count ← loop keys
            return .integer count))
    (filledFirst : xs ≠ [])
    (filledSecond : ys ≠ []) :
    KeysBatch name now backend xs ys := by
  obtain ⟨earlier, between, first⟩ :=
    summing.exec_total now backend xs
  obtain ⟨later, after, second⟩ := summing.exec_total now between ys
  have answer
      {state next : Backend}
      {keys : List Bytes}
      {count : Int64}
      (filled : keys ≠ [])
      (looped : state.exec now (loop keys) = (.ok count, next)) :
      state.dispatch now ⟨name, keys⟩ = (.ok (.integer count), next) := by
    rw [runs state keys filled, Backend.exec,
      Script.run_bind_of_ok looped]
    rfl
  have filled : xs ++ ys ≠ [] := by
    simp [filledFirst]
  unfold KeysBatch
  simp only [answer filledFirst first, answer filledSecond second,
    answer filled (summing.exec_append first second)]
  exact ⟨trivial, earlier, later, rfl, rfl, rfl⟩

theorem keysBatch_del
    (filledFirst : xs ≠ [])
    (filledSecond : ys ≠ []) :
    KeysBatch (ascii "DEL") now backend xs ys := by
  refine keysBatch_of_loop summingLoop_delKeys
    (fun state keys filled => ?_) filledFirst filledSecond
  obtain ⟨first, more, rfl⟩ := List.exists_cons_of_ne_nil filled
  rfl

theorem keysBatch_exists
    (filledFirst : xs ≠ [])
    (filledSecond : ys ≠ []) :
    KeysBatch (ascii "EXISTS") now backend xs ys := by
  refine keysBatch_of_loop summingLoop_countExisting
    (fun state keys filled => ?_) filledFirst filledSecond
  obtain ⟨first, more, rfl⟩ := List.exists_cons_of_ne_nil filled
  rfl

end Keys

namespace Backend

/--
At one clock reading, each variadic command with some elements and then with
others leaves what it leaves with all of them, and the replies combine; DEL and
EXISTS do the same over keys.
-/
theorem variadic_commands_batch
    (backend : Backend)
    (now : TimePoint) :
    (∀ command ∈ variadicCommands,
      ∀ key xs ys,
        command.Takes xs →
        command.Takes ys →
        command.Batches now key backend xs ys) ∧
      ∀ name ∈ [ascii "DEL", ascii "EXISTS"],
        ∀ xs ys,
          xs ≠ [] →
          ys ≠ [] →
          KeysBatch name now backend xs ys := by
  constructor
  · simp only [variadicCommands, List.forall_mem_cons,
      List.not_mem_nil, false_implies, implies_true, and_true]
    refine ⟨?_, ?_, ?_, ?_, ?_, ?_⟩
    · exact fun key xs ys =>
        batches_push (fun list element => element :: list) backend
          fun _ _ _ => rfl
    · exact fun key xs ys =>
        batches_push (fun list element => list ++ [element]) backend
          fun _ _ _ => rfl
    · exact fun key xs ys => batches_sadd backend
    · exact fun key xs ys => batches_srem backend
    · exact fun key xs ys => batches_hset backend
    · exact fun key xs ys => batches_hdel backend
  · simp only [List.forall_mem_cons, List.not_mem_nil, false_implies,
      implies_true, and_true]
    exact ⟨fun xs ys => keysBatch_del, fun xs ys => keysBatch_exists⟩

end Backend

end Vortek

import Mathlib.Data.Int.Order.Basic
import Vortek.KvStore
import Vortek.LapsingMap

namespace Vortek

open LapsingMap

/-!
# Lazy expiry and the background sweep

Every operation of the store treats an expired entry as absent, and a thread
removes expired entries from time to time.  The operations are compared with a
reference map over unbounded time, in which a key is present as long as its
deadline is to come.  Sweeps may strike between any two operations, also between
the several operations of one command; no result of an operation shows them.

`is_expired` reads the clock, and `expire` and `ttl` read it once more after it,
so an operation is given two readings here.
-/

/-- One operation of the store. -/
inductive StoreOp where
  | set (key : Bytes) (value : Value) (ttl : Int64)
  | get (key : Bytes)
  | del (key : Bytes)
  | exists? (key : Bytes)
  | expire (key : Bytes) (ttl : Int64)
  | ttl (key : Bytes)
  | persist (key : Bytes)

/-- The result of an operation. -/
inductive StoreAnswer where
  | done
  | value (found : Option Value)
  | number (count : Int)
  | flag (holds : Bool)

/-- Something that happens to the store. -/
inductive StoreEvent where
  | op (first second : TimePoint) (operation : StoreOp)
  | sweep (now : TimePoint)

namespace StoreEvent

/-- The readings of the clock, in order. -/
def readings : StoreEvent → List TimePoint
  | .op first second _ => [first, second]
  | .sweep now => [now]

/-- An operation of the store, and not the sweep. -/
def isOp : StoreEvent → Bool
  | .op _ _ _ => true
  | .sweep _ => false

/-- The number is the value of an `int64_t`. -/
def FitsInt64 (number : Int) : Prop :=
  -2 ^ 63 ≤ number ∧ number < 2 ^ 63

/-- The deadline `now + ttl` fits in 64 bits of nanoseconds. -/
def DeadlineFits (now : TimePoint) (ttl : Int64) : Prop :=
  FitsInt64 (ttl.toInt * 1000000) ∧
    FitsInt64 (now.toInt + ttl.toInt * 1000000)

/-- No arithmetic of the event overflows. -/
def Fits : StoreEvent → Prop
  | .op first _ (.set _ _ ttl) => 0 < ttl → DeadlineFits first ttl
  | .op _ second (.expire _ ttl) => DeadlineFits second ttl
  | .op first second (.ttl _) => second.toInt - first.toInt < 2 ^ 63
  | _ => True

end StoreEvent

namespace KvStore

/-- `expire` with its two readings of the clock. -/
def expireReading
    (store : KvStore)
    (first second : TimePoint)
    (key : Bytes)
    (ttl : Int64) :
    Bool × KvStore :=
  match store.liveEntry first key with
  | none => (false, store)
  | some entry =>
      (true, ⟨store.data.insert key
        { entry with expiresAt := some (deadlineAfter second ttl) }⟩)

/-- `ttl` with its two readings of the clock. -/
def ttlReading
    (store : KvStore)
    (first second : TimePoint)
    (key : Bytes) :
    Int64 :=
  match store.liveEntry first key with
  | none => -2
  | some entry =>
      match entry.expiresAt with
      | none => -1
      | some deadline => max 0 ((deadline - second) / 1000000)

/-- With equal readings these are the operations of the handlers. -/
theorem expireReading_self
    (store : KvStore)
    (now : TimePoint)
    (key : Bytes)
    (ttl : Int64) :
    store.expireReading now now key ttl = store.expire now key ttl :=
  rfl

theorem ttlReading_self
    (store : KvStore)
    (now : TimePoint)
    (key : Bytes) :
    store.ttlReading now now key = store.ttl now key :=
  rfl

/-- One operation on the store. -/
def perform
    (store : KvStore)
    (first second : TimePoint) :
    StoreOp → StoreAnswer × KvStore
  | .set key value ttl => (.done, store.set first key value ttl)
  | .get key => (.value (store.get first key), store)
  | .del key =>
      let outcome := store.del first key
      (.number outcome.1.toInt, outcome.2)
  | .exists? key => (.flag (store.exists? first key), store)
  | .expire key ttl =>
      let outcome := store.expireReading first second key ttl
      (.flag outcome.1, outcome.2)
  | .ttl key => (.number (store.ttlReading first second key).toInt, store)
  | .persist key =>
      let outcome := store.persist first key
      (.flag outcome.1, outcome.2)

/-- The results of the operations among some events. -/
def answers : KvStore → List StoreEvent → List StoreAnswer
  | _, [] => []
  | store, .op first second operation :: later =>
      let outcome := store.perform first second operation
      outcome.1 :: answers outcome.2 later
  | store, .sweep now :: later => answers (store.sweep now) later

end KvStore

/--
The reference map: it keeps what the last `set`, `expire` or `persist` left, and
nothing is ever swept.
-/
abbrev Reference := LeaseMap Bytes Value Int

namespace Reference

/-- The deadline of a duration in milliseconds, on unbounded time. -/
def deadline (now : TimePoint) (ttl : Int64) : Int :=
  now.toInt + ttl.toInt * 1000000

/-- Milliseconds until a deadline, truncated; nothing once it has passed. -/
def remaining (deadline : Int) (now : TimePoint) : Int :=
  max 0 ((deadline - now.toInt).tdiv 1000000)

/-- One operation on the reference map. -/
def perform
    (map : Reference)
    (first second : TimePoint) :
    StoreOp → StoreAnswer × Reference
  | .set key value ttl =>
      let expiry := if 0 < ttl then some (deadline first ttl) else none
      (.done, Function.update map key (some ⟨value, expiry⟩))
  | .get key =>
      (.value ((visible map first.toInt key).map Lease.payload), map)
  | .del key =>
      (.number (if (visible map first.toInt key).isSome then 1 else 0),
        Function.update map key none)
  | .exists? key => (.flag (visible map first.toInt key).isSome, map)
  | .expire key ttl =>
      match visible map first.toInt key with
      | none => (.flag false, map)
      | some lease =>
          (.flag true, Function.update map key
            (some ⟨lease.payload, some (deadline second ttl)⟩))
  | .ttl key =>
      match visible map first.toInt key with
      | none => (.number (-2), map)
      | some lease =>
          match lease.deadline with
          | none => (.number (-1), map)
          | some expiry => (.number (remaining expiry second), map)
  | .persist key =>
      match visible map first.toInt key with
      | none => (.flag false, map)
      | some lease =>
          (.flag true,
            Function.update map key (some ⟨lease.payload, none⟩))

/-- The results of the operations; sweeps do nothing. -/
def answers : Reference → List StoreEvent → List StoreAnswer
  | _, [] => []
  | map, .op first second operation :: later =>
      let outcome := perform map first second operation
      outcome.1 :: answers outcome.2 later
  | map, .sweep _ :: later => answers map later

end Reference

/-- An entry of the store, with its deadline on unbounded time. -/
def Entry.lease (entry : Entry) : Lease Value Int :=
  ⟨entry.value, entry.expiresAt.map Int64.toInt⟩

/-- The store as a lapsing map, expired entries included. -/
def KvStore.leases (store : KvStore) : Reference := fun key =>
  (store.data.lookup key).map Entry.lease

section Meaning

variable (store : KvStore) (now : TimePoint) (key : Bytes)

/-- `is_expired` and the reference agree on the deadline itself. -/
theorem Entry.alive_lease
    (entry : Entry) :
    entry.lease.alive now.toInt = !entry.isExpired now := by
  obtain ⟨value, expiresAt⟩ := entry
  cases expiresAt with
  | none =>
      rfl
  | some deadline =>
      simp only [Entry.lease, Lease.alive, Option.map_some,
        Entry.isExpired, Int64.le_iff_toInt_le, ← decide_not, not_le]

theorem KvStore.visible_leases :
    visible store.leases now.toInt key =
      (store.liveEntry now key).map Entry.lease := by
  simp only [visible, leases, liveEntry]
  cases store.data.lookup key with
  | none =>
      rfl
  | some entry =>
      cases expired : entry.isExpired now <;>
        simp [Option.filter, Entry.alive_lease, expired]

theorem KvStore.leases_insert
    (entry : Entry) :
    (KvStore.mk (store.data.insert key entry)).leases =
      Function.update store.leases key (some entry.lease) := by
  funext other
  by_cases same : other = key
  · subst same
    simp [leases]
  · simp [leases, same]

theorem KvStore.leases_del :
    (store.del now key).2.leases =
      Function.update store.leases key none := by
  funext other
  by_cases same : other = key
  · subst same
    rw [Function.update_self]
    unfold del leases
    split
    · rename_i missing
      simp [missing]
    · simp
  · rw [Function.update_of_ne same]
    unfold del leases
    split
    · rfl
    · simp [same]

/-- One pass of the sweep removes exactly what has lapsed. -/
theorem KvStore.lookup_sweep :
    (store.sweep now).data.lookup key = store.liveEntry now key := by
  apply Option.ext
  intro entry
  rw [liveEntry_eq_some_iff]
  change entry ∈ (store.sweep now).data.lookup key ↔ _
  rw [AList.mem_lookup_iff]
  simp only [sweep, List.mem_filter, Bool.not_eq_true',
    and_congr_left_iff]
  exact fun _ => AList.mem_lookup_iff.symm

theorem KvStore.leases_sweep :
    (store.sweep now).leases =
      LapsingMap.sweep store.leases now.toInt := by
  funext other
  rw [LapsingMap.sweep, visible_leases]
  simp only [leases, lookup_sweep]

end Meaning

/--
From this time on the store shows what the reference map shows, and its
deadlines are so near that the time left fits in 64 bits.
-/
structure KvStore.Refines
    (store : KvStore)
    (clock : TimePoint)
    (map : Reference) :
    Prop where
  agree : AgreeFrom clock.toInt store.leases map
  near :
    ∀ key entry deadline,
      store.data.lookup key = some entry →
      entry.expiresAt = some deadline →
      deadline.toInt - clock.toInt < 2 ^ 63

namespace KvStore.Refines

variable {store : KvStore} {map : Reference} {clock now : TimePoint}
variable {key : Bytes}

/-- The empty store is the empty map. -/
theorem empty
    (clock : TimePoint) :
    KvStore.empty.Refines clock fun _ => none := by
  constructor
  · exact AgreeFrom.refl _
  · intro key entry deadline found
    cases found

/-- Time passes on both sides. -/
theorem later
    (refines : store.Refines clock map)
    (order : clock ≤ now) :
    store.Refines now map := by
  have order := Int64.le_iff_toInt_le.mp order
  refine ⟨refines.agree.mono order, ?_⟩
  intro key entry deadline found expires
  have near := refines.near key entry deadline found expires
  omega

/-- A live entry of the store is what the reference shows. -/
theorem visible_eq
    (refines : store.Refines now map)
    (key : Bytes) :
    visible map now.toInt key =
      (store.liveEntry now key).map Entry.lease := by
  rw [← visible_leases]
  exact (refines.agree now.toInt (le_refl _) key).symm

/-- A new entry on both sides. -/
theorem insert
    (refines : store.Refines clock map)
    {entry : Entry}
    {lease : Lease Value Int}
    (same : entry.lease = lease)
    (near :
      ∀ deadline,
        entry.expiresAt = some deadline →
        deadline.toInt - clock.toInt < 2 ^ 63) :
    KvStore.Refines ⟨store.data.insert key entry⟩ clock
      (Function.update map key (some lease)) := by
  constructor
  · rw [leases_insert, same]
    exact refines.agree.update key _
  · intro other found deadline lookup expires
    by_cases isKey : other = key
    · subst isKey
      rw [AList.lookup_insert] at lookup
      cases lookup
      exact near deadline expires
    · rw [AList.lookup_insert_ne isKey] at lookup
      exact refines.near other found deadline lookup expires

/-- A key removed on both sides. -/
theorem del
    (refines : store.Refines clock map)
    (now : TimePoint) :
    (store.del now key).2.Refines clock
      (Function.update map key none) := by
  constructor
  · rw [leases_del]
    exact refines.agree.update key none
  · intro other entry deadline lookup expires
    refine refines.near other entry deadline ?_ expires
    unfold KvStore.del at lookup
    split at lookup
    · exact lookup
    · by_cases isKey : other = key
      · subst isKey
        rw [AList.lookup_erase] at lookup
        cases lookup
      · rwa [AList.lookup_erase_ne isKey] at lookup

/-- A sweep of the store alone. -/
theorem sweep
    (refines : store.Refines clock map)
    (order : clock ≤ now) :
    (store.sweep now).Refines now map := by
  have present := refines.later order
  constructor
  · rw [leases_sweep]
    exact present.agree.sweep
  · intro key entry deadline found expires
    rw [lookup_sweep, liveEntry_eq_some_iff] at found
    exact present.near key entry deadline found.1 expires

end KvStore.Refines

section Deadlines

open StoreEvent (DeadlineFits)

/-- A deadline that fits is the one of unbounded time. -/
theorem StoreEvent.DeadlineFits.toInt_eq
    {now : TimePoint}
    {ttl : Int64}
    (fits : DeadlineFits now ttl) :
    (deadlineAfter now ttl).toInt = Reference.deadline now ttl :=
  toInt_deadlineAfter fits.1.1 fits.1.2 fits.2.1 fits.2.2

/-- The time left is computed without overflow. -/
theorem toInt_remaining
    {deadline now : TimePoint}
    (low : -2 ^ 63 < deadline.toInt - now.toInt)
    (high : deadline.toInt - now.toInt < 2 ^ 63) :
    (max 0 ((deadline - now) / 1000000)).toInt =
      Reference.remaining deadline.toInt now := by
  have difference :
      (deadline - now).toInt = deadline.toInt - now.toInt := by
    rw [Int64.toInt_sub]
    exact Int.bmod_eq_of_le (by omega) (by omega)
  have notLeast : deadline - now ≠ Int64.minValue := by
    intro least
    rw [least, Int64.toInt_minValue] at difference
    omega
  have quotient :
      ((deadline - now) / 1000000).toInt =
        (deadline.toInt - now.toInt).tdiv 1000000 := by
    rw [Int64.toInt_div_of_ne_left _ _ notLeast, difference]
    rfl
  rw [Reference.remaining, ← quotient]
  have cases :
      max 0 ((deadline - now) / 1000000) =
        if 0 ≤ (deadline - now) / 1000000 then
          (deadline - now) / 1000000
        else
          0 :=
    rfl
  rw [cases]
  split
  · rename_i positive
    rw [Int64.le_iff_toInt_le] at positive
    exact (max_eq_right positive).symm
  · rename_i negative
    rw [Int64.le_iff_toInt_le, not_le] at negative
    exact (max_eq_left negative.le).symm

end Deadlines

section Operations

variable {store : KvStore} {map : Reference} {first second : TimePoint}
variable {key : Bytes}

/-- Both sides perform an operation with one result and stay together. -/
structure PerformsAlike
    (store : KvStore)
    (map : Reference)
    (first second : TimePoint)
    (operation : StoreOp) :
    Prop where
  answer :
    (store.perform first second operation).1 =
      (Reference.perform map first second operation).1
  refines :
    (store.perform first second operation).2.Refines second
      (Reference.perform map first second operation).2

theorem performsAlike_set
    {value : Value}
    {ttl : Int64}
    (refines : store.Refines first map)
    (order : first ≤ second)
    (fits : 0 < ttl → StoreEvent.DeadlineFits first ttl) :
    PerformsAlike store map first second (.set key value ttl) := by
  refine ⟨rfl, ?_⟩
  simp only [KvStore.perform, KvStore.set, Reference.perform]
  by_cases timed : 0 < ttl
  · have deadline := (fits timed).toInt_eq
    simp only [timed, if_true]
    refine (refines.insert ?_ ?_).later order
    · rw [← deadline]
      rfl
    · rintro _ ⟨⟩
      have product := (fits timed).1.2
      rw [deadline, Reference.deadline]
      omega
  · simp only [timed, if_false]
    refine (refines.insert rfl ?_).later order
    intro deadline expires
    cases expires

theorem performsAlike_del
    (refines : store.Refines first map)
    (order : first ≤ second) :
    PerformsAlike store map first second (.del key) := by
  refine ⟨?_, (refines.del first).later order⟩
  simp only [KvStore.perform, Reference.perform, KvStore.del_fst,
    refines.visible_eq, Option.isSome_map]
  split <;> rfl

theorem performsAlike_expire
    {ttl : Int64}
    (refines : store.Refines first map)
    (order : first ≤ second)
    (fits : StoreEvent.DeadlineFits second ttl) :
    PerformsAlike store map first second (.expire key ttl) := by
  have shown := refines.visible_eq key
  cases live : store.liveEntry first key with
  | none =>
      rw [live] at shown
      constructor <;>
        simp only [KvStore.perform, KvStore.expireReading, live,
          Reference.perform, shown, Option.map_none]
      exact refines.later order
  | some entry =>
      rw [live] at shown
      have deadline := fits.toInt_eq
      constructor <;>
        simp only [KvStore.perform, KvStore.expireReading, live,
          Reference.perform, shown, Option.map_some]
      refine (refines.later order).insert ?_ ?_
      · simp [Entry.lease, deadline]
      · rintro _ ⟨⟩
        have product := fits.1.2
        rw [deadline, Reference.deadline]
        omega

/-- The time left, where the second reading may be past the deadline. -/
theorem performsAlike_ttl
    (refines : store.Refines first map)
    (order : first ≤ second)
    (fits : second.toInt - first.toInt < 2 ^ 63) :
    PerformsAlike store map first second (.ttl key) := by
  have shown := refines.visible_eq key
  have later := refines.later order
  cases live : store.liveEntry first key with
  | none =>
      rw [live] at shown
      constructor <;>
        simp only [KvStore.perform, KvStore.ttlReading, live,
          Reference.perform, shown, Option.map_none]
      · rfl
      · exact later
  | some entry =>
      rw [live] at shown
      obtain ⟨found, alive⟩ := KvStore.liveEntry_eq_some_iff.mp live
      cases expires : entry.expiresAt with
      | none =>
          constructor <;>
            simp only [KvStore.perform, KvStore.ttlReading, live,
              Reference.perform, shown, Option.map_some, Entry.lease,
              expires, Option.map_none]
          · rfl
          · exact later
      | some deadline =>
          have high := later.near key entry deadline found expires
          have ahead : first.toInt < deadline.toInt := by
            simpa [Entry.isExpired, expires, Int64.le_iff_toInt_le]
              using alive
          constructor <;>
            simp only [KvStore.perform, KvStore.ttlReading, live,
              Reference.perform, shown, Option.map_some, Entry.lease,
              expires]
          · rw [toInt_remaining (by omega) high]
          · exact later

theorem performsAlike_persist
    (refines : store.Refines first map)
    (order : first ≤ second) :
    PerformsAlike store map first second (.persist key) := by
  have shown := refines.visible_eq key
  cases live : store.liveEntry first key with
  | none =>
      rw [live] at shown
      constructor <;>
        simp only [KvStore.perform, KvStore.persist, live,
          Reference.perform, shown, Option.map_none]
      exact refines.later order
  | some entry =>
      rw [live] at shown
      constructor <;>
        simp only [KvStore.perform, KvStore.persist, live,
          Reference.perform, shown, Option.map_some]
      refine (refines.later order).insert rfl ?_
      intro deadline expires
      cases expires

/-- Every operation has one result on both sides and keeps them together. -/
theorem performsAlike
    {operation : StoreOp}
    (refines : store.Refines first map)
    (order : first ≤ second)
    (fits : (StoreEvent.op first second operation).Fits) :
    PerformsAlike store map first second operation := by
  cases operation with
  | set key value ttl =>
      exact performsAlike_set refines order fits
  | get key =>
      refine ⟨?_, refines.later order⟩
      simp only [KvStore.perform, KvStore.get, Reference.perform,
        refines.visible_eq key, Option.map_map]
      rfl
  | del key =>
      exact performsAlike_del refines order
  | exists? key =>
      refine ⟨?_, refines.later order⟩
      simp only [KvStore.perform, KvStore.exists?, Reference.perform,
        refines.visible_eq key, Option.isSome_map]
  | expire key ttl =>
      exact performsAlike_expire refines order fits
  | ttl key =>
      exact performsAlike_ttl refines order fits
  | persist key =>
      exact performsAlike_persist refines order

/-- Over any events in time order, the results are those of the reference. -/
theorem KvStore.Refines.answers_eq
    {clock : TimePoint}
    {events : List StoreEvent}
    (refines : store.Refines clock map)
    (ordered :
      (clock :: events.flatMap StoreEvent.readings).Pairwise (· ≤ ·))
    (fits : ∀ event ∈ events, event.Fits) :
    store.answers events = Reference.answers map events := by
  induction events generalizing store map clock with
  | nil =>
      rfl
  | cons event later inductionHypothesis =>
      obtain ⟨eventFits, laterFits⟩ := List.forall_mem_cons.mp fits
      cases event with
      | sweep now =>
          simp only [List.flatMap_cons, StoreEvent.readings,
            List.cons_append, List.nil_append,
            List.pairwise_cons] at ordered
          have next := refines.sweep (ordered.1 now List.mem_cons_self)
          exact inductionHypothesis next
            (List.pairwise_cons.mpr ordered.2) laterFits
      | op first second operation =>
          simp only [List.flatMap_cons, StoreEvent.readings,
            List.cons_append, List.nil_append,
            List.pairwise_cons] at ordered
          obtain ⟨fromClock, fromFirst, fromSecond⟩ := ordered
          have alike :=
            performsAlike
              (refines.later (fromClock first List.mem_cons_self))
              (fromFirst second List.mem_cons_self) eventFits
          simp only [KvStore.answers, Reference.answers, alike.answer,
            inductionHypothesis alike.refines
              (List.pairwise_cons.mpr fromSecond) laterFits]

end Operations

/-- Without the sweeps there are fewer readings, in the same order. -/
theorem StoreEvent.readings_filter_sublist
    (events : List StoreEvent) :
    ((events.filter isOp).flatMap readings).Sublist
      (events.flatMap readings) := by
  induction events with
  | nil =>
      exact List.Sublist.slnil
  | cons event later inductionHypothesis =>
      cases event with
      | sweep now =>
          exact inductionHypothesis.cons now
      | op first second operation =>
          exact (inductionHypothesis.cons_cons second).cons_cons first

/-- The reference map takes no notice of sweeps. -/
theorem Reference.answers_filter_isOp
    (map : Reference)
    (events : List StoreEvent) :
    Reference.answers map (events.filter StoreEvent.isOp) =
      Reference.answers map events := by
  induction events generalizing map with
  | nil =>
      rfl
  | cons event later inductionHypothesis =>
      cases event with
      | sweep now =>
          simp only [List.filter_cons, StoreEvent.isOp,
            Bool.false_eq_true, if_false, Reference.answers]
          exact inductionHypothesis map
      | op first second operation =>
          simp only [List.filter_cons, StoreEvent.isOp, if_true,
            Reference.answers, inductionHypothesis]

/--
Operations on a fresh store, in the order of their clock readings and with
sweeps anywhere between them, have the results they have without any sweep, and
these are the results of the reference map.
-/
theorem KvStore.answers_independent_of_sweeps
    (events : List StoreEvent)
    (ordered :
      (events.flatMap StoreEvent.readings).Pairwise (· ≤ ·))
    (fits : ∀ event ∈ events, event.Fits) :
    KvStore.empty.answers events =
        KvStore.empty.answers (events.filter StoreEvent.isOp) ∧
      KvStore.empty.answers events =
        Reference.answers (fun _ => none)
          (events.filter StoreEvent.isOp) := by
  have start
      (readings : List TimePoint)
      (sorted : readings.Pairwise (· ≤ ·)) :
      (Int64.minValue :: readings).Pairwise (· ≤ ·) :=
    List.pairwise_cons.mpr
      ⟨fun reading _ => Int64.minValue_le reading, sorted⟩
  have refines := KvStore.Refines.empty Int64.minValue
  have swept := refines.answers_eq (start _ ordered) fits
  have fewer :=
    ordered.sublist (StoreEvent.readings_filter_sublist events)
  have unswept :=
    refines.answers_eq (start _ fewer) fun event member =>
      fits event (List.mem_of_mem_filter member)
  have same :=
    Reference.answers_filter_isOp (fun _ => none) events
  rw [swept, unswept, same]
  exact ⟨rfl, rfl⟩

/--
A key that is set for one millisecond and swept right at its deadline: a
deletion finds nothing, with the sweep or without it.
-/
theorem KvStore.answers_independent_of_sweeps_at_deadline :
    let stored : StoreEvent :=
      .op 0 0 (.set [107] (.string [118]) 1)
    let deleted : StoreEvent := .op 1000000 1000000 (.del [107])
    KvStore.empty.answers [stored, .sweep 1000000, deleted] =
      KvStore.empty.answers [stored, deleted] := by
  intro stored deleted
  refine (answers_independent_of_sweeps
    [stored, .sweep 1000000, deleted] (by decide) ?_).1
  simp only [List.forall_mem_cons, List.not_mem_nil, false_implies,
    implies_true, and_true]
  refine ⟨fun _ => ?_, trivial, trivial⟩
  exact ⟨⟨by decide, by decide⟩, by decide, by decide⟩

end Vortek

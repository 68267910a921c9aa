import Vortek.SetGrammar

namespace Vortek

open CallScript DecimalText

/-!
# Deadline arithmetic

A duration in seconds becomes milliseconds when the handler assigns it, and
nanoseconds when the store adds it to the clock.  The handlers check its sign
only.  `ttl?` and `deadlineAfter?` are the three computations over operators
that have no result where C++ has none; they all have one, and the deadline is
the exact one, precisely when it fits into the clock.
-/

/-- The duration that an item asks for, in milliseconds. -/
def SetItem.milliseconds : SetItem → Int
  | .nx | .xx => 0
  | .ex secs => secs.toInt * 1000
  | .px ms => ms.toInt

/-- The assignment to `ttl`, with a conversion that may be undefined. -/
def SetItem.ttl? : SetItem → Option Int64
  | .nx | .xx => some 0
  | .ex secs => CheckedInt64.mul secs 1000
  | .px ms => some ms

/-- `Clock::now() + ttl`, with a conversion and a sum that may be undefined. -/
def deadlineAfter? (now : TimePoint) (ttl : Int64) : Option TimePoint :=
  (CheckedInt64.mul ttl 1000000).bind (CheckedInt64.add now)

/--
The command is accepted and gives the key a deadline: the duration is that of
`item`, and `earlier` are the durations of the same command that it replaces.
-/
inductive Requests
    (now : TimePoint)
    (store : KvStore) :
    Command → Bytes → List SetItem → SetItem → Prop where
  | set
      {key value : Bytes}
      {flags : List Bytes}
      {items earlier : List SetItem}
      {item : SetItem}
      (grammar : SetItems flags items)
      (compatible : ¬ (SetItem.nx ∈ items ∧ SetItem.xx ∈ items))
      (executed : ¬ Suppressed items (store.exists? now key))
      (durations :
        items.filter SetItem.isTimed = earlier ++ [item]) :
      Requests now store ⟨ascii "SET", key :: value :: flags⟩ key
        earlier item
  | expire
      {key text : Bytes}
      {secs : Int64}
      (read : Int64Text text secs)
      (nonnegative : 0 ≤ secs.toInt)
      (live : store.exists? now key = true) :
      Requests now store ⟨ascii "EXPIRE", [key, text]⟩ key [] (.ex secs)

/-- Nothing overflows, and the key lives for exactly the duration. -/
structure ExactDeadline
    (now : TimePoint)
    (key : Bytes)
    (earlier : List SetItem)
    (item : SetItem)
    (after : KvStore) :
    Prop where
  conversions : ∀ other ∈ earlier, other.ttl? ≠ none
  sum : item.ttl?.bind (deadlineAfter? now) ≠ none
  stored :
    ∃ value deadline,
      after.data.lookup key = some ⟨value, some deadline⟩ ∧
        deadline.toInt = now.toInt + item.nanoseconds
  live :
    ∀ reading : TimePoint,
      after.exists? reading key = true ↔
        reading.toInt < now.toInt + item.nanoseconds

section Conversions

variable {item : SetItem} {now : TimePoint}

/-- The conversion to milliseconds is defined where it is exact. -/
theorem ttl?_eq_some_iff
    {ttl : Int64} :
    item.ttl? = some ttl ↔ ttl.toInt = item.milliseconds := by
  cases item with
  | nx | xx =>
      rw [SetItem.ttl?, Option.some.injEq, ← Int64.toInt_inj]
      exact eq_comm
  | ex secs =>
      exact CheckedInt64.ofInt?_eq_some_iff
  | px ms =>
      rw [SetItem.ttl?, Option.some.injEq, ← Int64.toInt_inj]
      exact eq_comm

theorem milliseconds_mul :
    item.milliseconds * 1000000 = item.nanoseconds := by
  cases item with
  | nx | xx | px =>
      rfl
  | ex secs =>
      simp only [SetItem.milliseconds, SetItem.nanoseconds]
      omega

/-- The store's computation is defined where it is exact. -/
theorem deadlineAfter?_eq_some_iff
    {ttl : Int64}
    {deadline : TimePoint} :
    deadlineAfter? now ttl = some deadline ↔
      ttl.toInt * 1000000 < 2 ^ 63 ∧ -2 ^ 63 ≤ ttl.toInt * 1000000 ∧
        deadline.toInt = now.toInt + ttl.toInt * 1000000 := by
  have million : (1000000 : Int64).toInt = 1000000 :=
    rfl
  simp only [deadlineAfter?, Option.bind_eq_some_iff, CheckedInt64.mul,
    CheckedInt64.add, CheckedInt64.ofInt?_eq_some_iff, million]
  constructor
  · rintro ⟨nanos, product, sum⟩
    rw [← product]
    exact ⟨nanos.toInt_lt, nanos.le_toInt, sum⟩
  · rintro ⟨high, low, sum⟩
    have product := CheckedInt64.toInt_ofInt_of_inRange ⟨low, high⟩
    exact ⟨_, product, by rw [product, sum]⟩

theorem ttl?_ne_none_iff
    (nonnegative : 0 ≤ item.milliseconds) :
    item.ttl? ≠ none ↔ item.milliseconds < 2 ^ 63 := by
  rw [Option.ne_none_iff_exists']
  simp only [ttl?_eq_some_iff]
  constructor
  · rintro ⟨ttl, exact⟩
    rw [← exact]
    exact ttl.toInt_lt
  · intro small
    refine ⟨_, CheckedInt64.toInt_ofInt_of_inRange ⟨?_, small⟩⟩
    omega

/-- The whole computation is defined exactly if the deadline fits. -/
theorem deadline?_ne_none_iff
    (nonnegative : 0 ≤ item.milliseconds)
    (clock : 0 ≤ now.toInt) :
    item.ttl?.bind (deadlineAfter? now) ≠ none ↔
      now.toInt + item.nanoseconds < 2 ^ 63 := by
  rw [Option.ne_none_iff_exists', ← milliseconds_mul]
  simp only [Option.bind_eq_some_iff, ttl?_eq_some_iff,
    deadlineAfter?_eq_some_iff]
  constructor
  · rintro ⟨deadline, ttl, exact, -, -, sum⟩
    rw [← exact, ← sum]
    exact deadline.toInt_lt
  · intro small
    have converted :
        (Int64.ofInt item.milliseconds).toInt = item.milliseconds :=
      CheckedInt64.toInt_ofInt_of_inRange ⟨by omega, by omega⟩
    have sum :
        (Int64.ofInt
          (now.toInt + item.milliseconds * 1000000)).toInt =
          now.toInt + item.milliseconds * 1000000 :=
      CheckedInt64.toInt_ofInt_of_inRange ⟨by omega, small⟩
    refine ⟨Int64.ofInt (now.toInt + item.milliseconds * 1000000),
      Int64.ofInt item.milliseconds, converted, ?_⟩
    rw [converted]
    exact ⟨by omega, by omega, sum⟩

end Conversions

section Storing

variable {now : TimePoint} {backend : Backend} {cmd : Command}
variable {key : Bytes} {earlier : List SetItem} {item : SetItem}

/-- Every duration of an accepted command is nonnegative. -/
theorem Requests.nonnegative
    (requests : Requests now backend.store cmd key earlier item) :
    ∀ other ∈ earlier ++ [item], 0 ≤ other.milliseconds := by
  cases requests with
  | set grammar _ _ durations =>
      intro other member
      rw [← durations] at member
      have listed := List.mem_filter.mp member
      have positive := grammar.positive listed.1 listed.2
      rw [← milliseconds_mul] at positive
      omega
  | expire read nonnegative _ =>
      intro other member
      cases List.mem_singleton.mp member
      simp only [SetItem.milliseconds]
      omega

/-- EXPIRE with a duration hands it to the store. -/
theorem dispatch_expire_of_text
    {text : Bytes}
    {secs : Int64}
    (read : Int64Text text secs)
    (nonnegative : 0 ≤ secs.toInt) :
    (backend.dispatch now ⟨ascii "EXPIRE", [key, text]⟩).2.store =
      (backend.store.expire now key (secs * 1000)).2 := by
  have parsed := wholeInt64?_eq_some_iff.mpr read
  have notNegative : ¬ secs < 0 := fun negative =>
    absurd (Int64.lt_iff_toInt_lt.mp negative) nonnegative.not_gt
  change (backend.exec now
    (cmdExpire ⟨ascii "EXPIRE", [key, text]⟩)).2.store = _
  simp only [cmdExpire, parsed, notNegative, Backend.exec, if_false]
  rfl

/-- A deadline that fits is stored as it was asked for. -/
theorem Requests.stored
    (requests : Requests now backend.store cmd key earlier item)
    (clock : 0 ≤ now.toInt)
    (fits : now.toInt + item.nanoseconds < 2 ^ 63) :
    ∃ value deadline,
      (backend.dispatch now cmd).2.store.data.lookup key =
          some ⟨value, some deadline⟩ ∧
        deadline.toInt = now.toInt + item.nanoseconds := by
  have nonnegative : 0 ≤ item.nanoseconds := by
    have given := requests.nonnegative item (by simp)
    rw [← milliseconds_mul]
    omega
  cases requests with
  | @set key value flags items _ _ grammar compatible executed
      durations =>
      have last : lastTimed items = some item := by
        rw [lastTimed, durations, List.getLast?_concat]
      obtain ⟨expiresAt, expires, stored⟩ := expiresBy_set grammar
      rw [ExpiresBy, last] at expires
      obtain ⟨deadline, rfl, exact⟩ := expires (by omega) fits
      refine ⟨.string value, deadline, ?_, exact⟩
      rw [dispatch_set_of_items grammar, if_neg compatible,
        if_neg executed, stored]
      exact AList.lookup_insert _
  | @expire _ text secs read _ live =>
      obtain ⟨entry, alive⟩ := Option.isSome_iff_exists.mp live
      have exact :=
        toInt_deadlineAfter_ttl nonnegative (by omega) fits
      refine ⟨entry.value, _, ?_, exact⟩
      have seconds : 0 ≤ secs.toInt := by
        simp only [SetItem.nanoseconds] at nonnegative
        omega
      rw [dispatch_expire_of_text read seconds]
      simp [KvStore.expire, alive, SetItem.ttl]

/-- A key with a deadline is live before it. -/
theorem exists?_iff_of_deadline
    {store : KvStore}
    {value : Value}
    {deadline : TimePoint}
    (stored : store.data.lookup key = some ⟨value, some deadline⟩)
    (reading : TimePoint) :
    store.exists? reading key = true ↔
      reading.toInt < deadline.toInt := by
  simp only [KvStore.exists?, KvStore.liveEntry, stored,
    Entry.isExpired, decide_eq_true_eq, Int64.le_iff_toInt_le]
  by_cases elapsed : deadline.toInt ≤ reading.toInt
  · simp [elapsed]
  · simp [elapsed, not_le.mp elapsed]

end Storing

namespace Backend

/--
The deadline of an accepted duration is computed without overflow and is exact
if and only if every duration of the command fits in milliseconds, and the one
that counts fits between the clock reading and the end of the clock.
-/
theorem exactDeadline_iff
    (backend : Backend)
    (now : TimePoint)
    (cmd : Command)
    (key : Bytes)
    (earlier : List SetItem)
    (item : SetItem)
    (clock : 0 ≤ now.toInt)
    (requests : Requests now backend.store cmd key earlier item) :
    ExactDeadline now key earlier item
        (backend.dispatch now cmd).2.store ↔
      (∀ other ∈ earlier, other.milliseconds < 2 ^ 63) ∧
        now.toInt + item.nanoseconds < 2 ^ 63 := by
  have nonnegative := requests.nonnegative
  have itself : 0 ≤ item.milliseconds :=
    nonnegative item (by simp)
  have earlierOnes :
      ∀ other ∈ earlier,
        (other.ttl? ≠ none ↔ other.milliseconds < 2 ^ 63) :=
    fun other member =>
      ttl?_ne_none_iff (nonnegative other (by simp [member]))
  constructor
  · intro exact
    refine ⟨fun other member => ?_, ?_⟩
    · exact (earlierOnes other member).mp
        (exact.conversions other member)
    · exact (deadline?_ne_none_iff itself clock).mp exact.sum
  · rintro ⟨small, fits⟩
    obtain ⟨value, deadline, stored, same⟩ :=
      requests.stored clock fits
    refine ⟨fun other member => ?_, ?_, ⟨value, deadline, stored, same⟩,
      fun reading => ?_⟩
    · exact (earlierOnes other member).mpr (small other member)
    · exact (deadline?_ne_none_iff itself clock).mpr fits
    · rw [← same]
      exact exists?_iff_of_deadline stored reading

/-- SET with ten seconds, and a larger duration before it in the options. -/
theorem exactDeadline_ten_seconds :
    let cmd : Command :=
      ⟨ascii "SET",
        [[107], [118], ascii "px", ascii "99999", ascii "EX",
          ascii "10"]⟩
    ExactDeadline 5 [107] [.px 99999] (.ex 10)
      (initial.dispatch 5 cmd).2.store := by
  intro cmd
  have grammar :
      SetItems
        [ascii "px", ascii "99999", ascii "EX", ascii "10"]
        [.px 99999, .ex 10] :=
    .px (by decide) (wholeInt64?_eq_some_iff.mp (by decide)) (by decide)
      (.ex (by decide) (wholeInt64?_eq_some_iff.mp (by decide))
        (by decide) .nil)
  have requests :
      Requests 5 initial.store cmd [107] [.px 99999] (.ex 10) :=
    .set grammar (by decide) (by decide) rfl
  exact (exactDeadline_iff initial 5 cmd [107] [.px 99999] (.ex 10)
    (by decide) requests).mpr (by decide)

/--
SET with the largest number of seconds is accepted: the conversion to
milliseconds overflows, and the key never expires.
-/
theorem set_ex_largest_never_expires :
    let cmd : Command :=
      ⟨ascii "SET",
        [[107], [118], ascii "EX", ascii "9223372036854775807"]⟩
    Requests 0 initial.store cmd [107] [] (.ex Int64.maxValue) ∧
      (initial.dispatch 0 cmd).1 = .ok okReply ∧
      (SetItem.ex Int64.maxValue).ttl? = none ∧
      (initial.dispatch 0 cmd).2.store.data.lookup [107] =
        some ⟨.string [118], none⟩ ∧
      ¬ ExactDeadline 0 [107] [] (.ex Int64.maxValue)
        (initial.dispatch 0 cmd).2.store := by
  intro cmd
  have grammar :
      SetItems [ascii "EX", ascii "9223372036854775807"]
        [.ex Int64.maxValue] :=
    .ex (by decide) (wholeInt64?_eq_some_iff.mp (by decide)) (by decide)
      .nil
  have timeless :
      (initial.dispatch 0 cmd).2.store.data.lookup [107] =
        some ⟨.string [118], none⟩ := by
    rfl
  refine ⟨.set grammar (by decide) (by decide) rfl, rfl, by decide,
    timeless, fun exact => ?_⟩
  obtain ⟨value, deadline, stored, -⟩ := exact.stored
  rw [timeless] at stored
  cases stored

end Backend

end Vortek

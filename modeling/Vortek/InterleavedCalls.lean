import Vortek.EntrywiseCommands
import Vortek.ScheduledRuns

namespace Vortek

open CallScript

/-!
# Calls between passes of the expiry thread

A handler calls the store once or several times.  Every call takes the lock of
the store for itself and reads the clock for itself, and between two calls time
passes and the expiry thread may sweep the store.  `Backend.dispatchAt` executes
a command in this way, while `Backend.dispatch` has one reading of the clock for
all the calls of a command, and no sweeps among them.

A program acts at once if it could have been executed as a whole at one reading,
between its first and its last, with the same result and leaving what looks like
the same store.  Programs that make one call that matters do
(`actsAtOnce_of_looksOnce`).  So do programs that only check and delete keys,
if no deadline falls among their readings (`actsAtOnce_of_counts`).
-/

/--
When a call takes place: a reading of the clock in front of the lock, the passes
of the expiry thread before the lock is taken, and two readings behind it.
-/
structure Moment where
  early : TimePoint
  passes : List TimePoint
  first : TimePoint
  second : TimePoint

/-- The moment lies between two clock readings. -/
structure Moment.Between
    (opens closes : TimePoint)
    (moment : Moment) :
    Prop where
  early : opens ≤ moment.early
  locked : moment.early ≤ moment.first
  swept : ∀ now ∈ moment.passes, now ≤ moment.first
  read : moment.first ≤ moment.second
  late : moment.second ≤ closes

/-- The moments of a command follow each other between two clock readings. -/
structure Ascends
    (opens closes : TimePoint)
    (schedule : Nat → Moment) :
    Prop where
  head : (schedule 0).Between opens closes
  tail :
    ∀ position,
      (schedule (position + 1)).Between (schedule position).second closes

section Order

variable {opens closes : TimePoint} {moment : Moment}
variable {schedule : Nat → Moment}

theorem Moment.Between.first_ge
    (between : moment.Between opens closes) :
    opens ≤ moment.first :=
  Int64.le_trans between.early between.locked

theorem Moment.Between.second_ge
    (between : moment.Between opens closes) :
    opens ≤ moment.second :=
  Int64.le_trans between.first_ge between.read

theorem Moment.Between.first_le
    (between : moment.Between opens closes) :
    moment.first ≤ closes :=
  Int64.le_trans between.read between.late

theorem Moment.Between.early_le
    (between : moment.Between opens closes) :
    moment.early ≤ closes :=
  Int64.le_trans between.locked between.first_le

theorem Moment.Between.swept_le
    (between : moment.Between opens closes) :
    ∀ now ∈ moment.passes, now ≤ closes :=
  fun now member =>
    Int64.le_trans (between.swept now member) between.first_le

/-- Every moment of a schedule lies between the ends. -/
theorem Ascends.between
    (ascends : Ascends opens closes schedule)
    (position : Nat) :
    (schedule position).Between opens closes := by
  induction position with
  | zero =>
      exact ascends.head
  | succ position inductionHypothesis =>
      exact { ascends.tail position with
        early :=
          Int64.le_trans inductionHypothesis.second_ge
            (ascends.tail position).early }

theorem Ascends.order
    (ascends : Ascends opens closes schedule) :
    opens ≤ closes :=
  Int64.le_trans ascends.head.second_ge ascends.head.late

end Order

namespace Backend

/-- Passes of the expiry thread. -/
def sweepAll (backend : Backend) (passes : List TimePoint) : Backend :=
  backend.withStore (passes.foldl KvStore.sweep backend.store)

/-- Answer one call at its own moment. -/
def stepAt (moment : Moment) :
    (call : Call) → Backend → call.Answer × Backend
  | .set key value ttl, backend =>
      -- The deadline is computed before the lock is taken.
      step moment.early (.set key value ttl) (backend.sweepAll moment.passes)
  | .expire key ttl, backend =>
      let swept := backend.sweepAll moment.passes
      let outcome :=
        swept.store.expireReading moment.first moment.second key ttl
      (outcome.1, swept.withStore outcome.2)
  | .ttl key, backend =>
      let swept := backend.sweepAll moment.passes
      (swept.store.ttlReading moment.first moment.second key, swept)
  | call, backend =>
      step moment.first call (backend.sweepAll moment.passes)

/-- Execute a command whose calls take place one moment after the other. -/
def dispatchAt
    (backend : Backend)
    (schedule : Nat → Moment)
    (cmd : Command) :
    Except CppException RespValue × Backend :=
  ((Dispatcher.makeDefault backend.broker.isSome).dispatch cmd).runAt
    stepAt schedule backend

/-- At one reading and without passes this is `dispatch`. -/
theorem dispatchAt_steady
    (backend : Backend)
    (now : TimePoint)
    (cmd : Command) :
    backend.dispatchAt (fun _ => ⟨now, [], now, now⟩) cmd =
      backend.dispatch now cmd := by
  refine Script.runAt_of_steady (fun _ => ?_) _ _
  funext call backend
  cases call <;> rfl

end Backend

namespace KvStore

variable {now later first second : TimePoint} {store other : KvStore}

/-- Many sweeps do not change what the store looks like later. -/
theorem Mirrors.sweepAll
    {passes : List TimePoint}
    (alike : Mirrors later store later other)
    (forward : ∀ now ∈ passes, now ≤ later) :
    Mirrors later (passes.foldl KvStore.sweep store) later other := by
  induction passes generalizing store with
  | nil =>
      exact alike
  | cons now more inductionHypothesis =>
      exact inductionHypothesis
        (alike.sweep (forward now List.mem_cons_self))
        fun next member => forward next (List.mem_cons_of_mem now member)

/-- Without a duration it does not matter when a key is set. -/
theorem Mirrors.set_forever
    {ttl : Int64}
    (alike : Mirrors later store later other)
    (forever : ¬0 < ttl)
    (first second : TimePoint)
    (key : Bytes)
    (value : Value) :
    Mirrors later (store.set first key value ttl)
      later (other.set second key value ttl) := by
  have leaves
      (store : KvStore)
      (now : TimePoint) :
      store.set now key value ttl = store.set later key value ttl := by
    unfold KvStore.set
    rw [if_neg forever, if_neg forever]
  rw [leaves store, leaves other]
  exact alike.set (.inl rfl) key value

/-- It does not matter when a key is deleted. -/
theorem Mirrors.del_anytime
    (alike : Mirrors later store later other)
    (first second : TimePoint)
    (key : Bytes) :
    Mirrors later (store.del first key).2
      later (other.del second key).2 := by
  refine ⟨fun asked => ?_, fun differs => absurd rfl differs⟩
  rw [liveEntry_del, liveEntry_del, alike.live]

/-- Right before a deadline less than a millisecond is left, as behind it. -/
theorem remaining_at_deadline
    {deadline : TimePoint}
    (epoch : 0 ≤ first)
    (ahead : ¬deadline ≤ first)
    (reached : deadline ≤ second) :
    first ≤ deadline - 1 ∧ ¬deadline ≤ deadline - 1 ∧
      max 0 ((deadline - second) / 1000000) =
        max 0 ((deadline - (deadline - 1)) / 1000000) := by
  have zero : (0 : Int64).toInt = 0 :=
    rfl
  have one : (1 : Int64).toInt = 1 :=
    rfl
  have high := second.toInt_lt
  rw [Int64.le_iff_toInt_le] at epoch ahead reached
  rw [Int64.le_iff_toInt_le, Int64.le_iff_toInt_le]
  have before : (deadline - 1).toInt = deadline.toInt - 1 := by
    rw [Int64.toInt_sub, one]
    exact Int.bmod_eq_of_le (by omega) (by omega)
  refine ⟨by omega, by omega, Int64.toInt_inj.mp ?_⟩
  rw [toInt_remaining (by omega) (by omega),
    toInt_remaining (by omega) (by omega)]
  have nothing :
      (deadline.toInt - second.toInt).tdiv 1000000 ≤ 0 := by
    rw [← neg_sub, Int.neg_tdiv]
    exact neg_nonpos.mpr (Int.tdiv_nonneg (by omega) (by decide))
  have little : (deadline.toInt - (deadline - 1).toInt).tdiv 1000000 = 0 := by
    rw [before, sub_sub_cancel]
    rfl
  rw [Reference.remaining, Reference.remaining, little]
  omega

/-- `ttl` answers as it would with one reading, between its two. -/
theorem ttlReading_at_once
    (epoch : 0 ≤ first)
    (order : first ≤ second)
    (key : Bytes) :
    ∃ now,
      first ≤ now ∧ now ≤ second ∧
        store.ttlReading first second key = store.ttl now key := by
  cases found : store.liveEntry first key with
  | none =>
      refine ⟨first, Int64.le_refl first, order, ?_⟩
      simp only [ttlReading, ttl, found]
  | some entry =>
      obtain ⟨stored, alive⟩ := liveEntry_eq_some_iff.mp found
      cases expires : entry.expiresAt with
      | none =>
          refine ⟨first, Int64.le_refl first, order, ?_⟩
          simp only [ttlReading, ttl, found, expires]
      | some deadline =>
          have finds
              (now : TimePoint)
              (ahead : ¬deadline ≤ now) :
              store.liveEntry now key = some entry :=
            liveEntry_eq_some_iff.mpr
              ⟨stored, by simpa [Entry.isExpired, expires] using ahead⟩
          by_cases reached : deadline ≤ second
          · have ahead : ¬deadline ≤ first := by
              simpa [Entry.isExpired, expires] using alive
            obtain ⟨begun, before, same⟩ :=
              remaining_at_deadline epoch ahead reached
            have bounded : deadline - 1 ≤ second :=
              Int64.le_trans (Int64.le_of_lt (Int64.not_le.mp before))
                reached
            refine ⟨deadline - 1, begun, bounded, ?_⟩
            simp only [ttlReading, ttl, found, finds _ before, expires, same]
          · refine ⟨second, order, Int64.le_refl second, ?_⟩
            simp only [ttlReading, ttl, found, finds _ reached, expires]

end KvStore

namespace Call

/-- The call looks at one entry. -/
def Looks : Call → Prop
  | .get _ | .del _ | .exists? _ | .ttl _ | .persist _ => True
  | _ => False

/-- Neither the answer of the call nor what it does depends on the clock. -/
def Clockless : Call → Prop
  | .set _ _ duration => ¬0 < duration
  | .stats | .publish _ _ => True
  | _ => False

/-- What the call does depends on the clock in its answer only. -/
def Deletes : Call → Prop
  | .del _ => True
  | _ => False

/-- The call is one that EXISTS or DEL makes for each of its keys. -/
def Counts : Call → Prop
  | .exists? _ | .del _ => True
  | _ => False

end Call

namespace Backend

variable {opens closes now later : TimePoint} {moment : Moment}
variable {schedule : Nat → Moment} {backend other : Backend} {call : Call}

theorem Twins.pass
    (twins : backend.Twins now other)
    (forward : now ≤ later) :
    backend.Twins later other := by
  obtain ⟨store, rfl, alike⟩ := twins
  exact ⟨store, rfl, alike.pass forward⟩

theorem Twins.sweepAll
    {passes : List TimePoint}
    (twins : backend.Twins later other)
    (forward : ∀ now ∈ passes, now ≤ later) :
    (backend.sweepAll passes).Twins later other := by
  obtain ⟨store, rfl, alike⟩ := twins
  exact ⟨store, rfl, alike.sweepAll forward⟩

/-- A call that looks at one entry acts at once. -/
theorem stepAt_looks
    (looks : call.Looks)
    (epoch : 0 ≤ opens)
    (between : moment.Between opens closes)
    (twins : backend.Twins opens other) :
    ∃ now,
      opens ≤ now ∧ now ≤ closes ∧
        (stepAt moment call backend).1 = (step now call other).1 ∧
        (stepAt moment call backend).2.Twins closes
          (step now call other).2 := by
  have swept :=
    (twins.pass between.first_ge).sweepAll between.swept
  have atFirst
      (entrywise : call.Entrywise)
      (usual :
        stepAt moment call backend =
          step moment.first call (backend.sweepAll moment.passes)) :
      ∃ now,
        opens ≤ now ∧ now ≤ closes ∧
          (stepAt moment call backend).1 = (step now call other).1 ∧
          (stepAt moment call backend).2.Twins closes
            (step now call other).2 := by
    obtain ⟨answer, still⟩ := step_twins entrywise swept
    rw [usual]
    exact ⟨moment.first, between.first_ge, between.first_le, answer,
      still.pass between.first_le⟩
  cases call with
  | get key | del key | exists? key | persist key =>
      exact atFirst trivial rfl
  | ttl key =>
      obtain ⟨now, begun, bounded, same⟩ :=
        KvStore.ttlReading_at_once
          (Int64.le_trans epoch between.first_ge) between.read key
      have entrywise : (Call.ttl key).Entrywise := trivial
      obtain ⟨answer, still⟩ := step_twins entrywise (swept.pass begun)
      have ended := Int64.le_trans bounded between.late
      exact ⟨now, Int64.le_trans between.first_ge begun, ended,
        same.trans answer, still.pass ended⟩
  | set | expire | size | approxMemoryBytes | stats | uptimeSeconds
  | publish =>
      exact looks.elim

/-- A call without the clock does the same at every time. -/
theorem stepAt_clockless
    (clockless : call.Clockless)
    (between : moment.Between opens closes)
    (twins : backend.Twins closes other)
    (now : TimePoint) :
    (stepAt moment call backend).1 = (step now call other).1 ∧
      (stepAt moment call backend).2.Twins closes
        (step now call other).2 := by
  obtain ⟨store, rfl, alike⟩ := twins.sweepAll between.swept_le
  cases call with
  | set key value ttl =>
      exact ⟨rfl, _, rfl,
        alike.set_forever clockless moment.early now key value⟩
  | stats =>
      exact ⟨rfl, store, rfl, alike⟩
  | publish channel message =>
      obtain ⟨held, stats, broker, posted⟩ := backend
      cases broker <;> exact ⟨rfl, store, rfl, alike⟩
  | get | del | exists? | persist | expire | ttl | size | approxMemoryBytes
  | uptimeSeconds =>
      exact clockless.elim

/-- What a deletion leaves does not depend on the clock either. -/
theorem stepAt_deletes
    (deletes : call.Deletes)
    (between : moment.Between opens closes)
    (twins : backend.Twins closes other)
    (now : TimePoint) :
    (stepAt moment call backend).2.Twins closes (step now call other).2 := by
  obtain ⟨store, rfl, alike⟩ := twins.sweepAll between.swept_le
  cases call with
  | del key =>
      exact ⟨_, rfl, alike.del_anytime moment.first now key⟩
  | get | set | exists? | persist | expire | ttl | size | approxMemoryBytes
  | stats | uptimeSeconds | publish =>
      exact deletes.elim

/--
There is one clock reading at which the program could have been executed as a
whole, with the same result and leaving what looks like the same state.
-/
def ActsAtOnce
    {Result : Type}
    (opens closes : TimePoint)
    (schedule : Nat → Moment)
    (backend other : Backend)
    (program : Program Result) :
    Prop :=
  ∃ now,
    opens ≤ now ∧ now ≤ closes ∧
      (program.runAt stepAt schedule backend).1 =
        (other.exec now program).1 ∧
      (program.runAt stepAt schedule backend).2.Twins closes
        (other.exec now program).2

variable {Result : Type} {program : Program Result}

/-- What settles does the same at every time. -/
theorem runAt_of_settles
    (settles : program.Settles Call.Clockless Call.Deletes)
    (inTime : ∀ position, (schedule position).Between opens closes)
    (twins : backend.Twins closes other)
    (now : TimePoint) :
    (program.runAt stepAt schedule backend).1 =
        (other.exec now program).1 ∧
      (program.runAt stepAt schedule backend).2.Twins closes
        (other.exec now program).2 := by
  refine Script.Settles.runAt_related (Twins closes) ?_ ?_ settles inTime
    twins
  · rintro moment call backend other between (clockless | deletes) twins
    · exact (stepAt_clockless clockless between twins now).2
    · exact stepAt_deletes deletes between twins now
  · intro moment call backend other between clockless twins
    exact (stepAt_clockless clockless between twins now).1

/-- What looks once acts at the time of the look. -/
theorem actsAtOnce_of_looksOnce
    (looksOnce :
      program.LooksOnce Call.Looks Call.Clockless Call.Deletes)
    (epoch : 0 ≤ opens)
    (ascends : Ascends opens closes schedule)
    (twins : backend.Twins opens other) :
    ActsAtOnce opens closes schedule backend other program := by
  cases program with
  | done result =>
      exact ⟨opens, Int64.le_refl opens, ascends.order, rfl,
        twins.pass ascends.order⟩
  | raise fault =>
      exact ⟨opens, Int64.le_refl opens, ascends.order, rfl,
        twins.pass ascends.order⟩
  | call call resume =>
      obtain ⟨looks | clockless, settles⟩ := looksOnce
      · obtain ⟨now, begun, ended, answer, still⟩ :=
          stepAt_looks looks epoch ascends.head twins
        refine ⟨now, begun, ended, ?_⟩
        simp only [Script.runAt, exec, Script.run, ← answer]
        exact runAt_of_settles (settles _)
          (fun position => ascends.between (position + 1)) still now
      · have always : (Script.call call resume).Settles
            Call.Clockless Call.Deletes := ⟨.inl clockless, settles⟩
        exact ⟨opens, Int64.le_refl opens, ascends.order,
          runAt_of_settles always ascends.between
            (twins.pass ascends.order) opens⟩

end Backend

namespace KvStore

variable {opens closes now : TimePoint} {store other : KvStore}

/-- No entry expires between two clock readings. -/
def Quiet (opens closes : TimePoint) (store : KvStore) : Prop :=
  ∀ key entry,
    store.liveEntry opens key = some entry →
    entry.isExpired closes = false

/-- All that time, lookups find the same. -/
theorem Quiet.liveEntry_eq
    (quiet : store.Quiet opens closes)
    (begun : opens ≤ now)
    (ended : now ≤ closes)
    (key : Bytes) :
    store.liveEntry now key = store.liveEntry opens key := by
  apply Option.ext
  intro entry
  constructor
  · exact liveEntry_of_later begun
  · intro found
    have atEnd : store.liveEntry closes key = some entry :=
      liveEntry_eq_some_iff.mpr
        ⟨(liveEntry_eq_some_iff.mp found).1, quiet key entry found⟩
    exact liveEntry_of_later ended atEnd

/-- A sweep finds nothing to remove but what was expired from the start. -/
theorem Quiet.liveEntry_sweep
    (quiet : store.Quiet opens closes)
    (ended : now ≤ closes)
    (key : Bytes) :
    (store.sweep now).liveEntry opens key = store.liveEntry opens key := by
  rcases Int64.le_total now opens with before | begun
  · exact KvStore.liveEntry_sweep before key
  · apply Option.ext
    intro entry
    rw [liveEntry_eq_some_iff, lookup_sweep, quiet.liveEntry_eq begun ended]
    constructor
    · exact And.left
    · intro found
      exact ⟨found, (liveEntry_eq_some_iff.mp found).2⟩

/-- Two stores that look alike from the first reading on, and are quiet. -/
structure Still
    (opens closes : TimePoint)
    (store other : KvStore) :
    Prop where
  alike : Mirrors opens store opens other
  quiet : store.Quiet opens closes

/-- At all readings, one store looks like the other at any. -/
theorem Still.liveEntry_eq
    {later : TimePoint}
    (still : Still opens closes store other)
    (begun : opens ≤ now)
    (ended : now ≤ closes)
    (begunToo : opens ≤ later)
    (endedToo : later ≤ closes)
    (key : Bytes) :
    store.liveEntry now key = other.liveEntry later key := by
  have quietToo : other.Quiet opens closes := fun asked entry found =>
    still.quiet asked entry ((still.alike.live asked).symm.trans found)
  rw [still.quiet.liveEntry_eq begun ended,
    quietToo.liveEntry_eq begunToo endedToo, still.alike.live]

theorem Still.sweepAll
    {passes : List TimePoint}
    (still : Still opens closes store other)
    (ended : ∀ now ∈ passes, now ≤ closes) :
    Still opens closes (passes.foldl KvStore.sweep store) other := by
  induction passes generalizing store with
  | nil =>
      exact still
  | cons now more inductionHypothesis =>
      have bounded := ended now List.mem_cons_self
      have swept : Still opens closes (store.sweep now) other := by
        refine ⟨⟨fun key => ?_, fun differs => absurd rfl differs⟩, ?_⟩
        · rw [still.alike.live, still.quiet.liveEntry_sweep bounded]
        · intro key entry found
          rw [still.quiet.liveEntry_sweep bounded] at found
          exact still.quiet key entry found
      exact inductionHypothesis swept
        fun next member => ended next (List.mem_cons_of_mem now member)

theorem Still.del
    (still : Still opens closes store other)
    (first second : TimePoint)
    (key : Bytes) :
    Still opens closes (store.del first key).2 (other.del second key).2 := by
  refine ⟨still.alike.del_anytime first second key, ?_⟩
  intro asked entry found
  rw [liveEntry_del] at found
  split at found
  · cases found
  · exact still.quiet asked entry found

/-- `expire` acts at its second reading. -/
theorem Still.expire
    {first second : TimePoint}
    (still : Still opens closes store other)
    (begun : opens ≤ first)
    (order : first ≤ second)
    (ended : second ≤ closes)
    (key : Bytes)
    (ttl : Int64) :
    (store.expireReading first second key ttl).1 =
        (other.expire second key ttl).1 ∧
      Mirrors closes (store.expireReading first second key ttl).2
        closes (other.expire second key ttl).2 := by
  have begunToo := Int64.le_trans begun order
  have alike := still.alike.pass (Int64.le_trans begunToo ended)
  have same :=
    still.liveEntry_eq begun (Int64.le_trans order ended) begunToo ended key
  unfold expireReading KvStore.expire
  rw [same]
  cases other.liveEntry second key with
  | none =>
      exact ⟨rfl, alike⟩
  | some entry =>
      exact ⟨rfl, alike.insert rfl (fun differs => absurd rfl differs) key⟩

end KvStore

namespace Backend

variable {opens closes now : TimePoint} {moment : Moment}
variable {schedule : Nat → Moment} {backend other : Backend} {call : Call}

/-- Only the stores differ; they look alike and are quiet. -/
def Still (opens closes : TimePoint) (backend other : Backend) : Prop :=
  ∃ store,
    other = backend.withStore store ∧
      KvStore.Still opens closes backend.store store

theorem Twins.still
    (twins : backend.Twins opens other)
    (quiet : backend.store.Quiet opens closes) :
    backend.Still opens closes other := by
  obtain ⟨store, rfl, alike⟩ := twins
  exact ⟨store, rfl, alike, quiet⟩

theorem Still.twins
    (still : backend.Still opens closes other) :
    backend.Twins opens other := by
  obtain ⟨store, rfl, alike, -⟩ := still
  exact ⟨store, rfl, alike⟩

theorem Still.sweepAll
    {passes : List TimePoint}
    (still : backend.Still opens closes other)
    (ended : ∀ now ∈ passes, now ≤ closes) :
    (backend.sweepAll passes).Still opens closes other := by
  obtain ⟨store, rfl, quiet⟩ := still
  exact ⟨store, rfl, quiet.sweepAll ended⟩

/-- In a quiet time a look or a deletion answers as at any other reading. -/
theorem stepAt_of_still
    (counts : call.Counts)
    (between : moment.Between opens closes)
    (still : backend.Still opens closes other)
    (begun : opens ≤ now)
    (ended : now ≤ closes) :
    (stepAt moment call backend).1 = (step now call other).1 ∧
      (stepAt moment call backend).2.Still opens closes
        (step now call other).2 := by
  obtain ⟨store, rfl, quiet⟩ := still.sweepAll between.swept_le
  have same :=
    quiet.liveEntry_eq between.first_ge between.first_le begun ended
  cases call with
  | exists? key =>
      exact ⟨congrArg Option.isSome (same key), store, rfl, quiet⟩
  | del key =>
      have count :
          ((backend.sweepAll moment.passes).store.del moment.first key).1 =
            (store.del now key).1 := by
        rw [KvStore.del_fst, KvStore.del_fst, same]
      exact ⟨count, _, rfl, quiet.del moment.first now key⟩
  | get | set | expire | ttl | persist | size | approxMemoryBytes | stats
  | uptimeSeconds | publish =>
      exact counts.elim

/-- In a quiet time EXISTS and DEL act at once, with any number of keys. -/
theorem actsAtOnce_of_counts
    {Result : Type}
    {program : Program Result}
    (counts :
      program.Always Call.Counts (fun _ => True) (fun _ => True))
    (ascends : Ascends opens closes schedule)
    (still : backend.Still opens closes other) :
    ActsAtOnce opens closes schedule backend other program := by
  have settles : program.Settles Call.Counts (fun _ => False) :=
    counts.settles
  have begun := Int64.le_refl opens
  have alike :
      (program.runAt stepAt schedule backend).1 =
          (other.exec opens program).1 ∧
        (program.runAt stepAt schedule backend).2.Still opens closes
          (other.exec opens program).2 := by
    refine settles.runAt_related (Still opens closes) ?_ ?_
      ascends.between still
    · intro moment call backend other between may still
      exact (stepAt_of_still (may.resolve_right id) between still begun
        ascends.order).2
    · intro moment call backend other between may still
      exact (stepAt_of_still may between still begun ascends.order).1
  exact ⟨opens, begun, ascends.order, alike.1,
    alike.2.twins.pass ascends.order⟩

/-- In a quiet time EXPIRE acts at its second reading. -/
theorem stepAt_expire_of_still
    (between : moment.Between opens closes)
    (still : backend.Still opens closes other)
    (key : Bytes)
    (ttl : Int64) :
    let call := Call.expire key ttl
    (stepAt moment call backend).1 =
        (step moment.second call other).1 ∧
      (stepAt moment call backend).2.Twins closes
        (step moment.second call other).2 := by
  obtain ⟨store, rfl, quiet⟩ := still.sweepAll between.swept_le
  obtain ⟨answer, alike⟩ :=
    quiet.expire between.first_ge between.read between.late key ttl
  exact ⟨answer, _, rfl, alike⟩

end Backend

end Vortek

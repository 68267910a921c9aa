import Vortek.CommandDeadlines

namespace Vortek

open CallScript

/-!
# Executing a command at another time

Replay executes a logged command again, at a later clock reading and on another
store.  This module says when that has the same effect.

Two stores mirror each other at two clock readings when lookups see the same
entries and, unless the readings are equal, none of these entries has a
deadline.  A logged command answers alike on both and keeps them that way, as
long as it attaches no duration or the readings are equal
(`Backend.dispatch_mirrors`).
-/

namespace KvStore

/-- Lookups see the same entries, without deadlines if the clock differs. -/
structure Mirrors
    (now : TimePoint)
    (store : KvStore)
    (later : TimePoint)
    (other : KvStore) :
    Prop where
  live : ∀ key, other.liveEntry later key = store.liveEntry now key
  timeless :
    now ≠ later →
      ∀ key entry,
        store.liveEntry now key = some entry → entry.expiresAt = none

section Mirroring

variable {now later : TimePoint} {store other : KvStore}

theorem mirrors_empty
    (now later : TimePoint) :
    Mirrors now empty later empty :=
  ⟨fun _ => rfl, fun _ _ _ found => nomatch found⟩

/-- Entries that look alike can be given to one key of both stores. -/
theorem Mirrors.insert
    {entry copy : Entry}
    (mirrors : Mirrors now store later other)
    (alike :
      (if copy.isExpired later then none else some copy) =
        if entry.isExpired now then none else some entry)
    (forever :
      now ≠ later → entry.isExpired now = false → entry.expiresAt = none)
    (key : Bytes) :
    Mirrors now ⟨store.data.insert key entry⟩
      later ⟨other.data.insert key copy⟩ := by
  constructor
  · intro searched
    rw [liveEntry_insert, liveEntry_insert, alike, mirrors.live]
  · intro shifted searched found alive
    rw [liveEntry_insert] at alive
    split at alive
    · split at alive
      · cases alive
      · rename_i expired
        cases alive
        exact forever shifted (by simpa using expired)
    · exact mirrors.timeless shifted searched found alive

theorem Mirrors.set
    {ttl : Int64}
    (mirrors : Mirrors now store later other)
    (unshifted : now = later ∨ ¬0 < ttl)
    (key : Bytes)
    (value : Value) :
    Mirrors now (store.set now key value ttl)
      later (other.set later key value ttl) := by
  rcases unshifted with rfl | permanent
  · exact mirrors.insert rfl (fun shifted => (shifted rfl).elim) key
  · simp only [KvStore.set, permanent, if_false]
    exact mirrors.insert rfl (fun _ _ => rfl) key

theorem Mirrors.del
    (mirrors : Mirrors now store later other)
    (key : Bytes) :
    Mirrors now (store.del now key).2 later (other.del later key).2 := by
  constructor
  · intro searched
    rw [liveEntry_del, liveEntry_del, mirrors.live]
  · intro shifted searched found alive
    rw [liveEntry_del] at alive
    split at alive
    · cases alive
    · exact mirrors.timeless shifted searched found alive

/-- A deadline that is reached at once hides the entry on both sides. -/
theorem isExpired_deadlineAfter_zero
    (now : TimePoint)
    (value : Value) :
    (⟨value, some (deadlineAfter now 0)⟩ : Entry).isExpired now =
      true := by
  simp [Entry.isExpired, deadlineAfter]

theorem Mirrors.expire
    {ttl : Int64}
    (mirrors : Mirrors now store later other)
    {key : Bytes}
    (unshifted :
      now = later ∨ (store.exists? now key = true → ttl = 0)) :
    Mirrors now (store.expire now key ttl).2
      later (other.expire later key ttl).2 := by
  unfold KvStore.expire
  rw [mirrors.live key]
  cases found : store.liveEntry now key with
  | none =>
      exact mirrors
  | some entry =>
      rcases unshifted with rfl | atOnce
      · exact mirrors.insert rfl (fun shifted => (shifted rfl).elim) key
      · have immediate : ttl = 0 := atOnce (by simp [exists?, found])
        subst immediate
        refine mirrors.insert ?_ ?_ key
        · rw [isExpired_deadlineAfter_zero, isExpired_deadlineAfter_zero]
          rfl
        · intro _ alive
          rw [isExpired_deadlineAfter_zero] at alive
          cases alive

theorem Mirrors.persist
    (mirrors : Mirrors now store later other)
    (key : Bytes) :
    Mirrors now (store.persist now key).2
      later (other.persist later key).2 := by
  unfold KvStore.persist
  rw [mirrors.live key]
  cases store.liveEntry now key with
  | none =>
      exact mirrors
  | some entry =>
      exact mirrors.insert rfl (fun _ _ => rfl) key

/-- The remaining time is the same when there is none or no time passes. -/
theorem Mirrors.ttl_eq
    (mirrors : Mirrors now store later other)
    (key : Bytes) :
    other.ttl later key = store.ttl now key := by
  unfold KvStore.ttl
  rw [mirrors.live key]
  cases found : store.liveEntry now key with
  | none =>
      rfl
  | some entry =>
      by_cases same : now = later
      · rw [same]
      · simp only [mirrors.timeless same key entry found]

/-- Entries that a later lookup still finds are found before. -/
theorem liveEntry_of_later
    {key : Bytes}
    {entry : Entry}
    (forward : now ≤ later)
    (alive : store.liveEntry later key = some entry) :
    store.liveEntry now key = some entry := by
  obtain ⟨stored, notExpired⟩ := liveEntry_eq_some_iff.mp alive
  refine liveEntry_eq_some_iff.mpr ⟨stored, ?_⟩
  unfold Entry.isExpired at notExpired ⊢
  cases limit : entry.expiresAt with
  | none =>
      rfl
  | some deadline =>
      simp only [limit, decide_eq_false_iff_not] at notExpired ⊢
      exact fun reached => notExpired (Int64.le_trans reached forward)

/-- Entries without a deadline are found at every time. -/
theorem liveEntry_of_timeless
    {key : Bytes}
    {entry : Entry}
    (alive : store.liveEntry now key = some entry)
    (forever : entry.expiresAt = none)
    (later : TimePoint) :
    store.liveEntry later key = some entry := by
  obtain ⟨stored, -⟩ := liveEntry_eq_some_iff.mp alive
  exact liveEntry_eq_some_iff.mpr
    ⟨stored, by simp [Entry.isExpired, forever]⟩

/-- The first store may get older, up to the age of its mirror. -/
theorem Mirrors.advance
    {next : TimePoint}
    (mirrors : Mirrors now store later other)
    (forward : now ≤ next)
    (notBeyond : next ≤ later) :
    Mirrors next store later other := by
  by_cases same : now = later
  · subst same
    rwa [Int64.le_antisymm notBeyond forward]
  · have unchanged :
        ∀ key, store.liveEntry next key = store.liveEntry now key := by
      intro key
      cases found : store.liveEntry now key with
      | some entry =>
          exact liveEntry_of_timeless found
            (mirrors.timeless same key entry found) next
      | none =>
          cases alive : store.liveEntry next key with
          | none =>
              rfl
          | some entry =>
              rw [liveEntry_of_later forward alive] at found
              cases found
    constructor
    · intro key
      rw [mirrors.live, unchanged]
    · intro _ key entry alive
      rw [unchanged] at alive
      exact mirrors.timeless same key entry alive

end Mirroring

/-- No entry has a deadline. -/
def NoDeadlines (store : KvStore) : Prop :=
  ∀ key entry,
    store.data.lookup key = some entry → entry.expiresAt = none

section NoDeadlines

variable {store : KvStore} (noDeadlines : store.NoDeadlines)

theorem noDeadlines_empty :
    empty.NoDeadlines :=
  fun _ _ found => nomatch found

include noDeadlines

/-- Without deadlines a lookup does not depend on the clock. -/
theorem NoDeadlines.liveEntry_eq
    (now : TimePoint)
    (key : Bytes) :
    store.liveEntry now key = store.data.lookup key := by
  unfold liveEntry
  cases found : store.data.lookup key with
  | none =>
      rfl
  | some entry =>
      simp [Entry.isExpired, noDeadlines key entry found]

theorem NoDeadlines.insert
    {entry : Entry}
    (forever : entry.expiresAt = none)
    (key : Bytes) :
    NoDeadlines ⟨store.data.insert key entry⟩ := by
  intro other found stored
  by_cases same : other = key
  · subst same
    rw [AList.lookup_insert] at stored
    cases stored
    exact forever
  · rw [AList.lookup_insert_ne same] at stored
    exact noDeadlines other found stored

theorem NoDeadlines.del
    (now : TimePoint)
    (key : Bytes) :
    (store.del now key).2.NoDeadlines := by
  unfold KvStore.del
  split
  · exact noDeadlines
  · intro other found stored
    by_cases same : other = key
    · subst same
      rw [AList.lookup_erase] at stored
      cases stored
    · rw [AList.lookup_erase_ne same] at stored
      exact noDeadlines other found stored

/-- Without deadlines a store mirrors itself at every time. -/
theorem NoDeadlines.mirrors
    (now later : TimePoint) :
    Mirrors now store later store := by
  constructor
  · intro key
    rw [noDeadlines.liveEntry_eq, noDeadlines.liveEntry_eq]
  · intro _ key entry alive
    exact noDeadlines key entry (liveEntry_eq_some_iff.mp alive).1

/-- A sweep finds nothing to remove. -/
theorem NoDeadlines.sweep_eq
    (now : TimePoint) :
    store.sweep now = store := by
  have kept :
      (store.data.entries.filter fun item => !item.2.isExpired now) =
        store.data.entries := by
    refine List.filter_eq_self.mpr fun item member => ?_
    have found := AList.mem_lookup_iff.mpr member
    simp [Entry.isExpired, noDeadlines item.1 item.2 found]
  unfold sweep
  congr 1
  exact AList.ext kept

end NoDeadlines

end KvStore

namespace Dispatcher

/-- Logged commands do not depend on the broker. -/
theorem dispatch_of_write
    {cmd : Command}
    (write : AofPersistence.isWriteCommand cmd.name = true)
    (withBroker : Bool) :
    (makeDefault withBroker).dispatch cmd =
      (makeDefault false).dispatch cmd := by
  refine dispatch_withBroker ?_ withBroker
  intro publish
  rw [publish] at write
  exact absurd write (by decide)

end Dispatcher

namespace Backend

variable {now later : TimePoint} {backend other : Backend}

/-- Calls on entries answer alike on stores that mirror each other. -/
theorem step_fst_of_mirrors
    {keys : List Bytes}
    {call : Call}
    (within : call.Within keys)
    (mirrors : KvStore.Mirrors now backend.store later other.store) :
    (step now call backend).1 = (step later call other).1 := by
  cases call with
  | set =>
      rfl
  | get key =>
      simp only [step, KvStore.get, mirrors.live]
  | del key =>
      simp only [step, KvStore.del_fst, mirrors.live]
  | exists? key =>
      simp only [step, KvStore.exists?, mirrors.live]
  | expire key =>
      simp only [step, KvStore.expire, mirrors.live]
      cases backend.store.liveEntry now key <;> rfl
  | ttl key =>
      simp only [step, mirrors.ttl_eq]
  | persist key =>
      simp only [step, KvStore.persist, mirrors.live]
      cases backend.store.liveEntry now key <;> rfl
  | size | approxMemoryBytes | stats | uptimeSeconds | publish =>
      exact within.elim

/-- A call that attaches no lasting duration keeps the stores alike. -/
theorem step_mirrors
    {keys : List Bytes}
    {call : Call}
    (within : call.Within keys)
    (unshifted :
      now = later ∨
        ∀ duration,
          call.attaches now backend.store = some duration →
            duration = 0)
    (mirrors : KvStore.Mirrors now backend.store later other.store) :
    KvStore.Mirrors now (step now call backend).2.store
      later (step later call other).2.store := by
  cases call with
  | set key value duration =>
      refine mirrors.set (unshifted.imp_right fun zero positive => ?_)
        key value
      have immediate := zero duration (if_pos positive)
      subst immediate
      exact absurd positive (by decide)
  | expire key duration =>
      exact mirrors.expire (unshifted.imp_right fun zero alive =>
        zero duration (if_pos alive))
  | del key =>
      exact mirrors.del key
  | persist key =>
      exact mirrors.persist key
  | get | exists? | ttl =>
      exact mirrors
  | size | approxMemoryBytes | stats | uptimeSeconds | publish =>
      exact within.elim

/-- Logged commands call single entries only. -/
theorem within_of_mayCall
    {cmd : Command}
    {call : Call}
    (write : AofPersistence.isWriteCommand cmd.name = true)
    (may : Dispatcher.MayCall cmd.name cmd.args call) :
    call.Within cmd.args := by
  rw [Dispatcher.MayCall, if_pos write] at may
  split at may
  · exact may
  · exact may.within

/-- What the calls of a command use and attach. -/
theorem along_calls
    (now : TimePoint)
    (backend : Backend)
    (cmd : Command)
    (withBroker : Bool) :
    ((Dispatcher.makeDefault withBroker).dispatch cmd).Along (step now)
      (fun call reached =>
        Dispatcher.MayCall cmd.name cmd.args call ∧
          (call.attaches now reached.store = none ∨
            call.attaches now reached.store =
              expirySet now backend.store cmd))
      backend :=
  (Dispatcher.dispatch_mayCall withBroker cmd).and_along
    (along_attaches withBroker cmd)

/--
A logged command that attaches no lasting duration, or that is executed twice at
the same clock reading, answers alike on mirrored stores and keeps them so.
-/
theorem dispatch_mirrors
    {cmd : Command}
    (write : AofPersistence.isWriteCommand cmd.name = true)
    (unshifted :
      now = later ∨
        ∀ duration,
          expirySet now backend.store cmd = some duration → duration = 0)
    (mirrors : KvStore.Mirrors now backend.store later other.store) :
    (backend.dispatch now cmd).1 = (other.dispatch later cmd).1 ∧
      KvStore.Mirrors now (backend.dispatch now cmd).2.store
        later (other.dispatch later cmd).2.store := by
  unfold Backend.dispatch
  rw [Dispatcher.dispatch_of_write write backend.broker.isSome,
    Dispatcher.dispatch_of_write write other.broker.isSome]
  refine Script.run_related
    (fun first second : Backend =>
      KvStore.Mirrors now first.store later second.store)
    ?_ (along_calls now backend cmd false) mirrors
  rintro call first second ⟨may, attached⟩ alike
  have within := within_of_mayCall write may
  refine ⟨step_fst_of_mirrors within alike,
    step_mirrors within (unshifted.imp_right ?_) alike⟩
  intro zero duration attaches
  rcases attached with nothing | declared
  · rw [nothing] at attaches
    cases attaches
  · exact zero duration (declared.symm.trans attaches)

/-- Without deadlines, such a call has one effect at all times. -/
theorem step_store_of_noDeadlines
    {keys : List Bytes}
    {call : Call}
    (within : call.Within keys)
    (unattached : call.attaches now backend.store = none)
    (noDeadlines : backend.store.NoDeadlines)
    (same : other.store = backend.store) :
    (step later call other).2.store = (step now call backend).2.store ∧
      (step now call backend).2.store.NoDeadlines := by
  cases call with
  | set key value duration =>
      have permanent : ¬0 < duration := by
        simpa [Call.attaches] using unattached
      simp only [step, KvStore.set, same, permanent, if_false, true_and]
      exact noDeadlines.insert rfl key
  | expire key duration =>
      have missing : backend.store.liveEntry now key = none := by
        cases found : backend.store.liveEntry now key with
        | none =>
            rfl
        | some entry =>
            simp [Call.attaches, KvStore.exists?, found] at unattached
      have missingLater := missing
      rw [noDeadlines.liveEntry_eq, ← noDeadlines.liveEntry_eq later]
        at missingLater
      simp only [step, KvStore.expire, same, missing, missingLater,
        true_and]
      exact noDeadlines
  | del key =>
      refine ⟨?_, noDeadlines.del now key⟩
      simp only [step, same, KvStore.del]
      cases backend.store.data.lookup key <;> rfl
  | persist key =>
      simp only [step, KvStore.persist, same, noDeadlines.liveEntry_eq,
        true_and]
      cases backend.store.data.lookup key with
      | none =>
          exact noDeadlines
      | some entry =>
          exact noDeadlines.insert rfl key
  | get | exists? | ttl =>
      exact ⟨same, noDeadlines⟩
  | size | approxMemoryBytes | stats | uptimeSeconds | publish =>
      exact within.elim

/--
Without deadlines, a logged command that attaches none has the same effect
whenever it is executed, and leaves no deadline.
-/
theorem dispatch_of_noDeadlines
    {cmd : Command}
    (write : AofPersistence.isWriteCommand cmd.name = true)
    (noExpiry : expirySet now backend.store cmd = none)
    (noDeadlines : backend.store.NoDeadlines)
    (same : other.store = backend.store) :
    (other.dispatch later cmd).2.store =
        (backend.dispatch now cmd).2.store ∧
      (backend.dispatch now cmd).2.store.NoDeadlines := by
  unfold Backend.dispatch
  rw [Dispatcher.dispatch_of_write write backend.broker.isSome,
    Dispatcher.dispatch_of_write write other.broker.isSome]
  refine (Script.run_related
    (fun first second : Backend =>
      second.store = first.store ∧ first.store.NoDeadlines)
    ?_ (along_calls now backend cmd false) ⟨same, noDeadlines⟩).2
  rintro call first second ⟨may, attached⟩ ⟨alike, free⟩
  rw [noExpiry, or_self] at attached
  have within := within_of_mayCall write may
  refine ⟨step_fst_of_mirrors within ?_,
    step_store_of_noDeadlines within attached free alike⟩
  rw [alike]
  exact free.mirrors now later

end Backend

end Vortek

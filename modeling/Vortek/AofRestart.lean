import Vortek.ClockShift

namespace Vortek

open CallScript

/-!
# Restarting with deadlines

The log records durations, not deadlines, so replay counts a duration from the
restart and not from the first execution.  Commands that attach no duration, or
one of zero, or that were executed at the very time of the restart, are not
affected: both stores mirror each other (`History.mirrors`).  Any other command
that sets a deadline makes a key live longer after a restart
(`restart_extends_life`).
-/

/-- A logged command with the clock reading at which it was executed. -/
structure Logged where
  now : TimePoint
  cmd : Command

/-- Execute commands, each at its own time. -/
def executeAll : Backend → List Logged → Backend
  | backend, [] => backend
  | backend, step :: later =>
      executeAll (backend.dispatch step.now step.cmd).2 later

/-- The state that each command of a history finds. -/
def findings : Backend → List Logged → List Dispatch
  | _, [] => []
  | backend, step :: later =>
      ⟨step.now, backend, step.cmd⟩ ::
        findings (backend.dispatch step.now step.cmd).2 later

/-- The command sets no deadline that a restart would move. -/
def Dispatch.KeepsLife (restart : TimePoint) (dispatch : Dispatch) : Prop :=
  let set := expirySet dispatch.now dispatch.backend.store dispatch.cmd
  dispatch.now = restart ∨ set = none ∨ set = some 0

instance
    (restart : TimePoint)
    (dispatch : Dispatch) :
    Decidable (dispatch.KeepsLife restart) :=
  inferInstanceAs (Decidable (_ ∨ _ ∨ _))

/-- A duration that the command attaches before the restart is zero. -/
theorem Dispatch.KeepsLife.unshifted
    {restart : TimePoint}
    {dispatch : Dispatch}
    (keeps : dispatch.KeepsLife restart) :
    dispatch.now = restart ∨
      ∀ duration,
        expirySet dispatch.now dispatch.backend.store dispatch.cmd =
          some duration →
        duration = 0 := by
  refine keeps.imp_right fun set duration attached => ?_
  rcases set with nothing | zero
  · rw [nothing] at attached
    cases attached
  · exact Option.some.inj (attached.symm.trans zero)

/-- Write commands in the order of their clock readings, up to a restart. -/
structure History
    (reserve : Reserve)
    (restart : TimePoint)
    (steps : List Logged) :
    Prop where
  write : ∀ step ∈ steps, AofPersistence.isWriteCommand step.cmd.name = true
  loggable : ∀ step ∈ steps, AofPersistence.Loggable reserve step.cmd
  ordered : steps.Pairwise fun first second => first.now ≤ second.now
  notBeyond : ∀ step ∈ steps, step.now ≤ restart

section Restart

variable {reserve : Reserve} {restart : TimePoint}
variable {steps : List Logged}

theorem History.tail
    {step : Logged}
    (history : History reserve restart (step :: steps)) :
    History reserve restart steps where
  write := (List.forall_mem_cons.mp history.write).2
  loggable := (List.forall_mem_cons.mp history.loggable).2
  ordered := (List.pairwise_cons.mp history.ordered).2
  notBeyond := (List.forall_mem_cons.mp history.notBeyond).2

/-- Replay at the restart mirrors an execution that moves no deadline. -/
theorem History.mirrors
    {backend other : Backend}
    {now final : TimePoint}
    (history : History reserve restart steps)
    (keeps :
      ∀ dispatch ∈ findings backend steps, dispatch.KeepsLife restart)
    (forward : ∀ step ∈ steps, now ≤ step.now)
    (past : ∀ step ∈ steps, step.now ≤ final)
    (begun : now ≤ final)
    (notBeyond : final ≤ restart)
    (mirrors : KvStore.Mirrors now backend.store restart other.store)
    (count : Nat) :
    KvStore.Mirrors final (executeAll backend steps).store restart
      (AofPersistence.dispatchAll (fun _ => restart) count other
        (steps.map Logged.cmd)).store := by
  induction steps generalizing backend other now count with
  | nil =>
      exact mirrors.advance begun notBeyond
  | cons step later inductionHypothesis =>
      obtain ⟨first, rest⟩ := List.forall_mem_cons.mp keeps
      obtain ⟨stepPast, laterPast⟩ := List.forall_mem_cons.mp past
      have reached :=
        mirrors.advance (forward step List.mem_cons_self)
          (history.notBeyond step List.mem_cons_self)
      have executed :=
        Backend.dispatch_mirrors
          (history.write step List.mem_cons_self) first.unshifted reached
      exact inductionHypothesis history.tail rest
        (List.pairwise_cons.mp history.ordered).1 laterPast stepPast
        executed.2 (count + 1)

/-- The same from empty stores. -/
theorem History.mirrors_of_empty
    {backend fresh : Backend}
    {final : TimePoint}
    (history : History reserve restart steps)
    (keeps :
      ∀ dispatch ∈ findings backend steps, dispatch.KeepsLife restart)
    (emptyStore : backend.store = KvStore.empty)
    (freshStore : fresh.store = KvStore.empty)
    (past : ∀ step ∈ steps, step.now ≤ final)
    (notBeyond : final ≤ restart) :
    KvStore.Mirrors final (executeAll backend steps).store restart
      (AofPersistence.dispatchAll (fun _ => restart) 0 fresh
        (steps.map Logged.cmd)).store := by
  have initially :
      KvStore.Mirrors Int64.minValue backend.store restart
        fresh.store := by
    rw [emptyStore, freshStore]
    exact KvStore.mirrors_empty Int64.minValue restart
  exact history.mirrors keeps (fun step _ => Int64.minValue_le step.now)
    past (Int64.minValue_le final) notBeyond initially 0

/-- Replay of a logged history dispatches its commands. -/
theorem History.replay_eq
    {aof : AofPersistence}
    (history : History reserve restart steps)
    (logged :
      AofPersistence.logAll reserve ⟨[]⟩ (steps.map Logged.cmd) =
        .ok aof)
    (fresh : Backend) :
    (aof.replay reserve (fun _ => restart) fresh).backend =
      AofPersistence.dispatchAll (fun _ => restart) 0 fresh
        (steps.map Logged.cmd) := by
  have loggable :
      ∀ cmd ∈ steps.map Logged.cmd,
        AofPersistence.Loggable reserve cmd := by
    rw [List.forall_mem_map]
    exact history.loggable
  rw [AofPersistence.logAll_eq_ok loggable] at logged
  cases logged
  rw [List.nil_append, AofPersistence.replay_wire loggable]

/-- What a mirror still finds later, the first store finds too. -/
theorem KvStore.Mirrors.get_of_get
    {now later searched : TimePoint}
    {store other : KvStore}
    {key : Bytes}
    {value : Value}
    (mirrors : KvStore.Mirrors now store later other)
    (forward : later ≤ searched)
    (found : other.get searched key = some value) :
    store.get searched key = some value := by
  obtain ⟨entry, alive, rfl⟩ := Option.map_eq_some_iff.mp found
  have before := KvStore.liveEntry_of_later forward alive
  rw [mirrors.live] at before
  have stored := (KvStore.liveEntry_eq_some_iff.mp before).1
  have notExpired := (KvStore.liveEntry_eq_some_iff.mp alive).2
  exact Option.map_eq_some_iff.mpr
    ⟨entry, KvStore.liveEntry_eq_some_iff.mpr ⟨stored, notExpired⟩, rfl⟩

/--
In every history whose commands move no deadline, whatever a restarted server
finds under a key at or after the restart is found there, at that time, by a
server that was never restarted.
-/
theorem restart_keeps_lives
    (reserve : Reserve)
    (restart : TimePoint)
    (steps : List Logged)
    (history : History reserve restart steps)
    (backend fresh : Backend)
    (emptyStore : backend.store = KvStore.empty)
    (freshStore : fresh.store = KvStore.empty)
    (keeps :
      ∀ dispatch ∈ findings backend steps, dispatch.KeepsLife restart)
    (aof : AofPersistence)
    (logged :
      AofPersistence.logAll reserve ⟨[]⟩ (steps.map Logged.cmd) =
        .ok aof)
    (key : Bytes)
    (value : Value)
    (later : TimePoint)
    (notBefore : restart ≤ later)
    (alive :
      (aof.replay reserve (fun _ => restart) fresh).backend.store.get
          later key =
        some value) :
    (executeAll backend steps).store.get later key = some value := by
  rw [history.replay_eq logged] at alive
  exact (history.mirrors_of_empty keeps emptyStore freshStore
    history.notBeyond (Int64.le_refl restart)).get_of_get notBefore alive

/-- Without deadlines before the restart, a restart is not noticed. -/
theorem restart_keeps_lives_without_expiry :
    let steps : List Logged :=
      [⟨0, ⟨ascii "SET", [ascii "k", ascii "v"]⟩⟩,
        ⟨9, ⟨ascii "SET", [ascii "j", ascii "w", ascii "PX", ascii "7"]⟩⟩]
    (executeAll Backend.initial steps).store.get 10 (ascii "j") =
      some (.string (ascii "w")) := by
  intro steps
  have fits :
      ∀ step ∈ steps,
        AofPersistence.Loggable (fun _ => none) step.cmd := by
    simp only [steps, List.forall_mem_cons, List.not_mem_nil,
      false_implies, implies_true, and_true]
    constructor
    · exact AofPersistence.loggable_of_lengths (by decide) (by decide) rfl
    · exact AofPersistence.loggable_of_lengths (by decide) (by decide) rfl
  have history : History (fun _ => none) 9 steps :=
    ⟨by decide, fits, by decide, by decide⟩
  have keeps :
      ∀ dispatch ∈ findings Backend.initial steps,
        dispatch.KeepsLife 9 := by
    decide
  exact restart_keeps_lives (fun _ => none) 9 steps history
    Backend.initial Backend.initial rfl rfl keeps _ rfl (ascii "j")
    (.string (ascii "w")) 10 (by decide) rfl

/--
A key set with ten seconds to live is back after a restart ninety seconds after
it has expired.
-/
theorem restart_revives_expired_key :
    let cmd : Command :=
      ⟨ascii "SET", [ascii "k", ascii "v", ascii "EX", ascii "10"]⟩
    let restart : TimePoint := 100000000000
    let aof : AofPersistence := ⟨AofPersistence.wire [cmd]⟩
    AofPersistence.logAll (fun _ => none) ⟨[]⟩ [cmd] = .ok aof ∧
      (aof.replay (fun _ => none) (fun _ => restart)
          Backend.initial).backend.store.exists? restart (ascii "k") =
        true ∧
      (executeAll Backend.initial [⟨0, cmd⟩]).store.exists?
          restart (ascii "k") =
        false := by
  refine ⟨rfl, ?_, ?_⟩ <;> decide

end Restart

section Extending

variable {now later : TimePoint} {backend other : Backend}
variable {args : List Bytes} {duration : Int64}

/-- An accepted SET with a duration stores its value under a deadline. -/
theorem dispatch_set_of_setExpiry
    (sets : setExpiry now backend.store args = some duration) :
    ∃ key data flags,
      args = key :: data :: flags ∧
        0 < duration ∧
        (backend.dispatch now ⟨ascii "SET", args⟩).2.store =
          backend.store.set now key (.string data) duration := by
  unfold setExpiry at sets
  split at sets
  · rename_i key data flags
    refine ⟨key, data, flags, rfl, ?_⟩
    split at sets
    · cases sets
    · rename_i options parsed
      simp only [Option.ite_none_left_eq_some,
        Option.ite_none_right_eq_some, Option.some.injEq] at sets
      obtain ⟨compatible, notRefused, notMissing, positive, rfl⟩ := sets
      refine ⟨positive, ?_⟩
      change (backend.exec now
        (cmdSet ⟨ascii "SET", key :: data :: flags⟩)).2.store = _
      have refusal :
          (options.nx && (Backend.step now (.exists? key) backend).1) ≠
            true :=
        notRefused
      have missing :
          (options.xx && !(Backend.step now (.exists? key) backend).1) ≠
            true :=
        notMissing
      simp only [cmdSet, parsed, Backend.exec]
      rw [if_neg compatible, Script.run_invoke_bind, if_neg refusal,
        if_neg missing]
      rfl
  · cases sets

/-- A successful EXPIRE gives its key a deadline. -/
theorem dispatch_expire_of_expireExpiry
    (sets : expireExpiry now backend.store args = some duration) :
    ∃ key amount,
      args = [key, amount] ∧
        backend.store.exists? now key = true ∧
        (backend.dispatch now ⟨ascii "EXPIRE", args⟩).2.store =
          (backend.store.expire now key duration).2 := by
  unfold expireExpiry at sets
  split at sets
  · rename_i key amount
    refine ⟨key, amount, rfl, ?_⟩
    split at sets
    · cases sets
    · rename_i secs parsed
      simp only [Option.ite_none_left_eq_some,
        Option.ite_none_right_eq_some, Option.some.injEq] at sets
      obtain ⟨notNegative, alive, rfl⟩ := sets
      refine ⟨alive, ?_⟩
      change (backend.exec now
        (cmdExpire ⟨ascii "EXPIRE", [key, amount]⟩)).2.store = _
      simp only [cmdExpire, parsed, notNegative, Backend.exec, if_false]
      rfl
  · cases sets

/-- The same command attaches the same duration on a mirror. -/
theorem expirySet_of_mirrors
    (mirrors : KvStore.Mirrors now backend.store later other.store)
    (cmd : Command) :
    expirySet later other.store cmd =
      expirySet now backend.store cmd := by
  have same :
      other.store.exists? later = backend.store.exists? now := by
    funext key
    simp only [KvStore.exists?, mirrors.live]
  unfold expirySet setExpiry expireExpiry
  rw [same]

/-- One key gets its deadline on both sides, each by its own clock. -/
theorem exists_deadlines_of_expirySet
    {cmd : Command}
    (mirrors : KvStore.Mirrors now backend.store later other.store)
    (sets : expirySet now backend.store cmd = some duration) :
    ∃ key value,
      (backend.dispatch now cmd).2.store.data.lookup key =
          some ⟨value, some (deadlineAfter now duration)⟩ ∧
        (other.dispatch later cmd).2.store.data.lookup key =
          some ⟨value, some (deadlineAfter later duration)⟩ := by
  have setsLater := (expirySet_of_mirrors mirrors cmd).trans sets
  obtain ⟨name, args⟩ := cmd
  simp only [expirySet] at sets setsLater
  split at sets
  · rename_i set
    subst set
    rw [if_pos rfl] at setsLater
    obtain ⟨key, data, flags, rfl, positive, stored⟩ :=
      dispatch_set_of_setExpiry sets
    obtain ⟨otherKey, otherData, otherFlags, shape, -, otherStored⟩ :=
      dispatch_set_of_setExpiry setsLater
    cases shape
    refine ⟨key, .string data, ?_, ?_⟩
    · rw [stored]
      simp [KvStore.set, positive]
    · rw [otherStored]
      simp [KvStore.set, positive]
  · rename_i notSet
    rw [if_neg notSet] at setsLater
    split at sets
    · rename_i expire
      subst expire
      rw [if_pos rfl] at setsLater
      obtain ⟨key, amount, rfl, alive, stored⟩ :=
        dispatch_expire_of_expireExpiry sets
      obtain ⟨otherKey, otherAmount, shape, -, otherStored⟩ :=
        dispatch_expire_of_expireExpiry setsLater
      cases shape
      obtain ⟨entry, found⟩ := Option.isSome_iff_exists.mp alive
      refine ⟨key, entry.value, ?_, ?_⟩
      · rw [stored]
        simp [KvStore.expire, found]
      · rw [otherStored]
        simp [KvStore.expire, mirrors.live, found]
    · cases sets

theorem executeAll_concat
    (backend : Backend)
    (steps : List Logged)
    (last : Logged) :
    executeAll backend (steps ++ [last]) =
      ((executeAll backend steps).dispatch last.now last.cmd).2 := by
  induction steps generalizing backend with
  | nil =>
      rfl
  | cons step later inductionHypothesis =>
      exact inductionHypothesis _

theorem History.of_concat
    {reserve : Reserve}
    {restart : TimePoint}
    {steps : List Logged}
    {last : Logged}
    (history : History reserve restart (steps ++ [last])) :
    History reserve restart steps where
  write := (List.forall_mem_append.mp history.write).1
  loggable := (List.forall_mem_append.mp history.loggable).1
  ordered := (List.pairwise_append.mp history.ordered).1
  notBeyond := (List.forall_mem_append.mp history.notBeyond).1

/--
If the last command of a history sets a deadline before the restart, some key
has expired at some time on a server that was not restarted and is still alive
on one that was.
-/
theorem restart_extends_life
    {reserve : Reserve}
    {restart : TimePoint}
    {steps : List Logged}
    {last : Logged}
    {backend fresh : Backend}
    {aof : AofPersistence}
    (history : History reserve restart (steps ++ [last]))
    (emptyStore : backend.store = KvStore.empty)
    (freshStore : fresh.store = KvStore.empty)
    (keeps :
      ∀ dispatch ∈ findings backend steps, dispatch.KeepsLife restart)
    (logged :
      AofPersistence.logAll reserve ⟨[]⟩
          ((steps ++ [last]).map Logged.cmd) =
        .ok aof)
    (sets :
      expirySet last.now (executeAll backend steps).store last.cmd =
        some duration)
    (positive : 0 < duration)
    (early : last.now < restart)
    (notNegative : 0 ≤ last.now)
    (small : restart.toInt + duration.toInt * 1000000 < 2 ^ 63) :
    ∃ key value searched,
      restart ≤ searched ∧
        (aof.replay reserve (fun _ => restart) fresh).backend.store.get
            searched key =
          some value ∧
        (executeAll backend (steps ++ [last])).store.get searched key =
          none := by
  have past : ∀ step ∈ steps, step.now ≤ last.now := fun step member =>
    (List.pairwise_append.mp history.ordered).2.2 step member last
      (by simp)
  have mirrors :=
    history.of_concat.mirrors_of_empty keeps emptyStore freshStore past
      (Int64.le_of_lt early)
  obtain ⟨key, value, original, copy⟩ :=
    exists_deadlines_of_expirySet mirrors sets
  rw [history.replay_eq logged, List.map_append, List.map_singleton,
    AofPersistence.dispatchAll_concat, executeAll_concat]
  rw [Int64.lt_iff_toInt_lt] at early
  rw [Int64.lt_iff_toInt_lt, Int64.toInt_zero] at positive
  rw [Int64.le_iff_toInt_le, Int64.toInt_zero] at notNegative
  have first :
      (deadlineAfter last.now duration).toInt =
        last.now.toInt + duration.toInt * 1000000 :=
    toInt_deadlineAfter (by omega) (by omega) (by omega) (by omega)
  have second :
      (deadlineAfter restart duration).toInt =
        restart.toInt + duration.toInt * 1000000 :=
    toInt_deadlineAfter (by omega) (by omega) (by omega) small
  have separated :
      ∃ searched : TimePoint,
        restart ≤ searched ∧
          deadlineAfter last.now duration ≤ searched ∧
          ¬deadlineAfter restart duration ≤ searched := by
    simp only [Int64.le_iff_toInt_le]
    by_cases passed :
        (deadlineAfter last.now duration).toInt ≤ restart.toInt
    · exact ⟨restart, by omega, passed, by omega⟩
    · exact ⟨deadlineAfter last.now duration, by omega, by omega,
        by omega⟩
  obtain ⟨searched, notBefore, expired, alive⟩ := separated
  refine ⟨key, value, searched, notBefore, ?_, ?_⟩
  · simp [KvStore.get, KvStore.liveEntry, copy, Entry.isExpired, alive]
  · simp [KvStore.get, KvStore.liveEntry, original, Entry.isExpired,
      expired]

end Extending

end Vortek

import Vortek.CheckedInt64
import Vortek.WriteCommands

namespace Vortek

open CallScript DecimalText

/-!
# Counters

INCR, DECR, INCRBY and DECRBY add to the number that a string denotes, and a
missing key counts as zero.  The sum is compared with the range of `int64_t` by
guards that subtract from its ends; `storeSum?` and `negated?` are the same
computations over operators without a result where C++ has none, and they always
have one.  So a counter command refuses or stores the exact sum, and along any
sequence of them the number is what it was plus the amounts that were accepted.
-/

/-- One of the four counter commands, on this key. -/
def Command.Counts (cmd : Command) (key : Bytes) : Prop :=
  cmd.name ∈ [ascii "INCR", ascii "DECR", ascii "INCRBY",
    ascii "DECRBY"] ∧
  cmd.args.head? = some key

instance (cmd : Command) (key : Bytes) : Decidable (cmd.Counts key) :=
  inferInstanceAs (Decidable (_ ∧ _))

/-- The amount that a correctly formed counter command asks to add. -/
def Command.amount? (cmd : Command) : Option Int :=
  match cmd.args with
  | [_] =>
      if cmd.name = ascii "INCR" then
        some 1
      else if cmd.name = ascii "DECR" then
        some (-1)
      else
        none
  | [_, text] =>
      if cmd.name = ascii "INCRBY" then
        (wholeInt64? text).map fun amount => amount.toInt
      else if cmd.name = ascii "DECRBY" then
        (wholeInt64? text).map fun amount => -amount.toInt
      else
        none
  | _ => none

/--
The sum is outside `int64_t`, or the amount is: DECRBY by the smallest integer
asks to add `2 ^ 63`.
-/
def Command.Overflows (cmd : Command) (number : Int) : Prop :=
  ∃ amount,
    cmd.amount? = some amount ∧
      (¬ InInt64Range (number + amount) ∨ amount = 2 ^ 63)

/-- The number under a key, if a counter command can add to it. -/
def KvStore.number?
    (store : KvStore)
    (now : TimePoint)
    (key : Bytes) :
    Option Int :=
  match store.get now key with
  | none => some 0
  | some (.string text) => (wholeInt64? text).map Int64.toInt
  | some _ => none

/-- The refusal of a sum that is out of range. -/
def overflowError : RespValue :=
  err "ERR increment or decrement would overflow"

/-- What an accepted counter command has added, judged by its reply. -/
def accepted
    (cmd : Command)
    (reply : Except CppException RespValue) :
    Int :=
  match reply with
  | .ok (.integer _) => cmd.amount?.getD 0
  | _ => 0

/-- The amounts accepted along a sequence of commands at clock readings. -/
def Backend.acceptedSum :
    Backend → List (TimePoint × Command) → Int
  | _, [] => 0
  | backend, (now, cmd) :: later =>
      accepted cmd (backend.dispatch now cmd).1 +
        acceptedSum (backend.dispatch now cmd).2 later

/-- The outcome of one counter command on a key with this number. -/
inductive Counted
    (cmd : Command)
    (key : Bytes)
    (number : Int)
    (before : Backend) :
    Except CppException RespValue × Backend → Prop where
  | refused
      {message : Bytes} :
      Counted cmd key number before (.ok (.error message), before)
  | counted
      {amount : Int}
      {sum : Int64}
      {after : Backend}
      (asked : cmd.amount? = some amount)
      (exact : sum.toInt = number + amount)
      (stored :
        after.store.data.lookup key =
          some ⟨.string (stdToString sum), none⟩)
      (readsBack : wholeInt64? (stdToString sum) = some sum) :
      Counted cmd key number before (.ok (.integer sum), after)

/-- One counter command adds exactly or refuses. -/
structure CountsExactly
    (cmd : Command)
    (key : Bytes)
    (number : Int)
    (before : Backend)
    (outcome : Except CppException RespValue × Backend) :
    Prop where
  counted : Counted cmd key number before outcome
  overflows :
    outcome.1 = .ok overflowError ↔ cmd.Overflows number
  accepts :
    (∃ sum, outcome.1 = .ok (.integer sum)) ↔
      cmd.amount? ≠ none ∧ ¬ cmd.Overflows number
  /-- At every clock reading at which the number was there. -/
  number :
    ∀ reading,
      before.store.number? reading key = some number →
      outcome.2.store.number? reading key =
        some (number + accepted cmd outcome.1)

section Arithmetic

/-- `&&`: the second operand is evaluated only if the first one is true. -/
def andAlso (first second : Option Bool) : Option Bool :=
  match first with
  | some true => second
  | other => other

/-- `||`: the second operand is evaluated only if the first one is false. -/
def orElse (first second : Option Bool) : Option Bool :=
  match first with
  | some false => second
  | other => other

/-- The guard of `apply_delta`, with subtractions that may be undefined. -/
def wouldOverflow? (num delta : Int64) : Option Bool :=
  orElse
    (andAlso (some (decide (0 < delta)))
      ((CheckedInt64.sub Int64.maxValue delta).map
        fun bound => decide (bound < num)))
    (andAlso (some (decide (delta < 0)))
      ((CheckedInt64.sub Int64.minValue delta).map
        fun bound => decide (num < bound)))

/-- The second half of `apply_delta`, with arithmetic that may be undefined. -/
def storeSum? (key : Bytes) (num delta : Int64) :
    Option (Program RespValue) :=
  match wouldOverflow? num delta with
  | none => none
  | some true => some (return overflowError)
  | some false =>
      (CheckedInt64.add num delta).map fun sum => do
        Program.set key (.string (stdToString sum)) 0
        return .integer sum

/-- The rest of DECRBY for an amount, with a negation that may be undefined. -/
def negated? (key : Bytes) (delta : Int64) :
    Option (Program RespValue) :=
  if delta = Int64.minValue then
    some (return overflowError)
  else
    (CheckedInt64.neg delta).map (applyDelta key)

variable {num delta : Int64}

/-- Taking a positive amount from the largest integer does not overflow. -/
theorem inRange_maxValue_sub
    (positive : 0 < delta) :
    InInt64Range (Int64.maxValue.toInt - delta.toInt) := by
  have above : 0 < delta.toInt := Int64.lt_iff_toInt_lt.mp positive
  have below := delta.toInt_lt
  rw [Int64.toInt_maxValue]
  constructor <;> omega

/-- Taking a negative amount from the smallest integer does not overflow. -/
theorem inRange_minValue_sub
    (negative : delta < 0) :
    InInt64Range (Int64.minValue.toInt - delta.toInt) := by
  have below : delta.toInt < 0 := Int64.lt_iff_toInt_lt.mp negative
  have above := delta.le_toInt
  rw [Int64.toInt_minValue]
  constructor <;> omega

/-- The negation of every other amount than the smallest is in range. -/
theorem inRange_neg
    (other : delta ≠ Int64.minValue) :
    InInt64Range (-delta.toInt) := by
  have differs : delta.toInt ≠ -2 ^ 63 := by
    intro smallest
    refine other (Int64.toInt_inj.mp ?_)
    rw [smallest, Int64.toInt_minValue]
  have above := delta.le_toInt
  have below := delta.toInt_lt
  constructor <;> omega

/-- The guard is true exactly when the sum is out of range. -/
theorem wouldOverflow_iff :
    wouldOverflow num delta = true ↔
      ¬ InInt64Range (num.toInt + delta.toInt) := by
  have low := num.le_toInt
  have high := num.toInt_lt
  simp only [wouldOverflow, Bool.or_eq_true, Bool.and_eq_true,
    decide_eq_true_eq, InInt64Range, not_and_or, not_le, not_lt]
  rcases lt_trichotomy delta.toInt 0 with below | zero | above
  · have negative : delta < 0 := Int64.lt_iff_toInt_lt.mpr below
    have notPositive : ¬ 0 < delta := fun positive =>
      absurd (Int64.lt_iff_toInt_lt.mp positive) below.asymm
    simp only [notPositive, negative, false_and, true_and, false_or,
      Int64.lt_iff_toInt_lt]
    rw [CheckedInt64.toInt_sub_of_inRange (inRange_minValue_sub negative),
      Int64.toInt_minValue]
    omega
  · have none : delta = 0 := Int64.toInt_inj.mp zero
    simp [none]
    omega
  · have positive : 0 < delta := Int64.lt_iff_toInt_lt.mpr above
    have notNegative : ¬ delta < 0 := fun negative =>
      absurd (Int64.lt_iff_toInt_lt.mp negative) above.asymm
    simp only [positive, notNegative, false_and, true_and, or_false,
      Int64.lt_iff_toInt_lt]
    rw [CheckedInt64.toInt_sub_of_inRange (inRange_maxValue_sub positive),
      Int64.toInt_maxValue]
    omega

/-- No subtraction of the guard overflows. -/
theorem wouldOverflow?_eq :
    wouldOverflow? num delta = some (wouldOverflow num delta) := by
  unfold wouldOverflow? wouldOverflow
  by_cases positive : 0 < delta
  · have notNegative : ¬ delta < 0 := fun negative =>
      absurd (Int64.lt_iff_toInt_lt.mp negative)
        (Int64.lt_iff_toInt_lt.mp positive).asymm
    rw [CheckedInt64.sub_eq_some (inRange_maxValue_sub positive)]
    cases above : decide (Int64.maxValue - delta < num) <;>
      simp [positive, notNegative, above, andAlso, orElse]
  · by_cases negative : delta < 0
    · rw [CheckedInt64.sub_eq_some (inRange_minValue_sub negative)]
      simp [positive, negative, andAlso, orElse]
    · simp [positive, negative, andAlso, orElse]

/-- Neither the guard nor the sum of `apply_delta` overflows. -/
theorem storeSum?_eq
    (key : Bytes) :
    storeSum? key num delta = some (storeSum key num delta) := by
  unfold storeSum? storeSum
  rw [wouldOverflow?_eq]
  cases guarded : wouldOverflow num delta with
  | true =>
      rfl
  | false =>
      have inRange : InInt64Range (num.toInt + delta.toInt) := by
        by_contra outside
        rw [wouldOverflow_iff.mpr outside] at guarded
        cases guarded
      simp only [CheckedInt64.add_eq_some inRange]
      rfl

/-- DECRBY never negates the smallest integer. -/
theorem negated?_eq
    (name key text : Bytes)
    (read : wholeInt64? text = some delta) :
    negated? key delta = some (cmdDecrby ⟨name, [key, text]⟩) := by
  simp only [negated?, cmdDecrby, read]
  by_cases smallest : delta = Int64.minValue
  · rw [if_pos smallest, if_pos smallest]
    rfl
  · rw [if_neg smallest, if_neg smallest,
      CheckedInt64.neg_eq_some (inRange_neg smallest)]
    rfl

/-- No expression that a counter command evaluates overflows. -/
structure CounterArithmeticDefined : Prop where
  sums :
    ∀ key num delta,
      storeSum? key num delta = some (storeSum key num delta)
  negations :
    ∀ name key text delta,
      wholeInt64? text = some delta →
      negated? key delta = some (cmdDecrby ⟨name, [key, text]⟩)

end Arithmetic

section Commands

variable {cmd : Command} {key : Bytes} {number : Int}
variable {now : TimePoint} {backend : Backend}

/-- What a counter command runs: a refusal, or the addition it asks for. -/
inductive CounterProgram (cmd : Command) (key : Bytes) :
    Program RespValue → Prop where
  | malformed
      {message : Bytes}
      (asksNothing : cmd.amount? = none)
      (other : RespValue.error message ≠ overflowError) :
      CounterProgram cmd key (pure (.error message))
  | smallest
      (asked : cmd.amount? = some (2 ^ 63)) :
      CounterProgram cmd key (pure overflowError)
  | adds
      (delta : Int64)
      (asked : cmd.amount? = some delta.toInt) :
      CounterProgram cmd key (applyDelta key delta)

theorem notAnInteger_ne_overflowError :
    notAnInteger ≠ overflowError := by
  intro same
  have texts := RespValue.error.inj same
  revert texts
  decide

theorem wrongArgs_ne_overflowError
    (name : Bytes) :
    wrongArgs name ≠ overflowError := by
  intro same
  have texts := congrArg (List.take 5) (RespValue.error.inj same)
  rw [List.append_assoc, List.take_append_of_le_length (by decide)]
    at texts
  revert texts
  decide

theorem counterProgram_countOnce
    {delta : Int64}
    (head : cmd.args.head? = some key)
    (single :
      ∀ first, cmd.args = [first] → cmd.amount? = some delta.toInt)
    (other :
      (∀ first, cmd.args ≠ [first]) → cmd.amount? = none) :
    CounterProgram cmd key (countOnce delta cmd) := by
  unfold countOnce
  split
  · rename_i first shape
    have asked := single first shape
    rw [shape] at head
    cases head
    exact .adds delta asked
  · rename_i more
    exact .malformed (other more) (wrongArgs_ne_overflowError _)

theorem counterProgram_cmdIncr
    (named : cmd.name = ascii "INCR")
    (head : cmd.args.head? = some key) :
    CounterProgram cmd key (cmdIncr cmd) := by
  refine counterProgram_countOnce head (fun first shape => ?_) ?_
  · simp [Command.amount?, shape, named]
  · intro more
    unfold Command.amount?
    split
    · rename_i first shape
      exact absurd shape (more first)
    · rw [named, if_neg (by decide), if_neg (by decide)]
    · rfl

theorem counterProgram_cmdDecr
    (named : cmd.name = ascii "DECR")
    (head : cmd.args.head? = some key) :
    CounterProgram cmd key (cmdDecr cmd) := by
  refine counterProgram_countOnce head (fun first shape => ?_) ?_
  · have different : ascii "DECR" ≠ ascii "INCR" := by
      decide
    simp [Command.amount?, shape, named, different]
  · intro more
    unfold Command.amount?
    split
    · rename_i first shape
      exact absurd shape (more first)
    · rw [named, if_neg (by decide), if_neg (by decide)]
    · rfl

/-- INCRBY and DECRBY with another number of arguments ask for nothing. -/
theorem amount?_eq_none_of_args
    (named :
      cmd.name ≠ ascii "INCR" ∧ cmd.name ≠ ascii "DECR")
    (other : ∀ first text, cmd.args ≠ [first, text]) :
    cmd.amount? = none := by
  unfold Command.amount?
  split
  · rw [if_neg named.1, if_neg named.2]
  · rename_i first text shape
    exact absurd shape (other first text)
  · rfl

theorem counterProgram_cmdIncrby
    (named : cmd.name = ascii "INCRBY")
    (head : cmd.args.head? = some key) :
    CounterProgram cmd key (cmdIncrby cmd) := by
  unfold cmdIncrby
  split
  · rename_i first text shape
    have asked :
        cmd.amount? = (wholeInt64? text).map Int64.toInt := by
      simp [Command.amount?, shape, named]
    rw [shape] at head
    cases head
    split
    · rename_i unread
      rw [unread] at asked
      exact .malformed asked notAnInteger_ne_overflowError
    · rename_i delta read
      rw [read] at asked
      exact .adds delta asked
  · rename_i other
    refine .malformed (amount?_eq_none_of_args ?_ other)
      (wrongArgs_ne_overflowError _)
    rw [named]
    decide

theorem counterProgram_cmdDecrby
    (named : cmd.name = ascii "DECRBY")
    (head : cmd.args.head? = some key) :
    CounterProgram cmd key (cmdDecrby cmd) := by
  unfold cmdDecrby
  split
  · rename_i first text shape
    have asked :
        cmd.amount? =
          (wholeInt64? text).map fun amount => -amount.toInt := by
      have different : ascii "DECRBY" ≠ ascii "INCRBY" := by
        decide
      simp [Command.amount?, shape, named, different]
    rw [shape] at head
    cases head
    split
    · rename_i unread
      rw [unread] at asked
      exact .malformed asked notAnInteger_ne_overflowError
    · rename_i delta read
      rw [read] at asked
      split
      · rename_i smallest
        subst smallest
        exact .smallest asked
      · rename_i negatable
        refine .adds (-delta) ?_
        rw [asked,
          CheckedInt64.toInt_neg_of_inRange (inRange_neg negatable)]
        rfl
  · rename_i other
    refine .malformed (amount?_eq_none_of_args ?_ other)
      (wrongArgs_ne_overflowError _)
    rw [named]
    decide

/-- Dispatch runs one of these programs for a counter command. -/
theorem counterProgram_dispatch
    (counts : cmd.Counts key)
    (withBroker : Bool) :
    CounterProgram cmd key
      ((Dispatcher.makeDefault withBroker).dispatch cmd) := by
  obtain ⟨named, head⟩ := counts
  obtain ⟨name, args⟩ := cmd
  rw [Dispatcher.dispatch_withBroker]
  · simp only [List.mem_cons, List.not_mem_nil, or_false] at named
    rcases named with rfl | rfl | rfl | rfl
    · exact counterProgram_cmdIncr rfl head
    · exact counterProgram_cmdDecr rfl head
    · exact counterProgram_cmdIncrby rfl head
    · exact counterProgram_cmdDecrby rfl head
  · intro publishes
    rw [publishes] at named
    revert named
    decide

/-- The addition starts from the number that the key holds. -/
theorem exec_applyDelta
    (holds : backend.store.number? now key = some number)
    (delta : Int64) :
    ∃ num : Int64,
      num.toInt = number ∧
        backend.exec now (applyDelta key delta) =
          backend.exec now (storeSum key num delta) := by
  simp only [Backend.exec, applyDelta, Program.get,
    Script.run_invoke_bind, Backend.step]
  unfold KvStore.number? at holds
  cases live : backend.store.get now key with
  | none =>
      rw [live] at holds
      cases holds
      exact ⟨0, rfl, rfl⟩
  | some value =>
      rw [live] at holds
      cases value with
      | string text =>
          obtain ⟨num, read, rfl⟩ := Option.map_eq_some_iff.mp holds
          refine ⟨num, rfl, ?_⟩
          change backend.exec now (addToText key delta text) = _
          rw [addToText, read]
          rfl
      | list | set | hash =>
          cases holds

/-- An entry with a printed number and no deadline denotes it at any time. -/
theorem number?_of_printed
    {store : KvStore}
    {sum : Int64}
    (stored :
      store.data.lookup key =
        some ⟨.string (stdToString sum), none⟩)
    (reading : TimePoint) :
    store.number? reading key = some sum.toInt := by
  have live :
      store.liveEntry reading key =
        some ⟨.string (stdToString sum), none⟩ :=
    KvStore.liveEntry_eq_some_iff.mpr ⟨stored, rfl⟩
  have readsBack : wholeInt64? (stdToString sum) = some sum :=
    wholeInt64?_eq_some_iff.mpr (int64Text_stdToString sum)
  simp [KvStore.number?, KvStore.get, live, readsBack]

/-- A command that only answers an error has counted nothing. -/
theorem countsExactly_of_refused
    {message : Bytes}
    (overflows :
      RespValue.error message = overflowError ↔ cmd.Overflows number)
    (refuses : cmd.amount? = none ∨ cmd.Overflows number) :
    CountsExactly cmd key number backend
      (.ok (.error message), backend) where
  counted := .refused
  overflows := by
    rw [Except.ok.injEq]
    exact overflows
  accepts := by
    refine iff_of_false ?_ fun accepts => ?_
    · rintro ⟨sum, answered⟩
      cases answered
    · exact refuses.elim accepts.1 accepts.2
  number := by
    intro reading holds
    simpa [accepted] using holds

/-- The addition stores the exact sum, or refuses it. -/
theorem countsExactly_applyDelta
    {delta : Int64}
    (asked : cmd.amount? = some delta.toInt)
    (holds : backend.store.number? now key = some number) :
    CountsExactly cmd key number backend
      (backend.exec now (applyDelta key delta)) := by
  obtain ⟨num, rfl, runs⟩ := exec_applyDelta holds delta
  have overflows :
      cmd.Overflows num.toInt ↔
        ¬ InInt64Range (num.toInt + delta.toInt) := by
    constructor
    · rintro ⟨amount, same, outside | large⟩
      · rw [asked] at same
        cases same
        exact outside
      · rw [asked] at same
        cases same
        exact absurd large delta.toInt_lt.ne
    · exact fun outside => ⟨_, asked, Or.inl outside⟩
  rw [runs, storeSum]
  by_cases guarded : wouldOverflow num delta = true
  · have outside := overflows.mpr (wouldOverflow_iff.mp guarded)
    rw [if_pos guarded]
    exact countsExactly_of_refused (iff_of_true rfl outside)
      (Or.inr outside)
  · have inRange : InInt64Range (num.toInt + delta.toInt) := by
      by_contra outside
      exact guarded (wouldOverflow_iff.mpr outside)
    have exact :=
      CheckedInt64.toInt_add_of_inRange inRange
    have within : ¬ cmd.Overflows num.toInt := fun outside =>
      overflows.mp outside inRange
    rw [if_neg guarded]
    have stored :
        (backend.exec now (do
          Program.set key (.string (stdToString (num + delta))) 0
          return RespValue.integer (num + delta))).2.store.data.lookup
            key =
          some ⟨.string (stdToString (num + delta)), none⟩ :=
      AList.lookup_insert _
    refine ⟨.counted asked exact stored ?_, ?_, ?_, ?_⟩
    · exact wholeInt64?_eq_some_iff.mpr (int64Text_stdToString _)
    · refine iff_of_false (fun answered => ?_) within
      cases answered
    · exact iff_of_true ⟨_, rfl⟩
        ⟨asked ▸ Option.some_ne_none _, within⟩
    · intro reading _
      rw [number?_of_printed stored reading, exact]
      change _ = some (num.toInt + cmd.amount?.getD 0)
      rw [asked]
      rfl

/-- Every counter command on a number adds exactly or refuses. -/
theorem countsExactly_dispatch
    (counts : cmd.Counts key)
    (holds : backend.store.number? now key = some number) :
    CountsExactly cmd key number backend (backend.dispatch now cmd) := by
  have shape := counterProgram_dispatch counts backend.broker.isSome
  unfold Backend.dispatch
  generalize (Dispatcher.makeDefault
    backend.broker.isSome).dispatch cmd = program at shape
  cases shape with
  | malformed asksNothing other =>
      refine countsExactly_of_refused ?_ (Or.inl asksNothing)
      refine iff_of_false other ?_
      rintro ⟨amount, asked, -⟩
      rw [asksNothing] at asked
      cases asked
  | smallest asked =>
      have outside : cmd.Overflows number :=
        ⟨2 ^ 63, asked, Or.inr rfl⟩
      exact countsExactly_of_refused (iff_of_true rfl outside)
        (Or.inr outside)
  | adds delta asked =>
      exact countsExactly_applyDelta asked holds

end Commands

namespace Backend

/--
Along every sequence of counter commands on a key whose number is there at all
their clock readings, each command adds exactly or refuses, the number is the
first one plus the amounts accepted so far, and no expression overflows.
-/
theorem counters_exact
    (backend : Backend)
    (key : Bytes)
    (number : Int)
    (commands : List (TimePoint × Command))
    (counts : ∀ step ∈ commands, step.2.Counts key)
    (initially :
      ∀ step ∈ commands,
        backend.store.number? step.1 key = some number) :
    (∀ earlier now cmd later,
      commands = earlier ++ (now, cmd) :: later →
      CountsExactly cmd key (number + backend.acceptedSum earlier)
        (backend.dispatchEach earlier).2
        ((backend.dispatchEach earlier).2.dispatch now cmd)) ∧
      CounterArithmeticDefined := by
  refine ⟨fun earlier now cmd later shape => ?_,
    fun key _ _ => storeSum?_eq key,
    fun name key text _ read => negated?_eq name key text read⟩
  subst shape
  -- The number at all readings still to come is carried along.
  induction earlier generalizing backend number with
  | nil =>
      have member : (now, cmd) ∈ (now, cmd) :: later :=
        List.mem_cons_self
      have step :=
        countsExactly_dispatch (counts _ member) (initially _ member)
      simpa [acceptedSum, dispatchEach] using step
  | cons first earlier inductionHypothesis =>
      obtain ⟨clock, done⟩ := first
      have member :
          (clock, done) ∈
            (clock, done) :: earlier ++ (now, cmd) :: later :=
        List.mem_cons_self
      have step :=
        countsExactly_dispatch (counts _ member) (initially _ member)
      have rest :=
        inductionHypothesis (backend.dispatch clock done).2
          (number + accepted done (backend.dispatch clock done).1)
          (fun next among =>
            counts next (List.mem_cons_of_mem _ among))
          (fun next among =>
            step.number next.1
              (initially next (List.mem_cons_of_mem _ among)))
      rw [add_assoc] at rest
      exact rest

/--
INCR of a missing key, a sum that is too large, the one amount DECRBY always
refuses, and a step down: the last command finds one and leaves zero.
-/
theorem counters_exact_mixed :
    let commands : List (TimePoint × Command) :=
      [(0, ⟨ascii "INCR", [[107]]⟩),
        (1, ⟨ascii "INCRBY", [[107], ascii "9223372036854775807"]⟩),
        (2, ⟨ascii "DECRBY", [[107], ascii "-9223372036854775808"]⟩)]
    initial.acceptedSum commands = 1 ∧
      CountsExactly ⟨ascii "DECR", [[107]]⟩ [107] (0 + 1)
        (initial.dispatchEach commands).2
        ((initial.dispatchEach commands).2.dispatch 3
          ⟨ascii "DECR", [[107]]⟩) := by
  intro commands
  have sum : initial.acceptedSum commands = 1 := by
    decide +kernel
  refine ⟨sum, ?_⟩
  rw [← sum]
  refine (counters_exact initial [107] 0
    (commands ++ [(3, ⟨ascii "DECR", [[107]]⟩)]) (by decide)
    (fun _ _ => rfl)).1 commands 3 ⟨ascii "DECR", [[107]]⟩ [] rfl

end Backend

end Vortek

import Vortek.DispatchSafety

namespace Vortek

open CallScript DecimalText
open Backend (initial)

/-!
# Commands on values of another type

`typedCommands` lists the commands that work on values of one type, with the
arguments they accept.  The collection commands test the type of the value and
answer WRONGTYPE.  GET and the counter commands do not test it: on a live key of
another type they throw `bad_variant_access`.
-/

/-- A command of one value type and the argument lists it accepts. -/
structure Signature where
  name : Bytes
  kind : Kind
  fits : List Bytes → Bool

namespace Signature

/-- A command with a fixed number of arguments. -/
def exactly (count : Nat) (args : List Bytes) : Bool :=
  decide (args.length = count)

/-- A command with any number of further arguments. -/
def atLeast (count : Nat) (args : List Bytes) : Bool :=
  decide (count ≤ args.length)

/-- The argument at a position is a whole `int64_t`. -/
def numericAt (position : Nat) (args : List Bytes) : Bool :=
  ((args[position]?).bind wholeInt64?).isSome

end Signature

open Signature

/-- The commands that expect a string. -/
def stringCommands : List Signature :=
  [⟨ascii "GET", .string, exactly 1⟩,
    ⟨ascii "INCR", .string, exactly 1⟩,
    ⟨ascii "DECR", .string, exactly 1⟩,
    ⟨ascii "INCRBY", .string,
      fun args => exactly 2 args && numericAt 1 args⟩,
    ⟨ascii "DECRBY", .string,
      fun args => exactly 2 args && numericAt 1 args⟩]

/-- The commands that expect a list. -/
def listCommands : List Signature :=
  [⟨ascii "LPUSH", .list, atLeast 2⟩,
    ⟨ascii "RPUSH", .list, atLeast 2⟩,
    ⟨ascii "LPOP", .list, exactly 1⟩,
    ⟨ascii "RPOP", .list, exactly 1⟩,
    ⟨ascii "LLEN", .list, exactly 1⟩,
    ⟨ascii "LRANGE", .list, fun args =>
      exactly 3 args && (numericAt 1 args && numericAt 2 args)⟩,
    ⟨ascii "LINDEX", .list,
      fun args => exactly 2 args && numericAt 1 args⟩]

/-- The commands that expect a set. -/
def setCommands : List Signature :=
  [⟨ascii "SADD", .set, atLeast 2⟩,
    ⟨ascii "SREM", .set, atLeast 2⟩,
    ⟨ascii "SMEMBERS", .set, exactly 1⟩,
    ⟨ascii "SISMEMBER", .set, exactly 2⟩,
    ⟨ascii "SCARD", .set, exactly 1⟩]

/-- The commands that expect a hash. -/
def hashCommands : List Signature :=
  [⟨ascii "HSET", .hash, fun args =>
      atLeast 3 args && decide (args.length % 2 = 1)⟩,
    ⟨ascii "HGET", .hash, exactly 2⟩,
    ⟨ascii "HDEL", .hash, atLeast 2⟩,
    ⟨ascii "HGETALL", .hash, exactly 1⟩,
    ⟨ascii "HEXISTS", .hash, exactly 2⟩,
    ⟨ascii "HLEN", .hash, exactly 1⟩]

/-- The commands that work on values of one type. -/
def typedCommands : List Signature :=
  stringCommands ++ (listCommands ++ (setCommands ++ hashCommands))

/--
A correctly formed command of the family `kind` whose key is live and holds a
value of another type.
-/
def CrossType
    (kind : Kind)
    (now : TimePoint)
    (store : KvStore)
    (cmd : Command) :
    Prop :=
  ∃ signature ∈ typedCommands,
    signature.name = cmd.name ∧
      signature.kind = kind ∧
      signature.fits cmd.args = true ∧
      ∃ key value,
        cmd.args.head? = some key ∧
          store.get now key = some value ∧
          value.kind ≠ kind

section Guards

variable {withBroker : Bool}

theorem exists_of_exactly_one
    {args : List Bytes}
    (fits : exactly 1 args = true) :
    ∃ key, args = [key] := by
  simpa [exactly, List.length_eq_one_iff] using fits

theorem exists_of_exactly_two
    {args : List Bytes}
    (fits : exactly 2 args = true) :
    ∃ key second, args = [key, second] := by
  simpa [exactly, List.length_eq_two] using fits

/-- The command tests the type of its first argument. -/
def TestsType (withBroker : Bool) (signature : Signature) : Prop :=
  ∀ args,
    signature.fits args = true →
    ∃ key later,
      args = key :: later ∧
        Guarded signature.kind key
          ((Dispatcher.makeDefault withBroker).dispatch
            ⟨signature.name, args⟩)

section Arities

variable {name : Bytes} {kind : Kind} {fits : List Bytes → Bool}

/-- A command with one argument tests the type of its key. -/
theorem testsType_of_one
    (arity : ∀ args, fits args = true → exactly 1 args = true)
    (guards :
      ∀ key,
        Guarded kind key
          ((Dispatcher.makeDefault withBroker).dispatch
            ⟨name, [key]⟩)) :
    TestsType withBroker ⟨name, kind, fits⟩ := by
  intro args accepted
  obtain ⟨key, rfl⟩ := exists_of_exactly_one (arity args accepted)
  exact ⟨key, _, rfl, guards key⟩

theorem testsType_of_two
    (arity : ∀ args, fits args = true → exactly 2 args = true)
    (guards :
      ∀ key second,
        Guarded kind key
          ((Dispatcher.makeDefault withBroker).dispatch
            ⟨name, [key, second]⟩)) :
    TestsType withBroker ⟨name, kind, fits⟩ := by
  intro args accepted
  obtain ⟨key, second, rfl⟩ :=
    exists_of_exactly_two (arity args accepted)
  exact ⟨key, _, rfl, guards key second⟩

theorem testsType_of_three
    (arity : ∀ args, fits args = true → exactly 3 args = true)
    (guards :
      ∀ key second third,
        Guarded kind key
          ((Dispatcher.makeDefault withBroker).dispatch
            ⟨name, [key, second, third]⟩)) :
    TestsType withBroker ⟨name, kind, fits⟩ := by
  intro args accepted
  obtain ⟨key, second, third, rfl⟩ :
      ∃ key second third, args = [key, second, third] := by
    simpa [exactly, List.length_eq_three] using arity args accepted
  exact ⟨key, _, rfl, guards key second third⟩

/-- The same for a command with any number of elements. -/
theorem testsType_of_two_or_more
    (arity : ∀ args, fits args = true → atLeast 2 args = true)
    (guards :
      ∀ key second more,
        fits (key :: second :: more) = true →
        Guarded kind key
          ((Dispatcher.makeDefault withBroker).dispatch
            ⟨name, key :: second :: more⟩)) :
    TestsType withBroker ⟨name, kind, fits⟩ := by
  intro args accepted
  have long : 2 ≤ args.length := by
    simpa [atLeast] using arity args accepted
  match args with
  | [] => simp at long
  | [_] => simp at long
  | key :: second :: more =>
      exact ⟨key, _, rfl, guards key second more accepted⟩

end Arities

/-- The commands on lists test for a list. -/
theorem listCommands_testType :
    ∀ signature ∈ listCommands, TestsType withBroker signature := by
  simp only [listCommands, List.forall_mem_cons, List.not_mem_nil,
    false_implies, implies_true, and_true]
  refine ⟨?_, ?_, ?_, ?_, ?_, ?_, ?_⟩
  · exact testsType_of_two_or_more (fun _ fits => fits)
      fun key _ _ _ => (guarded_withTyped : Guarded listType.kind key _)
  · exact testsType_of_two_or_more (fun _ fits => fits)
      fun key _ _ _ => (guarded_withTyped : Guarded listType.kind key _)
  · exact testsType_of_one (fun _ fits => fits)
      fun key => (guarded_withTyped : Guarded listType.kind key _)
  · exact testsType_of_one (fun _ fits => fits)
      fun key => (guarded_withTyped : Guarded listType.kind key _)
  · exact testsType_of_one (fun _ fits => fits)
      fun key => (guarded_withTyped : Guarded listType.kind key _)
  · exact testsType_of_three
      (fun _ fits => (Bool.and_eq_true_iff.mp fits).1)
      fun key _ _ => (guarded_withTyped : Guarded listType.kind key _)
  · exact testsType_of_two
      (fun _ fits => (Bool.and_eq_true_iff.mp fits).1)
      fun key _ => (guarded_withTyped : Guarded listType.kind key _)

/-- The commands on sets test for a set. -/
theorem setCommands_testType :
    ∀ signature ∈ setCommands, TestsType withBroker signature := by
  simp only [setCommands, List.forall_mem_cons, List.not_mem_nil,
    false_implies, implies_true, and_true]
  refine ⟨?_, ?_, ?_, ?_, ?_⟩
  · exact testsType_of_two_or_more (fun _ fits => fits)
      fun key _ _ _ => (guarded_withTyped : Guarded setType.kind key _)
  · exact testsType_of_two_or_more (fun _ fits => fits)
      fun key _ _ _ => (guarded_withTyped : Guarded setType.kind key _)
  · exact testsType_of_one (fun _ fits => fits)
      fun key => (guarded_withTyped : Guarded setType.kind key _)
  · exact testsType_of_two (fun _ fits => fits)
      fun key _ => (guarded_withTyped : Guarded setType.kind key _)
  · exact testsType_of_one (fun _ fits => fits)
      fun key => (guarded_withTyped : Guarded setType.kind key _)

/-- HSET with a key and whole pairs goes to the typed access. -/
theorem guarded_hset
    {name key field : Bytes}
    {more : List Bytes}
    (long : 3 ≤ (key :: field :: more).length)
    (odd : (key :: field :: more).length % 2 = 1) :
    Guarded .hash key (cmdHset ⟨name, key :: field :: more⟩) := by
  cases more with
  | nil =>
      simp at long
  | cons value more =>
      have pairs : more.length % 2 = 0 := by
        simp only [List.length_cons] at odd
        omega
      simp only [cmdHset, if_pos pairs]
      exact (guarded_withTyped : Guarded hashType.kind key _)

/-- The commands on hashes test for a hash. -/
theorem hashCommands_testType :
    ∀ signature ∈ hashCommands, TestsType withBroker signature := by
  simp only [hashCommands, List.forall_mem_cons, List.not_mem_nil,
    false_implies, implies_true, and_true]
  refine ⟨?_, ?_, ?_, ?_, ?_, ?_⟩
  · refine testsType_of_two_or_more (fun args fits => ?_)
      fun key field more fits => ?_
    · simp only [atLeast, Bool.and_eq_true, decide_eq_true_eq] at fits ⊢
      omega
    · simp only [atLeast, Bool.and_eq_true, decide_eq_true_eq] at fits
      exact guarded_hset fits.1 fits.2
  · exact testsType_of_two (fun _ fits => fits)
      fun key _ => (guarded_withTyped : Guarded hashType.kind key _)
  · exact testsType_of_two_or_more (fun _ fits => fits)
      fun key _ _ _ => (guarded_withTyped : Guarded hashType.kind key _)
  · exact testsType_of_one (fun _ fits => fits)
      fun key => (guarded_withTyped : Guarded hashType.kind key _)
  · exact testsType_of_two (fun _ fits => fits)
      fun key _ => (guarded_withTyped : Guarded hashType.kind key _)
  · exact testsType_of_one (fun _ fits => fits)
      fun key => (guarded_withTyped : Guarded hashType.kind key _)

/-- Every command of a collection tests the type of its key. -/
theorem testsType_of_kind_ne_string
    {signature : Signature}
    (member : signature ∈ typedCommands)
    (collection : signature.kind ≠ .string) :
    TestsType withBroker signature := by
  simp only [typedCommands, List.mem_append] at member
  rcases member with string | list | set | hash
  · have kinds : ∀ other ∈ stringCommands, other.kind = .string := by
      decide
    exact (collection (kinds signature string)).elim
  · exact listCommands_testType signature list
  · exact setCommands_testType signature set
  · exact hashCommands_testType signature hash

end Guards

section StringAccess

/--
The key whose string a command takes without testing for it.  DECRBY refuses
the smallest amount before it looks at the key.
-/
def stringKey (cmd : Command) : Option Bytes :=
  if cmd.name = ascii "GET" ∨ cmd.name = ascii "INCR" ∨
      cmd.name = ascii "DECR" then
    match cmd.args with
    | [key] => some key
    | _ => none
  else if cmd.name = ascii "INCRBY" then
    match cmd.args with
    | [key, amount] => (wholeInt64? amount).map fun _ => key
    | _ => none
  else if cmd.name = ascii "DECRBY" then
    match cmd.args with
    | [key, amount] =>
        match wholeInt64? amount with
        | none => none
        | some delta => if delta = Int64.minValue then none else some key
    | _ => none
  else
    none

/-- The program never throws. -/
def NeverThrows (program : Program RespValue) : Prop :=
  program.Always (fun _ => True) (fun _ => True) NoThrow

/--
The program starts by reading a key; it throws if the key holds a value other
than a string, and only then.
-/
def TakesString (key : Bytes) (program : Program RespValue) : Prop :=
  ∃ resume : Option Value → Program RespValue,
    program = .call (.get key) resume ∧
      NeverThrows (resume none) ∧
      ∀ value : Value,
        (value.kind ≠ .string →
          resume (some value) = .raise .badVariantAccess) ∧
        (value.kind = .string → NeverThrows (resume (some value)))

theorem takesString_cmdGet
    {name key : Bytes} :
    TakesString key (cmdGet ⟨name, [key]⟩) := by
  refine ⟨_, rfl, trivial, fun value => ?_⟩
  cases value with
  | string data =>
      exact ⟨fun other => (other rfl).elim, fun _ => trivial⟩
  | list | set | hash =>
      exact ⟨fun _ => rfl, fun same => nomatch same⟩

theorem neverThrows_storeSum
    {key : Bytes}
    {num delta : Int64} :
    NeverThrows (storeSum key num delta) := by
  unfold storeSum
  split
  · trivial
  · exact ⟨trivial, fun _ => trivial⟩

/-- A counter that is not a string throws on `std::get`. -/
theorem takesString_applyDelta
    {key : Bytes}
    {delta : Int64} :
    TakesString key (applyDelta key delta) := by
  refine ⟨_, rfl, neverThrows_storeSum, fun value => ?_⟩
  cases value with
  | string text =>
      refine ⟨fun other => (other rfl).elim, fun _ => ?_⟩
      change NeverThrows (addToText key delta text)
      unfold addToText
      split
      · trivial
      · exact neverThrows_storeSum
  | list | set | hash =>
      exact ⟨fun _ => rfl, fun same => nomatch same⟩

/-- A program that takes a string throws exactly on a live other value. -/
theorem exec_throws_iff_of_takesString
    {key : Bytes}
    {program : Program RespValue}
    {now : TimePoint}
    {backend : Backend}
    (takes : TakesString key program) :
    (∃ exception,
        (backend.exec now program).1 = .error exception) ↔
      ∃ value,
        backend.store.get now key = some value ∧
          value.kind ≠ .string := by
  obtain ⟨resume, rfl, absent, present⟩ := takes
  change (∃ exception,
    (Script.run (Backend.step now)
      (resume (backend.store.get now key)) backend).1 =
        .error exception) ↔ _
  have sound
      {program : Program RespValue}
      (never : NeverThrows program)
      {exception : CppException}
      (thrown :
        (Script.run (Backend.step now) program backend).1 =
          .error exception) :
      False :=
    never.raised_of_run (Prod.ext thrown rfl)
  cases live : backend.store.get now key with
  | none =>
      simp only [reduceCtorEq, false_and, exists_false, iff_false]
      rintro ⟨exception, thrown⟩
      exact sound absent thrown
  | some value =>
      by_cases string : value.kind = .string
      · simp only [Option.some.injEq, exists_eq_left', string, ne_eq,
          not_true_eq_false, iff_false]
        rintro ⟨exception, thrown⟩
        exact sound ((present value).2 string) thrown
      · rw [(present value).1 string]
        exact iff_of_true ⟨_, rfl⟩ ⟨value, rfl, string⟩

/-- What `stringKey` says about a program. -/
def KeyTaken (taken : Option Bytes) (program : Program RespValue) :
    Prop :=
  match taken with
  | some key => TakesString key program
  | none => NeverThrows program

/-- GET takes the string of its only argument. -/
theorem keyTaken_cmdGet
    {name : Bytes}
    (args : List Bytes) :
    KeyTaken
      (match args with
        | [key] => some key
        | _ => none)
      (cmdGet ⟨name, args⟩) := by
  match args with
  | [] => trivial
  | [key] => exact takesString_cmdGet
  | _ :: _ :: _ => trivial

theorem keyTaken_countOnce
    {name : Bytes}
    {delta : Int64}
    (args : List Bytes) :
    KeyTaken
      (match args with
        | [key] => some key
        | _ => none)
      (countOnce delta ⟨name, args⟩) := by
  match args with
  | [] => trivial
  | [key] => exact takesString_applyDelta
  | _ :: _ :: _ => trivial

theorem keyTaken_cmdIncrby
    {name : Bytes}
    (args : List Bytes) :
    KeyTaken
      (match args with
        | [key, amount] => (wholeInt64? amount).map fun _ => key
        | _ => none)
      (cmdIncrby ⟨name, args⟩) := by
  match args with
  | [] => trivial
  | [_] => trivial
  | [key, amount] =>
      simp only [cmdIncrby]
      cases wholeInt64? amount with
      | none =>
          trivial
      | some delta =>
          exact takesString_applyDelta
  | _ :: _ :: _ :: _ => trivial

/-- DECRBY refuses the delta that has no negation before it reads. -/
theorem keyTaken_cmdDecrby
    {name : Bytes}
    (args : List Bytes) :
    KeyTaken
      (match args with
        | [key, amount] =>
            match wholeInt64? amount with
            | none => none
            | some delta =>
                if delta = Int64.minValue then none else some key
        | _ => none)
      (cmdDecrby ⟨name, args⟩) := by
  match args with
  | [] => trivial
  | [_] => trivial
  | [key, amount] =>
      simp only [cmdDecrby]
      cases wholeInt64? amount with
      | none =>
          trivial
      | some delta =>
          by_cases smallest : delta = Int64.minValue
          · simp only [smallest, if_true]
            trivial
          · simp only [smallest, if_false]
            exact takesString_applyDelta
  | _ :: _ :: _ :: _ => trivial

/-- Dispatch takes the string of the key that `stringKey` names. -/
theorem keyTaken_dispatch
    (withBroker : Bool)
    (cmd : Command) :
    KeyTaken (stringKey cmd)
      ((Dispatcher.makeDefault withBroker).dispatch cmd) := by
  obtain ⟨name, args⟩ := cmd
  by_cases get : name = ascii "GET"
  · subst get
    exact keyTaken_cmdGet args
  by_cases incr : name = ascii "INCR"
  · subst incr
    exact keyTaken_countOnce args
  by_cases decr : name = ascii "DECR"
  · subst decr
    exact keyTaken_countOnce args
  by_cases incrby : name = ascii "INCRBY"
  · subst incrby
    exact keyTaken_cmdIncrby args
  by_cases decrby : name = ascii "DECRBY"
  · subst decrby
    exact keyTaken_cmdDecrby args
  have others : stringKey ⟨name, args⟩ = none := by
    simp [stringKey, get, incr, decr, incrby, decrby]
  rw [others]
  refine (Dispatcher.dispatch_mayCall withBroker ⟨name, args⟩).mono
    (fun _ _ => trivial) (fun _ _ => trivial) ?_
  rintro exception ⟨takes, -⟩
  simp [Dispatcher.takesString, get, incr, decr, incrby, decrby] at takes

/-- The command takes the string of a live key of another type. -/
def TakesOtherType
    (now : TimePoint)
    (store : KvStore)
    (cmd : Command) :
    Prop :=
  ∃ key value,
    stringKey cmd = some key ∧
      store.get now key = some value ∧
      value.kind ≠ .string

/-- Dispatch throws exactly when it takes a string that is not there. -/
theorem dispatch_throws_iff
    {now : TimePoint}
    {backend : Backend}
    {cmd : Command} :
    (∃ exception,
        (backend.dispatch now cmd).1 = .error exception) ↔
      TakesOtherType now backend.store cmd := by
  have taken := keyTaken_dispatch backend.broker.isSome cmd
  unfold TakesOtherType
  cases found : stringKey cmd with
  | none =>
      rw [found] at taken
      simp only [reduceCtorEq, false_and, exists_false, iff_false]
      rintro ⟨exception, thrown⟩
      exact taken.raised_of_run (Prod.ext thrown rfl)
  | some key =>
      rw [found] at taken
      simpa [Backend.dispatch] using
        exec_throws_iff_of_takesString taken

end StringAccess

section Families

variable {now : TimePoint} {backend : Backend} {cmd : Command}

/--
On a key of another type a correctly formed command answers WRONGTYPE and
changes nothing; and no command ends in a bad variant access.
-/
def AnswersWrongType
    (now : TimePoint)
    (backend : Backend)
    (cmd : Command) :
    Prop :=
  (∀ kind,
      CrossType kind now backend.store cmd →
      backend.dispatch now cmd = (.ok kWrongType, backend)) ∧
    (backend.dispatch now cmd).1 ≠ .error .badVariantAccess

/-- A collection command on a key of another type answers WRONGTYPE. -/
theorem dispatch_of_crossType
    {kind : Kind}
    (crossed : CrossType kind now backend.store cmd)
    (collection : kind ≠ .string) :
    backend.dispatch now cmd = (.ok kWrongType, backend) := by
  obtain ⟨signature, member, named, rfl, fits, key, value, first, live,
      other⟩ := crossed
  obtain ⟨tested, later, shape, guarded⟩ :=
    testsType_of_kind_ne_string member collection cmd.args fits
  rw [shape, List.head?_cons, Option.some.injEq] at first
  subst first
  rw [named] at guarded
  exact exec_of_guarded guarded live other

/-- A command that takes a string is a correctly formed string command. -/
theorem exists_signature_of_stringKey
    {key : Bytes}
    (taken : stringKey cmd = some key) :
    ∃ signature ∈ typedCommands,
      signature.name = cmd.name ∧
        signature.kind = .string ∧
        signature.fits cmd.args = true ∧
        cmd.args.head? = some key := by
  obtain ⟨name, args⟩ := cmd
  unfold stringKey at taken
  dsimp only at taken ⊢
  split at taken
  · rename_i names
    split at taken
    · cases taken
      rcases names with rfl | rfl | rfl
      · exact ⟨⟨ascii "GET", .string, exactly 1⟩,
          by simp [typedCommands, stringCommands], rfl, rfl, rfl, rfl⟩
      · exact ⟨⟨ascii "INCR", .string, exactly 1⟩,
          by simp [typedCommands, stringCommands], rfl, rfl, rfl, rfl⟩
      · exact ⟨⟨ascii "DECR", .string, exactly 1⟩,
          by simp [typedCommands, stringCommands], rfl, rfl, rfl, rfl⟩
    · cases taken
  · split at taken
    · rename_i incrby
      subst incrby
      split at taken
      · rename_i first amount
        obtain ⟨delta, number, rfl⟩ := Option.map_eq_some_iff.mp taken
        exact ⟨⟨ascii "INCRBY", .string,
            fun args => exactly 2 args && numericAt 1 args⟩,
          by simp [typedCommands, stringCommands], rfl, rfl,
          by simp [exactly, numericAt, number], rfl⟩
      · cases taken
    · split at taken
      · rename_i decrby
        subst decrby
        split at taken
        · rename_i first amount
          split at taken
          · cases taken
          · rename_i delta number
            split at taken
            · cases taken
            · cases taken
              exact ⟨⟨ascii "DECRBY", .string,
                  fun args => exactly 2 args && numericAt 1 args⟩,
                by simp [typedCommands, stringCommands], rfl, rfl,
                by simp [exactly, numericAt, number], rfl⟩
        · cases taken
      · cases taken

/-- A correctly formed string command takes its key, or refuses earlier. -/
theorem stringKey_of_signature
    {signature : Signature}
    (member : signature ∈ typedCommands)
    (named : signature.name = cmd.name)
    (string : signature.kind = .string)
    (fits : signature.fits cmd.args = true) :
    (∃ key,
        cmd.args.head? = some key ∧ stringKey cmd = some key) ∨
      ∀ withBroker,
        (Dispatcher.makeDefault withBroker).dispatch cmd =
          pure (err "ERR increment or decrement would overflow") := by
  obtain ⟨name, args⟩ := cmd
  have listed : signature ∈ stringCommands := by
    simp only [typedCommands, List.mem_append] at member
    have collections :
        ∀ other ∈ listCommands ++ (setCommands ++ hashCommands),
          other.kind ≠ .string := by
      decide
    rcases member with string | list | set | hash
    · exact string
    · exact (collections signature (by simp [list]) string).elim
    · exact (collections signature (by simp [set]) string).elim
    · exact (collections signature (by simp [hash]) string).elim
  simp only [stringCommands, List.mem_cons, List.not_mem_nil,
    or_false] at listed
  dsimp only at named fits ⊢
  rcases listed with rfl | rfl | rfl | rfl | rfl
  · subst named
    obtain ⟨key, rfl⟩ := exists_of_exactly_one fits
    exact Or.inl ⟨key, rfl, rfl⟩
  · subst named
    obtain ⟨key, rfl⟩ := exists_of_exactly_one fits
    exact Or.inl ⟨key, rfl, rfl⟩
  · subst named
    obtain ⟨key, rfl⟩ := exists_of_exactly_one fits
    exact Or.inl ⟨key, rfl, rfl⟩
  · subst named
    obtain ⟨two, numeric⟩ := Bool.and_eq_true_iff.mp fits
    obtain ⟨key, amount, rfl⟩ := exists_of_exactly_two two
    obtain ⟨delta, number⟩ := Option.isSome_iff_exists.mp numeric
    refine Or.inl ⟨key, rfl, ?_⟩
    change (wholeInt64? amount).map _ = _
    change wholeInt64? amount = some delta at number
    rw [number]
    rfl
  · subst named
    obtain ⟨two, numeric⟩ := Bool.and_eq_true_iff.mp fits
    obtain ⟨key, amount, rfl⟩ := exists_of_exactly_two two
    obtain ⟨delta, number⟩ := Option.isSome_iff_exists.mp numeric
    change wholeInt64? amount = some delta at number
    by_cases smallest : delta = Int64.minValue
    · refine Or.inr fun withBroker => ?_
      change cmdDecrby ⟨ascii "DECRBY", [key, amount]⟩ = _
      simp only [cmdDecrby, number, if_pos smallest]
    · refine Or.inl ⟨key, rfl, ?_⟩
      have named : (ascii "DECRBY") ≠ ascii "INCRBY" := by decide
      have first :
          ¬ (ascii "DECRBY" = ascii "GET" ∨
            ascii "DECRBY" = ascii "INCR" ∨
            ascii "DECRBY" = ascii "DECR") := by
        decide
      simp only [stringKey, number, if_neg first, if_neg named, if_true,
        if_neg smallest]

/--
Commands answer WRONGTYPE, and never end in a bad variant access, exactly when
they are not string commands on a live key of another type.
-/
theorem answersWrongType_iff
    (now : TimePoint)
    (backend : Backend)
    (cmd : Command) :
    AnswersWrongType now backend cmd ↔
      ¬ CrossType .string now backend.store cmd := by
  constructor
  · rintro ⟨answers, -⟩ crossed
    have answered := answers .string crossed
    obtain ⟨signature, member, named, string, fits, key, value, first,
        live, other⟩ := crossed
    rcases stringKey_of_signature member named string fits with
        ⟨taken, same, found⟩ | refused
    · rw [first, Option.some.injEq] at same
      subst same
      obtain ⟨exception, thrown⟩ :=
        dispatch_throws_iff.mpr ⟨key, value, found, live, other⟩
      rw [answered] at thrown
      cases thrown
    · rw [Backend.dispatch, refused] at answered
      have outcome := congrArg Prod.fst answered
      injection outcome with sameReply
      injection sameReply with sameText
      exact absurd sameText (by decide)
  · intro sound
    refine ⟨fun kind crossed => ?_, fun thrown => ?_⟩
    · by_cases string : kind = .string
      · subst string
        exact (sound crossed).elim
      · exact dispatch_of_crossType crossed string
    · obtain ⟨key, value, taken, live, other⟩ :=
        dispatch_throws_iff.mp ⟨_, thrown⟩
      obtain ⟨signature, member, named, string, fits, first⟩ :=
        exists_signature_of_stringKey taken
      exact sound ⟨signature, member, named, string, fits, key, value,
        first, live, other⟩

/-- After LPUSH, GET of the list throws instead of answering WRONGTYPE. -/
theorem get_of_list_throws :
    ((initial.dispatch 0 ⟨ascii "LPUSH", [ascii "k", ascii "a"]⟩).2.dispatch
        0 ⟨ascii "GET", [ascii "k"]⟩).1 =
        .error .badVariantAccess ∧
      ¬ AnswersWrongType 0
        (initial.dispatch 0 ⟨ascii "LPUSH", [ascii "k", ascii "a"]⟩).2
        ⟨ascii "GET", [ascii "k"]⟩ :=
  ⟨rfl, fun answers => answers.2 rfl⟩

end Families

end Vortek

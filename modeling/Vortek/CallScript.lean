import Mathlib.Logic.Basic

namespace Vortek.CallScript

/-!
# Programs that call an object

A script is a program that can do three things: return, raise a fault, or call
an operation of some object and go on with the answer.  The object is left
open; `run` fills it in with a step function on states.

Properties of a script that do not depend on the object are stated once with
`Always`, which ranges over all answers.  Properties that do depend on it are
stated with `Along`, which follows one run.  Two objects that answer alike
along a run give the same result (`run_related`).  A script that commits last
makes harmless calls only, until it is sure to succeed; when it fails, it has
changed nothing.
-/

variable {Op : Type} {Answer : Op → Type}
variable {Fault Result Final State Other : Type}

/-- A program over the operations `Op`, whose answers have type `Answer`. -/
inductive Script
    (Op : Type) (Answer : Op → Type) (Fault Result : Type) where
  | done (result : Result)
  | raise (fault : Fault)
  | call
      (op : Op)
      (resume : Answer op → Script Op Answer Fault Result)

namespace Script

/-- Continue with the result of a script. -/
def bind
    (script : Script Op Answer Fault Result)
    (next : Result → Script Op Answer Fault Final) :
    Script Op Answer Fault Final :=
  match script with
  | .done result => next result
  | .raise fault => .raise fault
  | .call op resume => .call op fun answer => (resume answer).bind next

instance : Monad (Script Op Answer Fault) where
  pure := .done
  bind := .bind

/-- Call one operation and return its answer. -/
def invoke (op : Op) : Script Op Answer Fault (Answer op) :=
  .call op .done

/-- Return the value of a computation or raise its fault. -/
def ofExcept :
    Except Fault Result → Script Op Answer Fault Result
  | .ok result => .done result
  | .error fault => .raise fault

/-- Run a script on an object given by its step function. -/
def run (step : (op : Op) → State → Answer op × State) :
    Script Op Answer Fault Result →
      State → Except Fault Result × State
  | .done result, state => (.ok result, state)
  | .raise fault, state => (.error fault, state)
  | .call op resume, state =>
      run step (resume (step op state).1) (step op state).2

/--
Whatever the answers are, every operation called is allowed and the script ends
as described.
-/
def Always
    (allowed : Op → Prop)
    (returned : Result → Prop)
    (raised : Fault → Prop) :
    Script Op Answer Fault Result → Prop
  | .done result => returned result
  | .raise fault => raised fault
  | .call op resume =>
      allowed op ∧
        ∀ answer, (resume answer).Always allowed returned raised

/-- Every call made in one run satisfies a condition on it and the state. -/
def Along
    (step : (op : Op) → State → Answer op × State)
    (holds : Op → State → Prop) :
    Script Op Answer Fault Result → State → Prop
  | .done _, _ => True
  | .raise _, _ => True
  | .call op resume, state =>
      holds op state ∧
        (resume (step op state).1).Along step holds (step op state).2

/--
Whatever the answers are, only harmless operations are called until the script
is sure to succeed.
-/
def CommitsLast
    (harmless : Op → Prop)
    (success : Result → Prop) :
    Script Op Answer Fault Result → Prop
  | .done _ => True
  | .raise _ => True
  | .call op resume =>
      (harmless op ∧
        ∀ answer, (resume answer).CommitsLast harmless success) ∨
      ∀ answer,
        (resume answer).Always
          (fun _ => True) success (fun _ => False)

section Running

variable {step : (op : Op) → State → Answer op × State}

@[simp] theorem run_invoke_bind
    (op : Op)
    (next : Answer op → Script Op Answer Fault Result)
    (state : State) :
    run step (invoke op >>= next) state =
      run step (next (step op state).1) (step op state).2 :=
  rfl

/-- A sequence goes on from where its first part returned. -/
theorem run_bind_of_ok
    {script : Script Op Answer Fault Result}
    {state later : State}
    {result : Result}
    (ran : run step script state = (.ok result, later))
    (next : Result → Script Op Answer Fault Final) :
    run step (script >>= next) state = run step (next result) later := by
  induction script generalizing state with
  | done value =>
      cases ran
      rfl
  | raise fault =>
      cases ran
  | call op resume inductionHypothesis =>
      exact inductionHypothesis _ ran

end Running

section AllAnswers

variable {allowed wider : Op → Prop}
variable {returned weaker : Result → Prop}
variable {raised more : Fault → Prop}

@[simp] theorem always_pure
    {result : Result} :
    Always allowed returned raised
        (pure result : Script Op Answer Fault Result) ↔
      returned result :=
  Iff.rfl

@[simp] theorem always_invoke_bind
    {op : Op}
    {next : Answer op → Script Op Answer Fault Result} :
    Always allowed returned raised (invoke op >>= next) ↔
      allowed op ∧
        ∀ answer, Always allowed returned raised (next answer) :=
  Iff.rfl

/-- A sequence is safe when its second part is, after every safe result. -/
theorem always_bind
    {script : Script Op Answer Fault Result}
    {next : Result → Script Op Answer Fault Final}
    {finished : Final → Prop} :
    Always allowed finished raised (script >>= next) ↔
      Always allowed
        (fun result => Always allowed finished raised (next result))
        raised script := by
  induction script with
  | done result =>
      exact Iff.rfl
  | raise fault =>
      exact Iff.rfl
  | call op resume inductionHypothesis =>
      exact and_congr_right fun _ =>
        forall_congr' fun answer => inductionHypothesis answer

theorem Always.mono
    {script : Script Op Answer Fault Result}
    (safe : script.Always allowed returned raised)
    (widen : ∀ op, allowed op → wider op)
    (weaken : ∀ result, returned result → weaker result)
    (extend : ∀ fault, raised fault → more fault) :
    script.Always wider weaker more := by
  induction script with
  | done result =>
      exact weaken result safe
  | raise fault =>
      exact extend fault safe
  | call op resume inductionHypothesis =>
      exact ⟨widen op safe.1,
        fun answer => inductionHypothesis answer (safe.2 answer)⟩

/-- Weaken what is known about the result. -/
theorem Always.imp
    {script : Script Op Answer Fault Result}
    (safe : script.Always allowed returned raised)
    (weaken : ∀ result, returned result → weaker result) :
    script.Always allowed weaker raised :=
  safe.mono (fun _ holds => holds) weaken fun _ holds => holds

/-- Safe parts make a safe sequence. -/
theorem Always.bind
    {script : Script Op Answer Fault Result}
    {next : Result → Script Op Answer Fault Final}
    {finished : Final → Prop}
    (first : script.Always allowed returned raised)
    (second :
      ∀ result,
        returned result →
        (next result).Always allowed finished raised) :
    (script >>= next).Always allowed finished raised :=
  always_bind.mpr (first.imp second)

variable {step : (op : Op) → State → Answer op × State}

/-- What a run returns is what the script may return. -/
theorem Always.returned_of_run
    {script : Script Op Answer Fault Result}
    {state later : State}
    {result : Result}
    (safe : script.Always allowed returned raised)
    (ran : run step script state = (.ok result, later)) :
    returned result := by
  induction script generalizing state with
  | done value =>
      cases ran
      exact safe
  | raise fault =>
      cases ran
  | call op resume inductionHypothesis =>
      exact inductionHypothesis _ (safe.2 _) ran

/-- What a run raises is what the script may raise. -/
theorem Always.raised_of_run
    {script : Script Op Answer Fault Result}
    {state later : State}
    {fault : Fault}
    (safe : script.Always allowed returned raised)
    (ran : run step script state = (.error fault, later)) :
    raised fault := by
  induction script generalizing state with
  | done value =>
      cases ran
  | raise found =>
      cases ran
      exact safe
  | call op resume inductionHypothesis =>
      exact inductionHypothesis _ (safe.2 _) ran

/-- A property kept by every allowed operation is kept by a run. -/
theorem Always.invariant
    {script : Script Op Answer Fault Result}
    {state : State}
    (safe : script.Always allowed returned raised)
    (holds : State → Prop)
    (keeps :
      ∀ op state, allowed op → holds state → holds (step op state).2)
    (initially : holds state) :
    holds (run step script state).2 := by
  induction script generalizing state with
  | done result =>
      exact initially
  | raise fault =>
      exact initially
  | call op resume inductionHypothesis =>
      exact inductionHypothesis _ (safe.2 _)
        (keeps op state safe.1 initially)

/-- A condition that allowed operations meet in every state holds on runs. -/
theorem Always.along
    {script : Script Op Answer Fault Result}
    {holds : Op → State → Prop}
    (safe : script.Always allowed returned raised)
    (meets : ∀ op state, allowed op → holds op state)
    (state : State) :
    script.Along step holds state := by
  induction script generalizing state with
  | done result =>
      trivial
  | raise fault =>
      trivial
  | call op resume inductionHypothesis =>
      exact ⟨meets op state safe.1,
        inductionHypothesis _ (safe.2 _) _⟩

/-- Allowed operations can be added to a condition along a run. -/
theorem Always.and_along
    {script : Script Op Answer Fault Result}
    {state : State}
    {holds : Op → State → Prop}
    (safe : script.Always allowed returned raised)
    (along : script.Along step holds state) :
    script.Along step (fun op state => allowed op ∧ holds op state)
      state := by
  induction script generalizing state with
  | done result =>
      trivial
  | raise fault =>
      trivial
  | call op resume inductionHypothesis =>
      exact ⟨⟨safe.1, along.1⟩,
        inductionHypothesis _ (safe.2 _) along.2⟩

end AllAnswers

section OneRun

variable {step : (op : Op) → State → Answer op × State}
variable {holds : Op → State → Prop}

@[simp] theorem along_pure
    {result : Result}
    {state : State} :
    Along step holds
      (pure result : Script Op Answer Fault Result) state :=
  trivial

@[simp] theorem along_invoke_bind
    {op : Op}
    {next : Answer op → Script Op Answer Fault Result}
    {state : State} :
    Along step holds (invoke op >>= next) state ↔
      holds op state ∧
        Along step holds (next (step op state).1) (step op state).2 :=
  Iff.rfl

/--
If two objects answer alike, and stay related, on every call that the first run
makes, then both runs end alike and related.
-/
theorem run_related
    {mirror : (op : Op) → Other → Answer op × Other}
    (related : State → Other → Prop)
    (keeps :
      ∀ op state other,
        holds op state →
        related state other →
        (step op state).1 = (mirror op other).1 ∧
          related (step op state).2 (mirror op other).2)
    {script : Script Op Answer Fault Result}
    {state : State}
    {other : Other}
    (along : script.Along step holds state)
    (initially : related state other) :
    (run step script state).1 = (run mirror script other).1 ∧
      related (run step script state).2 (run mirror script other).2 := by
  induction script generalizing state other with
  | done result =>
      exact ⟨rfl, initially⟩
  | raise fault =>
      exact ⟨rfl, initially⟩
  | call op resume inductionHypothesis =>
      obtain ⟨sameAnswer, relatedLater⟩ :=
        keeps op state other along.1 initially
      simp only [run, ← sameAnswer]
      exact inductionHypothesis _ along.2 relatedLater

end OneRun

section Committing

variable {harmless : Op → Prop} {success : Result → Prop}

/-- Harmless operations alone commit nothing. -/
theorem Always.commitsLast
    {script : Script Op Answer Fault Result}
    {returned : Result → Prop}
    {raised : Fault → Prop}
    (safe : script.Always harmless returned raised) :
    script.CommitsLast harmless success := by
  induction script with
  | done result =>
      trivial
  | raise fault =>
      trivial
  | call op resume inductionHypothesis =>
      exact Or.inl ⟨safe.1,
        fun answer => inductionHypothesis answer (safe.2 answer)⟩

/-- A run of a script that cannot fail succeeds. -/
theorem Always.succeeds
    {step : (op : Op) → State → Answer op × State}
    {script : Script Op Answer Fault Result}
    {allowed : Op → Prop}
    (safe : script.Always allowed success fun _ => False)
    (state : State) :
    ∃ result,
      (run step script state).1 = .ok result ∧ success result := by
  induction script generalizing state with
  | done result =>
      exact ⟨result, rfl, safe⟩
  | raise fault =>
      exact safe.elim
  | call op resume inductionHypothesis =>
      exact inductionHypothesis _ (safe.2 _) _

/-- A script that commits last and fails leaves what it observes alone. -/
theorem CommitsLast.unchanged
    {View : Type}
    {step : (op : Op) → State → Answer op × State}
    {script : Script Op Answer Fault Result}
    (commits : script.CommitsLast harmless success)
    (view : State → View)
    (keeps :
      ∀ op state,
        harmless op → view (step op state).2 = view state)
    (state : State)
    (fails :
      ∀ result,
        (run step script state).1 = .ok result → ¬ success result) :
    view (run step script state).2 = view state := by
  induction script generalizing state with
  | done result =>
      rfl
  | raise fault =>
      rfl
  | call op resume inductionHypothesis =>
      rcases commits with ⟨harmlessOp, later⟩ | sure
      · have same :=
          inductionHypothesis _ (later _) (step op state).2 fails
        exact same.trans (keeps op state harmlessOp)
      · obtain ⟨result, returned, succeeded⟩ :=
          (sure (step op state).1).succeeds (step op state).2
        exact absurd succeeded (fails result returned)

end Committing

end Script

end Vortek.CallScript

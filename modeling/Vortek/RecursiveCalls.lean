import Vortek.CallScript

namespace Vortek.RecursiveCalls

open CallScript

/-!
# Procedures that call themselves

The body of a recursive procedure is a script whose operations are calls of the
procedure itself.  `Evaluates` is what it means to run such a script to its end:
a finite derivation, with the number of calls in it.  A run that never comes to
an end has no derivation.

A procedure evaluates at every argument if its calls go to arguments of smaller
rank as long as the calls before them have met their specification; and then it
meets the specification itself (`exists_evaluates`).
-/

variable {Arg Answer Fault : Type}

/-- A script that may call the procedure it is part of. -/
abbrev Code (Arg Answer Fault : Type) :=
  Script Arg (fun _ => Answer) Fault Answer

/-- A run to the end, its outcome, and how many calls it has made. -/
inductive Evaluates (body : Arg → Code Arg Answer Fault) :
    Code Arg Answer Fault → Except Fault Answer → Nat → Prop where
  | done
      (answer : Answer) :
      Evaluates body (.done answer) (.ok answer) 0
  | raise
      (fault : Fault) :
      Evaluates body (.raise fault) (.error fault) 0
  | returns
      {arg : Arg}
      {resume : Answer → Code Arg Answer Fault}
      {answer : Answer}
      {outcome : Except Fault Answer}
      {calls later : Nat}
      (called : Evaluates body (body arg) (.ok answer) calls)
      (resumed : Evaluates body (resume answer) outcome later) :
      Evaluates body (.call arg resume) outcome (calls + 1 + later)
  | throws
      {arg : Arg}
      {resume : Answer → Code Arg Answer Fault}
      {fault : Fault}
      {calls : Nat}
      (called : Evaluates body (body arg) (.error fault) calls) :
      Evaluates body (.call arg resume) (.error fault) (calls + 1)

/--
Every call goes to an argument of rank below `limit`, and the script ends as
described, provided that the calls before have met `spec`.
-/
def Meets
    (rank : Arg → Nat)
    (limit : Nat)
    (spec : Arg → Except Fault Answer → Nat → Prop) :
    Code Arg Answer Fault → (Except Fault Answer → Nat → Prop) → Prop
  | .done answer, goal => goal (.ok answer) 0
  | .raise fault, goal => goal (.error fault) 0
  | .call arg resume, goal =>
      rank arg < limit ∧
        (∀ fault calls,
          spec arg (.error fault) calls →
          goal (.error fault) (calls + 1)) ∧
        ∀ answer calls,
          spec arg (.ok answer) calls →
          Meets rank limit spec (resume answer)
            fun outcome later => goal outcome (calls + 1 + later)

variable {body : Arg → Code Arg Answer Fault}

/-- A script runs in one way only. -/
theorem Evaluates.unique
    {code : Code Arg Answer Fault}
    {first second : Except Fault Answer}
    {calls others : Nat}
    (evaluates : Evaluates body code first calls)
    (again : Evaluates body code second others) :
    second = first ∧ others = calls := by
  induction evaluates generalizing second others with
  | done answer =>
      cases again
      exact ⟨rfl, rfl⟩
  | raise fault =>
      cases again
      exact ⟨rfl, rfl⟩
  | returns called resumed inCall inRest =>
      cases again with
      | returns calledAgain resumedAgain =>
          obtain ⟨sameAnswer, rfl⟩ := inCall calledAgain
          cases sameAnswer
          obtain ⟨rfl, rfl⟩ := inRest resumedAgain
          exact ⟨rfl, rfl⟩
      | throws calledAgain =>
          cases (inCall calledAgain).1
  | throws called inCall =>
      cases again with
      | returns calledAgain resumedAgain =>
          cases (inCall calledAgain).1
      | throws calledAgain =>
          obtain ⟨sameFault, rfl⟩ := inCall calledAgain
          cases sameFault
          exact ⟨rfl, rfl⟩

section Rules

variable {rank : Arg → Nat}
variable {spec : Arg → Except Fault Answer → Nat → Prop}

/-- A computation without calls ends as it does. -/
theorem meets_ofExcept
    {limit : Nat}
    {result : Except Fault Answer}
    {goal : Except Fault Answer → Nat → Prop}
    (reached : goal result 0) :
    Meets rank limit spec (.ofExcept result) goal := by
  cases result with
  | error fault =>
      exact reached
  | ok answer =>
      exact reached

/-- A script evaluates if the procedure does at every rank it calls. -/
theorem Meets.exists_evaluates
    {limit : Nat}
    (below :
      ∀ arg,
        rank arg < limit →
        ∃ outcome calls,
          Evaluates body (body arg) outcome calls ∧
            spec arg outcome calls)
    {code : Code Arg Answer Fault}
    {goal : Except Fault Answer → Nat → Prop}
    (meets : Meets rank limit spec code goal) :
    ∃ outcome calls,
      Evaluates body code outcome calls ∧ goal outcome calls := by
  induction code generalizing goal with
  | done answer =>
      exact ⟨.ok answer, 0, .done answer, meets⟩
  | raise fault =>
      exact ⟨.error fault, 0, .raise fault, meets⟩
  | call arg resume inductionHypothesis =>
      obtain ⟨smaller, failing, returning⟩ := meets
      obtain ⟨outcome, calls, called, met⟩ := below arg smaller
      cases outcome with
      | error fault =>
          exact ⟨.error fault, calls + 1, .throws called,
            failing fault calls met⟩
      | ok answer =>
          obtain ⟨outcome, later, resumed, reached⟩ :=
            inductionHypothesis answer (returning answer calls met)
          exact ⟨outcome, calls + 1 + later, .returns called resumed,
            reached⟩

/-- The rule of recursion: every call evaluates and meets its specification. -/
theorem exists_evaluates
    (meets :
      ∀ arg, Meets rank (rank arg) spec (body arg) (spec arg))
    (arg : Arg) :
    ∃ outcome calls,
      Evaluates body (body arg) outcome calls ∧
        spec arg outcome calls := by
  induction size : rank arg using Nat.strongRecOn
    generalizing arg with
  | ind size inductionHypothesis =>
      subst size
      refine (meets arg).exists_evaluates ?_
      intro smaller below
      exact inductionHypothesis (rank smaller) below smaller rfl

end Rules

end Vortek.RecursiveCalls

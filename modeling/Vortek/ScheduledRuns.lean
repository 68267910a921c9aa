import Vortek.CallScript

namespace Vortek.CallScript

/-!
# Scheduled runs

A script makes its calls one after the other, and the world goes on between
them: time passes and others act on the same object.  A schedule gives the
moment of each call, and the step function is told it.

A script settles when no answer that depends on the moment can change what it
does.  If the object keeps close to another one that knows no moments, so does
the whole run (`Settles.runAt_related`).  A script that looks once makes one
call whose answer matters, and settles behind it.
-/

variable {Op : Type} {Answer : Op → Type}
variable {Fault Result State Other Moment : Type}

namespace Script

/-- Run a script whose calls take place at the moments of a schedule. -/
def runAt (step : Moment → (op : Op) → State → Answer op × State) :
    Script Op Answer Fault Result →
      (Nat → Moment) → State → Except Fault Result × State
  | .done result, _, state => (.ok result, state)
  | .raise fault, _, state => (.error fault, state)
  | .call op resume, schedule, state =>
      runAt step (resume (step (schedule 0) op state).1)
        (fun position => schedule (position + 1))
        (step (schedule 0) op state).2

/--
Whatever the answers are, every operation called is free, or muted and its
answer is not used.
-/
def Settles
    (free muted : Op → Prop) :
    Script Op Answer Fault Result → Prop
  | .done _ => True
  | .raise _ => True
  | .call op resume =>
      (free op ∨
        muted op ∧ ∀ first second, resume first = resume second) ∧
      ∀ answer, (resume answer).Settles free muted

/-- The first call may look at the object; the script settles behind it. -/
def LooksOnce
    (looks free muted : Op → Prop) :
    Script Op Answer Fault Result → Prop
  | .done _ => True
  | .raise _ => True
  | .call op resume =>
      (looks op ∨ free op) ∧
        ∀ answer, (resume answer).Settles free muted

/-- If every moment is alike, there is no need to know it. -/
theorem runAt_of_steady
    {step : Moment → (op : Op) → State → Answer op × State}
    {mirror : (op : Op) → State → Answer op × State}
    {schedule : Nat → Moment}
    (steady : ∀ position, step (schedule position) = mirror)
    (script : Script Op Answer Fault Result)
    (state : State) :
    script.runAt step schedule state = run mirror script state := by
  induction script generalizing schedule state with
  | done result =>
      rfl
  | raise fault =>
      rfl
  | call op resume inductionHypothesis =>
      simp only [runAt, run, steady 0]
      exact inductionHypothesis _ (fun position => steady (position + 1)) _

variable {free muted : Op → Prop}

/-- Free operations alone settle. -/
theorem Always.settles
    {script : Script Op Answer Fault Result}
    {returned : Result → Prop}
    {raised : Fault → Prop}
    (safe : script.Always free returned raised) :
    script.Settles free muted := by
  induction script with
  | done result =>
      trivial
  | raise fault =>
      trivial
  | call op resume inductionHypothesis =>
      exact ⟨Or.inl safe.1,
        fun answer => inductionHypothesis answer (safe.2 answer)⟩

/--
A script that settles ends alike on an object that is told the moments and on
one that is not, if free operations answer alike and both kinds keep the objects
related.
-/
theorem Settles.runAt_related
    {step : Moment → (op : Op) → State → Answer op × State}
    {mirror : (op : Op) → Other → Answer op × Other}
    {timely : Moment → Prop}
    (related : State → Other → Prop)
    (keeps :
      ∀ moment op state other,
        timely moment →
        free op ∨ muted op →
        related state other →
        related (step moment op state).2 (mirror op other).2)
    (answers :
      ∀ moment op state other,
        timely moment →
        free op →
        related state other →
        (step moment op state).1 = (mirror op other).1)
    {script : Script Op Answer Fault Result}
    (settles : script.Settles free muted)
    {schedule : Nat → Moment}
    (inTime : ∀ position, timely (schedule position))
    {state : State}
    {other : Other}
    (initially : related state other) :
    (script.runAt step schedule state).1 = (run mirror script other).1 ∧
      related (script.runAt step schedule state).2
        (run mirror script other).2 := by
  induction script generalizing schedule state other with
  | done result =>
      exact ⟨rfl, initially⟩
  | raise fault =>
      exact ⟨rfl, initially⟩
  | call op resume inductionHypothesis =>
      obtain ⟨kind, later⟩ := settles
      have still :=
        keeps (schedule 0) op state other (inTime 0)
          (kind.imp_right And.left) initially
      have resumed :
          resume (step (schedule 0) op state).1 =
            resume (mirror op other).1 := by
        rcases kind with isFree | ⟨-, same⟩
        · rw [answers (schedule 0) op state other (inTime 0) isFree
            initially]
        · exact same _ _
      simp only [runAt, run, resumed]
      exact inductionHypothesis _ (later _)
        (fun position => inTime (position + 1)) still

end Script

end Vortek.CallScript

import Mathlib.Data.List.Infix

namespace Vortek.IncrementalDecoder

/-!
# Incremental decoders and their drain loops

An incremental decoder looks at the front of the input received so far and
answers one of three things: a complete item with the input left behind it, a
request for more input, or a fault.  A decoder is *incremental* when neither
an item nor a fault changes once more input arrives.

A reader of such a decoder runs a drain loop: it takes items until the decoder
asks for more input, the decoder faults, or the reader itself leaves the loop.
The module proves that how the input was cut into chunks does not show in the
items, and that a frame cut anywhere but at its end is a request for more.

Two consumers on the same input can be compared item by item
(`consumeAll_inStep`), and a consumer can be made to record the states and items
it goes through (`visits`).
-/

variable {Symbol Item Fault State : Type}

/-- What a decoder says about the front of its input. -/
inductive Outcome (Symbol Item Fault : Type) where
  | item (value : Item) (rest : List Symbol)
  | more
  | fault (reason : Fault)

/-- A decoder over a list of symbols. -/
abbrev Decoder (Symbol Item Fault : Type) :=
  List Symbol → Outcome Symbol Item Fault

/-- Items consume input, and later input never revises an answer. -/
structure Incremental (decode : Decoder Symbol Item Fault) : Prop where
  itemShrinks :
    ∀ {input value rest},
      decode input = .item value rest →
      rest.length < input.length
  itemStable :
    ∀ {input value rest},
      decode input = .item value rest →
      ∀ later,
        decode (input ++ later) = .item value (rest ++ later)
  faultStable :
    ∀ {input reason},
      decode input = .fault reason →
      ∀ later,
        decode (input ++ later) = .fault reason

/-- An incremental decoder that decodes every item from its own symbols. -/
structure Framed (decode : Decoder Symbol Item Fault) : Prop
    extends Incremental decode where
  start : decode [] = .more
  frames :
    ∀ {input value rest},
      decode input = .item value rest →
      ∃ frame, input = frame ++ rest ∧ decode frame = .item value []

/-- Items taken from an input, the fault that ended it, and what is left. -/
structure Drained (Symbol Item Fault : Type) where
  items : List Item
  fault : Option Fault
  rest : List Symbol

namespace Drained

/-- Put earlier items in front. -/
def prepend
    (earlier : List Item)
    (drained : Drained Symbol Item Fault) :
    Drained Symbol Item Fault :=
  { drained with items := earlier ++ drained.items }

@[simp] theorem prepend_items
    (earlier : List Item)
    (drained : Drained Symbol Item Fault) :
    (drained.prepend earlier).items = earlier ++ drained.items :=
  rfl

@[simp] theorem prepend_fault
    (earlier : List Item)
    (drained : Drained Symbol Item Fault) :
    (drained.prepend earlier).fault = drained.fault :=
  rfl

@[simp] theorem prepend_rest
    (earlier : List Item)
    (drained : Drained Symbol Item Fault) :
    (drained.prepend earlier).rest = drained.rest :=
  rfl

@[simp] theorem prepend_nil
    (drained : Drained Symbol Item Fault) :
    drained.prepend [] = drained :=
  rfl

theorem prepend_prepend
    (earlier later : List Item)
    (drained : Drained Symbol Item Fault) :
    (drained.prepend later).prepend earlier =
      drained.prepend (earlier ++ later) := by
  simp [prepend]

end Drained

/-- Take at most `fuel` items. -/
def drainWithin (decode : Decoder Symbol Item Fault) :
    Nat → List Symbol → Drained Symbol Item Fault
  | 0, input => ⟨[], none, input⟩
  | fuel + 1, input =>
      match decode input with
      | .more => ⟨[], none, input⟩
      | .fault reason => ⟨[], some reason, input⟩
      | .item value rest =>
          (drainWithin decode fuel rest).prepend [value]

/-- Take items until the decoder asks for more input or faults. -/
def drain
    (decode : Decoder Symbol Item Fault)
    (input : List Symbol) :
    Drained Symbol Item Fault :=
  drainWithin decode (input.length + 1) input

/-- Drain the input after every chunk, stopping at the first fault. -/
def drainChunks
    (decode : Decoder Symbol Item Fault) :
    List Symbol → List (List Symbol) → Drained Symbol Item Fault
  | buffered, [] => ⟨[], none, buffered⟩
  | buffered, chunk :: chunks =>
      let drained := drain decode (buffered ++ chunk)
      match drained.fault with
      | some reason => ⟨drained.items, some reason, drained.rest⟩
      | none =>
          (drainChunks decode drained.rest chunks).prepend drained.items

/-- A consumer either goes on with the loop or leaves it. -/
inductive Control (State : Type) where
  | proceed (state : State)
  | leave (state : State)

/-- The state a consumer hands back. -/
def Control.state {State : Type} : Control State → State
  | .proceed state => state
  | .leave state => state

@[simp] theorem Control.state_proceed
    {State : Type}
    (state : State) :
    (Control.proceed state).state = state :=
  rfl

@[simp] theorem Control.state_leave
    {State : Type}
    (state : State) :
    (Control.leave state).state = state :=
  rfl

/-- Why a consuming loop ended. -/
inductive Ending (Fault : Type) where
  | exhausted
  | faulted (reason : Fault)
  | left

/-- State, unread input and reason at the end of a consuming loop. -/
structure Consumed (State Symbol Fault : Type) where
  state : State
  rest : List Symbol
  ending : Ending Fault

/-- Hand at most `fuel` items to a consumer. -/
def consumeWithin
    (decode : Decoder Symbol Item Fault)
    (consume : State → Item → Control State) :
    Nat → State → List Symbol → Consumed State Symbol Fault
  | 0, state, input => ⟨state, input, .exhausted⟩
  | fuel + 1, state, input =>
      match decode input with
      | .more => ⟨state, input, .exhausted⟩
      | .fault reason => ⟨state, input, .faulted reason⟩
      | .item value rest =>
          match consume state value with
          | .leave next => ⟨next, rest, .left⟩
          | .proceed next =>
              consumeWithin decode consume fuel next rest

/-- Hand items to a consumer until the input, the decoder or it stops. -/
def consumeAll
    (decode : Decoder Symbol Item Fault)
    (consume : State → Item → Control State)
    (state : State)
    (input : List Symbol) :
    Consumed State Symbol Fault :=
  consumeWithin decode consume (input.length + 1) state input

/-- The same consumer on a list of items. -/
def consumeItems (consume : State → Item → Control State) :
    State → List Item → Control State
  | state, [] => .proceed state
  | state, value :: later =>
      match consume state value with
      | .leave next => .leave next
      | .proceed next => consumeItems consume next later

/-- Induction along the items of an input. -/
theorem Incremental.induction
    {decode : Decoder Symbol Item Fault}
    (incremental : Incremental decode)
    {motive : List Symbol → Prop}
    (more : ∀ input, decode input = .more → motive input)
    (fault :
      ∀ input reason, decode input = .fault reason → motive input)
    (item :
      ∀ input value rest,
        decode input = .item value rest →
        motive rest →
        motive input)
    (input : List Symbol) :
    motive input := by
  induction length : input.length using Nat.strong_induction_on
    generalizing input with
  | h size inductionHypothesis =>
      subst length
      cases answer : decode input with
      | more =>
          exact more input answer
      | fault reason =>
          exact fault input reason answer
      | item value rest =>
          refine item input value rest answer ?_
          exact inductionHypothesis rest.length
            (incremental.itemShrinks answer) rest rfl

section Laws

variable {decode : Decoder Symbol Item Fault}
  (incremental : Incremental decode)

include incremental

/-- Fuel beyond the input length is never used. -/
theorem drainWithin_eq_drain
    {fuel : Nat}
    {input : List Symbol}
    (enough : input.length < fuel) :
    drainWithin decode fuel input = drain decode input := by
  unfold drain
  generalize bound : input.length + 1 = other
  have otherEnough : input.length < other := by omega
  clear bound
  induction fuel generalizing input other with
  | zero =>
      omega
  | succ fuel inductionHypothesis =>
      cases other with
      | zero =>
          omega
      | succ other =>
          simp only [drainWithin]
          cases answer : decode input with
          | more =>
              rfl
          | fault reason =>
              rfl
          | item value rest =>
              have shrinks := incremental.itemShrinks answer
              simp only
              rw [inductionHypothesis (by omega) other (by omega)]

/-- An item comes first; the rest is drained after it. -/
theorem drain_item
    {input : List Symbol}
    {value : Item}
    {rest : List Symbol}
    (answer : decode input = .item value rest) :
    drain decode input = (drain decode rest).prepend [value] := by
  have shrinks := incremental.itemShrinks answer
  conv => lhs; unfold drain
  simp only [drainWithin, answer]
  rw [drainWithin_eq_drain incremental shrinks]

omit incremental in
/-- A request for more input ends the drain with everything left. -/
theorem drain_more
    {input : List Symbol}
    (answer : decode input = .more) :
    drain decode input = ⟨[], none, input⟩ := by
  simp [drain, drainWithin, answer]

omit incremental in
/-- A fault ends the drain with everything left. -/
theorem drain_fault
    {input : List Symbol}
    {reason : Fault}
    (answer : decode input = .fault reason) :
    drain decode input = ⟨[], some reason, input⟩ := by
  simp [drain, drainWithin, answer]

/-- What a drain without fault leaves is a request for more input. -/
theorem decode_rest_drain
    {input : List Symbol}
    (sound : (drain decode input).fault = none) :
    decode (drain decode input).rest = .more := by
  induction input using incremental.induction with
  | more input answer =>
      simpa [drain_more answer] using answer
  | fault input reason answer =>
      simp [drain_fault answer] at sound
  | item input value rest answer inductionHypothesis =>
      rw [drain_item incremental answer] at sound ⊢
      exact inductionHypothesis sound

/-- What a drain with a fault leaves is where the decoder faults. -/
theorem decode_rest_drain_of_fault
    {input : List Symbol}
    {reason : Fault}
    (faulted : (drain decode input).fault = some reason) :
    decode (drain decode input).rest = .fault reason := by
  induction input using incremental.induction with
  | more input answer =>
      simp [drain_more answer] at faulted
  | fault input found answer =>
      simp only [drain_fault answer, Option.some.injEq] at faulted ⊢
      rw [answer, faulted]
  | item input value rest answer inductionHypothesis =>
      rw [drain_item incremental answer] at faulted ⊢
      exact inductionHypothesis faulted

/-- A fault met in the first part of the input is met in the whole. -/
theorem drain_append_of_fault
    {input : List Symbol}
    {reason : Fault}
    (faulted : (drain decode input).fault = some reason)
    (later : List Symbol) :
    drain decode (input ++ later) =
      ⟨(drain decode input).items, some reason,
        (drain decode input).rest ++ later⟩ := by
  induction input using incremental.induction with
  | more input answer =>
      simp [drain_more answer] at faulted
  | fault input found answer =>
      simp only [drain_fault answer, Option.some.injEq] at faulted ⊢
      subst faulted
      rw [drain_fault (incremental.faultStable answer later)]
  | item input value rest answer inductionHypothesis =>
      rw [drain_item incremental answer] at faulted ⊢
      rw [drain_item incremental (incremental.itemStable answer later)]
      rw [inductionHypothesis faulted]
      rfl

/-- Without a fault, draining continues from what the first part left. -/
theorem drain_append_of_sound
    {input : List Symbol}
    (sound : (drain decode input).fault = none)
    (later : List Symbol) :
    drain decode (input ++ later) =
      (drain decode ((drain decode input).rest ++ later)).prepend
        (drain decode input).items := by
  induction input using incremental.induction with
  | more input answer =>
      simp [drain_more answer]
  | fault input reason answer =>
      simp [drain_fault answer] at sound
  | item input value rest answer inductionHypothesis =>
      rw [drain_item incremental answer] at sound ⊢
      rw [drain_item incremental (incremental.itemStable answer later)]
      rw [inductionHypothesis sound]
      simp [Drained.prepend]

/--
Draining chunk by chunk agrees with draining the joined input.  After a fault
the chunked drain has not read the later chunks, so only a sound drain fixes
what is left.
-/
theorem drainChunks_eq_drain
    {buffered : List Symbol}
    (waiting : decode buffered = .more)
    (chunks : List (List Symbol)) :
    (drainChunks decode buffered chunks).items =
        (drain decode (buffered ++ chunks.flatten)).items ∧
      (drainChunks decode buffered chunks).fault =
        (drain decode (buffered ++ chunks.flatten)).fault ∧
      ((drainChunks decode buffered chunks).fault = none →
        (drainChunks decode buffered chunks).rest =
          (drain decode (buffered ++ chunks.flatten)).rest) := by
  induction chunks generalizing buffered with
  | nil =>
      simp [drainChunks, drain_more waiting]
  | cons chunk chunks inductionHypothesis =>
      rw [List.flatten_cons, ← List.append_assoc]
      simp only [drainChunks]
      cases faulted : (drain decode (buffered ++ chunk)).fault with
      | some reason =>
          rw [drain_append_of_fault incremental faulted]
          simp
      | none =>
          rw [drain_append_of_sound incremental faulted]
          have later := inductionHypothesis
            (decode_rest_drain incremental faulted)
          refine ⟨?_, ?_, ?_⟩
          · simp [later.1]
          · simp [later.2.1]
          · intro sound
            simpa using later.2.2 sound

/-- A frame cut before its end is a request for more input. -/
theorem decode_eq_more_of_cut
    {front back : List Symbol}
    {value : Item}
    (whole : decode (front ++ back) = .item value [])
    (cut : back ≠ []) :
    decode front = .more := by
  cases answer : decode front with
  | more =>
      rfl
  | fault reason =>
      rw [incremental.faultStable answer back] at whole
      cases whole
  | item found rest =>
      rw [incremental.itemStable answer back] at whole
      injection whole with _ restShape
      exact (cut (List.append_eq_nil_iff.mp restShape).2).elim

/-- Joined frames come out as their items, in front of what follows. -/
theorem drain_frames_append
    {frames : List (List Symbol)}
    {values : List Item}
    (framed :
      List.Forall₂
        (fun frame value => decode frame = .item value [])
        frames values)
    (later : List Symbol) :
    drain decode (frames.flatten ++ later) =
      (drain decode later).prepend values := by
  induction framed with
  | nil =>
      simp
  | @cons frame value frames values head tail inductionHypothesis =>
      have first :=
        incremental.itemStable head (frames.flatten ++ later)
      rw [List.flatten_cons, List.append_assoc,
        drain_item incremental first, List.nil_append,
        inductionHypothesis, Drained.prepend_prepend]
      rfl

/-- Fuel beyond the input length is never used. -/
theorem consumeWithin_eq_consumeAll
    {consume : State → Item → Control State}
    {fuel : Nat}
    {state : State}
    {input : List Symbol}
    (enough : input.length < fuel) :
    consumeWithin decode consume fuel state input =
      consumeAll decode consume state input := by
  unfold consumeAll
  generalize bound : input.length + 1 = other
  have also : input.length < other := by omega
  clear bound
  induction fuel generalizing other state input with
  | zero =>
      omega
  | succ fuel inductionHypothesis =>
      cases other with
      | zero =>
          omega
      | succ other =>
          simp only [consumeWithin]
          cases answer : decode input with
          | more =>
              rfl
          | fault reason =>
              rfl
          | item value rest =>
              have shrinks := incremental.itemShrinks answer
              simp only
              cases consume state value with
              | leave next =>
                  rfl
              | proceed next =>
                  exact inductionHypothesis (by omega) other (by omega)

/-- An item is handed over first; what is behind it is consumed after it. -/
theorem consumeAll_item
    {consume : State → Item → Control State}
    {state : State}
    {input rest : List Symbol}
    {value : Item}
    (answer : decode input = .item value rest) :
    consumeAll decode consume state input =
      match consume state value with
      | .leave next => ⟨next, rest, .left⟩
      | .proceed next => consumeAll decode consume next rest := by
  have shrinks := incremental.itemShrinks answer
  rw [consumeAll, consumeWithin, answer]
  simp only
  cases consume state value with
  | leave next =>
      rfl
  | proceed next =>
      exact consumeWithin_eq_consumeAll incremental shrinks

omit incremental in
/-- A request for more input ends the loop with everything left. -/
theorem consumeAll_more
    {consume : State → Item → Control State}
    {state : State}
    {input : List Symbol}
    (answer : decode input = .more) :
    consumeAll decode consume state input = ⟨state, input, .exhausted⟩ := by
  simp [consumeAll, consumeWithin, answer]

omit incremental in
/-- A fault ends the loop with everything left. -/
theorem consumeAll_fault
    {consume : State → Item → Control State}
    {state : State}
    {input : List Symbol}
    {reason : Fault}
    (answer : decode input = .fault reason) :
    consumeAll decode consume state input =
      ⟨state, input, .faulted reason⟩ := by
  simp [consumeAll, consumeWithin, answer]

/-- The fault that ends the loop is found in front of what is left. -/
theorem decode_rest_of_faulted
    {consume : State → Item → Control State}
    {state : State}
    {input : List Symbol}
    {reason : Fault}
    (faulted :
      (consumeAll decode consume state input).ending = .faulted reason) :
    decode (consumeAll decode consume state input).rest =
      .fault reason := by
  induction input using incremental.induction generalizing state with
  | more input answer =>
      rw [consumeAll_more answer] at faulted
      cases faulted
  | fault input other answer =>
      rw [consumeAll_fault answer] at faulted ⊢
      cases faulted
      exact answer
  | item input value rest answer inductionHypothesis =>
      rw [consumeAll_item incremental answer] at faulted ⊢
      cases step : consume state value with
      | leave next =>
          rw [step] at faulted
          cases faulted
      | proceed next =>
          rw [step] at faulted
          exact inductionHypothesis faulted

/-- A consumer that never leaves sees exactly the drained items. -/
theorem consumeAll_of_proceed
    {consume : State → Item → Control State}
    {state final : State}
    {input : List Symbol}
    (proceeds :
      consumeItems consume state (drain decode input).items =
        .proceed final) :
    consumeAll decode consume state input =
      ⟨final, (drain decode input).rest,
        match (drain decode input).fault with
        | none => .exhausted
        | some reason => .faulted reason⟩ := by
  induction input using incremental.induction generalizing state with
  | more input answer =>
      rw [drain_more answer] at proceeds ⊢
      cases proceeds
      exact consumeAll_more answer
  | fault input reason answer =>
      rw [drain_fault answer] at proceeds ⊢
      cases proceeds
      exact consumeAll_fault answer
  | item input value rest answer inductionHypothesis =>
      rw [consumeAll_item incremental answer]
      simp only [drain_item incremental answer,
        Drained.prepend_items, List.cons_append,
        List.nil_append, consumeItems] at proceeds ⊢
      cases step : consume state value with
      | leave next =>
          simp [step] at proceeds
      | proceed next =>
          simp only [step] at proceeds
          exact inductionHypothesis proceeds

/-- A consumer that leaves does so at the first item it refuses. -/
theorem consumeAll_of_leave
    {consume : State → Item → Control State}
    {state final : State}
    {input : List Symbol}
    (leaves :
      consumeItems consume state (drain decode input).items =
        .leave final) :
    (consumeAll decode consume state input).state = final ∧
      (consumeAll decode consume state input).ending = .left := by
  induction input using incremental.induction generalizing state with
  | more input answer =>
      simp [drain_more answer, consumeItems] at leaves
  | fault input reason answer =>
      simp [drain_fault answer, consumeItems] at leaves
  | item input value rest answer inductionHypothesis =>
      rw [consumeAll_item incremental answer]
      simp only [drain_item incremental answer,
        Drained.prepend_items, List.cons_append,
        List.nil_append, consumeItems] at leaves
      cases step : consume state value with
      | leave next =>
          simp only [step, Control.leave.injEq, and_true] at leaves ⊢
          exact leaves
      | proceed next =>
          simp only [step] at leaves ⊢
          exact inductionHypothesis leaves

/-- A consuming loop leaves no more input than it was given. -/
theorem length_rest_consumeAll
    (consume : State → Item → Control State)
    (state : State)
    (input : List Symbol) :
    (consumeAll decode consume state input).rest.length ≤
      input.length := by
  induction input using incremental.induction generalizing state with
  | more input answer =>
      rw [consumeAll_more answer]
  | fault input reason answer =>
      rw [consumeAll_fault answer]
  | item input value rest answer inductionHypothesis =>
      have shrinks := incremental.itemShrinks answer
      rw [consumeAll_item incremental answer]
      cases consume state value with
      | leave next =>
          exact Nat.le_of_lt shrinks
      | proceed next =>
          exact Nat.le_trans (inductionHypothesis next)
            (Nat.le_of_lt shrinks)

end Laws

/--
The input of a framed decoder is the frames of the drained items and what the
drain leaves.
-/
theorem exists_frames_of_drain
    {decode : Decoder Symbol Item Fault}
    (framed : Framed decode)
    (input : List Symbol) :
    ∃ cut,
      input = cut.flatten ++ (drain decode input).rest ∧
        List.Forall₂
          (fun frame value => decode frame = .item value [])
          cut (drain decode input).items := by
  have incremental := framed.toIncremental
  induction input using incremental.induction with
  | more input answer =>
      rw [drain_more answer]
      exact ⟨[], rfl, .nil⟩
  | fault input reason answer =>
      rw [drain_fault answer]
      exact ⟨[], rfl, .nil⟩
  | item input value rest answer inductionHypothesis =>
      obtain ⟨frame, split, whole⟩ := framed.frames answer
      obtain ⟨later, joined, decoded⟩ := inductionHypothesis
      rw [drain_item incremental answer]
      refine ⟨frame :: later, ?_, .cons whole decoded⟩
      rw [List.flatten_cons, List.append_assoc, Drained.prepend_rest,
        ← joined]
      exact split

/-- Frames alone are drained to their end. -/
theorem drain_flatten
    {decode : Decoder Symbol Item Fault}
    (framed : Framed decode)
    {frames : List (List Symbol)}
    {values : List Item}
    (decoded :
      List.Forall₂
        (fun frame value => decode frame = .item value [])
        frames values) :
    drain decode frames.flatten = ⟨values, none, []⟩ := by
  have drained :=
    drain_frames_append framed.toIncremental decoded []
  rw [List.append_nil, drain_more framed.start] at drained
  rw [drained]
  simp [Drained.prepend]

/-- A property that every decoded item keeps holds when the loop ends. -/
theorem consumeWithin_invariant
    {decode : Decoder Symbol Item Fault}
    {consume : State → Item → Control State}
    (holds : State → Prop)
    (keeps :
      ∀ state input value rest,
        decode input = .item value rest →
        holds state →
        holds (consume state value).state)
    {state : State}
    (initially : holds state)
    (fuel : Nat)
    (input : List Symbol) :
    holds (consumeWithin decode consume fuel state input).state := by
  induction fuel generalizing input state with
  | zero =>
      exact initially
  | succ fuel inductionHypothesis =>
      rw [consumeWithin]
      cases answer : decode input with
      | more =>
          exact initially
      | fault reason =>
          exact initially
      | item value rest =>
          have kept := keeps state input value rest answer initially
          simp only
          cases step : consume state value with
          | leave next =>
              rw [step] at kept
              exact kept
          | proceed next =>
              rw [step] at kept
              exact inductionHypothesis kept rest

theorem consumeAll_invariant
    {decode : Decoder Symbol Item Fault}
    {consume : State → Item → Control State}
    (holds : State → Prop)
    (keeps :
      ∀ state input value rest,
        decode input = .item value rest →
        holds state →
        holds (consume state value).state)
    {state : State}
    (initially : holds state)
    (input : List Symbol) :
    holds (consumeAll decode consume state input).state :=
  consumeWithin_invariant holds keeps initially (input.length + 1) input

section TwoConsumers

variable {Other : Type}

/-- Two consumers do the same with an item, and end in related states. -/
inductive Control.Agree (related : State → Other → Prop) :
    Control State → Control Other → Prop where
  | proceed
      {state : State}
      {other : Other}
      (holds : related state other) :
      Agree related (.proceed state) (.proceed other)
  | leave
      {state : State}
      {other : Other}
      (holds : related state other) :
      Agree related (.leave state) (.leave other)

/--
Two consumers that agree on every item go through a loop in step, until the
first one escapes for good.
-/
theorem consumeAll_inStep
    (decode : Decoder Symbol Item Fault)
    (consume : State → Item → Control State)
    (mirror : Other → Item → Control Other)
    (related : State → Other → Prop)
    (escaped : State → Prop)
    (stays :
      ∀ state value, escaped state → escaped (consume state value).state)
    (keeps :
      ∀ state other value,
        related state other →
        escaped (consume state value).state ∨
          (consume state value).Agree related (mirror other value))
    {state : State}
    {other : Other}
    (initially : related state other)
    (input : List Symbol) :
    let loop := consumeAll decode consume state input
    let copy := consumeAll decode mirror other input
    escaped loop.state ∨
      related loop.state copy.state ∧
        loop.rest = copy.rest ∧ loop.ending = copy.ending := by
  unfold consumeAll
  generalize input.length + 1 = fuel
  induction fuel generalizing input state other with
  | zero =>
      exact Or.inr ⟨initially, rfl, rfl⟩
  | succ fuel inductionHypothesis =>
      simp only [consumeWithin]
      cases answer : decode input with
      | more =>
          exact Or.inr ⟨initially, rfl, rfl⟩
      | fault reason =>
          exact Or.inr ⟨initially, rfl, rfl⟩
      | item value rest =>
          simp only
          rcases keeps state other value initially with escape | agree
          · left
            cases step : consume state value with
            | leave next =>
                rw [step] at escape
                exact escape
            | proceed next =>
                rw [step] at escape
                exact consumeWithin_invariant escaped
                  (fun state _ value _ _ => stays state value) escape fuel rest
          · cases step : consume state value with
            | leave next =>
                rw [step] at agree
                generalize mirror other value = mirrored at agree ⊢
                cases agree with
                | leave holds =>
                    exact Or.inr ⟨holds, rfl, rfl⟩
            | proceed next =>
                rw [step] at agree
                generalize mirror other value = mirrored at agree ⊢
                cases agree with
                | proceed holds =>
                    exact inductionHypothesis holds rest

end TwoConsumers

section Visits

/-- A consumer that also records every state and item it is given. -/
def recording (consume : State → Item → Control State) :
    State × List (State × Item) → Item →
      Control (State × List (State × Item))
  | (state, seen), item =>
      match consume state item with
      | .proceed next => .proceed (next, seen ++ [(state, item)])
      | .leave next => .leave (next, seen ++ [(state, item)])

/-- The states and items that a consuming loop goes through. -/
def visits
    (decode : Decoder Symbol Item Fault)
    (consume : State → Item → Control State)
    (state : State)
    (input : List Symbol) :
    List (State × Item) :=
  (consumeAll decode (recording consume) (state, []) input).state.2

variable {decode : Decoder Symbol Item Fault}
variable {consume : State → Item → Control State}

/-- What is recorded grows by one visit. -/
theorem recording_state
    (consume : State → Item → Control State)
    (state : State)
    (seen : List (State × Item))
    (item : Item) :
    (recording consume (state, seen) item).state =
      ((consume state item).state, seen ++ [(state, item)]) := by
  simp only [recording]
  cases consume state item <;> rfl

/-- Recording does not change the loop. -/
theorem consumeAll_recording_fst
    (state : State)
    (input : List Symbol) :
    (consumeAll decode (recording consume) (state, []) input).state.1 =
      (consumeAll decode consume state input).state := by
  have agree
      (recorded : State × List (State × Item))
      (plain : State)
      (value : Item)
      (same : recorded.1 = plain) :
      False ∨
        (recording consume recorded value).Agree
          (fun recorded plain => recorded.1 = plain)
          (consume plain value) := by
    subst same
    right
    simp only [recording]
    cases consume recorded.1 value with
    | proceed next =>
        exact .proceed rfl
    | leave next =>
        exact .leave rfl
  have inStep :=
    consumeAll_inStep decode (recording consume) consume
      (fun recorded plain => recorded.1 = plain) (fun _ => False)
      (fun _ _ escaped => escaped) agree
      (rfl : ((state, []) : State × List (State × Item)).1 = state) input
  exact (inStep.resolve_left not_false).1

/-- A property of the state and the visits that every item keeps. -/
theorem visits_invariant
    (decode : Decoder Symbol Item Fault)
    (consume : State → Item → Control State)
    (holds : State → List (State × Item) → Prop)
    (keeps :
      ∀ state seen input value rest,
        decode input = .item value rest →
        holds state seen →
        holds (consume state value).state (seen ++ [(state, value)]))
    {state : State}
    (initially : holds state [])
    (input : List Symbol) :
    holds (consumeAll decode consume state input).state
      (visits decode consume state input) := by
  rw [← consumeAll_recording_fst]
  refine consumeAll_invariant
    (fun recorded : State × List (State × Item) =>
      holds recorded.1 recorded.2) ?_ initially input
  rintro ⟨state, seen⟩ input value rest answer before
  rw [recording_state]
  exact keeps state seen input value rest answer before

/--
What two consumers in step show at their visits is the same, until the first one
escapes for good.
-/
theorem visits_inStep
    {Other View : Type}
    (decode : Decoder Symbol Item Fault)
    (consume : State → Item → Control State)
    (mirror : Other → Item → Control Other)
    (related : State → Other → Prop)
    (escaped : State → Prop)
    (stays :
      ∀ state value, escaped state → escaped (consume state value).state)
    (keeps :
      ∀ state other value,
        related state other →
        escaped (consume state value).state ∨
          (consume state value).Agree related (mirror other value))
    (view : State → Item → View)
    (mirrored : Other → Item → View)
    (shows :
      ∀ state other value,
        related state other → view state value = mirrored other value)
    {state : State}
    {other : Other}
    (initially : related state other)
    (input : List Symbol) :
    escaped (consumeAll decode consume state input).state ∨
      (visits decode consume state input).map
          (fun visit => view visit.1 visit.2) =
        (visits decode mirror other input).map
          (fun visit => mirrored visit.1 visit.2) := by
  have begun :
      related ((state, []) : State × List (State × Item)).1
          ((other, []) : Other × List (Other × Item)).1 ∧
        ([] : List (State × Item)).map
            (fun visit => view visit.1 visit.2) =
          ([] : List (Other × Item)).map
            (fun visit => mirrored visit.1 visit.2) :=
    ⟨initially, rfl⟩
  have inStep :=
    consumeAll_inStep decode (recording consume) (recording mirror)
      (fun recorded copied =>
        related recorded.1 copied.1 ∧
          recorded.2.map (fun visit => view visit.1 visit.2) =
            copied.2.map (fun visit => mirrored visit.1 visit.2))
      (fun recorded => escaped recorded.1)
      (by
        rintro ⟨reached, seen⟩ value escape
        rw [recording_state]
        exact stays reached value escape)
      (by
        rintro ⟨reached, seen⟩ ⟨copy, others⟩ value ⟨holds, same⟩
        rw [recording_state]
        refine (keeps reached copy value holds).imp_right fun agree => ?_
        have grown :
            (seen ++ [(reached, value)]).map
                (fun visit => view visit.1 visit.2) =
              (others ++ [(copy, value)]).map
                (fun visit => mirrored visit.1 visit.2) := by
          rw [List.map_append, List.map_append, same]
          exact congrArg (fun last => _ ++ [last])
            (shows reached copy value holds)
        simp only [recording]
        generalize consume reached value = first at agree ⊢
        generalize mirror copy value = second at agree ⊢
        cases agree with
        | proceed next =>
            exact .proceed ⟨next, grown⟩
        | leave next =>
            exact .leave ⟨next, grown⟩)
      begun input
  rw [← consumeAll_recording_fst]
  exact inStep.imp_right fun holds => holds.1.2

end Visits

end Vortek.IncrementalDecoder

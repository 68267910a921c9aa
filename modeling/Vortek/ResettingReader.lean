import Vortek.IncrementalDecoder

namespace Vortek.ResettingReader

open IncrementalDecoder

/-!
# Readers that drop their buffer

A reader hands the items of each chunk to a consumer and keeps what is
incomplete.  When the decoder faults or the consumer leaves the loop, it drops
everything it has received and starts afresh with the next chunk.  Where it
starts afresh is decided by the end of the chunk.

Up to the first such break the chunks do not show: the reader does what the
symbols do one by one (`read_eq_advance`).  Behind a break every position within
the reach of a chunk is a possible start.  If all of them are to lead to one
log, nothing may be logged behind the break at all, provided that two adjacent
positions cannot both start an item that the consumer serves (`blind_iff`).
-/

variable {Symbol Item Fault State Log : Type}

/-- What a reader keeps between two chunks. -/
structure Reader (State Symbol : Type) where
  state : State
  buffer : List Symbol

section Reading

variable (decode : Decoder Symbol Item Fault)
variable (consume : State → Item → Control State)

/-- Consume one chunk; a fault and a consumer that leaves drop the buffer. -/
def read
    (reader : Reader State Symbol)
    (chunk : List Symbol) :
    Reader State Symbol :=
  let loop := consumeAll decode consume reader.state (reader.buffer ++ chunk)
  match loop.ending with
  | .exhausted => ⟨loop.state, loop.rest⟩
  | .left => ⟨loop.state, []⟩
  | .faulted _ => ⟨loop.state, []⟩

/-- Consume chunks one after the other. -/
def readAll :
    Reader State Symbol → List (List Symbol) → Reader State Symbol
  | reader, [] => reader
  | reader, chunk :: later => readAll (read decode consume reader chunk) later

/-- How far symbols lead one by one: through, or to a break. -/
inductive Advance (State Symbol : Type) where
  | through (reader : Reader State Symbol)
  | broken (state : State) (rest : List Symbol)

/-- Take the symbols one by one, up to the first break. -/
def advance :
    State → List Symbol → List Symbol → Advance State Symbol
  | state, buffer, [] => .through ⟨state, buffer⟩
  | state, buffer, symbol :: later =>
      match decode (buffer ++ [symbol]) with
      | .more => advance state (buffer ++ [symbol]) later
      | .fault _ => .broken state later
      | .item value _ =>
          match consume state value with
          | .proceed next => advance next [] later
          | .leave next => .broken next later

end Reading

/-- Chunks of a stream, each of at least one symbol and at most `reach`. -/
structure Cuts
    (reach : Nat)
    (stream : List Symbol)
    (chunks : List (List Symbol)) :
    Prop where
  joined : chunks.flatten = stream
  sized : ∀ chunk ∈ chunks, 0 < chunk.length ∧ chunk.length ≤ reach

namespace Cuts

variable {reach : Nat}

theorem nil : Cuts reach ([] : List Symbol) [] :=
  ⟨rfl, fun _ member => absurd member List.not_mem_nil⟩

theorem cons
    (chunk : List Symbol)
    {stream : List Symbol}
    {later : List (List Symbol)}
    (positive : 0 < chunk.length)
    (bounded : chunk.length ≤ reach)
    (cuts : Cuts reach stream later) :
    Cuts reach (chunk ++ stream) (chunk :: later) where
  joined := by rw [List.flatten_cons, cuts.joined]
  sized := by
    intro piece member
    rcases List.mem_cons.mp member with rfl | member
    · exact ⟨positive, bounded⟩
    · exact cuts.sized piece member

theorem of_cons
    {chunk stream : List Symbol}
    {later : List (List Symbol)}
    (cuts : Cuts reach stream (chunk :: later)) :
    stream = chunk ++ later.flatten ∧
      0 < chunk.length ∧ chunk.length ≤ reach ∧
      Cuts reach later.flatten later := by
  have sized := cuts.sized chunk List.mem_cons_self
  refine ⟨cuts.joined.symm, sized.1, sized.2, rfl, ?_⟩
  intro piece member
  exact cuts.sized piece (List.mem_cons_of_mem chunk member)

/-- Every stream can be cut into single symbols. -/
theorem singletons
    (positive : 0 < reach)
    (stream : List Symbol) :
    Cuts reach stream (stream.map fun symbol => [symbol]) := by
  induction stream with
  | nil =>
      exact nil
  | cons symbol later inductionHypothesis =>
      exact cons [symbol] Nat.one_pos positive inductionHypothesis

end Cuts

section Breaks

variable (decode : Decoder Symbol Item Fault)
variable (consume : State → Item → Control State)
variable (log : State → Log)
variable (reach : Nat)

/--
Nothing is logged from here: not before the first break, and not from any
position behind it that a chunk can reach.
-/
inductive Silent : State → List Symbol → Prop where
  | through
      {state : State}
      {stream : List Symbol}
      {reader : Reader State Symbol}
      (reached :
        advance decode consume state [] stream = .through reader)
      (same : log reader.state = log state) :
      Silent state stream
  | broken
      {state next : State}
      {stream rest : List Symbol}
      (reached :
        advance decode consume state [] stream = .broken next rest)
      (same : log next = log state)
      (behind :
        ∀ skipped, skipped < reach → Silent next (rest.drop skipped)) :
      Silent state stream

/-- If the stream breaks, nothing is logged behind the break. -/
def SilentBehindBreak
    (reader : Reader State Symbol)
    (stream : List Symbol) :
    Prop :=
  ∀ next rest,
    advance decode consume reader.state reader.buffer stream =
      .broken next rest →
    ∀ skipped,
      skipped < reach →
      Silent decode consume log reach next (rest.drop skipped)

/-- All cuts of all positions within reach come to this log. -/
def Agreed
    (state : State)
    (stream : List Symbol)
    (common : Log) :
    Prop :=
  ∀ skipped,
    skipped < reach →
    ∀ chunks,
      Cuts reach (stream.drop skipped) chunks →
      log (readAll decode consume ⟨state, []⟩ chunks).state = common

/--
How a reader may get through a stream: symbols may be lost behind an item and
from a fault on.  Every way of cutting the stream is of this kind.
-/
inductive Leads : State → List Symbol → State → Prop where
  | waits
      {state : State}
      {stream : List Symbol}
      (answer : decode stream = .more) :
      Leads state stream state
  | serves
      {state final : State}
      {stream rest : List Symbol}
      {value : Item}
      (answer : decode stream = .item value rest)
      (skipped : Nat)
      (later :
        Leads (consume state value).state (rest.drop skipped) final) :
      Leads state stream final
  | faults
      {state final : State}
      {stream : List Symbol}
      {reason : Fault}
      (answer : decode stream = .fault reason)
      (dropped : Nat)
      (later : Leads state (stream.drop dropped) final) :
      Leads state stream final

/-- Any two ways of cutting the stream come to the same log. -/
def Blind
    (reader : Reader State Symbol)
    (stream : List Symbol) :
    Prop :=
  ∀ first second,
    Cuts reach stream first →
    Cuts reach stream second →
    log (readAll decode consume reader first).state =
      log (readAll decode consume reader second).state

end Breaks

section Advancing

variable {decode : Decoder Symbol Item Fault}
variable {consume : State → Item → Control State}

/-- An item that is complete with a symbol ends with that symbol. -/
theorem rest_eq_nil
    (framed : Framed decode)
    {buffer rest : List Symbol}
    {symbol : Symbol}
    {value : Item}
    (waiting : decode buffer = .more)
    (answer : decode (buffer ++ [symbol]) = .item value rest) :
    rest = [] := by
  obtain ⟨frame, split, whole⟩ := framed.frames answer
  rcases List.eq_nil_or_concat rest with rfl | ⟨earlier, last, rfl⟩
  · rfl
  · -- Otherwise the frame would lie in the buffer.
    rw [List.concat_eq_append, ← List.append_assoc] at split
    have inside := (List.append_inj' split rfl).1
    have early := framed.itemStable whole earlier
    rw [← inside, waiting] at early
    cases early

/-- A chunk does what its symbols do one by one. -/
theorem read_eq_advance
    (framed : Framed decode)
    (consume : State → Item → Control State)
    (reader : Reader State Symbol)
    (waiting : decode reader.buffer = .more)
    (chunk : List Symbol) :
    read decode consume reader chunk =
      match advance decode consume reader.state reader.buffer chunk with
      | .through next => next
      | .broken next _ => ⟨next, []⟩ := by
  obtain ⟨state, buffer⟩ := reader
  induction chunk generalizing state buffer with
  | nil =>
      simp only [read, advance, List.append_nil]
      rw [consumeAll_more waiting]
  | cons symbol later inductionHypothesis =>
      have split := List.append_cons buffer symbol later
      simp only [advance]
      cases answer : decode (buffer ++ [symbol]) with
      | more =>
          simp only
          rw [← inductionHypothesis state (buffer ++ [symbol]) answer]
          simp only [read, split]
      | fault reason =>
          have faulted := framed.faultStable answer later
          simp only [read, split]
          rw [consumeAll_fault faulted]
      | item value rest =>
          obtain rfl := rest_eq_nil framed waiting answer
          have decoded := framed.itemStable answer later
          simp only [read, split]
          rw [consumeAll_item framed.toIncremental decoded]
          cases consume state value with
          | leave next =>
              rfl
          | proceed next =>
              simp only
              rw [← inductionHypothesis next [] framed.start]
              rfl

/-- The buffer grows by no more than the chunk. -/
theorem length_buffer_read
    (framed : Framed decode)
    (consume : State → Item → Control State)
    (reader : Reader State Symbol)
    (chunk : List Symbol) :
    (read decode consume reader chunk).buffer.length ≤
      reader.buffer.length + chunk.length := by
  have shorter :=
    length_rest_consumeAll framed.toIncremental consume reader.state
      (reader.buffer ++ chunk)
  rw [List.length_append] at shorter
  unfold read
  dsimp only
  split
  · exact shorter
  · exact Nat.zero_le _
  · exact Nat.zero_le _

/-- Symbols behind others are taken from where those lead. -/
theorem advance_append
    (decode : Decoder Symbol Item Fault)
    (consume : State → Item → Control State)
    (state : State)
    (buffer front back : List Symbol) :
    advance decode consume state buffer (front ++ back) =
      match advance decode consume state buffer front with
      | .through reader =>
          advance decode consume reader.state reader.buffer back
      | .broken next rest => .broken next (rest ++ back) := by
  induction front generalizing state buffer with
  | nil =>
      rfl
  | cons symbol later inductionHypothesis =>
      simp only [List.cons_append, advance]
      cases decode (buffer ++ [symbol]) with
      | more =>
          exact inductionHypothesis state (buffer ++ [symbol])
      | fault reason =>
          rfl
      | item value rest =>
          simp only
          cases consume state value with
          | leave next =>
              rfl
          | proceed next =>
              exact inductionHypothesis next []

/-- Where no break occurs, the buffer is incomplete again. -/
theorem waiting_of_through
    (framed : Framed decode)
    {state : State}
    {buffer stream : List Symbol}
    {reader : Reader State Symbol}
    (waiting : decode buffer = .more)
    (reached :
      advance decode consume state buffer stream = .through reader) :
    decode reader.buffer = .more := by
  induction stream generalizing state buffer with
  | nil =>
      simp only [advance, Advance.through.injEq] at reached
      rw [← reached]
      exact waiting
  | cons symbol later inductionHypothesis =>
      simp only [advance] at reached
      cases answer : decode (buffer ++ [symbol]) with
      | more =>
          rw [answer] at reached
          exact inductionHypothesis answer reached
      | fault reason =>
          rw [answer] at reached
          cases reached
      | item value rest =>
          rw [answer] at reached
          simp only at reached
          cases served : consume state value with
          | leave next =>
              rw [served] at reached
              cases reached
          | proceed next =>
              rw [served] at reached
              exact inductionHypothesis framed.start reached

/-- A break takes at least the symbol at which it is found. -/
theorem length_rest_of_broken
    {state next : State}
    {buffer stream rest : List Symbol}
    (reached :
      advance decode consume state buffer stream = .broken next rest) :
    rest.length < stream.length := by
  induction stream generalizing state buffer with
  | nil =>
      cases reached
  | cons symbol later inductionHypothesis =>
      simp only [advance] at reached
      rw [List.length_cons, Nat.lt_succ_iff]
      cases answer : decode (buffer ++ [symbol]) with
      | more =>
          rw [answer] at reached
          exact Nat.le_of_lt (inductionHypothesis reached)
      | fault reason =>
          rw [answer] at reached
          cases reached
          exact Nat.le_refl _
      | item value left =>
          rw [answer] at reached
          simp only at reached
          cases served : consume state value with
          | leave after =>
              rw [served] at reached
              cases reached
              exact Nat.le_refl _
          | proceed after =>
              rw [served] at reached
              exact Nat.le_of_lt (inductionHypothesis reached)

section Whole

variable (framed : Framed decode)
include framed

/-- Over an incomplete input the buffer grows. -/
theorem advance_of_more
    (state : State)
    {buffer stream : List Symbol}
    (answer : decode (buffer ++ stream) = .more) :
    advance decode consume state buffer stream =
      .through ⟨state, buffer ++ stream⟩ := by
  induction stream generalizing buffer with
  | nil =>
      rw [advance, List.append_nil]
  | cons symbol later inductionHypothesis =>
      rw [List.append_cons] at answer ⊢
      rw [advance]
      cases front : decode (buffer ++ [symbol]) with
      | more =>
          exact inductionHypothesis answer
      | fault reason =>
          rw [framed.faultStable front later] at answer
          cases answer
      | item value rest =>
          rw [framed.itemStable front later] at answer
          cases answer

/-- A fault is a break that leaves the consumer alone. -/
theorem advance_of_fault
    (state : State)
    {buffer stream : List Symbol}
    {reason : Fault}
    (waiting : decode buffer = .more)
    (answer : decode (buffer ++ stream) = .fault reason) :
    ∃ dropped,
      advance decode consume state buffer stream =
        .broken state (stream.drop dropped) := by
  induction stream generalizing buffer with
  | nil =>
      rw [List.append_nil, waiting] at answer
      cases answer
  | cons symbol later inductionHypothesis =>
      rw [List.append_cons] at answer
      rw [advance]
      cases front : decode (buffer ++ [symbol]) with
      | more =>
          obtain ⟨dropped, reached⟩ := inductionHypothesis front answer
          exact ⟨dropped + 1, reached⟩
      | fault found =>
          exact ⟨1, rfl⟩
      | item value rest =>
          rw [framed.itemStable front later] at answer
          cases answer

/-- A complete item is served, and the symbols behind it come next. -/
theorem advance_of_item
    (state : State)
    {buffer stream rest : List Symbol}
    {value : Item}
    (waiting : decode buffer = .more)
    (answer : decode (buffer ++ stream) = .item value rest) :
    advance decode consume state buffer stream =
      match consume state value with
      | .proceed next => advance decode consume next [] rest
      | .leave next => .broken next rest := by
  induction stream generalizing buffer with
  | nil =>
      rw [List.append_nil, waiting] at answer
      cases answer
  | cons symbol later inductionHypothesis =>
      rw [List.append_cons] at answer
      rw [advance]
      cases front : decode (buffer ++ [symbol]) with
      | more =>
          exact inductionHypothesis front answer
      | fault reason =>
          rw [framed.faultStable front later] at answer
          cases answer
      | item found left =>
          obtain rfl := rest_eq_nil framed waiting front
          rw [framed.itemStable front later] at answer
          cases answer
          rfl

end Whole

end Advancing

section Segmentation

variable {decode : Decoder Symbol Item Fault}
variable {consume : State → Item → Control State}
variable {reach : Nat}

/--
Chunks lead through a stream without a break as its symbols do.  At a break, the
chunk that holds it drops what it holds behind it.
-/
theorem readAll_of_cuts
    (framed : Framed decode)
    (consume : State → Item → Control State)
    (reader : Reader State Symbol)
    (waiting : decode reader.buffer = .more)
    {stream : List Symbol}
    {chunks : List (List Symbol)}
    (cuts : Cuts reach stream chunks) :
    match advance decode consume reader.state reader.buffer stream with
    | .through final => readAll decode consume reader chunks = final
    | .broken next rest =>
        ∃ skipped later,
          skipped < reach ∧
            Cuts reach (rest.drop skipped) later ∧
            readAll decode consume reader chunks =
              readAll decode consume ⟨next, []⟩ later := by
  induction chunks generalizing reader stream with
  | nil =>
      obtain rfl := cuts.joined
      rfl
  | cons chunk later inductionHypothesis =>
      obtain ⟨rfl, positive, bounded, tail⟩ := cuts.of_cons
      rw [advance_append, readAll]
      have first := read_eq_advance framed consume reader waiting chunk
      cases reached :
        advance decode consume reader.state reader.buffer chunk with
      | through middle =>
          rw [reached] at first
          rw [first]
          exact inductionHypothesis middle
            (waiting_of_through framed waiting reached) tail
      | broken next rest =>
          rw [reached] at first
          rw [first]
          refine ⟨rest.length, later, ?_, ?_, rfl⟩
          · exact Nat.lt_of_lt_of_le (length_rest_of_broken reached) bounded
          · rwa [List.drop_left]

/-- The symbols one by one lead through the stream, or to a break in it. -/
theorem leads_of_advance
    (framed : Framed decode)
    (consume : State → Item → Control State)
    (state : State)
    (stream : List Symbol) :
    match advance decode consume state [] stream with
    | .through reader => Leads decode consume state stream reader.state
    | .broken next rest =>
        ∀ skipped final,
          Leads decode consume next (rest.drop skipped) final →
          Leads decode consume state stream final := by
  induction stream using framed.toIncremental.induction
    generalizing state with
  | more stream answer =>
      have reached :
          advance decode consume state [] stream =
            .through ⟨state, stream⟩ :=
        advance_of_more framed state answer
      rw [reached]
      exact .waits answer
  | fault stream reason answer =>
      obtain ⟨dropped, reached⟩ :
          ∃ dropped,
            advance decode consume state [] stream =
              .broken state (stream.drop dropped) :=
        advance_of_fault framed state framed.start answer
      rw [reached]
      intro skipped final later
      rw [List.drop_drop] at later
      exact .faults answer _ later
  | item stream value rest answer inductionHypothesis =>
      rw [advance_of_item framed state framed.start answer]
      cases served : consume state value with
      | leave next =>
          intro skipped final later
          refine .serves answer skipped ?_
          rw [served]
          exact later
      | proceed next =>
          have behind := inductionHypothesis next
          simp only
          cases reached : advance decode consume next [] rest with
          | through reader =>
              rw [reached] at behind
              refine .serves answer 0 ?_
              rw [served]
              exact behind
          | broken after left =>
              rw [reached] at behind
              intro skipped final later
              refine .serves answer 0 ?_
              rw [served]
              exact behind skipped final later

/-- Every way of cutting a stream ends in a state to which it can lead. -/
theorem leads_of_cuts
    (framed : Framed decode)
    (consume : State → Item → Control State)
    (state : State)
    {stream : List Symbol}
    {chunks : List (List Symbol)}
    (cuts : Cuts reach stream chunks) :
    Leads decode consume state stream
      (readAll decode consume ⟨state, []⟩ chunks).state := by
  induction length : stream.length using Nat.strong_induction_on
    generalizing state stream chunks with
  | h size inductionHypothesis =>
      subst length
      have led :=
        readAll_of_cuts framed consume ⟨state, []⟩ framed.start cuts
      have leads := leads_of_advance framed consume state stream
      cases reached : advance decode consume state [] stream with
      | through reader =>
          rw [reached] at led leads
          rw [led]
          exact leads
      | broken next rest =>
          rw [reached] at led leads
          obtain ⟨skipped, later, -, tail, same⟩ := led
          have shorter := length_rest_of_broken reached
          rw [same]
          apply leads skipped
          apply inductionHypothesis (rest.drop skipped).length _ next tail
            rfl
          rw [List.length_drop]
          omega

/-- Every position within reach behind a break is where a reader can start. -/
theorem exists_cuts_of_broken
    (framed : Framed decode)
    (reader : Reader State Symbol)
    (waiting : decode reader.buffer = .more)
    {stream rest : List Symbol}
    {next : State}
    (reached :
      advance decode consume reader.state reader.buffer stream =
        .broken next rest)
    {skipped : Nat}
    (near : skipped < reach) :
    ∃ earlier,
      ∀ later,
        Cuts reach (rest.drop skipped) later →
        Cuts reach stream (earlier ++ later) ∧
          readAll decode consume reader (earlier ++ later) =
            readAll decode consume ⟨next, []⟩ later := by
  induction stream generalizing reader with
  | nil =>
      cases reached
  | cons symbol later inductionHypothesis =>
      have first := read_eq_advance framed consume reader waiting
      have split :=
        advance_append decode consume reader.state reader.buffer [symbol]
      rw [← List.singleton_append, split] at reached
      cases single :
        advance decode consume reader.state reader.buffer [symbol] with
      | through middle =>
          rw [single] at reached
          obtain ⟨earlier, starts⟩ :=
            inductionHypothesis middle
              (waiting_of_through framed waiting single) reached
          refine ⟨[symbol] :: earlier, ?_⟩
          intro chunks cuts
          obtain ⟨whole, same⟩ := starts chunks cuts
          refine ⟨Cuts.cons [symbol] Nat.one_pos
            (Nat.succ_le_of_lt (Nat.zero_lt_of_lt near)) whole, ?_⟩
          rw [List.cons_append, readAll, first, single]
          exact same
      | broken found dropped =>
          -- The break is at this symbol: take `skipped` more in its chunk.
          have none : dropped = [] :=
            List.length_eq_zero_iff.mp
              (Nat.lt_one_iff.mp (length_rest_of_broken single))
          subst none
          rw [single] at reached
          simp only [List.nil_append, Advance.broken.injEq] at reached
          obtain ⟨rfl, rfl⟩ := reached
          refine ⟨[symbol :: later.take skipped], ?_⟩
          intro chunks cuts
          constructor
          · have whole :=
              Cuts.cons (symbol :: later.take skipped)
                (Nat.succ_pos _)
                (by
                  rw [List.length_cons, List.length_take]
                  omega)
                cuts
            rwa [List.cons_append, List.take_append_drop] at whole
          · rw [List.singleton_append, readAll, first,
              ← List.singleton_append, split, single]

variable {log : State → Log}

/-- What agrees on a log in front of a break agrees on it behind the break. -/
theorem Agreed.of_broken
    (framed : Framed decode)
    {state next : State}
    {stream rest : List Symbol}
    {common : Log}
    (agreed : Agreed decode consume log reach state stream common)
    {skipped : Nat}
    (near : skipped < reach)
    (reached :
      advance decode consume state [] (stream.drop skipped) =
        .broken next rest) :
    Agreed decode consume log reach next rest common := by
  intro behind within chunks cuts
  obtain ⟨earlier, starts⟩ :=
    exists_cuts_of_broken framed ⟨state, []⟩ framed.start reached within
  obtain ⟨whole, same⟩ := starts chunks cuts
  rw [← same]
  exact agreed skipped near _ whole

/-- What agrees on a log logs nothing where no break occurs. -/
theorem Agreed.of_through
    (framed : Framed decode)
    {state : State}
    {reader : Reader State Symbol}
    {stream : List Symbol}
    {common : Log}
    (agreed : Agreed decode consume log reach state stream common)
    {skipped : Nat}
    (near : skipped < reach)
    (reached :
      advance decode consume state [] (stream.drop skipped) =
        .through reader) :
    log reader.state = common := by
  have cuts :=
    Cuts.singletons (Nat.zero_lt_of_lt near) (stream.drop skipped)
  have led :=
    readAll_of_cuts framed consume ⟨state, []⟩ framed.start cuts
  rw [reached] at led
  rw [← agreed skipped near _ cuts, led]

section Logs

variable {serves : Item → Prop}
variable (framed : Framed decode)
variable (refuses :
  ∀ state value, ¬serves value → consume state value = .leave state)
variable (lone :
  ∀ symbol later first second rest left,
    decode (symbol :: later) = .item first rest →
    serves first →
    decode later = .item second left →
    ¬serves second)
include framed refuses

/--
Where the stream does not start with an item that is served, the consumer is
left alone up to the end or up to a break.
-/
theorem advance_of_unserved
    (state : State)
    (stream : List Symbol)
    (unserved :
      ∀ value rest, decode stream = .item value rest → ¬serves value) :
    (∃ buffer,
      advance decode consume state [] stream =
        .through ⟨state, buffer⟩) ∨
      ∃ rest,
        advance decode consume state [] stream = .broken state rest := by
  cases answer : decode stream with
  | more =>
      exact Or.inl ⟨stream, advance_of_more framed state answer⟩
  | fault reason =>
      obtain ⟨dropped, reached⟩ :=
        advance_of_fault framed state framed.start answer
      exact Or.inr ⟨stream.drop dropped, reached⟩
  | item value rest =>
      refine Or.inr ⟨rest, ?_⟩
      rw [advance_of_item framed state framed.start answer,
        refuses state value (unserved value rest answer)]

include lone in
/--
If all positions within reach agree on a log, it is the log that they start
with: of two adjacent positions one does not start with an item that is served.
-/
theorem Agreed.log_eq
    (adjacent : 1 < reach)
    {state : State}
    {stream : List Symbol}
    {common : Log}
    (agreed : Agreed decode consume log reach state stream common) :
    common = log state := by
  induction length : stream.length using Nat.strong_induction_on
    generalizing stream with
  | h size inductionHypothesis =>
      subst length
      have settle
          (skipped : Nat)
          (near : skipped < reach)
          (unserved :
            ∀ value rest,
              decode (stream.drop skipped) = .item value rest →
              ¬serves value) :
          common = log state := by
        rcases advance_of_unserved framed refuses state
            (stream.drop skipped) unserved with
          ⟨buffer, reached⟩ | ⟨rest, reached⟩
        · exact (agreed.of_through framed near reached).symm
        · have shorter := length_rest_of_broken reached
          rw [List.length_drop] at shorter
          exact inductionHypothesis rest.length (by omega)
            (agreed.of_broken framed near reached) rfl
      by_cases first :
          ∃ value rest, decode stream = .item value rest ∧ serves value
      · obtain ⟨value, rest, answer, served⟩ := first
        cases stream with
        | nil =>
            rw [framed.start] at answer
            cases answer
        | cons symbol later =>
            apply settle 1 adjacent
            intro second left
            exact lone symbol later value second rest left answer served
      · apply settle 0 (Nat.zero_lt_of_lt adjacent)
        intro value rest answer served
        exact first ⟨value, rest, answer, served⟩

include lone in
/-- If all positions within reach agree on a log, nothing is logged. -/
theorem Agreed.silent
    (adjacent : 1 < reach)
    {state : State}
    {stream : List Symbol}
    {common : Log}
    (agreed : Agreed decode consume log reach state stream common)
    (skipped : Nat)
    (near : skipped < reach) :
    Silent decode consume log reach state (stream.drop skipped) := by
  induction length : stream.length using Nat.strong_induction_on
    generalizing state stream skipped with
  | h size inductionHypothesis =>
      subst length
      have start := agreed.log_eq framed refuses lone adjacent
      cases reached :
        advance decode consume state [] (stream.drop skipped) with
      | through reader =>
          refine .through reached ?_
          rw [agreed.of_through framed near reached, start]
      | broken next rest =>
          have later := agreed.of_broken framed near reached
          have shorter := length_rest_of_broken reached
          rw [List.length_drop] at shorter
          refine .broken reached ?_ ?_
          · rw [← later.log_eq framed refuses lone adjacent, start]
          · intro behind within
            exact inductionHypothesis rest.length (by omega) later behind
              within rfl

end Logs

/-- From a silent position every way of cutting the stream keeps the log. -/
theorem Silent.log_readAll
    (framed : Framed decode)
    {state : State}
    {stream : List Symbol}
    (silent : Silent decode consume log reach state stream)
    {chunks : List (List Symbol)}
    (cuts : Cuts reach stream chunks) :
    log (readAll decode consume ⟨state, []⟩ chunks).state = log state := by
  induction silent generalizing chunks with
  | @through state stream reader reached same =>
      have led :=
        readAll_of_cuts framed consume ⟨state, []⟩ framed.start cuts
      rw [reached] at led
      rw [led, same]
  | @broken state next stream rest reached same behind
      inductionHypothesis =>
      have led :=
        readAll_of_cuts framed consume ⟨state, []⟩ framed.start cuts
      rw [reached] at led
      obtain ⟨skipped, later, near, tail, continued⟩ := led
      rw [continued, inductionHypothesis skipped near tail, same]

/--
The ways of cutting a stream come to the same log exactly if nothing is logged
behind the first break.
-/
theorem blind_iff
    (log : State → Log)
    {serves : Item → Prop}
    (framed : Framed decode)
    (refuses :
      ∀ state value, ¬serves value → consume state value = .leave state)
    (lone :
      ∀ symbol later first second rest left,
        decode (symbol :: later) = .item first rest →
        serves first →
        decode later = .item second left →
        ¬serves second)
    (adjacent : 1 < reach)
    (reader : Reader State Symbol)
    (waiting : decode reader.buffer = .more)
    (stream : List Symbol) :
    Blind decode consume log reach reader stream ↔
      SilentBehindBreak decode consume log reach reader stream := by
  constructor
  · intro blind next rest reached
    have agreed :
        Agreed decode consume log reach next rest
          (log (readAll decode consume reader
            (stream.map fun symbol => [symbol])).state) := by
      intro skipped near chunks cuts
      obtain ⟨earlier, starts⟩ :=
        exists_cuts_of_broken framed reader waiting reached near
      obtain ⟨whole, same⟩ := starts chunks cuts
      rw [← same]
      exact blind _ _ whole
        (Cuts.singletons (Nat.zero_lt_of_lt adjacent) stream)
    exact agreed.silent framed refuses lone adjacent
  · intro silent first second firstCuts secondCuts
    have firstLed := readAll_of_cuts framed consume reader waiting firstCuts
    have secondLed :=
      readAll_of_cuts framed consume reader waiting secondCuts
    cases reached :
      advance decode consume reader.state reader.buffer stream with
    | through final =>
        rw [reached] at firstLed secondLed
        rw [firstLed, secondLed]
    | broken next rest =>
        have behind := silent next rest reached
        rw [reached] at firstLed secondLed
        obtain ⟨skipped, later, near, cuts, same⟩ := firstLed
        obtain ⟨dropped, others, close, otherCuts, alike⟩ := secondLed
        rw [same, alike, (behind skipped near).log_readAll framed cuts,
          (behind dropped close).log_readAll framed otherCuts]

end Segmentation

end Vortek.ResettingReader

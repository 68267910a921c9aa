import Mathlib.Data.List.Infix

namespace Vortek.LineSplit

/-!
# Finding a two-symbol terminator

Line protocols end a line with a fixed pair of symbols.  This module searches a
list for the first occurrence of such a pair and relates the search to the
declarative reading of a line: the text in front of the terminator, in which
the pair does not occur.

Nothing here mentions a particular alphabet.  The only assumption, made where
it is needed, is that the two symbols differ; then a line may still end in the
first symbol without hiding the terminator that follows it.
-/

variable {Symbol : Type}

/-- The two symbols do not occur next to each other, in this order. -/
def PairFree (first second : Symbol) (text : List Symbol) : Prop :=
  ¬ [first, second] <:+: text

instance [DecidableEq Symbol]
    (first second : Symbol)
    (text : List Symbol) :
    Decidable (PairFree first second text) :=
  inferInstanceAs (Decidable (¬ _))

/-- Position of the first occurrence of the pair, if there is one. -/
def findPair [DecidableEq Symbol] (first second : Symbol) :
    List Symbol → Option Nat
  | [] => none
  | [_] => none
  | head :: next :: rest =>
      if head = first ∧ next = second then
        some 0
      else
        (findPair first second (next :: rest)).map (· + 1)

section PairFree

variable {first second : Symbol}

/-- A nonempty text has the pair at its front or in its tail. -/
theorem pair_infix_cons_iff
    {head : Symbol}
    {rest : List Symbol} :
    [first, second] <:+: head :: rest ↔
      (head = first ∧ ∃ later, rest = second :: later) ∨
        [first, second] <:+: rest := by
  rw [List.infix_cons_iff]
  constructor
  · rintro (⟨later, shape⟩ | inner)
    · simp only [List.cons_append, List.nil_append,
        List.cons.injEq] at shape
      exact Or.inl ⟨shape.1.symm, later, shape.2.symm⟩
    · exact Or.inr inner
  · rintro (⟨rfl, later, rfl⟩ | inner)
    · exact Or.inl ⟨later, rfl⟩
    · exact Or.inr inner

@[simp] theorem pairFree_nil :
    PairFree first second [] := by
  simp [PairFree]

/-- Without the first symbol there is no pair. -/
theorem pairFree_of_not_mem
    {text : List Symbol}
    (absent : first ∉ text) :
    PairFree first second text :=
  fun occurs => absent (occurs.subset (by simp))

/-- Every segment of a pair-free text is pair-free. -/
theorem PairFree.of_infix
    {part text : List Symbol}
    (free : PairFree first second text)
    (segment : part <:+: text) :
    PairFree first second part :=
  fun occurs => free (occurs.trans segment)

/-- Texts not touching at the pair can be joined. -/
theorem PairFree.append
    {left right : List Symbol}
    (leftFree : PairFree first second left)
    (rightFree : PairFree first second right)
    (noJoin : left.getLast? ≠ some first ∨ right.head? ≠ some second) :
    PairFree first second (left ++ right) := by
  induction left with
  | nil =>
      simpa using rightFree
  | cons head rest inductionHypothesis =>
      have restFree : PairFree first second rest :=
        leftFree.of_infix (List.suffix_cons head rest).isInfix
      intro occurs
      rw [List.cons_append, pair_infix_cons_iff] at occurs
      rcases occurs with ⟨rfl, later, shape⟩ | inner
      · cases rest with
        | nil =>
            -- the pair straddles the seam
            simp only [List.nil_append] at shape
            subst shape
            simp at noJoin
        | cons next tail =>
            simp only [List.cons_append, List.cons.injEq] at shape
            obtain ⟨rfl, -⟩ := shape
            exact leftFree ⟨[], tail, rfl⟩
      · refine inductionHypothesis restFree ?_ inner
        cases rest with
        | nil =>
            simp
        | cons next tail =>
            simpa [List.getLast?_cons_cons] using noJoin

end PairFree

section Search

variable [DecidableEq Symbol] {first second : Symbol}

/-- A hit splits the text into the line, the terminator and the rest. -/
theorem eq_append_of_findPair_eq_some
    {text : List Symbol}
    {index : Nat}
    (found : findPair first second text = some index) :
    ∃ line rest,
      text = line ++ first :: second :: rest ∧
        PairFree first second line ∧
        line.length = index := by
  induction text generalizing index with
  | nil =>
      simp [findPair] at found
  | cons head rest inductionHypothesis =>
      cases rest with
      | nil =>
          simp [findPair] at found
      | cons next tail =>
          by_cases atFront : head = first ∧ next = second
          · obtain ⟨rfl, rfl⟩ := atFront
            simp only [findPair, and_self, ↓reduceIte,
              Option.some.injEq] at found
            subst found
            exact ⟨[], tail, rfl, by simp, rfl⟩
          · simp only [findPair, atFront, ↓reduceIte,
              Option.map_eq_some_iff] at found
            obtain ⟨earlier, foundLater, rfl⟩ := found
            obtain ⟨line, later, shape, free, rfl⟩ :=
              inductionHypothesis foundLater
            refine ⟨head :: line, later, by simp [shape], ?_, by simp⟩
            intro occurs
            rcases pair_infix_cons_iff.mp occurs with
                ⟨headIs, more, lineShape⟩ | inner
            · subst lineShape
              simp only [List.cons_append, List.cons.injEq] at shape
              exact atFront ⟨headIs, shape.1⟩
            · exact free inner

/-- The line in front of a terminator is found by its length. -/
theorem findPair_append
    (distinct : first ≠ second)
    {line : List Symbol}
    (free : PairFree first second line)
    (rest : List Symbol) :
    findPair first second (line ++ first :: second :: rest) =
      some line.length := by
  induction line with
  | nil =>
      simp [findPair]
  | cons head tail inductionHypothesis =>
      have tailFree : PairFree first second tail :=
        free.of_infix (List.suffix_cons head tail).isInfix
      have later := inductionHypothesis tailFree
      cases tail with
      | nil =>
          -- a line ending in the first symbol does not hide the terminator
          simp [findPair, distinct]
      | cons next more =>
          have frontClear : ¬ (head = first ∧ next = second) := by
            rintro ⟨rfl, rfl⟩
            exact free ⟨[], more, rfl⟩
          simp only [List.cons_append] at later
          simp [findPair, frontClear, later]

/-- The search returns an index exactly when a line of that length ends. -/
theorem findPair_eq_some_iff
    (distinct : first ≠ second)
    {text : List Symbol}
    {index : Nat} :
    findPair first second text = some index ↔
      ∃ line rest,
        text = line ++ first :: second :: rest ∧
          PairFree first second line ∧
          line.length = index := by
  constructor
  · exact eq_append_of_findPair_eq_some
  · rintro ⟨line, rest, rfl, free, rfl⟩
    exact findPair_append distinct free rest

end Search

end Vortek.LineSplit

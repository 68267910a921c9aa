import Mathlib.Data.List.Sort
import Vortek.CheckedInt64
import Vortek.CollectionLoops

namespace Vortek

open CallScript DecimalText

/-!
# List indices

LRANGE and LINDEX add the length to a negative index once.  LRANGE clamps the
start from below and the stop from above only, so that its accesses are in
bounds because of the loop condition.  `lrange?` and `lindex?` are the same
computations with arithmetic and element accesses that may be undefined: they
always have a result, and it is the list of elements between the two positions.
-/

/-- The positions from one index to another, both included. -/
def positionsBetween (length : Nat) (start stop : Int64) : List Nat :=
  (List.range length).filter fun place =>
    decide (max 0 (position length start) ≤ place ∧
      (place : Int) ≤ min ((length : Int) - 1) (position length stop))

/-- `if (index < 0) index += n`, with a sum that may be undefined. -/
def fromEnd? (n index : Int64) : Option Int64 :=
  if index < 0 then CheckedInt64.add index n else some index

/-- The normalisation of LRANGE, with arithmetic that may be undefined. -/
def normaliseRange? (n start stop : Int64) : Option (Int64 × Int64) := do
  let start ← fromEnd? n start
  let stop ← fromEnd? n stop
  let start := if start < 0 then 0 else start
  let stop ← if n ≤ stop then CheckedInt64.sub n 1 else some stop
  return (start, stop)

/-- `elems[static_cast<std::size_t>(index)]`, undefined out of bounds. -/
def access? (elements : List Bytes) (index : Int64) : Option Bytes :=
  elements[index.toUInt64.toNat]?

/--
The loop of LRANGE from `index` to `stop`, with accesses and increments that may
be undefined.
-/
def readRange? (elements : List Bytes) (stop index : Int64) :
    Option (List Bytes) :=
  if index ≤ stop then
    match access? elements index with
    | none => none
    | some element =>
        match _next : CheckedInt64.add index 1 with
        | none => none
        | some later =>
            (readRange? elements stop later).map (element :: ·)
  else
    some []
termination_by (stop.toInt + 1 - index.toInt).toNat
decreasing_by
  have sum := CheckedInt64.ofInt?_eq_some_iff.mp _next
  have one : (1 : Int64).toInt = 1 :=
    rfl
  have inside : index.toInt ≤ stop.toInt :=
    Int64.le_iff_toInt_le.mp (by assumption)
  omega

/-- LRANGE on the elements of a list. -/
def lrange? (elements : List Bytes) (start stop : Int64) :
    Option (List Bytes) := do
  let range ← normaliseRange? (toInt64 elements.length) start stop
  readRange? elements range.2 range.1

/-- LINDEX on the elements of a list: nothing, or an element. -/
def lindex? (elements : List Bytes) (index : Int64) :
    Option (Option Bytes) := do
  let n := toInt64 elements.length
  let index ← fromEnd? n index
  if index < 0 || n ≤ index then
    return none
  else
    let element ← access? elements index
    return some element

section Arithmetic

variable {elements : List Bytes} {length : Nat}

theorem fromEnd?_eq
    (short : length < 2 ^ 63)
    (index : Int64) :
    fromEnd? (toInt64 length) index =
      some (fromEnd (toInt64 length) index) := by
  unfold fromEnd? fromEnd
  by_cases negative : index < 0
  · have below : index.toInt < 0 := Int64.lt_iff_toInt_lt.mp negative
    have above := index.le_toInt
    rw [if_pos negative, if_pos negative]
    refine CheckedInt64.add_eq_some ?_
    rw [toInt_toInt64 short]
    constructor <;> omega
  · rw [if_neg negative, if_neg negative]

theorem normaliseRange?_eq
    (short : length < 2 ^ 63)
    (start stop : Int64) :
    normaliseRange? (toInt64 length) start stop =
      some (normaliseRange (toInt64 length) start stop) := by
  have one : (1 : Int64).toInt = 1 :=
    rfl
  have last :
      CheckedInt64.sub (toInt64 length) 1 =
        some (toInt64 length - 1) := by
    refine CheckedInt64.sub_eq_some ?_
    rw [toInt_toInt64 short, one]
    constructor <;> omega
  simp only [normaliseRange?, normaliseRange, fromEnd?_eq short, last]
  by_cases clamped :
      toInt64 length ≤ fromEnd (toInt64 length) stop
  · simp [clamped]
  · simp [clamped]

/-- A nonnegative index survives the conversion to `std::size_t`. -/
theorem access?_eq
    {index : Int64}
    (nonnegative : 0 ≤ index.toInt) :
    access? elements index = elements[index.toInt.toNat]? := by
  rw [access?, CheckedInt64.toNat_toUInt64 nonnegative]

/-- The positions of LRANGE are those between the two indices. -/
theorem rangePositions_eq
    (short : length < 2 ^ 63)
    (start stop : Int64) :
    rangePositions (normaliseRange (toInt64 length) start stop).1
        (normaliseRange (toInt64 length) start stop).2 =
      positionsBetween length start stop := by
  obtain ⟨first, last⟩ := toInt_normaliseRange short start stop
  have ascending :
      (rangePositions (normaliseRange (toInt64 length) start stop).1
        (normaliseRange (toInt64 length) start stop).2).Pairwise
        (· < ·) := by
    unfold rangePositions
    split
    · refine List.pairwise_lt_range.map _ fun low high less => ?_
      omega
    · exact List.Pairwise.nil
  refine ascending.eq_of_mem_iff (List.pairwise_lt_range.filter _)
    fun place => ?_
  simp only [rangePositions, Int64.le_iff_toInt_le, first, last,
    positionsBetween, List.mem_filter, List.mem_range, decide_eq_true_eq]
  split
  · simp only [List.mem_map, List.mem_range]
    constructor
    · rintro ⟨offset, bound, rfl⟩
      omega
    · intro between
      exact ⟨place - (max 0 (position length start)).toNat,
        by omega, by omega⟩
  · simp only [List.not_mem_nil, false_iff]
    omega

/-- The positions from an index on: the index, then those from the next on. -/
theorem rangePositions_cons
    {index next stop : Int64}
    (inside : index.toInt ≤ stop.toInt)
    (nonnegative : 0 ≤ index.toInt)
    (successor : next.toInt = index.toInt + 1) :
    rangePositions index stop =
      index.toInt.toNat :: rangePositions next stop := by
  have count :
      (stop.toInt - index.toInt + 1).toNat =
        (stop.toInt - next.toInt + 1).toNat + 1 := by
    omega
  have origin : next.toInt.toNat = index.toInt.toNat + 1 := by
    omega
  simp only [rangePositions, Int64.le_iff_toInt_le, if_pos inside]
  rw [count, List.range_succ_eq_map, List.map_cons, List.map_map,
    Nat.add_zero]
  congr 1
  split
  · refine List.map_congr_left fun offset _ => ?_
    simp only [Function.comp_apply]
    omega
  · have nothing : (stop.toInt - next.toInt + 1).toNat = 0 := by
      omega
    rw [nothing]
    rfl

/--
The loop of LRANGE reads every position, without leaving the list and without
overflow.
-/
theorem exists_readRange?
    {index stop : Int64}
    (short : elements.length < 2 ^ 63)
    (nonnegative : 0 ≤ index.toInt)
    (bounded : stop.toInt < elements.length) :
    ∃ result,
      readRange? elements stop index = some result ∧
        List.Forall₂
          (fun place element => elements[place]? = some element)
          (rangePositions index stop) result := by
  generalize rounds : (stop.toInt + 1 - index.toInt).toNat = count
  induction count generalizing index with
  | zero =>
      have outside : ¬ index ≤ stop := fun inside => by
        have := Int64.le_iff_toInt_le.mp inside
        omega
      refine ⟨[], ?_, ?_⟩
      · rw [readRange?, if_neg outside]
      · rw [rangePositions, if_neg outside]
        exact .nil
  | succ count inductionHypothesis =>
      have within : index.toInt ≤ stop.toInt := by
        omega
      have place : index.toInt.toNat < elements.length := by
        omega
      have one : (1 : Int64).toInt = 1 :=
        rfl
      have inRange :
          InInt64Range (index.toInt + (1 : Int64).toInt) := by
        rw [one]
        constructor <;> omega
      have successor : (index + 1).toInt = index.toInt + 1 :=
        CheckedInt64.toInt_add_of_inRange inRange
      have added := CheckedInt64.add_eq_some inRange
      have found :
          access? elements index =
            some elements[index.toInt.toNat] := by
        rw [access?_eq nonnegative, List.getElem?_eq_getElem place]
      obtain ⟨later, read, agrees⟩ :=
        @inductionHypothesis (index + 1) (by omega) (by omega)
      refine ⟨elements[index.toInt.toNat] :: later, ?_, ?_⟩
      · rw [readRange?, if_pos (Int64.le_iff_toInt_le.mpr within), found]
        dsimp only
        split
        · rename_i undefined
          rw [added] at undefined
          cases undefined
        · rename_i next defined
          rw [added] at defined
          cases defined
          rw [read]
          rfl
      · rw [rangePositions_cons within nonnegative successor]
        exact .cons (List.getElem?_eq_getElem place) agrees

/-- LRANGE is defined, and reads the positions between the two indices. -/
theorem exists_lrange?
    (short : elements.length < 2 ^ 63)
    (start stop : Int64) :
    ∃ result,
      lrange? elements start stop = some result ∧
        List.Forall₂
          (fun place element => elements[place]? = some element)
          (positionsBetween elements.length start stop) result := by
  obtain ⟨first, last⟩ := toInt_normaliseRange short start stop
  rw [lrange?, normaliseRange?_eq short, ← rangePositions_eq short]
  exact exists_readRange? short (by omega) (by omega)

/-- LINDEX is defined, and finds the element at its position, if any. -/
theorem lindex?_eq
    (short : elements.length < 2 ^ 63)
    (index : Int64) :
    lindex? elements index = some (elementAtIndex elements index) := by
  have zero : (0 : Int64).toInt = 0 :=
    rfl
  have place := toInt_fromEnd short index
  simp only [lindex?, fromEnd?_eq short, Option.bind_eq_bind,
    Option.bind_some, elementAtIndex, ← place]
  generalize fromEnd (toInt64 elements.length) index = found
  by_cases below : found.toInt < 0
  · have refused : (found < 0 || toInt64 elements.length ≤ found) := by
      simp [Int64.lt_iff_toInt_lt, zero, below]
    rw [if_pos refused, if_pos below]
    rfl
  · rw [if_neg below]
    by_cases above : (elements.length : Int) ≤ found.toInt
    · have refused :
          (found < 0 || toInt64 elements.length ≤ found) := by
        simp [Int64.le_iff_toInt_le, toInt_toInt64 short, above]
      rw [if_pos refused, List.getElem?_eq_none (by omega)]
      rfl
    · have accepted :
          ¬ (found < 0 || toInt64 elements.length ≤ found) = true := by
        simp only [Bool.or_eq_true, decide_eq_true_eq,
          Int64.lt_iff_toInt_lt, Int64.le_iff_toInt_le, zero,
          toInt_toInt64 short]
        omega
      have inside : found.toInt.toNat < elements.length := by
        omega
      rw [if_neg accepted, access?_eq (by omega),
        List.getElem?_eq_getElem inside]
      rfl

/-- An index finds an element exactly between `-n` and `n`. -/
theorem elementAtIndex_isSome_iff
    (index : Int64) :
    (elementAtIndex elements index).isSome = true ↔
      -(elements.length : Int) ≤ index.toInt ∧
        index.toInt < elements.length := by
  have place :
      0 ≤ position elements.length index ∧
          position elements.length index < elements.length ↔
        -(elements.length : Int) ≤ index.toInt ∧
          index.toInt < elements.length := by
    unfold position
    split <;> omega
  rw [← place, elementAtIndex]
  by_cases below : position elements.length index < 0
  · simp [below]
  · rw [if_neg below, Option.isSome_iff_ne_none, ne_eq,
      List.getElem?_eq_none_iff]
    omega

end Arithmetic

/-- The reply of LINDEX for an element or none. -/
def elementReply : Option Bytes → RespValue
  | none => .null
  | some element => .bulkString element

/--
LRANGE and LINDEX on a key that holds these elements, for all indices and all
texts that denote them.
-/
structure IndexesExactly
    (now : TimePoint)
    (key : Bytes)
    (elements : List Bytes)
    (backend : Backend) :
    Prop where
  /-- LRANGE answers the elements between its positions; all is defined. -/
  lrange :
    ∀ start stop startText stopText,
      Int64Text startText start →
      Int64Text stopText stop →
      ∃ result,
        lrange? elements start stop = some result ∧
          backend.dispatch now
              ⟨ascii "LRANGE", [key, startText, stopText]⟩ =
            (.ok (.array (result.map .bulkString)), backend) ∧
          List.Forall₂
            (fun place element => elements[place]? = some element)
            (positionsBetween elements.length start stop) result
  /-- LINDEX answers the element at its position, if there is one. -/
  lindex :
    ∀ index text,
      Int64Text text index →
      ∃ answer,
        lindex? elements index = some answer ∧
          backend.dispatch now ⟨ascii "LINDEX", [key, text]⟩ =
            (.ok (elementReply answer), backend) ∧
          (answer.isSome = true ↔
            -(elements.length : Int) ≤ index.toInt ∧
              index.toInt < elements.length) ∧
          ∀ element,
            answer = some element →
            elements[(position elements.length index).toNat]? =
              some element
  /-- LRANGE answers what LINDEX answers at each of the positions. -/
  agree :
    ∀ start stop startText stopText,
      Int64Text startText start →
      Int64Text stopText stop →
      ∃ replies,
        (backend.dispatch now
            ⟨ascii "LRANGE", [key, startText, stopText]⟩).1 =
          .ok (.array replies) ∧
        List.Forall₂
          (fun place reply =>
            ∀ text,
              Int64Text text (Int64.ofInt (place : Nat)) →
              (backend.dispatch now
                ⟨ascii "LINDEX", [key, text]⟩).1 = .ok reply)
          (positionsBetween elements.length start stop) replies

section Handlers

variable {now : TimePoint} {key : Bytes} {elements : List Bytes}
variable {backend : Backend}

/-- The key holds these elements; a missing key is an empty list. -/
def HoldsList
    (now : TimePoint)
    (key : Bytes)
    (elements : List Bytes)
    (store : KvStore) :
    Prop :=
  store.get now key = some (.list elements) ∨
    (store.get now key = none ∧ elements = [])

theorem dispatch_lrange
    {start stop : Int64}
    {startText stopText : Bytes}
    (holds : HoldsList now key elements backend.store)
    (short : elements.length < 2 ^ 63)
    (readStart : Int64Text startText start)
    (readStop : Int64Text stopText stop) :
    backend.dispatch now
        ⟨ascii "LRANGE", [key, startText, stopText]⟩ =
      (.ok (.array
        ((positionsBetween elements.length start stop).map
          (elementAt elements))), backend) := by
  change backend.exec now
    (cmdLrange ⟨ascii "LRANGE", [key, startText, stopText]⟩) = _
  simp only [cmdLrange, wholeInt64?_eq_some_iff.mpr readStart,
    wholeInt64?_eq_some_iff.mpr readStop, readTyped]
  rcases holds with live | ⟨missing, rfl⟩
  · rw [exec_withTyped_present live rfl rfl, rangePositions_eq short]
    rfl
  · rw [exec_withTyped_absent missing]
    rfl

theorem dispatch_lindex
    {index : Int64}
    {text : Bytes}
    (holds : HoldsList now key elements backend.store)
    (short : elements.length < 2 ^ 63)
    (read : Int64Text text index) :
    backend.dispatch now ⟨ascii "LINDEX", [key, text]⟩ =
      (.ok (elementReply (elementAtIndex elements index)), backend) := by
  change backend.exec now
    (cmdLindex ⟨ascii "LINDEX", [key, text]⟩) = _
  simp only [cmdLindex, wholeInt64?_eq_some_iff.mpr read, readTyped]
  rcases holds with live | ⟨missing, rfl⟩
  · rw [exec_withTyped_present live rfl rfl]
    have answer := elementAtIndex_eq short index
    generalize elementAtIndex elements index = found at answer ⊢
    have reply :
        elementReply found =
          if fromEnd (toInt64 elements.length) index < 0 ||
              toInt64 elements.length ≤
                fromEnd (toInt64 elements.length) index then
            .null
          else
            elementAt elements
              (fromEnd (toInt64 elements.length) index).toInt.toNat := by
      cases found <;> exact answer.symm
    rw [reply]
    split
    · rfl
    · rfl
  · rw [exec_withTyped_absent missing]
    have nothing : elementAtIndex [] index = none := by
      unfold elementAtIndex
      split <;> rfl
    rw [nothing]
    rfl

/-- Every position between two indices is its own index. -/
theorem position_ofInt
    {length place : Nat}
    (short : length < 2 ^ 63)
    (inside : place < length) :
    position length (Int64.ofInt place) = place := by
  have value : (Int64.ofInt place).toInt = place :=
    toInt_ofInt_natCast (by omega)
  unfold position
  rw [value, if_neg (by omega)]

/-- The elements at some positions, as replies of LINDEX at these. -/
theorem forall₂_lindex
    {start stop : Int64}
    {result : List Bytes}
    (holds : HoldsList now key elements backend.store)
    (short : elements.length < 2 ^ 63)
    (agrees :
      List.Forall₂
        (fun place element => elements[place]? = some element)
        (positionsBetween elements.length start stop) result) :
    List.Forall₂
      (fun place reply =>
        ∀ text,
          Int64Text text (Int64.ofInt (place : Nat)) →
          (backend.dispatch now
            ⟨ascii "LINDEX", [key, text]⟩).1 = .ok reply)
      (positionsBetween elements.length start stop)
      (result.map .bulkString) := by
  rw [List.forall₂_map_right_iff]
  refine agrees.imp fun place element found text read => ?_
  have inside : place < elements.length := by
    by_contra beyond
    rw [List.getElem?_eq_none (by omega)] at found
    cases found
  have indexed :
      elementAtIndex elements (Int64.ofInt place) = some element := by
    rw [elementAtIndex, position_ofInt short inside, if_neg (by omega)]
    exact found
  rw [dispatch_lindex holds short read, indexed]
  rfl

end Handlers

namespace Backend

/--
On a list with fewer than `2 ^ 63` elements, LRANGE and LINDEX are exact for all
indices, and nothing they compute overflows or leaves the list.
-/
theorem list_indices_exact
    (backend : Backend)
    (now : TimePoint)
    (key : Bytes)
    (elements : List Bytes)
    (holds : HoldsList now key elements backend.store)
    (short : elements.length < 2 ^ 63) :
    IndexesExactly now key elements backend := by
  have lrange
      (start stop : Int64)
      (startText stopText : Bytes)
      (readStart : Int64Text startText start)
      (readStop : Int64Text stopText stop) :
      ∃ result,
        lrange? elements start stop = some result ∧
          backend.dispatch now
              ⟨ascii "LRANGE", [key, startText, stopText]⟩ =
            (.ok (.array (result.map .bulkString)), backend) ∧
          List.Forall₂
            (fun place element => elements[place]? = some element)
            (positionsBetween elements.length start stop) result := by
    obtain ⟨result, defined, agrees⟩ := exists_lrange? short start stop
    refine ⟨result, defined, ?_, agrees⟩
    have replies :
        (positionsBetween elements.length start stop).map
            (elementAt elements) =
          result.map .bulkString := by
      rw [← List.forall₂_eq_eq_eq, List.forall₂_map_left_iff,
        List.forall₂_map_right_iff]
      refine agrees.imp fun place element found => ?_
      rw [elementAt, List.getD_eq_getElem?_getD, found]
      rfl
    rw [dispatch_lrange holds short readStart readStop, replies]
  refine ⟨lrange, ?_, ?_⟩
  · intro index text read
    refine ⟨elementAtIndex elements index, lindex?_eq short index,
      dispatch_lindex holds short read,
      elementAtIndex_isSome_iff index, fun element found => ?_⟩
    unfold elementAtIndex at found
    split at found
    · cases found
    · exact found
  · intro start stop startText stopText readStart readStop
    obtain ⟨result, -, answered, agrees⟩ :=
      lrange start stop startText stopText readStart readStop
    exact ⟨_, congrArg Prod.fst answered,
      forall₂_lindex holds short agrees⟩

/-- Three elements after RPUSH: both ends of `int64_t` as indices. -/
theorem list_indices_exact_three :
    let backend :=
      (initial.dispatch 0
        ⟨ascii "RPUSH", [[107], [97], [98], [99]]⟩).2
    IndexesExactly 0 [107] [[97], [98], [99]] backend ∧
      positionsBetween 3 Int64.minValue Int64.maxValue = [0, 1, 2] := by
  intro backend
  exact ⟨list_indices_exact backend 0 [107] [[97], [98], [99]]
    (Or.inl rfl) (by decide), by decide⟩

end Backend

end Vortek

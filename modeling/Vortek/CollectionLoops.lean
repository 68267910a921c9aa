import Vortek.PlainCollections
import Vortek.StoredValues

namespace Vortek

/-!
# The loops of the collection commands

The handlers insert, erase and count one element at a time, in `int64_t`.  What
the loops compute is said here in terms of sequences, finite sets and finite
maps.  The counts are the changes in size even where the sizes do not fit; the
index arithmetic of LRANGE and LINDEX needs a length below `2 ^ 63`.
-/

section ListLoops

theorem foldl_pushFront
    (list added : List Bytes) :
    added.foldl (fun list element => element :: list) list =
      added.reverse ++ list :=
  List.foldl_flip_cons_eq_append'

theorem foldl_pushBack
    (list added : List Bytes) :
    added.foldl (fun list element => list ++ [element]) list =
      list ++ added := by
  induction added generalizing list with
  | nil =>
      simp
  | cons first later inductionHypothesis =>
      rw [List.foldl_cons, inductionHypothesis, List.append_assoc]
      rfl

/-- The index arithmetic of the source does not overflow. -/
theorem toInt_fromEnd
    {length : Nat}
    (short : length < 2 ^ 63)
    (index : Int64) :
    (fromEnd (toInt64 length) index).toInt = position length index := by
  have zero : (0 : Int64).toInt = 0 :=
    rfl
  have low := Int64.le_toInt index
  have high := Int64.toInt_lt index
  simp only [fromEnd, position, Int64.lt_iff_toInt_lt, zero]
  split
  · rw [Int64.toInt_add, toInt_toInt64 short]
    exact Int.bmod_eq_of_le (by omega) (by omega)
  · rfl

/-- The positions visited by LRANGE, as integers. -/
theorem toInt_normaliseRange
    {length : Nat}
    (short : length < 2 ^ 63)
    (start stop : Int64) :
    (normaliseRange (toInt64 length) start stop).1.toInt =
        max 0 (position length start) ∧
      (normaliseRange (toInt64 length) start stop).2.toInt =
        min ((length : Int) - 1) (position length stop) := by
  have zero : (0 : Int64).toInt = 0 :=
    rfl
  have last : (toInt64 length - 1).toInt = (length : Int) - 1 := by
    have one : (1 : Int64).toInt = 1 :=
      rfl
    rw [Int64.toInt_sub, toInt_toInt64 short, one]
    exact Int.bmod_eq_of_le (by omega) (by omega)
  simp only [normaliseRange, Int64.lt_iff_toInt_lt,
    Int64.le_iff_toInt_le, toInt_fromEnd short, toInt_toInt64 short, zero]
  constructor
  · split
    · rw [zero]
      omega
    · rw [toInt_fromEnd short]
      omega
  · split
    · rw [last]
      omega
    · rw [toInt_fromEnd short]
      omega

/-- A loop that reads consecutive positions reads a segment. -/
theorem map_range_elementAt
    {elements : List Bytes}
    {start count : Nat}
    (inside : count ≤ elements.length - start) :
    (List.range count).map (fun offset =>
        elementAt elements (start + offset)) =
      ((elements.drop start).take count).map .bulkString := by
  apply List.ext_getElem
  · simp
    omega
  · intro offset bound _
    have index : start + offset < elements.length := by
      simp only [List.length_map, List.length_range] at bound
      omega
    simp [elementAt, index]

/-- LRANGE lists the slice. -/
theorem map_rangePositions
    {elements : List Bytes}
    (short : elements.length < 2 ^ 63)
    (start stop : Int64) :
    (rangePositions
        (normaliseRange (toInt64 elements.length) start stop).1
        (normaliseRange (toInt64 elements.length) start stop).2).map
        (elementAt elements) =
      (slice elements start stop).map .bulkString := by
  obtain ⟨first, last⟩ := toInt_normaliseRange short start stop
  simp only [rangePositions, Int64.le_iff_toInt_le, first, last, slice]
  generalize position elements.length start = low
  generalize position elements.length stop = high
  have origin : (max 0 low).toNat = low.toNat := by
    omega
  rw [List.drop_take, origin]
  split
  · have same :
        (elements.drop low.toNat).take
            (min ((elements.length : Int) - 1) high - max 0 low + 1).toNat =
          (elements.drop low.toNat).take
            ((high + 1).toNat - low.toNat) := by
      rw [List.take_eq_take_iff, List.length_drop]
      omega
    rw [List.map_map, ← same]
    exact map_range_elementAt (by omega)
  · have nothing :
        (elements.drop low.toNat).take
          ((high + 1).toNat - low.toNat) = [] := by
      rw [List.take_eq_nil_iff, List.drop_eq_nil_iff]
      omega
    rw [nothing]
    rfl

/-- LINDEX looks at the position of its index. -/
theorem elementAtIndex_eq
    {elements : List Bytes}
    (short : elements.length < 2 ^ 63)
    (index : Int64) :
    (Reply.element (elementAtIndex elements index)).Allows
      (if fromEnd (toInt64 elements.length) index < 0 ||
          toInt64 elements.length ≤
            fromEnd (toInt64 elements.length) index then
        .null
      else
        elementAt elements
          (fromEnd (toInt64 elements.length) index).toInt.toNat) := by
  have zero : (0 : Int64).toInt = 0 :=
    rfl
  simp only [Bool.or_eq_true, decide_eq_true_eq, Int64.lt_iff_toInt_lt,
    Int64.le_iff_toInt_le, toInt_fromEnd short, toInt_toInt64 short, zero,
    elementAtIndex]
  generalize position elements.length index = place
  by_cases before : place < 0
  · simp [before, Reply.element, Reply.Allows]
  · by_cases inside : place.toNat < elements.length
    · have notAfter : ¬(elements.length : Int) ≤ place := by
        omega
      simp [before, notAfter, inside, Reply.element, Reply.Allows,
        elementAt]
    · have after : (elements.length : Int) ≤ place := by
        omega
      have beyond : elements.length ≤ place.toNat := by
        omega
      simp [before, after, beyond, Reply.element, Reply.Allows]

end ListLoops

section SetLoops

/-- SADD inserts its members, and answers by how much the set grows. -/
theorem toFinset_addMembers
    (set : ByteSet)
    (added : List Bytes) :
    (addMembers set added).1.members.toFinset =
      set.members.toFinset ∪ added.toFinset := by
  ext member
  simp

theorem addMembers_growth
    (set : ByteSet)
    (added : List Bytes) :
    (addMembers set added).2 =
      toInt64
        ((set.members.toFinset ∪ added.toFinset).card -
          set.members.toFinset.card) := by
  have counted := addMembers_count set added
  have smaller :
      set.members.toFinset.card ≤
        (set.members.toFinset ∪ added.toFinset).card :=
    Finset.card_le_card Finset.subset_union_left
  rw [← toFinset_addMembers] at smaller ⊢
  rw [List.toFinset_card_of_nodup set.nodup,
    List.toFinset_card_of_nodup (addMembers set added).1.nodup]
    at smaller ⊢
  exact eq_toInt64_sub counted smaller

/-- SREM erases its members, and answers by how much the set shrinks. -/
theorem toFinset_removeMembers
    (set : ByteSet)
    (removed : List Bytes) :
    (removeMembers set removed).1.members.toFinset =
      set.members.toFinset \ removed.toFinset := by
  ext member
  simp

theorem removeMembers_shrinkage
    (set : ByteSet)
    (removed : List Bytes) :
    (removeMembers set removed).2 =
      toInt64
        (set.members.toFinset.card -
          (set.members.toFinset \ removed.toFinset).card) := by
  have counted := removeMembers_count set removed
  have smaller :
      (set.members.toFinset \ removed.toFinset).card ≤
        set.members.toFinset.card :=
    Finset.card_le_card Finset.sdiff_subset
  rw [← toFinset_removeMembers] at smaller ⊢
  rw [List.toFinset_card_of_nodup set.nodup,
    List.toFinset_card_of_nodup (removeMembers set removed).1.nodup]
    at smaller ⊢
  exact eq_toInt64_sub counted smaller

end SetLoops

section HashLoops

/-- The cardinality of a map is the length of its table. -/
theorem card_keys_toFinmap
    (fields : ByteMap Bytes) :
    fields.toFinmap.keys.card = fields.keys.length := by
  rw [Finset.card_def, Finmap.keys_val]
  rfl

/-- HSET inserts its pairs one after the other. -/
theorem toFinmap_assignFields
    (pairs : List (Bytes × Bytes))
    (hash : ByteMap Bytes) :
    (assignFields hash
        (pairs.flatMap fun pair => [pair.1, pair.2])).1.toFinmap =
      pairs.foldl (fun fields pair => fields.insert pair.1 pair.2)
        hash.toFinmap := by
  induction pairs generalizing hash with
  | nil =>
      rfl
  | cons pair later inductionHypothesis =>
      rw [List.foldl_cons, Finmap.insert_toFinmap,
        ← inductionHypothesis]
      simp only [List.flatMap_cons, List.cons_append, List.nil_append,
        assignFields]
      split <;> rfl

/-- HDEL erases its fields one after the other. -/
theorem toFinmap_eraseFields
    (hash : ByteMap Bytes)
    (removed : List Bytes) :
    (eraseFields hash removed).1.toFinmap =
      removed.foldl (fun fields field => fields.erase field)
        hash.toFinmap := by
  induction removed generalizing hash with
  | nil =>
      rfl
  | cons first later inductionHypothesis =>
      rw [List.foldl_cons, Finmap.erase_toFinmap, ← inductionHypothesis]
      simp only [eraseFields]
      split <;> rfl

/-- Insertions only add keys. -/
theorem keys_subset_foldl_insert
    (fields : Finmap fun _ : Bytes => Bytes)
    (pairs : List (Bytes × Bytes)) :
    fields.keys ⊆
      (pairs.foldl
        (fun fields pair => fields.insert pair.1 pair.2) fields).keys := by
  induction pairs generalizing fields with
  | nil =>
      exact Finset.Subset.refl _
  | cons pair later inductionHypothesis =>
      refine Finset.Subset.trans ?_ (inductionHypothesis _)
      intro field member
      rw [Finmap.mem_keys] at member ⊢
      exact Finmap.mem_insert.mpr (Or.inr member)

/-- Erasures only remove keys. -/
theorem foldl_erase_keys_subset
    (fields : Finmap fun _ : Bytes => Bytes)
    (removed : List Bytes) :
    (removed.foldl (fun fields field => fields.erase field) fields).keys ⊆
      fields.keys := by
  induction removed generalizing fields with
  | nil =>
      exact Finset.Subset.refl _
  | cons first later inductionHypothesis =>
      refine Finset.Subset.trans (inductionHypothesis _) ?_
      rw [Finmap.keys_erase]
      exact Finset.erase_subset _ _

theorem assignFields_growth
    (pairs : List (Bytes × Bytes))
    (hash : ByteMap Bytes) :
    (assignFields hash
        (pairs.flatMap fun pair => [pair.1, pair.2])).2 =
      toInt64
        ((pairs.foldl (fun fields pair => fields.insert pair.1 pair.2)
            hash.toFinmap).keys.card -
          hash.toFinmap.keys.card) := by
  have counted :=
    assignFields_count hash (pairs.flatMap fun pair => [pair.1, pair.2])
  have smaller :=
    Finset.card_le_card (keys_subset_foldl_insert hash.toFinmap pairs)
  rw [← toFinmap_assignFields, card_keys_toFinmap, card_keys_toFinmap]
    at smaller ⊢
  exact eq_toInt64_sub counted smaller

theorem eraseFields_shrinkage
    (hash : ByteMap Bytes)
    (removed : List Bytes) :
    (eraseFields hash removed).2 =
      toInt64
        (hash.toFinmap.keys.card -
          (removed.foldl (fun fields field => fields.erase field)
            hash.toFinmap).keys.card) := by
  have counted := eraseFields_count hash removed
  have smaller :=
    Finset.card_le_card (foldl_erase_keys_subset hash.toFinmap removed)
  rw [← toFinmap_eraseFields, card_keys_toFinmap, card_keys_toFinmap]
    at smaller ⊢
  exact eq_toInt64_sub counted smaller

end HashLoops

end Vortek

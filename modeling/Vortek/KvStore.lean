import Mathlib.Algebra.Group.Int.Defs
import Mathlib.Algebra.Group.Nat.Defs
import Mathlib.Data.List.AList
import Vortek.ByteText

namespace Vortek

/-!
# Values and the key-value store

`Value` is the variant of `value.hpp` and `KvStore` the map of `kv_store.cpp`.
Every operation takes the clock reading it would obtain from `Clock::now()`.

Clock readings and deadlines are nanoseconds in an `int64_t`, durations are
milliseconds.  Where the C++ arithmetic would overflow, which the standard
leaves undefined, the model wraps around.  The order in which the unordered
containers are iterated is not specified by C++; here it is the order of an
association list.
-/

/-- A finite set of byte strings: `std::unordered_set<std::string>`. -/
structure ByteSet where
  members : List Bytes
  nodup : members.Nodup

namespace ByteSet

/-- The set with no member. -/
def empty : ByteSet :=
  ⟨[], List.nodup_nil⟩

/-- `insert(member)`. -/
def insert (set : ByteSet) (member : Bytes) : ByteSet :=
  ⟨set.members.insert member, set.nodup.insert⟩

/-- `erase(member)`. -/
def erase (set : ByteSet) (member : Bytes) : ByteSet :=
  ⟨set.members.erase member, set.nodup.erase member⟩

/-- `count(member) > 0`. -/
def contains (set : ByteSet) (member : Bytes) : Bool :=
  set.members.contains member

@[simp] theorem mem_insert
    {set : ByteSet}
    {member other : Bytes} :
    other ∈ (set.insert member).members ↔
      other = member ∨ other ∈ set.members :=
  List.mem_insert_iff

@[simp] theorem mem_erase
    {set : ByteSet}
    {member other : Bytes} :
    other ∈ (set.erase member).members ↔
      other ≠ member ∧ other ∈ set.members :=
  set.nodup.mem_erase_iff

theorem contains_iff
    {set : ByteSet}
    {member : Bytes} :
    set.contains member = true ↔ member ∈ set.members :=
  List.contains_iff_mem

/-- Erasing what is not there changes nothing. -/
theorem erase_of_not_mem
    {set : ByteSet}
    {member : Bytes}
    (absent : member ∉ set.members) :
    set.erase member = set := by
  simp [erase, List.erase_of_not_mem absent]

end ByteSet

/-- A finite map of byte strings: `std::unordered_map<std::string, T>`. -/
abbrev ByteMap (Target : Type) := AList fun _ : Bytes => Target

section MapSizes

variable {Key Target : Type} [DecidableEq Key]
variable {map : AList fun _ : Key => Target} {key : Key}

/-- Overwriting a key adds none. -/
theorem length_keys_insert_of_mem
    (member : key ∈ map)
    (value : Target) :
    (map.insert key value).keys.length = map.keys.length := by
  rw [AList.keys_insert, List.length_cons,
    List.length_erase_add_one (AList.mem_keys.mp member)]

theorem length_keys_insert_of_not_mem
    (absent : key ∉ map)
    (value : Target) :
    (map.insert key value).keys.length = map.keys.length + 1 := by
  rw [AList.keys_insert, List.length_cons,
    List.erase_of_not_mem (mt AList.mem_keys.mpr absent)]

/-- Erasing a key that is there removes one. -/
theorem length_keys_erase_of_mem
    (member : key ∈ map) :
    map.keys.length = (map.erase key).keys.length + 1 := by
  rw [AList.keys_erase,
    List.length_erase_add_one (AList.mem_keys.mp member)]

theorem length_keys_erase_of_not_mem
    (absent : key ∉ map) :
    (map.erase key).keys.length = map.keys.length := by
  rw [AList.keys_erase,
    List.erase_of_not_mem (mt AList.mem_keys.mpr absent)]

end MapSizes

/-- A stored value. -/
inductive Value where
  | string (data : Bytes)
  | list (elements : List Bytes)
  | set (members : ByteSet)
  | hash (fields : ByteMap Bytes)

namespace Value

/-- `is_list`. -/
def isList : Value → Bool
  | .list _ => true
  | _ => false

/-- `is_set`. -/
def isSet : Value → Bool
  | .set _ => true
  | _ => false

/-- `is_hash`. -/
def isHash : Value → Bool
  | .hash _ => true
  | _ => false

/-- `std::get<StringValue>(data_).data`. -/
def asString : Value → Except CppException Bytes
  | .string data => .ok data
  | _ => .error .badVariantAccess

/-- `std::get<ListValue>(data_)`. -/
def asList : Value → Except CppException (List Bytes)
  | .list elements => .ok elements
  | _ => .error .badVariantAccess

/-- `std::get<SetValue>(data_)`. -/
def asSet : Value → Except CppException ByteSet
  | .set members => .ok members
  | _ => .error .badVariantAccess

/-- `std::get<HashValue>(data_)`. -/
def asHash : Value → Except CppException (ByteMap Bytes)
  | .hash fields => .ok fields
  | _ => .error .badVariantAccess

/-- Payload bytes of a value, as `approx_memory_bytes` counts them. -/
def payloadSize : Value → Nat
  | .string data => data.length
  | .list elements =>
      elements.foldl (fun total element => total + element.length) 0
  | .set members =>
      members.members.foldl (fun total member => total + member.length) 0
  | .hash fields =>
      fields.entries.foldl
        (fun total field => total + (field.1.length + field.2.length)) 0

end Value

/-- Nanoseconds of the steady clock. -/
abbrev TimePoint := Int64

/-- `now + ttl`, with `ttl` converted from milliseconds to nanoseconds. -/
def deadlineAfter (now : TimePoint) (ttl : Int64) : TimePoint :=
  now + ttl * 1000000

/-- A deadline that does not overflow is exact. -/
theorem toInt_deadlineAfter
    {now : TimePoint}
    {ttl : Int64}
    (lowProduct : -2 ^ 63 ≤ ttl.toInt * 1000000)
    (highProduct : ttl.toInt * 1000000 < 2 ^ 63)
    (low : -2 ^ 63 ≤ now.toInt + ttl.toInt * 1000000)
    (high : now.toInt + ttl.toInt * 1000000 < 2 ^ 63) :
    (deadlineAfter now ttl).toInt =
      now.toInt + ttl.toInt * 1000000 := by
  have product : (ttl * 1000000).toInt = ttl.toInt * 1000000 := by
    have million : (1000000 : Int64).toInt = 1000000 :=
      rfl
    rw [Int64.toInt_mul, million]
    exact Int.bmod_eq_of_le (by omega) (by omega)
  rw [deadlineAfter, Int64.toInt_add, product]
  exact Int.bmod_eq_of_le (by omega) (by omega)

/-- A value with its deadline, if it has one. -/
structure Entry where
  value : Value
  expiresAt : Option TimePoint

/-- `expires_at.has_value() && Clock::now() >= *expires_at`. -/
def Entry.isExpired (entry : Entry) (now : TimePoint) : Bool :=
  match entry.expiresAt with
  | none => false
  | some deadline => decide (deadline ≤ now)

/-- The map behind the store. -/
structure KvStore where
  data : ByteMap Entry

namespace KvStore

/-- A store with no key. -/
def empty : KvStore :=
  ⟨∅⟩

/-- The entry found by a lookup that treats expired keys as absent. -/
def liveEntry
    (store : KvStore)
    (now : TimePoint)
    (key : Bytes) :
    Option Entry :=
  match store.data.lookup key with
  | none => none
  | some entry => if entry.isExpired now then none else some entry

/-- Set a key; a duration of zero or less means no expiry. -/
def set
    (store : KvStore)
    (now : TimePoint)
    (key : Bytes)
    (value : Value)
    (ttl : Int64) :
    KvStore :=
  let expiresAt := if 0 < ttl then some (deadlineAfter now ttl) else none
  ⟨store.data.insert key ⟨value, expiresAt⟩⟩

/-- The value of a key, or nothing if it is missing or expired. -/
def get
    (store : KvStore)
    (now : TimePoint)
    (key : Bytes) :
    Option Value :=
  (store.liveEntry now key).map Entry.value

/-- Delete a key, expired or not, and say whether it was alive. -/
def del
    (store : KvStore)
    (now : TimePoint)
    (key : Bytes) :
    Int64 × KvStore :=
  match store.data.lookup key with
  | none => (0, store)
  | some entry =>
      (if entry.isExpired now then 0 else 1, ⟨store.data.erase key⟩)

/-- Whether a key exists and has not expired. -/
def exists?
    (store : KvStore)
    (now : TimePoint)
    (key : Bytes) :
    Bool :=
  (store.liveEntry now key).isSome

/-- Replace the deadline of a live key. -/
def expire
    (store : KvStore)
    (now : TimePoint)
    (key : Bytes)
    (ttl : Int64) :
    Bool × KvStore :=
  match store.liveEntry now key with
  | none => (false, store)
  | some entry =>
      (true, ⟨store.data.insert key
        { entry with expiresAt := some (deadlineAfter now ttl) }⟩)

/-- Remaining milliseconds, `-1` without expiry, `-2` without key. -/
def ttl
    (store : KvStore)
    (now : TimePoint)
    (key : Bytes) :
    Int64 :=
  match store.liveEntry now key with
  | none => -2
  | some entry =>
      match entry.expiresAt with
      | none => -1
      | some deadline => max 0 ((deadline - now) / 1000000)

/-- Remove the deadline of a live key. -/
def persist
    (store : KvStore)
    (now : TimePoint)
    (key : Bytes) :
    Bool × KvStore :=
  match store.liveEntry now key with
  | none => (false, store)
  | some entry =>
      (true, ⟨store.data.insert key { entry with expiresAt := none }⟩)

/-- Number of keys, with the expired ones not yet swept. -/
def size (store : KvStore) : Nat :=
  store.data.entries.length

/-- Bytes of keys and payloads. -/
def approxMemoryBytes (store : KvStore) : Nat :=
  store.data.entries.foldl
    (fun total item =>
      total + (item.1.length + item.2.value.payloadSize)) 0

/-- One pass of `run_expiry`. -/
def sweep (store : KvStore) (now : TimePoint) : KvStore :=
  ⟨⟨store.data.entries.filter fun item => !item.2.isExpired now,
    store.data.nodupKeys.sublist List.filter_sublist⟩⟩

section LiveEntries

/-- A live entry is stored and not expired. -/
theorem liveEntry_eq_some_iff
    {store : KvStore}
    {now : TimePoint}
    {key : Bytes}
    {entry : Entry} :
    store.liveEntry now key = some entry ↔
      store.data.lookup key = some entry ∧
        entry.isExpired now = false := by
  unfold liveEntry
  cases found : store.data.lookup key with
  | none =>
      simp
  | some stored =>
      cases expired : stored.isExpired now with
      | false =>
          simp only [expired, Bool.false_eq_true, if_false,
            Option.some.injEq]
          constructor
          · rintro rfl
            exact ⟨rfl, expired⟩
          · exact fun both => both.1
      | true =>
          simp only [expired, if_true, reduceCtorEq, Option.some.injEq,
            false_iff]
          rintro ⟨rfl, alive⟩
          simp [expired] at alive

/-- What a lookup sees after one key has been given a new entry. -/
theorem liveEntry_insert
    (store : KvStore)
    (now : TimePoint)
    (key other : Bytes)
    (entry : Entry) :
    (⟨store.data.insert key entry⟩ : KvStore).liveEntry now other =
      if other = key then
        if entry.isExpired now then none else some entry
      else
        store.liveEntry now other := by
  by_cases same : other = key
  · subst same
    simp [liveEntry]
  · simp [liveEntry, same]

/-- What a lookup sees after one key has been erased. -/
theorem liveEntry_erase
    (store : KvStore)
    (now : TimePoint)
    (key other : Bytes) :
    (⟨store.data.erase key⟩ : KvStore).liveEntry now other =
      if other = key then none else store.liveEntry now other := by
  by_cases same : other = key
  · subst same
    simp [liveEntry]
  · simp [liveEntry, same]

/-- A deletion hides the key and nothing else. -/
theorem liveEntry_del
    (store : KvStore)
    (now later : TimePoint)
    (key other : Bytes) :
    (store.del now key).2.liveEntry later other =
      if other = key then none else store.liveEntry later other := by
  unfold del
  cases found : store.data.lookup key with
  | none =>
      by_cases same : other = key
      · subst same
        simp [liveEntry, found]
      · simp [same]
  | some entry =>
      exact liveEntry_erase store later key other

/-- The reply of a deletion says whether the key was alive. -/
theorem del_fst
    (store : KvStore)
    (now : TimePoint)
    (key : Bytes) :
    (store.del now key).1 =
      if (store.liveEntry now key).isSome then 1 else 0 := by
  unfold del liveEntry
  cases store.data.lookup key with
  | none =>
      rfl
  | some entry =>
      cases expired : entry.isExpired now <;> simp [expired]

end LiveEntries

end KvStore

end Vortek

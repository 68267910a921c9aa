import Vortek.ClockShift
import Vortek.PlainCollections
import Vortek.StoredValues

namespace Vortek

open CallScript DecimalText

/-!
# Stored values seen as plain collections

The store represents a plain model when absent keys hold nothing there, and
present ones what their value stands for.  A `CollectionType` says how one
alternative of the value variant is seen in the plain model.

The collection handlers have one of three forms: they answer from the value
under a key, they store a changed one, or they store what is left of it unless
nothing is left.  Each form follows the plain model if the payloads do.
-/

/-- What a stored value stands for. -/
def Value.content : Value → Content
  | .string data => .string data
  | .list elements => .list elements
  | .set members => .set members.members.toFinset
  | .hash fields => .hash fields.toFinmap

/-- A map without keys is empty. -/
theorem toFinmap_eq_empty_iff
    {fields : ByteMap Bytes} :
    fields.toFinmap = ∅ ↔ fields.entries = [] := by
  constructor
  · intro nothing
    have entries : (AList.toFinmap fields).entries = 0 := by
      rw [nothing]
      rfl
    exact Multiset.coe_eq_zero _ |>.mp entries
  · intro nothing
    have same : fields = ∅ :=
      AList.ext nothing
    rw [same]
    rfl

/-- A value is an empty collection exactly when it stands for nothing. -/
theorem Value.isVacant_content
    (value : Value) :
    value.content.isVacant = value.isEmptyCollection := by
  cases value with
  | string data =>
      rfl
  | list elements =>
      rfl
  | set members =>
      obtain ⟨members, nodup⟩ := members
      cases members with
      | nil =>
          rfl
      | cons member later =>
          simp [content, Content.isVacant, isEmptyCollection]
  | hash fields =>
      simp only [content, Content.isVacant, isEmptyCollection,
        toFinmap_eq_empty_iff]
      cases fields.entries <;> simp

/-- What is found under a key is what the plain model has there. -/
def Matches : Option Value → Content → Prop
  | none, content => content.isVacant = true
  | some value, content =>
      value.content = content ∧ content.isVacant = false

/-- The store has no deadlines and stands for the plain contents. -/
structure KvStore.Represents (store : KvStore) (plain : PlainStore) : Prop where
  noDeadlines : store.NoDeadlines
  matching :
    ∀ key, Matches ((store.data.lookup key).map Entry.value) (plain key)

namespace KvStore.Represents

variable {store : KvStore} {plain : PlainStore} {key : Bytes}

theorem empty : KvStore.empty.Represents PlainStore.empty where
  noDeadlines := noDeadlines_empty
  matching := fun _ => rfl

/-- What a lookup finds, at whatever time. -/
theorem get
    (represents : store.Represents plain)
    (now : TimePoint)
    (key : Bytes) :
    Matches (store.get now key) (plain key) := by
  rw [KvStore.get, represents.noDeadlines.liveEntry_eq]
  exact represents.matching key

/-- Nothing is found exactly where the plain model has nothing. -/
theorem exists?_eq
    (represents : store.Represents plain)
    (now : TimePoint)
    (key : Bytes) :
    store.exists? now key = !(plain key).isVacant := by
  have found := represents.get now key
  rw [KvStore.get] at found
  rw [KvStore.exists?]
  cases live : store.liveEntry now key with
  | none =>
      rw [live] at found
      rw [(found : (plain key).isVacant = true)]
      rfl
  | some entry =>
      rw [live] at found
      rw [found.2]
      rfl

/-- A stored value that is not empty. -/
theorem set
    (represents : store.Represents plain)
    {value : Value}
    {content : Content}
    (stands : value.content = content)
    (full : content.isVacant = false)
    (now : TimePoint) :
    (store.set now key value 0).Represents
      (Function.update plain key content) := by
  refine ⟨represents.noDeadlines.insert rfl key, fun other => ?_⟩
  change Matches
    ((AList.lookup other (store.data.insert key ⟨value, none⟩)).map
      Entry.value) _
  by_cases same : other = key
  · subst same
    rw [AList.lookup_insert, Function.update_self]
    exact ⟨stands, full⟩
  · rw [AList.lookup_insert_ne same, Function.update_of_ne same]
    exact represents.matching other

/-- A deleted key. -/
theorem del
    (represents : store.Represents plain)
    {content : Content}
    (vacant : content.isVacant = true)
    (now : TimePoint) :
    (store.del now key).2.Represents
      (Function.update plain key content) := by
  refine ⟨represents.noDeadlines.del now key, fun other => ?_⟩
  have lookup := store.liveEntry_del now now key other
  rw [(represents.noDeadlines.del now key).liveEntry_eq,
    represents.noDeadlines.liveEntry_eq] at lookup
  rw [lookup]
  by_cases same : other = key
  · subst same
    rw [if_pos rfl, Function.update_self]
    exact vacant
  · rw [if_neg same, Function.update_of_ne same]
    exact represents.matching other

/-- Nothing put where there is nothing. -/
theorem vacate
    (represents : store.Represents plain)
    {content : Content}
    {now : TimePoint}
    (missing : store.get now key = none)
    (vacant : content.isVacant = true) :
    store.Represents (Function.update plain key content) := by
  refine ⟨represents.noDeadlines, fun other => ?_⟩
  by_cases same : other = key
  · subst same
    rw [Function.update_self]
    rw [KvStore.get, represents.noDeadlines.liveEntry_eq] at missing
    rw [missing]
    exact vacant
  · rw [Function.update_of_ne same]
    exact represents.matching other

end KvStore.Represents

/-- A reply that the plain model allows, and the contents it says. -/
structure Follows
    (outcome : Except CppException RespValue × Backend)
    (reference : Reply × PlainStore) :
    Prop where
  answered : ∃ reply, outcome.1 = .ok reply ∧ reference.1.Allows reply
  represents : outcome.2.store.Represents reference.2

/-- One alternative of the value variant as a collection of the plain model. -/
structure CollectionType (Payload Collection : Type) where
  type : ValueType Payload
  meaning : Payload → Collection
  view : Content → Option Collection
  wrap : Collection → Content
  nothing : Collection
  content_wrap :
    ∀ payload, (type.wrap payload).content = wrap (meaning payload)
  view_wrap : ∀ collection, view (wrap collection) = some collection
  view_vacant :
    ∀ content, content.isVacant = true → view content = some nothing
  view_other :
    ∀ value : Value,
      value.kind ≠ type.kind →
      value.content.isVacant = false →
      view value.content = none

/-- Lists, read as lists. -/
def listCollection : CollectionType (List Bytes) (List Bytes) where
  type := listType
  meaning := id
  view := Content.asList
  wrap := .list
  nothing := []
  content_wrap _ := rfl
  view_wrap _ := rfl
  view_vacant content vacant := by
    cases content <;> simp_all [Content.asList, Content.isVacant]
  view_other value other full := by
    cases value <;>
      simp_all [Value.content, Content.asList, Value.kind, listType]

/-- Sets, read as the finite sets of their members. -/
def setCollection : CollectionType ByteSet (Finset Bytes) where
  type := setType
  meaning set := set.members.toFinset
  view := Content.asSet
  wrap := .set
  nothing := ∅
  content_wrap _ := rfl
  view_wrap _ := rfl
  view_vacant content vacant := by
    cases content <;> simp_all [Content.asSet, Content.isVacant]
  view_other value other full := by
    cases value <;>
      simp_all [Value.content, Content.asSet, Value.kind, setType]

/-- Hashes, read as finite maps from fields to values. -/
def hashCollection :
    CollectionType (ByteMap Bytes) (Finmap fun _ : Bytes => Bytes) where
  type := hashType
  meaning := AList.toFinmap
  view := Content.asHash
  wrap := .hash
  nothing := ∅
  content_wrap _ := rfl
  view_wrap _ := rfl
  view_vacant content vacant := by
    cases content <;> simp_all [Content.asHash, Content.isVacant]
  view_other value other full := by
    cases value <;>
      simp_all [Value.content, Content.asHash, Value.kind, hashType]

section Forms

variable {Payload Collection : Type}
variable (types : CollectionType Payload Collection)
variable {now : TimePoint} {backend : Backend} {plain : PlainStore}
variable {key : Bytes}

theorem follows_pure
    {reply : RespValue}
    {wanted : Reply}
    (represents : backend.store.Represents plain)
    (allows : wanted.Allows reply) :
    Follows (backend.exec now (pure reply)) (wanted, plain) :=
  ⟨⟨reply, rfl, allows⟩, represents⟩

/-- Access to a key, as the model has it. -/
theorem follows_withTyped
    {absent : Program RespValue}
    {present : Payload → Program RespValue}
    {respond : Collection → Reply × PlainStore}
    (represents : backend.store.Represents plain)
    (missing :
      backend.store.get now key = none →
      Follows (backend.exec now absent) (respond types.nothing))
    (found :
      ∀ payload,
        plain key = types.wrap (types.meaning payload) →
        (types.wrap (types.meaning payload)).isVacant = false →
        Follows (backend.exec now (present payload))
          (respond (types.meaning payload))) :
    Follows (backend.exec now (withTyped types.type key absent present))
      (PlainStore.access types.view plain key respond) := by
  have seen := represents.get now key
  unfold PlainStore.access
  cases live : backend.store.get now key with
  | none =>
      rw [live] at seen
      rw [exec_withTyped_absent live, types.view_vacant _ seen]
      exact missing live
  | some value =>
      rw [live] at seen
      obtain ⟨stands, full⟩ := seen
      cases test : types.type.holds value with
      | true =>
          obtain ⟨payload, rfl, read⟩ :=
            types.type.payload_wrap value test
          rw [types.content_wrap] at stands
          rw [exec_withTyped_present live test read, ← stands,
            types.view_wrap]
          exact found payload stands.symm (stands ▸ full)
      | false =>
          have other : value.kind ≠ types.type.kind := by
            intro same
            rw [(types.type.holds_iff value).mpr same] at test
            cases test
          rw [← stands] at full
          rw [exec_of_guarded guarded_withTyped live other, ← stands,
            types.view_other value other full]
          exact ⟨⟨kWrongType, rfl, rfl⟩, represents⟩

/-- A handler that only answers. -/
theorem follows_query
    {reply : RespValue}
    {present : Payload → Program RespValue}
    {answer : Collection → Reply}
    (represents : backend.store.Represents plain)
    (missing : (answer types.nothing).Allows reply)
    (found :
      ∀ payload,
        plain key = types.wrap (types.meaning payload) →
        ∃ reply,
          present payload = pure reply ∧
            (answer (types.meaning payload)).Allows reply) :
    Follows (backend.exec now (readTyped types.type key reply present))
      (PlainStore.query types.view plain key answer) := by
  refine follows_withTyped types represents
    (fun _ => follows_pure represents missing) ?_
  intro payload holds _
  obtain ⟨reply, returns, allows⟩ := found payload holds
  rw [returns]
  exact follows_pure represents allows

/-- A handler that stores a changed collection, which is not empty. -/
theorem follows_grow
    {fresh : Payload}
    (changed : Payload → Payload)
    (reply : Payload → RespValue)
    {change : Collection → Reply × Collection}
    (represents : backend.store.Represents plain)
    (nothing : types.meaning fresh = types.nothing)
    (meaning :
      ∀ payload,
        types.meaning (changed payload) =
          (change (types.meaning payload)).2)
    (full :
      ∀ payload,
        (types.type.wrap (changed payload)).isEmptyCollection = false)
    (allows :
      ∀ payload,
        (change (types.meaning payload)).1.Allows (reply payload)) :
    Follows
      (backend.exec now
        (getOrCreate types.type key fresh fun payload => do
          Program.set key (types.type.wrap (changed payload)) 0
          return reply payload))
      (PlainStore.update types.view types.wrap plain key change) := by
  have stores
      (payload : Payload) :
      Follows
        (backend.exec now (do
          Program.set key (types.type.wrap (changed payload)) 0
          return reply payload))
        ((change (types.meaning payload)).1,
          Function.update plain key
            (types.wrap (change (types.meaning payload)).2)) := by
    refine ⟨⟨reply payload, rfl, allows payload⟩, ?_⟩
    have stands := types.content_wrap (changed payload)
    rw [meaning] at stands
    refine represents.set stands ?_ now
    rw [← stands, Value.isVacant_content]
    exact full payload
  refine follows_withTyped types represents (fun _ => ?_)
    fun payload _ _ => stores payload
  rw [← nothing]
  exact stores fresh

/-- A handler that stores what is left, or deletes the key. -/
theorem follows_shrink
    {reply : RespValue}
    {present : Payload → Program RespValue}
    {change : Collection → Reply × Collection}
    (represents : backend.store.Represents plain)
    (missing : (change types.nothing).1.Allows reply)
    (vacant : (types.wrap (change types.nothing).2).isVacant = true)
    (found :
      ∀ payload,
        (types.wrap (types.meaning payload)).isVacant = false →
        ∃ left reply,
          present payload =
              (storeOrDelete key
                  (types.type.wrap left).isEmptyCollection
                  (types.type.wrap left) >>=
                fun _ => pure reply) ∧
            types.meaning left = (change (types.meaning payload)).2 ∧
            (change (types.meaning payload)).1.Allows reply) :
    Follows (backend.exec now (readTyped types.type key reply present))
      (PlainStore.update types.view types.wrap plain key change) := by
  refine follows_withTyped types represents ?_ ?_
  · intro absent
    exact ⟨⟨reply, rfl, missing⟩, represents.vacate absent vacant⟩
  · intro payload _ full
    obtain ⟨left, reply, returns, meaning, allows⟩ := found payload full
    have stands := types.content_wrap left
    rw [meaning] at stands
    have vacancy := Value.isVacant_content (types.type.wrap left)
    rw [stands] at vacancy
    rw [returns, ← vacancy]
    cases left : (types.wrap (change (types.meaning payload)).2).isVacant
    · exact ⟨⟨reply, rfl, allows⟩, represents.set stands left now⟩
    · exact ⟨⟨reply, rfl, allows⟩, represents.del left now⟩

end Forms

end Vortek

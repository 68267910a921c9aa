import Mathlib.Data.Finmap
import Mathlib.Data.Finset.Card
import Vortek.StringCommands

namespace Vortek

open DecimalText

/-!
# A plain model of collections

In the plain model every key holds a string, a sequence, a finite set or a
finite map, and nothing is ever created or deleted: a key without a value holds
an empty collection, and an empty collection of one type passes for the empty
collection of any other.  The commands of the model say what their replies are
in terms of these objects.  The order in which the members of a set and the
fields of a map are listed is left open.
-/

/-- What a key holds. -/
inductive Content where
  | string (data : Bytes)
  | list (elements : List Bytes)
  | set (members : Finset Bytes)
  | hash (fields : Finmap fun _ : Bytes => Bytes)

namespace Content

/-- An empty collection of any type: the key is absent. -/
def isVacant : Content → Bool
  | .string _ => false
  | .list elements => elements.isEmpty
  | .set members => decide (members = ∅)
  | .hash fields => decide (fields = ∅)

/-- The content as a sequence, unless it is something else. -/
def asList : Content → Option (List Bytes)
  | .list elements => some elements
  | content => if content.isVacant then some [] else none

/-- The content as a set, unless it is something else. -/
def asSet : Content → Option (Finset Bytes)
  | .set members => some members
  | content => if content.isVacant then some ∅ else none

/-- The content as a map, unless it is something else. -/
def asHash : Content → Option (Finmap fun _ : Bytes => Bytes)
  | .hash fields => some fields
  | content => if content.isVacant then some ∅ else none

end Content

/-- A reply of the plain model, up to the order of members and fields. -/
inductive Reply where
  | exactly (value : RespValue)
  | members (members : Finset Bytes)
  | fields (fields : Finmap fun _ : Bytes => Bytes)

/-- The array that lists members. -/
def memberArray (members : List Bytes) : RespValue :=
  .array (members.map .bulkString)

/-- The array that lists fields, each followed by its value. -/
def fieldArray (fields : ByteMap Bytes) : RespValue :=
  .array ((fields.entries.flatMap fun item =>
    [item.1, item.2]).map .bulkString)

/-- The actual reply is the described one, in some order. -/
def Reply.Allows : Reply → RespValue → Prop
  | .exactly value, actual => actual = value
  | .members wanted, actual =>
      ∃ listed : List Bytes,
        listed.Nodup ∧ listed.toFinset = wanted ∧
          actual = memberArray listed
  | .fields wanted, actual =>
      ∃ listed : ByteMap Bytes,
        listed.toFinmap = wanted ∧ actual = fieldArray listed

/-- A count as a reply. -/
def Reply.count (number : Nat) : Reply :=
  .exactly (.integer (toInt64 number))

/-- Whether something holds, as a reply. -/
def Reply.truth (holds : Bool) : Reply :=
  .exactly (.integer (if holds then 1 else 0))

/-- An element that may be missing, as a reply. -/
def Reply.element : Option Bytes → Reply
  | none => .exactly .null
  | some element => .exactly (.bulkString element)

/-- An index argument: a text that is a whole `int64_t`. -/
structure Index where
  text : Bytes
  value : Int64
  reads : wholeInt64? text = some value

/-- Flags of SET among which no expiry is given. -/
structure PlainFlags where
  texts : List Bytes
  plain :
    ∀ flag ∈ texts, upper flag ≠ ascii "EX" ∧ upper flag ≠ ascii "PX"

/-- Commands on collections, and on whole keys, with the arguments they need. -/
inductive CollectionCommand where
  | lpush (key first : Bytes) (more : List Bytes)
  | rpush (key first : Bytes) (more : List Bytes)
  | lpop (key : Bytes)
  | rpop (key : Bytes)
  | llen (key : Bytes)
  | lrange (key : Bytes) (start stop : Index)
  | lindex (key : Bytes) (index : Index)
  | sadd (key first : Bytes) (more : List Bytes)
  | srem (key first : Bytes) (more : List Bytes)
  | smembers (key : Bytes)
  | sismember (key member : Bytes)
  | scard (key : Bytes)
  | hset (key field value : Bytes) (more : List (Bytes × Bytes))
  | hget (key field : Bytes)
  | hdel (key first : Bytes) (more : List Bytes)
  | hgetall (key : Bytes)
  | hexists (key field : Bytes)
  | hlen (key : Bytes)
  | set (key value : Bytes) (flags : PlainFlags)
  | del (first : Bytes) (more : List Bytes)
  | exists? (first : Bytes) (more : List Bytes)

/-- The command as the client sends it. -/
def CollectionCommand.toCommand : CollectionCommand → Command
  | .lpush key first more => ⟨ascii "LPUSH", key :: first :: more⟩
  | .rpush key first more => ⟨ascii "RPUSH", key :: first :: more⟩
  | .lpop key => ⟨ascii "LPOP", [key]⟩
  | .rpop key => ⟨ascii "RPOP", [key]⟩
  | .llen key => ⟨ascii "LLEN", [key]⟩
  | .lrange key start stop =>
      ⟨ascii "LRANGE", [key, start.text, stop.text]⟩
  | .lindex key index => ⟨ascii "LINDEX", [key, index.text]⟩
  | .sadd key first more => ⟨ascii "SADD", key :: first :: more⟩
  | .srem key first more => ⟨ascii "SREM", key :: first :: more⟩
  | .smembers key => ⟨ascii "SMEMBERS", [key]⟩
  | .sismember key member => ⟨ascii "SISMEMBER", [key, member]⟩
  | .scard key => ⟨ascii "SCARD", [key]⟩
  | .hset key field value more =>
      ⟨ascii "HSET", key :: field :: value ::
        more.flatMap fun pair => [pair.1, pair.2]⟩
  | .hget key field => ⟨ascii "HGET", [key, field]⟩
  | .hdel key first more => ⟨ascii "HDEL", key :: first :: more⟩
  | .hgetall key => ⟨ascii "HGETALL", [key]⟩
  | .hexists key field => ⟨ascii "HEXISTS", [key, field]⟩
  | .hlen key => ⟨ascii "HLEN", [key]⟩
  | .set key value flags => ⟨ascii "SET", key :: value :: flags.texts⟩
  | .del first more => ⟨ascii "DEL", first :: more⟩
  | .exists? first more => ⟨ascii "EXISTS", first :: more⟩

/-- The position of an index; negative ones count from the end. -/
def position (length : Nat) (index : Int64) : Int :=
  if index.toInt < 0 then index.toInt + length else index.toInt

/-- The elements from one index to another, both included. -/
def slice (elements : List Bytes) (start stop : Int64) : List Bytes :=
  (elements.take (position elements.length stop + 1).toNat).drop
    (position elements.length start).toNat

/-- The element at an index. -/
def elementAtIndex (elements : List Bytes) (index : Int64) : Option Bytes :=
  if position elements.length index < 0 then
    none
  else
    elements[(position elements.length index).toNat]?

/-- Contents by key. -/
abbrev PlainStore := Bytes → Content

namespace PlainStore

/-- Nothing anywhere. -/
def empty : PlainStore :=
  fun _ => .list []

/-- Use the collection under a key, if it is of the right type. -/
def access
    {Collection : Type}
    (view : Content → Option Collection)
    (store : PlainStore)
    (key : Bytes)
    (present : Collection → Reply × PlainStore) :
    Reply × PlainStore :=
  match view (store key) with
  | none => (.exactly kWrongType, store)
  | some collection => present collection

/-- Answer from the collection under a key. -/
def query
    {Collection : Type}
    (view : Content → Option Collection)
    (store : PlainStore)
    (key : Bytes)
    (answer : Collection → Reply) :
    Reply × PlainStore :=
  access view store key fun collection => (answer collection, store)

/-- Replace the collection under a key. -/
def update
    {Collection : Type}
    (view : Content → Option Collection)
    (wrap : Collection → Content)
    (store : PlainStore)
    (key : Bytes)
    (change : Collection → Reply × Collection) :
    Reply × PlainStore :=
  access view store key fun collection =>
    ((change collection).1,
      Function.update store key (wrap (change collection).2))

/-- SET with NX and XX but no expiry. -/
def assign
    (store : PlainStore)
    (key value : Bytes)
    (flags : List Bytes) :
    Reply × PlainStore :=
  let nx := flags.any fun flag => upper flag = ascii "NX"
  let xx := flags.any fun flag => upper flag = ascii "XX"
  let known := flags.all fun flag =>
    upper flag = ascii "NX" || upper flag = ascii "XX"
  let vacant := (store key).isVacant
  if !known then
    (.exactly (err "ERR syntax error"), store)
  else if nx && xx then
    (.exactly
      (err "ERR XX and NX options at the same time are not compatible"),
      store)
  else if nx && !vacant || xx && vacant then
    (.exactly .null, store)
  else
    (.exactly (.simpleString (ascii "OK")),
      Function.update store key (.string value))

/-- DEL: how many of the keys held something, each counted once. -/
def remove (store : PlainStore) (keys : List Bytes) : Reply × PlainStore :=
  (.count (keys.toFinset.filter fun key => !(store key).isVacant).card,
    fun key => if key ∈ keys then .list [] else store key)

/-- EXISTS: how many of the keys hold something, repetitions included. -/
def countPresent (store : PlainStore) (keys : List Bytes) : Reply :=
  .count (keys.filter fun key => !(store key).isVacant).length

/-- What a command answers, and the contents after it. -/
def apply (store : PlainStore) : CollectionCommand → Reply × PlainStore
  | .lpush key first more =>
      update Content.asList .list store key fun elements =>
        let pushed := (first :: more).reverse ++ elements
        (.count pushed.length, pushed)
  | .rpush key first more =>
      update Content.asList .list store key fun elements =>
        let pushed := elements ++ first :: more
        (.count pushed.length, pushed)
  | .lpop key =>
      update Content.asList .list store key fun elements =>
        (.element elements.head?, elements.tail)
  | .rpop key =>
      update Content.asList .list store key fun elements =>
        (.element elements.getLast?, elements.dropLast)
  | .llen key =>
      query Content.asList store key fun elements =>
        .count elements.length
  | .lrange key start stop =>
      query Content.asList store key fun elements =>
        .exactly (memberArray (slice elements start.value stop.value))
  | .lindex key index =>
      query Content.asList store key fun elements =>
        .element (elementAtIndex elements index.value)
  | .sadd key first more =>
      update Content.asSet .set store key fun members =>
        let grown := members ∪ (first :: more).toFinset
        (.count (grown.card - members.card), grown)
  | .srem key first more =>
      update Content.asSet .set store key fun members =>
        let shrunk := members \ (first :: more).toFinset
        (.count (members.card - shrunk.card), shrunk)
  | .smembers key =>
      query Content.asSet store key fun members => .members members
  | .sismember key member =>
      query Content.asSet store key fun members =>
        .truth (decide (member ∈ members))
  | .scard key =>
      query Content.asSet store key fun members => .count members.card
  | .hset key field value more =>
      update Content.asHash .hash store key fun fields =>
        let grown := ((field, value) :: more).foldl
          (fun hash pair => hash.insert pair.1 pair.2) fields
        (.count (grown.keys.card - fields.keys.card), grown)
  | .hget key field =>
      query Content.asHash store key fun fields =>
        .element (fields.lookup field)
  | .hdel key first more =>
      update Content.asHash .hash store key fun fields =>
        let shrunk := (first :: more).foldl
          (fun hash field => hash.erase field) fields
        (.count (fields.keys.card - shrunk.keys.card), shrunk)
  | .hgetall key =>
      query Content.asHash store key fun fields => .fields fields
  | .hexists key field =>
      query Content.asHash store key fun fields =>
        .truth (fields.lookup field).isSome
  | .hlen key =>
      query Content.asHash store key fun fields =>
        .count fields.keys.card
  | .set key value flags => store.assign key value flags.texts
  | .del first more => store.remove (first :: more)
  | .exists? first more => (store.countPresent (first :: more), store)

/-- The replies to some commands, and the contents after them. -/
def applyAll :
    PlainStore → List CollectionCommand → List Reply × PlainStore
  | store, [] => ([], store)
  | store, command :: later =>
      let outcome := store.apply command
      let rest := applyAll outcome.2 later
      (outcome.1 :: rest.1, rest.2)

end PlainStore

end Vortek

import Vortek.Backend

namespace Vortek

open CallScript

/-!
# Commands and the parts that handlers share

`parseCommand` reads a command from a RESP value.  The error replies that every
handler file defines for itself are given once, and so is the access to a value
of one type: the list, set and hash files repeat it word for word, with the
type as the only difference.
-/

/-- A client command: its name in upper case and its arguments. -/
structure Command where
  name : Bytes
  args : List Bytes
  deriving DecidableEq, Repr

/-- The bytes of bulk strings, if all the values are bulk strings. -/
def bulkArguments : List RespValue → Option (List Bytes)
  | [] => some []
  | .bulkString argument :: rest =>
      (bulkArguments rest).map (argument :: ·)
  | _ :: _ => none

/-- Read a command from a non-empty array of bulk strings. -/
def parseCommand : RespValue → Option Command
  | .array (.bulkString name :: rest) =>
      (bulkArguments rest).map fun args => ⟨upper name, args⟩
  | _ => none

/-- The array of bulk strings that a client sends for a command. -/
def Command.toResp (command : Command) : RespValue :=
  .array ((command.name :: command.args).map .bulkString)

/-- A program that answers a command. -/
abbrev Handler := Command → Program RespValue

/-- The only exception of a handler: a variant access of the wrong type. -/
def BadAccess (exception : CppException) : Prop :=
  exception = .badVariantAccess

/-- No exception at all. -/
def NoThrow (_ : CppException) : Prop :=
  False

/-- An error reply with a fixed text. -/
def err (message : String) : RespValue :=
  .error (ascii message)

/-- `wrong_args`, which names the command. -/
def wrongArgs (name : Bytes) : RespValue :=
  .error (ascii "ERR wrong number of arguments for '" ++ name ++
    ascii "' command")

/-- The reply to a command on a key of another type. -/
def kWrongType : RespValue :=
  err "WRONGTYPE Operation against a key holding the wrong kind of value"

/-- The reply to an argument or a string that is not a number. -/
def notAnInteger : RespValue :=
  err "ERR value is not an integer or out of range"

/-- The alternatives of the value variant. -/
inductive Kind where
  | string
  | list
  | set
  | hash
  deriving DecidableEq, Repr

/-- The type of a value. -/
def Value.kind : Value → Kind
  | .string _ => .string
  | .list _ => .list
  | .set _ => .set
  | .hash _ => .hash

/--
One alternative of the value variant, as the collection commands use it: the
test, the accessor and the constructor.  The accessor does not throw on what
the test lets through.
-/
structure ValueType (Payload : Type) where
  kind : Kind
  holds : Value → Bool
  payload : Value → Except CppException Payload
  wrap : Payload → Value
  holds_iff : ∀ value, holds value = true ↔ value.kind = kind
  payload_wrap :
    ∀ value,
      holds value = true →
      ∃ content, value = wrap content ∧ payload value = .ok content

/-- Values that are lists. -/
def listType : ValueType (List Bytes) where
  kind := .list
  holds := Value.isList
  payload := Value.asList
  wrap := .list
  holds_iff value := by
    cases value <;> simp [Value.isList, Value.kind]
  payload_wrap value test := by
    cases value <;> simp_all [Value.isList, Value.asList]

/-- Values that are sets. -/
def setType : ValueType ByteSet where
  kind := .set
  holds := Value.isSet
  payload := Value.asSet
  wrap := .set
  holds_iff value := by
    cases value <;> simp [Value.isSet, Value.kind]
  payload_wrap value test := by
    cases value <;> simp_all [Value.isSet, Value.asSet]

/-- Values that are hashes. -/
def hashType : ValueType (ByteMap Bytes) where
  kind := .hash
  holds := Value.isHash
  payload := Value.asHash
  wrap := .hash
  holds_iff value := by
    cases value <;> simp [Value.isHash, Value.kind]
  payload_wrap value test := by
    cases value <;> simp_all [Value.isHash, Value.asHash]

/--
Access a key of one type: the given program for a missing key, WRONGTYPE for a
key of another type, and otherwise the handler's own part.
-/
def withTyped
    {Payload : Type}
    (type : ValueType Payload)
    (key : Bytes)
    (absent : Program RespValue)
    (present : Payload → Program RespValue) :
    Program RespValue := do
  match ← Program.get key with
  | none => absent
  | some value =>
      if type.holds value then
        let content ← Script.ofExcept (type.payload value)
        present content
      else
        return kWrongType

/-- Access with a fixed reply for a missing key. -/
def readTyped
    {Payload : Type}
    (type : ValueType Payload)
    (key : Bytes)
    (absent : RespValue)
    (present : Payload → Program RespValue) :
    Program RespValue :=
  withTyped type key (pure absent) present

/--
`get_or_create_list`, `get_or_create_set` and `get_or_create_hash`: a missing
key is an empty collection.
-/
def getOrCreate
    {Payload : Type}
    (type : ValueType Payload)
    (key : Bytes)
    (fresh : Payload)
    (present : Payload → Program RespValue) :
    Program RespValue :=
  withTyped type key (present fresh) present

/-- Store a collection, or delete its key when it has become empty. -/
def storeOrDelete
    (key : Bytes)
    (isEmpty : Bool)
    (value : Value) :
    Program Unit :=
  if isEmpty then do
    let _ ← Program.del key
    return ()
  else
    Program.set key value 0

section Parsing

theorem bulkArguments_eq_some_iff
    {values : List RespValue}
    {arguments : List Bytes} :
    bulkArguments values = some arguments ↔
      values = arguments.map .bulkString := by
  induction values generalizing arguments with
  | nil =>
      cases arguments <;> simp [bulkArguments]
  | cons value values inductionHypothesis =>
      cases value <;> cases arguments <;>
        simp [bulkArguments, inductionHypothesis, and_comm]

/-- A command comes from an array of bulk strings, its name upper-cased. -/
theorem parseCommand_eq_some_iff
    {value : RespValue}
    {command : Command} :
    parseCommand value = some command ↔
      ∃ name,
        value =
            .array (.bulkString name :: command.args.map .bulkString) ∧
          command.name = upper name := by
  obtain ⟨title, arguments⟩ := command
  constructor
  · intro parsed
    unfold parseCommand at parsed
    split at parsed
    · rename_i name rest
      obtain ⟨found, read, same⟩ := Option.map_eq_some_iff.mp parsed
      cases same
      exact ⟨name, by rw [bulkArguments_eq_some_iff.mp read], rfl⟩
    · cases parsed
  · rintro ⟨name, rfl, same⟩
    have read :
        bulkArguments (arguments.map .bulkString) = some arguments :=
      bulkArguments_eq_some_iff.mpr rfl
    simp only at same
    simp [parseCommand, read, same]

/-- A command whose name is in upper case survives its wire form. -/
theorem parseCommand_toResp
    {command : Command}
    (capital : upper command.name = command.name) :
    parseCommand command.toResp = some command :=
  parseCommand_eq_some_iff.mpr ⟨command.name, rfl, capital.symm⟩

/-- Parsed names are in upper case. -/
theorem upper_name_of_parseCommand
    {value : RespValue}
    {command : Command}
    (parsed : parseCommand value = some command) :
    upper command.name = command.name := by
  obtain ⟨name, -, same⟩ := parseCommand_eq_some_iff.mp parsed
  rw [same, upper_upper]

end Parsing

section Replies

@[simp] theorem lineSafe_wrongArgs_iff
    {name : Bytes} :
    (wrongArgs name).LineSafe ↔ CrlfFree name :=
  crlfFree_quoted_iff (by decide) (by decide) (by decide)

theorem lineSafe_err
    {message : String}
    (clear : CrlfFree (ascii message)) :
    (err message).LineSafe :=
  clear

@[simp] theorem lineSafe_kWrongType :
    kWrongType.LineSafe :=
  lineSafe_err (by decide)

@[simp] theorem lineSafe_notAnInteger :
    notAnInteger.LineSafe :=
  lineSafe_err (by decide)

end Replies

section TypedAccess

variable {Payload : Type} {type : ValueType Payload} {key : Bytes}
variable {allowed : Call → Prop} {returned : RespValue → Prop}
variable {raised : CppException → Prop}

/-- Access to a typed value is safe when all its three endings are. -/
theorem always_withTyped
    {absent : Program RespValue}
    {present : Payload → Program RespValue}
    (mayGet : allowed (.get key))
    (wrongSafe : returned kWrongType)
    (absentSafe : absent.Always allowed returned raised)
    (presentSafe :
      ∀ content, (present content).Always allowed returned raised) :
    (withTyped type key absent present).Always
      allowed returned raised := by
  refine ⟨mayGet, fun answer => ?_⟩
  cases answer with
  | none =>
      exact absentSafe
  | some value =>
      change Script.Always allowed returned raised
        (if type.holds value then _ else _)
      split
      · rename_i test
        obtain ⟨content, -, read⟩ := type.payload_wrap value test
        rw [read]
        exact presentSafe content
      · exact wrongSafe

/-- Storing or deleting a key is allowed where both are. -/
theorem always_storeOrDelete_bind
    {isEmpty : Bool}
    {value : Value}
    {reply : RespValue}
    (maySet : allowed (.set key value 0))
    (mayDel : allowed (.del key))
    (replySafe : returned reply) :
    (storeOrDelete key isEmpty value >>= fun _ => pure reply).Always
      allowed returned raised := by
  cases isEmpty
  · exact ⟨maySet, fun _ => replySafe⟩
  · exact ⟨mayDel, fun _ => replySafe⟩

/-- The program starts by reading a key, and refuses values of other types. -/
def Guarded (kind : Kind) (key : Bytes) (program : Program RespValue) :
    Prop :=
  ∃ resume : Option Value → Program RespValue,
    program = .call (.get key) resume ∧
      ∀ value, value.kind ≠ kind → resume (some value) = pure kWrongType

theorem guarded_withTyped
    {absent : Program RespValue}
    {present : Payload → Program RespValue} :
    Guarded type.kind key (withTyped type key absent present) := by
  refine ⟨_, rfl, fun value other => ?_⟩
  have refused : type.holds value = false := by
    simpa using mt (type.holds_iff value).mp other
  change (if type.holds value then _ else _) = _
  rw [refused]
  rfl

/-- On a live key of another type a guarded program answers WRONGTYPE. -/
theorem exec_of_guarded
    {kind : Kind}
    {program : Program RespValue}
    {now : TimePoint}
    {backend : Backend}
    {value : Value}
    (guarded : Guarded kind key program)
    (live : backend.store.get now key = some value)
    (other : value.kind ≠ kind) :
    backend.exec now program = (.ok kWrongType, backend) := by
  obtain ⟨resume, rfl, refuses⟩ := guarded
  change Script.run _ (resume (backend.store.get now key)) backend = _
  rw [live, refuses value other]
  rfl

/-- A missing key takes the first branch. -/
theorem exec_withTyped_absent
    {absent : Program RespValue}
    {present : Payload → Program RespValue}
    {now : TimePoint}
    {backend : Backend}
    (missing : backend.store.get now key = none) :
    backend.exec now (withTyped type key absent present) =
      backend.exec now absent := by
  change Script.run _
    (match backend.store.get now key with
      | none => absent
      | some value => _) backend = _
  rw [missing]
  rfl

/-- A live key of the right type is handed over with its content. -/
theorem exec_withTyped_present
    {absent : Program RespValue}
    {present : Payload → Program RespValue}
    {now : TimePoint}
    {backend : Backend}
    {value : Value}
    {content : Payload}
    (live : backend.store.get now key = some value)
    (test : type.holds value = true)
    (read : type.payload value = .ok content) :
    backend.exec now (withTyped type key absent present) =
      backend.exec now (present content) := by
  change Script.run _
    (match backend.store.get now key with
      | none => absent
      | some value =>
          if type.holds value then
            Script.ofExcept (type.payload value) >>= present
          else
            pure kWrongType) backend = _
  rw [live]
  simp only [test, if_true, read]
  rfl

end TypedAccess

end Vortek

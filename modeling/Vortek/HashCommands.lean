import Vortek.Command

namespace Vortek

open CallScript

/-!
# Hash commands

The handlers of `hash_cmds.cpp`.
-/

/-- The loop of HSET over field/value pairs, counting the new fields. -/
def assignFields :
    ByteMap Bytes → List Bytes → ByteMap Bytes × Int64
  | hash, field :: value :: later =>
      let rest := assignFields (hash.insert field value) later
      if (hash.lookup field).isSome then rest else (rest.1, rest.2 + 1)
  | hash, _ => (hash, 0)

/-- The loop of HDEL: erase the fields, counting the ones found. -/
def eraseFields :
    ByteMap Bytes → List Bytes → ByteMap Bytes × Int64
  | hash, [] => (hash, 0)
  | hash, field :: later =>
      let rest := eraseFields (hash.erase field) later
      if (hash.lookup field).isSome then (rest.1, rest.2 + 1) else rest

/-- HSET key field value [field value ...]. -/
def cmdHset : Handler := fun cmd =>
  match cmd.args with
  | key :: field :: value :: more =>
      if more.length % 2 = 0 then
        getOrCreate hashType key ∅ fun hash => do
          let assigned := assignFields hash (field :: value :: more)
          Program.set key (.hash assigned.1) 0
          return .integer assigned.2
      else
        return wrongArgs cmd.name
  | _ => return wrongArgs cmd.name

/-- HGET key field. -/
def cmdHget : Handler := fun cmd =>
  match cmd.args with
  | [key, field] =>
      readTyped hashType key .null fun hash =>
        match hash.lookup field with
        | none => return .null
        | some value => return .bulkString value
  | _ => return wrongArgs cmd.name

/-- HDEL key field [field ...]. -/
def cmdHdel : Handler := fun cmd =>
  match cmd.args with
  | key :: first :: more =>
      readTyped hashType key (.integer 0) fun hash => do
        let removed := eraseFields hash (first :: more)
        storeOrDelete key removed.1.entries.isEmpty (.hash removed.1)
        return .integer removed.2
  | _ => return wrongArgs cmd.name

/-- HGETALL key: fields and values in one flat array. -/
def cmdHgetall : Handler := fun cmd =>
  match cmd.args with
  | [key] =>
      readTyped hashType key (.array []) fun hash =>
        return .array ((hash.entries.flatMap fun item =>
          [item.1, item.2]).map .bulkString)
  | _ => return wrongArgs cmd.name

/-- HEXISTS key field. -/
def cmdHexists : Handler := fun cmd =>
  match cmd.args with
  | [key, field] =>
      readTyped hashType key (.integer 0) fun hash =>
        return .integer (if (hash.lookup field).isSome then 1 else 0)
  | _ => return wrongArgs cmd.name

/-- HLEN key. -/
def cmdHlen : Handler := fun cmd =>
  match cmd.args with
  | [key] =>
      readTyped hashType key (.integer 0) fun hash =>
        return .integer (toInt64 hash.entries.length)
  | _ => return wrongArgs cmd.name

section Loops

/-- The loop of HSET loses no field, and gives every listed one a value. -/
theorem mem_assignFields_of_mem
    {hash : ByteMap Bytes}
    {pairs : List Bytes}
    {field : Bytes}
    (member : field ∈ hash) :
    field ∈ (assignFields hash pairs).1 := by
  fun_induction assignFields hash pairs with
  | case1 hash name value later rest found inductionHypothesis =>
      exact inductionHypothesis (AList.mem_insert _ |>.mpr (Or.inr member))
  | case2 hash name value later rest missing inductionHypothesis =>
      exact inductionHypothesis (AList.mem_insert _ |>.mpr (Or.inr member))
  | case3 =>
      exact member

/-- HDEL erases the fields that it is given. -/
theorem lookup_eraseFields
    {hash : ByteMap Bytes}
    {removed : List Bytes}
    {field : Bytes} :
    (eraseFields hash removed).1.lookup field =
      if field ∈ removed then none else hash.lookup field := by
  induction removed generalizing hash with
  | nil =>
      simp [eraseFields]
  | cons first later inductionHypothesis =>
      have step :
          (eraseFields hash (first :: later)).1 =
            (eraseFields (hash.erase first) later).1 := by
        simp only [eraseFields]
        split <;> rfl
      rw [step, inductionHypothesis]
      by_cases same : field = first
      · subst same
        simp
      · simp [same]

/-- HSET counts by how much the hash grows. -/
theorem assignFields_count
    (hash : ByteMap Bytes)
    (pairs : List Bytes) :
    (assignFields hash pairs).2 + toInt64 hash.keys.length =
      toInt64 (assignFields hash pairs).1.keys.length := by
  fun_induction assignFields hash pairs with
  | case1 hash name value later rest found counted =>
      have member := AList.lookup_isSome.mp found
      rw [length_keys_insert_of_mem member] at counted
      exact counted
  | case2 hash name value later rest missing counted =>
      have absent := mt AList.lookup_isSome.mpr missing
      rw [length_keys_insert_of_not_mem absent, toInt64_succ] at counted
      change rest.2 + 1 + toInt64 hash.keys.length = _
      rw [Int64.add_assoc, Int64.add_comm 1]
      exact counted
  | case3 =>
      simp

/-- HDEL counts by how much the hash shrinks. -/
theorem eraseFields_count
    (hash : ByteMap Bytes)
    (removed : List Bytes) :
    (eraseFields hash removed).2 +
        toInt64 (eraseFields hash removed).1.keys.length =
      toInt64 hash.keys.length := by
  fun_induction eraseFields hash removed with
  | case1 =>
      simp
  | case2 hash name later rest found counted =>
      have member := AList.lookup_isSome.mp found
      rw [length_keys_erase_of_mem member, toInt64_succ, ← counted,
        Int64.add_assoc, Int64.add_comm 1, Int64.add_assoc]
  | case3 hash name later rest missing counted =>
      have absent := mt AList.lookup_isSome.mpr missing
      rw [length_keys_erase_of_not_mem absent] at counted
      exact counted

/-- Removing nothing returns the hash itself. -/
theorem eraseFields_of_disjoint
    {hash : ByteMap Bytes}
    {removed : List Bytes}
    (disjoint : ∀ field ∈ removed, field ∉ hash) :
    (eraseFields hash removed).1 = hash := by
  induction removed with
  | nil =>
      rfl
  | cons first later inductionHypothesis =>
      obtain ⟨head, tail⟩ := List.forall_mem_cons.mp disjoint
      have missing : (hash.lookup first).isSome = false := by
        simpa [AList.lookup_eq_none] using head
      have same : hash.erase first = hash :=
        AList.ext (List.kerase_of_notMem_keys head)
      simp only [eraseFields, missing, Bool.false_eq_true, if_false, same]
      exact inductionHypothesis tail

end Loops

section Safety

variable {cmd : Command} (clear : CrlfFree cmd.name)

include clear

/-- HSET changes its key only. -/
theorem always_cmdHset :
    (cmdHset cmd).Always
      (Call.Modifies (cmd.args.take 1)) RespValue.LineSafe NoThrow := by
  unfold cmdHset
  split
  · rename_i key field value more shape
    have stores
        (hash : ByteMap Bytes) :
        Script.Always (Call.Modifies (cmd.args.take 1))
          RespValue.LineSafe NoThrow
          (do
            let assigned := assignFields hash (field :: value :: more)
            Program.set key (.hash assigned.1) 0
            return .integer assigned.2 :
              Program RespValue) :=
      ⟨by simp [Call.Modifies, shape], fun _ => trivial⟩
    split
    · exact always_withTyped trivial lineSafe_kWrongType
        (stores ∅) stores
    · exact lineSafe_wrongArgs_iff.mpr clear
  · exact lineSafe_wrongArgs_iff.mpr clear

theorem always_cmdHget :
    (cmdHget cmd).Always
      Call.Observes RespValue.LineSafe NoThrow := by
  unfold cmdHget
  split
  · refine always_withTyped trivial lineSafe_kWrongType trivial
      fun hash => ?_
    split
    · trivial
    · trivial
  · exact lineSafe_wrongArgs_iff.mpr clear

/-- HDEL changes its key only. -/
theorem always_cmdHdel :
    (cmdHdel cmd).Always
      (Call.Modifies (cmd.args.take 1)) RespValue.LineSafe NoThrow := by
  unfold cmdHdel
  split
  · rename_i key first more shape
    exact always_withTyped trivial lineSafe_kWrongType trivial
      fun hash => always_storeOrDelete_bind
        (by simp [Call.Modifies, shape]) (by simp [Call.Modifies, shape])
        trivial
  · exact lineSafe_wrongArgs_iff.mpr clear

theorem always_cmdHgetall :
    (cmdHgetall cmd).Always
      Call.Observes RespValue.LineSafe NoThrow := by
  unfold cmdHgetall
  split
  · exact always_withTyped trivial lineSafe_kWrongType
      ⟨trivial, trivial⟩ fun _ => RespValue.lineSafe_bulkArray
  · exact lineSafe_wrongArgs_iff.mpr clear

theorem always_cmdHexists :
    (cmdHexists cmd).Always
      Call.Observes RespValue.LineSafe NoThrow := by
  unfold cmdHexists
  split
  · exact always_withTyped trivial lineSafe_kWrongType trivial
      fun _ => trivial
  · exact lineSafe_wrongArgs_iff.mpr clear

theorem always_cmdHlen :
    (cmdHlen cmd).Always
      Call.Observes RespValue.LineSafe NoThrow := by
  unfold cmdHlen
  split
  · exact always_withTyped trivial lineSafe_kWrongType trivial
      fun _ => trivial
  · exact lineSafe_wrongArgs_iff.mpr clear

end Safety

end Vortek

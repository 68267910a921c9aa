import Vortek.Command

namespace Vortek

open CallScript

/-!
# Set commands

The handlers of `set_cmds.cpp`.
-/

/-- The loop of SADD: insert the members, counting the new ones. -/
def addMembers : ByteSet → List Bytes → ByteSet × Int64
  | set, [] => (set, 0)
  | set, member :: later =>
      let rest := addMembers (set.insert member) later
      if set.contains member then rest else (rest.1, rest.2 + 1)

/-- The loop of SREM: erase the members, counting the ones found. -/
def removeMembers : ByteSet → List Bytes → ByteSet × Int64
  | set, [] => (set, 0)
  | set, member :: later =>
      let rest := removeMembers (set.erase member) later
      if set.contains member then (rest.1, rest.2 + 1) else rest

/-- SADD key member [member ...]. -/
def cmdSadd : Handler := fun cmd =>
  match cmd.args with
  | key :: first :: more =>
      getOrCreate setType key ByteSet.empty fun set => do
        let added := addMembers set (first :: more)
        Program.set key (.set added.1) 0
        return .integer added.2
  | _ => return wrongArgs cmd.name

/-- SREM key member [member ...]. -/
def cmdSrem : Handler := fun cmd =>
  match cmd.args with
  | key :: first :: more =>
      readTyped setType key (.integer 0) fun set => do
        let removed := removeMembers set (first :: more)
        storeOrDelete key removed.1.members.isEmpty (.set removed.1)
        return .integer removed.2
  | _ => return wrongArgs cmd.name

/-- SMEMBERS key. -/
def cmdSmembers : Handler := fun cmd =>
  match cmd.args with
  | [key] =>
      readTyped setType key (.array []) fun set =>
        return .array (set.members.map .bulkString)
  | _ => return wrongArgs cmd.name

/-- SISMEMBER key member. -/
def cmdSismember : Handler := fun cmd =>
  match cmd.args with
  | [key, member] =>
      readTyped setType key (.integer 0) fun set =>
        return .integer (if set.contains member then 1 else 0)
  | _ => return wrongArgs cmd.name

/-- SCARD key. -/
def cmdScard : Handler := fun cmd =>
  match cmd.args with
  | [key] =>
      readTyped setType key (.integer 0) fun set =>
        return .integer (toInt64 set.members.length)
  | _ => return wrongArgs cmd.name

section Loops

/-- SADD leaves the union. -/
@[simp] theorem mem_addMembers
    {set : ByteSet}
    {added : List Bytes}
    {member : Bytes} :
    member ∈ (addMembers set added).1.members ↔
      member ∈ set.members ∨ member ∈ added := by
  induction added generalizing set with
  | nil =>
      simp [addMembers]
  | cons first later inductionHypothesis =>
      have step :
          (addMembers set (first :: later)).1 =
            (addMembers (set.insert first) later).1 := by
        simp only [addMembers]
        split <;> rfl
      rw [step, inductionHypothesis, ByteSet.mem_insert, List.mem_cons]
      tauto

/-- SREM leaves the difference. -/
@[simp] theorem mem_removeMembers
    {set : ByteSet}
    {removed : List Bytes}
    {member : Bytes} :
    member ∈ (removeMembers set removed).1.members ↔
      member ∈ set.members ∧ member ∉ removed := by
  induction removed generalizing set with
  | nil =>
      simp [removeMembers]
  | cons first later inductionHypothesis =>
      have step :
          (removeMembers set (first :: later)).1 =
            (removeMembers (set.erase first) later).1 := by
        simp only [removeMembers]
        split <;> rfl
      rw [step, inductionHypothesis, ByteSet.mem_erase, List.mem_cons]
      tauto

/-- SADD counts by how much the set grows. -/
theorem addMembers_count
    (set : ByteSet)
    (added : List Bytes) :
    (addMembers set added).2 + toInt64 set.members.length =
      toInt64 (addMembers set added).1.members.length := by
  induction added generalizing set with
  | nil =>
      simp [addMembers]
  | cons first later inductionHypothesis =>
      have counted := inductionHypothesis (set.insert first)
      simp only [addMembers]
      split
      · rename_i found
        have member := ByteSet.contains_iff.mp found
        have same :
            (set.insert first).members.length = set.members.length :=
          List.length_insert_of_mem member
        rw [← counted, same]
      · rename_i missing
        have absent := mt ByteSet.contains_iff.mpr missing
        have longer :
            (set.insert first).members.length =
              set.members.length + 1 :=
          List.length_insert_of_not_mem absent
        rw [← counted, longer, toInt64_succ, Int64.add_assoc,
          Int64.add_comm 1]

/-- SREM counts by how much the set shrinks. -/
theorem removeMembers_count
    (set : ByteSet)
    (removed : List Bytes) :
    (removeMembers set removed).2 +
        toInt64 (removeMembers set removed).1.members.length =
      toInt64 set.members.length := by
  induction removed generalizing set with
  | nil =>
      simp [removeMembers]
  | cons first later inductionHypothesis =>
      have counted := inductionHypothesis (set.erase first)
      simp only [removeMembers]
      split
      · rename_i found
        have member := ByteSet.contains_iff.mp found
        have shorter :
            set.members.length = (set.erase first).members.length + 1 :=
          (List.length_erase_add_one member).symm
        rw [shorter, toInt64_succ, ← counted, Int64.add_assoc,
          Int64.add_comm 1, Int64.add_assoc]
      · rename_i missing
        have absent := mt ByteSet.contains_iff.mpr missing
        rw [counted, ByteSet.erase_of_not_mem absent]

/-- Removing nothing returns the set itself. -/
theorem removeMembers_of_disjoint
    {set : ByteSet}
    {removed : List Bytes}
    (disjoint : ∀ member ∈ removed, member ∉ set.members) :
    (removeMembers set removed).1 = set := by
  induction removed with
  | nil =>
      rfl
  | cons first later inductionHypothesis =>
      obtain ⟨head, tail⟩ := List.forall_mem_cons.mp disjoint
      have missing : set.contains first = false := by
        simpa [← ByteSet.contains_iff] using head
      simp only [removeMembers, missing, Bool.false_eq_true, if_false,
        ByteSet.erase_of_not_mem head]
      exact inductionHypothesis tail

end Loops

section Safety

variable {cmd : Command} (clear : CrlfFree cmd.name)

include clear

/-- SADD changes its key only. -/
theorem always_cmdSadd :
    (cmdSadd cmd).Always
      (Call.Modifies (cmd.args.take 1)) RespValue.LineSafe NoThrow := by
  unfold cmdSadd
  split
  · rename_i key first more shape
    have stores
        (set : ByteSet) :
        Script.Always (Call.Modifies (cmd.args.take 1))
          RespValue.LineSafe NoThrow
          (do
            let added := addMembers set (first :: more)
            Program.set key (.set added.1) 0
            return .integer added.2 :
              Program RespValue) :=
      ⟨by simp [Call.Modifies, shape], fun _ => trivial⟩
    exact always_withTyped trivial lineSafe_kWrongType
      (stores ByteSet.empty) stores
  · exact lineSafe_wrongArgs_iff.mpr clear

/-- SREM changes its key only. -/
theorem always_cmdSrem :
    (cmdSrem cmd).Always
      (Call.Modifies (cmd.args.take 1)) RespValue.LineSafe NoThrow := by
  unfold cmdSrem
  split
  · rename_i key first more shape
    exact always_withTyped trivial lineSafe_kWrongType trivial
      fun set => always_storeOrDelete_bind
        (by simp [Call.Modifies, shape]) (by simp [Call.Modifies, shape])
        trivial
  · exact lineSafe_wrongArgs_iff.mpr clear

theorem always_cmdSmembers :
    (cmdSmembers cmd).Always
      Call.Observes RespValue.LineSafe NoThrow := by
  unfold cmdSmembers
  split
  · exact always_withTyped trivial lineSafe_kWrongType
      ⟨trivial, trivial⟩ fun _ => RespValue.lineSafe_bulkArray
  · exact lineSafe_wrongArgs_iff.mpr clear

theorem always_cmdSismember :
    (cmdSismember cmd).Always
      Call.Observes RespValue.LineSafe NoThrow := by
  unfold cmdSismember
  split
  · exact always_withTyped trivial lineSafe_kWrongType trivial
      fun _ => trivial
  · exact lineSafe_wrongArgs_iff.mpr clear

theorem always_cmdScard :
    (cmdScard cmd).Always
      Call.Observes RespValue.LineSafe NoThrow := by
  unfold cmdScard
  split
  · exact always_withTyped trivial lineSafe_kWrongType trivial
      fun _ => trivial
  · exact lineSafe_wrongArgs_iff.mpr clear

end Safety

end Vortek

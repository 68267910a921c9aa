import Mathlib.Data.Finset.Image
import Mathlib.Data.List.Nodup

namespace Vortek.Multicast

/-!
# Groups and the messages sent to them

Members join and leave groups, and a message sent to a group is for those who
are members at that moment.  A run is a list of operations.  It determines who
is a member of which group, and what a member has been sent since it entered,
each message with its position in the run.

Positions grow along what a member has been sent, and say which message it
was.  So two members see the messages that both have been sent in one order
(`received_common`).
-/

variable {Group Member Message : Type}
variable [DecidableEq Group] [DecidableEq Member]

/-- One operation of a run. -/
inductive Operation (Group Member Message : Type) where
  | enter (member : Member)
  | join (group : Group) (member : Member)
  | leave (group : Group) (member : Member)
  | leaveAll (member : Member)
  | send (group : Group) (message : Message)

namespace Operation

/-- The memberships after an operation. -/
def apply (relation : Finset (Group × Member)) :
    Operation Group Member Message → Finset (Group × Member)
  | .enter member => relation.filter fun pair => pair.2 ≠ member
  | .join group member => insert (group, member) relation
  | .leave group member => relation.erase (group, member)
  | .leaveAll member => relation.filter fun pair => pair.2 ≠ member
  | .send _ _ => relation

/-- What a member has been sent after an operation at a position. -/
def deliver
    (member : Member)
    (position : Nat)
    (relation : Finset (Group × Member))
    (earlier : List (Nat × Group × Message)) :
    Operation Group Member Message → List (Nat × Group × Message)
  | .enter other => if other = member then [] else earlier
  | .send group message =>
      if (group, member) ∈ relation then
        earlier ++ [(position, group, message)]
      else
        earlier
  | _ => earlier

/-- An operation clears what was sent, keeps it, or sends one message more. -/
theorem deliver_cases
    (member : Member)
    (position : Nat)
    (relation : Finset (Group × Member))
    (earlier : List (Nat × Group × Message))
    (operation : Operation Group Member Message) :
    let later := operation.deliver member position relation earlier
    later = [] ∨ later = earlier ∨
      ∃ group message,
        operation = .send group message ∧
          later = earlier ++ [(position, group, message)] := by
  cases operation with
  | enter other =>
      by_cases same : other = member
      · exact Or.inl (if_pos same)
      · exact Or.inr (Or.inl (if_neg same))
  | join | leave | leaveAll =>
      exact Or.inr (Or.inl rfl)
  | send group message =>
      by_cases listed : (group, member) ∈ relation
      · exact Or.inr (Or.inr ⟨group, message, rfl, if_pos listed⟩)
      · exact Or.inr (Or.inl (if_neg listed))

/-- The operation neither sends nor lets anyone in. -/
def Quiet : Operation Group Member Message → Prop
  | .enter _ | .send _ _ => False
  | _ => True

end Operation

/-- The memberships after some operations. -/
def relationFrom
    (relation : Finset (Group × Member))
    (operations : List (Operation Group Member Message)) :
    Finset (Group × Member) :=
  operations.foldl Operation.apply relation

/-- The memberships at the end of a run. -/
def relation
    (operations : List (Operation Group Member Message)) :
    Finset (Group × Member) :=
  relationFrom ∅ operations

/-- The members of a group. -/
def audience
    (relation : Finset (Group × Member))
    (group : Group) :
    Finset Member :=
  (relation.filter fun pair => pair.1 = group).image Prod.snd

/-- What a member has been sent after some operations. -/
def receivedFrom (member : Member) :
    Nat → Finset (Group × Member) → List (Nat × Group × Message) →
      List (Operation Group Member Message) →
        List (Nat × Group × Message)
  | _, _, earlier, [] => earlier
  | position, relation, earlier, operation :: later =>
      receivedFrom member (position + 1) (operation.apply relation)
        (operation.deliver member position relation earlier) later

/-- What a member has been sent in a run since it entered. -/
def received
    (member : Member)
    (operations : List (Operation Group Member Message)) :
    List (Nat × Group × Message) :=
  receivedFrom member 0 ∅ [] operations

section Relations

/-- The audience of a group are its members. -/
@[simp] theorem mem_audience
    {relation : Finset (Group × Member)}
    {group : Group}
    {member : Member} :
    member ∈ audience relation group ↔ (group, member) ∈ relation := by
  simp [audience]

theorem relation_append
    (operations more : List (Operation Group Member Message)) :
    relation (operations ++ more) =
      relationFrom (relation operations) more :=
  List.foldl_append

/-- Joining some groups adds their pairs. -/
theorem mem_relationFrom_join
    {before : Finset (Group × Member)}
    {groups : List Group}
    {member : Member}
    {pair : Group × Member} :
    pair ∈ relationFrom before
        (groups.map fun group =>
          (.join group member : Operation Group Member Message)) ↔
      (pair.1 ∈ groups ∧ pair.2 = member) ∨ pair ∈ before := by
  induction groups generalizing before with
  | nil =>
      simp [relationFrom]
  | cons group later inductionHypothesis =>
      refine inductionHypothesis.trans ?_
      rw [Operation.apply, Finset.mem_insert, List.mem_cons, Prod.ext_iff]
      tauto

/-- Leaving some groups removes their pairs. -/
theorem mem_relationFrom_leave
    {before : Finset (Group × Member)}
    {groups : List Group}
    {member : Member}
    {pair : Group × Member} :
    pair ∈ relationFrom before
        (groups.map fun group =>
          (.leave group member : Operation Group Member Message)) ↔
      ¬(pair.1 ∈ groups ∧ pair.2 = member) ∧ pair ∈ before := by
  induction groups generalizing before with
  | nil =>
      simp [relationFrom]
  | cons group later inductionHypothesis =>
      refine inductionHypothesis.trans ?_
      rw [Operation.apply, Finset.mem_erase, List.mem_cons, Ne,
        Prod.ext_iff]
      tauto

end Relations

section Received

variable {member : Member}
variable {operations : List (Operation Group Member Message)}

theorem receivedFrom_concat
    (member : Member)
    (position : Nat)
    (relation : Finset (Group × Member))
    (earlier : List (Nat × Group × Message))
    (operations : List (Operation Group Member Message))
    (operation : Operation Group Member Message) :
    receivedFrom member position relation earlier
        (operations ++ [operation]) =
      operation.deliver member (position + operations.length)
        (relationFrom relation operations)
        (receivedFrom member position relation earlier operations) := by
  induction operations generalizing position relation earlier with
  | nil =>
      rfl
  | cons first later inductionHypothesis =>
      rw [List.cons_append, receivedFrom, inductionHypothesis,
        List.length_cons, Nat.add_right_comm, Nat.add_assoc]
      rfl

/-- One more operation. -/
theorem received_concat
    (member : Member)
    (operations : List (Operation Group Member Message))
    (operation : Operation Group Member Message) :
    received member (operations ++ [operation]) =
      operation.deliver member operations.length (relation operations)
        (received member operations) := by
  have last :=
    receivedFrom_concat member 0 ∅ [] operations operation
  rwa [Nat.zero_add] at last

/-- Quiet operations send nothing. -/
theorem received_append_of_quiet
    {more : List (Operation Group Member Message)}
    (quiet : ∀ operation ∈ more, operation.Quiet) :
    received member (operations ++ more) = received member operations := by
  induction more using List.reverseRecOn with
  | nil =>
      rw [List.append_nil]
  | append_singleton more operation inductionHypothesis =>
      obtain ⟨before, last⟩ := List.forall_mem_append.mp quiet
      have silent := last operation List.mem_cons_self
      rw [← List.append_assoc, received_concat, inductionHypothesis before]
      cases operation with
      | enter | send =>
          exact silent.elim
      | join | leave | leaveAll =>
          rfl

/-- A position is within the run and names what was sent there. -/
theorem getElem?_of_mem_received
    {position : Nat}
    {group : Group}
    {message : Message}
    (member_received :
      (position, group, message) ∈ received member operations) :
    operations[position]? = some (.send group message) := by
  induction operations using List.reverseRecOn with
  | nil =>
      exact absurd member_received List.not_mem_nil
  | append_singleton operations operation inductionHypothesis =>
      have before :
          (position, group, message) ∈ received member operations →
          (operations ++ [operation])[position]? =
            some (.send group message) := by
        intro earlier
        have found := inductionHypothesis earlier
        have inside := (List.getElem?_eq_some_iff.mp found).1
        rw [List.getElem?_append_left inside, found]
      rw [received_concat] at member_received
      rcases operation.deliver_cases member operations.length
          (relation operations) (received member operations) with
        none | kept | ⟨sentTo, text, rfl, added⟩
      · rw [none] at member_received
        exact absurd member_received List.not_mem_nil
      · rw [kept] at member_received
        exact before member_received
      · rw [added] at member_received
        rcases List.mem_append.mp member_received with earlier | last
        · exact before earlier
        · cases List.mem_singleton.mp last
          simp

theorem lt_length_of_mem_received
    {entry : Nat × Group × Message}
    (member_received : entry ∈ received member operations) :
    entry.1 < operations.length :=
  (List.getElem?_eq_some_iff.mp
    (getElem?_of_mem_received member_received)).1

/-- Messages are received in the order of the run. -/
theorem received_ordered
    (member : Member)
    (operations : List (Operation Group Member Message)) :
    (received member operations).Pairwise fun earlier later =>
      earlier.1 < later.1 := by
  induction operations using List.reverseRecOn with
  | nil =>
      exact List.Pairwise.nil
  | append_singleton operations operation inductionHypothesis =>
      rw [received_concat]
      rcases operation.deliver_cases member operations.length
          (relation operations) (received member operations) with
        none | kept | ⟨group, message, rfl, added⟩
      · rw [none]
        exact List.Pairwise.nil
      · rw [kept]
        exact inductionHypothesis
      · rw [added]
        refine List.pairwise_append.mpr
          ⟨inductionHypothesis, List.pairwise_singleton _ _, ?_⟩
        intro earlier seen later last
        rw [List.mem_singleton.mp last]
        exact lt_length_of_mem_received seen

/-- Two members see the messages sent to both in one order. -/
theorem received_common
    [DecidableEq Message]
    (first second : Member)
    (operations : List (Operation Group Member Message)) :
    (received first operations).filter
        (fun entry => entry ∈ received second operations) =
      (received second operations).filter
        (fun entry => entry ∈ received first operations) := by
  have ordered (one other : Member) :=
    (received_ordered one operations).filter
      (fun entry => entry ∈ received other operations)
  have distinct (one other : Member) :
      ((received one operations).filter
        fun entry => entry ∈ received other operations).Nodup := by
    refine List.Pairwise.imp ?_ (ordered one other)
    intro earlier later before same
    rw [same] at before
    exact Nat.lt_irrefl _ before
  refine List.Perm.eq_of_pairwise ?_ (ordered first second)
    (ordered second first) ?_
  · intro one other _ _ before after
    exact absurd after (Nat.lt_asymm before)
  · refine (List.perm_ext_iff_of_nodup (distinct first second)
      (distinct second first)).mpr fun entry => ?_
    simp [and_comm]

end Received

end Vortek.Multicast

import Mathlib.Data.Finset.Card
import Vortek.Multicast
import Vortek.PubSubBroker

namespace Vortek

open Multicast

/-!
# The broker as a relation

A reader of the channel table sees the row of each channel.  In these terms
subscribing adds an id to one row or replaces its callback there, and
unsubscribing filters one row or all of them.  The table represents a relation
between channels and ids (`Represents`), and each operation of the broker acts
on the relation as an operation on groups does.
-/

namespace PubSubBroker

/-- The subscribers of a channel. -/
def row (broker : PubSubBroker) (channel : Bytes) : List Subscriber :=
  (broker.channels.lookup channel).getD []

/-- The ids of a channel. -/
def members (broker : PubSubBroker) (channel : Bytes) : List Nat :=
  (broker.row channel).map Subscriber.id

/-- The callback of an id in a channel. -/
def callback
    (broker : PubSubBroker)
    (channel : Bytes)
    (id : Nat) :
    Option WriteFn :=
  ((broker.row channel).find? fun other => other.id = id).map
    Subscriber.write

/-- The row of a channel after `subscribe`. -/
def enroll
    (id : Nat)
    (write : WriteFn)
    (subscribers : List Subscriber) :
    List Subscriber :=
  match replaceWrite id write subscribers with
  | some replaced => replaced
  | none => subscribers ++ [⟨id, write⟩]

/-- The row of a channel after `unsubscribe`. -/
def dismiss (id : Nat) (subscribers : List Subscriber) : List Subscriber :=
  subscribers.filter fun other => other.id ≠ id

section Rows

variable {id other : Nat} {write : WriteFn}
variable {subscribers : List Subscriber}

/-- Subscribing goes along the row until it finds the id. -/
theorem enroll_cons
    (subscriber : Subscriber) :
    enroll id write (subscriber :: subscribers) =
      if subscriber.id = id then
        { subscriber with write := write } :: subscribers
      else
        subscriber :: enroll id write subscribers := by
  by_cases same : subscriber.id = id
  · simp only [enroll, replaceWrite, if_pos same]
  · simp only [enroll, replaceWrite, if_neg same]
    cases replaceWrite id write subscribers <;> rfl

/-- An id joins at the end of the row, unless it is there. -/
theorem map_id_enroll :
    (enroll id write subscribers).map Subscriber.id =
      if id ∈ subscribers.map Subscriber.id then
        subscribers.map Subscriber.id
      else
        subscribers.map Subscriber.id ++ [id] := by
  induction subscribers with
  | nil =>
      rfl
  | cons subscriber later inductionHypothesis =>
      rw [enroll_cons]
      by_cases same : subscriber.id = id
      · simp [same]
      · rw [if_neg same, List.map_cons, inductionHypothesis, List.map_cons]
        simp only [List.mem_cons, Ne.symm same, false_or]
        split <;> rfl

/-- Only the id that subscribes gets a new callback. -/
theorem mem_enroll
    {subscriber : Subscriber}
    (member : subscriber ∈ enroll id write subscribers) :
    subscriber = ⟨id, write⟩ ∨ subscriber ∈ subscribers := by
  induction subscribers with
  | nil =>
      exact Or.inl (List.mem_singleton.mp member)
  | cons first later inductionHypothesis =>
      rw [enroll_cons] at member
      by_cases same : first.id = id
      · rw [if_pos same, List.mem_cons] at member
        rcases member with rfl | inside
        · exact Or.inl (by rw [same])
        · exact Or.inr (List.mem_cons_of_mem _ inside)
      · rw [if_neg same, List.mem_cons] at member
        rcases member with rfl | inside
        · exact Or.inr List.mem_cons_self
        · exact (inductionHypothesis inside).imp_right
            (List.mem_cons_of_mem _)

/-- Other ids are found as before one subscribes. -/
theorem find?_enroll
    (differs : other ≠ id) :
    (enroll id write subscribers).find? (fun one => one.id = other) =
      subscribers.find? fun one => one.id = other := by
  induction subscribers with
  | nil =>
      simp [enroll, replaceWrite, differs.symm]
  | cons first later inductionHypothesis =>
      rw [enroll_cons]
      by_cases same : first.id = id
      · simp [same, differs.symm]
      · rw [if_neg same, List.find?_cons, List.find?_cons,
          inductionHypothesis]

/-- Other ids are found as before one leaves. -/
theorem find?_dismiss
    (differs : other ≠ id) :
    (dismiss id subscribers).find? (fun one => one.id = other) =
      subscribers.find? fun one => one.id = other := by
  rw [dismiss, List.find?_filter]
  congr 1
  funext one
  by_cases same : one.id = other
  · simp [same, differs]
  · simp [same]

end Rows

section Tables

variable {broker : PubSubBroker} {channel other : Bytes} {id : Nat}
variable {write : WriteFn}

@[simp] theorem row_empty
    (channel : Bytes) :
    empty.row channel = [] :=
  rfl

/-- `subscribe` changes the entry of its channel only. -/
theorem lookup_subscribe :
    (broker.subscribe channel id write).2.channels.lookup other =
      if other = channel then
        some (enroll id write (broker.row channel))
      else
        broker.channels.lookup other := by
  by_cases same : other = channel
  · subst same
    rw [if_pos rfl]
    exact AList.lookup_insert _
  · rw [if_neg same]
    exact AList.lookup_insert_ne same

theorem channels_unsubscribe
    {subscribers : List Subscriber}
    (found : broker.channels.lookup channel = some subscribers) :
    (broker.unsubscribe channel id).2.channels =
      if dismiss id subscribers = [] then
        broker.channels.erase channel
      else
        broker.channels.insert channel (dismiss id subscribers) := by
  simp only [unsubscribe, found]
  change
    (if (dismiss id subscribers).isEmpty then _ else _ :
      PubSubBroker).channels = _
  simp only [List.isEmpty_iff]
  split <;> rfl

/-- `unsubscribe` erases the entry of a channel that nobody is left in. -/
theorem lookup_unsubscribe :
    (broker.unsubscribe channel id).2.channels.lookup other =
      if other = channel then
        if dismiss id (broker.row channel) = [] then
          none
        else
          some (dismiss id (broker.row channel))
      else
        broker.channels.lookup other := by
  cases found : broker.channels.lookup channel with
  | none =>
      simp only [unsubscribe, row, found, Option.getD_none]
      split
      · rename_i same
        rw [same, found]
        rfl
      · rfl
  | some subscribers =>
      rw [channels_unsubscribe found, row, found, Option.getD_some]
      by_cases nobody : dismiss id subscribers = []
      · rw [if_pos nobody, if_pos nobody]
        split
        · rename_i same
          rw [same, AList.lookup_erase]
        · rename_i differs
          rw [AList.lookup_erase_ne differs]
      · rw [if_neg nobody, if_neg nobody]
        split
        · rename_i same
          rw [same, AList.lookup_insert]
        · rename_i differs
          rw [AList.lookup_insert_ne differs]

/-- `subscribe` changes one row. -/
theorem row_subscribe :
    (broker.subscribe channel id write).2.row other =
      if other = channel then
        enroll id write (broker.row channel)
      else
        broker.row other := by
  rw [row, lookup_subscribe]
  split <;> rfl

/-- `unsubscribe` changes one row. -/
theorem row_unsubscribe :
    (broker.unsubscribe channel id).2.row other =
      if other = channel then
        dismiss id (broker.row channel)
      else
        broker.row other := by
  rw [row, lookup_unsubscribe]
  split
  · split
    · rename_i nobody
      exact nobody.symm
    · rfl
  · rfl

/-- `subscribe` returns the length of the new row. -/
theorem subscribe_fst :
    (broker.subscribe channel id write).1 =
      toInt64
        ((broker.subscribe channel id write).2.row channel).length := by
  rw [row_subscribe, if_pos rfl]
  rfl

/-- `unsubscribe` returns the length of what is left of the row. -/
theorem unsubscribe_fst :
    (broker.unsubscribe channel id).1 =
      toInt64 ((broker.unsubscribe channel id).2.row channel).length := by
  rw [row_unsubscribe, if_pos rfl]
  unfold unsubscribe row
  cases broker.channels.lookup channel <;> rfl

/-- `publish` writes once to everyone in the row, in its order. -/
theorem publish_eq
    (message : Bytes) :
    broker.publish channel message =
      (toInt64 (broker.row channel).length,
        (broker.row channel).map fun subscriber =>
          ⟨subscriber.write, message⟩) := by
  unfold publish row
  cases broker.channels.lookup channel <;> rfl

/-- Leaving some channels filters their rows. -/
theorem row_leaveChannels
    (id : Nat)
    (channels : List Bytes)
    (broker : PubSubBroker)
    (other : Bytes) :
    (leaveChannels id channels broker).2.row other =
      if other ∈ channels then
        dismiss id (broker.row other)
      else
        broker.row other := by
  induction channels generalizing broker with
  | nil =>
      rfl
  | cons channel later inductionHypothesis =>
      simp only [leaveChannels, inductionHypothesis, row_unsubscribe,
        List.mem_cons]
      by_cases same : other = channel
      · subst same
        simp [dismiss]
      · simp [same]

/-- The channels that are named are those the id was in. -/
theorem leaveChannels_fst
    {channels : List Bytes}
    (distinct : channels.Nodup)
    (id : Nat)
    (broker : PubSubBroker) :
    (leaveChannels id channels broker).1 =
      channels.filter fun channel => id ∈ broker.members channel := by
  induction channels generalizing broker with
  | nil =>
      rfl
  | cons channel later inductionHypothesis =>
      obtain ⟨once, rest⟩ := List.nodup_cons.mp distinct
      -- The rows of the later channels are not touched by this one.
      have untouched :
          (later.filter fun other =>
            id ∈ (broker.unsubscribe channel id).2.members other) =
          later.filter fun other => id ∈ broker.members other := by
        refine List.filter_congr fun other member => ?_
        have differs : other ≠ channel := by
          rintro rfl
          exact once member
        rw [members, row_unsubscribe, if_neg differs, members]
      have joined :
          (((broker.channels.lookup channel).getD []).any
              fun other => other.id = id) =
            decide (id ∈ broker.members channel) := by
        rw [Bool.eq_iff_iff]
        simp [members, row]
      simp only [leaveChannels, inductionHypothesis rest, untouched,
        joined, List.filter_cons]

/-- `unsubscribe_all` filters every row. -/
theorem row_unsubscribeAll
    (id : Nat)
    (broker : PubSubBroker)
    (channel : Bytes) :
    (broker.unsubscribeAll id).2.row channel =
      dismiss id (broker.row channel) := by
  rw [unsubscribeAll, row_leaveChannels]
  split
  · rfl
  · rename_i unlisted
    have nobody : broker.row channel = [] := by
      rw [row, AList.lookup_eq_none.mpr unlisted]
      rfl
    rw [nobody]
    rfl

end Tables

/-- The table represents a relation, and has no empty rows. -/
structure Represents
    (broker : PubSubBroker)
    (relation : Finset (Bytes × Nat)) :
    Prop where
  distinct : ∀ channel, (broker.members channel).Nodup
  occupied : ∀ channel, broker.channels.lookup channel ≠ some []
  listed :
    ∀ channel id,
      id ∈ broker.members channel ↔ (channel, id) ∈ relation

section Representation

variable {broker : PubSubBroker} {relation : Finset (Bytes × Nat)}

theorem represents_empty : empty.Represents ∅ where
  distinct _ := List.nodup_nil
  occupied _ := (Option.some_ne_none _).symm
  listed _ _ := by simp [members]

/-- A channel has as many subscribers as the relation gives it. -/
theorem Represents.length_row
    (represents : broker.Represents relation)
    (channel : Bytes) :
    (broker.row channel).length = (audience relation channel).card := by
  have same :
      (broker.members channel).toFinset = audience relation channel := by
    ext id
    rw [List.mem_toFinset, represents.listed, mem_audience]
  rw [← same, List.toFinset_card_of_nodup (represents.distinct channel),
    members, List.length_map]

/-- `subscribe` adds one pair to the relation. -/
theorem Represents.subscribe
    (represents : broker.Represents relation)
    (channel : Bytes)
    (id : Nat)
    (write : WriteFn) :
    (broker.subscribe channel id write).2.Represents
      (insert (channel, id) relation) := by
  have ids :
      (broker.subscribe channel id write).2.members channel =
        if id ∈ broker.members channel then
          broker.members channel
        else
          broker.members channel ++ [id] := by
    rw [members, row_subscribe, if_pos rfl, map_id_enroll]
    rfl
  have others (other : Bytes) (differs : other ≠ channel) :
      (broker.subscribe channel id write).2.members other =
        broker.members other := by
    rw [members, row_subscribe, if_neg differs, members]
  refine ⟨fun other => ?_, fun other => ?_, fun other one => ?_⟩
  · by_cases same : other = channel
    · subst same
      rw [ids]
      split
      · exact represents.distinct other
      · rename_i fresh
        rw [← List.concat_eq_append]
        exact (represents.distinct other).concat fresh
    · rw [others other same]
      exact represents.distinct other
  · rw [lookup_subscribe]
    split
    · intro nobody
      have none := congrArg (List.map Subscriber.id)
        (Option.some_injective _ nobody)
      rw [map_id_enroll] at none
      split at none
      · rename_i member
        rw [none] at member
        exact absurd member List.not_mem_nil
      · exact absurd none (by simp)
    · exact represents.occupied other
  · by_cases same : other = channel
    · subst same
      rw [ids, Finset.mem_insert, ← represents.listed]
      split
      · rename_i member
        constructor
        · exact Or.inr
        · rintro (equal | inside)
          · cases equal
            exact member
          · exact inside
      · simp [or_comm]
    · rw [others other same, represents.listed, Finset.mem_insert]
      simp [same]

/-- `unsubscribe` leaves no channel without subscribers. -/
theorem occupied_unsubscribe
    (occupied : ∀ channel, broker.channels.lookup channel ≠ some [])
    (channel : Bytes)
    (id : Nat)
    (other : Bytes) :
    (broker.unsubscribe channel id).2.channels.lookup other ≠ some [] := by
  rw [lookup_unsubscribe]
  split
  · split
    · exact (Option.some_ne_none _).symm
    · rename_i somebody
      intro nobody
      exact somebody (Option.some_injective _ nobody)
  · exact occupied other

theorem occupied_leaveChannels
    (occupied : ∀ channel, broker.channels.lookup channel ≠ some [])
    (id : Nat)
    (channels : List Bytes)
    (other : Bytes) :
    (leaveChannels id channels broker).2.channels.lookup other ≠
      some [] := by
  induction channels generalizing broker with
  | nil =>
      exact occupied other
  | cons channel later inductionHypothesis =>
      exact inductionHypothesis (occupied_unsubscribe occupied channel id)

/-- Dismissing an id from some rows removes these pairs. -/
theorem Represents.dismiss
    (represents : broker.Represents relation)
    (next : PubSubBroker)
    (id : Nat)
    (left : Bytes → Prop)
    [DecidablePred left]
    (rows :
      ∀ channel,
        next.row channel =
          if left channel then
            PubSubBroker.dismiss id (broker.row channel)
          else
            broker.row channel)
    (occupied : ∀ channel, next.channels.lookup channel ≠ some []) :
    next.Represents
      (relation.filter fun pair => ¬(left pair.1 ∧ pair.2 = id)) := by
  have ids (channel : Bytes) :
      next.members channel =
        (broker.members channel).filter
          fun one => ¬(left channel ∧ one = id) := by
    rw [members, rows, members, List.filter_map]
    split
    · rename_i leaves
      simp [PubSubBroker.dismiss, leaves, Function.comp_def]
    · rename_i stays
      simp [stays]
  refine ⟨fun channel => ?_, occupied, fun channel one => ?_⟩
  · rw [ids]
    exact (represents.distinct channel).filter _
  · rw [ids, List.mem_filter, represents.listed, Finset.mem_filter,
      decide_eq_true_iff]

/-- `unsubscribe` removes one pair from the relation. -/
theorem Represents.unsubscribe
    (represents : broker.Represents relation)
    (channel : Bytes)
    (id : Nat) :
    (broker.unsubscribe channel id).2.Represents
      (relation.erase (channel, id)) := by
  have filtered :=
    represents.dismiss (broker.unsubscribe channel id).2 id (· = channel)
      (fun other => by
        rw [row_unsubscribe]
        split
        · rename_i same
          rw [same]
        · rfl)
      (occupied_unsubscribe represents.occupied channel id)
  have same :
      (relation.filter fun pair => ¬(pair.1 = channel ∧ pair.2 = id)) =
        relation.erase (channel, id) := by
    ext pair
    rw [Finset.mem_filter, Finset.mem_erase, Ne, Prod.ext_iff, and_comm]
  rwa [same] at filtered

/-- `unsubscribe_all` removes the pairs of one id. -/
theorem Represents.unsubscribeAll
    (represents : broker.Represents relation)
    (id : Nat) :
    (broker.unsubscribeAll id).2.Represents
      (relation.filter fun pair => pair.2 ≠ id) := by
  have filtered :=
    represents.dismiss (broker.unsubscribeAll id).2 id (fun _ => True)
      (fun channel => by
        rw [row_unsubscribeAll, if_pos trivial])
      (occupied_leaveChannels represents.occupied id _)
  simpa using filtered

/-- `unsubscribe_all` names each channel that it removes the id from once. -/
theorem Represents.unsubscribeAll_fst
    (represents : broker.Represents relation)
    (id : Nat) :
    (broker.unsubscribeAll id).1.Nodup ∧
      ∀ channel,
        channel ∈ (broker.unsubscribeAll id).1 ↔
          (channel, id) ∈ relation := by
  rw [PubSubBroker.unsubscribeAll,
    leaveChannels_fst broker.channels.keys_nodup]
  refine ⟨broker.channels.keys_nodup.filter _, fun channel => ?_⟩
  rw [List.mem_filter, decide_eq_true_iff, represents.listed]
  refine and_iff_right_of_imp fun listed => ?_
  -- A channel that has a subscriber has an entry in the table.
  by_contra unlisted
  have nobody : broker.members channel = [] := by
    rw [members, row, AList.lookup_eq_none.mpr unlisted]
    rfl
  have member := (represents.listed channel id).mpr listed
  rw [nobody] at member
  exact List.not_mem_nil member

end Representation

end PubSubBroker

/-- A call of the broker. -/
inductive BrokerCall where
  | subscribe (channel : Bytes) (id : Nat) (write : WriteFn)
  | unsubscribe (channel : Bytes) (id : Nat)
  | unsubscribeAll (id : Nat)
  | publish (channel message : Bytes)

namespace BrokerCall

/-- The broker after a call. -/
def run (broker : PubSubBroker) : BrokerCall → PubSubBroker
  | .subscribe channel id write => (broker.subscribe channel id write).2
  | .unsubscribe channel id => (broker.unsubscribe channel id).2
  | .unsubscribeAll id => (broker.unsubscribeAll id).2
  | .publish _ _ => broker

/-- What a call is for the relation. -/
def operation : BrokerCall → Operation Bytes Nat Bytes
  | .subscribe channel id _ => .join channel id
  | .unsubscribe channel id => .leave channel id
  | .unsubscribeAll id => .leaveAll id
  | .publish channel message => .send channel message

/-- The call is made for an id. -/
def ActsFor (id : Nat) : BrokerCall → Prop
  | .subscribe _ caller _ => caller = id
  | .unsubscribe _ caller => caller = id
  | .unsubscribeAll caller => caller = id
  | .publish _ _ => False

/-- The answer of a call to a broker that represents the relation. -/
def AnswersAs
    (broker : PubSubBroker)
    (relation : Finset (Bytes × Nat)) :
    BrokerCall → Prop
  | .subscribe channel id write =>
      (broker.subscribe channel id write).1 =
        toInt64 (audience (insert (channel, id) relation) channel).card
  | .unsubscribe channel id =>
      (broker.unsubscribe channel id).1 =
        toInt64 (audience (relation.erase (channel, id)) channel).card
  | .unsubscribeAll id =>
      (broker.unsubscribeAll id).1.Nodup ∧
        ∀ channel,
          channel ∈ (broker.unsubscribeAll id).1 ↔
            (channel, id) ∈ relation
  | .publish channel message =>
      (broker.publish channel message).1 =
        toInt64 (audience relation channel).card

variable {broker : PubSubBroker} {relation : Finset (Bytes × Nat)}

/-- A call acts on the relation as its operation does. -/
theorem represents_run
    (represents : broker.Represents relation)
    (call : BrokerCall) :
    (call.run broker).Represents (call.operation.apply relation) := by
  cases call with
  | subscribe channel id write =>
      exact represents.subscribe channel id write
  | unsubscribe channel id =>
      exact represents.unsubscribe channel id
  | unsubscribeAll id =>
      exact represents.unsubscribeAll id
  | publish channel message =>
      exact represents

/-- The answer of a call can be read off the relation. -/
theorem answersAs_of_represents
    (represents : broker.Represents relation)
    (call : BrokerCall) :
    call.AnswersAs broker relation := by
  cases call with
  | subscribe channel id write =>
      exact PubSubBroker.subscribe_fst.trans
        (congrArg toInt64
          ((represents.subscribe channel id write).length_row channel))
  | unsubscribe channel id =>
      exact PubSubBroker.unsubscribe_fst.trans
        (congrArg toInt64
          ((represents.unsubscribe channel id).length_row channel))
  | unsubscribeAll id =>
      exact represents.unsubscribeAll_fst id
  | publish channel message =>
      simp only [AnswersAs, PubSubBroker.publish_eq,
        represents.length_row]

/-- A call leaves the callbacks of all other ids as they are. -/
theorem callback_run
    {call : BrokerCall}
    {other : Nat}
    (uninvolved : ¬call.ActsFor other)
    (broker : PubSubBroker)
    (channel : Bytes) :
    (call.run broker).callback channel other =
      broker.callback channel other := by
  unfold PubSubBroker.callback
  congr 1
  cases call with
  | subscribe into id write =>
      rw [run, PubSubBroker.row_subscribe]
      split
      · rename_i same
        rw [same, PubSubBroker.find?_enroll (Ne.symm uninvolved)]
      · rfl
  | unsubscribe into id =>
      rw [run, PubSubBroker.row_unsubscribe]
      split
      · rename_i same
        rw [same, PubSubBroker.find?_dismiss (Ne.symm uninvolved)]
      · rfl
  | unsubscribeAll id =>
      rw [run, PubSubBroker.row_unsubscribeAll,
        PubSubBroker.find?_dismiss (Ne.symm uninvolved)]
  | publish into message =>
      rfl

/-- The broker after some calls. -/
def runAll (calls : List BrokerCall) : PubSubBroker :=
  calls.foldl run PubSubBroker.empty

/-- Behind any calls the table represents the relation they make. -/
theorem represents_runAll
    (calls : List BrokerCall) :
    (runAll calls).Represents (Multicast.relation (calls.map operation)) := by
  induction calls using List.reverseRecOn with
  | nil =>
      exact PubSubBroker.represents_empty
  | append_singleton calls call inductionHypothesis =>
      rw [runAll, List.foldl_append, List.map_append, relation_append]
      exact represents_run inductionHypothesis call

end BrokerCall

end Vortek

import Vortek.AcceptedOutput
import Vortek.EventLoop

namespace Vortek

open Multicast

/-!
# Delivery of published messages

The messages that an open connection has accepted, followed by those that are
still posted to it, are what the history says it was sent: every publication on
a channel while the connection was subscribed to it, once and in the order of
execution (`EventLoop.Delivered`).
-/

/-- The published message in an output. -/
def Output.message? : Output → Option (Bytes × Bytes)
  | .message channel text => some (channel, text)
  | .replies _ | .pubSub _ => none

/-- The published messages among some outputs. -/
def messagesOf (outputs : List Output) : List (Bytes × Bytes) :=
  outputs.filterMap Output.message?

section Outputs

variable {reserve : Reserve} {clock : Nat → TimePoint}

theorem messagesOf_append
    (outputs more : List Output) :
    messagesOf (outputs ++ more) = messagesOf outputs ++ messagesOf more :=
  List.filterMap_append

/-- Serving a value hands over no message. -/
theorem Turn.messagesOf_serveCalls
    (turn : Turn)
    (value : RespValue) :
    messagesOf ((turn.serveCalls value).flatMap SocketCall.outputs) =
      [] := by
  unfold serveCalls
  split
  · rfl
  · split
    · rfl
    · split
      · rfl
      · split
        · rfl
        · split
          · split <;> rfl
          · rfl

/-- A read hands over no message. -/
theorem Connection.messagesOf_handleCalls
    (connection : Connection)
    (server : Server)
    (chunk : Bytes) :
    messagesOf
        ((connection.handleCalls reserve clock server chunk).flatMap
          SocketCall.outputs) =
      [] := by
  unfold handleCalls
  split
  · rfl
  · rw [List.flatMap_append, messagesOf_append]
    have served :
        messagesOf
          (((connection.served reserve clock server chunk).flatMap
            fun visit => visit.1.serveCalls visit.2).flatMap
              SocketCall.outputs) = [] := by
      rw [List.flatMap_assoc]
      generalize connection.served reserve clock server chunk = visits
      induction visits with
      | nil =>
          rfl
      | cons visit later inductionHypothesis =>
          rw [List.flatMap_cons, messagesOf_append,
            Turn.messagesOf_serveCalls, inductionHypothesis]
          rfl
    rw [served]
    unfold Turn.finishCall
    split <;> rfl

/-- A completion hands over no message. -/
theorem Session.messagesOf_outputs
    (session : Session)
    (server : Server)
    (completion : Completion) :
    messagesOf (session.outputs reserve (completion.input server)) =
      [] := by
  cases completion with
  | readDone clock chunk =>
      simp only [Completion.input, outputs]
      split
      · rfl
      · exact Connection.messagesOf_handleCalls _ _ _
  | readFailed | writeDone | writeFailed | waitExpired | waitAborted =>
      rfl

end Outputs

namespace EventLoop

/-- What was accepted and what is posted is what was sent. -/
def Delivered (loop : EventLoop) : Prop :=
  ∀ id session,
    loop.sessions.lookup id = some session →
    session.connection.transport.socketOpen = true →
    messagesOf session.accepted ++
        addressedTo id loop.server.backend.posted =
      (Happening.sentTo id loop.history).map Prod.snd

section Steps

variable {loop : EventLoop} {id : Nat} {session : Session}

/-- Nothing is posted for a connection that is gone. -/
theorem addressedTo_eq_nil
    (consistent : loop.Consistent)
    (gone : id ∉ loop.sessions) :
    addressedTo id loop.server.backend.posted = [] := by
  unfold addressedTo
  rw [List.map_eq_nil_iff, List.filter_eq_nil_iff]
  intro delivery posted own
  have there := consistent.addressed delivery posted
  rw [of_decide_eq_true own] at there
  exact gone there

/-- A connection has been sent nothing when it is accepted. -/
theorem sentTo_accepted
    (history : List Happening)
    (other id : Nat) :
    Happening.sentTo id (history ++ [.accepted other]) =
      if other = id then [] else Happening.sentTo id history := by
  rw [Happening.sentTo, Happening.operationsAlong_append]
  exact received_concat id _ (.enter other)

/-- A new client has been delivered nothing. -/
theorem Delivered.addClient
    (delivered : loop.Delivered)
    (consistent : loop.Consistent)
    (fresh : id ∉ loop.sessions)
    (config : ServerConfig) :
    (loop.addClient config id).Delivered := by
  intro other one found isOpen
  change _ ++ addressedTo other loop.server.backend.posted =
    (Happening.sentTo other (loop.history ++ [.accepted id])).map _
  rw [sentTo_accepted]
  rcases lookup_insert_cases found with ⟨rfl, rfl⟩ | ⟨differs, earlier⟩
  · rw [addressedTo_eq_nil consistent fresh, if_pos rfl,
      Session.accepted_start]
    rfl
  · rw [if_neg (Ne.symm differs)]
    exact delivered other one earlier isOpen

/-- A handler writes no messages itself, and may post some. -/
theorem Delivered.handle
    (delivered : loop.Delivered)
    (consistent : loop.Consistent)
    (found : loop.sessions.lookup id = some session)
    (reserve : Reserve)
    (completion : Completion) :
    (loop.handle reserve id session completion).Delivered := by
  obtain ⟨turn, tracks, serves, happened, -, -⟩ :=
    handle_tracks consistent found reserve completion
  obtain ⟨sent, posts, -, sees⟩ := tracks.posted
  intro other one inserted isOpen
  rw [happened, serves, posts, sees, addressedTo_append,
    ← List.append_assoc]
  congr 1
  rcases lookup_insert_cases inserted with ⟨rfl, rfl⟩ | ⟨-, earlier⟩
  · obtain ⟨before, accepted⟩ :=
      (session.handle_accepts reserve
        (completion.input loop.server)).whole isOpen
    change messagesOf (session.handle reserve
      (completion.input loop.server)).socket.accepted ++ _ = _
    rw [accepted, messagesOf_append, Session.messagesOf_outputs,
      List.append_nil]
    exact delivered other session found before
  · exact delivered other one earlier isOpen

/-- A delivery moves the message from the posted to the written. -/
theorem Delivered.deliver
    {delivery : Delivery}
    {later : List Delivery}
    (delivered : loop.Delivered)
    (posted : loop.server.backend.posted = delivery :: later)
    (found :
      loop.sessions.lookup delivery.write.connection = some session) :
    (loop.deliver later session delivery).Delivered := by
  intro other one inserted isOpen
  change _ ++ addressedTo other later =
    (Happening.sentTo other loop.history).map _
  rcases lookup_insert_cases inserted with ⟨rfl, rfl⟩ | ⟨differs, earlier⟩
  · obtain ⟨before, accepted⟩ :=
      (session.socket.accepts_doWrite _
        (.message delivery.write.channel delivery.message)).whole isOpen
    have known := delivered _ session found before
    rw [posted, addressedTo_cons, if_pos rfl] at known
    rw [← known]
    change messagesOf (session.socket.doWrite _ _).accepted ++ _ = _
    rw [accepted, messagesOf_append, List.append_assoc]
    rfl
  · have known := delivered other one earlier isOpen
    rwa [posted, addressedTo_cons, if_neg (Ne.symm differs)] at known

theorem posted_release
    (loop : EventLoop)
    (id : Nat) :
    (loop.release id).server.backend.posted =
      loop.server.backend.posted := by
  rcases loop.release_cases id with ⟨same, -⟩ | ⟨session, -, -, gone⟩
  · rw [same]
  · rw [gone]
    rfl

theorem history_release
    (loop : EventLoop)
    (id : Nat) :
    (loop.release id).history = loop.history := by
  rcases loop.release_cases id with ⟨same, -⟩ | ⟨session, -, -, gone⟩
  · rw [same]
  · rw [gone]
    rfl

theorem Delivered.release
    (delivered : loop.Delivered)
    (id : Nat) :
    (loop.release id).Delivered := by
  intro other one found isOpen
  rw [posted_release, history_release]
  exact delivered other one (lookup_of_lookup_release found) isOpen

end Steps

/-- Deliveries and counts follow the history. -/
structure Delivers (loop : EventLoop) : Prop where
  delivered : loop.Delivered
  counts : Happening.Counts loop.history

section Runs

variable {config : ServerConfig} {reserve : Reserve} {loop : EventLoop}

theorem Delivers.step
    (delivers : loop.Delivers)
    (consistent : loop.Consistent)
    (event : LoopEvent) :
    (loop.step config reserve event).Delivers := by
  obtain ⟨delivered, counts⟩ := delivers
  have progress := loop.step_progress config reserve event
  generalize loop.step config reserve event = next at progress ⊢
  cases progress with
  | idle =>
      exact ⟨delivered, counts⟩
  | admitted id fresh =>
      refine ⟨delivered.addClient consistent fresh config,
        Happening.counts_append counts ?_⟩
      intro publisher channel message reply here
      cases here
  | completed id session completion found =>
      obtain ⟨turn, tracks, -, happened, -, -⟩ :=
        handle_tracks consistent found reserve completion
      refine ⟨(delivered.handle consistent found reserve
        completion).release id, ?_⟩
      rw [history_release, happened]
      exact tracks.counts counts
  | delivered delivery later session posted found =>
      refine ⟨(delivered.deliver posted found).release _, ?_⟩
      rw [history_release]
      exact counts

/-- Run the tasks that are posted now. -/
def drain
    (config : ServerConfig)
    (reserve : Reserve)
    (loop : EventLoop) :
    EventLoop :=
  loop.run config reserve
    (List.replicate loop.server.backend.posted.length .runPosted)

/-- Running what is posted posts nothing more. -/
theorem drain_spec
    (sound : loop.Sound) :
    (loop.drain config reserve).server.backend.posted = [] ∧
      (loop.drain config reserve).history = loop.history := by
  unfold drain
  generalize tasks : loop.server.backend.posted = posted
  induction posted generalizing loop with
  | nil =>
      exact ⟨tasks, rfl⟩
  | cons delivery later inductionHypothesis =>
      have there : delivery.write.connection ∈ loop.sessions := by
        refine sound.consistent.addressed delivery ?_
        rw [tasks]
        exact List.mem_cons_self
      obtain ⟨session, found⟩ :=
        Option.isSome_iff_exists.mp (AList.lookup_isSome.mpr there)
      have next :
          loop.step config reserve .runPosted =
            (loop.deliver later session delivery).release
              delivery.write.connection := by
        simp only [EventLoop.step, tasks, found]
      have remaining :
          (loop.step config reserve .runPosted).server.backend.posted =
            later := by
        rw [next, posted_release]
        rfl
      obtain ⟨empty, same⟩ :=
        inductionHypothesis (sound.step .runPosted) remaining
      refine ⟨empty, same.trans ?_⟩
      rw [next, history_release]
      rfl

/--
Every open connection gets exactly the publications on its channels, in the
order of execution; PUBLISH counts the subscribers; and common messages arrive
everywhere in one order.
-/
theorem publications_delivered_once
    (config : ServerConfig)
    (reserve : Reserve)
    (server : Server)
    (fresh : Fresh server)
    (events : List LoopEvent) :
    let loop := (start server).run config reserve events
    let drained := loop.drain config reserve
    loop.Delivered ∧
      drained.server.backend.posted = [] ∧
      (∀ id session,
        drained.sessions.lookup id = some session →
        session.connection.transport.socketOpen = true →
        messagesOf session.accepted =
          (Happening.sentTo id loop.history).map Prod.snd) ∧
      Happening.Counts loop.history ∧
      (∀ id,
        (Happening.sentTo id loop.history).Pairwise fun earlier later =>
          earlier.1 < later.1) ∧
      ∀ first second,
        (Happening.sentTo first loop.history).filter
            (fun entry => entry ∈ Happening.sentTo second loop.history) =
          (Happening.sentTo second loop.history).filter
            (fun entry => entry ∈ Happening.sentTo first loop.history) := by
  intro loop drained
  have keeps
      (one : EventLoop)
      (event : LoopEvent)
      (sound : one.Sound)
      (_ : True)
      (delivers : one.Delivers) :
      (one.step config reserve event).Delivers :=
    delivers.step sound.consistent event
  have nobody : (start server).Delivers := by
    refine ⟨fun _ _ found =>
      absurd found.symm (Option.some_ne_none _), ?_⟩
    intro before after id channel message reply split
    exact absurd split (by simp [start])
  obtain ⟨sound, delivers⟩ :=
    run_invariant Delivers keeps (sound_start fresh) nobody
      (meets_true _ events)
  obtain ⟨-, afterwards⟩ :=
    run_invariant Delivers keeps sound delivers
      (meets_true _ (List.replicate loop.server.backend.posted.length
        .runPosted))
  obtain ⟨empty, same⟩ : drained.server.backend.posted = [] ∧
      drained.history = loop.history :=
    drain_spec sound
  refine ⟨delivers.delivered, empty, ?_, delivers.counts,
    fun id => received_ordered id _, ?_⟩
  · intro id session found isOpen
    have known := afterwards.delivered id session found isOpen
    change _ ++ addressedTo id drained.server.backend.posted =
      (Happening.sentTo id drained.history).map _ at known
    rw [empty, same] at known
    exact (List.append_nil _).symm.trans known
  · intro first second
    unfold Happening.sentTo
    convert received_common first second
      (Happening.operationsAlong loop.history)

theorem publications_delivered_once_resubscribed :
    let server : Server :=
      ⟨{ Backend.initial with broker := some PubSubBroker.empty }, none⟩
    let config : ServerConfig := ⟨[], 1000, 0, 10, 1000⟩
    let read (id : Nat) (commands : List Command) : LoopEvent :=
      .complete id (.readDone (fun _ => 0) (AofPersistence.wire commands))
    let subscribe : Command := ⟨ascii "SUBSCRIBE", [ascii "c"]⟩
    let publish (text : String) : Command :=
      ⟨ascii "PUBLISH", [ascii "c", ascii text]⟩
    let events : List LoopEvent :=
      [.accept 1, .accept 2, read 1 [subscribe, subscribe],
        read 2 [publish "one"], .runPosted, .complete 2 .writeDone,
        read 2 [publish "two"]]
    let loop := (start server).run config (fun _ => none) events
    let drained := loop.drain config (fun _ => none)
    (drained.sessions.lookup 1).map
          (fun session => messagesOf session.accepted) =
        some [(ascii "c", ascii "one"), (ascii "c", ascii "two")] ∧
      ∀ id session,
        drained.sessions.lookup id = some session →
        session.connection.transport.socketOpen = true →
        messagesOf session.accepted =
          (Happening.sentTo id loop.history).map Prod.snd := by
  intro server config read subscribe publish events
  have fresh : Fresh server := ⟨rfl, rfl, rfl⟩
  exact ⟨by decide +kernel,
    (publications_delivered_once config (fun _ => none) server fresh
      events).2.2.1⟩

end Runs

end EventLoop

end Vortek

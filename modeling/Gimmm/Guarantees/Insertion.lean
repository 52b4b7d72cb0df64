/-
The order in which messages are added to a manager. It shows in the index of FCM message ids only: the group
queues follow from the queue, and the send rules read these two and the count. So two orders lead to the same
decisions, also after the same removals.
-/
import Gimmm.Guarantees.Queues

namespace Gimmm

open Std Prog
open MessageManager (InGroup)

/-- `addMessage` with the message's own sequence id. -/
def adding (msg : Message) : QueueOp := .addMessage msg.sequenceId msg

/-- The managers agree on what the send rules read. -/
structure Congruent (m m' : MessageManager) : Prop where
  wf : m.WF
  wf' : m'.WF
  messages : m.messages = m'.messages
  groups : m.groups = m'.groups
  pendingAckCount : m.pendingAckCount = m'.pendingAckCount

/-- The managers take the same send decisions. -/
structure SameDecisions (m m' : MessageManager) : Prop where
  canSendMessage : ∀ msg, m.canSendMessage msg = m'.canSendMessage msg
  canSendMessageOnReconnect : ∀ msg, m.canSendMessageOnReconnect msg = m'.canSendMessageOnReconnect msg
  getNext : m.getNext = m'.getNext

section
variable {m m' : MessageManager}

/-! ## The groups follow from the queue -/

theorem inGroup_congr (h : m.WF) (h' : m'.WF) (hq : m.messages = m'.messages) (g : GroupId) (n : Int) :
    m.InGroup g n ↔ m'.InGroup g n := by
  rw [h.inGroup, h'.inGroup, hq]

theorem Group.ext_queue {grp grp' : Group} (hid : grp.groupId = grp'.groupId)
    (hqueue : ∀ n, n ∈ grp.msgQueue ↔ n ∈ grp'.msgQueue) : grp = grp' := by
  obtain ⟨gid, hb, queue⟩ := grp
  obtain ⟨gid', hb', queue'⟩ := grp'
  obtain rfl : gid = gid' := hid
  obtain rfl : queue = queue' := ExtTreeSet.ext_mem fun n => hqueue n
  rfl

/-- A group of one manager is in every other one with the same queue. -/
theorem group_of_queue (h : m.WF) (h' : m'.WF) (hq : m.messages = m'.messages) {g : GroupId} {grp : Group}
    (hg : m.groups[g]? = some grp) : m'.groups[g]? = some grp := by
  obtain ⟨n, hn⟩ := h.nonempty hg
  obtain ⟨grp', hg', -⟩ := (inGroup_congr h h' hq g n).1 ⟨grp, hg, hn⟩
  rw [hg', ← Group.ext_queue ((h.groupId hg).trans (h'.groupId hg').symm) fun k => ?_]
  rw [h.member hg, h'.member hg', hq]

theorem groups_eq (h : m.WF) (h' : m'.WF) (hq : m.messages = m'.messages) : m.groups = m'.groups := by
  apply ExtTreeMap.ext_getElem?
  intro g
  refine Option.ext fun grp => ⟨fun hg => ?_, fun hg => ?_⟩
  · exact group_of_queue h h' hq hg
  · exact group_of_queue h' h hq.symm hg

theorem congruent_of_queue (h : m.WF) (h' : m'.WF) (hq : m.messages = m'.messages)
    (hc : m.pendingAckCount = m'.pendingAckCount) : Congruent m m' := ⟨h, h', hq, groups_eq h h' hq, hc⟩

/-! ## What the send rules read -/

namespace Congruent

theorem groupRule (h : Congruent m m') (msg : Message) : m.groupRule msg = m'.groupRule msg := by
  unfold MessageManager.groupRule MessageManager.findGroup
  rw [h.groups]

theorem canSendMessage (h : Congruent m m') (msg : Message) : m.canSendMessage msg = m'.canSendMessage msg := by
  unfold MessageManager.canSendMessage
  rw [h.groupRule, h.pendingAckCount]

theorem firstSendable (h : Congruent m m') (queue : List (Int × Message)) : m.firstSendable queue = m'.firstSendable queue := by
  induction queue with
  | nil => rfl
  | cons p rest ih =>
    unfold MessageManager.firstSendable
    rw [h.canSendMessage, ih]

theorem decisions (h : Congruent m m') : SameDecisions m m' where
  canSendMessage := h.canSendMessage
  canSendMessageOnReconnect msg := by
    unfold MessageManager.canSendMessageOnReconnect
    rw [h.groupRule, h.pendingAckCount]
  getNext := by
    unfold MessageManager.getNext
    rw [h.messages, h.firstSendable]

/-! ## Removals -/

/-- A removal throws in both managers, or takes the same message out of both. -/
theorem removeMessage (h : Congruent m m') (n : Int) :
    Congruent ((QueueOp.removeMessage n).apply m) ((QueueOp.removeMessage n).apply m') := by
  rcases QueueOp.removed_cases h.wf n with ⟨hn, he⟩ | ⟨msg, hn, he⟩
  · rcases QueueOp.removed_cases h.wf' n with ⟨-, he'⟩ | ⟨msg, hn', -⟩
    · rw [he, he']
      exact h
    · rw [h.messages, hn'] at hn
      cases hn
  · rcases QueueOp.removed_cases h.wf' n with ⟨hn', -⟩ | ⟨msg', hn', he'⟩
    · rw [h.messages, hn'] at hn
      cases hn
    · rw [← h.messages, hn] at hn'
      obtain rfl := Option.some.inj hn'
      rw [he, he']
      refine congruent_of_queue (h.wf.without hn) (h.wf'.without (h.messages ▸ hn)) ?_ ?_
      · exact congrArg (fun q : ExtTreeMap Int Message => q.erase msg.sequenceId) h.messages
      · show (if msg.state = .pendingAck then m.pendingAckCount - 1 else m.pendingAckCount) = _
        rw [h.pendingAckCount]
        rfl

theorem removals (h : Congruent m m') (seqids : List Int) :
    Congruent (history m (seqids.map .removeMessage)) (history m' (seqids.map .removeMessage)) := by
  induction seqids generalizing m m' with
  | nil => exact h
  | cons n seqids ih => exact ih (h.removeMessage n)

end Congruent

/-! ## Additions -/

/-- The manager after messages with distinct fresh sequence ids. -/
structure Added (msgs : List Message) (m m' : MessageManager) : Prop where
  wf : m'.WF
  pendingAckCount : m'.pendingAckCount = m.pendingAckCount
  queue : ∀ (n : Int) (msg : Message), m'.messages[n]? = some msg ↔
    m.messages[n]? = some msg ∨ (msg ∈ msgs ∧ msg.sequenceId = n)

theorem added (msgs : List Message) (h : m.WF) (hids : (msgs.map (·.sequenceId)).Nodup)
    (hfresh : ∀ msg ∈ msgs, m.messages[msg.sequenceId]? = none) : Added msgs m (history m (msgs.map adding)) := by
  induction msgs generalizing m with
  | nil => exact ⟨h, rfl, fun n msg => by simp⟩
  | cons first msgs ih =>
    rw [List.map_cons, List.nodup_cons] at hids
    have hnone := hfresh first (List.mem_cons_self ..)
    have hget := MessageManager.addMessage_getElem? first hnone
    have hrest : ∀ msg ∈ msgs, (m.addMessage first.sequenceId first).messages[msg.sequenceId]? = none := by
      intro msg hmsg
      rw [hget, if_neg, hfresh msg (List.mem_cons_of_mem _ hmsg)]
      intro heq
      exact hids.1 (heq ▸ List.mem_map.2 ⟨msg, hmsg, rfl⟩)
    have ih := ih (h.addMessage first hnone rfl) hids.2 hrest
    refine ⟨ih.wf, ih.pendingAckCount.trans MessageManager.addMessage_pendingAckCount, fun n msg => (ih.queue n msg).trans ?_⟩
    rw [hget, List.mem_cons]
    constructor
    · rintro (hn | ⟨hmsg, hn⟩)
      · split at hn
        · rename_i heq
          cases hn
          exact Or.inr ⟨Or.inl rfl, heq.symm⟩
        · exact Or.inl hn
      · exact Or.inr ⟨Or.inr hmsg, hn⟩
    · rintro (hn | ⟨rfl | hmsg, hn⟩)
      · refine Or.inl ?_
        rw [if_neg, hn]
        rintro rfl
        rw [hnone] at hn
        cases hn
      · exact Or.inl (by rw [if_pos hn.symm])
      · exact Or.inr ⟨hmsg, hn⟩

/-- Two orders of the same messages. -/
theorem congruent_of_perm {msgs msgs' : List Message} (h : m.WF) (hperm : msgs.Perm msgs')
    (hids : (msgs.map (·.sequenceId)).Nodup) (hfresh : ∀ msg ∈ msgs, m.messages[msg.sequenceId]? = none) :
    Congruent (history m (msgs.map adding)) (history m (msgs'.map adding)) := by
  have h₁ := added msgs h hids hfresh
  have h₂ := added msgs' h ((hperm.map _).nodup_iff.1 hids) fun msg hmsg => hfresh msg (hperm.mem_iff.2 hmsg)
  refine congruent_of_queue h₁.wf h₂.wf ?_ (h₁.pendingAckCount.trans h₂.pendingAckCount.symm)
  apply ExtTreeMap.ext_getElem?
  intro n
  refine Option.ext fun msg => ?_
  rw [h₁.queue, h₂.queue, hperm.mem_iff]

end

/-- Messages with distinct sequence ids may be added in any order to an empty manager: the send decisions are the same,
also after any sequence of removals. -/
theorem decisions_unordered (sid : SessionId) (maxPendingAllowed : Nat) (msgs msgs' : List Message)
    (hperm : msgs.Perm msgs') (hids : (msgs.map (·.sequenceId)).Nodup) (seqids : List Int) :
    SameDecisions (history (.new sid maxPendingAllowed) (msgs.map adding ++ seqids.map .removeMessage))
      (history (.new sid maxPendingAllowed) (msgs'.map adding ++ seqids.map .removeMessage)) := by
  have halike := congruent_of_perm (MessageManager.wf_new sid maxPendingAllowed) hperm hids
    fun msg _ => by simp [MessageManager.new]
  rw [history, Run.run_append, history, Run.run_append]
  exact (halike.removals seqids).decisions

/-- Two messages of a group, and one that waits for its ack, of which the first is removed. -/
def ofGroup : List Message :=
  [.new 1 .downstream "a" "g" "bal" fcmSessionId .null, .new 2 .downstream "a" "g" "bal" fcmSessionId .null,
    (Message.new 3 .downstream "b" "" "bal" fcmSessionId .null).setState .pendingAck]

theorem decisions_unordered_reversed :
    SameDecisions (history (.new fcmSessionId) (ofGroup.map adding ++ [1].map .removeMessage))
      (history (.new fcmSessionId) (ofGroup.reverse.map adding ++ [1].map .removeMessage)) :=
  decisions_unordered fcmSessionId maxPendingMessages ofGroup ofGroup.reverse (List.reverse_perm ofGroup).symm (by decide) [1]

/-! ## The load -/

/-- Whatever the order in which SQLite gives the pending rows of a session to the callback, the managers take the same
send decisions. -/
theorem loads_unordered (db : Database) (sid : SessionId) (junk : Int → Int × Int) {scan scan' : Database.Scan}
    (hall : scan.Complete) (hall' : scan'.Complete) :
    SameDecisions (db.loadPendingMessages scan junk (.new sid)) (db.loadPendingMessages scan' junk (.new sid)) := by
  have h := db.loadPendingMessages_fresh scan junk sid
  have h' := db.loadPendingMessages_fresh scan' junk sid
  refine (congruent_of_queue h.wf h'.wf ?_ (h.pendingAckCount.trans h'.pendingAckCount.symm)).decisions
  apply ExtTreeMap.ext_getElem?
  intro n
  refine Option.ext fun msg => ⟨fun hn => ?_, fun hn => ?_⟩
  · obtain ⟨row, hrow, hpending, htarget, rfl⟩ := h.held n msg hn
    exact h'.all hall' n row hrow hpending htarget
  · obtain ⟨row, hrow, hpending, htarget, rfl⟩ := h'.held n msg hn
    exact h.all hall n row hrow hpending htarget

end Gimmm

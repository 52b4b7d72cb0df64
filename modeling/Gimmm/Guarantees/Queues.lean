/-
Histories of one manager: messages are added under fresh sequence ids of their own, removed, marked and
counted in any order. The group queues stay the partition of the queue and `getNext` finds the right message
in every history; the index of FCM message ids is faithful exactly while no message is removed that shares
its FCM message id with another one.
-/
import Gimmm.Lib.Run
import Gimmm.Store.Database

namespace Gimmm

open Std Prog
open MessageManager (removeMessage removeMessageWithFcmMsgId InGroup)

/-- A call of a manager that changes it. -/
inductive QueueOp where
  | addMessage (seqid : Int) (msg : Message)
  | removeMessage (seqid : Int)
  | removeMessageWithFcmMsgId (fcmMsgid : FcmMessageId)
  | setState (seqid : Int) (state : MessageState)
  | incrementPendingAckCount

namespace QueueOp

def call : QueueOp → EStateM Stop MessageManager Unit
  | addMessage seqid msg => modify (·.addMessage seqid msg)
  | removeMessage seqid => MessageManager.removeMessage seqid
  | removeMessageWithFcmMsgId fcmMsgid => MessageManager.removeMessageWithFcmMsgId fcmMsgid
  | setState seqid state => modify (·.modifyMessage seqid (·.setState state))
  | incrementPendingAckCount => modify (·.incrementPendingAckCount)

/-- The manager that a call leaves, also one that throws. -/
def apply (m : MessageManager) (op : QueueOp) : MessageManager :=
  match op.call m with
  | .ok _ m' => m'
  | .error _ m' => m'

/-- A message is added under its own sequence id, which no message of the queue has. -/
def Fresh (m : MessageManager) : QueueOp → Prop
  | addMessage seqid msg => msg.sequenceId = seqid ∧ m.messages[seqid]? = none
  | _ => True

/-- The sequence id that the call takes out of the queue. -/
def removes (m : MessageManager) : QueueOp → Option Int
  | removeMessage seqid => some seqid
  | removeMessageWithFcmMsgId fcmMsgid => m.sequenceIdMap[fcmMsgid]?
  | _ => none

/-- No message is removed that shares its FCM message id with another one. -/
def Unshared (m : MessageManager) (op : QueueOp) : Prop :=
  ∀ (n : Int) (msg : Message), op.removes m = some n → m.messages[n]? = some msg →
    ∀ (k : Int) (msg' : Message), m.messages[k]? = some msg' → msg'.fcmMessageId = msg.fcmMessageId → k = n

end QueueOp

/-- The manager after a history of calls. -/
abbrev history (m : MessageManager) (ops : List QueueOp) : MessageManager := Run.run QueueOp.apply m ops

/-- Every message of the history is added under a fresh sequence id of its own. -/
abbrev Fresh (m : MessageManager) (ops : List QueueOp) : Prop := Run.Along QueueOp.apply QueueOp.Fresh m ops

section
variable {m : MessageManager} {op : QueueOp} {ops : List QueueOp}

/-! ## Well-formed histories -/

/-- In a well-formed manager `removeMessage` finds no message and throws, or removes one. -/
theorem removeMessage_cases (h : m.WF) (n : Int) :
    (m.messages[n]? = none ∧ ∃ what, removeMessage n m = .error (.exception what) m) ∨
    ∃ msg : Message, m.messages[n]? = some msg ∧ removeMessage n m = .ok () (m.without msg) := by
  cases hn : m.messages[n]? with
  | none =>
    have hf : MessageManager.ask (·.findMessage n) m =
        .error (.exception ("Cannot find message for seqid[" ++ toString n ++ "]")) m := by
      simp only [MessageManager.ask, MessageManager.findMessage, hn]
    unfold removeMessage
    exact Or.inl ⟨rfl, _, Prog.bind_error hf⟩
  | some msg => exact Or.inr ⟨msg, rfl, MessageManager.removeMessage_eq h hn⟩

namespace QueueOp

theorem apply_ok {m' : MessageManager} (h : op.call m = .ok () m') : op.apply m = m' := by
  unfold apply
  rw [h]

theorem apply_error {m' : MessageManager} {e : Stop} (h : op.call m = .error e m') : op.apply m = m' := by
  unfold apply
  rw [h]

/-- The manager that a removal leaves. -/
theorem removed_cases (h : m.WF) (n : Int) : (m.messages[n]? = none ∧ (removeMessage n).apply m = m) ∨
    ∃ msg : Message, m.messages[n]? = some msg ∧ (removeMessage n).apply m = m.without msg := by
  rcases Gimmm.removeMessage_cases h n with ⟨hn, what, he⟩ | ⟨msg, hn, he⟩
  · have hcall : (removeMessage n).call m = .error (.exception what) m := he
    exact Or.inl ⟨hn, apply_error hcall⟩
  · have hcall : (removeMessage n).call m = .ok () (m.without msg) := he
    exact Or.inr ⟨msg, hn, apply_ok hcall⟩

/-- A call adds a message, takes one out, writes to one or to the count, or throws and changes nothing. -/
inductive Does (m : MessageManager) (op : QueueOp) : Prop where
  | adds (n : Int) (msg : Message) (he : op = .addMessage n msg) (eq : op.apply m = m.addMessage n msg)
  | takes (n : Int) (msg : Message) (he : op.removes m = some n) (held : m.messages[n]? = some msg)
      (eq : op.apply m = m.without msg)
  | marks (n : Int) (s : MessageState) (he : op = .setState n s)
      (eq : op.apply m = m.modifyMessage n (·.setState s))
  | counts (he : op = .incrementPendingAckCount) (eq : op.apply m = m.incrementPendingAckCount)
  | throws (none : ∀ n : Int, op.removes m = some n → m.messages[n]? = none) (eq : op.apply m = m)

theorem does (h : m.WF) (op : QueueOp) : op.Does m := by
  cases op with
  | addMessage n msg => exact .adds n msg rfl rfl
  | setState n s => exact .marks n s rfl rfl
  | incrementPendingAckCount => exact .counts rfl rfl
  | removeMessage n =>
    rcases removeMessage_cases h n with ⟨hn, what, he⟩ | ⟨msg, hn, he⟩
    · exact .throws (fun k hk => by cases hk; exact hn) (apply_error he)
    · exact .takes n msg rfl hn (apply_ok he)
  | removeMessageWithFcmMsgId x =>
    rcases MessageManager.removeMessageWithFcmMsgId_cases h x with ⟨hx, what, he⟩ | ⟨msg, hf, hn, he⟩
    · refine .throws (fun k hk => ?_) (apply_error he)
      have hk : m.sequenceIdMap[x]? = some k := hk
      rw [hx] at hk
      cases hk
    · refine .takes msg.sequenceId msg ?_ hn (apply_ok he)
      have hseq := (h.find hf).1
      unfold MessageManager.findSequenceId at hseq
      show m.sequenceIdMap[x]? = some msg.sequenceId
      cases hx : m.sequenceIdMap[x]? with
      | none => rw [hx] at hseq; cases hseq
      | some k => rw [hx] at hseq; exact congrArg some (Except.ok.inj hseq)

/-- A call with a fresh sequence id keeps a manager well-formed. -/
theorem apply_wf (h : m.WF) (hf : op.Fresh m) : (op.apply m).WF := by
  rcases op.does h with ⟨n, msg, rfl, he⟩ | ⟨n, msg, -, hn, he⟩ | ⟨n, s, -, he⟩ | ⟨-, he⟩ | ⟨-, he⟩
  all_goals rw [he]
  · exact h.addMessage msg hf.2 hf.1
  · exact h.without hn
  · exact h.modifyMessage fun _ => rfl
  · exact h.incrementPendingAckCount
  · exact h

end QueueOp

theorem history_wf (h : m.WF) (hf : Fresh m ops) : (history m ops).WF :=
  Run.invariant (I := fun m => m.WF) (fun _ _ hf h => QueueOp.apply_wf h hf) ops hf h

/-! ## The index of FCM message ids -/

/-- An FCM message id is mapped if and only if a message of the queue has it, and then to the sequence id of
such a message; so the id of a message finds one that has it. -/
structure Faithful (m : MessageManager) : Prop where
  mapped : ∀ x : FcmMessageId, (∃ n, m.sequenceIdMap[x]? = some n) ↔
    ∃ (n : Int) (msg : Message), m.messages[n]? = some msg ∧ msg.fcmMessageId = x
  leads : ∀ (x : FcmMessageId) (n : Int), m.sequenceIdMap[x]? = some n →
    ∃ msg : Message, m.messages[n]? = some msg ∧ msg.fcmMessageId = x
  found : ∀ (n : Int) (msg : Message), m.messages[n]? = some msg →
    ∃ msg' : Message, m.findMessageWithFcmMsgId msg.fcmMessageId = .ok msg' ∧ msg'.fcmMessageId = msg.fcmMessageId

theorem findMessageWithFcmMsgId_mapped (h : m.WF) {x : FcmMessageId} {n : Int} (hx : m.sequenceIdMap[x]? = some n) :
    ∃ msg : Message, m.findMessageWithFcmMsgId x = .ok msg ∧ msg.fcmMessageId = x := by
  obtain ⟨msg, hn, hid⟩ := h.index hx
  exact ⟨msg, MessageManager.findMessageWithFcmMsgId_ok (MessageManager.findSequenceId_ok.2 hx) hn, hid⟩

/-- In a well-formed manager only an unmapped id of a message can be wrong. -/
theorem faithful_iff (h : m.WF) : Faithful m ↔
    ∀ (n : Int) (msg : Message), m.messages[n]? = some msg → ∃ k, m.sequenceIdMap[msg.fcmMessageId]? = some k := by
  constructor
  · intro hf n msg hn
    exact (hf.mapped _).2 ⟨n, msg, hn, rfl⟩
  · intro hall
    refine ⟨fun x => ⟨?_, ?_⟩, fun x n hx => h.index hx, fun n msg hn => ?_⟩
    · rintro ⟨n, hx⟩
      obtain ⟨msg, hn, hid⟩ := h.index hx
      exact ⟨n, msg, hn, hid⟩
    · rintro ⟨n, msg, hn, rfl⟩
      exact hall n msg hn
    · obtain ⟨k, hk⟩ := hall n msg hn
      exact findMessageWithFcmMsgId_mapped h hk

theorem faithful_new (sid : SessionId) (k : Nat) : Faithful (.new sid k) :=
  (faithful_iff (MessageManager.wf_new sid k)).2 fun n msg hn => by simp [MessageManager.new] at hn

/-- One call keeps the index faithful exactly if it removes no message that shares its FCM message id. -/
theorem QueueOp.faithful_apply (h : m.WF) (hf : op.Fresh m) (hm : Faithful m) :
    Faithful (op.apply m) ↔ op.Unshared m := by
  have hall := (faithful_iff h).1 hm
  rw [faithful_iff (apply_wf h hf)]
  -- a call adds a message, takes one out, or leaves the index alone
  rcases op.does h with ⟨n, msg, rfl, he⟩ | ⟨n, msg, hr, hn, he⟩ | ⟨n, s, rfl, he⟩ | ⟨rfl, he⟩ | ⟨hnone, he⟩
  all_goals rw [he]
  · refine iff_of_true (fun k msg' hk => ?_) fun k msg' hr => by cases hr
    rw [MessageManager.addMessage_sequenceIdMap, ExtTreeMap.getElem?_insertIfNew]
    split
    · exact ⟨n, rfl⟩
    · rename_i hc
      rw [MessageManager.addMessage_getElem? msg hf.2] at hk
      split at hk
      · cases hk
        have hmem : ¬ msg.fcmMessageId ∉ m.sequenceIdMap := fun hmem => hc ⟨ReflCmp.compare_self, hmem⟩
        exact Option.isSome_iff_exists.1 (ExtTreeMap.isSome_getElem?_iff_mem.2 (not_not.1 hmem))
      · exact hall k msg' hk
  · constructor
    · -- the removal unmaps the id, so no message that stays may have it
      intro hleft n' msg' hr' hn' k other hk hid
      rw [hr] at hr'
      cases hr'
      rw [hn] at hn'
      cases hn'
      by_contra hne
      have hstay : (m.without msg).messages[k]? = some other := by
        rw [MessageManager.without_getElem?, if_neg (h.key hn ▸ hne), hk]
      obtain ⟨j, hj⟩ := hleft k other hstay
      have hj : (m.sequenceIdMap.erase msg.fcmMessageId)[other.fcmMessageId]? = some j := hj
      rw [ExtTreeMap.getElem?_erase, if_pos (by rw [hid]; exact ReflCmp.compare_self)] at hj
      cases hj
    · intro hun k other hk
      obtain ⟨hk, hne⟩ := MessageManager.of_without hk
      obtain ⟨j, hj⟩ := hall k other hk
      refine ⟨j, ?_⟩
      show (m.sequenceIdMap.erase msg.fcmMessageId)[other.fcmMessageId]? = some j
      rw [ExtTreeMap.getElem?_erase, if_neg, hj]
      intro hc
      exact hne ((hun n msg hr hn k other hk (LawfulEqCmp.eq_of_compare hc).symm).trans (h.key hn).symm)
  · refine iff_of_true (fun k msg' hk => ?_) fun k msg' hr => by cases hr
    rw [MessageManager.modifyMessage_getElem?] at hk
    split at hk
    · obtain ⟨msg₀, h₀, rfl⟩ := Option.map_eq_some_iff.1 hk
      exact hall k msg₀ h₀
    · exact hall k msg' hk
  · exact iff_of_true hall fun k msg' hr => by cases hr
  · refine iff_of_true hall fun k msg' hr hk => ?_
    rw [hnone k hr] at hk
    cases hk

/-- The index is faithful after every call of a history if and only if no call removes a message that shares
its FCM message id with another message of the queue. -/
theorem index_faithful_iff (sid : SessionId) (maxPendingAllowed : Nat) (ops : List QueueOp)
    (hfresh : Fresh (.new sid maxPendingAllowed) ops) :
    (∀ done, done <+: ops → Faithful (history (.new sid maxPendingAllowed) done)) ↔
      Run.Along QueueOp.apply (fun m op => op.Unshared m) (.new sid maxPendingAllowed) ops := by
  have hstart := faithful_new sid maxPendingAllowed
  have hwf := MessageManager.wf_new sid maxPendingAllowed
  generalize MessageManager.new sid maxPendingAllowed = m at hstart hwf hfresh
  induction ops generalizing m with
  | nil =>
    refine iff_of_true (fun done hd => ?_) trivial
    rw [List.prefix_nil.1 hd]
    exact hstart
  | cons op ops ih =>
    have happly := QueueOp.faithful_apply hwf hfresh.1 hstart
    have hwf' := QueueOp.apply_wf hwf hfresh.1
    constructor
    · intro hall
      have hm' : Faithful (op.apply m) := hall [op] ⟨ops, rfl⟩
      refine ⟨happly.1 hm', (ih _ hm' hwf' hfresh.2).1 fun done hd => ?_⟩
      exact hall (op :: done) (List.cons_prefix_cons.2 ⟨rfl, hd⟩)
    · rintro ⟨hun, hrest⟩ done hd
      cases done with
      | nil => exact hstart
      | cons op' done =>
        obtain ⟨rfl, hdone⟩ := List.cons_prefix_cons.1 hd
        exact (ih _ (happly.2 hun) hwf' hfresh.2).2 hrest done hdone

/-- A downstream message is queued, in the group `gid` or in none. -/
def queuedIn (gid : GroupId) (n : Int) (mid : FcmMessageId) : QueueOp :=
  .addMessage n (.new n .downstream mid gid "bal" fcmSessionId .null)

/-- A downstream message without a group is queued. -/
def queued : Int → FcmMessageId → QueueOp := queuedIn ""

/-- Two messages with ids of their own, of which the first is acked. -/
def ackedFirst : List QueueOp := [queued 1 "a", queued 2 "b", .removeMessageWithFcmMsgId "a"]

theorem ackedFirst_fresh : Fresh (.new fcmSessionId) ackedFirst :=
  ⟨⟨rfl, by decide +kernel⟩, ⟨rfl, by decide +kernel⟩, trivial, trivial⟩

theorem index_faithful_iff_acked : Faithful (history (.new fcmSessionId) ackedFirst) := by
  refine (index_faithful_iff fcmSessionId maxPendingMessages ackedFirst ackedFirst_fresh).2 ?_ _ List.prefix_rfl
  refine ⟨fun n msg hr => (by cases hr), fun n msg hr => (by cases hr), fun n msg hr hn k msg' hk hid => ?_, trivial⟩
  have hn1 : n = 1 := by
    have he : (history (.new fcmSessionId) (ackedFirst.take 2)).sequenceIdMap["a"]? = some 1 := by decide +kernel
    exact Option.some.inj (hr.symm.trans he)
  have hqueue : ∀ j : Int, (history (.new fcmSessionId) (ackedFirst.take 2)).messages[j]?.map (·.fcmMessageId) =
      if j = 2 then some "b" else if j = 1 then some "a" else none := by
    intro j
    have hadd : history (.new fcmSessionId) (ackedFirst.take 2) =
        ((MessageManager.new fcmSessionId).addMessage 1 (.new 1 .downstream "a" "" "bal" fcmSessionId .null)).addMessage 2
          (.new 2 .downstream "b" "" "bal" fcmSessionId .null) := rfl
    rw [hadd, MessageManager.addMessage_getElem? _ (by decide +kernel), MessageManager.addMessage_getElem? _ (by decide +kernel)]
    by_cases h2 : j = 2
    · rw [if_pos h2, if_pos h2]; rfl
    · rw [if_neg h2, if_neg h2]
      by_cases h1 : j = 1
      · rw [if_pos h1, if_pos h1]; rfl
      · rw [if_neg h1, if_neg h1]
        simp [MessageManager.new]
  have hid₁ := hqueue n
  have hid₂ := hqueue k
  rw [show (history (.new fcmSessionId) (ackedFirst.take 2)).messages[n]? = some msg from hn, hn1] at hid₁
  rw [show (history (.new fcmSessionId) (ackedFirst.take 2)).messages[k]? = some msg' from hk] at hid₂
  have hmid : msg.fcmMessageId = "a" := Option.some.inj hid₁
  rw [Option.map_some, hid, hmid] at hid₂
  split at hid₂
  · exact absurd hid₂ (by decide)
  · split at hid₂
    · rw [hn1]; assumption
    · cases hid₂

/-- Two messages with one FCM message id, of which the first is acked. -/
def ackedOfTwo : List QueueOp := [queued 1 "a", queued 2 "a", .removeMessageWithFcmMsgId "a"]

/-- The second message is in the queue, and its id is not mapped. -/
theorem index_unfaithful : ¬ ∀ (sid : SessionId) (maxPendingAllowed : Nat) (ops : List QueueOp),
    Fresh (.new sid maxPendingAllowed) ops →
    ∀ done, done <+: ops → Faithful (history (.new sid maxPendingAllowed) done) := by
  intro h
  have hfresh : Fresh (.new fcmSessionId) ackedOfTwo :=
    ⟨⟨rfl, by decide +kernel⟩, ⟨rfl, by decide +kernel⟩, trivial, trivial⟩
  have hf := h fcmSessionId maxPendingMessages ackedOfTwo hfresh ackedOfTwo List.prefix_rfl
  have hheld : (history (.new fcmSessionId) ackedOfTwo).messages[(2 : Int)]?.map (·.fcmMessageId) = some "a" := by
    decide +kernel
  have hindex : (history (.new fcmSessionId) ackedOfTwo).sequenceIdMap["a"]? = none := by decide +kernel
  obtain ⟨msg, hn, hid⟩ := Option.map_eq_some_iff.1 hheld
  obtain ⟨k, hk⟩ := (hf.mapped "a").2 ⟨2, msg, hn, hid⟩
  rw [hindex] at hk
  cases hk

/-! ## The groups -/

/-- The outcome of a removal of the message under `n`: it throws and changes nothing, or takes this message, and
no other, out of the queue and out of its group. -/
inductive Removal (m : MessageManager) (n : Int) : EStateM.Result Stop MessageManager Unit → Prop where
  | throws (what : String) : Removal m n (.error (.exception what) m)
  | takes {m' : MessageManager} {msg : Message} (held : m.messages[n]? = some msg)
      (queue : ∀ k : Int, m'.messages[k]? = if k = n then none else m.messages[k]?)
      (group : ∀ g k, m'.InGroup g k ↔ m.InGroup g k ∧ ¬ (g = msg.groupId ∧ k = n))
      (others : ∀ g, g ≠ msg.groupId → m'.groups[g]? = m.groups[g]?) : Removal m n (.ok () m')

/-- The group queues are the partition of the queue by group id, so no lookup of a group fails, and a removal
throws and changes nothing, or takes exactly one message out of the queue and out of its group. -/
structure Partitioned (m : MessageManager) : Prop where
  grouped : ∀ g : GroupId, (∃ grp, m.groups[g]? = some grp) ↔
    g ≠ "" ∧ ∃ (n : Int) (msg : Message), m.messages[n]? = some msg ∧ msg.groupId = g
  queue : ∀ (g : GroupId) (grp : Group), m.groups[g]? = some grp → grp.groupId = g ∧ (∃ n, n ∈ grp.msgQueue) ∧
    ∀ n, n ∈ grp.msgQueue ↔ ∃ msg : Message, m.messages[n]? = some msg ∧ msg.groupId = g
  canSend : ∀ (n : Int) (msg : Message), m.messages[n]? = some msg → msg.groupId ≠ "" →
    ∃ grp b, m.findGroup msg.groupId = .ok grp ∧ grp.canSend msg = .ok b
  removeMessage : ∀ n : Int, Removal m n (removeMessage n m)
  removeMessageWithFcmMsgId : ∀ x : FcmMessageId, ∃ n, Removal m n (removeMessageWithFcmMsgId x m)

theorem removal_without {n : Int} {msg : Message} (h : m.WF) (hn : m.messages[n]? = some msg) :
    Removal m n (.ok () (m.without msg)) := by
  have hkey := h.key hn
  refine .takes hn (fun k => ?_) (fun g k => ?_) fun g hg => MessageManager.groupsWithout_other hg
  · rw [MessageManager.without_getElem?, hkey]
  · rw [MessageManager.without_inGroup, hkey]

theorem partitioned_of_wf (h : m.WF) : Partitioned m := by
  refine ⟨fun g => ⟨?_, ?_⟩, fun g grp hg => ⟨h.groupId hg, h.nonempty hg, h.member hg⟩, fun n msg hn hb => ?_,
    fun n => ?_, fun x => ?_⟩
  · rintro ⟨grp, hg⟩
    obtain ⟨n, hn⟩ := h.nonempty hg
    exact ⟨h.not_blank hg, n, (h.member hg n).1 hn⟩
  · rintro ⟨hb, n, msg, hn, rfl⟩
    exact h.grouped hn hb
  · obtain ⟨grp, hg⟩ := h.grouped hn hb
    obtain ⟨front, hfront, -⟩ := h.first hg
    refine ⟨grp, decide (msg.sequenceId = front), ?_, ?_⟩
    · unfold MessageManager.findGroup
      rw [hg]
    · unfold Group.canSend
      rw [hfront]
  · rcases removeMessage_cases h n with ⟨-, what, he⟩ | ⟨msg, hn, he⟩
    · rw [he]; exact .throws what
    · rw [he]; exact removal_without h hn
  · rcases MessageManager.removeMessageWithFcmMsgId_cases h x with ⟨-, what, he⟩ | ⟨msg, -, hn, he⟩
    · exact ⟨0, by rw [he]; exact .throws what⟩
    · exact ⟨msg.sequenceId, by rw [he]; exact removal_without h hn⟩

/-- After every call of every history in which messages are added under fresh sequence ids of their own, the
groups are the partition of the queue, no group is missed, and a removal is exact. -/
theorem groups_partition (sid : SessionId) (maxPendingAllowed : Nat) (ops : List QueueOp)
    (hfresh : Fresh (.new sid maxPendingAllowed) ops) :
    ∀ done, done <+: ops → Partitioned (history (.new sid maxPendingAllowed) done) := by
  rintro done ⟨rest, rfl⟩
  exact partitioned_of_wf (history_wf (MessageManager.wf_new sid maxPendingAllowed) ((Run.along_append done).1 hfresh).1)

/-- Two messages of a group and one of another; the front of the first group is removed, and the only one of the other. -/
def emptied : List QueueOp :=
  [queuedIn "g" 1 "a", queuedIn "g" 2 "b", queuedIn "h" 3 "c", .removeMessage 1, .removeMessageWithFcmMsgId "c"]

theorem groups_partition_emptied :
    (∀ done, done <+: emptied → Partitioned (history (.new fcmSessionId) done)) ∧
    (history (.new fcmSessionId) (emptied.take 3)).groups.toList.map (fun p => (p.1, p.2.msgQueue.toList)) =
      [("g", [1, 2]), ("h", [3])] ∧
    (history (.new fcmSessionId) emptied).groups.toList.map (fun p => (p.1, p.2.msgQueue.toList)) = [("g", [2])] := by
  have hfresh : Fresh (.new fcmSessionId) emptied :=
    ⟨⟨rfl, by decide +kernel⟩, ⟨rfl, by decide +kernel⟩, ⟨rfl, by decide +kernel⟩, trivial, trivial, trivial⟩
  exact ⟨groups_partition fcmSessionId maxPendingMessages emptied hfresh, by decide +kernel, by decide +kernel⟩

/-! ## The next message -/

/-- A message of the same non-empty group with a smaller sequence id is in the queue. -/
def Behind (m : MessageManager) (msg : Message) : Prop :=
  msg.groupId ≠ "" ∧ ∃ (n : Int) (msg' : Message), m.messages[n]? = some msg' ∧ n < msg.sequenceId ∧
    msg'.groupId = msg.groupId

theorem front_iff (m : MessageManager) (msg : Message) : m.Front msg ↔ ¬ Behind m msg := by
  constructor
  · rintro hfront ⟨hb, n, msg', hn, hlt, hg⟩
    have := hfront hb n msg' hn hg
    omega
  · intro hno hb n msg' hn hg
    by_contra hlt
    exact hno ⟨hb, n, msg', hn, by omega, hg⟩

/-- A new message of the queue that is behind no other one. -/
structure Eligible (m : MessageManager) (msg : Message) : Prop where
  held : m.messages[msg.sequenceId]? = some msg
  new : msg.state = .new
  first : ¬ Behind m msg

/-- `getNext` finds nothing exactly if the count is at its limit or every new message is behind another one, and
otherwise the eligible message with the smallest sequence id. -/
structure PicksNext (m : MessageManager) (next : Option Message) : Prop where
  none : next = none ↔ maxPendingMessages ≤ m.pendingAckCount ∨
    ∀ (n : Int) (msg : Message), m.messages[n]? = some msg → msg.state = .new → Behind m msg
  some : ∀ msg, next = some msg → Eligible m msg ∧ ∀ msg', Eligible m msg' → msg.sequenceId ≤ msg'.sequenceId

/-- In every history in which messages are added under fresh sequence ids of their own, `getNext` does not throw
and picks the right message. -/
theorem getNext_picks (sid : SessionId) (maxPendingAllowed : Nat) (ops : List QueueOp)
    (hfresh : Fresh (.new sid maxPendingAllowed) ops) :
    ∃ next, (history (.new sid maxPendingAllowed) ops).getNext = .ok next ∧
      PicksNext (history (.new sid maxPendingAllowed) ops) next := by
  have h := history_wf (MessageManager.wf_new sid maxPendingAllowed) hfresh
  generalize history (.new sid maxPendingAllowed) ops = m at h
  rcases MessageManager.getNext_eq h with ⟨hnone, hno⟩ | ⟨msg, hsome, hheld, ⟨hnew, hcount, hfront⟩, hfirst⟩
  · refine ⟨none, hnone, ⟨fun _ => ?_, fun _ => rfl⟩, fun msg he => by cases he⟩
    by_contra hcon
    rw [not_or] at hcon
    refine hcon.2 fun n msg hn hnew => ?_
    by_contra hbehind
    exact hno n msg hn ⟨hnew, by omega, (front_iff m msg).2 hbehind⟩
  · refine ⟨some msg, hsome, ⟨fun he => (by cases he), ?_⟩, fun msg₁ he => ?_⟩
    · rintro (hfull | hall)
      · omega
      · exact absurd (hall _ msg hheld hnew) ((front_iff m msg).1 hfront)
    · cases he
      refine ⟨⟨hheld, hnew, (front_iff m msg).1 hfront⟩, fun msg' he => ?_⟩
      by_contra hlt
      exact hfirst _ msg' he.held (by omega) ⟨he.new, hcount, (front_iff m msg').2 he.first⟩

/-- The front of a group waits for its ack, so that the message behind it is passed over for one without a group. -/
def heldBack : List QueueOp :=
  [queuedIn "g" 1 "a", queuedIn "g" 2 "b", queued 3 "c", .setState 1 .pendingAck, .incrementPendingAckCount]

theorem getNext_picks_heldBack : ∃ next, (history (.new fcmSessionId) heldBack).getNext = .ok next ∧
    PicksNext (history (.new fcmSessionId) heldBack) next ∧ next.map (·.sequenceId) = some 3 := by
  have hfresh : Fresh (.new fcmSessionId) heldBack :=
    ⟨⟨rfl, by decide +kernel⟩, ⟨rfl, by decide +kernel⟩, ⟨rfl, by decide +kernel⟩, trivial, trivial, trivial⟩
  obtain ⟨next, hnext, hpicks⟩ := getNext_picks fcmSessionId maxPendingMessages heldBack hfresh
  refine ⟨next, hnext, hpicks, ?_⟩
  have hid : (history (.new fcmSessionId) heldBack).getNext.toOption.map (·.map (·.sequenceId)) = some (some 3) := by
    decide +kernel
  rw [show (history (.new fcmSessionId) heldBack).getNext = .ok next from hnext] at hid
  exact Option.some.inj hid

end

end Gimmm

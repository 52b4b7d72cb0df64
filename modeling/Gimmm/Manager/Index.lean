/-
The indexes of a manager agree with its queue: every message is under its own sequence id, an FCM
message id leads to a message that has it, and the group queues are the partition of the queue by
group id. Adding a message with a fresh sequence id, removing one and writing to one keep this, so
in a well-formed manager no lookup throws and the send rules and `getNext` are what they say.
-/
import Gimmm.Manager.Basic

namespace Gimmm

open Std

namespace MessageManager

/-- The group queue of `g` has the sequence id `n`. -/
def InGroup (m : MessageManager) (g : GroupId) (n : Int) : Prop :=
  ∃ grp : Group, m.groups[g]? = some grp ∧ n ∈ grp.msgQueue

/-- A well-formed manager: messages under their own sequence ids, sound FCM message ids, every
group queue under its own group id and not empty, and in the group queues exactly the messages
that have a group. -/
structure WF (m : MessageManager) : Prop where
  key : ∀ {n : Int} {msg : Message}, m.messages[n]? = some msg → msg.sequenceId = n
  index : ∀ {x : FcmMessageId} {n : Int}, m.sequenceIdMap[x]? = some n →
    ∃ msg : Message, m.messages[n]? = some msg ∧ msg.fcmMessageId = x
  groupId : ∀ {g : GroupId} {grp : Group}, m.groups[g]? = some grp → grp.groupId = g
  nonempty : ∀ {g : GroupId} {grp : Group}, m.groups[g]? = some grp → ∃ n, n ∈ grp.msgQueue
  inGroup : ∀ (g : GroupId) (n : Int), m.InGroup g n ↔
    g ≠ "" ∧ ∃ msg : Message, m.messages[n]? = some msg ∧ msg.groupId = g

/-- `msg` is not behind its group: it has none, or no message of the queue with the same group id
has a smaller sequence id. -/
def Front (m : MessageManager) (msg : Message) : Prop :=
  msg.groupId ≠ "" → ∀ (n : Int) (msg' : Message), m.messages[n]? = some msg' → msg'.groupId = msg.groupId → msg.sequenceId ≤ n

/-- What `canSendMessage` decides. -/
def Sendable (m : MessageManager) (msg : Message) : Prop :=
  msg.state = .new ∧ m.pendingAckCount < maxPendingMessages ∧ m.Front msg

theorem wf_new (sid : SessionId) (k : Nat) : (new sid k).WF :=
  ⟨by simp [new], by simp [new], by simp [new], by simp [new], by simp [new, InGroup]⟩

/-! ## The send rules -/

section
variable {m : MessageManager} {msg : Message}

theorem WF.grouped (h : m.WF) {n : Int} (hn : m.messages[n]? = some msg) (hg : msg.groupId ≠ "") :
    ∃ grp, m.groups[msg.groupId]? = some grp := by
  obtain ⟨grp, hgrp, -⟩ := (h.inGroup msg.groupId n).2 ⟨hg, msg, hn, rfl⟩
  exact ⟨grp, hgrp⟩

theorem WF.member (h : m.WF) {g : GroupId} {grp : Group} (hg : m.groups[g]? = some grp) (n : Int) :
    n ∈ grp.msgQueue ↔ ∃ msg : Message, m.messages[n]? = some msg ∧ msg.groupId = g := by
  constructor
  · intro hn; exact ((h.inGroup g n).1 ⟨grp, hg, hn⟩).2
  · intro hn
    have hne : g ≠ "" := h.groupId hg ▸ grp.nonblank
    obtain ⟨grp', hg', hn'⟩ := (h.inGroup g n).2 ⟨hne, hn⟩
    rw [hg] at hg'; cases hg'; exact hn'

theorem WF.first (h : m.WF) {g : GroupId} {grp : Group} (hg : m.groups[g]? = some grp) :
    ∃ front, grp.msgQueue.toList.head? = some front ∧ (∃ msg : Message, m.messages[front]? = some msg ∧ msg.groupId = g) ∧
      ∀ (n : Int) (msg : Message), m.messages[n]? = some msg → msg.groupId = g → front ≤ n := by
  rw [← ExtTreeSet.min?_eq_head?_toList]
  cases hf : grp.msgQueue.min? with
  | none =>
    obtain ⟨n, hn⟩ := h.nonempty hg
    rw [ExtTreeSet.min?_eq_none_iff.1 hf] at hn
    exact absurd hn ExtTreeSet.not_mem_empty
  | some front =>
    obtain ⟨h1, h2⟩ := ExtTreeSet.min?_eq_some_iff_mem_and_forall.1 hf
    refine ⟨front, rfl, (h.member hg front).1 h1, fun n msg hn hgm => ?_⟩
    exact Int.isLE_compare.1 (h2 n ((h.member hg n).2 ⟨msg, hn, hgm⟩))

/-- The group rule of a message of the queue. -/
theorem groupRule_eq (h : m.WF) {n : Int} {held : Message} (hn : m.messages[n]? = some held)
    (hs : msg.sequenceId = n) (hg : msg.groupId = held.groupId) :
    ∃ c, m.groupRule msg = .ok c ∧ (c = 0 ↔ m.Front msg) ∧ (c = 0 ∨ c = 3) := by
  unfold groupRule Front
  by_cases hb : msg.groupId = ""
  · exact ⟨0, by rw [if_neg (by simpa using hb)]; rfl, by simp [hb], Or.inl rfl⟩
  · obtain ⟨grp, hgrp⟩ := h.grouped hn (hg ▸ hb)
    rw [← hg] at hgrp
    obtain ⟨front, hmin, ⟨first, hfirst, hfg⟩, hle⟩ := h.first hgrp
    rw [if_pos hb]
    by_cases he : msg.sequenceId = front
    · refine ⟨0, ?_, ⟨fun _ _ k msg' hk hkg => he ▸ hle k msg' hk hkg, fun _ => rfl⟩, Or.inl rfl⟩
      simp [findGroup, hgrp, Group.canSend, hmin, he, bind, Except.bind, pure, Except.pure]
    · refine ⟨3, ?_, ⟨fun h3 => by simp at h3, fun hf => ?_⟩, Or.inr rfl⟩
      · simp [findGroup, hgrp, Group.canSend, hmin, he, bind, Except.bind, pure, Except.pure]
      · have h1 := hf hb front first hfirst hfg
        have h2 := hle n held hn hg.symm
        omega

/-- The send rule of a message of the queue. -/
theorem canSendMessage_eq (h : m.WF) {n : Int} {held : Message} (hn : m.messages[n]? = some held)
    (hs : msg.sequenceId = n) (hg : msg.groupId = held.groupId) :
    ∃ c, m.canSendMessage msg = .ok c ∧ (c = 0 ↔ m.Sendable msg) := by
  unfold canSendMessage Sendable
  by_cases h1 : msg.state = .new
  · rw [if_neg (by simpa using h1)]
    by_cases h2 : m.pendingAckCount ≥ maxPendingMessages
    · exact ⟨2, by rw [if_pos h2]; rfl, by simp; omega⟩
    · obtain ⟨c, hc, hiff, -⟩ := groupRule_eq h hn hs hg
      exact ⟨c, by rw [if_neg h2]; exact hc, by rw [hiff]; simp [h1]; omega⟩
  · exact ⟨1, by rw [if_pos h1]; rfl, by simp [h1]⟩

/-- The send rule on reconnect of a pending message of the queue: 2 when the window is full, else
the group rule. -/
theorem canSendMessageOnReconnect_eq (h : m.WF) {n : Int} {held : Message}
    (hn : m.messages[n]? = some held) (hs : msg.sequenceId = n) (hg : msg.groupId = held.groupId)
    (hp : msg.state.pending = true) :
    ∃ c, m.canSendMessageOnReconnect msg = .ok c ∧
      (c = 0 ∧ m.pendingAckCount < maxPendingMessages ∧ m.Front msg ∨
        c = 2 ∧ maxPendingMessages ≤ m.pendingAckCount ∨
        c = 3 ∧ m.pendingAckCount < maxPendingMessages ∧ ¬ m.Front msg) := by
  unfold canSendMessageOnReconnect
  have h1 : ¬ (msg.state ≠ .new ∧ msg.state ≠ .pendingAck) := by
    simp only [MessageState.pending, decide_eq_true_eq] at hp; tauto
  rw [if_neg h1]
  by_cases h2 : m.pendingAckCount ≥ maxPendingMessages
  · exact ⟨2, by rw [if_pos h2]; rfl, Or.inr (Or.inl ⟨rfl, h2⟩)⟩
  · obtain ⟨c, hc, hiff, h03⟩ := groupRule_eq h hn hs hg
    refine ⟨c, by rw [if_neg h2]; exact hc, ?_⟩
    rcases h03 with rfl | rfl
    · exact Or.inl ⟨rfl, by omega, hiff.1 rfl⟩
    · exact Or.inr (Or.inr ⟨rfl, by omega, fun hf => by simp at hiff; exact hiff hf⟩)

/-! ## The next message -/

theorem firstSendable_eq (h : m.WF) :
    ∀ l : List (Int × Message), (∀ p ∈ l, m.messages[p.1]? = some p.2) →
      l.Pairwise (fun a b => a.1 < b.1) →
      (m.firstSendable l = .ok none ∧ ∀ p ∈ l, ¬ m.Sendable p.2) ∨
      ∃ p ∈ l, m.firstSendable l = .ok (some p.2) ∧ m.Sendable p.2 ∧ ∀ q ∈ l, q.1 < p.1 → ¬ m.Sendable q.2
  | [], _, _ => Or.inl ⟨rfl, by simp⟩
  | (k, msg) :: rest, hl, hs => by
    have hk := hl _ (List.mem_cons_self ..)
    obtain ⟨c, hc, hiff⟩ := canSendMessage_eq h hk (h.key hk) rfl
    rw [List.pairwise_cons] at hs
    by_cases h0 : c = 0
    · refine Or.inr ⟨(k, msg), List.mem_cons_self .., ?_, hiff.1 h0, fun q hq hlt => ?_⟩
      · simp [firstSendable, hc, h0, bind, Except.bind, pure, Except.pure]
      · rcases List.mem_cons.1 hq with rfl | hq
        · exact absurd hlt (Int.lt_irrefl _)
        · exact absurd (Int.lt_trans (hs.1 q hq) hlt) (Int.lt_irrefl _)
    · have hstep : m.firstSendable ((k, msg) :: rest) = m.firstSendable rest := by
        simp [firstSendable, hc, h0, bind, Except.bind]
      have hno : ¬ m.Sendable msg := fun hsend => h0 (hiff.2 hsend)
      rw [hstep]
      rcases firstSendable_eq h rest (fun p hp => hl p (List.mem_cons_of_mem _ hp)) hs.2 with
        ⟨h1, h2⟩ | ⟨p, hp, h1, h2, h3⟩
      · refine Or.inl ⟨h1, fun p hp => ?_⟩
        rcases List.mem_cons.1 hp with rfl | hp
        · exact hno
        · exact h2 p hp
      · refine Or.inr ⟨p, List.mem_cons_of_mem _ hp, h1, h2, fun q hq hlt => ?_⟩
        rcases List.mem_cons.1 hq with rfl | hq
        · exact hno
        · exact h3 q hq hlt

theorem toList_pairwise (m : MessageManager) : m.messages.toList.Pairwise (fun a b => a.1 < b.1) :=
  ExtTreeMap.ordered_keys_toList.imp Int.compare_eq_lt.1

/-- `getNext` finds the first message that can be sent, or finds that there is none. -/
theorem getNext_eq (h : m.WF) :
    (m.getNext = .ok none ∧ ∀ (n : Int) (msg : Message), m.messages[n]? = some msg → ¬ m.Sendable msg) ∨
    ∃ msg : Message, m.getNext = .ok (some msg) ∧ m.messages[msg.sequenceId]? = some msg ∧ m.Sendable msg ∧
      ∀ (n : Int) (msg' : Message), m.messages[n]? = some msg' → n < msg.sequenceId → ¬ m.Sendable msg' := by
  have hl : ∀ p ∈ m.messages.toList, m.messages[p.1]? = some p.2 :=
    fun p hp => ExtTreeMap.mem_toList_iff_getElem?_eq_some.1 hp
  rcases firstSendable_eq h _ hl m.toList_pairwise with ⟨h1, h2⟩ | ⟨p, hp, h1, h2, h3⟩
  · exact Or.inl ⟨h1, fun n msg hn => h2 (n, msg) (ExtTreeMap.mem_toList_iff_getElem?_eq_some.2 hn)⟩
  · have hkey := h.key (hl p hp)
    refine Or.inr ⟨p.2, h1, by rw [hkey]; exact hl p hp, h2, fun n msg' hn hlt => ?_⟩
    exact h3 (n, msg') (ExtTreeMap.mem_toList_iff_getElem?_eq_some.2 hn) (hkey ▸ hlt)

end

end MessageManager

end Gimmm

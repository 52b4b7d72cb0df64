/-
What adding, removing and writing to a message do to a well-formed manager: the queue afterwards,
the indexes still agreeing with it, and the pending ack count still the number of messages pending
an ack.
-/
import Gimmm.Manager.Index

namespace Gimmm

open Std

namespace MessageManager

/-- The number of messages pending an ack. -/
def pendingCount (m : MessageManager) : Nat := MapCount.count (fun msg => msg.state = .pendingAck) m.messages

/-- The pending ack count is the number of messages pending an ack. -/
def CountExact (m : MessageManager) : Prop := m.pendingAckCount = m.pendingCount

/-- No message is counted when none is pending an ack. -/
theorem pendingCount_eq_zero {m : MessageManager}
    (h : ∀ (n : Int) (msg : Message), m.messages[n]? = some msg → msg.state ≠ .pendingAck) : m.pendingCount = 0 := by
  have he : m.messages.filter (fun _ msg => decide (msg.state = .pendingAck)) = ∅ := by
    apply ExtTreeMap.ext_getElem?
    intro n
    rw [MapCount.getElem?_filter_value, ExtTreeMap.getElem?_empty]
    cases hn : m.messages[n]? with
    | none => rfl
    | some msg => simp [Option.filter, h n msg hn]
  unfold pendingCount MapCount.count
  rw [he]; rfl


section
variable {m : MessageManager} {msg : Message} {n : Int}

theorem notMem_of_getElem? (hn : m.messages[n]? = none) : n ∉ m.messages := by
  rw [← ExtTreeMap.isSome_getElem?_iff_mem, hn]; simp

/-! ## Adding -/

/-- `addToGroups` only touches the group queues. -/
theorem addToGroups_eq (m : MessageManager) (msg : Message) : ∃ gs, m.addToGroups msg = { m with groups := gs } := by
  unfold addToGroups
  split
  · split
    · exact ⟨_, rfl⟩
    · exact ⟨_, rfl⟩
  · exact ⟨m.groups, rfl⟩

@[simp] theorem addMessage_messages : (m.addMessage n msg).messages = m.messages.insertIfNew n msg := by
  unfold addMessage
  obtain ⟨gs, hgs⟩ := addToGroups_eq _ msg
  rw [hgs]

@[simp] theorem addMessage_sequenceIdMap :
    (m.addMessage n msg).sequenceIdMap = m.sequenceIdMap.insertIfNew msg.fcmMessageId n := by
  unfold addMessage
  obtain ⟨gs, hgs⟩ := addToGroups_eq _ msg
  rw [hgs]

@[simp] theorem addMessage_pendingAckCount : (m.addMessage n msg).pendingAckCount = m.pendingAckCount := by
  unfold addMessage
  obtain ⟨gs, hgs⟩ := addToGroups_eq _ msg
  rw [hgs]

@[simp] theorem addMessage_sessionId : (m.addMessage n msg).sessionId = m.sessionId := by
  unfold addMessage
  obtain ⟨gs, hgs⟩ := addToGroups_eq _ msg
  rw [hgs]

theorem addMessage_getElem? (msg : Message) (hn : m.messages[n]? = none) (k : Int) :
    (m.addMessage n msg).messages[k]? = if k = n then some msg else m.messages[k]? := by
  rw [addMessage_messages, ExtTreeMap.getElem?_insertIfNew]
  by_cases hk : k = n
  · subst hk; rw [if_pos ⟨ReflCmp.compare_self, notMem_of_getElem? hn⟩, if_pos rfl]
  · rw [if_neg, if_neg hk]
    rintro ⟨h, -⟩; exact hk (LawfulEqCmp.eq_of_compare h).symm

theorem Group.add_msgQueue (grp : Group) (hg : msg.groupId = grp.groupId) (k : Int) :
    k ∈ (grp.add msg).msgQueue ↔ k = msg.sequenceId ∨ k ∈ grp.msgQueue := by
  unfold Group.add
  rw [if_pos hg]
  rw [ExtTreeSet.mem_insert, Std.compare_eq_iff_eq, eq_comm]

theorem Group.add_groupId (grp : Group) : (grp.add msg).groupId = grp.groupId := by
  unfold Group.add; split <;> rfl

/-- The group queue that a message with a group joins, as it is afterwards. -/
theorem addToGroups_own (hgid : ∀ grp : Group, m.groups[msg.groupId]? = some grp → grp.groupId = msg.groupId)
    (hb : msg.groupId ≠ "") : ∃ grp : Group, (m.addToGroups msg).groups[msg.groupId]? = some grp ∧
      grp.groupId = msg.groupId ∧ ∀ k, k ∈ grp.msgQueue ↔ k = msg.sequenceId ∨ m.InGroup msg.groupId k := by
  unfold addToGroups
  rw [dif_pos hb]
  cases hg : m.groups[msg.groupId]? with
  | some grp =>
    refine ⟨grp.add msg, ?_, by rw [Group.add_groupId, hgid grp hg], fun k => ?_⟩
    · show (m.groups.modify msg.groupId (·.add msg))[msg.groupId]? = _
      rw [ExtTreeMap.getElem?_modify_self, hg]; rfl
    · rw [Group.add_msgQueue grp (hgid grp hg).symm]
      simp only [InGroup, hg, Option.some.injEq, exists_eq_left']
  | none =>
    refine ⟨(Group.new msg.groupId hb).add msg, ?_, Group.add_groupId _, fun k => ?_⟩
    · show (m.groups.insertIfNew msg.groupId _)[msg.groupId]? = _
      rw [ExtTreeMap.getElem?_insertIfNew, if_pos]
      refine ⟨ReflCmp.compare_self, ?_⟩
      rw [← ExtTreeMap.isSome_getElem?_iff_mem, hg]; simp
    · rw [Group.add_msgQueue _ rfl]
      simp [InGroup, hg, Group.new]

theorem addToGroups_other {g : GroupId} (hg : g ≠ msg.groupId) :
    (m.addToGroups msg).groups[g]? = m.groups[g]? := by
  have hc : ¬ compare msg.groupId g = .eq := fun h => hg (LawfulEqCmp.eq_of_compare h).symm
  unfold addToGroups
  split
  · split
    · show (m.groups.modify msg.groupId (·.add msg))[g]? = _
      rw [ExtTreeMap.getElem?_modify, if_neg hc]
    · show (m.groups.insertIfNew msg.groupId _)[g]? = _
      rw [ExtTreeMap.getElem?_insertIfNew, if_neg (fun h => hc h.1)]
  · rfl

theorem addToGroups_blank (hb : msg.groupId = "") : m.addToGroups msg = m := by
  unfold addToGroups; rw [dif_neg (by simpa using hb)]

/-- Adding a message with a fresh sequence id keeps a manager well-formed. -/
theorem WF.addMessage (h : m.WF) (msg : Message) (hn : m.messages[n]? = none) (hs : msg.sequenceId = n) :
    (m.addMessage n msg).WF := by
  have hq := addMessage_getElem? msg hn
  -- the index does not touch the groups
  have hgroups : ∀ g : GroupId, (m.addMessage n msg).groups[g]? = (m.addToGroups msg).groups[g]? := by
    intro g
    by_cases hb : msg.groupId = ""
    · unfold MessageManager.addMessage; rw [addToGroups_blank hb, addToGroups_blank hb]
    · by_cases hg : g = msg.groupId
      · subst hg
        unfold MessageManager.addMessage addToGroups
        rw [dif_pos hb, dif_pos hb]
        simp only
        cases m.groups[msg.groupId]? <;> rfl
      · unfold MessageManager.addMessage
        rw [addToGroups_other hg, addToGroups_other hg]
  have hgid : ∀ grp : Group, m.groups[msg.groupId]? = some grp → grp.groupId = msg.groupId :=
    fun grp hgrp => h.groupId hgrp
  refine ⟨?_, ?_, ?_, ?_, ?_⟩
  · intro k msg' hk
    rw [hq] at hk
    split at hk
    · cases hk; rename_i hkn; rw [hs, hkn]
    · exact h.key hk
  · intro x k hx
    rw [addMessage_sequenceIdMap, ExtTreeMap.getElem?_insertIfNew] at hx
    rw [hq]
    split at hx
    · rename_i hc
      cases hx
      exact ⟨msg, if_pos rfl, LawfulEqCmp.eq_of_compare hc.1⟩
    · obtain ⟨msg', hk, hx'⟩ := h.index hx
      refine ⟨msg', ?_, hx'⟩
      rw [if_neg, hk]
      rintro rfl; rw [hn] at hk; cases hk
  · intro g grp hg
    rw [hgroups] at hg
    by_cases hgm : g = msg.groupId
    · subst hgm
      by_cases hb : msg.groupId = ""
      · rw [addToGroups_blank hb] at hg; exact h.groupId hg
      · obtain ⟨grp', hg', hid, -⟩ := addToGroups_own hgid hb
        rw [hg] at hg'; cases hg'; exact hid
    · rw [addToGroups_other hgm] at hg; exact h.groupId hg
  · intro g grp hg
    rw [hgroups] at hg
    by_cases hgm : g = msg.groupId
    · subst hgm
      by_cases hb : msg.groupId = ""
      · rw [addToGroups_blank hb] at hg; exact h.nonempty hg
      · obtain ⟨grp', hg', -, hmem⟩ := addToGroups_own hgid hb
        rw [hg] at hg'; cases hg'
        exact ⟨msg.sequenceId, (hmem _).2 (Or.inl rfl)⟩
    · rw [addToGroups_other hgm] at hg; exact h.nonempty hg
  · intro g k
    -- the members of a group are those before and, if it is its group, the message
    have hin : (m.addMessage n msg).InGroup g k ↔ (g ≠ "" ∧ g = msg.groupId ∧ k = n) ∨ m.InGroup g k := by
      unfold InGroup
      rw [hgroups]
      by_cases hgm : g = msg.groupId
      · subst hgm
        by_cases hb : msg.groupId = ""
        · rw [addToGroups_blank hb]; simp [hb]
        · obtain ⟨grp', hg', -, hmem⟩ := addToGroups_own hgid hb
          simp only [hg', Option.some.injEq, exists_eq_left', hmem, hs]
          simp [hb, InGroup]
      · rw [addToGroups_other hgm]; simp [hgm]
    rw [hin, h.inGroup, hq]
    by_cases hk : k = n
    · subst hk
      rw [hn]
      simp only [if_pos, Option.some.injEq, exists_eq_left', and_true, reduceCtorEq, false_and, exists_false,
        and_false, or_false]
      tauto
    · simp [hk]

theorem CountExact.addMessage (h : m.CountExact) (hn : m.messages[n]? = none) (hs : msg.state ≠ .pendingAck) :
    (m.addMessage n msg).CountExact := by
  unfold CountExact pendingCount at *
  rw [addMessage_pendingAckCount, addMessage_messages, MapCount.count_insertIfNew (notMem_of_getElem? hn), h]
  simp [hs]

/-! ## Writing to a message -/

@[simp] theorem modifyMessage_pendingAckCount (f : Message → Message) :
    (m.modifyMessage n f).pendingAckCount = m.pendingAckCount := rfl

@[simp] theorem modifyMessage_sessionId (f : Message → Message) :
    (m.modifyMessage n f).sessionId = m.sessionId := rfl

theorem modifyMessage_getElem? (f : Message → Message) (k : Int) :
    (m.modifyMessage n f).messages[k]? = if k = n then m.messages[k]?.map f else m.messages[k]? := by
  show (m.messages.modify n f)[k]? = _
  rw [ExtTreeMap.getElem?_modify]
  by_cases hk : k = n
  · subst hk; rw [if_pos ReflCmp.compare_self, if_pos rfl]
  · rw [if_neg, if_neg hk]
    intro h; exact hk (LawfulEqCmp.eq_of_compare h).symm

/-- What a write that keeps the fixed fields leaves of the queue: the same keys, the same fixed
fields. -/
theorem modifyMessage_fixed {f : Message → Message} (hf : ∀ msg, (f msg).fixed = msg.fixed) (k : Int) :
    (m.modifyMessage n f).messages[k]?.map Message.fixed = m.messages[k]?.map Message.fixed := by
  rw [modifyMessage_getElem?]
  split
  · cases m.messages[k]? <;> simp [hf]
  · rfl

/-- Two queues with the same fixed fields under the same keys have the same groups. -/
theorem exists_group_congr {m m' : MessageManager}
    (h : ∀ k : Int, m'.messages[k]?.map Message.fixed = m.messages[k]?.map Message.fixed) (k : Int) (P : GroupId → Prop) :
    (∃ msg : Message, m'.messages[k]? = some msg ∧ P msg.groupId) ↔
      ∃ msg : Message, m.messages[k]? = some msg ∧ P msg.groupId := by
  have hk := h k
  cases h1 : m'.messages[k]? <;> cases h2 : m.messages[k]? <;> rw [h1, h2] at hk <;> simp [Message.fixed] at hk ⊢
  rw [hk.2.2.2.2.2.1]

/-- Writing to the fields of a message that are not fixed keeps a manager well-formed. -/
theorem WF.modifyMessage (h : m.WF) {f : Message → Message} (hf : ∀ msg, (f msg).fixed = msg.fixed) :
    (m.modifyMessage n f).WF := by
  have hfix : ∀ k : Int, (m.modifyMessage n f).messages[k]?.map Message.fixed = m.messages[k]?.map Message.fixed :=
    modifyMessage_fixed hf
  have hback : ∀ {k : Int} {msg' : Message}, (m.modifyMessage n f).messages[k]? = some msg' →
      ∃ msg : Message, m.messages[k]? = some msg ∧ msg'.fixed = msg.fixed := by
    intro k msg' hk
    have := hfix k
    rw [hk] at this
    cases hm : m.messages[k]? with
    | none => rw [hm] at this; cases this
    | some msg => rw [hm] at this; exact ⟨msg, rfl, Option.some.inj this⟩
  refine ⟨?_, ?_, h.groupId, h.nonempty, ?_⟩
  · intro k msg' hk
    obtain ⟨msg, hm, hfm⟩ := hback hk
    exact (congrArg Message.Fixed.sequenceId hfm).trans (h.key hm)
  · intro x k hx
    obtain ⟨msg, hm, hxm⟩ := h.index hx
    have := hfix k
    rw [hm] at this
    cases hm' : (m.modifyMessage n f).messages[k]? with
    | none => rw [hm'] at this; cases this
    | some msg' =>
      rw [hm'] at this
      exact ⟨msg', rfl, (congrArg Message.Fixed.fcmMessageId (Option.some.inj this)).trans hxm⟩
  · intro g k
    rw [exists_group_congr hfix k (· = g)]
    exact h.inGroup g k

theorem CountExact.modifyMessage (h : m.CountExact) {f : Message → Message} (hf : ∀ msg, (f msg).state = msg.state) :
    (m.modifyMessage n f).CountExact := by
  unfold CountExact pendingCount at *
  show m.pendingAckCount = MapCount.count _ (m.messages.modify n f)
  rw [MapCount.count_modify_same f (fun msg _ => by rw [hf]), h]

theorem WF.incrementPendingAckCount (h : m.WF) : m.incrementPendingAckCount.WF :=
  ⟨h.key, h.index, h.groupId, h.nonempty, h.inGroup⟩

/-- A message is marked: pending an ack, and counted. -/
def mark (m : MessageManager) (seqid : Int) : MessageManager :=
  (m.modifyMessage seqid (·.setState .pendingAck)).incrementPendingAckCount

theorem WF.mark (h : m.WF) (n : Int) : (m.mark n).WF :=
  WF.incrementPendingAckCount (h.modifyMessage fun _ => rfl)

theorem mark_getElem? (k : Int) : (m.mark n).messages[k]? =
    if k = n then m.messages[k]?.map (·.setState .pendingAck) else m.messages[k]? :=
  modifyMessage_getElem? _ k

theorem CountExact.mark (h : m.CountExact) (hn : m.messages[n]? = some msg) (hs : msg.state ≠ .pendingAck) :
    (m.mark n).CountExact := by
  unfold CountExact pendingCount at *
  show m.pendingAckCount + 1 = MapCount.count _ (m.messages.modify n (·.setState .pendingAck))
  have := MapCount.count_modify (p := fun msg => decide (msg.state = .pendingAck)) (·.setState .pendingAck) hn
  simp only [hs, Message.setState_state] at this
  simpa [h] using this.symm

/-! ## Removing -/

/-- The group queues without the message `msg`. -/
def groupsWithout (m : MessageManager) (msg : Message) : ExtTreeMap GroupId Group :=
  match m.groups[msg.groupId]? with
  | some grp =>
    let grp := grp.remove msg.sequenceId
    if grp.msgQueue.isEmpty then m.groups.erase msg.groupId else m.groups.modify msg.groupId fun _ => grp
  | none => m.groups

/-- The manager without the message `msg` of its queue. -/
def without (m : MessageManager) (msg : Message) : MessageManager where
  sessionId := m.sessionId
  maxPendingAllowed := m.maxPendingAllowed
  pendingAckCount := if msg.state = .pendingAck then m.pendingAckCount - 1 else m.pendingAckCount
  sequenceIdMap := m.sequenceIdMap.erase msg.fcmMessageId
  messages := m.messages.erase msg.sequenceId
  groups := m.groupsWithout msg

theorem ask_ok {α : Type} {f : MessageManager → Except Stop α} {a : α} (h : f m = .ok a) : ask f m = .ok a m := by
  unfold ask; rw [h]

theorem removeFromGroups_eq {msg : Message} (h : msg.groupId ≠ "" → ∃ grp, m.groups[msg.groupId]? = some grp)
    (h0 : ∀ grp, m.groups[msg.groupId]? = some grp → msg.groupId ≠ "") :
    removeFromGroups msg.groupId msg.sequenceId m = .ok () { m with groups := m.groupsWithout msg } := by
  unfold removeFromGroups groupsWithout
  by_cases hb : msg.groupId = ""
  · have hn : m.groups[msg.groupId]? = none := by
      cases hg : m.groups[msg.groupId]? with
      | none => rfl
      | some grp => exact absurd hb (h0 grp hg)
    rw [if_pos hb, hn]; rfl
  · obtain ⟨grp, hg⟩ := h hb
    have hf : m.findGroup msg.groupId = .ok grp := by unfold findGroup; rw [hg]
    rw [if_neg hb, hg, Prog.bind_ok (ask_ok hf), Prog.bind_ok (Prog.modify_ok _ m)]
    by_cases hE : (grp.remove msg.sequenceId).msgQueue.isEmpty = true
    · have he : (m.groups.modify msg.groupId fun _ => grp.remove msg.sequenceId).erase msg.groupId =
        m.groups.erase msg.groupId := MapCount.erase_modify _
      simp only [if_pos hE, Prog.modify_ok, he]
    · simp only [if_neg hE]; rfl

theorem WF.not_blank (h : m.WF) {g : GroupId} {grp : Group} (hg : m.groups[g]? = some grp) : g ≠ "" :=
  h.groupId hg ▸ grp.nonblank

/-- In a well-formed manager `removeMessage` removes the message it finds and does not throw. -/
theorem removeMessage_eq (h : m.WF) (hn : m.messages[n]? = some msg) :
    removeMessage n m = .ok () (m.without msg) := by
  have hs : msg.sequenceId = n := h.key hn
  subst hs
  have hf : m.findMessage msg.sequenceId = .ok msg := by unfold findMessage; rw [hn]
  have hgr := removeFromGroups_eq (m := { m with messages := m.messages.erase msg.sequenceId })
    (h.grouped hn) (fun grp hg => h.not_blank hg)
  unfold removeMessage
  rw [Prog.bind_ok (ask_ok hf), Prog.bind_ok (Prog.modify_ok _ m), Prog.bind_ok hgr,
    Prog.bind_ok (Prog.modify_ok _ _)]
  unfold without
  by_cases hp : msg.state = .pendingAck
  · rw [if_pos hp, if_pos hp, Prog.modify_ok]
    unfold decrementPendingAckCount
    by_cases h0 : m.pendingAckCount = 0
    · rw [if_neg (by simpa using h0), h0]; rfl
    · rw [if_pos (by simpa using h0)]; rfl
  · rw [if_neg hp, if_neg hp]; rfl

theorem without_getElem? (k : Int) :
    (m.without msg).messages[k]? = if k = msg.sequenceId then none else m.messages[k]? := by
  show (m.messages.erase msg.sequenceId)[k]? = _
  rw [ExtTreeMap.getElem?_erase]
  by_cases hk : k = msg.sequenceId
  · subst hk; rw [if_pos ReflCmp.compare_self, if_pos rfl]
  · rw [if_neg, if_neg hk]
    intro h; exact hk (LawfulEqCmp.eq_of_compare h).symm

/-- A message that stays was there before. -/
theorem of_without {k : Int} {msg' : Message} (h : (m.without msg).messages[k]? = some msg') :
    m.messages[k]? = some msg' ∧ k ≠ msg.sequenceId := by
  rw [without_getElem?] at h
  split at h
  · cases h
  · exact ⟨h, by assumption⟩

theorem groupsWithout_other {g : GroupId} (hg : g ≠ msg.groupId) : (m.groupsWithout msg)[g]? = m.groups[g]? := by
  have hc : ¬ compare msg.groupId g = .eq := fun h => hg (LawfulEqCmp.eq_of_compare h).symm
  unfold groupsWithout
  cases m.groups[msg.groupId]? with
  | none => rfl
  | some grp =>
    simp only
    split
    · rw [ExtTreeMap.getElem?_erase, if_neg hc]
    · rw [ExtTreeMap.getElem?_modify, if_neg hc]

/-- What is left of the group queue that a message leaves. -/
theorem groupsWithout_own {grp : Group} (h : (m.groupsWithout msg)[msg.groupId]? = some grp) :
    (∃ n, n ∈ grp.msgQueue) ∧ ∃ grp' : Group, m.groups[msg.groupId]? = some grp' ∧ grp.groupId = grp'.groupId := by
  unfold groupsWithout at h
  cases hg : m.groups[msg.groupId]? with
  | none => rw [hg] at h; simp only [hg] at h; cases h
  | some grp' =>
    rw [hg] at h
    simp only at h
    split at h
    · rw [ExtTreeMap.getElem?_erase, if_pos ReflCmp.compare_self] at h; cases h
    · rename_i he
      rw [ExtTreeMap.getElem?_modify_self, hg] at h
      cases h
      refine ⟨?_, grp', rfl, rfl⟩
      by_contra hno
      exact he (ExtTreeSet.isEmpty_iff.2 (ExtTreeSet.eq_empty_iff_forall_not_mem.2 fun n hn => hno ⟨n, hn⟩))

theorem without_inGroup (g : GroupId) (k : Int) :
    (m.without msg).InGroup g k ↔ m.InGroup g k ∧ ¬ (g = msg.groupId ∧ k = msg.sequenceId) := by
  show (∃ grp : Group, (m.groupsWithout msg)[g]? = some grp ∧ k ∈ grp.msgQueue) ↔ _
  by_cases hg : g = msg.groupId
  · subst hg
    unfold groupsWithout InGroup
    cases hg : m.groups[msg.groupId]? with
    | none => simp [hg]
    | some grp =>
      have hmem : k ∈ (grp.remove msg.sequenceId).msgQueue ↔ k ≠ msg.sequenceId ∧ k ∈ grp.msgQueue := by
        show k ∈ grp.msgQueue.erase msg.sequenceId ↔ _
        rw [ExtTreeSet.mem_erase, ne_eq, Std.compare_eq_iff_eq, eq_comm]
      simp only
      split
      · rename_i he
        have hno := ExtTreeSet.eq_empty_iff_forall_not_mem.1 (ExtTreeSet.isEmpty_iff.1 he) k
        rw [hmem] at hno
        simp only [ExtTreeMap.getElem?_erase, ReflCmp.compare_self, if_pos, reduceCtorEq, false_and, exists_false,
          Option.some.injEq, exists_eq_left', false_iff]
        tauto
      · simp only [ExtTreeMap.getElem?_modify_self, hg, Option.map_some, Option.some.injEq, exists_eq_left', hmem]
        tauto
  · rw [groupsWithout_other hg]
    simp [InGroup, hg]

/-- Removing a message keeps a manager well-formed. -/
theorem WF.without (h : m.WF) (hn : m.messages[n]? = some msg) : (m.without msg).WF := by
  have hs : msg.sequenceId = n := h.key hn
  refine ⟨fun hk => h.key (of_without hk).1, ?_, ?_, ?_, ?_⟩
  · intro x k hx
    have hx' : (m.sequenceIdMap.erase msg.fcmMessageId)[x]? = some k := hx
    rw [ExtTreeMap.getElem?_erase] at hx'
    split at hx'
    · cases hx'
    · rename_i hc
      obtain ⟨msg', hk, hmx⟩ := h.index hx'
      refine ⟨msg', ?_, hmx⟩
      rw [without_getElem?, if_neg, hk]
      intro hkn
      rw [hkn, hs, hn] at hk
      cases hk
      exact hc (hmx ▸ ReflCmp.compare_self)
  · intro g grp hg
    by_cases hgm : g = msg.groupId
    · subst hgm
      obtain ⟨-, grp', hg', he⟩ := groupsWithout_own hg
      exact he.trans (h.groupId hg')
    · exact h.groupId ((groupsWithout_other hgm).symm.trans hg)
  · intro g grp hg
    by_cases hgm : g = msg.groupId
    · subst hgm; exact (groupsWithout_own hg).1
    · exact h.nonempty ((groupsWithout_other hgm).symm.trans hg)
  · intro g k
    rw [without_inGroup, h.inGroup, without_getElem?]
    by_cases hk : k = msg.sequenceId
    · subst hk
      rw [if_pos rfl, hs, hn]
      simp only [Option.some.injEq, exists_eq_left', and_true, reduceCtorEq, false_and, exists_false, and_false,
        iff_false]
      rintro ⟨⟨-, rfl⟩, h2⟩; exact h2 rfl
    · rw [if_neg hk]; simp [hk]

theorem CountExact.without (h : m.CountExact) (hs : msg.sequenceId = n) (hn : m.messages[n]? = some msg) :
    (m.without msg).CountExact := by
  unfold CountExact pendingCount at *
  have hc := MapCount.count_erase (p := fun msg : Message => decide (msg.state = .pendingAck)) hn
  show (if msg.state = .pendingAck then m.pendingAckCount - 1 else m.pendingAckCount) =
    MapCount.count _ (m.messages.erase msg.sequenceId)
  rw [hs, h]
  by_cases hp : msg.state = .pendingAck
  · simp only [hp, decide_true, if_true] at hc ⊢; omega
  · simp only [hp, decide_false] at hc; rw [if_neg hp]; simpa using hc

/-! ## By FCM message id -/

theorem findSequenceId_ok {x : FcmMessageId} {n : Int} : m.findSequenceId x = .ok n ↔ m.sequenceIdMap[x]? = some n := by
  unfold findSequenceId
  cases m.sequenceIdMap[x]? <;> simp

theorem findMessageWithFcmMsgId_ok {x : FcmMessageId} {n : Int} (hx : m.findSequenceId x = .ok n)
    (hn : m.messages[n]? = some msg) : m.findMessageWithFcmMsgId x = .ok msg := by
  unfold findMessageWithFcmMsgId
  rw [hx]
  show m.findMessage n = _
  unfold findMessage
  rw [hn]

/-- Every message is found by its FCM message id. -/
def Indexed (m : MessageManager) : Prop :=
  ∀ (n : Int) (msg : Message), m.messages[n]? = some msg → m.findSequenceId msg.fcmMessageId = .ok n

theorem Indexed.find (h : m.Indexed) {n : Int} (hn : m.messages[n]? = some msg) :
    m.findMessageWithFcmMsgId msg.fcmMessageId = .ok msg := findMessageWithFcmMsgId_ok (h n msg hn) hn

theorem indexed_of_list (h : m.messages.toList.all (fun p => m.sequenceIdMap[p.2.fcmMessageId]? = some p.1) = true) :
    m.Indexed := by
  intro n msg hn
  have hp := List.all_eq_true.1 h (n, msg) (ExtTreeMap.mem_toList_iff_getElem?_eq_some.2 hn)
  exact findSequenceId_ok.2 (of_decide_eq_true hp)

/-- A lookup by FCM message id of a well-formed manager finds a message with that id. -/
theorem WF.find (h : m.WF) {x : FcmMessageId} {msg : Message} (hf : m.findMessageWithFcmMsgId x = .ok msg) :
    m.findSequenceId x = .ok msg.sequenceId ∧ m.messages[msg.sequenceId]? = some msg ∧ msg.fcmMessageId = x := by
  unfold findMessageWithFcmMsgId findSequenceId at *
  cases hx : m.sequenceIdMap[x]? with
  | none => simp only [hx] at hf; cases hf
  | some k =>
    obtain ⟨msg', hk, hm⟩ := h.index hx
    simp only [hx] at hf
    unfold findMessage at hf
    have : (Except.ok msg' : Except Stop Message) = .ok msg := by simpa [bind, Except.bind, hk] using hf
    cases this
    rw [h.key hk]
    exact ⟨rfl, hk, hm⟩

theorem removeMessageWithFcmMsgId_eq (h : m.WF) {x : FcmMessageId} (hf : m.findMessageWithFcmMsgId x = .ok msg) :
    removeMessageWithFcmMsgId x m = .ok () (m.without msg) := by
  obtain ⟨h1, h2, -⟩ := h.find hf
  unfold removeMessageWithFcmMsgId
  rw [Prog.bind_ok (ask_ok h1), removeMessage_eq h h2]

/-- In a well-formed manager `removeMessageWithFcmMsgId` finds no message and throws, or removes one. -/
theorem removeMessageWithFcmMsgId_cases (h : m.WF) (x : FcmMessageId) :
    (m.sequenceIdMap[x]? = none ∧ ∃ what, removeMessageWithFcmMsgId x m = .error (.exception what) m) ∨
    ∃ msg : Message, m.findMessageWithFcmMsgId x = .ok msg ∧ m.messages[msg.sequenceId]? = some msg ∧
      removeMessageWithFcmMsgId x m = .ok () (m.without msg) := by
  unfold removeMessageWithFcmMsgId
  cases hx : m.sequenceIdMap[x]? with
  | none =>
    have hf : ask (·.findSequenceId x) m = .error (.exception ("Cannot find sequenceid for msgid[" ++ x ++ "]")) m := by
      simp only [ask, findSequenceId, hx]
    exact Or.inl ⟨rfl, _, Prog.bind_error hf⟩
  | some k =>
    obtain ⟨msg, hk, -⟩ := h.index hx
    obtain rfl := h.key hk
    have hf : m.findSequenceId x = .ok msg.sequenceId := by unfold findSequenceId; rw [hx]
    have hfind : m.findMessage msg.sequenceId = .ok msg := by unfold findMessage; rw [hk]
    refine Or.inr ⟨msg, ?_, hk, ?_⟩
    · unfold findMessageWithFcmMsgId; rw [hf]; exact hfind
    · rw [Prog.bind_ok (ask_ok hf), removeMessage_eq h hk]

/-- What is evaluated of the next message after a removal. -/
theorem getNext_of_removed {x : FcmMessageId} {P : Option Message → Bool}
    (h : (m.findMessageWithFcmMsgId x).toOption.map (fun msg => (m.without msg).getNext.toOption.map P) =
      some (some true)) (hf : m.findMessageWithFcmMsgId x = .ok msg) :
    ∃ next, (m.without msg).getNext = .ok next ∧ P next = true := by
  rw [hf] at h
  have h : (m.without msg).getNext.toOption.map P = some true := Option.some.inj h
  cases hg : (m.without msg).getNext with
  | error e => rw [hg] at h; cases h
  | ok next => rw [hg] at h; exact ⟨next, rfl, Option.some.inj h⟩

end

end MessageManager

end Gimmm

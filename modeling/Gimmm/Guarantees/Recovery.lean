/-
A restart. The load of the pending rows does not restore the pending ack count, drops the group ids, and
reads its texts up to their first NUL, so what it makes of a table that agrees with the lost managers is
equivalent to them exactly when nothing was counted, nothing was grouped and no text was cut.
-/
import Gimmm.Flow.Simulation

namespace Gimmm

open Std CString

/-- The table agrees with the manager `m` of `sid`: the messages are pending rows in the same states, and so are all
pending rows with the target session `sid`. -/
structure Matches (s : Server) (sid : SessionId) (m : MessageManager) : Prop where
  held : ∀ (n : Int) (msg : Message), m.messages[n]? = some msg → ∃ row, s.db.rows[n]? = some row ∧ row.state = msg.state
  rows : ∀ (n : Int) (row : Row), s.db.rows[n]? = some row → row.targetSession = sid → row.state.pending = true →
    ∃ msg, m.messages[n]? = some msg ∧ msg.state = row.state

/-- Every manager of the server, with its session id. -/
def Server.Manages (s : Server) (sid : SessionId) (m : MessageManager) : Prop :=
  (sid = fcmSessionId ∧ m = s.app.fcmMsgManager) ∨ s.app.balManager sid = some m

/-- The manager counts no message and groups none, and no target and no FCM message id in it has a NUL. -/
structure Bare (m : MessageManager) : Prop where
  count : m.pendingAckCount = 0
  groups : ∀ (n : Int) (msg : Message), m.messages[n]? = some msg → msg.groupId = ""
  texts : ∀ (n : Int) (msg : Message), m.messages[n]? = some msg → NoNul msg.targetSessionId ∧ NoNul msg.fcmMessageId

namespace MessageManager

/-- Two managers with the same messages up to their retry state, the same group queues and the same count,
which decide the same for every message. -/
structure Equivalent (m m' : MessageManager) : Prop where
  messages : ∀ n : Int, m'.messages[n]?.map (fun msg => (msg.fixed, msg.state)) =
    m.messages[n]?.map (fun msg => (msg.fixed, msg.state))
  groups : ∀ g n, m'.InGroup g n ↔ m.InGroup g n
  count : m'.pendingAckCount = m.pendingAckCount
  canSend : ∀ (n : Int) (msg : Message), m.messages[n]? = some msg → m'.canSendMessage msg = m.canSendMessage msg
  canSendOnReconnect : ∀ (n : Int) (msg : Message), m.messages[n]? = some msg →
    m'.canSendMessageOnReconnect msg = m.canSendMessageOnReconnect msg
  next : ∃ o o' : Option Message, m.getNext = .ok o ∧ m'.getNext = .ok o' ∧ o'.map (·.sequenceId) = o.map (·.sequenceId)

section
variable {m m' : MessageManager}

/-- Two managers with the same messages up to their retry state. -/
def SameMessages (m m' : MessageManager) : Prop := ∀ n : Int,
  m'.messages[n]?.map (fun msg => (msg.fixed, msg.state)) = m.messages[n]?.map (fun msg => (msg.fixed, msg.state))

theorem SameMessages.symm (h : m.SameMessages m') : m'.SameMessages m := fun n => (h n).symm

theorem SameMessages.find (h : m.SameMessages m') {n : Int} {msg : Message} (hn : m.messages[n]? = some msg) :
    ∃ msg', m'.messages[n]? = some msg' ∧ msg'.fixed = msg.fixed ∧ msg'.state = msg.state := by
  have hk := h n
  rw [hn] at hk
  obtain ⟨msg', h1, h2⟩ := Option.map_eq_some_iff.1 hk
  exact ⟨msg', h1, (Prod.mk.inj h2).1, (Prod.mk.inj h2).2⟩

theorem SameMessages.front (h : m.SameMessages m') {msg msg' : Message} (hf : msg'.fixed = msg.fixed)
    (hfront : m.Front msg) : m'.Front msg' := by
  have hseq : msg'.sequenceId = msg.sequenceId := congrArg Message.Fixed.sequenceId hf
  have hgid : msg'.groupId = msg.groupId := congrArg Message.Fixed.groupId hf
  intro hg n other hn hog
  obtain ⟨other', h1, h2, -⟩ := h.symm.find hn
  rw [hseq]
  refine hfront (hgid ▸ hg) n other' h1 ?_
  rw [← hgid, ← hog]
  exact congrArg Message.Fixed.groupId h2

theorem SameMessages.groupRule (h : m.SameMessages m') (hwf : m.WF) (hwf' : m'.WF) {n : Int} {msg : Message}
    (hn : m.messages[n]? = some msg) : m'.groupRule msg = m.groupRule msg := by
  obtain ⟨msg', hn', hf, -⟩ := h.find hn
  have hgid : msg.groupId = msg'.groupId := (congrArg Message.Fixed.groupId hf).symm
  obtain ⟨c, hc, hiff, hval⟩ := groupRule_eq hwf hn (hwf.key hn) rfl
  obtain ⟨c', hc', hiff', hval'⟩ := groupRule_eq hwf' hn' (hwf.key hn) hgid
  have hcc : c' = 0 ↔ c = 0 := by
    rw [hiff, hiff']; exact ⟨h.symm.front rfl, h.front rfl⟩
  rw [hc, hc']
  rcases hval with rfl | rfl <;> rcases hval' with rfl | rfl <;> simp at hcc ⊢

/-- Managers with the same messages, groups and count decide the same. -/
theorem SameMessages.equivalent (h : m.SameMessages m') (hwf : m.WF) (hwf' : m'.WF)
    (hg : ∀ g n, m'.InGroup g n ↔ m.InGroup g n) (hc : m'.pendingAckCount = m.pendingAckCount) : m.Equivalent m' := by
  have hsend : ∀ {m m' : MessageManager} {msg msg' : Message}, m.SameMessages m' → m'.pendingAckCount = m.pendingAckCount →
      msg'.fixed = msg.fixed → msg'.state = msg.state → m.Sendable msg → m'.Sendable msg' :=
    fun h hc hf hs ⟨h1, h2, h3⟩ => ⟨hs.trans h1, by rw [hc]; exact h2, h.front hf h3⟩
  refine ⟨h, hg, hc, fun n msg hn => ?_, fun n msg hn => ?_, ?_⟩
  · unfold canSendMessage; rw [hc, h.groupRule hwf hwf' hn]
  · unfold canSendMessageOnReconnect; rw [hc, h.groupRule hwf hwf' hn]
  · rcases getNext_eq hwf with ⟨h1, h2⟩ | ⟨msg, h1, h2, h3, h4⟩ <;>
      rcases getNext_eq hwf' with ⟨h1', h2'⟩ | ⟨msg', h1', h2', h3', h4'⟩
    · exact ⟨_, _, h1, h1', rfl⟩
    · obtain ⟨msg, hn, hf, hs⟩ := h.symm.find h2'
      exact absurd (hsend h.symm hc.symm hf hs h3') (h2 _ _ hn)
    · obtain ⟨msg', hn, hf, hs⟩ := h.find h2
      exact absurd (hsend h hc hf hs h3) (h2' _ _ hn)
    · refine ⟨_, _, h1, h1', congrArg some ?_⟩
      obtain ⟨other, hn, hf, hs⟩ := h.find h2
      obtain ⟨other', hn', hf', hs'⟩ := h.symm.find h2'
      have hle : ¬ msg.sequenceId < msg'.sequenceId := fun hlt => h4' _ _ hn hlt (hsend h hc hf hs h3)
      have hle' : ¬ msg'.sequenceId < msg.sequenceId := fun hlt => h4 _ _ hn' hlt (hsend h.symm hc.symm hf' hs' h3')
      show msg'.sequenceId = msg.sequenceId
      omega

end

end MessageManager

/-! ## Loading -/

section
variable {s : Server} {sid : SessionId} {m m' : MessageManager} {scan : Database.Scan} {junk : Int → Int × Int}

/-- The load makes an equivalent manager exactly of a bare one. -/
theorem loaded_equivalent_iff (hwf : m.WF) (hmatch : Matches s sid m)
    (hkept : ∀ {n : Int} {msg : Message}, m.messages[n]? = some msg → Kept (stores s) sid msg)
    (hfresh : Database.Fresh s.db scan junk sid m') (hscan : scan.Complete) : m.Equivalent m' ↔ Bare m := by
  constructor
  · intro h
    -- a loaded message has no group, and its texts come from a row
    have hloaded : ∀ (n : Int) (msg : Message), m.messages[n]? = some msg →
        ∃ row : Row, msg.fixed = (row.toMessage (junk n)).fixed := by
      intro n msg hn
      obtain ⟨msg', hn', hf, -⟩ := MessageManager.SameMessages.find h.messages hn
      obtain ⟨row, -, -, -, rfl⟩ := hfresh.held n msg' hn'
      exact ⟨row, hf.symm⟩
    refine ⟨h.count.symm.trans hfresh.pendingAckCount, fun n msg hn => ?_, fun n msg hn => ?_⟩
    · obtain ⟨row, hf⟩ := hloaded n msg hn
      exact congrArg Message.Fixed.groupId hf
    · obtain ⟨row, hf⟩ := hloaded n msg hn
      have htarget : msg.targetSessionId = row.targetSession := congrArg Message.Fixed.targetSessionId hf
      have hid : msg.fcmMessageId = row.fcmMessageId := congrArg Message.Fixed.fcmMessageId hf
      rw [htarget, hid]
      exact ⟨row.noNul.2.1, row.noNul.2.2.1⟩
  · intro hbare
    -- the rows of the bare messages are selected, and nothing else is
    have hsame : m.SameMessages m' := by
      intro n
      cases hn : m.messages[n]? with
      | none =>
        cases hn' : m'.messages[n]? with
        | none => rfl
        | some msg' =>
          obtain ⟨row, h1, h2, h3, -⟩ := hfresh.held n msg' hn'
          obtain ⟨msg, h4, -⟩ := hmatch.rows n row h1 h3 h2
          rw [hn] at h4; cases h4
      | some msg =>
        obtain ⟨row, h1, hstate⟩ := hmatch.held n msg hn
        obtain ⟨row', h1', hs⟩ := (hkept hn).saved
        rw [hwf.key hn] at h1'
        obtain rfl : row = row' := Option.some.inj (h1.symm.trans h1')
        obtain ⟨htarget, hid⟩ := hbare.texts n msg hn
        have htarget' : row.targetSession = msg.targetSessionId := hs.targetSession.trans (cString_of_noNul htarget)
        rw [hfresh.all hscan n row h1 (hstate ▸ (hkept hn).pending) (htarget'.trans (hkept hn).target)]
        have hf : (row.toMessage (junk n)).fixed = msg.fixed := by
          show Message.Fixed.mk _ _ _ _ _ _ _ = Message.Fixed.mk _ _ _ _ _ _ _
          rw [Message.Fixed.mk.injEq]
          exact ⟨hs.sequenceId, hs.sourceSession, htarget', hs.type, hs.fcmMessageId.trans (cString_of_noNul hid),
            (hbare.groups n msg hn).symm, hs.payload⟩
        exact congrArg some (Prod.ext hf hstate)
    refine hsame.equivalent hwf hfresh.wf (fun g n => ?_) (hfresh.pendingAckCount.trans hbare.count.symm)
    rw [hfresh.wf.inGroup, hwf.inGroup]
    constructor
    · rintro ⟨hg, msg', hn', rfl⟩
      obtain ⟨row, -, -, -, rfl⟩ := hfresh.held n msg' hn'
      exact absurd rfl hg
    · rintro ⟨hg, msg, hn, rfl⟩
      exact absurd (hbare.groups n msg hn) hg

end

/-! ## Restarts -/

/-- `Matches` and `Bare`, computed. -/
def matchesList (s : Server) (sid : SessionId) (m : MessageManager) : Bool :=
  (s.db.rows.toList.filter fun p => p.2.targetSession = sid ∧ p.2.state.pending).map (fun p => (p.1, p.2.state)) =
    m.messages.toList.map fun p => (p.1, p.2.state)

def bareList (m : MessageManager) : Bool := m.pendingAckCount = 0 ∧ m.messages.toList.all fun p =>
  p.2.groupId = "" ∧ NoNul p.2.targetSessionId ∧ NoNul p.2.fcmMessageId

theorem matches_of_list {s : Server} {sid : SessionId} {m : MessageManager} (h : matchesList s sid m = true) :
    Matches s sid m := by
  have h := of_decide_eq_true h
  have hrow : ∀ (n : Int) (state : MessageState),
      (n, state) ∈ ((s.db.rows.toList.filter fun p => p.2.targetSession = sid ∧ p.2.state.pending).map
        fun p => (p.1, p.2.state)) ↔
      ∃ row, s.db.rows[n]? = some row ∧ row.targetSession = sid ∧ row.state = state ∧ state.pending = true := by
    intro n state
    simp only [List.mem_map, List.mem_filter, Prod.exists, Prod.mk.injEq, ExtTreeMap.mem_toList_iff_getElem?_eq_some,
      decide_eq_true_eq]
    constructor
    · rintro ⟨_, row, ⟨h1, h2, h3⟩, rfl, rfl⟩; exact ⟨row, h1, h2, rfl, h3⟩
    · rintro ⟨row, h1, h2, rfl, h3⟩; exact ⟨n, row, ⟨h1, h2, h3⟩, rfl, rfl⟩
  have hmsg : ∀ (n : Int) (state : MessageState), (n, state) ∈ (m.messages.toList.map fun p => (p.1, p.2.state)) ↔
      ∃ msg, m.messages[n]? = some msg ∧ msg.state = state := by
    intro n state
    simp only [List.mem_map, Prod.exists, Prod.mk.injEq, ExtTreeMap.mem_toList_iff_getElem?_eq_some]
    constructor
    · rintro ⟨_, msg, h1, rfl, rfl⟩; exact ⟨msg, h1, rfl⟩
    · rintro ⟨msg, h1, rfl⟩; exact ⟨n, msg, h1, rfl, rfl⟩
  refine ⟨fun n msg hn => ?_, fun n row hn htarget hp => ?_⟩
  · obtain ⟨row, h1, -, h2, -⟩ := (hrow n msg.state).1 (by rw [h]; exact (hmsg n msg.state).2 ⟨msg, hn, rfl⟩)
    exact ⟨row, h1, h2⟩
  · exact (hmsg n row.state).1 (by rw [← h]; exact (hrow n row.state).2 ⟨row, hn, htarget, rfl, hp⟩)

theorem bare_of_list {m : MessageManager} (h : bareList m = true) : Bare m := by
  obtain ⟨h1, h2⟩ := of_decide_eq_true h
  have hall : ∀ (n : Int) (msg : Message), m.messages[n]? = some msg →
      msg.groupId = "" ∧ NoNul msg.targetSessionId ∧ NoNul msg.fcmMessageId := fun n msg hn =>
    of_decide_eq_true (List.all_eq_true.1 h2 (n, msg) (ExtTreeMap.mem_toList_iff_getElem?_eq_some.2 hn))
  exact ⟨h1, fun n msg hn => (hall n msg hn).1, fun n msg hn => (hall n msg hn).2⟩

theorem manages_of_all {db : Database} {is : List Input} {P : SessionId → MessageManager → Bool}
    (hfcm : P fcmSessionId (run ["bal"] (boot ["bal"] .quiet db) is).app.fcmMsgManager = true)
    (hbal : ((run ["bal"] (boot ["bal"] .quiet db) is).app.balManager "bal").all (P "bal") = true) (sid : SessionId)
    (m : MessageManager) (hm : (run ["bal"] (boot ["bal"] .quiet db) is).Manages sid m) : P sid m = true := by
  rcases hm with ⟨rfl, rfl⟩ | hm
  · exact hfcm
  · obtain rfl : sid = "bal" := by simpa using ((run_base ["bal"] .quiet db is).known sid).1 ⟨m, hm⟩
    rw [hm] at hbal; exact hbal

/-- One downstream message, and a restart. -/
def restartedOnce : List Input := loggedOn "bal" ++ [.quiet (.balFrame 0 (balDownstream "a" "")), .quiet .restart]

/-- One downstream message of a group, pending its ack. -/
def grouped : List Input := loggedOn "bal" ++ [.quiet (.balFrame 0 (balDownstream "a" "g"))]

end Gimmm

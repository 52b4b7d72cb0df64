/-
The flow-control window of FCM. A first upload takes a free slot and counts its message; a next upload, a resend
and a retry timer upload without counting. So the window holds in a run in which these three upload no message
but those that are counted already.
-/
import Mathlib.Data.List.Nodup
import Gimmm.Guarantees.Slots

namespace Gimmm

open Std

/-- The downstream messages uploaded since a session was last established, and neither acked nor nacked
since then. -/
def outstanding : List Obs → List Int
  | [] => []
  | o :: log =>
    match o.what with
    | .upload msg => (outstanding log).insert msg.sequenceId
    | .established => []
    | .acked mid | .nacked mid =>
      match o.server.app.fcmMsgManager.findMessageWithFcmMsgId mid with
      | .ok msg => (outstanding log).erase msg.sequenceId
      | .error _ => outstanding log
    | .fcmAck .. | .balWrite .. => outstanding log

/-- The queue holds the message `n`, pending an ack. -/
def MessageManager.Awaits (m : MessageManager) (n : Int) : Prop :=
  ∃ msg, m.messages[n]? = some msg ∧ msg.state = .pendingAck

/-- Only counted messages are uploaded again: an ack or a nack leaves no message to send next, a new session
finds no new message to send and, if the window is full, none out of retries, and a retry timer fires for a
message pending an ack. -/
structure Counted (b : Stores) (i : Input) : Prop where
  next : ∀ old s, Settles i b old s → (b.fcm.without old).getNext = .ok none
  resend : Establishes i → ∀ (n : Int) (msg : Message), b.fcm.messages[n]? = some msg → msg.state = .new →
    b.fcm.canSendMessageOnReconnect msg ≠ .ok 0
  full : Establishes i → maxPendingMessages ≤ b.fcm.pendingAckCount → Patient i b.fcm
  fire : ∀ msg, Expires i b (.retryDownstream msg) → b.fcm.Awaits msg.sequenceId

/-- The count is exact and within the window, and the outstanding messages are counted. -/
structure Windowed (b : Books) : Prop where
  count : b.fcm.CountExact
  window : b.fcm.pendingAckCount ≤ maxPendingMessages
  awaits : ∀ n ∈ outstanding b.log, b.fcm.Awaits n
  past : ∀ log, log <:+ b.log → (outstanding log).length ≤ maxPendingMessages

/-! ## Outstanding messages -/

section
variable {log : List Obs} {o : Obs} {msg : Message} {n : Int}

theorem outstanding_nodup (log : List Obs) : (outstanding log).Nodup := by
  induction log with
  | nil => exact List.nodup_nil
  | cons o log ih =>
    unfold outstanding
    split
    · exact List.Nodup.insert ih
    · exact List.nodup_nil
    · split
      · exact ih.erase _
      · exact ih
    · split
      · exact ih.erase _
      · exact ih
    · exact ih
    · exact ih

/-- Only an upload makes a message outstanding. -/
theorem outstanding_cons (h : n ∈ outstanding (o :: log)) :
    n ∈ outstanding log ∨ ∃ msg, o.what = .upload msg ∧ n = msg.sequenceId := by
  unfold outstanding at h
  split at h
  · rename_i msg hw
    rcases List.mem_insert_iff.1 h with rfl | h
    · exact Or.inr ⟨msg, hw, rfl⟩
    · exact Or.inl h
  · cases h
  · split at h
    · exact Or.inl (List.mem_of_mem_erase h)
    · exact Or.inl h
  · split at h
    · exact Or.inl (List.mem_of_mem_erase h)
    · exact Or.inl h
  · exact Or.inl h
  · exact Or.inl h

theorem outstanding_of_quiet (ho : ∀ msg, o.what ≠ .upload msg) (h : n ∈ outstanding (o :: log)) :
    n ∈ outstanding log := by
  rcases outstanding_cons h with h | ⟨msg, hw, -⟩
  · exact h
  · exact absurd hw (ho msg)

/-- A message that is acked or nacked is not outstanding. -/
theorem outstanding_names (h : o.Names msg) (hn : n ∈ outstanding (o :: log)) :
    n ∈ outstanding log ∧ n ≠ msg.sequenceId := by
  obtain ⟨mid, hw, hf⟩ := h
  have he : outstanding (o :: log) = (outstanding log).erase msg.sequenceId := by
    rcases hw with hw | hw <;> simp only [outstanding, hw, hf]
  rw [he, (outstanding_nodup log).mem_erase_iff] at hn
  exact hn.symm

end

/-! ## The queue -/

namespace MessageManager

variable {m : MessageManager} {msg : Message} {n k : Int}

theorem Awaits.addMessage (h : m.Awaits k) (hn : m.messages[n]? = none) : (m.addMessage n msg).Awaits k := by
  obtain ⟨held, hk, hs⟩ := h
  refine ⟨held, ?_, hs⟩
  rw [addMessage_getElem? msg hn, if_neg, hk]
  rintro rfl; rw [hn] at hk; cases hk

theorem Awaits.modifyMessage (h : m.Awaits k) {f : Message → Message} (hf : ∀ msg, (f msg).state = msg.state) :
    (m.modifyMessage n f).Awaits k := by
  obtain ⟨held, hk, hs⟩ := h
  unfold Awaits
  rw [modifyMessage_getElem?, hk]
  split
  · exact ⟨f held, rfl, (hf held).trans hs⟩
  · exact ⟨held, rfl, hs⟩

theorem Awaits.mark (h : m.Awaits k) : (m.mark n).Awaits k := by
  obtain ⟨held, hk, hs⟩ := h
  unfold Awaits
  rw [mark_getElem?, hk]
  split
  · exact ⟨_, rfl, rfl⟩
  · exact ⟨held, rfl, hs⟩

theorem Awaits.without (h : m.Awaits k) (hk : k ≠ msg.sequenceId) : (m.without msg).Awaits k := by
  obtain ⟨held, hk', hs⟩ := h
  exact ⟨held, by rw [without_getElem?, if_neg hk, hk'], hs⟩

theorem Within.front {m₀ : MessageManager} (h : m.Within m₀) (hf : m.Front msg) : m₀.Front msg := by
  intro hg n msg' hn hgm
  obtain ⟨held, hk, hfix, -⟩ := h n msg' hn
  exact hf hg n held hk ((congrArg Message.Fixed.groupId hfix).symm.trans hgm)

end MessageManager

/-! ## Acts -/

section
variable {cfg : List SessionId} {i : Input} {b₀ b b' : Books} {d d' : Debt}

/-- Every act keeps the count of the FCM queue within the window. -/
theorem window_act (h : b.fcm.pendingAckCount ≤ maxPendingMessages) (ha : Act i b₀ b d b' d') :
    b'.fcm.pendingAckCount ≤ maxPendingMessages := by
  cases ha with
  | accept mid gid sid data hm source request id => simpa [Books.setFcm] using h
  | mark held sendable => exact sendable.2.1
  | settle settles fcm log names => exact Nat.le_trans (without_count_le _ _) h
  | drop held out cause => exact Nat.le_trans (without_count_le _ _) h
  | _ => exact h

/-- An uploaded message is pending an ack. -/
theorem Upload.awaits (hC : Counted b₀.toStores i) (h₀ : Base cfg b₀ .none) (hb : Base cfg b d) {msg : Message}
    (h : Upload i b₀ b msg) : b.fcm.Awaits msg.sequenceId := by
  cases h with
  | first new held => exact ⟨_, held, rfl⟩
  | next old s o settles fcm next => rw [fcm, hC.next old s settles] at next; cases next
  | resend est within held count front patient =>
    obtain ⟨kept, same⟩ := patient (hC.full est)
    obtain ⟨now, hnow, hfix, hst⟩ := held
    obtain ⟨first, hfirst, hfix₀, hst₀⟩ := within _ now hnow
    have hpend := (hb.fcmHeld hnow).pending
    refine ⟨now, hnow, ?_⟩
    by_contra hne
    have hnew : first.state = .new := by
      rw [← hst₀]
      simp only [MessageState.pending, decide_eq_true_eq] at hpend
      tauto
    have hsame : first.fixed = msg.fixed := hfix₀.symm.trans hfix
    have hfront : b₀.fcm.Front first := by
      have hgid : first.groupId = msg.groupId := congrArg Message.Fixed.groupId hsame
      have hseq : first.sequenceId = msg.sequenceId := congrArg Message.Fixed.sequenceId hsame
      have := kept.front front
      unfold MessageManager.Front at this ⊢
      rw [hgid, hseq]; exact this
    obtain ⟨c, hc, hcase⟩ := MessageManager.canSendMessageOnReconnect_eq h₀.fcm hfirst (h₀.fcm.key hfirst) rfl
      (h₀.fcmHeld hfirst).pending
    rcases hcase with ⟨rfl, -⟩ | ⟨-, full⟩ | ⟨-, -, hnot⟩
    · exact hC.resend est _ first hfirst hnew hc
    · rw [same] at count; omega
    · exact hnot hfront
  | fire expires fcm => rw [fcm]; exact hC.fire msg expires

namespace Windowed

theorem observe (h : Windowed b) {o : Obs} (ho : ∀ n ∈ outstanding (o :: b.log), b.fcm.Awaits n) :
    Windowed (b.observe o) := by
  refine ⟨h.count, h.window, ho, fun log hlog => ?_⟩
  rcases List.suffix_cons_iff.1 hlog with rfl | hlog
  · refine Nat.le_trans (MapCount.length_le_count (outstanding_nodup _) fun n hn => ?_) (h.count ▸ h.window)
    obtain ⟨msg, hm, hs⟩ := ho n hn
    exact ⟨msg, hm, decide_eq_true hs⟩
  · exact h.past log hlog

theorem observe_quiet (h : Windowed b) {o : Obs} (ho : ∀ msg, o.what ≠ .upload msg) : Windowed (b.observe o) :=
  h.observe fun n hn => h.awaits n (outstanding_of_quiet ho hn)

theorem act (hC : Counted b₀.toStores i) (h₀ : Base cfg b₀ .none) (hb : Base cfg b d) (h : Windowed b)
    (ha : Act i b₀ b d b' d') : Windowed b' := by
  have hcount := countExact_act hb h.count ha
  have hwindow := window_act h.window ha
  cases ha with
  | accept mid gid sid data hm source request id =>
    rename_i msg
    have hs : msg.sequenceId = b.counter + 1 := by rw [hm]; rfl
    exact ⟨hcount, hwindow, fun n hn => (h.awaits n hn).addMessage (hs ▸ hb.fresh), h.past⟩
  | mark held sendable => exact ⟨hcount, hwindow, fun n hn => (h.awaits n hn).mark, h.past⟩
  | upload cause what server =>
    refine h.observe fun n hn => ?_
    rcases outstanding_cons hn with hn | ⟨msg', hw, rfl⟩
    · exact h.awaits n hn
    · rw [what] at hw; cases hw
      exact cause.awaits hC h₀ hb
  | settle settles fcm log names =>
    refine ⟨hcount, hwindow, fun n hn => (h.awaits n hn).without ?_, h.past⟩
    have hn : n ∈ outstanding b.log := hn
    rw [log] at hn
    -- the record of the ack takes the id off the outstanding ones
    exact (outstanding_names names hn).2
  | drop held out cause =>
    refine ⟨hcount, hwindow, fun n hn => (h.awaits n hn).without ?_, h.past⟩
    cases cause with
    | nack old o nacked seq log names =>
      have hn : n ∈ outstanding b.log := hn
      rw [log] at hn
      rw [seq]; exact (outstanding_names names hn).2
    | reconnect est count => exact absurd (hC.full est count) out
  | touchDown n f hf =>
    exact ⟨hcount, hwindow, fun n hn => (h.awaits n hn).modifyMessage fun msg => (hf msg).2, h.past⟩
  | fcmAck data type what => exact h.observe_quiet fun msg hw => by rw [what] at hw; cases hw
  | write cause what => exact h.observe_quiet fun msg hw => by rw [what] at hw; cases hw
  | record server what =>
    refine h.observe_quiet fun msg hw => ?_
    rcases what with ⟨hw', -⟩ | ⟨_, hw'⟩ | ⟨_, hw'⟩ <;> rw [hw'] at hw <;> cases hw
  | _ => exact ⟨hcount, hwindow, h.awaits, h.past⟩

/-- A step that the process survives, and that uploads only counted messages again, keeps the window. -/
theorem step {w : World} (h₀ : Base cfg (books w) .none) (hlive : survives w i = true)
    (hC : Counted (stores w.toServer) i) (h : Windowed (books w)) : Windowed (books (step cfg w i)) :=
  (step_live h₀ hlive).invariant_base (P := fun b _ => Windowed b) h₀ h fun hb _ _ hP ha => act hC h₀ hb hP ha

theorem boot (cfg : List SessionId) (env : Env) {db : Database}
    (hdb : ∀ (n : Int) (row : Row), db.rows[n]? = some row → row.targetSession = fcmSessionId → row.state ≠ .pendingAck) :
    Windowed (books (boot cfg env db)) := by
  have hf := Database.loadPendingMessages_fresh db (env.scan fcmSessionId) env.junk fcmSessionId
  have h0 : (books (Gimmm.boot cfg env db)).fcm.pendingAckCount = 0 := hf.pendingAckCount
  refine ⟨h0.trans (MessageManager.pendingCount_eq_zero fun n msg hn => ?_).symm, by rw [h0]; exact Nat.zero_le _,
    fun n hn => (by cases hn), fun log hlog => ?_⟩
  · obtain ⟨row, hrow, -, htarget, rfl⟩ := hf.held n msg hn
    exact hdb n row hrow htarget
  · rw [List.suffix_nil.1 hlog]; exact Nat.zero_le _

end Windowed

end

/-- In every live run that starts without downstream messages pending an ack and uploads only counted messages
again, never more than `maxPendingMessages` messages are outstanding. -/
theorem outstanding_le (cfg : List SessionId) (env : Env) (db : Database) (is : List Input)
    (hdb : ∀ (n : Int) (row : Row), db.rows[n]? = some row → row.targetSession = fcmSessionId → row.state ≠ .pendingAck)
    (hlive : Live cfg (boot cfg env db) is)
    (hcounted : Run.Along (step cfg) (fun w i => Counted (stores w.toServer) i) (boot cfg env db) is)
    (log : List Obs) (hlog : log <:+ (run cfg (boot cfg env db) is).log) :
    (outstanding log).length ≤ maxPendingMessages :=
  (run_invariant (P := Windowed) (fun _ _ hb hC hP => Windowed.step hb hC.1 hC.2 hP) (boot_base cfg env db)
    (Run.Along.and is hlive hcounted) (Windowed.boot cfg env hdb)).2.past log hlog

/-- An ack or a nack of `mid` leaves no message to send next. -/
def MessageManager.idleAfter (m : MessageManager) (mid : FcmMessageId) : Bool :=
  match m.findMessageWithFcmMsgId mid with
  | .ok old =>
    match (m.without old).getNext with
    | .ok next => next.isNone
    | .error _ => false
  | .error _ => true

/-- A check of `Counted`; a session is established only when the window has room. -/
def World.uploadsCounted (w : World) (i : Input) : Bool :=
  (i.event.settles.all fun p => w.app.fcmMsgManager.idleAfter p.1) &&
  match i.event with
  | .fcmSessionEstablished _ => w.app.fcmMsgManager.pendingAckCount < maxPendingMessages ∧
      w.app.fcmMsgManager.messages.toList.all fun p => p.2.state ≠ .new
  | .timer k =>
    match w.app.timers[k]? with
    | some (.retryDownstream msg) => w.app.fcmMsgManager.messages[msg.sequenceId]?.any fun held => held.state = .pendingAck
    | _ => true
  | _ => true

theorem counted_of_check {w : World} {i : Input} (h : w.uploadsCounted i = true) : Counted (stores w.toServer) i := by
  unfold World.uploadsCounted at h
  rw [Bool.and_eq_true] at h
  obtain ⟨hsettles, hevent⟩ := h
  constructor
  · rintro old s ⟨mid, he, hfind⟩
    have hfind : w.app.fcmMsgManager.findMessageWithFcmMsgId mid = .ok old := hfind
    rw [he] at hsettles
    have hidle : w.app.fcmMsgManager.idleAfter mid = true := hsettles
    unfold MessageManager.idleAfter at hidle
    rw [hfind] at hidle
    show (w.app.fcmMsgManager.without old).getNext = _
    cases hnext : (w.app.fcmMsgManager.without old).getNext with
    | ok next =>
      simp only [hnext, Option.isNone_iff_eq_none] at hidle
      rw [hidle]
    | error e => simp [hnext] at hidle
  · rintro ⟨id, he⟩ n msg hn hnew
    simp only [he, decide_eq_true_eq, List.all_eq_true] at hevent
    exact absurd hnew (hevent.2 (n, msg) (ExtTreeMap.mem_toList_iff_getElem?_eq_some.2 hn))
  · rintro ⟨id, he⟩ hfull
    simp only [he, decide_eq_true_eq] at hevent
    exact absurd hevent.1 (Nat.not_lt.2 hfull)
  · rintro msg ⟨k, he, htimer⟩
    have htimer : w.app.timers[k]? = some (.retryDownstream msg) := htimer
    simp only [he, htimer, Option.any_eq_true, decide_eq_true_eq] at hevent
    exact hevent

/-- Three messages, of which one is acked and one nacked; a new session uploads the two that are left again, and the
timer of the one that was nacked uploads it once more. -/
def renewed : List Input :=
  loggedOn "bal" ++ [.quiet (.balFrame 0 (balDownstream "a" "")), .quiet (.balFrame 0 (balDownstream "b" "")),
    .quiet (.balFrame 0 (balDownstream "c" "g")), .quiet (.fcmAck (fcmAck "a")),
    .quiet (.fcmNack (fcmNack "b" "SERVICE_UNAVAILABLE")), .quiet (.fcmSessionEstablished 1), .quiet (.timer 1)]

theorem outstanding_le_renewed :
    (∀ log, log <:+ (run ["bal"] (boot ["bal"] .quiet .empty) renewed).log → (outstanding log).length ≤ maxPendingMessages) ∧
    (List.range 10).map (fun k => outstanding (run ["bal"] (boot ["bal"] .quiet .empty) (renewed.take k)).log) =
      [[], [], [], [1], [2, 1], [3, 2, 1], [3, 2], [3], [3, 2], [3, 2]] := by
  have hcheck : Run.Along (step ["bal"]) (fun w i => w.uploadsCounted i = true) (boot ["bal"] .quiet .empty) renewed := by
    decide +kernel
  have hcounted : Run.Along (step ["bal"]) (fun w i => Counted (stores w.toServer) i) (boot ["bal"] .quiet .empty) renewed :=
    hcheck.mono fun _ _ h => counted_of_check h
  refine ⟨outstanding_le ["bal"] .quiet .empty renewed (fun n row hn => ?_) (by unfold Live; decide +kernel) hcounted,
    by decide +kernel⟩
  have hn : (∅ : ExtTreeMap Int Row)[n]? = some row := hn
  simp at hn

/-- 101 messages fill the window and leave one new; after an ack that one is uploaded, and one more after it. -/
def overflowing : List Input :=
  loggedOn "bal" ++ ((List.range 101).map fun k => .quiet (.balFrame 0 (balDownstream (toString k) ""))) ++
    [.quiet (.fcmAck (fcmAck "0")), .quiet (.balFrame 0 (balDownstream "101" ""))]

set_option maxRecDepth 100000 in
theorem outstanding_exceeds : Live ["bal"] (boot ["bal"] .quiet .empty) overflowing ∧
    maxPendingMessages < (outstanding (run ["bal"] (boot ["bal"] .quiet .empty) overflowing).log).length :=
  ⟨by unfold Live; decide +kernel, by decide +kernel⟩

end Gimmm

/-
Why the FCM queue does not come to a standstill. Messages can be stranded, but not all of them: as long as nothing fails
and no retry is given up, a queue that is not empty holds a message that was handed to `sendMessage`. So an ack can
always come, each one lets the next message go, and acks alone empty the queue.
-/
import Gimmm.Guarantees.Stranded
import Gimmm.Guarantees.Survival

namespace Gimmm

open Std Prog
open MessageManager (Sendable)

/-! ## What leaves the queue alone -/

/-- The FCM queue holds the messages that it held, each in the state that it had. -/
def SameStates (w w' : World) : Prop :=
  ∀ n : Int, (w'.app.fcmMsgManager.messages[n]?).map (·.state) = (w.app.fcmMsgManager.messages[n]?).map (·.state)

instance : IsPreorder World SameStates where
  refl _ _ := rfl
  trans _ _ _ h h' n := (h' n).trans (h n)

theorem sameStates_of_fcm {w w' : World} (h : w'.app.fcmMsgManager = w.app.fcmMsgManager) : SameStates w w' := by
  intro n
  rw [h]

theorem MessageManager.modifyMessage_states (m : MessageManager) (n : Int) {f : Message → Message}
    (hf : ∀ msg, (f msg).state = msg.state) (k : Int) :
    ((m.modifyMessage n f).messages[k]?).map (·.state) = (m.messages[k]?).map (·.state) := by
  rw [MessageManager.modifyMessage_getElem?]
  split
  · rw [Option.map_map]
    exact congrFun (congrArg Option.map (funext hf)) _
  · rfl

theorem MessageManager.retrying_states (m : MessageManager) (n : Int) (d : Draw) (k : Int) :
    ((m.retrying n d).messages[k]?).map (·.state) = (m.messages[k]?).map (·.state) := by
  unfold MessageManager.retrying
  rw [MessageManager.modifyMessage_states (f := (·.setRetryInProgress true)) _ _ fun _ => rfl]
  exact MessageManager.modifyMessage_states _ _ (fun msg => Message.getNextRetryTimeout_state msg d) k

theorem sameStates_session : SessionFrame (fun _ _ => True) SameStates where
  refl _ := trivial
  add _ _ _ := trivial
  touch _ _ _ _ := trivial
  increment _ := trivial
  counter _ _ _ := rfl
  insert _ _ _ _ _ _ := rfl
  mark _ _ _ := rfl
  putBal _ _ _ _ _ _ _ := rfl
  balWrite _ _ _ _ _ := rfl

theorem sameStates_connection : ConnectionFrame SameStates where
  change _ _ hfcm _ _ _ := sameStates_of_fcm hfcm
  logon _ _ _ _ := rfl

section
variable {E : Env → Prop} {sid : SessionId} {msg : Message} {doc : Json}

theorem keeps_upstream_states (hE : Env.Closed E) : Keeps E SameStates (handleFcmNewUpstreamMessage doc) := by
  unfold handleFcmNewUpstreamMessage
  refine keeps_guarded (Keeps.bind sameStates_session.getNextSequenceId fun n => ?_)
  refine Keeps.bind (keeps_saveMsg hE fun _ _ _ _ => rfl) fun _ => ?_
  exact Keeps.bind (keeps_output hE fun _ _ => rfl) fun _ => sameStates_session.forwardMsgToBalsession hE

theorem keeps_onBal_states {α : Type} {x : EStateM Stop MessageManager α} : Keeps E SameStates (onBal sid x) :=
  sameStates_session.onBal (allowed_all x)

theorem keeps_balAck_states (hE : Env.Closed E) {n : Int} : Keeps E SameStates (handleBalAckMsg sid n) := by
  unfold handleBalAckMsg
  refine keeps_guarded (Keeps.bind keeps_onBal_states fun _ => Keeps.bind sameStates_session.askBal fun msg => ?_)
  refine Keeps.bind (keeps_updateMsgState hE fun _ _ => rfl) fun _ => ?_
  exact Keeps.bind keeps_onBal_states fun _ => sameStates_session.sendNextPendingUpstreamMessage hE

theorem keeps_singleShot_states {msec : Int} {t : Timer} : Keeps E SameStates (singleShot msec t) := by
  unfold singleShot
  split
  · exact Keeps.pure _
  · exact Keeps.update fun _ _ => rfl

theorem keeps_retryUpstream_states (hE : Env.Closed E) :
    Keeps E SameStates (retryUpstreamWithExponentialBackoff sid msg) := by
  unfold retryUpstreamWithExponentialBackoff
  refine Keeps.bind (Keeps.decision hE.popDraw) fun d => Keeps.bind keeps_onBal_states fun _ => ?_
  dsimp only
  split
  · exact Keeps.bind keeps_onBal_states fun _ => keeps_singleShot_states
  · exact Keeps.bind (keeps_updateMsgState hE fun _ _ => rfl) fun _ => keeps_onBal_states

theorem keeps_resendUpstream_states (hE : Env.Closed E) : Keeps E SameStates (resendPendingUpstreamMessages sid) := by
  refine keeps_forEachMessage fun msg => ?_
  split
  · refine Keeps.bind sameStates_session.askBal fun rcode => ?_
    split
    · split
      · refine Keeps.bind (keeps_updateMsgState hE fun _ _ => rfl) fun _ => ?_
        exact Keeps.bind keeps_onBal_states fun _ => sameStates_session.forwardMsg hE
      · exact sameStates_session.forwardMsg hE
    · split
      · exact keeps_retryUpstream_states hE
      · split
        · exact Keeps.pure _
        · exact keeps_onBal_states
  · exact Keeps.pure _

/-! ## The downstream side -/

/-- Every message of the FCM queue can be retried. -/
def AllCanRetry (w : World) : Prop :=
  ∀ (n : Int) (msg : Message), w.app.fcmMsgManager.messages[n]? = some msg → msg.CanRetry

variable {w w' : World}

/-- A retry that is not given up. -/
theorem wp_retryDownstream_states (hE : Env.Closed E) (hcan : msg.CanRetry) (hsame : SameStates w w') :
    Wp E (retryDownstreamWithExponentialBackoff msg)
      (fun _ w'' => SameStates w w'' ∧ ∀ n : Int, n ≠ msg.sequenceId →
        w''.app.fcmMsgManager.messages[n]? = w'.app.fcmMsgManager.messages[n]?)
      (fun _ => SameStates w) w' := by
  refine (wp_retryDownstream_left hE hcan).mono ?_ fun _ _ h => h
  rintro - w'' ⟨d, hfcm⟩
  refine ⟨fun n => ?_, fun n hn => ?_⟩
  · rw [hfcm, MessageManager.retrying_states]
    exact hsame n
  · rw [hfcm]
    unfold MessageManager.retrying
    rw [MessageManager.modifyMessage_getElem?, if_neg hn, MessageManager.modifyMessage_getElem?, if_neg hn]

theorem wp_upload_app (hE : Env.Closed E) :
    Wp E (uploadToFcm msg) (fun _ w' => w'.app = w.app) (fun _ w' => w'.app = w.app) w := by
  unfold uploadToFcm output
  refine Wp.bind (Wp.decision hE.popFault fun env _ => ?_)
  split
  · exact Wp.bind (Wp.throw rfl)
  · exact Wp.update rfl

/-- The loop of a resend comes to every message as it was at the start, so it gives up no retry. -/
theorem wp_resendAll_states (hE : Env.Closed E) (hwf : w.app.fcmMsgManager.WF) (hcan : AllCanRetry w) :
    Wp E resendAllPendingDownstreamMessages (fun _ => SameStates w) (fun _ => SameStates w) w := by
  let I : List Int → World → Prop := fun l w' => SameStates w w' ∧ l.Nodup ∧
    ∀ n ∈ l, w'.app.fcmMsgManager.messages[n]? = w.app.fcmMsgManager.messages[n]?
  have hskip : ∀ n l w', I (n :: l) w' → I l w' := fun n l w' h =>
    ⟨h.1, (List.nodup_cons.1 h.2.1).2, fun k hk => h.2.2 k (List.mem_cons_of_mem _ hk)⟩
  refine (wp_forEachMessage (I := I) (X := fun _ => SameStates w) ?_ hskip (fun _ _ h => h.1)
    (fun h => by cases h) ?_).mono
    (fun _ _ h => h.1) fun _ _ h => h
  · rintro n l w' m msg hI hm hmsg
    obtain rfl : w'.app.fcmMsgManager = m := Option.some.inj hm
    have hheld : w.app.fcmMsgManager.messages[n]? = some msg := (hI.2.2 n (List.mem_cons_self ..)).symm.trans hmsg
    obtain rfl : msg.sequenceId = n := hwf.key hheld
    split
    · refine Wp.bind (wp_askFcm (fun rcode _ => ?_) fun _ _ => hI.1)
      split
      · refine (wp_upload_app hE).mono (fun _ w'' happ => ?_) fun _ w'' happ => ?_
        · have hrest := hskip _ _ _ hI
          exact ⟨fun n => by rw [happ]; exact hI.1 n, hrest.2.1, fun n hn => by rw [happ]; exact hrest.2.2 n hn⟩
        · exact fun n => by rw [happ]; exact hI.1 n
      · split
        · refine (wp_retryDownstream_states hE (hcan _ msg hheld) hI.1).mono ?_ fun _ _ h => h
          rintro - w'' ⟨hsame, hother⟩
          have hrest := hskip _ _ _ hI
          refine ⟨hsame, hrest.2.1, fun k hk => (hother k ?_).trans (hrest.2.2 k hk)⟩
          rintro rfl
          exact (List.nodup_cons.1 hI.2.1).1 hk
        · exact Wp.pure (hskip _ _ _ hI)
    · exact Wp.pure (hskip _ _ _ hI)
  · rintro m hm
    obtain rfl : w.app.fcmMsgManager = m := Option.some.inj hm
    exact ⟨refl w, ExtTreeMap.nodup_keys, fun _ _ => rfl⟩

/-- A request of a BAL to upload a message. -/
def Event.requests : Event → Bool
  | .balFrame _ doc => Json.toString (doc.value gimmmfieldnames.messageType) = "DOWNSTREAM"
  | _ => false

theorem wp_handleBALmsg_states (hE : Env.Closed E) {socket : Socket}
    (htype : Json.toString (doc.value gimmmfieldnames.messageType) ≠ "DOWNSTREAM") :
    Wp E (handleBALmsg socket doc) (fun _ => SameStates w) (fun _ => SameStates w) w := by
  unfold handleBALmsg
  dsimp only
  split
  · exact sameStates_connection.handleBalLogonRequest hE w
  · split
    · exact keeps_balAck_states hE w
    · exact Wp.throw (refl w)

/-- What neither requests an upload nor settles a message leaves the FCM queue alone, unless it gives up a retry. -/
theorem wp_handle_states (hE : Env.Closed E) (hwf : w.app.fcmMsgManager.WF) (hcan : AllCanRetry w) {e : Event}
    (hrequest : e.requests = false) (hsettles : e.settles = none) :
    Wp E (handle e) (fun _ => SameStates w) (fun _ => SameStates w) w := by
  cases e with
  | newBALConnection d => exact sameStates_connection.handleNewBALConnection w
  | balFrame sock doc =>
    refine Wp.bind (Wp.read ?_)
    split
    · split
      · exact wp_guarded (wp_handleBALmsg_states hE (of_decide_eq_false hrequest))
      · exact Wp.pure (refl w)
    · exact Wp.pure (refl w)
  | balDisconnected sock => exact sameStates_connection.disconnectSocket w
  | fcmUpstream doc => exact keeps_upstream_states hE w
  | fcmAck doc => cases hsettles
  | fcmNack doc =>
    show Wp E (handleFcmNackMessage doc) _ _ w
    unfold handleFcmNackMessage
    refine Wp.bind (Wp.update (wp_guarded (Wp.bind (wp_askFcm (fun old hfind => ?_) fun _ _ => fun _ => rfl))))
    split
    · have hheld := (hwf.find hfind).2.1
      exact (wp_retryDownstream_states hE (hcan _ old hheld) (fun _ => rfl)).mono (fun _ _ h => h.1) fun _ _ h => h
    · rename_i hpermanent
      unfold Event.settles at hsettles
      dsimp only at hsettles
      rw [if_neg hpermanent] at hsettles
      cases hsettles
  | fcmReceipt doc => exact sameStates_session.handleFcmReceiptMessage hE w
  | fcmSessionEstablished id =>
    refine Wp.bind (Wp.update (wp_guarded ?_))
    unfold handleFcmSessionEstablished
    exact Wp.bind (Wp.update (wp_resendAll_states hE hwf hcan))
  | fcmConnectionDrainingStarted id =>
    refine Wp.bind (Wp.update (wp_guarded ?_))
    exact sameStates_connection.handleFcmConnectionDrainingStarted _
  | fcmDisconnected id => exact sameStates_connection.handleDisconnected hE w
  | timer k =>
    refine Wp.bind (Wp.read ?_)
    split
    · rename_i t ht
      refine Wp.bind (Wp.update ?_)
      cases t with
      | retryDownstream msg =>
        -- the timer uploads its message and takes back the flag; no state changes
        refine Wp.bind ((wp_upload_app hE).mono (fun _ w' happ => ?_) fun _ w' happ =>
          sameStates_of_fcm (by rw [happ]; rfl))
        refine wp_modifyFcm fun w'' h n => ?_
        have hfcm : w''.app.fcmMsgManager =
            w'.app.fcmMsgManager.modifyMessage msg.sequenceId (·.setRetryInProgress false) := by
          rw [← books_fcm w'', h]
          rfl
        rw [hfcm]
        refine (MessageManager.modifyMessage_states (f := (·.setRetryInProgress false)) _ _ (fun _ => rfl) n).trans ?_
        show (w'.app.fcmMsgManager.messages[n]?).map _ = _
        rw [happ]
        rfl
      | retryUpstream msg => exact sameStates_session.expire_retryUpstream hE _
      | resend sid => exact keeps_resendUpstream_states hE _
      | authentication sock => exact sameStates_connection.handleBalAuthenticationTimeout _
      | reconnect id => exact Wp.pure fun _ => rfl
      | deleteSocket sock => exact sameStates_connection.expire_deleteSocket _
    · exact Wp.pure (refl w)
  | restart => exact Wp.throw (refl w)

end

/-! ## Requests -/

/-- What a request makes of the FCM queue while nothing fails. -/
inductive Accepted (w w' : World) : Prop where
  | ignored (same : SameStates w w')
  | queued (msg : Message) (fresh : w.app.fcmMsgManager.messages[msg.sequenceId]? = none) (new : msg.state = .new)
      (fcm : w'.app.fcmMsgManager = w.app.fcmMsgManager.addMessage msg.sequenceId msg)
      (waits : ¬ (w.app.fcmMsgManager.addMessage msg.sequenceId msg).Sendable msg)
  | sent (msg : Message) (fresh : w.app.fcmMsgManager.messages[msg.sequenceId]? = none)
      (fcm : w'.app.fcmMsgManager = (w.app.fcmMsgManager.addMessage msg.sequenceId msg).mark msg.sequenceId)
      (handed : 0 < uploads msg.sequenceId w'.log)

section
variable {cfg : List SessionId} {i : Input} {w : World} {fs : List Fault}

theorem wp_request_accepted (h₀ : Base cfg (books w) .none) {sid : SessionId} {doc : Json} (hquiet : ¬ Bad fs) :
    Wp (i.env.Rest fs) (handleBalDownstreamUploadRequest sid doc) (fun _ => Accepted w) (fun _ => Accepted w) w := by
  unfold handleBalDownstreamUploadRequest
  dsimp only
  refine wp_getNextSequenceId fun w₁ h₁ => wp_saveMsg ?_ (fun w₂ h₂ => Wp.bind (wp_modifyFcm fun w₃ h₃ => ?_))
    fun hbad => absurd hbad hquiet
  · rw [h₁]
    exact h₀.freshRow
  · generalize hmsg : Message.new _ _ _ _ _ _ _ = msg at *
    have hseq : msg.sequenceId = (books w).counter + 1 := by rw [← hmsg]; rfl
    have hnew : msg.state = .new := by rw [← hmsg]; rfl
    rw [← hseq] at h₃ ⊢
    have hfresh : (books w).fcm.messages[msg.sequenceId]? = none := by rw [hseq]; exact h₀.fresh
    have hf₃ : (books w₃).fcm = (books w).fcm.addMessage msg.sequenceId msg := by rw [h₃, h₂, h₁]; rfl
    have hwf₃ : (books w₃).fcm.WF := by rw [hf₃]; exact h₀.fcm.addMessage msg hfresh rfl
    have hheld : (books w₃).fcm.messages[msg.sequenceId]? = some msg := by
      rw [hf₃, MessageManager.addMessage_getElem? msg hfresh, if_pos rfl]
    obtain ⟨c, hc, hiff⟩ := MessageManager.canSendMessage_eq hwf₃ hheld rfl rfl
    refine Wp.bind (wp_askFcm (fun rc hrc => ?_) fun e he => by rw [hc] at he; cases he)
    rw [hc] at hrc
    cases hrc
    split
    · refine wp_updateMsgState (fun w₄ h₄ => Wp.bind (wp_modifyFcm fun w₅ h₅ => Wp.bind (wp_modifyFcm fun w₆ h₆ => ?_)))
        fun hbad => absurd (hbad.of_suffix (List.tail_suffix fs)) hquiet
      have hf₆ : (books w₆).fcm = ((books w).fcm.addMessage msg.sequenceId msg).mark msg.sequenceId := by
        rw [← hf₃, h₆, h₅, h₄]
        rfl
      refine wp_output (fun w₇ h₇ => .sent msg hfresh ?_ ?_) fun hbad => absurd
        (hbad.of_suffix ((List.tail_suffix _).trans (List.tail_suffix fs))) hquiet
      · rw [← books_fcm w₇, h₇]
        exact hf₆
      · have hl₇ : uploads msg.sequenceId w₇.log = uploads msg.sequenceId w₆.log + 1 := by
          rw [← books_log w₇, h₇]
          exact (uploads_record msg w₆ _).trans (by rw [if_pos rfl])
        omega
    · rename_i hwaits
      exact Wp.pure (.queued msg hfresh hnew hf₃ fun hsend => hwaits (hiff.2 (by rw [hf₃]; exact hsend)))

theorem wp_handle_accepted (h₀ : Base cfg (books w) .none) (hrequest : i.event.requests = true)
    (hquiet : ¬ Bad i.env.faults) :
    Wp (i.env.Rest i.env.faults) (handle i.event) (fun _ => Accepted w) (fun _ => Accepted w) w := by
  unfold Event.requests at hrequest
  split at hrequest
  · rename_i sock doc he
    have htype : Json.toString (doc.value gimmmfieldnames.messageType) = "DOWNSTREAM" := of_decide_eq_true hrequest
    rw [he]
    refine Wp.bind (Wp.read ?_)
    split
    · split
      · refine wp_guarded ?_
        unfold handleBALmsg
        dsimp only
        rw [if_neg (by rw [htype]; decide), if_pos htype]
        exact wp_request_accepted h₀ hquiet
      · exact Wp.pure (.ignored (refl w))
    · exact Wp.pure (.ignored (refl w))
  · cases hrequest

end

/-! ## The count -/

namespace MessageManager

variable {m : MessageManager} {msg : Message} {n : Int}

/-- No more messages are counted than are pending an ack. -/
def Covered (m : MessageManager) : Prop := m.pendingAckCount ≤ m.pendingCount

theorem Covered.eq_zero (h : m.Covered)
    (hnone : ∀ (n : Int) (msg : Message), m.messages[n]? = some msg → msg.state ≠ .pendingAck) :
    m.pendingAckCount = 0 := by
  unfold Covered at h
  rw [pendingCount_eq_zero hnone] at h
  exact Nat.le_zero.1 h

theorem Covered.addMessage (h : m.Covered) (hn : m.messages[n]? = none) : (m.addMessage n msg).Covered := by
  unfold Covered pendingCount at *
  rw [addMessage_pendingAckCount, addMessage_messages, MapCount.count_insertIfNew (notMem_of_getElem? hn)]
  exact Nat.le_add_right_of_le h

theorem Covered.modifyMessage (h : m.Covered) {f : Message → Message} (hf : ∀ msg, (f msg).state = msg.state) :
    (m.modifyMessage n f).Covered := by
  unfold Covered pendingCount at *
  show m.pendingAckCount ≤ MapCount.count _ (m.messages.modify n f)
  rw [MapCount.count_modify_same f (fun msg _ => by rw [hf])]
  exact h

theorem Covered.mark (h : m.Covered) (hn : m.messages[n]? = some msg) (hs : msg.state ≠ .pendingAck) :
    (m.mark n).Covered := by
  unfold Covered pendingCount at *
  show m.pendingAckCount + 1 ≤ MapCount.count _ (m.messages.modify n (·.setState .pendingAck))
  have hcount := MapCount.count_modify (p := fun msg => decide (msg.state = .pendingAck)) (·.setState .pendingAck) hn
  simp only [hs, Message.setState_state] at hcount
  simp at hcount
  omega

theorem Covered.without (h : m.Covered) (hs : msg.sequenceId = n) (hn : m.messages[n]? = some msg) :
    (m.without msg).Covered := by
  unfold Covered pendingCount at *
  have hcount := MapCount.count_erase (p := fun msg : Message => decide (msg.state = .pendingAck)) hn
  show (if msg.state = .pendingAck then m.pendingAckCount - 1 else m.pendingAckCount) ≤
    MapCount.count _ (m.messages.erase msg.sequenceId)
  rw [hs]
  by_cases hp : msg.state = .pendingAck
  · simp only [hp, decide_true, if_true] at hcount ⊢
    omega
  · simp only [hp, decide_false, Bool.false_eq_true, if_false] at hcount ⊢
    omega

end MessageManager

theorem covered_act {cfg : List SessionId} {i : Input} {b₀ b b' : Books} {d d' : Debt} (hb : Base cfg b d)
    (h : b.fcm.Covered) (ha : Act i b₀ b d b' d') : b'.fcm.Covered := by
  cases ha with
  | accept mid gid sid data hm source request id =>
    rename_i msg
    have hs : msg.sequenceId = b.counter + 1 := by rw [hm]; rfl
    exact h.addMessage (hs ▸ hb.fresh)
  | mark held sendable => exact h.mark held (by rw [sendable.1]; exact nofun)
  | settle settles fcm log names =>
    obtain ⟨mid, -, hf⟩ := settles
    exact h.without rfl (hb.fcm.find (fcm ▸ hf)).2.1
  | drop held out cause => exact h.without rfl held
  | touchDown n f hf => exact h.modifyMessage fun msg => (hf msg).2
  | _ => exact h

/-- In every run the FCM queue counts no more messages than are pending an ack, also after a restart, which counts none. -/
theorem run_covered (cfg : List SessionId) (env : Env) (db : Database) (is : List Input) :
    (run cfg (boot cfg env db) is).app.fcmMsgManager.Covered := by
  refine (run_invariant_all (P := fun b => b.fcm.Covered) (fun w i h₀ h => ?_) is (boot_base cfg env db) ?_).2
  · obtain ⟨b, hr, ⟨-, he⟩ | ⟨-, hrestarted⟩⟩ := step_reach h₀ i
    · rw [he]
      exact hr.invariant_base (P := fun b _ => b.fcm.Covered) h₀ h fun hb _ _ hP ha => covered_act hb hP ha
    · obtain ⟨db, -, -, hfresh, -⟩ := hrestarted.fresh
      unfold MessageManager.Covered
      rw [hfresh.pendingAckCount]
      exact Nat.zero_le _
  · have hfresh : Database.Fresh db (env.scan fcmSessionId) env.junk fcmSessionId (boot cfg env db).app.fcmMsgManager :=
      Database.loadPendingMessages_fresh ..
    show (boot cfg env db).app.fcmMsgManager.pendingAckCount ≤ _
    rw [hfresh.pendingAckCount]
    exact Nat.zero_le _

/-! ## The invariant -/

/-- A message of the FCM queue was handed to `sendMessage`. -/
def World.Handed (w : World) (n : Int) : Prop :=
  (∃ msg, w.app.fcmMsgManager.messages[n]? = some msg) ∧ 0 < uploads n w.log

/-- Every message that is pending an ack was handed to `sendMessage`, and a queue that is not empty holds one that was. -/
structure Moving (w : World) : Prop where
  covered : w.app.fcmMsgManager.Covered
  pending : ∀ (n : Int) (msg : Message), w.app.fcmMsgManager.messages[n]? = some msg → msg.state = .pendingAck →
    0 < uploads n w.log
  handed : ∀ (n : Int) (msg : Message), w.app.fcmMsgManager.messages[n]? = some msg → ∃ k, w.Handed k

/-- The first message of a queue in which none is pending an ack can be sent. -/
theorem MessageManager.first_sendable {m : MessageManager} (hcovered : m.Covered)
    (hnew : ∀ (n : Int) (msg : Message), m.messages[n]? = some msg → msg.state = .new) (hwf : m.WF) {n : Int}
    {msg : Message} (hn : m.messages[n]? = some msg) :
    ∃ (k : Int) (first : Message), m.messages[k]? = some first ∧ m.Sendable first := by
  have hzero : m.pendingAckCount = 0 := hcovered.eq_zero fun k msg hk => by
    rw [hnew k msg hk]
    exact nofun
  have hmem : (n, msg) ∈ m.messages.toList := ExtTreeMap.mem_toList_iff_getElem?_eq_some.2 hn
  have hpairs := m.toList_pairwise
  cases hlist : m.messages.toList with
  | nil => rw [hlist] at hmem; cases hmem
  | cons p rest =>
    rw [hlist, List.pairwise_cons] at hpairs
    have hp : m.messages[p.1]? = some p.2 := by
      rw [← ExtTreeMap.mem_toList_iff_getElem?_eq_some, hlist]
      exact List.mem_cons_self ..
    refine ⟨p.1, p.2, hp, hnew _ _ hp, by rw [hzero]; decide, fun _ k msg' hk _ => ?_⟩
    rw [hwf.key hp]
    have hk : (k, msg') ∈ p :: rest := by
      rw [← hlist]
      exact ExtTreeMap.mem_toList_iff_getElem?_eq_some.2 hk
    rcases List.mem_cons.1 hk with rfl | hk
    · exact Int.le_refl _
    · exact Int.le_of_lt (hpairs.1 _ hk)

namespace Moving

variable {cfg : List SessionId} {w w' : World}

theorem same (h : Moving w) (hcovered : w'.app.fcmMsgManager.Covered) (hsame : SameStates w w')
    (hlog : ∀ n, uploads n w.log ≤ uploads n w'.log) : Moving w' := by
  have hback : ∀ {n : Int} {msg' : Message}, w'.app.fcmMsgManager.messages[n]? = some msg' →
      ∃ msg, w.app.fcmMsgManager.messages[n]? = some msg ∧ msg.state = msg'.state := by
    intro n msg' hn
    have hstate := hsame n
    rw [hn] at hstate
    exact Option.map_eq_some_iff.1 hstate.symm
  refine ⟨hcovered, fun n msg' hn hstate => ?_, fun n msg' hn => ?_⟩
  · obtain ⟨msg, hmsg, hs⟩ := hback hn
    exact Nat.lt_of_lt_of_le (h.pending n msg hmsg (hs.trans hstate)) (hlog n)
  · obtain ⟨msg, hmsg, -⟩ := hback hn
    obtain ⟨k, ⟨held, hk⟩, hup⟩ := h.handed n msg hmsg
    have hstate := hsame k
    rw [hk] at hstate
    obtain ⟨held', hk', -⟩ := Option.map_eq_some_iff.1 hstate
    exact ⟨k, ⟨held', hk'⟩, Nat.lt_of_lt_of_le hup (hlog k)⟩

theorem accept (h : Moving w) (hcovered : w'.app.fcmMsgManager.Covered) (hlog : ∀ n, uploads n w.log ≤ uploads n w'.log)
    (ha : Accepted w w') : Moving w' := by
  -- what was pending was handed out before
  have hold : ∀ {n : Int} {msg : Message}, w.app.fcmMsgManager.messages[n]? = some msg → msg.state = .pendingAck →
      0 < uploads n w'.log := fun {n msg} hn hs => Nat.lt_of_lt_of_le (h.pending n msg hn hs) (hlog n)
  cases ha with
  | ignored same => exact h.same hcovered same hlog
  | queued msg fresh new fcm waits =>
    have hget : ∀ k : Int, w'.app.fcmMsgManager.messages[k]? = if k = msg.sequenceId then some msg else
        w.app.fcmMsgManager.messages[k]? := fun k => by rw [fcm, MessageManager.addMessage_getElem? msg fresh]
    refine ⟨hcovered, fun n msg' hn hstate => ?_, fun _ _ _ => ?_⟩
    · rw [hget] at hn
      split at hn
      · rw [← Option.some.inj hn, new] at hstate
        cases hstate
      · exact hold hn hstate
    · by_cases hsome : ∃ (n : Int) (held : Message), w.app.fcmMsgManager.messages[n]? = some held
      · obtain ⟨n, held, hn⟩ := hsome
        obtain ⟨k, ⟨held', hk⟩, hup⟩ := h.handed n held hn
        refine ⟨k, ⟨held', ?_⟩, Nat.lt_of_lt_of_le hup (hlog k)⟩
        rw [hget, if_neg]
        · exact hk
        · rintro rfl
          rw [fresh] at hk
          cases hk
      · -- the new message is alone, so it does not wait
        have halone : ∀ (n : Int) (held : Message), w.app.fcmMsgManager.messages[n]? ≠ some held := fun n held hn =>
          hsome ⟨n, held, hn⟩
        have hzero : w.app.fcmMsgManager.pendingAckCount = 0 :=
          h.covered.eq_zero fun n held hn => absurd hn (halone n held)
        refine absurd ⟨new, ?_, fun _ k held hk _ => ?_⟩ waits
        · rw [MessageManager.addMessage_pendingAckCount, hzero]
          decide
        · rw [MessageManager.addMessage_getElem? msg fresh] at hk
          split at hk
          · omega
          · exact absurd hk (halone k held)
  | sent msg fresh fcm handed =>
    have hget : ∀ k : Int, k ≠ msg.sequenceId →
        w'.app.fcmMsgManager.messages[k]? = w.app.fcmMsgManager.messages[k]? := by
      intro k hk
      rw [fcm, MessageManager.mark_getElem?, if_neg hk, MessageManager.addMessage_getElem? msg fresh, if_neg hk]
    refine ⟨hcovered, fun n msg' hn hstate => ?_, fun _ _ _ => ⟨msg.sequenceId, ⟨msg.setState .pendingAck, ?_⟩, handed⟩⟩
    · by_cases hseq : n = msg.sequenceId
      · rw [hseq]
        exact handed
      · rw [hget n hseq] at hn
        exact hold hn hstate
    · rw [fcm, MessageManager.mark_getElem?, if_pos rfl, MessageManager.addMessage_getElem? msg fresh, if_pos rfl]
      rfl

/-- After a settlement the next message goes, if no message is pending an ack. -/
theorem settle (h : Moving w) (hcovered : w'.app.fcmMsgManager.Covered) (hwf : w'.app.fcmMsgManager.WF)
    (hstates : w'.app.fcmMsgManager.Unsettled) (hlog : ∀ n, uploads n w.log ≤ uploads n w'.log) {mid : FcmMessageId}
    (hs : SettlesOne mid w w') : Moving w' := by
  by_cases hfound : ∃ old, w.app.fcmMsgManager.findMessageWithFcmMsgId mid = .ok old
  · obtain ⟨old, hfind⟩ := hfound
    obtain ⟨hfcm, next, hnext, huploads⟩ := hs.found old hfind
    rw [← hfcm] at hnext
    have hpending : ∀ (n : Int) (msg : Message), w'.app.fcmMsgManager.messages[n]? = some msg →
        msg.state = .pendingAck →
        0 < uploads n w'.log := by
      intro n msg hn hstate
      rw [hfcm] at hn
      exact Nat.lt_of_lt_of_le (h.pending n msg (MessageManager.of_without hn).1 hstate) (hlog n)
    refine ⟨hcovered, hpending, fun n msg hn => ?_⟩
    by_cases hsome : ∃ (k : Int) (held : Message),
        w'.app.fcmMsgManager.messages[k]? = some held ∧ held.state = .pendingAck
    · obtain ⟨k, held, hk, hstate⟩ := hsome
      exact ⟨k, ⟨held, hk⟩, hpending k held hk hstate⟩
    · have hnew : ∀ (k : Int) (held : Message), w'.app.fcmMsgManager.messages[k]? = some held → held.state = .new :=
        fun k held hk => (hstates k held hk).resolve_right fun hstate => hsome ⟨k, held, hk, hstate⟩
      obtain ⟨k, first, hk, hsend⟩ := MessageManager.first_sendable hcovered hnew hwf hn
      rcases MessageManager.getNext_eq hwf with ⟨-, hnone⟩ | ⟨goes, hgoes, hheld, -⟩
      · exact absurd hsend (hnone k first hk)
      · obtain rfl : some goes = next := Except.ok.inj (hgoes.symm.trans hnext)
        refine ⟨goes.sequenceId, ⟨goes, hheld⟩, ?_⟩
        rw [huploads]
        simp
  · have hsame := hs.lost fun old hold => hfound ⟨old, hold⟩
    exact h.same hcovered (sameStates_of_fcm hsame.fcm) hlog

/-- What the handler makes of the queue and the log is what the step makes of them. -/
theorem step_ends {i : Input} {Q : World → Prop} (hlive : survives w i = true)
    (hQ : ∀ {w' w'' : World}, w''.app.fcmMsgManager = w'.app.fcmMsgManager → w''.log = w'.log → Q w' → Q w'')
    (hwp : Wp (i.env.Rest i.env.faults) (handle i.event) (fun _ => Q) (fun _ => Q) w) : Q (Gimmm.step cfg w i) := by
  rcases step_cases cfg (Env.Rest.refl i.env) hwp with ⟨-, w', hw', hstep⟩ | ⟨hdead, -⟩
  · rw [hstep]
    exact hQ (destroyConns_fields w'.app).1 rfl hw'
  · rw [hlive] at hdead
    cases hdead

theorem step_settles {i : Input} (h₀ : Base cfg (books w) .none) (hgood : ¬ Bad i.env.faults)
    (hlive : survives w i = true)
    {mid : FcmMessageId} {s : MessageState} (hsettles : i.event.settles = some (mid, s)) :
    SettlesOne mid w (Gimmm.step cfg w i) := by
  refine step_ends hlive (fun hfcm hlog hs => ⟨fun old hold => ?_, fun hlost => ?_⟩)
    (wp_handle_settles h₀ hsettles hgood)
  · obtain ⟨h1, next, h2, h3⟩ := hs.found old hold
    exact ⟨hfcm.trans h1, next, h2, fun n => by rw [hlog]; exact h3 n⟩
  · obtain ⟨h1, h2⟩ := hs.lost hlost
    exact ⟨hfcm.trans h1, fun n => by rw [hlog]; exact h2 n⟩

theorem step {i : Input} (h : Moving w) (h₀ : Base cfg (books w) .none) (hquiet : ∀ f ∈ i.env.faults, f = .ok)
    (hlive : survives w i = true) (hcan : AllCanRetry w) : Moving (step cfg w i) := by
  have hgood : ¬ Bad i.env.faults := fun ⟨f, hf, hne⟩ => hne (hquiet f hf)
  have hbase : Base cfg (books (Gimmm.step cfg w i)) .none := step_base h₀ i
  have hcovered : (Gimmm.step cfg w i).app.fcmMsgManager.Covered :=
    (step_live h₀ hlive).invariant_base (P := fun b _ => b.fcm.Covered) h₀ h.covered fun hb _ _ hP ha =>
      covered_act hb hP ha
  have hstates : (Gimmm.step cfg w i).app.fcmMsgManager.Unsettled := fun n msg hn =>
    of_decide_eq_true (hbase.fcmHeld hn).pending
  have hlog : ∀ n, uploads n w.log ≤ uploads n (Gimmm.step cfg w i).log := fun n =>
    (step_log_suffix h₀ i).sublist.countP_le
  by_cases hrequest : i.event.requests = true
  · refine h.accept hcovered hlog (step_ends hlive (fun hfcm hlog ha => ?_) (wp_handle_accepted h₀ hrequest hgood))
    cases ha with
    | ignored same => exact .ignored fun n => by rw [hfcm]; exact same n
    | queued msg fresh new fcm waits => exact .queued msg fresh new (hfcm.trans fcm) waits
    | sent msg fresh fcm handed => exact .sent msg fresh (hfcm.trans fcm) (hlog ▸ handed)
  · cases hsettles : i.event.settles with
    | none =>
      refine h.same hcovered (step_ends hlive (fun hfcm _ hsame n => ?_) ?_) hlog
      · rw [hfcm]
        exact hsame n
      · exact wp_handle_states (Env.Rest.closed _ _) h₀.fcm hcan (Bool.eq_false_iff.2 hrequest) hsettles
    | some p => exact h.settle hcovered hbase.fcm hstates hlog (step_settles h₀ hgood hlive hsettles)

theorem start (hcovered : w.app.fcmMsgManager.Covered) (hempty : w.app.fcmMsgManager.messages.isEmpty = true) :
    Moving w := by
  have hnone : ∀ (n : Int) (msg : Message), w.app.fcmMsgManager.messages[n]? ≠ some msg := fun n msg hn => by
    rw [ExtTreeMap.isEmpty_iff.1 hempty, ExtTreeMap.getElem?_empty] at hn
    cases hn
  exact ⟨hcovered, fun n msg hn => absurd hn (hnone n msg), fun n msg hn => absurd hn (hnone n msg)⟩

theorem run (h : Moving w) (h₀ : Base cfg (books w) .none) {is : List Input}
    (hquiet : ∀ i ∈ is, ∀ f ∈ i.env.faults, f = .ok)
    (hlive : Live cfg w is) (hcan : Run.Along (Gimmm.step cfg) (fun w _ => AllCanRetry w) w is) :
    Base cfg (books (Gimmm.run cfg w is)) .none ∧ Moving (Gimmm.run cfg w is) := by
  have hall : Run.Along (Gimmm.step cfg) (fun _ i => ∀ f ∈ i.env.faults, f = .ok) w is := Run.along_of_forall is hquiet
  have halong := Run.Along.and is hall (Run.Along.and is hlive hcan)
  refine Run.invariant (I := fun w => Base cfg (books w) .none ∧ Moving w) (fun w i hC hI => ?_) is halong ⟨h₀, h⟩
  exact ⟨step_base hI.1 i, hI.2.step hI.1 hC.1 hC.2.1 hC.2.2⟩

end Moving

/-- In every live run from an empty FCM queue, after any inputs `pre`, in which nothing fails and no retry is given up:
when the queue is not empty, it holds a message that was handed to `sendMessage`. -/
theorem queue_keeps_moving (cfg : List SessionId) (env : Env) (db : Database) (pre is : List Input) (w : World)
    (hw : w = run cfg (boot cfg env db) pre) (hempty : w.app.fcmMsgManager.messages.isEmpty = true)
    (hquiet : ∀ i ∈ is, ∀ f ∈ i.env.faults, f = .ok) (hlive : Live cfg w is)
    (hcan : Run.Along (step cfg) (fun w _ => AllCanRetry w) w is) (n : Int) (msg : Message)
    (hheld : (run cfg w is).app.fcmMsgManager.messages[n]? = some msg) :
    ∃ k first, (run cfg w is).app.fcmMsgManager.messages[k]? = some first ∧ 0 < uploads k (run cfg w is).log := by
  subst hw
  have hmoving := Moving.run (.start (run_covered cfg env db pre) hempty) (run_base cfg env db pre) hquiet hlive hcan
  obtain ⟨k, ⟨first, hk⟩, hup⟩ := hmoving.2.handed n msg hheld
  exact ⟨k, first, hk, hup⟩

/-! ## Acks empty the queue -/

/-- The input is the ack of a message that was handed to `sendMessage`. -/
def AcksHanded (w : World) (i : Input) : Prop :=
  ∃ (n : Int) (msg : Message), i = .quiet (.fcmAck (fcmAck msg.fcmMessageId)) ∧
    w.app.fcmMsgManager.messages[n]? = some msg ∧ 0 < uploads n w.log

theorem MessageManager.Indexed.without {m : MessageManager} (h : m.Indexed) {old : Message}
    (hold : m.messages[old.sequenceId]? = some old) : (m.without old).Indexed := by
  intro n msg hn
  obtain ⟨hmsg, hne⟩ := MessageManager.of_without hn
  have hfind := MessageManager.findSequenceId_ok.1 (h n msg hmsg)
  refine MessageManager.findSequenceId_ok.2 ((ExtTreeMap.getElem?_erase ..).trans ?_)
  rw [if_neg, hfind]
  intro heq
  rw [Std.compare_eq_iff_eq] at heq
  rw [← heq, MessageManager.findSequenceId_ok.1 (h _ old hold)] at hfind
  exact hne (Option.some.inj hfind).symm

section
variable (cfg : List SessionId) (env : Env) (db : Database)

/-- An ack ends no process. -/
theorem survives_ack (is : List Input) (doc : Json) :
    survives (run cfg (boot cfg env db) is) (.quiet (.fcmAck doc)) = true := by
  refine survives_of_harmless ?_
  rintro (h | h | ⟨h, -, -⟩ | ⟨h, -⟩)
  · cases h
  · cases h
  · cases h
  · cases h

/-- Acks of messages that were handed out empty the queue; the induction is on the number of messages it holds. -/
theorem Moving.drains (k : Nat) : ∀ (is : List Input) (w : World), w = Gimmm.run cfg (boot cfg env db) is → Moving w →
    w.app.fcmMsgManager.Indexed → w.app.fcmMsgManager.messages.size = k →
    ∃ acks : List Input, acks.length = k ∧ Run.Along (Gimmm.step cfg) AcksHanded w acks ∧ Live cfg w acks ∧
      (Gimmm.run cfg w acks).app.fcmMsgManager.messages.isEmpty = true := by
  induction k with
  | zero =>
    rintro is w - - - hsize
    refine ⟨[], rfl, trivial, trivial, ?_⟩
    show w.app.fcmMsgManager.messages.isEmpty = true
    rw [ExtTreeMap.isEmpty_eq_size_beq_zero, hsize]
    rfl
  | succ k ih =>
    intro is w hw h hindexed hsize
    have h₀ : Base cfg (books w) .none := hw ▸ run_base cfg env db is
    obtain ⟨n, msg, hn⟩ : ∃ (n : Int) (msg : Message), w.app.fcmMsgManager.messages[n]? = some msg := by
      cases hlist : w.app.fcmMsgManager.messages.toList with
      | nil =>
        rw [← ExtTreeMap.length_toList, hlist] at hsize
        cases hsize
      | cons p rest =>
        refine ⟨p.1, p.2, ?_⟩
        rw [← ExtTreeMap.mem_toList_iff_getElem?_eq_some, hlist]
        exact List.mem_cons_self ..
    -- the queue is not empty, so some message was handed out: ack it
    obtain ⟨j, ⟨first, hj⟩, hup⟩ := h.handed n msg hn
    obtain rfl : first.sequenceId = j := h₀.fcm.key hj
    generalize hi : Input.quiet (.fcmAck (fcmAck first.fcmMessageId)) = i
    have hsettles : i.event.settles = some (first.fcmMessageId, .delivered) := by rw [← hi]; rfl
    have hlive : survives w i = true := by rw [hw, ← hi]; exact survives_ack cfg env db is _
    have hgood : ¬ Bad i.env.faults := by
      rw [← hi]
      rintro ⟨f, hf, -⟩
      cases hf
    have hsettled := step_settles h₀ hgood hlive hsettles
    obtain ⟨hfcm, -⟩ := hsettled.found first (hindexed.find hj)
    have hnext : Gimmm.step cfg w i = Gimmm.run cfg (boot cfg env db) (is ++ [i]) := by
      rw [hw]
      exact (Run.run_append (Gimmm.step cfg) _ is [i]).symm
    have hmoving : Moving (Gimmm.step cfg w i) := by
      refine h.settle ?_ (step_base h₀ i).fcm (fun m msg hm => of_decide_eq_true ((step_base h₀ i).fcmHeld hm).pending)
        (fun m => (step_log_suffix h₀ i).sublist.countP_le) hsettled
      rw [hnext]
      exact run_covered cfg env db _
    have hleft : (Gimmm.step cfg w i).app.fcmMsgManager.messages.size = k := by
      rw [hfcm]
      show (w.app.fcmMsgManager.messages.erase first.sequenceId).size = k
      have hmem : first.sequenceId ∈ w.app.fcmMsgManager.messages :=
        ExtTreeMap.isSome_getElem?_iff_mem.1 (by rw [hj]; rfl)
      rw [ExtTreeMap.size_erase, if_pos (ExtTreeMap.contains_iff_mem.2 hmem), hsize]
      rfl
    obtain ⟨acks, hlength, halong, hlives, hempty⟩ := ih (is ++ [i]) _ hnext hmoving
      (by rw [hfcm]; exact hindexed.without hj) hleft
    refine ⟨i :: acks, ?_, ⟨⟨_, first, hi.symm, hj, hup⟩, halong⟩, ⟨hlive, hlives⟩, hempty⟩
    rw [List.length_cons, hlength]

end

/-- Where such a run has come, and if every message is found by its FCM message id, as many acks as there are messages
empty the queue, each for a message that was handed to `sendMessage` by then. -/
theorem acks_empty_queue (cfg : List SessionId) (env : Env) (db : Database) (pre is : List Input) (w : World)
    (hw : w = run cfg (boot cfg env db) pre) (hempty : w.app.fcmMsgManager.messages.isEmpty = true)
    (hquiet : ∀ i ∈ is, ∀ f ∈ i.env.faults, f = .ok) (hlive : Live cfg w is)
    (hcan : Run.Along (step cfg) (fun w _ => AllCanRetry w) w is)
    (hindexed : (run cfg w is).app.fcmMsgManager.Indexed) :
    ∃ acks : List Input, acks.length = (run cfg w is).app.fcmMsgManager.messages.size ∧
      Run.Along (step cfg) AcksHanded (run cfg w is) acks ∧ Live cfg (run cfg w is) acks ∧
      (run cfg (run cfg w is) acks).app.fcmMsgManager.messages.isEmpty = true := by
  subst hw
  have hmoving := Moving.run (.start (run_covered cfg env db pre) hempty) (run_base cfg env db pre) hquiet hlive hcan
  exact Moving.drains cfg env db _ (pre ++ is) _ (Run.run_append _ _ pre is).symm hmoving.2 hindexed rfl

/-! ## A run -/

theorem allCanRetry_of_list {w : World} (h : w.app.fcmMsgManager.messages.toList.all (fun p =>
    (p.2.maxRetry = -1 ∨ p.2.nRetry < p.2.maxRetry) ∧
      ExponentialBackoff.halfPower p.2.exboff.counted.seedVal * 1000 + 1000 ≤ 2 ^ 31 - 1) = true) : AllCanRetry w := by
  intro n msg hn
  have hp := List.all_eq_true.1 h (n, msg) (ExtTreeMap.mem_toList_iff_getElem?_eq_some.2 hn)
  obtain ⟨hlimit, hdelay⟩ := of_decide_eq_true hp
  exact ⟨hlimit, hdelay⟩

/-- Three messages of one group: one goes, two wait. -/
def lined : List Input :=
  [.quiet (.balFrame 0 (balDownstream "A" "g")), .quiet (.balFrame 0 (balDownstream "B" "g")),
    .quiet (.balFrame 0 (balDownstream "C" "g"))]

theorem lined_quiet : ∀ i ∈ lined, ∀ f ∈ i.env.faults, f = .ok := by
  unfold lined
  simp [Input.quiet, Env.quiet]

theorem queue_keeps_moving_lined : ∃ k first,
    (run ["bal"] (run ["bal"] (boot ["bal"] .quiet .empty) (loggedOn "bal")) lined).app.fcmMsgManager.messages[k]? =
      some first ∧
      0 < uploads k (run ["bal"] (run ["bal"] (boot ["bal"] .quiet .empty) (loggedOn "bal")) lined).log := by
  have hheld : ((run ["bal"] (run ["bal"] (boot ["bal"] .quiet .empty)
    (loggedOn "bal")) lined).app.fcmMsgManager.messages[(3 : Int)]?).isSome =
      true := by decide +kernel
  obtain ⟨msg, hmsg⟩ := Option.isSome_iff_exists.1 hheld
  refine queue_keeps_moving ["bal"] .quiet .empty (loggedOn "bal") lined _ rfl (by decide +kernel) lined_quiet
    (by unfold Live; decide +kernel) ⟨allCanRetry_of_list ?_, allCanRetry_of_list ?_, allCanRetry_of_list ?_,
    trivial⟩ 3 msg hmsg
  · decide +kernel
  · decide +kernel
  · decide +kernel

theorem acks_empty_queue_lined : ∃ acks : List Input, acks.length = 3 ∧
    Run.Along (step ["bal"]) AcksHanded (run ["bal"]
      (run ["bal"] (boot ["bal"] .quiet .empty) (loggedOn "bal")) lined) acks := by
  have hsize : (run ["bal"] (run ["bal"] (boot ["bal"] .quiet .empty)
    (loggedOn "bal")) lined).app.fcmMsgManager.messages.size = 3 := by
    decide +kernel
  obtain ⟨acks, hlength, halong, -⟩ := acks_empty_queue ["bal"] .quiet .empty (loggedOn "bal") lined _ rfl
    (by decide +kernel)
    lined_quiet (by unfold Live; decide +kernel)
    ⟨allCanRetry_of_list (by decide +kernel), allCanRetry_of_list (by decide +kernel),
      allCanRetry_of_list (by decide +kernel), trivial⟩
    (MessageManager.indexed_of_list (by decide +kernel))
  exact ⟨acks, hlength.trans hsize, halong⟩

end Gimmm

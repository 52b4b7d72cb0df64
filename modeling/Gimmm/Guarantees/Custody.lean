/-
Custody of upstream messages. FCM forgets a message once it has the server's ack; from then on the server has it: its
row is pending and the queue of its session holds it until a BAL acks it on a socket of this session, whatever fails and
however often the process ends. A handler leaves the queue alone but for what it adds and what an ACK takes out; a start
loads the pending rows.
-/
import Mathlib.Data.List.Induction
import Gimmm.Guarantees.Lifecycle
import Gimmm.Guarantees.Routes

namespace Gimmm

open Std Prog CString

/-- The event is the ACK of a BAL for the message `n`, on a socket of the session `sid`. -/
def AcksFor (s : Server) (i : Input) (sid : SessionId) (n : Int) : Prop :=
  ∃ sock doc socket, i.event = .balFrame sock doc ∧ s.app.sockets[sock]? = some socket ∧ socket.connected = true ∧
    socket.signalsBlocked = false ∧ socket.sessionId = sid ∧
    Json.toString (doc.value gimmmfieldnames.messageType) = "ACK" ∧
    Json.toInt (doc.value gimmmfieldnames.sequenceId) = n

/-- The queue of `sid` has a message under `n`. -/
def Queued (b : Stores) (sid : SessionId) (n : Int) : Prop :=
  ∃ m msg, b.bal sid = some m ∧ m.messages[n]? = some msg

/-- The row under `n` is there and delivered. -/
def DeliveredRow (b : Stores) (n : Int) : Prop := ∃ row, b.rows n = some row ∧ row.state = .delivered

/-- The event is ordinary, and the next load of every queue gets a complete scan. -/
structure Sheltered (cfg : List SessionId) (b : Stores) (i : Input) : Prop extends Ordinary b i where
  scans : ∀ sid ∈ cfg, (i.env.scan sid).Complete

section
variable {cfg : List SessionId} {i : Input} {b₀ b b' : Books} {d d' : Debt} {sid : SessionId} {n : Int}

/-! ## Acts -/

/-- A queue changes, and keeps what it has under `n`. -/
theorem Queued.setBal (h : Queued b.toStores sid n) {s : SessionId} {m m' : MessageManager} (bal : b.bal s = some m)
    (hm' : ∀ msg, m.messages[n]? = some msg → ∃ msg', m'.messages[n]? = some msg') :
    Queued (b.setBal s m').toStores sid n := by
  obtain ⟨m₁, msg, h₁, hn⟩ := h
  have h₁ : b.bal sid = some m₁ := h₁
  have hbal := Books.setBal_bal b s m' sid
  by_cases hs : sid = s
  · subst hs
    rw [bal] at h₁
    cases h₁
    obtain ⟨msg', hmsg'⟩ := hm' msg hn
    exact ⟨m', msg', by rw [hbal, if_pos rfl], hmsg'⟩
  · exact ⟨m₁, msg, by rw [hbal, if_neg hs]; exact h₁, hn⟩

/-- A pending row changes its state. -/
theorem DeliveredRow.setState (h : DeliveredRow b.toStores n) {k : Int} {row : Row} (hk : b.rows k = some row)
    (hp : row.state.pending = true) (s : MessageState) : DeliveredRow (b.setState k s).toStores n := by
  obtain ⟨row', hn, hs⟩ := h
  have hn : b.rows n = some row' := hn
  refine ⟨row', ?_, hs⟩
  rw [Books.setState_rows, if_neg, hn]
  rintro rfl
  rw [hk] at hn
  cases hn
  rw [hs] at hp
  cases hp

theorem DeliveredRow.insertRow (h : DeliveredRow b.toStores n) {row : Row} (hn : b.rows row.sequenceId = none) :
    DeliveredRow (b.draw.insertRow row).toStores n := by
  obtain ⟨row', hr, hs⟩ := h
  refine ⟨row', ?_, hs⟩
  rw [Books.insertRow_rows, if_neg]
  · exact hr
  · rintro rfl
    rw [hn] at hr
    cases hr

/-- No act takes a message out of a queue but one that settles it. -/
theorem queued_act (hpat : NoneExhausted i b₀.toStores) (hb : Base cfg b d) (hc : Cycle b.toStores)
    (h : Queued b.toStores sid n ∨ DeliveredRow b.toStores n) (ha : Act i b₀ b d b' d') :
    Queued b'.toStores sid n ∨ DeliveredRow b'.toStores n := by
  -- a statement about the row of a queued message, and the queue that keeps the others
  have hbal : ∀ {s : SessionId} {m m' : MessageManager} {k : Int} {held : Message} {st : MessageState},
      b.bal s = some m → m.messages[k]? = some held →
      (∀ msg, m.messages[n]? = some msg → ∃ msg', m'.messages[n]? = some msg') →
      Queued ((b.setState k st).setBal s m').toStores sid n ∨ DeliveredRow ((b.setState k st).setBal s m').toStores n :=
    fun bal held hm' => by
      obtain ⟨row, hr, hp⟩ := hc.pendingBal bal held
      exact h.imp (fun hq => Queued.setBal (b := b.setState _ _) hq bal hm') fun hd => hd.setState hr hp _
  cases ha with
  | accept mid gid s data hm source request id =>
    rename_i msg
    have hseq : msg.sequenceId = b.counter + 1 := by rw [hm]; rfl
    have hfresh : b.rows (Row.ofMessage msg).sequenceId = none := hb.freshRow_of hseq
    exact h.imp_right fun hd => hd.insertRow hfresh
  | save envelope => exact h.imp_right fun hd => hd.insertRow (hb.freshRow_of envelope.sequenceId)
  | reject envelope => exact h.imp_right fun hd => hd.insertRow (hb.freshRow_of envelope.sequenceId)
  | mark held =>
    obtain ⟨row, hr, hp⟩ := hc.rowOf hb held
    exact h.imp_right fun hd => hd.setState hr hp _
  | settle settles fcm =>
    obtain ⟨mid, -, hf⟩ := settles
    obtain ⟨row, hr, hp⟩ := hc.rowOf hb (hb.fcm.find (fcm ▸ hf)).2.1
    exact h.imp_right fun hd => hd.setState hr hp _
  | exhaust held out => exact absurd hpat.fcm out
  | deliver bal =>
    rename_i saved m
    have hwait : Waiting b.toStores saved := hb.debt
    refine h.imp_left fun hq => hq.setBal bal fun msg hn => ?_
    rw [MessageManager.addMessage_getElem? _ (hwait.bal bal)]
    split
    · exact ⟨_, rfl⟩
    · exact ⟨msg, hn⟩
  | markBal bal held =>
    refine hbal bal held fun msg hn => ?_
    rw [MessageManager.mark_getElem?, hn]
    split <;> exact ⟨_, rfl⟩
  | remark resend =>
    obtain ⟨held, hheld, -⟩ := resend.held
    exact hbal resend.bal hheld fun msg hn => ⟨msg, hn⟩
  | settleBal bal held =>
    rename_i s m acked
    by_cases hk : n = acked.sequenceId
    · -- the message of the act: its row is delivered
      obtain ⟨row, hr, -⟩ := hc.pendingBal bal held
      refine Or.inr ⟨{ row with state := .delivered }, ?_, rfl⟩
      show (b.setState acked.sequenceId .delivered).rows n = _
      rw [Books.setState_rows, if_pos hk, hk, show b.rows acked.sequenceId = some row from hr]
      rfl
    · refine hbal bal held fun msg hn => ?_
      rw [MessageManager.without_getElem?, if_neg hk]
      exact ⟨msg, hn⟩
  | exhaustBal resend first out => exact absurd (hpat.bal first) out
  | dropBal bal held first out => exact absurd (hpat.bal first) out
  | touchBal k f bal =>
    refine h.imp_left fun hq => hq.setBal bal fun msg hn => ?_
    rw [MessageManager.modifyMessage_getElem?, hn]
    split <;> exact ⟨_, rfl⟩
  | _ => exact h

end

/-! ## Rows that are not delivered -/

/-- The row under `n` does not become delivered. -/
def Undelivered (n : Int) (w w' : World) : Prop :=
  ∀ row, w.db.rows[n]? = some row → row.state ≠ .delivered →
    ∃ row', w'.db.rows[n]? = some row' ∧ row'.state ≠ .delivered

section
variable {cfg : List SessionId} {i : Input} {E : Env → Prop} {w : World} {sid : SessionId} {n : Int} {msg : Message}
  {doc : Json}

instance : IsPreorder World (Undelivered n) where
  refl _ row hr hs := ⟨row, hr, hs⟩
  trans _ _ _ h h' row hr hs := by
    obtain ⟨row', hr', hs'⟩ := h row hr hs
    exact h' row' hr' hs'

theorem undelivered_update (w : World) {k : Int} {s : MessageState} (h : k = n → s ≠ .delivered) :
    Undelivered n w { w with db := w.db.update k s } := by
  intro row hr hs
  show ∃ row', (w.db.update k s).rows[n]? = some row' ∧ _
  rw [Database.update_getElem?]
  split
  · rename_i hk
    rw [hr]
    exact ⟨_, rfl, h hk.symm⟩
  · exact ⟨row, hr, hs⟩

theorem undelivered_insert (w : World) {r : Row} {db : Database} (hdb : w.db.insert r = some db) :
    Undelivered n w { w with db := db } := by
  intro row hr hs
  obtain ⟨hfree, hrows⟩ := Database.insert_some hdb
  refine ⟨row, ?_, hs⟩
  show db.rows[n]? = some row
  rw [hrows, if_neg, hr]
  rintro rfl
  rw [hfree] at hr
  cases hr

theorem undelivered_frame : MessageFrame (fun _ _ => True) (Undelivered n) where
  refl _ := trivial
  add _ _ _ := trivial
  touch _ _ _ _ := trivial
  increment _ := trivial
  counter _ _ row hr hs := ⟨row, hr, hs⟩
  insert w _ _ _ hdb := undelivered_insert w hdb
  mark w _ := undelivered_update w fun _ h => by cases h
  putBal _ _ _ _ _ _ row hr hs := ⟨row, hr, hs⟩
  balWrite _ _ _ _ row hr hs := ⟨row, hr, hs⟩
  putFcm _ _ _ row hr hs := ⟨row, hr, hs⟩
  record _ _ row hr hs := ⟨row, hr, hs⟩

theorem undelivered_connections : ConnectionFrame (Undelivered n) where
  change _ _ _ _ _ _ row hr hs := ⟨row, hr, hs⟩
  logon _ _ _ row hr hs := ⟨row, hr, hs⟩

theorem undelivered_singleShot {msec : Int} {t : Timer} : Keeps E (Undelivered n) (singleShot msec t) := by
  unfold singleShot
  split
  · exact Keeps.pure _
  · exact Keeps.update fun w row hr hs => ⟨row, hr, hs⟩

theorem undelivered_updateMsgState (hE : Env.Closed E) {s : MessageState} (h : msg.sequenceId = n → s ≠ .delivered) :
    Keeps E (Undelivered n) (updateMsgState msg s) :=
  keeps_updateMsgState hE fun w => undelivered_update w h

theorem undelivered_failed (hE : Env.Closed E) : Keeps E (Undelivered n) (updateMsgState msg .deliveryFailed) :=
  undelivered_updateMsgState hE fun _ h => by cases h

theorem undelivered_retryDownstream (hE : Env.Closed E) :
    Keeps E (Undelivered n) (retryDownstreamWithExponentialBackoff msg) := by
  have hm := undelivered_frame (n := n)
  unfold retryDownstreamWithExponentialBackoff
  refine Keeps.bind (Keeps.decision hE.popDraw) fun d => Keeps.bind (hm.modifyFcm fun _ => trivial) fun _ => ?_
  dsimp only
  split
  · exact Keeps.bind (hm.modifyFcm fun _ => trivial) fun _ => undelivered_singleShot
  · refine Keeps.bind (undelivered_failed hE) fun _ => Keeps.bind (hm.onFcm (allowed_all _)) fun _ => ?_
    exact hm.notifyDownstreamUploadFailure hE

theorem undelivered_retryUpstream (hE : Env.Closed E) :
    Keeps E (Undelivered n) (retryUpstreamWithExponentialBackoff sid msg) := by
  have hm := undelivered_frame (n := n)
  unfold retryUpstreamWithExponentialBackoff
  refine Keeps.bind (Keeps.decision hE.popDraw) fun d => Keeps.bind (hm.modifyBal fun _ => trivial) fun _ => ?_
  dsimp only
  split
  · exact Keeps.bind (hm.modifyBal fun _ => trivial) fun _ => undelivered_singleShot
  · exact Keeps.bind (undelivered_failed hE) fun _ => hm.onBal (allowed_all _)

theorem undelivered_resendUpstream (hE : Env.Closed E) :
    Keeps E (Undelivered n) (resendPendingUpstreamMessages sid) := by
  have hm := undelivered_frame (n := n)
  refine keeps_forEachMessage fun msg => ?_
  split
  · refine Keeps.bind hm.askBal fun rcode => ?_
    split
    · split
      · refine Keeps.bind (undelivered_updateMsgState hE fun _ h => by cases h) fun _ => ?_
        exact Keeps.bind (hm.modifyBal fun _ => trivial) fun _ => hm.forwardMsg hE
      · exact hm.forwardMsg hE
    · split
      · exact undelivered_retryUpstream hE
      · split
        · exact Keeps.pure _
        · exact hm.onBal (allowed_all _)
  · exact Keeps.pure _

theorem undelivered_established (hE : Env.Closed E) : Keeps E (Undelivered n) handleFcmSessionEstablished := by
  have hm := undelivered_frame (n := n)
  unfold handleFcmSessionEstablished
  refine Keeps.bind (Keeps.update fun w => hm.record w _) fun _ => keeps_forEachMessage fun msg => ?_
  split
  · refine Keeps.bind hm.askFcm fun rcode => ?_
    split
    · exact hm.uploadToFcm hE
    · split
      · exact undelivered_retryDownstream hE
      · exact Keeps.pure _
  · exact Keeps.pure _

theorem undelivered_nack (hE : Env.Closed E) : Keeps E (Undelivered n) (handleFcmNackMessage doc) := by
  have hm := undelivered_frame (n := n)
  unfold handleFcmNackMessage
  refine Keeps.bind (Keeps.update fun w => hm.record w _) fun _ => keeps_guarded (Keeps.bind hm.askFcm fun msg => ?_)
  split
  · exact undelivered_retryDownstream hE
  · refine Keeps.bind (undelivered_failed hE) fun _ => Keeps.bind (hm.onFcm (allowed_all _)) fun _ => ?_
    exact Keeps.bind (hm.sendNextPendingDownstreamMessage hE) fun _ => hm.notifyDownstreamUploadFailure hE

/-- An ack of FCM settles a message of `__fcmMsgManager`, so none of a session. -/
theorem wp_handleFcmAckMessage_undelivered (hE : Env.Closed E) (hb : Base cfg (books w) .none)
    (hcfg : fcmSessionId ∉ cfg) (hq : Queued (stores w.toServer) sid n) :
    Wp E (handleFcmAckMessage doc) (fun _ => Undelivered n w) (fun _ => Undelivered n w) w := by
  have hm := undelivered_frame (n := n)
  obtain ⟨m, held, hbal, hn⟩ := hq
  unfold handleFcmAckMessage
  refine Wp.bind (Wp.update ?_)
  have hrecord := hm.record w (.acked (Json.toString (doc.value fcmfieldnames.messageId)))
  refine wp_guarded (Wp.bind (wp_askFcm (fun msg hfind => ?_) fun _ _ => hrecord))
  have hother : msg.sequenceId = n → False := by
    rintro rfl
    exact absurd ((hb.apart hcfg hbal hn).symm.trans (hb.fcm.find hfind).2.1) (by simp)
  have hrest : Keeps E (Undelivered n) (do
      updateMsgState msg .delivered
      onFcm (MessageManager.removeMessageWithFcmMsgId (Json.toString (doc.value fcmfieldnames.messageId)))
      sendNextPendingDownstreamMessage
      let newseqid ← getNextSequenceId
      let balack := Message.new newseqid .downstreamAck (Json.toString (doc.value fcmfieldnames.messageId)) ""
        fcmSessionId msg.sourceSessionId (gimmmMessage newseqid "DOWNSTREAM_ACK" msg.sourceSessionId doc.asObject)
      saveMsg balack
      forwardMsgToBalsession msg.sourceSessionId balack) := by
    refine Keeps.bind (undelivered_updateMsgState hE fun h => (hother h).elim) fun _ => ?_
    refine Keeps.bind (hm.onFcm (allowed_all _)) fun _ => ?_
    refine Keeps.bind (hm.sendNextPendingDownstreamMessage hE) fun _ => ?_
    exact hm.notify hE fun n => by simp [Message.new]
  exact hrest.wp (fun _ _ h => IsTrans.trans _ _ _ hrecord h) fun _ _ h => IsTrans.trans _ _ _ hrecord h

/-- An ACK of a BAL settles the message that it names, in the queue of its own session. -/
theorem wp_handleBalAckMsg_undelivered (hE : Env.Closed E) (hb : Base cfg (books w) .none)
    (hq : Queued (stores w.toServer) sid n) {s : SessionId} {k : Int} (hother : s = sid → k ≠ n) :
    Wp E (handleBalAckMsg s k) (fun _ => Undelivered n w) (fun _ => Undelivered n w) w := by
  have hm := undelivered_frame (n := n)
  have hself : Undelivered n w w := refl w
  obtain ⟨m, held, hbal, hn⟩ := hq
  unfold handleBalAckMsg
  refine wp_guarded (Wp.bind (wp_findBalMessageManager (fun m' hbal' => ?_) fun _ _ => hself))
  refine Wp.bind (wp_askBal hbal' (fun msg hfind => ?_) fun _ _ => hself)
  have hheld : m'.messages[k]? = some msg := by
    unfold MessageManager.findMessage at hfind
    cases hk : m'.messages[k]? with
    | none => rw [hk] at hfind; cases hfind
    | some msg' => rw [hk] at hfind; cases hfind; rfl
  have hne : msg.sequenceId = n → False := by
    rw [(hb.bal hbal').key hheld]
    rintro rfl
    exact hother (hb.oneQueue hbal' hheld hbal hn) rfl
  have hrest : Keeps E (Undelivered n) (do
      updateMsgState msg .delivered
      onBal s (MessageManager.removeMessage k)
      sendNextPendingUpstreamMessage s) := by
    refine Keeps.bind (undelivered_updateMsgState hE fun h => (hne h).elim) fun _ => ?_
    exact Keeps.bind (hm.onBal (allowed_all _)) fun _ => hm.sendNextPendingUpstreamMessage hE
  exact hrest w

/-- No event but an ACK for the message `n`, which the queue of `sid` has, makes its row delivered. -/
theorem wp_handle_undelivered (hb : Base cfg (books w) .none) (hcfg : fcmSessionId ∉ cfg)
    (hq : Queued (stores w.toServer) sid n) (hno : ¬ AcksFor w.toServer i sid n) :
    Wp (i.env.Rest i.env.faults) (handle i.event) (fun _ => Undelivered n w) (fun _ => Undelivered n w) w := by
  have hE := Env.Rest.closed i.env i.env.faults
  have hm := undelivered_frame (n := n)
  have hc := undelivered_connections (n := n)
  have hself : Undelivered n w w := refl w
  cases he : i.event with
  | newBALConnection d => exact hc.handleNewBALConnection w
  | balFrame sock doc =>
    refine Wp.bind (Wp.read ?_)
    cases hsock : w.app.sockets[sock]? with
    | none => exact Wp.pure hself
    | some s =>
      dsimp only
      split
      · rename_i hopen
        simp only [Bool.and_eq_true, Bool.not_eq_true'] at hopen
        refine wp_guarded ?_
        unfold handleBALmsg
        dsimp only
        split
        · exact hc.handleBalLogonRequest hE w
        · split
          · exact hm.handleBalDownstreamUploadRequest hE (fun w msg db _ hdb => undelivered_insert w hdb) w
          · split
            · rename_i htype
              refine wp_handleBalAckMsg_undelivered hE hb hq fun hs hn => hno ?_
              exact ⟨sock, doc, s, he, hsock, hopen.1, hopen.2, hs, htype, hn⟩
            · exact Wp.throw hself
      · exact Wp.pure hself
  | balDisconnected sock => exact hc.disconnectSocket w
  | fcmUpstream doc => exact hm.handleFcmNewUpstreamMessage hE w
  | fcmAck doc => exact wp_handleFcmAckMessage_undelivered hE hb hcfg hq
  | fcmNack doc => exact undelivered_nack hE w
  | fcmReceipt doc => exact hm.handleFcmReceiptMessage hE w
  | fcmSessionEstablished id =>
    exact Keeps.bind hc.onFcmConnection (fun _ => keeps_guarded (undelivered_established hE)) w
  | fcmConnectionDrainingStarted id =>
    exact Keeps.bind hc.onFcmConnection (fun _ => keeps_guarded hc.handleFcmConnectionDrainingStarted) w
  | fcmDisconnected id => exact hc.handleDisconnected hE w
  | timer k =>
    refine Wp.bind (Wp.read ?_)
    cases ht : w.app.timers[k]? with
    | none => exact Wp.pure hself
    | some t =>
      refine Keeps.bind (Keeps.update fun w row hr hs => ⟨row, hr, hs⟩) (fun _ => ?_) w
      cases t with
      | retryDownstream msg => exact hm.expire_retryDownstream hE
      | retryUpstream msg => exact hm.expire_retryUpstream hE
      | resend s => exact undelivered_resendUpstream hE
      | authentication sock => exact hc.handleBalAuthenticationTimeout
      | reconnect id => exact Keeps.pure _
      | deleteSocket sock => exact hc.expire_deleteSocket
  | restart => exact Wp.throw hself

end

/-! ## Steps -/

section
variable {cfg : List SessionId} {i : Input} {w : World} {sid : SessionId} {n : Int}

/-- A step is a sequence of acts with what the handler ensures, and the next start if it ended the process. -/
theorem step_reached {Q : World → Prop} (hb : Base cfg (books w) .none)
    (hQ : Wp (i.env.Rest i.env.faults) (handle i.event) (fun _ => Q) (fun _ => Q) w) :
    ∃ w', Reach i (books w) (books w') .none ∧ Q w' ∧ (step cfg w i).db = w'.db ∧ (step cfg w i).log = w'.log ∧
      ((step cfg w i).app.balManager = w'.app.balManager ∨ Restarted cfg i.env (books w') (books (step cfg w i))) := by
  have h := ((wp_handle (i := i) hb).and hQ) i.env (.refl _)
  unfold step
  cases hh : handle i.event (w, i.env) with
  | ok a s =>
    rw [hh] at h
    obtain ⟨-, hr, hq⟩ := h
    exact ⟨s.1, hr, hq, rfl, rfl, Or.inl (destroyConns_fields s.1.app).2.1⟩
  | error e s =>
    rw [hh] at h
    obtain ⟨henv, hr, hq⟩ := h
    exact ⟨s.1, hr, hq, rfl, rfl, Or.inr (start_restarted henv.junk henv.scan rfl rfl rfl)⟩

/-- A start loads what the queue had. -/
theorem Queued.ends {w₁ w₂ : World} (h : Queued (stores w₁.toServer) sid n) (hb : Base cfg (books w₁) .none)
    (hc : Cycle (stores w₁.toServer)) (hsid : sid ∈ cfg) (hnul : NoNul sid) {env : Env} (hscan : (env.scan sid).Complete)
    (hend : w₂.app.balManager = w₁.app.balManager ∨ Restarted cfg env (books w₁) (books w₂)) :
    Queued (stores w₂.toServer) sid n := by
  obtain ⟨m, msg, hm, hn⟩ := h
  rcases hend with hbal | hr
  · exact ⟨m, msg, (congrFun hbal sid).trans hm, hn⟩
  · obtain ⟨row, hrow, hp⟩ := hc.pendingBal hm hn
    obtain ⟨-, ⟨row', hrow', hsaves⟩, htarget⟩ := hb.balHeld hm hn
    rw [(hb.bal hm).key hn] at hrow'
    obtain rfl : row = row' := Option.some.inj (hrow.symm.trans hrow')
    obtain ⟨db, hdb, -, -, hfresh⟩ := hr.fresh
    obtain ⟨m', hm'⟩ := (hr.known sid).2 hsid
    have hown : row.targetSession = sid := by rw [hsaves.targetSession, htarget, cString_of_noNul hnul]
    have hload := (hfresh sid m' hm').all hscan n row ((hdb n).trans hrow) hp hown
    exact ⟨m', _, hm', hload⟩

/-- A message stays in the queue of its session unless the event is its ACK. -/
theorem queued_step (hcfg : fcmSessionId ∉ cfg) (hsid : sid ∈ cfg) (hnul : NoNul sid) (hb : Base cfg (books w) .none)
    (hc : Cycle (stores w.toServer)) (hi : Sheltered cfg (stores w.toServer) i)
    (hq : Queued (stores w.toServer) sid n) :
    Queued (stores (step cfg w i).toServer) sid n ∨
      DeliveredRow (stores (step cfg w i).toServer) n ∧ AcksFor w.toServer i sid n := by
  have hunless : Wp (i.env.Rest i.env.faults) (handle i.event)
      (fun _ w' => ¬ AcksFor w.toServer i sid n → Undelivered n w w')
      (fun _ w' => ¬ AcksFor w.toServer i sid n → Undelivered n w w') w := by
    by_cases hack : AcksFor w.toServer i sid n
    · exact (wp_handle hb).mono (fun _ _ _ hno => absurd hack hno) fun _ _ _ hno => absurd hack hno
    · exact (wp_handle_undelivered hb hcfg hq hack).mono (fun _ _ h _ => h) fun _ _ h _ => h
  obtain ⟨w', hr, hquiet, hdb, -, hend⟩ := step_reached hb hunless
  obtain ⟨hc', hcase⟩ : Cycle (books w').toStores ∧
      (Queued (books w').toStores sid n ∨ DeliveredRow (books w').toStores n) :=
    hr.invariant_base (P := fun b _ => Cycle b.toStores ∧ (Queued b.toStores sid n ∨ DeliveredRow b.toStores n)) hb
      ⟨hc, Or.inl hq⟩ fun hb _ _ hP ha => ⟨hP.1.act hcfg hi.retries hb ha, queued_act hi.retries hb hP.1 hP.2 ha⟩
  rcases hcase with hq' | ⟨row, hrow, hs⟩
  · exact Or.inl (hq'.ends (hr.base hb).1 hc' hsid hnul (hi.scans sid hsid) hend)
  · refine Or.inr ⟨⟨row, ?_, hs⟩, ?_⟩
    · show (step cfg w i).db.rows[n]? = some row
      rw [hdb]
      exact hrow
    · -- the row was pending before, so only its ACK can have made it delivered
      by_contra hno
      obtain ⟨m, msg, hm, hn⟩ := hq
      obtain ⟨row₀, hrow₀, hp⟩ := hc.pendingBal hm hn
      obtain ⟨row', hrow', hs'⟩ := hquiet hno row₀ hrow₀ fun h => by rw [h] at hp; cases hp
      have hrow : w'.db.rows[n]? = some row := hrow
      rw [hrow] at hrow'
      cases hrow'
      exact hs' hs

/-! ## New acks -/

/-- What is sent is no ack of an upstream message, the rows stay, and so does what the queue of `sid` has under `n`. -/
structure Tends (sid : SessionId) (n : Int) (w w' : World) : Prop where
  log : ∃ new, w'.log = new ++ w.log ∧ ∀ o ∈ new, ¬ o.IsAck
  rows : RowsStay (stores w.toServer) (stores w'.toServer)
  queue : Queued (stores w.toServer) sid n → Queued (stores w'.toServer) sid n

instance : IsPreorder World (Tends sid n) where
  refl _ := ⟨⟨[], rfl, by simp⟩, RowsStay.refl _, id⟩
  trans _ _ _ h h' := by
    obtain ⟨new, hnew, hacks⟩ := h.log
    obtain ⟨new', hnew', hacks'⟩ := h'.log
    refine ⟨⟨new' ++ new, by rw [hnew', hnew, List.append_assoc], fun o ho => ?_⟩, h.rows.trans h'.rows,
      h'.queue ∘ h.queue⟩
    exact (List.mem_append.1 ho).elim (hacks' o) (hacks o)

/-- The log, the rows and the queues stay. -/
theorem Tends.same {w' : World} (hlog : w'.log = w.log) (hdb : w'.db = w.db)
    (hbal : w'.app.balManager = w.app.balManager) :
    Tends sid n w w' := by
  refine ⟨⟨[], hlog, by simp⟩, fun k row hk => ⟨row.state, ?_⟩, fun ⟨m, msg, hm, hn⟩ => ⟨m, msg, ?_, hn⟩⟩
  · show w'.db.rows[k]? = some row
    rw [hdb]
    exact hk
  · exact (congrFun hbal sid).trans hm

theorem tends_frame : SessionFrame (fun m m' => ∀ msg, m.messages[n]? = some msg → ∃ msg', m'.messages[n]? = some msg')
    (Tends sid n) where
  refl _ msg hn := ⟨msg, hn⟩
  add m k msg msg' hn := by
    rw [MessageManager.addMessage_messages, ExtTreeMap.getElem?_insertIfNew]
    split
    · exact ⟨_, rfl⟩
    · exact ⟨_, hn⟩
  touch m k f _ msg hn := by
    rw [MessageManager.modifyMessage_getElem?, hn]
    split <;> exact ⟨_, rfl⟩
  increment m msg hn := ⟨msg, hn⟩
  counter _ _ := .same rfl rfl rfl
  insert w msg db _ hdb := by
    refine ⟨⟨[], rfl, by simp⟩, fun k row hk => ⟨row.state, ?_⟩, id⟩
    obtain ⟨hfree, hrows⟩ := Database.insert_some hdb
    show db.rows[k]? = some row
    rw [hrows, if_neg]
    · exact hk
    · rintro rfl
      have hk : w.db.rows[(Row.ofMessage msg).sequenceId]? = some row := hk
      rw [hfree] at hk
      cases hk
  mark w k := by
    refine ⟨⟨[], rfl, by simp⟩, ?_, id⟩
    have hbooks := books_update (w := w) k .pendingAck
    have hstay := RowsStay.setState (books w) k .pendingAck
    rw [← hbooks] at hstay
    exact hstay
  putBal w s m m' hm hkeys := by
    refine ⟨⟨[], rfl, by simp⟩, RowsStay.refl _, fun hq => ?_⟩
    have hset : Queued ((books w).setBal s m').toStores sid n := Queued.setBal (b := books w) hq hm hkeys
    rw [← books_putBal hm] at hset
    exact hset
  balWrite w s sock doc := by
    refine ⟨⟨[⟨.balWrite s sock doc, w.toServer⟩], rfl, fun o ho => ?_⟩, RowsStay.refl _, id⟩
    rw [List.mem_singleton.1 ho]
    rintro ⟨original, ack, h⟩
    cases h

/-- A message that is saved comes to the queue of its session, whatever fails. -/
theorem wp_forwardMsgToBalsession_queued {E : Env → Prop} (hE : Env.Closed E) {msg : Message}
    (hfresh : ∀ m, w.app.balManager sid = some m → m.messages[msg.sequenceId]? = none) :
    Wp E (forwardMsgToBalsession sid msg)
      (fun _ w' => Tends sid msg.sequenceId w w' ∧
        (w.app.balManager sid ≠ none → Queued (stores w'.toServer) sid msg.sequenceId))
      (fun _ w' => Tends sid msg.sequenceId w w' ∧
        (w.app.balManager sid ≠ none → Queued (stores w'.toServer) sid msg.sequenceId)) w := by
  have hm : SessionFrame _ (Tends sid msg.sequenceId) := tends_frame
  unfold forwardMsgToBalsession
  refine Wp.bind (wp_findBalMessageManager (fun m hbal => ?_) fun hnone _ => ⟨refl w, fun hsome => absurd hnone hsome⟩)
  refine Wp.bind (wp_modifyBal hbal fun w₁ h₁ => ?_)
  have hq₁ : Queued (books w₁).toStores sid msg.sequenceId := by
    refine ⟨_, msg, bal_of_setBal h₁, ?_⟩
    rw [MessageManager.addMessage_getElem? msg (hfresh m hbal), if_pos rfl]
  have ht₁ : Tends sid msg.sequenceId w w₁ := by
    have hlog : w₁.log = w.log := congrArg Books.log h₁
    have hrows : (books w₁).rows = (books w).rows := by rw [h₁]; rfl
    exact ⟨⟨[], hlog, by simp⟩, fun k row hk => ⟨row.state, (congrFun hrows k).trans hk⟩, fun _ => hq₁⟩
  have hrest : Keeps E (Tends sid msg.sequenceId) (do
      let rcode ← askBal sid (·.canSendMessage msg)
      if rcode = 0 then
        updateMsgState msg .pendingAck
        modifyBal sid (·.modifyMessage msg.sequenceId (·.setState .pendingAck))
        modifyBal sid (·.incrementPendingAckCount)
        forwardMsg sid msg) := by
    refine Keeps.bind hm.askBal fun rcode => ?_
    split
    · refine Keeps.bind (keeps_updateMsgState hE fun w => hm.mark w _) fun _ => ?_
      refine Keeps.bind (hm.modifyBal fun m => hm.touch m _ _ fun _ => rfl) fun _ => ?_
      exact Keeps.bind (hm.modifyBal hm.increment) fun _ => hm.forwardMsg hE
    · exact Keeps.pure _
  exact hrest.wp (fun _ _ h => ⟨IsTrans.trans _ _ _ ht₁ h, fun _ => h.queue hq₁⟩)
    fun _ _ h => ⟨IsTrans.trans _ _ _ ht₁ h, fun _ => h.queue hq₁⟩

/-- Each ack that is sent since is for the upstream message `doc`: it has the next sequence id, is saved, and is in the
queue of its session, if this is configured. -/
def AcksTaken (doc : Json) (w w' : World) : Prop :=
  ∃ new msg, w'.log = new ++ w.log ∧ msg = upstreamMessage doc (w.app.sequenceId + 1) ∧
    ∀ o ∈ new, ∀ original ack, o.what = .fcmAck original ack →
      original = doc ∧ o.server.app.sequenceId = msg.sequenceId ∧ Saved (stores w'.toServer) msg ∧
        (w.app.balManager msg.targetSessionId ≠ none → Queued (stores w'.toServer) msg.targetSessionId msg.sequenceId)

theorem wp_handleFcmNewUpstreamMessage_taken (hb : Base cfg (books w) .none) (doc : Json) {fs : List Fault} :
    Wp (i.env.Rest fs) (handleFcmNewUpstreamMessage doc) (fun _ => AcksTaken doc w) (fun _ => AcksTaken doc w) w := by
  -- nothing is acked before the row is inserted
  have hsilent : ∀ w₁ : World, w₁.log = w.log → AcksTaken doc w w₁ := fun w₁ hlog =>
    ⟨[], _, hlog, rfl, by simp⟩
  unfold handleFcmNewUpstreamMessage
  refine wp_guarded (wp_getNextSequenceId fun w₁ h₁ => ?_)
  generalize hmsg : Message.new _ _ _ _ _ _ _ = msg
  have hseq : msg.sequenceId = (books w).counter + 1 := by rw [← hmsg]; rfl
  have hfresh : (books w₁).rows msg.sequenceId = none := by rw [h₁, hseq]; exact hb.freshRow
  refine wp_saveMsg hfresh (fun w₂ h₂ => ?_) fun _ _ => hsilent w₁ (congrArg Books.log h₁)
  rw [h₁] at h₂
  refine Wp.bind (wp_output (fun w₃ h₃ => ?_) fun _ => hsilent w₂ (congrArg Books.log h₂))
  rw [h₂] at h₃
  have hlog₃ : w₃.log = ⟨.fcmAck doc (fcmAckMessage doc), w₂.toServer⟩ :: w.log := congrArg Books.log h₃
  have hbal₃ : w₃.app.balManager = w.app.balManager := congrArg (fun b : Books => b.bal) h₃
  have hcounter : w₂.app.sequenceId = w.app.sequenceId + 1 := congrArg (fun b : Books => b.counter) h₂
  have hsaved₃ : Saved (books w₃).toStores msg := by
    refine ⟨_, ?_, Row.ofMessage_saves (by rw [← hmsg]; exact noNul_fcmSessionId)⟩
    rw [h₃]
    exact (Books.insertRow_rows ..).trans (if_pos rfl)
  have htarget : Json.toString (doc.value fcmfieldnames.category) = msg.targetSessionId := by rw [← hmsg]; rfl
  rw [htarget]
  have hfresh₃ : ∀ m, w₃.app.balManager msg.targetSessionId = some m → m.messages[msg.sequenceId]? = none := by
    intro m hm
    rw [hbal₃] at hm
    rw [hseq]
    exact hb.freshBal hm
  -- whatever becomes of the forwarding, the one ack was sent for the saved message
  have htaken : ∀ w', Tends msg.targetSessionId msg.sequenceId w₃ w' ∧ (w₃.app.balManager msg.targetSessionId ≠ none →
      Queued (stores w'.toServer) msg.targetSessionId msg.sequenceId) → AcksTaken doc w w' := by
    rintro w' ⟨ht, hq⟩
    obtain ⟨new, hnew, hacks⟩ := ht.log
    refine ⟨new ++ [⟨.fcmAck doc (fcmAckMessage doc), w₂.toServer⟩], msg, by rw [hnew, hlog₃]; simp, hmsg.symm,
      fun o ho original ack hwhat => ?_⟩
    rcases List.mem_append.1 ho with ho | ho
    · exact absurd ⟨original, ack, hwhat⟩ (hacks o ho)
    · rw [List.mem_singleton.1 ho] at hwhat ⊢
      cases hwhat
      exact ⟨rfl, hcounter.trans hseq.symm, ht.rows.saved hsaved₃, fun hsome => hq (by rw [hbal₃]; exact hsome)⟩
  exact (wp_forwardMsgToBalsession_queued (Env.Rest.closed i.env fs.tail) hfresh₃).mono (fun _ w' h => htaken w' h)
    fun _ w' h => htaken w' h

/-- An upstream message that waits to be forwarded is the one of the event, and so is one whose ack was sent. -/
structure AcksEvent (i : Input) (b₀ b : Books) (d : Debt) : Prop where
  debt : ∀ msg, d = .saved msg → msg.type = .upstream → ∃ doc, i.event = .fcmUpstream doc
  log : ∀ o ∈ b.log, o.IsAck → o ∈ b₀.log ∨ ∃ doc, i.event = .fcmUpstream doc

theorem AcksEvent.observe {b₀ b : Books} {d : Debt} (h : AcksEvent i b₀ b d) {o : Obs}
    (hnew : o.IsAck → ∃ doc, i.event = .fcmUpstream doc) : AcksEvent i b₀ (b.observe o) d := by
  refine ⟨h.debt, fun o' ho' hack => ?_⟩
  rcases List.mem_cons.1 ho' with rfl | ho'
  · exact Or.inr (hnew hack)
  · exact h.log o' ho' hack

theorem AcksEvent.act {b₀ b b' : Books} {d d' : Debt} (h : AcksEvent i b₀ b d) (ha : Act i b₀ b d b' d') :
    AcksEvent i b₀ b' d' := by
  cases ha with
  | save envelope state cause =>
    refine ⟨fun msg hmsg htype => ?_, h.log⟩
    cases hmsg
    cases cause with
    | upstream doc he => exact ⟨doc, he⟩
    | receipt doc he type => rw [type] at htype; cases htype
    | ack old type => rw [type] at htype; cases htype
  | fcmAck data type => exact h.observe fun _ => h.debt _ rfl type
  | upload cause what => exact h.observe fun ⟨_, _, hack⟩ => by rw [what] at hack; cases hack
  | write cause what => exact h.observe fun ⟨_, _, hack⟩ => by rw [what] at hack; cases hack
  | record server what =>
    refine h.observe fun ⟨_, _, hack⟩ => ?_
    rcases what with ⟨hw, -⟩ | ⟨_, hw⟩ | ⟨_, hw⟩ <;> rw [hw] at hack <;> cases hack
  | draw | drop | touchDown | touchBal | connections => exact ⟨h.debt, h.log⟩
  | _ => exact ⟨by simp, h.log⟩

/-- An ack that a step sends is for a message that the step takes. -/
theorem acked_step (hcfg : fcmSessionId ∉ cfg) (hb : Base cfg (books w) .none) (hc : Cycle (stores w.toServer))
    (hi : Sheltered cfg (stores w.toServer) i) {o : Obs} (ho : o ∈ (step cfg w i).log) {doc ack : Json} {msg : Message}
    (hwhat : o.what = .fcmAck doc ack) (hmsg : msg = upstreamMessage doc o.server.app.sequenceId)
    (hsid : msg.targetSessionId ∈ cfg) (hnul : NoNul msg.targetSessionId) :
    o ∈ w.log ∨ Saved (stores (step cfg w i).toServer) msg ∧
      Queued (stores (step cfg w i).toServer) msg.targetSessionId msg.sequenceId := by
  -- only the handler of an upstream message sends acks to FCM
  have htakes : Wp (i.env.Rest i.env.faults) (handle i.event)
      (fun _ w' => ∀ doc, i.event = .fcmUpstream doc → AcksTaken doc w w')
      (fun _ w' => ∀ doc, i.event = .fcmUpstream doc → AcksTaken doc w w') w := by
    by_cases he : ∃ doc, i.event = .fcmUpstream doc
    · obtain ⟨doc, he⟩ := he
      rw [he]
      exact (wp_handleFcmNewUpstreamMessage_taken hb doc).mono (fun _ w' h doc' hdoc => by cases hdoc; exact h)
        fun _ w' h doc' hdoc => by cases hdoc; exact h
    · exact (wp_handle hb).mono (fun _ _ _ doc hdoc => absurd ⟨doc, hdoc⟩ he)
        fun _ _ _ doc hdoc => absurd ⟨doc, hdoc⟩ he
  obtain ⟨w', hr, htaken, hdb, hlog, hend⟩ := step_reached hb htakes
  rw [hlog] at ho
  have hevent : AcksEvent i (books w) (books w') .none :=
    hr.invariant (P := AcksEvent i (books w)) ⟨by simp, fun o ho _ => Or.inl ho⟩ fun hP ha => hP.act ha
  rcases hevent.log o ho ⟨doc, ack, hwhat⟩ with hold | ⟨doc', he⟩
  · exact Or.inl hold
  · obtain ⟨new, taken, hnew, htakenMsg, hacks⟩ := htaken doc' he
    rw [hnew] at ho
    rcases List.mem_append.1 ho with ho | ho
    · obtain ⟨rfl, hcounter, hsaved, hqueued⟩ := hacks o ho doc ack hwhat
      have hsame : msg = taken := by
        rw [hmsg, hcounter, htakenMsg]
        rfl
      subst hsame
      obtain ⟨m, hm⟩ := (hb.known _).2 hsid
      have hc' : Cycle (books w').toStores := hr.invariant_base (P := fun b _ => Cycle b.toStores) hb hc
        fun hb _ _ hP ha => hP.act hcfg hi.retries hb ha
      refine Or.inr ⟨?_, (hqueued (by rw [show w.app.balManager _ = some m from hm]; simp)).ends (hr.base hb).1 hc' hsid
        hnul (hi.scans _ hsid) hend⟩
      obtain ⟨row, hrow, hsaves⟩ := hsaved
      refine ⟨row, ?_, hsaves⟩
      show (step cfg w i).db.rows[msg.sequenceId]? = some row
      rw [hdb]
      exact hrow
    · exact Or.inl ho

end

/-! ## Runs -/

theorem sheltered_cycle {cfg : List SessionId} {env : Env} {db : Database} {is : List Input} (hcfg : fcmSessionId ∉ cfg)
    (hdb : Addressed (db.rows[·]?)) (hscan : (env.scan fcmSessionId).Complete)
    (hrun : Run.Along (step cfg) (fun w i => Sheltered cfg (stores w.toServer) i) (boot cfg env db) is) :
    Cycle (stores (run cfg (boot cfg env db) is).toServer) :=
  (run_invariant (P := fun b => Cycle b.toStores) (fun _ _ hb hC hP => (hP.step hcfg hb (Sheltered.toOrdinary hC)).1)
    (boot_base cfg env db) hrun (Cycle.boot hdb hscan)).2

/-- In every run with complete scans in which no retry limit is in force, whatever fails and however often the process
ends: each upstream message whose ack was sent to FCM, and whose session is configured under an id without a NUL, has
its row, and either the row is pending and the queue of the session has the message, or the row is delivered and a BAL
sent the ACK for it, on a socket of this session, after the ack to FCM. -/
theorem acked_upstream_kept (cfg : List SessionId) (env : Env) (db : Database) (is : List Input)
    (hcfg : fcmSessionId ∉ cfg) (hdb : Addressed (db.rows[·]?)) (hscan : (env.scan fcmSessionId).Complete)
    (hrun : Run.Along (step cfg) (fun w i => Sheltered cfg (stores w.toServer) i) (boot cfg env db) is) :
    ∀ o ∈ (run cfg (boot cfg env db) is).log, ∀ doc ack msg, o.what = .fcmAck doc ack →
      msg = upstreamMessage doc o.server.app.sequenceId → msg.targetSessionId ∈ cfg → NoNul msg.targetSessionId →
      ∃ row, (run cfg (boot cfg env db) is).db.rows[msg.sequenceId]? = some row ∧ row.Saves msg ∧
        ((row.state.pending = true ∧ ∃ m held,
            (run cfg (boot cfg env db) is).app.balManager msg.targetSessionId = some m ∧
            m.messages[msg.sequenceId]? = some held ∧ row.Saves held) ∨
          (row.state = .delivered ∧ ∃ pre i post, is = pre ++ i :: post ∧ o ∈ (run cfg (boot cfg env db) pre).log ∧
            AcksFor (run cfg (boot cfg env db) pre).toServer i msg.targetSessionId msg.sequenceId)) := by
  intro o ho doc ack msg hwhat hmsg hsid hnul
  -- the induction is over the run, with the row and the queue as they are in the books
  obtain ⟨hsaved, hcase⟩ : Saved (stores (run cfg (boot cfg env db) is).toServer) msg ∧
      (Queued (stores (run cfg (boot cfg env db) is).toServer) msg.targetSessionId msg.sequenceId ∨
        DeliveredRow (stores (run cfg (boot cfg env db) is).toServer) msg.sequenceId ∧
          ∃ pre i post, is = pre ++ i :: post ∧ o ∈ (run cfg (boot cfg env db) pre).log ∧
            AcksFor (run cfg (boot cfg env db) pre).toServer i msg.targetSessionId msg.sequenceId) := by
    induction is using List.reverseRecOn with
    | nil => cases ho
    | append_singleton is i ih =>
      obtain ⟨his, hi, -⟩ := (Run.along_append is).1 hrun
      have hb := run_base cfg env db is
      have hc := sheltered_cycle hcfg hdb hscan his
      have hlast : run cfg (boot cfg env db) (is ++ [i]) = step cfg (run cfg (boot cfg env db) is) i :=
        Run.run_append ..
      rw [hlast] at ho ⊢
      rcases acked_step hcfg hb hc hi ho hwhat hmsg hsid hnul with hold | ⟨hsaved, hqueued⟩
      · obtain ⟨hsaved, hcase⟩ := ih his hold
        refine ⟨(step_rowsStay hb i).saved hsaved, ?_⟩
        rcases hcase with hqueued | ⟨⟨row, hrow, hs⟩, pre, i', post, rfl, hpre, hack⟩
        · rcases queued_step hcfg hsid hnul hb hc hi hqueued with hqueued' | ⟨hdelivered, hack⟩
          · exact Or.inl hqueued'
          · exact Or.inr ⟨hdelivered, is, i, [], rfl, hold, hack⟩
        · have hstays := (Cycle.step hcfg hb hi.toOrdinary hc).2.settled hrow (by rw [hs]; rfl)
          exact Or.inr ⟨⟨row, hstays, hs⟩, pre, i', post ++ [i], by simp, hpre, hack⟩
      · exact ⟨hsaved, Or.inl hqueued⟩
  obtain ⟨row, hrow, hsaves⟩ := hsaved
  refine ⟨row, hrow, hsaves, ?_⟩
  rcases hcase with ⟨m, held, hm, hheld⟩ | ⟨⟨row', hrow', hs⟩, hhistory⟩
  · have hb := run_base cfg env db is
    obtain ⟨row', hrow', hp⟩ := (sheltered_cycle hcfg hdb hscan hrun).pendingBal hm hheld
    obtain ⟨-, ⟨row'', hrow'', hsaves'⟩, -⟩ := hb.balHeld hm hheld
    rw [(hb.bal hm).key hheld] at hrow''
    obtain rfl : row = row' := Option.some.inj (hrow.symm.trans hrow')
    obtain rfl : row = row'' := Option.some.inj (hrow.symm.trans hrow'')
    exact Or.inl ⟨hp, m, held, hm, hheld, hsaves'⟩
  · obtain rfl : row = row' := Option.some.inj (hrow.symm.trans hrow')
    exact Or.inr ⟨hs, hhistory⟩

/-- An upstream message for a BAL that is not connected, and the next start of the process. -/
def takenThenEnded : List Input := [.quiet (.fcmUpstream (fcmMessage "u" "bal")), .quiet .restart]

theorem acked_upstream_kept_restarted : ∃ o ∈ (run ["bal"] (boot ["bal"] .quiet .empty) takenThenEnded).log, ∃ row,
    (run ["bal"] (boot ["bal"] .quiet .empty) takenThenEnded).db.rows[o.server.app.sequenceId]? = some row ∧
      row.Saves (upstreamMessage (fcmMessage "u" "bal") o.server.app.sequenceId) := by
  have hret : Run.Along (step ["bal"]) (fun w i => NoneExhausted i (stores w.toServer)) (boot ["bal"] .quiet .empty)
      takenThenEnded := along_noneExhausted (boot_base _ _ _) (by decide +kernel)
  have hscan : ∀ sid, (Env.quiet.scan sid).Complete := fun sid l => List.Perm.refl l
  have hlog : (run ["bal"] (boot ["bal"] .quiet .empty) takenThenEnded).log.map (·.what) =
      [.fcmAck (fcmMessage "u" "bal") (fcmAckMessage (fcmMessage "u" "bal"))] := rfl
  obtain ⟨o, ho, hwhat⟩ := List.mem_map.1 (hlog ▸ List.mem_singleton.2 rfl)
  obtain ⟨row, hrow, hsaves, -⟩ := acked_upstream_kept ["bal"] .quiet .empty takenThenEnded (by decide)
    (fun n row hn => by simp [Database.empty] at hn) (hscan fcmSessionId)
    ⟨⟨⟨hscan _, hret.1⟩, fun sid _ => hscan sid⟩, ⟨⟨hscan _, hret.2.1⟩, fun sid _ => hscan sid⟩, trivial⟩
    o ho _ _ _ hwhat rfl (List.mem_singleton.2 rfl) (show NoNul "bal" by decide)
  exact ⟨o, ho, row, hrow, hsaves⟩

end Gimmm

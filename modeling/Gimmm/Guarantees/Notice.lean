/-
The notice of a settled message. The state of a row and the row of its notice are two statements, so they are
not atomic: between them the next message is uploaded, and the INSERT may fail. A settled row is without its notice
only if the process ended there, or the INSERT failed, or the resend gave up a message that its own FCM message id
does not find.
-/
import Mathlib.Data.List.Induction
import Gimmm.Flow.Exact
import Gimmm.Guarantees.Lifecycle
import Gimmm.Guarantees.Timely

namespace Gimmm

open Std Prog CString

/-- The type of the notice of a settled message. -/
def noticeType : MessageState → MessageType
  | .delivered => .downstreamAck
  | _ => .downstreamReject

/-- A settled downstream row. -/
structure SettledDown (row : Row) : Prop where
  type : row.type = .downstream
  state : row.state = .delivered ∨ row.state = .deliveryFailed

/-- The row `notice` is the notice of the settled row `row`, addressed to its source. -/
structure NoticeFor (notice row : Row) : Prop where
  type : notice.type = noticeType row.state
  fcmMessageId : notice.fcmMessageId = row.fcmMessageId
  target : notice.targetSession = row.sourceSession

/-- The table has the notice of the settled row. -/
def Noticed (rows : Int → Option Row) (row : Row) : Prop :=
  ∃ (k : Int) (notice : Row), rows k = some notice ∧ NoticeFor notice row

/-- What the `k`-th statement or output of a handler meets. -/
def Env.fault : Nat → Env → Fault
  | 0, env => env.popFault.1
  | k + 1, env => env.popFault.2.fault k

/-- The handler settles the message `n`, and its notice is not inserted. After the UPDATE, the statement 0, comes the
upload of the next message if there is one, which fails only if the process ends, and then the INSERT of the notice.
A resend with a full window uploads nothing; it stops at the first message that it gives up and its FCM message id finds. -/
inductive Unnoticed (i : Input) (b₀ : Stores) (n : Int) : Prop where
  | insert (old : Message) (s : MessageState) (settles : Settles i b₀ old s) (seq : old.sequenceId = n)
      (next : (b₀.fcm.without old).getNext = .ok none) (fault : i.env.fault 1 ≠ .ok)
  | upload (old : Message) (s : MessageState) (settles : Settles i b₀ old s) (seq : old.sequenceId = n) (msg : Message)
      (next : (b₀.fcm.without old).getNext = .ok (some msg)) (fault : i.env.fault 1 = .crash ∨ i.env.fault 2 ≠ .ok)
  | spent (old : Message) (nacked : Nacked i b₀ old) (seq : old.sequenceId = n)
      (out : (old.getNextRetryTimeout i.env.popDraw.1).1 = -1) (fault : i.env.fault 1 ≠ .ok)
  | resend (gives : GivesUp i b₀) (fault : i.env.fault 1 ≠ .ok)
  | unfound (gives : GivesUp i b₀) (k : Int) (msg : Message) (held : b₀.fcm.messages[k]? = some msg)
      (out : Exhausted i msg) (id : b₀.fcm.findMessageWithFcmMsgId msg.fcmMessageId ≠ .ok msg)

theorem Noticed.stay {b b' : Stores} (h : RowsStay b b') {row : Row} (hn : Noticed b.rows row) : Noticed b'.rows row := by
  obtain ⟨k, notice, hk, hnotice⟩ := hn
  obtain ⟨s, hs⟩ := h k notice hk
  exact ⟨k, _, hs, hnotice.type, hnotice.fcmMessageId, hnotice.target⟩

/-! ## What settles a row -/

/-- A settled downstream row was settled in `b₀` already, or the event settles it, or a message that fails has it. -/
def Caused (i : Input) (b₀ b : Stores) : Prop :=
  ∀ (n : Int) (row : Row), b.rows n = some row → SettledDown row →
    (∃ row₀, b₀.rows n = some row₀ ∧ row₀.state = row.state) ∨
    (∃ msg : Message, msg.sequenceId = n ∧ Settles i b₀ msg row.state) ∨
    ∃ msg : Message, msg.sequenceId = n ∧ row.state = .deliveryFailed ∧ Failed i b₀ msg

namespace Caused

variable {cfg : List SessionId} {i : Input} {b₀ b : Books} {d : Debt}

theorem start (i : Input) (b : Stores) : Caused i b b := fun _ row hn _ => Or.inl ⟨row, hn, rfl⟩

/-- A row gets a state: it has a cause, or it is not that of a settled downstream row. -/
theorem setState (h : Caused i b₀.toStores b.toStores) {n : Int} {s : MessageState}
    (hs : ∀ row, b.rows n = some row → row.type = .downstream → s = .delivered ∨ s = .deliveryFailed →
      (∃ msg : Message, msg.sequenceId = n ∧ Settles i b₀.toStores msg s) ∨
      ∃ msg : Message, msg.sequenceId = n ∧ s = .deliveryFailed ∧ Failed i b₀.toStores msg) :
    Caused i b₀.toStores (b.setState n s).toStores := by
  intro k row hk hset
  replace hk : (b.setState n s).rows k = some row := hk
  rw [Books.setState_rows] at hk
  split at hk
  · rename_i hkn
    subst hkn
    obtain ⟨row', hr, rfl⟩ := Option.map_eq_some_iff.1 hk
    exact Or.inr (hs row' hr hset.type hset.state)
  · exact h k row hk hset

/-- A row is inserted: it is not that of a settled downstream message. -/
theorem insertRow (h : Caused i b₀.toStores b.toStores) {msg : Message}
    (hnew : msg.type = .downstream → msg.state = .new) :
    Caused i b₀.toStores (b.draw.insertRow (.ofMessage msg)).toStores := by
  intro k row hk hset
  replace hk : (b.draw.insertRow (.ofMessage msg)).rows k = some row := hk
  rw [Books.insertRow_rows] at hk
  split at hk
  · cases hk
    have hstate : msg.state = .delivered ∨ msg.state = .deliveryFailed := hset.state
    rw [hnew hset.type] at hstate
    rcases hstate with h1 | h1 <;> cases h1
  · exact h k row hk hset

theorem act (hcfg : fcmSessionId ∉ cfg) (hb : Base cfg b d) (hdir : Directed b.toStores) (h : Caused i b₀.toStores b.toStores) {b' : Books} {d' : Debt}
    (ha : Act i b₀ b d b' d') : Caused i b₀.toStores b'.toStores := by
  have hpending : ∀ {n : Int}, Caused i b₀.toStores (b.setState n .pendingAck).toStores := fun {n} =>
    h.setState fun _ _ _ hs => by rcases hs with h1 | h1 <;> cases h1
  cases ha with
  | accept mid gid sid data hm => exact h.insertRow fun _ => by rw [hm]; rfl
  | mark => exact hpending
  | settle settles => exact h.setState fun _ _ _ _ => Or.inl ⟨_, rfl, settles⟩
  | exhaust held out within cause => exact h.setState fun _ _ _ _ => Or.inr ⟨_, rfl, rfl, cause.failed out⟩
  | save envelope state cause => exact h.insertRow fun htype => absurd htype (Addressed.receives cause)
  | reject envelope state type => exact h.insertRow fun htype => by rw [type] at htype; cases htype
  | markBal => exact hpending
  | remark => exact hpending
  | settleBal bal held => exact h.setState fun _ hr htype => absurd htype (hdir.not_downstream hb hcfg bal held hr)
  | exhaustBal resend =>
    obtain ⟨held, hheld, -⟩ := resend.held
    exact h.setState fun _ hr htype => absurd htype (hdir.not_downstream hb hcfg resend.bal hheld hr)
  | _ => exact h

theorem step {w : World} (hcfg : fcmSessionId ∉ cfg) (h₀ : Base cfg (books w) .none) (hdir : Directed (books w).toStores)
    (i : Input) :
    Caused i (stores w.toServer) (stores (step cfg w i).toServer) := by
  obtain ⟨b, hr, hend⟩ := step_reach h₀ i
  have hb : Directed b.toStores ∧ Caused i (stores w.toServer) b.toStores :=
    hr.invariant_base (P := fun b _ => Directed b.toStores ∧ Caused i (stores w.toServer) b.toStores) h₀
      ⟨hdir, .start i _⟩ fun hb _ _ hP ha => ⟨hP.1.act hb ha, hP.2.act hcfg hb hP.1 ha⟩
  have hrows : (books (Gimmm.step cfg w i)).rows = b.rows := by
    rcases hend with ⟨-, he⟩ | ⟨-, he⟩
    · rw [he]
    · exact he.rows
  have hcaused := hb.2
  unfold Caused at hcaused ⊢
  rw [← hrows] at hcaused
  exact hcaused

end Caused

/-! ## What a handler leaves -/

/-- The rows of the table stay, perhaps in another state. -/
def TableStays (w w' : World) : Prop := RowsStay (stores w.toServer) (stores w'.toServer)

instance : IsPreorder World TableStays where
  refl _ := RowsStay.refl _
  trans _ _ _ h h' := h.trans h'

/-- What serves sessions keeps the rows. -/
theorem tableStays_frame : SessionFrame (fun _ _ => True) TableStays where
  refl _ := trivial
  add _ _ _ := trivial
  touch _ _ _ _ := trivial
  increment _ := trivial
  counter w _ := RowsStay.refl _
  insert w msg db _ h := by
    intro k row hk
    obtain ⟨hnone, hrows⟩ := Database.insert_some h
    have hk : w.db.rows[k]? = some row := hk
    refine ⟨row.state, (hrows k).trans ?_⟩
    rw [if_neg, hk]
    rintro rfl
    rw [hnone] at hk
    cases hk
  mark w n := by
    have h := RowsStay.setState (books w) n .pendingAck
    rw [← books_update] at h
    exact h
  putBal _ _ _ _ _ _ := RowsStay.refl _
  balWrite _ _ _ _ := RowsStay.refl _

/-- The table of the world has the notice of the row. -/
def HasNotice (row : Row) (s : World × Env) : Prop := Noticed (stores s.1.toServer).rows row

section
variable {w : World} {env : Env} {row : Row} {msg : Message}

/-- The notice is inserted, and what follows keeps the rows. -/
theorem saveMsg_noticed {rest : Unit → Handler Unit} (hfresh : w.db.rows[msg.sequenceId]? = none) (hok : env.fault 0 = .ok)
    (hnotice : NoticeFor (.ofMessage msg) row) (hrest : Keeps (fun _ => True) TableStays (rest ())) :
    Ends (fun _ => HasNotice row) (fun _ => HasNotice row) ((saveMsg msg >>= rest) (w, env)) := by
  obtain ⟨db, hdb, hsave⟩ := saveMsg_ok (w := w) msg hfresh hok
  have hhas : Noticed (db.rows[·]?) row :=
    ⟨msg.sequenceId, .ofMessage msg, ((Database.insert_some hdb).2 _).trans (if_pos rfl), hnotice⟩
  rw [bind_ok hsave]
  exact (hrest _ _ trivial).mono (fun _ _ h => hhas.stay h.2) fun _ _ h => hhas.stay h.2

/-- The notice of an ack. -/
theorem notify_noticed {sid : SessionId} {f : Int → Message} (hfresh : w.db.rows[w.app.sequenceId + 1]? = none)
    (hok : env.fault 0 = .ok) (hseq : ∀ n, (f n).sequenceId = n) (hnotice : ∀ n, NoticeFor (.ofMessage (f n)) row) :
    Ends (fun _ => HasNotice row) (fun _ => HasNotice row) ((do
      let n ← getNextSequenceId
      saveMsg (f n)
      forwardMsgToBalsession sid (f n) : Handler Unit) (w, env)) := by
  rw [bind_ok getNextSequenceId_ok]
  refine saveMsg_noticed ?_ hok (hnotice _) (tableStays_frame.forwardMsgToBalsession Env.closed_all)
  rw [hseq]
  exact hfresh

/-- The table and FCM's queue stay as they are. -/
def QueueStays (w w' : World) : Prop := w'.db = w.db ∧ w'.app.fcmMsgManager = w.app.fcmMsgManager

instance : IsPreorder World QueueStays where
  refl _ := ⟨rfl, rfl⟩
  trans _ _ _ h h' := ⟨h'.1.trans h.1, h'.2.trans h.2⟩

/-- A notice is inserted, and FCM's queue stays as it is. -/
theorem saveMsg_ends {rest : Unit → Handler Unit} (hfresh : w.db.rows[msg.sequenceId]? = none) (hok : env.fault 0 = .ok)
    (hnotice : NoticeFor (.ofMessage msg) row) (hrest : Keeps (fun _ => True) QueueStays (rest ())) :
    ∃ (notice : Row) (db : Database), w.db.insert notice = some db ∧ NoticeFor notice row ∧
      Ends (fun _ s => s.1.db = db ∧ s.1.app.fcmMsgManager = w.app.fcmMsgManager)
        (fun _ s => s.1.db = db ∧ s.1.app.fcmMsgManager = w.app.fcmMsgManager) ((saveMsg msg >>= rest) (w, env)) := by
  obtain ⟨db, hdb, hsave⟩ := saveMsg_ok (w := w) msg hfresh hok
  refine ⟨_, db, hdb, hnotice, ?_⟩
  rw [bind_ok hsave]
  exact (hrest _ _ trivial).mono (fun _ _ h => h.2) fun _ _ h => h.2

theorem notifyDownstreamUploadFailure_ends (hfresh : w.db.rows[w.app.sequenceId + 1]? = none) (hok : env.fault 0 = .ok)
    (hstate : noticeType row.state = .downstreamReject) (hid : row.fcmMessageId = cString msg.fcmMessageId)
    (hsource : row.sourceSession = msg.sourceSessionId) :
    ∃ (notice : Row) (db : Database), w.db.insert notice = some db ∧ NoticeFor notice row ∧
      Ends (fun _ s => s.1.db = db ∧ s.1.app.fcmMsgManager = w.app.fcmMsgManager)
        (fun _ s => s.1.db = db ∧ s.1.app.fcmMsgManager = w.app.fcmMsgManager) (notifyDownstreamUploadFailure msg (w, env)) := by
  refine Exists.imp (fun _ => Exists.imp fun _ => And.imp_right (And.imp_right guarded_ends)) ?_
  rw [bind_ok getNextSequenceId_ok, bind_ok (x := decision (Env.getJunk (w.app.sequenceId + 1))) rfl]
  refine saveMsg_ends (w := w.mapApp ({ · with sequenceId := w.app.sequenceId + 1 })) hfresh hok ⟨hstate.symm, hid.symm, ?_⟩ ?_
  · show cString msg.sourceSessionId = row.sourceSession
    rw [← hsource, cString_of_noNul row.noNul.1]
  · exact Keeps.bind keeps_findBalSession fun sess => keeps_writeMessage Env.closed_all fun _ _ => ⟨rfl, rfl⟩

/-- The notice of a failed message. -/
theorem notifyDownstreamUploadFailure_noticed (hfresh : w.db.rows[w.app.sequenceId + 1]? = none) (hok : env.fault 0 = .ok)
    (hstate : noticeType row.state = .downstreamReject) (hid : row.fcmMessageId = cString msg.fcmMessageId)
    (hsource : row.sourceSession = msg.sourceSessionId) :
    Ends (fun _ => HasNotice row) (fun _ => HasNotice row) (notifyDownstreamUploadFailure msg (w, env)) := by
  obtain ⟨notice, db, hdb, hnotice, hends⟩ := notifyDownstreamUploadFailure_ends hfresh hok hstate hid hsource
  have hhas : Noticed (db.rows[·]?) row := ⟨_, notice, ((Database.insert_some hdb).2 _).trans (if_pos rfl), hnotice⟩
  refine hends.mono (fun _ s h => ?_) fun _ s h => ?_
  · show Noticed (s.1.db.rows[·]?) row
    rw [h.1]
    exact hhas
  · show Noticed (s.1.db.rows[·]?) row
    rw [h.1]
    exact hhas

/-- What follows the upload of the next message, unless the process ends there. -/
theorem sendNext_ends {P : World × Env → Prop} {rest : Unit → Handler Unit} {next : Option Message}
    (hnext : w.app.fcmMsgManager.getNext = .ok next) (hnone : next = none → Ends (fun _ => P) (fun _ => P) (rest () (w, env)))
    (hsome : ∀ msg, next = some msg → env.fault 0 ≠ .crash ∧
      Ends (fun _ => P) (fun _ => P) (rest () (w.record (.upload msg), env.popFault.2))) :
    Ends (fun _ => P) (fun _ => P) ((sendNextPendingDownstreamMessage >>= rest) (w, env)) := by
  cases next with
  | none =>
    have hsend : sendNextPendingDownstreamMessage (w, env) = .ok () (w, env) := bind_ok (askFcm_ok hnext)
    rw [bind_ok hsend]
    exact hnone rfl
  | some msg =>
    obtain ⟨hfault, hrest⟩ := hsome msg rfl
    have hsend : sendNextPendingDownstreamMessage (w, env) = .ok () (w.record (.upload msg), env.popFault.2) :=
      (bind_ok (askFcm_ok hnext)).trans (output_ok hfault)
    rw [bind_ok hsend]
    exact hrest

/-- A handler that cannot write the state stops, and leaves the table alone. -/
theorem updateMsgState_stops {s : MessageState} {rest : Unit → Handler Unit} (hfault : env.fault 0 ≠ .ok) :
    Ends (fun _ _ => False) (fun _ s => s.1.db = w.db) ((updateMsgState msg s >>= rest) (w, env)) := by
  have hfails : (∃ what, updateMsgState msg s (w, env) = .error (.exception what) (w, env.popFault.2)) ∨
      updateMsgState msg s (w, env) = .error .killed (w, env.popFault.2) := updateMsgState_fails hfault
  rcases hfails with ⟨what, h⟩ | h
  · rw [bind_error h]
    exact rfl
  · rw [bind_error h]
    exact rfl

theorem updateMsgState_unwritten {s : MessageState} {rest : Unit → Handler Unit} (hfault : env.fault 0 ≠ .ok) :
    Ends (fun _ s => s.1.db = w.db) (fun _ s => s.1.db = w.db) ((updateMsgState msg s >>= rest) (w, env)) :=
  (updateMsgState_stops hfault).mono (fun _ _ h => h.elim) fun _ _ h => h

/-! ## Settling -/

/-- After the state of its row is written a message is removed, the next one is uploaded, and the notice is saved. -/
theorem settle_noticed {old : Message} {s : MessageState} {x : FcmMessageId} {rest : Handler Unit}
    (hwf : w.app.fcmMsgManager.WF) (hfind : w.app.fcmMsgManager.findMessageWithFcmMsgId x = .ok old)
    (hfresh : w.db.rows[w.app.sequenceId + 1]? = none) (hok : env.fault 0 = .ok)
    (hnone : (w.app.fcmMsgManager.without old).getNext = .ok none → env.fault 1 = .ok)
    (hsome : ∀ msg, (w.app.fcmMsgManager.without old).getNext = .ok (some msg) → env.fault 1 ≠ .crash ∧ env.fault 2 = .ok)
    (hrest : ∀ w' env', w'.db.rows[w'.app.sequenceId + 1]? = none → Env.fault 0 env' = .ok →
      Ends (fun _ => HasNotice row) (fun _ => HasNotice row) (rest (w', env'))) :
    Ends (fun _ => HasNotice row) (fun _ => HasNotice row) ((do
      updateMsgState old s
      onFcm (MessageManager.removeMessageWithFcmMsgId x)
      sendNextPendingDownstreamMessage
      rest) (w, env)) := by
  have hremove : onFcm (MessageManager.removeMessageWithFcmMsgId x) ({ w with db := w.db.update old.sequenceId s }, env.popFault.2) =
      .ok () _ := removeFcm_ok rfl hwf hfind
  rw [bind_ok (updateMsgState_ok hok), bind_ok hremove]
  have hfresh' : (w.db.update old.sequenceId s).rows[w.app.sequenceId + 1]? = none := by
    rw [Database.update_getElem?, hfresh]
    split <;> rfl
  obtain ⟨next, hnext⟩ : ∃ next, (w.app.fcmMsgManager.without old).getNext = .ok next := by
    rcases MessageManager.getNext_eq (hwf.without (hwf.find hfind).2.1) with ⟨h, -⟩ | ⟨msg, h, -⟩
    · exact ⟨none, h⟩
    · exact ⟨some msg, h⟩
  refine sendNext_ends hnext (fun hn => hrest _ _ hfresh' (hnone (hn ▸ hnext))) fun msg hn => ?_
  obtain ⟨hcrash, hinsert⟩ := hsome msg (hn ▸ hnext)
  exact ⟨hcrash, hrest _ _ hfresh' hinsert⟩

/-- A retry of a message that is not out of retries gives it a timer. -/
theorem retry_timed {old : Message} (hleft : (old.getNextRetryTimeout env.popDraw.1).1 ≠ -1) :
    ∃ w', retryDownstreamWithExponentialBackoff old (w, env) = .ok () (w', env.popDraw.2) ∧ w'.db = w.db ∧
      w'.app.sequenceId = w.app.sequenceId ∧ w'.app.fcmMsgManager =
        (w.app.fcmMsgManager.modifyMessage old.sequenceId fun msg => (msg.getNextRetryTimeout env.popDraw.1).2).modifyMessage
          old.sequenceId (·.setRetryInProgress true) := by
  let m := w.app.fcmMsgManager.modifyMessage old.sequenceId fun msg => (msg.getNextRetryTimeout env.popDraw.1).2
  have htouch : modifyFcm (·.modifyMessage old.sequenceId fun msg => (msg.getNextRetryTimeout env.popDraw.1).2) (w, env.popDraw.2) =
      .ok () (w.putFcm m, env.popDraw.2) := rfl
  have hflag : modifyFcm (·.modifyMessage old.sequenceId (·.setRetryInProgress true)) (w.putFcm m, env.popDraw.2) =
      .ok () (w.putFcm (m.modifyMessage old.sequenceId (·.setRetryInProgress true)), env.popDraw.2) := rfl
  unfold retryDownstreamWithExponentialBackoff
  rw [bind_ok (x := decision Env.popDraw) rfl, bind_ok htouch]
  dsimp only
  rw [if_pos hleft, bind_ok hflag]
  unfold singleShot
  split
  · exact ⟨_, rfl, rfl, rfl, rfl⟩
  · exact ⟨_, rfl, rfl, rfl, rfl⟩

/-- The state of a message that is out of retries cannot be written. -/
theorem retry_stops {old : Message} (hout : (old.getNextRetryTimeout env.popDraw.1).1 = -1) (hfault : env.fault 0 ≠ .ok) :
    Ends (fun _ _ => False) (fun _ s => s.1.db = w.db) (retryDownstreamWithExponentialBackoff old (w, env)) := by
  have htouch : modifyFcm (·.modifyMessage old.sequenceId fun msg => (msg.getNextRetryTimeout env.popDraw.1).2) (w, env.popDraw.2) =
      .ok () (w.putFcm _, env.popDraw.2) := rfl
  unfold retryDownstreamWithExponentialBackoff
  rw [bind_ok (x := decision Env.popDraw) rfl, bind_ok htouch]
  dsimp only
  rw [if_neg (not_not.2 hout)]
  exact updateMsgState_stops hfault

/-- A message that is out of retries fails: its state is written, it is removed, and its notice comes next. -/
theorem retry_failed {old : Message} {x : FcmMessageId} (hwf : w.app.fcmMsgManager.WF)
    (hfind : w.app.fcmMsgManager.findMessageWithFcmMsgId x = .ok old)
    (hout : (old.getNextRetryTimeout env.popDraw.1).1 = -1) (hok : env.fault 0 = .ok) :
    ∃ w', retryDownstreamWithExponentialBackoff old (w, env) = notifyDownstreamUploadFailure old (w', env.popDraw.2.popFault.2) ∧
      w'.db = w.db.update old.sequenceId .deliveryFailed ∧ w'.app.sequenceId = w.app.sequenceId ∧
      w'.app.fcmMsgManager.messages[old.sequenceId]? = none := by
  let m := w.app.fcmMsgManager.modifyMessage old.sequenceId fun msg => (msg.getNextRetryTimeout env.popDraw.1).2
  have hm : m.WF := hwf.modifyMessage fun msg => (by simp)
  have htouch : modifyFcm (·.modifyMessage old.sequenceId fun msg => (msg.getNextRetryTimeout env.popDraw.1).2) (w, env.popDraw.2) =
      .ok () (w.putFcm m, env.popDraw.2) := rfl
  have hwrite : updateMsgState old .deliveryFailed (w.putFcm m, env.popDraw.2) =
      .ok () ({ w.putFcm m with db := w.db.update old.sequenceId .deliveryFailed }, env.popDraw.2.popFault.2) :=
    updateMsgState_ok hok
  -- the index still names it, whatever the retry has made of it
  obtain ⟨hseq, hheld, rfl⟩ := hwf.find hfind
  obtain ⟨touched, hfind', hseq'⟩ : ∃ touched : Message, m.findMessageWithFcmMsgId old.fcmMessageId = .ok touched ∧
      touched.sequenceId = old.sequenceId := by
    have hheld' : m.messages[old.sequenceId]? = some (old.getNextRetryTimeout env.popDraw.1).2 := by
      rw [MessageManager.modifyMessage_getElem?, if_pos rfl, hheld]
      rfl
    exact ⟨_, MessageManager.findMessageWithFcmMsgId_ok hseq hheld', hm.key hheld'⟩
  have hremove : onFcm (MessageManager.removeMessageWithFcmMsgId old.fcmMessageId)
      ({ w.putFcm m with db := w.db.update old.sequenceId .deliveryFailed }, env.popDraw.2.popFault.2) = .ok () _ :=
    removeFcm_ok rfl hm hfind'
  unfold retryDownstreamWithExponentialBackoff
  rw [bind_ok (x := decision Env.popDraw) rfl, bind_ok htouch]
  dsimp only
  rw [if_neg (not_not.2 hout), bind_ok hwrite, bind_ok hremove]
  refine ⟨_, rfl, rfl, rfl, ?_⟩
  show (m.without touched).messages[old.sequenceId]? = none
  rw [MessageManager.without_getElem?, if_pos hseq'.symm]

/-- A message is retried, or its state cannot be written, or it is out of retries and its notice is saved. -/
theorem retry_noticed {old : Message} {x : FcmMessageId} (hwf : w.app.fcmMsgManager.WF)
    (hfind : w.app.fcmMsgManager.findMessageWithFcmMsgId x = .ok old) (hfresh : w.db.rows[w.app.sequenceId + 1]? = none)
    (hspent : (old.getNextRetryTimeout env.popDraw.1).1 = -1 → env.fault 1 = .ok)
    (hid : row.fcmMessageId = cString old.fcmMessageId) (hsource : row.sourceSession = old.sourceSessionId) :
    Ends (fun _ s => s.1.db = w.db) (fun _ s => s.1.db = w.db) (retryDownstreamWithExponentialBackoff old (w, env)) ∨
      Ends (fun _ => HasNotice { row with state := .deliveryFailed }) (fun _ => HasNotice { row with state := .deliveryFailed })
        (retryDownstreamWithExponentialBackoff old (w, env)) := by
  by_cases hout : (old.getNextRetryTimeout env.popDraw.1).1 = -1
  · by_cases hok : env.fault 0 = .ok
    · refine Or.inr ?_
      obtain ⟨w', hrun, hdb, hnext, -⟩ := retry_failed hwf hfind hout hok
      rw [hrun]
      refine notifyDownstreamUploadFailure_noticed ?_ (hspent hout) rfl hid hsource
      rw [hdb, hnext, Database.update_getElem?, hfresh]
      split <;> rfl
    · exact Or.inl ((retry_stops hout hok).mono (fun _ _ h => h.elim) fun _ _ h => h)
  · refine Or.inl ?_
    obtain ⟨w', hrun, hdb, -⟩ := retry_timed (w := w) hout
    rw [hrun]
    exact hdb

end

section
variable {cfg : List SessionId} {i : Input} {w : World} {row : Row} {old : Message}

/-- An event that settles a message leaves the table alone, or the notice is there, or `Unnoticed` says why not. -/
theorem settles_noticed (hb : Base cfg (books w) .none) {s : MessageState} (hset : Settles i (stores w.toServer) old s)
    (hrow : w.db.rows[old.sequenceId]? = some row) (hun : ¬ Unnoticed i (stores w.toServer) old.sequenceId) :
    Ends (fun _ s => s.1.db = w.db) (fun _ s => s.1.db = w.db) (handle i.event (w, i.env)) ∨
      Ends (fun _ => HasNotice { row with state := s }) (fun _ => HasNotice { row with state := s })
        (handle i.event (w, i.env)) := by
  have hnone : ((stores w.toServer).fcm.without old).getNext = .ok none → i.env.fault 1 = .ok := fun hnext =>
    Decidable.by_contra fun hfault => hun (.insert old s hset rfl hnext hfault)
  have hsome : ∀ msg, ((stores w.toServer).fcm.without old).getNext = .ok (some msg) →
      i.env.fault 1 ≠ .crash ∧ i.env.fault 2 = .ok := fun msg hnext =>
    ⟨fun hfault => hun (.upload old s hset rfl msg hnext (Or.inl hfault)),
      Decidable.by_contra fun hfault => hun (.upload old s hset rfl msg hnext (Or.inr hfault))⟩
  have hfresh : w.db.rows[w.app.sequenceId + 1]? = none := hb.freshRow
  obtain ⟨mid, he, hfind⟩ := hset
  have hheld := hb.fcm.find hfind
  obtain ⟨row', hrow', hsaves⟩ := (hb.fcmHeld hheld.2.1).saved
  obtain rfl : row' = row := Option.some.inj (hrow'.symm.trans hrow)
  obtain ⟨e, env⟩ := i
  cases e with
  | fcmAck doc =>
    cases he
    have hstart : handle (.fcmAck doc) (w, env) = guarded _ (w.record _, env) := bind_ok (record_ok _)
    by_cases hok : env.fault 0 = .ok
    · refine Or.inr ?_
      rw [hstart]
      refine guarded_ends ?_
      rw [bind_ok (askFcm_ok hfind)]
      refine settle_noticed hb.fcm hfind hfresh hok hnone hsome fun w' env' hfresh' hok' => ?_
      refine notify_noticed hfresh' hok' (fun _ => rfl) fun n => ⟨rfl, ?_, ?_⟩
      · show cString (Json.toString (doc.value fcmfieldnames.messageId)) = row'.fcmMessageId
        rw [hsaves.fcmMessageId, hheld.2.2]
      · show cString old.sourceSessionId = row'.sourceSession
        rw [← hsaves.sourceSession, cString_of_noNul row'.noNul.1]
    · refine Or.inl ?_
      rw [hstart]
      refine guarded_ends (P := fun s => s.1.db = w.db) ?_
      rw [bind_ok (askFcm_ok hfind)]
      exact updateMsgState_unwritten hok
  | fcmNack doc =>
    have hstart : handle (.fcmNack doc) (w, env) = guarded _ (w.record _, env) := bind_ok (record_ok _)
    replace he : (if isTransient (Json.toString (doc.value fcmfieldnames.error)) then none
      else some (Json.toString (doc.value fcmfieldnames.messageId), .deliveryFailed)) = some (mid, s) := he
    split at he
    · cases he
    · rename_i permanent
      cases he
      by_cases hok : env.fault 0 = .ok
      · refine Or.inr ?_
        rw [hstart]
        refine guarded_ends ?_
        rw [bind_ok (askFcm_ok hfind), if_neg permanent]
        refine settle_noticed hb.fcm hfind hfresh hok hnone hsome fun w' env' hfresh' hok' => ?_
        exact notifyDownstreamUploadFailure_noticed hfresh' hok' rfl hsaves.fcmMessageId hsaves.sourceSession
      · refine Or.inl ?_
        rw [hstart]
        refine guarded_ends (P := fun s => s.1.db = w.db) ?_
        rw [bind_ok (askFcm_ok hfind), if_neg permanent]
        exact updateMsgState_unwritten hok
  | _ => cases he

/-- So does a transient nack, after which the message is out of retries or is retried. -/
theorem nacked_noticed (hb : Base cfg (books w) .none) (hnack : Nacked i (stores w.toServer) old)
    (hrow : w.db.rows[old.sequenceId]? = some row) (hun : ¬ Unnoticed i (stores w.toServer) old.sequenceId) :
    Ends (fun _ s => s.1.db = w.db) (fun _ s => s.1.db = w.db) (handle i.event (w, i.env)) ∨
      Ends (fun _ => HasNotice { row with state := .deliveryFailed }) (fun _ => HasNotice { row with state := .deliveryFailed })
        (handle i.event (w, i.env)) := by
  have hspent : (old.getNextRetryTimeout i.env.popDraw.1).1 = -1 → i.env.fault 1 = .ok := fun hout =>
    Decidable.by_contra fun hfault => hun (.spent old hnack rfl hout hfault)
  have hfresh : w.db.rows[w.app.sequenceId + 1]? = none := hb.freshRow
  obtain ⟨mid, he, hfind⟩ := hnack
  have hheld := hb.fcm.find hfind
  obtain ⟨row', hrow', hsaves⟩ := (hb.fcmHeld hheld.2.1).saved
  obtain rfl : row' = row := Option.some.inj (hrow'.symm.trans hrow)
  obtain ⟨e, env⟩ := i
  cases e with
  | fcmNack doc =>
    replace he : (if isTransient (Json.toString (doc.value fcmfieldnames.error)) then
      some (Json.toString (doc.value fcmfieldnames.messageId)) else none) = some mid := he
    split at he
    · rename_i transient
      cases he
      have hstart : handle (.fcmNack doc) (w, env) = guarded _ (w.record _, env) := bind_ok (record_ok _)
      have hretry : Ends _ _ (retryDownstreamWithExponentialBackoff old
          (w.record (.nacked (Json.toString (doc.value fcmfieldnames.messageId))), env)) ∨ _ :=
        retry_noticed hb.fcm hfind hfresh hspent hsaves.fcmMessageId hsaves.sourceSession
      rcases hretry with h | h
      · refine Or.inl ?_
        rw [hstart]
        refine guarded_ends (P := fun s => s.1.db = w.db) ?_
        rw [bind_ok (askFcm_ok hfind), if_pos transient]
        exact h
      · refine Or.inr ?_
        rw [hstart]
        refine guarded_ends ?_
        rw [bind_ok (askFcm_ok hfind), if_pos transient]
        exact h
    · cases he
  | _ => cases he

end

/-! ## A resend with a full window -/

/-- Every settled downstream row of the table was settled in `db₀` already, or its notice is there. -/
def Told (db₀ db : Database) : Prop :=
  ∀ (n : Int) (row : Row), db.rows[n]? = some row → SettledDown row →
    (∃ row₀, db₀.rows[n]? = some row₀ ∧ row₀.state = row.state) ∨ Noticed (db.rows[·]?) row

theorem Told.same (db : Database) : Told db db := fun _ row hn _ => Or.inl ⟨row, hn, rfl⟩

/-- A row fails, and its notice is inserted. -/
theorem Told.reject {db₀ db : Database} {n : Int} {row₀ notice : Row} (hn : db₀.rows[n]? = some row₀)
    (hnotice : NoticeFor notice { row₀ with state := .deliveryFailed })
    (hinsert : (db₀.update n .deliveryFailed).insert notice = some db) : Told db₀ db := by
  obtain ⟨-, hrows⟩ := Database.insert_some hinsert
  intro k row hk hset
  rw [hrows k] at hk
  split at hk
  · cases hk
    have htype := hset.type
    rw [hnotice.type] at htype
    cases htype
  · rw [Database.update_getElem?] at hk
    split at hk
    · rename_i hkn
      rw [hkn, hn] at hk
      cases hk
      exact Or.inr ⟨notice.sequenceId, notice, (hrows _).trans (if_pos rfl), hnotice⟩
    · exact Or.inl ⟨row, hk, rfl⟩

/-- The loop over the queue of `w` has given up no message yet: the messages `left` are as they were, and so is what a
notice needs. -/
structure Passed (w : World) (env : Env) (left : List Int) (s : World × Env) : Prop where
  db : s.1.db = w.db
  sequenceId : s.1.app.sequenceId = w.app.sequenceId
  wf : s.1.app.fcmMsgManager.WF
  full : maxPendingMessages ≤ s.1.app.fcmMsgManager.pendingAckCount
  index : s.1.app.fcmMsgManager.sequenceIdMap = w.app.fcmMsgManager.sequenceIdMap
  nodup : left.Nodup
  left : ∀ n ∈ left, s.1.app.fcmMsgManager.messages[n]? = w.app.fcmMsgManager.messages[n]?
  rest : env.Rest env.faults s.2
  faults : s.2.faults = env.faults

namespace Passed

variable {w w' : World} {env : Env} {n : Int} {l : List Int} {s : World × Env} {f g : Message → Message}

theorem skip (h : Passed w env (n :: l) s) : Passed w env l s :=
  ⟨h.db, h.sequenceId, h.wf, h.full, h.index, (List.nodup_cons.1 h.nodup).2, fun k hk => h.left k (List.mem_cons_of_mem _ hk),
    h.rest, h.faults⟩

/-- A retry of the message `n` started. -/
theorem timed (h : Passed w env (n :: l) s) (hf : ∀ msg, (f msg).fixed = msg.fixed) (hg : ∀ msg, (g msg).fixed = msg.fixed)
    (hdb : w'.db = s.1.db) (hseq : w'.app.sequenceId = s.1.app.sequenceId)
    (hfcm : w'.app.fcmMsgManager = (s.1.app.fcmMsgManager.modifyMessage n f).modifyMessage n g) :
    Passed w env l (w', s.2.popDraw.2) := by
  refine ⟨hdb.trans h.db, hseq.trans h.sequenceId, ?_, ?_, ?_, (List.nodup_cons.1 h.nodup).2, fun k hk => ?_, h.rest.popDraw,
    h.faults⟩
  · show w'.app.fcmMsgManager.WF
    rw [hfcm]
    exact (h.wf.modifyMessage hf).modifyMessage hg
  · show maxPendingMessages ≤ w'.app.fcmMsgManager.pendingAckCount
    rw [hfcm]
    exact h.full
  · show w'.app.fcmMsgManager.sequenceIdMap = _
    rw [hfcm]
    exact h.index
  · have hkn : ¬ k = n := fun hkn => (List.nodup_cons.1 h.nodup).1 (hkn ▸ hk)
    show w'.app.fcmMsgManager.messages[k]? = _
    rw [hfcm, MessageManager.modifyMessage_getElem?, if_neg hkn, MessageManager.modifyMessage_getElem?, if_neg hkn]
    exact h.left k (List.mem_cons_of_mem _ hk)

end Passed

section
variable {cfg : List SessionId} {w : World} {env : Env}

/-- The retry of a message of the queue: the loop goes on, or the message is gone from the queue and its notice is there. -/
theorem retry_told (hb : Base cfg (books w) .none) (hok : env.fault 1 = .ok)
    (hfound : ∀ (k : Int) (msg : Message) (d : Draw), w.app.fcmMsgManager.messages[k]? = some msg →
      d ∈ env.draws ∨ d = default → (msg.getNextRetryTimeout d).1 = -1 →
      w.app.fcmMsgManager.findMessageWithFcmMsgId msg.fcmMessageId = .ok msg)
    {n : Int} {l : List Int} {s : World × Env} (hs : Passed w env (n :: l) s) {msg : Message}
    (hn : s.1.app.fcmMsgManager.messages[n]? = some msg) :
    Does (retryDownstreamWithExponentialBackoff msg)
      (fun _ s' => Passed w env l s' ∧ (s'.1.app.fcmMsgManager.messages[n]?).isNone = false ∨
        Told w.db s'.1.db ∧ (s'.1.app.fcmMsgManager.messages[n]?).isNone = true)
      (fun _ s' => Told w.db s'.1.db) s := by
  obtain rfl : msg.sequenceId = n := hs.wf.key hn
  have hheld : w.app.fcmMsgManager.messages[msg.sequenceId]? = some msg := (hs.left _ (List.mem_cons_self ..)).symm.trans hn
  obtain ⟨w₁, env₁⟩ := s
  unfold Does
  by_cases hout : (msg.getNextRetryTimeout env₁.popDraw.1).1 = -1
  · by_cases hwrite : env₁.fault 0 = .ok
    · -- the index of the queue has not changed, so it finds the message
      have hfind : w₁.app.fcmMsgManager.findMessageWithFcmMsgId msg.fcmMessageId = .ok msg := by
        obtain ⟨hseq, -⟩ := hb.fcm.find (hfound _ msg _ hheld hs.rest.draw hout)
        refine MessageManager.findMessageWithFcmMsgId_ok (MessageManager.findSequenceId_ok.2 ?_) hn
        rw [hs.index]
        exact MessageManager.findSequenceId_ok.1 hseq
      obtain ⟨row, hrow, hsaves⟩ := (hb.fcmHeld hheld).saved
      obtain ⟨w₂, hrun, hdb, hseq, hgone⟩ := retry_failed hs.wf hfind hout hwrite
      replace hdb : w₂.db = w.db.update msg.sequenceId .deliveryFailed := by rw [hdb, hs.db]
      have hfresh : w₂.db.rows[w₂.app.sequenceId + 1]? = none := by
        rw [hdb, hseq, hs.sequenceId, Database.update_getElem?, show w.db.rows[w.app.sequenceId + 1]? = none from hb.freshRow]
        split <;> rfl
      have hinsert : Env.fault 0 env₁.popDraw.2.popFault.2 = .ok := by
        have hsame : Env.fault 1 env₁ = Env.fault 1 env := congrArg (fun fs : List Fault => fs.tail.headD .ok) hs.faults
        exact hsame.trans hok
      have hreject : noticeType ({ row with state := .deliveryFailed } : Row).state = .downstreamReject := rfl
      obtain ⟨notice, db, hdb', hnotice, hends⟩ := notifyDownstreamUploadFailure_ends hfresh hinsert hreject hsaves.fcmMessageId
        hsaves.sourceSession
      rw [hdb] at hdb'
      have htold : Told w.db db := .reject hrow hnotice hdb'
      rw [hrun]
      refine hends.mono (fun _ s' h => Or.inr ⟨h.1 ▸ htold, ?_⟩) fun _ s' h => h.1 ▸ htold
      rw [h.2, hgone]
      rfl
    · exact (retry_stops hout hwrite).mono (fun _ _ h => h.elim) fun _ s' h => by
        rw [h, hs.db]
        exact .same _
  · obtain ⟨w₂, hrun, hdb, hseq, hfcm⟩ := retry_timed (w := w₁) hout
    rw [hrun]
    refine Or.inl ⟨hs.timed (fun msg => by simp) (fun msg => by simp) hdb hseq hfcm, ?_⟩
    show (w₂.app.fcmMsgManager.messages[msg.sequenceId]?).isNone = false
    rw [hfcm, MessageManager.modifyMessage_getElem?, if_pos rfl, MessageManager.modifyMessage_getElem?, if_pos rfl, hn]
    rfl

/-- With a full window every message is retried. -/
theorem resend_passes (hb : Base cfg (books w) .none) (hok : env.fault 1 = .ok)
    (hfound : ∀ (k : Int) (msg : Message) (d : Draw), w.app.fcmMsgManager.messages[k]? = some msg →
      d ∈ env.draws ∨ d = default → (msg.getNextRetryTimeout d).1 = -1 →
      w.app.fcmMsgManager.findMessageWithFcmMsgId msg.fcmMessageId = .ok msg)
    {n : Int} {l : List Int} {s : World × Env} (hs : Passed w env (n :: l) s) {msg : Message}
    (hn : s.1.app.fcmMsgManager.messages[n]? = some msg) :
    Does (if msg.type = .downstream then do
        let rcode ← askFcm (·.canSendMessageOnReconnect msg)
        if rcode = 0 then uploadToFcm msg
        else if rcode = 2 then retryDownstreamWithExponentialBackoff msg
      else pure ())
      (fun _ s' => Passed w env l s' ∧ (s'.1.app.fcmMsgManager.messages[n]?).isNone = false ∨
        Told w.db s'.1.db ∧ (s'.1.app.fcmMsgManager.messages[n]?).isNone = true)
      (fun _ s' => Told w.db s'.1.db) s := by
  split
  · have hheld : w.app.fcmMsgManager.messages[n]? = some msg := (hs.left _ (List.mem_cons_self ..)).symm.trans hn
    obtain ⟨c, hc, hcases⟩ := MessageManager.canSendMessageOnReconnect_eq hs.wf hn (hs.wf.key hn) rfl (hb.fcmHeld hheld).pending
    obtain rfl : c = 2 := by
      rcases hcases with ⟨-, hroom, -⟩ | ⟨h2, -⟩ | ⟨-, hroom, -⟩
      · exact absurd hs.full (Nat.not_le.2 hroom)
      · exact h2
      · exact absurd hs.full (Nat.not_le.2 hroom)
    have hask : askFcm (·.canSendMessageOnReconnect msg) s = .ok 2 s := askFcm_ok hc
    unfold Does
    rw [bind_ok hask, if_neg (by decide), if_pos rfl]
    exact retry_told hb hok hfound hs hn
  · refine Does.pure (Or.inl ⟨hs.skip, ?_⟩)
    rw [hn]
    rfl

/-- The loop stops at the first message that it gives up, and the notice of this one is there. -/
theorem resend_told (hb : Base cfg (books w) .none) (hok : env.fault 1 = .ok)
    (hfound : ∀ (k : Int) (msg : Message) (d : Draw), w.app.fcmMsgManager.messages[k]? = some msg →
      d ∈ env.draws ∨ d = default → (msg.getNextRetryTimeout d).1 = -1 →
      w.app.fcmMsgManager.findMessageWithFcmMsgId msg.fcmMessageId = .ok msg)
    {s : World × Env} (hs : Passed w env s.1.app.fcmMsgManager.messages.keys s) :
    Does resendAllPendingDownstreamMessages (fun _ s' => Told w.db s'.1.db) (fun _ s' => Told w.db s'.1.db) s := by
  refine Does.bind (Does.read ?_)
  refine (Does.forM (I := Passed w env) (fun n l s hs => ?_) _ hs).mono (fun _ s' h => ?_) fun _ _ h => h
  · refine Does.bind (Does.read ?_)
    dsimp only [Option.bind_some]
    cases hn : s.1.app.fcmMsgManager.messages[n]? with
    | none => exact Does.pure hs.skip
    | some msg =>
      refine Does.bind ((resend_passes hb hok hfound hs hn).mono ?_ fun _ _ h => h)
      rintro - s' (⟨hpassed, hstays⟩ | ⟨htold, hgone⟩)
      · refine Does.bind (Does.read ?_)
        rw [if_neg (Bool.eq_false_iff.1 hstays)]
        exact Does.pure hpassed
      · refine Does.bind (Does.read ?_)
        rw [if_pos hgone]
        exact Does.throw htold
  · rw [h.db]
    exact .same _

/-- A session is established with a full window, every message that is out of retries is found by its own FCM message id,
and the first INSERT does not fail. -/
theorem established_told {i : Input} (hb : Base cfg (books w) .none) (hgives : GivesUp i (stores w.toServer)) {n : Int}
    (hun : ¬ Unnoticed i (stores w.toServer) n) :
    Ends (fun _ s => Told w.db s.1.db) (fun _ s => Told w.db s.1.db) (handle i.event (w, i.env)) := by
  have hok : i.env.fault 1 = .ok := Decidable.by_contra fun hfault => hun (.resend hgives hfault)
  have hfound : ∀ (k : Int) (msg : Message) (d : Draw), w.app.fcmMsgManager.messages[k]? = some msg →
      d ∈ i.env.draws ∨ d = default → (msg.getNextRetryTimeout d).1 = -1 →
      w.app.fcmMsgManager.findMessageWithFcmMsgId msg.fcmMessageId = .ok msg := fun k msg d hk hd hout =>
    Classical.by_contradiction fun hid => hun (.unfound hgives k msg hk ⟨d, hd, hout⟩ hid)
  obtain ⟨id, he⟩ := hgives.established
  have hstart : ∃ w', handle (.fcmSessionEstablished id) (w, i.env) = guarded handleFcmSessionEstablished (w', i.env) ∧
      w'.db = w.db ∧ w'.app.sequenceId = w.app.sequenceId ∧ w'.app.fcmMsgManager = w.app.fcmMsgManager :=
    ⟨_, bind_ok rfl, rfl, rfl, rfl⟩
  obtain ⟨w', hrun, hdb, hseq, hfcm⟩ := hstart
  rw [he, hrun]
  refine guarded_ends (P := fun s => Told w.db s.1.db) ?_
  have hrecord : handleFcmSessionEstablished (w', i.env) = resendAllPendingDownstreamMessages (w'.record .established, i.env) :=
    bind_ok (record_ok _)
  rw [hrecord]
  refine resend_told hb hok hfound ⟨hdb, hseq, ?_, ?_, ?_, ExtTreeMap.nodup_keys, fun k _ => ?_, .refl i.env, rfl⟩
  · show w'.app.fcmMsgManager.WF
    rw [hfcm]
    exact hb.fcm
  · show maxPendingMessages ≤ w'.app.fcmMsgManager.pendingAckCount
    rw [hfcm]
    exact hgives.full
  · show w'.app.fcmMsgManager.sequenceIdMap = _
    rw [hfcm]
  · show w'.app.fcmMsgManager.messages[k]? = _
    rw [hfcm]

end

/-! ## Steps -/

/-- What the handler leaves of the table, the step leaves. -/
theorem step_table (cfg : List SessionId) {P : Database → Prop} {i : Input} {w : World}
    (h : Ends (fun _ s => P s.1.db) (fun _ s => P s.1.db) (handle i.event (w, i.env))) : P (step cfg w i).db := by
  unfold step
  cases hh : handle i.event (w, i.env) with
  | ok a s =>
    rw [hh] at h
    exact h
  | error e s =>
    rw [hh] at h
    exact h

/-- A downstream row that a step settles has its notice then, or the step is one that `Unnoticed` describes. -/
theorem step_noticed {cfg : List SessionId} (hcfg : fcmSessionId ∉ cfg) {i : Input} {w : World} (h₀ : Base cfg (books w) .none)
    (hdir : Directed (books w).toStores) {n : Int} {row : Row}
    (hn : (step cfg w i).db.rows[n]? = some row) (hs : SettledDown row) :
    Noticed ((step cfg w i).db.rows[·]?) row ∨ (∃ row₀, w.db.rows[n]? = some row₀ ∧ row₀.state = row.state) ∨
      Unnoticed i (stores w.toServer) n := by
  by_cases hun : Unnoticed i (stores w.toServer) n
  · exact Or.inr (Or.inr hun)
  -- what the handler does with the row of the message that the event is about
  have hends : ∀ {msg : Message} {row₀ : Row} {s : MessageState}, msg.sequenceId = n → w.db.rows[n]? = some row₀ → s = row.state →
      (Ends (fun _ s => s.1.db = w.db) (fun _ s => s.1.db = w.db) (handle i.event (w, i.env)) ∨
        Ends (fun _ => HasNotice { row₀ with state := s }) (fun _ => HasNotice { row₀ with state := s })
          (handle i.event (w, i.env))) →
      Noticed ((step cfg w i).db.rows[·]?) row ∨ ∃ row₀, w.db.rows[n]? = some row₀ ∧ row₀.state = row.state := by
    rintro msg row₀ s hseq h₁ rfl (h | h)
    · have hsame : (step cfg w i).db = w.db := step_table (P := fun db => db = w.db) cfg h
      rw [hsame] at hn
      exact Or.inr ⟨row, hn, rfl⟩
    · obtain ⟨t, h₂⟩ := step_rowsStay h₀ i n row₀ h₁
      obtain rfl : { row₀ with state := t } = row := Option.some.inj (h₂.symm.trans hn)
      exact Or.inl (step_table (P := fun db => Noticed (db.rows[·]?) { row₀ with state := t }) cfg h)
  have hsettles : ∀ {msg : Message}, msg.sequenceId = n → Settles i (stores w.toServer) msg row.state →
      Noticed ((step cfg w i).db.rows[·]?) row ∨ ∃ row₀, w.db.rows[n]? = some row₀ ∧ row₀.state = row.state := by
    rintro msg rfl hset
    obtain ⟨row₀, h₁, -⟩ := (h₀.fcmHeld (h₀.fcm.find hset.choose_spec.2).2.1).saved
    exact hends rfl h₁ rfl (settles_noticed h₀ hset h₁ hun)
  refine or_assoc.1 (Or.inl ?_)
  rcases Caused.step hcfg h₀ hdir i n row hn hs with h | ⟨msg, hseq, hset⟩ | ⟨msg, hseq, hst, hfailed⟩
  · exact Or.inr h
  · exact hsettles hseq hset
  · cases hfailed with
    | nack settles => exact hsettles hseq (hst ▸ settles)
    | spent old nacked seq =>
      obtain rfl : old.sequenceId = n := seq.symm.trans hseq
      obtain ⟨row₀, h₁, -⟩ := (h₀.fcmHeld (h₀.fcm.find nacked.choose_spec.2).2.1).saved
      exact hends rfl h₁ hst.symm (nacked_noticed h₀ nacked h₁ hun)
    | gaveUp gives =>
      exact (step_table (P := fun db => Told w.db db) cfg (established_told h₀ gives hun) n row hn hs).symm

/-! ## Runs -/

def Event.establishes : Event → Bool
  | .fcmSessionEstablished _ => true
  | _ => false

/-- Two downstream messages, and a restart that reads their retry states back as used up. One is acked; then the window
fills, and the session that is established gives up the other one. -/
def resumed : List Input :=
  loggedOn "bal" ++ [.quiet (.balFrame 0 (balDownstream "a" "")), .quiet (.balFrame 0 (balDownstream "b" "")),
    ⟨.restart, { Env.quiet with junk := fun _ => (0, 0) }⟩, .quiet (.fcmAck (fcmAck "b"))] ++ loggedOn "bal" ++
    (List.range 100).map (fun k => .quiet (.balFrame 0 (balDownstream (toString k) ""))) ++
    [.quiet (.fcmSessionEstablished 1)]

/-- The state of an acked message is written, and its notice meets `fault`. -/
def cutShort (fault : Fault) : List Input :=
  loggedOn "bal" ++ [.quiet (.balFrame 0 (balDownstream "a" "")),
    ⟨.fcmAck (fcmAck "a"), { Env.quiet with faults := [.ok, fault] }⟩]

/-- A session named `fcm` gets the downstream messages after a restart, and its ack settles one. -/
def ackedByFcm : List Input :=
  loggedOn "bal" ++ [.quiet (.balFrame 0 (balDownstream "a" "")), .quiet .restart] ++ loggedOn "fcm" ++
    [.quiet (.balFrame 0 (balAck 1))]

/-- Two messages with one FCM message id, and a restart that reads their retry states back as used up. The ack of the
one leaves the other without its id in the queue, and a session is established with a full window. -/
def givenUp : List Input :=
  loggedOn "bal" ++ [.quiet (.balFrame 0 (balDownstream "a" "")), .quiet (.balFrame 0 (balDownstream "a" "")),
    ⟨.restart, { Env.quiet with junk := fun _ => (0, 0) }⟩, .quiet (.fcmAck (fcmAck "a"))] ++ loggedOn "bal" ++
    (List.range 100).map (fun k => .quiet (.balFrame 0 (balDownstream (toString k) ""))) ++
    [.quiet (.fcmSessionEstablished 1)]

end Gimmm

/-
Acks and nacks that come again. FCM may send an ack or a nack for a message that is not in the queue, or
that was in it once; nothing changes then, and over whole runs a downstream message has one notice at most.
-/
import Gimmm.Flow.Exact
import Gimmm.Guarantees.Notice

namespace Gimmm

open Std Prog CString

/-! ## Messages that are not live -/

/-- No message of the queue has the FCM message id `x`. -/
def MessageManager.Lacks (m : MessageManager) (x : FcmMessageId) : Prop :=
  ∀ (n : Int) (msg : Message), m.messages[n]? = some msg → msg.fcmMessageId ≠ x

/-- One message of the queue at most has the FCM message id `x`. -/
def MessageManager.Single (m : MessageManager) (x : FcmMessageId) : Prop :=
  ∀ (n n' : Int) (msg msg' : Message), m.messages[n]? = some msg → m.messages[n']? = some msg' →
    msg.fcmMessageId = x → msg'.fcmMessageId = x → n = n'

section
variable {w : World} {env : Env} {x : FcmMessageId}

/-- A message is found, or an exception says that there is none. -/
theorem find_cases (m : MessageManager) (x : FcmMessageId) :
    (∃ msg, m.findMessageWithFcmMsgId x = .ok msg) ∨ ∃ what, m.findMessageWithFcmMsgId x = .error (.exception what) := by
  unfold MessageManager.findMessageWithFcmMsgId MessageManager.findSequenceId MessageManager.findMessage
  cases m.sequenceIdMap[x]? with
  | none => exact Or.inr ⟨_, rfl⟩
  | some n =>
    cases hn : m.messages[n]? with
    | none => exact Or.inr ⟨_, by simp only [bind, Except.bind]; rw [hn]⟩
    | some msg => exact Or.inl ⟨msg, by simp only [bind, Except.bind]; rw [hn]⟩

theorem MessageManager.Lacks.find {m : MessageManager} (hwf : m.WF) (h : m.Lacks x) :
    ∃ what, m.findMessageWithFcmMsgId x = .error (.exception what) := by
  rcases find_cases m x with ⟨msg, hfind⟩ | herror
  · obtain ⟨-, hn, hid⟩ := hwf.find hfind
    exact absurd hid (h _ msg hn)
  · exact herror

/-- An ack that finds no message changes nothing. -/
theorem ack_lacking {doc : Json} {what : String}
    (h : w.app.fcmMsgManager.findMessageWithFcmMsgId (Json.toString (doc.value fcmfieldnames.messageId)) =
      .error (.exception what)) : handleFcmAckMessage doc (w, env) =
      .ok () (w.record (.acked (Json.toString (doc.value fcmfieldnames.messageId))), env) := by
  unfold handleFcmAckMessage
  rw [bind_ok (record_ok _)]
  exact guarded_error (bind_error (askFcm_error h))

/-- Neither does a nack. -/
theorem nack_lacking {doc : Json} {what : String}
    (h : w.app.fcmMsgManager.findMessageWithFcmMsgId (Json.toString (doc.value fcmfieldnames.messageId)) =
      .error (.exception what)) : handleFcmNackMessage doc (w, env) =
      .ok () (w.record (.nacked (Json.toString (doc.value fcmfieldnames.messageId))), env) := by
  unfold handleFcmNackMessage
  rw [bind_ok (record_ok _)]
  exact guarded_error (bind_error (askFcm_error h))

/-- An ACK of a BAL changes nothing if its session is not configured or has no message with the sequence id. -/
theorem balAck_lacking {sid : SessionId} {n : Int} (h : ∀ m, w.app.balManager sid = some m → m.messages[n]? = none) :
    handleBalAckMsg sid n (w, env) = .ok () (w, env) := by
  unfold handleBalAckMsg
  cases hm : w.app.balManager sid with
  | none =>
    obtain ⟨what, hfind⟩ : ∃ what, findBalMessageManager sid (w, env) = .error (.exception what) (w, env) := onBal_unknown hm
    exact guarded_error (bind_error hfind)
  | some m =>
    have hfind : m.findMessage n = .error (.exception ("Cannot find message for seqid[" ++ toString n ++ "]")) := by
      unfold MessageManager.findMessage
      rw [h m hm]
    exact guarded_error (by rw [bind_ok (findBalMessageManager_ok hm)]; exact bind_error (askBal_error hm hfind))

/-! ## The same ack again -/

/-- What serves sessions leaves the queue of FCM alone. -/
theorem sameQueue_frame : SessionFrame (fun _ _ => True) fun w w' : World => w'.app.fcmMsgManager = w.app.fcmMsgManager where
  refl _ := trivial
  add _ _ _ := trivial
  touch _ _ _ _ := trivial
  increment _ := trivial
  counter _ _ := rfl
  insert _ _ _ _ _ := rfl
  mark _ _ := rfl
  putBal _ _ _ _ _ _ := rfl
  balWrite _ _ _ _ := rfl

instance : IsPreorder World fun w w' : World => w'.app.fcmMsgManager = w.app.fcmMsgManager where
  refl _ := rfl
  trans _ _ _ h h' := h'.trans h

theorem sendNext_sameQueue : Keeps (fun _ => True) (fun w w' : World => w'.app.fcmMsgManager = w.app.fcmMsgManager)
    sendNextPendingDownstreamMessage := by
  unfold sendNextPendingDownstreamMessage
  refine Keeps.bind (fun w => ?_) fun next => ?_
  · exact wp_askFcm (fun _ _ => rfl) fun _ _ => rfl
  · cases next with
    | none => exact Keeps.pure _
    | some msg => exact keeps_output Env.closed_all fun _ => rfl

/-- Where the state of the row is written, the id of the ack leads to no message afterwards. -/
theorem ack_leaves_lacking {doc : Json} {w₁ : World} {env₁ : Env} (hwf : w.app.fcmMsgManager.WF)
    (hone : w.app.fcmMsgManager.Single (Json.toString (doc.value fcmfieldnames.messageId)))
    (hupdate : env.faults.headD .ok = .ok) (h : handleFcmAckMessage doc (w, env) = .ok () (w₁, env₁)) :
    ∃ what, w₁.app.fcmMsgManager.findMessageWithFcmMsgId (Json.toString (doc.value fcmfieldnames.messageId)) =
      .error (.exception what) := by
  rcases find_cases w.app.fcmMsgManager (Json.toString (doc.value fcmfieldnames.messageId)) with
    ⟨old, hfind⟩ | ⟨what, hfind⟩
  · obtain ⟨-, hn, hid⟩ := hwf.find hfind
    -- up to the removal the handler runs through; what comes after leaves the queue alone
    have hlacks : (w.app.fcmMsgManager.without old).Lacks (Json.toString (doc.value fcmfieldnames.messageId)) := by
      intro n msg hmsg hmid
      obtain ⟨hheld, hne⟩ := MessageManager.of_without hmsg
      exact hne (hone _ _ _ _ hheld hn hmid hid)
    have hkept : w₁.app.fcmMsgManager = w.app.fcmMsgManager.without old := by
      unfold handleFcmAckMessage at h
      rw [bind_ok (record_ok _)] at h
      have hremove : ∀ db env', onFcm (MessageManager.removeMessageWithFcmMsgId (Json.toString (doc.value fcmfieldnames.messageId)))
          ({ w.record (.acked (Json.toString (doc.value fcmfieldnames.messageId))) with db := db }, env') = _ :=
        fun db env' => removeFcm_ok rfl hwf hfind
      rw [guarded_same (bind_ok (askFcm_ok hfind)), guarded_same (bind_ok (updateMsgState_ok hupdate)),
        guarded_same (bind_ok (hremove _ _))] at h
      refine guarded_keeps (Keeps.bind sendNext_sameQueue fun _ => ?_) h
      exact sameQueue_frame.notify Env.closed_all fun n => by simp [Message.new]
    rw [hkept]
    exact hlacks.find (hwf.without hn)
  · rw [ack_lacking hfind] at h
    cases h
    exact ⟨what, hfind⟩

end

/-! ## One notice -/

def MessageType.isNotice (t : MessageType) : Bool := t = .downstreamAck ∨ t = .downstreamReject

/-- The row is a notice that `old` is settled in the state `s`. -/
structure NoticeOf (row : Row) (old : Message) (s : MessageState) : Prop where
  type : row.type = noticeType s
  fcmMessageId : row.fcmMessageId = cString old.fcmMessageId
  target : row.targetSession = cString old.sourceSessionId

/-- The row of the message that a handler saves. -/
theorem NoticeOf.ofMessage {msg old : Message} {s : MessageState} (type : msg.type = noticeType s)
    (fcmMessageId : msg.fcmMessageId = old.fcmMessageId) (target : msg.targetSessionId = old.sourceSessionId) :
    NoticeOf (.ofMessage msg) old s :=
  ⟨type, congrArg cString fcmMessageId, congrArg cString target⟩

/-- The notice under `k` is in `b`, and was not in `b₀`. -/
structure NewNotice (b₀ b : Stores) (k : Int) (row : Row) : Prop where
  fresh : b₀.rows k = none
  saved : b.rows k = some row
  type : row.type.isNotice = true

/-- The downstream message `n` is settled: its row is, and it is not in the queue. -/
structure Done (n : Int) (b : Stores) : Prop where
  row : ∃ row, b.rows n = some row ∧ row.type = .downstream ∧ row.state.pending = false
  gone : b.fcm.messages[n]? = none

/-- A notice is owed or new only if the event settles its message, which is not in the queue any more then; and
there is one new notice at most. -/
structure Noticing (i : Input) (b₀ b : Stores) (d : Debt) : Prop where
  owed : ∀ {old : Message} {s : MessageState}, d = .owed old s →
    Settles i b₀ old s ∧ ∀ k row, ¬ NewNotice b₀ b k row
  cause : ∀ {k : Int} {row : Row}, NewNotice b₀ b k row → ∃ old s, Settles i b₀ old s ∧ NoticeOf row old s
  single : ∀ {k k' : Int} {row row' : Row}, NewNotice b₀ b k row → NewNotice b₀ b k' row' → k = k'
  settled : ((∃ old s, d = .owed old s) ∨ ∃ k row, NewNotice b₀ b k row) → ∀ old s, Settles i b₀ old s →
    b.fcm.messages[old.sequenceId]? = none ∧ (old.type = .downstream → Done old.sequenceId b)

section
variable {cfg : List SessionId} {i : Input} {b₀ b b' : Books} {d d' : Debt} {n : Int}

/-! ### Settled messages -/

theorem Done.setState (h : Done n b.toStores) {k : Int} {s : MessageState} (hs : n = k → s.pending = false) :
    ∃ row, (b.setState k s).rows n = some row ∧ row.type = .downstream ∧ row.state.pending = false := by
  obtain ⟨row, hr, ht, hp⟩ := h.row
  rw [Books.setState_rows]
  by_cases hk : n = k
  · exact ⟨{ row with state := s }, by rw [if_pos hk, hr]; rfl, ht, hs hk⟩
  · exact ⟨row, by rw [if_neg hk, hr], ht, hp⟩

theorem Done.insertRow (h : Done n b.toStores) {row : Row} (hn : b.rows row.sequenceId = none) :
    ∃ row', (b.draw.insertRow row).rows n = some row' ∧ row'.type = .downstream ∧ row'.state.pending = false := by
  obtain ⟨row', hr, ht, hp⟩ := h.row
  refine ⟨row', ?_, ht, hp⟩
  rw [Books.insertRow_rows, if_neg]
  · exact hr
  · rintro rfl
    rw [hn] at hr
    cases hr

/-- No act brings a message back into the queue. -/
theorem Act.gone (hn : n ≤ b.counter) (h : b.fcm.messages[n]? = none) (ha : Act i b₀ b d b' d') (hb : Base cfg b d) :
    b'.fcm.messages[n]? = none := by
  have hwithout : ∀ msg, (b.fcm.without msg).messages[n]? = none := by
    intro msg
    rw [MessageManager.without_getElem?, h]
    split <;> rfl
  cases ha with
  | accept mid gid sid data hm source request id =>
    rename_i msg
    have hseq : msg.sequenceId = b.counter + 1 := by rw [hm]; rfl
    show (b.fcm.addMessage msg.sequenceId msg).messages[n]? = none
    rw [MessageManager.addMessage_getElem? msg (hseq ▸ hb.fresh), if_neg (by omega)]
    exact h
  | mark held =>
    show (b.fcm.mark _).messages[n]? = none
    rw [MessageManager.mark_getElem?, h]
    simp
  | settle => exact hwithout _
  | drop => exact hwithout _
  | touchDown k f =>
    show (b.fcm.modifyMessage k f).messages[n]? = none
    rw [MessageManager.modifyMessage_getElem?, h]
    simp
  | _ => exact h

/-- What is settled stays settled. -/
theorem Done.act (hb : Base cfg b d) (h : Done n b.toStores) (ha : Act i b₀ b d b' d') : Done n b'.toStores := by
  obtain ⟨row, hr, ht, hp⟩ := h.row
  have hr : b.rows n = some row := hr
  refine ⟨?_, ha.gone (hb.rows hr).2 h.gone hb⟩
  have hbound : ∀ {sid : SessionId} {m : MessageManager} {msg held : Message}, b.bal sid = some m →
      m.messages[msg.sequenceId]? = some held → held.type.balBound = true → n ≠ msg.sequenceId := by
    rintro sid m msg held hbal hheld htype rfl
    obtain ⟨row', hr', hs⟩ := (hb.balHeld hbal hheld).saved
    rw [(hb.bal hbal).key hheld] at hr'
    rw [hr] at hr'
    cases hr'
    rw [← hs.type, ht] at htype
    cases htype
  cases ha with
  | accept mid gid sid data hm source request id =>
    have hseq : (Row.ofMessage (Message.new (b.counter + 1) .downstream mid gid sid fcmSessionId data)).sequenceId =
      b.counter + 1 := rfl
    rw [hm]
    exact h.insertRow (hb.freshRow_of hseq)
  | save envelope => exact h.insertRow (hb.freshRow_of envelope.sequenceId)
  | reject envelope => exact h.insertRow (hb.freshRow_of envelope.sequenceId)
  | mark held =>
    refine h.setState fun hn => ?_
    rw [hn] at h
    rw [h.gone] at held
    cases held
  | settle settles => exact h.setState fun _ => i.event.settles_settled settles.choose_spec.1
  | exhaust => exact h.setState fun _ => rfl
  | markBal bal held sendable type => exact h.setState fun hn => absurd hn (hbound bal held type)
  | remark resend state type =>
    obtain ⟨held, hheld, hfixed, -⟩ := resend.held
    have hsame : held.type = _ := congrArg Message.Fixed.type hfixed
    have htype : held.type.balBound = true := by rw [hsame]; exact type
    exact h.setState fun hn => absurd hn (hbound resend.bal hheld htype)
  | settleBal => exact h.setState fun _ => rfl
  | exhaustBal => exact h.setState fun _ => rfl
  | _ => exact h.row

theorem Done.restarted {env : Env} (h : Done n b.toStores) (hr : Restarted cfg env b b') : Done n b'.toStores := by
  obtain ⟨row, hrow, ht, hp⟩ := h.row
  refine ⟨⟨row, by rw [hr.rows]; exact hrow, ht, hp⟩, ?_⟩
  obtain ⟨db, hdb, -, hfresh, -⟩ := hr.fresh
  cases hn : b'.fcm.messages[n]? with
  | none => rfl
  | some msg =>
    obtain ⟨row', h1, h2, -⟩ := hfresh.held n msg hn
    rw [hdb, hrow] at h1
    cases h1
    rw [hp] at h2
    cases h2

theorem Done.step {w : World} (hb : Base cfg (books w) .none) (h : Done n (books w).toStores) (i : Input) :
    Done n (books (step cfg w i)).toStores := by
  obtain ⟨b, hr, hend⟩ := step_reach hb i
  have hdone : Done n b.toStores := hr.invariant_base (P := fun b _ => Done n b.toStores) hb h
    fun hb _ _ hd ha => hd.act hb ha
  rcases hend with ⟨-, he⟩ | ⟨-, he⟩
  · rw [he]; exact hdone
  · exact hdone.restarted he

/-! ### New notices -/

theorem Settles.unique {b₀ : Stores} {old old' : Message} {s s' : MessageState} (h : Settles i b₀ old s)
    (h' : Settles i b₀ old' s') : old = old' := by
  obtain ⟨mid, he, hf⟩ := h
  obtain ⟨mid', he', hf'⟩ := h'
  rw [he] at he'
  cases he'
  rw [hf] at hf'
  cases hf'
  rfl

namespace Noticing

theorem start (i : Input) (b : Stores) : Noticing i b b .none := by
  have hnone : ∀ k row, ¬ NewNotice b b k row := by
    intro k row h
    have hr := h.saved
    rw [h.fresh] at hr
    cases hr
  refine ⟨fun h => (by cases h), fun h => absurd h (hnone _ _), fun h => absurd h (hnone _ _), ?_⟩
  rintro (⟨old, s, h⟩ | ⟨k, row, h⟩)
  · cases h
  · exact absurd h (hnone k row)

/-- What owes no new debt and saves no new notice. -/
theorem keep (h₀ : Base cfg b₀ .none) (hb : Base cfg b d) (hrows : RowsStay b₀.toStores b.toStores)
    (h : Noticing i b₀.toStores b.toStores d) (ha : Act i b₀ b d b' d') (hd : ∀ old s, d' = .owed old s → d = .owed old s)
    (hnew : ∀ {k : Int} {row' : Row}, NewNotice b₀.toStores b'.toStores k row' →
      ∃ row, NewNotice b₀.toStores b.toStores k row ∧ ∃ s, row' = { row with state := s }) :
    Noticing i b₀.toStores b'.toStores d' := by
  refine ⟨fun hd' => ?_, fun hk => ?_, fun hk hk' => ?_, fun hcause old s hs => ?_⟩
  · obtain ⟨hs, hnone⟩ := h.owed (hd _ _ hd')
    refine ⟨hs, fun k row hk => ?_⟩
    obtain ⟨row', hk', -⟩ := hnew hk
    exact hnone k row' hk'
  · obtain ⟨row', hk', s, rfl⟩ := hnew hk
    obtain ⟨old, s', hs, hnotice⟩ := h.cause hk'
    exact ⟨old, s', hs, hnotice.type, hnotice.fcmMessageId, hnotice.target⟩
  · obtain ⟨row₁, h₁, -⟩ := hnew hk
    obtain ⟨row₂, h₂, -⟩ := hnew hk'
    exact h.single h₁ h₂
  · have hcause' : (∃ old s, d = .owed old s) ∨ ∃ k row, NewNotice b₀.toStores b.toStores k row := by
      rcases hcause with ⟨old, s, hd'⟩ | ⟨k, row, hk⟩
      · exact Or.inl ⟨old, s, hd _ _ hd'⟩
      · obtain ⟨row', hk', -⟩ := hnew hk
        exact Or.inr ⟨k, row', hk'⟩
    obtain ⟨hgone, hdone⟩ := h.settled hcause' old s hs
    obtain ⟨mid, -, hfind⟩ := hs
    obtain ⟨row, hr, -⟩ := (h₀.fcmHeld (h₀.fcm.find hfind).2.1).saved
    obtain ⟨s', hr'⟩ := hrows _ _ hr
    exact ⟨ha.gone (hb.rows hr').2 hgone hb, fun ht => (hdone ht).act hb ha⟩

/-- The row of a message that is no notice is inserted. -/
theorem new_of_insert {msg : Message} (htype : msg.type.isNotice = false) {k : Int} {row' : Row}
    (hk : NewNotice b₀.toStores (b.draw.insertRow (.ofMessage msg)).toStores k row') :
    ∃ row, NewNotice b₀.toStores b.toStores k row ∧ ∃ s, row' = { row with state := s } := by
  have hr : (b.draw.insertRow (.ofMessage msg)).rows k = some row' := hk.saved
  rw [Books.insertRow_rows] at hr
  split at hr
  · cases hr
    have ht : msg.type.isNotice = true := hk.type
    rw [htype] at ht
    cases ht
  · exact ⟨row', ⟨hk.fresh, hr, hk.type⟩, row'.state, rfl⟩

theorem new_of_setState {n : Int} {s : MessageState} {k : Int} {row' : Row}
    (hk : NewNotice b₀.toStores (b.setState n s).toStores k row') :
    ∃ row, NewNotice b₀.toStores b.toStores k row ∧ ∃ s, row' = { row with state := s } := by
  have hr : (b.setState n s).rows k = some row' := hk.saved
  rw [Books.setState_rows] at hr
  split at hr
  · obtain ⟨row, hrow, rfl⟩ := Option.map_eq_some_iff.1 hr
    exact ⟨row, ⟨hk.fresh, hrow, hk.type⟩, s, rfl⟩
  · exact ⟨row', ⟨hk.fresh, hr, hk.type⟩, row'.state, rfl⟩

/-- The notice that the handler owes is inserted. -/
theorem pay (hb : Base cfg b d) (h : Noticing i b₀.toStores b.toStores d) {old msg : Message} {s : MessageState}
    (hd : d = .owed old s) (hseq : msg.sequenceId = b.counter + 1) (hnotice : NoticeOf (.ofMessage msg) old s)
    (hd' : ∀ old s, d' ≠ .owed old s) :
    Noticing i b₀.toStores (b.draw.insertRow (.ofMessage msg)).toStores d' := by
  obtain ⟨hs, hnone⟩ := h.owed hd
  have hkey : ∀ {k : Int} {row : Row}, NewNotice b₀.toStores (b.draw.insertRow (.ofMessage msg)).toStores k row →
      k = msg.sequenceId ∧ row = .ofMessage msg := by
    intro k row hk
    have hr : (b.draw.insertRow (.ofMessage msg)).rows k = some row := hk.saved
    rw [Books.insertRow_rows] at hr
    split at hr
    · exact ⟨by assumption, (Option.some.inj hr).symm⟩
    · exact absurd ⟨hk.fresh, hr, hk.type⟩ (hnone k row)
  refine ⟨fun h => absurd h (hd' _ _), fun hk => ?_, fun hk hk' => ?_, fun _ old' s' hs' => ?_⟩
  · rw [(hkey hk).2]
    exact ⟨old, s, hs, hnotice⟩
  · rw [(hkey hk).1, (hkey hk').1]
  · obtain ⟨hgone, hdone⟩ := h.settled (Or.inl ⟨old, s, hd⟩) old' s' hs'
    exact ⟨hgone, fun ht => ⟨(hdone ht).insertRow (hb.freshRow_of hseq), hgone⟩⟩

/-- The event settles its message: the first time in its handler. -/
theorem owe (hb : Base cfg b .none) (h : Noticing i b₀.toStores b.toStores .none) {msg : Message} {s : MessageState}
    (settles : Settles i b₀.toStores msg s) (fcm : b.fcm = b₀.fcm) (h₀ : Base cfg b₀ .none) :
    Noticing i b₀.toStores ((b.setState msg.sequenceId s).setFcm (b.fcm.without msg)).toStores (.owed msg s) := by
  have hheld : b.fcm.messages[msg.sequenceId]? = some msg := by
    obtain ⟨mid, -, hfind⟩ := settles
    rw [fcm]
    exact (h₀.fcm.find hfind).2.1
  have hnone : ∀ k row, ¬ NewNotice b₀.toStores b.toStores k row := by
    intro k row hk
    have hgone : b.fcm.messages[msg.sequenceId]? = none := (h.settled (Or.inr ⟨k, row, hk⟩) msg s settles).1
    rw [hheld] at hgone
    cases hgone
  have hnone' : ∀ k row, ¬ NewNotice b₀.toStores
      ((b.setState msg.sequenceId s).setFcm (b.fcm.without msg)).toStores k row := by
    intro k row hk
    obtain ⟨row', hk', -⟩ := new_of_setState (b := b) (n := msg.sequenceId) (s := s) ⟨hk.fresh, hk.saved, hk.type⟩
    exact hnone k row' hk'
  refine ⟨fun hd => ?_, fun hk => absurd hk (hnone' _ _), fun hk => absurd hk (hnone' _ _), fun _ old s' hs => ?_⟩
  · cases hd
    exact ⟨settles, hnone'⟩
  · obtain rfl := hs.unique settles
    have hgone : (b.fcm.without old).messages[old.sequenceId]? = none := by
      rw [MessageManager.without_getElem?, if_pos rfl]
    refine ⟨hgone, fun ht => ⟨?_, hgone⟩⟩
    obtain ⟨row, hr, hsv⟩ := (hb.fcmHeld hheld).saved
    have hr : b.rows old.sequenceId = some row := hr
    refine ⟨{ row with state := s }, ?_, hsv.type.trans ht, ?_⟩
    · show (b.setState old.sequenceId s).rows old.sequenceId = _
      rw [Books.setState_rows, if_pos rfl, hr]
      rfl
    · obtain ⟨mid, he, -⟩ := settles
      exact i.event.settles_settled he

theorem act (hret : Patient i b₀.fcm) (h₀ : Base cfg b₀ .none) (hb : Base cfg b d)
    (hrows : RowsStay b₀.toStores b.toStores) (h : Noticing i b₀.toStores b.toStores d) (ha : Act i b₀ b d b' d') :
    Noticing i b₀.toStores b'.toStores d' := by
  have hsame : b'.rows = b.rows → ∀ {k : Int} {row' : Row}, NewNotice b₀.toStores b'.toStores k row' →
      ∃ row, NewNotice b₀.toStores b.toStores k row ∧ ∃ s, row' = { row with state := s } := by
    intro hr k row' hk
    have hsaved : b'.rows k = some row' := hk.saved
    exact ⟨row', ⟨hk.fresh, by rw [← hr]; exact hsaved, hk.type⟩, row'.state, rfl⟩
  have hkeep := h.keep h₀ hb hrows ha
  cases ha with
  | settle settles fcm => exact h.owe hb settles fcm h₀
  | exhaust held out => exact absurd hret out
  | reject envelope state type fcmMessageId target failed =>
    exact h.pay hb rfl envelope.sequenceId (.ofMessage type fcmMessageId target) fun _ _ hd => by cases hd
  | save envelope state cause =>
    cases cause with
    | upstream doc he type => exact hkeep (fun _ _ hd => by cases hd) (new_of_insert (by rw [type]; rfl))
    | receipt doc he type => exact hkeep (fun _ _ hd => by cases hd) (new_of_insert (by rw [type]; rfl))
    | ack old type fcmMessageId target =>
      exact h.pay hb rfl envelope.sequenceId (.ofMessage type fcmMessageId target) fun _ _ hd => by cases hd
  | accept mid gid sid data hm source request id =>
    refine hkeep (fun _ _ hd => hd) fun hk => ?_
    exact new_of_insert (b := b) (by rw [hm]; rfl) ⟨hk.fresh, hk.saved, hk.type⟩
  | mark => exact hkeep (fun _ _ hd => hd) fun hk => new_of_setState (b := b) ⟨hk.fresh, hk.saved, hk.type⟩
  | markBal => exact hkeep (fun _ _ hd => hd) fun hk => new_of_setState (b := b) ⟨hk.fresh, hk.saved, hk.type⟩
  | remark => exact hkeep (fun _ _ hd => hd) fun hk => new_of_setState (b := b) ⟨hk.fresh, hk.saved, hk.type⟩
  | settleBal => exact hkeep (fun _ _ hd => hd) fun hk => new_of_setState (b := b) ⟨hk.fresh, hk.saved, hk.type⟩
  | exhaustBal => exact hkeep (fun _ _ hd => hd) new_of_setState
  | deliver => exact hkeep (fun _ _ hd => by cases hd) (hsame rfl)
  | undeliverable => exact hkeep (fun _ _ hd => by cases hd) (hsame rfl)
  | lose => exact hkeep (fun _ _ hd => by cases hd) (hsame rfl)
  | _ => exact hkeep (fun _ _ hd => hd) (hsame rfl)

end Noticing

end

/-- The step settles `old` and saves its notice under `k`. -/
def Notifies (cfg : List SessionId) (w : World) (i : Input) (old : Message) (k : Int) : Prop :=
  ∃ s row, Settles i (stores w.toServer) old s ∧ NewNotice (stores w.toServer) (stores (step cfg w i).toServer) k row ∧
    NoticeOf row old s

section
variable {cfg : List SessionId} {w : World} {i : Input}

/-- A notice that a step saves is that of the message that its event settles, the only one that the step saves,
and a downstream message is settled then. -/
theorem step_notices (h₀ : Base cfg (books w) .none) (hret : Patient i w.app.fcmMsgManager) {k : Int} {row : Row}
    (hk : NewNotice (stores w.toServer) (stores (step cfg w i).toServer) k row) :
    (∃ old, Notifies cfg w i old k) ∧
    (∀ k' row', NewNotice (stores w.toServer) (stores (step cfg w i).toServer) k' row' → k = k') ∧
    ∀ old s, Settles i (stores w.toServer) old s → old.type = .downstream →
      Done old.sequenceId (stores (step cfg w i).toServer) := by
  obtain ⟨b, hr, hend⟩ := step_reach h₀ i
  have hb : Noticing i (stores w.toServer) b.toStores .none :=
    hr.invariant_base (P := fun b d => Noticing i (stores w.toServer) b.toStores d) h₀ (.start i _)
      fun hb hrows _ h ha => h.act hret h₀ hb hrows ha
  -- a process that starts finds the rows that are there, and so the notices
  have hrows : (stores (step cfg w i).toServer).rows = b.rows := by
    rcases hend with ⟨-, he⟩ | ⟨-, he⟩
    · exact congrArg (fun b : Books => b.rows) he
    · exact he.rows
  have hnew : ∀ {k : Int} {row : Row}, NewNotice (stores w.toServer) (stores (step cfg w i).toServer) k row →
      NewNotice (stores w.toServer) b.toStores k row := fun hk => ⟨hk.fresh, by rw [← hrows]; exact hk.saved, hk.type⟩
  refine ⟨?_, fun k' row' hk' => hb.single (hnew hk) (hnew hk'), fun old s hs ht => ?_⟩
  · obtain ⟨old, s, hs, hnotice⟩ := hb.cause (hnew hk)
    exact ⟨old, s, row, hs, hk, hnotice⟩
  · have hdone := (hb.settled (Or.inr ⟨k, row, hnew hk⟩) old s hs).2 ht
    rcases hend with ⟨-, he⟩ | ⟨-, he⟩
    · have hsame : stores (step cfg w i).toServer = b.toStores := congrArg Books.toStores he
      rw [hsame]
      exact hdone
    · exact hdone.restarted he

/-- A settled message gets no notice. -/
theorem Done.not_notified {old : Message} {k : Int} (h₀ : Base cfg (books w) .none)
    (h : Done old.sequenceId (stores w.toServer)) : ¬ Notifies cfg w i old k := by
  rintro ⟨s, row, ⟨mid, -, hfind⟩, -, -⟩
  have hheld := (h₀.fcm.find hfind).2.1
  rw [show (books w).fcm.messages[old.sequenceId]? = none from h.gone] at hheld
  cases hheld

theorem Notifies.sequenceId {old old' : Message} {k : Int} (h : Notifies cfg w i old k)
    (hs : old.sequenceId = old'.sequenceId) (h₀ : Base cfg (books w) .none)
    (hdone : Done old'.sequenceId (stores w.toServer)) : False :=
  Done.not_notified h₀ (hs ▸ hdone) h

/-- Of two steps of a run that notify of the same downstream message the second is not after the first. -/
theorem notified_first (h₀ : Base cfg (books w) .none) {i' : Input} {is : List Input} {old old' : Message} {k k' : Int}
    (hret : Patient i w.app.fcmMsgManager) (htype : old.type = .downstream) (hs : old.sequenceId = old'.sequenceId)
    (h : Notifies cfg w i old k) : ¬ Notifies cfg (run cfg w (i :: is)) i' old' k' := by
  intro h'
  obtain ⟨s, row, hset, hk, -⟩ := h
  have hdone := (step_notices h₀ hret hk).2.2 old s hset htype
  have hend : Base cfg (books (run cfg (step cfg w i) is)) .none ∧
      Done old.sequenceId (stores (run cfg (step cfg w i) is).toServer) :=
    run_invariant_all (P := fun b => Done old.sequenceId b.toStores) (fun w i hb hd => hd.step hb i) is (step_base h₀ i)
      hdone
  rw [hs] at hend
  exact hend.2.not_notified hend.1 h'

end

/-- In every state that the handlers reach, whatever fails and however often the process ends, an ack or a nack of
an FCM message id that no message of the queue has changes nothing, nor does an ACK of a BAL for an unknown session or
a message that is not in its queue; an ack that wrote the state of its row and comes again changes nothing the second
time, if no other message of the queue had its id; and as long as no message is out of retries, every notice is that
of a message that the event settles, and no downstream message gets two. -/
theorem repeats_change_nothing (cfg : List SessionId) (env : Env) (db : Database) (is : List Input) :
    (∀ doc env', (run cfg (boot cfg env db) is).app.fcmMsgManager.Lacks (Json.toString (doc.value fcmfieldnames.messageId)) →
      handleFcmAckMessage doc (run cfg (boot cfg env db) is, env') =
        .ok () ((run cfg (boot cfg env db) is).record (.acked (Json.toString (doc.value fcmfieldnames.messageId))), env') ∧
      handleFcmNackMessage doc (run cfg (boot cfg env db) is, env') =
        .ok () ((run cfg (boot cfg env db) is).record (.nacked (Json.toString (doc.value fcmfieldnames.messageId))), env')) ∧
    (∀ sid n env', (∀ m, (run cfg (boot cfg env db) is).app.balManager sid = some m → m.messages[n]? = none) →
      handleBalAckMsg sid n (run cfg (boot cfg env db) is, env') = .ok () (run cfg (boot cfg env db) is, env')) ∧
    (∀ doc env' env'' w₁ env₁,
      (run cfg (boot cfg env db) is).app.fcmMsgManager.Single (Json.toString (doc.value fcmfieldnames.messageId)) →
      env'.faults.headD .ok = .ok → handleFcmAckMessage doc (run cfg (boot cfg env db) is, env') = .ok () (w₁, env₁) →
      handleFcmAckMessage doc (w₁, env'') =
        .ok () (w₁.record (.acked (Json.toString (doc.value fcmfieldnames.messageId))), env'')) ∧
    (Run.Along (step cfg) (fun w i => Patient i w.app.fcmMsgManager) (boot cfg env db) is →
      (∀ is₁ i is₂ k row, is = is₁ ++ i :: is₂ →
        NewNotice (stores (run cfg (boot cfg env db) is₁).toServer)
          (stores (run cfg (boot cfg env db) (is₁ ++ [i])).toServer) k row →
        ∃ old, Notifies cfg (run cfg (boot cfg env db) is₁) i old k) ∧
      ∀ is₁ i is₂ is₁' i' is₂' old old' k k', is = is₁ ++ i :: is₂ → is = is₁' ++ i' :: is₂' → old.type = .downstream →
        old'.type = .downstream → old.sequenceId = old'.sequenceId →
        Notifies cfg (run cfg (boot cfg env db) is₁) i old k → Notifies cfg (run cfg (boot cfg env db) is₁') i' old' k' →
        is₁ = is₁' ∧ k = k') := by
  have hb := run_base cfg env db
  refine ⟨fun doc env' hlacks => ?_, fun sid n env' hnone => balAck_lacking hnone,
    fun doc env' env'' w₁ env₁ hone hupdate h => ?_, fun hret => ⟨fun is₁ i is₂ k row his hk => ?_, ?_⟩⟩
  · obtain ⟨what, hfind⟩ := hlacks.find (hb is).fcm
    exact ⟨ack_lacking hfind, nack_lacking hfind⟩
  · obtain ⟨what, hfind⟩ := ack_leaves_lacking (hb is).fcm hone hupdate h
    exact ack_lacking hfind
  · rw [his] at hret
    have hrun : run cfg (boot cfg env db) (is₁ ++ [i]) = step cfg (run cfg (boot cfg env db) is₁) i := Run.run_append ..
    rw [hrun] at hk
    exact (step_notices (hb is₁) ((Run.along_append is₁).1 hret).2.1 hk).1
  · intro is₁ i is₂ is₁' i' is₂' old old' k k' his his' ht ht' hs hn hn'
    have hpatient : ∀ {is₁ i is₂}, is = is₁ ++ i :: is₂ → Patient i (run cfg (boot cfg env db) is₁).app.fcmMsgManager :=
      fun his => by rw [his] at hret; exact ((Run.along_append _).1 hret).2.1
    have hlater : ∀ is₁ i l, run cfg (boot cfg env db) (is₁ ++ i :: l) = run cfg (run cfg (boot cfg env db) is₁) (i :: l) :=
      fun is₁ i l => Run.run_append ..
    -- the two events are one, or one comes later, when the row of the message is settled
    rcases Run.split_cases his his' with ⟨rfl, rfl⟩ | ⟨l, rfl⟩ | ⟨l, rfl⟩
    · obtain ⟨s, row, -, hk, -⟩ := hn
      obtain ⟨s', row', -, hk', -⟩ := hn'
      exact ⟨rfl, (step_notices (hb is₁) (hpatient his) hk).2.1 k' row' hk'⟩
    · rw [hlater] at hn'
      exact absurd hn' (notified_first (hb is₁) (hpatient his) ht hs hn)
    · rw [hlater] at hn
      exact absurd hn (notified_first (hb is₁') (hpatient his') ht' hs.symm hn')

/-- The ack of a message, and the same ack again. -/
def ackedTwice : List Input := acked ++ [.quiet (.fcmAck (fcmAck "a"))]

theorem acked_lacks : (run ["bal"] (boot ["bal"] .quiet .empty) acked).app.fcmMsgManager.Lacks "a" := by
  have hempty : (run ["bal"] (boot ["bal"] .quiet .empty) acked).app.fcmMsgManager.messages.isEmpty = true := by
    decide +kernel
  intro n msg hn
  rw [ExtTreeMap.isEmpty_iff.1 hempty] at hn
  simp at hn

/-- Before the ack the queue holds the one downstream message. -/
theorem unacked_held {n : Int} {msg : Message}
    (h : (run ["bal"] (boot ["bal"] .quiet .empty) (acked.take 3)).app.fcmMsgManager.messages[n]? = some msg) :
    n = 1 ∧ msg.type = .downstream := by
  have hall : (run ["bal"] (boot ["bal"] .quiet .empty) (acked.take 3)).app.fcmMsgManager.messages.toList.all
      (fun p => p.1 = 1 ∧ p.2.type = .downstream) = true := by decide +kernel
  exact of_decide_eq_true (List.all_eq_true.1 hall (n, msg) (ExtTreeMap.mem_toList_iff_getElem?_eq_some.2 h))

/-- The handler of the ack runs to its end. -/
theorem unacked_runs : ∃ w₁ env₁,
    handleFcmAckMessage (fcmAck "a") (run ["bal"] (boot ["bal"] .quiet .empty) (acked.take 3), .quiet) = .ok () (w₁, env₁) := by
  have hlive : survives (run ["bal"] (boot ["bal"] .quiet .empty) (acked.take 3)) (.quiet (.fcmAck (fcmAck "a"))) = true := by
    decide +kernel
  unfold survives at hlive
  split at hlive
  · rename_i a s hrun
    exact ⟨s.1, s.2, hrun⟩
  · cases hlive

/-- An ack and a nack of a settled message, an ACK of an unknown session, an ack that comes twice, and its one notice. -/
theorem repeats_change_nothing_acked :
    (handleFcmAckMessage (fcmAck "a") (run ["bal"] (boot ["bal"] .quiet .empty) acked, .quiet) =
      .ok () ((run ["bal"] (boot ["bal"] .quiet .empty) acked).record (.acked "a"), .quiet) ∧
    handleFcmNackMessage (fcmAck "a") (run ["bal"] (boot ["bal"] .quiet .empty) acked, .quiet) =
      .ok () ((run ["bal"] (boot ["bal"] .quiet .empty) acked).record (.nacked "a"), .quiet)) ∧
    handleBalAckMsg "other" 1 (run ["bal"] (boot ["bal"] .quiet .empty) acked, .quiet) =
      .ok () (run ["bal"] (boot ["bal"] .quiet .empty) acked, .quiet) ∧
    (∃ w₁ env₁, handleFcmAckMessage (fcmAck "a") (run ["bal"] (boot ["bal"] .quiet .empty) (acked.take 3), .quiet) =
        .ok () (w₁, env₁) ∧
      handleFcmAckMessage (fcmAck "a") (w₁, .quiet) = .ok () (w₁.record (.acked "a"), .quiet)) ∧
    ∃ old, old.type = .downstream ∧ old.sequenceId = 1 ∧
      Notifies ["bal"] (run ["bal"] (boot ["bal"] .quiet .empty) (acked.take 3)) (.quiet (.fcmAck (fcmAck "a"))) old 2 ∧
      ∀ old' k', old'.type = .downstream → old'.sequenceId = 1 →
        ¬ Notifies ["bal"] (run ["bal"] (boot ["bal"] .quiet .empty) acked) (.quiet (.fcmAck (fcmAck "a"))) old' k' := by
  refine ⟨(repeats_change_nothing ["bal"] .quiet .empty acked).1 (fcmAck "a") .quiet acked_lacks, ?_, ?_, ?_⟩
  · have hunknown : ((run ["bal"] (boot ["bal"] .quiet .empty) acked).app.balManager "other").isNone = true := by
      decide +kernel
    refine (repeats_change_nothing ["bal"] .quiet .empty acked).2.1 "other" 1 .quiet fun m hm => ?_
    rw [hm] at hunknown
    cases hunknown
  · obtain ⟨w₁, env₁, hrun⟩ := unacked_runs
    exact ⟨w₁, env₁, hrun, (repeats_change_nothing ["bal"] .quiet .empty (acked.take 3)).2.2.1 (fcmAck "a") .quiet .quiet
      w₁ env₁ (fun n n' msg msg' hn hn' _ _ => (unacked_held hn).1.trans (unacked_held hn').1.symm) rfl hrun⟩
  · have hret : Run.Along (step ["bal"]) (fun w i => Patient i w.app.fcmMsgManager) (boot ["bal"] .quiet .empty) ackedTwice :=
      (along_noneExhausted (boot_base ["bal"] .quiet .empty) (by decide +kernel)).mono fun _ _ h => h.fcm
    obtain ⟨hnotices, hunique⟩ := (repeats_change_nothing ["bal"] .quiet .empty ackedTwice).2.2.2 hret
    have hrow : ((run ["bal"] (boot ["bal"] .quiet .empty) (acked.take 3 ++ [.quiet (.fcmAck (fcmAck "a"))])).db.rows[(2 : Int)]?).any
        (·.type.isNotice) = true := by decide +kernel
    have hfresh : ((run ["bal"] (boot ["bal"] .quiet .empty) (acked.take 3)).db.rows[(2 : Int)]?).isNone = true := by decide +kernel
    obtain ⟨row, hn, htype⟩ := (Option.any_eq_true _ _).1 hrow
    obtain ⟨old, hold⟩ := hnotices (acked.take 3) (.quiet (.fcmAck (fcmAck "a"))) [.quiet (.fcmAck (fcmAck "a"))] 2 row rfl
      ⟨Option.isNone_iff_eq_none.1 hfresh, hn, htype⟩
    have hone : old.sequenceId = 1 ∧ old.type = .downstream := by
      obtain ⟨s, row', ⟨mid, -, hfind⟩, -⟩ := hold
      exact unacked_held ((run_base ["bal"] .quiet .empty (acked.take 3)).fcm.find hfind).2.1
    refine ⟨old, hone.2, hone.1, hold, fun old' k' htype' hseq' hold' => ?_⟩
    have hsame := (hunique (acked.take 3) (.quiet (.fcmAck (fcmAck "a"))) [.quiet (.fcmAck (fcmAck "a"))] acked
      (.quiet (.fcmAck (fcmAck "a"))) [] old old' 2 k' rfl rfl hone.2 htype' (hone.1.trans hseq'.symm) hold hold').1
    exact absurd (congrArg List.length hsame) (by decide)

/-- The state of the row of an acked message cannot be written the first time. -/
def ackedLate : List Input :=
  acked.take 3 ++ [⟨.fcmAck (fcmAck "a"), { Env.quiet with faults := [.fail 5] }⟩]

/-- The same ack twice in a row, where the first one fails to write: the second one settles the message. -/
theorem ack_again_settles :
    (run ["bal"] (boot ["bal"] .quiet .empty) ackedLate).app.fcmMsgManager.messages.contains 1 = true ∧
    (run ["bal"] (boot ["bal"] .quiet .empty) ackedLate).app.fcmMsgManager.messages.size = 1 ∧
    (run ["bal"] (boot ["bal"] .quiet .empty) (ackedLate ++ [.quiet (.fcmAck (fcmAck "a"))])).app.fcmMsgManager.messages.size = 0 := by
  decide +kernel

end Gimmm

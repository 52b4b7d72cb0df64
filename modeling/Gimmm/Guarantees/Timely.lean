/-
Retry timers and their messages. Nothing asks whether a message has a retry timer already, and nothing
cancels the timer of a message that is settled; so a message has at most one timer, and has not left its
queue when the timer fires, as long as no event settles or retries a message whose timer is outstanding.
-/
import Gimmm.Flow.Frame

namespace Gimmm

open Std Prog
open MessageManager (removeMessage removeMessageWithFcmMsgId)

/-- The message that a retry timer captures. -/
def Timer.retries : Timer → Option Message
  | .retryDownstream msg => some msg
  | .retryUpstream msg => some msg
  | _ => none

/-- The sequence ids of the messages of the retry timers. -/
def retried (ts : List Timer) : List Int := ts.filterMap fun t => t.retries.map (·.sequenceId)

/-- The queue holds the message, in whatever state. -/
def MessageManager.Contains (m : MessageManager) (msg : Message) : Prop :=
  ∃ held, m.messages[msg.sequenceId]? = some held ∧ held.fixed = msg.fixed

/-- No two retry timers have the same message, and each one's message is in the queue it belongs to. -/
structure Timely (b : Stores) : Prop where
  once : (retried b.timers).Nodup
  down : ∀ msg, .retryDownstream msg ∈ b.timers → b.fcm.Contains msg
  up : ∀ msg, .retryUpstream msg ∈ b.timers → ∃ m, b.bal msg.targetSessionId = some m ∧ m.Contains msg

/-- The message of the timer that fires, if it is a retry, is in its queue, new or pending an ack. -/
structure FiresHeld (b : Stores) (i : Input) : Prop where
  down : ∀ msg, Expires i b (.retryDownstream msg) →
    ∃ held, b.fcm.messages[msg.sequenceId]? = some held ∧ held.fixed = msg.fixed ∧ held.state.pending = true
  up : ∀ msg, Expires i b (.retryUpstream msg) → ∃ m held, b.bal msg.targetSessionId = some m ∧
    m.messages[msg.sequenceId]? = some held ∧ held.fixed = msg.fixed ∧ held.state.pending = true

def MessageManager.isNew (m : MessageManager) (n : Int) : Bool := (m.messages[n]?).any (·.state = .new)

/-- The window of the queue is full, whatever a loop has `done`. -/
def MessageManager.Full (m : MessageManager) (_done : List Int) : Prop := maxPendingMessages ≤ m.pendingAckCount

/-- The window of the queue is full when the new messages among those `done` are pending an ack too. -/
def MessageManager.Filled (m : MessageManager) (done : List Int) : Prop :=
  maxPendingMessages ≤ m.pendingAckCount + done.countP m.isNew

/-- A loop over the queue comes to the message `n` when it is `full` after the ones before. -/
def MessageManager.Rings (m : MessageManager) (full : List Int → Prop) (n : Int) : Prop :=
  ∃ done rest, m.messages.keys = done ++ n :: rest ∧ full done

/-- The message is out of retries at one of the draws. -/
def Exhausted (i : Input) (msg : Message) : Prop :=
  ∃ d : Draw, (d ∈ i.env.draws ∨ d = default) ∧ (msg.getNextRetryTimeout d).1 = -1

/-- No message that a loop retries has an outstanding timer, and one that is out of retries is the only one
with its FCM message id. -/
structure Retriable (i : Input) (ts : List Timer) (m : MessageManager) (full : List Int → Prop) : Prop where
  idle : ∀ n, m.Rings full n → n ∉ retried ts
  alone : ∀ (n : Int) (msg : Message), m.Rings full n → m.messages[n]? = some msg → Exhausted i msg →
    ∀ (k : Int) (msg' : Message), m.messages[k]? = some msg' → msg'.fcmMessageId = msg.fcmMessageId → k = n

/-- No message that the event settles or retries has an outstanding timer: the one that FCM acks or nacks, the
one that a BAL acks, each of the FCM queue when a session is established while the window is full, and each
of the queue of a session that its delayed resend comes to with the window full, of messages pending an ack
and of the new ones that came before. -/
structure Untimed (s : Server) (i : Input) : Prop where
  settled : ∀ msg st, Settles i (stores s) msg st → msg.sequenceId ∉ retried s.app.timers
  nacked : ∀ msg, Nacked i (stores s) msg → msg.sequenceId ∉ retried s.app.timers
  acked : ∀ sock doc socket m msg, i.event = .balFrame sock doc → s.app.sockets[sock]? = some socket →
    Json.toString (doc.value gimmmfieldnames.messageType) = "ACK" → s.app.balManager socket.sessionId = some m →
    m.findMessage (Json.toInt (doc.value gimmmfieldnames.sequenceId)) = .ok msg →
    msg.sequenceId ∉ retried s.app.timers
  established : Establishes i → Retriable i s.app.timers s.app.fcmMsgManager s.app.fcmMsgManager.Full
  resend : ∀ sid m, Expires i (stores s) (.resend sid) → s.app.balManager sid = some m →
    Retriable i s.app.timers m m.Filled

/-! ## Timers -/

theorem retried_filter (ts : List Timer) : retried (ts.filter (·.isRetry)) = retried ts := by
  unfold retried
  rw [List.filterMap_filter]
  congr 1
  funext t
  cases t <;> rfl

theorem mem_retried {ts : List Timer} {t : Timer} {msg : Message} (ht : t ∈ ts) (hm : t.retries = some msg) :
    msg.sequenceId ∈ retried ts := List.mem_filterMap.2 ⟨t, ht, by rw [hm]; rfl⟩

theorem retried_append (ts : List Timer) {t : Timer} {m : Message} (h : t.retries = some m) :
    retried (ts ++ [t]) = retried ts ++ [m.sequenceId] := by
  unfold retried
  rw [List.filterMap_append]
  simp [h]

/-! ## What lets no message go -/

/-- No retry timer comes, and every message stays in its queue. -/
structure Holding (b b' : Stores) : Prop where
  timers : (b'.timers.filter (·.isRetry)).Sublist (b.timers.filter (·.isRetry))
  fcm : ∀ msg, b.fcm.Contains msg → b'.fcm.Contains msg
  bal : ∀ sid m, b.bal sid = some m → ∃ m', b'.bal sid = some m' ∧ ∀ msg, m.Contains msg → m'.Contains msg

namespace Holding

variable {b b' : Stores}

theorem mk_same {b b' : Stores} (ht : b'.timers = b.timers) (hf : b'.fcm = b.fcm) (hb : b'.bal = b.bal) :
    Holding b b' :=
  ⟨by rw [ht], fun msg h => by rw [hf]; exact h, fun sid m h => ⟨m, by rw [hb]; exact h, fun _ h => h⟩⟩

theorem trans {b'' : Stores} (h : Holding b b') (h' : Holding b' b'') : Holding b b'' := by
  refine ⟨h'.timers.trans h.timers, fun msg hm => h'.fcm msg (h.fcm msg hm), fun sid m hm => ?_⟩
  obtain ⟨m', h1, h2⟩ := h.bal sid m hm
  obtain ⟨m'', h3, h4⟩ := h'.bal sid m' h1
  exact ⟨m'', h3, fun msg hc => h4 msg (h2 msg hc)⟩

theorem mem (h : Holding b b') {t : Timer} (ht : t.isRetry = true) (hm : t ∈ b'.timers) : t ∈ b.timers :=
  (List.mem_filter.1 (h.timers.subset (List.mem_filter.2 ⟨hm, ht⟩))).1

theorem retried (h : Holding b b') : (retried b'.timers).Sublist (retried b.timers) := by
  have h := h.timers.filterMap fun t => t.retries.map (·.sequenceId)
  rw [← retried_filter b'.timers, ← retried_filter b.timers]
  exact h

end Holding

theorem Timely.holding {b b' : Stores} (ht : Timely b) (h : Holding b b') : Timely b' := by
  refine ⟨ht.once.sublist h.retried, fun msg hm => h.fcm msg (ht.down msg (h.mem rfl hm)), fun msg hm => ?_⟩
  obtain ⟨m, h1, h2⟩ := ht.up msg (h.mem rfl hm)
  obtain ⟨m', h3, h4⟩ := h.bal _ m h1
  exact ⟨m', h3, h4 msg h2⟩

/-- `Holding`, of worlds. -/
def Holds (w w' : World) : Prop := Holding (stores w.toServer) (stores w'.toServer)

instance : IsPreorder World Holds where
  refl _ := Holding.mk_same rfl rfl rfl
  trans _ _ _ h h' := Holding.trans h h'

theorem contains_touch {m : MessageManager} {n : Int} {f : Message → Message} (hf : ∀ msg, (f msg).fixed = msg.fixed)
    {msg : Message} (h : m.Contains msg) : (m.modifyMessage n f).Contains msg := by
  obtain ⟨held, h1, h2⟩ := h
  unfold MessageManager.Contains
  rw [MessageManager.modifyMessage_getElem?, h1]
  split
  · exact ⟨f held, rfl, (hf held).trans h2⟩
  · exact ⟨held, rfl, h2⟩

theorem holds_frame : MessageFrame (fun m m' => ∀ msg, m.Contains msg → m'.Contains msg) Holds where
  refl _ _ h := h
  add m n msg := by
    rintro msg' ⟨held, h1, h2⟩
    refine ⟨held, ?_, h2⟩
    rw [MessageManager.addMessage_messages, ExtTreeMap.getElem?_insertIfNew, if_neg, h1]
    rintro ⟨hc, hn⟩
    obtain rfl := LawfulEqCmp.eq_of_compare hc
    rw [ExtTreeMap.getElem?_eq_none hn] at h1
    cases h1
  touch m n f hf msg h := contains_touch hf h
  increment _ _ h := h
  counter _ _ := Holding.mk_same rfl rfl rfl
  insert _ _ _ _ _ := Holding.mk_same rfl rfl rfl
  mark _ _ := Holding.mk_same rfl rfl rfl
  putBal w sid m m' hm h := by
    have hb : (books (w.putBal sid m')).toStores = ((books w).setBal sid m').toStores := by rw [books_putBal hm]
    show Holding (stores w.toServer) (books (w.putBal sid m')).toStores
    rw [hb]
    refine ⟨List.Sublist.refl _, fun _ h => h, fun s m₁ hs => ?_⟩
    show ∃ m₂, ((books w).setBal sid m').bal s = some m₂ ∧ _
    rw [Books.setBal_bal]
    by_cases he : s = sid
    · subst he
      have hs : w.app.balManager s = some m₁ := hs
      rw [hm] at hs
      cases hs
      exact ⟨m', if_pos rfl, h⟩
    · exact ⟨m₁, by rw [if_neg he]; exact hs, fun _ h => h⟩
  balWrite _ _ _ _ := Holding.mk_same rfl rfl rfl
  putFcm _ _ h := ⟨List.Sublist.refl _, h, fun sid m₁ hs => ⟨m₁, hs, fun _ h => h⟩⟩
  record _ _ := Holding.mk_same rfl rfl rfl

theorem holds_connections : ConnectionFrame Holds where
  change w f fcm bal counter timers := by
    refine ⟨timers, fun msg h => ?_, fun sid m h => ⟨m, ?_, fun _ h => h⟩⟩
    · show (f w.app).fcmMsgManager.Contains msg; rw [fcm]; exact h
    · show (f w.app).balManager sid = some m; rw [bal]; exact h
  logon _ _ _ := Holding.mk_same rfl rfl rfl

/-! ## Settling and retrying -/

namespace Timely

variable {b : Books} {msg : Message}

theorem setState (h : Timely b.toStores) (n : Int) (s : MessageState) : Timely (b.setState n s).toStores :=
  h.holding (.mk_same rfl rfl rfl)

theorem contains_without {m : MessageManager} {old : Message} (h : m.Contains msg)
    (hne : msg.sequenceId ≠ old.sequenceId) : (m.without old).Contains msg := by
  obtain ⟨held, h1, h2⟩ := h
  exact ⟨held, by rw [MessageManager.without_getElem?, if_neg hne, h1], h2⟩

/-- A message without a timer may leave the FCM queue. -/
theorem without (h : Timely b.toStores) (hidle : msg.sequenceId ∉ retried b.timers) :
    Timely (b.setFcm (b.fcm.without msg)).toStores :=
  ⟨h.once, fun msg' hm => contains_without (h.down msg' hm) fun he => hidle (he ▸ mem_retried hm rfl), h.up⟩

theorem withoutBal (h : Timely b.toStores) {sid : SessionId} {m : MessageManager} (hm : b.bal sid = some m)
    (hidle : msg.sequenceId ∉ retried b.timers) : Timely (b.setBal sid (m.without msg)).toStores := by
  refine ⟨h.once, h.down, fun msg' ht => ?_⟩
  obtain ⟨m', h1, h2⟩ := h.up msg' ht
  rw [Books.setBal_bal]
  by_cases he : msg'.targetSessionId = sid
  · rw [if_pos he]
    rw [he, hm] at h1
    cases h1
    exact ⟨_, rfl, contains_without h2 fun he => hidle (he ▸ mem_retried ht rfl)⟩
  · rw [if_neg he]; exact ⟨m', h1, h2⟩

/-- A message without a timer gets one. -/
theorem armDown (h : Timely b.toStores) (hidle : msg.sequenceId ∉ retried b.timers) (hc : b.fcm.Contains msg) :
    Timely (b.addTimer (.retryDownstream msg)).toStores := by
  refine ⟨?_, fun msg' hm => ?_, fun msg' hm => ?_⟩
  · show (retried (b.timers ++ [_])).Nodup
    rw [retried_append b.timers (m := msg) rfl, List.nodup_append]
    exact ⟨h.once, by simp, fun a ha c hc he => hidle (by rw [List.mem_singleton.1 hc] at he; exact he ▸ ha)⟩
  · rcases List.mem_append.1 hm with hm | hm
    · exact h.down msg' hm
    · cases List.mem_singleton.1 hm; exact hc
  · rcases List.mem_append.1 hm with hm | hm
    · exact h.up msg' hm
    · cases List.mem_singleton.1 hm

theorem armUp (h : Timely b.toStores) (hidle : msg.sequenceId ∉ retried b.timers) {m : MessageManager}
    (hm : b.bal msg.targetSessionId = some m) (hc : m.Contains msg) :
    Timely (b.addTimer (.retryUpstream msg)).toStores := by
  refine ⟨?_, fun msg' hm => ?_, fun msg' hm' => ?_⟩
  · show (retried (b.timers ++ [_])).Nodup
    rw [retried_append b.timers (m := msg) rfl, List.nodup_append]
    exact ⟨h.once, by simp, fun a ha c hc he => hidle (by rw [List.mem_singleton.1 hc] at he; exact he ▸ ha)⟩
  · rcases List.mem_append.1 hm with hm | hm
    · exact h.down msg' hm
    · cases List.mem_singleton.1 hm
  · rcases List.mem_append.1 hm' with hm' | hm'
    · exact h.up msg' hm'
    · cases List.mem_singleton.1 hm'; exact ⟨m, hm, hc⟩

end Timely

section
variable {cfg : List SessionId} {i : Input} {w : World} {fs : List Fault} {msg : Message} {sid : SessionId}

/-- The timers are timely, and none has come but perhaps that of the message `n`. -/
def Armed (n : Int) (w w' : World) : Prop :=
  Timely (stores w'.toServer) ∧ ∀ k, k ∈ retried w'.app.timers → k = n ∨ k ∈ retried w.app.timers

theorem Armed.of_holds (ht : Timely (stores w.toServer)) {n : Int} {w' : World} (h : Holds w w') : Armed n w w' :=
  ⟨ht.holding h, fun _ hk => Or.inr (h.retried.subset hk)⟩

theorem Armed.holds {n : Int} {w₁ w₂ : World} (h : Armed n w w₁) (h' : Holds w₁ w₂) : Armed n w w₂ :=
  ⟨h.1.holding h', fun k hk => h.2 k (h'.retried.subset hk)⟩

theorem Armed.of_add {n : Int} {w' : World} {t : Timer} {m : Message} (hm : t.retries = some m) (hn : m.sequenceId = n)
    (ht : Timely (stores w'.toServer)) (hts : w'.app.timers = w.app.timers ++ [t]) : Armed n w w' := by
  refine ⟨ht, fun k hk => ?_⟩
  rw [hts, retried_append _ hm] at hk
  rcases List.mem_append.1 hk with hk | hk
  · exact Or.inr hk
  · exact Or.inl ((List.mem_singleton.1 hk).trans hn)

theorem fixed_backoff (d : Draw) (msg : Message) : (msg.getNextRetryTimeout d).2.fixed = msg.fixed :=
  Message.getNextRetryTimeout_fixed msg d

theorem holds_touch {w' : World} {n : Int} {f : Message → Message} (hf : ∀ msg, (f msg).fixed = msg.fixed)
    (h : books w' = (books w).setFcm ((books w).fcm.modifyMessage n f)) : Holds w w' := by
  show Holding (books w).toStores (books w').toStores
  rw [h]
  exact ⟨List.Sublist.refl _, fun _ hc => contains_touch hf hc, fun _ m hm => ⟨m, hm, fun _ hc => hc⟩⟩

theorem holds_touchBal {w' : World} {m : MessageManager} {n : Int} {f : Message → Message}
    (hf : ∀ msg, (f msg).fixed = msg.fixed) (hm : (books w).bal sid = some m)
    (h : books w' = (books w).setBal sid (m.modifyMessage n f)) : Holds w w' := by
  show Holding (books w).toStores (books w').toStores
  rw [h]
  refine ⟨List.Sublist.refl _, fun _ hc => hc, fun s m₁ hs => ?_⟩
  rw [Books.setBal_bal]
  by_cases he : s = sid
  · rw [if_pos he]
    rw [he, hm] at hs
    cases hs
    exact ⟨_, rfl, fun _ hc => contains_touch hf hc⟩
  · rw [if_neg he]; exact ⟨m₁, hs, fun _ hc => hc⟩

theorem index_of_find {m : MessageManager} (hwf : m.WF) {x : FcmMessageId}
    (h : m.findMessageWithFcmMsgId x = .ok msg) : m.sequenceIdMap[x]? = some msg.sequenceId := by
  have hs := (hwf.find h).1
  unfold MessageManager.findSequenceId at hs
  cases hx : m.sequenceIdMap[x]? with
  | none => rw [hx] at hs; cases hs
  | some k => rw [hx] at hs; cases hs; rfl

/-- A held message without a timer is retried; the message that goes if it is out of retries has no timer. -/
theorem wp_retryDown_armed (hwf : w.app.fcmMsgManager.WF) (ht : Timely (stores w.toServer))
    (hidle : msg.sequenceId ∉ retried w.app.timers)
    (hheld : w.app.fcmMsgManager.messages[msg.sequenceId]? = some msg)
    (hdrop : Exhausted i msg → ∀ k, w.app.fcmMsgManager.sequenceIdMap[msg.fcmMessageId]? = some k →
      k ∉ retried w.app.timers) :
    Wp (i.env.Rest fs) (retryDownstreamWithExponentialBackoff msg) (fun _ => Armed msg.sequenceId w)
      (fun _ => Armed msg.sequenceId w) w := by
  unfold retryDownstreamWithExponentialBackoff
  refine wp_popDraw fun d hd => Wp.bind (wp_modifyFcm fun w₁ h₁ => ?_)
  have hh₁ : Holds w w₁ := holds_touch (fixed_backoff d) h₁
  have hf₁ : (books w₁).fcm = w.app.fcmMsgManager.modifyMessage msg.sequenceId fun m => (m.getNextRetryTimeout d).2 := by
    rw [h₁]; rfl
  dsimp only
  split
  · refine Wp.bind (wp_modifyFcm fun w₂ h₂ => ?_)
    have hh₂ : Holds w w₂ := IsTrans.trans _ _ _ hh₁ (holds_touch (f := (·.setRetryInProgress true)) (fun _ => rfl) h₂)
    have ht₂ : w₂.app.timers = w.app.timers := by rw [← books_timers w₂, h₂, h₁]; rfl
    refine wp_singleShot (.of_holds ht hh₂) fun w₃ h₃ => ?_
    refine Armed.of_add (m := msg) rfl rfl ?_ (by rw [← books_timers w₃, h₃, ← ht₂]; rfl)
    show Timely (books w₃).toStores
    rw [h₃]
    refine Timely.armDown (ht.holding hh₂) ?_ (hh₂.fcm msg ⟨msg, hheld, rfl⟩)
    show msg.sequenceId ∉ retried w₂.app.timers
    rw [ht₂]; exact hidle
  · rename_i hout
    -- out of retries: the index decides which message goes, and that one has no timer
    have hdrop := hdrop ⟨d, hd, by_contra fun hne => hout hne⟩
    refine wp_updateMsgState (fun w₂ h₂ => ?_) fun _ _ => .of_holds ht hh₁
    have ht₁ : Timely (books w₁).toStores := ht.holding hh₁
    have ht₂ : Timely (books w₂).toStores := by rw [h₂]; exact ht₁.setState _ _
    have hts₂ : (books w₂).timers = w.app.timers := by rw [h₂, h₁]; rfl
    have hf₂ : (books w₂).fcm = (books w₁).fcm := by rw [h₂]; rfl
    have hwf₂ : (books w₂).fcm.WF := by rw [hf₂, hf₁]; exact hwf.modifyMessage (fixed_backoff d)
    have hkeep : ∀ {w₃ : World}, (books w₃).timers = w.app.timers → Timely (books w₃).toStores →
        Armed msg.sequenceId w w₃ := fun hts ht' => ⟨ht', fun k hk => Or.inr (hts ▸ hk)⟩
    refine Wp.bind (wp_onFcm ?_)
    rcases MessageManager.removeMessageWithFcmMsgId_cases hwf₂ msg.fcmMessageId with ⟨-, what, h⟩ | ⟨msg', hfind, -, h⟩
    · rw [h]
      intro w₃ h₃
      exact hkeep (by rw [h₃]; exact hts₂) (by rw [h₃]; exact ht₂)
    · rw [h]
      intro w₃ h₃
      have hidx : w.app.fcmMsgManager.sequenceIdMap[msg.fcmMessageId]? = some msg'.sequenceId := by
        have hx := index_of_find hwf₂ hfind
        rw [hf₂, hf₁] at hx; exact hx
      have ha₃ : Armed msg.sequenceId w w₃ := by
        refine hkeep (by rw [h₃]; exact hts₂) ?_
        rw [h₃]
        exact Timely.without ht₂ (by rw [hts₂]; exact hdrop _ hidx)
      exact (holds_frame.notifyDownstreamUploadFailure (Env.Rest.closed _ _)).wp (fun _ _ h => ha₃.holds h)
        fun _ _ h => ha₃.holds h

/-- The same for a message of the session `sid`, whose window does not get fuller. -/
theorem wp_retryUp_armed {m : MessageManager} (hm : w.app.balManager sid = some m) (hwf : m.WF)
    (ht : Timely (stores w.toServer)) (hidle : msg.sequenceId ∉ retried w.app.timers)
    (hheld : m.messages[msg.sequenceId]? = some msg) (htarget : msg.targetSessionId = sid)
    (hdrop : Exhausted i msg → ∀ k, m.sequenceIdMap[msg.fcmMessageId]? = some k → k ∉ retried w.app.timers) :
    Wp (i.env.Rest fs) (retryUpstreamWithExponentialBackoff sid msg)
      (fun _ w' => Armed msg.sequenceId w w' ∧
        ∃ m', w'.app.balManager sid = some m' ∧ m'.pendingAckCount ≤ m.pendingAckCount)
      (fun _ => Armed msg.sequenceId w) w := by
  subst htarget
  have hm : (books w).bal msg.targetSessionId = some m := hm
  unfold retryUpstreamWithExponentialBackoff
  refine wp_popDraw fun d hd => Wp.bind (wp_modifyBal hm fun w₁ h₁ => ?_)
  have hh₁ : Holds w w₁ := holds_touchBal (fixed_backoff d) hm h₁
  have hm₁ := bal_of_setBal h₁
  dsimp only
  split
  · refine Wp.bind (wp_modifyBal hm₁ fun w₂ h₂ => ?_)
    have hh₂ : Holds w w₂ := IsTrans.trans _ _ _ hh₁ (holds_touchBal (f := (·.setRetryInProgress true)) (fun _ => rfl) hm₁ h₂)
    have ht₂ : w₂.app.timers = w.app.timers := by rw [← books_timers w₂, h₂, h₁]; rfl
    have hm₂ := bal_of_setBal h₂
    refine wp_singleShot ⟨.of_holds ht hh₂, _, hm₂, Nat.le_refl _⟩ fun w₃ h₃ => ?_
    have hm₃ : (books w₃).bal msg.targetSessionId = (books w₂).bal msg.targetSessionId := by rw [h₃]; rfl
    rw [hm₂] at hm₃
    refine ⟨?_, _, hm₃, Nat.le_refl _⟩
    refine Armed.of_add (m := msg) rfl rfl ?_ (by rw [← books_timers w₃, h₃, ← ht₂]; rfl)
    show Timely (books w₃).toStores
    rw [h₃]
    have hc : ∃ m₂, (books w₂).bal msg.targetSessionId = some m₂ ∧ m₂.Contains msg := by
      obtain ⟨m₂, hm₂, hc⟩ := hh₂.bal _ m hm
      exact ⟨m₂, hm₂, hc msg ⟨msg, hheld, rfl⟩⟩
    obtain ⟨m₂, hm₂, hc⟩ := hc
    refine Timely.armUp (ht.holding hh₂) ?_ hm₂ hc
    show msg.sequenceId ∉ retried w₂.app.timers
    rw [ht₂]; exact hidle
  · rename_i hout
    have hdrop := hdrop ⟨d, hd, by_contra fun hne => hout hne⟩
    refine wp_updateMsgState (fun w₂ h₂ => ?_) fun _ _ => .of_holds ht hh₁
    have ht₁ : Timely (books w₁).toStores := ht.holding hh₁
    have ht₂ : Timely (books w₂).toStores := by rw [h₂]; exact ht₁.setState _ _
    have hts₂ : (books w₂).timers = w.app.timers := by rw [h₂, h₁]; rfl
    have hm₂ : (books w₂).bal msg.targetSessionId = (books w₁).bal msg.targetSessionId := by rw [h₂]; rfl
    rw [hm₁] at hm₂
    have hwf₂ := hwf.modifyMessage (n := msg.sequenceId) (fixed_backoff d)
    have hkeep : ∀ {w₃ : World}, (books w₃).timers = w.app.timers → Timely (books w₃).toStores →
        Armed msg.sequenceId w w₃ := fun hts ht' => ⟨ht', fun k hk => Or.inr (hts ▸ hk)⟩
    refine wp_onBal hm₂ ?_
    rcases MessageManager.removeMessageWithFcmMsgId_cases hwf₂ msg.fcmMessageId with ⟨-, what, h⟩ | ⟨msg', hfind, -, h⟩
    · rw [h]
      intro w₃ h₃
      exact hkeep (by rw [h₃]; exact hts₂) (by rw [h₃, setBal_self hm₂]; exact ht₂)
    · rw [h]
      intro w₃ h₃
      refine ⟨hkeep (by rw [h₃]; exact hts₂) ?_, _, bal_of_setBal h₃, without_count_le _ _⟩
      rw [h₃]
      exact Timely.withoutBal ht₂ hm₂ (by rw [hts₂]; exact hdrop _ (index_of_find hwf₂ hfind))

/-! ## Acks and nacks -/

/-- A held message without a timer is settled. -/
theorem wp_settle_timely (hwf : w.app.fcmMsgManager.WF) (ht : Timely (stores w.toServer)) {mid : FcmMessageId}
    {old : Message} {s : MessageState} {rest : Handler Unit} (hrest : ∀ fs, Keeps (i.env.Rest fs) Holds rest)
    (find : w.app.fcmMsgManager.findMessageWithFcmMsgId mid = .ok old) (hidle : old.sequenceId ∉ retried w.app.timers) :
    Wp (i.env.Rest fs)
      (do updateMsgState old s
          onFcm (removeMessageWithFcmMsgId mid)
          rest)
      (fun _ w' => Timely (stores w'.toServer)) (fun _ w' => Timely (stores w'.toServer)) w := by
  have hremove : removeMessageWithFcmMsgId mid (books w).fcm = .ok () ((books w).fcm.without old) :=
    MessageManager.removeMessageWithFcmMsgId_eq hwf find
  refine wp_updateMsgState (fun w₁ h₁ => ?_) fun _ _ => ht
  have ht₁ : Timely (books w₁).toStores := by rw [h₁]; exact Timely.setState ht _ _
  have hf₁ : (books w₁).fcm = (books w).fcm := by rw [h₁]; rfl
  have hts₁ : (books w₁).timers = w.app.timers := by rw [h₁]; rfl
  refine Wp.bind (wp_onFcm ?_)
  rw [hf₁, hremove]
  intro w₂ h₂
  have ht₂ : Timely (books w₂).toStores := by
    rw [h₂, ← hf₁]; exact Timely.without ht₁ (by rw [hts₁]; exact hidle)
  exact (hrest _).wp (fun _ _ h => ht₂.holding h) fun _ _ h => ht₂.holding h

theorem wp_handleFcmAckMessage_timely (h₀ : Base cfg (books w) .none) (ht : Timely (stores w.toServer)) {doc : Json}
    (he : i.event = .fcmAck doc) (hC : Untimed w.toServer i) :
    Wp (i.env.Rest fs) (handleFcmAckMessage doc) (fun _ w' => Timely (stores w'.toServer))
      (fun _ w' => Timely (stores w'.toServer)) w := by
  unfold handleFcmAckMessage
  refine Wp.bind (Wp.update (wp_guarded ?_))
  refine Wp.bind (wp_askFcm (fun old find => ?_) fun _ _ => ht)
  refine wp_settle_timely (w := w.record _) h₀.fcm ht (fun fs => ?_) find
    (hC.settled old .delivered ⟨_, by rw [he]; rfl, find⟩)
  exact Keeps.bind (holds_frame.sendNextPendingDownstreamMessage (Env.Rest.closed _ _)) fun _ =>
    holds_frame.notify (Env.Rest.closed _ _) fun n => by simp [Message.new]

theorem wp_handleFcmNackMessage_timely (h₀ : Base cfg (books w) .none) (ht : Timely (stores w.toServer)) {doc : Json}
    (he : i.event = .fcmNack doc) (hC : Untimed w.toServer i) :
    Wp (i.env.Rest fs) (handleFcmNackMessage doc) (fun _ w' => Timely (stores w'.toServer))
      (fun _ w' => Timely (stores w'.toServer)) w := by
  unfold handleFcmNackMessage
  refine Wp.bind (Wp.update (wp_guarded ?_))
  refine Wp.bind (wp_askFcm (fun old find => ?_) fun _ _ => ht)
  have find : w.app.fcmMsgManager.findMessageWithFcmMsgId _ = .ok old := find
  split
  · rename_i transient
    have hidle := hC.nacked old ⟨_, by rw [he]; exact if_pos transient, find⟩
    obtain ⟨-, hheld, hid⟩ := h₀.fcm.find find
    refine (wp_retryDown_armed (w := w.record _) h₀.fcm ht hidle hheld fun _ k hk => ?_).mono (fun _ _ h => h.1)
      fun _ _ h => h.1
    have hk : w.app.fcmMsgManager.sequenceIdMap[old.fcmMessageId]? = some k := hk
    have hidx : w.app.fcmMsgManager.sequenceIdMap[_]? = some old.sequenceId := index_of_find h₀.fcm find
    rw [hid, hidx] at hk
    cases hk
    exact hidle
  · rename_i permanent
    refine wp_settle_timely (w := w.record _) h₀.fcm ht (fun fs => ?_) find
      (hC.settled old .deliveryFailed ⟨_, by rw [he]; exact if_neg permanent, find⟩)
    exact Keeps.bind (holds_frame.sendNextPendingDownstreamMessage (Env.Rest.closed _ _)) fun _ =>
      holds_frame.notifyDownstreamUploadFailure (Env.Rest.closed _ _)

theorem wp_handleBalAckMsg_timely (h₀ : Base cfg (books w) .none) (ht : Timely (stores w.toServer)) {n : Int}
    (hidle : ∀ m msg, w.app.balManager sid = some m → m.findMessage n = .ok msg →
      msg.sequenceId ∉ retried w.app.timers) :
    Wp (i.env.Rest fs) (handleBalAckMsg sid n) (fun _ w' => Timely (stores w'.toServer))
      (fun _ w' => Timely (stores w'.toServer)) w := by
  unfold handleBalAckMsg
  refine wp_guarded (Wp.bind (wp_findBalMessageManager (fun m hm => ?_) fun _ _ => ht))
  refine Wp.bind (wp_askBal hm (fun msg hmsg => ?_) fun _ _ => ht)
  have hheld : m.messages[n]? = some msg := by
    unfold MessageManager.findMessage at hmsg
    cases hk : m.messages[n]? with
    | none => rw [hk] at hmsg; cases hmsg
    | some msg' => rw [hk] at hmsg; cases hmsg; rfl
  refine wp_updateMsgState (fun w₁ h₁ => ?_) fun _ _ => ht
  have ht₁ : Timely (books w₁).toStores := by rw [h₁]; exact Timely.setState ht _ _
  have hm₁ : (books w₁).bal sid = some m := by rw [h₁]; exact hm
  have hts₁ : (books w₁).timers = w.app.timers := by rw [h₁]; rfl
  refine Wp.bind (wp_onBal hm₁ ?_)
  rw [MessageManager.removeMessage_eq (h₀.bal hm) hheld]
  intro w₂ h₂
  have ht₂ : Timely (books w₂).toStores := by
    rw [h₂]; exact Timely.withoutBal ht₁ hm₁ (by rw [hts₁]; exact hidle m msg hm hmsg)
  exact (holds_frame.sendNextPendingUpstreamMessage (Env.Rest.closed _ _)).wp (fun _ _ h => ht₂.holding h)
    fun _ _ h => ht₂.holding h

end

end Gimmm

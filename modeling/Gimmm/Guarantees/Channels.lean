/-
The two channels: FCM gets downstream messages only, and a BAL session all others. A handler chooses the queue of
a message once, and a restart chooses it again by the target of its row, a C string. The two agree as long as no
session is named like FCM up to its first NUL, neither by the configuration nor by a message from FCM that is saved.
-/
import Gimmm.Flow.Exact
import Gimmm.Flow.Sources

namespace Gimmm

open Std Prog CString

/-- FCM's queue and what is sent to FCM are of type downstream, the queues of the sessions of the other types. -/
structure Separate (w : World) : Prop where
  fcm : ∀ (n : Int) (msg : Message), w.app.fcmMsgManager.messages[n]? = some msg → msg.type = .downstream
  bal : ∀ (sid : SessionId) (m : MessageManager) (n : Int) (msg : Message), w.app.balManager sid = some m →
    m.messages[n]? = some msg → msg.type.balBound = true
  uploads : ∀ (o : Obs) (msg : Message), o ∈ w.log → o.what = .upload msg → msg.type = .downstream

/-! ## Messages from FCM that are not saved -/

section
variable {w : World} {env : Env}

theorem guarded_unsaved {msg : Message} {rest : Unit → Handler Unit} (hfail : env.faults.headD .ok ≠ .ok) :
    ∃ env', guarded (saveMsg msg >>= rest) (w, env) = .ok () (w, env') ∨
      guarded (saveMsg msg >>= rest) (w, env) = .error .killed (w, env') := by
  rcases saveMsg_fails (w := w) msg hfail with ⟨what, h⟩ | h
  · exact ⟨_, Or.inl (guarded_error (bind_error h))⟩
  · exact ⟨_, Or.inr (guarded_killed (bind_error h))⟩

/-- A handler that ends where it saves a message has only drawn a sequence id. -/
theorem step_unsaved (cfg : List SessionId) {i : Input} {sid : SessionId} (he : i.event.delivers = some sid)
    (hfail : i.env.faults.headD .ok ≠ .ok) : (step cfg w i).db = w.db := by
  obtain ⟨e, env⟩ := i
  have hdone : ∀ {w' : World} {env' : Env}, (handle e (w, env) = .ok () (w', env') ∨
      handle e (w, env) = .error .killed (w', env')) → w'.db = w.db → (step cfg w ⟨e, env⟩).db = w.db := by
    intro w' env' h hdb
    unfold step
    dsimp only
    rcases h with h | h
    · rw [h]
      exact hdb
    · rw [h]
      exact hdb
  cases e with
  | fcmUpstream doc =>
    have hstart : handle (.fcmUpstream doc) (w, env) = guarded _ (w.mapApp ({ · with sequenceId := w.app.sequenceId + 1 }), env) :=
      guarded_same (bind_ok getNextSequenceId_ok)
    obtain ⟨env', h⟩ := guarded_unsaved (w := w.mapApp ({ · with sequenceId := w.app.sequenceId + 1 })) hfail
    rw [← hstart] at h
    exact hdone h rfl
  | fcmReceipt doc =>
    have hstart : handle (.fcmReceipt doc) (w, env) = guarded _ (w.mapApp ({ · with sequenceId := w.app.sequenceId + 1 }), env) :=
      guarded_same ((bind_ok getNextSequenceId_ok).trans (bind_ok (x := decision (Env.getJunk (w.app.sequenceId + 1))) rfl))
    obtain ⟨env', h⟩ := guarded_unsaved (w := w.mapApp ({ · with sequenceId := w.app.sequenceId + 1 })) hfail
    rw [← hstart] at h
    exact hdone h rfl
  | _ => cases he

end

/-! ## Rows -/

/-- A row of a downstream message is for FCM, one of another message for a session. -/
def Row.OnChannel (row : Row) : Prop :=
  (row.type = .downstream ∧ row.targetSession = fcmSessionId) ∨
    (row.type.balBound = true ∧ row.targetSession ≠ fcmSessionId)

/-- Every row is on its channel, and no source of a settled message is FCM. -/
structure Channelled (b : Books) (d : Debt) : Prop where
  rows : ∀ (n : Int) (row : Row), b.rows n = some row → row.OnChannel
  owed : ∀ (old : Message) (s : MessageState), d = .owed old s → cString old.sourceSessionId ≠ fcmSessionId

section
variable {cfg : List SessionId} {i : Input} {b₀ b b' : Books} {d d' : Debt}

/-- A message that the queue of FCM holds is a downstream message of a session. -/
theorem held_source (h₀ : Base cfg b₀ .none) (hc : Channelled b₀ .none)
    (hs : ∀ (n : Int) (row : Row), b₀.rows n = some row → row.type = .downstream → row.sourceSession ≠ fcmSessionId)
    {msg : Message} (hheld : b₀.fcm.Holds msg) : cString msg.sourceSessionId ≠ fcmSessionId := by
  obtain ⟨⟨row, hrow, hsaves⟩, htarget⟩ := h₀.held_saved hheld
  rcases hc.rows _ row hrow with ⟨htype, -⟩ | ⟨-, hother⟩
  · rw [← hsaves.sourceSession, cString_of_noNul row.noNul.1]
    exact hs _ row hrow htype
  · rw [hsaves.targetSession, htarget, cString_of_noNul noNul_fcmSessionId] at hother
    exact absurd rfl hother

namespace Channelled

theorem pay (h : Channelled b d) : Channelled b .none := ⟨h.rows, fun _ _ he => by cases he⟩

theorem of_rows (h : Channelled b .none) (hrows : b'.rows = b.rows) : Channelled b' .none :=
  ⟨fun n row hn => h.rows n row (by rw [← hrows]; exact hn), h.owed⟩

theorem setState (h : Channelled b d) (n : Int) (s : MessageState) : Channelled (b.setState n s) .none := by
  refine ⟨fun k row hk => ?_, fun _ _ he => by cases he⟩
  rw [Books.setState_rows] at hk
  split at hk
  · obtain ⟨row₀, hrow₀, rfl⟩ := Option.map_eq_some_iff.1 hk
    exact h.rows k row₀ hrow₀
  · exact h.rows k row hk

theorem insertRow (h : Channelled b d) {row : Row} (hrow : row.OnChannel) : Channelled (b.draw.insertRow row) .none := by
  refine ⟨fun k r hk => ?_, fun _ _ he => by cases he⟩
  rw [Books.insertRow_rows] at hk
  split at hk
  · cases hk
    exact hrow
  · exact h.rows k r hk

/-- The row of a message for a session. -/
theorem insertBal (h : Channelled b d) {msg : Message} (htype : msg.type.balBound = true)
    (htarget : cString msg.targetSessionId ≠ fcmSessionId) : Channelled (b.draw.insertRow (.ofMessage msg)) .none :=
  h.insertRow (Or.inr ⟨htype, htarget⟩)

/-- Every act of a handler keeps the channels apart, unless it delivers a message for FCM. -/
theorem act (h₀ : Base cfg b₀ .none) (hc₀ : Channelled b₀ .none)
    (hs₀ : ∀ (n : Int) (row : Row), b₀.rows n = some row → row.type = .downstream → row.sourceSession ≠ fcmSessionId)
    (hdelivers : ∀ sid, i.event.delivers = some sid → cString sid ≠ fcmSessionId) (hb : Base cfg b d) (h : Channelled b d)
    (ha : Act i b₀ b d b' d') : Channelled b' d' := by
  -- what is settled was in FCM's queue at the start, so it is a BAL's message
  have howe : ∀ {msg : Message} {s : MessageState} {old : Message} {s' : MessageState},
      b₀.fcm.Holds msg → Debt.owed msg s = .owed old s' → cString old.sourceSessionId ≠ fcmSessionId := by
    intro msg s old s' hheld he
    cases he
    exact held_source h₀ hc₀ hs₀ hheld
  cases ha with
  | accept mid gid sid data hm source request id =>
    rename_i msg
    have hrow : (Row.ofMessage msg).OnChannel := by
      rw [hm]
      exact Or.inl ⟨rfl, cString_of_noNul noNul_fcmSessionId⟩
    exact (h.insertRow hrow).of_rows rfl
  | mark held sendable => exact (h.setState _ _).of_rows rfl
  | settle settles fcm log names =>
    obtain ⟨mid, -, hf⟩ := settles
    exact ⟨(h.setState _ _).rows, fun old s' he => howe ⟨_, (h₀.fcm.find hf).2.1, rfl, rfl⟩ he⟩
  | exhaust held out within cause =>
    refine ⟨(h.setState _ _).rows, fun old s' he => howe ?_ he⟩
    obtain ⟨msg₁, h₁, hfixed, hstate⟩ := held
    obtain ⟨msg₂, h₂, hfixed₂, hstate₂⟩ := within _ _ h₁
    exact ⟨msg₂, h₂, hfixed₂.symm.trans hfixed, hstate₂.symm.trans hstate⟩
  | save envelope state cause =>
    refine ⟨(?_ : Channelled _ .none).rows, fun _ _ he => by cases he⟩
    cases cause with
    | upstream doc he type data target =>
      refine h.insertBal (by rw [type]; rfl) (target ▸ hdelivers _ ?_)
      rw [he]
      rfl
    | receipt doc he type target =>
      refine h.insertBal (by rw [type]; rfl) (target ▸ hdelivers _ ?_)
      rw [he]
      rfl
    | ack old type fcmMessageId target =>
      refine h.insertBal (by rw [type]; rfl) ?_
      rw [target]
      exact h.owed old _ rfl
  | reject envelope state type fcmMessageId target failed =>
    refine h.insertBal (by rw [type]; rfl) ?_
    rw [target]
    exact h.owed _ _ rfl
  | deliver bal => exact ⟨h.rows, fun _ _ he => by cases he⟩
  | undeliverable bal => exact h.pay
  | markBal bal held sendable type => exact (h.setState _ _).of_rows rfl
  | remark resend state type count => exact (h.setState _ _).of_rows rfl
  | settleBal bal held => exact (h.setState _ _).of_rows rfl
  | exhaustBal resend first out => exact (h.setState _ _).of_rows rfl
  | lose late => exact h.pay
  | _ => exact ⟨h.rows, h.owed⟩

end Channelled

/-! ## Uploads -/

/-- What a handler uploads is for FCM. -/
theorem Upload.target (h₀ : Base cfg b₀ .none) (h : Base cfg b d) {msg : Message} (hu : Upload i b₀ b msg) :
    msg.targetSessionId = fcmSessionId := by
  cases hu with
  | first new held => exact (h.fcmHeld held).target
  | next old s o settles fcm next =>
    rcases MessageManager.getNext_eq h.fcm with ⟨h1, -⟩ | ⟨m, h1, h2, -⟩
    · rw [h1] at next
      cases next
    · rw [h1] at next
      cases next
      exact (h.fcmHeld h2).target
  | resend est within held => exact (h.held_saved held).2
  | fire expires =>
    obtain ⟨k, -, hk⟩ := expires
    exact (h₀.down (List.mem_of_getElem? hk)).2

/-- Every uploaded message is for FCM. -/
def UploadsTargeted (b : Books) : Prop := ∀ o ∈ b.log, ∀ msg, o.what = .upload msg → msg.targetSessionId = fcmSessionId

theorem UploadsTargeted.observe (h : UploadsTargeted b) {o : Obs}
    (ho : ∀ msg, o.what = .upload msg → msg.targetSessionId = fcmSessionId) : UploadsTargeted (b.observe o) := by
  intro o' ho' msg hw
  rcases List.mem_cons.1 ho' with rfl | ho'
  · exact ho msg hw
  · exact h o' ho' msg hw

theorem UploadsTargeted.act (h₀ : Base cfg b₀ .none) (hb : Base cfg b d) (h : UploadsTargeted b)
    (ha : Act i b₀ b d b' d') : UploadsTargeted b' := by
  cases ha with
  | upload cause what server =>
    refine h.observe fun msg hw => ?_
    rw [what] at hw
    cases hw
    exact cause.target h₀ hb
  | fcmAck data type what server counter => exact h.observe fun msg hw => by rw [what] at hw; cases hw
  | write cause what server => exact h.observe fun msg hw => by rw [what] at hw; cases hw
  | record server what =>
    refine h.observe fun msg hw => ?_
    rcases what with ⟨hw', -⟩ | ⟨_, hw'⟩ | ⟨_, hw'⟩ <;> rw [hw'] at hw <;> cases hw
  | _ => exact h

end

/-! ## Runs -/

/-- The input does not save a message whose session is FCM up to its first NUL: if it brings one, the INSERT fails. -/
def Input.SparesFcm (i : Input) : Prop :=
  ∀ sid, i.event.delivers = some sid → cString sid = fcmSessionId → i.env.faults.headD .ok ≠ .ok

/-- Rows on their channels, downstream ones from sessions, sockets named after sessions, uploads for FCM. -/
structure Apart (cfg : List SessionId) (w : World) : Prop where
  rows : Channelled (books w) .none
  sources : w.db.SourcesIn (· ≠ fcmSessionId)
  named : Named cfg (links w.app)
  uploads : UploadsTargeted (books w)

namespace Apart

variable {cfg : List SessionId} {w : World}

theorem step (hcfg : ∀ sid ∈ cfg, cString sid ≠ fcmSessionId) (hb : Base cfg (books w) .none) (h : Apart cfg w) {i : Input}
    (hi : i.SparesFcm) : Apart cfg (step cfg w i) := by
  obtain ⟨b, hreach, hend⟩ := step_reach hb i
  have hrows : (books (Gimmm.step cfg w i)).rows = b.rows := by
    rcases hend with ⟨-, he⟩ | ⟨-, he⟩
    · rw [he]
    · exact he.rows
  have hlog : (books (Gimmm.step cfg w i)).log = b.log := by
    rcases hend with ⟨-, he⟩ | ⟨-, he⟩
    · rw [he]
    · exact he.log
  refine ⟨⟨fun n row hrow => ?_, fun _ _ he => by cases he⟩, step_sources cfg ?_ h.sources, h.named.step i, ?_⟩
  · by_cases hdelivers : ∃ sid, i.event.delivers = some sid ∧ cString sid = fcmSessionId
    · obtain ⟨sid, hsid, hfcm⟩ := hdelivers
      rw [books_rows, step_unsaved cfg hsid (hi sid hsid hfcm)] at hrow
      exact h.rows.rows n row hrow
    · have hdelivers : ∀ sid, i.event.delivers = some sid → cString sid ≠ fcmSessionId :=
        fun sid hsid hfcm => hdelivers ⟨sid, hsid, hfcm⟩
      have hchannels := hreach.invariant_base (P := Channelled) hb h.rows fun hb' _ _ hP ha =>
        Channelled.act hb h.rows h.sources hdelivers hb' hP ha
      exact hchannels.rows n row (by rw [← hrows]; exact hrow)
  · -- the property of a socket is empty or names a session, and FCM is none
    rintro sock doc s - hsock - - - hfcm
    rcases h.named.socket hsock with hempty | ⟨sid, hknown, hname⟩
    · rw [hempty] at hfcm
      exact absurd hfcm (by decide)
    · exact hcfg sid hknown (hname.symm.trans hfcm)
  · have huploads := hreach.invariant_base (P := fun b _ => UploadsTargeted b) hb h.uploads fun hb' _ _ hP ha =>
      UploadsTargeted.act hb hb' hP ha
    intro o ho
    rw [hlog] at ho
    exact huploads o ho

theorem boot (cfg : List SessionId) (env : Env) : Apart cfg (boot cfg env .empty) := by
  have hnone : ∀ (n : Int) (row : Row), Database.empty.rows[n]? = some row → False := by
    intro n row h
    have h : (∅ : ExtTreeMap Int Row)[n]? = some row := h
    rw [ExtTreeMap.getElem?_empty] at h
    cases h
  exact ⟨⟨fun n row h => (hnone n row h).elim, fun _ _ he => by cases he⟩, fun n row h => (hnone n row h).elim,
    .start cfg env .empty, fun _ h => by cases h⟩

theorem separate (hcfg : ∀ sid ∈ cfg, cString sid ≠ fcmSessionId) (hb : Base cfg (books w) .none) (h : Apart cfg w) : Separate w := by
  have hfcm : ∀ {msg : Message}, Saved (books w).toStores msg → msg.targetSessionId = fcmSessionId → msg.type = .downstream := by
    rintro msg ⟨row, hrow, hsaves⟩ htarget
    rcases h.rows.rows _ row hrow with ⟨htype, -⟩ | ⟨-, hother⟩
    · rw [← hsaves.type]
      exact htype
    · rw [hsaves.targetSession, htarget, cString_of_noNul noNul_fcmSessionId] at hother
      exact absurd rfl hother
  refine ⟨fun n msg hn => hfcm (hb.fcmHeld hn).saved (hb.fcmHeld hn).target, fun sid m n msg hm hn => ?_,
    fun o msg ho hw => hfcm (hb.uploads ho hw) (h.uploads o ho msg hw)⟩
  obtain ⟨-, ⟨row, hrow, hsaves⟩, htarget⟩ := hb.balHeld hm hn
  rcases h.rows.rows _ row hrow with ⟨-, hother⟩ | ⟨htype, -⟩
  · refine absurd ?_ (hcfg sid ((hb.known sid).1 ⟨m, hm⟩))
    rw [← htarget, ← hsaves.targetSession, hother]
  · rw [← hsaves.type]
    exact htype

end Apart

/-- An upstream message that names FCM as its session, then a restart, and one downstream message and its ack. -/
def misdirected : List Input :=
  [.quiet (.fcmUpstream (fcmMessage "u" "fcm")), .quiet .restart] ++ acked

end Gimmm

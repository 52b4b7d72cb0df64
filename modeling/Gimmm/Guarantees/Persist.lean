/-
Persist before externalize: whatever the server sends is about a message whose row is in the table at
that moment. The invariant adds to the base that every row the server inserts is that of a
downstream message or of an envelope with its own sequence id.
-/
import Gimmm.Flow.Simulation

namespace Gimmm

open Std CString

/-- The row under `n` was in `db` already, is that of a downstream message, or has an envelope with the
sequence id `n` as its payload. -/
def Enveloped (db : Database) (n : Int) (row : Row) : Prop :=
  db.rows[n]?.isSome ∨ row.type = .downstream ∨
    row.payload.value gimmmfieldnames.sequenceId = some (.ofInt64 n)

/-- What is sent is about a saved message: an uploaded message itself, the upstream message that an FCM ack
confirms, which has the last sequence id, or the message whose payload is written to a session. -/
def Persisted (db : Database) (o : Obs) : Prop :=
  match o.what with
  | .upload msg => ∃ row, o.server.db.rows[msg.sequenceId]? = some row ∧ row.Saves msg
  | .fcmAck doc _ => ∃ row, o.server.db.rows[o.server.app.sequenceId]? = some row ∧ row.type = .upstream ∧
      row.payload.value gimmmfieldnames.fcmData = some doc.asObject
  | .balWrite sid _ doc => doc = logonResponse sid ∨ ∃ (n : Int) (row : Row), o.server.db.rows[n]? = some row ∧
      row.payload = doc ∧ (row.targetSession = cString sid ∨ row.sourceSession = sid) ∧ Enveloped db n row
  | _ => True

/-- The rows are enveloped, and the log is persisted. -/
structure Persistent (db : Database) (b : Books) : Prop where
  rows : ∀ {n : Int} {row : Row}, b.rows n = some row → Enveloped db n row
  log : ∀ {o : Obs}, o ∈ b.log → Persisted db o

namespace Persistent

variable {cfg : List SessionId} {db : Database} {i : Input} {b₀ b : Books} {d : Debt}

theorem setState (h : Persistent db b) (n : Int) (s : MessageState) : Persistent db (b.setState n s) := by
  refine ⟨fun {k row} hk => ?_, h.log⟩
  have hk : Function.update b.rows n _ k = some row := hk
  by_cases hn : k = n
  · subst hn
    rw [Function.update_self] at hk
    obtain ⟨row', hr, rfl⟩ := Option.map_eq_some_iff.1 hk
    have henv : Enveloped db k row' := h.rows hr
    exact henv
  · rw [Function.update_of_ne hn] at hk; exact h.rows hk

theorem insertRow (h : Persistent db b) {msg : Message} (hm : Enveloped db msg.sequenceId (.ofMessage msg)) :
    Persistent db (b.draw.insertRow (.ofMessage msg)) := by
  refine ⟨fun {k row} hk => ?_, h.log⟩
  have hk : Function.update b.rows msg.sequenceId _ k = some row := hk
  by_cases hn : k = msg.sequenceId
  · subst hn; rw [Function.update_self] at hk; cases hk; exact hm
  · rw [Function.update_of_ne hn] at hk; exact h.rows hk

theorem observe (h : Persistent db b) {o : Obs} (ho : Persisted db o) : Persistent db (b.observe o) := by
  refine ⟨h.rows, fun ho' => ?_⟩
  rcases List.mem_cons.1 ho' with rfl | ho'
  · exact ho
  · exact h.log ho'

theorem envelope {n : Int} {msg : Message} (h : Envelope n msg) : Enveloped db msg.sequenceId (.ofMessage msg) :=
  Or.inr (Or.inr (by rw [h.sequenceId]; exact h.payload))

/-- What is written to a session has a saved row. -/
theorem write (h₀ : Base cfg b₀ .none) (hrows : RowsStay b₀.toStores b.toStores) (hb : Base cfg b d)
    (h : Persistent db b) {sid : SessionId} {sock : SocketId} {doc : Json} {o : Obs} (cause : Write i b₀ b sid doc)
    (what : o.what = .balWrite sid sock doc) (server : stores o.server = b.toStores) : Persisted db o := by
  have hdb : ∀ n : Int, o.server.db.rows[n]? = b.rows n := fun n => congrFun (congrArg Stores.rows server) n
  have hsaved : ∀ {msg : Message}, Saved b.toStores msg → doc = msg.payload →
      (msg.targetSessionId = sid ∨ msg.sourceSessionId = sid) → ∃ (n : Int) (row : Row),
      o.server.db.rows[n]? = some row ∧ row.payload = doc ∧ (row.targetSession = cString sid ∨ row.sourceSession = sid) ∧
        Enveloped db n row := by
    rintro msg ⟨row, hr, hs⟩ hd ht
    refine ⟨_, row, (hdb _).trans hr, hs.payload.trans hd.symm, ?_, h.rows hr⟩
    rw [hs.targetSession, hs.sourceSession]
    exact ht.imp (congrArg cString) id
  unfold Persisted
  rw [what]
  cases cause with
  | logon doc => exact Or.inl doc
  | held m msg bal held hd =>
    obtain ⟨h1, h2⟩ := hb.balHeld_saved bal held
    exact Or.inr (hsaved h1 hd (Or.inl h2))
  | fire msg expires target hd bal writable =>
    obtain ⟨k, -, hk⟩ := expires
    exact Or.inr (hsaved (hrows.saved (h₀.up (List.mem_of_getElem? hk)).1) hd (Or.inl target.symm))
  | failed msg row failed saved saves source hd writable =>
    exact Or.inr (hsaved ⟨row, saved, saves⟩ hd (Or.inr source.symm))

theorem act (h₀ : Base cfg b₀ .none) (hrows : RowsStay b₀.toStores b.toStores) (hb : Base cfg b d)
    (h : Persistent db b) {b' : Books} {d' : Debt} (ha : Act i b₀ b d b' d') : Persistent db b' := by
  cases ha with
  | accept mid gid sid data hm source request id => exact ⟨(h.insertRow (Or.inr (Or.inl (by rw [hm]; rfl)))).rows, h.log⟩
  | mark held sendable => exact ⟨(h.setState _ _).rows, h.log⟩
  | upload cause what server =>
    refine h.observe ?_
    obtain ⟨row, hr, hs⟩ := hb.upload_saved h₀ hrows cause
    unfold Persisted
    rw [what]
    exact ⟨row, (congrFun (congrArg Stores.rows server) _).trans hr, hs⟩
  | settle settles fcm log names => exact ⟨(h.setState _ _).rows, h.log⟩
  | exhaust held out within cause => exact h.setState _ _
  | save henv state cause => exact h.insertRow (envelope henv)
  | reject henv => exact h.insertRow (envelope henv)
  | fcmAck data type what server counter =>
    rename_i msg o doc ack
    refine h.observe ?_
    -- the ack of an upstream message is sent between its INSERT and its delivery
    have hwait : Waiting b.toStores msg := hb.debt
    obtain ⟨row, hr, hs, -⟩ := hwait.saved
    have hc : o.server.app.sequenceId = msg.sequenceId := (congrArg Stores.counter server).trans counter.symm
    unfold Persisted
    rw [what]
    exact ⟨row, by rw [hc]; exact (congrFun (congrArg Stores.rows server) _).trans hr, hs.type.trans type,
      by rw [hs.payload]; exact data⟩
  | markBal bal held sendable type => exact ⟨(h.setState _ _).rows, h.log⟩
  | remark resend state type count => exact ⟨(h.setState _ _).rows, h.log⟩
  | write cause what server => exact h.observe (write h₀ hrows hb h cause what server)
  | settleBal bal held => exact ⟨(h.setState _ _).rows, h.log⟩
  | exhaustBal resend first out => exact h.setState _ _
  | record server what =>
    refine h.observe ?_
    unfold Persisted
    rcases what with ⟨hw, -⟩ | ⟨_, hw⟩ | ⟨_, hw⟩ <;> rw [hw] <;> trivial
  | _ => exact ⟨h.rows, h.log⟩

theorem step {w : World} (h₀ : Base cfg (books w) .none) (h : Persistent db (books w)) (i : Input) :
    Persistent db (books (step cfg w i)) := by
  obtain ⟨b, hr, hend⟩ := step_reach h₀ i
  have hb : Persistent db b := hr.invariant_base (P := fun b _ => Persistent db b) h₀ h
    fun hb hrows _ hP ha => act h₀ hrows hb hP ha
  rcases hend with ⟨-, he⟩ | ⟨-, he⟩
  · rw [he]; exact hb
  · exact ⟨fun hn => hb.rows (he.rows ▸ hn), fun ho => hb.log (he.log ▸ ho)⟩

end Persistent

/-- In every run, whatever fails and however often the process ends, everything the server sends is about
a message whose row is in the table at that moment. -/
theorem sent_persisted (cfg : List SessionId) (env : Env) (db : Database) (is : List Input) {o : Obs}
    (ho : o ∈ (run cfg (boot cfg env db) is).log) : Persisted db o := by
  have hstart : Persistent db (books (boot cfg env db)) := by
    refine ⟨fun {n row} hn => Or.inl ?_, fun ho => by cases ho⟩
    have hn : db.rows[n]? = some row := hn
    rw [hn]; rfl
  exact (run_invariant_all (fun w i hb hP => hP.step hb i) is (boot_base cfg env db) hstart).2.log ho

theorem sent_persisted_acked : ∃ o ∈ (run ["bal"] (boot ["bal"] .quiet .empty) acked).log, Persisted .empty o := by
  have hlog : 0 < (run ["bal"] (boot ["bal"] .quiet .empty) acked).log.length := by decide +kernel
  exact ⟨_, List.getElem_mem hlog, sent_persisted ["bal"] .quiet .empty acked (List.getElem_mem hlog)⟩

end Gimmm

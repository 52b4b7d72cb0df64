/-
The life of a downstream message: it is in the queue exactly while its row is pending, in the same state,
only an ack or a permanent nack that names it takes it out, and its row never changes again. Every act
keeps this, as long as no retry limit is in force and no session is configured as `fcm`. A restart keeps it
too, but for the name: the FCM message id is read back up to its first NUL.
-/
import Gimmm.Flow.Simulation

namespace Gimmm

open Std CString

/-- Every downstream row is addressed to FCM. -/
def Addressed (rows : Int → Option Row) : Prop :=
  ∀ (n : Int) (row : Row), rows n = some row → row.type = .downstream → row.targetSession = fcmSessionId

/-- Downstream rows go to FCM, and no session but one named like it has a downstream message. -/
structure Directed (b : Stores) : Prop where
  rows : Addressed b.rows
  bal : ∀ {sid : SessionId} {m : MessageManager} {n : Int} {msg : Message}, sid ≠ fcmSessionId → b.bal sid = some m →
    m.messages[n]? = some msg → msg.type ≠ .downstream

/-- The row under `n` is there and pending. -/
def PendingRow (b : Stores) (n : Int) : Prop := ∃ row, b.rows n = some row ∧ row.state.pending = true

/-- Downstream messages go to FCM; the queue has the states of the rows, and all pending downstream rows; a
session has only messages whose rows are pending. -/
structure Cycle (b : Stores) : Prop where
  directed : Directed b
  agree : ∀ {n : Int} {msg : Message}, b.fcm.messages[n]? = some msg → ∃ row, b.rows n = some row ∧ row.state = msg.state
  held : ∀ {n : Int} {row : Row}, b.rows n = some row → row.type = .downstream → row.state.pending = true →
    ∃ msg, b.fcm.messages[n]? = some msg
  pendingBal : ∀ {sid : SessionId} {m : MessageManager} {n : Int} {msg : Message}, b.bal sid = some m →
    m.messages[n]? = some msg → PendingRow b n

/-- Since `b₀`, settled rows are as they were, and a pending downstream row is still pending unless the
event settles it. -/
structure Onward (i : Input) (b₀ b : Stores) : Prop where
  settled : ∀ {n : Int} {row : Row}, b₀.rows n = some row → row.state.pending = false → b.rows n = some row
  pending : ∀ {n : Int} {row₀ : Row}, b₀.rows n = some row₀ → row₀.type = .downstream → row₀.state.pending = true →
    PendingRow b n ∨ ∃ msg s, Settles i b₀ msg s ∧ msg.sequenceId = n ∧ ∃ row, b.rows n = some row ∧ row.state = s

/-! ## Addresses -/

namespace Addressed

variable {cfg : List SessionId} {i : Input} {b₀ b : Books} {d : Debt}

theorem setState (h : Addressed b.rows) (n : Int) (s : MessageState) : Addressed (b.setState n s).rows := by
  intro k row hk ht
  rw [Books.setState_rows] at hk
  split at hk
  · obtain ⟨row', hr, rfl⟩ := Option.map_eq_some_iff.1 hk
    exact h k row' hr ht
  · exact h k row hk ht

theorem insertRow (h : Addressed b.rows) {row : Row} (hr : row.type = .downstream → row.targetSession = fcmSessionId) :
    Addressed (b.draw.insertRow row).rows := by
  intro k row' hk ht
  rw [Books.insertRow_rows] at hk
  split at hk
  · cases hk; exact hr ht
  · exact h k row' hk ht

theorem receives {msg : Message} (cause : Receives i msg d) : msg.type ≠ .downstream := by
  cases cause with
  | upstream doc he type => rw [type]; intro h; cases h
  | receipt doc he type => rw [type]; intro h; cases h
  | ack old type => rw [type]; intro h; cases h

theorem act (h : Addressed b.rows) {b' : Books} {d' : Debt} (ha : Act i b₀ b d b' d') : Addressed b'.rows := by
  cases ha with
  | accept mid gid sid data hm source request id => exact h.insertRow fun _ => by rw [hm]; exact cString_of_noNul noNul_fcmSessionId
  | save envelope state cause => exact h.insertRow fun ht => absurd ht (receives cause)
  | reject envelope state type => exact h.insertRow fun ht => by cases type.symm.trans ht
  | mark => exact h.setState _ _
  | settle => exact h.setState _ _
  | exhaust => exact h.setState _ _
  | markBal => exact h.setState _ _
  | remark => exact h.setState _ _
  | settleBal => exact h.setState _ _
  | exhaustBal => exact h.setState _ _
  | _ => exact h

end Addressed

namespace Directed

variable {cfg : List SessionId} {i : Input} {b₀ b : Books} {d : Debt}

/-- The queue of a session changes: what it gets is no downstream message. -/
theorem setBal (h : Directed b.toStores) {rows : Int → Option Row} (hrows : Addressed rows) {sid : SessionId}
    {m : MessageManager}
    (hm : sid ≠ fcmSessionId → ∀ (n : Int) (msg : Message), m.messages[n]? = some msg → msg.type ≠ .downstream) :
    Directed ({ b with rows := rows }.setBal sid m).toStores := by
  refine ⟨hrows, fun {s m' n msg} hne hs hn => ?_⟩
  rcases bal_setBal hs with ⟨rfl, rfl⟩ | ⟨-, hs⟩
  · exact hm hne n msg hn
  · exact h.bal hne hs hn

/-- A change of a message of a session leaves its type. -/
theorem modifyBal (h : Directed b.toStores) {sid : SessionId} {m : MessageManager} (bal : b.bal sid = some m) (n : Int)
    {f : Message → Message} (hf : ∀ msg, (f msg).fixed = msg.fixed) (hne : sid ≠ fcmSessionId) (k : Int) (msg : Message)
    (hk : (m.modifyMessage n f).messages[k]? = some msg) : msg.type ≠ .downstream := by
  rw [MessageManager.modifyMessage_getElem?] at hk
  split at hk
  · obtain ⟨msg₀, h₀, rfl⟩ := Option.map_eq_some_iff.1 hk
    have htype : (f msg₀).type = msg₀.type := congrArg Message.Fixed.type (hf msg₀)
    rw [htype]
    exact h.bal hne bal h₀
  · exact h.bal hne bal hk

theorem act (hb : Base cfg b d) (h : Directed b.toStores) {b' : Books} {d' : Debt} (ha : Act i b₀ b d b' d') :
    Directed b'.toStores := by
  have hrows : Addressed b'.rows := h.rows.act ha
  cases ha with
  | deliver bal =>
    rename_i msg m
    have hwait : Waiting b.toStores msg := hb.debt
    refine h.setBal hrows fun hne n msg' hn => ?_
    rw [MessageManager.addMessage_getElem? msg (hwait.bal bal)] at hn
    split at hn
    · cases hn
      intro htype
      have hbound := hwait.type
      rw [htype] at hbound
      cases hbound
    · exact h.bal hne bal hn
  | markBal bal held sendable type => exact h.setBal hrows (h.modifyBal bal _ fun _ => rfl)
  | remark resend state type count => exact h.setBal hrows fun hne n msg hn => h.bal hne resend.bal hn
  | settleBal bal held => exact h.setBal hrows fun hne n msg hn => h.bal hne bal (MessageManager.of_without hn).1
  | dropBal bal held first out => exact h.setBal hrows fun hne n msg hn => h.bal hne bal (MessageManager.of_without hn).1
  | touchBal n f bal hf => exact h.setBal hrows (h.modifyBal bal n fun msg => (hf msg).1)
  | _ => exact ⟨hrows, h.bal⟩

/-- A queue that is loaded for a session has the rows with its name. -/
theorem restart (h : Addressed b.rows) {env : Env} {b' : Books} (hr : Restarted cfg env b b') : Directed b'.toStores := by
  obtain ⟨db, hdb, -, -, hbal⟩ := hr.fresh
  refine ⟨fun n row hn => h n row (hr.rows ▸ hn), fun {sid m n msg} hne hm hn htype => hne ?_⟩
  obtain ⟨row, h1, -, h3, rfl⟩ := (hbal sid m hm).held n msg hn
  exact h3.symm.trans (h n row ((hdb n).symm.trans h1) htype)

/-- A message for a session has no downstream row. -/
theorem not_downstream (h : Directed b.toStores) (hb : Base cfg b d) (hcfg : fcmSessionId ∉ cfg) {sid : SessionId}
    {m : MessageManager} {n : Int} {msg : Message} (bal : b.bal sid = some m) (hn : m.messages[n]? = some msg) {row : Row}
    (hr : b.rows n = some row) : row.type ≠ .downstream := by
  obtain ⟨-, ⟨row', hr', hs⟩, -⟩ := hb.balHeld bal hn
  rw [(hb.bal bal).key hn, hr] at hr'
  cases hr'
  rw [hs.type]
  exact h.bal (fun hsid => hcfg (hsid ▸ (hb.known sid).1 ⟨m, bal⟩)) bal hn

theorem step {w : World} (hb : Base cfg (books w) .none) (h : Directed (books w).toStores) (i : Input) :
    Directed (books (step cfg w i)).toStores := by
  obtain ⟨b, hr, hend⟩ := step_reach hb i
  have hdir : Directed b.toStores := hr.invariant_base (P := fun b _ => Directed b.toStores) hb h fun hb _ _ h ha => h.act hb ha
  rcases hend with ⟨-, he⟩ | ⟨-, he⟩
  · rw [he]
    exact hdir
  · exact .restart hdir.rows he

theorem boot (cfg : List SessionId) (env : Env) {db : Database} (hdb : Addressed (db.rows[·]?)) :
    Directed (books (boot cfg env db)).toStores :=
  .restart (b := books (Gimmm.boot cfg env db)) hdb (start_restarted (w := Gimmm.boot cfg env db) rfl rfl rfl rfl rfl)

end Directed

namespace PendingRow

variable {b : Books} {n k : Int} {s : MessageState}

theorem setState (h : PendingRow b.toStores k) (hs : k = n → s.pending = true) :
    PendingRow (b.setState n s).toStores k := by
  obtain ⟨row, hr, hp⟩ := h
  by_cases hk : k = n
  · exact ⟨{ row with state := s }, by rw [Books.setState_rows, if_pos hk, hr]; rfl, hs hk⟩
  · exact ⟨row, by rw [Books.setState_rows, if_neg hk, hr], hp⟩

theorem insertRow (h : PendingRow b.toStores k) {row : Row} (hn : b.rows row.sequenceId = none) :
    PendingRow (b.draw.insertRow row).toStores k := by
  obtain ⟨row', hr, hp⟩ := h
  refine ⟨row', ?_, hp⟩
  rw [Books.insertRow_rows, if_neg]
  · exact hr
  · rintro rfl; rw [hn] at hr; cases hr

end PendingRow

/-! ## Onward -/

namespace Onward

variable {cfg : List SessionId} {i : Input} {b₀ b : Books} {d : Debt}

theorem refl (i : Input) (b : Stores) : Onward i b b := ⟨fun h _ => h, fun h _ hp => Or.inl ⟨_, h, hp⟩⟩

/-- A pending row changes its state: to a pending one, or to that of the event, unless it is no downstream row. -/
theorem setState (h : Onward i b₀.toStores b.toStores) (hrows : RowsStay b₀.toStores b.toStores) {n : Int}
    {s : MessageState} {row : Row} (hn : b.rows n = some row) (hp : row.state.pending = true)
    (hs : s.pending = true ∨ (∃ msg, Settles i b₀.toStores msg s ∧ msg.sequenceId = n) ∨ row.type ≠ .downstream) :
    Onward i b₀.toStores (b.setState n s).toStores := by
  refine ⟨fun {k row₀} h₀ hset => ?_, fun {k row₀} h₀ ht hpend => ?_⟩
  · have hk := h.settled h₀ hset
    rw [Books.setState_rows, if_neg, hk]
    rintro rfl
    have hk : b.rows k = some row₀ := hk
    rw [hn] at hk; cases hk; rw [hp] at hset; cases hset
  · by_cases hk : k = n
    · subst hk
      have hnew : (b.setState k s).rows k = some { row with state := s } := by
        rw [Books.setState_rows, if_pos rfl, hn]; rfl
      rcases hs with hs | ⟨msg, hset, hmsg⟩ | htype
      · exact Or.inl ⟨_, hnew, hs⟩
      · exact Or.inr ⟨msg, s, hset, hmsg, _, hnew, rfl⟩
      · obtain ⟨s', hstay⟩ := hrows k row₀ h₀
        have hstay : b.rows k = _ := hstay
        rw [hn] at hstay; cases hstay
        exact absurd ht htype
    · rcases h.pending h₀ ht hpend with ⟨row', hr', hp'⟩ | ⟨msg, s', hset, hmsg, row', hr', hst⟩
      · exact Or.inl ⟨row', by rw [Books.setState_rows, if_neg hk]; exact hr', hp'⟩
      · exact Or.inr ⟨msg, s', hset, hmsg, row', by rw [Books.setState_rows, if_neg hk]; exact hr', hst⟩

theorem insertRow (h : Onward i b₀.toStores b.toStores) (row : Row) (hn : b.rows row.sequenceId = none) :
    Onward i b₀.toStores (b.draw.insertRow row).toStores := by
  have hold : ∀ {k : Int} {row' : Row}, b.rows k = some row' → (b.draw.insertRow row).rows k = some row' := by
    intro k row' hk
    rw [Books.insertRow_rows, if_neg]
    · exact hk
    · rintro rfl; rw [hn] at hk; cases hk
  refine ⟨fun h₀ hset => hold (h.settled h₀ hset), fun h₀ ht hpend => ?_⟩
  rcases h.pending h₀ ht hpend with ⟨row', hr', hp'⟩ | ⟨msg, s', hset, hmsg, row', hr', hst⟩
  · exact Or.inl ⟨row', hold hr', hp'⟩
  · exact Or.inr ⟨msg, s', hset, hmsg, row', hold hr', hst⟩

theorem rows (h : Onward i b₀.toStores b.toStores) {b' : Books} (hr : b'.rows = b.rows) :
    Onward i b₀.toStores b'.toStores := by
  refine ⟨fun h₀ hset => by rw [hr]; exact h.settled h₀ hset, fun h₀ ht hpend => ?_⟩
  unfold PendingRow
  rw [hr]; exact h.pending h₀ ht hpend

end Onward

/-! ## Acts -/

section
variable {cfg : List SessionId} {i : Input} {b₀ b : Books} {d : Debt}

theorem Cycle.rowOf (h : Cycle b.toStores) (hb : Base cfg b d) {n : Int} {msg : Message}
    (hn : b.fcm.messages[n]? = some msg) : ∃ row, b.rows n = some row ∧ row.state.pending = true := by
  obtain ⟨row, hr, hs⟩ := h.agree hn
  exact ⟨row, hr, by rw [hs]; exact (hb.fcmHeld hn).pending⟩

/-- The queues of the sessions keep their messages, and the row of a message for a session changes. -/
theorem Cycle.setStateBal (h : Cycle b.toStores) (hb : Base cfg b d) (hcfg : fcmSessionId ∉ cfg) {sid : SessionId}
    {m m' : MessageManager} {n : Int} {msg : Message} {s : MessageState} (bal : b.bal sid = some m)
    (hn : m.messages[n]? = some msg) (hdir : Directed ((b.setState n s).setBal sid m').toStores)
    (hm' : ∀ (k : Int) (msg' : Message), m'.messages[k]? = some msg' →
      (∃ msg, m.messages[k]? = some msg) ∧ (k = n → s.pending = true)) :
    Cycle ((b.setState n s).setBal sid m').toStores := by
  refine ⟨hdir, fun {k msg'} hk => ?_, fun {k row} hk ht hp => ?_, fun {s' m₁ k msg'} hs' hk => ?_⟩
  · obtain ⟨row, hr, hst⟩ := h.agree hk
    refine ⟨row, ?_, hst⟩
    show (b.setState n s).rows k = _
    rw [Books.setState_rows, if_neg, hr]
    rintro rfl
    exact absurd ((hb.apart hcfg bal hn).symm.trans hk) (by simp)
  · replace hk : (b.setState n s).rows k = some row := hk
    rw [Books.setState_rows] at hk
    split at hk
    · rename_i hkn
      subst hkn
      obtain ⟨row', hr, rfl⟩ := Option.map_eq_some_iff.1 hk
      have hrow : row'.type ≠ .downstream := h.directed.not_downstream hb hcfg bal hn hr
      exact absurd ht hrow
    · exact h.held hk ht hp
  · rcases bal_setBal hs' with ⟨rfl, rfl⟩ | ⟨hne, hs'⟩
    · obtain ⟨⟨msg₁, h₁⟩, hs⟩ := hm' k msg' hk
      exact (h.pendingBal bal h₁).setState hs
    · refine (h.pendingBal hs' hk).setState fun hkn => ?_
      subst hkn
      exact absurd (hb.oneQueue hs' hk bal hn) hne

theorem Cycle.insertRow (h : Cycle b.toStores) (hb : Base cfg b d) {msg : Message} (hseq : msg.sequenceId = b.counter + 1)
    (ht : msg.type ≠ .downstream) (hdir : Directed (b.draw.insertRow (.ofMessage msg)).toStores) :
    Cycle (b.draw.insertRow (.ofMessage msg)).toStores := by
  have hn : b.rows msg.sequenceId = none := hb.freshRow_of hseq
  have hold : ∀ {k : Int} {row : Row}, (b.draw.insertRow (.ofMessage msg)).rows k = some row →
      row = .ofMessage msg ∨ b.rows k = some row := by
    intro k row hk
    rw [Books.insertRow_rows] at hk
    split at hk
    · cases hk; exact Or.inl rfl
    · exact Or.inr hk
  refine ⟨hdir, fun {k msg'} hk => ?_, fun hk htype hp => ?_,
    fun hm hk => (h.pendingBal hm hk).insertRow hn⟩
  · obtain ⟨row, hr, hst⟩ := h.agree hk
    refine ⟨row, ?_, hst⟩
    show (b.draw.insertRow (.ofMessage msg)).rows k = _
    rw [Books.insertRow_rows, if_neg]
    · exact hr
    · rintro rfl; exact absurd (hr.symm.trans hn) (by simp)
  · rcases hold hk with rfl | hk
    · exact absurd htype ht
    · exact h.held hk htype hp

/-- What every act keeps. -/
theorem Cycle.act (hcfg : fcmSessionId ∉ cfg) (hpat : NoneExhausted i b₀.toStores) (hb : Base cfg b d)
    (h : Cycle b.toStores) {b' : Books} {d' : Debt} (ha : Act i b₀ b d b' d') : Cycle b'.toStores := by
  have hdir : Directed b'.toStores := h.directed.act hb ha
  cases ha with
  | accept mid gid sid data hm source request id =>
    rename_i msg
    have hseq : msg.sequenceId = b.counter + 1 := by rw [hm]; rfl
    have hn : b.rows msg.sequenceId = none := hb.freshRow_of hseq
    have hq : ∀ k : Int, (b.fcm.addMessage msg.sequenceId msg).messages[k]? =
        if k = msg.sequenceId then some msg else b.fcm.messages[k]? :=
      MessageManager.addMessage_getElem? _ (hseq ▸ hb.fresh)
    have hrow : ∀ k : Int, (b.draw.insertRow (.ofMessage msg)).rows k =
        if k = msg.sequenceId then some (.ofMessage msg) else b.rows k := Books.insertRow_rows b.draw _
    -- the queue and the table get the same id
    -- the message and its row are marked together
    refine ⟨hdir, fun {k msg'} hk => ?_, fun {k row} hk ht hp => ?_, fun bal hk => (h.pendingBal bal hk).insertRow hn⟩
    · have hk := (hq k).symm.trans hk
      show ∃ row, (b.draw.insertRow (.ofMessage msg)).rows k = some row ∧ _
      rw [hrow]
      split at hk
      · rename_i hkn; cases hk; rw [if_pos hkn]; exact ⟨_, rfl, rfl⟩
      · rename_i hkn; rw [if_neg hkn]; exact h.agree hk
    · have hk := (hrow k).symm.trans hk
      show ∃ msg', (b.fcm.addMessage msg.sequenceId msg).messages[k]? = some msg'
      rw [hq]
      split at hk
      · rename_i hkn; rw [if_pos hkn]; exact ⟨_, rfl⟩
      · rename_i hkn; rw [if_neg hkn]; exact h.held hk ht hp
  | mark held sendable =>
    rename_i msg
    have hrow := Books.setState_rows b msg.sequenceId .pendingAck
    have hq : ∀ k : Int, _ := MessageManager.mark_getElem? (m := b.fcm) (n := msg.sequenceId)
    refine ⟨hdir, fun {k msg'} hk => ?_, fun {k row} hk ht hp => ?_,
      fun bal hk => (h.pendingBal bal hk).setState fun _ => rfl⟩
    · have hk := (hq k).symm.trans hk
      show ∃ row, (b.setState msg.sequenceId .pendingAck).rows k = some row ∧ _
      rw [hrow]
      split at hk
      · rename_i hkn
        obtain ⟨msg₁, h₁, rfl⟩ := Option.map_eq_some_iff.1 hk
        obtain ⟨row, hr, -⟩ := h.agree h₁
        rw [if_pos hkn, show b.rows k = some row from hr]; exact ⟨_, rfl, rfl⟩
      · rename_i hkn; rw [if_neg hkn]; exact h.agree hk
    · have hk := (hrow k).symm.trans hk
      show ∃ msg', (b.fcm.mark msg.sequenceId).messages[k]? = some msg'
      rw [hq]
      split at hk
      · rename_i hkn; rw [if_pos hkn, hkn, held]; exact ⟨_, rfl⟩
      · rename_i hkn; rw [if_neg hkn]; exact h.held hk ht hp
  | settle settles fcm log names =>
    rename_i msg s o
    -- the row stops being pending before the message leaves the queue
    obtain ⟨mid, hset, hf⟩ := settles
    have held := (hb.fcm.find (fcm ▸ hf)).2.1
    have hrow := Books.setState_rows b msg.sequenceId s
    refine ⟨hdir, fun {k msg'} hk => ?_, fun {k row} hk ht hp => ?_,
      fun bal hk => (h.pendingBal bal hk).setState fun hkn => ?_⟩
    · obtain ⟨hk, hkn⟩ := MessageManager.of_without hk
      show ∃ row, (b.setState msg.sequenceId s).rows k = some row ∧ _
      rw [hrow, if_neg hkn]; exact h.agree hk
    · have hk := (hrow k).symm.trans hk
      split at hk
      · obtain ⟨row', hr, rfl⟩ := Option.map_eq_some_iff.1 hk
        rw [show s.pending = false from Event.settles_settled hset] at hp; cases hp
      · rename_i hkn
        show ∃ msg', (b.fcm.without msg).messages[k]? = some msg'
        rw [MessageManager.without_getElem?, if_neg hkn]; exact h.held hk ht hp
    · -- no session holds an id of FCM's queue
      exact absurd ((hb.apart hcfg bal (hkn ▸ hk)).symm.trans held) (by simp)
  | exhaust held out within cause => exact absurd hpat.fcm out
  | drop held out cause => exact absurd hpat.fcm out
  | touchDown n f hf =>
    have hq : ∀ k : Int, (b.fcm.modifyMessage n f).messages[k]? = _ := MessageManager.modifyMessage_getElem? f
    refine ⟨hdir, fun {k msg'} hk => ?_, fun {k row} hk ht hp => ?_, h.pendingBal⟩
    · have hk := (hq k).symm.trans hk
      split at hk
      · obtain ⟨msg₁, h₁, rfl⟩ := Option.map_eq_some_iff.1 hk
        rw [(hf msg₁).2]; exact h.agree h₁
      · exact h.agree hk
    · obtain ⟨msg', hm'⟩ := h.held hk ht hp
      show ∃ msg', (b.fcm.modifyMessage n f).messages[k]? = some msg'
      rw [hq, hm']
      split <;> exact ⟨_, rfl⟩
  | save envelope state cause => exact h.insertRow hb envelope.sequenceId (Addressed.receives cause) hdir
  | reject envelope state type => exact h.insertRow hb envelope.sequenceId (by rw [type]; intro h; cases h) hdir
  | deliver bal =>
    rename_i msg m
    have hwait : Waiting b.toStores msg := hb.debt
    obtain ⟨row, hr, -, hst⟩ := hwait.saved
    refine ⟨hdir, h.agree, h.held, fun {s m' k msg'} hs hk => ?_⟩
    rcases bal_setBal hs with ⟨rfl, rfl⟩ | ⟨-, hs⟩
    · rw [MessageManager.addMessage_getElem? _ (hwait.bal bal)] at hk
      split at hk
      · rename_i hkn; exact ⟨row, hkn ▸ hr, by rw [hst]; rfl⟩
      · exact h.pendingBal bal hk
    · exact h.pendingBal hs hk
  | markBal bal held sendable type =>
    refine h.setStateBal hb hcfg bal held hdir fun k msg' hk => ⟨?_, fun _ => rfl⟩
    rw [MessageManager.mark_getElem?] at hk
    split at hk
    · obtain ⟨msg₁, h₁, -⟩ := Option.map_eq_some_iff.1 hk; exact ⟨msg₁, h₁⟩
    · exact ⟨_, hk⟩
  | remark resend state type count =>
    obtain ⟨held, hheld, -⟩ := resend.held
    exact h.setStateBal hb hcfg resend.bal hheld hdir fun k msg' hk => ⟨⟨msg', hk⟩, fun _ => rfl⟩
  | settleBal bal held =>
    refine h.setStateBal hb hcfg bal held hdir fun k msg' hk => ?_
    obtain ⟨h₁, h₂⟩ := MessageManager.of_without hk
    exact ⟨⟨msg', h₁⟩, fun hkn => absurd hkn h₂⟩
  | exhaustBal resend first out => exact absurd (hpat.bal first) out
  | dropBal bal held first out => exact absurd (hpat.bal first) out
  | touchBal n f bal hf =>
    refine ⟨hdir, h.agree, h.held, fun {s m' k msg'} hs hk => ?_⟩
    rcases bal_setBal hs with ⟨rfl, rfl⟩ | ⟨-, hs⟩
    · rw [MessageManager.modifyMessage_getElem?] at hk
      split at hk
      · obtain ⟨msg₁, h₁, -⟩ := Option.map_eq_some_iff.1 hk; exact h.pendingBal bal h₁
      · exact h.pendingBal bal hk
    · exact h.pendingBal hs hk
  | _ => exact ⟨hdir, h.agree, h.held, h.pendingBal⟩

theorem Onward.act (hcfg : fcmSessionId ∉ cfg) (hpat : NoneExhausted i b₀.toStores)
    (hrows : RowsStay b₀.toStores b.toStores) (hb : Base cfg b d) (hc : Cycle b.toStores)
    (h : Onward i b₀.toStores b.toStores) {b' : Books} {d' : Debt} (ha : Act i b₀ b d b' d') :
    Onward i b₀.toStores b'.toStores := by
  cases ha with
  | accept mid gid sid data hm source request id =>
    rename_i msg
    have hseq : msg.sequenceId = b.counter + 1 := by rw [hm]; rfl
    exact (h.insertRow (.ofMessage msg) (hb.freshRow_of hseq)).rows rfl
  | mark held sendable =>
    obtain ⟨row, hr, hp⟩ := hc.rowOf hb held
    exact (h.setState hrows hr hp (Or.inl rfl)).rows rfl
  | settle settles fcm log names =>
    have ⟨mid, hset, hf⟩ := settles
    obtain ⟨row, hr, hp⟩ := hc.rowOf hb (hb.fcm.find (fcm ▸ hf)).2.1
    exact (h.setState hrows hr hp (Or.inr (Or.inl ⟨_, settles, rfl⟩))).rows rfl
  | exhaust held out within cause => exact absurd hpat.fcm out
  | save envelope state cause => exact h.insertRow _ (hb.freshRow_of envelope.sequenceId)
  | reject envelope => exact h.insertRow _ (hb.freshRow_of envelope.sequenceId)
  | markBal bal held sendable type =>
    obtain ⟨row, hr, hp⟩ := hc.pendingBal bal held
    exact (h.setState hrows hr hp (Or.inl rfl)).rows rfl
  | remark resend state type count =>
    obtain ⟨held, hheld, -⟩ := resend.held
    obtain ⟨row, hr, hp⟩ := hc.pendingBal resend.bal hheld
    exact (h.setState hrows hr hp (Or.inl rfl)).rows rfl
  | settleBal bal held =>
    obtain ⟨row, hr, hp⟩ := hc.pendingBal bal held
    exact (h.setState hrows hr hp (Or.inr (Or.inr (hc.directed.not_downstream hb hcfg bal held hr)))).rows rfl
  | exhaustBal resend first out => exact absurd (hpat.bal first) out
  | _ => exact h.rows rfl

/-! ## Steps -/

/-- The scans that the next load of `__fcmMsgManager` gets are complete, and no retry limit is in force. -/
structure Ordinary (b : Stores) (i : Input) : Prop where
  scan : (i.env.scan fcmSessionId).Complete
  retries : NoneExhausted i b

/-- A process that starts on a cycle has one. -/
theorem Cycle.restart {env : Env} (h : Addressed b.rows) (hscan : (env.scan fcmSessionId).Complete) {b' : Books}
    (hr : Restarted cfg env b b') : Cycle b'.toStores := by
  obtain ⟨db, hdb, -, hf, hbal⟩ := hr.fresh
  have hrow : ∀ n, b'.rows n = db.rows[n]? := fun n => by rw [hr.rows, hdb]
  have haddr : Addressed b'.rows := fun n row hn => h n row (hr.rows ▸ hn)
  refine ⟨.restart h hr, fun {n msg} hn => ?_, fun {n row} hn ht hp => ?_, fun {sid m n msg} hm hn => ?_⟩
  · obtain ⟨row, h1, -, -, rfl⟩ := hf.held n msg hn
    exact ⟨row, (hrow n).trans h1, rfl⟩
  · exact ⟨_, hf.all hscan n row ((hrow n).symm.trans hn) hp (haddr n row hn ht)⟩
  · obtain ⟨row, h1, h2, -⟩ := (hbal sid m hm).held n msg hn
    exact ⟨row, (hrow n).trans h1, h2⟩

theorem Cycle.step {w : World} (hcfg : fcmSessionId ∉ cfg) (h₀ : Base cfg (books w) .none)
    (hi : Ordinary (books w).toStores i) (h : Cycle (books w).toStores) :
    Cycle (books (step cfg w i)).toStores ∧ Onward i (books w).toStores (books (step cfg w i)).toStores := by
  obtain ⟨b, hr, hend⟩ := step_reach h₀ i
  have hb : Cycle b.toStores ∧ Onward i (books w).toStores b.toStores :=
    hr.invariant_base (P := fun b _ => Cycle b.toStores ∧ Onward i (books w).toStores b.toStores) h₀
      ⟨h, .refl i _⟩ fun hb hrows _ hP ha =>
        ⟨hP.1.act hcfg hi.retries hb ha, hP.2.act hcfg hi.retries hrows hb hP.1 ha⟩
  rcases hend with ⟨-, he⟩ | ⟨-, he⟩
  · rw [← he] at hb; exact hb
  · exact ⟨.restart hb.1.directed.rows hi.scan he, hb.2.rows he.rows⟩

theorem Cycle.boot {env : Env} {db : Database} (hdb : Addressed (db.rows[·]?)) (hscan : (env.scan fcmSessionId).Complete) :
    Cycle (stores (boot cfg env db).toServer) :=
  .restart (b := books (Gimmm.boot cfg env db)) hdb hscan
    (start_restarted (w := Gimmm.boot cfg env db) rfl rfl rfl rfl rfl)

end

/-! ## FCM message ids -/

section
variable {cfg : List SessionId} {i : Input} {b₀ b : Books} {d : Debt}

/-- The message id in the document of a message. -/
def Message.documentId (msg : Message) : FcmMessageId := Json.toString (msg.payload.value fcmfieldnames.messageId)

/-- Downstream messages are filed under the message ids of their documents. -/
def Labelled (b : Stores) : Prop :=
  ∀ (n : Int) (msg : Message), b.fcm.messages[n]? = some msg → msg.type = .downstream → msg.fcmMessageId = msg.documentId

/-- Where the message `msg` of FCM's queue comes from. -/
inductive Origin (i : Input) (b₀ : Stores) (n : Int) (msg : Message) : Prop where
  | held (msg₀ : Message) (held : b₀.fcm.messages[n]? = some msg₀) (fixed : msg.fixed = msg₀.fixed) : Origin i b₀ n msg
  | asked (request : i.event.uploads = some msg.payload) (label : msg.fcmMessageId = msg.documentId) : Origin i b₀ n msg

theorem documentId_of_fixed {msg msg' : Message} (h : msg'.fixed = msg.fixed) : msg'.documentId = msg.documentId := by
  have hpayload : msg'.payload = msg.payload := congrArg Message.Fixed.payload h
  unfold Message.documentId
  rw [hpayload]

theorem Origin.of_fixed {b₀ : Stores} {n : Int} {msg msg' : Message} (h : Origin i b₀ n msg) (hf : msg'.fixed = msg.fixed) :
    Origin i b₀ n msg' := by
  cases h with
  | held msg₀ held fixed => exact .held msg₀ held (hf.trans fixed)
  | asked request label =>
    have hpayload : msg'.payload = msg.payload := congrArg Message.Fixed.payload hf
    have hid : msg'.fcmMessageId = msg.fcmMessageId := congrArg Message.Fixed.fcmMessageId hf
    exact .asked (hpayload ▸ request) (by rw [hid, documentId_of_fixed hf]; exact label)

theorem Origin.modifyMessage {b₀ : Stores} {m : MessageManager} {k : Int} {f : Message → Message}
    (hf : ∀ msg, (f msg).fixed = msg.fixed) (h : ∀ (n : Int) (msg : Message), m.messages[n]? = some msg → Origin i b₀ n msg)
    (n : Int) (msg : Message) (hn : (m.modifyMessage k f).messages[n]? = some msg) : Origin i b₀ n msg := by
  rw [MessageManager.modifyMessage_getElem?] at hn
  split at hn
  · obtain ⟨msg₁, h₁, rfl⟩ := Option.map_eq_some_iff.1 hn
    exact (h n msg₁ h₁).of_fixed (hf msg₁)
  · exact h n msg hn

theorem Reach.origin (h₀ : Base cfg b₀ .none) (hr : Reach i b₀ b d) :
    ∀ (n : Int) (msg : Message), b.fcm.messages[n]? = some msg → Origin i b₀.toStores n msg := by
  refine hr.invariant_base (P := fun b _ => ∀ (n : Int) (msg : Message), b.fcm.messages[n]? = some msg →
    Origin i b₀.toStores n msg) h₀ (fun n msg hn => .held msg hn rfl) ?_
  intro b d b' d' hb hrows hb' hP ha n msg hn
  cases ha with
  | accept mid gid sid data hm source request id =>
    rename_i msg₁
    have hnew : b.fcm.messages[msg₁.sequenceId]? = none := by rw [hm]; exact hb.fresh
    have hn : (b.fcm.addMessage msg₁.sequenceId msg₁).messages[n]? = some msg := hn
    rw [MessageManager.addMessage_getElem? msg₁ hnew] at hn
    split at hn
    · cases hn
      exact .asked (by rw [hm]; exact request) (by rw [hm]; exact id)
    · exact hP n msg hn
  | mark held sendable => exact Origin.modifyMessage (f := (·.setState .pendingAck)) (fun _ => rfl) hP n msg hn
  | settle settles fcm log names => exact hP n msg (MessageManager.of_without hn).1
  | drop held out cause => exact hP n msg (MessageManager.of_without hn).1
  | touchDown k f hf => exact Origin.modifyMessage (fun msg => (hf msg).1) hP n msg hn
  | _ => exact hP n msg hn

/-- If the process ends, no downstream message that is in the queue or requested has a NUL in its FCM message id. -/
structure KeepsIds (w : World) (i : Input) : Prop where
  held : survives w i = false → ∀ (n : Int) (msg : Message), w.app.fcmMsgManager.messages[n]? = some msg →
    msg.type = .downstream → NoNul msg.fcmMessageId
  request : survives w i = false → ∀ data, i.event.uploads = some data →
    NoNul (Json.toString (data.value fcmfieldnames.messageId))

theorem Labelled.reach (h₀ : Base cfg b₀ .none) (h : Labelled b₀.toStores) (hr : Reach i b₀ b d) : Labelled b.toStores := by
  intro n msg hn htype
  cases hr.origin h₀ n msg hn with
  | held msg₀ held fixed =>
    have hid : msg.fcmMessageId = msg₀.fcmMessageId := congrArg Message.Fixed.fcmMessageId fixed
    rw [hid, documentId_of_fixed fixed]
    exact h n msg₀ held ((congrArg Message.Fixed.type fixed).symm.trans htype)
  | asked request label => exact label

theorem Labelled.step {w : World} (hcfg : fcmSessionId ∉ cfg) (h₀ : Base cfg (books w) .none)
    (hi : Ordinary (books w).toStores i) (hids : KeepsIds w i) (hc : Cycle (books w).toStores)
    (h : Labelled (books w).toStores) : Labelled (books (step cfg w i)).toStores := by
  obtain ⟨b, hr, ⟨-, he⟩ | ⟨hdead, he⟩⟩ := step_reach h₀ i
  · rw [he]
    exact h.reach h₀ hr
  · have hbase := (hr.base h₀).1
    have hcycle : Cycle b.toStores := hr.invariant_base (P := fun b _ => Cycle b.toStores) h₀ hc fun hb _ _ hP ha =>
      hP.act hcfg hi.retries hb ha
    obtain ⟨db, hdb, -, hf, -⟩ := he.fresh
    intro n msg hn htype
    -- what is loaded is the row of a message that the queue held
    obtain ⟨row, h1, h2, -, rfl⟩ := hf.held n msg hn
    have hrow : b.rows n = some row := (hdb n).symm.trans h1
    obtain ⟨old, hold⟩ := hcycle.held hrow htype h2
    obtain ⟨-, ⟨row', hrow', hsaves⟩, -⟩ := hbase.fcmHeld hold
    rw [hbase.fcm.key hold] at hrow'
    obtain rfl : row = row' := Option.some.inj (hrow.symm.trans hrow')
    have htype' : old.type = .downstream := hsaves.type.symm.trans htype
    have hnonul : NoNul old.fcmMessageId := by
      cases hr.origin h₀ n old hold with
      | held msg₀ held fixed =>
        rw [show old.fcmMessageId = _ from congrArg Message.Fixed.fcmMessageId fixed]
        exact hids.held hdead n msg₀ held ((congrArg Message.Fixed.type fixed).symm.trans htype')
      | asked request label =>
        rw [label]
        exact hids.request hdead _ request
    calc row.fcmMessageId = cString old.fcmMessageId := hsaves.fcmMessageId
      _ = old.fcmMessageId := cString_of_noNul hnonul
      _ = old.documentId := h.reach h₀ hr n old hold htype'
      _ = Json.toString (row.payload.value fcmfieldnames.messageId) := by rw [hsaves.payload]; rfl

end

/-! ## Runs -/

/-- The pending downstream rows of the table carry the message ids of their documents. -/
def RowsLabelled (db : Database) : Prop :=
  ∀ (n : Int) (row : Row), db.rows[n]? = some row → row.type = .downstream → row.state.pending = true →
    row.fcmMessageId = Json.toString (row.payload.value fcmfieldnames.messageId)

theorem Labelled.boot {cfg : List SessionId} {env : Env} {db : Database} (hdb : RowsLabelled db) :
    Labelled (stores (boot cfg env db).toServer) := by
  have hr : Restarted cfg env (books (Gimmm.boot cfg env db)) (books (Gimmm.boot cfg env db)) :=
    start_restarted rfl rfl rfl rfl rfl
  obtain ⟨db', hdb', -, hf, -⟩ := hr.fresh
  intro n msg hn htype
  obtain ⟨row, h1, h2, -, rfl⟩ := hf.held n msg hn
  exact hdb n row ((hdb' n).symm.trans h1) htype h2

/-- The pending downstream rows are the downstream messages of `__fcmMsgManager`, in the same states. -/
def RowsAreHeld (s : Server) : Prop :=
  ∀ (n : Int) (state : MessageState),
    (∃ row, s.db.rows[n]? = some row ∧ row.type = .downstream ∧ row.state = state ∧ state.pending = true) ↔
      ∃ msg, s.app.fcmMsgManager.messages[n]? = some msg ∧ msg.sequenceId = n ∧ msg.type = .downstream ∧ msg.state = state

/-- The downstream message `msg` is under `n` in `__fcmMsgManager` in `s`, and no such message is in `s'`. -/
def Leaves (s s' : Server) (n : Int) (msg : Message) : Prop :=
  s.app.fcmMsgManager.messages[n]? = some msg ∧ msg.type = .downstream ∧
    ¬ ∃ msg', s'.app.fcmMsgManager.messages[n]? = some msg' ∧ msg'.type = .downstream

theorem Cycle.rowsAreHeld {cfg : List SessionId} {w : World} (hb : Base cfg (books w) .none)
    (h : Cycle (stores w.toServer)) : RowsAreHeld w.toServer := by
  intro n state
  constructor
  · rintro ⟨row, hr, ht, rfl, hp⟩
    obtain ⟨msg, hm⟩ := h.held hr ht hp
    obtain ⟨row', hr', hs⟩ := h.agree hm
    obtain ⟨-, ⟨row'', hr'', hsv⟩, -⟩ := hb.fcmHeld hm
    rw [hb.fcm.key hm] at hr''
    have hr : (stores w.toServer).rows n = some row := hr
    have hr'' : (stores w.toServer).rows n = some row'' := hr''
    rw [hr] at hr' hr''
    cases hr'; cases hr''
    exact ⟨msg, hm, hb.fcm.key hm, hsv.type.symm.trans ht, hs.symm⟩
  · rintro ⟨msg, hm, hseq, ht, rfl⟩
    obtain ⟨row, hr, hs⟩ := h.agree hm
    obtain ⟨hp, ⟨row', hr', hsv⟩, -⟩ := hb.fcmHeld hm
    rw [hb.fcm.key hm] at hr'
    have hr' : (stores w.toServer).rows n = some row' := hr'
    rw [hr] at hr'
    cases hr'
    exact ⟨row, hr, hsv.type.trans ht, hs, hp⟩

/-- A message that leaves the queue is the one that the event settles. -/
theorem Onward.leaves {cfg : List SessionId} {w w' : World} {i : Input} (hb : Base cfg (books w) .none)
    (hrows : RowsStay (stores w.toServer) (stores w'.toServer)) (h : Cycle (stores w.toServer))
    (hheld : RowsAreHeld w'.toServer) (ho : Onward i (stores w.toServer) (stores w'.toServer)) {n : Int} {msg : Message}
    (hl : Leaves w.toServer w'.toServer n msg) :
    ∃ s, i.event.settles = some (msg.fcmMessageId, s) ∧
      w.app.fcmMsgManager.findMessageWithFcmMsgId msg.fcmMessageId = .ok msg ∧
      ∃ row, w'.db.rows[n]? = some row ∧ row.state = s := by
  obtain ⟨hm, ht, hnone⟩ := hl
  obtain ⟨row, hr, htype, hs, hp⟩ := (h.rowsAreHeld hb n msg.state).2 ⟨msg, hm, hb.fcm.key hm, ht, rfl⟩
  rcases ho.pending hr htype (hs ▸ hp) with ⟨row₁, h₁, hp₁⟩ | ⟨old, s, ⟨mid, hset, hfind⟩, hseq, h3⟩
  · obtain ⟨s, hs₁⟩ := hrows n row hr
    rw [h₁] at hs₁
    cases hs₁
    obtain ⟨msg', hm', -, ht', -⟩ := (hheld n s).1 ⟨_, h₁, htype, rfl, hp₁⟩
    exact absurd ⟨msg', hm', ht'⟩ hnone
  · obtain ⟨-, hold, rfl⟩ := hb.fcm.find hfind
    have hm : (stores w.toServer).fcm.messages[n]? = some msg := hm
    have hold : (stores w.toServer).fcm.messages[old.sequenceId]? = some old := hold
    rw [hseq, hm] at hold
    cases hold
    exact ⟨s, hset, hfind, h3⟩

/-- No FCM message id that a restart would read back has a NUL. -/
def World.plainIds (w : World) (i : Input) : Bool :=
  (w.app.fcmMsgManager.messages.toList.all fun p => decide (NoNul p.2.fcmMessageId)) &&
    i.event.uploads.all fun data => decide (NoNul (Json.toString (data.value fcmfieldnames.messageId)))

theorem keepsIds_of_plainIds {w : World} {i : Input} (h : w.plainIds i = true) : KeepsIds w i := by
  unfold World.plainIds at h
  rw [Bool.and_eq_true, List.all_eq_true] at h
  obtain ⟨hheld, hrequest⟩ := h
  refine ⟨fun _ n msg hn _ => ?_, fun _ data hdata => ?_⟩
  · exact of_decide_eq_true (hheld (n, msg) (ExtTreeMap.mem_toList_iff_getElem?_eq_some.2 hn))
  · rw [hdata] at hrequest
    exact of_decide_eq_true hrequest

/-- A downstream message, a restart, and the ack of the message. -/
def ackedLater : List Input :=
  loggedOn "bal" ++ [.quiet (.balFrame 0 (balDownstream "a" "")), .quiet .restart, .quiet (.fcmAck (fcmAck "a"))]

/-- A downstream message with a NUL in its FCM message id and a restart, then its own ack and that of another id. -/
def renamed : List Input :=
  loggedOn "bal" ++ [.quiet (.balFrame 0 (balDownstream "a\x00b" "")), .quiet .restart,
    .quiet (.fcmAck (fcmAck "a\x00b")), .quiet (.fcmAck (fcmAck "a"))]

end Gimmm

/-
The invariant of all books, whatever fails: rows under their own sequence ids up to the counter,
well-formed managers that share no message, and a saved row behind every message that a manager holds,
that a retry timer captures or that a handler still has to forward. Every act keeps it.
-/
import Gimmm.Flow.Act

namespace Gimmm

open Std CString

/-- The table has the row of `msg`. -/
def Saved (b : Stores) (msg : Message) : Prop := ∃ row, b.rows msg.sequenceId = some row ∧ row.Saves msg

/-- What is known of a message in the queue of `sid`. -/
structure Kept (b : Stores) (sid : SessionId) (msg : Message) : Prop where
  pending : msg.state.pending = true
  saved : Saved b msg
  target : msg.targetSessionId = sid

/-- What is known of a saved message that is still to be forwarded. -/
structure Waiting (b : Stores) (msg : Message) : Prop where
  saved : ∃ row, b.rows msg.sequenceId = some row ∧ row.Saves msg ∧ row.state = .new
  state : msg.state = .new
  type : msg.type.balBound = true
  fcm : b.fcm.messages[msg.sequenceId]? = none
  bal : ∀ {sid : SessionId} {m : MessageManager}, b.bal sid = some m → m.messages[msg.sequenceId]? = none

/-- What is known of the message that a debt is about. -/
def Sound (b : Stores) : Debt → Prop
  | .none => True
  | .owed msg s => (∃ row, b.rows msg.sequenceId = some row ∧ row.Saves msg ∧ row.state = s) ∧
      msg.targetSessionId = fcmSessionId
  | .saved msg => Waiting b msg

/-- Rows under their own sequence ids and not above the counter; well-formed managers whose messages
are kept, each in one queue only; retry timers and uploads of saved messages only; a sound debt. -/
structure Base (cfg : List SessionId) (b : Books) (d : Debt) : Prop where
  rows : ∀ {n : Int} {row : Row}, b.rows n = some row → row.sequenceId = n ∧ n ≤ b.counter
  fcm : b.fcm.WF
  fcmHeld : ∀ {n : Int} {msg : Message}, b.fcm.messages[n]? = some msg → Kept b.toStores fcmSessionId msg
  bal : ∀ {sid : SessionId} {m : MessageManager}, b.bal sid = some m → m.WF
  balHeld : ∀ {sid : SessionId} {m : MessageManager} {n : Int} {msg : Message}, b.bal sid = some m →
    m.messages[n]? = some msg → Kept b.toStores sid msg
  oneQueue : ∀ {sid sid' : SessionId} {m m' : MessageManager} {n : Int} {msg msg' : Message}, b.bal sid = some m →
    m.messages[n]? = some msg → b.bal sid' = some m' → m'.messages[n]? = some msg' → sid = sid'
  apart : fcmSessionId ∉ cfg → ∀ {sid : SessionId} {m : MessageManager} {n : Int} {msg : Message}, b.bal sid = some m →
    m.messages[n]? = some msg → b.fcm.messages[n]? = none
  known : ∀ sid, (∃ m, b.bal sid = some m) ↔ sid ∈ cfg
  down : ∀ {msg : Message}, .retryDownstream msg ∈ b.timers → Saved b.toStores msg ∧ msg.targetSessionId = fcmSessionId
  up : ∀ {msg : Message}, .retryUpstream msg ∈ b.timers → Saved b.toStores msg ∧ msg.targetSessionId ∈ cfg
  uploads : ∀ {o : Obs} {msg : Message}, o ∈ b.log → o.what = .upload msg → Saved b.toStores msg
  debt : Sound b.toStores d

theorem Saved.fixed {b : Stores} {msg msg' : Message} (h : Saved b msg) (hf : msg'.fixed = msg.fixed) :
    Saved b msg' := by
  obtain ⟨row, hr, hs⟩ := h
  have : msg'.sequenceId = msg.sequenceId := congrArg Message.Fixed.sequenceId hf
  exact ⟨row, this ▸ hr, hs.fixed hf⟩

theorem Kept.fixed {b : Stores} {sid : SessionId} {msg msg' : Message} (h : Kept b sid msg)
    (hf : msg'.fixed = msg.fixed) (hp : msg'.state.pending = true) : Kept b sid msg' :=
  ⟨hp, h.saved.fixed hf, (congrArg Message.Fixed.targetSessionId hf).trans h.target⟩

/-- The saved rows of `b` are still there in `b'`, perhaps in another state. -/
def RowsStay (b b' : Stores) : Prop :=
  ∀ (n : Int) (row : Row), b.rows n = some row → ∃ s, b'.rows n = some { row with state := s }

theorem RowsStay.saved {b b' : Stores} (h : RowsStay b b') {msg : Message} (hs : Saved b msg) : Saved b' msg := by
  obtain ⟨row, hr, hs⟩ := hs
  obtain ⟨s, hr'⟩ := h _ _ hr
  exact ⟨_, hr', hs.state s⟩

theorem RowsStay.kept {b b' : Stores} (h : RowsStay b b') {sid : SessionId} {msg : Message} (hk : Kept b sid msg) :
    Kept b' sid msg :=
  ⟨hk.pending, h.saved hk.saved, hk.target⟩

theorem RowsStay.setState (b : Books) (n : Int) (s : MessageState) :
    RowsStay b.toStores (b.setState n s).toStores := by
  intro k row hk
  show ∃ s', Function.update b.rows n _ k = _
  by_cases hn : k = n
  · subst hn; rw [Function.update_self, hk]; exact ⟨s, rfl⟩
  · rw [Function.update_of_ne hn, hk]; exact ⟨row.state, rfl⟩

theorem RowsStay.insertRow {b : Books} (row : Row) (h : b.rows (b.counter + 1) = none)
    (hn : row.sequenceId = b.counter + 1) : RowsStay b.draw.toStores (b.draw.insertRow row).toStores := by
  intro k r hk
  show ∃ s, Function.update b.rows row.sequenceId _ k = _
  rw [Function.update_of_ne]
  · exact ⟨r.state, hk⟩
  · rintro rfl
    have hk : b.rows row.sequenceId = some r := hk
    rw [hn, h] at hk; cases hk

theorem bal_setBal {b : Books} {sid s : SessionId} {m m' : MessageManager} (h : (b.setBal sid m).bal s = some m') :
    s = sid ∧ m' = m ∨ s ≠ sid ∧ b.bal s = some m' := by
  have h : Function.update b.bal sid (some m) s = some m' := h
  by_cases hs : s = sid
  · subst hs; rw [Function.update_self] at h; cases h; exact Or.inl ⟨rfl, rfl⟩
  · rw [Function.update_of_ne hs] at h; exact Or.inr ⟨hs, h⟩

namespace Base

variable {cfg : List SessionId} {b : Books} {d : Debt}

/-! ## Sequence ids -/

theorem held_le (h : Base cfg b d) {n : Int} {msg : Message} (hn : b.fcm.messages[n]? = some msg) :
    n ≤ b.counter := by
  obtain ⟨row, hr, -⟩ := (h.fcmHeld hn).saved
  exact h.fcm.key hn ▸ (h.rows hr).2

theorem balHeld_le (h : Base cfg b d) {sid : SessionId} {m : MessageManager} {n : Int} {msg : Message}
    (hm : b.bal sid = some m) (hn : m.messages[n]? = some msg) : n ≤ b.counter := by
  obtain ⟨row, hr, -⟩ := (h.balHeld hm hn).saved
  exact (h.bal hm).key hn ▸ (h.rows hr).2

theorem fresh (h : Base cfg b d) : b.fcm.messages[b.counter + 1]? = none := by
  cases hn : b.fcm.messages[b.counter + 1]? with
  | none => rfl
  | some msg => have := h.held_le hn; omega

theorem freshBal (h : Base cfg b d) {sid : SessionId} {m : MessageManager} (hm : b.bal sid = some m) :
    m.messages[b.counter + 1]? = none := by
  cases hn : m.messages[b.counter + 1]? with
  | none => rfl
  | some msg => have := h.balHeld_le hm hn; omega

theorem freshRow (h : Base cfg b d) : b.rows (b.counter + 1) = none := by
  cases hn : b.rows (b.counter + 1) with
  | none => rfl
  | some row => have := (h.rows hn).2; omega

theorem freshRow_of (h : Base cfg b d) {n : Int} (hn : n = b.counter + 1) : b.rows n = none := hn ▸ h.freshRow

/-! ## Changes -/

theorem pay (h : Base cfg b d) : Base cfg b .none := { h with debt := trivial }

theorem draw (h : Base cfg b d) : Base cfg b.draw d where
  rows hr := ⟨(h.rows hr).1, Int.le_trans (h.rows hr).2 (Int.le_of_lt (Int.lt_succ _))⟩
  fcm := h.fcm
  fcmHeld hn := ⟨(h.fcmHeld hn).pending, (h.fcmHeld hn).saved, (h.fcmHeld hn).target⟩
  bal := h.bal
  balHeld hm hn := ⟨(h.balHeld hm hn).pending, (h.balHeld hm hn).saved, (h.balHeld hm hn).target⟩
  oneQueue := h.oneQueue
  apart := h.apart
  known := h.known
  down := h.down
  up := h.up
  uploads := h.uploads
  debt := by
    cases d with
    | none => trivial
    | owed msg s => exact h.debt
    | saved msg => exact ⟨h.debt.saved, h.debt.state, h.debt.type, h.debt.fcm, h.debt.bal⟩

/-- The table changes, and no saved row is lost. -/
theorem changeRows (h : Base cfg b .none) {rows : Int → Option Row}
    (hr : ∀ {n : Int} {row : Row}, rows n = some row → row.sequenceId = n ∧ n ≤ b.counter)
    (hs : RowsStay b.toStores { b.toStores with rows := rows }) : Base cfg { b with rows := rows } .none where
  rows := hr
  fcm := h.fcm
  fcmHeld hn := hs.kept (h.fcmHeld hn)
  bal := h.bal
  balHeld hm hn := hs.kept (h.balHeld hm hn)
  oneQueue := h.oneQueue
  apart := h.apart
  known := h.known
  down ht := ⟨hs.saved (h.down ht).1, (h.down ht).2⟩
  up ht := ⟨hs.saved (h.up ht).1, (h.up ht).2⟩
  uploads ho hw := hs.saved (h.uploads ho hw)
  debt := trivial

theorem setState (h : Base cfg b .none) (n : Int) (s : MessageState) : Base cfg (b.setState n s) .none := by
  refine h.changeRows (fun {k row} hk => ?_) (RowsStay.setState b n s)
  by_cases hn : k = n
  · subst hn
    rw [Function.update_self] at hk
    obtain ⟨row', hr, rfl⟩ := Option.map_eq_some_iff.1 hk
    exact ⟨(h.rows hr).1, (h.rows hr).2⟩
  · rw [Function.update_of_ne hn] at hk; exact h.rows hk

/-- A row is inserted under the next sequence id. -/
theorem insertRow (h : Base cfg b d) (row : Row) (hn : row.sequenceId = b.counter + 1) :
    Base cfg (b.draw.insertRow row) .none := by
  refine h.pay.draw.changeRows (fun {k r} hk => ?_) (RowsStay.insertRow row h.freshRow hn)
  by_cases hkn : k = row.sequenceId
  · subst hkn
    rw [Function.update_self] at hk
    cases hk; exact ⟨rfl, Int.le_of_eq hn⟩
  · rw [Function.update_of_ne hkn] at hk; exact h.draw.rows hk

/-- The queue of FCM changes; what it gets is in no queue of a session. -/
theorem setFcm (h : Base cfg b d) {m : MessageManager} (hm : m.WF)
    (hk : ∀ (n : Int) (msg : Message), m.messages[n]? = some msg → Kept b.toStores fcmSessionId msg)
    (hnew : ∀ n : Int, b.fcm.messages[n]? = none → m.messages[n]? = none ∨
      d = .none ∧ ∀ sid m', b.bal sid = some m' → m'.messages[n]? = none) :
    Base cfg (b.setFcm m) d where
  rows := h.rows
  fcm := hm
  fcmHeld hn := ⟨(hk _ _ hn).pending, (hk _ _ hn).saved, (hk _ _ hn).target⟩
  bal := h.bal
  balHeld hm' hn := ⟨(h.balHeld hm' hn).pending, (h.balHeld hm' hn).saved, (h.balHeld hm' hn).target⟩
  oneQueue := h.oneQueue
  apart hcfg sid m' n msg hb hn := by
    rcases hnew n (h.apart hcfg hb hn) with h1 | ⟨-, h1⟩
    · exact h1
    · rw [h1 sid m' hb] at hn; cases hn
  known := h.known
  down := h.down
  up := h.up
  uploads := h.uploads
  debt := by
    cases d with
    | none => trivial
    | owed msg s => exact h.debt
    | saved msg =>
      refine ⟨h.debt.saved, h.debt.state, h.debt.type, ?_, h.debt.bal⟩
      rcases hnew _ h.debt.fcm with h1 | ⟨h1, -⟩
      · exact h1
      · cases h1

/-- The queue of a session changes; what it gets is in no other queue. -/
theorem setBal (h : Base cfg b d) {sid : SessionId} {m₀ m : MessageManager} (hm₀ : b.bal sid = some m₀) (hm : m.WF)
    (hk : ∀ (n : Int) (msg : Message), m.messages[n]? = some msg → Kept b.toStores sid msg)
    (hnew : ∀ n : Int, m₀.messages[n]? = none → m.messages[n]? = none ∨
      d = .none ∧ b.fcm.messages[n]? = none ∧ ∀ sid' m', b.bal sid' = some m' → m'.messages[n]? = none) :
    Base cfg (b.setBal sid m) d where
  rows := h.rows
  fcm := h.fcm
  fcmHeld hn := ⟨(h.fcmHeld hn).pending, (h.fcmHeld hn).saved, (h.fcmHeld hn).target⟩
  bal {s m'} hs := by
    rcases bal_setBal hs with ⟨rfl, rfl⟩ | ⟨-, hs⟩
    · exact hm
    · exact h.bal hs
  balHeld {s m' n msg} hs hn := by
    rcases bal_setBal hs with ⟨rfl, rfl⟩ | ⟨-, hs⟩
    · exact ⟨(hk _ _ hn).pending, (hk _ _ hn).saved, (hk _ _ hn).target⟩
    · exact ⟨(h.balHeld hs hn).pending, (h.balHeld hs hn).saved, (h.balHeld hs hn).target⟩
  oneQueue {s s' m₁ m₂ n msg msg'} hs hn hs' hn' := by
    -- an id of `m` was in `m₀`, or it is in no other queue
    have hother : ∀ {s₁ : SessionId} {m₁ : MessageManager} {msg₁ msg₂ : Message}, b.bal s₁ = some m₁ →
        m₁.messages[n]? = some msg₁ → m.messages[n]? = some msg₂ → s₁ = sid := by
      intro s₁ m₁ msg₁ msg₂ hs₁ hn₁ hn₂
      cases h₀ : m₀.messages[n]? with
      | some msg₀ => exact h.oneQueue hs₁ hn₁ hm₀ h₀
      | none =>
        rcases hnew n h₀ with h1 | ⟨-, -, h1⟩
        · rw [h1] at hn₂; cases hn₂
        · rw [h1 s₁ m₁ hs₁] at hn₁; cases hn₁
    rcases bal_setBal hs with ⟨rfl, rfl⟩ | ⟨-, hs₁⟩
    · rcases bal_setBal hs' with ⟨rfl, rfl⟩ | ⟨-, hs₁'⟩
      · rfl
      · exact (hother hs₁' hn' hn).symm
    · rcases bal_setBal hs' with ⟨rfl, rfl⟩ | ⟨-, hs₁'⟩
      · exact hother hs₁ hn hn'
      · exact h.oneQueue hs₁ hn hs₁' hn'
  apart hcfg s m₁ n msg hs hn := by
    rcases bal_setBal hs with ⟨rfl, rfl⟩ | ⟨-, hs⟩
    · cases h₀ : m₀.messages[n]? with
      | some msg₀ => exact h.apart hcfg hm₀ h₀
      | none =>
        rcases hnew n h₀ with h1 | ⟨-, h1, -⟩
        · rw [h1] at hn; cases hn
        · exact h1
    · exact h.apart hcfg hs hn
  known s := by
    rw [← h.known s]
    by_cases hs : s = sid
    · subst hs; exact ⟨fun _ => ⟨m₀, hm₀⟩, fun _ => ⟨m, Function.update_self ..⟩⟩
    · show (∃ m', Function.update b.bal sid (some m) s = some m') ↔ _
      rw [Function.update_of_ne hs]
  down := h.down
  up := h.up
  uploads := h.uploads
  debt := by
    cases d with
    | none => trivial
    | owed msg s => exact h.debt
    | saved msg =>
      refine ⟨h.debt.saved, h.debt.state, h.debt.type, h.debt.fcm, fun {s m'} hs => ?_⟩
      rcases bal_setBal hs with ⟨rfl, rfl⟩ | ⟨-, hs⟩
      · rcases hnew _ (h.debt.bal hm₀) with h1 | ⟨h1, -⟩
        · exact h1
        · cases h1
      · exact h.debt.bal hs

theorem setTimers (h : Base cfg b d) (ts : List Timer) (wr : SessionId → Bool)
    (hd : ∀ msg, .retryDownstream msg ∈ ts → Saved b.toStores msg ∧ msg.targetSessionId = fcmSessionId)
    (hu : ∀ msg, .retryUpstream msg ∈ ts → Saved b.toStores msg ∧ msg.targetSessionId ∈ cfg) :
    Base cfg { b with timers := ts, writable := wr } d where
  rows := h.rows
  fcm := h.fcm
  fcmHeld hn := ⟨(h.fcmHeld hn).pending, (h.fcmHeld hn).saved, (h.fcmHeld hn).target⟩
  bal := h.bal
  balHeld hm hn := ⟨(h.balHeld hm hn).pending, (h.balHeld hm hn).saved, (h.balHeld hm hn).target⟩
  oneQueue := h.oneQueue
  apart := h.apart
  known := h.known
  down := hd _
  up := hu _
  uploads := h.uploads
  debt := by
    cases d with
    | none => trivial
    | owed msg s => exact h.debt
    | saved msg => exact ⟨h.debt.saved, h.debt.state, h.debt.type, h.debt.fcm, h.debt.bal⟩

theorem observe (h : Base cfg b d) {o : Obs} (ho : ∀ msg, o.what = .upload msg → Saved b.toStores msg) :
    Base cfg (b.observe o) d where
  rows := h.rows
  fcm := h.fcm
  fcmHeld := h.fcmHeld
  bal := h.bal
  balHeld := h.balHeld
  oneQueue := h.oneQueue
  apart := h.apart
  known := h.known
  down := h.down
  up := h.up
  uploads ho' hw := by
    rcases List.mem_cons.1 ho' with rfl | ho'
    · exact ho _ hw
    · exact h.uploads ho' hw
  debt := by
    cases d with
    | none => trivial
    | owed msg s => exact h.debt
    | saved msg => exact h.debt

/-! ## Managers -/

theorem kept_modify {m : MessageManager} {sid : SessionId} {n : Int} {f : Message → Message}
    (hf : ∀ msg, (f msg).fixed = msg.fixed ∧ ((f msg).state = msg.state ∨ (f msg).state.pending = true))
    (hk : ∀ (k : Int) (msg : Message), m.messages[k]? = some msg → Kept b.toStores sid msg) (k : Int) (msg : Message)
    (h : (m.modifyMessage n f).messages[k]? = some msg) : Kept b.toStores sid msg := by
  rw [MessageManager.modifyMessage_getElem?] at h
  split at h
  · obtain ⟨msg₀, h₀, rfl⟩ := Option.map_eq_some_iff.1 h
    refine (hk k _ h₀).fixed (hf _).1 ?_
    rcases (hf msg₀).2 with h2 | h2
    · rw [h2]; exact (hk k _ h₀).pending
    · exact h2
  · exact hk k _ h

theorem modify_none {m : MessageManager} {n k : Int} {f : Message → Message} (h : m.messages[k]? = none) :
    (m.modifyMessage n f).messages[k]? = none := by
  rw [MessageManager.modifyMessage_getElem?, h]
  simp

theorem without_none {m : MessageManager} {msg : Message} {k : Int} (h : m.messages[k]? = none) :
    (m.without msg).messages[k]? = none := by
  rw [MessageManager.without_getElem?, h]
  simp

theorem touchDown (h : Base cfg b d) (n : Int) {f : Message → Message}
    (hf : ∀ msg, (f msg).fixed = msg.fixed ∧ (f msg).state = msg.state) :
    Base cfg (b.setFcm (b.fcm.modifyMessage n f)) d :=
  h.setFcm (h.fcm.modifyMessage fun msg => (hf msg).1)
    (kept_modify (fun msg => ⟨(hf msg).1, Or.inl (hf msg).2⟩) fun _ _ => h.fcmHeld)
    fun _ hk => Or.inl (modify_none hk)

theorem touchBal (h : Base cfg b d) {sid : SessionId} {m : MessageManager} (hm : b.bal sid = some m) (n : Int)
    {f : Message → Message} (hf : ∀ msg, (f msg).fixed = msg.fixed ∧ (f msg).state = msg.state) :
    Base cfg (b.setBal sid (m.modifyMessage n f)) d := by
  refine h.setBal hm ((h.bal hm).modifyMessage fun msg => (hf msg).1)
    (kept_modify (fun msg => ⟨(hf msg).1, Or.inl (hf msg).2⟩) fun _ _ => h.balHeld hm) fun k hk => ?_
  exact Or.inl (modify_none hk)

theorem without (h : Base cfg b d) {msg : Message} (hm : b.fcm.messages[msg.sequenceId]? = some msg) :
    Base cfg (b.setFcm (b.fcm.without msg)) d :=
  h.setFcm (h.fcm.without hm) (fun _ _ hk => h.fcmHeld (MessageManager.of_without hk).1)
    fun _ hk => Or.inl (without_none hk)

theorem withoutBal (h : Base cfg b d) {sid : SessionId} {m : MessageManager} {msg : Message} (hb : b.bal sid = some m)
    (hm : m.messages[msg.sequenceId]? = some msg) : Base cfg (b.setBal sid (m.without msg)) d := by
  exact h.setBal hb ((h.bal hb).without hm) (fun _ _ hk => h.balHeld hb (MessageManager.of_without hk).1)
    fun k hk => Or.inl (without_none hk)

/-- What the first fields of a held message say of the books. -/
theorem held_saved (h : Base cfg b d) {msg : Message} (hm : b.fcm.Holds msg) :
    Saved b.toStores msg ∧ msg.targetSessionId = fcmSessionId := by
  obtain ⟨held, h1, h2, -⟩ := hm
  have hk := (h.fcmHeld h1).fixed h2.symm
  exact ⟨(h.fcmHeld h1).saved.fixed h2.symm,
    (congrArg Message.Fixed.targetSessionId h2).symm.trans (h.fcmHeld h1).target⟩

theorem balHeld_saved (h : Base cfg b d) {sid : SessionId} {m : MessageManager} {msg : Message} (hb : b.bal sid = some m)
    (hm : m.Holds msg) : Saved b.toStores msg ∧ msg.targetSessionId = sid := by
  obtain ⟨held, h1, h2, -⟩ := hm
  exact ⟨(h.balHeld hb h1).saved.fixed h2.symm,
    (congrArg Message.Fixed.targetSessionId h2).symm.trans (h.balHeld hb h1).target⟩

/-! ## Acts -/

theorem saved_row {msg : Message} (hs : Saved b.toStores msg) (s : MessageState) :
    ∃ row, (b.setState msg.sequenceId s).rows msg.sequenceId = some row ∧ row.Saves msg ∧ row.state = s := by
  obtain ⟨row, hr, hsv⟩ := hs
  refine ⟨{ row with state := s }, ?_, hsv.state s, rfl⟩
  show Function.update b.rows _ _ _ = _
  rw [Function.update_self, hr]; rfl

/-- An uploaded message has a saved row. -/
theorem upload_saved (h : Base cfg b d) {b₀ : Books} (h₀ : Base cfg b₀ .none) {i : Input} {msg : Message}
    (hrows : RowsStay b₀.toStores b.toStores) (hu : Upload i b₀ b msg) : Saved b.toStores msg := by
  cases hu with
  | first new held =>
    exact ((h.fcmHeld held).saved).fixed rfl
  | next old s o settles fcm next =>
    rcases MessageManager.getNext_eq h.fcm with ⟨h1, -⟩ | ⟨m, h1, h2, -⟩
    · rw [h1] at next; cases next
    · rw [h1] at next; cases next; exact (h.fcmHeld h2).saved
  | resend est within held => exact (h.held_saved held).1
  | fire expires =>
    obtain ⟨k, -, hk⟩ := expires
    exact hrows.saved (h₀.down (List.mem_of_getElem? hk)).1

/-- A process that starts on the table. -/
theorem started {env : Env} {b' : Books} (hr : Restarted cfg env b b')
    (rows : ∀ {n : Int} {row : Row}, b.rows n = some row → row.sequenceId = n)
    (uploads : ∀ {o : Obs} {msg : Message}, o ∈ b.log → o.what = .upload msg → Saved b.toStores msg) :
    Base cfg b' .none := by
  obtain ⟨db, hdb, hc, hf, hb⟩ := hr.fresh
  have hrow : ∀ n, b'.rows n = db.rows[n]? := fun n => by rw [hr.rows, hdb]
  have hle : ∀ {n : Int} {row : Row}, b.rows n = some row → n ≤ b'.counter := fun hn =>
    hc ▸ Database.le_maxSequenceId ((hdb _).trans hn)
  have hkept : ∀ {sid : SessionId} {m : MessageManager}, Database.Fresh db (env.scan sid) env.junk sid m →
      ∀ {n : Int} {msg : Message}, m.messages[n]? = some msg → Kept b'.toStores sid msg := by
    intro sid m hfr n msg hn
    obtain ⟨row, h1, h2, h3, rfl⟩ := hfr.held n msg hn
    refine ⟨h2, ⟨row, ?_, row.toMessage_saves _⟩, h3⟩
    show b'.rows row.sequenceId = some row
    rw [hrow, db.keyed h1, h1]
  -- two queues share no message, since each has the rows with its own target
  have htarget : ∀ {sid : SessionId} {m : MessageManager} {n : Int} {msg : Message}, b'.bal sid = some m →
      m.messages[n]? = some msg → ∃ row, db.rows[n]? = some row ∧ row.targetSession = sid := by
    intro sid m n msg hm hn
    obtain ⟨row, h1, -, h3, -⟩ := (hb sid m hm).held n msg hn
    exact ⟨row, h1, h3⟩
  refine ⟨fun hn => ?_, hf.wf, hkept hf, fun hm => (hb _ _ hm).wf, fun hm => hkept (hb _ _ hm),
    fun {sid sid' m m' n msg msg'} hm hn hm' hn' => ?_, fun hcfg sid m n msg hm hn => ?_, hr.known, ?_, ?_, ?_, trivial⟩
  · rw [hr.rows] at hn; exact ⟨rows hn, hle hn⟩
  · obtain ⟨row, h1, rfl⟩ := htarget hm hn
    obtain ⟨row', h1', rfl⟩ := htarget hm' hn'
    rw [h1] at h1'; cases h1'; rfl
  · obtain ⟨row, h1, rfl⟩ := htarget hm hn
    cases hfcm : b'.fcm.messages[n]? with
    | none => rfl
    | some msg' =>
      obtain ⟨row', h1', -, h3, -⟩ := hf.held n msg' hfcm
      rw [h1] at h1'; cases h1'
      exact absurd ((hr.known _).1 ⟨m, hm⟩) (h3 ▸ hcfg)
  · rw [hr.timers]; intro msg ht; cases ht
  · rw [hr.timers]; intro msg ht; cases ht
  · intro o msg ho hw
    rw [hr.log] at ho
    obtain ⟨row, h1, h2⟩ := uploads ho hw
    exact ⟨row, by rw [hr.rows]; exact h1, h2⟩

theorem restart (h : Base cfg b d) {env : Env} {b' : Books} (hr : Restarted cfg env b b') : Base cfg b' .none :=
  started hr (fun hn => (h.rows hn).1) h.uploads

/-- Every act keeps the invariant; the rows of the first books stay. -/
theorem act {i : Input} {b₀ : Books} (h₀ : Base cfg b₀ .none) {b' : Books} {d' : Debt} (h : Base cfg b d)
    (hrows : RowsStay b₀.toStores b.toStores) (ha : Act i b₀ b d b' d') : Base cfg b' d' := by
  cases ha with
  | draw => exact h.draw
  | accept mid gid sid data hm source request id =>
    rename_i msg
    have hs : msg.sequenceId = b.counter + 1 := by rw [hm]; rfl
    have hi := h.insertRow (.ofMessage msg) hs
    have hn : b.fcm.messages[msg.sequenceId]? = none := hs ▸ h.fresh
    have hsaves : (Row.ofMessage msg).Saves msg := Row.ofMessage_saves (by rw [hm]; exact source)
    -- the new message has the id after the counter, which no row and no queue has yet
    refine hi.setFcm (h.fcm.addMessage msg hn rfl) (fun n msg' hk => ?_) fun n hk => ?_
    · rw [MessageManager.addMessage_getElem? msg hn] at hk
      split at hk
      · cases hk
        exact ⟨by rw [hm]; rfl, ⟨_, Function.update_self .., hsaves⟩, by rw [hm]; rfl⟩
      · exact hi.fcmHeld hk
    · rw [MessageManager.addMessage_getElem? msg hn]
      split
      · rename_i hnew
        exact Or.inr ⟨rfl, fun sid' m' hm' => by rw [hnew, hs]; exact h.freshBal hm'⟩
      · exact Or.inl hk
  | mark held sendable =>
    rename_i msg
    have hs := h.setState msg.sequenceId .pendingAck
    exact hs.setFcm (h.fcm.mark _) (kept_modify (fun _ => ⟨rfl, Or.inr rfl⟩) fun _ _ => hs.fcmHeld)
      fun _ hk => Or.inl (modify_none hk)
  | upload cause what server =>
    refine h.observe fun msg' hw => ?_
    rw [what] at hw; cases hw
    exact h.upload_saved h₀ hrows cause
  | settle settles fcm log names =>
    rename_i msg s o
    obtain ⟨mid, -, hf⟩ := settles
    have hheld := (h.fcm.find (fcm ▸ hf)).2.1
    have hk := h.fcmHeld hheld
    have hs := (h.setState msg.sequenceId s).without hheld
    -- the message leaves the queue, and its source is owed the notice
    exact { hs with debt := ⟨saved_row hk.saved s, hk.target⟩ }
  | exhaust held out within cause =>
    rename_i msg
    obtain ⟨h1, h2⟩ := h.held_saved held
    exact { h.setState msg.sequenceId .deliveryFailed with debt := ⟨saved_row h1 _, h2⟩ }
  | drop held out cause => exact h.without held
  | touchDown n f hf => exact h.touchDown n hf
  | armDown cause held =>
    rename_i msg
    refine h.setTimers _ _ (fun msg' ht => ?_) (fun msg' ht => ?_)
    · rcases List.mem_append.1 ht with ht | ht
      · exact h.down ht
      · cases List.mem_singleton.1 ht; exact h.held_saved held
    · rcases List.mem_append.1 ht with ht | ht
      · exact h.up ht
      · cases List.mem_singleton.1 ht
  | save envelope state cause =>
    rename_i msg
    have hi := h.insertRow (.ofMessage msg) envelope.sequenceId
    -- the row is there before any queue has its message
    refine { hi with debt := ⟨⟨_, Function.update_self .., Row.ofMessage_saves envelope.source, state⟩, state,
      cause.balBound, ?_, fun {sid m} hm => ?_⟩ }
    · rw [envelope.sequenceId]; exact h.fresh
    · rw [envelope.sequenceId]; exact h.freshBal hm
  | reject envelope => exact h.insertRow _ envelope.sequenceId
  | fcmAck data type what server counter =>
    refine h.observe fun msg' hw => ?_
    rw [what] at hw; cases hw
  | deliver bal =>
    rename_i msg m
    have hwait : Waiting b.toStores msg := h.debt
    obtain ⟨row, hr, hs, -⟩ := hwait.saved
    have hn := hwait.bal bal
    -- what is owed says that the row is saved and that no queue has its id
    refine h.pay.setBal bal ((h.bal bal).addMessage msg hn rfl) (fun n msg' hk => ?_) fun n hk => ?_
    · rw [MessageManager.addMessage_getElem? msg hn] at hk
      split at hk
      · cases hk; exact ⟨by rw [hwait.state]; rfl, ⟨row, hr, hs⟩, rfl⟩
      · exact h.balHeld bal hk
    · rw [MessageManager.addMessage_getElem? msg hn]
      split
      · rename_i hnew
        exact Or.inr ⟨rfl, hnew ▸ hwait.fcm, fun sid' m' hm' => hnew ▸ hwait.bal hm'⟩
      · exact Or.inl hk
  | undeliverable bal => exact h.pay
  | markBal bal held sendable type =>
    rename_i sid m msg
    have hs := h.setState msg.sequenceId .pendingAck
    exact hs.setBal bal ((h.bal bal).mark _) (kept_modify (fun _ => ⟨rfl, Or.inr rfl⟩) fun _ _ => hs.balHeld bal)
      fun _ hk => Or.inl (modify_none hk)
  | remark resend state type count =>
    rename_i sid m msg
    have hs := h.setState msg.sequenceId .pendingAck
    have hk : ∀ (k : Int) (msg' : Message), m.messages[k]? = some msg' →
        Kept (b.setState msg.sequenceId .pendingAck).toStores sid msg' := fun _ _ => hs.balHeld resend.bal
    exact hs.setBal resend.bal (h.bal resend.bal).incrementPendingAckCount hk fun _ => Or.inl
  | write cause what server =>
    refine h.observe fun msg' hw => ?_
    rw [what] at hw; cases hw
  | settleBal bal held => exact (h.setState _ _).withoutBal bal held
  | exhaustBal resend first out => exact h.setState _ _
  | dropBal bal held first out => exact h.withoutBal bal held
  | touchBal n f bal hf => exact h.touchBal bal n hf
  | armUp resend =>
    rename_i sid m msg
    obtain ⟨h1, h2⟩ := h.balHeld_saved resend.bal resend.held
    refine h.setTimers _ _ (fun msg' ht => ?_) (fun msg' ht => ?_)
    · rcases List.mem_append.1 ht with ht | ht
      · exact h.down ht
      · cases List.mem_singleton.1 ht
    · rcases List.mem_append.1 ht with ht | ht
      · exact h.up ht
      · cases List.mem_singleton.1 ht; exact ⟨h1, h2 ▸ (h.known sid).1 ⟨m, resend.bal⟩⟩
  | connections ts wr ht =>
    -- a connection starts and cancels only timers that capture no message
    refine h.setTimers ts wr (fun msg hm => ?_) (fun msg hm => ?_)
    · rcases ht _ hm with hm | hm
      · exact h.down hm
      · cases hm
    · rcases ht _ hm with hm | hm
      · exact h.up hm
      · cases hm
  | record server what =>
    refine h.observe fun msg' hw => ?_
    rcases what with ⟨hw', -⟩ | ⟨_, hw'⟩ | ⟨_, hw'⟩ <;> rw [hw'] at hw <;> cases hw
  | lose => exact h.pay

end Base

/-! ## Reached books -/

theorem RowsStay.refl (b : Stores) : RowsStay b b := fun _ row h => ⟨row.state, h⟩

theorem RowsStay.trans {a b c : Stores} (h : RowsStay a b) (h' : RowsStay b c) : RowsStay a c := by
  intro n row hr
  obtain ⟨s, hs⟩ := h n row hr
  obtain ⟨s', hs'⟩ := h' n _ hs
  exact ⟨s', hs'⟩

section
variable {cfg : List SessionId} {i : Input} {b₀ : Books} {b : Books} {d : Debt}

/-- No act loses a row or rewrites one beyond its state. -/
theorem Act.rowsStay (h : Base cfg b d) {b' : Books} {d' : Debt} (ha : Act i b₀ b d b' d') :
    RowsStay b.toStores b'.toStores := by
  cases ha with
  | accept mid gid sid data hm source request id => exact RowsStay.insertRow (.ofMessage _) h.freshRow (by rw [hm]; rfl)
  | save envelope => exact RowsStay.insertRow (.ofMessage _) h.freshRow envelope.sequenceId
  | reject envelope => exact RowsStay.insertRow (.ofMessage _) h.freshRow envelope.sequenceId
  | mark => exact RowsStay.setState b _ _
  | settle => exact RowsStay.setState b _ _
  | exhaust => exact RowsStay.setState b _ _
  | markBal => exact RowsStay.setState b _ _
  | remark => exact RowsStay.setState b _ _
  | settleBal => exact RowsStay.setState b _ _
  | exhaustBal => exact RowsStay.setState b _ _
  | _ => exact RowsStay.refl _

theorem Restarted.rowsStay {env : Env} {b' : Books} (h : Restarted cfg env b b') : RowsStay b.toStores b'.toStores :=
  fun _ row hn => ⟨row.state, by rw [h.rows]; exact hn⟩

theorem Reach.base (h₀ : Base cfg b₀ .none) (h : Reach i b₀ b d) :
    Base cfg b d ∧ RowsStay b₀.toStores b.toStores := by
  refine h.invariant (P := fun b d => Base cfg b d ∧ RowsStay b₀.toStores b.toStores) ⟨h₀, RowsStay.refl _⟩ ?_
  rintro b d b' d' ⟨hb, hs⟩ ha
  exact ⟨Base.act h₀ hb hs ha, hs.trans (ha.rowsStay hb)⟩

/-- An invariant of the acts on top of the base. -/
theorem Reach.invariant_base {P : Books → Debt → Prop} (h₀ : Base cfg b₀ .none) (start : P b₀ .none)
    (act : ∀ {b d b' d'}, Base cfg b d → RowsStay b₀.toStores b.toStores → Base cfg b' d' → P b d →
      Act i b₀ b d b' d' → P b' d') (h : Reach i b₀ b d) : P b d := by
  induction h with
  | start => exact start
  | act hr ha ih =>
    obtain ⟨hb, hs⟩ := hr.base h₀
    exact act hb hs (Base.act h₀ hb hs ha) ih ha

end

end Gimmm

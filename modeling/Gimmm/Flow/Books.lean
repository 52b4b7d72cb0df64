/-
What the server keeps about its messages, apart from how its functions compute it: the managers,
the table, the id counter, the timers, the sessions that can be written to, and the log. `books`
reads it off a world, and the equations say how a statement or a manager call changes it.
-/
import Mathlib.Logic.Function.Basic
import Gimmm.Server.Step

namespace Gimmm

open Std

/-- `writeMessage` would write to the session. -/
def Application.writable (app : Application) (sid : SessionId) : Bool :=
  match app.balSessionMap[sid]? with
  | none => false
  | some sess =>
    sess.state = .authenticated && sess.balConn.any fun sock => app.sockets[sock]?.any (·.connected)

structure Stores where
  fcm : MessageManager
  bal : SessionId → Option MessageManager
  rows : Int → Option Row
  counter : Int
  timers : List Timer
  writable : SessionId → Bool

structure Books extends Stores where
  log : List Obs

def stores (s : Server) : Stores :=
  ⟨s.app.fcmMsgManager, s.app.balManager, (s.db.rows[·]?), s.app.sequenceId, s.app.timers, s.app.writable⟩

def books (w : World) : Books := ⟨stores w.toServer, w.log⟩

namespace MessageManager

/-- The queue holds `msg`, up to its retry state. -/
def Holds (m : MessageManager) (msg : Message) : Prop :=
  ∃ held, m.messages[msg.sequenceId]? = some held ∧ held.fixed = msg.fixed ∧ held.state = msg.state

/-- Every message of `m'` is in `m`, up to its retry state. -/
def Within (m m' : MessageManager) : Prop :=
  ∀ (n : Int) (msg' : Message), m'.messages[n]? = some msg' →
    ∃ msg, m.messages[n]? = some msg ∧ msg'.fixed = msg.fixed ∧ msg'.state = msg.state

theorem Within.refl (m : MessageManager) : m.Within m := fun _ msg h => ⟨msg, h, rfl, rfl⟩

end MessageManager

namespace Books

/-! ## Changes -/

def draw (b : Books) : Books := { b with counter := b.counter + 1 }

def setFcm (b : Books) (m : MessageManager) : Books := { b with fcm := m }

def setBal (b : Books) (sid : SessionId) (m : MessageManager) : Books :=
  { b with bal := Function.update b.bal sid (some m) }

def insertRow (b : Books) (row : Row) : Books :=
  { b with rows := Function.update b.rows row.sequenceId (some row) }

def setState (b : Books) (n : Int) (s : MessageState) : Books :=
  { b with rows := Function.update b.rows n ((b.rows n).map ({ · with state := s })) }

def addTimer (b : Books) (t : Timer) : Books := { b with timers := b.timers ++ [t] }

def observe (b : Books) (o : Obs) : Books := { b with log := o :: b.log }

theorem setState_rows (b : Books) (n : Int) (s : MessageState) (k : Int) :
    (b.setState n s).rows k = if k = n then (b.rows k).map ({ · with state := s }) else b.rows k := by
  show Function.update b.rows n _ k = _
  by_cases hk : k = n
  · subst hk; rw [Function.update_self, if_pos rfl]
  · rw [Function.update_of_ne hk, if_neg hk]

theorem insertRow_rows (b : Books) (row : Row) (k : Int) :
    (b.insertRow row).rows k = if k = row.sequenceId then some row else b.rows k := by
  show Function.update b.rows row.sequenceId _ k = _
  by_cases hk : k = row.sequenceId
  · subst hk; rw [Function.update_self, if_pos rfl]
  · rw [Function.update_of_ne hk, if_neg hk]

theorem setBal_bal (b : Books) (sid : SessionId) (m : MessageManager) (s : SessionId) :
    (b.setBal sid m).bal s = if s = sid then some m else b.bal s := by
  show Function.update b.bal sid (some m) s = _
  by_cases hs : s = sid
  · subst hs; rw [Function.update_self, if_pos rfl]
  · rw [Function.update_of_ne hs, if_neg hs]

end Books

/-! ## Reading the books -/

section
variable {w : World} {sid : SessionId} {m : MessageManager}

@[simp] theorem books_fcm (w : World) : (books w).fcm = w.app.fcmMsgManager := rfl
@[simp] theorem books_bal (w : World) : (books w).bal = w.app.balManager := rfl
@[simp] theorem books_counter (w : World) : (books w).counter = w.app.sequenceId := rfl
@[simp] theorem books_timers (w : World) : (books w).timers = w.app.timers := rfl
@[simp] theorem books_log (w : World) : (books w).log = w.log := rfl
@[simp] theorem books_rows (w : World) (n : Int) : (books w).rows n = w.db.rows[n]? := rfl

@[simp] theorem books_putFcm : books (w.putFcm m) = (books w).setFcm m := rfl

theorem writable_modify {app : Application} {f : BALSession → BALSession}
    (hf : ∀ s, (f s).state = s.state ∧ (f s).balConn = s.balConn) (sid : SessionId) :
    ({ app with balSessionMap := app.balSessionMap.modify sid f } : Application).writable = app.writable := by
  funext s
  unfold Application.writable
  simp only [ExtTreeMap.getElem?_modify]
  by_cases hs : compare sid s = .eq
  · rw [if_pos hs, ← LawfulEqCmp.eq_of_compare hs]
    cases app.balSessionMap[sid]? with
    | none => rfl
    | some sess => simp [hf]
  · rw [if_neg hs]

theorem balManager_modify {app app' : Application} {sid : SessionId} {f : BALSession → BALSession}
    (h : app'.balSessionMap = app.balSessionMap.modify sid f) (hf : ∀ s, (f s).msgManager = s.msgManager) :
    app'.balManager = app.balManager := by
  funext s
  unfold Application.balManager
  rw [h, ExtTreeMap.getElem?_modify]
  split
  · rename_i hs
    rw [← LawfulEqCmp.eq_of_compare hs]
    cases app.balSessionMap[sid]? <;> simp [hf]
  · rfl

theorem books_putBal {m₀ : MessageManager} (h : w.app.balManager sid = some m₀) :
    books (w.putBal sid m) = (books w).setBal sid m := by
  have hw : (w.putBal sid m).app.writable = w.app.writable :=
    writable_modify (f := ({ · with msgManager := m })) (fun _ => ⟨rfl, rfl⟩) sid
  have hb : (w.putBal sid m).app.balManager = Function.update w.app.balManager sid (some m) := by
    funext s
    show ((w.app.balSessionMap.modify sid ({ · with msgManager := m }))[s]?).map (·.msgManager) = _
    rw [ExtTreeMap.getElem?_modify]
    by_cases hs : compare sid s = .eq
    · obtain rfl := LawfulEqCmp.eq_of_compare hs
      rw [if_pos hs, Function.update_self]
      obtain ⟨sess, hsess, -⟩ := Option.map_eq_some_iff.1 h
      rw [hsess]; rfl
    · rw [if_neg hs, Function.update_of_ne]
      · rfl
      · rintro rfl; exact hs ReflCmp.compare_self
  show Books.mk ⟨_, _, _, _, _, _⟩ _ = Books.mk ⟨_, _, _, _, _, _⟩ _
  rw [Books.mk.injEq, Stores.mk.injEq]
  exact ⟨⟨rfl, hb, rfl, rfl, rfl, hw⟩, rfl⟩

theorem books_insert {db : Database} {row : Row} (h : w.db.insert row = some db) :
    books { w with db := db } = (books w).insertRow row := by
  have hr : (fun n : Int => db.rows[n]?) = Function.update (fun n : Int => w.db.rows[n]?) row.sequenceId (some row) := by
    funext n
    rw [(Database.insert_some h).2 n]
    by_cases hn : n = row.sequenceId
    · subst hn; rw [if_pos rfl, Function.update_self]
    · rw [if_neg hn, Function.update_of_ne hn]
  show Books.mk ⟨_, _, _, _, _, _⟩ _ = Books.mk ⟨_, _, _, _, _, _⟩ _
  rw [Books.mk.injEq, Stores.mk.injEq]
  exact ⟨⟨rfl, rfl, hr, rfl, rfl, rfl⟩, rfl⟩

@[simp] theorem books_update (n : Int) (s : MessageState) :
    books { w with db := w.db.update n s } = (books w).setState n s := by
  have hr : (fun k : Int => (w.db.update n s).rows[k]?) =
      Function.update (fun k : Int => w.db.rows[k]?) n (w.db.rows[n]?.map ({ · with state := s })) := by
    funext k
    rw [Database.update_getElem?]
    by_cases hk : k = n
    · subst hk; rw [if_pos rfl, Function.update_self]
    · rw [if_neg hk, Function.update_of_ne hk]
  show Books.mk ⟨_, _, _, _, _, _⟩ _ = Books.mk ⟨_, _, _, _, _, _⟩ _
  rw [Books.mk.injEq, Stores.mk.injEq]
  exact ⟨⟨rfl, rfl, hr, rfl, rfl, rfl⟩, rfl⟩

@[simp] theorem books_record (what : Happening) :
    books (w.record what) = (books w).observe ⟨what, w.toServer⟩ := rfl

end

end Gimmm

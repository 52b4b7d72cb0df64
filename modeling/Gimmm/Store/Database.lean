/-
The `messages` table and what `loadPendingMessages` makes of it. A table holds each row under its
own sequence id, an insert needs a sequence id that is not there yet, and a full load into an empty
manager gives exactly the pending rows of its session, without their groups. The texts of a row are
bound as C strings, so each of them ends at its first NUL.
-/
import Mathlib.Data.List.Perm.Subperm
import Gimmm.Lib.CString
import Gimmm.Manager.Update

namespace Gimmm

open Std CString

/-- The session id of `__fcmMsgManager`. -/
def fcmSessionId : SessionId := "fcm"

theorem noNul_fcmSessionId : NoNul fcmSessionId := by decide

/-- A row of `messages`, without its two dates. No text of it has a NUL. -/
structure Row where
  sequenceId : Int
  sourceSession : SessionId
  targetSession : SessionId
  type : MessageType
  fcmMessageId : FcmMessageId
  groupId : GroupId
  state : MessageState
  payload : Json
  noNul : NoNul sourceSession ∧ NoNul targetSession ∧ NoNul fcmMessageId ∧ NoNul groupId

namespace Row

/-- The values that `saveMsg` binds: its texts are `c_str()` with the length -1. -/
def ofMessage (msg : Message) : Row where
  sequenceId := msg.sequenceId
  sourceSession := cString msg.sourceSessionId
  targetSession := cString msg.targetSessionId
  type := msg.type
  fcmMessageId := cString msg.fcmMessageId
  groupId := cString msg.groupId
  state := msg.state
  payload := msg.payload
  noNul := ⟨noNul_cString _, noNul_cString _, noNul_cString _, noNul_cString _⟩

/-- The message that `load_pending_messages_callback` builds. It reads the group id and drops it. -/
def toMessage (row : Row) (junk : Int × Int) : Message :=
  { Message.blank junk with
    sequenceId := row.sequenceId
    sourceSessionId := row.sourceSession
    targetSessionId := row.targetSession
    type := row.type
    fcmMessageId := row.fcmMessageId
    state := row.state
    payload := row.payload }

/-- The row is that of `msg`: it has the columns of `msg` that never change, its target and its FCM message
id up to their first NUL. -/
structure Saves (row : Row) (msg : Message) : Prop where
  sequenceId : row.sequenceId = msg.sequenceId
  sourceSession : row.sourceSession = msg.sourceSessionId
  targetSession : row.targetSession = cString msg.targetSessionId
  type : row.type = msg.type
  fcmMessageId : row.fcmMessageId = cString msg.fcmMessageId
  payload : row.payload = msg.payload

theorem ofMessage_saves {msg : Message} (h : NoNul msg.sourceSessionId) : (ofMessage msg).Saves msg :=
  ⟨rfl, cString_of_noNul h, rfl, rfl, rfl, rfl⟩

theorem toMessage_saves (row : Row) (junk : Int × Int) : row.Saves (row.toMessage junk) :=
  ⟨rfl, rfl, (cString_of_noNul row.noNul.2.1).symm, rfl, (cString_of_noNul row.noNul.2.2.1).symm, rfl⟩

theorem Saves.state {row : Row} {msg : Message} (h : row.Saves msg) (s : MessageState) :
    { row with state := s }.Saves msg :=
  ⟨h.sequenceId, h.sourceSession, h.targetSession, h.type, h.fcmMessageId, h.payload⟩

theorem Saves.fixed {row : Row} {msg msg' : Message} (h : row.Saves msg) (hf : msg'.fixed = msg.fixed) :
    row.Saves msg' := by
  simp only [Message.fixed, Message.Fixed.mk.injEq] at hf
  obtain ⟨h1, h2, h3, h4, h5, -, h7⟩ := hf
  exact ⟨h1 ▸ h.sequenceId, h2 ▸ h.sourceSession, h3 ▸ h.targetSession, h4 ▸ h.type, h5 ▸ h.fcmMessageId,
    h7 ▸ h.payload⟩

end Row

/-- The table: every row under its own sequence id, the primary key. -/
structure Database where
  rows : ExtTreeMap Int Row
  keyed : ∀ {n : Int} {row : Row}, rows[n]? = some row → row.sequenceId = n

namespace Database

def empty : Database := ⟨∅, by simp⟩

/-- `INSERT`; `none` when the sequence id is taken. -/
def insert (db : Database) (row : Row) : Option Database :=
  if db.rows[row.sequenceId]?.isSome then none
  else some
    { rows := db.rows.insertIfNew row.sequenceId row
      keyed := by
        intro n row' h
        rw [ExtTreeMap.getElem?_insertIfNew] at h
        split at h
        · cases h; exact LawfulEqCmp.eq_of_compare (by tauto)
        · exact db.keyed h }

/-- `UPDATE messages SET state = ?1 WHERE sequence_id = ?2`. -/
def update (db : Database) (seqid : Int) (state : MessageState) : Database where
  rows := db.rows.modify seqid ({ · with state := state })
  keyed := by
    intro n row h
    rw [ExtTreeMap.getElem?_modify] at h
    split at h
    · rename_i hc
      obtain ⟨row', h', rfl⟩ := Option.map_eq_some_iff.1 h
      rw [← LawfulEqCmp.eq_of_compare hc]
      show row'.sequenceId = seqid
      exact db.keyed h'
    · exact db.keyed h

/-- `initSequenceId`: `SELECT MAX(sequence_id)`, 0 on an empty table. -/
def maxSequenceId (db : Database) : Int := db.rows.keys.getLast?.getD 0

/-- `SELECT * FROM messages WHERE state in (1, 2) AND target_session = '..'`. -/
def selectPending (db : Database) (target : SessionId) : List Row :=
  (db.rows.toList.map (·.2)).filter fun row => row.state.pending ∧ row.targetSession = target

/-- What the callback gets of a selection: its rows in an order that SQLite chooses, or some of them, or none, when
the statement fails on the way, or at once as with a quote in the session id. -/
structure Scan where
  rows : List Row → List Row
  subperm : ∀ l, (rows l).Subperm l

/-- The statement does not fail. -/
def Scan.Complete (scan : Scan) : Prop := ∀ l, (scan.rows l).Perm l

/-- The scan in the order of the sequence ids. -/
def Scan.inOrder : Scan := ⟨id, fun l => (List.Perm.refl l).subperm⟩

/-- `load_pending_messages_callback` on each row. -/
def loadRows (junk : Int → Int × Int) : List Row → MessageManager → MessageManager
  | [], msgmanager => msgmanager
  | row :: rest, msgmanager =>
    loadRows junk rest (msgmanager.addMessage row.sequenceId (row.toMessage (junk row.sequenceId)))

def loadPendingMessages (db : Database) (scan : Scan) (junk : Int → Int × Int) (msgmanager : MessageManager) :
    MessageManager :=
  loadRows junk (scan.rows (db.selectPending msgmanager.sessionId)) msgmanager

/-! ## Rows -/

section
variable {db db' : Database} {row : Row}

theorem insert_some (h : db.insert row = some db') :
    db.rows[row.sequenceId]? = none ∧
      ∀ n : Int, db'.rows[n]? = if n = row.sequenceId then some row else db.rows[n]? := by
  unfold insert at h
  split at h
  · cases h
  · rename_i hs
    have hnone : db.rows[row.sequenceId]? = none := by simpa using hs
    cases h
    refine ⟨hnone, fun n => ?_⟩
    show (db.rows.insertIfNew row.sequenceId row)[n]? = _
    rw [ExtTreeMap.getElem?_insertIfNew]
    by_cases hn : n = row.sequenceId
    · subst hn
      rw [if_pos, if_pos rfl]
      refine ⟨ReflCmp.compare_self, ?_⟩
      rw [← ExtTreeMap.isSome_getElem?_iff_mem, hnone]; simp
    · rw [if_neg, if_neg hn]
      rintro ⟨hc, -⟩; exact hn (LawfulEqCmp.eq_of_compare hc).symm

theorem insert_fresh (row : Row) (h : db.rows[row.sequenceId]? = none) : ∃ db', db.insert row = some db' := by
  unfold insert; rw [h]; exact ⟨_, rfl⟩

theorem update_getElem? (k : Int) (s : MessageState) (n : Int) :
    (db.update k s).rows[n]? = if n = k then db.rows[n]?.map ({ · with state := s }) else db.rows[n]? := by
  show (db.rows.modify k _)[n]? = _
  rw [ExtTreeMap.getElem?_modify]
  by_cases hn : n = k
  · subst hn; rw [if_pos ReflCmp.compare_self, if_pos rfl]
  · rw [if_neg, if_neg hn]
    intro hc; exact hn (LawfulEqCmp.eq_of_compare hc).symm

theorem le_maxSequenceId {n : Int} (h : db.rows[n]? = some row) : n ≤ db.maxSequenceId := by
  have hm : n ∈ db.rows := by rw [← ExtTreeMap.isSome_getElem?_iff_mem, h]; rfl
  unfold maxSequenceId
  rw [← ExtTreeMap.maxKey?_eq_getLast?_keys]
  cases hk : db.rows.maxKey? with
  | none => rw [ExtTreeMap.maxKey?_eq_none_iff.1 hk] at hm; simp at hm
  | some k => exact Int.isLE_compare.1 ((ExtTreeMap.maxKey?_eq_some_iff_mem_and_forall.1 hk).2 n hm)

theorem mem_selectPending {target : SessionId} :
    row ∈ db.selectPending target ↔
      db.rows[row.sequenceId]? = some row ∧ row.state.pending = true ∧ row.targetSession = target := by
  unfold selectPending
  simp only [List.mem_filter, List.mem_map, Prod.exists, exists_eq_right, decide_eq_true_eq]
  constructor
  · rintro ⟨⟨n, hn⟩, hp⟩
    have hn := ExtTreeMap.mem_toList_iff_getElem?_eq_some.1 hn
    rw [db.keyed hn]; exact ⟨hn, hp⟩
  · rintro ⟨hn, hp⟩
    exact ⟨⟨_, ExtTreeMap.mem_toList_iff_getElem?_eq_some.2 hn⟩, hp⟩

/-- No two rows of a selection share a sequence id. -/
theorem selectPending_distinct (db : Database) (target : SessionId) :
    ((db.selectPending target).map (·.sequenceId)).Nodup := by
  have hk : ∀ p ∈ db.rows.toList, p.2.sequenceId = p.1 :=
    fun p hp => db.keyed (ExtTreeMap.mem_toList_iff_getElem?_eq_some.1 hp)
  have hd : (db.rows.toList.map (·.2)).Pairwise fun a b => a.sequenceId ≠ b.sequenceId := by
    rw [List.pairwise_map]
    refine ExtTreeMap.distinct_keys_toList.imp_of_mem fun {a b} ha hb hab => ?_
    rw [hk a ha, hk b hb]
    intro h; exact hab (h ▸ ReflCmp.compare_self)
  rw [List.Nodup, List.pairwise_map]
  exact hd.filter _

end

/-! ## Loading -/

section
variable {junk : Int → Int × Int}

/-- The manager after rows with distinct fresh sequence ids. -/
structure Loaded (junk : Int → Int × Int) (l : List Row) (m m' : MessageManager) : Prop where
  wf : m'.WF
  sessionId : m'.sessionId = m.sessionId
  pendingAckCount : m'.pendingAckCount = m.pendingAckCount
  queue : ∀ (n : Int) (msg : Message), m'.messages[n]? = some msg ↔
    m.messages[n]? = some msg ∨ ∃ row ∈ l, row.sequenceId = n ∧ msg = row.toMessage (junk n)

theorem loadRows_spec : ∀ (l : List Row) {m : MessageManager}, m.WF → (l.map (·.sequenceId)).Nodup →
    (∀ row ∈ l, m.messages[row.sequenceId]? = none) → Loaded junk l m (loadRows junk l m)
  | [], m, hwf, _, _ => ⟨hwf, rfl, rfl, fun n msg => by simp [loadRows]⟩
  | row :: l, m, hwf, hd, hf => by
    rw [List.map_cons, List.nodup_cons] at hd
    have hnone := hf row (List.mem_cons_self ..)
    have hq := MessageManager.addMessage_getElem? (row.toMessage (junk row.sequenceId)) hnone
    have ih := loadRows_spec l (hwf.addMessage (row.toMessage (junk row.sequenceId)) hnone rfl) hd.2
      fun r hr => by
        rw [hq, if_neg, hf r (List.mem_cons_of_mem _ hr)]
        intro he; exact hd.1 (he ▸ List.mem_map.2 ⟨r, hr, rfl⟩)
    refine ⟨ih.wf, ih.sessionId.trans MessageManager.addMessage_sessionId,
      ih.pendingAckCount.trans MessageManager.addMessage_pendingAckCount, fun n msg => ?_⟩
    unfold loadRows
    rw [ih.queue, hq]
    constructor
    · rintro (h | ⟨r, hr, he, hm⟩)
      · split at h
        · rename_i hn; cases h; exact Or.inr ⟨row, List.mem_cons_self .., hn.symm, by rw [hn]⟩
        · exact Or.inl h
      · exact Or.inr ⟨r, List.mem_cons_of_mem _ hr, he, hm⟩
    · rintro (h | ⟨r, hr, he, hm⟩)
      · refine Or.inl ?_
        rw [if_neg, h]
        rintro rfl; rw [hnone] at h; cases h
      · rcases List.mem_cons.1 hr with rfl | hr
        · exact Or.inl (by rw [if_pos he.symm, hm, he])
        · exact Or.inr ⟨r, hr, he, hm⟩

/-- What a load into an empty manager gives: a well-formed manager with a pending ack count of 0
that holds pending rows of its session, all of them if the statement does not fail. -/
structure Fresh (db : Database) (scan : Scan) (junk : Int → Int × Int) (sid : SessionId) (m : MessageManager) :
    Prop where
  wf : m.WF
  sessionId : m.sessionId = sid
  pendingAckCount : m.pendingAckCount = 0
  held : ∀ (n : Int) (msg : Message), m.messages[n]? = some msg →
    ∃ row, db.rows[n]? = some row ∧ row.state.pending = true ∧ row.targetSession = sid ∧ msg = row.toMessage (junk n)
  all : scan.Complete → ∀ (n : Int) (row : Row), db.rows[n]? = some row → row.state.pending = true →
    row.targetSession = sid → m.messages[n]? = some (row.toMessage (junk n))

theorem loadPendingMessages_fresh (db : Database) (scan : Scan) (junk : Int → Int × Int) (sid : SessionId) :
    Fresh db scan junk sid (db.loadPendingMessages scan junk (.new sid)) := by
  have hsub := scan.subperm (db.selectPending sid)
  have hd : ((scan.rows (db.selectPending sid)).map (·.sequenceId)).Nodup := by
    obtain ⟨l, hp, hl⟩ := hsub
    exact (hp.map _).nodup_iff.1 ((hl.map _).nodup (db.selectPending_distinct sid))
  have h : Loaded junk _ _ _ := loadRows_spec (scan.rows (db.selectPending sid))
    (MessageManager.wf_new sid maxPendingMessages) hd (fun row _ => by simp [MessageManager.new])
  refine ⟨h.wf, h.sessionId, h.pendingAckCount, fun n msg hn => ?_, fun hc n row hn hp ht => ?_⟩
  · rcases (h.queue n msg).1 hn with hn | ⟨row, hr, he, hm⟩
    · simp [MessageManager.new] at hn
    · have := mem_selectPending.1 (List.Subperm.subset hsub hr)
      exact ⟨row, he ▸ this.1, this.2.1, this.2.2, hm⟩
  · refine (h.queue n _).2 (Or.inr ⟨row, ?_, db.keyed hn, rfl⟩)
    refine (hc (db.selectPending sid)).mem_iff.2 (mem_selectPending.2 ⟨?_, hp, ht⟩)
    rw [db.keyed hn]; exact hn

end

end Database

end Gimmm

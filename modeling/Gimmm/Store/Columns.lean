/-
The `messages` table as SQLite holds it: `saveMsg` and `updateMsgState` bind one value a column, and the
two callbacks read the columns as texts. Whatever statements are executed, the table of columns stands for
the `Database`: an insert fails on both or on none, the sequence id starts from the same number, and a
load makes the same manager. This needs a session id without a quote, since it is pasted into the text
of the statement.
-/
import Mathlib.Data.List.Nodup
import Mathlib.Data.List.Forall2
import Gimmm.Lib.Decimal
import Gimmm.Store.Database

namespace Gimmm

open Std CString

/-! ## Values -/

/-- The values of the enumeration. -/
def MessageType.toInt : MessageType → Int
  | .unknown => 0
  | .logon => 1
  | .ack => 2
  | .upstream => 3
  | .downstream => 4
  | .downstreamAck => 5
  | .downstreamReceipt => 6
  | .downstreamReject => 7

/-- `MessageType(type)`; the enumeration is a `char`. `none` is a value that has no name. -/
def MessageType.ofInt (type : Int) : Option MessageType :=
  [.unknown, .logon, .ack, .upstream, .downstream, .downstreamAck, .downstreamReceipt, .downstreamReject][
    (type % 256).toNat]?

def MessageState.toInt : MessageState → Int
  | .unknown => 0
  | .new => 1
  | .pendingAck => 2
  | .delivered => 3
  | .deliveryFailed => 4

/-- `MessageState(state)`, as for the type. -/
def MessageState.ofInt (state : Int) : Option MessageState :=
  [.unknown, .new, .pendingAck, .delivered, .deliveryFailed][(state % 256).toNat]?

theorem MessageType.ofInt_toInt (type : MessageType) : MessageType.ofInt type.toInt = some type := by
  cases type <;> rfl

theorem MessageState.ofInt_toInt (state : MessageState) : MessageState.ofInt state.toInt = some state := by
  cases state <;> rfl

/-- `toJson(QJsonDocument::Compact)` and `QJsonDocument::fromJson`. -/
structure JsonText where
  toJson : Json → String
  fromJson : String → Json

/-- The quote of SQL. -/
def quote : Char := Char.ofNat 39

/-- A value of a column. -/
inductive SqlValue where
  | null
  | integer (n : Int)
  | text (s : String)
deriving DecidableEq

/-- `argv[colno]` of a callback, `none` for a null pointer. -/
def SqlValue.argv : SqlValue → Option String
  | .null => none
  | .integer n => some (toString n)
  | .text s => some (cString s)

/-- `sqlite3_bind_text` of `s.c_str()` with the length -1. -/
def bindText (s : String) : SqlValue := .text (cString s)

/-- `std::int64_t` and `int` from a `std::stringstream`. -/
def readInt64 (s : String) : Int := Decimal.scan (-2 ^ 63) (2 ^ 63 - 1) s.toList

def readInt (s : String) : Int := Decimal.scan (-2 ^ 31) (2 ^ 31 - 1) s.toList

/-! ## The table -/

/-- The columns of `messages`. -/
structure Record where
  sequenceId : Int
  enteredDatetime : SqlValue
  sourceSession : SqlValue
  targetSession : SqlValue
  type : SqlValue
  fcmMessageId : SqlValue
  groupId : SqlValue
  state : SqlValue
  lastUpdate : SqlValue
  payload : SqlValue

/-- `SELECT *` in the order of the table. -/
def Record.columns (r : Record) : List SqlValue :=
  [.integer r.sequenceId, r.enteredDatetime, r.sourceSession, r.targetSession, r.type, r.fcmMessageId, r.groupId,
    r.state, r.lastUpdate, r.payload]

/-- What `saveMsg` binds. The two dates are the default, the time. -/
def Record.ofMessage (json : JsonText) (now : String) (msg : Message) : Record where
  sequenceId := msg.sequenceId
  enteredDatetime := .text now
  sourceSession := bindText msg.sourceSessionId
  targetSession := bindText msg.targetSessionId
  type := .integer msg.type.toInt
  fcmMessageId := bindText msg.fcmMessageId
  groupId := bindText msg.groupId
  state := .integer msg.state.toInt
  lastUpdate := .text now
  payload := bindText (json.toJson msg.payload)

abbrev Table := List Record

namespace Table

/-- `saveMsg`; `none` when the step fails, since the primary key is taken. -/
def saveMsg (json : JsonText) (table : Table) (now : String) (msg : Message) : Option Table :=
  if table.any (·.sequenceId = msg.sequenceId) then none else some (table ++ [Record.ofMessage json now msg])

def updateMsgState (table : Table) (now : String) (seqid : Int) (new_state : MessageState) : Table :=
  table.map fun r =>
    if r.sequenceId = seqid then { r with state := .integer new_state.toInt, lastUpdate := .text now } else r

/-- `SELECT MAX(sequence_id) FROM messages`. -/
def selectMax (table : Table) : SqlValue :=
  match (table.map (·.sequenceId)).max? with
  | none => .null
  | some n => .integer n

/-- `initSequenceId` with `set_sequenceid_callback`. -/
def initSequenceId (table : Table) : Int :=
  match table.selectMax.argv with
  | none => 0
  | some seq => readInt64 seq

/-- `SELECT * FROM messages WHERE state in (1, 2) AND target_session = '..'`, for a session id without a quote. A
NUL in it ends the statement inside the literal, so that it fails. -/
def selectPending (table : Table) (sessionId : SessionId) (_ : quote ∉ sessionId.toList) : List Record :=
  if NoNul sessionId then
    table.filter fun r => (r.state = .integer 1 ∨ r.state = .integer 2) ∧ r.targetSession = .text sessionId
  else []

/-- A case of `load_pending_messages_callback`. `none` is a null pointer read as a text, or an unnamed
value of an enumeration. The two dates are not part of a `Message` here. -/
def readColumn (json : JsonText) (colno : Nat) (argv : Option String) (msg : Message) : Option Message :=
  match colno with
  | 0 => argv.map fun s => { msg with sequenceId := readInt64 s }
  | 1 => argv.map fun _ => msg
  | 2 => argv.map fun s => { msg with sourceSessionId := s }
  | 3 => argv.map fun s => { msg with targetSessionId := s }
  | 4 => argv.bind fun s => (MessageType.ofInt (readInt s)).map fun type => { msg with type := type }
  | 5 => argv.map fun s => { msg with fcmMessageId := s }
  | 6 => some msg  -- a null pointer is allowed here, and the group id goes into a local variable
  | 7 => argv.bind fun s => (MessageState.ofInt (readInt s)).map fun state => { msg with state := state }
  | 8 => argv.map fun _ => msg
  | 9 => argv.map fun s => { msg with payload := json.fromJson s }
  | _ => some msg

/-- The loop over the columns. -/
def readColumns (json : JsonText) : Nat → List (Option String) → Message → Option Message
  | _, [], msg => some msg
  | colno, argv :: rest, msg => (readColumn json colno argv msg).bind (readColumns json (colno + 1) rest)

/-- `load_pending_messages_callback` on each record it is given. -/
def loadRecords (json : JsonText) (junk : Int → Int × Int) : List Record → MessageManager → Option MessageManager
  | [], msgmanager => some msgmanager
  | r :: rest, msgmanager =>
    (readColumns json 0 (r.columns.map SqlValue.argv) (.blank (junk r.sequenceId))).bind fun msg =>
      loadRecords json junk rest (msgmanager.addMessage msg.sequenceId msg)

/-- What the callback gets of a selection, as in `Database.Scan`. -/
structure Scan where
  records : List Record → List Record
  subperm : ∀ l, (records l).Subperm l

def Scan.Complete (scan : Scan) : Prop := ∀ l, (scan.records l).Perm l

/-- `loadPendingMessages`; `none` as for a column. -/
def loadPendingMessages (json : JsonText) (table : Table) (scan : Scan) (junk : Int → Int × Int)
    (msgmanager : MessageManager) (hquote : quote ∉ msgmanager.sessionId.toList) : Option MessageManager :=
  loadRecords json junk (scan.records (table.selectPending msgmanager.sessionId hquote)) msgmanager

end Table

/-! ## Texts that survive -/

/-- The document survives the column: its text has no NUL and is read back. -/
structure JsonText.Keeps (json : JsonText) (doc : Json) : Prop where
  noNul : NoNul (json.toJson doc)
  fromJson_toJson : json.fromJson (json.toJson doc) = doc

/-- A row all of whose values survive the columns. -/
structure Row.Clean (json : JsonText) (row : Row) : Prop where
  lower : -2 ^ 63 ≤ row.sequenceId
  upper : row.sequenceId ≤ 2 ^ 63 - 1
  payload : json.Keeps row.payload

theorem readInt64_toString {n : Int} (h0 : -2 ^ 63 ≤ n) (h1 : n ≤ 2 ^ 63 - 1) : readInt64 (toString n) = n :=
  Decimal.scan_toString h0 h1

theorem readInt_toString {n : Int} (h0 : -2 ^ 31 ≤ n) (h1 : n ≤ 2 ^ 31 - 1) : readInt (toString n) = n :=
  Decimal.scan_toString h0 h1

theorem MessageType.readInt_toInt (type : MessageType) : readInt (toString type.toInt) = type.toInt :=
  readInt_toString (by cases type <;> decide) (by cases type <;> decide)

theorem MessageState.readInt_toInt (state : MessageState) : readInt (toString state.toInt) = state.toInt :=
  readInt_toString (by cases state <;> decide) (by cases state <;> decide)

/-! ## The records of rows -/

/-- The record of a row with its two dates. -/
def Record.ofRow (json : JsonText) (row : Row) (dates : String × String) : Record where
  sequenceId := row.sequenceId
  enteredDatetime := .text dates.1
  sourceSession := .text row.sourceSession
  targetSession := .text row.targetSession
  type := .integer row.type.toInt
  fcmMessageId := .text row.fcmMessageId
  groupId := .text row.groupId
  state := .integer row.state.toInt
  lastUpdate := .text dates.2
  payload := .text (json.toJson row.payload)

section
variable {json : JsonText} {row : Row}

theorem Record.ofMessage_eq {msg : Message} (h : (Row.ofMessage msg).Clean json) (now : String) :
    Record.ofMessage json now msg = Record.ofRow json (.ofMessage msg) (now, now) := by
  have hpayload : bindText (json.toJson msg.payload) = .text (json.toJson msg.payload) :=
    congrArg SqlValue.text (cString_of_noNul h.payload.noNul)
  unfold Record.ofMessage
  rw [hpayload]
  rfl

/-- The callback builds the message of a clean row from its record. -/
theorem Table.readColumns_ofRow (h : row.Clean json) (dates : String × String) (junk : Int × Int) :
    Table.readColumns json 0 ((Record.ofRow json row dates).columns.map SqlValue.argv) (.blank junk) =
      some (row.toMessage junk) := by
  have hid : readInt64 (toString row.sequenceId) = row.sequenceId := readInt64_toString h.lower h.upper
  simp only [Record.columns, Record.ofRow, List.map_cons, List.map_nil, SqlValue.argv, readColumns, readColumn,
    Option.map_some, Option.bind_some, cString_of_noNul row.noNul.1, cString_of_noNul row.noNul.2.1,
    cString_of_noNul row.noNul.2.2.1, cString_of_noNul h.payload.noNul, h.payload.fromJson_toJson, hid,
    MessageType.readInt_toInt, MessageState.readInt_toInt, MessageType.ofInt_toInt, MessageState.ofInt_toInt]
  rfl

end

/-! ## The rows of a database -/

namespace Database

/-- The rows in the order of their sequence ids. -/
def values (db : Database) : List Row := db.rows.toList.map (·.2)

variable {db db' : Database} {row : Row}

theorem mem_values : row ∈ db.values ↔ db.rows[row.sequenceId]? = some row := by
  simp only [values, List.mem_map, Prod.exists, exists_eq_right]
  constructor
  · rintro ⟨n, hn⟩
    have hn := ExtTreeMap.mem_toList_iff_getElem?_eq_some.1 hn
    rwa [db.keyed hn]
  · intro h
    exact ⟨_, ExtTreeMap.mem_toList_iff_getElem?_eq_some.2 h⟩

theorem values_distinct (db : Database) : (db.values.map (·.sequenceId)).Nodup := by
  have hk : ∀ p ∈ db.rows.toList, p.2.sequenceId = p.1 :=
    fun p hp => db.keyed (ExtTreeMap.mem_toList_iff_getElem?_eq_some.1 hp)
  rw [List.Nodup, values, List.map_map, List.pairwise_map]
  refine ExtTreeMap.distinct_keys_toList.imp_of_mem fun {a b} ha hb hab => ?_
  rw [Function.comp_apply, Function.comp_apply, hk a ha, hk b hb]
  rintro h
  exact hab (h ▸ ReflCmp.compare_self)

theorem values_nodup (db : Database) : db.values.Nodup := List.Nodup.of_map _ db.values_distinct

theorem insert_values (h : db.insert row = some db') : db'.values.Perm (row :: db.values) := by
  obtain ⟨hnone, hrows⟩ := insert_some h
  have hnew : row ∉ db.values := by
    rw [mem_values, hnone]
    simp
  refine (List.perm_ext_iff_of_nodup db'.values_nodup (List.nodup_cons.2 ⟨hnew, db.values_nodup⟩)).2 fun r => ?_
  rw [mem_values, hrows, List.mem_cons, mem_values]
  split
  · rename_i hid
    rw [hid, hnone]
    simp [eq_comm]
  · rename_i hid
    constructor
    · exact Or.inr
    · rintro (rfl | h)
      · exact absurd rfl hid
      · exact h

/-- The row after `UPDATE`. -/
def updated (seqid : Int) (state : MessageState) (row : Row) : Row :=
  if row.sequenceId = seqid then { row with state := state } else row

@[simp] theorem updated_sequenceId (seqid : Int) (state : MessageState) (row : Row) :
    (updated seqid state row).sequenceId = row.sequenceId := by
  unfold updated; split <;> rfl

theorem update_values (seqid : Int) (state : MessageState) :
    (db.update seqid state).values.Perm (db.values.map (updated seqid state)) := by
  have hids : ((db.values.map (updated seqid state)).map (·.sequenceId)).Nodup := by
    have := db.values_distinct
    simpa [Function.comp_def] using this
  refine (List.perm_ext_iff_of_nodup (values_nodup _) (List.Nodup.of_map _ hids)).2 fun r => ?_
  simp only [mem_values, update_getElem?, List.mem_map]
  constructor
  · intro h
    split at h
    · rename_i hid
      obtain ⟨r', h', rfl⟩ := Option.map_eq_some_iff.1 h
      refine ⟨r', h', ?_⟩
      exact if_pos hid
    · rename_i hid
      exact ⟨r, h, if_neg hid⟩
  · rintro ⟨r', h', rfl⟩
    rw [updated_sequenceId, h']
    unfold updated
    split <;> rfl

end Database

/-! ## The table stands for the database -/

/-- The record of a row with its dates. -/
def Record.ofDated (json : JsonText) (p : Row × String × String) : Record := .ofRow json p.1 p.2

/-- The table holds the records of the rows, in some order, and the rows are clean. -/
def Table.Implements (json : JsonText) (table : Table) (db : Database) : Prop :=
  ∃ l : List (Row × String × String), table = l.map (Record.ofDated json) ∧ (l.map (·.1)).Perm db.values ∧
    ∀ p ∈ l, p.1.Clean json

namespace Table

section
variable {json : JsonText} {table : Table} {db : Database}

theorem implements_empty (json : JsonText) : Implements json [] .empty :=
  ⟨[], rfl, by simp [Database.values, Database.empty], by simp⟩

variable (json) in
theorem any_sequenceId {l : List (Row × String × String)} (hl : (l.map (·.1)).Perm db.values) (n : Int) :
    (l.map (Record.ofDated json)).any (·.sequenceId = n) = db.rows[n]?.isSome := by
  rw [Bool.eq_iff_iff, List.any_map, List.any_eq_true, Option.isSome_iff_exists]
  constructor
  · rintro ⟨p, hp, hid⟩
    have hid : p.1.sequenceId = n := of_decide_eq_true hid
    exact ⟨p.1, hid ▸ Database.mem_values.1 (hl.mem_iff.1 (List.mem_map.2 ⟨p, hp, rfl⟩))⟩
  · rintro ⟨row, hrow⟩
    have hid := db.keyed hrow
    obtain ⟨p, hp, rfl⟩ := List.mem_map.1 (hl.mem_iff.2 (Database.mem_values.2 (hid.symm ▸ hrow)))
    exact ⟨p, hp, decide_eq_true hid⟩

/-- `saveMsg` fails on both, or goes through on both. -/
theorem saveMsg_implements (h : table.Implements json db) (now : String) {msg : Message}
    (hmsg : (Row.ofMessage msg).Clean json) :
    (table.saveMsg json now msg = none ∧ db.insert (.ofMessage msg) = none) ∨
      ∃ table' db', table.saveMsg json now msg = some table' ∧ db.insert (.ofMessage msg) = some db' ∧
        table'.Implements json db' := by
  obtain ⟨l, rfl, hl, hclean⟩ := h
  have hany := any_sequenceId json hl msg.sequenceId
  cases hdb : db.insert (.ofMessage msg) with
  | none =>
    have hsome : db.rows[msg.sequenceId]?.isSome = true := by
      by_contra hc
      have hfresh : db.rows[msg.sequenceId]? = none := by simpa using hc
      obtain ⟨db', h'⟩ := Database.insert_fresh (.ofMessage msg) hfresh
      rw [hdb] at h'
      cases h'
    exact Or.inl ⟨if_pos (hany.trans hsome), rfl⟩
  | some db' =>
    have hnone : db.rows[msg.sequenceId]? = none := (Database.insert_some hdb).1
    refine Or.inr ⟨_, db', if_neg (by rw [hany, hnone]; decide), rfl, l ++ [(.ofMessage msg, now, now)], ?_, ?_, ?_⟩
    · rw [List.map_append, Record.ofMessage_eq hmsg now]
      rfl
    · have hlast : (l.map (·.1) ++ [Row.ofMessage msg]).Perm (Row.ofMessage msg :: l.map (·.1)) :=
        List.perm_append_comm
      rw [List.map_append]
      exact hlast.trans ((hl.cons _).trans (Database.insert_values hdb).symm)
    · simp only [List.mem_append, List.mem_singleton]
      rintro p (hp | rfl)
      · exact hclean p hp
      · exact hmsg

theorem updateMsgState_implements (h : table.Implements json db) (now : String) (seqid : Int) (s : MessageState) :
    (table.updateMsgState now seqid s).Implements json (db.update seqid s) := by
  obtain ⟨l, rfl, hl, hclean⟩ := h
  let upd (p : Row × String × String) : Row × String × String :=
    (Database.updated seqid s p.1, p.2.1, if p.1.sequenceId = seqid then now else p.2.2)
  have hupd : (Prod.fst ∘ upd : Row × String × String → Row) = Database.updated seqid s ∘ Prod.fst := rfl
  refine ⟨l.map upd, ?_, ?_, ?_⟩
  · rw [updateMsgState, List.map_map, List.map_map]
    refine List.map_congr_left fun p _ => ?_
    by_cases hid : p.1.sequenceId = seqid <;> simp [Record.ofDated, Record.ofRow, upd, Database.updated, hid]
  · rw [List.map_map, hupd, ← List.map_map]
    exact (hl.map _).trans (Database.update_values seqid s).symm
  · rintro p hp
    obtain ⟨q, hq, rfl⟩ := List.mem_map.1 hp
    have hc := hclean q hq
    simp only [upd, Database.updated]
    split
    · exact ⟨hc.lower, hc.upper, hc.payload⟩
    · exact hc

theorem maxSequenceId_eq {n : Int} {row : Row} (hrow : db.rows[n]? = some row)
    (hle : ∀ (m : Int) (r : Row), db.rows[m]? = some r → m ≤ n) : db.maxSequenceId = n := by
  have hmem : n ∈ db.rows := by rw [← ExtTreeMap.isSome_getElem?_iff_mem, hrow]; rfl
  have hmax : db.rows.maxKey? = some n := by
    refine ExtTreeMap.maxKey?_eq_some_iff_mem_and_forall.2 ⟨hmem, fun k hk => Int.isLE_compare.2 ?_⟩
    obtain ⟨r, hr⟩ := Option.isSome_iff_exists.1 (ExtTreeMap.isSome_getElem?_iff_mem.2 hk)
    exact hle k r hr
  rw [Database.maxSequenceId, ← ExtTreeMap.maxKey?_eq_getLast?_keys, hmax]
  rfl

/-- The sequence id starts from the same number. -/
theorem initSequenceId_implements (h : table.Implements json db) : table.initSequenceId = db.maxSequenceId := by
  obtain ⟨l, rfl, hl, hclean⟩ := h
  have hids : (l.map (Record.ofDated json)).map (·.sequenceId) = (l.map (·.1)).map (·.sequenceId) := by
    rw [List.map_map, List.map_map]
    rfl
  unfold initSequenceId selectMax
  rw [hids]
  cases hmax : ((l.map (·.1)).map (·.sequenceId)).max? with
  | none =>
    have hnil : l = [] := by simpa using hmax
    have hvalues : db.rows.toList = [] := by
      subst hnil
      exact List.map_eq_nil_iff.1 (List.nil_perm.1 hl)
    have hkeys : db.rows.keys = [] := by rw [← ExtTreeMap.map_fst_toList_eq_keys, hvalues]; rfl
    rw [Database.maxSequenceId, hkeys]
    rfl
  | some n =>
    obtain ⟨hn, hle⟩ := List.max?_eq_some_iff.1 hmax
    obtain ⟨row, hrow, rfl⟩ := List.mem_map.1 hn
    obtain ⟨p, hp, rfl⟩ := List.mem_map.1 hrow
    have hid : readInt64 (toString p.1.sequenceId) = p.1.sequenceId :=
      readInt64_toString (hclean p hp).lower (hclean p hp).upper
    refine hid.trans (maxSequenceId_eq (Database.mem_values.1 (hl.mem_iff.1 hrow)) fun m r hr => hle m ?_).symm
    have hm := db.keyed hr
    exact List.mem_map.2 ⟨r, hl.mem_iff.2 (Database.mem_values.2 (hm.symm ▸ hr)), hm⟩

/-- What is taken from the images of a list is the image of what is taken from the list. -/
theorem exists_map_of_subperm {α β : Type} {f : α → β} {l : List α} {r : List β} (h : r.Subperm (l.map f)) :
    ∃ l' : List α, l'.Subperm l ∧ r = l'.map f := by
  obtain ⟨k, hperm, hsub⟩ := h
  obtain ⟨l', hl', rfl⟩ := List.sublist_map_iff.1 hsub
  obtain ⟨l₂, hr, hl₂⟩ : Relation.Comp (· = List.map f ·) List.Perm r l' := by
    rw [List.eq_map_comp_perm]
    exact hperm.symm
  exact ⟨l₂, hl₂.subperm.trans hl'.subperm, hr⟩

end

/-! ## Loading -/

section
variable {json : JsonText} {table : Table} {db : Database}

theorem loadRecords_ofDated {l : List (Row × String × String)} (hclean : ∀ p ∈ l, p.1.Clean json)
    (junk : Int → Int × Int) (m : MessageManager) :
    loadRecords json junk (l.map (Record.ofDated json)) m = some (Database.loadRows junk (l.map (·.1)) m) := by
  induction l generalizing m with
  | nil => rfl
  | cons p l ih =>
    have hp := readColumns_ofRow (hclean p (List.mem_cons_self ..)) p.2 (junk p.1.sequenceId)
    rw [List.map_cons, List.map_cons, loadRecords, Database.loadRows]
    show (readColumns json 0 ((Record.ofRow json p.1 p.2).columns.map SqlValue.argv)
      (.blank (junk p.1.sequenceId))).bind _ = _
    rw [hp, Option.bind_some]
    exact ih (fun q hq => hclean q (List.mem_cons_of_mem _ hq)) _

/-- The selection by columns is the selection of rows. -/
theorem filter_ofDated (l : List (Row × String × String)) (sid : SessionId) :
    (l.map (Record.ofDated json)).filter
        (fun r => (r.state = .integer 1 ∨ r.state = .integer 2) ∧ r.targetSession = .text sid) =
      (l.filter fun p => p.1.state.pending ∧ p.1.targetSession = sid).map (Record.ofDated json) := by
  rw [List.filter_map]
  refine congrArg _ (List.filter_congr fun p _ => ?_)
  have hstate : (SqlValue.integer p.1.state.toInt = .integer 1 ∨ SqlValue.integer p.1.state.toInt = .integer 2) ↔
      p.1.state.pending = true := by
    cases p.1.state <;> decide
  simp only [Function.comp_apply, Record.ofDated, Record.ofRow, hstate, SqlValue.text.injEq]

variable (json) in
/-- The selection by columns gives the records of the rows that the selection of rows gives. -/
theorem selectPending_ofDated {l : List (Row × String × String)} (hl : (l.map (·.1)).Perm db.values) {sid : SessionId}
    (hquote : quote ∉ sid.toList) :
    ∃ kept : List (Row × String × String), (∀ p ∈ kept, p ∈ l) ∧ (kept.map (·.1)).Perm (db.selectPending sid) ∧
      selectPending (l.map (Record.ofDated json)) sid hquote = kept.map (Record.ofDated json) := by
  by_cases hnul : NoNul sid
  · refine ⟨l.filter fun p => p.1.state.pending ∧ p.1.targetSession = sid, fun p hp => List.mem_of_mem_filter hp, ?_, ?_⟩
    · have hfilter : (l.filter fun p => p.1.state.pending ∧ p.1.targetSession = sid).map (·.1) =
          (l.map (·.1)).filter fun row => row.state.pending ∧ row.targetSession = sid := by
        rw [List.filter_map]
        rfl
      rw [hfilter]
      exact hl.filter _
    · rw [selectPending, if_pos hnul, filter_ofDated]
  · refine ⟨[], fun p hp => absurd hp List.not_mem_nil, ?_, ?_⟩
    · -- no row has a NUL in its target
      have hnone : db.selectPending sid = [] := List.eq_nil_iff_forall_not_mem.2 fun row hrow =>
        hnul ((Database.mem_selectPending.1 hrow).2.2 ▸ row.noNul.2.1)
      rw [hnone]
      exact List.Perm.nil
    · rw [selectPending, if_neg hnul]
      rfl

/-- A load makes the manager that a load of the database makes. -/
theorem loadPendingMessages_implements (h : table.Implements json db) (scan : Scan) (junk : Int → Int × Int)
    (m : MessageManager) (hquote : quote ∉ m.sessionId.toList) :
    ∃ scan' : Database.Scan, (scan.Complete → scan'.Complete) ∧
      table.loadPendingMessages json scan junk m hquote = some (db.loadPendingMessages scan' junk m) := by
  obtain ⟨l, rfl, hl, hclean⟩ := h
  obtain ⟨kept, hmem, hkept, hselect⟩ := selectPending_ofDated json hl hquote
  obtain ⟨read, hread, hrecords⟩ := exists_map_of_subperm (scan.subperm (kept.map (Record.ofDated json)))
  have hrows : (read.map (·.1)).Subperm (db.selectPending m.sessionId) := by
    obtain ⟨k, hperm, hsub⟩ := hread
    have hmap : (read.map (·.1)).Subperm (kept.map (·.1)) := ⟨k.map (·.1), hperm.map _, hsub.map _⟩
    exact hmap.trans hkept.subperm
  have hall : scan.Complete → (read.map (·.1)).Perm (db.selectPending m.sessionId) := fun hc => by
    refine hrows.perm_of_length_le ?_
    have hlen := (hc (kept.map (Record.ofDated json))).length_eq
    rw [hrecords, List.length_map, List.length_map] at hlen
    rw [← hkept.length_eq, List.length_map, List.length_map, hlen]
  -- the scan of the rows does on this selection what the scan of the records did
  classical
  refine ⟨⟨fun rows => if rows = db.selectPending m.sessionId then read.map (·.1) else rows, fun rows => ?_⟩,
    fun hc rows => ?_, ?_⟩
  · split
    · rename_i hr
      exact hr ▸ hrows
    · exact List.Subperm.refl _
  · show (if rows = db.selectPending m.sessionId then read.map (·.1) else rows).Perm rows
    split
    · rename_i hr
      exact hr ▸ hall hc
    · exact List.Perm.refl _
  · have hload := loadRecords_ofDated (fun p hp => hclean p (hmem p (hread.subset hp))) junk m
    rw [loadPendingMessages, hselect, hrecords, hload]
    show some _ = some (Database.loadRows junk (if _ then _ else _) m)
    rw [if_pos rfl]

end

end Table

/-! ## Runs of statements -/

/-- A statement with the time at which it is executed. -/
inductive Statement where
  | saveMsg (now : String) (msg : Message)
  | updateMsgState (now : String) (seqid : Int) (new_state : MessageState)

/-- The messages of a statement survive the columns. -/
def Statement.Clean (json : JsonText) : Statement → Prop
  | .saveMsg _ msg => (Row.ofMessage msg).Clean json
  | .updateMsgState .. => True

namespace Table

/-- A statement that fails throws and leaves the table as it is. -/
def exec (json : JsonText) (table : Table) : Statement → Table
  | .saveMsg now msg => (table.saveMsg json now msg).getD table
  | .updateMsgState now seqid new_state => table.updateMsgState now seqid new_state

def run (json : JsonText) (ss : List Statement) : Table := ss.foldl (exec json) []

end Table

namespace Database

def exec (db : Database) : Statement → Database
  | .saveMsg _ msg => (db.insert (.ofMessage msg)).getD db
  | .updateMsgState _ seqid new_state => db.update seqid new_state

def run (ss : List Statement) : Database := ss.foldl exec .empty

end Database

namespace Table

/-- The table of columns behaves as the database: the next insert fails on one iff on the other, the
sequence ids start from the same number, and a load makes a manager that a load of the database makes. -/
structure Agrees (json : JsonText) (table : Table) (db : Database) : Prop where
  saveMsg : ∀ now msg, (Row.ofMessage msg).Clean json →
    (table.saveMsg json now msg = none ↔ db.insert (.ofMessage msg) = none)
  initSequenceId : table.initSequenceId = db.maxSequenceId
  load : ∀ (scan : Scan) (junk : Int → Int × Int) (m : MessageManager) (hquote : quote ∉ m.sessionId.toList),
    ∃ scan' : Database.Scan, (scan.Complete → scan'.Complete) ∧
      table.loadPendingMessages json scan junk m hquote = some (db.loadPendingMessages scan' junk m)

section
variable {json : JsonText} {table : Table} {db : Database}

theorem exec_implements (h : table.Implements json db) {s : Statement} (hs : s.Clean json) :
    (table.exec json s).Implements json (db.exec s) := by
  cases s with
  | saveMsg now msg =>
    show ((table.saveMsg json now msg).getD table).Implements json ((db.insert (.ofMessage msg)).getD db)
    obtain ⟨ht, hd⟩ | ⟨table', db', ht, hd, h'⟩ := saveMsg_implements h now hs
    · rw [ht, hd]
      exact h
    · rw [ht, hd]
      exact h'
  | updateMsgState now seqid new_state => exact updateMsgState_implements h now seqid new_state

theorem foldl_implements {ss : List Statement} (hs : ∀ s ∈ ss, s.Clean json) (h : table.Implements json db) :
    (ss.foldl (exec json) table).Implements json (ss.foldl Database.exec db) := by
  induction ss generalizing table db with
  | nil => exact h
  | cons s ss ih =>
    exact ih (fun s' hs' => hs s' (List.mem_cons_of_mem _ hs')) (exec_implements h (hs s (List.mem_cons_self ..)))

theorem Implements.agrees (h : table.Implements json db) : table.Agrees json db where
  saveMsg now msg hmsg := by
    obtain ⟨ht, hd⟩ | ⟨table', db', ht, hd, -⟩ := saveMsg_implements h now hmsg <;> simp [ht, hd]
  initSequenceId := initSequenceId_implements h
  load scan junk m hquote := loadPendingMessages_implements h scan junk m hquote

end

/-- After any statements, the table of columns behaves as the database does. -/
theorem columns_agree (json : JsonText) (ss : List Statement) (hs : ∀ s ∈ ss, s.Clean json) :
    (Table.run json ss).Agrees json (Database.run ss) :=
  (foldl_implements hs (implements_empty json)).agrees

/-- A message saved, updated to pending and saved again, with the codec of the empty object. -/
theorem columns_agree_saved :
    (Table.run ⟨fun _ => "\x7b\x7d", fun _ => .object []⟩
        [.saveMsg "t0" (.new 7 .downstream "m" "g" "bal" "fcm" (.object [])), .updateMsgState "t1" 7 .pendingAck,
          .saveMsg "t2" (.new 7 .upstream "m" "" "fcm" "bal" (.object []))]).Agrees
      ⟨fun _ => "\x7b\x7d", fun _ => .object []⟩
      (Database.run
        [.saveMsg "t0" (.new 7 .downstream "m" "g" "bal" "fcm" (.object [])), .updateMsgState "t1" 7 .pendingAck,
          .saveMsg "t2" (.new 7 .upstream "m" "" "fcm" "bal" (.object []))]) := by
  refine columns_agree _ _ fun s hs => ?_
  simp only [List.mem_cons, List.not_mem_nil, or_false] at hs
  rcases hs with rfl | rfl | rfl
  · exact ⟨by decide, by decide, by decide, rfl⟩
  · trivial
  · exact ⟨by decide, by decide, by decide, rfl⟩

end Table

end Gimmm

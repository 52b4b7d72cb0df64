/-
Who may upload. A downstream message is saved under the property of the socket that sent it, and only an accepted
LOGON gives a socket a property; but a socket without one is not turned away. So every message comes from a logged-on
BAL as long as no upload request arrives before the LOGON.
-/
import Mathlib.Data.List.Induction
import Gimmm.Flow.Exact
import Gimmm.Flow.Sources
import Gimmm.Flow.Wiring
import Gimmm.Guarantees.Repeats

namespace Gimmm

open Std Prog CString

/-- A LOGON on the socket was accepted for the session, and the process has not ended since then. -/
def LoggedOn (cfg : List SessionId) (w : World) (is : List Input) (sock : SocketId) (sid : SessionId) : Prop :=
  ∃ is₁ i is₂, is = is₁ ++ i :: is₂ ∧ Accepts (run cfg w is₁) i sock sid ∧ Live cfg (run cfg w is₁) (i :: is₂)

/-- The message `n` was saved when a socket that had logged on to the configured session `sid` asked for it. -/
def Requested (cfg : List SessionId) (w : World) (is : List Input) (n : Int) (sid : SessionId) : Prop :=
  sid ∈ cfg ∧ ∃ is₁ i is₂ sock doc, is = is₁ ++ i :: is₂ ∧ i.event = .balFrame sock doc ∧
    Json.toString (doc.value gimmmfieldnames.messageType) = "DOWNSTREAM" ∧ (run cfg w is₁).db.rows[n]? = none ∧
    (run cfg w (is₁ ++ [i])).db.rows[n]? ≠ none ∧ LoggedOn cfg w is₁ sock sid

/-! ## Names of sockets -/

section
variable {cfg : List SessionId} {w : World} {i : Input} {sock : SocketId} {s' : Socket}

/-- An open socket that has a name after a step had it before, or its LOGON was accepted in the step. -/
theorem step_named (hwired : Wired (links w.app)) (hs' : (step cfg w i).app.sockets[sock]? = some s')
    (hconn : s'.connected = true) (hname : s'.sessionId ≠ "") : survives w i = true ∧
      ((∃ s, w.app.sockets[sock]? = some s ∧ s.connected = true ∧ s.sessionId = s'.sessionId) ∨
        ∃ sid, s'.sessionId = cString sid ∧ Accepts w i sock sid) := by
  obtain ⟨-, ⟨hlive, l, hrelink, htidied⟩ | ⟨-, env, db, happ⟩⟩ := step_links cfg w i
  · refine ⟨hlive, ?_⟩
    obtain ⟨s, hs, hcase⟩ := htidied.socket_eq hs'
    obtain ⟨hsconn, hsname⟩ : s.connected = true ∧ s.sessionId = s'.sessionId := by
      rcases hcase with rfl | ⟨-, rfl⟩
      · exact ⟨hconn, rfl⟩
      · exact ⟨hconn, rfl⟩
    rw [← hsname] at hname ⊢
    cases hrelink.remade hs with
    | same socket => exact Or.inl ⟨s, socket, hsconn, rfl⟩
    | opened => exact absurd rfl hname
    | closed => exact absurd rfl (Links.connected_iff.1 hsconn)
    | blocked socket due => exact Or.inl ⟨_, socket, hsconn, rfl⟩
    | @named sock₁ doc s₁ _ he logon sender connected unblocked entry known socket =>
      -- the entry is that of an open socket, which is the one the LOGON is from
      obtain rfl := hwired.sender sender entry socket hsconn
      have hentry : w.app.balSessionMapU[s₁.descriptor]? = some sock := entry
      refine Or.inr ⟨_, rfl, doc, s₁, he, logon, rfl, sender, connected, unblocked, by rw [hentry]; exact Option.some_ne_none _, ?_⟩
      exact fun hnone => known (Option.map_eq_none_iff.2 hnone)
  · rw [happ] at hs'
    have hs' : (∅ : ExtTreeMap SocketId Socket)[sock]? = some s' := hs'
    rw [ExtTreeMap.getElem?_empty] at hs'
    cases hs'

/-- An open socket that has a name had it at the start of the run, or its LOGON was accepted since. -/
theorem run_named (is : List Input) (hwired : Wired (links w.app)) (hs' : (run cfg w is).app.sockets[sock]? = some s')
    (hconn : s'.connected = true) (hname : s'.sessionId ≠ "") :
    (Live cfg w is ∧ ∃ s, w.app.sockets[sock]? = some s ∧ s.connected = true ∧ s.sessionId = s'.sessionId) ∨
      ∃ sid, s'.sessionId = cString sid ∧ LoggedOn cfg w is sock sid := by
  induction is generalizing w with
  | nil => exact Or.inl ⟨trivial, s', hs', hconn, rfl⟩
  | cons i is ih =>
    rcases ih (hwired.step i) hs' with ⟨hlive, s, hs, hsconn, hsname⟩ | ⟨sid, hsid, is₁, j, is₂, rfl, haccepts, hlive⟩
    · obtain ⟨hfirst, hcase⟩ := step_named hwired hs hsconn (by rw [hsname]; exact hname)
      rw [hsname] at hcase
      rcases hcase with hbefore | ⟨sid, hsid, haccepts⟩
      · exact Or.inl ⟨⟨hfirst, hlive⟩, hbefore⟩
      · exact Or.inr ⟨sid, hsid, [], i, is, rfl, haccepts, hfirst, hlive⟩
    · exact Or.inr ⟨sid, hsid, i :: is₁, j, is₂, rfl, haccepts, hlive⟩

/-- In a run from a start, whoever has a name has logged on to a session that has it up to its first NUL. -/
theorem run_loggedOn (cfg : List SessionId) (env : Env) (db : Database) (is : List Input)
    (hs' : (run cfg (boot cfg env db) is).app.sockets[sock]? = some s') (hconn : s'.connected = true)
    (hname : s'.sessionId ≠ "") : ∃ sid, s'.sessionId = cString sid ∧ LoggedOn cfg (boot cfg env db) is sock sid := by
  rcases run_named is (.start cfg env db) hs' hconn hname with ⟨-, s, hs, -⟩ | hlogged
  · have hs : (∅ : ExtTreeMap SocketId Socket)[sock]? = some s := hs
    rw [ExtTreeMap.getElem?_empty] at hs
    cases hs
  · exact hlogged

/-- Only a configured session accepts a LOGON. -/
theorem LoggedOn.configured {env : Env} {db : Database} {is : List Input} {sid : SessionId}
    (h : LoggedOn cfg (boot cfg env db) is sock sid) : sid ∈ cfg := by
  obtain ⟨is₁, i, is₂, -, ⟨doc, s, -, -, -, -, -, -, -, hknown⟩, -⟩ := h
  have hnamed : Named cfg (links (run cfg (boot cfg env db) is₁).app) :=
    Run.invariant_all (I := fun w : World => Named cfg (links w.app)) (fun _ i h => h.step i) is₁ (.start cfg env db)
  exact hnamed.session fun hnone => hknown (Option.map_eq_none_iff.1 hnone)

end

/-! ## Downstream rows -/

/-- Every downstream row of `w'` has the source of a row of `w`, or one in `S`. -/
def Brought (S : SessionId → Prop) (w w' : World) : Prop :=
  ∀ (n : Int) (row' : Row), w'.db.rows[n]? = some row' → row'.type = .downstream →
    (∃ row, w.db.rows[n]? = some row ∧ row.type = .downstream ∧ row.sourceSession = row'.sourceSession) ∨ S row'.sourceSession

section
variable {S : SessionId → Prop} {w w' : World} {i : Input}

instance : IsPreorder World (Brought S) where
  refl _ n row hrow htype := Or.inl ⟨row, hrow, htype, rfl⟩
  trans _ _ _ h h' _ row'' hrow'' htype'' := by
    rcases h' _ row'' hrow'' htype'' with ⟨row', hrow', htype', hsource'⟩ | hS
    · rw [← hsource']
      exact h _ row' hrow' htype'
    · exact Or.inr hS

theorem Brought.of_db (h : w'.db = w.db) : Brought S w w' := fun _ row hrow htype => Or.inl ⟨row, h ▸ hrow, htype, rfl⟩

theorem Brought.insert {msg : Message} {db : Database} (hmsg : msg.type = .downstream → S (cString msg.sourceSessionId))
    (hdb : w.db.insert (.ofMessage msg) = some db) : Brought S w { w with db := db } := by
  intro n row hrow htype
  rw [(Database.insert_some hdb).2 n] at hrow
  split at hrow
  · cases hrow
    exact Or.inr (hmsg htype)
  · exact Or.inl ⟨row, hrow, htype, rfl⟩

theorem Brought.update (w : World) (k : Int) (s : MessageState) : Brought S w { w with db := w.db.update k s } := by
  intro n row hrow htype
  rw [Database.update_getElem?] at hrow
  split at hrow
  · obtain ⟨row₀, hrow₀, rfl⟩ := Option.map_eq_some_iff.1 hrow
    exact Or.inl ⟨row₀, hrow₀, htype, rfl⟩
  · exact Or.inl ⟨row, hrow, htype, rfl⟩

theorem brought_messages : SettlementFrame (Brought S) where
  refl _ := trivial
  add _ _ _ := trivial
  touch _ _ _ _ := trivial
  increment _ := trivial
  counter _ _ := .of_db rfl
  insert _ _ _ htype hdb := .insert (fun ht => absurd ht htype) hdb
  mark w n := .update w n _
  putBal _ _ _ _ _ _ := .of_db rfl
  balWrite _ _ _ _ := .of_db rfl
  putFcm _ _ _ := .of_db rfl
  record _ _ := .of_db rfl
  update w n s := .update w n s
  retry _ _ _ := .of_db rfl

theorem brought_connections : ConnectionFrame (Brought S) where
  change _ _ _ _ _ _ := .of_db rfl
  logon _ _ _ := .of_db rfl

/-- The input is a request to upload on an open socket named `sid`. -/
def Requests (w : World) (i : Input) (sid : SessionId) : Prop :=
  ∃ sock doc s, i.event = .balFrame sock doc ∧ Json.toString (doc.value gimmmfieldnames.messageType) = "DOWNSTREAM" ∧
    w.app.sockets[sock]? = some s ∧ s.connected = true ∧ s.signalsBlocked = false ∧ s.sessionId = sid

theorem step_brought (cfg : List SessionId) (w : World) (i : Input) : Brought (Requests w i) w (step cfg w i) := by
  have hwp := wp_handle_frame (R := Brought (Requests w i)) (w := w) Env.closed_all brought_messages brought_connections
    i.event fun sock doc s he hsock hconn hblocked htype =>
      brought_messages.handleBalDownstreamUploadRequest Env.closed_all
        (fun _ msg _ hsource hdb => .insert (fun _ => ⟨sock, doc, s, he, htype, hsock, hconn, hblocked,
          by rw [hsource, cString_of_noNul s.noNul]⟩) hdb) w
  rcases step_cases cfg (i := i) trivial hwp with ⟨-, w', h, he⟩ | ⟨-, e, w', env, h, he⟩
  · rw [he]
    exact h
  · rw [he]
    exact h

end

/-- In a run in which only named sockets ask for uploads, every new downstream row was requested. -/
theorem run_requested (cfg : List SessionId) (hnul : ∀ sid ∈ cfg, NoNul sid) (env : Env) (db : Database) (is : List Input)
    (hreq : Run.Along (step cfg) (RequestsFrom (· ≠ "")) (boot cfg env db) is) {n : Int} {row : Row}
    (hold : db.rows[n]? = none) (hrow : (run cfg (boot cfg env db) is).db.rows[n]? = some row)
    (htype : row.type = .downstream) : Requested cfg (boot cfg env db) is n row.sourceSession := by
  induction is using List.reverseRecOn generalizing row with
  | nil =>
    have hrow : db.rows[n]? = some row := hrow
    rw [hold] at hrow
    cases hrow
  | append_singleton is i ih =>
    obtain ⟨hreq, hlast⟩ := (Run.along_append is).1 hreq
    have hrun : run cfg (boot cfg env db) (is ++ [i]) = step cfg (run cfg (boot cfg env db) is) i := Run.run_append ..
    have hext : ∀ {sid}, Requested cfg (boot cfg env db) is n sid → Requested cfg (boot cfg env db) (is ++ [i]) n sid := by
      rintro sid ⟨hsid, is₁, j, is₂, sock, doc, rfl, h⟩
      exact ⟨hsid, is₁, j, is₂ ++ [i], sock, doc, by simp, h⟩
    cases hbefore : (run cfg (boot cfg env db) is).db.rows[n]? with
    | some old =>
      obtain ⟨s, hs⟩ := step_rowsStay (run_base cfg env db is) i n old hbefore
      have hsame : some row = some { old with state := s } := hrow.symm.trans (by rw [hrun]; exact hs)
      cases hsame
      have hrequested := ih hreq hbefore htype
      exact hext hrequested
    | none =>
      rcases step_brought cfg (run cfg (boot cfg env db) is) i n row (by rw [← hrun]; exact hrow) htype with
        ⟨old, hold', -⟩ | ⟨sock, doc, s, he, hdown, hsock, hconn, hblocked, hname⟩
      · rw [hbefore] at hold'
        cases hold'
      · have hnonempty : s.sessionId ≠ "" := hlast.1 sock doc s he hsock hconn hblocked hdown
        obtain ⟨sid, hsid, hlogged⟩ := run_loggedOn cfg env db is hsock hconn hnonempty
        rw [cString_of_noNul (hnul sid hlogged.configured)] at hsid
        rw [← hname, hsid]
        refine ⟨hlogged.configured, is, i, [], sock, doc, rfl, he, hdown, hbefore, ?_, hlogged⟩
        rw [hrow]
        exact Option.some_ne_none _

/-! ## Frames of other sockets -/

/-- Neither the table nor a manager is changed, and nothing is sent to FCM. -/
structure Untouched (w w' : World) : Prop where
  db : w'.db = w.db
  fcm : w'.app.fcmMsgManager = w.app.fcmMsgManager
  bal : w'.app.balManager = w.app.balManager
  log : ∃ new, w'.log = new ++ w.log ∧ ∀ o ∈ new, ¬ o.Sends

instance : IsPreorder World Untouched where
  refl _ := ⟨rfl, rfl, rfl, [], rfl, fun _ h => by cases h⟩
  trans _ _ _ h h' := by
    obtain ⟨new, hnew, hsends⟩ := h.log
    obtain ⟨new', hnew', hsends'⟩ := h'.log
    refine ⟨h'.db.trans h.db, h'.fcm.trans h.fcm, h'.bal.trans h.bal, new' ++ new, ?_, fun o ho => ?_⟩
    · rw [hnew', hnew, List.append_assoc]
    · rcases List.mem_append.1 ho with ho | ho
      · exact hsends' o ho
      · exact hsends o ho

theorem untouched_connections : ConnectionFrame Untouched where
  change _ _ fcm bal _ _ := ⟨rfl, fcm, bal, [], rfl, fun _ h => by cases h⟩
  logon w sid sock := by
    refine ⟨rfl, rfl, rfl, [⟨.balWrite sid sock (logonResponse sid), w.toServer⟩], rfl, fun o ho => ?_⟩
    cases List.mem_singleton.1 ho
    rintro (⟨msg, h⟩ | ⟨original, doc, h⟩) <;> cases h

section
variable {cfg : List SessionId} {w : World} {i : Input} {sock : SocketId} {doc : Json}

/-- A frame on a socket without a name, if it is no request to upload. -/
theorem handle_unnamed (hcfg : "" ∉ cfg) (hb : Base cfg (books w) .none) (hreq : RequestsFrom (· ≠ "") w i)
    (he : i.event = .balFrame sock doc)
    (hname : ∀ s, w.app.sockets[sock]? = some s → s.connected = true → s.sessionId = "") :
    Ends (fun _ r => Untouched w r.1) (fun _ r => Untouched w r.1) (handle i.event (w, i.env)) := by
  rw [he]
  by_cases hopen : ∃ s, w.app.sockets[sock]? = some s ∧ (s.connected && !s.signalsBlocked) = true
  · obtain ⟨s, hsock, hopen⟩ := hopen
    rw [handle_balFrame hsock hopen]
    rw [Bool.and_eq_true, Bool.not_eq_true'] at hopen
    have hunnamed := hname s hsock hopen.1
    refine guarded_ends ?_
    by_cases hlogon : Json.toString (doc.value gimmmfieldnames.messageType) = "LOGON"
    · rw [show handleBALmsg s doc = _ from if_pos hlogon]
      exact (untouched_connections.handleBalLogonRequest Env.closed_all w i.env trivial).mono (fun _ _ h => h.2)
        fun _ _ h => h.2
    by_cases hdown : Json.toString (doc.value gimmmfieldnames.messageType) = "DOWNSTREAM"
    · exact absurd hunnamed (hreq sock doc s he hsock hopen.1 hopen.2 hdown)
    by_cases hack : Json.toString (doc.value gimmmfieldnames.messageType) = "ACK"
    · rw [show handleBALmsg s doc = _ from (if_neg hlogon).trans ((if_neg hdown).trans (if_pos hack)), hunnamed,
        balAck_lacking fun m hm => absurd ((hb.known "").1 ⟨m, hm⟩) hcfg]
      exact refl w
    · rw [show handleBALmsg s doc = _ from (if_neg hlogon).trans ((if_neg hdown).trans (if_neg hack))]
      exact refl w
  · rw [handle_balFrame_ignored fun s hsock => Bool.not_eq_true _ ▸ fun h => hopen ⟨s, hsock, h⟩]
    exact refl w

end

/-- Every downstream message that is not of the table `db` was requested: it is in the table, queued or sent. -/
structure AllRequested (cfg : List SessionId) (env : Env) (db : Database) (is : List Input) : Prop where
  rows : ∀ (n : Int) (row : Row), db.rows[n]? = none → (run cfg (boot cfg env db) is).db.rows[n]? = some row →
    row.type = .downstream → Requested cfg (boot cfg env db) is n row.sourceSession
  queue : ∀ (n : Int) (msg : Message), db.rows[msg.sequenceId]? = none →
    (run cfg (boot cfg env db) is).app.fcmMsgManager.messages[n]? = some msg → msg.type = .downstream →
    Requested cfg (boot cfg env db) is msg.sequenceId msg.sourceSessionId
  uploads : ∀ (o : Obs) (msg : Message), db.rows[msg.sequenceId]? = none → o ∈ (run cfg (boot cfg env db) is).log →
    o.what = .upload msg → msg.type = .downstream → Requested cfg (boot cfg env db) is msg.sequenceId msg.sourceSessionId

/-- In every run in which only named sockets ask for uploads, every new downstream message was requested by a BAL that
had logged on, and the frames of other sockets touch neither the messages nor FCM. No session is configured under the
empty id or one with a NUL. -/
theorem uploads_requested (cfg : List SessionId) (hcfg : "" ∉ cfg) (hnul : ∀ sid ∈ cfg, NoNul sid) (env : Env)
    (db : Database) (is : List Input)
    (hreq : Run.Along (step cfg) (RequestsFrom (· ≠ "")) (boot cfg env db) is) :
    (∀ is₁, is₁ <+: is → AllRequested cfg env db is₁) ∧
    ∀ is₁ i is₂ sock doc w, is = is₁ ++ i :: is₂ → i.event = .balFrame sock doc → w = run cfg (boot cfg env db) is₁ →
      (∀ sid, ¬ LoggedOn cfg (boot cfg env db) is₁ sock sid) →
      (step cfg w i).db = w.db ∧ (∃ new, (step cfg w i).log = new ++ w.log ∧ ∀ o ∈ new, ¬ o.Sends) ∧
      (survives w i = true → Untouched w (step cfg w i)) := by
  constructor
  · rintro is₁ ⟨is₂, rfl⟩
    have hreq₁ := ((Run.along_append is₁).1 hreq).1
    have hb := run_base cfg env db is₁
    have hsaved : ∀ {msg : Message}, Saved (books (run cfg (boot cfg env db) is₁)).toStores msg →
        db.rows[msg.sequenceId]? = none → msg.type = .downstream →
        Requested cfg (boot cfg env db) is₁ msg.sequenceId msg.sourceSessionId := by
      rintro msg ⟨row, hrow, hsaves⟩ hold htype
      rw [← hsaves.sourceSession]
      exact run_requested cfg hnul env db is₁ hreq₁ hold hrow (hsaves.type.trans htype)
    constructor
    · intro n row hold hrow htype
      exact run_requested cfg hnul env db is₁ hreq₁ hold hrow htype
    · intro n msg hold hn htype
      exact hsaved (hb.fcmHeld hn).saved hold htype
    · intro o msg hold ho hw htype
      exact hsaved (hb.uploads ho hw) hold htype
  · rintro is₁ i is₂ sock doc w rfl he rfl hnot
    obtain ⟨-, hlast⟩ := (Run.along_append is₁).1 hreq
    -- an open socket with a property has logged on, so this one has none
    have hname : ∀ s, (run cfg (boot cfg env db) is₁).app.sockets[sock]? = some s → s.connected = true → s.sessionId = "" :=
      fun s hs hconn => by_contra fun hne => (run_loggedOn cfg env db is₁ hs hconn hne).elim fun sid h => hnot sid h.2
    have hends := handle_unnamed hcfg (run_base cfg env db is₁) hlast.1 he hname
    generalize run cfg (boot cfg env db) is₁ = w at *
    unfold step survives
    cases hh : handle i.event (w, i.env) with
    | ok a r =>
      rw [hh] at hends
      have hends : Untouched w r.1 := hends
      obtain ⟨hfcm, hbal, -⟩ := destroyConns_fields r.1.app
      exact ⟨hends.db, hends.log, fun _ => ⟨hends.db, hfcm.trans hends.fcm, hbal.trans hends.bal, hends.log⟩⟩
    | error e r =>
      rw [hh] at hends
      have hends : Untouched w r.1 := hends
      exact ⟨hends.db, hends.log, fun hlive => by cases hlive⟩

theorem uploads_requested_acked : AllRequested ["bal"] .quiet .empty acked := by
  refine (uploads_requested ["bal"] (by decide) (by decide) .quiet .empty acked ⟨?_, ?_, ?_, ?_, trivial⟩).1 acked (List.prefix_refl _)
  · intro sock doc s he
    cases he
  · intro sock doc s he hsock hconn hblocked htype
    cases he
    exact absurd htype (by decide)
  · intro sock doc s he hsock hconn hblocked htype
    cases he
    have hnamed : ((run ["bal"] (boot ["bal"] .quiet .empty) (loggedOn "bal")).app.sockets[(0 : SocketId)]?).all
        (fun s => s.sessionId = "bal") = true := by decide +kernel
    rw [show (run ["bal"] (boot ["bal"] .quiet .empty) (loggedOn "bal")).app.sockets[(0 : SocketId)]? = some s from hsock] at hnamed
    rw [show s.sessionId = "bal" from of_decide_eq_true hnamed]
    decide
  · intro sock doc s he
    cases he

/-- A connection that asks for an upload and sends no LOGON. -/
def unannounced : List Input := [.quiet (.newBALConnection 5), .quiet (.balFrame 0 (balDownstream "a" ""))]

/-- The message is saved, queued and sent to FCM, from a session that is not there. -/
theorem uploads_unannounced :
    ¬ AllRequested ["bal"] .quiet .empty unannounced ∧
    (run ["bal"] (boot ["bal"] .quiet .empty) unannounced).app.fcmMsgManager.messages[(1 : Int)]?.map (·.sourceSessionId) =
      some "" ∧
    ((run ["bal"] (boot ["bal"] .quiet .empty) unannounced).log.filterMap fun o =>
      match o.what with | .upload msg => some msg.sourceSessionId | _ => none) = [""] := by
  refine ⟨fun h => ?_, by decide +kernel, by decide +kernel⟩
  have hrow : (run ["bal"] (boot ["bal"] .quiet .empty) unannounced).db.rows[(1 : Int)]?.map
      (fun row => (row.type, row.sourceSession)) = some (.downstream, "") := by decide +kernel
  obtain ⟨row, hrow, hp⟩ := Option.map_eq_some_iff.1 hrow
  obtain ⟨htype, hsource⟩ := Prod.mk.inj hp
  have hnone : Database.empty.rows[(1 : Int)]? = none := ExtTreeMap.getElem?_empty
  have hknown := (h.rows 1 row hnone hrow htype).1
  rw [hsource] at hknown
  exact absurd hknown (by decide)

end Gimmm

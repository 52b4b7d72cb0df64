/-
The state of a session and its connection. A disconnect finds the session by the name on the socket, whatever
connection the session has by then; so the state follows the connection as long as no disconnect is delivered of a
socket whose session was taken over or has an id with a NUL, and a LOGON binds a connection that is open.
-/
import Mathlib.Data.List.Induction
import Gimmm.Flow.Wiring

namespace Gimmm

open Std Prog CString

/-- The input delivers the disconnect of the socket. -/
def Disconnects (i : Input) (b : Stores) (sock : SocketId) : Prop :=
  i.event = .balDisconnected sock ∨ Expires i b (.deleteSocket sock)

/-- No disconnect is delivered of a socket whose session is authenticated over another one, or has an id with a NUL, and a
LOGON that is accepted finds the entry of an open connection. -/
structure Undisturbed (i : Input) (b : Stores) (l : Links) : Prop where
  disconnect : ∀ sock s c, Disconnects i b sock → l.socket sock = some s → s.connected = true → s.signalsBlocked = false →
    l.session s.sessionId = some (some c, .authenticated) → c = sock
  named : ∀ sock s sid st, Disconnects i b sock → l.socket sock = some s → s.connected = true → s.signalsBlocked = false →
    l.session sid = some (some sock, st) → NoNul sid
  logon : ∀ sock doc s conn s', i.event = .balFrame sock doc → l.socket sock = some s → s.connected = true →
    s.signalsBlocked = false → Json.toString (doc.value gimmmfieldnames.messageType) = "LOGON" →
    l.session (Json.toString (doc.value gimmmfieldnames.sessionId)) ≠ none → l.unauthenticated s.descriptor = some conn →
    l.socket conn = some s' → s'.connected = true

/-- The connection of a session is open exactly when the session is authenticated; it is named after the session,
hears its signals, and has neither an entry nor an authentication timer. -/
structure Follows (l : Links) : Prop where
  unbound : ∀ {sid : SessionId} {st : SessionState}, l.session sid = some (none, st) → st = .unauthenticated
  bound : ∀ {sid : SessionId} {c : SocketId} {st : SessionState}, l.session sid = some (some c, st) →
    ∃ s, l.socket c = some s ∧ s.sessionId = cString sid ∧ s.signalsBlocked = false ∧ (st = .authenticated ↔ s.connected = true)
  untimed : ∀ {sid : SessionId} {c : SocketId} {st : SessionState}, l.session sid = some (some c, st) →
    .authentication c ∉ l.timers
  unlisted : ∀ {sid : SessionId} {c : SocketId} {st : SessionState} {d : Int}, l.session sid = some (some c, st) →
    l.unauthenticated d ≠ some c

/-! ## One event -/

section
variable {i : Input} {b : Stores} {l l' : Links}

namespace Follows

/-- Sessions and their sockets stay; what is new is about a new socket. -/
theorem same (h : Follows l) (hwired : Wired l) (hsession : l'.session = l.session)
    (hsocket : ∀ {sid : SessionId} {c : SocketId} {st : SessionState}, l.session sid = some (some c, st) →
      l'.socket c = l.socket c)
    (hentry : ∀ {d : Int} {c : SocketId}, l'.unauthenticated d = some c → l.unauthenticated d = some c ∨ c = l.nextSocket)
    (htimers : ∀ {c : SocketId}, .authentication c ∈ l'.timers → .authentication c ∈ l.timers ∨ c = l.nextSocket) :
    Follows l' := by
  have hold : ∀ {sid : SessionId} {c : SocketId} {st : SessionState}, l.session sid = some (some c, st) → c ≠ l.nextSocket :=
    fun hsid => Nat.ne_of_lt (hwired.referenced (Or.inr (Or.inl ⟨_, _, hsid⟩)))
  constructor
  · intro sid st hsid
    rw [hsession] at hsid
    exact h.unbound hsid
  · intro sid c st hsid
    rw [hsession] at hsid
    rw [hsocket hsid]
    exact h.bound hsid
  · intro sid c st hsid ht
    rw [hsession] at hsid
    exact (htimers ht).elim (h.untimed hsid) (hold hsid)
  · intro sid c st d hsid hd
    rw [hsession] at hsid
    exact (hentry hd).elim (h.unlisted hsid) (hold hsid)

/-- A disconnect that does not take the session from another connection. -/
theorem disconnected (h : Follows l) (hwired : Wired l) {sock : SocketId}
    (hcalm : ∀ s c, l.socket sock = some s → s.connected = true → s.signalsBlocked = false →
      l.session s.sessionId = some (some c, .authenticated) → c = sock)
    (hnamed : ∀ s sid st, l.socket sock = some s → s.connected = true → s.signalsBlocked = false →
      l.session sid = some (some sock, st) → NoNul sid) : Follows (l.disconnected sock) := by
  unfold Links.disconnected
  cases hs : l.socket sock with
  | none => exact h
  | some s =>
    dsimp only
    split
    · rename_i hconn
      have hother : ∀ {c : SocketId}, c ≠ sock →
          (l.setSocket sock ({ · with descriptor := -1 })).socket c = l.socket c := fun hc => if_neg hc
      split
      · -- a blocked socket is bound to no session
        rename_i hblocked
        refine h.same hwired rfl (fun hsid => hother ?_) Or.inl Or.inl
        rintro rfl
        obtain ⟨s', hs', -, hopen, -⟩ := h.bound hsid
        rw [hs] at hs'
        cases hs'
        rw [hblocked] at hopen
        cases hopen
      · rename_i hopen
        rw [Bool.not_eq_true] at hopen
        have hclosed : (l.setSocket sock ({ · with descriptor := -1 })).socket sock = some { s with descriptor := -1 } :=
          (if_pos rfl).trans (by rw [hs]; rfl)
        have hnone : l.unauthenticated (-1) = none := by
          cases hentry : l.unauthenticated (-1) with
          | none => rfl
          | some c => exact absurd (hwired.entry hentry) (by decide)
        unfold Links.handleDisconnect
        rw [show (l.setSocket sock ({ · with descriptor := -1 })).unauthenticated (-1) = none from hnone]
        dsimp only
        have hsession : ∀ {sid : SessionId} {p : Option SocketId × SessionState},
            (if sid = s.sessionId then (l.session sid).map (fun p => (p.1, SessionState.unauthenticated)) else l.session sid) =
              some p → (sid = s.sessionId ∧ p.2 = .unauthenticated ∧ ∃ st, l.session sid = some (p.1, st)) ∨
                (sid ≠ s.sessionId ∧ l.session sid = some p) := by
          intro sid p hp
          split at hp
          · rename_i hsid
            obtain ⟨⟨conn, st⟩, hold, rfl⟩ := Option.map_eq_some_iff.1 hp
            exact Or.inl ⟨hsid, rfl, st, hold⟩
          · rename_i hsid
            exact Or.inr ⟨hsid, hp⟩
        constructor
        · intro sid st hsid
          rcases hsession hsid with ⟨-, hst, -⟩ | ⟨-, hold⟩
          · exact hst
          · exact h.unbound hold
        · intro sid c st hsid
          rcases hsession hsid with ⟨rfl, hst, st₀, hold⟩ | ⟨hne, hold⟩
          · obtain rfl : st = .unauthenticated := hst
            obtain ⟨s', hs', hname, hopen', hiff⟩ := h.bound hold
            -- a session over another connection is not authenticated, so that one is not open
            by_cases hc : c = sock
            · subst hc
              rw [hs] at hs'
              cases hs'
              exact ⟨_, hclosed, hname, hopen, iff_of_false (by decide) fun hc => Links.connected_iff.1 hc rfl⟩
            · refine ⟨s', (hother hc).trans hs', hname, hopen', iff_of_false (by decide) fun hc' => hc ?_⟩
              rw [hiff.2 hc'] at hold
              exact hcalm s c hs hconn hopen hold
          · obtain ⟨s', hs', hname, hrest⟩ := h.bound hold
            refine ⟨s', (hother ?_).trans hs', hname, hrest⟩
            rintro rfl
            rw [hs] at hs'
            cases hs'
            exact hne ((cString_of_noNul (hnamed s sid st hs hconn hopen hold)).symm.trans hname.symm)
        · intro sid c st hsid
          rcases hsession hsid with ⟨-, -, st₀, hold⟩ | ⟨-, hold⟩
          · exact h.untimed hold
          · exact h.untimed hold
        · intro sid c st d hsid
          rcases hsession hsid with ⟨-, -, st₀, hold⟩ | ⟨-, hold⟩
          · exact h.unlisted hold
          · exact h.unlisted hold
    · exact h

/-- A LOGON whose entry is that of its own socket. -/
theorem accepted (h : Follows l) (hwired : Wired l) {sock : SocketId} {sid : SessionId} {s : Socket} {ts : List Timer}
    (hs : l.socket sock = some s) (connected : s.connected = true) (unblocked : s.signalsBlocked = false)
    (entry : l.unauthenticated s.descriptor = some sock) (resend : ∀ t ∈ ts, t = .resend sid) :
    Follows ((((l.cancel sock).erase s.descriptor).accepted sid sock).addTimers ts) := by
  have hsession : ∀ {sid' : SessionId} {p : Option SocketId × SessionState},
      (if sid' = sid then (l.session sid').map (fun _ => (some sock, SessionState.authenticated)) else l.session sid') =
        some p → (sid' = sid ∧ p = (some sock, .authenticated)) ∨ (sid' ≠ sid ∧ l.session sid' = some p) := by
    intro sid' p hp
    split at hp
    · rename_i hsid
      obtain ⟨_, -, rfl⟩ := Option.map_eq_some_iff.1 hp
      exact Or.inl ⟨hsid, rfl⟩
    · rename_i hsid
      exact Or.inr ⟨hsid, hp⟩
  have htimers : ∀ {c : SocketId},
      .authentication c ∈ ((((l.cancel sock).erase s.descriptor).accepted sid sock).addTimers ts).timers →
      .authentication c ∈ l.timers ∧ c ≠ sock := by
    intro c ht
    rcases List.mem_append.1 ht with ht | ht
    · obtain ⟨ht, hne⟩ := List.mem_filter.1 ht
      exact ⟨ht, of_decide_eq_true hne⟩
    · cases resend _ ht
  -- this socket is still listed, so it is the connection of no session
  have hother : ∀ {sid' : SessionId} {c : SocketId} {st : SessionState}, l.session sid' = some (some c, st) → c ≠ sock :=
    fun hsid hc => h.unlisted hsid (hc ▸ entry)
  constructor
  · intro sid' st hsid
    rcases hsession hsid with ⟨-, hp⟩ | ⟨-, hold⟩
    · cases hp
    · exact h.unbound hold
  · intro sid' c st hsid
    rcases hsession hsid with ⟨rfl, hp⟩ | ⟨-, hold⟩
    · cases hp
      refine ⟨s.named sid', (if_pos rfl).trans ?_, rfl, unblocked, iff_of_true rfl connected⟩
      show (l.socket sock).map _ = _
      rw [hs]
      rfl
    · obtain ⟨s', hs', hrest⟩ := h.bound hold
      exact ⟨s', (if_neg (hother hold)).trans hs', hrest⟩
  · intro sid' c st hsid ht
    rcases hsession hsid with ⟨-, hp⟩ | ⟨-, hold⟩
    · cases hp
      exact (htimers ht).2 rfl
    · exact h.untimed hold (htimers ht).1
  · intro sid' c st d hsid hd
    have hd : (if d = s.descriptor then none else l.unauthenticated d) = some c := hd
    split at hd
    · cases hd
    · rename_i hne
      rcases hsession hsid with ⟨-, hp⟩ | ⟨-, hold⟩
      · cases hp
        exact hne (hwired.entered hd hs connected).symm
      · exact h.unlisted hold hd

/-- What an event leaves. -/
theorem relink (h : Follows l) (hwired : Wired l) (halive : Alive l) (hcalm : Undisturbed i b l) (hr : Relink i b l l') :
    Follows l' := by
  cases hr with
  | same => exact h
  | @opened d he nonneg free =>
    refine h.same hwired rfl (fun {sid c st} hsid => ?_) (fun {k c} hk => ?_) fun {c} ht => ?_
    · obtain ⟨s, hs, -⟩ := h.bound hsid
      show (l.socket c).or _ = l.socket c
      rw [hs]
      rfl
    · rcases Option.or_eq_some_iff.1 hk with hk | ⟨-, hk⟩
      · exact Or.inl hk
      · split at hk
        · exact Or.inr (Option.some.inj hk).symm
        · cases hk
    · rcases List.mem_append.1 ht with ht | ht
      · exact Or.inl ht
      · cases List.mem_singleton.1 ht
        exact Or.inr rfl
  | @rejected sock doc s conn =>
    refine h.same hwired rfl (fun _ => rfl) (fun {k c} hk => Or.inl ?_) fun ht => Or.inl (List.mem_of_mem_filter ht)
    exact (Links.Narrows.erase s.descriptor).entry hk
  | @accepted sock doc s conn ts he logon socket connected unblocked entry known resend =>
    obtain ⟨s', hs', -⟩ := halive.socket (Or.inl ⟨_, entry⟩)
    have hconn := hcalm.logon sock doc s conn s' he socket connected unblocked logon known entry hs'
    obtain rfl := hwired.sender socket entry hs' hconn
    exact h.accepted hwired socket connected unblocked entry resend
  | @disconnected sock he =>
    exact h.disconnected hwired (fun s c => hcalm.disconnect sock s c (Or.inl he))
      fun s sid st => hcalm.named sock s sid st (Or.inl he)
  | @timedOut sock s ts expires due rest socket =>
    refine h.same hwired rfl (fun {sid c st} hsid => if_neg ?_) (fun {k c} hk => Or.inl ?_) fun ht => Or.inl (rest.subset ht)
    · rintro rfl
      exact h.untimed hsid due
    · exact (Links.Narrows.erase s.descriptor).entry hk
  | @deleted sock ts expires due rest =>
    have hrest : Follows (l.setTimers ts) := h.same hwired rfl (fun _ => rfl) Or.inl fun ht => Or.inl (rest.subset ht)
    have hwired' : Wired (l.setTimers ts) := hwired.narrowed (.setTimers rest)
    -- nothing refers to a socket that is to be deleted, so no session loses its connection
    have hclosed := hrest.disconnected hwired' (fun s c => hcalm.disconnect sock s c (Or.inr expires))
      fun s sid st => hcalm.named sock s sid st (Or.inr expires)
    have hgone : ∀ {sid : SessionId} {c : SocketId} {st : SessionState},
        ((l.setTimers ts).disconnected sock).session sid = some (some c, st) → c ≠ sock := by
      rintro sid c st hsid rfl
      have hnarrow : l.Narrows ((l.setTimers ts).disconnected c) :=
        (Links.Narrows.setTimers rest).trans (.disconnected c)
      exact halive.undeleted (hnarrow.referenced (Or.inr (Or.inl ⟨sid, st, hsid⟩))) due
    exact hclosed.same (hwired'.narrowed (.disconnected sock)) rfl (fun hsid => if_neg (hgone hsid)) Or.inl Or.inl
  | waited he rest => exact h.same hwired rfl (fun _ => rfl) Or.inl fun ht => Or.inl (rest.subset ht)
  | established => exact h.same hwired rfl (fun _ => rfl) Or.inl Or.inl
  | drained => exact h.same hwired rfl (fun _ => rfl) Or.inl Or.inl
  | lost he reconnect =>
    refine h.same hwired rfl (fun _ => rfl) Or.inl fun ht => ?_
    rcases List.mem_append.1 ht with ht | ht
    · exact Or.inl ht
    · cases reconnect _ ht

theorem tidied (h : Follows l) (hwired : Wired l) (ht : l.Tidied l') : Follows l' := by
  refine h.same hwired ht.session (fun {sid c st} hsid => ?_) (fun hk => Or.inl (ht.unauthenticated ▸ hk)) fun {c} hc => ?_
  · obtain ⟨s, hs, -⟩ := h.bound hsid
    rw [hs]
    exact ht.kept (Or.inr (Or.inl ⟨sid, st, hsid⟩)) hs
  · rcases ht.timers.1 hc with hc | ⟨sock, s, he, -⟩
    · exact Or.inl hc
    · cases he

theorem start (cfg : List SessionId) (env : Env) (db : Database) : Follows (links (.start cfg env db)) := by
  have hnone : ∀ {sid : SessionId} {c : SocketId} {st : SessionState},
      (links (.start cfg env db)).session sid = some (some c, st) → False := fun hsid =>
    absurd ((Wired.start cfg env db).referenced (Or.inr (Or.inl ⟨_, _, hsid⟩))) (Nat.not_lt_zero _)
  refine ⟨fun {sid st} hsid => ?_, fun hsid => (hnone hsid).elim, fun hsid => (hnone hsid).elim, fun hsid => (hnone hsid).elim⟩
  obtain ⟨sess, hsess, hp⟩ := Option.map_eq_some_iff.1 hsid
  rw [show (Application.start cfg env db).balSessionMap[sid]? = _ from foldl_insertIfNew _ cfg ∅ sid,
    ExtTreeMap.getElem?_empty, Option.none_or] at hsess
  split at hsess
  · cases hsess
    exact (Prod.mk.inj hp).2.symm
  · cases hsess

theorem step {cfg : List SessionId} {w : World} (h : Follows (links w.app)) (hwired : Wired (links w.app))
    (halive : Alive (links w.app)) {i : Input} (hcalm : Undisturbed i (stores w.toServer) (links w.app)) :
    Follows (links (step cfg w i).app) := by
  obtain ⟨-, ⟨-, l, hrelink, htidied⟩ | ⟨-, env, db, happ⟩⟩ := step_links cfg w i
  · exact (h.relink hwired halive hcalm hrelink).tidied (hwired.relink hrelink) htidied
  · rw [happ]
    exact .start cfg env db

end Follows

end

/-! ## The connection of a session -/

section
variable {i : Input} {b : Stores} {l l' : Links} {sid : SessionId}

theorem Links.disconnected_conn (l : Links) (sock : SocketId) (sid : SessionId) :
    ((l.disconnected sock).session sid).map (·.1) = (l.session sid).map (·.1) := by
  have hstate : ∀ (l : Links) (name : SessionId),
      ((l.setSession name fun p => (p.1, .unauthenticated)).session sid).map (·.1) = (l.session sid).map (·.1) := by
    intro l name
    show Option.map _ (if sid = name then (l.session sid).map (fun p => (p.1, SessionState.unauthenticated)) else l.session sid) = _
    split
    · rw [Option.map_map]
      rfl
    · rfl
  unfold disconnected
  split
  · rfl
  · split
    · split
      · rfl
      · unfold handleDisconnect
        split
        · rfl
        · exact hstate _ _
    · rfl

variable (sid) in
/-- Only an accepted LOGON binds a session to a connection. -/
theorem Relink.conn (hr : Relink i b l l') : (l'.session sid).map (·.1) = (l.session sid).map (·.1) ∨
    ∃ sock doc s conn, i.event = .balFrame sock doc ∧ Json.toString (doc.value gimmmfieldnames.messageType) = "LOGON" ∧
      Json.toString (doc.value gimmmfieldnames.sessionId) = sid ∧ l.socket sock = some s ∧ s.connected = true ∧
      s.signalsBlocked = false ∧ l.unauthenticated s.descriptor = some conn ∧ l.session sid ≠ none := by
  cases hr with
  | @accepted sock doc s conn ts he logon socket connected unblocked entry known resend =>
    by_cases hsid : sid = Json.toString (doc.value gimmmfieldnames.sessionId)
    · subst hsid
      exact Or.inr ⟨sock, doc, s, conn, he, logon, rfl, socket, connected, unblocked, entry, known⟩
    · exact Or.inl (congrArg (Option.map _) (if_neg hsid))
  | disconnected => exact Or.inl (Links.disconnected_conn ..)
  | deleted => exact Or.inl (Links.disconnected_conn ..)
  | _ => exact Or.inl rfl

end

section
variable {cfg : List SessionId} {w : World} {i : Input} {sid : SessionId} {sock sock' : SocketId}

theorem Accepts.unique (h : Accepts w i sock sid) (h' : Accepts w i sock' sid) : sock = sock' := by
  obtain ⟨doc, s, he, -⟩ := h
  obtain ⟨doc', s', he', -⟩ := h'
  rw [he] at he'
  cases he'
  rfl

/-- A step that accepts no LOGON for the session leaves its connection, and the restart of the process drops it. -/
theorem step_conn (hno : ∀ sock, ¬ Accepts w i sock sid) (hlive : survives w i = true) :
    ((links (step cfg w i).app).session sid).map (·.1) = ((links w.app).session sid).map (·.1) := by
  obtain ⟨-, ⟨-, l, hrelink, htidied⟩ | ⟨hdead, -⟩⟩ := step_links cfg w i
  · rw [htidied.session]
    rcases hrelink.conn sid with h | ⟨sock, doc, s, conn, he, logon, hsid, hs, connected, unblocked, entry, known⟩
    · exact h
    · refine absurd ⟨doc, s, he, logon, hsid, hs, connected, unblocked, ?_, fun hnone => known ?_⟩ (hno sock)
      · rw [show w.app.balSessionMapU[s.descriptor]? = some conn from entry]
        exact Option.some_ne_none _
      · exact Option.map_eq_none_iff.2 hnone
  · rw [hlive] at hdead
    cases hdead

/-- An accepted LOGON binds the session to the socket it is from. -/
theorem step_binds (hwired : Wired (links w.app)) (halive : Alive (links w.app))
    (hcalm : Undisturbed i (stores w.toServer) (links w.app)) (h : Accepts w i sock sid) (hlive : survives w i = true) :
    (links (step cfg w i).app).session sid = some (some sock, .authenticated) := by
  obtain ⟨doc, s, he, logon, rfl, hs, connected, unblocked, hentry, hknown⟩ := h
  obtain ⟨conn, entry⟩ := Option.ne_none_iff_exists'.1 hentry
  have known : (links w.app).session (Json.toString (doc.value gimmmfieldnames.sessionId)) ≠ none :=
    fun hnone => hknown (Option.map_eq_none_iff.1 hnone)
  have entry : (links w.app).unauthenticated s.descriptor = some conn := entry
  obtain ⟨s', hs', -⟩ := halive.socket (Or.inl ⟨_, entry⟩)
  have hconn := hcalm.logon sock doc s conn s' he hs connected unblocked logon known entry hs'
  obtain rfl := hwired.sender hs entry hs' hconn
  obtain ⟨ts, -, htidied⟩ := step_accepted cfg he logon hs connected unblocked entry known hlive
  rw [htidied.session]
  refine (if_pos rfl).trans ?_
  obtain ⟨p, hp⟩ := Option.ne_none_iff_exists'.1 known
  show ((links w.app).session _).map _ = _
  rw [hp]
  rfl

end

/-! ## Runs -/

/-- The last LOGON that was accepted for the session, in the process that runs, is from the socket. -/
def LastLogon (cfg : List SessionId) (w : World) (is : List Input) (sid : SessionId) (sock : SocketId) : Prop :=
  ∃ is₁ i is₂, is = is₁ ++ i :: is₂ ∧ Accepts (run cfg w is₁) i sock sid ∧ Live cfg (run cfg w is₁) (i :: is₂) ∧
    ∀ a j b, is₂ = a ++ j :: b → ∀ sock', ¬ Accepts (run cfg w (is₁ ++ i :: a)) j sock' sid

section
variable {cfg : List SessionId} {w : World} {is : List Input} {i : Input} {sid : SessionId} {sock : SocketId}

/-- The last LOGON after one more step. -/
theorem lastLogon_append : LastLogon cfg w (is ++ [i]) sid sock ↔ survives (run cfg w is) i = true ∧
    (Accepts (run cfg w is) i sock sid ∨
      (∀ sock', ¬ Accepts (run cfg w is) i sock' sid) ∧ LastLogon cfg w is sid sock) := by
  constructor
  · rintro ⟨is₁, j, is₂, his, haccepts, hlive, hlast⟩
    rcases List.eq_nil_or_concat is₂ with rfl | ⟨is₂, k, rfl⟩
    · obtain ⟨rfl, he⟩ := List.append_inj' his rfl
      cases he
      exact ⟨hlive.1, Or.inl haccepts⟩
    · rw [List.concat_eq_append, ← List.cons_append, ← List.append_assoc] at his
      obtain ⟨rfl, he⟩ := List.append_inj' his rfl
      cases he
      rw [List.concat_eq_append] at hlive hlast
      rw [← List.cons_append] at hlive
      obtain ⟨hlive, hlives⟩ := (Run.along_append (j :: is₂)).1 hlive
      rw [← Run.run_append] at hlives
      refine ⟨hlives.1, Or.inr ⟨fun sock' => hlast is₂ i [] rfl sock', is₁, j, is₂, rfl, haccepts, hlive, ?_⟩⟩
      intro a k' b hsplit sock'
      exact hlast a k' (b ++ [i]) (by rw [hsplit]; simp) sock'
  · rintro ⟨hlive, haccepts | ⟨hno, is₁, j, is₂, rfl, haccepts, hlives, hlast⟩⟩
    · exact ⟨is, i, [], rfl, haccepts, ⟨hlive, trivial⟩, fun a k b h => by simp at h⟩
    · refine ⟨is₁, j, is₂ ++ [i], by simp, haccepts, ?_, fun a k b hsplit sock' => ?_⟩
      · rw [← List.cons_append]
        refine (Run.along_append (j :: is₂)).2 ⟨hlives, ?_, trivial⟩
        rw [← Run.run_append]
        exact hlive
      · rcases List.eq_nil_or_concat b with rfl | ⟨b, k', rfl⟩
        · obtain ⟨rfl, he⟩ := List.append_inj' hsplit rfl
          cases he
          exact hno sock'
        · rw [List.concat_eq_append, ← List.cons_append, ← List.append_assoc] at hsplit
          obtain ⟨rfl, he⟩ := List.append_inj' hsplit rfl
          exact hlast a k b rfl sock'

end

/-- All that is known of the connections in an undisturbed run. -/
structure Settled (cfg : List SessionId) (env : Env) (db : Database) (is : List Input) : Prop where
  wired : Wired (links (run cfg (boot cfg env db) is).app)
  alive : Alive (links (run cfg (boot cfg env db) is).app)
  follows : Follows (links (run cfg (boot cfg env db) is).app)
  conn : ∀ sid sock, ((links (run cfg (boot cfg env db) is).app).session sid).map (·.1) = some (some sock) ↔
    LastLogon cfg (boot cfg env db) is sid sock

theorem run_settled (cfg : List SessionId) (env : Env) (db : Database) (is : List Input)
    (hcalm : Run.Along (step cfg) (fun w i => Undisturbed i (stores w.toServer) (links w.app)) (boot cfg env db) is) :
    Settled cfg env db is := by
  have hunbound : ∀ (env : Env) (db : Database) (sid : SessionId) (sock : SocketId),
      ((links (.start cfg env db)).session sid).map (·.1) ≠ some (some sock) := by
    intro env db sid sock h
    obtain ⟨⟨conn, st⟩, hsid, rfl⟩ := Option.map_eq_some_iff.1 h
    exact absurd ((Wired.start cfg env db).referenced (Or.inr (Or.inl ⟨_, _, hsid⟩))) (Nat.not_lt_zero _)
  induction is using List.reverseRecOn with
  | nil =>
    refine ⟨.start cfg env db, .start cfg env db, .start cfg env db, fun sid sock => iff_of_false (hunbound env db sid sock) ?_⟩
    rintro ⟨is₁, i, is₂, his, -⟩
    simp at his
  | append_singleton is i ih =>
    obtain ⟨hcalm, hlast⟩ := (Run.along_append is).1 hcalm
    obtain ⟨hwired, halive, hfollows, hconn⟩ := ih hcalm
    have hrun : run cfg (boot cfg env db) (is ++ [i]) = step cfg (run cfg (boot cfg env db) is) i := Run.run_append ..
    refine ⟨by rw [hrun]; exact hwired.step i, by rw [hrun]; exact halive.step hwired i,
      by rw [hrun]; exact hfollows.step hwired halive hlast.1, fun sid sock => ?_⟩
    rw [hrun, lastLogon_append]
    -- a process that ends and starts anew has bound nothing yet
    by_cases hlive : survives (run cfg (boot cfg env db) is) i = true
    · -- the last LOGON is this one, or the one before
      by_cases haccepts : ∃ sock', Accepts (run cfg (boot cfg env db) is) i sock' sid
      · obtain ⟨sock', haccepts⟩ := haccepts
        rw [step_binds hwired halive hlast.1 haccepts hlive]
        constructor
        · intro h
          obtain rfl : sock' = sock := Option.some.inj (Option.some.inj h)
          exact ⟨hlive, Or.inl haccepts⟩
        · rintro ⟨-, h | ⟨hno, -⟩⟩
          · rw [haccepts.unique h]
            rfl
          · exact absurd haccepts (hno sock')
      · have hno : ∀ sock', ¬ Accepts (run cfg (boot cfg env db) is) i sock' sid := fun sock' h => haccepts ⟨sock', h⟩
        rw [step_conn hno hlive, hconn]
        constructor
        · exact fun h => ⟨hlive, Or.inr ⟨hno, h⟩⟩
        · rintro ⟨-, h | ⟨-, h⟩⟩
          · exact absurd h (hno sock)
          · exact h
    · obtain ⟨-, ⟨h, -⟩ | ⟨-, env', db', happ⟩⟩ := step_links cfg (run cfg (boot cfg env db) is) i
      · exact absurd h hlive
      · rw [happ]
        exact iff_of_false (hunbound env' db' sid sock) fun h => hlive h.1

/-- A disconnect changes the state of the session that the socket is named after, and of no other. -/
theorem Relink.session {i : Input} {b : Stores} {l l' : Links} {sock : SocketId} (hr : Relink i b l l')
    (hd : Disconnects i b sock) (sid : SessionId) : l'.session sid = l.session sid ∨
      ∃ s, l.socket sock = some s ∧ s.connected = true ∧ s.signalsBlocked = false ∧ s.sessionId = sid ∧
        l'.session sid = (l.session sid).map fun p => (p.1, .unauthenticated) := by
  -- both kinds of disconnect run the same slot
  have hdisconnected : ∀ (l : Links), (l.disconnected sock).session sid = l.session sid ∨
      ∃ s, l.socket sock = some s ∧ s.connected = true ∧ s.signalsBlocked = false ∧ s.sessionId = sid ∧
        (l.disconnected sock).session sid = (l.session sid).map fun p => (p.1, .unauthenticated) := by
    intro l
    unfold Links.disconnected
    cases hs : l.socket sock with
    | none => exact Or.inl rfl
    | some s =>
      dsimp only
      split
      · rename_i hconn
        split
        · exact Or.inl rfl
        · rename_i hopen
          unfold Links.handleDisconnect
          split
          · exact Or.inl rfl
          · by_cases hsid : sid = s.sessionId
            · subst hsid
              exact Or.inr ⟨s, rfl, hconn, Bool.not_eq_true _ ▸ hopen, rfl, if_pos rfl⟩
            · exact Or.inl (if_neg hsid)
      · exact Or.inl rfl
  have hevent : ∀ {c doc}, i.event ≠ .balFrame c doc := by
    rintro c doc he
    rcases hd with hd | ⟨k, hd, -⟩
    · rw [hd] at he
      cases he
    · rw [hd] at he
      cases he
  cases hr with
  | accepted he => exact absurd he hevent
  | @disconnected sock' he =>
    rcases hd with hd | ⟨k, hd, -⟩
    · rw [hd] at he
      cases he
      exact hdisconnected l
    · rw [hd] at he
      cases he
  | @deleted sock' ts expires due rest =>
    obtain ⟨k, hk, htimer⟩ := expires
    rcases hd with hd | ⟨k', hd, htimer'⟩
    · rw [hd] at hk
      cases hk
    · rw [hd] at hk
      cases hk
      rw [htimer'] at htimer
      cases htimer
      exact hdisconnected (l.setTimers ts)
  | _ => exact Or.inl rfl

/-- In every run in which no disconnect is delivered of a socket whose session is authenticated over another one, or has an
id with a NUL, and in which every accepted LOGON finds an open connection, a session is authenticated exactly when the connection that logged
on to it last is open, and the disconnect of any other socket changes neither its state nor its connection. -/
theorem sessions_follow (cfg : List SessionId) (env : Env) (db : Database) (is : List Input)
    (hcalm : Run.Along (step cfg) (fun w i => Undisturbed i (stores w.toServer) (links w.app)) (boot cfg env db) is) :
    (∀ is₁, is₁ <+: is → ∀ sid sess, (run cfg (boot cfg env db) is₁).app.balSessionMap[sid]? = some sess →
      (sess.state = .authenticated ↔ ∃ sock s, LastLogon cfg (boot cfg env db) is₁ sid sock ∧
        (run cfg (boot cfg env db) is₁).app.sockets[sock]? = some s ∧ s.connected = true)) ∧
    ∀ is₁ i is₂ w sock sid, is = is₁ ++ i :: is₂ → w = run cfg (boot cfg env db) is₁ →
      Disconnects i (stores w.toServer) sock → survives w i = true → ¬ LastLogon cfg (boot cfg env db) is₁ sid sock →
      (links (step cfg w i).app).session sid = (links w.app).session sid := by
  constructor
  · rintro is₁ ⟨is₂, rfl⟩ sid ⟨conn, st, m⟩ hsess
    obtain ⟨-, -, hfollows, hconn⟩ := run_settled cfg env db is₁ ((Run.along_append is₁).1 hcalm).1
    have hsession : (links (run cfg (boot cfg env db) is₁).app).session sid = some (conn, st) := by
      show Option.map _ ((run cfg (boot cfg env db) is₁).app.balSessionMap[sid]?) = _
      rw [hsess]
      rfl
    show st = .authenticated ↔ _
    -- a session that nobody has logged on to is not authenticated
    cases conn with
    | none =>
      rw [hfollows.unbound hsession]
      refine iff_of_false (by decide) ?_
      rintro ⟨sock, s, hlast, -⟩
      have hbound := (hconn sid sock).2 hlast
      rw [hsession] at hbound
      cases Option.some.inj hbound
    | some c =>
      obtain ⟨s, hs, -, -, hiff⟩ := hfollows.bound hsession
      rw [hiff]
      constructor
      · intro hopen
        exact ⟨c, s, (hconn sid c).1 (by rw [hsession]; rfl), hs, hopen⟩
      · rintro ⟨sock, s', hlast, hs', hopen⟩
        have hbound := (hconn sid sock).2 hlast
        rw [hsession] at hbound
        obtain rfl : c = sock := Option.some.inj (Option.some.inj hbound)
        have hs : (run cfg (boot cfg env db) is₁).app.sockets[c]? = some s := hs
        rw [hs] at hs'
        cases hs'
        exact hopen
  · rintro is₁ i is₂ w sock sid rfl rfl hd hlive hother
    obtain ⟨hcalm, hlast⟩ := (Run.along_append is₁).1 hcalm
    obtain ⟨-, -, hfollows, hconn⟩ := run_settled cfg env db is₁ hcalm
    obtain ⟨-, ⟨-, l, hrelink, htidied⟩ | ⟨hdead, -⟩⟩ := step_links cfg (run cfg (boot cfg env db) is₁) i
    · rw [htidied.session]
      rcases hrelink.session hd sid with h | ⟨s, hs, hopen, hunblocked, rfl, h⟩
      · exact h
      · rw [h]
        cases hsession : (links (run cfg (boot cfg env db) is₁).app).session s.sessionId with
        | none => rfl
        | some p =>
          obtain ⟨conn, st⟩ := p
          cases st with
          | unauthenticated => rfl
          | authenticated =>
            cases conn with
            | none => cases hfollows.unbound hsession
            | some c =>
              obtain rfl := hlast.1.disconnect sock s c hd hs hopen hunblocked hsession
              exact absurd ((hconn s.sessionId c).1 (by rw [hsession]; rfl)) hother
    · rw [hlive] at hdead
      cases hdead

/-- A BAL logs on and disconnects. -/
def loggedOff : List Input := loggedOn "bal" ++ [.quiet (.balDisconnected 0)]

theorem sessions_follow_disconnect :
    (∀ is₁, is₁ <+: loggedOff → ∀ sid sess,
      (run ["bal"] (boot ["bal"] .quiet .empty) is₁).app.balSessionMap[sid]? = some sess →
      (sess.state = .authenticated ↔ ∃ sock s, LastLogon ["bal"] (boot ["bal"] .quiet .empty) is₁ sid sock ∧
        (run ["bal"] (boot ["bal"] .quiet .empty) is₁).app.sockets[sock]? = some s ∧ s.connected = true)) ∧
    (run ["bal"] (boot ["bal"] .quiet .empty) loggedOff).app.balSessionMap["bal"]?.map (·.state) = some .unauthenticated := by
  refine ⟨(sessions_follow ["bal"] .quiet .empty loggedOff ⟨⟨?_, ?_, ?_⟩, ⟨?_, ?_, ?_⟩, ⟨?_, ?_, ?_⟩, trivial⟩).1, by decide +kernel⟩
  · rintro sock s c (he | ⟨k, he, -⟩) <;> cases he
  · rintro sock s sid st (he | ⟨k, he, -⟩) <;> cases he
  · intro sock doc s conn s' he
    cases he
  · rintro sock s c (he | ⟨k, he, -⟩) <;> cases he
  · rintro sock s sid st (he | ⟨k, he, -⟩) <;> cases he
  · rintro sock doc s conn s' - - - - - - - hs'
    have hall : ((run ["bal"] (boot ["bal"] .quiet .empty) [.quiet (.newBALConnection 5)]).app.sockets.toList.all
        (·.2.connected)) = true := by decide +kernel
    exact List.all_eq_true.1 hall (conn, s') (ExtTreeMap.mem_toList_iff_getElem?_eq_some.2 hs')
  · rintro sock s c (he | ⟨k, he, -⟩) - - - hsession
    · cases he
      have hall : ((run ["bal"] (boot ["bal"] .quiet .empty) (loggedOn "bal")).app.balSessionMap.toList.all
          (fun p => p.2.balConn.all (· = 0))) = true := by decide +kernel
      obtain ⟨sess, hsess, hp⟩ := Option.map_eq_some_iff.1 hsession
      have hzero := List.all_eq_true.1 hall (s.sessionId, sess) (ExtTreeMap.mem_toList_iff_getElem?_eq_some.2 hsess)
      rw [show sess.balConn = some c from (Prod.mk.inj hp).1] at hzero
      exact of_decide_eq_true hzero
    · cases he
  · rintro sock s sid st - - - - hsession
    have hall : ((run ["bal"] (boot ["bal"] .quiet .empty) (loggedOn "bal")).app.balSessionMap.toList.all
        (fun p => decide (NoNul p.1))) = true := by decide +kernel
    obtain ⟨sess, hsess, -⟩ := Option.map_eq_some_iff.1 hsession
    exact of_decide_eq_true (List.all_eq_true.1 hall (sid, sess) (ExtTreeMap.mem_toList_iff_getElem?_eq_some.2 hsess))
  · intro sock doc s conn s' he
    cases he

/-- A second connection logs on to the session, and the socket of the first one is deleted. -/
def takenOver : List Input :=
  loggedOn "bal" ++ [.quiet (.newBALConnection 6), .quiet (.balFrame 1 (balLogon "bal")), .quiet (.timer 2)]

/-- The session is unauthenticated, although the connection that logged on to it last is open. -/
theorem sessions_taken_over :
    LastLogon ["bal"] (boot ["bal"] .quiet .empty) takenOver "bal" 1 ∧
    ((run ["bal"] (boot ["bal"] .quiet .empty) takenOver).app.sockets[(1 : SocketId)]?).map (·.connected) = some true ∧
    ((run ["bal"] (boot ["bal"] .quiet .empty) takenOver).app.balSessionMap["bal"]?).map (fun s => (s.balConn, s.state)) =
      some (some 1, .unauthenticated) := by
  refine ⟨⟨takenOver.take 3, .quiet (.balFrame 1 (balLogon "bal")), [.quiet (.timer 2)], rfl, ?_, ?_, ?_⟩,
    by decide +kernel, by decide +kernel⟩
  · exact .of_map rfl (by decide) (by decide)
      (by decide +kernel : ((run ["bal"] (boot ["bal"] .quiet .empty) (takenOver.take 3)).app.sockets[(1 : SocketId)]?).map
        (fun s => (s.connected, s.signalsBlocked, s.descriptor)) = some (true, false, 6))
      (by decide +kernel) (by decide +kernel)
  · unfold Live
    decide +kernel
  · rintro a j b hsplit sock' ⟨doc, s, he, -⟩
    cases a with
    | nil =>
      obtain ⟨rfl, -⟩ := List.cons.inj hsplit
      cases he
    | cons k a => simp at hsplit

end Gimmm

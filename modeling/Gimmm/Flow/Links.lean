/-
The connections of the server as a machine of their own: those to FCM, the BAL sessions with the sockets
they are bound to, the sockets that are not logged on yet, and the timers that are no retries. The
handlers of messages leave them alone; `Relink` says what one event does to them.
-/
import Gimmm.Flow.Frame

namespace Gimmm

open Std Prog

/-- `session` gives the connection of a BAL session, by its socket, and its state. -/
structure Links where
  fcmConnCount : Int
  fcmConn : Int → Option FcmConnection
  session : SessionId → Option (Option SocketId × SessionState)
  unauthenticated : Int → Option SocketId
  socket : SocketId → Option Socket
  nextSocket : SocketId
  timers : List Timer

/-- The connections to FCM. -/
def Links.fcm (l : Links) : Int × (Int → Option FcmConnection) := (l.fcmConnCount, l.fcmConn)

def links (app : Application) : Links where
  fcmConnCount := app.fcmConnCount
  fcmConn id := app.fcmConnectionsMap[id]?
  session sid := app.balSessionMap[sid]?.map fun sess => (sess.balConn, sess.state)
  unauthenticated d := app.balSessionMapU[d]?
  socket sock := app.sockets[sock]?
  nextSocket := app.nextSocket
  timers := app.timers.filter fun t => !t.isRetry

/-! ## Changes -/

namespace Links

def setFcm (l : Links) (id : Int) (f : FcmConnection → FcmConnection) : Links :=
  { l with fcmConn := fun k => if k = id then (l.fcmConn k).map f else l.fcmConn k }

theorem setFcm_setFcm (l : Links) (id : Int) (f g : FcmConnection → FcmConnection) :
    (l.setFcm id f).setFcm id g = l.setFcm id (g ∘ f) := by
  unfold setFcm
  congr 1
  funext k
  by_cases hk : k = id
  · simp only [if_pos hk, Option.map_map]
  · simp only [if_neg hk]

def setSession (l : Links) (sid : SessionId) (f : Option SocketId × SessionState → Option SocketId × SessionState) : Links :=
  { l with session := fun k => if k = sid then (l.session k).map f else l.session k }

def setSocket (l : Links) (sock : SocketId) (f : Socket → Socket) : Links :=
  { l with socket := fun k => if k = sock then (l.socket k).map f else l.socket k }

def removeSocket (l : Links) (sock : SocketId) : Links :=
  { l with socket := fun k => if k = sock then none else l.socket k }

def erase (l : Links) (d : Int) : Links :=
  { l with unauthenticated := fun k => if k = d then none else l.unauthenticated k }

/-- The authentication timer of a connection is cancelled. -/
def cancel (l : Links) (sock : SocketId) : Links :=
  { l with timers := l.timers.filter fun | .authentication s => s ≠ sock | _ => true }

def addTimers (l : Links) (ts : List Timer) : Links := { l with timers := l.timers ++ ts }

theorem addTimers_nil (l : Links) : l.addTimers [] = l := by
  unfold addTimers
  rw [List.append_nil]

def setTimers (l : Links) (ts : List Timer) : Links := { l with timers := ts }

/-- A socket is accepted. -/
def opened (l : Links) (d : Int) : Links :=
  { l with
    socket := fun k => (l.socket k).or (if k = l.nextSocket then some (.new d) else none)
    nextSocket := l.nextSocket + 1
    unauthenticated := fun k => (l.unauthenticated k).or (if k = d then some l.nextSocket else none)
    timers := l.timers ++ [.authentication l.nextSocket] }

/-- A session is bound to a connection. -/
def accepted (l : Links) (sid : SessionId) (conn : SocketId) : Links :=
  (l.setSession sid fun _ => (some conn, .authenticated)).setSocket conn (·.named sid)

/-- The slot of a socket that is not connected any more. -/
def handleDisconnect (l : Links) (sid : SessionId) : Links :=
  match l.unauthenticated (-1) with
  | some conn => (l.cancel conn).erase (-1)
  | none => l.setSession sid fun p => (p.1, .unauthenticated)

def disconnected (l : Links) (sock : SocketId) : Links :=
  match l.socket sock with
  | none => l
  | some s =>
    if s.connected then
      if s.signalsBlocked then l.setSocket sock ({ · with descriptor := -1 })
      else (l.setSocket sock ({ · with descriptor := -1 })).handleDisconnect s.sessionId
    else l

@[simp] theorem handleDisconnect_fcm (l : Links) (sid : SessionId) : (l.handleDisconnect sid).fcm = l.fcm := by
  unfold handleDisconnect
  split <;> rfl

@[simp] theorem disconnected_fcm (l : Links) (sock : SocketId) : (l.disconnected sock).fcm = l.fcm := by
  unfold disconnected
  split
  · rfl
  · split
    · split
      · rfl
      · rw [handleDisconnect_fcm]
        rfl
    · rfl

def timedOut (l : Links) (sock : SocketId) (d : Int) : Links :=
  (l.setSocket sock ({ · with signalsBlocked := true })).erase d

/-- A new session on the connection `id`. -/
def established (l : Links) (id : Int) : Links :=
  l.setFcm id fun c => { c with state := .authenticated, expBoff := c.expBoff.reset }

/-- The connection `id` is told to drain, the connection `last` is unsubscribed, a new one is opened. -/
def drained (l : Links) (id last : Int) : Links :=
  let m := (l.setFcm id ({ · with connectionDrainingInProgress := true })).setFcm last ({ · with subscribed := false })
  { m with
    fcmConnCount := l.fcmConnCount + 1
    fcmConn := fun k => (m.fcmConn k).or (if k = l.fcmConnCount + 1 then some .new else none) }

/-- The connections that a message of the event finds. -/
def heard (l : Links) : Event → Links
  | .fcmSessionEstablished id => l.established id
  | _ => l

/-- Does a shared pointer to the `BALConn` of `sock` exist? -/
def Referenced (l : Links) (sock : SocketId) : Prop :=
  (∃ d, l.unauthenticated d = some sock) ∨ (∃ sid state, l.session sid = some (some sock, state)) ∨
    .authentication sock ∈ l.timers

/-- Every `BALConn` whose last shared pointer is gone is destroyed. -/
structure Tidied (l l' : Links) : Prop where
  fcmConnCount : l'.fcmConnCount = l.fcmConnCount
  fcmConn : l'.fcmConn = l.fcmConn
  session : l'.session = l.session
  unauthenticated : l'.unauthenticated = l.unauthenticated
  nextSocket : l'.nextSocket = l.nextSocket
  kept : ∀ {sock : SocketId} {s : Socket}, l.Referenced sock → l.socket sock = some s → l'.socket sock = some s
  destroyed : ∀ {sock : SocketId} {s : Socket}, ¬ l.Referenced sock → l.socket sock = some s →
    l'.socket sock = some { s with wrapped := false }
  absent : ∀ {sock : SocketId}, l.socket sock = none → l'.socket sock = none
  timers : ∀ {t : Timer}, t ∈ l'.timers ↔ t ∈ l.timers ∨ ∃ sock s, t = .deleteSocket sock ∧ ¬ l.Referenced sock ∧
    l.socket sock = some s ∧ s.wrapped = true

end Links

/-- What an event does to the connections, as long as the process survives it; `b` are the stores before it. -/
inductive Relink (i : Input) (b : Stores) (l : Links) : Links → Prop where
  | same : Relink i b l l
  | opened {d : Int} (he : i.event = .newBALConnection d) (nonneg : 0 ≤ d)
      (free : ∀ c s, l.socket c = some s → s.descriptor ≠ d) : Relink i b l (l.opened d)
  | rejected {sock : SocketId} {doc : Json} {s : Socket} {conn : SocketId} (he : i.event = .balFrame sock doc)
      (logon : Json.toString (doc.value gimmmfieldnames.messageType) = "LOGON") (socket : l.socket sock = some s)
      (connected : s.connected = true) (unblocked : s.signalsBlocked = false)
      (entry : l.unauthenticated s.descriptor = some conn)
      (unknown : l.session (Json.toString (doc.value gimmmfieldnames.sessionId)) = none) :
      Relink i b l ((l.cancel conn).erase s.descriptor)
  | accepted {sock : SocketId} {doc : Json} {s : Socket} {conn : SocketId} {ts : List Timer}
      (he : i.event = .balFrame sock doc)
      (logon : Json.toString (doc.value gimmmfieldnames.messageType) = "LOGON") (socket : l.socket sock = some s)
      (connected : s.connected = true) (unblocked : s.signalsBlocked = false)
      (entry : l.unauthenticated s.descriptor = some conn)
      (known : l.session (Json.toString (doc.value gimmmfieldnames.sessionId)) ≠ none)
      (resend : ∀ t ∈ ts, t = .resend (Json.toString (doc.value gimmmfieldnames.sessionId))) :
      Relink i b l ((((l.cancel conn).erase s.descriptor).accepted (Json.toString (doc.value gimmmfieldnames.sessionId)) conn).addTimers ts)
  | disconnected {sock : SocketId} (he : i.event = .balDisconnected sock) : Relink i b l (l.disconnected sock)
  | timedOut {sock : SocketId} {s : Socket} {ts : List Timer} (expires : Expires i b (.authentication sock))
      (due : .authentication sock ∈ l.timers) (rest : ts.Sublist l.timers) (socket : l.socket sock = some s) :
      Relink i b l ((l.setTimers ts).timedOut sock s.descriptor)
  | deleted {sock : SocketId} {ts : List Timer} (expires : Expires i b (.deleteSocket sock))
      (due : .deleteSocket sock ∈ l.timers) (rest : ts.Sublist l.timers) :
      Relink i b l (((l.setTimers ts).disconnected sock).removeSocket sock)
  | waited {k : Nat} {ts : List Timer} (he : i.event = .timer k) (rest : ts.Sublist l.timers) : Relink i b l (l.setTimers ts)
  | established {id : Int} (he : i.event = .fcmSessionEstablished id) : Relink i b l (l.established id)
  | drained {id last : Int} (he : i.event = .fcmConnectionDrainingStarted id) (isOpen : l.fcmConn last ≠ none)
      (newest : ∀ k, l.fcmConn k ≠ none → k ≤ last) : Relink i b l (l.drained id last)
  | lost {id : Int} {back : FcmConnection → ExponentialBackoff} {ts : List Timer} (he : i.event = .fcmDisconnected id)
      (reconnect : ∀ t ∈ ts, t = .reconnect id) :
      Relink i b l ((l.setFcm id fun c => { c with state := .unknown, expBoff := back c }).addTimers ts)

/-- Everything that happens between `w` and `w'` finds the connections to FCM of `l`. -/
def Found (l : Links) (w w' : World) : Prop :=
  ∃ new, w'.log = new ++ w.log ∧ ∀ o ∈ new, (links o.server.app).fcm = l.fcm

/-- Something is sent to FCM. -/
def Obs.Sends (o : Obs) : Prop := (∃ msg, o.what = .upload msg) ∨ ∃ original doc, o.what = .fcmAck original doc

/-- No connection changes, and what happens finds them. -/
structure Steady (w w' : World) : Prop where
  same : links w'.app = links w.app
  log : ∃ new, w'.log = new ++ w.log ∧ ∀ o ∈ new, links o.server.app = links w.app

instance : IsPreorder World Steady where
  refl w := ⟨rfl, [], rfl, fun _ h => by cases h⟩
  trans a b c h h' := by
    obtain ⟨new, hnew, hlinks⟩ := h.log
    obtain ⟨new', hnew', hlinks'⟩ := h'.log
    refine ⟨h'.same.trans h.same, new' ++ new, by rw [hnew', hnew, List.append_assoc], fun o ho => ?_⟩
    rcases List.mem_append.1 ho with ho | ho
    · rw [hlinks' o ho, h.same]
    · exact hlinks o ho

theorem Steady.of_links {w w' : World} (h : links w'.app = links w.app) (hlog : w'.log = w.log) : Steady w w' :=
  ⟨h, [], hlog, fun _ h => by cases h⟩

theorem Found.start {l : Links} {w w' : World} (h : w'.log = w.log) : Found l w w' := ⟨[], h, fun _ h => by cases h⟩

theorem Found.steady {l : Links} {w₀ w w' : World} (h : Found l w₀ w) (hl : (links w.app).fcm = l.fcm)
    (hs : Steady w w') : Found l w₀ w' := by
  obtain ⟨new, hnew, hfcm⟩ := h
  obtain ⟨new', hnew', hlinks⟩ := hs.log
  refine ⟨new' ++ new, by rw [hnew', hnew, List.append_assoc], fun o ho => ?_⟩
  rcases List.mem_append.1 ho with ho | ho
  · rw [hlinks o ho, hl]
  · exact hfcm o ho

theorem Steady.found {w w' : World} (h : Steady w w') : Found (links w.app) w w' := (Found.start rfl).steady rfl h

theorem links_putBal (w : World) (sid : SessionId) (m : MessageManager) : links (w.putBal sid m).app = links w.app := by
  have hsession : (links (w.putBal sid m).app).session = (links w.app).session := by
    funext s
    show ((w.app.balSessionMap.modify sid ({ · with msgManager := m }))[s]?).map _ = (w.app.balSessionMap[s]?).map _
    rw [ExtTreeMap.getElem?_modify]
    split
    · rename_i hs
      rw [← LawfulEqCmp.eq_of_compare hs]
      cases w.app.balSessionMap[sid]? <;> rfl
    · rfl
  show Links.mk _ _ _ _ _ _ _ = Links.mk _ _ _ _ _ _ _
  rw [Links.mk.injEq]
  exact ⟨rfl, rfl, hsession, rfl, rfl, rfl, rfl⟩

/-- The handlers of messages change no connection. -/
theorem steady_frame : SettlementFrame Steady where
  refl _ := trivial
  add _ _ _ := trivial
  touch _ _ _ _ := trivial
  increment _ := trivial
  counter _ _ := .of_links rfl rfl
  insert _ _ _ _ _ := .of_links rfl rfl
  mark _ _ := .of_links rfl rfl
  putBal w sid _ m' _ _ := .of_links (links_putBal w sid m') rfl
  balWrite w sid sock doc := ⟨rfl, [⟨_, w.toServer⟩], rfl, fun o ho => by rw [List.mem_singleton.1 ho]⟩
  putFcm _ _ _ := .of_links rfl rfl
  record w what := ⟨rfl, [⟨what, w.toServer⟩], rfl, fun o ho => by rw [List.mem_singleton.1 ho]⟩
  update _ _ _ := .of_links rfl rfl
  retry w t ht := by
    refine .of_links ?_ rfl
    have htimers : (w.app.timers ++ [t]).filter (fun t => !t.isRetry) = w.app.timers.filter fun t => !t.isRetry := by
      rw [List.filter_append, List.filter_cons_of_neg (by rw [ht]; decide), List.filter_nil, List.append_nil]
    show Links.mk _ _ _ _ _ _ _ = Links.mk _ _ _ _ _ _ _
    rw [Links.mk.injEq]
    exact ⟨rfl, rfl, rfl, rfl, rfl, rfl, htimers⟩

/-! ## Statements -/

section
variable {app : Application}

theorem links_setFcm (id : Int) (f : FcmConnection → FcmConnection) :
    links { app with fcmConnectionsMap := app.fcmConnectionsMap.modify id f } = (links app).setFcm id f := by
  have hconn : (fun k : Int => (app.fcmConnectionsMap.modify id f)[k]?) =
      fun k => if k = id then (app.fcmConnectionsMap[k]?).map f else app.fcmConnectionsMap[k]? := by
    funext k
    rw [ExtTreeMap.getElem?_modify]
    by_cases hk : k = id
    · subst hk
      rw [if_pos ReflCmp.compare_self, if_pos rfl]
    · rw [if_neg fun hc => hk (LawfulEqCmp.eq_of_compare hc).symm, if_neg hk]
  show Links.mk _ _ _ _ _ _ _ = Links.mk _ _ _ _ _ _ _
  rw [Links.mk.injEq]
  exact ⟨rfl, hconn, rfl, rfl, rfl, rfl, rfl⟩

theorem links_setSession (sid : SessionId) {f : BALSession → BALSession}
    {g : Option SocketId × SessionState → Option SocketId × SessionState}
    (h : ∀ sess : BALSession, ((f sess).balConn, (f sess).state) = g (sess.balConn, sess.state)) :
    links { app with balSessionMap := app.balSessionMap.modify sid f } = (links app).setSession sid g := by
  have hsession : (fun k => ((app.balSessionMap.modify sid f)[k]?).map fun sess => (sess.balConn, sess.state)) =
      fun k => if k = sid then ((app.balSessionMap[k]?).map fun sess => (sess.balConn, sess.state)).map g
        else (app.balSessionMap[k]?).map fun sess => (sess.balConn, sess.state) := by
    funext k
    rw [ExtTreeMap.getElem?_modify]
    by_cases hk : k = sid
    · subst hk
      rw [if_pos ReflCmp.compare_self, if_pos rfl, Option.map_map, Option.map_map]
      exact congrFun (congrArg Option.map (funext h)) _
    · rw [if_neg fun hc => hk (LawfulEqCmp.eq_of_compare hc).symm, if_neg hk]
  show Links.mk _ _ _ _ _ _ _ = Links.mk _ _ _ _ _ _ _
  rw [Links.mk.injEq]
  exact ⟨rfl, rfl, hsession, rfl, rfl, rfl, rfl⟩

theorem links_setSocket (sock : SocketId) (f : Socket → Socket) :
    links { app with sockets := app.sockets.modify sock f } = (links app).setSocket sock f := by
  have hsocket : (fun k : SocketId => (app.sockets.modify sock f)[k]?) =
      fun k => if k = sock then (app.sockets[k]?).map f else app.sockets[k]? := by
    funext k
    rw [ExtTreeMap.getElem?_modify]
    by_cases hk : k = sock
    · subst hk
      rw [if_pos ReflCmp.compare_self, if_pos rfl]
    · rw [if_neg fun hc => hk (LawfulEqCmp.eq_of_compare hc).symm, if_neg hk]
  show Links.mk _ _ _ _ _ _ _ = Links.mk _ _ _ _ _ _ _
  rw [Links.mk.injEq]
  exact ⟨rfl, rfl, rfl, rfl, hsocket, rfl, rfl⟩

theorem links_accepted (sid : SessionId) (conn : SocketId) :
    links { app with
      balSessionMap := app.balSessionMap.modify sid ({ · with balConn := some conn, state := .authenticated })
      sockets := app.sockets.modify conn (·.named sid) } = (links app).accepted sid conn := by
  let bound : Application := { app with
    balSessionMap := app.balSessionMap.modify sid ({ · with balConn := some conn, state := .authenticated }) }
  have hbound : links bound = (links app).setSession sid fun _ => (some conn, .authenticated) :=
    links_setSession sid fun _ => rfl
  have hname : links { bound with sockets := bound.sockets.modify conn (·.named sid) } = _ :=
    links_setSocket conn (·.named sid)
  rw [hbound] at hname
  exact hname

theorem links_removeSocket (sock : SocketId) :
    links { app with sockets := app.sockets.erase sock } = (links app).removeSocket sock := by
  have hsocket : (fun k : SocketId => (app.sockets.erase sock)[k]?) =
      fun k => if k = sock then none else app.sockets[k]? := by
    funext k
    rw [ExtTreeMap.getElem?_erase]
    by_cases hk : k = sock
    · subst hk
      rw [if_pos ReflCmp.compare_self, if_pos rfl]
    · rw [if_neg fun hc => hk (LawfulEqCmp.eq_of_compare hc).symm, if_neg hk]
  show Links.mk _ _ _ _ _ _ _ = Links.mk _ _ _ _ _ _ _
  rw [Links.mk.injEq]
  exact ⟨rfl, rfl, rfl, rfl, hsocket, rfl, rfl⟩

theorem links_erase (d : Int) :
    links { app with balSessionMapU := app.balSessionMapU.erase d } = (links app).erase d := by
  have hmap : (fun k : Int => (app.balSessionMapU.erase d)[k]?) = fun k => if k = d then none else app.balSessionMapU[k]? := by
    funext k
    rw [ExtTreeMap.getElem?_erase]
    by_cases hk : k = d
    · subst hk
      rw [if_pos ReflCmp.compare_self, if_pos rfl]
    · rw [if_neg fun hc => hk (LawfulEqCmp.eq_of_compare hc).symm, if_neg hk]
  show Links.mk _ _ _ _ _ _ _ = Links.mk _ _ _ _ _ _ _
  rw [Links.mk.injEq]
  exact ⟨rfl, rfl, rfl, hmap, rfl, rfl, rfl⟩

theorem links_cancel (sock : SocketId) :
    links { app with timers := app.timers.filter fun | .authentication s => s ≠ sock | _ => true } =
      (links app).cancel sock := by
  show Links.mk _ _ _ _ _ _ _ = Links.mk _ _ _ _ _ _ _
  rw [Links.mk.injEq]
  refine ⟨rfl, rfl, rfl, rfl, rfl, rfl, ?_⟩
  show List.filter _ (List.filter _ _) = List.filter _ (List.filter _ _)
  rw [List.filter_filter, List.filter_filter]
  exact congrFun (congrArg List.filter (funext fun t => Bool.and_comm _ _)) _

theorem links_addTimer {t : Timer} (ht : t.isRetry = false) :
    links { app with timers := app.timers ++ [t] } = (links app).addTimers [t] := by
  show Links.mk _ _ _ _ _ _ _ = Links.mk _ _ _ _ _ _ _
  rw [Links.mk.injEq]
  refine ⟨rfl, rfl, rfl, rfl, rfl, rfl, ?_⟩
  show (app.timers ++ [t]).filter _ = app.timers.filter _ ++ [t]
  rw [List.filter_append, List.filter_cons_of_pos (by rw [ht]; rfl), List.filter_nil]

theorem insertIfNew_getElem? {α β : Type} [Ord α] [TransOrd α] [LawfulEqOrd α] [DecidableEq α] (m : ExtTreeMap α β compare)
    (a : α) (b : β) (k : α) : (m.insertIfNew a b)[k]? = (m[k]?).or (if k = a then some b else none) := by
  rw [ExtTreeMap.getElem?_insertIfNew]
  by_cases hk : k = a
  · subst hk
    by_cases hm : k ∈ m
    · rw [if_neg (by tauto)]
      cases hv : m[k]? with
      | none =>
        rw [← ExtTreeMap.isSome_getElem?_iff_mem, hv] at hm
        cases hm
      | some v => rfl
    · rw [if_pos ⟨ReflCmp.compare_self, hm⟩, ExtTreeMap.getElem?_eq_none hm, if_pos rfl]
      rfl
  · rw [if_neg fun h => hk (LawfulEqCmp.eq_of_compare h.1).symm, if_neg hk, Option.or_none]

theorem links_newFcm (app : Application) (m : ExtTreeMap Int FcmConnection) (n : Int) :
    links { app with fcmConnCount := n, fcmConnectionsMap := m.insertIfNew n .new } =
      { links { app with fcmConnectionsMap := m } with
        fcmConnCount := n
        fcmConn := fun k => ((links { app with fcmConnectionsMap := m }).fcmConn k).or (if k = n then some .new else none) } := by
  show Links.mk _ _ _ _ _ _ _ = Links.mk _ _ _ _ _ _ _
  rw [Links.mk.injEq]
  exact ⟨rfl, funext fun k => insertIfNew_getElem? .., rfl, rfl, rfl, rfl, rfl⟩

theorem links_opened (d : Int) :
    links { app with
      sockets := app.sockets.insertIfNew app.nextSocket (.new d)
      nextSocket := app.nextSocket + 1
      balSessionMapU := app.balSessionMapU.insertIfNew d app.nextSocket
      timers := app.timers ++ [.authentication app.nextSocket] } = (links app).opened d := by
  show Links.mk _ _ _ _ _ _ _ = Links.mk _ _ _ _ _ _ _
  rw [Links.mk.injEq]
  refine ⟨rfl, rfl, rfl, funext fun k => insertIfNew_getElem? .., funext fun k => insertIfNew_getElem? .., rfl, ?_⟩
  show (app.timers ++ _).filter _ = app.timers.filter _ ++ _
  rw [List.filter_append]
  rfl

end

/-! ## Handlers of connections -/

/-- The handler leaves the connections `l`, and sends nothing. -/
structure LinksTo (l : Links) (w w' : World) : Prop where
  links : links w'.app = l
  log : w'.log = w.log

section
variable {E : Env → Prop} {X : Stop → World → Prop} {w : World} {l : Links}

theorem wp_mapLinks {f : Application → Application} {Q : Unit → World → Prop} (h : links (f w.app) = l)
    (next : ∀ w', links w'.app = l → w'.log = w.log → Q () w') : Wp E (update (.mapApp f)) Q X w :=
  Wp.update (next _ h rfl)

theorem wp_newBALConnection_links {d : Int} : Wp E (handleNewBALConnection d)
    (fun _ w' => (w' = w ∨ 0 ≤ d ∧ (∀ c s, (links w.app).socket c = some s → s.descriptor ≠ d) ∧
      links w'.app = (links w.app).opened d) ∧ w'.log = w.log) X w := by
  unfold handleNewBALConnection
  refine Wp.bind (Wp.read ?_)
  split
  · exact Wp.pure ⟨Or.inl rfl, rfl⟩
  · rename_i hnot
    rw [not_or, Int.not_lt] at hnot
    obtain ⟨hd, hfree⟩ := hnot
    refine Wp.update ⟨Or.inr ⟨hd, fun c s hs hsd => hfree ?_, links_opened d⟩, rfl⟩
    refine List.any_eq_true.2 ⟨(c, s), ExtTreeMap.mem_toList_iff_getElem?_eq_some.2 hs, ?_⟩
    exact decide_eq_true hsd

theorem wp_handleBALSocketDisconnected_links {s : Socket} (hs : s.descriptor = -1) :
    Wp E (handleBALSocketDisconnected s)
      (fun _ w' => LinksTo ((links w.app).handleDisconnect s.sessionId) w w') X w := by
  unfold handleBALSocketDisconnected Links.handleDisconnect
  refine Wp.bind (Wp.read ?_)
  rw [hs]
  show Wp E (match (links w.app).unauthenticated (-1) with | some conn => _ | none => _) _ X w
  cases (links w.app).unauthenticated (-1) with
  | some conn =>
    refine Wp.bind (wp_mapLinks (links_cancel conn) fun w₁ h₁ hlog₁ => ?_)
    refine wp_mapLinks (links_erase (-1)) fun w₂ h₂ hlog₂ => ⟨?_, hlog₂.trans hlog₁⟩
    rw [h₂, h₁]
  | none => exact wp_mapLinks (links_setSession _ fun _ => rfl) fun w₁ h₁ hlog₁ => ⟨h₁, hlog₁⟩

theorem wp_disconnectSocket_links {sock : SocketId} :
    Wp E (disconnectSocket sock) (fun _ w' => LinksTo ((links w.app).disconnected sock) w w') X w := by
  unfold disconnectSocket Links.disconnected
  refine Wp.bind (Wp.read ?_)
  rw [show (links w.app).socket sock = w.app.sockets[sock]? from rfl]
  cases w.app.sockets[sock]? with
  | none => exact Wp.pure ⟨rfl, rfl⟩
  | some s =>
    dsimp only
    by_cases hconn : s.connected = true
    · rw [if_pos hconn, if_pos hconn]
      refine Wp.bind (wp_mapLinks (links_setSocket sock _) fun w₁ h₁ hlog₁ => ?_)
      by_cases hblock : s.signalsBlocked = true
      · rw [if_neg (by rw [hblock]; decide), if_pos hblock]
        exact Wp.pure ⟨h₁, hlog₁⟩
      · rw [if_pos (by simpa using hblock), if_neg hblock]
        refine (wp_handleBALSocketDisconnected_links rfl).mono (fun _ w₂ h₂ => ⟨?_, h₂.log.trans hlog₁⟩) fun _ _ h => h
        rw [h₂.links, h₁]
    · rw [if_neg hconn, if_neg hconn]
      exact Wp.pure ⟨rfl, rfl⟩

theorem wp_handleBalAuthenticationTimeout_links {sock : SocketId} (gone : X .undefined w) :
    Wp E (handleBalAuthenticationTimeout sock)
      (fun _ w' => ∃ s, (links w.app).socket sock = some s ∧ LinksTo ((links w.app).timedOut sock s.descriptor) w w') X w := by
  unfold handleBalAuthenticationTimeout Links.timedOut
  refine Wp.bind (Wp.read ?_)
  rw [show (links w.app).socket sock = w.app.sockets[sock]? from rfl]
  cases w.app.sockets[sock]? with
  | none => exact Wp.throw gone
  | some s =>
    refine Wp.bind (wp_mapLinks (links_setSocket sock _) fun w₁ h₁ hlog₁ => ?_)
    refine wp_mapLinks (links_erase _) fun w₂ h₂ hlog₂ => ⟨s, rfl, ?_, hlog₂.trans hlog₁⟩
    rw [h₂, h₁]

theorem wp_handleFcmConnectionDrainingStarted_links {id : Int} (hw : links w.app = l.setFcm id ({ · with connectionDrainingInProgress := true }))
    (gone : (∀ k, l.fcmConn k = none) → X .undefined w) :
    Wp E handleFcmConnectionDrainingStarted
      (fun _ w' => ∃ last, l.fcmConn last ≠ .none ∧ (∀ k, l.fcmConn k ≠ .none → k ≤ last) ∧ LinksTo (l.drained id last) w w') X w := by
  have hkey : ∀ k, w.app.fcmConnectionsMap[k]? ≠ .none ↔ l.fcmConn k ≠ .none := by
    intro k
    have hconn := congrFun (congrArg Links.fcmConn hw) k
    have hconn : w.app.fcmConnectionsMap[k]? = if k = id then (l.fcmConn k).map _ else l.fcmConn k := hconn
    rw [hconn]
    split
    · cases l.fcmConn k <;> simp
    · exact Iff.rfl
  unfold handleFcmConnectionDrainingStarted
  refine Wp.bind (Wp.read ?_)
  cases hlast : w.app.fcmConnectionsMap.keys.getLast? with
  | none =>
    rw [← ExtTreeMap.maxKey?_eq_getLast?_keys, ExtTreeMap.maxKey?_eq_none_iff] at hlast
    refine Wp.throw (gone fun k => ?_)
    have hk := hkey k
    rw [hlast] at hk
    simpa using hk
  | some last =>
    rw [← ExtTreeMap.maxKey?_eq_getLast?_keys] at hlast
    obtain ⟨hmem, hmax⟩ := ExtTreeMap.maxKey?_eq_some_iff_mem_and_forall.1 hlast
    have hopen : ∀ k : Int, k ∈ w.app.fcmConnectionsMap ↔ w.app.fcmConnectionsMap[k]? ≠ .none := by
      intro k
      rw [← ExtTreeMap.isSome_getElem?_iff_mem, Option.isSome_iff_ne_none]
    refine Wp.update ⟨last, (hkey last).1 ((hopen last).1 hmem), fun k hk => ?_, ?_, rfl⟩
    · exact Int.isLE_compare.1 (hmax k ((hopen k).2 ((hkey k).2 hk)))
    · have hunsub : links { w.app with
          fcmConnectionsMap := w.app.fcmConnectionsMap.modify last ({ · with subscribed := false }) } = _ :=
        links_setFcm last ({ · with subscribed := false })
      have hcount : w.app.fcmConnCount = l.fcmConnCount := congrArg Links.fcmConnCount hw
      rw [hw] at hunsub
      refine (links_newFcm w.app _ _).trans ?_
      rw [hunsub, hcount]
      rfl

theorem wp_handleBalLogonRequest_links (hE : Env.Closed E) {s : Socket} {sid : SessionId} {Q : World → Prop}
    (same : (links w.app).unauthenticated s.descriptor = none → Q w)
    (rejected : ∀ conn w', (links w.app).unauthenticated s.descriptor = some conn → (links w.app).session sid = none →
      links w'.app = ((links w.app).cancel conn).erase s.descriptor → w'.log = w.log → Q w')
    (accepted : ∀ conn ts w', (links w.app).unauthenticated s.descriptor = some conn → (links w.app).session sid ≠ none →
      (∀ t ∈ ts, t = .resend sid) →
      links w'.app = ((((links w.app).cancel conn).erase s.descriptor).accepted sid conn).addTimers ts →
      Found (links w.app) w w' → Q w') :
    Wp E (handleBalLogonRequest s sid) (fun _ => Q) (fun _ => Q) w := by
  unfold handleBalLogonRequest
  refine Wp.bind (Wp.read ?_)
  cases hentry : w.app.balSessionMapU[s.descriptor]? with
  | none => exact Wp.pure (same hentry)
  | some conn =>
    refine Wp.bind (wp_mapLinks (links_cancel conn) fun w₁ h₁ hlog₁ => ?_)
    refine Wp.bind (wp_mapLinks (links_erase _) fun w₂ h₂ hlog₂ => Wp.bind (Wp.read ?_))
    rw [h₁] at h₂
    have hlog : w₂.log = w.log := hlog₂.trans hlog₁
    have hsession : (links w.app).session sid = (w₂.app.balSessionMap[sid]?).map fun sess => (sess.balConn, sess.state) := by
      have hsame : (links w₂.app).session = (links w.app).session := by rw [h₂]; rfl
      exact (congrFun hsame sid).symm
    cases hsess : w₂.app.balSessionMap[sid]? with
    | none =>
      rw [hsess] at hsession
      exact Wp.pure (rejected conn w₂ hentry hsession h₂ hlog)
    | some sess =>
      rw [hsess] at hsession
      have hknown : (links w.app).session sid ≠ none := by rw [hsession]; exact Option.some_ne_none _
      refine Wp.bind (wp_mapLinks (links_accepted sid conn) fun w₃ h₃ hlog₃ => ?_)
      rw [h₂] at h₃
      -- the session is bound before the response is written, so it stays bound if that fails
      have hend : ∀ w' ts, (∀ t ∈ ts, t = .resend sid) → links w'.app = (links w₃.app).addTimers ts → Found (links w.app) w w' →
          Q w' := fun w' ts hts hw' hf => accepted conn ts w' hentry hknown hts (by rw [hw', h₃]) hf
      have hfound : Found (links w.app) w w₃ := .start (hlog₃.trans hlog)
      have hfcm : (links w₃.app).fcm = (links w.app).fcm := by rw [h₃]; rfl
      have hstop : ∀ w', Steady w₃ w' → Q w' := fun w' hs =>
        hend w' [] (fun _ h => by cases h) (by rw [hs.same]; exact (Links.addTimers_nil _).symm) (hfound.steady hfcm hs)
      refine Wp.bind (keeps_findBalSession.wp (fun sess w₄ hs₄ => ?_) fun _ w' hs => hstop w' hs)
      refine Wp.bind ((keeps_writeMessage hE fun w sock => steady_frame.balWrite w _ sock _).wp (fun _ w₅ hs₅ => ?_)
        fun _ w' hs => hstop w' (IsTrans.trans _ _ _ hs₄ hs))
      have hs : Steady w₃ w₅ := IsTrans.trans _ _ _ hs₄ hs₅
      have hfound₅ := hfound.steady hfcm hs
      refine Wp.update (hend _ [.resend sid] (fun t ht => List.mem_singleton.1 ht) ?_ hfound₅)
      rw [← hs.same]
      exact links_addTimer rfl

theorem wp_handleDisconnected_links (hE : Env.Closed E) {id : Int} {Q : World → Prop} (same : Q w)
    (lost : ∀ (b : FcmConnection → ExponentialBackoff) ts w', (∀ t ∈ ts, t = .reconnect id) →
      links w'.app = ((links w.app).setFcm id fun c => { c with state := .unknown, expBoff := b c }).addTimers ts →
      w'.log = w.log → Q w') :
    Wp E (handleDisconnected id) (fun _ => Q) X w := by
  unfold handleDisconnected
  refine Wp.bind (Wp.read ?_)
  cases hconn : w.app.fcmConnectionsMap[id]? with
  | none => exact Wp.pure same
  | some conn =>
    refine Wp.bind (wp_mapLinks (links_setFcm id _) fun w₁ h₁ hlog₁ => ?_)
    split
    · refine Wp.bind (Wp.decision hE.popDraw fun env _ => Wp.bind ?_)
      refine wp_mapLinks (links_setFcm id _) fun w₂ h₂ hlog₂ => ?_
      rw [h₁, Links.setFcm_setFcm] at h₂
      unfold singleShot
      split
      · refine Wp.pure (lost (fun c => (c.expBoff.next env.popDraw.1).2) [] w₂ (fun _ h => by cases h) ?_ (hlog₂.trans hlog₁))
        rw [h₂]
        exact (Links.addTimers_nil _).symm
      · refine Wp.update (lost (fun c => (c.expBoff.next env.popDraw.1).2) [.reconnect id] _ (fun t ht => List.mem_singleton.1 ht) ?_ (hlog₂.trans hlog₁))
        exact (links_addTimer rfl).trans (congrArg (Links.addTimers · [.reconnect id]) h₂)
    · refine Wp.pure (lost (fun c => c.expBoff) [] w₁ (fun _ h => by cases h) ?_ hlog₁)
      rw [h₁]
      exact (Links.addTimers_nil _).symm

/-- The timer `k` leaves the event loop. -/
theorem links_eraseIdx {app : Application} {k : Nat} {t : Timer} (ht : app.timers[k]? = some t) :
    ∃ ts, ts.Sublist (links app).timers ∧ links { app with timers := app.timers.eraseIdx k } = (links app).setTimers ts ∧
      (t.isRetry = true → ts = (links app).timers) ∧ (t.isRetry = false → t ∈ (links app).timers) := by
  refine ⟨(app.timers.eraseIdx k).filter fun t => !t.isRetry, (List.eraseIdx_sublist ..).filter _, rfl, fun h => ?_, fun h => ?_⟩
  · obtain ⟨hk, hget⟩ := List.getElem?_eq_some_iff.1 ht
    show _ = app.timers.filter _
    conv_rhs => rw [← List.take_append_drop k app.timers, List.drop_eq_getElem_cons hk]
    rw [List.eraseIdx_eq_take_drop_succ, List.filter_append, List.filter_append, hget,
      List.filter_cons_of_neg (by rw [h]; decide)]
  · exact List.mem_filter.2 ⟨List.mem_of_getElem? ht, by rw [h]; rfl⟩

end

/-! ## Events -/

/-- The event changes the connections as `Relink` says, and what happens finds those that it hears. -/
structure Linked (i : Input) (w w' : World) : Prop where
  relink : Relink i (stores w.toServer) (links w.app) (links w'.app)
  found : Found ((links w.app).heard i.event) w w'

section
variable {E : Env → Prop} {w : World} {i : Input}

theorem Linked.of_steady {w' : World} (hheard : (links w.app).heard i.event = links w.app) (h : Steady w w') :
    Linked i w w' := ⟨by rw [h.same]; exact .same, by rw [hheard]; exact h.found⟩

/-- A handler of messages. -/
theorem wp_steady {x : Handler Unit} (hheard : (links w.app).heard i.event = links w.app) (h : Keeps E Steady x) :
    Wp E x (fun _ w' => Linked i w w') (fun _ w' => Found (links w.app) w w') w :=
  h.wp (fun _ _ hs => .of_steady hheard hs) fun _ _ hs => hs.found

theorem wp_guarded_linked {x : Handler Unit} {X : Stop → World → Prop}
    (h : Wp E x (fun _ w' => Linked i w w') (fun _ w' => Linked i w w') w) (hX : ∀ e w', Linked i w w' → X e w') :
    Wp E (guarded x) (fun _ w' => Linked i w w') X w := by
  refine Wp.attempt (h.mono (fun _ _ h => h) fun e w' h => ?_)
  split
  · exact h
  · exact hX e w' h

theorem wp_handleBALmsg_links (hE : Env.Closed E) {sock : SocketId} {doc : Json} {s : Socket}
    (he : i.event = .balFrame sock doc) (hs : (links w.app).socket sock = some s) (connected : s.connected = true)
    (unblocked : s.signalsBlocked = false) :
    Wp E (handleBALmsg s doc) (fun _ w' => Linked i w w') (fun _ w' => Linked i w w') w := by
  have hheard : (links w.app).heard i.event = links w.app := by rw [he]; rfl
  have hsteady : ∀ {x : Handler Unit}, Keeps E Steady x →
      Wp E x (fun _ w' => Linked i w w') (fun _ w' => Linked i w w') w := fun hx =>
    hx.wp (fun _ _ h => .of_steady hheard h) fun _ _ h => .of_steady hheard h
  unfold handleBALmsg
  dsimp only
  split
  · rename_i logon
    refine wp_handleBalLogonRequest_links hE (fun _ => ⟨.same, by rw [hheard]; exact .start rfl⟩) ?_ ?_
    · intro conn w' entry unknown hl hlog
      exact ⟨by rw [hl]; exact .rejected he logon hs connected unblocked entry unknown, .start hlog⟩
    · intro conn ts w' entry known hts hl hfound
      exact ⟨by rw [hl]; exact .accepted he logon hs connected unblocked entry known hts, by rw [hheard]; exact hfound⟩
  · split
    · exact hsteady (steady_frame.handleBalDownstreamUploadRequest hE fun _ _ _ _ _ => .of_links rfl rfl)
    · split
      · exact hsteady (steady_frame.handleBalAckMsg hE)
      · exact hsteady (Keeps.throw _)

/-- What every event does to the connections. -/
theorem wp_handle_links (hE : Env.Closed E) : Wp E (handle i.event) (fun _ w' => Linked i w w')
    (fun _ w' => Found ((links w.app).heard i.event) w w') w := by
  have hsame : (links w.app).heard i.event = links w.app → Linked i w w := fun h => .of_steady h (refl w)
  cases he : i.event with
  | newBALConnection d =>
    have hheard : (links w.app).heard i.event = links w.app := by rw [he]; rfl
    refine (wp_newBALConnection_links (X := fun _ w' => Found (links w.app) w w')).mono (fun _ w' h => ?_) fun _ _ h => h
    obtain ⟨rfl | ⟨nonneg, free, hl⟩, hlog⟩ := h
    · exact hsame hheard
    · exact ⟨by rw [hl]; exact .opened he nonneg free, .start hlog⟩
  | balFrame sock doc =>
    have hheard : (links w.app).heard i.event = links w.app := by rw [he]; rfl
    refine Wp.bind (Wp.read ?_)
    cases hs : w.app.sockets[sock]? with
    | none => exact Wp.pure (hsame hheard)
    | some s =>
      dsimp only
      split
      · rename_i hopen
        simp only [Bool.and_eq_true, Bool.not_eq_true'] at hopen
        refine wp_guarded_linked (wp_handleBALmsg_links hE he hs hopen.1 hopen.2) fun _ w' h => ?_
        have hfound := h.found
        rw [he] at hfound
        exact hfound
      · exact Wp.pure (hsame hheard)
  | balDisconnected sock =>
    refine wp_disconnectSocket_links.mono (fun _ w' h => ?_) fun _ _ h => h
    exact ⟨by rw [h.links]; exact .disconnected he, .start h.log⟩
  | fcmUpstream doc => exact wp_steady (by rw [he]; rfl) (steady_frame.handleFcmNewUpstreamMessage hE)
  | fcmAck doc => exact wp_steady (by rw [he]; rfl) (steady_frame.handleFcmAckMessage hE)
  | fcmNack doc => exact wp_steady (by rw [he]; rfl) (steady_frame.handleFcmNackMessage hE)
  | fcmReceipt doc => exact wp_steady (by rw [he]; rfl) (steady_frame.handleFcmReceiptMessage hE)
  | fcmSessionEstablished id =>
    refine Wp.bind (wp_mapLinks (links_setFcm id _) fun w₁ h₁ hlog₁ => ?_)
    refine Keeps.wp (keeps_guarded (steady_frame.handleFcmSessionEstablished hE)) (fun _ w' hs => ?_) fun _ w' hs => ?_
    · refine ⟨by rw [hs.same, h₁]; exact .established he, ?_⟩
      rw [he]
      exact (Found.start hlog₁).steady (by rw [h₁]; rfl) hs
    · exact (Found.start hlog₁).steady (by rw [h₁]; rfl) hs
  | fcmConnectionDrainingStarted id =>
    refine Wp.bind (wp_mapLinks (links_setFcm id _) fun w₁ h₁ hlog₁ => ?_)
    refine Wp.attempt ((wp_handleFcmConnectionDrainingStarted_links h₁ 
      (X := fun e w' => e = .undefined ∧ w'.log = w.log) fun _ => ⟨rfl, hlog₁⟩).mono
      (fun _ w' h => ?_) fun e w' h => ?_)
    · obtain ⟨last, hopen, hnewest, hleaves⟩ := h
      exact ⟨by rw [hleaves.links]; exact .drained he hopen hnewest, .start (hleaves.log.trans hlog₁)⟩
    · rw [if_neg (by rw [h.1]; decide)]
      exact .start h.2
  | fcmDisconnected id =>
    refine wp_handleDisconnected_links hE (hsame (by rw [he]; rfl)) fun b ts w' hts hl hlog => ?_
    exact ⟨by rw [hl]; exact .lost he hts, .start hlog⟩
  | timer k =>
    have hheard : (links w.app).heard i.event = links w.app := by rw [he]; rfl
    refine Wp.bind (Wp.read ?_)
    cases ht : w.app.timers[k]? with
    | none => exact Wp.pure (hsame hheard)
    | some t =>
      -- the timer is off the list before its slot runs
      obtain ⟨ts, hts, hlinks, hretry, hdue⟩ := links_eraseIdx ht
      refine Wp.bind (wp_mapLinks hlinks fun w₁ h₁ hlog₁ => ?_)
      have hwaited : ∀ w', Steady w₁ w' → Linked i w w' := by
        intro w' hs
        refine ⟨by rw [hs.same, h₁]; exact .waited he hts, ?_⟩
        rw [hheard]
        exact (Found.start hlog₁).steady (by rw [h₁]; rfl) hs
      have hfound : ∀ w', Steady w₁ w' → Found (links w.app) w w' := fun w' hs =>
        (Found.start hlog₁).steady (by rw [h₁]; rfl) hs
      cases t with
      | retryDownstream msg =>
        refine Keeps.wp (steady_frame.expire_retryDownstream hE) (fun _ w' hs => hwaited w' hs) fun _ w' hs => hfound w' hs
      | retryUpstream msg =>
        refine Keeps.wp (steady_frame.expire_retryUpstream hE) (fun _ w' hs => hwaited w' hs) fun _ w' hs => hfound w' hs
      | resend sid =>
        refine Keeps.wp (steady_frame.resendPendingUpstreamMessages hE) (fun _ w' hs => hwaited w' hs) fun _ w' hs =>
          hfound w' hs
      | authentication sock =>
        refine (wp_handleBalAuthenticationTimeout_links (hfound _ (refl w₁))).mono (fun _ w' h => ?_) fun _ _ h => h
        obtain ⟨s, hs, hleaves⟩ := h
        rw [h₁] at hs hleaves
        exact ⟨by rw [hleaves.links]; exact .timedOut ⟨k, he, ht⟩ (hdue rfl) hts hs, .start (hleaves.log.trans hlog₁)⟩
      | reconnect id => exact Wp.pure (hwaited w₁ (refl w₁))
      | deleteSocket sock =>
        -- a socket that is deleted is disconnected first, which runs the slot
        refine Wp.bind (wp_disconnectSocket_links.mono (fun _ w₂ h₂ => ?_) fun _ _ h => h)
        refine wp_mapLinks (links_removeSocket sock) fun w₃ h₃ hlog₃ => ⟨?_, .start (hlog₃.trans (h₂.log.trans hlog₁))⟩
        rw [h₃, h₂.links, h₁]
        exact .deleted ⟨k, he, ht⟩ (hdue rfl) hts
  | restart => exact Wp.throw (.start rfl)

/-! ## Destroyed connections -/

theorem referenced_iff (app : Application) (sock : SocketId) : app.referenced sock = true ↔ (links app).Referenced sock := by
  unfold Application.referenced Links.Referenced
  rw [Bool.or_eq_true, Bool.or_eq_true, or_assoc]
  refine or_congr ?_ (or_congr ?_ ?_)
  · rw [List.any_eq_true]
    constructor
    · rintro ⟨p, hp, hc⟩
      exact ⟨p.1, by rw [← of_decide_eq_true hc]; exact ExtTreeMap.mem_toList_iff_getElem?_eq_some.1 hp⟩
    · rintro ⟨d, hd⟩
      exact ⟨(d, sock), ExtTreeMap.mem_toList_iff_getElem?_eq_some.2 hd, decide_eq_true rfl⟩
  · rw [List.any_eq_true]
    constructor
    · rintro ⟨p, hp, hc⟩
      refine ⟨p.1, p.2.state, ?_⟩
      show (app.balSessionMap[p.1]?).map _ = _
      rw [ExtTreeMap.mem_toList_iff_getElem?_eq_some.1 hp, ← of_decide_eq_true hc]
      rfl
    · rintro ⟨sid, state, h⟩
      obtain ⟨sess, hsess, hp⟩ := Option.map_eq_some_iff.1 h
      exact ⟨(sid, sess), ExtTreeMap.mem_toList_iff_getElem?_eq_some.2 hsess, decide_eq_true (Prod.mk.inj hp).1⟩
  · rw [List.any_eq_true]
    constructor
    · rintro ⟨t, ht, hc⟩
      cases t with
      | authentication s =>
        obtain rfl : s = sock := of_decide_eq_true hc
        exact List.mem_filter.2 ⟨ht, rfl⟩
      | _ => cases hc
    · intro h
      exact ⟨_, (List.mem_filter.1 h).1, decide_eq_true rfl⟩

/-- The sockets `l` lose their `BALConn`. -/
theorem links_destroy (l : List SocketId) (app : Application) :
    links (l.foldl Application.destroyConn app) =
      { links app with
        socket := fun k => if k ∈ l then ((links app).socket k).map ({ · with wrapped := false }) else (links app).socket k
        timers := (links app).timers ++ l.map Timer.deleteSocket } := by
  induction l generalizing app with
  | nil =>
    simp only [List.foldl_nil, List.not_mem_nil, if_false, List.map_nil, List.append_nil]
  | cons sock l ih =>
    have hone : links (app.destroyConn sock) =
        ((links app).setSocket sock ({ · with wrapped := false })).addTimers [.deleteSocket sock] := by
      let unwrapped : Application := { app with sockets := app.sockets.modify sock ({ · with wrapped := false }) }
      have hadd : links { unwrapped with timers := unwrapped.timers ++ [.deleteSocket sock] } = _ := links_addTimer rfl
      rw [links_setSocket] at hadd
      exact hadd
    rw [List.foldl_cons, ih, hone, Links.mk.injEq]
    refine ⟨rfl, rfl, rfl, rfl, funext fun k => ?_, rfl, List.append_assoc ..⟩
    show (if k ∈ l then Option.map _ (if k = sock then _ else _) else if k = sock then _ else _) = _
    by_cases hk : k = sock
    · subst hk
      simp only [if_pos, List.mem_cons, true_or]
      split
      · rw [Option.map_map]
        rfl
      · rfl
    · simp only [List.mem_cons, hk, if_false, false_or]

theorem destroyConns_tidied (app : Application) : (links app).Tidied (links app.destroyConns) := by
  -- the connections that are destroyed: wrapped sockets to which nothing refers
  have hmem : ∀ sock, sock ∈ (app.sockets.toList.filter fun p => p.2.wrapped && !app.referenced p.1).map (·.1) ↔
      ¬ (links app).Referenced sock ∧ ∃ s, (links app).socket sock = some s ∧ s.wrapped = true := by
    intro sock
    rw [List.mem_map]
    constructor
    · rintro ⟨p, hp, rfl⟩
      obtain ⟨hp, hw⟩ := List.mem_filter.1 hp
      rw [Bool.and_eq_true, Bool.not_eq_true'] at hw
      refine ⟨fun h => ?_, p.2, ExtTreeMap.mem_toList_iff_getElem?_eq_some.1 hp, hw.1⟩
      rw [← referenced_iff, hw.2] at h
      cases h
    · rintro ⟨href, s, hs, hw⟩
      refine ⟨(sock, s), List.mem_filter.2 ⟨ExtTreeMap.mem_toList_iff_getElem?_eq_some.2 hs, ?_⟩, rfl⟩
      rw [Bool.and_eq_true, Bool.not_eq_true', ← Bool.not_eq_true]
      exact ⟨hw, fun h => href ((referenced_iff app sock).1 h)⟩
  have hlinks := links_destroy ((app.sockets.toList.filter fun p => p.2.wrapped && !app.referenced p.1).map (·.1)) app
  have hsocket : ∀ k, (links app.destroyConns).socket k = _ := fun k => congrFun (congrArg Links.socket hlinks) k
  have htimers : (links app.destroyConns).timers = _ := congrArg Links.timers hlinks
  have hother : ∀ {α : Type} (f : Links → α), f (links app.destroyConns) = f _ := fun f => congrArg f hlinks
  refine ⟨hother Links.fcmConnCount, hother Links.fcmConn, hother Links.session, hother Links.unauthenticated,
    hother Links.nextSocket, fun href hs => ?_, fun href hs => ?_, fun hs => ?_, fun {t} => ?_⟩
  · rw [hsocket]
    dsimp only
    rw [if_neg fun h => ((hmem _).1 h).1 href]
    exact hs
  · rename_i sock s
    rw [hsocket]
    dsimp only
    by_cases hw : s.wrapped = true
    · rw [if_pos ((hmem _).2 ⟨href, s, hs, hw⟩), hs]
      rfl
    · rw [if_neg fun h => ?_, hs]
      · rw [Bool.not_eq_true] at hw
        rw [← hw]
      · obtain ⟨-, s', hs', hw'⟩ := (hmem _).1 h
        rw [hs] at hs'
        cases hs'
        exact hw hw'
  · rw [hsocket]
    dsimp only
    rw [hs]
    split <;> rfl
  · rw [htimers]
    dsimp only
    rw [List.mem_append]
    refine or_congr Iff.rfl ?_
    rw [List.mem_map]
    constructor
    · rintro ⟨sock, hsock, rfl⟩
      obtain ⟨href, s, hs, hw⟩ := (hmem sock).1 hsock
      exact ⟨sock, s, rfl, href, hs, hw⟩
    · rintro ⟨sock, s, rfl, href, hs, hw⟩
      exact ⟨sock, (hmem sock).2 ⟨href, s, hs, hw⟩, rfl⟩

/-! ## Steps -/

/-- What a step does to the connections, and what they are when something happens in it. -/
theorem step_links (cfg : List SessionId) (w : World) (i : Input) :
    Found ((links w.app).heard i.event) w (step cfg w i) ∧
    ((survives w i = true ∧ ∃ l, Relink i (stores w.toServer) (links w.app) l ∧ l.Tidied (links (step cfg w i).app)) ∨
      (survives w i = false ∧ ∃ env db, (step cfg w i).app = .start cfg env db)) := by
  rcases step_cases cfg (E := fun _ => True) trivial (wp_handle_links (w := w) (i := i) Env.closed_all) with
    ⟨hlive, w', hlinked, he⟩ | ⟨hdead, e, w', env, hfound, he⟩
  · rw [he]
    exact ⟨hlinked.found, Or.inl ⟨hlive, _, hlinked.relink, destroyConns_tidied _⟩⟩
  · rw [he]
    exact ⟨hfound, Or.inr ⟨hdead, env, w'.db, rfl⟩⟩

end

end Gimmm

/-
Where the source of a downstream message comes from. A downstream row is saved when a BAL asks for it, under
the property `session_id` of its socket, and that is empty or the name of a configured session up to its first NUL.
-/
import Gimmm.Flow.Links

namespace Gimmm

open Std Prog CString

/-! ## The property of a socket -/

/-- Sessions are configured, and the property of a socket is empty or the name of one as a C string. -/
structure Named (cfg : List SessionId) (l : Links) : Prop where
  session : ∀ {sid : SessionId}, l.session sid ≠ none → sid ∈ cfg
  socket : ∀ {sock : SocketId} {s : Socket}, l.socket sock = some s →
    s.sessionId = "" ∨ ∃ sid ∈ cfg, s.sessionId = cString sid

namespace Named

variable {cfg : List SessionId} {l l' : Links}

theorem of_eq (h : Named cfg l) (hsession : l'.session = l.session) (hsocket : l'.socket = l.socket) : Named cfg l' := by
  refine ⟨fun {sid} hs => ?_, fun {sock s} hs => ?_⟩
  · rw [hsession] at hs
    exact h.session hs
  · rw [hsocket] at hs
    exact h.socket hs

/-- A change of one socket that leaves its property, or gives it a good one. -/
theorem setSocket (h : Named cfg l) (sock : SocketId) {f : Socket → Socket}
    (hf : ∀ s, (f s).sessionId = s.sessionId ∨ ∃ sid ∈ cfg, (f s).sessionId = cString sid) : Named cfg (l.setSocket sock f) := by
  refine ⟨h.session, fun {c s} hs => ?_⟩
  have hs : (if c = sock then (l.socket c).map f else l.socket c) = some s := hs
  split at hs
  · obtain ⟨s₀, hs₀, rfl⟩ := Option.map_eq_some_iff.1 hs
    rcases hf s₀ with hsame | hknown
    · rw [hsame]
      exact h.socket hs₀
    · exact Or.inr hknown
  · exact h.socket hs

theorem setSession (h : Named cfg l) (sid : SessionId)
    (f : Option SocketId × SessionState → Option SocketId × SessionState) : Named cfg (l.setSession sid f) := by
  refine ⟨fun {k} hs => @Named.session _ _ h k fun hnone => hs ?_, h.socket⟩
  show (if k = sid then (l.session k).map f else l.session k) = none
  rw [hnone]
  split <;> rfl

theorem handleDisconnect (h : Named cfg l) (sid : SessionId) : Named cfg (l.handleDisconnect sid) := by
  unfold Links.handleDisconnect
  split
  · exact h.of_eq rfl rfl
  · exact h.setSession sid _

theorem disconnected (h : Named cfg l) (sock : SocketId) : Named cfg (l.disconnected sock) := by
  unfold Links.disconnected
  split
  · exact h
  · split
    · split
      · exact h.setSocket sock fun _ => Or.inl rfl
      · exact (h.setSocket sock (f := ({ · with descriptor := -1 })) fun _ => Or.inl rfl).handleDisconnect _
    · exact h

theorem opened (h : Named cfg l) (d : Int) : Named cfg (l.opened d) := by
  refine ⟨h.session, fun {c s} hs => ?_⟩
  have hs : (l.socket c).or (if c = l.nextSocket then some (.new d) else none) = some s := hs
  rcases Option.or_eq_some_iff.1 hs with hs | ⟨-, hs⟩
  · exact h.socket hs
  · split at hs
    · cases hs
      exact Or.inl rfl
    · cases hs

/-- Only an accepted logon names a socket, and it names a configured session. -/
theorem relink {i : Input} {b : Stores} (h : Named cfg l) (hr : Relink i b l l') : Named cfg l' := by
  cases hr with
  | @opened d => exact h.opened d
  | @accepted sock doc s conn ts he logon socket connected unblocked entry known resend =>
    have hrest : Named cfg ((l.cancel conn).erase s.descriptor) := h.of_eq rfl rfl
    have hl := hrest.setSession (Json.toString (doc.value gimmmfieldnames.sessionId)) fun _ => (some conn, .authenticated)
    exact (hl.setSocket conn (f := (·.named (Json.toString (doc.value gimmmfieldnames.sessionId))))
      fun _ => Or.inr ⟨_, h.session known, rfl⟩).of_eq rfl rfl
  | @disconnected sock => exact h.disconnected sock
  | @timedOut sock s ts =>
    have hrest : Named cfg (l.setTimers ts) := h.of_eq rfl rfl
    exact (hrest.setSocket sock (f := ({ · with signalsBlocked := true })) fun _ => Or.inl rfl).of_eq rfl rfl
  | @deleted sock ts =>
    have hrest : Named cfg (l.setTimers ts) := h.of_eq rfl rfl
    have hl := hrest.disconnected sock
    refine ⟨hl.session, fun {c s} hs => ?_⟩
    have hs : (if c = sock then none else ((l.setTimers ts).disconnected sock).socket c) = some s := hs
    split at hs
    · cases hs
    · exact hl.socket hs
  | _ => exact h.of_eq rfl rfl

theorem tidied (h : Named cfg l) (ht : l.Tidied l') : Named cfg l' := by
  refine ⟨fun {sid} hs => ?_, fun {sock s} hs => ?_⟩
  · rw [ht.session] at hs
    exact h.session hs
  · cases hl : l.socket sock with
    | none =>
      rw [ht.absent hl] at hs
      cases hs
    | some s₀ =>
      by_cases href : l.Referenced sock
      · rw [ht.kept href hl] at hs
        cases hs
        exact h.socket hl
      · have hname : s₀.sessionId = "" ∨ ∃ sid ∈ cfg, s₀.sessionId = cString sid := h.socket hl
        rw [ht.destroyed href hl] at hs
        cases hs
        exact hname

theorem start (cfg : List SessionId) (env : Env) (db : Database) : Named cfg (links (.start cfg env db)) := by
  refine ⟨fun {sid} hs => ?_, fun {sock s} hs => ?_⟩
  · by_contra hnot
    refine hs ?_
    have hbal := start_balManager cfg env db sid
    rw [if_neg hnot] at hbal
    show ((Application.start cfg env db).balSessionMap[sid]?).map _ = none
    exact Option.map_eq_none_iff.2 (Option.map_eq_none_iff.1 hbal)
  · have hs : (∅ : ExtTreeMap SocketId Socket)[sock]? = some s := hs
    rw [ExtTreeMap.getElem?_empty] at hs
    cases hs

theorem step {w : World} (h : Named cfg (links w.app)) (i : Input) : Named cfg (links (step cfg w i).app) := by
  obtain ⟨-, ⟨-, l, hrelink, htidied⟩ | ⟨-, env, db, happ⟩⟩ := step_links cfg w i
  · exact (h.relink hrelink).tidied htidied
  · rw [happ]
    exact .start cfg env db

end Named

/-! ## The source of a downstream row -/

/-- The sources of the downstream rows are in `S`. -/
def Database.SourcesIn (S : SessionId → Prop) (db : Database) : Prop :=
  ∀ (n : Int) (row : Row), db.rows[n]? = some row → row.type = .downstream → S row.sourceSession

namespace Database.SourcesIn

variable {S : SessionId → Prop} {db db' : Database}

theorem insert (h : db.SourcesIn S) {msg : Message} (hmsg : msg.type = .downstream → S (cString msg.sourceSessionId))
    (hdb : db.insert (.ofMessage msg) = some db') : db'.SourcesIn S := by
  intro n row hrow htype
  rw [(Database.insert_some hdb).2 n] at hrow
  split at hrow
  · cases hrow
    exact hmsg htype
  · exact h n row hrow htype

theorem update (h : db.SourcesIn S) (k : Int) (s : MessageState) : (db.update k s).SourcesIn S := by
  intro n row hrow htype
  rw [Database.update_getElem?] at hrow
  split at hrow
  · obtain ⟨row₀, hrow₀, rfl⟩ := Option.map_eq_some_iff.1 hrow
    exact h n row₀ hrow₀ htype
  · exact h n row hrow htype

end Database.SourcesIn

/-- No downstream row with a source outside `S` is added. -/
def Sourced (S : SessionId → Prop) (w w' : World) : Prop := w.db.SourcesIn S → w'.db.SourcesIn S

section
variable {S : SessionId → Prop} {w w' : World}

instance : IsPreorder World (Sourced S) where
  refl _ h := h
  trans _ _ _ h h' hs := h' (h hs)

theorem Sourced.of_db (h : w'.db = w.db) : Sourced S w w' := fun hs => h ▸ hs

theorem sourced_messages : SettlementFrame (Sourced S) where
  refl _ := trivial
  add _ _ _ := trivial
  touch _ _ _ _ := trivial
  increment _ := trivial
  counter _ _ := .of_db rfl
  insert _ _ _ htype hdb hs := hs.insert (fun ht => absurd ht htype) hdb
  mark _ _ hs := hs.update _ _
  putBal _ _ _ _ _ _ := .of_db rfl
  balWrite _ _ _ _ := .of_db rfl
  putFcm _ _ _ := .of_db rfl
  record _ _ := .of_db rfl
  update _ _ _ hs := hs.update _ _
  retry _ _ _ := .of_db rfl

theorem sourced_connections : ConnectionFrame (Sourced S) where
  change _ _ _ _ _ _ := .of_db rfl
  logon _ _ _ := .of_db rfl

/-- The socket of a request to upload a message has a property in `S`. -/
def RequestsFrom (S : SessionId → Prop) (w : World) (i : Input) : Prop :=
  ∀ sock doc s, i.event = .balFrame sock doc → w.app.sockets[sock]? = some s → s.connected = true →
    s.signalsBlocked = false → Json.toString (doc.value gimmmfieldnames.messageType) = "DOWNSTREAM" → S s.sessionId

/-- A step adds downstream rows only under the property of the socket that asks. -/
theorem step_sources (cfg : List SessionId) {i : Input} (hreq : RequestsFrom S w i) (h : w.db.SourcesIn S) :
    (step cfg w i).db.SourcesIn S := by
  have hwp := wp_handle_frame (R := Sourced S) (w := w) Env.closed_all sourced_messages sourced_connections i.event
    fun sock doc s he hsock hconn hblocked htype =>
      (sourced_messages (S := S)).handleBalDownstreamUploadRequest Env.closed_all
        (fun _ msg _ hsource hdb hs => hs.insert (fun _ => by
          rw [hsource, cString_of_noNul s.noNul]
          exact hreq sock doc s he hsock hconn hblocked htype) hdb) w
  rcases step_cases cfg (i := i) trivial hwp with ⟨-, w', hs, he⟩ | ⟨-, e, w', env, hs, he⟩
  · rw [he]
    exact hs h
  · rw [he]
    exact hs h

end

end Gimmm

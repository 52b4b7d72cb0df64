/-
Descriptors and connections. The open sockets have descriptors of their own, and a connection that is not logged on
is in `__balSessionMapU` under the descriptor of its socket, as long as that is open. A step accepts one new socket
or narrows the connections down to some that were there before.
-/
import Gimmm.Flow.Exact
import Gimmm.Flow.Links

namespace Gimmm

open Std Prog

/-- Sockets, entries, references and deletions of `l'` are those of `l`, but for sockets that were closed. -/
structure Links.Narrows (l l' : Links) : Prop where
  socket : ∀ {c : SocketId} {s' : Socket}, l'.socket c = some s' →
    ∃ s, l.socket c = some s ∧ (s'.descriptor = s.descriptor ∨ s'.descriptor = -1)
  nextSocket : l'.nextSocket = l.nextSocket
  entry : ∀ {d : Int} {c : SocketId}, l'.unauthenticated d = some c → l.unauthenticated d = some c
  referenced : ∀ {c : SocketId}, l'.Referenced c → l.Referenced c
  deleting : ∀ {c : SocketId}, .deleteSocket c ∈ l'.timers → .deleteSocket c ∈ l.timers ∨ ∃ s, l.socket c = some s

namespace Links

variable {l l' l'' : Links}

theorem connected_iff {s : Socket} : s.connected = true ↔ s.descriptor ≠ -1 := decide_eq_true_iff

namespace Narrows

theorem refl (l : Links) : l.Narrows l := ⟨fun h => ⟨_, h, Or.inl rfl⟩, rfl, id, id, Or.inl⟩

theorem trans (h : l.Narrows l') (h' : l'.Narrows l'') : l.Narrows l'' := by
  refine ⟨fun hs => ?_, h'.nextSocket.trans h.nextSocket, fun he => h.entry (h'.entry he),
    fun hr => h.referenced (h'.referenced hr), fun ht => ?_⟩
  · obtain ⟨s₁, h₁, hd₁⟩ := h'.socket hs
    obtain ⟨s, hs, hd⟩ := h.socket h₁
    refine ⟨s, hs, ?_⟩
    rcases hd₁ with hd₁ | hd₁
    · rw [hd₁]
      exact hd
    · exact Or.inr hd₁
  · rcases h'.deleting ht with ht | ⟨s', hs'⟩
    · exact h.deleting ht
    · obtain ⟨s, hs, -⟩ := h.socket hs'
      exact Or.inr ⟨s, hs⟩

/-- Timers that are no deletions may come and go. -/
theorem of_timers (hsession : l'.session = l.session) (hentry : l'.unauthenticated = l.unauthenticated)
    (hsocket : l'.socket = l.socket) (hnext : l'.nextSocket = l.nextSocket)
    (htimers : ∀ t ∈ l'.timers, t ∈ l.timers ∨ ∀ c, t ≠ .authentication c ∧ t ≠ .deleteSocket c) : l.Narrows l' := by
  refine ⟨fun hs => ⟨_, hsocket ▸ hs, Or.inl rfl⟩, hnext, fun he => hentry ▸ he, fun {c} hr => ?_, fun {c} ht => ?_⟩
  · rcases hr with ⟨d, hd⟩ | ⟨sid, state, hsid⟩ | ht
    · exact Or.inl ⟨d, hentry ▸ hd⟩
    · exact Or.inr (Or.inl ⟨sid, state, hsession ▸ hsid⟩)
    · rcases htimers _ ht with ht | ht
      · exact Or.inr (Or.inr ht)
      · exact absurd rfl (ht c).1
  · rcases htimers _ ht with ht | ht
    · exact Or.inl ht
    · exact absurd rfl (ht c).2

theorem setTimers {ts : List Timer} (h : ts.Sublist l.timers) : l.Narrows (l.setTimers ts) :=
  .of_timers rfl rfl rfl rfl fun _ ht => Or.inl (h.subset ht)

theorem cancel (sock : SocketId) : l.Narrows (l.cancel sock) :=
  .of_timers rfl rfl rfl rfl fun _ ht => Or.inl (List.mem_of_mem_filter ht)

theorem addTimers {ts : List Timer} (h : ∀ t ∈ ts, ∀ c, t ≠ .authentication c ∧ t ≠ .deleteSocket c) :
    l.Narrows (l.addTimers ts) := by
  refine .of_timers rfl rfl rfl rfl fun t ht => ?_
  rcases List.mem_append.1 ht with ht | ht
  · exact Or.inl ht
  · exact Or.inr (h t ht)

theorem erase (d : Int) : l.Narrows (l.erase d) := by
  have hentry : ∀ {k : Int} {c : SocketId}, (l.erase d).unauthenticated k = some c → l.unauthenticated k = some c := by
    intro k c hk
    have hk : (if k = d then none else l.unauthenticated k) = some c := hk
    split at hk
    · cases hk
    · exact hk
  refine ⟨fun hs => ⟨_, hs, Or.inl rfl⟩, rfl, hentry, fun hr => ?_, Or.inl⟩
  rcases hr with ⟨k, hk⟩ | hr
  · exact Or.inl ⟨k, hentry hk⟩
  · exact Or.inr hr

/-- The state of a session changes, not its connection. -/
theorem setState (sid : SessionId) (st : SessionState) : l.Narrows (l.setSession sid fun p => (p.1, st)) := by
  refine ⟨fun hs => ⟨_, hs, Or.inl rfl⟩, rfl, id, fun {c} hr => ?_, Or.inl⟩
  rcases hr with hd | ⟨k, state, hk⟩ | ht
  · exact Or.inl hd
  · have hk : (if k = sid then (l.session k).map fun p => (p.1, st) else l.session k) = some (some c, state) := hk
    split at hk
    · obtain ⟨⟨conn, state'⟩, hk', hp⟩ := Option.map_eq_some_iff.1 hk
      obtain rfl : conn = some c := (Prod.mk.inj hp).1
      exact Or.inr (Or.inl ⟨k, state', hk'⟩)
    · exact Or.inr (Or.inl ⟨k, state, hk⟩)
  · exact Or.inr (Or.inr ht)

/-- A session is bound to a connection that is referenced already. -/
theorem bind {conn : SocketId} (sid : SessionId) (h : l.Referenced conn) :
    l.Narrows (l.setSession sid fun _ => (some conn, .authenticated)) := by
  refine ⟨fun hs => ⟨_, hs, Or.inl rfl⟩, rfl, id, fun {c} hr => ?_, Or.inl⟩
  rcases hr with hd | ⟨k, state, hk⟩ | ht
  · exact Or.inl hd
  · have hk : (if k = sid then (l.session k).map fun _ => (some conn, .authenticated) else l.session k) =
      some (some c, state) := hk
    split at hk
    · obtain ⟨-, -, hp⟩ := Option.map_eq_some_iff.1 hk
      obtain rfl : conn = c := Option.some.inj (Prod.mk.inj hp).1
      exact h
    · exact Or.inr (Or.inl ⟨k, state, hk⟩)
  · exact Or.inr (Or.inr ht)

theorem setSocket (sock : SocketId) {f : Socket → Socket}
    (hf : ∀ s, (f s).descriptor = s.descriptor ∨ (f s).descriptor = -1) : l.Narrows (l.setSocket sock f) := by
  refine ⟨fun {c s} hs => ?_, rfl, id, id, Or.inl⟩
  have hs : (if c = sock then (l.socket c).map f else l.socket c) = some s := hs
  split at hs
  · obtain ⟨s₀, hs₀, rfl⟩ := Option.map_eq_some_iff.1 hs
    exact ⟨s₀, hs₀, hf s₀⟩
  · exact ⟨s, hs, Or.inl rfl⟩

theorem removeSocket (sock : SocketId) : l.Narrows (l.removeSocket sock) := by
  refine ⟨fun {c s} hs => ?_, rfl, id, id, Or.inl⟩
  have hs : (if c = sock then none else l.socket c) = some s := hs
  split at hs
  · cases hs
  · exact ⟨s, hs, Or.inl rfl⟩

theorem disconnected (sock : SocketId) : l.Narrows (l.disconnected sock) := by
  have hclosed : l.Narrows (l.setSocket sock ({ · with descriptor := -1 })) := .setSocket sock fun _ => Or.inr rfl
  unfold Links.disconnected
  split
  · exact .refl l
  · split
    · split
      · exact hclosed
      · refine hclosed.trans ?_
        unfold handleDisconnect
        split
        · exact (cancel _).trans (.erase _)
        · exact .setState _ _
    · exact .refl l

/-- A connection that is destroyed is that of a socket. -/
theorem tidied (h : l.Tidied l') : l.Narrows l' := by
  refine ⟨fun {c s'} hs' => ?_, h.nextSocket, fun he => h.unauthenticated ▸ he, fun {c} hr => ?_, fun {c} ht => ?_⟩
  · cases hs : l.socket c with
    | none =>
      rw [h.absent hs] at hs'
      cases hs'
    | some s =>
      refine ⟨s, rfl, Or.inl ?_⟩
      by_cases hr : l.Referenced c
      · rw [h.kept hr hs] at hs'
        cases hs'
        rfl
      · rw [h.destroyed hr hs] at hs'
        cases hs'
        rfl
  · rcases hr with ⟨d, hd⟩ | ⟨sid, state, hsid⟩ | ht
    · exact Or.inl ⟨d, h.unauthenticated ▸ hd⟩
    · exact Or.inr (Or.inl ⟨sid, state, h.session ▸ hsid⟩)
    · rcases h.timers.1 ht with ht | ⟨sock, s, hne, -⟩
      · exact Or.inr (Or.inr ht)
      · cases hne
  · rcases h.timers.1 ht with ht | ⟨sock, s, he, -, hs, -⟩
    · exact Or.inl ht
    · cases he
      exact Or.inr ⟨s, hs⟩

end Narrows

end Links

/-- A step that the process survives accepts a socket, or narrows the connections down. -/
theorem Relink.narrows {i : Input} {b : Stores} {l l' : Links} (h : Relink i b l l') :
    l.Narrows l' ∨ ∃ d, i.event = .newBALConnection d ∧ 0 ≤ d ∧ (∀ c s, l.socket c = some s → s.descriptor ≠ d) ∧
      l' = l.opened d := by
  cases h with
  | same => exact Or.inl (.refl l)
  | opened he nonneg free => exact Or.inr ⟨_, he, nonneg, free, rfl⟩
  | rejected => exact Or.inl ((Links.Narrows.cancel _).trans (.erase _))
  | @accepted sock doc s conn ts he logon socket connected unblocked entry known resend =>
    refine Or.inl ?_
    -- the entry goes, but the session that is bound keeps the connection
    have hbind := Links.Narrows.bind (l := l) (Json.toString (doc.value gimmmfieldnames.sessionId)) (Or.inl ⟨_, entry⟩)
    have hname := hbind.trans (.setSocket conn (f := (·.named (Json.toString (doc.value gimmmfieldnames.sessionId))))
      fun _ => Or.inl rfl)
    refine (hname.trans (.cancel conn)).trans ((Links.Narrows.erase s.descriptor).trans (.addTimers fun t ht c => ?_))
    rw [resend t ht]
    exact ⟨nofun, nofun⟩
  | disconnected => exact Or.inl (.disconnected _)
  | @timedOut sock s ts expires due rest socket =>
    have hblocked := Links.Narrows.setSocket (l := l.setTimers ts) sock (f := ({ · with signalsBlocked := true })) fun _ => Or.inl rfl
    exact Or.inl ((Links.Narrows.setTimers rest).trans (hblocked.trans (.erase _)))
  | deleted expires due rest =>
    exact Or.inl ((Links.Narrows.setTimers rest).trans ((Links.Narrows.disconnected _).trans (.removeSocket _)))
  | waited he rest => exact Or.inl (.setTimers rest)
  | established => exact Or.inl (.of_timers rfl rfl rfl rfl fun _ => Or.inl)
  | drained => exact Or.inl (.of_timers rfl rfl rfl rfl fun _ => Or.inl)
  | lost he reconnect =>
    refine Or.inl (.of_timers rfl rfl rfl rfl fun t ht => ?_)
    rcases List.mem_append.1 ht with ht | ht
    · exact Or.inl ht
    · rw [reconnect t ht]
      exact Or.inr fun c => ⟨nofun, nofun⟩

/-! ## The invariant -/

/-- Every open socket has a descriptor of its own, an entry of `__balSessionMapU` is under that of its socket if it is
open, and what is referenced or will be deleted has come already. -/
structure Wired (l : Links) : Prop where
  fresh : ∀ {c : SocketId} {s : Socket}, l.socket c = some s → c < l.nextSocket
  nonneg : ∀ {c : SocketId} {s : Socket}, l.socket c = some s → s.connected = true → 0 ≤ s.descriptor
  distinct : ∀ {c c' : SocketId} {s s' : Socket}, l.socket c = some s → l.socket c' = some s' → s.connected = true →
    s.descriptor = s'.descriptor → c = c'
  entry : ∀ {d : Int} {c : SocketId}, l.unauthenticated d = some c → 0 ≤ d
  entered : ∀ {d : Int} {c : SocketId} {s : Socket}, l.unauthenticated d = some c → l.socket c = some s →
    s.connected = true → s.descriptor = d
  referenced : ∀ {c : SocketId}, l.Referenced c → c < l.nextSocket
  deleting : ∀ {c : SocketId}, .deleteSocket c ∈ l.timers → c < l.nextSocket

namespace Wired

variable {l l' : Links}

theorem narrowed (h : Wired l) (hn : l.Narrows l') : Wired l' := by
  -- a socket that is open now was open before, under the same descriptor
  have hopen : ∀ {s s' : Socket}, s'.descriptor = s.descriptor ∨ s'.descriptor = -1 → s'.connected = true →
      s'.descriptor = s.descriptor ∧ s.connected = true := by
    intro s s' hd hc
    rcases hd with hd | hd
    · refine ⟨hd, ?_⟩
      rw [Links.connected_iff, ← hd]
      exact Links.connected_iff.1 hc
    · exact absurd hd (Links.connected_iff.1 hc)
  constructor
  · intro c s' hs'
    obtain ⟨s, hs, -⟩ := hn.socket hs'
    rw [hn.nextSocket]
    exact h.fresh hs
  · intro c s' hs' hc'
    obtain ⟨s, hs, hd⟩ := hn.socket hs'
    obtain ⟨hd, hc⟩ := hopen hd hc'
    rw [hd]
    exact h.nonneg hs hc
  · intro c c' s₁ s₁' hs₁ hs₁' hc₁ heq
    obtain ⟨s, hs, hd⟩ := hn.socket hs₁
    obtain ⟨s', hs', hd'⟩ := hn.socket hs₁'
    have hc₁' : s₁'.connected = true := Links.connected_iff.2 (heq ▸ Links.connected_iff.1 hc₁)
    obtain ⟨hd, hc⟩ := hopen hd hc₁
    obtain ⟨hd', -⟩ := hopen hd' hc₁'
    exact h.distinct hs hs' hc (hd.symm.trans (heq.trans hd'))
  · intro d c he
    exact h.entry (hn.entry he)
  · intro d c s' he hs' hc'
    obtain ⟨s, hs, hd⟩ := hn.socket hs'
    obtain ⟨hd, hc⟩ := hopen hd hc'
    exact hd.trans (h.entered (hn.entry he) hs hc)
  · intro c hr
    rw [hn.nextSocket]
    exact h.referenced (hn.referenced hr)
  · intro c ht
    rw [hn.nextSocket]
    rcases hn.deleting ht with ht | ⟨s, hs⟩
    · exact h.deleting ht
    · exact h.fresh hs

/-- A socket that is accepted is new, and so is its descriptor. -/
theorem opened (h : Wired l) {d : Int} (hd : 0 ≤ d) (free : ∀ c s, l.socket c = some s → s.descriptor ≠ d) :
    Wired (l.opened d) := by
  -- the only new socket and the only new entry
  have hsocket : ∀ {c : SocketId} {s : Socket}, (l.opened d).socket c = some s →
      l.socket c = some s ∨ c = l.nextSocket ∧ s = .new d := by
    intro c s hs
    rcases Option.or_eq_some_iff.1 hs with hs | ⟨-, hs⟩
    · exact Or.inl hs
    · split at hs
      · rename_i hc
        exact Or.inr ⟨hc, (Option.some.inj hs).symm⟩
      · cases hs
  have hentry : ∀ {k : Int} {c : SocketId}, (l.opened d).unauthenticated k = some c →
      l.unauthenticated k = some c ∨ k = d ∧ c = l.nextSocket := by
    intro k c hk
    rcases Option.or_eq_some_iff.1 hk with hk | ⟨-, hk⟩
    · exact Or.inl hk
    · split at hk
      · rename_i hkd
        exact Or.inr ⟨hkd, (Option.some.inj hk).symm⟩
      · cases hk
  have hnext : ∀ {c : SocketId}, c < l.nextSocket → c < (l.opened d).nextSocket := fun h => Nat.lt_succ_of_lt h
  have hnew : l.nextSocket < (l.opened d).nextSocket := Nat.lt_succ_self _
  constructor
  · intro c s hs
    rcases hsocket hs with hs | ⟨rfl, -⟩
    · exact hnext (h.fresh hs)
    · exact hnew
  · intro c s hs hc
    rcases hsocket hs with hs | ⟨-, rfl⟩
    · exact h.nonneg hs hc
    · exact hd
  · intro c c' s s' hs hs' hc heq
    -- no open socket has the descriptor of the new one
    rcases hsocket hs with hs | ⟨rfl, rfl⟩
    · rcases hsocket hs' with hs' | ⟨-, rfl⟩
      · exact h.distinct hs hs' hc heq
      · exact absurd heq (free c s hs)
    · rcases hsocket hs' with hs' | ⟨rfl, -⟩
      · exact absurd heq.symm (free c' s' hs')
      · rfl
  · intro k c hk
    rcases hentry hk with hk | ⟨rfl, -⟩
    · exact h.entry hk
    · exact hd
  · intro k c s hk hs hc
    rcases hsocket hs with hs | ⟨rfl, rfl⟩
    · rcases hentry hk with hk | ⟨-, rfl⟩
      · exact h.entered hk hs hc
      · exact absurd (h.fresh hs) (Nat.lt_irrefl _)
    · rcases hentry hk with hk | ⟨rfl, -⟩
      · exact absurd (h.referenced (Or.inl ⟨k, hk⟩)) (Nat.lt_irrefl _)
      · rfl
  · intro c hr
    rcases hr with ⟨k, hk⟩ | ⟨sid, state, hsid⟩ | ht
    · rcases hentry hk with hk | ⟨-, rfl⟩
      · exact hnext (h.referenced (Or.inl ⟨k, hk⟩))
      · exact hnew
    · exact hnext (h.referenced (Or.inr (Or.inl ⟨sid, state, hsid⟩)))
    · rcases List.mem_append.1 ht with ht | ht
      · exact hnext (h.referenced (Or.inr (Or.inr ht)))
      · cases List.mem_singleton.1 ht
        exact hnew
  · intro c ht
    rcases List.mem_append.1 ht with ht | ht
    · exact hnext (h.deleting ht)
    · cases List.mem_singleton.1 ht

theorem relink {i : Input} {b : Stores} (h : Wired l) (hr : Relink i b l l') : Wired l' := by
  rcases hr.narrows with hn | ⟨d, -, nonneg, free, rfl⟩
  · exact h.narrowed hn
  · exact h.opened nonneg free

theorem start (cfg : List SessionId) (env : Env) (db : Database) : Wired (links (.start cfg env db)) := by
  have hsocket : ∀ {c : SocketId} {s : Socket}, (links (.start cfg env db)).socket c = some s → False := by
    intro c s hs
    have hs : (∅ : ExtTreeMap SocketId Socket)[c]? = some s := hs
    rw [ExtTreeMap.getElem?_empty] at hs
    cases hs
  have hentry : ∀ {d : Int} {c : SocketId}, (links (.start cfg env db)).unauthenticated d = some c → False := by
    intro d c hd
    have hd : (∅ : ExtTreeMap Int SocketId)[d]? = some c := hd
    rw [ExtTreeMap.getElem?_empty] at hd
    cases hd
  have hunbound : ∀ {sid : SessionId} {c : SocketId} {st : SessionState},
      (links (.start cfg env db)).session sid = some (some c, st) → False := by
    intro sid c st hsid
    obtain ⟨sess, hsess, hp⟩ := Option.map_eq_some_iff.1 hsid
    have hmap := foldl_insertIfNew (fun s => (⟨none, .unauthenticated,
      db.loadPendingMessages (env.scan s) env.junk (.new s)⟩ : BALSession)) cfg ∅ sid
    have hsess := hmap.symm.trans hsess
    rw [ExtTreeMap.getElem?_empty, Option.none_or] at hsess
    split at hsess
    · cases hsess
      cases (Prod.mk.inj hp).1
    · cases hsess
  constructor
  · exact fun hs => (hsocket hs).elim
  · exact fun hs => (hsocket hs).elim
  · exact fun hs => (hsocket hs).elim
  · exact fun he => (hentry he).elim
  · exact fun he => (hentry he).elim
  · rintro c (⟨d, hd⟩ | ⟨sid, st, hsid⟩ | ht)
    · exact (hentry hd).elim
    · exact (hunbound hsid).elim
    · cases ht
  · intro c ht
    cases ht

theorem step {cfg : List SessionId} {w : World} (h : Wired (links w.app)) (i : Input) :
    Wired (links (step cfg w i).app) := by
  obtain ⟨-, ⟨-, l, hrelink, htidied⟩ | ⟨-, env, db, happ⟩⟩ := step_links cfg w i
  · exact (h.relink hrelink).narrowed (.tidied htidied)
  · rw [happ]
    exact .start cfg env db

/-- A logon that finds an entry of an open socket is from that socket. -/
theorem sender (h : Wired l) {sock conn : SocketId} {s s' : Socket} (hs : l.socket sock = some s)
    (entry : l.unauthenticated s.descriptor = some conn) (hs' : l.socket conn = some s') (hc : s'.connected = true) :
    conn = sock := h.distinct hs' hs hc (h.entered entry hs' hc)

end Wired

/-! ## One socket -/

/-- What an event makes of the socket `c`, if it is still there. -/
inductive Remade (i : Input) (l : Links) (c : SocketId) : Socket → Prop where
  | same {s : Socket} (socket : l.socket c = some s) : Remade i l c s
  | opened {d : Int} (he : i.event = .newBALConnection d) (absent : l.socket c = none) (next : c = l.nextSocket) :
      Remade i l c (.new d)
  | closed {s : Socket} (socket : l.socket c = some s) (connected : s.connected = true) :
      Remade i l c { s with descriptor := -1 }
  | blocked {s : Socket} (socket : l.socket c = some s) (due : .authentication c ∈ l.timers) :
      Remade i l c { s with signalsBlocked := true }
  | named {sock : SocketId} {doc : Json} {s s₁ : Socket} (he : i.event = .balFrame sock doc)
      (logon : Json.toString (doc.value gimmmfieldnames.messageType) = "LOGON") (sender : l.socket sock = some s)
      (connected : s.connected = true) (unblocked : s.signalsBlocked = false) (entry : l.unauthenticated s.descriptor = some c)
      (known : l.session (Json.toString (doc.value gimmmfieldnames.sessionId)) ≠ none) (socket : l.socket c = some s₁) :
      Remade i l c (s₁.named (Json.toString (doc.value gimmmfieldnames.sessionId)))

section
variable {i : Input} {l l' : Links} {c : SocketId} {s' : Socket}

theorem Links.handleDisconnect_socket (l : Links) (sid : SessionId) : (l.handleDisconnect sid).socket = l.socket := by
  unfold handleDisconnect
  split <;> rfl

theorem Links.disconnected_socket {sock : SocketId} (h : (l.disconnected sock).socket c = some s') :
    l.socket c = some s' ∨ ∃ s, c = sock ∧ l.socket c = some s ∧ s.connected = true ∧ s' = { s with descriptor := -1 } := by
  unfold disconnected at h
  split at h
  · exact Or.inl h
  · rename_i s hs
    split at h
    · rename_i hconn
      have hsocket : (l.setSocket sock ({ · with descriptor := -1 })).socket c = some s' := by
        split at h
        · exact h
        · rw [handleDisconnect_socket] at h
          exact h
      have hclosed : (if c = sock then (l.socket c).map ({ · with descriptor := -1 }) else l.socket c) = some s' := hsocket
      split at hclosed
      · rename_i hc
        subst hc
        rw [hs] at hclosed
        exact Or.inr ⟨s, rfl, hs, hconn, (Option.some.inj hclosed).symm⟩
      · exact Or.inl hclosed
    · exact Or.inl h

theorem Relink.remade {b : Stores} (h : Relink i b l l') (hs' : l'.socket c = some s') : Remade i l c s' := by
  cases h with
  | @opened d he nonneg free =>
    rcases Option.or_eq_some_iff.1 hs' with hs' | ⟨hnone, hs'⟩
    · exact .same hs'
    · split at hs'
      · rename_i hc
        cases hs'
        exact .opened he hnone hc
      · cases hs'
  | @accepted sock doc s conn ts he logon socket connected unblocked entry known resend =>
    have hnamed : (if c = conn then (l.socket c).map (·.named (Json.toString (doc.value gimmmfieldnames.sessionId)))
      else l.socket c) = some s' := hs'
    split at hnamed
    · rename_i hc
      subst hc
      obtain ⟨s₁, hs₁, rfl⟩ := Option.map_eq_some_iff.1 hnamed
      exact .named he logon socket connected unblocked entry known hs₁
    · exact .same hnamed
  | @disconnected sock he =>
    rcases Links.disconnected_socket hs' with hs' | ⟨s, -, hs, hconn, rfl⟩
    · exact .same hs'
    · exact .closed hs hconn
  | @timedOut sock s ts expires due rest socket =>
    have hblocked : (if c = sock then (l.socket c).map ({ · with signalsBlocked := true }) else l.socket c) = some s' := hs'
    split at hblocked
    · rename_i hc
      subst hc
      obtain ⟨s₁, hs₁, rfl⟩ := Option.map_eq_some_iff.1 hblocked
      exact .blocked hs₁ due
    · exact .same hblocked
  | @deleted sock ts expires due rest =>
    have hleft : (if c = sock then none else ((l.setTimers ts).disconnected sock).socket c) = some s' := hs'
    split at hleft
    · cases hleft
    · rename_i hc
      rcases Links.disconnected_socket hleft with hs' | ⟨s, hcs, -⟩
      · exact .same hs'
      · exact absurd hcs hc
  | _ => exact .same hs'

/-- What is left of a socket once the connections without a reference are destroyed. -/
theorem Links.Tidied.socket_eq (h : l.Tidied l') (hs' : l'.socket c = some s') :
    ∃ s, l.socket c = some s ∧ (s' = s ∨ ¬ l.Referenced c ∧ s' = { s with wrapped := false }) := by
  cases hs : l.socket c with
  | none =>
    rw [h.absent hs] at hs'
    cases hs'
  | some s =>
    refine ⟨s, rfl, ?_⟩
    by_cases hr : l.Referenced c
    · rw [h.kept hr hs] at hs'
      exact Or.inl (Option.some.inj hs').symm
    · rw [h.destroyed hr hs] at hs'
      exact Or.inr ⟨hr, (Option.some.inj hs').symm⟩

end

/-! ## Accepted logons -/

/-- The input is a LOGON on the socket, and the server accepts it for the session. -/
def Accepts (w : World) (i : Input) (sock : SocketId) (sid : SessionId) : Prop :=
  ∃ doc s, i.event = .balFrame sock doc ∧ Json.toString (doc.value gimmmfieldnames.messageType) = "LOGON" ∧
    Json.toString (doc.value gimmmfieldnames.sessionId) = sid ∧ w.app.sockets[sock]? = some s ∧ s.connected = true ∧
    s.signalsBlocked = false ∧ w.app.balSessionMapU[s.descriptor]? ≠ none ∧ w.app.balSessionMap[sid]? ≠ none

theorem Accepts.of_map {w : World} {i : Input} {sock : SocketId} {sid : SessionId} {doc : Json} {d : Int}
    (he : i.event = .balFrame sock doc) (logon : Json.toString (doc.value gimmmfieldnames.messageType) = "LOGON")
    (hsid : Json.toString (doc.value gimmmfieldnames.sessionId) = sid)
    (hsocket : (w.app.sockets[sock]?).map (fun s => (s.connected, s.signalsBlocked, s.descriptor)) = some (true, false, d))
    (hentry : (w.app.balSessionMapU[d]?).isSome = true) (hknown : (w.app.balSessionMap[sid]?).isSome = true) :
    Accepts w i sock sid := by
  obtain ⟨s, hs, hp⟩ := Option.map_eq_some_iff.1 hsocket
  obtain ⟨hopen, hp⟩ := Prod.mk.inj hp
  obtain ⟨hblocked, rfl⟩ := Prod.mk.inj hp
  exact ⟨doc, s, he, logon, hsid, hs, hopen, hblocked, Option.isSome_iff_ne_none.1 hentry, Option.isSome_iff_ne_none.1 hknown⟩

/-- A LOGON for a configured session from a socket with an entry is accepted. -/
theorem step_accepted (cfg : List SessionId) {w : World} {i : Input} {sock conn : SocketId} {doc : Json} {s : Socket}
    (he : i.event = .balFrame sock doc) (logon : Json.toString (doc.value gimmmfieldnames.messageType) = "LOGON")
    (socket : (links w.app).socket sock = some s) (connected : s.connected = true) (unblocked : s.signalsBlocked = false)
    (entry : (links w.app).unauthenticated s.descriptor = some conn)
    (known : (links w.app).session (Json.toString (doc.value gimmmfieldnames.sessionId)) ≠ none)
    (hlive : survives w i = true) :
    ∃ ts, (∀ t ∈ ts, t = .resend (Json.toString (doc.value gimmmfieldnames.sessionId))) ∧
      (((((links w.app).cancel conn).erase s.descriptor).accepted
        (Json.toString (doc.value gimmmfieldnames.sessionId)) conn).addTimers ts).Tidied (links (step cfg w i).app) := by
  have hwp := wp_handleBalLogonRequest_links (w := w) (Q := fun w' => ∃ ts,
      (∀ t ∈ ts, t = .resend (Json.toString (doc.value gimmmfieldnames.sessionId))) ∧
      links w'.app = ((((links w.app).cancel conn).erase s.descriptor).accepted
        (Json.toString (doc.value gimmmfieldnames.sessionId)) conn).addTimers ts) Env.closed_all
    (fun hnone => by rw [entry] at hnone; cases hnone) (fun _ _ _ hnone => absurd hnone known) (fun conn' ts w' entry' _ hts hl _ => by
      rw [entry] at entry'
      cases entry'
      exact ⟨ts, hts, hl⟩)
  have hends := (hwp i.env trivial).mono (fun _ _ h => h.2) fun _ _ h => h.2
  rw [← show handleBALmsg s doc = _ from if_pos logon] at hends
  have hguarded := guarded_ends hends
  rw [← handle_balFrame socket (by rw [connected, unblocked]; rfl), ← he] at hguarded
  unfold survives at hlive
  unfold step
  cases hh : handle i.event (w, i.env) with
  | ok a r =>
    rw [hh] at hguarded
    obtain ⟨ts, hts, hl⟩ := hguarded
    exact ⟨ts, hts, hl ▸ destroyConns_tidied r.1.app⟩
  | error e r =>
    rw [hh] at hlive
    cases hlive

/-! ## References -/

/-- What is referenced is there, and will not be deleted. -/
structure Alive (l : Links) : Prop where
  socket : ∀ {c : SocketId}, l.Referenced c → ∃ s, l.socket c = some s ∧ s.wrapped = true
  undeleted : ∀ {c : SocketId}, l.Referenced c → .deleteSocket c ∉ l.timers

section
variable {i : Input} {b : Stores} {l l' : Links} {c : SocketId} {s : Socket}

/-- An event starts no deletion. -/
theorem Relink.deleting (h : Relink i b l l') (ht : .deleteSocket c ∈ l'.timers) : .deleteSocket c ∈ l.timers := by
  have hdisconnected : ∀ {l : Links} {sock : SocketId}, .deleteSocket c ∈ (l.disconnected sock).timers →
      .deleteSocket c ∈ l.timers := by
    intro l sock ht
    unfold Links.disconnected at ht
    split at ht
    · exact ht
    · split at ht
      · split at ht
        · exact ht
        · unfold Links.handleDisconnect at ht
          split at ht
          · exact List.mem_of_mem_filter ht
          · exact ht
      · exact ht
  cases h with
  | same => exact ht
  | opened =>
    rcases List.mem_append.1 ht with ht | ht
    · exact ht
    · cases List.mem_singleton.1 ht
  | rejected => exact List.mem_of_mem_filter ht
  | accepted he logon socket connected unblocked entry known resend =>
    rcases List.mem_append.1 ht with ht | ht
    · exact List.mem_of_mem_filter ht
    · cases resend _ ht
  | disconnected => exact hdisconnected ht
  | timedOut expires due rest socket => exact rest.subset ht
  | deleted expires due rest => exact rest.subset (hdisconnected ht)
  | waited he rest => exact rest.subset ht
  | established => exact ht
  | drained => exact ht
  | lost he reconnect =>
    rcases List.mem_append.1 ht with ht | ht
    · exact ht
    · cases reconnect _ ht

/-- A socket that is not deleted stays, with its `BALConn`. -/
theorem Relink.stays (h : Relink i b l l') (hs : l.socket c = some s) (hkept : .deleteSocket c ∉ l.timers) :
    ∃ s', l'.socket c = some s' ∧ s'.wrapped = s.wrapped := by
  have hset : ∀ {l : Links} (sock : SocketId) {f : Socket → Socket} {s : Socket}, l.socket c = some s →
      (∀ s, (f s).wrapped = s.wrapped) → ∃ s', (l.setSocket sock f).socket c = some s' ∧ s'.wrapped = s.wrapped := by
    intro l sock f s hs hf
    by_cases hc : c = sock
    · exact ⟨f s, (if_pos hc).trans (by rw [hs]; rfl), hf s⟩
    · exact ⟨s, (if_neg hc).trans hs, rfl⟩
  have hdisconnected : ∀ {l : Links} (sock : SocketId) {s : Socket}, l.socket c = some s →
      ∃ s', (l.disconnected sock).socket c = some s' ∧ s'.wrapped = s.wrapped := by
    intro l sock s hs
    unfold Links.disconnected
    split
    · exact ⟨s, hs, rfl⟩
    · split
      · split
        · exact hset sock hs fun _ => rfl
        · rw [Links.handleDisconnect_socket]
          exact hset sock hs fun _ => rfl
      · exact ⟨s, hs, rfl⟩
  cases h with
  | opened => exact ⟨s, by show (l.socket c).or _ = some s; rw [hs]; rfl, rfl⟩
  | @accepted sock doc s₁ conn ts =>
    exact hset (l := ((l.cancel conn).erase s₁.descriptor).setSession _ _) conn hs fun _ => rfl
  | disconnected => exact hdisconnected _ hs
  | @timedOut sock s₁ ts => exact hset (l := l.setTimers ts) sock hs fun _ => rfl
  | @deleted sock ts expires due rest =>
    have hc : c ≠ sock := fun h => hkept (h ▸ due)
    obtain ⟨s', hs', hw⟩ := hdisconnected (l := l.setTimers ts) sock hs
    exact ⟨s', (if_neg hc).trans hs', hw⟩
  | _ => exact ⟨s, hs, rfl⟩

namespace Alive

/-- What an event leaves, before unreferenced connections are destroyed. -/
theorem relink (h : Alive l) (hwired : Wired l) (hr : Relink i b l l') : Alive l' := by
  rcases hr.narrows with hn | ⟨d, he, nonneg, free, rfl⟩
  · refine ⟨fun {c} href => ?_, fun {c} href ht => h.undeleted (hn.referenced href) (hr.deleting ht)⟩
    obtain ⟨s, hs, hw⟩ := h.socket (hn.referenced href)
    obtain ⟨s', hs', hw'⟩ := hr.stays hs (h.undeleted (hn.referenced href))
    exact ⟨s', hs', hw'.trans hw⟩
  · have hold : ∀ {c : SocketId}, (l.opened d).Referenced c → l.Referenced c ∨ c = l.nextSocket := by
      rintro c (⟨k, hk⟩ | ⟨sid, state, hsid⟩ | ht)
      · rcases Option.or_eq_some_iff.1 hk with hk | ⟨-, hk⟩
        · exact Or.inl (Or.inl ⟨k, hk⟩)
        · split at hk
          · exact Or.inr (Option.some.inj hk).symm
          · cases hk
      · exact Or.inl (Or.inr (Or.inl ⟨sid, state, hsid⟩))
      · rcases List.mem_append.1 ht with ht | ht
        · exact Or.inl (Or.inr (Or.inr ht))
        · cases List.mem_singleton.1 ht
          exact Or.inr rfl
    refine ⟨fun {c} href => ?_, fun {c} href ht => ?_⟩
    · rcases hold href with href | rfl
      · obtain ⟨s, hs, hw⟩ := h.socket href
        exact ⟨s, by show (l.socket c).or _ = some s; rw [hs]; rfl, hw⟩
      · cases hs : l.socket l.nextSocket with
        | some s => exact absurd (hwired.fresh hs) (Nat.lt_irrefl _)
        | none => exact ⟨Socket.new d, by show (l.socket _).or _ = _; rw [hs, if_pos rfl]; rfl, rfl⟩
    · have ht := hr.deleting ht
      rcases hold href with href | rfl
      · exact h.undeleted href ht
      · exact absurd (hwired.deleting ht) (Nat.lt_irrefl _)

theorem tidied (h : Alive l) (ht : l.Tidied l') : Alive l' := by
  refine ⟨fun {c} href => ?_, fun {c} href hdel => ?_⟩
  · have href := (Links.Narrows.tidied ht).referenced href
    obtain ⟨s, hs, hw⟩ := h.socket href
    exact ⟨s, ht.kept href hs, hw⟩
  · have href := (Links.Narrows.tidied ht).referenced href
    rcases ht.timers.1 hdel with hdel | ⟨sock, s, he, hunref, -⟩
    · exact h.undeleted href hdel
    · cases he
      exact hunref href

theorem start (cfg : List SessionId) (env : Env) (db : Database) : Alive (links (.start cfg env db)) :=
  ⟨fun href => absurd ((Wired.start cfg env db).referenced href) (Nat.not_lt_zero _), fun _ ht => by cases ht⟩

theorem step {cfg : List SessionId} {w : World} (h : Alive (links w.app)) (hwired : Wired (links w.app)) (i : Input) :
    Alive (links (step cfg w i).app) := by
  obtain ⟨-, ⟨-, l, hrelink, htidied⟩ | ⟨-, env, db, happ⟩⟩ := step_links cfg w i
  · exact (h.relink hwired hrelink).tidied htidied
  · rw [happ]
    exact .start cfg env db

end Alive

end

end Gimmm

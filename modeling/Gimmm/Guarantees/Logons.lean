/-
The connections that are not logged on. Each has its entry in `__balSessionMapU` from its accept to its LOGON or its
timeout, and a LOGON binds the connection that sent it, as long as none of them disconnects before: the descriptor
under which its entry is filed is gone when the slot runs, and the entry stays for the next connection with it.
-/
import Gimmm.Flow.Wiring
import Gimmm.Guarantees.Bindings

namespace Gimmm

open Std Prog

/-- No disconnect is delivered of an open connection that has not logged on. -/
def SparesEntries (i : Input) (b : Stores) (l : Links) : Prop :=
  ∀ sock s d, Disconnects i b sock → l.socket sock = some s → s.connected = true → l.unauthenticated d ≠ some sock

/-- Entries are those of open connections that are bound to no session, and an authentication timer is that of an entry
or of a connection that timed out. -/
structure Enrolled (l : Links) : Prop where
  listed : ∀ {d : Int} {c : SocketId}, l.unauthenticated d = some c →
    ∃ s, l.socket c = some s ∧ s.connected = true ∧ s.signalsBlocked = false
  unbound : ∀ {d : Int} {c : SocketId} {sid : SessionId} {st : SessionState}, l.unauthenticated d = some c →
    l.session sid ≠ some (some c, st)
  timed : ∀ {c : SocketId}, .authentication c ∈ l.timers →
    (∃ d, l.unauthenticated d = some c) ∨ ∃ s, l.socket c = some s ∧ s.signalsBlocked = true

/-- The connection is open, its `BALConn` exists, it has not timed out, and it is bound to no session. -/
def Links.NotLoggedOn (l : Links) (c : SocketId) (d : Int) : Prop :=
  ∃ s, l.socket c = some s ∧ s.descriptor = d ∧ s.connected = true ∧ s.wrapped = true ∧ s.signalsBlocked = false ∧
    ∀ sid st, l.session sid ≠ some (some c, st)

section
variable {i : Input} {b : Stores} {l l' : Links}

namespace Enrolled

/-- An entry is under the descriptor of its socket. -/
theorem descriptor (h : Enrolled l) (hwired : Wired l) {d : Int} {c : SocketId} {s : Socket}
    (hd : l.unauthenticated d = some c) (hs : l.socket c = some s) : s.descriptor = d := by
  obtain ⟨s', hs', hopen, -⟩ := h.listed hd
  rw [hs] at hs'
  cases hs'
  exact hwired.entered hd hs hopen

/-- Entries and sockets stay; sessions keep their connections; timers go. -/
theorem same (h : Enrolled l) (hentry : l'.unauthenticated = l.unauthenticated) (hsocket : l'.socket = l.socket)
    (hconn : ∀ sid, (l'.session sid).map (·.1) = (l.session sid).map (·.1))
    (htimers : ∀ {c : SocketId}, .authentication c ∈ l'.timers → .authentication c ∈ l.timers) : Enrolled l' := by
  constructor
  · intro d c hd
    rw [hentry] at hd
    rw [hsocket]
    exact h.listed hd
  · intro d c sid st hd hsid
    rw [hentry] at hd
    have hbound := hconn sid
    rw [hsid] at hbound
    obtain ⟨⟨conn, st'⟩, hold, hp⟩ := Option.map_eq_some_iff.1 hbound.symm
    obtain rfl : conn = some c := hp
    exact h.unbound hd hold
  · intro c ht
    rw [hentry, hsocket]
    exact h.timed (htimers ht)

/-- The entry of the open socket `sock` goes with its timer, or the socket is blocked. -/
theorem erase (h : Enrolled l) (hwired : Wired l) {sock : SocketId} {s : Socket} (hs : l.socket sock = some s)
    (hentry : ∀ {d : Int} {c : SocketId}, l'.unauthenticated d = some c ↔ d ≠ s.descriptor ∧ l.unauthenticated d = some c)
    (hsocket : ∀ {c : SocketId} {s' : Socket}, c ≠ sock → l.socket c = some s' →  l'.socket c = some s')
    (hbound : ∀ {sid : SessionId} {c : SocketId} {st : SessionState}, c ≠ sock → l'.session sid = some (some c, st) →
      l.session sid = some (some c, st))
    (htimers : ∀ {c : SocketId}, .authentication c ∈ l'.timers → .authentication c ∈ l.timers ∧
      (c ≠ sock ∨ ∃ s', l'.socket c = some s' ∧ s'.signalsBlocked = true)) : Enrolled l' := by
  have hother : ∀ {d : Int} {c : SocketId}, l'.unauthenticated d = some c → c ≠ sock ∧ l.unauthenticated d = some c := by
    intro d c hd
    obtain ⟨hne, hd⟩ := hentry.1 hd
    refine ⟨?_, hd⟩
    rintro rfl
    exact hne (h.descriptor hwired hd hs).symm
  constructor
  · intro d c hd
    obtain ⟨hc, hd⟩ := hother hd
    obtain ⟨s', hs', hrest⟩ := h.listed hd
    exact ⟨s', hsocket hc hs', hrest⟩
  · intro d c sid st hd hsid
    obtain ⟨hc, hd⟩ := hother hd
    exact h.unbound hd (hbound hc hsid)
  · intro c ht
    obtain ⟨ht, hc | hblocked⟩ := htimers ht
    · rcases h.timed ht with ⟨d, hd⟩ | ⟨s', hs', hblocked⟩
      · refine Or.inl ⟨d, hentry.2 ⟨fun hds => hc ?_, hd⟩⟩
        obtain ⟨s', hs', hopen, -⟩ := h.listed hd
        exact hwired.distinct hs' hs hopen ((hwired.entered hd hs' hopen).trans hds)
      · exact Or.inr ⟨s', hsocket hc hs', hblocked⟩
    · exact Or.inr hblocked

theorem erase_iff {d : Int} (k : Int) (c : SocketId) :
    (l.erase d).unauthenticated k = some c ↔ k ≠ d ∧ l.unauthenticated k = some c := by
  show (if k = d then none else l.unauthenticated k) = some c ↔ _
  by_cases hk : k = d
  · rw [if_pos hk]
    exact iff_of_false (by simp) fun h => h.1 hk
  · rw [if_neg hk]
    exact ⟨fun h => ⟨hk, h⟩, fun h => h.2⟩

/-- The disconnect of a socket that has no entry. -/
theorem disconnected (h : Enrolled l) (hwired : Wired l) {sock : SocketId}
    (hspared : ∀ s d, l.socket sock = some s → s.connected = true → l.unauthenticated d ≠ some sock) :
    Enrolled (l.disconnected sock) := by
  have hclosed : ∀ {s : Socket}, l.socket sock = some s → s.connected = true →
      Enrolled (l.setSocket sock ({ · with descriptor := -1 })) := by
    intro s hs hopen
    refine ⟨fun {d c} hd => ?_, h.unbound, fun {c} ht => ?_⟩
    · obtain ⟨s', hs', hrest⟩ := h.listed hd
      refine ⟨s', (if_neg ?_).trans hs', hrest⟩
      rintro rfl
      exact hspared s d hs hopen hd
    · rcases h.timed ht with hd | ⟨s', hs', hblocked⟩
      · exact Or.inl hd
      · by_cases hc : c = sock
        · exact Or.inr ⟨{ s' with descriptor := -1 }, (if_pos hc).trans (by rw [hs']; rfl), hblocked⟩
        · exact Or.inr ⟨s', (if_neg hc).trans hs', hblocked⟩
  unfold Links.disconnected
  cases hs : l.socket sock with
  | none => exact h
  | some s =>
    dsimp only
    split
    · rename_i hopen
      split
      · exact hclosed hs hopen
      · have hnone : l.unauthenticated (-1) = none := by
          cases hentry : l.unauthenticated (-1) with
          | none => rfl
          | some c => exact absurd (hwired.entry hentry) (by decide)
        unfold Links.handleDisconnect
        rw [show (l.setSocket sock ({ · with descriptor := -1 })).unauthenticated (-1) = none from hnone]
        refine (hclosed hs hopen).same rfl rfl (fun sid => ?_) id
        show Option.map _ (if sid = s.sessionId then (l.session sid).map (fun p => (p.1, SessionState.unauthenticated)) else l.session sid) =
          (l.session sid).map _
        split
        · rw [Option.map_map]
          rfl
        · rfl
    · exact h

/-- A socket that is accepted gets its entry, since no other open socket has its descriptor. -/
theorem opened (h : Enrolled l) (hwired : Wired l) {d : Int} (nonneg : 0 ≤ d)
    (free : ∀ c s, l.socket c = some s → s.descriptor ≠ d) : Enrolled (l.opened d) := by
  -- an entry under `d` would be that of an open socket with the descriptor `d`
  have hvacant : l.unauthenticated d = none := by
    cases hentry : l.unauthenticated d with
    | none => rfl
    | some c =>
      obtain ⟨s, hs, hopen, -⟩ := h.listed hentry
      exact absurd (hwired.entered hentry hs hopen) (free c s hs)
  have hnew : l.socket l.nextSocket = none := by
    cases hs : l.socket l.nextSocket with
    | none => rfl
    | some s => exact absurd (hwired.fresh hs) (Nat.lt_irrefl _)
  have hstays : ∀ {c : SocketId} {s : Socket}, l.socket c = some s → (l.opened d).socket c = some s := by
    intro c s hs
    show (l.socket c).or _ = some s
    rw [hs]
    rfl
  have hentry : ∀ {k : Int} {c : SocketId}, (l.opened d).unauthenticated k = some c →
      l.unauthenticated k = some c ∨ k = d ∧ c = l.nextSocket := by
    intro k c hk
    rcases Option.or_eq_some_iff.1 hk with hk | ⟨-, hk⟩
    · exact Or.inl hk
    · split at hk
      · rename_i hkd
        exact Or.inr ⟨hkd, (Option.some.inj hk).symm⟩
      · cases hk
  constructor
  · intro k c hk
    rcases hentry hk with hk | ⟨-, rfl⟩
    · obtain ⟨s, hs, hrest⟩ := h.listed hk
      exact ⟨s, hstays hs, hrest⟩
    · refine ⟨Socket.new d, ?_, Links.connected_iff.2 (by show d ≠ -1; omega), rfl⟩
      show (l.socket _).or _ = _
      rw [hnew, if_pos rfl]
      rfl
  · intro k c sid st hk hsid
    rcases hentry hk with hk | ⟨-, rfl⟩
    · exact h.unbound hk hsid
    · exact absurd (hwired.referenced (Or.inr (Or.inl ⟨sid, st, hsid⟩))) (Nat.lt_irrefl _)
  · intro c ht
    rcases List.mem_append.1 ht with ht | ht
    · rcases h.timed ht with ⟨k, hk⟩ | ⟨s, hs, hblocked⟩
      · refine Or.inl ⟨k, ?_⟩
        show (l.unauthenticated k).or _ = some c
        rw [hk]
        rfl
      · exact Or.inr ⟨s, hstays hs, hblocked⟩
    · cases List.mem_singleton.1 ht
      refine Or.inl ⟨d, ?_⟩
      show (l.unauthenticated d).or _ = _
      rw [hvacant, if_pos rfl]
      rfl

/-- What an event leaves. -/
theorem relink (h : Enrolled l) (hwired : Wired l) (halive : Alive l) (hspared : SparesEntries i b l) (hr : Relink i b l l') :
    Enrolled l' := by
  -- the entry under the descriptor of a socket is its own
  have hsender : ∀ {sock conn : SocketId} {s : Socket}, l.socket sock = some s →
      l.unauthenticated s.descriptor = some conn → conn = sock := by
    intro sock conn s hs entry
    obtain ⟨s', hs', hopen, -⟩ := h.listed entry
    exact hwired.sender hs entry hs' hopen
  cases hr with
  | same => exact h
  | opened he nonneg free => exact h.opened hwired nonneg free
  | @rejected sock doc s conn he logon socket connected unblocked entry unknown =>
    obtain rfl := hsender socket entry
    refine h.erase hwired socket (fun {k c} => erase_iff k c) (fun _ hs => hs) (fun _ hsid => hsid) fun {c} ht => ?_
    obtain ⟨ht, hne⟩ := List.mem_filter.1 ht
    exact ⟨ht, Or.inl (of_decide_eq_true hne)⟩
  | @accepted sock doc s conn ts he logon socket connected unblocked entry known resend =>
    obtain rfl := hsender socket entry
    refine h.erase hwired socket (fun {k c} => erase_iff k c) (fun hc hs => (if_neg hc).trans hs) (fun {sid c st} hc hsid => ?_)
      fun {c} ht => ?_
    · have hsid : (if sid = Json.toString (doc.value gimmmfieldnames.sessionId) then
          (l.session sid).map (fun _ => (some conn, SessionState.authenticated)) else l.session sid) = some (some c, st) := hsid
      split at hsid
      · obtain ⟨_, -, hp⟩ := Option.map_eq_some_iff.1 hsid
        exact absurd (Option.some.inj (Prod.mk.inj hp).1).symm hc
      · exact hsid
    · rcases List.mem_append.1 ht with ht | ht
      · obtain ⟨ht, hne⟩ := List.mem_filter.1 ht
        exact ⟨ht, Or.inl (of_decide_eq_true hne)⟩
      · cases resend _ ht
  | @disconnected sock he => exact h.disconnected hwired fun s d => hspared sock s d (Or.inl he)
  | @timedOut sock s ts expires due rest socket =>
    refine h.erase hwired socket (fun {k c} => erase_iff k c) (fun hc hs => (if_neg hc).trans hs) (fun _ hsid => hsid)
      fun {c} ht => ⟨rest.subset ht, ?_⟩
    by_cases hc : c = sock
    · subst hc
      refine Or.inr ⟨{ s with signalsBlocked := true }, (if_pos rfl).trans ?_, rfl⟩
      show (l.socket c).map _ = _
      rw [socket]
      rfl
    · exact Or.inl hc
  | @deleted sock ts expires due rest =>
    have hrest : Enrolled (l.setTimers ts) := h.same rfl rfl (fun _ => rfl) fun ht => rest.subset ht
    have hclosed := hrest.disconnected (hwired.narrowed (.setTimers rest)) fun s d => hspared sock s d (Or.inr expires)
    have hnarrow : l.Narrows ((l.setTimers ts).disconnected sock) := (Links.Narrows.setTimers rest).trans (.disconnected sock)
    -- what is deleted is referred to by nothing
    have hgone : ∀ {c : SocketId}, ((l.setTimers ts).disconnected sock).Referenced c → c ≠ sock := by
      rintro c href rfl
      exact halive.undeleted (hnarrow.referenced href) due
    refine ⟨fun {d c} hd => ?_, hclosed.unbound, fun {c} ht => ?_⟩
    · obtain ⟨s, hs, hrest⟩ := hclosed.listed hd
      exact ⟨s, (if_neg (hgone (Or.inl ⟨d, hd⟩))).trans hs, hrest⟩
    · rcases hclosed.timed ht with hd | ⟨s, hs, hblocked⟩
      · exact Or.inl hd
      · exact Or.inr ⟨s, (if_neg (hgone (Or.inr (Or.inr ht)))).trans hs, hblocked⟩
  | waited he rest => exact h.same rfl rfl (fun _ => rfl) fun ht => rest.subset ht
  | established => exact h.same rfl rfl (fun _ => rfl) id
  | drained => exact h.same rfl rfl (fun _ => rfl) id
  | lost he reconnect =>
    refine h.same rfl rfl (fun _ => rfl) fun ht => ?_
    rcases List.mem_append.1 ht with ht | ht
    · exact ht
    · cases reconnect _ ht

theorem tidied (h : Enrolled l) (ht : l.Tidied l') : Enrolled l' := by
  have htimers : ∀ {c : SocketId}, .authentication c ∈ l'.timers → .authentication c ∈ l.timers := by
    intro c hc
    rcases ht.timers.1 hc with hc | ⟨sock, s, he, -⟩
    · exact hc
    · cases he
  refine ⟨fun {d c} hd => ?_, fun {d c sid st} hd hsid => ?_, fun {c} hc => ?_⟩
  · rw [ht.unauthenticated] at hd
    obtain ⟨s, hs, hrest⟩ := h.listed hd
    exact ⟨s, ht.kept (Or.inl ⟨d, hd⟩) hs, hrest⟩
  · rw [ht.unauthenticated] at hd
    rw [ht.session] at hsid
    exact h.unbound hd hsid
  · rw [ht.unauthenticated]
    refine (h.timed (htimers hc)).imp_right ?_
    rintro ⟨s, hs, hblocked⟩
    exact ⟨s, ht.kept (Or.inr (Or.inr (htimers hc))) hs, hblocked⟩

end Enrolled

/-- A `BALConn` that exists is referenced. -/
def Links.Tidy (l : Links) : Prop := ∀ {c : SocketId} {s : Socket}, l.socket c = some s → s.wrapped = true → l.Referenced c

theorem Links.Tidied.tidy (h : l.Tidied l') : l'.Tidy := by
  intro c s' hs' hw
  obtain ⟨s, hs, -⟩ := h.socket_eq hs'
  have href : l.Referenced c := by
    by_contra hunref
    rw [h.destroyed hunref hs] at hs'
    rw [← Option.some.inj hs'] at hw
    cases hw
  rcases href with ⟨d, hd⟩ | ⟨sid, st, hsid⟩ | ht
  · exact Or.inl ⟨d, h.unauthenticated ▸ hd⟩
  · exact Or.inr (Or.inl ⟨sid, st, h.session ▸ hsid⟩)
  · exact Or.inr (Or.inr (h.timers.2 (Or.inl ht)))

/-- The entries are those of the connections that have not logged on. -/
theorem Enrolled.exact (h : Enrolled l) (hwired : Wired l) (halive : Alive l) (htidy : l.Tidy) (d : Int) (c : SocketId) :
    l.unauthenticated d = some c ↔ l.NotLoggedOn c d := by
  constructor
  · intro hd
    obtain ⟨s, hs, hopen, hunblocked⟩ := h.listed hd
    obtain ⟨s', hs', hw⟩ := halive.socket (Or.inl ⟨d, hd⟩)
    rw [hs] at hs'
    cases hs'
    exact ⟨s, hs, hwired.entered hd hs hopen, hopen, hw, hunblocked, fun sid st => h.unbound hd⟩
  · rintro ⟨s, hs, rfl, hopen, hw, hunblocked, hunbound⟩
    have hentry : ∀ {k : Int}, l.unauthenticated k = some c → l.unauthenticated s.descriptor = some c := by
      intro k hk
      rw [hwired.entered hk hs hopen]
      exact hk
    rcases htidy hs hw with ⟨k, hk⟩ | ⟨sid, st, hsid⟩ | ht
    · exact hentry hk
    · exact absurd hsid (hunbound sid st)
    · rcases h.timed ht with ⟨k, hk⟩ | ⟨s', hs', hblocked⟩
      · exact hentry hk
      · rw [hs] at hs'
        cases hs'
        rw [hunblocked] at hblocked
        cases hblocked

end

/-! ## Runs -/

/-- What holds of the connections in a run in which no connection disconnects before it logs on. -/
structure Registered (l : Links) : Prop where
  wired : Wired l
  alive : Alive l
  enrolled : Enrolled l
  tidy : l.Tidy

namespace Registered

theorem start (cfg : List SessionId) (env : Env) (db : Database) : Registered (links (.start cfg env db)) := by
  have hunref : ∀ {c : SocketId}, ¬ (links (.start cfg env db)).Referenced c := fun href =>
    absurd ((Wired.start cfg env db).referenced href) (Nat.not_lt_zero _)
  refine ⟨.start cfg env db, .start cfg env db, ⟨fun hd => ?_, fun hd => ?_, fun ht => ?_⟩, fun {c s} hs => ?_⟩
  · exact (hunref (Or.inl ⟨_, hd⟩)).elim
  · exact (hunref (Or.inl ⟨_, hd⟩)).elim
  · exact (hunref (Or.inr (Or.inr ht))).elim
  · exact absurd ((Wired.start cfg env db).fresh hs) (Nat.not_lt_zero _)

theorem step {cfg : List SessionId} {w : World} {i : Input} (h : Registered (links w.app))
    (hspared : SparesEntries i (stores w.toServer) (links w.app)) : Registered (links (step cfg w i).app) := by
  obtain ⟨-, ⟨-, l, hrelink, htidied⟩ | ⟨-, env, db, happ⟩⟩ := step_links cfg w i
  · exact ⟨(h.wired.relink hrelink).narrowed (.tidied htidied), (h.alive.relink h.wired hrelink).tidied htidied,
      (h.enrolled.relink h.wired h.alive hspared hrelink).tidied htidied, htidied.tidy⟩
  · rw [happ]
    exact .start cfg env db

end Registered

/-- In every run in which no open connection disconnects before it logs on, `__balSessionMapU` has exactly the live
connections that have not logged on, under their descriptors, and an accepted LOGON binds the connection that sent it
and cancels its timer. -/
theorem logons_bind (cfg : List SessionId) (env : Env) (db : Database) (is : List Input)
    (hspared : Run.Along (step cfg) (fun w i => SparesEntries i (stores w.toServer) (links w.app)) (boot cfg env db) is) :
    (∀ is₁, is₁ <+: is → ∀ d c, (run cfg (boot cfg env db) is₁).app.balSessionMapU[d]? = some c ↔
      (links (run cfg (boot cfg env db) is₁).app).NotLoggedOn c d) ∧
    ∀ is₁ i is₂ w sock sid, is = is₁ ++ i :: is₂ → w = run cfg (boot cfg env db) is₁ → Accepts w i sock sid →
      survives w i = true → ((step cfg w i).app.balSessionMap[sid]?).map (·.balConn) = some (some sock) ∧
        .authentication sock ∉ (step cfg w i).app.timers := by
  have hregistered : ∀ is₁, Run.Along (step cfg) (fun w i => SparesEntries i (stores w.toServer) (links w.app))
      (boot cfg env db) is₁ → Registered (links (run cfg (boot cfg env db) is₁).app) := fun is₁ h =>
    Run.invariant (I := fun w : World => Registered (links w.app)) (fun _ _ hC hI => hI.step hC) is₁ h (.start cfg env db)
  constructor
  · rintro is₁ ⟨is₂, rfl⟩ d c
    have h := hregistered is₁ ((Run.along_append is₁).1 hspared).1
    exact h.enrolled.exact h.wired h.alive h.tidy d c
  · rintro is₁ i is₂ w sock sid rfl rfl ⟨doc, s, he, logon, rfl, hs, connected, unblocked, hentry, hknown⟩ hlive
    have h := hregistered is₁ ((Run.along_append is₁).1 hspared).1
    obtain ⟨conn, entry⟩ := Option.ne_none_iff_exists'.1 hentry
    obtain ⟨s', hs', hopen, -⟩ := h.enrolled.listed entry
    obtain rfl := h.wired.sender hs entry hs' hopen
    have known : (links (run cfg (boot cfg env db) is₁).app).session (Json.toString (doc.value gimmmfieldnames.sessionId)) ≠ none :=
      fun hnone => hknown (Option.map_eq_none_iff.1 hnone)
    obtain ⟨ts, hts, htidied⟩ := step_accepted cfg he logon hs connected unblocked entry known hlive
    constructor
    · obtain ⟨p, hp⟩ := Option.ne_none_iff_exists'.1 known
      have hsession := congrFun htidied.session (Json.toString (doc.value gimmmfieldnames.sessionId))
      have hbound := hsession.trans ((if_pos rfl).trans (congrArg (Option.map fun _ => (some conn, SessionState.authenticated)) hp))
      obtain ⟨sess, hsess, hpair⟩ := Option.map_eq_some_iff.1 hbound
      rw [hsess]
      exact congrArg some (Prod.mk.inj hpair).1
    · intro ht
      have ht : .authentication conn ∈ (links (step cfg (run cfg (boot cfg env db) is₁) i).app).timers :=
        List.mem_filter.2 ⟨ht, rfl⟩
      rcases htidied.timers.1 ht with ht | ⟨c, s₁, heq, -⟩
      · rcases List.mem_append.1 ht with ht | ht
        · exact of_decide_eq_true (List.mem_filter.1 ht).2 rfl
        · cases hts _ ht
      · cases heq

/-- A LOGON on the only connection. -/
theorem logons_bind_first :
    ((step ["bal"] (run ["bal"] (boot ["bal"] .quiet .empty) [.quiet (.newBALConnection 5)])
      (.quiet (.balFrame 0 (balLogon "bal")))).app.balSessionMap["bal"]?).map (·.balConn) = some (some 0) ∧
    .authentication 0 ∉ (step ["bal"] (run ["bal"] (boot ["bal"] .quiet .empty) [.quiet (.newBALConnection 5)])
      (.quiet (.balFrame 0 (balLogon "bal")))).app.timers := by
  refine (logons_bind ["bal"] .quiet .empty (loggedOn "bal") ⟨?_, ?_, trivial⟩).2 [.quiet (.newBALConnection 5)]
    (.quiet (.balFrame 0 (balLogon "bal"))) [] _ 0 "bal" rfl rfl ?_ (by decide +kernel)
  · rintro sock s d (he | ⟨k, he, -⟩) <;> cases he
  · rintro sock s d (he | ⟨k, he, -⟩) <;> cases he
  · exact .of_map rfl (by decide) (by decide)
      (by decide +kernel : ((run ["bal"] (boot ["bal"] .quiet .empty) [.quiet (.newBALConnection 5)]).app.sockets[(0 : SocketId)]?).map
        (fun s => (s.connected, s.signalsBlocked, s.descriptor)) = some (true, false, 5))
      (by decide +kernel) (by decide +kernel)

/-- A connection disconnects before it logs on, and the next one gets its descriptor and logs on. -/
def reusedDescriptor : List Input :=
  [.quiet (.newBALConnection 5), .quiet (.balDisconnected 0), .quiet (.newBALConnection 5)]

/-- The stale entry keeps the new connection out, and the LOGON of the new one binds the old one. -/
theorem logons_misbind :
    (run ["bal"] (boot ["bal"] .quiet .empty) reusedDescriptor).app.balSessionMapU[(5 : Int)]? = some 0 ∧
    (((run ["bal"] (boot ["bal"] .quiet .empty) reusedDescriptor).app.sockets[(0 : SocketId)]?).map (·.connected)) = some false ∧
    Accepts (run ["bal"] (boot ["bal"] .quiet .empty) reusedDescriptor) (.quiet (.balFrame 1 (balLogon "bal"))) 1 "bal" ∧
    survives (run ["bal"] (boot ["bal"] .quiet .empty) reusedDescriptor) (.quiet (.balFrame 1 (balLogon "bal"))) = true ∧
    ((step ["bal"] (run ["bal"] (boot ["bal"] .quiet .empty) reusedDescriptor)
      (.quiet (.balFrame 1 (balLogon "bal")))).app.balSessionMap["bal"]?).map (·.balConn) = some (some 0) := by
  refine ⟨by decide +kernel, by decide +kernel, ?_, by decide +kernel, by decide +kernel⟩
  exact .of_map rfl (by decide) (by decide)
    (by decide +kernel : ((run ["bal"] (boot ["bal"] .quiet .empty) reusedDescriptor).app.sockets[(1 : SocketId)]?).map
      (fun s => (s.connected, s.signalsBlocked, s.descriptor)) = some (true, false, 5))
    (by decide +kernel) (by decide +kernel)

end Gimmm

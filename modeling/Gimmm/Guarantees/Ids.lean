/-
A sequence id names one message for the whole life of the table, although an id that was drawn but
not saved when the process ended is drawn again. Ids are drawn above every saved one and only a
saved id is written to a BAL, so an id that comes back was never seen. What is written is the double
nearest to the id, so from 2 ^ 53 on two messages can have the same number in their envelopes.
-/
import Gimmm.Guarantees.Persist

namespace Gimmm

open Std

/-- The history of a table since `t`: `saved` are the rows inserted, in their order, each under a
sequence id above all that are in the table at that moment; nothing else but states changes. -/
inductive Grows (t : Int → Option Row) : List Row → (Int → Option Row) → Prop where
  | refl : Grows t [] t
  | insert {saved t'} (h : Grows t saved t') (row : Row)
      (above : ∀ (n : Int) (old : Row), t' n = some old → n < row.sequenceId) :
      Grows t (saved ++ [row]) (Function.update t' row.sequenceId (some row))
  | update {saved t'} (h : Grows t saved t') (n : Int) (s : MessageState) :
      Grows t saved (Function.update t' n ((t' n).map ({ · with state := s })))

/-- Sequence ids are positive, and a message for a session has its own in its envelope. -/
def NumberedRows (rows : Int → Option Row) : Prop :=
  ∀ (n : Int) (row : Row), rows n = some row → 0 < n ∧
    (row.type ≠ .downstream → row.payload.value gimmmfieldnames.sequenceId = some (.ofInt64 n))

/-- `o` writes to a BAL an envelope with the sequence id `x`, the payload of the message for a session whose row, under
`n`, is `row` at that moment. -/
structure Exposes (o : Obs) (x : Rat) (n : Int) (row : Row) : Prop where
  write : ∃ sid sock, o.what = .balWrite sid sock row.payload
  saved : o.server.db.rows[n]? = some row
  type : row.type ≠ .downstream
  number : row.payload.sequenceId = some x

/-- The rows `saved` since `db` have ids of their own, each above all that came before it; what is written to a BAL is
the logon response or the payload of a row that the table still has, an envelope with the sequence id of that row unless
the row is a failed downstream message or was in `db`; and the sequence id `x` of an envelope is that of one message
only, as long as `x` is below 2 ^ 53 or no sequence id of the table is above it. -/
structure NeverReused (db : Database) (saved : List Row) (w : World) : Prop where
  grows : Grows (db.rows[·]?) saved (w.db.rows[·]?)
  distinct : (saved.map (·.sequenceId)).Pairwise (· < ·)
  above : ∀ row ∈ saved, ∀ n : Int, db.rows[n]?.isSome → n < row.sequenceId
  written : ∀ o ∈ w.log, ∀ sid sock doc, o.what = .balWrite sid sock doc → doc = logonResponse sid ∨
    ∃ n row, o.server.db.rows[n]? = some row ∧ row.payload = doc ∧ Enveloped db n row ∧
      ∃ s, w.db.rows[n]? = some { row with state := s }
  number : NumberedRows (db.rows[·]?) → ∀ o ∈ w.log, ∀ x n row, Exposes o x n row → x = (Json.nearestDouble n : Int)
  single : NumberedRows (db.rows[·]?) → ∀ o ∈ w.log, ∀ o' ∈ w.log, ∀ x n row n' row', Exposes o x n row →
    Exposes o' x n' row' → (x < (2 ^ 53 : Int) ∨ ∀ k : Int, w.db.rows[k]?.isSome → k ≤ 2 ^ 53) →
    n = n' ∧ ∃ s, w.db.rows[n]? = some { row with state := s } ∧ row' = { row with state := row'.state }

/-! ## The history of a table -/

namespace Grows

variable {t t' : Int → Option Row} {saved : List Row}

/-- Every saved row is still there. -/
theorem stay (h : Grows t saved t') : ∀ row ∈ saved, (t' row.sequenceId).isSome := by
  induction h with
  | refl => intro row hr; cases hr
  | @insert saved t' h new above ih =>
    intro row hr
    by_cases hn : row.sequenceId = new.sequenceId
    · rw [hn, Function.update_self]; rfl
    · rw [Function.update_of_ne hn]
      rcases List.mem_append.1 hr with hr | hr
      · exact ih row hr
      · rw [List.mem_singleton.1 hr] at hn; exact absurd rfl hn
  | @update saved t' h n s ih =>
    intro row hr
    by_cases hn : row.sequenceId = n
    · subst hn; rw [Function.update_self, Option.isSome_map]; exact ih row hr
    · rw [Function.update_of_ne hn]; exact ih row hr

theorem first_stay (h : Grows t saved t') {n : Int} (hn : (t n).isSome) : (t' n).isSome := by
  induction h with
  | refl => exact hn
  | @insert saved t' h new above ih =>
    by_cases hk : n = new.sequenceId
    · rw [hk, Function.update_self]; rfl
    · rw [Function.update_of_ne hk]; exact ih
  | @update saved t' h k s ih =>
    by_cases hk : n = k
    · subst hk; rw [Function.update_self, Option.isSome_map]; exact ih
    · rw [Function.update_of_ne hk]; exact ih

/-- The ids grow. -/
theorem distinct (h : Grows t saved t') : (saved.map (·.sequenceId)).Pairwise (· < ·) := by
  induction h with
  | refl => exact List.Pairwise.nil
  | @insert saved t' h new above ih =>
    rw [List.map_append, List.pairwise_append]
    refine ⟨ih, List.pairwise_singleton .., fun a ha b hb => ?_⟩
    obtain ⟨row, hr, rfl⟩ := List.mem_map.1 ha
    obtain ⟨old, hold⟩ := Option.isSome_iff_exists.1 (h.stay row hr)
    rw [List.mem_singleton.1 hb]
    exact above _ old hold
  | update h n s ih => exact ih

theorem above_first (h : Grows t saved t') : ∀ row ∈ saved, ∀ n, (t n).isSome → n < row.sequenceId := by
  induction h with
  | refl => intro row hr; cases hr
  | @insert saved t' h new above ih =>
    intro row hr n hn
    rcases List.mem_append.1 hr with hr | hr
    · exact ih row hr n hn
    · obtain ⟨old, hold⟩ := Option.isSome_iff_exists.1 (h.first_stay hn)
      rw [List.mem_singleton.1 hr]; exact above n old hold
  | update h n s ih => exact ih

theorem trans {t'' : Int → Option Row} {saved' : List Row} (h : Grows t saved t') (h' : Grows t' saved' t'') :
    Grows t (saved ++ saved') t'' := by
  induction h' with
  | refl => rw [List.append_nil]; exact h
  | @insert saved' t'' h' new above ih => rw [← List.append_assoc]; exact ih.insert new above
  | update h' n s ih => exact ih.update n s

end Grows

/-! ## Sequence ids in envelopes -/

/-- The counter is not negative, and the rows are numbered. -/
structure Numbered (b : Books) : Prop where
  counter : 0 ≤ b.counter
  rows : NumberedRows b.rows

namespace Numbered

variable {cfg : List SessionId} {i : Input} {b₀ b b' : Books} {d d' : Debt}

theorem setState (h : Numbered b) (n : Int) (s : MessageState) : Numbered (b.setState n s) := by
  refine ⟨h.counter, fun k row hk => ?_⟩
  rw [Books.setState_rows] at hk
  split at hk
  · obtain ⟨row₀, hrow₀, rfl⟩ := Option.map_eq_some_iff.1 hk
    exact h.rows k row₀ hrow₀
  · exact h.rows k row hk

theorem insertRow (h : Numbered b) {msg : Message} (hseq : msg.sequenceId = b.counter + 1)
    (hpayload : msg.type ≠ .downstream → msg.payload.value gimmmfieldnames.sequenceId = some (.ofInt64 msg.sequenceId)) :
    Numbered (b.draw.insertRow (.ofMessage msg)) := by
  have hcounter := h.counter
  refine ⟨Int.le_trans hcounter (Int.le_of_lt (Int.lt_succ _)), fun k row hk => ?_⟩
  rw [Books.insertRow_rows] at hk
  split at hk
  · rename_i hkn
    cases hk
    have hkn : k = msg.sequenceId := hkn
    rw [hkn]
    exact ⟨by omega, hpayload⟩
  · exact h.rows k row hk

theorem act (h : Numbered b) (ha : Act i b₀ b d b' d') : Numbered b' := by
  have hsave : ∀ {msg : Message}, Envelope (b.counter + 1) msg → Numbered (b.draw.insertRow (.ofMessage msg)) :=
    fun he => h.insertRow he.sequenceId fun _ => by rw [he.sequenceId]; exact he.payload
  cases ha with
  | draw => exact ⟨Int.le_trans h.counter (Int.le_of_lt (Int.lt_succ _)), h.rows⟩
  | accept mid gid sid data hm source request id =>
    subst hm
    have hinsert : Numbered (b.draw.insertRow (.ofMessage
        (Message.new (b.counter + 1) .downstream mid gid sid fcmSessionId data))) :=
      h.insertRow rfl fun hne => absurd rfl hne
    exact ⟨hinsert.counter, hinsert.rows⟩
  | save envelope => exact hsave envelope
  | reject envelope => exact hsave envelope
  | mark => exact ⟨h.counter, (h.setState _ _).rows⟩
  | settle => exact ⟨h.counter, (h.setState _ _).rows⟩
  | exhaust => exact h.setState _ _
  | markBal => exact ⟨h.counter, (h.setState _ _).rows⟩
  | remark => exact ⟨h.counter, (h.setState _ _).rows⟩
  | settleBal => exact ⟨h.counter, (h.setState _ _).rows⟩
  | exhaustBal => exact h.setState _ _
  | _ => exact ⟨h.counter, h.rows⟩

/-- A process starts with the largest sequence id of the table, or with 0. -/
theorem restart (h : NumberedRows b.rows) {env : Env} (hr : Restarted cfg env b b') : Numbered b' := by
  obtain ⟨db, hdb, hcounter, -⟩ := hr.fresh
  refine ⟨?_, fun n row hn => h n row (by rw [← hr.rows]; exact hn)⟩
  rw [hcounter]
  unfold Database.maxSequenceId
  cases hk : db.rows.keys.getLast? with
  | none => exact Int.le_refl _
  | some k =>
    have hmem := ExtTreeMap.mem_keys.1 (List.mem_of_getLast? hk)
    obtain ⟨row, hrow⟩ := Option.isSome_iff_exists.1 (ExtTreeMap.isSome_getElem?_iff_mem.2 hmem)
    exact Int.le_of_lt (h k row (by rw [← hdb]; exact hrow)).1

theorem step {w : World} (hb : Base cfg (books w) .none) (h : Numbered (books w)) (i : Input) :
    Numbered (books (step cfg w i)) := by
  obtain ⟨b, hr, hend⟩ := step_reach hb i
  have hnumbered : Numbered b := hr.invariant (P := fun b _ => Numbered b) h fun hP ha => hP.act ha
  rcases hend with ⟨-, he⟩ | ⟨-, he⟩
  · rw [he]
    exact hnumbered
  · exact .restart hnumbered.rows he

theorem boot (cfg : List SessionId) (env : Env) {db : Database} (hdb : NumberedRows (db.rows[·]?)) :
    Numbered (books (boot cfg env db)) :=
  .restart (b := books (Gimmm.boot cfg env db)) hdb (start_restarted (w := Gimmm.boot cfg env db) rfl rfl rfl rfl rfl)

end Numbered

/-- The number in the envelope of a message for a session is the double nearest to its sequence id. -/
theorem NumberedRows.sequenceId {rows : Int → Option Row} (h : NumberedRows rows) {n : Int} {row : Row}
    (hn : rows n = some row) (htype : row.type ≠ .downstream) :
    row.payload.sequenceId = some ((Json.nearestDouble n : Int) : Rat) := by
  unfold Json.sequenceId
  rw [(h n row hn).2 htype]
  rfl

/-! ## Acts -/

/-- What was written to a BAL is persisted, and the rows that were seen are still there. -/
structure Unreused (db : Database) (b : Books) : Prop where
  persistent : Persistent db b
  seen : ∀ o ∈ b.log, RowsStay (stores o.server) b.toStores

section
variable {cfg : List SessionId} {db : Database} {i : Input} {b₀ b : Books} {d : Debt}

theorem Base.grows_insert (hb : Base cfg b d) {t : Int → Option Row} (h : ∃ saved, Grows t saved b.rows) {row : Row}
    (hn : row.sequenceId = b.counter + 1) : ∃ saved, Grows t saved (b.draw.insertRow row).rows := by
  obtain ⟨saved, h⟩ := h
  refine ⟨_, h.insert row fun n old hold => ?_⟩
  have := (hb.rows hold).2
  omega

theorem grows_setState {t : Int → Option Row} (h : ∃ saved, Grows t saved b.rows) (n : Int) (s : MessageState) :
    ∃ saved, Grows t saved (b.setState n s).rows := by
  obtain ⟨saved, h⟩ := h
  exact ⟨saved, h.update n s⟩

theorem Base.grows_act (hb : Base cfg b d) {t : Int → Option Row} (h : ∃ saved, Grows t saved b.rows) {b' : Books}
    {d' : Debt} (ha : Act i b₀ b d b' d') : ∃ saved, Grows t saved b'.rows := by
  cases ha with
  | accept mid gid sid data hm source request id => exact hb.grows_insert h (by rw [hm]; rfl)
  | save envelope => exact hb.grows_insert h envelope.sequenceId
  | reject envelope => exact hb.grows_insert h envelope.sequenceId
  | mark => exact grows_setState h _ _
  | settle => exact grows_setState h _ _
  | exhaust => exact grows_setState h _ _
  | markBal => exact grows_setState h _ _
  | remark => exact grows_setState h _ _
  | settleBal => exact grows_setState h _ _
  | exhaustBal => exact grows_setState h _ _
  | _ => exact h

/-- What an act observes, it observes of the books before it. -/
theorem Act.observes {b' : Books} {d' : Debt} (ha : Act i b₀ b d b' d') :
    b'.log = b.log ∨ ∃ o, b'.log = o :: b.log ∧ stores o.server = b.toStores := by
  cases ha with
  | upload cause what server => exact Or.inr ⟨_, rfl, server⟩
  | fcmAck data type what server counter => exact Or.inr ⟨_, rfl, server⟩
  | write cause what server => exact Or.inr ⟨_, rfl, server⟩
  | record server what => exact Or.inr ⟨_, rfl, server⟩
  | _ => exact Or.inl rfl

theorem Unreused.act (h₀ : Base cfg b₀ .none) (hrows : RowsStay b₀.toStores b.toStores) (hb : Base cfg b d)
    (h : Unreused db b) {b' : Books} {d' : Debt} (ha : Act i b₀ b d b' d') : Unreused db b' := by
  refine ⟨h.persistent.act h₀ hrows hb ha, fun o ho => ?_⟩
  have hstay : RowsStay b.toStores b'.toStores := ha.rowsStay hb
  rcases ha.observes with hlog | ⟨new, hlog, hserver⟩
  · rw [hlog] at ho; exact (h.seen o ho).trans hstay
  · rw [hlog] at ho
    rcases List.mem_cons.1 ho with rfl | ho
    · rw [hserver]; exact hstay
    · exact (h.seen o ho).trans hstay

/-! ## Steps and runs -/

variable {w : World}

theorem step_grows (h₀ : Base cfg (books w) .none) (i : Input) :
    ∃ saved, Grows (w.db.rows[·]?) saved ((step cfg w i).db.rows[·]?) := by
  obtain ⟨b, hr, hend⟩ := step_reach h₀ i
  have hb : ∃ saved, Grows (books w).rows saved b.rows :=
    hr.invariant_base (P := fun b _ => ∃ saved, Grows (books w).rows saved b.rows) h₀ ⟨[], .refl⟩
      fun hb _ _ hP ha => hb.grows_act hP ha
  rcases hend with ⟨-, he⟩ | ⟨-, he⟩
  · rw [← he] at hb; exact hb
  · rw [← he.rows] at hb; exact hb

theorem Unreused.step (h₀ : Base cfg (books w) .none) (h : Unreused db (books w)) (i : Input) :
    Unreused db (books (step cfg w i)) := by
  obtain ⟨b, hr, hend⟩ := step_reach h₀ i
  have hb : Unreused db b := hr.invariant_base (P := fun b _ => Unreused db b) h₀ h
    fun hb hrows _ hP ha => hP.act h₀ hrows hb ha
  rcases hend with ⟨-, he⟩ | ⟨-, he⟩
  · rw [he]; exact hb
  · exact ⟨h.persistent.step h₀ i, fun o ho => (hb.seen o (he.log ▸ ho)).trans he.rowsStay⟩

theorem run_grows (h₀ : Base cfg (books w) .none) (is : List Input) :
    ∃ saved, Grows (w.db.rows[·]?) saved ((run cfg w is).db.rows[·]?) := by
  induction is generalizing w with
  | nil => exact ⟨[], .refl⟩
  | cons i is ih =>
    obtain ⟨saved, h⟩ := step_grows h₀ i
    obtain ⟨saved', h'⟩ := ih (step_base h₀ i)
    exact ⟨saved ++ saved', h.trans h'⟩

theorem Unreused.neverReused (h : Unreused db (books w))
    (hN : NumberedRows (db.rows[·]?) → NumberedRows (w.db.rows[·]?)) {saved : List Row}
    (hg : Grows (db.rows[·]?) saved (w.db.rows[·]?)) : NeverReused db saved w := by
  have hkept : ∀ o ∈ w.log, ∀ {n : Int} {row : Row}, o.server.db.rows[n]? = some row →
      ∃ s, w.db.rows[n]? = some { row with state := s } := fun o ho _ _ hr => h.seen o ho _ _ hr
  have hnumber : NumberedRows (db.rows[·]?) → ∀ o ∈ w.log, ∀ x n row, Exposes o x n row → x = (Json.nearestDouble n : Int) := by
    intro hdb o ho x n row hx
    obtain ⟨s, hs⟩ := hkept o ho hx.saved
    have hvalue := (hN hdb).sequenceId hs hx.type
    exact Option.some.inj (hx.number.symm.trans hvalue)
  refine ⟨hg, hg.distinct, hg.above_first, fun o ho sid sock doc what => ?_, hnumber,
    fun hdb o ho o' ho' x n row n' row' hx hx' hsmall => ?_⟩
  · have hp : Persisted db o := h.persistent.log ho
    unfold Persisted at hp
    rw [what] at hp
    exact hp.imp_right fun ⟨n, row, hr, hdoc, _, henv⟩ => ⟨n, row, hr, hdoc, henv, hkept o ho hr⟩
  · obtain ⟨s, hs⟩ := hkept o ho hx.saved
    obtain ⟨s', hs'⟩ := hkept o' ho' hx'.saved
    have hsame := hnumber hdb o ho x n row hx
    have hsame' := hnumber hdb o' ho' x n' row' hx'
    have hone : n = n' := by
      refine Json.nearestDouble_inj (hN hdb n _ hs).1 (hN hdb n' _ hs').1 (Rat.intCast_inj.1 (hsame.symm.trans hsame')) ?_
      refine hsmall.imp (fun hlt => ?_) fun hle => ⟨hle n (by rw [hs]; rfl), hle n' (by rw [hs']; rfl)⟩
      rw [hsame] at hlt
      exact Rat.intCast_lt_intCast.1 hlt
    subst hone
    have hrow : { row with state := s } = { row' with state := s' } := Option.some.inj (hs.symm.trans hs')
    exact ⟨rfl, s, hs, congrArg (fun r : Row => { r with state := row'.state }) hrow.symm⟩

end

/-- In every run, whatever fails and however often the process ends, the ids of the messages saved are
distinct, each is above all that are saved before it, and an id that a BAL has seen names one message, if it is
below 2 ^ 53 or no id in the table is above 2 ^ 53. What is saved until any moment of the run comes before what is saved
after it. -/
theorem ids_never_reused (cfg : List SessionId) (env : Env) (db : Database) (is js : List Input) :
    ∃ saved saved', NeverReused db saved (run cfg (boot cfg env db) is) ∧
      NeverReused db (saved ++ saved') (run cfg (boot cfg env db) (is ++ js)) := by
  have hstart : Unreused db (books (boot cfg env db)) := by
    refine ⟨⟨fun {n row} hn => Or.inl ?_, fun ho => by cases ho⟩, fun o ho => by cases ho⟩
    have hn : db.rows[n]? = some row := hn
    rw [hn]; rfl
  have hkeep : ∀ w i, Base cfg (books w) .none → Unreused db (books w) → Unreused db (books (step cfg w i)) :=
    fun w i hb hP => hP.step hb i
  have hN : ∀ is, NumberedRows (db.rows[·]?) → NumberedRows ((run cfg (boot cfg env db) is).db.rows[·]?) := fun is hdb =>
    (run_invariant_all (P := Numbered) (fun _ i hb hP => hP.step hb i) is (boot_base cfg env db) (.boot cfg env hdb)).2.rows
  obtain ⟨hb, hi⟩ := run_invariant_all hkeep is (boot_base cfg env db) hstart
  obtain ⟨saved, hg⟩ := run_grows (boot_base cfg env db) is
  obtain ⟨saved', hg'⟩ := run_grows hb js
  have hrun : run cfg (boot cfg env db) (is ++ js) = run cfg (run cfg (boot cfg env db) is) js := Run.run_append ..
  refine ⟨saved, saved', hi.neverReused (hN is) hg, ?_⟩
  have hlater := (run_invariant_all hkeep js hb hi).2
  rw [← hrun] at hlater hg'
  exact hlater.neverReused (hN _) (hg.trans hg')

/-- The row of an upstream message with the id 2 ^ 53 - 1. -/
def lastOfDoubles : Row :=
  ⟨2 ^ 53 - 1, fcmSessionId, "bal", .upstream, "s", "", .delivered, gimmmMessage (2 ^ 53 - 1) "UPSTREAM" "bal" (.object []), by decide⟩

/-- A table that has only that row. -/
def fullOfDoubles : Database := (Database.empty.insert lastOfDoubles).getD .empty

/-- Two upstream messages for a BAL that is logged on. -/
def upstreamedTwice : List Input :=
  loggedOn "bal" ++ [.quiet (.fcmUpstream (fcmMessage "u" "bal")), .quiet (.fcmUpstream (fcmMessage "v" "bal"))]

theorem fullOfDoubles_numbered : NumberedRows (fullOfDoubles.rows[·]?) := by
  have hinsert : Database.empty.insert lastOfDoubles = some fullOfDoubles := rfl
  intro n row hn
  have hn : fullOfDoubles.rows[n]? = some row := hn
  rw [(Database.insert_some hinsert).2 n] at hn
  split at hn
  · rename_i hkey
    cases hn
    rw [hkey]
    exact ⟨by decide, fun _ => rfl⟩
  · have hn : (∅ : ExtTreeMap Int Row)[n]? = some row := hn
    rw [ExtTreeMap.getElem?_empty] at hn
    cases hn

/-- What the two messages write. -/
theorem upstreamedTwice_writes (k : Nat) (n : Int) (mid : FcmMessageId)
    (h : ((run ["bal"] (boot ["bal"] .quiet fullOfDoubles) upstreamedTwice).log[k]?).map
      (fun o => (o.what, (o.server.db.rows[n]?).map fun row => (row.type, row.payload))) =
      some (.balWrite "bal" 0 (gimmmMessage n "UPSTREAM" "bal" (fcmMessage mid "bal")),
        some (.upstream, gimmmMessage n "UPSTREAM" "bal" (fcmMessage mid "bal")))) :
    ∃ o ∈ (run ["bal"] (boot ["bal"] .quiet fullOfDoubles) upstreamedTwice).log, ∃ row,
      Exposes o (Json.nearestDouble n : Int) n row := by
  obtain ⟨o, ho, hobs⟩ := Option.map_eq_some_iff.1 h
  obtain ⟨hwhat, hrow⟩ := Prod.mk.inj hobs
  obtain ⟨row, hn, hsame⟩ := Option.map_eq_some_iff.1 hrow
  obtain ⟨htype, hpayload⟩ := Prod.mk.inj hsame
  refine ⟨o, List.mem_of_getElem? ho, row, ⟨"bal", 0, by rw [hpayload]; exact hwhat⟩, hn, by rw [htype]; decide, ?_⟩
  rw [hpayload]
  rfl

/-- Their envelopes have one sequence id. -/
theorem ids_shared : NumberedRows (fullOfDoubles.rows[·]?) ∧
    ¬ ∀ o ∈ (run ["bal"] (boot ["bal"] .quiet fullOfDoubles) upstreamedTwice).log,
      ∀ o' ∈ (run ["bal"] (boot ["bal"] .quiet fullOfDoubles) upstreamedTwice).log, ∀ x n row n' row',
      Exposes o x n row → Exposes o' x n' row' → n = n' := by
  refine ⟨fullOfDoubles_numbered, fun hsingle => ?_⟩
  obtain ⟨o, ho, row, hx⟩ := upstreamedTwice_writes 2 (2 ^ 53) "u" rfl
  obtain ⟨o', ho', row', hx'⟩ := upstreamedTwice_writes 0 (2 ^ 53 + 1) "v" rfl
  have hround : Json.nearestDouble (2 ^ 53 + 1) = Json.nearestDouble (2 ^ 53) := by decide +kernel
  rw [hround] at hx'
  exact absurd (hsingle o ho o' ho' _ _ row _ row' hx hx') (by decide)

end Gimmm

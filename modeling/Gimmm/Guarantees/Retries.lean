/-
When `getNextRetryTimeout` returns -1. The default and the copy constructor leave `__nRetry` and `__maxRetry` as they
find them in memory, and an assignment keeps those of the target; so a limit that nobody has set can end the retries, and
one that was set can be lost.
-/
import Gimmm.Guarantees.Backoffs
import Gimmm.Store.Database

namespace Gimmm

/-- What the retries of a message depend on. -/
def Message.retries (msg : Message) : ExponentialBackoff × Int × Int := (msg.exboff, msg.nRetry, msg.maxRetry)

/-- How a message came to exist, and the calls on it since then. `junk` is what `__nRetry` and `__maxRetry` find in
memory, where a constructor does not initialise them. -/
inductive MessageLife where
  | full (seqid : Int) (type : MessageType) (msgid : FcmMessageId) (gid : GroupId) (source target : SessionId) (payload : Json)
  | default (junk : Int × Int)
  | copied (rhs : MessageLife) (junk : Int × Int) (inProgress : Bool)
  | assigned (msg rhs : MessageLife)
  | setMaxRetry (msg : MessageLife) (maxRetry : Int)
  | getNextRetryTimeout (msg : MessageLife) (d : Draw)
  /-- Another setter. -/
  | set (msg : MessageLife) (f : Message → Message) (hf : ∀ m, (f m).retries = m.retries)

namespace MessageLife

def message : MessageLife → Message
  | full seqid type msgid gid source target payload => .new seqid type msgid gid source target payload
  | default junk => .blank junk
  | copied rhs junk inProgress => rhs.message.copy junk inProgress
  | assigned msg rhs => msg.message.assign rhs.message
  | setMaxRetry msg maxRetry => msg.message.setMaxRetry maxRetry
  | getNextRetryTimeout msg d => (msg.message.getNextRetryTimeout d).2
  | set msg f _ => f msg.message

/-- The number of calls of `getNextRetryTimeout` on the message since it exists. -/
def calls : MessageLife → Nat
  | full .. | default _ | copied .. => 0
  | assigned msg _ | setMaxRetry msg _ | set msg _ _ => msg.calls
  | getNextRetryTimeout msg _ => msg.calls + 1

/-- The limit that was set last on the message, or on the one it was copied from. -/
def limit : MessageLife → Option Int
  | full .. | default _ => none
  | copied rhs _ _ => rhs.limit
  | assigned msg rhs => rhs.limit.or msg.limit
  | setMaxRetry _ maxRetry => if maxRetry = -1 then none else some maxRetry
  | getNextRetryTimeout msg _ | set msg _ _ => msg.limit

/-- What `__nRetry` was when the message came to exist. -/
def start : MessageLife → Int
  | full .. => 0
  | default junk | copied _ junk _ => junk.1
  | assigned msg _ | setMaxRetry msg _ | getNextRetryTimeout msg _ | set msg _ _ => msg.start

/-- What `__maxRetry` was then, or was set to since. -/
def stored : MessageLife → Int
  | full .. => -1
  | default junk | copied _ junk _ => junk.2
  | setMaxRetry _ maxRetry => maxRetry
  | assigned msg _ | getNextRetryTimeout msg _ | set msg _ _ => msg.stored

/-- The next call finds the stored limit exceeded. -/
abbrev RunsOut (l : MessageLife) : Prop := l.stored ≠ -1 ∧ l.stored < l.start + l.calls + 1

/-- The number of delays that the message's backoff has computed; a copy takes it over. -/
def steps : MessageLife → Nat
  | full .. | default _ => 0
  | copied rhs _ _ | assigned _ rhs => rhs.steps
  | setMaxRetry msg _ | set msg _ _ => msg.steps
  | getNextRetryTimeout msg _ => if msg.RunsOut then msg.steps else msg.steps + 1

/-- The next call exceeds the limit that was set. -/
def Exceeds (l : MessageLife) : Prop := ∃ n, l.limit = some n ∧ n < l.calls + 1

/-- The next call is defined, and returns -1 exactly if it exceeds the limit that was set. -/
structure Lawful (l : MessageLife) (d : Draw) : Prop where
  defined : IsInt (l.message.nRetry + 1)
  ends : (l.message.getNextRetryTimeout d).1 = -1 ↔ l.Exceeds

/-- The next call counts to an int, and the stored limit, or a delay that overflows to -1, ends the retries exactly when the
limit that was set does. -/
structure Honest (l : MessageLife) (d : Draw) : Prop where
  counts : IsInt (l.start + l.calls + 1)
  agrees : (l.RunsOut ∨ 21 ≤ l.steps ∧ d.overflow = -1) ↔ l.Exceeds

/-! ## The fields over a life -/

/-- The fields of the message of a life. -/
structure Lived (l : MessageLife) : Prop where
  nRetry : l.message.nRetry = l.start + l.calls
  maxRetry : l.message.maxRetry = l.stored
  exboff : Unlimited l.steps l.message.exboff

section
variable {l : MessageLife}

theorem getNextRetryTimeout_eq (msg : Message) (d : Draw) : msg.getNextRetryTimeout d =
    if msg.maxRetry ≠ -1 ∧ msg.nRetry + 1 > msg.maxRetry then (-1, { msg with nRetry := msg.nRetry + 1 })
    else ((msg.exboff.next d).1, { msg with nRetry := msg.nRetry + 1, exboff := (msg.exboff.next d).2 }) := rfl

theorem Lived.runsOut_iff (h : Lived l) :
    (l.message.maxRetry ≠ -1 ∧ l.message.nRetry + 1 > l.message.maxRetry) ↔ l.RunsOut := by
  rw [h.maxRetry, h.nRetry]

theorem Lived.next (h : Lived l) (d : Draw) : Lived (getNextRetryTimeout l d) := by
  have hmessage : (getNextRetryTimeout l d).message = (l.message.getNextRetryTimeout d).2 := rfl
  have hcount : l.message.nRetry + 1 = l.start + (l.calls + 1 : Nat) := by
    rw [h.nRetry]
    omega
  rw [getNextRetryTimeout_eq] at hmessage
  by_cases hout : l.RunsOut
  · rw [if_pos (h.runsOut_iff.2 hout)] at hmessage
    have hsteps : (getNextRetryTimeout l d).steps = l.steps := if_pos hout
    refine ⟨?_, ?_, ?_⟩
    · rw [hmessage]
      exact hcount
    · rw [hmessage]
      exact h.maxRetry
    · rw [hmessage, hsteps]
      exact h.exboff
  · rw [if_neg fun hout' => hout (h.runsOut_iff.1 hout')] at hmessage
    have hsteps : (getNextRetryTimeout l d).steps = l.steps + 1 := if_neg hout
    refine ⟨?_, ?_, ?_⟩
    · rw [hmessage]
      exact hcount
    · rw [hmessage]
      exact h.maxRetry
    · rw [hmessage, hsteps]
      exact h.exboff.advance

/-- In every life the counter goes on from where it started, and the backoff never has a limit. -/
theorem lived : ∀ l : MessageLife, Lived l
  | full .. => ⟨rfl, rfl, unlimited_new⟩
  | default junk => ⟨(Int.add_zero _).symm, rfl, unlimited_new⟩
  | copied rhs junk inProgress => ⟨(Int.add_zero _).symm, rfl, (lived rhs).exboff⟩
  | assigned msg rhs => ⟨(lived msg).nRetry, (lived msg).maxRetry, (lived rhs).exboff⟩
  | setMaxRetry msg maxRetry => ⟨(lived msg).nRetry, rfl, (lived msg).exboff⟩
  | getNextRetryTimeout msg d => (lived msg).next d
  | set msg f hf => by
    have hsame : (f msg.message).retries = msg.message.retries := hf msg.message
    obtain ⟨hexboff, hrest⟩ := Prod.mk.inj hsame
    obtain ⟨hnRetry, hmaxRetry⟩ := Prod.mk.inj hrest
    refine ⟨hnRetry.trans (lived msg).nRetry, hmaxRetry.trans (lived msg).maxRetry, ?_⟩
    show Unlimited msg.steps (f msg.message).exboff
    rw [hexboff]
    exact (lived msg).exboff

/-! ## When a call returns -1 -/

theorem returns_iff (l : MessageLife) (d : Draw) :
    (l.message.getNextRetryTimeout d).1 = -1 ↔ l.RunsOut ∨ 21 ≤ l.steps ∧ d.overflow = -1 := by
  have h := lived l
  rw [getNextRetryTimeout_eq]
  by_cases hout : l.RunsOut
  · rw [if_pos (h.runsOut_iff.2 hout)]
    exact iff_of_true rfl (Or.inl hout)
  · rw [if_neg fun hout' => hout (h.runsOut_iff.1 hout')]
    exact (h.exboff.delay_eq_iff d).trans ⟨Or.inr, fun h => h.resolve_left hout⟩

/-- A row that is loaded lives like a message of the default constructor. -/
theorem loaded_life (row : Row) (junk : Int × Int) : ∃ l : MessageLife, l.message = row.toMessage junk ∧ l.calls = 0 ∧
    l.limit = none ∧ l.start = junk.1 ∧ l.stored = junk.2 :=
  ⟨set (default junk) (fun m => { m with
    sequenceId := row.sequenceId
    sourceSessionId := row.sourceSession
    targetSessionId := row.targetSession
    type := row.type
    fcmMessageId := row.fcmMessageId
    state := row.state
    payload := row.payload }) fun _ => rfl, rfl, rfl, rfl, rfl, rfl⟩

end

end MessageLife

open MessageLife

/-- However a message came to exist and whatever was called on it: its next call of `getNextRetryTimeout` returns -1 exactly
if it exceeds the limit that was set, if and only if the fields it found in memory, or has kept, say the same as this limit and
no delay overflows to -1. -/
theorem retries_lawful_iff (l : MessageLife) (d : Draw) : l.Lawful d ↔ l.Honest d := by
  have h := lived l
  have hcount : l.message.nRetry + 1 = l.start + l.calls + 1 := by rw [h.nRetry]
  constructor
  · intro hlaw
    exact ⟨hcount ▸ hlaw.defined, (returns_iff l d).symm.trans hlaw.ends⟩
  · intro hhonest
    exact ⟨hcount.symm ▸ hhonest.counts, (returns_iff l d).trans hhonest.agrees⟩

/-- A message that the default constructor made where memory held zeros: the first call returns -1, and no limit is set. -/
theorem retries_unlawful : ¬ (MessageLife.default (0, 0)).Lawful default ∧
    ((MessageLife.default (0, 0)).message.getNextRetryTimeout default).1 = -1 ∧ (MessageLife.default (0, 0)).limit = none := by
  refine ⟨fun hlaw => ?_, by decide, rfl⟩
  obtain ⟨n, hn, -⟩ := hlaw.ends.1 (by decide)
  cases hn

/-- The lives of messages that the constructor with all fields made and that are no copies. -/
inductive Original : MessageLife → Prop where
  | full {seqid type msgid gid source target payload} : Original (.full seqid type msgid gid source target payload)
  | setMaxRetry {l} (h : Original l) (maxRetry : Int) : Original (.setMaxRetry l maxRetry)
  | getNextRetryTimeout {l} (h : Original l) (d : Draw) : Original (.getNextRetryTimeout l d)
  | set {l} (h : Original l) (f : Message → Message) (hf : ∀ m, (f m).retries = m.retries) : Original (.set l f hf)

theorem Original.fields {l : MessageLife} (h : Original l) : l.start = 0 ∧ l.stored = l.limit.getD (-1) ∧ l.limit ≠ some (-1) := by
  induction h with
  | full => exact ⟨rfl, rfl, fun h => by cases h⟩
  | @setMaxRetry l h maxRetry ih =>
    refine ⟨ih.1, ?_, ?_⟩
    · show maxRetry = (if maxRetry = -1 then none else some maxRetry).getD (-1)
      split
      · assumption
      · rfl
    · show (if maxRetry = -1 then none else some maxRetry) ≠ some (-1)
      split
      · exact fun h => by cases h
      · rename_i hne
        exact fun h => hne (Option.some.inj h)
  | getNextRetryTimeout h d ih => exact ih
  | set h f hf ih => exact ih

/-- The first 21 calls on such a message are as the limit says. -/
theorem Original.lawful {l : MessageLife} (h : Original l) (hsteps : l.steps < 21) (hcalls : IsInt (l.calls + 1)) (d : Draw) :
    l.Lawful d := by
  obtain ⟨hstart, hstored, hlimit⟩ := h.fields
  refine (retries_lawful_iff l d).2 ⟨by rw [hstart, Int.zero_add]; exact hcalls, ?_⟩
  have hagree : l.RunsOut ↔ l.Exceeds := by
    unfold RunsOut Exceeds
    rw [hstart, hstored]
    cases hl : l.limit with
    | none => exact iff_of_false (fun h => h.1 rfl) fun ⟨n, hn, _⟩ => by cases hn
    | some n =>
      rw [hl] at hlimit
      constructor
      · rintro ⟨-, hlt⟩
        refine ⟨n, rfl, ?_⟩
        have hlt : n < 0 + (l.calls : Int) + 1 := hlt
        omega
      · rintro ⟨n', hn', hlt⟩
        cases hn'
        refine ⟨fun heq => hlimit (congrArg some heq), ?_⟩
        show n < 0 + (l.calls : Int) + 1
        omega
  rw [← hagree]
  exact ⟨fun h => h.resolve_right fun hlate => by omega, Or.inl⟩

end Gimmm

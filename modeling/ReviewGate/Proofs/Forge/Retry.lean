import ReviewGate.Forge.Retry
import ReviewGate.Proofs.Forge.Exchange

/-! What a session makes of a wire. A request goes out a few times at most, and only once if it may not be
sent again. What comes of it is what came of it the last time, but a session never passes on a reply with
which the forge says that it is out of order if the request may be sent again. -/
namespace ReviewGate.Forge

/-- Whether a network passes on no reply for whose status alone its request would be repeated. -/
def Network.IsSettled : Network → Prop
  | .down => True
  | .up answer next =>
    (∀ q r, (answer q).outcome = .reply r → Retry.applies q.method r.status = false) ∧
      ∀ q, IsSettled (next q)

theorem Network.IsSettled.answer {net : Network} (h : net.IsSettled) {q : Request} {r : Reply}
    (hreply : (net.answer q).outcome = .reply r) : Retry.applies q.method r.status = false := by
  cases net with
  | down => cases hreply
  | up answer next => exact h.1 q r hreply

theorem Network.IsSettled.next {net : Network} (h : net.IsSettled) (q : Request) :
    (net.next q).IsSettled := by
  cases net with
  | down => trivial
  | up answer next => exact h.2 q

/-- In all that is said on such a network there is no such reply. -/
theorem Network.IsSettled.exchange {net : Network} (h : net.IsSettled) {qs : List Request} {q : Request}
    {r : Reply} (hsaid : (q, .reply r) ∈ net.exchange qs) : Retry.applies q.method r.status = false := by
  induction qs generalizing net with
  | nil => cases hsaid
  | cons p qs ih =>
    rcases List.mem_cons.mp hsaid with hfirst | hmore
    · obtain ⟨rfl, houtcome⟩ := Prod.ext_iff.mp hfirst
      exact h.answer houtcome.symm
    · exact ih (h.next p) hmore

namespace Retry

variable {q : Request} {repeats : Nat}

/-- What is on the wire after a request has gone out a number of times. -/
def after (wire : Network) (q : Request) (times : Nat) : Network :=
  (List.replicate times q).foldl Network.next wire

/-- What comes of a request in a session: the request has gone out some times more than once, and either
what came of it the last time is passed on, or it has been repeated often enough. -/
inductive Ends (wire : Network) (q : Request) (repeats : Nat) : Answer × Network → Prop
  | passedOn (times : Nat) (elapsed : Int) (few : times ≤ repeats)
    (settled : ∀ r, ((after wire q times).answer q).outcome = .reply r →
      applies q.method r.status = false) :
    Ends wire q repeats
      (⟨((after wire q times).answer q).outcome, elapsed⟩, session (after wire q (times + 1)))
  | exhausted {r : Reply} (elapsed : Int) (reply : ((after wire q repeats).answer q).outcome = .reply r)
    (applied : applies q.method r.status = true) :
    Ends wire q repeats (⟨exhausted r.status, elapsed⟩, session (after wire q (repeats + 1)))

/-- After another answer to the request, the wire goes on with what comes after it. -/
theorem Ends.again {wire : Network} {before : Answer} {more : Answer × Network}
    (h : Ends (wire.next q) q repeats more) : Ends wire q (repeats + 1) (Retry.again before more) := by
  cases h with
  | passedOn times elapsed few settled =>
    exact .passedOn _ (before.elapsed + elapsed) (Nat.succ_le_succ few) settled
  | exhausted elapsed reply applied =>
    exact .exhausted (before.elapsed + elapsed) reply applied

/-- The induction is on the wire: a request that is repeated is followed on the rest of the wire, where it
may be repeated once less. -/
theorem onWire_ends (wire : Network) (repeats : Nat) (q : Request) :
    Ends wire q repeats ((onWire wire).2 repeats q) := by
  induction wire generalizing repeats with
  | down => exact .passedOn 0 0 (Nat.zero_le _) fun r h => nomatch h
  | up answer next ih =>
    have hpassed : (∀ r, (answer q).outcome = .reply r → applies q.method r.status = false) →
        Ends (.up answer next) q repeats (answer q, session (next q)) :=
      fun hsettled => .passedOn 0 _ (Nat.zero_le _) hsettled
    rw [onWire]
    dsimp only
    rcases houtcome : (answer q).outcome with r | description
    · have hreply : ∀ {r'}, (answer q).outcome = .reply r' → r = r' := fun h => by
        rw [houtcome] at h
        exact Outcome.reply.inj h
      cases repeats with
      | zero =>
        dsimp only
        split_ifs with happlies
        · exact .exhausted _ houtcome happlies
        · exact hpassed fun r' hr' => hreply hr' ▸ Bool.eq_false_iff.mpr happlies
      | succ repeats =>
        dsimp only
        split_ifs with hagain
        · exact (show Ends ((Network.up answer next).next q) q repeats _ from ih q repeats).again
        · rw [Bool.or_eq_true, not_or] at hagain
          exact hpassed fun r' hr' => hreply hr' ▸ Bool.eq_false_iff.mpr hagain.1
    · exact hpassed fun r' hr' => by
        rw [houtcome] at hr'
        cases hr'

/-- A request goes out at most so many times, and what comes of it is known. -/
theorem session_answer (wire : Network) (q : Request) :
    Ends wire q limit ((session wire).answer q, (session wire).next q) := by
  cases wire with
  | down => exact onWire_ends .down limit q
  | up answer next => exact onWire_ends (.up answer next) limit q

/-- A request that may not be sent again goes out once. -/
theorem session_once (wire : Network) (hmethod : mayRepeat q.method = false) :
    (session wire).answer q = wire.answer q ∧ (session wire).next q = session (wire.next q) := by
  cases wire with
  | down => exact ⟨rfl, rfl⟩
  | up answer next =>
    have happlies : ∀ status, applies q.method status = false := by
      intro status
      rw [applies, hmethod]
      rfl
    have hlater : ∀ r, isLater q r = false := by
      intro r
      rw [isLater, hmethod]
      rfl
    have hattempt : (onWire (.up answer next)).2 limit q = (answer q, session (next q)) := by
      rw [onWire]
      dsimp only [limit]
      rcases (answer q).outcome with r | description
      · dsimp only
        rw [happlies, hlater]
        rfl
      · rfl
    exact ⟨congrArg Prod.fst hattempt, congrArg Prod.snd hattempt⟩

theorem Ends.reply {wire : Network} {a : Answer × Network} (h : Ends wire q repeats a) {r : Reply}
    (hreply : a.1.outcome = .reply r) : applies q.method r.status = false := by
  cases h with
  | passedOn times elapsed few settled => exact settled r hreply
  | exhausted elapsed reply applied => cases hreply

/-- After a request a session is one on what is left of the wire after the request has gone out. -/
theorem Ends.exists_session {wire : Network} {a : Answer × Network} (h : Ends wire q repeats a) :
    ∃ times, a.2 = session (after (wire.next q) q times) := by
  cases h with
  | passedOn times elapsed few settled => exact ⟨times, rfl⟩
  | exhausted elapsed reply applied => exact ⟨repeats, rfl⟩

/-- The induction is on the wire, for all that may have been sent on it before: this is how the wire goes on
after the first request. -/
private theorem isSettled_after (wire : Network) (sent : List Request) :
    (session (sent.foldl Network.next wire)).IsSettled := by
  have hdown : ∀ sent : List Request, sent.foldl Network.next .down = .down := by
    intro sent
    induction sent with
    | nil => rfl
    | cons q sent ih => exact ih
  induction wire generalizing sent with
  | down =>
    rw [hdown]
    trivial
  | up answer next ih =>
    cases sent with
    | cons q sent => exact ih q sent
    | nil =>
      refine ⟨fun q r hreply => (onWire_ends (.up answer next) limit q).reply hreply, fun q => ?_⟩
      obtain ⟨times, hsession⟩ := (onWire_ends (.up answer next) limit q).exists_session
      have hrest : (session (after (next q) q times)).IsSettled := ih q (List.replicate times q)
      exact (congrArg Network.IsSettled hsession).mpr hrest

/-- Whatever is asked in a session, it passes on no reply for whose status alone its request would be
repeated. -/
theorem session_exchange (wire : Network) {qs : List Request} {r : Reply}
    (hsaid : (q, .reply r) ∈ (session wire).exchange qs) : applies q.method r.status = false :=
  (isSettled_after wire []).exchange hsaid

end Retry

end ReviewGate.Forge

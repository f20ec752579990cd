import ReviewGate.Proofs.Forge.Session

/-! What a limit on the rate of requests that a call has come to means for the calls after it. The client
only goes by its budget: it waits for the end of a limit if the budget says so, too. -/
namespace ReviewGate

/-- Whether the budget of a machine holds requests back, at least until a time. -/
structure Runner.HoldsUntil (s : Runner) (time : Int) : Prop where
  low : s.budget.remaining ≤ 10
  reset : time ≤ s.budget.reset

theorem Runner.HoldsUntil.wires {s t : Runner} {time : Int} (h : s.SameWires t)
    (hs : s.HoldsUntil time) : t.HoldsUntil time :=
  ⟨h.budget ▸ hs.low, h.budget ▸ hs.reset⟩

theorem Runner.HoldsUntil.wait {s : Runner} {time : Int} (hs : s.HoldsUntil time) (seconds : Int) :
    (s.wait seconds).HoldsUntil time :=
  ⟨hs.low, hs.reset⟩

namespace Forge

/-- Whether no request goes out until the clock, as the attempts find it, has come to a time. -/
def SilentUntil (time : Int) : List Attempt → Prop
  | [] => True
  | a :: more => time ≤ a.before.now ∨ ¬ a.before.Sends [a.request] a.after ∧ SilentUntil time more

variable {c : Client} {s t u : Runner} {time : Int} {as bs : List Attempt}

theorem SilentUntil.append (h : SilentUntil time as)
    (hmore : (∀ a ∈ as, a.before.now < time) → SilentUntil time bs) : SilentUntil time (as ++ bs) := by
  induction as with
  | nil => exact hmore (by simp)
  | cons a as ih =>
    rcases Int.lt_or_le a.before.now time with hearly | hlate
    · refine Or.inr ?_
      obtain hlate | ⟨hunsent, hrest⟩ := h
      · omega
      · exact ⟨hunsent, ih hrest fun hall => hmore (List.forall_mem_cons.mpr ⟨hearly, hall⟩)⟩
    · exact Or.inl hlate

theorem Attempt.IsMade.of_holdsUntil {a : Attempt} (h : a.IsMade) (ha : a.before.HoldsUntil time)
    (hearly : a.before.now < time) :
    ¬ a.before.Sends [a.request] a.after ∧ a.after.HoldsUntil time := by
  have hheld : a.IsHeld := ⟨ha.low, Int.lt_of_lt_of_le hearly ha.reset⟩
  exact ⟨fun hsent => h.sent_iff.mp hsent hheld, ha.wires (h.of_held hheld).2⟩

/-- One call: it sends nothing, and leaves the budget as it is, unless the clock comes to the time. -/
theorem Course.silentUntil {α : Type} {result : Except Fault α} (h : Course s as result t)
    (hs : s.HoldsUntil time) :
    SilentUntil time as ∧ ((∀ a ∈ as, a.before.now < time) → t.HoldsUntil time) := by
  induction h with
  | rest hwires _ => exact ⟨trivial, fun _ => hs.wires hwires⟩
  | failed a e hstart hmade _ hwires =>
    rcases Int.lt_or_le a.before.now time with hearly | hlate
    · obtain ⟨hunsent, hafter⟩ := hmade.of_holdsUntil (hs.wires hstart) hearly
      exact ⟨Or.inr ⟨hunsent, trivial⟩, fun _ => hafter.wires hwires⟩
    · refine ⟨Or.inl hlate, fun hall => ?_⟩
      exact absurd (hall a (by simp)) (by omega)
  | answered a r hstart hmade _ _ ih =>
    rcases Int.lt_or_le a.before.now time with hearly | hlate
    · obtain ⟨hunsent, hafter⟩ := hmade.of_holdsUntil (hs.wires hstart) hearly
      obtain ⟨hsilent, hend⟩ := ih hafter
      exact ⟨Or.inr ⟨hunsent, hsilent⟩, fun hall => hend fun b hb => hall b (List.mem_cons_of_mem a hb)⟩
    · refine ⟨Or.inl hlate, fun hall => ?_⟩
      exact absurd (hall a (by simp)) (by omega)

namespace Session

variable {plan : List (Int × Call)} {visits before later : List Visit} {v : Visit}

/-- All calls: by induction on the session, the budget being the invariant until the clock comes to the
time. -/
theorem silentUntil (h : Session c s plan visits t) (hs : s.HoldsUntil time) :
    SilentUntil time (visits.flatMap Visit.attempts) := by
  induction h with
  | ended s => trivial
  | call _ hcourse _ ih =>
    obtain ⟨hsilent, hend⟩ := hcourse.silentUntil (hs.wait _)
    exact hsilent.append fun hall => ih (hend hall)

/-- A session goes on from where each of its calls ends. -/
theorem after_visit (h : Session c s plan (before ++ v :: later) u) :
    ∃ start t rest, Course start v.attempts v.result t ∧ Session c t rest later u := by
  induction before generalizing s plan with
  | nil =>
    cases h with
    | call _ hcourse hmore => exact ⟨_, _, _, hcourse, hmore⟩
  | cons w before ih =>
    cases h with
    | call _ _ hmore => exact ih hmore

/-- A call that comes to a limit ends with the attempt that was held back, or with a refusal of the forge.
If the budget after it holds requests back until the end of the limit, which it always does after an
attempt that was held back, no later request goes out until the clock has come to that time. -/
theorem respects_limit (h : Session c s plan (before ++ v :: later) u)
    (hlimit : v.result = .error (.rateLimited time)) :
    ∃ earlier a, v.attempts = earlier ++ [a] ∧
      ((¬ a.before.Sends [a.request] a.after ∧ a.after.budget.remaining ≤ 10 ∧
          a.after.budget.reset = time) ∨
        (a.before.Sends [a.request] a.after ∧
          ∃ r, (a.before.network.answer a.request).outcome = .reply r ∧ r.status = 429 ∧
            time = if (r.header? resetHeader).isSome then a.after.budget.reset else a.after.now + 3600)) ∧
      (a.after.budget.remaining ≤ 10 → time ≤ a.after.budget.reset →
        SilentUntil time (later.flatMap Visit.attempts)) := by
  obtain ⟨start, t, rest, hcourse, hmore⟩ := after_visit h
  rw [hlimit] at hcourse
  obtain ⟨earlier, a, hattempts, hmade, hresult, hwires⟩ := hcourse.last_of_forge rfl
  refine ⟨earlier, a, hattempts, ?_, fun hlow hreset =>
    hmore.silentUntil (.wires hwires ⟨hlow, hreset⟩)⟩
  by_cases hheld : a.IsHeld
  · obtain ⟨hstored, hcalm⟩ := hmade.of_held hheld
    obtain rfl : time = a.before.budget.reset := by
      rw [hresult] at hstored
      cases hstored
      rfl
    exact Or.inl ⟨fun hsent => hmade.sent_iff.mp hsent hheld, hcalm.budget ▸ hheld.1,
      congrArg Budget.reset hcalm.budget⟩
  · have hfree : a.before.budget.isLow a.before.now = false :=
      Bool.eq_false_iff.mpr fun hlow => hheld (a.isLow_iff.mp hlow)
    obtain ⟨r, hreply, hstatus, htime⟩ := (send_high hfree hmade).2 time hresult
    exact Or.inr ⟨hmade.sent_iff.mpr hheld, r, hreply, hstatus, htime⟩

end Session

/-! ### Limits that are not waited for -/

/-- Whether a request has gone out before the end of a limit that an earlier call has come to. -/
def IgnoresLimit (visits : List Visit) : Prop :=
  ∃ before v later time, visits = before ++ v :: later ∧ v.result = .error (.rateLimited time) ∧
    ∃ a ∈ later.flatMap Visit.attempts, a.before.Sends [a.request] a.after ∧ a.before.now < time

def asking : Client := ⟨.str "t", "https://api.github.com", .int 30⟩

def listing : Call := .pullRequests ⟨"owner", "repo"⟩ "open" none

def listingRequest : Request :=
  { asking.requestFor ⟨"owner", "repo"⟩ "GET" .pulls with params := some (pullParameters "open" none) }

theorem listing_course (s : Runner) :
    Course s [.of listingRequest s] (listing.perform asking s).1 (listing.perform asking s).2 := by
  refine Course.andThen ((Course.send listingRequest s).andThen fun r t => ?_) fun _ t => ?_
  · rw [Job.ofExcept_run]
    exact .rest (.refl t) fun _ => (json_failsPlainly r).isForge
  · exact .rest (.refl t) fun _ h => nomatch h

/-- The machine after a listing that starts when the clock has moved. -/
def afterListing (s : Runner) (seconds : Int) : Runner :=
  (listing.perform asking (s.wait seconds)).2

/-- Listings one after the other, the clock moving before each of them. -/
def listings : Runner → List Int → List Visit
  | _, [] => []
  | s, seconds :: more =>
    ⟨listing, [.of listingRequest (s.wait seconds)], (listing.perform asking (s.wait seconds)).1⟩ ::
      listings (afterListing s seconds) more

theorem Session.of_listings (s : Runner) (waits : List Int) :
    Session asking s (waits.map (·, listing)) (listings s waits) (waits.foldl afterListing s) := by
  induction waits generalizing s with
  | nil => exact .ended s
  | cons seconds waits ih => exact .call rfl (listing_course _) (ih _)

/-- A budget that is low until after a minute. -/
def scarce : Runner :=
  { Runner.fresh 1700000000 with budget := ⟨3, 1700000060⟩ }

theorem Session.respects_limit_of_scarce :
    ∃ v w u, Session asking scarce [(0, listing), (59, listing)] [v, w] u ∧
      v.result = .error (.rateLimited 1700000060) ∧ SilentUntil 1700000060 w.attempts := by
  let v : Visit :=
    ⟨listing, [.of listingRequest (scarce.wait 0)], (listing.perform asking (scarce.wait 0)).1⟩
  have hlimit : v.result = .error (.rateLimited 1700000060) := rfl
  have hsession : Session asking scarce [(0, listing), (59, listing)]
      ([] ++ v :: listings (afterListing scarce 0) [59]) _ := of_listings scarce [0, 59]
  obtain ⟨earlier, a, hattempts, hends, hsilent⟩ := respects_limit hsession hlimit
  obtain ⟨-, rfl⟩ : [] = earlier ∧ Attempt.of listingRequest (scarce.wait 0) = a :=
    List.append_singleton_inj.mp hattempts
  refine ⟨_, _, _, of_listings scarce [0, 59], rfl, ?_⟩
  simpa [listings] using hsilent (by decide) (by decide)

/-- A forge that refuses a request, and does not say for how long. -/
def overrun : Runner :=
  { Runner.fresh 1700000000 with network := .script [.reply (.of 429 [] ""), .reply (.of 200 [] "[]")] }

/-- A forge whose budget is low for a minute. -/
def recovering : Runner :=
  { Runner.fresh 1700000000 with
    network := .script
      [.reply (.of 200 [(remainingHeader, "3"), (resetHeader, "1700000060")] "[]"),
        .reply (.of 200 [(remainingHeader, "5000")] "[]"), .reply (.of 200 [] "[]")] }

/-- A limit of which the budget does not know is not waited for, and neither is one that has ended, once
the clock is turned back. -/
theorem Session.ignores_limit :
    (∃ s visits u,
      Client.connect (.str "t") (.str "https://api.github.com") (.int 30) overrun = (.ok asking, s) ∧
        Session asking s [(0, listing), (0, listing)] visits u ∧ IgnoresLimit visits) ∧
    ∃ s visits u,
      Client.connect (.str "t") (.str "https://api.github.com") (.int 30) recovering = (.ok asking, s) ∧
        Session asking s [(0, listing), (0, listing), (60, listing), (-30, listing)] visits u ∧
        IgnoresLimit visits := by
  constructor
  · refine ⟨overrun, _, _, rfl, of_listings overrun [0, 0], [], _, _, 1700003600, rfl, rfl,
      .of listingRequest ((afterListing overrun 0).wait 0), by simp [listings], ?_, by decide⟩
    exact (Attempt.of_isMade _ _).sent_iff.mpr (by decide)
  · refine ⟨recovering, _, _, rfl, of_listings recovering [0, 0, 60, -30], [_], _, _, 1700000060, rfl, rfl,
      .of listingRequest (([0, 0, 60].foldl afterListing recovering).wait (-30)), by simp [listings],
      ?_, by decide⟩
    exact (Attempt.of_isMade _ _).sent_iff.mpr (by decide)

end Forge

end ReviewGate

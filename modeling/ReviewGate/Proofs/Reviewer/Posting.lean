import ReviewGate.Proofs.Artifacts.Read
import ReviewGate.Proofs.Posting.Scope
import ReviewGate.Reviewer.Stages

/-! The posting stage looks at everything before it sends anything, and what it sends stays in the
repository of the settings. -/
namespace ReviewGate

open Forge

namespace Forge.Client

/-- The address of a client has no slashes at its end. -/
theorem make_eq_ok {token address timeout : Value} {c : Client}
    (h : make token address timeout = .ok c) :
    token.isGiven = true ∧ ∃ text, address = .str text ∧ c.baseUrl = Text.dropTrailing '/' text := by
  unfold make at h
  rcases htoken : token.isGiven with _ | _
  · simp [htoken] at h
  · refine ⟨rfl, ?_⟩
    cases address with
    | str text =>
      simp only [htoken, Bool.not_true, Bool.false_eq_true, if_false, baseOf, Except.ok.injEq] at h
      exact ⟨text, rfl, h ▸ rfl⟩
    | _ => simp [htoken, baseOf] at h

end Forge.Client

theorem Poster.make_eq_ok {c : Client} {repository marker recreate : Value} {p : Poster}
    (h : make c repository marker recreate = .ok p) :
    p.client = c ∧ p.marker = marker ∧ Repository.ofValue repository = .ok p.repository := by
  unfold make at h
  rcases hrepository : Repository.ofValue repository with e | place
  · rw [hrepository] at h
    cases h
  · rw [hrepository] at h
    cases h
    exact ⟨rfl, rfl, rfl⟩

namespace Reviewer

variable {r : Reviewer} {client : Option Client} {run given : Option Int} {details : Option String}
  {s t : Runner} {result : Except Fault Posting}

/-- Whether requests start with an address: that of the given client or that of the settings, in both
cases without the slashes at its end. -/
structure StartsAt (r : Reviewer) (client : Option Client) (base : String) : Prop where
  given : ∀ c, client = some c → base = c.baseUrl
  made : ∀ c token address timeout, client = some c → Client.make token address timeout = .ok c →
    ∃ text, address = .str text ∧ base = Text.dropTrailing '/' text
  settings : client = none →
    ∃ text, r.settings.forge.baseUrl = .str text ∧ base = Text.dropTrailing '/' text

/-- Whether the posting stage may post: there are a repository and a client or a token for one, and a
review is stored whose verdict is one of the two. -/
structure MayPost (r : Reviewer) (client : Option Client) (s : Runner) : Prop where
  repository : r.settings.forge.repository.isGiven = true
  access : client = none → r.settings.forge.token.isGiven = true
  stored : ∃ review u, Artifacts.read r.store s = (.ok review, u) ∧
    (Text.strip review.reviewType = "APPROVE" ∨ Text.strip review.reviewType = "REQUEST_CHANGES")

/-- Whether a look-up for a workflow run finds the number of a pull request. -/
def Finds (r : Reviewer) (base : String) (run : Option Int) (s : Runner) (pull : Value) : Prop :=
  ∃ (id : Int) (c : Client) (repository : Repository) (v w : Runner), run = some id ∧ c.baseUrl = base ∧
    Repository.ofValue r.settings.forge.repository = .ok repository ∧ v.network = s.network ∧
    v.requests = s.requests ∧ c.findPullRequest repository (.int id) v = (.ok pull, w)

/-- Whether a value is the number of the pull request of a posting: the given one unless it is zero, or
the stored one, which is positive, or one that has been found. -/
inductive IsNumber (given stored : Option Int) (IsFound : Value → Prop) : Value → Prop
  | given (n : Int) (number : given = some n) (nonzero : n ≠ 0) : IsNumber given stored IsFound (.int n)
  | stored (n : Int) (ungiven : given = none ∨ given = some 0) (number : stored = some n)
    (positive : 0 < n) : IsNumber given stored IsFound (.int n)
  | found (pull : Value) (ungiven : given = none ∨ given = some 0) (unstored : stored = none)
    (number : IsFound pull) : IsNumber given stored IsFound pull

/-! ### Before anything is sent -/

theorem readStored_keeps {R : Runner → Runner → Prop} (hR : Runner.IsCalm R) (r : Reviewer) :
    r.readStored.Keeps R := by
  refine .bind hR (.catching ((Artifacts.read_effects r.store).keeps_of_quiet hR) _) fun review => ?_
  cases review with
  | ok review => exact .pure hR _
  | error e => exact .bind hR (hR.log _ _ _) fun _ => .throw hR _

theorem readStored_eq_ok {review : StoredReview} {u : Runner} (h : r.readStored s = (.ok review, u)) :
    Artifacts.read r.store s = (.ok review, u) := by
  rw [readStored, Action.bind_eq_ok] at h
  obtain ⟨e | stored, v, hcatch, h⟩ := h
  · obtain ⟨w, -, -, hthrow⟩ := Job.log_bind h
    cases hthrow
  · cases h
    exact Job.catching_eq_ok hcatch

/-- Getting a client sends nothing. -/
theorem clientFor_sends (r : Reviewer) (client : Option Client) :
    (r.clientFor client).Keeps (Runner.Sends []) := by
  have hR := Runner.Sends.isCalm
  have hconnect : (Client.connect r.settings.forge.token r.settings.forge.baseUrl
      r.settings.forge.timeout).Keeps (Runner.Sends []) :=
    .bind hR (.ofExcept hR _) fun _ => .bind hR (fun s => ⟨(List.append_nil _).symm, rfl⟩)
      fun _ => .pure hR _
  cases client with
  | some c => exact .pure hR _
  | none => exact .ite (.bind hR (.throw hR _) fun _ => hconnect) hconnect

/-- Whether a posting gets as far as the poster, with nothing sent. -/
structure Reaches (r : Reviewer) (client : Option Client) (s : Runner) (review : StoredReview)
    (p : Poster) (v : Runner) : Prop where
  repository : r.settings.forge.repository.isGiven = true
  stored : ∃ u, Artifacts.read r.store s = (.ok review, u)
  client : ∃ u, r.clientFor client u = (.ok p.client, v)
  made : Poster.make p.client r.settings.forge.repository r.settings.artifacts.marker
    r.settings.artifacts.recreate = .ok p
  quiet : s.Sends [] v

/-- A posting reaches the poster, or ends with nothing sent. -/
theorem runPosting_ends (h : r.runPosting client run given details s = (result, t)) :
    (s.Sends [] t ∧ ∃ e, result = .error e) ∨
      ∃ review p v, r.Reaches client s review p v ∧ p.post review run given details v = (result, t) := by
  unfold runPosting at h
  rcases hrepository : r.settings.forge.repository.isGiven with _ | _
  · simp only [hrepository, Bool.not_false, if_true] at h
    cases h
    exact Or.inl ⟨(Runner.SameWires.refl s).sends, _, rfl⟩
  · simp only [hrepository, Bool.not_true, Bool.false_eq_true, if_false] at h
    rw [Action.bind_run] at h
    rcases hread : r.readStored s with ⟨e | review, u⟩
    all_goals
      have hu := ((readStored_keeps Runner.SameWires.isCalm r).of_run hread).sends
      rw [hread] at h
    · cases h
      exact Or.inl ⟨hu, e, rfl⟩
    · dsimp only at h
      rw [Action.bind_run] at h
      rcases hclient : r.clientFor client u with ⟨e | c, v⟩
      all_goals
        have hv := hu.trans ((r.clientFor_sends client).of_run hclient)
        rw [hclient] at h
      · cases h
        exact Or.inl ⟨hv, e, rfl⟩
      · dsimp only at h
        rw [Action.bind_run, Job.ofExcept_run] at h
        rcases hmake : Poster.make c r.settings.forge.repository r.settings.artifacts.marker
          r.settings.artifacts.recreate with e | p
        · rw [hmake] at h
          cases h
          exact Or.inl ⟨hv, e, rfl⟩
        · rw [hmake] at h
          obtain ⟨rfl, -, -⟩ := Poster.make_eq_ok hmake
          have hreaches : r.Reaches client s review p v :=
            ⟨hrepository, ⟨u, readStored_eq_ok hread⟩, ⟨u, hclient⟩, hmake, hv⟩
          exact Or.inr ⟨review, p, v, hreaches, h⟩

/-- The client is the given one, or one with the settings, which have a token. -/
theorem clientFor_eq_ok {c : Client} (h : r.clientFor client s = (.ok c, t)) :
    client = some c ∨ (client = none ∧ Client.make r.settings.forge.token r.settings.forge.baseUrl
      r.settings.forge.timeout = .ok c) := by
  cases client with
  | some c' =>
    cases h
    exact Or.inl rfl
  | none =>
    refine Or.inr ⟨rfl, ?_⟩
    unfold clientFor at h
    dsimp only at h
    rcases htoken : r.settings.forge.token.isGiven with _ | _
    · simp only [htoken, Bool.not_false, if_true] at h
      cases h
    · simp only [htoken, Bool.not_true, Bool.false_eq_true, if_false] at h
      rw [Client.connect, Action.bind_eq_ok] at h
      obtain ⟨made, u, hrun, h⟩ := h
      rw [Job.ofExcept_run] at hrun
      obtain ⟨hmake, rfl⟩ := Action.outcome_eq.mp hrun
      rw [Action.bind_run_ok (Action.modify_run _ _)] at h
      cases h
      exact hmake

variable {review : StoredReview} {p : Poster} {v : Runner}

theorem Reaches.startsAt (h : r.Reaches client s review p v) : r.StartsAt client p.client.baseUrl := by
  obtain ⟨u, hclient⟩ := h.client
  rcases clientFor_eq_ok hclient with hgiven | ⟨hnone, hmake⟩
  · refine ⟨fun c hc => ?_, fun c token address timeout hc hmake => ?_, fun hnone => ?_⟩
    · rw [Option.some.inj (hgiven.symm.trans hc)]
    · rw [Option.some.inj (hgiven.symm.trans hc)]
      exact (Client.make_eq_ok hmake).2
    · exact absurd (hgiven.symm.trans hnone) (by simp)
  · refine ⟨fun c hc => ?_, fun c token address timeout hc _ => ?_, fun _ => (Client.make_eq_ok hmake).2⟩
    all_goals exact absurd (hnone.symm.trans hc) (by simp)

theorem Reaches.mayPost (h : r.Reaches client s review p v) {verdict : Verdict}
    (hverdict : Verdict.ofText? review.reviewType = some verdict) : r.MayPost client s where
  repository := h.repository
  access hnone := by
    obtain ⟨u, hclient⟩ := h.client
    rcases clientFor_eq_ok hclient with hgiven | ⟨-, hmake⟩
    · exact absurd (hgiven.symm.trans hnone) (by simp)
    · exact (Client.make_eq_ok hmake).1
  stored := by
    obtain ⟨u, hread⟩ := h.stored
    refine ⟨review, u, hread, ?_⟩
    unfold Verdict.ofText? at hverdict
    dsimp only at hverdict
    split_ifs at hverdict with happrove hchanges
    · exact Or.inl happrove
    · exact Or.inr hchanges

theorem resolve_eq_ok {pull : Value} (h : p.resolve run s = (.ok pull, t)) :
    ∃ id, run = some id ∧ p.client.findPullRequest p.repository (.int id) s = (.ok pull, t) := by
  cases run with
  | none => cases h
  | some id =>
    refine ⟨id, rfl, ?_⟩
    rw [Poster.resolve, Action.bind_eq_ok] at h
    obtain ⟨e | number, u, hcatch, h⟩ := h
    · obtain ⟨w, -, -, hthrow⟩ := Job.log_bind h
      cases hthrow
    · cases h
      exact Job.catching_eq_ok hcatch

/-- The number that a review is posted on is the given one, the stored one or one that is found. -/
theorem Reaches.isNumber (h : r.Reaches client s review p v) {pull : Value}
    (htarget : p.IsTarget review run given v pull) :
    IsNumber given review.pullRequest (r.Finds p.client.baseUrl run s) pull := by
  have hcases : (∃ n, given = some n ∧ n ≠ 0 ∧ Poster.knownNumber given review.pullRequest = some n) ∨
      ((given = none ∨ given = some 0) ∧
        Poster.knownNumber given review.pullRequest = review.pullRequest) := by
    rcases given with _ | n
    · exact Or.inr ⟨Or.inl rfl, rfl⟩
    · by_cases hn : n = 0
      · exact Or.inr ⟨Or.inr (by rw [hn]), by simp [Poster.knownNumber, hn]⟩
      · exact Or.inl ⟨n, rfl, hn, by simp [Poster.knownNumber, hn]⟩
  rcases htarget with ⟨n, hknown, rfl⟩ | ⟨hunknown, u, hresolve⟩
  · rcases hcases with ⟨k, hgiven, hk, hknown'⟩ | ⟨hungiven, hknown'⟩
    · obtain rfl : k = n := Option.some.inj (hknown'.symm.trans hknown)
      exact .given k hgiven hk
    · have hstored := hknown'.symm.trans hknown
      obtain ⟨u, hread⟩ := h.stored
      exact .stored n hungiven hstored (Artifacts.read_number_pos hread hstored)
  · rcases hcases with ⟨k, -, -, hknown'⟩ | ⟨hungiven, hknown'⟩
    · exact absurd (hknown'.symm.trans hunknown) (by simp)
    · obtain ⟨id, hid, hfind⟩ := resolve_eq_ok hresolve
      have hrepository := (Poster.make_eq_ok h.made).2.2
      refine .found pull hungiven (hknown'.symm.trans hunknown) ?_
      exact ⟨id, p.client, p.repository, v, u, hid, rfl, hrepository, h.quiet.network,
        by simpa using h.quiet.requests, hfind⟩

/-- Nothing is sent unless there are a repository, a client or a token, and a stored review with one of
the two verdicts. All that is sent goes to the repository of the settings, about the workflow run and
the pull request of the posting, and every review that is sent is a proper one. -/
theorem runPosting_in_scope (h : r.runPosting client run given details s = (result, t)) :
    ∃ sent, t.requests = s.requests ++ sent ∧ (¬ r.MayPost client s → sent = []) ∧
      ∀ q ∈ sent, ∃ base repository review u, r.StartsAt client base ∧
        r.settings.forge.repository = .str repository ∧ Artifacts.read r.store s = (.ok review, u) ∧
        q.InScope (base ++ ("/repos/" ++ repository)) run
          (IsNumber given review.pullRequest (r.Finds base run s)) := by
  rcases runPosting_ends h with ⟨hnone, -⟩ | ⟨review, p, v, hreaches, hpost⟩
  · exact ⟨[], hnone.requests, fun _ => rfl, by simp⟩
  · rcases hverdict : Verdict.ofText? review.reviewType with _ | verdict
    · have hwires := (Poster.post_without_verdict hverdict hpost).1
      exact ⟨[], (hreaches.quiet.before hwires).requests, fun _ => rfl, by simp⟩
    · obtain ⟨sent, hsent, hall⟩ := (Poster.post_ends hverdict hpost).asks
      refine ⟨sent, (hreaches.quiet.trans hsent).requests,
        fun hmay => absurd (hreaches.mayPost hverdict) hmay, fun q hq => ?_⟩
      obtain ⟨text, htext, hpath⟩ := Repository.ofValue_eq_ok (Poster.make_eq_ok hreaches.made).2.2
      obtain ⟨u, hread⟩ := hreaches.stored
      refine ⟨p.client.baseUrl, text, review, u, hreaches.startsAt, htext, hread, ?_⟩
      rw [← hpath]
      exact ((hall q hq).mono fun pull htarget => hreaches.isNumber htarget).inScope

/-- A reviewer whose forge has slashes at the end of its address. -/
def privileged : Reviewer where
  settings :=
    { Settings.default with
      forge :=
        { Settings.default.forge with
          token := .str "t"
          repository := .str "owner/repo"
          baseUrl := .str "https://forge//" } }
  window := some 30
  store := .ofText "reviews"

/-- A machine with a review that does not say what it is of, and a forge that knows the pull request. -/
def unnumbered : Runner :=
  { Runner.fresh 0 with
    workspace :=
      ⟨[(["reviews"], .directory),
        (["reviews", "review_type.txt"], .file (Text.Utf8.encode " APPROVE\n")),
        (["reviews", "review_body.txt"], .file (Text.Utf8.encode "Fine.\n"))]⟩
    network := .script
      [.reply (.of 200 [] "\x7b\"head_branch\": \"topic\", \"head_sha\": \"c0\"\x7d"),
        .reply (.of 200 [] "[\x7b\"number\": 7\x7d]"), .reply (.of 200 [] "\x7b\x7d")] }

theorem runPosting_in_scope_unnumbered :
    ∃ sent, (privileged.runPosting none (some 5) (some 0) none unnumbered).2.requests = sent ∧
      sent.map (fun q => (q.method, q.url)) =
        [("GET", "https://forge/repos/owner/repo/actions/runs/5"),
          ("GET", "https://forge/repos/owner/repo/pulls"),
          ("POST", "https://forge/repos/owner/repo/pulls/7/reviews")] ∧
      ∀ q ∈ sent, ∃ base repository review u, privileged.StartsAt none base ∧
        privileged.settings.forge.repository = .str repository ∧
        Artifacts.read privileged.store unnumbered = (.ok review, u) ∧
        q.InScope (base ++ ("/repos/" ++ repository)) (some 5)
          (IsNumber (some 0) review.pullRequest (privileged.Finds base (some 5) unnumbered)) := by
  have hurls : (privileged.runPosting none (some 5) (some 0) none unnumbered).2.requests.map
      (fun q => (q.method, q.url)) = [("GET", "https://forge/repos/owner/repo/actions/runs/5"),
        ("GET", "https://forge/repos/owner/repo/pulls"),
        ("POST", "https://forge/repos/owner/repo/pulls/7/reviews")] := by
    decide +kernel
  rcases h : privileged.runPosting none (some 5) (some 0) none unnumbered with ⟨result, t⟩
  obtain ⟨sent, hsent, -, hall⟩ := runPosting_in_scope h
  rw [h, hsent] at hurls
  exact ⟨sent, hsent, hurls, hall⟩

end Reviewer

end ReviewGate

import ReviewGate.Posting.Summary
import ReviewGate.Proofs.Forge.Listing

/-! How posting a summary ends: whether it fails in a way that counts as a failure of the forge depends
on what came of its requests alone. -/
namespace ReviewGate

open Forge

/-- How a step ends: it succeeds or the forge refuses it if sense could be made of all that came of it,
and it fails in another way if not. -/
inductive Ends {α : Type} (clear : Prop) : Except Fault α → Prop
  | done (a : α) (sense : clear) : Ends clear (.ok a)
  | refused (e : Fault) (sense : clear) (forge : e.isForge = true) : Ends clear (.error e)
  | stuck (e : Fault) (nonsense : ¬ clear) (other : e.isForge = false) : Ends clear (.error e)

theorem Ends.congr {α : Type} {clear clear' : Prop} {result : Except Fault α} (h : Ends clear result)
    (hiff : clear ↔ clear') : Ends clear' result := by
  rwa [← propext hiff]

namespace Forge

/-- How asking for a value ends, where no page is asked for. -/
theorem ask_exchange {q : Request} (hget : q.method ≠ "GET") (hdelete : q.method ≠ "DELETE")
    {s t : Runner} {result : Except Fault Value} (h : ask q s = (result, t)) :
    ∃ qs, s.Sends qs t ∧ (∀ q' ∈ qs, q' = q) ∧ Ends (AllReadable (s.network.exchange qs)) result := by
  have hsingle : AllReadable (s.network.exchange [q]) ↔ IsReadable q (s.network.answer q).outcome := by
    simp [Network.exchange, AllReadable]
  cases ask_ends h with
  | held reset hlow hwires =>
    exact ⟨[], hwires.sends, by simp, .refused _ (by simp [Network.exchange, AllReadable]) rfl⟩
  | accepted r v hsent hlegible hreply hjson =>
    refine ⟨[q], hsent, by simp, .done v (hsingle.mpr ⟨hlegible, ?_, ?_⟩)⟩
    · exact fun _ _ h => absurd h hget
    · intro r' hr' _
      rw [hreply] at hr'
      exact ⟨v, Option.some.inj hr' ▸ hjson⟩
  | refused e hsent hlegible hreply he =>
    exact ⟨[q], hsent, by simp, .refused e (hsingle.mpr (isReadable_of_refused hlegible hreply)) he⟩
  | illegible e hsent hillegible he =>
    refine ⟨[q], hsent, by simp, .stuck e (fun h => ?_) he⟩
    have hreadable := hsingle.mp h
    rcases hillegible with hillegible | ⟨r, f, hreply, hjson⟩
    · exact hillegible hreadable.legible
    · obtain ⟨v, hv⟩ := hreadable.json r hreply hdelete
      rw [hjson] at hv
      cases hv

end Forge

namespace Poster

/-- How many comments have been deleted. -/
def deleted (exchange : List (Request × Outcome)) : Nat :=
  exchange.countP fun (q, o) => q.method == "DELETE" && o.accepted?.isSome

theorem deleted_append (exchange more : List (Request × Outcome)) :
    deleted (exchange ++ more) = deleted exchange + deleted more :=
  List.countP_append

theorem deleted_eq_zero {net : Network} {qs : List Request} (h : ∀ q ∈ qs, q.method ≠ "DELETE") :
    deleted (net.exchange qs) = 0 := by
  induction qs generalizing net with
  | nil => rfl
  | cons q qs ih =>
    have hq := h q (by simp)
    have hmore : deleted ((net.next q).exchange qs) = 0 := ih fun q' hq' => h q' (by simp [hq'])
    simp only [deleted, Network.exchange, List.countP_cons] at hmore ⊢
    simp [hmore, hq]

/-- Whether the comment that is to be deleted or changed next, if there is one, has a number. -/
def IsNumbered (olds : List Value) (exchange : List (Request × Outcome)) : Prop :=
  ∀ comment, olds[deleted exchange]? = some comment → ∃ id, comment.field "id" = .ok id

theorem not_isNumbered_cons {old : Value} {more : List Value} {m : Misuse}
    (hid : old.field "id" = .error m) : ¬ IsNumbered (old :: more) [] := by
  intro hnumbered
  obtain ⟨id, hid'⟩ := hnumbered old rfl
  rw [hid] at hid'
  cases hid'

/-- Whether sense can be made of all that came of the requests for a summary: of the replies one by one
and, once all comments are known, of the comments as far as they are looked at. -/
structure Legible (marker : Value) (exchange : List (Request × Outcome)) : Prop where
  readable : AllReadable exchange
  summaries : ∀ items, listed exchange = some items →
    ∃ olds, summariesIn marker items = .ok olds ∧ IsNumbered olds exchange

/-- How a deletion ends, and whether it counts as one. -/
theorem deleteComment_exchange {c : Client} {r : Repository} {id : Value} {s t : Runner}
    {result : Except Fault Unit} (h : c.deleteComment r id s = (result, t)) :
    ∃ qs, s.Sends qs t ∧ (∀ q ∈ qs, q.method = "DELETE") ∧
      Ends (AllReadable (s.network.exchange qs)) result ∧
      (result = .ok () → deleted (s.network.exchange qs) = 1) ∧
      ∀ e, result = .error e → e.isForge = true → deleted (s.network.exchange qs) = 0 := by
  obtain ⟨u, hwires, -, h⟩ := Job.log_bind h
  rw [← hwires.network]
  rcases hsend : send (c.requestFor r "DELETE" (.comment id)) u with ⟨sent, v⟩
  have hsingle : AllReadable (u.network.exchange [c.requestFor r "DELETE" (.comment id)]) ↔
      (u.network.answer (c.requestFor r "DELETE" (.comment id))).outcome.IsLegible := by
    simp only [Network.exchange, AllReadable, List.mem_singleton, forall_eq]
    exact ⟨fun h => h.legible, fun h => ⟨h, by simp,
      by simp⟩⟩
  rw [Action.bind_run, hsend] at h
  cases send_ends hsend with
  | held reset hlow hwires' =>
    cases h
    exact ⟨[], (hwires.trans hwires').sends, by simp,
      .refused _ (by simp [Network.exchange, AllReadable]) rfl, by simp, by simp [Network.exchange, deleted]⟩
  | accepted reply hsent hlegible hreply =>
    cases h
    exact ⟨_, .after hwires hsent, by simp,
      .done () (hsingle.mpr hlegible),
      by simp [Network.exchange, deleted, hreply], by simp⟩
  | refused e hsent hlegible hreply he =>
    cases h
    exact ⟨_, .after hwires hsent, by simp,
      .refused e (hsingle.mpr hlegible) he, by simp, by simp [Network.exchange, deleted, hreply]⟩
  | illegible e hsent hillegible he =>
    cases h
    exact ⟨_, .after hwires hsent, by simp,
      .stuck e (fun h => hillegible (hsingle.mp h)) he, by simp, by simp [he]⟩

/-- How deleting comments one after the other ends. -/
theorem deleteComments_exchange (p : Poster) (olds : List Value) {s t : Runner}
    {result : Except Fault Unit} (h : p.deleteComments olds s = (result, t)) :
    ∃ qs, s.Sends qs t ∧ (∀ q ∈ qs, q.method = "DELETE") ∧
      Ends (AllReadable (s.network.exchange qs) ∧ IsNumbered olds (s.network.exchange qs)) result ∧
      (result = .ok () → deleted (s.network.exchange qs) = olds.length) := by
  induction olds generalizing s with
  | nil =>
    cases h
    exact ⟨[], ⟨by simp, rfl⟩, by simp, .done () ⟨by simp [Network.exchange, AllReadable],
      by simp [IsNumbered]⟩, by simp [Network.exchange, deleted]⟩
  | cons comment more ih =>
    rw [deleteComments, Action.bind_run, Job.use_run] at h
    rcases hid : comment.field "id" with m | id
    · rw [hid] at h
      cases h
      exact ⟨[], ⟨by simp, rfl⟩, by simp, .stuck _ (fun h => not_isNumbered_cons hid h.2) rfl, by simp⟩
    · rw [hid] at h
      dsimp only [Except.mapError] at h
      rcases hdelete : p.client.deleteComment p.repository id s with ⟨first, u⟩
      obtain ⟨qs, hqs, hmethods, hends, hone, hzero⟩ := deleteComment_exchange hdelete
      rw [Action.bind_run, hdelete] at h
      cases hends with
      | done _ hreadable =>
        obtain ⟨qs', hqs', hmethods', hends', hall⟩ := ih h
        have hdeleted : deleted (s.network.exchange (qs ++ qs')) =
            deleted (u.network.exchange qs') + 1 := by
          rw [hqs.exchange, deleted_append, hone rfl, Nat.add_comm]
        refine ⟨_, hqs.trans hqs', ?_, hends'.congr ?_, ?_⟩
        · intro q hq
          exact (List.mem_append.mp hq).elim (hmethods q) (hmethods' q)
        · have hnumbered : IsNumbered (comment :: more) (s.network.exchange (qs ++ qs')) ↔
              IsNumbered more (u.network.exchange qs') := by
            simp only [IsNumbered, hdeleted, List.getElem?_cons_succ]
          rw [hnumbered, hqs.exchange, allReadable_append]
          exact ⟨fun h => ⟨⟨hreadable, h.1⟩, h.2⟩, fun h => ⟨h.1.2, h.2⟩⟩
        · intro hok
          rw [hdeleted, hall hok, List.length_cons]
      | refused e hreadable he =>
        cases h
        refine ⟨qs, hqs, hmethods, .refused e ⟨hreadable, ?_⟩ he, by simp⟩
        intro c hc
        rw [hzero e rfl he] at hc
        cases hc
        exact ⟨id, hid⟩
      | stuck e hreadable he =>
        cases h
        exact ⟨qs, hqs, hmethods, .stuck e (fun h => hreadable h.1) he, by simp⟩

/-- A summary in the place of those that are there. -/
def replaceSummaries (p : Poster) (pull : Value) (body : String) (olds : List Value) : Job Value :=
  match p.recreate, olds with
  | false, old :: _ => do
    p.client.changeComment p.repository (← Job.use (old.field "id")) (p.marked body)
  | _, olds => do
    p.deleteComments olds
    p.client.addComment p.repository pull (p.marked body)

theorem postSummary_eq (p : Poster) (pull : Value) (body : String) :
    p.postSummary pull body = p.summaries pull >>= p.replaceSummaries pull body := by
  unfold postSummary replaceSummaries
  rfl

private theorem changeComment_exchange {c : Client} {r : Repository} {id : Value} {body : String}
    {s t : Runner} {result : Except Fault Value} (h : c.changeComment r id body s = (result, t)) :
    ∃ qs, s.Sends qs t ∧ (∀ q ∈ qs, q.method = "PATCH") ∧
      Ends (AllReadable (s.network.exchange qs)) result := by
  obtain ⟨u, hwires, -, hask⟩ := Job.log_bind h
  obtain ⟨qs, hqs, hq, hends⟩ := ask_exchange (by simp) (by simp) hask
  exact ⟨qs, .after hwires hqs, fun q h => by rw [hq q h]; rfl, hwires.network ▸ hends⟩

private theorem addComment_exchange {c : Client} {r : Repository} {issue : Value} {body : String}
    {s t : Runner} {result : Except Fault Value} (h : c.addComment r issue body s = (result, t)) :
    ∃ qs, s.Sends qs t ∧ (∀ q ∈ qs, q.method = "POST") ∧
      Ends (AllReadable (s.network.exchange qs)) result := by
  obtain ⟨u, hwires, -, hask⟩ := Job.log_bind h
  obtain ⟨qs, hqs, hq, hends⟩ := ask_exchange (by simp) (by simp) hask
  exact ⟨qs, .after hwires hqs, fun q h => by rw [hq q h]; rfl, hwires.network ▸ hends⟩

private theorem method_ne {qs : List Request} {method : String} (h : ∀ q ∈ qs, q.method = method)
    (hne : method ≠ "DELETE") : ∀ q ∈ qs, q.method ≠ "DELETE" :=
  fun q hq => h q hq ▸ hne

/-- Old summaries are deleted as far as the forge lets it happen; then the new one is added. -/
private theorem recreate_exchange (p : Poster) (pull : Value) (body : String) (olds : List Value)
    {s t : Runner} {result : Except Fault Value}
    (h : (p.deleteComments olds >>= fun _ => p.client.addComment p.repository pull (p.marked body)) s =
      (result, t)) :
    ∃ qs, s.Sends qs t ∧
      Ends (AllReadable (s.network.exchange qs) ∧ IsNumbered olds (s.network.exchange qs)) result := by
  rcases hdelete : p.deleteComments olds s with ⟨first, u⟩
  obtain ⟨qs, hqs, -, hends, hall⟩ := p.deleteComments_exchange olds hdelete
  rw [Action.bind_run, hdelete] at h
  cases hends with
  | done _ hfirst =>
    obtain ⟨qs', hqs', hmethods, hends'⟩ := addComment_exchange h
    refine ⟨_, hqs.trans hqs', hends'.congr ?_⟩
    have hnumbered : IsNumbered olds (s.network.exchange (qs ++ qs')) := by
      intro comment hcomment
      rw [hqs.exchange, deleted_append, hall rfl, List.getElem?_eq_none (by omega)] at hcomment
      cases hcomment
    rw [and_iff_left hnumbered, hqs.exchange, allReadable_append, and_iff_right hfirst.1]
  | refused e hfirst he =>
    cases h
    exact ⟨qs, hqs, .refused e hfirst he⟩
  | stuck e hfirst he =>
    cases h
    exact ⟨qs, hqs, .stuck e hfirst he⟩

private theorem replaceSummaries_cases (p : Poster) (pull : Value) (body : String) (olds : List Value) :
    p.replaceSummaries pull body olds =
        (p.deleteComments olds >>= fun _ => p.client.addComment p.repository pull (p.marked body)) ∨
      ∃ old more, olds = old :: more ∧ p.replaceSummaries pull body olds =
        (Job.use (old.field "id") >>= fun id => p.client.changeComment p.repository id (p.marked body)) := by
  unfold replaceSummaries
  rcases p.recreate with _ | _ <;> rcases olds with _ | ⟨old, more⟩
  · exact Or.inl rfl
  · exact Or.inr ⟨old, more, rfl, rfl⟩
  · exact Or.inl rfl
  · exact Or.inl rfl

theorem replaceSummaries_exchange (p : Poster) (pull : Value) (body : String) (olds : List Value)
    {s t : Runner} {result : Except Fault Value}
    (h : p.replaceSummaries pull body olds s = (result, t)) :
    ∃ qs, s.Sends qs t ∧
      Ends (AllReadable (s.network.exchange qs) ∧ IsNumbered olds (s.network.exchange qs)) result := by
  rcases replaceSummaries_cases p pull body olds with hrun | ⟨old, more, rfl, hrun⟩ <;> rw [hrun] at h
  · exact p.recreate_exchange pull body olds h
  · rw [Action.bind_run, Job.use_run] at h
    rcases hid : old.field "id" with m | id
    · rw [hid] at h
      cases h
      exact ⟨[], ⟨by simp, rfl⟩, .stuck _ (fun h => not_isNumbered_cons hid h.2) rfl⟩
    · rw [hid] at h
      obtain ⟨qs, hqs, hmethods, hends⟩ := changeComment_exchange h
      refine ⟨qs, hqs, hends.congr ⟨fun h => ⟨h, ?_⟩, fun h => h.1⟩⟩
      intro comment hcomment
      rw [deleted_eq_zero (method_ne hmethods (by decide))] at hcomment
      cases hcomment
      exact ⟨id, hid⟩

/-- How posting a summary ends. -/
theorem postSummary_exchange (p : Poster) (pull : Value) (body : String) {s t : Runner}
    {result : Except Fault Value} (h : p.postSummary pull body s = (result, t)) :
    ∃ qs, s.Sends qs t ∧ Ends (Legible p.marker (s.network.exchange qs)) result := by
  rw [postSummary_eq, summaries, ← Action.bind_assoc_run] at h
  rcases hlist : p.client.comments p.repository pull s with ⟨found, u⟩
  obtain ⟨qs, hqs, hget, hends⟩ := comments_ends hlist
  rw [Action.bind_run, hlist] at h
  cases hends with
  | complete items hreadable hfound =>
    dsimp only at h
    rw [Action.bind_run, Job.use_run] at h
    rcases hsummaries : summariesIn p.marker items with m | olds
    · rw [hsummaries] at h
      cases h
      refine ⟨qs, hqs, .stuck _ (fun hlegible => ?_) rfl⟩
      obtain ⟨olds, holds, -⟩ := hlegible.summaries items hfound
      rw [hsummaries] at holds
      cases holds
    · rw [hsummaries] at h
      obtain ⟨qs', hqs', hends'⟩ := p.replaceSummaries_exchange pull body olds h
      refine ⟨_, hqs.trans hqs', hends'.congr ?_⟩
      rw [hqs.exchange]
      have hdeleted : deleted (s.network.exchange qs ++ u.network.exchange qs') =
          deleted (u.network.exchange qs') := by
        rw [deleted_append, deleted_eq_zero (method_ne hget (by decide)), Nat.zero_add]
      have hlisted := listed_append hfound (u.network.exchange qs')
      constructor
      · rintro ⟨hmore, hnumbered⟩
        refine ⟨allReadable_append.mpr ⟨hreadable, hmore⟩, fun items' hitems' => ?_⟩
        rw [hlisted] at hitems'
        cases hitems'
        exact ⟨olds, hsummaries, by simpa only [IsNumbered, hdeleted] using hnumbered⟩
      · intro hlegible
        obtain ⟨olds', holds', hnumbered⟩ := hlegible.summaries items hlisted
        rw [hsummaries] at holds'
        cases holds'
        exact ⟨(allReadable_append.mp hlegible.readable).2, by
          simpa only [IsNumbered, hdeleted] using hnumbered⟩
  | refused e hreadable hfound he =>
    cases h
    exact ⟨qs, hqs, .refused e ⟨hreadable, by simp [hfound]⟩ he⟩
  | unreadable e hreadable he =>
    cases h
    exact ⟨qs, hqs, .stuck e (fun h => hreadable h.readable) he⟩

end Poster

end ReviewGate

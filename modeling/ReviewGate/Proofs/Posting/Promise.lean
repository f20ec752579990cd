import ReviewGate.CommandLine.Run
import ReviewGate.Proofs.Forge.Exchange

/-! Posting on a forge that keeps its promises: its replies can be made sense of, and what they hold is
of the kind that was asked for. Then a posting fails, if it does, in a way that is reported. -/
namespace ReviewGate

open Forge CommandLine

namespace Forge

/-! ### What the forge promises -/

/-- Whether a value describes a pull request as far as a look-up goes. -/
def IsPull (v : Value) : Prop :=
  (∃ entries, v = .map entries) ∧ (∃ number, v.field "number" = .ok number) ∧
    ∃ head, v.getOr "head" (.map []) = .ok (.map head)

/-- Whether a value describes a comment: it has a number, and its body is a text if it is given. -/
def IsComment (v : Value) : Prop :=
  (∃ id, v.field "id" = .ok id) ∧
    ∃ body, v.get "body" = .ok body ∧ (body.isGiven = true → ∃ text, body = .str text)

/-- Whether a value is of the kind that a request asks for. -/
structure Answers (q : Request) (v : Value) : Prop where
  run : ∀ c r id, q = Client.requestFor c r "GET" (.run id) → ∃ entries, v = .map entries
  pulls : ∀ c r params, q = { Client.requestFor c r "GET" .pulls with params := params } →
    ∃ items, v = .list items ∧ ∀ pull ∈ items, IsPull pull
  comments : ∀ c r issue page, q = Client.pageRequest c r issue page →
    ∃ items, v = .list items ∧ ∀ comment ∈ items, IsComment comment
  issue : ∀ c r content, q = { Client.requestFor c r "POST" .issues with json := content } →
    ∃ entries, v = .map entries

/-- Whether the forge keeps its promises with what comes of a request. -/
structure IsKept (q : Request) (o : Outcome) : Prop where
  legible : o.IsLegible
  answer : ∀ r, o.accepted? = some r → q.method ≠ "DELETE" → ∃ v, r.json = .ok v ∧ Answers q v

def AllKept (said : List (Request × Outcome)) : Prop :=
  ∀ x ∈ said, IsKept x.1 x.2

theorem allKept_append {said more : List (Request × Outcome)} :
    AllKept (said ++ more) ↔ AllKept said ∧ AllKept more :=
  List.forall_mem_append

end Forge

/-! ### Jobs that can be relied on -/

/-- Whether a job ends with a result of a certain kind or with a fault that is reported. -/
def Reports {α : Type} (K : α → Prop) : Except Fault α → Prop
  | .ok a => K a
  | .error e => isPostingFault e = true

/-- Whether a job that is well started on a machine ends well, as long as the forge keeps its promises. -/
def Job.EndsWell {α : Type} (started : Prop) (K : α → Prop) (j : Job α) (s : Runner) : Prop :=
  ∃ qs, s.Sends qs (j s).2 ∧ (started → AllKept (s.network.exchange qs) → Reports K (j s).1)

/-- Whether a job that is well started ends well on every machine, as long as the forge keeps its
promises. -/
def Job.IsReliable {α : Type} (started : Prop) (K : α → Prop) (j : Job α) : Prop :=
  ∀ s, j.EndsWell started K s

theorem isPostingFault_of_isForge {e : Fault} (h : e.isForge = true) : isPostingFault e = true := by
  simp [isPostingFault, h]

namespace Job.EndsWell

variable {α β : Type} {started : Prop} {K : α → Prop} {j : Job α} {s : Runner}

/-- A job that goes on with another one ends well if the other one does on every machine. -/
theorem bind {K' : β → Prop} {f : α → Job β} (hj : j.EndsWell started K s)
    (hf : ∀ a, (f a).IsReliable (K a) K') : (j >>= f).EndsWell started K' s := by
  obtain ⟨qs, hqs, hfirst⟩ := hj
  rw [Job.EndsWell, Action.bind_run]
  rcases hrun : j s with ⟨e | a, t⟩ <;> rw [hrun] at hqs hfirst
  · exact ⟨qs, hqs, hfirst⟩
  · obtain ⟨qs', hqs', hsecond⟩ := hf a t
    refine ⟨qs ++ qs', hqs.trans hqs', fun hstarted hkept => ?_⟩
    rw [hqs.exchange, allKept_append] at hkept
    exact hsecond (hfirst hstarted hkept.1) hkept.2

/-- A result that is caught is of its kind, and a fault that is caught is of the family. -/
theorem catching (hj : j.EndsWell started K s) (family : Fault → Bool) :
    (Job.catching family j).EndsWell started (fun caught =>
      (∀ a, caught = .ok a → K a) ∧ ∀ e, caught = .error e → family e = true) s := by
  obtain ⟨qs, hqs, h⟩ := hj
  rw [Job.EndsWell, Job.catching_run]
  rcases hrun : j s with ⟨e | a, t⟩ <;> rw [hrun] at hqs h
  · dsimp only
    split_ifs with hfamily
    · refine ⟨qs, hqs, fun _ _ => ⟨by simp, fun f hf => ?_⟩⟩
      cases hf
      exact hfamily
    · exact ⟨qs, hqs, h⟩
  · refine ⟨qs, hqs, fun hstarted hkept => ⟨fun b hb => ?_, by simp⟩⟩
    cases hb
    exact h hstarted hkept

end Job.EndsWell

namespace Job.IsReliable

variable {α β : Type} {started : Prop} {K : α → Prop} {j : Job α}

theorem of_quiet (hj : j.Keeps (Runner.Sends [])) (h : started → ∀ s, Reports K (j s).1) :
    j.IsReliable started K :=
  fun s => ⟨[], hj s, fun hstarted _ => h hstarted s⟩

theorem pure {a : α} (h : started → K a) : (Pure.pure a : Job α).IsReliable started K :=
  of_quiet (Job.Keeps.pure Runner.Sends.isCalm a) fun hstarted _ => h hstarted

theorem throw {e : Fault} (h : isPostingFault e = true) :
    (MonadExcept.throw e : Job α).IsReliable started K :=
  of_quiet (Job.Keeps.throw Runner.Sends.isCalm e) fun _ _ => h

theorem ofExcept {x : Except Fault α} (h : started → Reports K x) :
    (Job.ofExcept x).IsReliable started K :=
  of_quiet (Job.Keeps.ofExcept Runner.Sends.isCalm x) fun hstarted s => by
    rw [Job.ofExcept_run]
    exact h hstarted

theorem use {x : Except Misuse α} (h : started → ∃ a, x = .ok a ∧ K a) :
    (Job.use x).IsReliable started K :=
  of_quiet (Job.Keeps.use Runner.Sends.isCalm x) fun hstarted s => by
    obtain ⟨a, rfl, ha⟩ := h hstarted
    exact ha

theorem log (level : LogLevel) (source message : String) :
    (Job.log level source message).IsReliable started fun _ => started :=
  of_quiet (Runner.Sends.isCalm.log level source message) fun hstarted s => by
    rw [Job.log_ok]
    exact hstarted

theorem get : (MonadState.get : Job Runner).IsReliable started fun _ => started :=
  of_quiet (Job.Keeps.get Runner.Sends.isCalm) fun hstarted _ => hstarted

theorem bind {K' : β → Prop} {f : α → Job β} (hj : j.IsReliable started K)
    (hf : ∀ a, (f a).IsReliable (K a) K') : (j >>= f).IsReliable started K' :=
  fun s => (hj s).bind hf

theorem weaken {started' : Prop} {K' : α → Prop} (hj : j.IsReliable started K)
    (hstart : started' → started) (hkind : ∀ a, K a → K' a) : j.IsReliable started' K' := by
  intro s
  obtain ⟨qs, hqs, h⟩ := hj s
  refine ⟨qs, hqs, fun hstarted hkept => ?_⟩
  have hends := h (hstart hstarted) hkept
  rcases hrun : j s with ⟨e | a, t⟩ <;> rw [hrun] at hends
  · exact hends
  · exact hkind a hends

/-- What a job is started with still holds after it. -/
theorem frame (hj : j.IsReliable started K) : j.IsReliable started fun a => started ∧ K a := by
  intro s
  obtain ⟨qs, hqs, h⟩ := hj s
  refine ⟨qs, hqs, fun hstarted hkept => ?_⟩
  have hends := h hstarted hkept
  rcases hrun : j s with ⟨e | a, t⟩ <;> rw [hrun] at hends
  · exact hends
  · exact ⟨hstarted, hends⟩

theorem catching (hj : j.IsReliable started K) (family : Fault → Bool) :
    (Job.catching family j).IsReliable started fun caught =>
      (∀ a, caught = .ok a → K a) ∧ ∀ e, caught = .error e → family e = true :=
  fun s => (hj s).catching family

theorem ite {c : Prop} [Decidable c] {j' : Job α} (hj : c → j.IsReliable started K)
    (hj' : ¬ c → j'.IsReliable started K) : (if c then j else j').IsReliable started K := by
  split_ifs with hc
  · exact hj hc
  · exact hj' hc

end Job.IsReliable

namespace Forge

variable {started : Prop}

open Job

theorem send_reliable (q : Request) : (send q).IsReliable started fun _ => started := by
  intro s
  rw [EndsWell]
  rcases hsend : send q s with ⟨result, t⟩
  cases send_ends hsend with
  | held reset _ hwires => exact ⟨[], hwires.sends, fun _ _ => rfl⟩
  | accepted r hsent => exact ⟨[q], hsent, fun hstarted _ => hstarted⟩
  | refused e hsent _ _ he => exact ⟨[q], hsent, fun _ _ => isPostingFault_of_isForge he⟩
  | illegible e hsent hillegible =>
    exact ⟨[q], hsent, fun _ hkept => absurd (hkept _ List.mem_cons_self).legible hillegible⟩

/-- What is asked for is answered. -/
theorem ask_reliable {q : Request} (hq : q.method ≠ "DELETE") :
    (ask q).IsReliable started fun v => started ∧ Answers q v := by
  intro s
  rw [EndsWell]
  rcases hask : ask q s with ⟨result, t⟩
  cases ask_ends hask with
  | held reset _ hwires => exact ⟨[], hwires.sends, fun _ _ => rfl⟩
  | accepted r v hsent _ hreply hjson =>
    refine ⟨[q], hsent, fun hstarted hkept => ⟨hstarted, ?_⟩⟩
    obtain ⟨w, hw, hanswers⟩ := (hkept _ List.mem_cons_self).answer r hreply hq
    obtain rfl : v = w := Except.ok.inj (hjson.symm.trans hw)
    exact hanswers
  | refused e hsent _ _ he => exact ⟨[q], hsent, fun _ _ => isPostingFault_of_isForge he⟩
  | illegible e hsent hillegible =>
    refine ⟨[q], hsent, fun _ hkept => ?_⟩
    have hq' := hkept _ List.mem_cons_self
    rcases hillegible with hillegible | ⟨r, f, hreply, hjson⟩
    · exact absurd hq'.legible hillegible
    · obtain ⟨w, hw, -⟩ := hq'.answer r hreply hq
      exact absurd (hjson.symm.trans hw) (by simp)

end Forge

end ReviewGate

import Mathlib.Data.List.Perm.Basic
import Mathlib.Tactic.SplitIfs
import ReviewGate.Pool

/-! However the workers of a pool take turns, no task is lost and none is done twice, so that the results are
those of one worker who does all tasks in their order. -/
namespace ReviewGate.Pool

variable {α β : Type} {work : α → β}

/-- Whatever happens in a pool, the results that it will have in the end stay the same, in some order. -/
theorem allResults_after (workers : Nat) (work : α → β) (p : Pool α β) (e : Event) :
    ((p.after workers work e).allResults work).Perm (p.allResults work) := by
  obtain ⟨waiting, busy, results⟩ := p
  cases e with
  | taken =>
    rcases waiting with _ | ⟨task, more⟩
    · exact .refl _
    · rw [after]
      split_ifs
      · simp only [allResults, List.append_assoc, List.singleton_append]
        exact .refl _
      · exact .refl _
  | done worker =>
    rw [after]
    rcases hbusy : busy[worker]? with _ | task
    · exact .refl _
    · obtain ⟨hworker, htask⟩ := List.getElem?_eq_some_iff.mp hbusy
      have hleft : (task :: busy.eraseIdx worker).Perm busy := by
        rw [← htask]
        exact List.getElem_cons_eraseIdx_perm hworker
      have hdone : allResults work ⟨waiting, busy.eraseIdx worker, results ++ [outcome work task]⟩ =
          results ++ ((task :: busy.eraseIdx worker) ++ waiting).map (outcome work) := by
        simp [allResults]
      show (allResults work _).Perm _
      rw [hdone]
      exact ((hleft.append_right waiting).map _).append_left results

theorem allResults_foldl (workers : Nat) (work : α → β) (events : List Event) (p : Pool α β) :
    ((events.foldl (after workers work) p).allResults work).Perm (p.allResults work) := by
  induction events generalizing p with
  | nil => exact .refl _
  | cons e events ih => exact (ih _).trans (allResults_after workers work p e)

theorem allResults_start (work : α → β) (tasks : List α) :
    (start tasks).allResults work = (tasks.map work).zipIdx := by
  rw [List.zipIdx_map]
  rfl

/-- Results that come in any order are put in that of their places. -/
theorem inOrder_eq {outcomes : List β} {results : List (β × Nat)} (h : results.Perm outcomes.zipIdx) :
    inOrder outcomes.length results = outcomes := by
  have hfind : ∀ place ∈ List.range outcomes.length,
      (results.find? fun r => r.2 == place).map Prod.fst = outcomes[place]? := by
    intro place hplace
    have hlt := List.mem_range.mp hplace
    have hmem : (outcomes[place], place) ∈ results :=
      h.mem_iff.mpr (List.mk_mem_zipIdx_iff_getElem?.mpr (List.getElem?_eq_getElem hlt))
    rcases hfound : results.find? fun r => r.2 == place with _ | ⟨b, other⟩
    · exact absurd (List.find?_eq_none.mp hfound _ hmem) (by simp)
    · obtain rfl : other = place := by simpa using List.find?_some hfound
      have hb := h.mem_iff.mp (List.mem_of_find?_eq_some hfound)
      rw [List.mk_mem_zipIdx_iff_getElem?] at hb
      rw [hfound, hb]
      rfl
  have hall : (List.range outcomes.length).map (fun place => outcomes[place]?) = outcomes.map some := by
    refine List.ext_getElem (by simp) fun place hleft hright => ?_
    simp
  calc inOrder outcomes.length results
      = (List.range outcomes.length).filterMap (fun place => outcomes[place]?) :=
        List.filterMap_congr hfind
    _ = (outcomes.map some).filterMap id := by rw [← hall, List.filterMap_map, Function.id_comp]
    _ = outcomes := by simp

/-- Sharing tasks out gives the results of doing them one after the other. -/
theorem share_eq_map (workers : Nat) (events : List Event) (work : α → β) (tasks : List α) :
    share workers events work tasks = tasks.map work := by
  have hperm := allResults_foldl workers work events (start tasks)
  rw [allResults_start] at hperm
  have horder := inOrder_eq hperm
  rwa [List.length_map] at horder

end ReviewGate.Pool

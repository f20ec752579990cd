import ReviewGate.Proofs.Posting.Phases

/-! What a poster knows of the comments while another one posts as well. It is what the forge holds until
one of them adds a summary, or else the comment that the poster is to delete first is gone and it is bound
to fail. -/
namespace ReviewGate.Poster

open Forge Forge.Comment

namespace Phase

/-- The comments with the marker that have been found and are still to be deleted. -/
def found (marker : String) : Phase → List Comment
  | .listing _ seen => seen.filter fun c => c.IsMarked marker
  | .deleting left => left
  | .ended _ => []

/-- Whether what a poster knows of the comments is what the forge holds. -/
def IsCurrent (marker : String) (held : List Comment) : Phase → Prop
  | .listing page seen => page * 100 ≤ held.length ∧ seen = held.take (page * 100)
  | .deleting left => left = held.filter fun c => c.IsMarked marker
  | .ended _ => False

/-- Whether a poster has failed, or is going to fail since the comment that it deletes first is gone. -/
def IsStale {σ : Type} (h : Host σ) (marker : String) (hist : History) (x : σ) (phase : Phase) : Prop :=
  phase = .ended false ∨ ∃ c left, phase.found marker = c :: left ∧ h.IsGone c.id hist x

end Phase

variable {σ : Type} {h : Host σ} {p : Poster} {pull : Value} {marker body : String} {w : Bool}
  {hist : History} {x : σ} {q : Request} {phase a b : Phase}

/-! ### What the requests of a poster do -/

theorem held_after_listing (hgrants : h.GrantsIn p.client p.repository pull x) (page : Nat) :
    h.comments (h.next x (p.client.listing p.repository pull (page + 1) 100)) = h.comments x := by
  obtain ⟨reply, items, -, -, -, hsame⟩ := hgrants.lists (page + 1) 100 (by omega) (by omega) (by omega)
  exact hsame

theorem held_after_deletion (hgrants : h.GrantsIn p.client p.repository pull x) {id : Int}
    (hheld : id ∈ h.ids x) :
    h.comments (h.next x (p.client.deletion p.repository id)) =
      (h.comments x).filter fun other => other.id ≠ id := by
  obtain ⟨d, hd, rfl⟩ := List.mem_map.mp hheld
  obtain ⟨reply, -, hleft⟩ := hgrants.deletes d hd
  exact hleft

theorem held_after_addition (hgrants : h.GrantsIn p.client p.repository pull x) (body : String) :
    ∃ id, h.comments (h.next x (p.client.addition p.repository pull (p.marked body))) =
      h.comments x ++ [⟨id, some (p.marked body)⟩] := by
  obtain ⟨reply, v, id, -, -, hadded⟩ := hgrants.adds (p.marked body)
  exact ⟨id, hadded⟩

theorem request_ne_post (hrequest : phase.request p pull body = some q) (hadds : phase ≠ .deleting []) :
    q.method ≠ "POST" := by
  cases phase with
  | listing page seen =>
    obtain rfl := Option.some.inj hrequest
    simp
  | deleting left =>
    cases left with
    | nil => exact absurd rfl hadds
    | cons c left =>
      obtain rfl := Option.some.inj hrequest
      simp
  | ended ok => cases hrequest

/-! ### Posters that are bound to fail -/

namespace Phase.IsStale

/-- What is gone stays gone. -/
theorem later (hstale : phase.IsStale h marker ((w, q) :: hist) x) :
    phase.IsStale h marker hist (h.next x q) := by
  rcases hstale with hfailed | ⟨c, left, hfound, hgone⟩
  · exact Or.inl hfailed
  · exact Or.inr ⟨c, left, hfound, hgone.2⟩

theorem next (hgrants : h.GrantsIn p.client p.repository pull x)
    (hmisses : h.Misses p.client p.repository x) (hrequest : phase.request p pull body = some q)
    (hstale : phase.IsStale h marker ((w, q) :: hist) x) :
    (phase.next marker (h.comments x)).IsStale h marker hist (h.next x q) ∧
      h.comments (h.next x q) = h.comments x ∧ q.method ≠ "POST" := by
  rcases hstale with rfl | ⟨c, left, hfound, hgone⟩
  · cases hrequest
  cases phase with
  | listing page seen =>
    obtain rfl := Option.some.inj hrequest
    refine ⟨Or.inr ?_, held_after_listing hgrants page, by simp⟩
    have hmore : ∀ here : List Comment, ((seen ++ here).filter fun c => c.IsMarked marker) =
        c :: (left ++ here.filter fun c => c.IsMarked marker) := by
      intro here
      rw [List.filter_append]
      exact congrArg (· ++ _) hfound
    by_cases hshort : (((h.comments x).drop (page * 100)).take 100).length < 100
    · rw [Phase.next_listing_of_short hshort]
      exact ⟨c, _, hmore _, hgone.2⟩
    · rw [Phase.next_listing_of_full hshort]
      exact ⟨c, _, hmore _, hgone.2⟩
  | deleting found =>
    obtain rfl : found = c :: left := hfound
    obtain rfl := Option.some.inj hrequest
    obtain ⟨reply, -, -, hsame⟩ := hmisses c.id hgone.1
    exact ⟨Or.inl (Phase.next_deleting_of_not_mem hgone.1), hsame, by simp⟩
  | ended ok => cases hrequest

theorem outcome_ne (hstale : phase.IsStale h marker hist x) : phase.outcome ≠ some true := by
  intro houtcome
  obtain rfl := Phase.eq_ended_of_outcome houtcome
  rcases hstale with hfailed | ⟨c, left, hfound, -⟩
  · cases hfailed
  · cases hfound

end Phase.IsStale

/-! ### Posters that know what is there -/

theorem mem_of_found {held left : List Comment} {c : Comment}
    (hfound : c :: left = held.filter fun c => c.IsMarked marker) : c ∈ held ∧ c.IsMarked marker := by
  have hmem : c ∈ held.filter fun c => c.IsMarked marker := hfound ▸ List.mem_cons_self
  simpa using List.mem_filter.mp hmem

/-- Without the first comment with the marker the others with it are left. -/
theorem filter_deleted {held left : List Comment} {c : Comment} (hunique : (held.map Comment.id).Nodup)
    (hfound : c :: left = held.filter fun c => c.IsMarked marker) :
    ((held.filter fun other => other.id ≠ c.id).filter fun c => c.IsMarked marker) = left := by
  have hothers : ∀ d ∈ left, d.id ≠ c.id := by
    have hsub : ((c :: left).map Comment.id).Nodup :=
      hfound ▸ hunique.sublist (List.filter_sublist.map Comment.id)
    rw [List.map_cons, List.nodup_cons] at hsub
    exact fun d hd heq => hsub.1 (heq ▸ List.mem_map_of_mem hd)
  rw [List.filter_comm, ← hfound, List.filter_cons_of_neg (by simp)]
  exact List.filter_eq_self.mpr fun d hd => by simpa using hothers d hd

/-- The first comment with the marker is on the pages that have been read, or these pages are the same
without it. -/
theorem take_deleted {held left : List Comment} {c : Comment} {n : Nat} (hn : n ≤ held.length)
    (hunique : (held.map Comment.id).Nodup) (hfound : c :: left = held.filter fun c => c.IsMarked marker) :
    (∃ more, ((held.take n).filter fun c => c.IsMarked marker) = c :: more) ∨
      n ≤ (held.filter fun other => other.id ≠ c.id).length ∧
        held.take n = (held.filter fun other => other.id ≠ c.id).take n := by
  have hsplit : ∀ f : Comment → Bool, held.filter f = (held.take n).filter f ++ (held.drop n).filter f := by
    intro f
    rw [← List.filter_append, List.take_append_drop]
  rcases hseen : (held.take n).filter fun c => c.IsMarked marker with _ | ⟨d, more⟩
  · obtain ⟨hheld, hmarked⟩ := mem_of_found hfound
    have hkept : ((held.take n).filter fun other => other.id ≠ c.id) = held.take n := by
      refine List.filter_eq_self.mpr fun d hd => ?_
      have hother : d.id ≠ c.id := by
        intro heq
        obtain rfl := List.inj_on_of_nodup_map hunique (List.mem_of_mem_take hd) hheld heq
        simpa [hmarked] using List.filter_eq_nil_iff.mp hseen d hd
      simpa using hother
    have hlength : (held.take n).length = n := List.length_take_of_le hn
    rw [hsplit fun other => other.id ≠ c.id, hkept]
    refine Or.inr ⟨?_, ?_⟩
    · rw [List.length_append, hlength]
      omega
    · exact (List.take_left' hlength).symm
  · rw [hsplit, hseen] at hfound
    obtain ⟨rfl, -⟩ := List.cons.inj hfound
    exact Or.inl ⟨more, hseen⟩

namespace Phase.IsCurrent

theorem outcome_eq {held : List Comment} (hcurrent : phase.IsCurrent marker held) :
    phase.outcome = none := by
  cases phase with
  | ended ok => exact hcurrent.elim
  | _ => rfl

/-- Before its addition, a poster that knows the comments asks for a page, or deletes one that is there. -/
theorem request_cases {held : List Comment} (hrequest : phase.request p pull body = some q)
    (hpost : phase ≠ .deleting []) (hcurrent : phase.IsCurrent marker held) :
    (∃ page seen, phase = .listing page seen ∧ q = p.client.listing p.repository pull (page + 1) 100) ∨
      ∃ c left, phase = .deleting (c :: left) ∧ q = p.client.deletion p.repository c.id ∧ c ∈ held := by
  cases phase with
  | listing page seen => exact Or.inl ⟨page, seen, rfl, (Option.some.inj hrequest).symm⟩
  | deleting left =>
    cases left with
    | nil => exact absurd rfl hpost
    | cons c left =>
      obtain ⟨hheld, -⟩ := mem_of_found hcurrent
      exact Or.inr ⟨c, left, rfl, (Option.some.inj hrequest).symm, hheld⟩
  | ended ok => cases hrequest

theorem next (hgrants : h.GrantsIn p.client p.repository pull x)
    (hrequest : phase.request p pull body = some q) (hpost : phase ≠ .deleting [])
    (hcurrent : phase.IsCurrent marker (h.comments x)) :
    (phase.next marker (h.comments x)).IsCurrent marker (h.comments (h.next x q)) := by
  rcases hcurrent.request_cases hrequest hpost with ⟨page, seen, rfl, rfl⟩ | ⟨c, left, rfl, rfl, hheld⟩
  · obtain ⟨hpages, rfl⟩ := hcurrent
    rw [held_after_listing hgrants]
    have htake : (h.comments x).take (page * 100) ++ ((h.comments x).drop (page * 100)).take 100 =
        (h.comments x).take ((page + 1) * 100) := by
      rw [Nat.succ_mul, List.take_add]
    by_cases hshort : (((h.comments x).drop (page * 100)).take 100).length < 100
    · rw [Phase.next_listing_of_short hshort, htake]
      rw [List.length_take, List.length_drop] at hshort
      rw [List.take_of_length_le (by omega)]
      rfl
    · rw [Phase.next_listing_of_full hshort, htake]
      rw [List.length_take, List.length_drop] at hshort
      exact ⟨by omega, rfl⟩
  · rw [held_after_deletion hgrants (List.mem_map_of_mem hheld),
      Phase.next_deleting_of_mem (List.mem_map_of_mem hheld)]
    exact (filter_deleted hgrants.unique hcurrent).symm

/-- What one poster knows of the comments is still right after a request of the other one, or the first
comment with the marker that it has found is gone. -/
theorem other (hgrants : h.GrantsIn p.client p.repository pull x)
    (hgone : ∀ id ∈ h.ids x, id ∉ h.ids (h.next x q) → h.IsGone id hist (h.next x q))
    (hrequest : a.request p pull body = some q) (hpost : a ≠ .deleting [])
    (ha : a.IsCurrent marker (h.comments x)) (hb : b.IsCurrent marker (h.comments x)) :
    b.IsCurrent marker (h.comments (h.next x q)) ∨ b.IsStale h marker hist (h.next x q) := by
  rcases ha.request_cases hrequest hpost with ⟨page, seen, rfl, rfl⟩ | ⟨c, left, rfl, rfl, hheld⟩
  · rw [held_after_listing hgrants]
    exact Or.inl hb
  · have hid : c.id ∈ h.ids x := List.mem_map_of_mem hheld
    have hleft := held_after_deletion hgrants hid
    have hdeleted : h.IsGone c.id hist (h.next x (p.client.deletion p.repository c.id)) := by
      refine hgone c.id hid ?_
      rw [Host.ids, hleft]
      simp
    cases b with
    | listing page seen =>
      obtain ⟨hpages, rfl⟩ := hb
      rcases take_deleted hpages hgrants.unique ha with ⟨more, hseen⟩ | hsame
      · exact Or.inr (Or.inr ⟨c, more, hseen, hdeleted⟩)
      · rw [hleft]
        exact Or.inl hsame
    | deleting found => exact Or.inr (Or.inr ⟨c, left, hb.trans ha.symm, hdeleted⟩)
    | ended ok => exact hb.elim

/-- An addition adds nothing to the pages that have been read. -/
theorem append {page : Nat} {seen held : List Comment} (c : Comment)
    (hcurrent : (Phase.listing page seen).IsCurrent marker held) :
    (Phase.listing page seen).IsCurrent marker (held ++ [c]) := by
  obtain ⟨hpages, rfl⟩ := hcurrent
  refine ⟨?_, (List.take_append_of_le_length hpages).symm⟩
  rw [List.length_append]
  omega

end Phase.IsCurrent

/-- The requests of a poster before its addition leave no more comments with the marker. -/
theorem marks_next_le (hgrants : h.GrantsIn p.client p.repository pull x)
    (hrequest : phase.request p pull body = some q) (hpost : phase ≠ .deleting [])
    (hcurrent : phase.IsCurrent marker (h.comments x)) :
    marks marker (h.comments (h.next x q)) ≤ marks marker (h.comments x) := by
  rcases hcurrent.request_cases hrequest hpost with ⟨page, seen, rfl, rfl⟩ | ⟨c, left, rfl, rfl, hheld⟩
  · exact Nat.le_of_eq (congrArg (marks marker) (held_after_listing hgrants page))
  · rw [held_after_deletion hgrants (List.mem_map_of_mem hheld)]
    exact List.filter_sublist.countP_le

end ReviewGate.Poster

import ReviewGate.Proofs.Workspace.Change

/-! When the directories of a path can be made: nothing but directories may be on the way. What is made
is on the way, and everything else stays as it was. -/
namespace ReviewGate

/-- The places that a path comes through, its end included. -/
def Path.IsOnWay (p : Path) (place : Location) : Prop :=
  ∃ before, before <+: p.parts ∧ place = Path.place ⟨p.root, before⟩

theorem Path.isOnWay_of_prefix {root : String} {before parts : List String} (h : before <+: parts)
    {place : Location} (hplace : Path.IsOnWay ⟨root, before⟩ place) :
    Path.IsOnWay ⟨root, parts⟩ place := by
  obtain ⟨first, hfirst, rfl⟩ := hplace
  exact ⟨first, hfirst.trans h, rfl⟩

/-- Without steps up, the place of a path is where its names lead one below the other. -/
theorem Path.place_eq_append {p : Path} (h : ".." ∉ p.parts) : p.place = Workspace.base p ++ p.parts := by
  have hsteps : ∀ (place : Location) (parts : List String), ".." ∉ parts →
      parts.foldl Workspace.step place = place ++ parts := by
    intro place parts hparts
    induction parts generalizing place with
    | nil => simp
    | cons part more ih =>
      rw [List.mem_cons, not_or] at hparts
      rw [List.foldl_cons, ih _ hparts.2, Workspace.step, if_neg (Ne.symm hparts.1), List.append_assoc]
      rfl
  exact hsteps _ _ h

/-- Without steps up, nothing in a directory is on the way to it. -/
theorem Path.not_isOnWay_child {p : Path} (h : ".." ∉ p.parts) (name : String) :
    ¬ p.IsOnWay (p.place ++ [name]) := by
  rintro ⟨before, hbefore, hplace⟩
  have hup : ".." ∉ before := fun hmem => h (hbefore.subset hmem)
  have hlength := congrArg List.length hplace
  rw [Path.place_eq_append h, Path.place_eq_append (p := ⟨p.root, before⟩) hup] at hlength
  have hle := hbefore.length_le
  have hbase : Workspace.base ⟨p.root, before⟩ = Workspace.base p := rfl
  simp only [List.length_append, List.length_singleton, hbase] at hlength
  omega

namespace Workspace

/-- Whether the directories of a path can be made: its parts can be names, and no file is on the way. -/
structure CanMake (w : Workspace) (p : Path) : Prop where
  noNul : p.hasNul = false
  names : ∀ part ∈ p.parts, part = ".." ∨ part.utf8ByteSize ≤ nameLimit
  way : ∀ place, p.IsOnWay place → w.contentAt? place = none

theorem CanMake.of_prefix {w : Workspace} {root : String} {before parts : List String}
    (h : w.CanMake ⟨root, parts⟩) (hbefore : before <+: parts) : w.CanMake ⟨root, before⟩ where
  noNul := by
    have hparts := h.noNul
    simp only [Path.hasNul, List.any_eq_false] at hparts ⊢
    exact fun part hpart => hparts part (hbefore.subset hpart)
  names part hpart := h.names part (hbefore.subset hpart)
  way place hplace := h.way place (Path.isOnWay_of_prefix hbefore hplace)

theorem CanMake.of_adds {w w' : Workspace} {p : Path} (h : w.CanMake p) (hadds : w.AddsDirectories w') :
    w'.CanMake p :=
  ⟨h.noNul, h.names, fun place hplace => (hadds.contentAt place).trans (h.way place hplace)⟩

/-- A walk on which there are no files and no long names can only come to where nothing is. -/
theorem walk_error {w : Workspace} {place : Location} {parts : List String} {problem : StorageProblem}
    (hnames : ∀ part ∈ parts, part = ".." ∨ part.utf8ByteSize ≤ nameLimit)
    (hway : ∀ before, before <+: parts → w.contentAt? (before.foldl step place) = none)
    (h : w.walk place parts = .error problem) : problem = .missing := by
  induction parts generalizing place with
  | nil => cases h
  | cons part more ih =>
    have hmore : ∀ before, before <+: more → w.contentAt? (before.foldl step (step place part)) = none :=
      fun before hbefore => hway (part :: before) (List.cons_prefix_cons.mpr ⟨rfl, hbefore⟩)
    rw [walk] at h
    rcases hentry : w.entryAt? place with _ | _ | content
    · rw [hentry] at h
      cases h
      rfl
    · simp only [hentry] at h
      refine ih (fun name hname => hnames name (List.mem_cons_of_mem _ hname)) hmore ?_
      by_cases hup : part = ".."
      · simpa [step, hup] using h
      · have hsize := (hnames part List.mem_cons_self).resolve_left hup
        simpa [step, hup, Nat.not_lt.mpr hsize] using h
    · have hfile : w.contentAt? place = none := hway [] List.nil_prefix
      rw [contentAt_eq_some.mpr hentry] at hfile
      cases hfile

theorem CanMake.locate_error {w : Workspace} {p : Path} {problem : StorageProblem} (h : w.CanMake p)
    (hlocate : w.locate p = .error problem) : problem = .missing :=
  walk_error h.names (fun before hbefore => h.way _ ⟨before, hbefore, rfl⟩) hlocate

/-- Making a directory that can be made fails only if it is there already, or something on the way to it
is not. -/
theorem CanMake.makeDirectory {w : Workspace} {p : Path} (h : w.CanMake p) :
    (∃ w', w.makeDirectory p = .ok w') ∨
      (w.makeDirectory p = .error .exists ∧ w.isDirectory p = .ok true) ∨
      (w.makeDirectory p = .error .missing ∧ w.locate p = .error .missing) := by
  unfold Workspace.makeDirectory
  rcases hplace : w.locate p with problem | place
  · obtain rfl := h.locate_error hplace
    exact Or.inr (Or.inr ⟨rfl, rfl⟩)
  · obtain ⟨rfl, -⟩ := locate_eq_ok hplace
    simp only [bind, Except.bind]
    rcases hentry : w.entryAt? p.place with _ | _ | content
    · exact Or.inl ⟨_, rfl⟩
    · refine Or.inr (Or.inl ⟨rfl, ?_⟩)
      simp [Workspace.isDirectory, status, h.noNul, hplace, hentry, Except.map]
    · have hfile := h.way p.place ⟨p.parts, List.prefix_refl _, rfl⟩
      rw [contentAt_eq_some.mpr hentry] at hfile
      cases hfile

/-- In a directory that is ready, the next part of a path leads somewhere. -/
theorem IsReady.exists_locate {w : Workspace} {root : String} {before : List String} {part : String}
    (h : w.IsReady ⟨root, before⟩) (hpart : part = ".." ∨ part.utf8ByteSize ≤ nameLimit) :
    ∃ place, w.locate ⟨root, before ++ [part]⟩ = .ok place := by
  have hfound : w.walk (base ⟨root, before⟩) before = .ok (Path.place ⟨root, before⟩) := h.found
  have hlocate : w.locate ⟨root, before ++ [part]⟩ = w.walk (Path.place ⟨root, before⟩) [part] := by
    show w.walk (base ⟨root, before⟩) (before ++ [part]) = _
    rw [walk_append, hfound]
    rfl
  rw [hlocate, walk, h.isOpen.entry]
  by_cases hup : part = ".."
  · exact ⟨_, by simp [hup, walk]; rfl⟩
  · have hsize := hpart.resolve_left hup
    exact ⟨_, by simp [hup, Nat.not_lt.mpr hsize, walk]; rfl⟩

private theorem unlessDirectory_exists {p : Path} {w : Workspace} (h : w.isDirectory p = .ok true) :
    makeDirectoriesFrom.unlessDirectory p .exists w = (.ok (), w) := by
  simp only [makeDirectoriesFrom.unlessDirectory, Action.bind_run, Action.get_run, h]
  rfl

/-- The directories of a path that can be made are made. -/
theorem CanMake.makeDirectoriesFrom {root : String} {parts : List String} {w : Workspace}
    (h : w.CanMake ⟨root, parts.reverse⟩) :
    ∃ w', Workspace.makeDirectoriesFrom root parts w = (.ok (), w') := by
  induction parts generalizing w with
  | nil => exact ⟨w, rfl⟩
  | cons part before ih =>
    have hparts : (part :: before).reverse = before.reverse ++ [part] := List.reverse_cons
    have hbefore : w.CanMake ⟨root, before.reverse⟩ := h.of_prefix (hparts ▸ List.prefix_append _ _)
    simp only [Workspace.makeDirectoriesFrom, Action.bind_run, Action.get_run]
    rcases h.makeDirectory with ⟨w', hmake⟩ | ⟨hmake, hdir⟩ | ⟨hmake, -⟩
    · rw [hmake]
      exact ⟨w', rfl⟩
    · rw [hmake]
      exact ⟨w, unlessDirectory_exists hdir⟩
    -- Once the directories before it have been made, the last one can only be there already.
    · rw [hmake]
      obtain ⟨w₁, hrun⟩ := ih hbefore
      have hadds := makeDirectoriesFrom_adds root before w
      rw [hrun] at hadds
      obtain ⟨hfound, hdirectory⟩ := makeDirectoriesFrom_found hrun
      have hready : w₁.IsReady ⟨root, before.reverse⟩ :=
        ⟨hbefore.noNul, hfound, (locate_eq_ok hfound).2 hdirectory⟩
      obtain ⟨place, hplace⟩ := hready.exists_locate (h.names part (by simp))
      simp only [Action.bind_run, hrun, Action.get_run]
      rcases (h.of_adds hadds).makeDirectory with ⟨w', hmake'⟩ | ⟨hmake', hdir⟩ | ⟨-, hmissing⟩
      · rw [hmake']
        exact ⟨w', rfl⟩
      · rw [hmake']
        exact ⟨w₁, unlessDirectory_exists hdir⟩
      · rw [hparts, hplace] at hmissing
        cases hmissing

theorem CanMake.makeDirectories {p : Path} {w : Workspace} (h : w.CanMake p) :
    ∃ w', Workspace.makeDirectories p w = (.ok (), w') := by
  have hparts : w.CanMake ⟨p.root, p.parts.reverse.reverse⟩ := by rwa [List.reverse_reverse]
  rw [Workspace.makeDirectories, h.noNul]
  exact hparts.makeDirectoriesFrom

/-- Making directories changes nothing but the places on the way. -/
theorem makeDirectories_entry {p : Path} {place : Location} (hplace : ¬ p.IsOnWay place) (w : Workspace) :
    (Workspace.makeDirectories p w).2.entryAt? place = w.entryAt? place := by
  unfold Workspace.makeDirectories
  split_ifs
  · rfl
  · refine makeDirectoriesFrom_rel (R := fun w w' => w'.entryAt? place = w.entryAt? place)
      (fun _ => rfl) (fun h h' => h'.trans h) (fun before hbefore v v' hmake => ?_) w
    obtain ⟨-, -, rfl⟩ := makeDirectory_put hmake
    refine entryAt_put_ne v (fun h => hplace ⟨before, ?_, h⟩) _
    rwa [List.reverse_reverse] at hbefore

/-! ### Files in directories that are made -/

/-- Whether a file can be written at a path, the directories on the way being made if they are missing. -/
def IsWritable (w : Workspace) (p : Path) : Prop :=
  ∃ w', Workspace.makeDirectories p.parent w = (.ok (), w') ∧ w'.IsFree p

theorem walk_names {w : Workspace} {place d : Location} {parts : List String}
    (h : w.walk place parts = .ok d) : ∀ part ∈ parts, part = ".." ∨ part.utf8ByteSize ≤ nameLimit := by
  induction parts generalizing place with
  | nil => simp
  | cons part more ih =>
    obtain ⟨hdir, hnext⟩ := walk_cons_eq_ok h
    refine List.forall_mem_cons.mpr ⟨?_, ih hnext⟩
    by_cases hup : part = ".."
    · exact Or.inl hup
    · refine Or.inr (Nat.not_lt.mp fun hlong => ?_)
      simp [walk, hdir, hup, hlong] at h

/-- On the way to a directory there are only directories. -/
theorem walk_way {w : Workspace} {place d : Location} {parts before : List String}
    (h : w.walk place parts = .ok d) (hend : w.entryAt? d = some .directory) (hbefore : before <+: parts) :
    w.entryAt? (before.foldl step place) = some .directory := by
  induction parts generalizing place before with
  | nil =>
    cases h
    rw [List.prefix_nil.mp hbefore]
    exact hend
  | cons part more ih =>
    obtain ⟨hdir, hnext⟩ := walk_cons_eq_ok h
    cases before with
    | nil => exact hdir
    | cons first others =>
      obtain ⟨rfl, hothers⟩ := List.cons_prefix_cons.mp hbefore
      rw [List.foldl_cons]
      exact ih hnext hothers

theorem IsReady.way {w : Workspace} {p : Path} (h : w.IsReady p) {place : Location}
    (hplace : p.IsOnWay place) : w.entryAt? place = some .directory := by
  obtain ⟨before, hbefore, rfl⟩ := hplace
  exact walk_way h.found h.isOpen.entry hbefore

/-- Only directories that can be made are made. -/
theorem canMake_of_makeDirectories {w w' : Workspace} {p : Path}
    (h : Workspace.makeDirectories p w = (.ok (), w')) : w.CanMake p := by
  have hready := makeDirectories_ready h
  have hadds := makeDirectories_adds p w
  rw [h] at hadds
  refine ⟨hready.noNul, walk_names hready.found, fun place hplace => ?_⟩
  rw [← hadds.contentAt place, contentAt?, hready.way hplace]

/-- A path at which a file can be put is that of a name in its directory. -/
theorem IsFree.eq_child {w : Workspace} {p : Path} (hparent : w.IsReady p.parent) (h : w.IsFree p) :
    ∃ name, p = p.parent.child name := by
  obtain ⟨root, parts⟩ := p
  rcases parts.eq_nil_or_concat with rfl | ⟨before, name, hconcat⟩
  · exact absurd hparent.isOpen.entry h.entry
  · refine ⟨name, ?_⟩
    rw [List.concat_eq_append] at hconcat
    rw [Path.parent, Path.child, hconcat, List.dropLast_concat]

end Workspace

end ReviewGate

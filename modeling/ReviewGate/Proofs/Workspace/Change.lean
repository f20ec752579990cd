import ReviewGate.Proofs.Action
import ReviewGate.Proofs.Workspace.Walk

/-! How the file operations change a workspace: a write puts a file where no directory is, a deletion
takes away what is at a place and below it, and making directories puts them where nothing is. -/
namespace ReviewGate.Workspace

/-! ### Files -/

theorem refused_eq_ok {α : Type} {p : Path} {x : Except StorageProblem α} {a : α} :
    refused p x = .ok a ↔ x = .ok a := by
  cases x <;> simp [refused]

theorem write_eq_ok {w w' : Workspace} {p : Path} {content : List UInt8}
    (h : w.write p content = .ok w') :
    ∃ place, w.locate p = .ok place ∧ w.entryAt? place ≠ some .directory ∧
      w' = w.put place (.file content) := by
  unfold write at h
  split_ifs at h with hnul
  obtain ⟨place, hplace, h⟩ := Action.except_bind_eq_ok.mp (refused_eq_ok.mp h)
  refine ⟨place, hplace, ?_⟩
  rcases hentry : w.entryAt? place with _ | _ | old <;> simp_all

theorem grows_put {w : Workspace} {place : Location} (h : w.entryAt? place ≠ some .directory)
    (e : Entry) : w.Grows (w.put place e) := by
  refine grows_of_entryAt fun q hq => ?_
  have hne : q ≠ place := by
    rintro rfl
    exact h hq
  rw [entryAt_put_ne w hne e, hq]

theorem read_eq_ok {w : Workspace} {p : Path} {content : List UInt8} (h : w.read p = .ok content) :
    ∃ place, w.locate p = .ok place ∧ w.entryAt? place = some (.file content) := by
  unfold read at h
  split_ifs at h with hnul
  obtain ⟨place, hplace, h⟩ := Action.except_bind_eq_ok.mp (refused_eq_ok.mp h)
  refine ⟨place, hplace, ?_⟩
  rcases hentry : w.entryAt? place with _ | _ | old <;> simp_all

/-- Whether a path leads to a place where a file can be put. -/
structure IsFree (w : Workspace) (p : Path) : Prop where
  noNul : p.hasNul = false
  found : w.locate p = .ok p.place
  entry : w.entryAt? p.place ≠ some .directory

theorem IsFree.write {w : Workspace} {p : Path} (h : w.IsFree p) (content : List UInt8) :
    w.write p content = .ok (w.put p.place (.file content)) := by
  have hentry := h.entry
  simp only [Workspace.write, h.noNul, h.found, refused, bind, Except.bind, Bool.false_eq_true, if_false]

theorem isFree_of_write {w w' : Workspace} {p : Path} {content : List UInt8}
    (h : w.write p content = .ok w') : w.IsFree p := by
  obtain ⟨place, hplace, hentry, -⟩ := write_eq_ok h
  obtain ⟨rfl, -⟩ := locate_eq_ok hplace
  refine ⟨?_, hplace, hentry⟩
  unfold Workspace.write at h
  split_ifs at h with hnul
  simpa using hnul

theorem isFree_of_read {w : Workspace} {p : Path} {content : List UInt8}
    (h : w.read p = .ok content) : w.IsFree p := by
  obtain ⟨place, hplace, hentry⟩ := read_eq_ok h
  obtain ⟨rfl, -⟩ := locate_eq_ok hplace
  refine ⟨?_, hplace, by simp [hentry]⟩
  unfold read at h
  split_ifs at h with hnul
  simpa using hnul

/-- What has been written to a file is read from it. -/
theorem read_write {w w' : Workspace} {p : Path} {content : List UInt8}
    (h : w.write p content = .ok w') : w'.read p = .ok content := by
  have hfree := isFree_of_write h
  rw [hfree.write] at h
  obtain rfl := Except.ok.inj h
  have hfound : (w.put p.place (.file content)).locate p = .ok p.place :=
    (grows_put hfree.entry _).walk (isOpen_base w p) hfree.found
  simp [read, hfree.noNul, hfound, entryAt_put_self hfree.entry, refused, bind, Except.bind]

theorem isFile_of_read {w : Workspace} {p : Path} {content : List UInt8} (h : w.read p = .ok content) :
    w.isFile p = .ok true := by
  obtain ⟨place, hplace, hentry⟩ := read_eq_ok h
  unfold read at h
  split_ifs at h with hnul
  simp [isFile, status, hnul, hplace, hentry, Except.map]

private theorem lookup_filter (place q : Location) (entries : List (Location × Entry)) :
    lookup q (entries.filter fun (r, _) => !place.isPrefixOf r) =
      if place <+: q then none else lookup q entries := by
  induction entries with
  | nil => simp [lookup]
  | cons entry entries ih =>
    obtain ⟨r, e⟩ := entry
    have hbelow : place.isPrefixOf r = decide (place <+: r) := by
      rw [Bool.eq_iff_iff]
      simp
    by_cases hr : place <+: r
    · rw [List.filter_cons_of_neg (by simp [hbelow, hr]), ih, lookup]
      by_cases hq : r = q
      · subst hq
        simp [hr]
      · simp [hq]
    · rw [List.filter_cons_of_pos (by simp [hbelow, hr]), lookup, ih, lookup]
      by_cases hq : r = q
      · subst hq
        simp [hr]
      · simp [hq]

/-- A deletion takes away what is listed at a place or below it. -/
theorem delete_eq_filter {w w' : Workspace} {p : Path} (h : w.delete p = .ok w') :
    ∃ place, w.locate p = .ok place ∧ w' = ⟨w.entries.filter fun (q, _) => !place.isPrefixOf q⟩ := by
  obtain ⟨place, hplace, h⟩ := Action.except_bind_eq_ok.mp (refused_eq_ok.mp h)
  refine ⟨place, hplace, ?_⟩
  rcases hentry : w.entryAt? place with _ | e <;> simp_all

/-- Deleting a file leaves everything that is not at its place or below it. -/
theorem delete_eq_ok {w w' : Workspace} {p : Path} (h : w.delete p = .ok w') :
    ∃ place, w.locate p = .ok place ∧
      (∀ q, ¬ place <+: q → w'.entryAt? q = w.entryAt? q) ∧
      (∀ q, place <+: q → w'.contentAt? q = none) ∧
      ∀ q, w.entryAt? q ≠ some .directory → w'.entryAt? q ≠ some .directory := by
  obtain ⟨place, hplace, rfl⟩ := delete_eq_filter h
  refine ⟨place, hplace, fun q hq => ?_, fun q hq => ?_, fun q hne => ?_⟩
  · simp [entryAt?, lookup_filter, hq]
  · cases hfixed : isFixed q <;> simp [contentAt?, entryAt?, lookup_filter, hq, hfixed]
  · by_cases hq : place <+: q <;> cases hfixed : isFixed q <;> simp_all [entryAt?, lookup_filter]

/-! ### Directories -/

/-- Whether all that has been added to a workspace are directories. -/
def AddsDirectories (w w' : Workspace) : Prop :=
  ∀ place, w'.entryAt? place = w.entryAt? place ∨
    (w.entryAt? place = none ∧ w'.entryAt? place = some .directory)

theorem AddsDirectories.refl (w : Workspace) : w.AddsDirectories w :=
  fun _ => Or.inl rfl

theorem AddsDirectories.trans {w w' w'' : Workspace} (h : w.AddsDirectories w')
    (h' : w'.AddsDirectories w'') : w.AddsDirectories w'' := by
  intro place
  rcases h place with hsame | ⟨hnone, hdir⟩ <;> rcases h' place with hsame' | ⟨hnone', hdir'⟩
  · exact Or.inl (hsame'.trans hsame)
  · exact Or.inr ⟨hsame ▸ hnone', hdir'⟩
  · exact Or.inr ⟨hnone, hsame'.trans hdir⟩
  · exact Or.inr ⟨hnone, hdir'⟩

theorem AddsDirectories.grows {w w' : Workspace} (h : w.AddsDirectories w') : w.Grows w' := by
  refine grows_of_entryAt fun place hplace => ?_
  rcases h place with hsame | ⟨-, hdir⟩
  · rw [hsame, hplace]
  · exact hdir

/-- No file comes or goes when directories are added. -/
theorem AddsDirectories.contentAt {w w' : Workspace} (h : w.AddsDirectories w') (place : Location) :
    w'.contentAt? place = w.contentAt? place := by
  unfold contentAt?
  rcases h place with hsame | ⟨hnone, hdir⟩
  · rw [hsame]
  · rw [hnone, hdir]

theorem makeDirectory_put {w w' : Workspace} {p : Path} (h : w.makeDirectory p = .ok w') :
    w.locate p = .ok p.place ∧ w.entryAt? p.place = none ∧ w' = w.put p.place .directory := by
  unfold makeDirectory at h
  rcases hplace : w.locate p with problem | place
  · simp [hplace, bind, Except.bind] at h
  · obtain ⟨rfl, -⟩ := locate_eq_ok hplace
    simp only [hplace, bind, Except.bind] at h
    rcases hentry : w.entryAt? p.place with _ | e
    · simp only [hentry, Except.ok.injEq] at h
      exact ⟨rfl, rfl, h.symm⟩
    · simp [hentry] at h

theorem makeDirectory_eq_ok {w w' : Workspace} {p : Path} (h : w.makeDirectory p = .ok w') :
    w.AddsDirectories w' ∧ w'.locate p = .ok p.place ∧ w'.entryAt? p.place = some .directory := by
  obtain ⟨hplace, hentry, rfl⟩ := makeDirectory_put h
  have hdir : (w.put p.place .directory).entryAt? p.place = some .directory :=
    entryAt_put_self (by simp [hentry]) _
  have hadds : w.AddsDirectories (w.put p.place .directory) := by
    intro q
    by_cases hq : q = p.place
    · subst hq
      exact Or.inr ⟨hentry, hdir⟩
    · exact Or.inl (entryAt_put_ne w hq _)
  exact ⟨hadds, hadds.grows.walk (isOpen_base w p) hplace, hdir⟩

private theorem unlessDirectory_state (p : Path) (problem : StorageProblem) (w : Workspace) :
    (makeDirectoriesFrom.unlessDirectory p problem w).2 = w := by
  unfold makeDirectoriesFrom.unlessDirectory
  cases problem
  case missing => rfl
  all_goals
    simp only [Action.bind_run, Action.get_run]
    rcases w.isDirectory p with e | _ | _ <;> rfl

private theorem unlessDirectory_ok {p : Path} {problem : StorageProblem} {w w' : Workspace}
    (h : makeDirectoriesFrom.unlessDirectory p problem w = (.ok (), w')) :
    w' = w ∧ w.isDirectory p = .ok true := by
  have hstate := unlessDirectory_state p problem w
  rw [h] at hstate
  refine ⟨hstate, ?_⟩
  unfold makeDirectoriesFrom.unlessDirectory at h
  cases problem
  case missing => cases h
  all_goals
    simp only [Action.bind_run, Action.get_run] at h
    rcases hdir : w.isDirectory p with e | _ | _
    · rw [hdir] at h
      cases h
    · rw [hdir] at h
      cases h
    · rfl

/-- What holds of a workspace before and after one directory on the way has been made holds of making all
of them, whether that succeeds or not. -/
theorem makeDirectoriesFrom_rel {R : Workspace → Workspace → Prop} (hrefl : ∀ w, R w w)
    (htrans : ∀ {w w' w''}, R w w' → R w' w'' → R w w'') {root : String} {parts : List String}
    (hmake : ∀ before, before <+: parts.reverse → ∀ w w' : Workspace,
      w.makeDirectory ⟨root, before⟩ = .ok w' → R w w') (w : Workspace) :
    R w (makeDirectoriesFrom root parts w).2 := by
  induction parts generalizing w with
  | nil => exact hrefl w
  | cons part before ih =>
    have hlast := hmake _ (List.prefix_refl _)
    have hbefore := ih (fun first hfirst => hmake first (hfirst.trans (by simp))) w
    unfold makeDirectoriesFrom
    simp only [Action.bind_run, Action.get_run]
    rcases hrun : w.makeDirectory ⟨root, (part :: before).reverse⟩ with problem | w'
    · cases problem
      case missing =>
        simp only [Action.bind_run]
        rcases hrun : makeDirectoriesFrom root before w with ⟨e | _, w₁⟩ <;> rw [hrun] at hbefore
        · exact hbefore
        · simp only [Action.get_run]
          rcases hrun' : w₁.makeDirectory ⟨root, (part :: before).reverse⟩ with problem | w'
          · dsimp only
            rw [unlessDirectory_state]
            exact hbefore
          · exact htrans hbefore (hlast _ _ hrun')
      all_goals
        dsimp only
        rw [unlessDirectory_state]
        exact hrefl w
    · exact hlast _ _ hrun

/-- Making directories adds nothing else, whether it succeeds or not. -/
theorem makeDirectoriesFrom_adds (root : String) (parts : List String) (w : Workspace) :
    w.AddsDirectories (makeDirectoriesFrom root parts w).2 :=
  makeDirectoriesFrom_rel .refl .trans (fun _ _ _ _ h => (makeDirectory_eq_ok h).1) w

/-- When directories have been made, a path leads to the last of them. -/
theorem makeDirectoriesFrom_found {root : String} {parts : List String} {w w' : Workspace}
    (h : makeDirectoriesFrom root parts w = (.ok (), w')) :
    w'.locate ⟨root, parts.reverse⟩ = .ok (Path.place ⟨root, parts.reverse⟩) ∧
      w'.entryAt? (Path.place ⟨root, parts.reverse⟩) = some .directory := by
  have hthere : ∀ {p : Path} {v : Workspace}, v.isDirectory p = .ok true →
      v.locate p = .ok p.place ∧ v.entryAt? p.place = some .directory := by
    intro p v hdir
    have hready := isReady_of_isDirectory hdir
    exact ⟨hready.found, hready.isOpen.entry⟩
  cases parts with
  | nil => exact ⟨rfl, (isOpen_base w' ⟨root, []⟩).entry⟩
  | cons part before =>
    unfold makeDirectoriesFrom at h
    simp only [Action.bind_run, Action.get_run] at h
    rcases hmake : w.makeDirectory ⟨root, (part :: before).reverse⟩ with problem | w₁
    · rw [hmake] at h
      cases problem
      case missing =>
        simp only [Action.bind_run] at h
        rcases hrun : makeDirectoriesFrom root before w with ⟨e | _, w₂⟩
        · rw [hrun] at h
          cases h
        · rw [hrun] at h
          simp only [Action.get_run] at h
          rcases hmake' : w₂.makeDirectory ⟨root, (part :: before).reverse⟩ with problem | w₃
          · rw [hmake'] at h
            obtain ⟨rfl, hdir⟩ := unlessDirectory_ok h
            exact hthere hdir
          · rw [hmake'] at h
            cases h
            exact (makeDirectory_eq_ok hmake').2
      all_goals
        obtain ⟨rfl, hdir⟩ := unlessDirectory_ok h
        exact hthere hdir
    · rw [hmake] at h
      cases h
      exact (makeDirectory_eq_ok hmake).2

theorem makeDirectories_adds (p : Path) (w : Workspace) :
    w.AddsDirectories (makeDirectories p w).2 := by
  unfold makeDirectories
  split_ifs
  · exact .refl w
  · exact makeDirectoriesFrom_adds p.root p.parts.reverse w

/-- When the directories of a path have been made, the path is ready. -/
theorem makeDirectories_ready {p : Path} {w w' : Workspace} (h : makeDirectories p w = (.ok (), w')) :
    w'.IsReady p := by
  unfold makeDirectories at h
  split_ifs at h with hnul
  · cases h
  · obtain ⟨hfound, hdir⟩ := makeDirectoriesFrom_found h
    rw [List.reverse_reverse] at hfound hdir
    exact ⟨by simpa using hnul, hfound, (locate_eq_ok hfound).2 hdir⟩

end ReviewGate.Workspace

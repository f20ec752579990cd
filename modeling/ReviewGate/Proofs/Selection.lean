import Mathlib.Data.List.Basic
import ReviewGate.Proofs.ChangedPaths
import ReviewGate.Proofs.LineNumbers
import ReviewGate.Proofs.Logged

/-! The paths that are selected, and the files that are loaded of them. What is selected depends on which
paths are given alone, not on their order or number, and a selection is selected as it is. Each selected file
is loaded once, in the order of the paths, whatever becomes of the others. -/
namespace ReviewGate

namespace Text

variable {c : Char} {cs : List Char}

theorem dropBlankEnd_eq_nil : dropBlankEnd cs = [] ↔ cs.all isBlank = true := by
  induction cs with
  | nil => simp [dropBlankEnd]
  | cons c cs ih =>
    rw [dropBlankEnd, List.all_cons, Bool.and_eq_true, ← ih]
    rcases dropBlankEnd cs with _ | ⟨d, kept⟩
    · cases hc : isBlank c <;> simp
    · simp

/-- Nothing is left of a text without its blanks if it is blank, and only then. -/
theorem strip_eq_empty {s : String} : strip s = "" ↔ isBlankText s = true := by
  have hdrop : (dropBlankStart s.toList).all isBlank = s.toList.all isBlank := by
    unfold dropBlankStart
    induction s.toList with
    | nil => rfl
    | cons c cs ih => cases hc : isBlank c <;> simp [hc, ih]
  rw [strip, String.ofList_eq_empty_iff, stripChars, dropBlankEnd_eq_nil, hdrop, isBlankText]

theorem mem_of_mem_pieces {separator : Char} {piece : List Char} (hpiece : piece ∈ pieces separator cs)
    (hc : c ∈ piece) : c ∈ cs := by
  induction cs generalizing piece with
  | nil =>
    rw [pieces, List.mem_singleton] at hpiece
    exact absurd hc (hpiece ▸ List.not_mem_nil)
  | cons d cs ih =>
    rw [pieces] at hpiece
    split_ifs at hpiece with hd
    · rcases List.mem_cons.mp hpiece with rfl | hmore
      · cases hc
      · exact List.mem_cons_of_mem _ (ih hmore hc)
    · rcases hpieces : pieces separator cs with _ | ⟨first, more⟩
      all_goals rw [hpieces] at hpiece ih
      · rw [List.mem_singleton.mp hpiece, List.mem_singleton] at hc
        exact hc ▸ List.mem_cons_self
      · rcases List.mem_cons.mp hpiece with rfl | hmore
        · rcases List.mem_cons.mp hc with rfl | hc
          · exact List.mem_cons_self
          · exact List.mem_cons_of_mem _ (ih List.mem_cons_self hc)
        · exact List.mem_cons_of_mem _ (ih (List.mem_cons_of_mem _ hmore) hc)

end Text

/-- A path that a text is read as holds no null character if the text holds none. -/
theorem Path.hasNul_ofText {s : String} (h : '\x00' ∉ s.toList) : (ofText s).hasNul = false := by
  rw [hasNul, List.any_eq_false]
  intro part hpart hnul
  obtain ⟨piece, hpiece, rfl⟩ := List.mem_map.mp hpart
  rw [String.toList_ofList, List.contains_iff_mem] at hnul
  exact h (Text.mem_of_mem_pieces (List.mem_filter.mp hpiece).1 hnul)

theorem Path.hasNul_follow {p : Path} (hp : p.hasNul = false) {s : String} (h : '\x00' ∉ s.toList) :
    (p.follow s).hasNul = false := by
  have htext := hasNul_ofText h
  unfold follow
  dsimp only
  split_ifs
  · rw [hasNul] at hp htext ⊢
    rw [List.any_append, hp, htext]
    rfl
  · exact htext

namespace Workspace

variable {w w' : Workspace} {p : Path} {touched : Location → Prop}

/-- The only faults of reading are those of the file system, if a path holds no null character. -/
theorem isStorage_of_read {e : Fault} (hnul : p.hasNul = false) (h : w.read p = .error e) :
    e.isStorage = true := by
  simp only [Workspace.read, hnul, Bool.false_eq_true, if_false] at h
  unfold refused at h
  split at h
  · cases h
  · cases h
    rfl

/-- A file at a place that has not been touched is read as before, and is unreadable as before. -/
theorem SameBut.toOption_read (hsame : w.SameBut touched w') (hspared : ¬ touched p.place) :
    (w'.read p).toOption = (w.read p).toOption := by
  rcases hread : w.read p with e | content
  · rcases hread' : w'.read p with e' | content'
    · rfl
    -- No directory has come up, so the walk to a file leads there from the start.
    · have hfree := isFree_of_read hread'
      have hgrows : w'.Grows w := grows_of_entryAt fun place hplace =>
        by_contra fun hnone => hsame.noDirectory place hnone hplace
      have hfound : w.locate p = .ok p.place := hgrows.walk (isOpen_base w' p) hfree.found
      have hcontent : w'.contentAt? p.place = some content' := by
        obtain ⟨place, hplace, hentry⟩ := read_eq_ok hread'
        obtain ⟨rfl, -⟩ := locate_eq_ok hplace
        exact contentAt_eq_some.mpr hentry
      rcases hold : w.contentAt? p.place with _ | old
      · rw [hsame.vacant _ hspared hold] at hcontent
        cases hcontent
      · have hentry := contentAt_eq_some.mp hold
        simp [Workspace.read, hfree.noNul, hfound, hentry, refused, bind, Except.bind] at hread
  · rw [hsame.read hread hspared]

end Workspace

namespace Checkout

open Text

/-! ### Selecting -/

/-- Whether a list holds the paths of interest among the given ones, without the blanks around them, in
ascending order. -/
structure IsSelection (extensions paths selected : List String) : Prop where
  ascending : selected.Pairwise (· < ·)
  exact : ∀ q, q ∈ selected ↔
    ∃ path ∈ paths, isBlankText path = false ∧ strip path = q ∧
      ∃ extension ∈ extensions, (ending extension).toList <:+ (lower q).toList

theorem isSelection_select (root : Path) (extensions paths : List String) :
    IsSelection extensions paths (select ⟨root, extensions.map ending⟩ paths) := by
  refine ⟨ascending_pairwise _, fun q => ?_⟩
  rw [mem_select, isRelevant_iff]
  simp only [List.mem_map, exists_exists_and_eq_and]
  constructor
  · rintro ⟨hempty, hextension, path, hpath, rfl⟩
    refine ⟨path, hpath, ?_, rfl, hextension⟩
    exact Bool.eq_false_iff.mpr fun hblank => hempty (strip_eq_empty.mpr hblank)
  · rintro ⟨path, hpath, hblank, rfl, hextension⟩
    refine ⟨fun hempty => ?_, hextension, path, hpath, rfl⟩
    rw [strip_eq_empty.mp hempty] at hblank
    cases hblank

/-- What is selected depends on which paths are given, not on their order or on how often they are. -/
theorem select_congr {c : Checkout} {paths others : List String} (h : ∀ p, p ∈ others ↔ p ∈ paths) :
    c.select others = c.select paths := by
  refine ascending_eq (ascending_pairwise _) fun q => ?_
  simp only [select, mem_ascending, List.mem_filter, List.mem_map, h]

/-- A selection is selected as it is. -/
theorem select_idem (c : Checkout) (paths : List String) : c.select (c.select paths) = c.select paths := by
  refine ascending_eq (ascending_pairwise _) fun q => ?_
  rw [← mem_ascending]
  show q ∈ c.select (c.select paths) ↔ q ∈ c.select paths
  rw [mem_select]
  constructor
  · rintro ⟨hempty, hrelevant, p, hp, rfl⟩
    obtain ⟨-, -, path, hpath, rfl⟩ := mem_select.mp hp
    rw [strip_idem] at hempty hrelevant ⊢
    exact mem_select.mpr ⟨hempty, hrelevant, path, hpath, rfl⟩
  · intro hq
    obtain ⟨hempty, hrelevant, path, hpath, hstrip⟩ := mem_select.mp hq
    exact ⟨hempty, hrelevant, q, hq, by rw [← hstrip, strip_idem]⟩

/-! ### Loading -/

/-- What is read of the file at a path: the path and the lines, unless the file cannot be read. -/
def reading? (c : Checkout) (w : Workspace) (path : String) : Option (String × List String) :=
  (w.read (c.root.follow path)).toOption.map fun content => (path, ChangedFile.linesOfBytes content)

/-- Whether this is read of the files at paths, each of them read once, in their order, on a machine on which
nothing but the log has been written meanwhile. -/
inductive Reads (c : Checkout) (s : Runner) : List String → List (String × List String) → Prop where
  | nil : Reads c s [] []
  | cons {u : Runner} {path : String} {paths : List String} {readings : List (String × List String)} :
      s.OnlyLogs u → Reads c s paths readings →
        Reads c s (path :: paths) ((c.reading? u.workspace path).toList ++ readings)

variable {c : Checkout} {s t : Runner} {path : String} {paths : List String}
  {readings : List (String × List String)}

theorem Reads.mono (hlogs : s.OnlyLogs t) (h : c.Reads t paths readings) : c.Reads s paths readings := by
  induction h with
  | nil => exact .nil
  | cons hu _ ih => exact .cons (Runner.OnlyLogs.isCalm.trans hlogs hu) ih

theorem Reads.sublist (h : c.Reads s paths readings) : (readings.map Prod.fst).Sublist paths := by
  induction h with
  | nil => exact .slnil
  | @cons u path paths readings _ _ ih =>
    rw [reading?]
    rcases (u.workspace.read (c.root.follow path)).toOption with _ | content
    · exact ih.cons path
    · exact ih.cons_cons path

/-- A file that the log does not touch is read as it was at the start. -/
theorem reading_onlyLogs (hlogs : s.OnlyLogs t) (hspared : ¬ s.journal.Touches (c.root.follow path).place) :
    c.reading? t.workspace path = c.reading? s.workspace path := by
  rw [reading?, hlogs.files.toOption_read hspared, reading?]

theorem Reads.eq_filterMap (h : c.Reads s paths readings)
    (hspared : ∀ q ∈ paths, ¬ s.journal.Touches (c.root.follow q).place) :
    readings = paths.filterMap (c.reading? s.workspace) := by
  induction h with
  | nil => rfl
  | @cons u path paths readings hu _ ih =>
    obtain ⟨hpath, hmore⟩ := List.forall_mem_cons.mp hspared
    rw [ih hmore, reading_onlyLogs hu hpath, List.filterMap_cons]
    cases c.reading? s.workspace path <;> rfl

/-- Whether a path can be that of a file in a checkout. -/
structure IsLoadable (c : Checkout) (path : String) : Prop where
  noNul : (c.root.follow path).hasNul = false
  given : isBlankText path = false

/-- A changed file as what was read of it. -/
abbrev readingOf (file : ChangedFile) : String × List String :=
  (file.path, file.lines)

theorem loadFile_reads (h : c.IsLoadable path) (s : Runner) :
    ∃ file t, c.loadFile path s = (.ok file, t) ∧ s.OnlyLogs t ∧
      file.map readingOf = c.reading? s.workspace path := by
  have hrun : ∃ file t, c.loadFile path s = (.ok file, t) ∧
      file.map readingOf = c.reading? s.workspace path := by
    rw [loadFile, Action.bind_run, Job.catching_run, Job.readFile_run, reading?]
    rcases hread : s.workspace.read (c.root.follow path) with e | content
    · obtain ⟨errors, w, hlog, -⟩ := Job.log_run .warning source
        ("Skipping unreadable file " ++ path ++ ": " ++ e.message) s
      simp only [Workspace.isStorage_of_read h.noNul hread, if_true, Action.bind_run_ok hlog]
      exact ⟨none, _, rfl, rfl⟩
    · obtain ⟨errors, w, hlog, -⟩ := Job.log_run .debug source
        ("Loaded " ++ path ++ " (" ++ toString (Utf8.decodeLossy content).length ++ " chars)") s
      dsimp only
      rw [Action.bind_run_ok hlog, Action.bind_run, Job.ofExcept_run, fileOf_eq_ok h.given content]
      exact ⟨some _, _, rfl, rfl⟩
  obtain ⟨file, t, hload, hfile⟩ := hrun
  have honly := ((c.loadFile_effects path).keeps_of_quiet Runner.OnlyLogs.isCalm).of_run hload
  exact ⟨file, t, hload, honly, hfile⟩

theorem loadFiles_reads (h : ∀ q ∈ paths, c.IsLoadable q) (s : Runner) :
    ∃ files t, c.loadFiles paths s = (.ok files, t) ∧ c.Reads s paths (files.map readingOf) := by
  induction paths generalizing s with
  | nil => exact ⟨[], s, rfl, .nil⟩
  | cons path paths ih =>
    obtain ⟨hpath, hpaths⟩ := List.forall_mem_cons.mp h
    obtain ⟨file, u, hload, hlogs, hfile⟩ := loadFile_reads hpath s
    obtain ⟨files, t, hmore, hreads⟩ := ih hpaths u
    refine ⟨file.toList ++ files, t, ?_, ?_⟩
    · rw [loadFiles, Action.bind_run_ok hload, Action.bind_run_ok hmore]
      rfl
    · have hall : c.Reads s (path :: paths)
          ((c.reading? s.workspace path).toList ++ files.map readingOf) :=
        .cons (Runner.OnlyLogs.isCalm.refl s) (hreads.mono hlogs)
      rw [← hfile] at hall
      cases file <;> simpa using hall

theorem readingOf_injective : Function.Injective readingOf := by
  rintro ⟨path, lines, _⟩ ⟨path', lines', _⟩ hsame
  obtain ⟨rfl, rfl⟩ := Prod.ext_iff.mp hsame
  rfl

/-- Files that the log does not touch are loaded as they were at the start, and one that cannot be read
might as well not be there. -/
theorem loadFiles_spared (h : ∀ q ∈ paths, c.IsLoadable q)
    (hspared : ∀ q ∈ paths, ¬ s.journal.Touches (c.root.follow q).place) {files : List ChangedFile}
    (hload : c.loadFiles paths s = (.ok files, t)) :
    files.map readingOf = paths.filterMap (c.reading? s.workspace) ∧
      ∀ q, c.reading? s.workspace q = none →
        ∃ t', c.loadFiles (paths.filter (· != q)) s = (.ok files, t') := by
  have hexact : ∀ {paths files t}, (∀ q ∈ paths, c.IsLoadable q) →
      (∀ q ∈ paths, ¬ s.journal.Touches (c.root.follow q).place) →
      c.loadFiles paths s = (.ok files, t) →
        files.map readingOf = paths.filterMap (c.reading? s.workspace) := by
    intro paths files t h hspared hload
    obtain ⟨found, u, hrun, hreads⟩ := loadFiles_reads h s
    rw [hload] at hrun
    cases hrun
    exact hreads.eq_filterMap hspared
  refine ⟨hexact h hspared hload, fun q hq => ?_⟩
  have hsub : ∀ p ∈ paths.filter (· != q), p ∈ paths := fun p hp => (List.mem_filter.mp hp).1
  obtain ⟨others, t', hrun, -⟩ := loadFiles_reads (fun p hp => h p (hsub p hp)) s
  have hothers := hexact (fun p hp => h p (hsub p hp)) (fun p hp => hspared p (hsub p hp)) hrun
  have hleft : (paths.filter (· != q)).filterMap (c.reading? s.workspace) =
      paths.filterMap (c.reading? s.workspace) := by
    rw [List.filterMap_filter]
    refine List.filterMap_congr fun p _ => ?_
    by_cases hp : p = q
    · simp [hp, hq]
    · simp [hp]
  have hsame : others = files := by
    refine List.map_injective_iff.mpr readingOf_injective ?_
    rw [hothers, hleft, hexact h hspared hload]
  exact ⟨t', hsame ▸ hrun⟩

theorem isLoadable_of_mem_select {root : String} {endings : List String} (hroot : '\x00' ∉ root.toList)
    (hpaths : ∀ path ∈ paths, '\x00' ∉ path.toList) {q : String}
    (hq : q ∈ select ⟨.ofText root, endings⟩ paths) : IsLoadable ⟨.ofText root, endings⟩ q := by
  obtain ⟨hempty, -, path, hpath, rfl⟩ := mem_select.mp hq
  constructor
  · refine Path.hasNul_follow (Path.hasNul_ofText hroot) fun hnul => hpaths path hpath ?_
    rw [strip, String.toList_ofList] at hnul
    exact mem_of_mem_stripChars hnul
  · refine Bool.eq_false_iff.mpr fun hblank => hempty ?_
    rwa [← strip_eq_empty, strip_idem] at hblank

/-- A checkout selects the paths of interest in ascending order, each of them once. The order and the number
of the given paths make no difference, and selecting again changes nothing. Loading what is selected reads
each file once, in that order. A file that the log does not touch is loaded as it is if it can be read, and
makes no difference to the others if it cannot. -/
theorem select_canonical (root : String) (extensions : List String) :
    ∃ c, make root (.list (extensions.map .str)) = .ok c ∧
      ∀ paths, IsSelection extensions paths (c.select paths) ∧
        (∀ others, (∀ p, p ∈ others ↔ p ∈ paths) → c.select others = c.select paths) ∧
        c.select (c.select paths) = c.select paths ∧
        ('\x00' ∉ root.toList → (∀ p ∈ paths, '\x00' ∉ p.toList) → ∀ s, ∃ files t,
          c.loadFiles (c.select paths) s = (.ok files, t) ∧
          c.Reads s (c.select paths) (files.map readingOf) ∧
          (files.map (·.path)).Sublist (c.select paths) ∧
          ((∀ q ∈ c.select paths, ¬ s.journal.Touches (c.root.follow q).place) →
            files.map readingOf = (c.select paths).filterMap (c.reading? s.workspace) ∧
            ∀ q, c.reading? s.workspace q = none →
              ∃ t', c.loadFiles ((c.select paths).filter (· != q)) s = (.ok files, t'))) := by
  refine ⟨_, make_texts root extensions, fun paths => ?_⟩
  refine ⟨isSelection_select _ extensions paths, fun others => select_congr, select_idem _ paths,
    fun hroot hpaths s => ?_⟩
  have hloadable : ∀ q ∈ select ⟨.ofText root, extensions.map ending⟩ paths,
      IsLoadable ⟨.ofText root, extensions.map ending⟩ q :=
    fun q => isLoadable_of_mem_select hroot hpaths
  obtain ⟨files, t, hload, hreads⟩ := loadFiles_reads hloadable s
  refine ⟨files, t, hload, hreads, ?_, fun hspared => loadFiles_spared hloadable hspared hload⟩
  simpa [Function.comp_def] using hreads.sublist

/-- A machine with one source file and a text file. -/
def oneSource : Runner :=
  { Runner.fresh 0 with
    workspace := ⟨[(["a.cs"], .file [0x78]), (["notes.md"], .file [0x79])]⟩ }

/-- One path is given twice and one is blank, the file of another one is missing, and two are of no
interest. -/
theorem select_canonical_oneSource :
    ∃ c, make "." (.list [.str "CS"]) = .ok c ∧
      c.select ["a.cs", " B.CS ", "", "notes.md", "a.cs"] = ["B.CS", "a.cs"] ∧
      c.select ["notes.md", "", "a.cs", " B.CS "] = ["B.CS", "a.cs"] ∧
      ∃ files t t', c.loadFiles ["B.CS", "a.cs"] oneSource = (.ok files, t) ∧
        files.map readingOf = [("a.cs", ["x"])] ∧ c.loadFiles ["a.cs"] oneSource = (.ok files, t') := by
  obtain ⟨c, hmake, hall⟩ := select_canonical "." ["CS"]
  cases hmake
  obtain ⟨-, hsame, -, hload⟩ := hall ["a.cs", " B.CS ", "", "notes.md", "a.cs"]
  have hselect : select ⟨.ofText ".", [".cs"]⟩ ["a.cs", " B.CS ", "", "notes.md", "a.cs"] =
      ["B.CS", "a.cs"] := by decide +kernel
  have hothers : ∀ p, p ∈ ["notes.md", "", "a.cs", " B.CS "] ↔
      p ∈ ["a.cs", " B.CS ", "", "notes.md", "a.cs"] := by
    intro p
    simp only [List.mem_cons, List.not_mem_nil, or_false]
    tauto
  have hselect' := hsame _ hothers
  obtain ⟨files, t, hrun, -, -, hspared⟩ := hload (by decide) (by decide) oneSource
  have huntouched : ∀ place, ¬ oneSource.journal.Touches place := by
    rintro place ⟨layout, f, hfile, -⟩
    cases hfile
  obtain ⟨hread, hleft⟩ := hspared fun q _ => huntouched _
  have hmissing : reading? ⟨.ofText ".", [".cs"]⟩ oneSource.workspace "B.CS" = none := by decide +kernel
  obtain ⟨t', hrun'⟩ := hleft "B.CS" hmissing
  refine ⟨_, rfl, hselect, hselect'.trans hselect, files, t, t', ?_, ?_, ?_⟩
  · rw [← hselect]
    exact hrun
  · rw [hread]
    exact (by decide +kernel : List.filterMap (reading? ⟨.ofText ".", [".cs"]⟩ oneSource.workspace)
      (select ⟨.ofText ".", [".cs"]⟩ ["a.cs", " B.CS ", "", "notes.md", "a.cs"]) = [("a.cs", ["x"])])
  · exact (by decide +kernel : (select ⟨.ofText ".", [".cs"]⟩
      ["a.cs", " B.CS ", "", "notes.md", "a.cs"]).filter (· != "B.CS") = ["a.cs"]) ▸ hrun'

end Checkout

end ReviewGate

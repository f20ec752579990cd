import ReviewGate.Proofs.Number.Integer
import ReviewGate.Proofs.Workspace.Change

/-! What logging does to the files: a log file and the numbered files that its content is moved on to
are all in one directory, so everything in other directories stays as it is. -/
namespace ReviewGate

namespace Workspace

/-- Whether all directories are still there, and what has a name in one of them is as it was, the given
places aside. Elsewhere no file comes up, no directory comes up anywhere, and no other places are
listed. -/
structure SameBut (touched : Location → Prop) (w w' : Workspace) : Prop where
  grows : w.Grows w'
  entry : ∀ place name, w.IsOpen place → ¬ touched (place ++ [name]) →
    w'.entryAt? (place ++ [name]) = w.entryAt? (place ++ [name])
  vacant : ∀ place, ¬ touched place → w.contentAt? place = none → w'.contentAt? place = none
  noDirectory : ∀ place, w.entryAt? place ≠ some .directory → w'.entryAt? place ≠ some .directory
  listed : ∀ place e, (place, e) ∈ w'.entries → touched place ∨ ∃ old, (place, old) ∈ w.entries

namespace SameBut

variable {touched touched' : Location → Prop} {w w' w'' : Workspace}

theorem refl (touched : Location → Prop) (w : Workspace) : w.SameBut touched w :=
  ⟨.refl w, fun _ _ _ _ => rfl, fun _ _ h => h, fun _ h => h, fun _ e h => Or.inr ⟨e, h⟩⟩

theorem trans (h : w.SameBut touched w') (h' : w'.SameBut touched w'') : w.SameBut touched w'' := by
  refine ⟨h.grows.trans h'.grows, fun place name hopen hne => ?_,
    fun place hne hnone => h'.vacant place hne (h.vacant place hne hnone),
    fun place hne => h'.noDirectory place (h.noDirectory place hne), fun place e hmem => ?_⟩
  · rw [h'.entry place name (h.grows place hopen) hne, h.entry place name hopen hne]
  · rcases h'.listed place e hmem with htouched | ⟨old, hold⟩
    · exact Or.inl htouched
    · exact h.listed place old hold

theorem mono (h : w.SameBut touched w') (himp : ∀ place, touched place → touched' place) :
    w.SameBut touched' w' :=
  ⟨h.grows, fun place name hopen hne => h.entry place name hopen fun ht => hne (himp _ ht),
    fun place hne => h.vacant place fun ht => hne (himp _ ht), h.noDirectory,
    fun place e hmem => (h.listed place e hmem).imp_left (himp place)⟩

end SameBut

/-- Whether all directories are still there and all that has a name in another directory than the
given one is as it was. Where nothing is, no file comes up, and no directory anywhere. -/
structure SameApartFrom (directory : Location) (w w' : Workspace) : Prop where
  grows : w.Grows w'
  entry : ∀ place, w.IsOpen place → place ≠ directory →
    ∀ name, w'.entryAt? (place ++ [name]) = w.entryAt? (place ++ [name])
  vacant : ∀ place, place ≠ directory → ∀ name, w.contentAt? (place ++ [name]) = none →
    w'.contentAt? (place ++ [name]) = none
  noDirectory : ∀ place, w.entryAt? place ≠ some .directory → w'.entryAt? place ≠ some .directory

theorem place_child {name : String} (hname : name ≠ "..") (p : Path) :
    (p.child name).place = p.place ++ [name] := by
  show (p.parts ++ [name]).foldl step (base p) = _
  rw [List.foldl_append]
  simp [Path.place, step, hname]

theorem write_ne_directory {w w' : Workspace} {p : Path} {content : List UInt8}
    (h : w.write p content = .ok w') {q : Location} (hq : w.entryAt? q ≠ some .directory) :
    w'.entryAt? q ≠ some .directory := by
  obtain ⟨place, -, hentry, rfl⟩ := write_eq_ok h
  by_cases heq : q = place
  · rw [heq, entryAt_put_self hentry]
    simp
  · rwa [entryAt_put_ne w heq]

theorem exists_mem_of_replace {place q : Location} {e e' : Entry} {entries : List (Location × Entry)}
    (h : (q, e') ∈ replace place e entries) : q = place ∨ (q, e') ∈ entries := by
  induction entries with
  | nil => exact Or.inl (Prod.ext_iff.mp (List.mem_singleton.mp h)).1
  | cons entry entries ih =>
    obtain ⟨p, old⟩ := entry
    rw [replace] at h
    split_ifs at h with hp
    · rcases List.mem_cons.mp h with heq | hmem
      · exact Or.inl ((Prod.ext_iff.mp heq).1.trans hp)
      · exact Or.inr (List.mem_cons_of_mem _ hmem)
    · rcases List.mem_cons.mp h with heq | hmem
      · exact Or.inr (heq ▸ List.mem_cons_self)
      · exact (ih hmem).imp_right (List.mem_cons_of_mem _)

theorem write_sameBut {w w' : Workspace} {p : Path} {content : List UInt8}
    (h : w.write p content = .ok w') : w.SameBut (· = p.place) w' := by
  have hwrite := h
  obtain ⟨place, hplace, hentry, rfl⟩ := write_eq_ok h
  obtain ⟨rfl, -⟩ := locate_eq_ok hplace
  refine ⟨grows_put hentry _, fun place name _ hne => entryAt_put_ne w hne _, fun q hne hnone => ?_,
    fun q hq => write_ne_directory hwrite hq, fun q e hmem => ?_⟩
  · rwa [contentAt?, entryAt_put_ne w hne]
  · exact (exists_mem_of_replace hmem).imp_right fun hold => ⟨e, hold⟩

theorem mem_of_delete {w w' : Workspace} {p : Path} (h : w.delete p = .ok w') {entry : Location × Entry}
    (hmem : entry ∈ w'.entries) : entry ∈ w.entries := by
  obtain ⟨place, -, rfl⟩ := delete_eq_filter h
  exact (List.mem_filter.mp hmem).1

theorem delete_sameBut {w w' : Workspace} {p : Path} (hfile : w.entryAt? p.place ≠ some .directory)
    (h : w.delete p = .ok w') : w.SameBut (· = p.place) w' := by
  have hdelete := h
  obtain ⟨place, hplace, hsame, hgone, hnone⟩ := delete_eq_ok h
  obtain ⟨rfl, -⟩ := locate_eq_ok hplace
  have hclear : ∀ q, w.IsOpen q → ¬ p.place <+: q := fun q hq hbelow => hfile (hq _ hbelow)
  refine ⟨fun q hq r hr => ?_, fun q name hq hne => hsame _ fun hbelow => ?_,
    fun q hne hcontent => ?_, hnone, fun q e hmem => Or.inr ⟨e, mem_of_delete hdelete hmem⟩⟩
  · rw [hsame r (hclear r (hq.of_prefix hr)), hq r hr]
  · rcases List.prefix_concat_iff.mp hbelow with heq | hbelow
    · exact hne heq.symm
    · exact hclear q hq hbelow
  · by_cases hbelow : p.place <+: q
    · exact hgone _ hbelow
    · rwa [contentAt?, hsame _ hbelow]

end Workspace

namespace LogFile

open Workspace

theorem read_of_content {w : Workspace} {p : Path} {content : List UInt8}
    (h : content? w p = some content) : w.read p = .ok content := by
  unfold content? at h
  rcases hr : w.read p with e | c
  · simp [hr, Except.toOption] at h
  · simpa [hr, Except.toOption] using h

theorem content_eq_some {w : Workspace} {p : Path} {content : List UInt8}
    (h : content? w p = some content) :
    w.locate p = .ok p.place ∧ w.entryAt? p.place = some (.file content) := by
  obtain ⟨place, hplace, hentry⟩ := read_eq_ok (read_of_content h)
  obtain ⟨rfl, -⟩ := locate_eq_ok hplace
  exact ⟨hplace, hentry⟩

/-- A path that leads to a file has a name at its end. -/
theorem exists_child_of_content {w : Workspace} {p : Path} {content : List UInt8}
    (h : content? w p = some content) :
    ∃ name, p = p.parent.child name ∧ name ≠ ".." ∧
      w.entryAt? (p.parent.place ++ [name]) = some (.file content) := by
  obtain ⟨hplace, hentry⟩ := content_eq_some h
  obtain ⟨root, parts⟩ := p
  rcases List.eq_nil_or_concat parts with rfl | ⟨before, name, rfl⟩
  · have hopen := (isOpen_base w ⟨root, []⟩).entry
    rw [show base ⟨root, []⟩ = Path.place ⟨root, []⟩ from rfl, hentry] at hopen
    cases hopen
  · rw [List.concat_eq_append] at *
    have hparent : Path.parent ⟨root, before ++ [name]⟩ = ⟨root, before⟩ := by simp [Path.parent]
    -- A step up leads to a directory, where no file can be read.
    have hup : name ≠ ".." := by
      rintro rfl
      have hwalk : w.walk (base ⟨root, before⟩) (before ++ [".."]) =
          .ok (Path.place ⟨root, before ++ [".."]⟩) := hplace
      obtain ⟨e, he, hdir⟩ := exists_walk_of_append hwalk
      have hopen := (locate_eq_ok (p := ⟨root, before⟩) he).2 hdir
      obtain ⟨rfl, -⟩ := locate_eq_ok (p := ⟨root, before⟩) he
      have hplace' : Path.place ⟨root, before ++ [".."]⟩ = up (Path.place ⟨root, before⟩) := by
        simp [Path.place, List.foldl_append, step, base]
      rw [hplace', (isOpen_up hopen).entry] at hentry
      cases hentry
    rw [hparent]
    refine ⟨name, rfl, hup, ?_⟩
    rw [← place_child hup]
    exact hentry

/-- The numbered files of a log file are in the same directory. -/
theorem numbered_child (p : Path) (name : String) (n : Nat) :
    numbered (p.child name) n = p.child (name ++ "." ++ toString n) := by
  simp [numbered, Path.child]

/-- Whether a name is not that of a numbered file, because it does not end in a digit. -/
def IsUnnumbered (name : String) : Prop :=
  ∀ c ∈ name.toList.getLast?, c.isDigit = false

theorem isUnnumbered_iff {name : String} :
    name.toList.getLast?.any Char.isDigit = false ↔ IsUnnumbered name := by
  unfold IsUnnumbered
  rcases name.toList.getLast? with _ | c <;> simp

instance (name : String) : Decidable (IsUnnumbered name) :=
  decidable_of_iff _ isUnnumbered_iff

theorem IsUnnumbered.ne {name : String} (h : IsUnnumbered name) (before : String) (n : Nat) :
    name ≠ before ++ "." ++ toString n := by
  rintro rfl
  have hlist : (before ++ "." ++ toString n).toList = (before.toList ++ ['.']) ++ Nat.toDigits 10 n := by
    simp [toString, Nat.repr]
  rcases List.eq_nil_or_concat (Nat.toDigits 10 n) with hnil | ⟨digits, d, hdigits⟩
  · exact Nat.toDigits_ne_nil hnil
  · have hd : d.isDigit = true := Number.isDigit_of_mem_toDigits (n := n) (by simp [hdigits])
    have hlast : d ∈ (before ++ "." ++ toString n).toList.getLast? := by
      rw [hlist, hdigits, List.concat_eq_append, ← List.append_assoc]
      exact List.getLast?_concat
    rw [h d hlast] at hd
    cases hd

theorem numbered_ne_up (name : String) (n : Nat) : name ++ "." ++ toString n ≠ ".." :=
  (IsUnnumbered.ne (by decide) name n).symm

/-- Whether a place is that of a log file or of one of its numbered files. -/
def Touches (f : LogFile) (place : Location) : Prop :=
  place = f.path.place ∨ ∃ n, place = (numbered f.path n).place

theorem move_sameBut (w : Workspace) (source target : Path) :
    w.SameBut (fun place => place = source.place ∨ place = target.place) (move w source target) := by
  unfold move
  rcases hcontent : content? w source with _ | content
  · exact .refl _ w
  · dsimp only
    rcases hwrite : w.write target content with e | w₁
    · exact .refl _ w
    · dsimp only
      have hsame : w.SameBut (fun place => place = source.place ∨ place = target.place) w₁ :=
        (write_sameBut hwrite).mono fun _ => Or.inr
      rcases hdelete : w₁.delete source with e | w₂
      · exact hsame
      · have hfile : w.entryAt? source.place ≠ some .directory := by
          simp [(content_eq_some hcontent).2]
        exact hsame.trans ((delete_sameBut (write_ne_directory hwrite hfile) hdelete).mono fun _ => Or.inl)

theorem shift_sameBut (f : LogFile) (n : Nat) (w : Workspace) :
    w.SameBut f.Touches (shift f.path n w) := by
  induction n generalizing w with
  | zero => exact .refl _ w
  | succ n ih =>
    rw [shift]
    refine .trans ((move_sameBut w _ _).mono ?_) (ih _)
    rintro place (heq | heq)
    · exact Or.inr ⟨_, heq⟩
    · exact Or.inr ⟨_, heq⟩

/-- The content of a log file is moved on to numbered files. -/
theorem rotate_sameBut (f : LogFile) (n : Nat) (w : Workspace) :
    w.SameBut f.Touches (move (shift f.path n w) f.path (numbered f.path 1)) := by
  refine (shift_sameBut f n w).trans ((move_sameBut _ _ _).mono ?_)
  rintro place (heq | heq)
  · exact Or.inl heq
  · exact Or.inr ⟨1, heq⟩

private theorem write_getD_sameBut (f : LogFile) (w : Workspace) (content : List UInt8) :
    w.SameBut f.Touches (((w.write f.path content).toOption).getD w) := by
  rcases h : w.write f.path content with e | w'
  · exact .refl _ w
  · exact (write_sameBut h).mono fun _ => Or.inl

/-- Adding a line to a log file changes nothing but this file and its numbered files. -/
theorem append_sameBut (f : LogFile) (line : String) (w : Workspace) :
    w.SameBut f.Touches (f.append line w) := by
  unfold append
  rcases content? w f.path with _ | content
  · exact .refl _ w
  · dsimp only
    split_ifs
    · exact (rotate_sameBut f _ w).trans (write_getD_sameBut f _ _)
    · exact write_getD_sameBut f _ _

/-- A log file and its numbered files are all in one directory. -/
theorem Touches.exists_name {f : LogFile} {w : Workspace} {content : List UInt8}
    (hcontent : content? w f.path = some content) {place : Location} (h : f.Touches place) :
    ∃ name, place = f.path.parent.place ++ [name] := by
  obtain ⟨name, hpath, hname, -⟩ := exists_child_of_content hcontent
  rcases h with rfl | ⟨n, rfl⟩
  · exact ⟨name, by rw [hpath, place_child hname]; simp [Path.parent, Path.child]⟩
  · refine ⟨name ++ "." ++ toString n, ?_⟩
    rw [hpath, numbered_child, place_child (numbered_ne_up name n)]
    simp [Path.parent, Path.child]

/-- Adding a line to a log file changes nothing outside its directory. -/
theorem append_apart (f : LogFile) (line : String) (w : Workspace) :
    w.SameApartFrom f.path.parent.place (f.append line w) := by
  have hsame := append_sameBut f line w
  rcases hcontent : content? w f.path with _ | content
  · have hidle : f.append line w = w := by
      unfold append
      rw [hcontent]
    rw [hidle]
    exact ⟨.refl w, fun _ _ _ _ => rfl, fun _ _ _ h => h, fun _ h => h⟩
  · have hclear : ∀ place, place ≠ f.path.parent.place → ∀ name, ¬ f.Touches (place ++ [name]) := by
      intro place hne name htouches
      obtain ⟨last, heq⟩ := htouches.exists_name hcontent
      exact hne (List.append_inj' heq rfl).1
    exact ⟨hsame.grows, fun place hopen hne name => hsame.entry place name hopen (hclear place hne name),
      fun place hne name => hsame.vacant _ (hclear place hne name), hsame.noDirectory⟩

private theorem content_write {f : LogFile} {w w' : Workspace} {content : List UInt8}
    (hfile : content? w f.path = some content) (hsame : w.SameBut f.Touches w') (written : List UInt8) :
    content? (((w'.write f.path written).toOption).getD w') f.path = some written := by
  have hfree := isFree_of_read (read_of_content hfile)
  have hfree' : w'.IsFree f.path :=
    ⟨hfree.noNul, hsame.grows.walk (isOpen_base w f.path) hfree.found, hsame.noDirectory _ hfree.entry⟩
  rw [hfree'.write]
  simp [content?, read_write (hfree'.write written), Except.toOption]

/-- A line that is added to a log file stands at its end, alone if what was there has been moved on. -/
theorem content_append {f : LogFile} {w : Workspace} {content : List UInt8}
    (h : content? w f.path = some content) (line : String) :
    content? (f.append line w) f.path = some (Text.Utf8.encode line) ∨
      content? (f.append line w) f.path = some (content ++ Text.Utf8.encode line) := by
  unfold append
  rw [h]
  dsimp only
  split_ifs
  · exact Or.inl (content_write h (rotate_sameBut f _ w) _)
  · exact Or.inr (content_write h (.refl _ w) _)

/-- A log file to which a line is added is still there. -/
theorem exists_content_append {f : LogFile} {w : Workspace} {content : List UInt8}
    (h : content? w f.path = some content) (line : String) :
    ∃ more, content? (f.append line w) f.path = some more :=
  (content_append h line).elim (fun h => ⟨_, h⟩) fun h => ⟨_, h⟩

/-- A log file that holds a text goes on to hold one. -/
theorem text_append {f : LogFile} {w : Workspace} {text : String}
    (h : content? w f.path = some (Text.Utf8.encode text)) (line : String) :
    ∃ more, content? (f.append line w) f.path = some (Text.Utf8.encode more) := by
  rcases content_append h line with hline | hmore
  · exact ⟨line, hline⟩
  · exact ⟨text ++ line, by simpa [Text.Utf8.encode] using hmore⟩

/-- A file is found as before as long as no directory goes away. -/
theorem content_of_grows {w w' : Workspace} {p : Path} {content more : List UInt8}
    (h : content? w p = some content) (hgrows : w.Grows w') (hmore : w'.contentAt? p.place = some more) :
    content? w' p = some more := by
  obtain ⟨hfound, -⟩ := content_eq_some h
  have hfree := isFree_of_read (read_of_content h)
  have hfound' : w'.locate p = .ok p.place := hgrows.walk (isOpen_base w p) hfound
  have hentry := contentAt_eq_some.mp hmore
  simp [content?, Workspace.read, hfree.noNul, hfound', hentry, refused, bind, Except.bind,
    Except.toOption]

/-- Of the files with names that do not end in a digit, only the log file itself is touched. -/
theorem Touches.eq_of_isUnnumbered {f : LogFile} {w : Workspace} {content : List UInt8}
    (hcontent : content? w f.path = some content) {place : Location} {name : String}
    (hname : IsUnnumbered name) (h : f.Touches (place ++ [name])) : f.path.place = place ++ [name] := by
  rcases h with heq | ⟨n, heq⟩
  · exact heq.symm
  · obtain ⟨base, hpath, -, -⟩ := exists_child_of_content hcontent
    rw [hpath, numbered_child, place_child (numbered_ne_up base n)] at heq
    exact absurd (List.singleton_inj.mp (List.append_inj' heq rfl).2) (hname.ne base n)

end LogFile

end ReviewGate

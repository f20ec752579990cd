import Mathlib.Tactic.SplitIfs
import ReviewGate.Workspace.Basic

/-! Where paths lead. A walk that succeeds ends where the names of the path say, whatever the
workspace holds, and it still succeeds after the workspace has grown. -/
namespace ReviewGate

namespace Workspace

/-! ### What a place holds -/

theorem lookup_replace_self (place : Location) (e : Entry) (entries : List (Location × Entry)) :
    lookup place (replace place e entries) = some e := by
  induction entries with
  | nil => simp [replace, lookup]
  | cons entry entries ih =>
    obtain ⟨p, old⟩ := entry
    by_cases h : p = place <;> simp [replace, lookup, h, ih]

theorem lookup_replace_ne {place q : Location} (h : q ≠ place) (e : Entry)
    (entries : List (Location × Entry)) :
    lookup q (replace place e entries) = lookup q entries := by
  induction entries with
  | nil => simp [replace, lookup, Ne.symm h]
  | cons entry entries ih =>
    obtain ⟨p, old⟩ := entry
    by_cases hp : p = place
    · subst hp
      simp [replace, lookup, Ne.symm h]
    · rw [replace, if_neg hp, lookup, lookup, ih]

theorem entryAt_of_isFixed (w : Workspace) {place : Location} (h : isFixed place = true) :
    w.entryAt? place = some .directory := by
  simp [entryAt?, h]

/-- A place that need not be a directory holds what has been put there. -/
theorem entryAt_put_self {w : Workspace} {place : Location} (h : w.entryAt? place ≠ some .directory)
    (e : Entry) : (w.put place e).entryAt? place = some e := by
  have hfixed : isFixed place = false :=
    Bool.eq_false_iff.mpr fun hfixed => h (entryAt_of_isFixed w hfixed)
  simp [entryAt?, put, hfixed, lookup_replace_self]

theorem entryAt_put_ne (w : Workspace) {place q : Location} (h : q ≠ place) (e : Entry) :
    (w.put place e).entryAt? q = w.entryAt? q := by
  simp [entryAt?, put, lookup_replace_ne h]

theorem mem_of_lookup {place : Location} {e : Entry} {entries : List (Location × Entry)}
    (h : lookup place entries = some e) : (place, e) ∈ entries := by
  induction entries with
  | nil => cases h
  | cons entry entries ih =>
    obtain ⟨p, old⟩ := entry
    rw [lookup] at h
    split_ifs at h with hp
    · cases h
      rw [hp]
      exact List.mem_cons_self
    · exact List.mem_cons_of_mem _ (ih h)

/-- What is at a place and is not a directory is listed. -/
theorem mem_of_entryAt {w : Workspace} {place : Location} {e : Entry} (h : w.entryAt? place = some e)
    (he : e ≠ .directory) : (place, e) ∈ w.entries := by
  unfold entryAt? at h
  split_ifs at h
  · exact absurd (Option.some.inj h).symm he
  · exact mem_of_lookup h

/-! ### Walking -/

/-- Whether a place is a directory and so are all those above it. -/
def IsOpen (w : Workspace) (place : Location) : Prop :=
  ∀ q, q <+: place → w.entryAt? q = some .directory

theorem IsOpen.entry {w : Workspace} {place : Location} (h : w.IsOpen place) :
    w.entryAt? place = some .directory :=
  h place (List.prefix_refl place)

theorem IsOpen.of_prefix {w : Workspace} {place q : Location} (h : w.IsOpen place) (hq : q <+: place) :
    w.IsOpen q :=
  fun r hr => h r (hr.trans hq)

theorem isOpen_append {w : Workspace} {place : Location} {part : String} (h : w.IsOpen place)
    (hpart : w.entryAt? (place ++ [part]) = some .directory) : w.IsOpen (place ++ [part]) := by
  intro q hq
  rcases List.prefix_concat_iff.mp hq with rfl | hq
  · exact hpart
  · exact h q hq

private theorem isOpen_of_all_up {w : Workspace} {place : Location} (h : place.all (· == "..") = true) :
    w.IsOpen place := by
  intro q hq
  refine entryAt_of_isFixed w ?_
  simp only [isFixed, Bool.or_eq_true]
  refine Or.inl (List.all_eq_true.mpr fun part hpart => ?_)
  exact List.all_eq_true.mp h part (hq.subset hpart)

theorem isOpen_up {w : Workspace} {place : Location} (h : w.IsOpen place) : w.IsOpen (up place) := by
  unfold up
  split_ifs with hall hroot
  · exact isOpen_of_all_up (by simpa using hall)
  · exact h
  · exact h.of_prefix (List.dropLast_prefix place)

/-- The place that a name leads to from another one. -/
def step (place : Location) (part : String) : Location :=
  if part = ".." then up place else place ++ [part]

theorem walk_cons_eq_ok {w : Workspace} {place d : Location} {part : String} {more : List String}
    (h : w.walk place (part :: more) = .ok d) :
    w.entryAt? place = some .directory ∧ w.walk (step place part) more = .ok d := by
  unfold walk at h
  rcases he : w.entryAt? place with _ | _ | content
  · simp [he] at h
  · refine ⟨rfl, ?_⟩
    simp only [he] at h
    unfold step
    split_ifs at h ⊢ <;> exact h
  · simp [he] at h

/-- A walk from an open place ends where its names lead, and all places above the end are open. -/
theorem walk_eq_ok {w : Workspace} {place d : Location} {parts : List String} (hopen : w.IsOpen place)
    (h : w.walk place parts = .ok d) :
    d = parts.foldl step place ∧ (w.entryAt? d = some .directory → w.IsOpen d) := by
  induction parts generalizing place with
  | nil =>
    cases h
    exact ⟨rfl, fun _ => hopen⟩
  | cons part more ih =>
    obtain ⟨-, hwalk⟩ := walk_cons_eq_ok h
    by_cases hnext : w.IsOpen (step place part)
    · exact ih hnext hwalk
    -- A name that does not lead to an open directory can only be the last one.
    · have hpart : part ≠ ".." := by
        rintro rfl
        exact hnext (isOpen_up hopen)
      have hend : w.entryAt? (step place part) ≠ some .directory := by
        intro hdir
        refine hnext ?_
        simp only [step, hpart, if_false] at hdir ⊢
        exact isOpen_append hopen hdir
      cases more with
      | nil =>
        cases hwalk
        exact ⟨rfl, fun hdir => absurd hdir hend⟩
      | cons next more => exact absurd (walk_cons_eq_ok hwalk).1 hend

/-- A walk goes on from where its first part ends. -/
theorem walk_append (w : Workspace) (place : Location) (before after : List String) :
    w.walk place (before ++ after) = (w.walk place before >>= fun d => w.walk d after) := by
  induction before generalizing place with
  | nil => rfl
  | cons part before ih =>
    rw [List.cons_append, walk, walk]
    rcases w.entryAt? place with _ | _ | content
    · rfl
    · dsimp only
      split_ifs
      · exact ih _
      · rfl
      · exact ih _
    · rfl

theorem exists_walk_of_append {w : Workspace} {place d : Location} {before : List String} {name : String}
    (h : w.walk place (before ++ [name]) = .ok d) :
    ∃ e, w.walk place before = .ok e ∧ w.entryAt? e = some .directory := by
  rw [walk_append] at h
  rcases hbefore : w.walk place before with problem | e
  · rw [hbefore] at h
    cases h
  · rw [hbefore] at h
    exact ⟨e, rfl, (walk_cons_eq_ok h).1⟩

/-- The place where the names of a path begin. -/
def base (p : Path) : Location :=
  if p.root = "" then [] else ["/"]

theorem isOpen_base (w : Workspace) (p : Path) : w.IsOpen (base p) := by
  unfold base
  split_ifs
  · exact isOpen_of_all_up rfl
  · intro q hq
    have hq' : q <+: [] ++ ["/"] := hq
    rcases List.prefix_concat_iff.mp hq' with rfl | hq
    · exact entryAt_of_isFixed w rfl
    · rw [List.prefix_nil.mp hq]
      exact entryAt_of_isFixed w rfl

end Workspace

/-- The place that a path leads to, if it leads anywhere. -/
def Path.place (p : Path) : Location :=
  p.parts.foldl Workspace.step (Workspace.base p)

namespace Workspace

theorem locate_eq_ok {w : Workspace} {p : Path} {d : Location} (h : w.locate p = .ok d) :
    d = p.place ∧ (w.entryAt? d = some .directory → w.IsOpen d) :=
  walk_eq_ok (isOpen_base w p) h

/-! ### Growing -/

/-- Whether the directories of a workspace are directories of another one. -/
def Grows (w w' : Workspace) : Prop :=
  ∀ place, w.IsOpen place → w'.IsOpen place

theorem Grows.refl (w : Workspace) : w.Grows w :=
  fun _ h => h

theorem Grows.trans {w w' w'' : Workspace} (h : w.Grows w') (h' : w'.Grows w'') : w.Grows w'' :=
  fun place hplace => h' place (h place hplace)

theorem grows_of_entryAt {w w' : Workspace}
    (h : ∀ place, w.entryAt? place = some .directory → w'.entryAt? place = some .directory) :
    w.Grows w' :=
  fun _ hplace q hq => h q (hplace q hq)

theorem Grows.walk {w w' : Workspace} (h : w.Grows w') {place d : Location} {parts : List String}
    (hopen : w.IsOpen place) (hwalk : w.walk place parts = .ok d) : w'.walk place parts = .ok d := by
  induction parts generalizing place with
  | nil => exact hwalk
  | cons part more ih =>
    have hentry := (h place hopen).entry
    obtain ⟨hdir, hnext⟩ := walk_cons_eq_ok hwalk
    have hgoal : w'.walk (step place part) more = .ok d := by
      by_cases hopen' : w.IsOpen (step place part)
      · exact ih hopen' hnext
      · cases more with
        | nil => exact hnext
        | cons next more =>
          refine absurd ?_ hopen'
          have hdir' := (walk_cons_eq_ok hnext).1
          unfold step at hdir' ⊢
          split_ifs at hdir' ⊢ with hup
          · exact isOpen_up hopen
          · exact isOpen_append hopen hdir'
    unfold Workspace.walk at hwalk ⊢
    simp only [hdir, hentry, step] at hwalk hgoal ⊢
    split_ifs at hwalk hgoal ⊢ <;> exact hgoal

/-- A directory that a path leads to, with directories all the way. -/
structure IsReady (w : Workspace) (p : Path) : Prop where
  noNul : p.hasNul = false
  found : w.locate p = .ok p.place
  isOpen : w.IsOpen p.place

theorem IsReady.grows {w w' : Workspace} {p : Path} (hp : w.IsReady p) (h : w.Grows w') :
    w'.IsReady p :=
  ⟨hp.noNul, h.walk (isOpen_base w p) hp.found, h _ hp.isOpen⟩

/-- A directory that is there is ready. -/
theorem isReady_of_isDirectory {w : Workspace} {p : Path} (h : w.isDirectory p = .ok true) :
    w.IsReady p := by
  unfold isDirectory status at h
  split_ifs at h with hnul
  · simp [Except.map] at h
  · rcases hd : w.locate p with problem | d
    · cases problem <;> simp [hd, Except.map] at h
    · simp only [hd, Except.map, Except.ok.injEq, beq_iff_eq] at h
      obtain ⟨hplace, hopen⟩ := locate_eq_ok hd
      exact ⟨by simpa using hnul, hplace ▸ hd, hplace ▸ hopen h⟩

theorem IsReady.isDirectory {w : Workspace} {p : Path} (hp : w.IsReady p) :
    w.isDirectory p = .ok true := by
  simp [Workspace.isDirectory, status, hp.noNul, hp.found, hp.isOpen.entry, Except.map]

/-! ### Names in a directory -/

/-- Whether a text can be the name of a file. -/
def IsFileName (name : String) : Prop :=
  name ≠ ".." ∧ name.utf8ByteSize ≤ nameLimit ∧ '\x00' ∉ name.toList

instance (name : String) : Decidable (IsFileName name) := inferInstanceAs (Decidable (_ ∧ _ ∧ _))

theorem hasNul_child {p : Path} (hp : p.hasNul = false) {name : String} (hname : IsFileName name) :
    (p.child name).hasNul = false := by
  simp only [Path.hasNul, Path.child, List.any_append, Bool.or_eq_false_iff] at hp ⊢
  exact ⟨hp, by simpa using hname.2.2⟩

theorem IsReady.locate_child {w : Workspace} {p : Path} (hp : w.IsReady p) {name : String}
    (hname : IsFileName name) : w.locate (p.child name) = .ok (p.place ++ [name]) := by
  have hfound : w.walk (base p) p.parts = .ok p.place := hp.found
  show w.walk (base p) (p.parts ++ [name]) = _
  rw [walk_append, hfound]
  show w.walk p.place [name] = _
  rw [walk, hp.isOpen.entry]
  simp [hname.1, Nat.not_lt.mpr hname.2.1, walk]

theorem IsReady.status_child {w : Workspace} {p : Path} (hp : w.IsReady p) {name : String}
    (hname : IsFileName name) : w.status (p.child name) = .ok (w.entryAt? (p.place ++ [name])) := by
  simp [status, hasNul_child hp.noNul hname, hp.locate_child hname]

/-- The bytes of the file with a name, if there is one. -/
def contentAt? (w : Workspace) (place : Location) : Option (List UInt8) :=
  match w.entryAt? place with
  | some (.file content) => some content
  | _ => none

theorem contentAt_eq_some {w : Workspace} {place : Location} {content : List UInt8} :
    w.contentAt? place = some content ↔ w.entryAt? place = some (.file content) := by
  unfold contentAt?
  split <;> simp_all

theorem IsReady.isFile_child {w : Workspace} {p : Path} (hp : w.IsReady p) {name : String}
    (hname : IsFileName name) :
    w.isFile (p.child name) = .ok (w.contentAt? (p.place ++ [name])).isSome := by
  unfold isFile contentAt?
  rw [hp.status_child hname]
  rcases w.entryAt? (p.place ++ [name]) with _ | _ | _ <;> rfl

theorem IsReady.read_child {w : Workspace} {p : Path} (hp : w.IsReady p) {name : String}
    (hname : IsFileName name) {content : List UInt8}
    (h : w.contentAt? (p.place ++ [name]) = some content) : w.read (p.child name) = .ok content := by
  simp [Workspace.read, hasNul_child hp.noNul hname, hp.locate_child hname, contentAt_eq_some.mp h,
    refused, bind, Except.bind]

end Workspace

end ReviewGate

import ReviewGate.Proofs.Artifacts.RoundTrip

/-! What jobs that only log leave alone: every file that is neither the log file nor one of its numbered
files, and a directory that is missing or empty. -/
namespace ReviewGate

/-- Whether a place is that of the log file, if there is one, or of one of its numbered files. -/
def Journal.Touches (j : Journal) (place : Location) : Prop :=
  ∃ layout f, j.file = some (layout, f) ∧ f.Touches place

namespace Workspace

variable {w w' : Workspace} {p : Path} {content : List UInt8} {touched : Location → Prop}

/-- A file that can be read is in a directory that is open. -/
theorem exists_open_of_read (h : w.read p = .ok content) :
    ∃ place name, w.IsOpen place ∧ p.place = place ++ [name] := by
  have hcontent : LogFile.content? w p = some content := by simp [LogFile.content?, h, Except.toOption]
  obtain ⟨name, hchild, hname, -⟩ := LogFile.exists_child_of_content hcontent
  obtain ⟨hlocate, -⟩ := LogFile.content_eq_some hcontent
  have hwalk : w.walk (base p.parent) (p.parent.parts ++ [name]) = .ok p.place :=
    (congrArg w.locate hchild).symm.trans hlocate
  obtain ⟨place, hparent, hdirectory⟩ := exists_walk_of_append hwalk
  obtain ⟨rfl, hopen⟩ := locate_eq_ok (p := p.parent) hparent
  refine ⟨p.parent.place, name, hopen hdirectory, ?_⟩
  rw [← place_child hname, ← hchild]

/-- A file is read as before if its place has not been touched. -/
theorem SameBut.read (hsame : w.SameBut touched w') (h : w.read p = .ok content)
    (hspared : ¬ touched p.place) : w'.read p = .ok content := by
  have hfree := isFree_of_read h
  obtain ⟨place, name, hopen, hplace⟩ := exists_open_of_read h
  obtain ⟨found, hfound, hentry⟩ := read_eq_ok h
  obtain ⟨rfl, -⟩ := locate_eq_ok hfound
  have hentry' : w'.entryAt? p.place = some (.file content) := by
    rw [hplace] at hspared hentry ⊢
    rw [hsame.entry place name hopen hspared, hentry]
  have hfound' : w'.locate p = .ok p.place := hsame.grows.walk (isOpen_base w p) hfound
  simp [Workspace.read, hfree.noNul, hfound', hentry', refused, bind, Except.bind]

/-- A file can still be written if nothing on the way to its directory has been touched. -/
theorem SameBut.isWritable (hsame : w.SameBut touched w') (h : w.IsWritable p)
    (hway : ∀ place, p.parent.IsOnWay place → ¬ touched place) : w'.IsWritable p := by
  obtain ⟨v, hmake, hfree⟩ := h
  have hcan := canMake_of_makeDirectories hmake
  have hcan' : w'.CanMake p.parent :=
    ⟨hcan.noNul, hcan.names,
      fun place hplace => hsame.vacant place (hway place hplace) (hcan.way place hplace)⟩
  obtain ⟨v', hmake'⟩ := hcan'.makeDirectories
  have hready := makeDirectories_ready hmake
  have hready' := makeDirectories_ready hmake'
  -- A directory at the path itself would have been there before.
  have hplace : ¬ p.parent.IsOnWay p.place := fun hon => hfree.entry (hready.way hon)
  have hentry := makeDirectories_entry hplace w
  have hentry' := makeDirectories_entry hplace w'
  rw [hmake] at hentry
  rw [hmake'] at hentry'
  refine ⟨v', hmake', hfree.noNul, ?_, ?_⟩
  · obtain ⟨name, hname⟩ := hfree.eq_child hready
    have hpart : name ∈ p.parts := by
      rw [hname]
      exact List.mem_append_right _ List.mem_cons_self
    obtain ⟨place, hfound⟩ := hready'.exists_locate (walk_names hfree.found name hpart)
    have hfound' : v'.locate p = .ok place := (congrArg v'.locate hname).trans hfound
    rw [hfound', (locate_eq_ok hfound').1]
  · rw [hentry']
    exact hsame.noDirectory _ (hentry ▸ hfree.entry)

end Workspace

namespace Runner

variable {s t : Runner} {directory : Path}

/-- Whether at most the log file and its numbered files have changed, and the log goes on as before. -/
structure OnlyLogs (s t : Runner) : Prop where
  journal : t.journal = s.journal
  files : s.workspace.SameBut s.journal.Touches t.workspace

theorem OnlyLogs.isCalm : IsCalm OnlyLogs where
  refl s := ⟨rfl, .refl _ _⟩
  trans h h' := ⟨h'.journal.trans h.journal, h.files.trans (h.journal ▸ h'.files)⟩
  log level source message s := by
    obtain ⟨errors, w, hrun, rfl | ⟨layout, f, line, hfile, rfl⟩⟩ := Job.log_run level source message s
    all_goals rw [hrun]
    · exact ⟨rfl, .refl _ _⟩
    · exact ⟨rfl, (LogFile.append_sameBut f line s.workspace).mono fun place h => ⟨layout, f, hfile, h⟩⟩

theorem OnlyLogs.allowsCommands : AllowsCommands OnlyLogs :=
  fun s _ => ⟨rfl, .refl _ s.workspace⟩

theorem OnlyLogs.read (h : s.OnlyLogs t) {p : Path} {content : List UInt8}
    (hread : s.workspace.read p = .ok content) (hspared : ¬ s.journal.Touches p.place) :
    t.workspace.read p = .ok content :=
  h.files.read hread hspared

theorem OnlyLogs.isWritable (h : s.OnlyLogs t) {p : Path} (hwritable : s.workspace.IsWritable p)
    (hway : ∀ place, p.parent.IsOnWay place → ¬ s.journal.Touches place) : t.workspace.IsWritable p :=
  h.files.isWritable hwritable hway

/-- Where nothing of a directory is, nothing comes up if the log is not on the way to it. -/
theorem OnlyLogs.isBlank (h : s.OnlyLogs t) (hblank : s.workspace.IsBlank directory) (hlog : s.HasLog)
    (hway : ∀ place, directory.IsOnWay place → ¬ s.journal.Touches place) :
    t.workspace.IsBlank directory where
  canMake :=
    ⟨hblank.canMake.noNul, hblank.canMake.names, fun place hplace =>
      h.files.vacant place (hway place hplace) (hblank.canMake.way place hplace)⟩
  empty name e hmem := by
    rcases h.files.listed _ e hmem with ⟨layout, f, hfile, htouches⟩ | ⟨old, hold⟩
    · obtain ⟨content, hcontent⟩ := hlog layout f hfile
      obtain ⟨last, heq⟩ := htouches.exists_name hcontent
      have hapart := (hblank.isVacant hlog).isApart layout f hfile
      exact hapart (List.append_inj' heq rfl).1.symm
    · exact hblank.empty name old hold
  outside := hblank.outside

end Runner

end ReviewGate

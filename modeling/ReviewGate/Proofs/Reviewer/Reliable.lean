import ReviewGate.Proofs.Artifacts.Flaws
import ReviewGate.Proofs.Posting.Reliable
import ReviewGate.Proofs.Reviewer.Posting

/-! The posting stage on a forge that keeps its promises: whatever the stored files hold, it fails, if it
does, in a way that is reported, unless the comments in them are nested too deeply. -/
namespace ReviewGate

open Forge CommandLine

/-- Whether the file system takes all names of a path. -/
def Path.HasShortNames (p : Path) : Prop :=
  ∀ name ∈ p.parts, name.utf8ByteSize ≤ Workspace.nameLimit

namespace Workspace

theorem walk_ne_nameTooLong {w : Workspace} {names : List String}
    (h : ∀ name ∈ names, name.utf8ByteSize ≤ nameLimit) (place : Location) :
    w.walk place names ≠ .error .nameTooLong := by
  induction names generalizing place with
  | nil => simp [walk]
  | cons name more ih =>
    have hmore := ih fun other hother => h other (List.mem_cons_of_mem _ hother)
    have hname := h name List.mem_cons_self
    unfold walk
    rcases w.entryAt? place with _ | _ | _
    · simp
    · dsimp only
      rw [if_neg (Nat.not_lt.mpr hname)]
      split_ifs
      · exact hmore _
      · exact hmore _
    · simp

/-- Where a path leads can be found out unless a name in it is too long. -/
theorem status_ok {w : Workspace} {p : Path} (h : p.HasShortNames) : ∃ e, w.status p = .ok e := by
  unfold status
  split_ifs
  · exact ⟨none, rfl⟩
  · have hwalk := walk_ne_nameTooLong (w := w) h (if p.root = "" then [] else ["/"])
    rw [← locate] at hwalk
    rcases hlocate : w.locate p with problem | place
    · cases problem with
      | nameTooLong => exact absurd hlocate hwalk
      | _ => exact ⟨none, rfl⟩
    · exact ⟨_, rfl⟩

end Workspace

namespace Artifacts

variable {directory : Path} {s t : Runner}

/-- Whether there is room for all levels of the comments that are stored in a directory. -/
def HasRoom (directory : Path) (s : Runner) : Prop :=
  ∀ bytes text b, s.shelf directory commentsFile = some bytes → Text.Utf8.decode bytes = .ok text →
    Json.read s.platform.room (Text.unified text) ≠ .error (.tooDeep b)

theorem IsBlamed.isPostingFault {name : String} {e : Fault} (hroom : HasRoom directory s)
    (h : IsBlamed s.platform.room name (foundUnder directory s t name) e) : isPostingFault e = true := by
  obtain ⟨-, ⟨bytes, hbytes, ⟨m, -, rfl⟩ | ⟨rfl, text, htext, hbeyond⟩⟩ | ⟨-, p, rfl, -⟩⟩ := h
  · rfl
  · have hfound : s.shelf directory commentsFile = some bytes := hbytes
    cases hbeyond with
    | number f => rfl
    | depth b hread => exact absurd hread (hroom bytes text b hfound htext)
  · rfl

/-- A stored review is read, or it is reported why not. -/
theorem read_reports {result : Except Fault StoredReview} (hdirectory : directory.HasShortNames)
    (hroom : HasRoom directory s) (h : read directory s = (result, t)) : Reports (fun _ => True) result := by
  rcases read_cases h with ⟨f, hfault, -⟩ | ⟨there, -, -, rfl⟩ | ⟨hthere, -, hfiles⟩
  · obtain ⟨e, he⟩ := Workspace.status_ok (w := s.workspace) hdirectory
    rw [Workspace.isDirectory, he] at hfault
    cases hfault
  · rfl
  · have hends := readFiles_ends (Workspace.isReady_of_isDirectory hthere) hfiles
    cases result with
    | ok review => trivial
    | error e =>
      obtain ⟨name, -, hblame⟩ := hends.exists_blamed
      exact hblame.isPostingFault hroom

theorem read_endsWell {started : Prop} (hdirectory : directory.HasShortNames) (hroom : HasRoom directory s) :
    (read directory).EndsWell started (fun _ => True) s :=
  ⟨[], ((read_effects directory).keeps_of_quiet Runner.Sends.isCalm) s, fun _ _ =>
    read_reports hdirectory hroom rfl⟩

end Artifacts

/-- Whether the settings that a posting uses are texts, the repository if it is given. -/
structure Settings.HasTexts (s : Settings) : Prop where
  baseUrl : ∃ text, s.forge.baseUrl = .str text
  marker : ∃ text, s.artifacts.marker = .str text
  repository : s.forge.repository.isGiven = true → ∃ text, s.forge.repository = .str text

namespace Reviewer

variable {r : Reviewer} {started : Prop}

theorem clientFor_reliable (hbase : ∃ text, r.settings.forge.baseUrl = .str text)
    (client : Option Client) : (r.clientFor client).IsReliable started fun _ => True := by
  refine .of_quiet (r.clientFor_sends client) fun _ s => ?_
  obtain ⟨text, htext⟩ := hbase
  cases client with
  | some c => trivial
  | none =>
    unfold clientFor
    dsimp only
    rcases htoken : r.settings.forge.token.isGiven with _ | _
    · exact rfl
    · have hmake : Client.make r.settings.forge.token r.settings.forge.baseUrl
          r.settings.forge.timeout = .ok ⟨r.settings.forge.token, Text.dropTrailing '/' text,
            r.settings.forge.timeout⟩ := by
        simp [Client.make, htoken, htext, Client.baseOf]
      simp only [Bool.not_true, Bool.false_eq_true, if_false, Client.connect, hmake]
      trivial

theorem readStored_endsWell {s : Runner} (hstore : r.store.HasShortNames)
    (hroom : Artifacts.HasRoom r.store s) : r.readStored.EndsWell started (fun _ => True) s := by
  refine ((Artifacts.read_endsWell hstore hroom).catching _).bind fun review => ?_
  cases review with
  | ok review => exact .pure fun _ => trivial
  | error e =>
    refine .bind (.log _ _ _) fun _ => .of_quiet (.throw Runner.Sends.isCalm _) fun hcaught _ => ?_
    have hartifact : e.isArtifact = true := hcaught.2 e rfl
    cases e with
    | artifact problem => exact rfl
    | _ => cases hartifact

theorem ofValue_reports (text : String) :
    Reports (fun _ => True) (Repository.ofValue (.str text)) := by
  unfold Repository.ofValue
  dsimp only [Value.isIn]
  cases Text.contains text "/" with
  | false => exact rfl
  | true =>
    dsimp only
    rcases Text.cut? '/' text.toList with _ | ⟨owner, name⟩
    · exact rfl
    · trivial

theorem make_reports (hsettings : r.settings.HasTexts)
    (hgiven : r.settings.forge.repository.isGiven = true) (c : Client) :
    Reports (fun p => ∃ text, p.marker = .str text) (Poster.make c r.settings.forge.repository
      r.settings.artifacts.marker r.settings.artifacts.recreate) := by
  obtain ⟨text, htext⟩ := hsettings.repository hgiven
  have hreports := ofValue_reports text
  rw [htext, Poster.make]
  rcases hrepository : Repository.ofValue (.str text) with e | place
  · rw [hrepository] at hreports
    exact hreports
  · exact hsettings.marker

/-- On a forge that keeps its promises the posting stage succeeds, or it is reported why not. -/
theorem runPosting_endsWell {s : Runner} (hsettings : r.settings.HasTexts) (hstore : r.store.HasShortNames)
    (hroom : Artifacts.HasRoom r.store s) (client : Option Client) (run given : Option Int)
    (details : Option String) :
    (r.runPosting client run given details).EndsWell started (fun _ => True) s := by
  unfold runPosting
  rcases hgiven : r.settings.forge.repository.isGiven with _ | _
  · exact Job.IsReliable.throw rfl s
  · refine (readStored_endsWell hstore hroom).bind fun review => 
      .bind (clientFor_reliable hsettings.baseUrl client) fun c => ?_
    have hreports := make_reports hsettings hgiven c
    dsimp only
    rcases hmake : Poster.make c r.settings.forge.repository r.settings.artifacts.marker
      r.settings.artifacts.recreate with e | p
    all_goals rw [hmake] at hreports
    · exact .throw hreports
    · obtain ⟨text, htext⟩ := hreports
      have hready : Job.ofExcept (Except.ok p) = pure p := rfl
      rw [hready, pure_bind]
      exact Poster.post_reliable htext review run given details

end Reviewer

end ReviewGate

import ReviewGate.Proofs.Changes
import ReviewGate.Proofs.Text.Feeds

/-! The lines of the files that are collected. They are numbered as version control numbers them, whatever
the bytes of a file are, and each of them depends on its own bytes alone. -/
namespace ReviewGate

open Text

namespace Text

theorem dropReturn_eq (cs : List Char) :
    dropReturn cs = if cs.getLast? = some '\r' then cs.dropLast else cs := by
  induction cs with
  | nil => rfl
  | cons c cs ih =>
    cases cs with
    | nil => simp [dropReturn]
    | cons d cs =>
      rw [dropReturn, ih, List.getLast?_cons_cons, List.dropLast_cons_cons]
      · split_ifs <;> rfl
      · simp

theorem feedLines_unended {line : List Char} (hline : line ≠ []) (h : '\n' ∉ line) :
    feedLines line = [line] := by
  induction line with
  | nil => exact absurd rfl hline
  | cons c line ih =>
    simp only [List.mem_cons, not_or] at h
    rw [feedLines, if_neg (Ne.symm h.1)]
    cases line with
    | nil => rfl
    | cons d line => rw [ih (by simp) h.2]

/-- Every file is empty, a line that is not ended, or a line that is ended before another file. -/
theorem feed_induction {P : List UInt8 → Prop} (empty : P [])
    (unended : ∀ segment, segment ≠ [] → lineFeed ∉ segment → P segment)
    (ended : ∀ segment rest, lineFeed ∉ segment → P rest → P (segment ++ lineFeed :: rest))
    (content : List UInt8) : P content := by
  induction hlength : content.length using Nat.strongRecOn generalizing content with
  | ind n ih =>
    by_cases hfeed : lineFeed ∈ content
    · obtain ⟨segment, rest, rfl, hsegment⟩ := List.eq_append_cons_of_mem hfeed
      have hshorter : rest.length < n := by
        rw [← hlength, List.length_append, List.length_cons]
        omega
      exact ended segment rest hsegment (ih rest.length hshorter rest rfl)
    · by_cases hempty : content = []
      · exact hempty ▸ empty
      · exact unended content hempty hfeed

end Text

namespace ChangedFile

/-- The line that a run of bytes is, which has one carriage return at its end taken off. -/
def lineOf (segment : List UInt8) : String :=
  let cs := (Utf8.decodeLossy segment).toList
  String.ofList (if cs.getLast? = some '\r' then cs.dropLast else cs)

theorem ofList_dropReturn_decode (segment : List UInt8) :
    String.ofList (dropReturn (Utf8.decodeLossyFrom none segment)) = lineOf segment := by
  rw [lineOf, Utf8.decodeLossy, String.toList_ofList, dropReturn_eq]

/-- The lines that bytes are read as. -/
def linesOfBytes (content : List UInt8) : List String :=
  linesOf (Utf8.decodeLossy content)

theorem linesOfBytes_empty : linesOfBytes [] = [] :=
  rfl

theorem linesOfBytes_unended {segment : List UInt8} (hsegment : segment ≠ []) (h : lineFeed ∉ segment) :
    linesOfBytes segment = [lineOf segment] := by
  have hwide : Utf8.IsWide none := by
    intro b hb
    cases hb
  have hread := Utf8.feed_not_mem_decodeLossyFrom hwide h
  have hsome : Utf8.decodeLossyFrom none segment ≠ [] :=
    Utf8.decodeLossyFrom_ne_nil (Or.inr hsegment)
  rw [linesOfBytes, linesOf, Utf8.decodeLossy, String.toList_ofList, feedLines_unended hsome hread,
    List.map_singleton, ofList_dropReturn_decode]

theorem linesOfBytes_ended {segment : List UInt8} (h : lineFeed ∉ segment) (rest : List UInt8) :
    linesOfBytes (segment ++ lineFeed :: rest) = lineOf segment :: linesOfBytes rest := by
  have hwide : Utf8.IsWide none := by
    intro b hb
    cases hb
  have hread := Utf8.feed_not_mem_decodeLossyFrom hwide h
  simp only [linesOfBytes, linesOf, Utf8.decodeLossy, String.toList_ofList]
  rw [Utf8.decodeLossyFrom_feed hwide, feedLines_append_feed hread, List.map_cons,
    ofList_dropReturn_decode]

/-- There is a line for each line feed, and one for what follows the last of them. -/
theorem length_linesOfBytes (content : List UInt8) :
    (linesOfBytes content).length =
      content.count lineFeed +
        if content = [] ∨ content.getLast? = some lineFeed then 0 else 1 := by
  induction content using feed_induction with
  | empty => rfl
  | unended segment hsegment h =>
    have hlast : segment.getLast? ≠ some lineFeed :=
      fun hlast => h (List.mem_of_getLast? hlast)
    rw [linesOfBytes_unended hsegment h, List.count_eq_zero.mpr h, if_neg (by simp [hsegment, hlast])]
    rfl
  | ended segment rest h ih =>
    have hcount : (segment ++ lineFeed :: rest).count lineFeed = rest.count lineFeed + 1 := by
      rw [List.count_append, List.count_eq_zero.mpr h, List.count_cons_self, Nat.zero_add]
    have hlast : (segment ++ lineFeed :: rest = [] ∨
        (segment ++ lineFeed :: rest).getLast? = some lineFeed) ↔
          rest = [] ∨ rest.getLast? = some lineFeed := by
      cases rest <;> simp [List.getLast?_append, List.getLast?_cons]
    rw [linesOfBytes_ended h, List.length_cons, ih, hcount]
    simp only [hlast]
    omega

/-- A line is that of the bytes between its line feeds. -/
theorem getElem?_linesOfBytes (content : List UInt8) {i : Nat} (hi : i < (linesOfBytes content).length) :
    (linesOfBytes content)[i]? = ((content.splitOn lineFeed)[i]?).map lineOf := by
  induction content using feed_induction generalizing i with
  | empty => simp [linesOfBytes_empty] at hi
  | unended segment hsegment h =>
    rw [linesOfBytes_unended hsegment h] at hi ⊢
    obtain rfl : i = 0 := by simpa using hi
    rw [List.splitOn_eq_singleton h]
    rfl
  | ended segment rest h ih =>
    rw [linesOfBytes_ended h] at hi ⊢
    rw [List.splitOn_append_cons_self_of_not_mem h]
    cases i with
    | zero => rfl
    | succ i =>
      rw [List.getElem?_cons_succ, List.getElem?_cons_succ]
      exact ih (by simpa using hi)

end ChangedFile

namespace Checkout

theorem fileOf_eq_ok {path : String} (hpath : isBlankText path = false) (content : List UInt8) :
    fileOf path content = .ok ⟨path, ChangedFile.linesOfBytes content, hpath⟩ := by
  unfold fileOf ChangedFile.ofText ChangedFile.make
  rw [dif_pos hpath, ChangedFile.linesOfBytes]

/-- A file that can be read has a line for each line feed, and one more for what follows the last of
them. Each line is read from its own bytes alone. -/
theorem loadFile_lines {c : Checkout} {s : Runner} {path : String} {content : List UInt8}
    (hread : s.workspace.read (c.root.follow path) = .ok content) (hpath : isBlankText path = false) :
    ∃ file t, c.loadFile path s = (.ok (some file), t) ∧ file.path = path ∧
      file.lines.length =
        content.count lineFeed + (if content = [] ∨ content.getLast? = some lineFeed then 0 else 1) ∧
      ∀ i < file.lines.length,
        file.lines[i]? = ((content.splitOn lineFeed)[i]?).map ChangedFile.lineOf := by
  have hload : ∃ t, c.loadFile path s =
      (.ok (some ⟨path, ChangedFile.linesOfBytes content, hpath⟩), t) := by
    rw [loadFile, Action.bind_run, Job.catching_run, Job.readFile_run, hread]
    dsimp only
    obtain ⟨errors, w, hlog, -⟩ := Job.log_run .debug source _ s
    rw [Action.bind_run_ok hlog, Action.bind_run, Job.ofExcept_run, fileOf_eq_ok hpath content]
    exact ⟨_, rfl⟩
  obtain ⟨t, hload⟩ := hload
  exact ⟨_, t, hload, rfl, ChangedFile.length_linesOfBytes content,
    fun _ => ChangedFile.getElem?_linesOfBytes content⟩

/-- A machine with a file of three lines: a character that breaks off, two carriage returns and a byte
that starts no character. -/
def brokenCharacters : Runner :=
  { Runner.fresh 0 with
    workspace := ⟨[(["A.cs"], .file [0xE2, 0x82, lineFeed, 0x0D, 0x0D, lineFeed, 0xFF])]⟩ }

theorem loadFile_brokenCharacters :
    ∃ file t, (Checkout.mk (.ofText ".") [".cs"]).loadFile "A.cs" brokenCharacters = (.ok (some file), t) ∧
      file.path = "A.cs" ∧ file.lines.length = 3 ∧ file.lines[0]? = some "\uFFFD" ∧
      file.lines[1]? = some "\r" ∧ file.lines[2]? = some "\uFFFD" := by
  have hread : brokenCharacters.workspace.read ((Path.ofText ".").follow "A.cs") =
      .ok [0xE2, 0x82, lineFeed, 0x0D, 0x0D, lineFeed, 0xFF] := rfl
  have hpath : isBlankText "A.cs" = false := by decide
  obtain ⟨file, t, hload, hname, hlength, hlines⟩ :=
    loadFile_lines (c := ⟨.ofText ".", [".cs"]⟩) hread hpath
  have hthree : file.lines.length = 3 := hlength.trans (by decide)
  refine ⟨file, t, hload, hname, hthree, ?_, ?_, ?_⟩
  · exact (hlines 0 (by omega)).trans (by decide)
  · exact (hlines 1 (by omega)).trans (by decide)
  · exact (hlines 2 (by omega)).trans (by decide)

/-- A machine with a file whose name is a blank. -/
def blankName : Runner :=
  { Runner.fresh 0 with workspace := ⟨[([" "], .file [0x78, lineFeed])]⟩ }

/-- A file with a blank name is refused, although it can be read. -/
theorem loadFile_blankName :
    blankName.workspace.read ((Path.ofText ".").follow " ") = .ok [0x78, lineFeed] ∧
      ((Checkout.mk (.ofText ".") [".cs"]).loadFile " " blankName).1 =
        .error (.refused .emptyPath) := by
  constructor
  · rfl
  · rfl

end Checkout

end ReviewGate

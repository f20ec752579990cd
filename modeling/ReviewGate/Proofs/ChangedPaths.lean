import ReviewGate.Proofs.Changes
import ReviewGate.Proofs.Text.Ascending
import ReviewGate.Proofs.Text.Lines
import ReviewGate.Proofs.Text.Search
import ReviewGate.Proofs.Text.Utf8

/-! The listing of changed paths. Version control prints a path as it is, or between double quotes with
escapes if it holds other bytes than plain ones. The reader of the listing takes no escape back, so it
finds the plain paths only, and these without the blanks around them. -/
namespace ReviewGate

/-! ### How paths are printed -/

namespace PathListing

/-- Whether a path is printed as it is where it holds a byte: this is a printable character of ASCII,
but neither a double quote nor a backslash. -/
def isPlainByte (byte : UInt8) : Bool :=
  0x20 ≤ byte && byte < 0x7F && byte != 0x22 && byte != 0x5C

/-- The character of a byte below 128. -/
def charOf (byte : UInt8) : Char :=
  Char.ofNat byte.toNat

/-- The last octal digit of a number. -/
def octalDigit (n : Nat) : Char :=
  Char.ofNat (0x30 + n % 8)

/-- What stands for a byte after a backslash. -/
def escape (byte : UInt8) : List Char :=
  match byte.toNat with
  | 0x07 => ['a']
  | 0x08 => ['b']
  | 0x09 => ['t']
  | 0x0A => ['n']
  | 0x0B => ['v']
  | 0x0C => ['f']
  | 0x0D => ['r']
  | 0x22 => ['"']
  | 0x5C => ['\\']
  | n => [octalDigit (n / 64), octalDigit (n / 8), octalDigit n]

/-- A byte between double quotes. -/
def quotedByte (byte : UInt8) : List Char :=
  if isPlainByte byte then [charOf byte] else '\\' :: escape byte

/-- A path as version control prints it. -/
def printed (path : List UInt8) : List Char :=
  if path.all isPlainByte then path.map charOf else '"' :: (path.flatMap quotedByte ++ ['"'])

/-- The listing of paths, each of them on a line that is ended by a line feed. -/
def listing (paths : List (List UInt8)) : String :=
  String.ofList (paths.flatMap fun path => printed path ++ ['\n'])

/-- Whether a path is printed as it is. -/
def IsPlain (path : String) : Prop :=
  (Text.Utf8.encode path).all isPlainByte = true

instance (path : String) : Decidable (IsPlain path) :=
  inferInstanceAs (Decidable (_ = true))

/-- Whether a path is printed as it is and has no blanks around it. -/
structure IsTidy (path : String) : Prop where
  plain : IsPlain path
  stripped : Text.strip path = path

/-- What is found true of all numbers below 256 is true of all bytes. -/
theorem forall_byte {f : UInt8 → Bool} (h : ((List.range 256).all fun n => f (UInt8.ofNat n)) = true)
    (byte : UInt8) : f byte = true := by
  have hbyte := List.all_eq_true.mp h byte.toNat (List.mem_range.mpr byte.toNat_lt)
  rwa [UInt8.ofNat_toNat] at hbyte

theorem quotedByte_unbroken (byte : UInt8) : ∀ c ∈ quotedByte byte, Text.isLineBreak c = false := by
  have hall : ((quotedByte byte).all fun c => !Text.isLineBreak c) = true :=
    forall_byte (f := fun byte => (quotedByte byte).all fun c => !Text.isLineBreak c) (by decide +kernel) byte
  simpa using hall

theorem charOf_unbroken {byte : UInt8} (h : isPlainByte byte = true) :
    Text.isLineBreak (charOf byte) = false := by
  have hall := quotedByte_unbroken byte
  rw [quotedByte, if_pos h] at hall
  exact hall _ (List.mem_singleton_self _)

theorem encodeChar_charOf {byte : UInt8} (h : isPlainByte byte = true) :
    Text.Utf8.encodeChar (charOf byte) = [byte] := by
  have hall : (!isPlainByte byte || Text.Utf8.encodeChar (charOf byte) == [byte]) = true :=
    forall_byte (f := fun byte => !isPlainByte byte || Text.Utf8.encodeChar (charOf byte) == [byte])
      (by decide +kernel) byte
  simpa [h] using hall

/-- The plain bytes of a character are one byte, which is printed as the character. -/
theorem map_charOf_encodeChar {c : Char} (h : (Text.Utf8.encodeChar c).all isPlainByte = true) :
    (Text.Utf8.encodeChar c).map charOf = [c] := by
  have hwide : ∀ {n : Nat}, 0x7F ≤ n → n < 0x100 → isPlainByte (UInt8.ofNat n) = false := by
    intro n hlow hhigh
    have hn : (UInt8.ofNat n).toNat = n := by
      rw [UInt8.toNat_ofNat']
      omega
    simp only [isPlainByte, UInt8.lt_iff_toNat_lt, hn, Bool.and_eq_false_iff, decide_eq_false_iff_not]
    refine Or.inl (Or.inl (Or.inr ?_))
    simpa using hlow
  have hc : c.toNat < 0x110000 := by
    rcases c.valid with h | h
    · exact Nat.lt_trans h (by decide)
    · exact h.2
  unfold Text.Utf8.encodeChar at h ⊢
  dsimp only at h ⊢
  split_ifs at h ⊢ with h1 h2 h3
  · have hn : (UInt8.ofNat c.toNat).toNat = c.toNat := by
      rw [UInt8.toNat_ofNat']
      omega
    rw [List.map_singleton, charOf, hn, Char.ofNat_toNat]
  all_goals
    rw [List.all_cons, hwide (by omega) (by omega)] at h
    cases h

theorem map_charOf_encode {path : String} (h : IsPlain path) :
    (Text.Utf8.encode path).map charOf = path.toList := by
  unfold IsPlain Text.Utf8.encode at *
  revert h
  induction path.toList with
  | nil => exact fun _ => rfl
  | cons c cs ih =>
    intro h
    rw [List.flatMap_cons, List.all_append, Bool.and_eq_true] at h
    rw [List.flatMap_cons, List.map_append, map_charOf_encodeChar h.1, ih h.2]
    rfl

theorem encode_map_charOf {path : List UInt8} (h : path.all isPlainByte = true) :
    Text.Utf8.encode (String.ofList (path.map charOf)) = path := by
  rw [Text.Utf8.encode, String.toList_ofList]
  induction path with
  | nil => rfl
  | cons byte path ih =>
    rw [List.all_cons, Bool.and_eq_true] at h
    rw [List.map_cons, List.flatMap_cons, encodeChar_charOf h.1, ih h.2]
    rfl

theorem IsPlain.strip {path : String} (h : IsPlain path) : IsPlain (Text.strip path) := by
  unfold IsPlain Text.Utf8.encode at *
  rw [List.all_flatMap, List.all_eq_true] at *
  intro c hc
  rw [Text.strip, String.toList_ofList] at hc
  exact h c (Text.mem_of_mem_stripChars hc)

/-- What is printed is a plain path, or it stands between double quotes. -/
theorem printed_cases (path : List UInt8) :
    (∃ text : String, IsPlain text ∧ Text.Utf8.encode text = path ∧ printed path = text.toList) ∨
      ∃ cs, printed path = '"' :: (cs ++ ['"']) := by
  rcases hplain : path.all isPlainByte with _ | _
  · exact Or.inr ⟨_, by rw [printed, if_neg (by simp [hplain])]⟩
  · have hencode := encode_map_charOf hplain
    refine Or.inl ⟨_, ?_, hencode, ?_⟩
    · rw [IsPlain, hencode, hplain]
    · rw [printed, if_pos hplain, String.toList_ofList]

theorem printed_encode {path : String} (h : IsPlain path) :
    printed (Text.Utf8.encode path) = path.toList := by
  rw [printed, if_pos (show _ = true from h), map_charOf_encode h]

theorem printed_unbroken (path : List UInt8) : ∀ c ∈ printed path, Text.isLineBreak c = false := by
  intro c hc
  unfold printed at hc
  split_ifs at hc with hplain
  · obtain ⟨byte, hbyte, rfl⟩ := List.mem_map.mp hc
    exact charOf_unbroken (List.all_eq_true.mp hplain byte hbyte)
  · have hquote : Text.isLineBreak '"' = false := by decide
    simp only [List.mem_cons, List.mem_append, List.mem_flatMap, List.not_mem_nil, or_false] at hc
    rcases hc with rfl | ⟨byte, -, hbyte⟩ | rfl
    · exact hquote
    · exact quotedByte_unbroken byte c hbyte
    · exact hquote

/-- Each path is on a line of its own. -/
theorem brokenLines_listing (paths : List (List UInt8)) :
    Text.brokenLines (listing paths) = paths.map fun path => String.ofList (printed path) := by
  rw [Text.brokenLines, listing, String.toList_ofList]
  induction paths with
  | nil => rfl
  | cons path paths ih =>
    rw [List.flatMap_cons, List.append_assoc, List.singleton_append,
      Text.brokenLinesFrom_line (printed_unbroken path), List.map_cons, ih]
    rfl

/-- A letter beyond ASCII is printed as its bytes, in octal digits and between double quotes. -/
example : listing [Text.Utf8.encode "ü.cs", Text.Utf8.encode "a.cs"] = "\"\\303\\274.cs\"\na.cs\n" := by
  decide +kernel

end PathListing

/-! ### What the reader finds -/

namespace Checkout

open PathListing

theorem isRelevant_iff {c : Checkout} {path : String} :
    c.isRelevant path = true ↔ ∃ e ∈ c.endings, e.toList <:+ (Text.lower path).toList := by
  simp only [isRelevant, List.any_eq_true, Text.endsWith_iff]

/-- The ending of an extension has a point. -/
theorem point_mem_ending (extension : String) : '.' ∈ (ending extension).toList := by
  unfold ending
  split_ifs with hpoint
  · obtain ⟨rest, hrest⟩ := Option.isSome_iff_exists.mp hpoint
    have hlist : extension.toList = '.' :: rest := Text.dropStart_eq_some.mp hrest
    rw [Text.lower, String.toList_ofList, hlist]
    exact List.mem_cons_self
  · rw [String.toList_append]
    exact List.mem_cons_self

theorem make_endings {root : String} {extensions : Value} {c : Checkout}
    (h : make root extensions = .ok c) : ∀ e ∈ c.endings, '.' ∈ e.toList := by
  have hlist : ∀ {items : List Value} {endings : List String}, items.mapM endingOf = .ok endings →
      ∀ e ∈ endings, '.' ∈ e.toList := by
    intro items
    induction items with
    | nil =>
      intro endings hendings
      cases hendings
      simp
    | cons v items ih =>
      intro endings hendings
      rw [List.mapM_cons] at hendings
      simp only [Action.except_bind_eq_ok] at hendings
      obtain ⟨first, hfirst, more, hmore, hdone⟩ := hendings
      cases hdone
      refine List.forall_mem_cons.mpr ⟨?_, ih hmore⟩
      rcases v with _ | _ | _ | _ | text | _ | _ | _ <;> cases hfirst
      exact point_mem_ending text
  simp only [make, Action.except_bind_eq_ok] at h
  obtain ⟨items, -, endings, hendings, hdone⟩ := h
  cases hdone
  exact hlist hendings

theorem isRelevant_ne_empty {root : String} {extensions : Value} {c : Checkout}
    (hmake : make root extensions = .ok c) {path : String} (h : c.isRelevant path = true) :
    path ≠ "" := by
  rintro rfl
  obtain ⟨e, he, hsuffix⟩ := isRelevant_iff.mp h
  have hpoint := hsuffix.mem (make_endings hmake e he)
  cases hpoint

/-- Lower case leaves a double quote at the end alone. -/
theorem lower_quote (cs : List Char) :
    ∃ small, Text.lower (String.ofList (cs ++ ['"'])) = String.ofList (small ++ ['"']) := by
  have hfrom : ∀ (cs before : List Char), ∃ small, Text.lowerFrom before (cs ++ ['"']) = small ++ ['"'] := by
    intro cs
    induction cs with
    | nil => exact fun before => ⟨[], rfl⟩
    | cons c cs ih =>
      intro before
      obtain ⟨small, hsmall⟩ := ih (c :: before)
      rw [List.cons_append, Text.lowerFrom, hsmall]
      exact ⟨_, (List.append_assoc _ _ _).symm⟩
  obtain ⟨small, hsmall⟩ := hfrom cs []
  exact ⟨small, by rw [Text.lower, String.toList_ofList, Text.lowerChars, hsmall]⟩

/-- What stands between double quotes ends in one, so it has the ending of a path of interest only if this
ends in a double quote as well. -/
theorem isRelevant_quoted {root : String} {extensions : Value} {c : Checkout}
    (hmake : make root extensions = .ok c)
    (hendings : ∀ e ∈ c.endings, Text.endsWith e "\"" = false) (cs : List Char) :
    c.isRelevant (String.ofList (cs ++ ['"'])) = false := by
  refine Bool.eq_false_iff.mpr fun h => ?_
  obtain ⟨e, he, hsuffix⟩ := isRelevant_iff.mp h
  obtain ⟨small, hsmall⟩ := lower_quote cs
  rw [hsmall, String.toList_ofList] at hsuffix
  rcases List.suffix_concat_iff.mp hsuffix with hempty | ⟨before, hquote, -⟩
  · exact absurd (make_endings hmake e he) (by simp [hempty])
  · have hends : Text.endsWith e "\"" = true := Text.endsWith_iff.mpr ⟨before, hquote.symm⟩
    rw [hendings e he] at hends
    cases hends

/-- Whether version control can be asked about two commits in a checkout: no text that it is given holds
the character with which the texts of the system end. -/
def CanDiff (c : Checkout) (base head : String) : Prop :=
  ∀ text ∈ [base, head, c.root.text], '\x00' ∉ text.toList

instance (c : Checkout) (base head : String) : Decidable (c.CanDiff base head) :=
  inferInstanceAs (Decidable (∀ text ∈ [base, head, c.root.text], '\x00' ∉ text.toList))

theorem CanDiff.check {c : Checkout} {base head : String} (h : c.CanDiff base head) :
    (c.diff base head).check = .ok () := by
  obtain ⟨hbase, hhead, hroot⟩ :
      '\x00' ∉ base.toList ∧ '\x00' ∉ head.toList ∧ '\x00' ∉ c.root.text.toList := by
    simpa [CanDiff] using h
  have hfixed : ∀ arg ∈ ["git", "diff", "--name-only"], '\x00' ∉ arg.toList := by decide
  refine Job.check_iff.mpr ⟨fun arg harg => ?_, .text hroot⟩
  rcases List.mem_append.mp (show arg ∈ ["git", "diff", "--name-only"] ++ [base, head] from harg) with h | h
  · exact hfixed arg h
  · have hcommits : ∀ text ∈ [base, head], '\x00' ∉ text.toList := by simp [hbase, hhead]
    exact hcommits arg h

theorem changedPaths_exited {s : Runner} {output errors : String}
    (hgit : s.child = .exited 0 output errors) {c : Checkout} {base head : String}
    (hcan : c.CanDiff base head) :
    ∃ t, c.changedPaths base head s = (.ok (c.select (Text.brokenLines output)), t) := by
  rw [changedPaths, Action.bind_run, Job.start_run rfl hcan.check]
  simp only [hgit, if_true]
  obtain ⟨shown, w, hlog, -⟩ := Job.log_run .info source _ _
  rw [Action.bind_run_ok hlog]
  exact ⟨_, rfl⟩

theorem mem_select {c : Checkout} {paths : List String} {q : String} :
    q ∈ c.select paths ↔ q ≠ "" ∧ c.isRelevant q = true ∧ ∃ path ∈ paths, Text.strip path = q := by
  rw [select, Text.mem_ascending, List.mem_filter, List.mem_map, and_comm]
  simp only [Bool.and_eq_true, bne_iff_ne, ne_eq, and_assoc]

/-- Whether a path is one of interest among the changed ones. -/
def Concerns (c : Checkout) (paths : List (List UInt8)) (path : String) : Prop :=
  Text.Utf8.encode path ∈ paths ∧ c.isRelevant path = true

/-- If no ending of interest ends in a double quote, then the plain paths alone are found. -/
theorem exists_printed_iff {root : String} {extensions : Value} {c : Checkout}
    (hmake : make root extensions = .ok c)
    (hendings : ∀ e ∈ c.endings, Text.endsWith e "\"" = false) {paths : List (List UInt8)} {q : String}
    (hq : c.isRelevant q = true) :
    (∃ path ∈ paths, Text.strip (String.ofList (printed path)) = q) ↔
      ∃ r, Text.Utf8.encode r ∈ paths ∧ IsPlain r ∧ Text.strip r = q := by
  constructor
  · rintro ⟨path, hpath, rfl⟩
    rcases printed_cases path with ⟨text, hplain, hencode, hprinted⟩ | ⟨cs, hprinted⟩
    · rw [hprinted, String.ofList_toList]
      exact ⟨text, hencode ▸ hpath, hplain, rfl⟩
    · have hquote : Text.isBlank '"' = false := by decide
      rw [hprinted, Text.strip_ofList (Text.stripChars_between hquote hquote cs),
        ← List.cons_append, isRelevant_quoted hmake hendings] at hq
      cases hq
  · rintro ⟨r, hr, hplain, rfl⟩
    refine ⟨_, hr, ?_⟩
    rw [printed_encode hplain, String.ofList_toList]

/-- Where version control can be asked, the paths found are the lines of interest of its listing without the
blanks around them. If no ending of interest ends in a double quote, then these are the changed paths of
interest if and only if every one of them is printed as it is and has no blanks around it, and no other path
becomes one of interest without its blanks. -/
theorem changedPaths_of_listing {root : String} {extensions : Value} {c : Checkout}
    (hmake : make root extensions = .ok c) {s : Runner} {paths : List (List UInt8)} {errors : String}
    (hgit : s.child = .exited 0 (listing paths) errors) {base head : String}
    (hcan : c.CanDiff base head) :
    ∃ found t, c.changedPaths base head s = (.ok found, t) ∧ found.Pairwise (· < ·) ∧
      (∀ q, q ∈ found ↔ c.isRelevant q = true ∧
        ∃ path ∈ paths, Text.strip (String.ofList (printed path)) = q) ∧
      ((∀ e ∈ c.endings, Text.endsWith e "\"" = false) →
        ((∀ q, q ∈ found ↔ c.Concerns paths q) ↔
          (∀ q, c.Concerns paths q → IsTidy q) ∧
            ∀ q, Text.Utf8.encode q ∈ paths → IsPlain q → c.isRelevant (Text.strip q) = true →
              Text.Utf8.encode (Text.strip q) ∈ paths)) := by
  obtain ⟨t, hrun⟩ := changedPaths_exited hgit hcan
  have hfound : ∀ q, q ∈ c.select (Text.brokenLines (listing paths)) ↔
      c.isRelevant q = true ∧ ∃ path ∈ paths, Text.strip (String.ofList (printed path)) = q := by
    intro q
    rw [mem_select, brokenLines_listing]
    constructor
    · rintro ⟨-, hrelevant, line, hline, hstrip⟩
      obtain ⟨path, hpath, rfl⟩ := List.mem_map.mp hline
      exact ⟨hrelevant, path, hpath, hstrip⟩
    · rintro ⟨hrelevant, path, hpath, hstrip⟩
      exact ⟨isRelevant_ne_empty hmake hrelevant, hrelevant, _, List.mem_map_of_mem hpath, hstrip⟩
  refine ⟨_, t, hrun, Text.ascending_pairwise _, hfound, fun hendings => ?_⟩
  have hplain : ∀ q, q ∈ c.select (Text.brokenLines (listing paths)) ↔
      c.isRelevant q = true ∧ ∃ r, Text.Utf8.encode r ∈ paths ∧ IsPlain r ∧ Text.strip r = q :=
    fun q => (hfound q).trans (and_congr_right (exists_printed_iff hmake hendings))
  constructor
  · intro hall
    refine ⟨fun q hq => ?_, fun q hq hprint hrelevant => ?_⟩
    · obtain ⟨-, r, -, hr, rfl⟩ := (hplain q).mp ((hall q).mpr hq)
      exact ⟨hr.strip, Text.strip_idem r⟩
    · exact ((hall _).mp ((hplain _).mpr ⟨hrelevant, q, hq, hprint, rfl⟩)).1
  · rintro ⟨htidy, hkept⟩ q
    constructor
    · intro hq
      obtain ⟨hrelevant, r, hr, hprint, rfl⟩ := (hplain q).mp hq
      exact ⟨hkept r hr hprint hrelevant, hrelevant⟩
    · intro hq
      exact (hplain q).mpr ⟨hq.2, q, hq.1, (htidy q hq).plain, (htidy q hq).stripped⟩

/-- Two source files and a text file. -/
def threeNames : List String :=
  ["src/Order.CS", "notes.md", "Cart.cs"]

theorem changedPaths_of_threeNames :
    ∃ found t, (Checkout.mk (.ofText ".") [".cs"]).changedPaths "base" "head"
        { Runner.fresh 0 with child := .exited 0 (listing (threeNames.map Text.Utf8.encode)) "" } =
          (.ok found, t) ∧
      found.Pairwise (· < ·) ∧ ∀ q, q ∈ found ↔ q = "src/Order.CS" ∨ q = "Cart.cs" := by
  have hmake : make "." (.list [.str ".cs"]) = .ok ⟨.ofText ".", [".cs"]⟩ := rfl
  obtain ⟨found, t, hrun, hsorted, -, hexact⟩ :=
    changedPaths_of_listing hmake (s := { Runner.fresh 0 with
      child := .exited 0 (listing (threeNames.map Text.Utf8.encode)) "" }) rfl
      (show CanDiff ⟨.ofText ".", [".cs"]⟩ "base" "head" by decide)
  have hendings : ∀ e ∈ [".cs"], Text.endsWith e "\"" = false := by decide
  have hconcerns : ∀ q, (Checkout.mk (.ofText ".") [".cs"]).Concerns (threeNames.map Text.Utf8.encode) q ↔
      q = "src/Order.CS" ∨ q = "Cart.cs" := by
    have hrelevant : ∀ q ∈ threeNames, (Checkout.mk (.ofText ".") [".cs"]).isRelevant q =
        decide (q = "src/Order.CS" ∨ q = "Cart.cs") := by decide +kernel
    have hnamed : ∀ q, (q = "src/Order.CS" ∨ q = "Cart.cs") → q ∈ threeNames := by
      rintro q (rfl | rfl) <;> simp [threeNames]
    intro q
    rw [Concerns, Text.Utf8.mem_map_encode]
    constructor
    · rintro ⟨hq, h⟩
      rw [hrelevant q hq] at h
      exact of_decide_eq_true h
    · intro h
      exact ⟨hnamed q h, (hrelevant q (hnamed q h)).trans (decide_eq_true h)⟩
  have hstrip : ∀ q ∈ threeNames, IsPlain q ∧ Text.strip q = q := by decide +kernel
  have hall : ∀ q, q ∈ found ↔ (Checkout.mk (.ofText ".") [".cs"]).Concerns
      (threeNames.map Text.Utf8.encode) q := by
    refine (hexact hendings).mpr ⟨fun q hq => ?_, fun q hq _ _ => ?_⟩
    · obtain ⟨hplain, hq⟩ := hstrip q (Text.Utf8.mem_map_encode.mp hq.1)
      exact ⟨hplain, hq⟩
    · rwa [(hstrip q (Text.Utf8.mem_map_encode.mp hq)).2]
  exact ⟨found, t, hrun, hsorted, fun q => (hall q).trans (hconcerns q)⟩

/-- A machine on which version control names one source file, which has a letter beyond ASCII in its name. -/
def umlautChanged : Runner :=
  { Runner.fresh 0 with child := .exited 0 (listing [Text.Utf8.encode "ü.cs"]) "" }

/-- The source file is changed and of interest, but it is printed between double quotes and so is not
found. -/
theorem changedPaths_misses_umlaut :
    (Checkout.mk (.ofText ".") [".cs"]).Concerns [Text.Utf8.encode "ü.cs"] "ü.cs" ∧
      ∃ t, (Checkout.mk (.ofText ".") [".cs"]).changedPaths "base" "head" umlautChanged = (.ok [], t) := by
  have hrelevant : (Checkout.mk (.ofText ".") [".cs"]).isRelevant "ü.cs" = true := by decide +kernel
  have hselect : (Checkout.mk (.ofText ".") [".cs"]).select
      (Text.brokenLines (listing [Text.Utf8.encode "ü.cs"])) = [] := by decide +kernel
  obtain ⟨t, hrun⟩ := changedPaths_exited (s := umlautChanged) rfl
    (show CanDiff ⟨.ofText ".", [".cs"]⟩ "base" "head" by decide)
  rw [hselect] at hrun
  exact ⟨⟨List.mem_singleton_self _, hrelevant⟩, t, hrun⟩

end Checkout

end ReviewGate

import ImportAtlas.Pattern.Exclusion
import ImportAtlas.Proofs.Import.Candidate
import ImportAtlas.Proofs.Pattern.Glob
import Mathlib.Data.List.Infix

/-!
# Excluded directories

A pattern of a directory and `/*` is tried in three ways: name by name from the end of a path, as a
glob over the whole of it, and by the names of the directories above the file. The first way finds
the directory right above the file, the second one at the root, and the third one anywhere, but only
if it has a single name. So a directory that is spelled with several names is missed where it
stands neither at the root nor right above the file.

## Key results

- `Path.matches?_directory`, `Path.accepts_directory_iff`, `excludedDirectory?_append`: the three
  ways
- `shouldSkip?_directory`: which files a directory excludes
- `shouldSkip?_between`: a directory of two names between others is missed
-/

namespace ImportAtlas

namespace Path

variable {names directories : List String} {file : String}

/-! ## Spellings -/

/-- A path in whose spelling no character is special. -/
def IsLiteral (p : Path) : Prop :=
  Glob.IsLiteral p.text.toList

/-- A relative path is spelled with slashes between its names. -/
theorem toList_text {names : List String} (hnames : names ≠ []) :
    (Path.mk .here names).text.toList = ['/'].intercalate (names.map String.toList) := by
  rw [text, if_neg fun h => hnames h.2, Anchor.text, String.empty_append, String.toList_ofList]

/-- A path of one name is spelled as that name. -/
theorem text_singleton (n : String) : (Path.mk .here [n]).text = n := by
  apply String.toList_inj.1
  rw [toList_text (List.cons_ne_nil n [])]
  simp [List.intercalate]

/-- A slash stands between the names of a directory and those that come after it. -/
theorem toList_text_append {more : List String} (hnames : names ≠ []) (hmore : more ≠ []) :
    (Path.mk .here (names ++ more)).text.toList =
      (Path.mk .here names).text.toList ++ '/' :: (Path.mk .here more).text.toList := by
  rw [toList_text hnames, toList_text hmore, toList_text (by simp [hnames]), List.map_append,
    List.intercalate_append (by simpa) (by simpa), List.append_assoc, List.singleton_append]

/-- The spelling of a path starts with that of a directory and a slash just if the path leads on
from the directory. -/
theorem text_append_prefix_iff {ns : List String} (hnames : names ≠ [])
    (hwf : (Path.mk .here names).WellFormed) (hns : (Path.mk .here ns).WellFormed) :
    (Path.mk .here names).text.toList ++ ['/'] <+: (Path.mk .here ns).text.toList ↔
      ∃ more, more ≠ [] ∧ ns = names ++ more := by
  have hread {ns : List String} (hns : (Path.mk .here ns).WellFormed) :
      namesOf (Path.mk .here ns).text.toList = ns :=
    congrArg Path.names (ofText_text hns)
  constructor
  · rintro ⟨rest, hrest⟩
    rw [List.append_assoc, List.singleton_append] at hrest
    have hnames' := congrArg namesOf hrest
    rw [namesOf_append_slash, hread hwf, hread hns] at hnames'
    refine ⟨namesOf rest, fun hnil => ?_, hnames'.symm⟩
    -- Without more names the spellings would be the same, slash or not.
    rw [hnil, List.append_nil] at hnames'
    subst hnames'
    simpa using congrArg List.length hrest
  · rintro ⟨more, hmore, rfl⟩
    rw [toList_text_append hnames hmore]
    exact ⟨_, by rw [List.append_assoc, List.singleton_append]⟩

/-- With a slash in front a path is absolute. -/
theorem isAbsolute_ofText {s : String} (h : s.toList.head? = some '/') :
    (ofText s).isAbsolute = true := by
  obtain ⟨rest, hs⟩ := List.head?_eq_some_iff.1 h
  have hcount : (s.toList.takeWhile (· == '/')).length ≠ 0 := by
    simp [hs]
  -- One slash, two, or more give different anchors, and all of them are absolute.
  cases hslashes : (s.toList.takeWhile (· == '/')).length with
  | zero => exact absurd hslashes hcount
  | succ k =>
    simp only [ofText, isAbsolute, hslashes]
    cases k with
    | zero => rfl
    | succ k => cases k <;> rfl

/-- Leading slashes are no name. -/
theorem isName_anchor (anchor : Anchor) : isName anchor.text = false := by
  cases anchor <;> decide

/-- The spelling of an absolute path has a slash in front. -/
theorem exists_text_of_isAbsolute {p : Path} (h : p.isAbsolute = true) :
    ∃ rest, p.text.toList = '/' :: rest := by
  have hanchor : p.anchor ≠ .here := by
    simpa [isAbsolute] using h
  rw [text, if_neg fun hhere => hanchor hhere.1, String.toList_append]
  -- Either anchor of an absolute path is written with slashes.
  cases hslash : p.anchor with
  | here => exact absurd hslash hanchor
  | root => exact ⟨_, rfl⟩
  | doubleRoot => exact ⟨_, rfl⟩

/-! ## Three ways to match -/

/-- A name without special characters matches itself alone. -/
theorem accepts_name_iff {n m : String} (hn : Glob.IsLiteral n.toList) :
    (Glob.ofText n).accepts m.toList = true ↔ m = n := by
  rw [Glob.ofText, Glob.accepts_literal_iff hn, String.toList_inj]

/-- Where all globs stand for themselves, the parts that match are those that are equal. -/
theorem partsMatch_iff {parts globs : List String}
    (hglobs : ∀ n ∈ globs, Glob.IsLiteral n.toList) (hlength : globs.length ≤ parts.length) :
    partsMatch parts globs = true ↔ globs <+: parts := by
  induction globs generalizing parts with
  | nil => simp [partsMatch]
  | cons n globs ih =>
    obtain ⟨hn, hrest⟩ := List.forall_mem_cons.1 hglobs
    -- The lengths rule out a glob without a part.
    cases parts with
    | nil => simp at hlength
    | cons m parts =>
      have hlength' : globs.length ≤ parts.length := by simpa using hlength
      have hcons : partsMatch (m :: parts) (n :: globs) =
          ((Glob.ofText n).accepts m.toList && partsMatch parts globs) := rfl
      rw [hcons, Bool.and_eq_true, accepts_name_iff hn, ih hrest hlength',
        List.cons_prefix_cons, eq_comm]

/-- The last parts of a path match those of a directory and a `*` just if the directory is right
above the last name. -/
theorem matches?_directory (hnames : ∀ n ∈ names, Glob.IsLiteral n.toList) :
    (Path.mk .here (directories ++ [file])).matches? (Path.mk .here (names ++ ["*"])) =
      some (decide (names <:+ directories)) := by
  have hparts (ns : List String) : (Path.mk .here ns).parts = ns := rfl
  have hstar : (Glob.ofText "*").accepts file.toList = true := by
    have hglob : Glob.ofText "*" = [.anyRun] := by
      simp [Glob.ofText, Glob.ofChars]
    rw [hglob, Glob.accepts_anyRun]
  -- Parts are compared from the last one on, and there the star takes the file.
  have hmatch : partsMatch (directories ++ [file]).reverse (names ++ ["*"]).reverse =
      partsMatch directories.reverse names.reverse := by
    rw [List.reverse_append, List.reverse_append]
    simp [partsMatch, hstar]
  unfold matches?
  rw [hparts, hparts, if_neg (by simp), if_neg (by simp [isAbsolute]), hmatch, Option.some_inj,
    Bool.eq_iff_iff, Bool.and_eq_true, decide_eq_true_eq, decide_eq_true_eq]
  constructor
  · rintro ⟨hlength, hparts⟩
    rw [partsMatch_iff (by simpa using hnames) (by simpa using hlength)] at hparts
    exact List.reverse_prefix.1 hparts
  · intro hlast
    refine ⟨by simpa using hlast.length_le, ?_⟩
    rw [partsMatch_iff (by simpa using hnames) (by simpa using hlast.length_le)]
    exact List.reverse_prefix.2 hlast

/-- A glob of a directory and a `*` stands for all spellings that start with the directory and a
slash. -/
theorem accepts_star_iff {directory : Path} (hliteral : directory.IsLiteral) (t : List Char) :
    (Glob.ofText (directory.text ++ "/*")).accepts t = true ↔
      directory.text.toList ++ ['/'] <+: t := by
  have hspelled : (directory.text ++ "/*").toList = directory.text.toList ++ ['/'] ++ ['*'] := by
    simp
  -- Nothing before the star is special, so it is compared character by character.
  have hslash : Glob.IsLiteral (directory.text.toList ++ ['/']) := by
    intro c hc
    rcases List.mem_append.1 hc with hc | hc
    · exact hliteral c hc
    · rw [List.mem_singleton.1 hc]
      decide
  rw [Glob.ofText, hspelled, Glob.accepts_literal_anyRun_iff hslash]

/-- The spelling of a path matches that of a directory and a `*` just if the path starts there. -/
theorem accepts_directory_iff (hne : names ≠ []) (hwf : (Path.mk .here names).WellFormed)
    (hliteral : (Path.mk .here names).IsLiteral)
    (hpath : (Path.mk .here (directories ++ [file])).WellFormed) :
    (Glob.ofText ((Path.mk .here names).text ++ "/*")).accepts
      (Path.mk .here (directories ++ [file])).text.toList = true ↔ names <+: directories := by
  rw [accepts_star_iff hliteral, text_append_prefix_iff hne hwf hpath]
  constructor
  · rintro ⟨more, hmore, hnames⟩
    -- The file is the last of the names behind the directory.
    rw [← List.dropLast_append_getLast hmore, ← List.append_assoc] at hnames
    exact ⟨_, (List.append_inj_left' hnames rfl).symm⟩
  · rintro ⟨more, rfl⟩
    exact ⟨more ++ [file], by simp, List.append_assoc _ _ _⟩

end Path

/-- To match one pattern of a list is to match the pattern. -/
theorem excludedByAny?_singleton (pattern : String) (p : Path) :
    excludedByAny? [pattern] p = excludes? pattern p := by
  rw [excludedByAny?]
  cases excludes? pattern p with
  | none => rfl
  | some excluded => cases excluded <;> rfl

/-- Only a pattern without parts is refused. -/
theorem excludes?_eq_none_iff {pattern : String} {p : Path} :
    excludes? pattern p = none ↔ (Path.ofText pattern).parts = [] := by
  -- Only a pattern without parts is refused.
  have hmatches : p.matches? (Path.ofText pattern) = none ↔ (Path.ofText pattern).parts = [] := by
    unfold Path.matches?
    split
    · simp [*]
    · split <;> simp [*]
  rw [← hmatches, excludes?]
  cases p.matches? (Path.ofText pattern) with
  | none => exact iff_of_true rfl rfl
  | some byName => exact iff_of_false nofun nofun

/-- A list of patterns is refused only for one without parts. -/
theorem exists_of_excludedByAny?_eq_none {patterns : List String} {p : Path}
    (h : excludedByAny? patterns p = none) :
    ∃ pattern ∈ patterns, (Path.ofText pattern).parts = [] := by
  induction patterns with
  | nil => cases h
  | cons pattern patterns ih =>
    rw [List.exists_mem_cons_iff]
    rw [excludedByAny?] at h
    -- A pattern without parts stops the search; any other one decides or passes on.
    cases hexcludes : excludes? pattern p with
    | none => exact .inl (excludes?_eq_none_iff.1 hexcludes)
    | some excluded =>
      rw [hexcludes] at h
      cases excluded with
      | true => cases h
      | false => exact .inr (ih h)

/-- A pattern that ends in a star below a slash names the directory above. -/
theorem excludedDirectory?_append (s : String) : excludedDirectory? (s ++ "/*") = some s := by
  simp [excludedDirectory?]

/-! ## Files that a directory excludes -/

section Directory

variable {names directories : List String} {file : String}

/-- The spelling of a directory is a name of a path just if the directory has a single name. -/
theorem text_mem_iff (hpath : ∀ n ∈ directories, Path.isName n = true) :
    (Path.mk .here names).text ∈ directories ↔ names.length = 1 ∧ names <:+: directories := by
  cases names with
  | nil =>
    refine iff_of_false (fun hdot => ?_) (by simp)
    exact absurd (hpath _ hdot) (by decide)
  | cons n more =>
    cases more with
    | nil =>
      rw [Path.text_singleton, List.mem_iff_append]
      simp [List.IsInfix, eq_comm]
    | cons m more =>
      refine iff_of_false (fun htext => ?_) (by simp)
      -- Between two names there is a slash, which no name has.
      have hslash := Path.toList_text_append (List.cons_ne_nil n []) (List.cons_ne_nil m more)
      have hname := hpath _ htext
      simp only [Path.isName, Bool.and_eq_true, Bool.not_eq_true', List.contains_eq_mem,
        decide_eq_false_iff_not] at hname
      refine hname.2 ?_
      rw [← List.singleton_append, hslash]
      simp

/-- The pattern of a relative directory is read as its names and a star. -/
theorem ofText_directoryPattern (hne : names ≠ []) (hwf : (Path.mk .here names).WellFormed) :
    Path.ofText ((Path.mk .here names).text ++ "/*") = Path.mk .here (names ++ ["*"]) := by
  -- The star is one more name of the path.
  have hspelled : (Path.mk .here names).text ++ "/*" = (Path.mk .here (names ++ ["*"])).text := by
    apply String.toList_inj.1
    rw [Path.toList_text_append hne (List.cons_ne_nil _ _), Path.text_singleton]
    simp
  rw [hspelled, Path.ofText_text]
  intro n hn
  rcases List.mem_append.1 hn with hn | hn
  · exact hwf n hn
  · rw [List.mem_singleton.1 hn]
    decide

/-- No name of a literal path is a pattern. -/
theorem isLiteral_of_mem_names (hne : names ≠ []) (hliteral : (Path.mk .here names).IsLiteral) :
    ∀ n ∈ names, Glob.IsLiteral n.toList := by
  intro n hn c hc
  -- A slash in a name would not be seen in the text, but it is no special character.
  by_cases hslash : c = '/'
  · rw [hslash]
    decide
  · refine hliteral c ?_
    rw [Path.toList_text hne, List.mem_intercalate_iff (by simpa using hslash)]
    exact ⟨_, List.mem_map.2 ⟨n, hn, rfl⟩, hc⟩

/-- A relative directory is met at the root, right above the file, or, if it has a single name,
anywhere above the file. -/
theorem excludes?_relative (hne : names ≠ []) (hwf : (Path.mk .here names).WellFormed)
    (hliteral : (Path.mk .here names).IsLiteral)
    (hpath : (Path.mk .here (directories ++ [file])).WellFormed) :
    excludes? ((Path.mk .here names).text ++ "/*") (Path.mk .here (directories ++ [file])) =
      some (decide (names <:+ directories ∨ names <+: directories ∨
        names.length = 1 ∧ names <:+: directories)) := by
  have hdirectories : ∀ n ∈ directories, Path.isName n = true :=
    fun n hn => hpath n (List.mem_append_left _ hn)
  -- The directories that a pattern is compared with are all parts but the last.
  have hparts : (Path.mk .here (directories ++ [file])).parts.dropLast = directories :=
    List.dropLast_concat
  unfold excludes?
  rw [ofText_directoryPattern hne hwf,
    Path.matches?_directory (isLiteral_of_mem_names hne hliteral), excludedDirectory?_append,
    hparts]
  simp only [Option.bind_eq_bind, Option.bind_some, Option.any_some, Option.pure_def,
    Option.some_inj]
  rw [Bool.eq_iff_iff, Bool.or_eq_true, Bool.or_eq_true, decide_eq_true_eq,
    Path.accepts_directory_iff hne hwf hliteral hpath, List.contains_iff_mem,
    text_mem_iff hdirectories, decide_eq_true_eq, or_assoc]

/-- An absolute directory excludes no file, for files are seen from the root that is scanned. -/
theorem excludes?_absolute {directory : Path} (habsolute : directory.isAbsolute = true)
    (hliteral : directory.IsLiteral) (hpath : (Path.mk .here (directories ++ [file])).WellFormed) :
    excludes? (directory.text ++ "/*") (Path.mk .here (directories ++ [file])) = some false := by
  obtain ⟨rest, htext⟩ := Path.exists_text_of_isAbsolute habsolute
  have hpattern : (Path.ofText (directory.text ++ "/*")).isAbsolute = true :=
    Path.isAbsolute_ofText (by simp [htext])
  have hmatch : (Path.mk .here (directories ++ [file])).matches?
      (Path.ofText (directory.text ++ "/*")) = some false := by
    have hanchor : Anchor.here ≠ (Path.ofText (directory.text ++ "/*")).anchor := by
      intro hhere
      rw [Path.isAbsolute, ← hhere] at hpattern
      cases hpattern
    have hparts : (Path.ofText (directory.text ++ "/*")).parts ≠ [] := by
      rw [Path.parts, if_pos hpattern]
      exact List.cons_ne_nil _ _
    rw [Path.matches?, if_neg hparts, if_pos hpattern, decide_eq_false hanchor]
    rfl
  have hglob : (Glob.ofText (directory.text ++ "/*")).accepts
      (Path.mk .here (directories ++ [file])).text.toList = false := by
    rw [Bool.eq_false_iff, ne_eq, Path.accepts_star_iff hliteral]
    rintro ⟨more, hmore⟩
    -- A path that is spelled with a slash in front does not start here.
    have hstart := Path.isAbsolute_ofText (s := (Path.mk .here (directories ++ [file])).text)
      (by simp [← hmore, htext])
    rw [Path.ofText_text hpath] at hstart
    cases hstart
  -- A directory of the path has no slash in its name.
  have hname : directory.text ∉ directories := by
    intro hmem
    have hname := hpath _ (List.mem_append_left _ hmem)
    simp [Path.isName, htext] at hname
  have hparts : (Path.mk .here (directories ++ [file])).parts.dropLast = directories :=
    List.dropLast_concat
  unfold excludes?
  rw [hmatch, hglob, excludedDirectory?_append, hparts]
  simp [hname]

/-- A file is excluded by a directory just if all names of the directory stand above the file, one
behind the other, and these are a single name, or the first ones, or the last ones. -/
theorem shouldSkip?_directory {directory : Path} (hwf : directory.WellFormed)
    (hne : directory.parts ≠ []) (hliteral : directory.IsLiteral) (root : Path)
    (hpath : ∀ n ∈ directories ++ [file], Path.isName n = true) :
    ∃ skipped, shouldSkip? [directory.text ++ "/*"] root
        { root with names := root.names ++ (directories ++ [file]) } = some skipped ∧
      (skipped = true ↔ directory.parts <:+: directories ∧ (directory.parts.length = 1 ∨
        directory.parts <+: directories ∨ directory.parts <:+ directories)) := by
  have hbelow : Path.below? { root with names := root.names ++ (directories ++ [file]) } root =
      some (.mk .here (directories ++ [file])) := by
    simp [Path.below?]
  unfold shouldSkip?
  rw [hbelow, Option.getD_some, excludedByAny?_singleton]
  obtain ⟨anchor, names⟩ := directory
  by_cases habsolute : (Path.mk anchor names).isAbsolute = true
  · refine ⟨false, ?_, iff_of_false Bool.false_ne_true ?_⟩
    · exact excludes?_absolute habsolute hliteral hpath
    · -- The slash in front is no name of a directory.
      rintro ⟨hconsecutive, -⟩
      rw [Path.parts, if_pos habsolute] at hconsecutive
      have hmem := hconsecutive.subset List.mem_cons_self
      have hname : Path.isName anchor.text = true := hpath _ (List.mem_append_left _ hmem)
      rw [Path.isName_anchor] at hname
      exact Bool.false_ne_true hname
  · have hparts : (Path.mk anchor names).parts = names := by
      rw [Path.parts, if_neg habsolute]
    rw [hparts] at hne ⊢
    have hanchor : anchor = .here := by
      simpa [Path.isAbsolute] using habsolute
    subst hanchor
    refine ⟨_, excludes?_relative hne hwf hliteral hpath, ?_⟩
    rw [decide_eq_true_eq]
    constructor
    · rintro (hlast | hfirst | ⟨hsingle, hconsecutive⟩)
      · exact ⟨hlast.isInfix, .inr (.inr hlast)⟩
      · exact ⟨hfirst.isInfix, .inr (.inl hfirst)⟩
      · exact ⟨hconsecutive, .inl hsingle⟩
    · rintro ⟨hconsecutive, hsingle | hfirst | hlast⟩
      · exact .inr (.inr ⟨hsingle, hconsecutive⟩)
      · exact .inr (.inl hfirst)
      · exact .inl hlast

private theorem text_ab : (Path.mk .here ["a", "b"]).text ++ "/*" = "a/b/*" := by
  decide +kernel

private theorem isLiteral_ab : (Path.mk .here ["a", "b"]).IsLiteral := by
  have htext : (Path.mk .here ["a", "b"]).text.toList = ['a', '/', 'b'] := by
    decide +kernel
  unfold Path.IsLiteral Glob.IsLiteral
  rw [htext]
  simp

/-- Two names at the root exclude a file two folders further down. -/
theorem shouldSkip?_directory_at_root : (Path.mk .here ["a", "b"]).WellFormed ∧
    (Path.mk .here ["a", "b"]).parts ≠ [] ∧ (Path.mk .here ["a", "b"]).IsLiteral ∧
    (∀ n ∈ ["a", "b", "c", "d"] ++ ["f.js"], Path.isName n = true) ∧
    shouldSkip? ["a/b/*"] (.mk .root ["r"]) (.mk .root ["r", "a", "b", "c", "d", "f.js"]) =
      some true := by
  have hwf : (Path.mk .here ["a", "b"]).WellFormed := by
    unfold Path.WellFormed
    decide
  have hpath : ∀ n ∈ ["a", "b", "c", "d"] ++ ["f.js"], Path.isName n = true := by
    decide
  obtain ⟨skipped, hskip, hiff⟩ :=
    shouldSkip?_directory hwf (by decide) isLiteral_ab (.mk .root ["r"]) hpath
  have htrue : skipped = true := hiff.2 (by decide)
  rw [text_ab, htrue] at hskip
  exact ⟨hwf, by decide, isLiteral_ab, hpath, hskip⟩

/-- The same names between others do not exclude what is further down. -/
theorem shouldSkip?_between : ["a", "b"] <:+: ["x", "a", "b", "c"] ∧
    shouldSkip? ["a/b/*"] (.ofText "/r") (.ofText "/r/x/a/b/c/f.js") = some false := by
  have hwf : (Path.mk .here ["a", "b"]).WellFormed := by
    unfold Path.WellFormed
    decide
  have hpath : (Path.mk .here (["x", "a", "b", "c"] ++ ["f.js"])).WellFormed := by
    unfold Path.WellFormed
    decide
  refine ⟨by decide, ?_⟩
  have hbelow : (Path.ofText "/r/x/a/b/c/f.js").below? (.ofText "/r") =
      some (.mk .here (["x", "a", "b", "c"] ++ ["f.js"])) := by
    decide +kernel
  have hskip := excludes?_relative (by decide) hwf isLiteral_ab hpath
  rw [text_ab] at hskip
  unfold shouldSkip?
  rw [hbelow, Option.getD_some, excludedByAny?_singleton, hskip]
  decide

end Directory

end ImportAtlas

import ImportAtlas.Import.Candidate
import ImportAtlas.Import.Kind
import ImportAtlas.Path.Relative
import ImportAtlas.Proofs.Path.Normal
import Mathlib.Data.List.TakeWhile

/-!
# Locators that are relative paths

A locator that is made of the relative path of a file leads back to that file: the steps up take
back the names that the directory does not share with the file, and the steps down put the other
names of the file behind the rest.

## Key results

- `Path.collapse_append_steps`: a directory with the steps to a target behind it is the target
- `collapse_relativeText`, `collapse_relativeLocator`: so it is with the steps as they are spelled
- `find?_candidatePaths`: a locator stands for the file that what it is short for leads to
-/

namespace ImportAtlas

namespace Path

/-! ## Spelled paths in two parts -/

/-- A slash ends a name. -/
theorem namesOf_append_slash (s rest : List Char) :
    namesOf (s ++ '/' :: rest) = namesOf s ++ namesOf rest := by
  simp only [namesOf, List.splitOn_append_cons_self, List.map_append, List.filter_append]

/-- Without a slash in front a path is relative. -/
theorem ofText_of_head_ne {s : String} (h : s.toList.head? ≠ some '/') :
    ofText s = ⟨.here, namesOf s.toList⟩ := by
  have hslashes : s.toList.takeWhile (· == '/') = [] := by
    cases hs : s.toList with
    | nil => rfl
    | cons c cs =>
      rw [hs, List.head?_cons, ne_eq, Option.some_inj] at h
      simp [h]
  rw [ofText, hslashes]
  rfl

/-- A dot and a slash in front of a relative path change nothing. -/
theorem ofText_dotSlash {s : String} (h : s.toList.head? ≠ some '/') :
    ofText ("./" ++ s) = ofText s := by
  have htext : ("./" ++ s).toList = ['.'] ++ '/' :: s.toList := by
    rw [String.toList_append]
    rfl
  have hhead : ("./" ++ s).toList.head? ≠ some '/' := by
    rw [htext]
    simp
  rw [ofText_of_head_ne hhead, ofText_of_head_ne h, htext, namesOf_append_slash]
  rfl

/-- The directory of a spelled path starts where the path does. -/
theorem anchor_directoryOf (s : String) : (directoryOf s).anchor = (ofText s).anchor := by
  -- Behind the directory stands a last part without slashes, and the directory ends in one.
  have hsplit : s.toList = (s.toList.reverse.dropWhile (· != '/')).reverse ++
      (s.toList.reverse.takeWhile (· != '/')).reverse := by
    rw [← List.reverse_append, List.takeWhile_append_dropWhile, List.reverse_reverse]
  have hlast : ∀ c ∈ (s.toList.reverse.takeWhile (· != '/')).reverse, c ≠ '/' := by
    intro c hc
    have := List.mem_takeWhile_imp (List.mem_reverse.1 hc)
    simpa using this
  unfold directoryOf ofText
  rw [String.toList_ofList]
  generalize (s.toList.reverse.dropWhile (· != '/')).reverse = front at hsplit
  generalize (s.toList.reverse.takeWhile (· != '/')).reverse = last at hsplit hlast
  have hslashes : s.toList.takeWhile (· == '/') = front.takeWhile (· == '/') := by
    have hnone : last.takeWhile (· == '/') = [] := by
      cases last with
      | nil => rfl
      | cons c last => simp [hlast c List.mem_cons_self]
    rw [hsplit, List.takeWhile_append, hnone]
    split
    · rename_i hall
      rw [List.append_nil]
      exact (List.IsPrefix.eq_of_length (List.takeWhile_prefix _) hall).symm
    · rfl
  rw [hslashes]

/-! ## Steps to a target -/

/-- Names other than `..` are climbed into, and steps up take the innermost ones back. -/
theorem foldl_climb_replicate (k : Nat) (climbed : List String) (h : ∀ n ∈ climbed, n ≠ "..") :
    (List.replicate k "..").foldl (climb true) climbed = climbed.drop k := by
  induction k generalizing climbed with
  | zero => rfl
  | succ k ih =>
    rw [List.replicate_succ, List.foldl_cons]
    -- Above the root a step up leads nowhere.
    cases climbed with
    | nil =>
      show (List.replicate k "..").foldl (climb true) [] = []
      rw [ih [] nofun, List.drop_nil]
    | cons n climbed =>
      rw [List.forall_mem_cons] at h
      have hclimb : climb true (n :: climbed) ".." = climbed := by simp [climb, h.1]
      rw [hclimb, ih climbed h.2, List.drop_succ_cons]

/-- A directory with the steps to a target behind it is the target, once every `..` is taken
back. -/
theorem collapse_append_steps {directory target : Path} (habsolute : directory.isAbsolute = true)
    (hwell : directory.WellFormed) (htarget : target.IsStraight)
    (hanchor : directory.anchor = target.anchor) :
    (directory / ⟨.here, stepsBetween directory.collapse.names target.names⟩ : Path).collapse =
      target := by
  have hstraight := isStraight_collapse habsolute hwell
  have hclimbed : directory.names.foldl (climb true) [] = directory.collapse.names.reverse := by
    rw [collapse, habsolute, List.reverse_reverse]
  generalize directory.collapse = start at hclimbed hstraight
  have hnames : (directory / ⟨.here, stepsBetween start.names target.names⟩ : Path).names =
      directory.names ++ stepsBetween start.names target.names :=
    append_names_of_relative rfl
  have habsolute' : (directory / ⟨.here, stepsBetween start.names target.names⟩ : Path).isAbsolute =
      true := by
    rw [isAbsolute, append_anchor_of_relative rfl]
    exact habsolute
  -- Both paths are collapsed, so no name of theirs is a step up.
  have hup : ∀ n ∈ start.names.reverse, n ≠ ".." :=
    fun n hn => (hstraight.names n (List.mem_reverse.1 hn)).2
  have hdown : ∀ n ∈ target.names.drop (commonLength start.names target.names), n ≠ ".." :=
    fun n hn => (htarget.names n (List.mem_of_mem_drop hn)).2
  have hle := commonLength_le_left start.names target.names
  -- The steps up leave the names in common, and the steps down put the other ones behind them.
  have hfold : (directory.names ++ stepsBetween start.names target.names).foldl (climb true) [] =
      target.names.reverse := by
    rw [List.foldl_append, hclimbed, stepsBetween, List.foldl_append,
      foldl_climb_replicate _ _ hup, foldl_climb hdown, List.drop_reverse, ← List.reverse_append,
      show start.names.length - (start.names.length - commonLength start.names target.names) =
        commonLength start.names target.names by omega, take_common_append]
  rw [collapse, hnames, habsolute', hfold, List.reverse_reverse, append_anchor_of_relative rfl,
    hanchor]

end Path

/-! ## Locators -/

/-- The path of `target` seen from a directory. -/
def relativeText (directory : Path) (target : String) : String :=
  ((Path.ofText target).relativeTo ⟨.root, []⟩ directory).text

/-- Whether a locator begins like those that are seen from the directory of the importing file. -/
def IsDotted (locator : String) : Prop :=
  Classifier.begins locator "./" = true ∨ Classifier.begins locator "../" = true

/-- The locator by which the file `importer` can name the file `target`: the path of `target` seen
from the directory of `importer`, with a dot and a slash in front unless it goes up. -/
def relativeLocator (importer target : String) : String :=
  let path := relativeText (.directoryOf importer) target
  if Classifier.begins path "../" then path else "./" ++ path

/-- What a locator is short for: for itself if it has an extension, and else for the one that has
the first of the extensions with which it does not miss. -/
inductive ShortFor (extensions : List String) (misses : String → Prop) (locator : String) :
    String → Prop where
  | itself (h : Path.hasExtension locator.toList = true) :
    ShortFor extensions misses locator locator
  | extended {before after : List String} {extension : String}
    (h : Path.hasExtension locator.toList = false)
    (hextensions : extensions = before ++ extension :: after)
    (hbefore : ∀ e ∈ before, misses (locator ++ "." ++ e)) :
    ShortFor extensions misses locator (locator ++ "." ++ extension)

/-- A relative locator begins with a dot. -/
theorem isDotted_relativeLocator (importer target : String) :
    IsDotted (relativeLocator importer target) := by
  unfold relativeLocator
  extract_lets path
  -- A relative path that goes up stays as it is, any other gets `./` in front.
  split
  · rename_i hup
    exact .inr hup
  · refine .inl ?_
    rw [Classifier.begins, List.isPrefixOf_iff_prefix, String.toList_append]
    exact List.prefix_append _ _

/-- So that is its first character. -/
theorem IsDotted.head?_eq {locator : String} (h : IsDotted locator) :
    locator.toList.head? = some '.' := by
  have hbegins {rest : List Char} (h : '.' :: rest <+: locator.toList) :
      locator.toList.head? = some '.' := by
    obtain ⟨more, hmore⟩ := h
    rw [← hmore]
    rfl
  -- Both `./` and `../` start with a dot.
  rcases h with h | h
  all_goals
    rw [Classifier.begins, List.isPrefixOf_iff_prefix] at h
    exact hbegins h

section Steps

variable {directory : Path} {target : String}

/-- A relative path is read as the steps that it is made of. -/
theorem ofText_relativeText (habsolute : directory.isAbsolute = true)
    (htarget : (Path.ofText target).IsStraight) :
    Path.ofText (relativeText directory target) =
      ⟨.here, Path.stepsBetween directory.collapse.names (Path.ofText target).names⟩ := by
  rw [relativeText, Path.ofText_text (htarget.wellFormed_relativeTo _ _), htarget.relativeTo_eq,
    Path.absolute, Path.append_of_absolute habsolute]

/-- The steps from one file to another do not begin with a slash. -/
theorem head?_relativeText (habsolute : directory.isAbsolute = true)
    (htarget : (Path.ofText target).IsStraight) :
    (relativeText directory target).toList.head? ≠ some '/' := by
  intro hhead
  -- A slash in front would make the path absolute.
  have hanchor : (Path.ofText (relativeText directory target)).anchor = .here := by
    rw [ofText_relativeText habsolute htarget]
  obtain ⟨rest, hrest⟩ := List.head?_eq_some_iff.1 hhead
  rw [Path.ofText, hrest, List.takeWhile_cons_of_pos (by decide), List.length_cons] at hanchor
  revert hanchor
  rcases (rest.takeWhile (· == '/')).length with _ | _ | _ <;> exact nofun

/-- A directory with the relative path of a target behind it is the target. -/
theorem collapse_relativeText (hwell : directory.WellFormed)
    (htarget : (Path.ofText target).IsStraight) (htext : (Path.ofText target).text = target)
    (hanchor : directory.anchor = (Path.ofText target).anchor) :
    (directory / Path.ofText (relativeText directory target) : Path).collapse.text = target := by
  have habsolute : directory.isAbsolute = true := by
    rw [Path.isAbsolute, hanchor]
    exact htarget.isAbsolute
  rw [ofText_relativeText habsolute htarget,
    Path.collapse_append_steps habsolute hwell htarget hanchor, htext]

/-- So it is with the locator, which is read as the relative path. -/
theorem collapse_relativeLocator {importer : String} (htarget : (Path.ofText target).IsStraight)
    (htext : (Path.ofText target).text = target)
    (hanchor : (Path.ofText importer).anchor = (Path.ofText target).anchor) :
    (Path.directoryOf importer / Path.ofText (relativeLocator importer target) :
      Path).collapse.text = target := by
  have hanchor' : (Path.directoryOf importer).anchor = (Path.ofText target).anchor :=
    (Path.anchor_directoryOf importer).trans hanchor
  have habsolute : (Path.directoryOf importer).isAbsolute = true := by
    rw [Path.isAbsolute, hanchor']
    exact htarget.isAbsolute
  -- What is put in front to mark the locator as relative names nothing.
  have hread : Path.ofText (relativeLocator importer target) =
      Path.ofText (relativeText (.directoryOf importer) target) := by
    unfold relativeLocator
    extract_lets path
    split
    · rfl
    · exact Path.ofText_dotSlash (head?_relativeText habsolute htarget)
  rw [hread]
  exact collapse_relativeText (Path.wellFormed_ofText _) htarget htext hanchor'

end Steps

/-- A locator stands for the file that what it is short for leads to. -/
theorem find?_candidatePaths {locator spelled importer baseDirectory target : String}
    {extensions : List String} {found : String → Bool} {directory : Path}
    (hbase : locatorBase locator importer baseDirectory = directory)
    (h : ShortFor extensions
      (fun spelled => found (directory / Path.ofText spelled : Path).collapse.text = false)
      locator spelled)
    (htarget : (directory / Path.ofText spelled : Path).collapse.text = target)
    (hfound : found target = true) :
    (candidatePaths locator importer baseDirectory extensions).find? found = some target := by
  unfold candidatePaths
  rw [hbase]
  cases h with
  | itself h => simp only [locatorSpellings, h, ↓reduceIte, List.map_singleton, htarget,
      List.find?_singleton, hfound]
  | @extended before after extension h hextensions hbefore =>
    rw [locatorSpellings, if_neg (ne_true_of_eq_false h), hextensions, List.map_map,
      List.map_append, List.map_cons, List.find?_append]
    -- Of the candidates before it, none is found.
    have hnone : (before.map ((fun spelling => (directory / Path.ofText spelling :
        Path).collapse.text) ∘ fun e => locator ++ "." ++ e)).find? found = none := by
      rw [List.find?_eq_none]
      intro path hpath
      obtain ⟨e, he, rfl⟩ := List.mem_map.1 hpath
      exact ne_true_of_eq_false (hbefore e he)
    rw [hnone, Option.none_or, Function.comp_apply, htarget, List.find?_cons_of_pos hfound]

end ImportAtlas

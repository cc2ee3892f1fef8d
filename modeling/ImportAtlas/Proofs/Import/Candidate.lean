import ImportAtlas.Import.Candidate
import ImportAtlas.Proofs.Import.Relative

/-!
# Names of candidates

A candidate is a straight path, and unless the locator has an extension of its own, the candidate
has the name of a source file: the extension that was put behind the locator ends its last name.

## Key results

- `Path.exists_name_append`: what is put behind a spelled path ends its last name
- `exists_of_mem_candidatePaths`: what candidates look like
-/

namespace ImportAtlas

/-- An extension as settings have it: there is something, and no dot comes first. -/
def IsBare (extension : String) : Prop :=
  extension ≠ "" ∧ extension.toList.head? ≠ some '.'

/-- A name ends in a dot and one of the extensions, as those of source files do. -/
def IsSourceName (extensions : List String) (name : String) : Prop :=
  ∃ e ∈ extensions, ("." ++ e).toList <:+ name.toList

namespace Path

/-- A text without slashes is a name, unless it is none. -/
theorem namesOf_of_not_mem {s : List Char} (hslash : '/' ∉ s) (hempty : s ≠ [])
    (hdot : s ≠ ['.']) : namesOf s = [String.ofList s] := by
  -- One part, and neither of the two that are left out.
  have hname : (String.ofList s != "" && String.ofList s != ".") = true := by
    rw [Bool.and_eq_true, bne_iff_ne, bne_iff_ne]
    refine ⟨fun h => hempty ?_, fun h => hdot ?_⟩
    · simpa using congrArg String.toList h
    · simpa using congrArg String.toList h
  rw [namesOf, List.splitOn_eq_singleton hslash, List.map_singleton, List.filter_singleton, hname]
  rfl

/-- What is put behind a spelled path ends its last name. -/
theorem exists_name_append (s : List Char) {e : String} (hbare : IsBare e)
    (hslash : '/' ∉ e.toList) : ∃ front last,
      namesOf (s ++ '.' :: e.toList) = front ++ [String.ofList (last ++ '.' :: e.toList)] := by
  have hnames {last : List Char} (hlast : '/' ∉ last) :
      namesOf (last ++ '.' :: e.toList) = [String.ofList (last ++ '.' :: e.toList)] := by
    have hempty : e.toList ≠ [] := fun hnil => hbare.1 (String.toList_eq_nil_iff.1 hnil)
    apply namesOf_of_not_mem
    · simp [hlast, hslash]
    · simp
    · intro hdot
      have hlength := congrArg List.length hdot
      have hpos := List.length_pos_iff.2 hempty
      simp only [List.length_append, List.length_cons, List.length_nil] at hlength
      omega
  by_cases hmem : '/' ∈ s.reverse
  · -- The last slash is the first one from behind.
    obtain ⟨last, front, hsplit, hlast⟩ := List.eq_append_cons_of_mem hmem
    have hs : s = front.reverse ++ '/' :: last.reverse := by
      rw [← List.reverse_reverse s, hsplit]
      simp
    refine ⟨namesOf front.reverse, last.reverse, ?_⟩
    rw [hs, List.append_assoc, List.cons_append, namesOf_append_slash,
      hnames fun h => hlast (List.mem_reverse.1 h)]
  · exact ⟨[], s, hnames fun h => hmem (List.mem_reverse.2 h)⟩

/-- A last name that does not go up stays the last one when steps up are taken back. -/
theorem name_collapse {p : Path} {front : List String} {n : String}
    (hnames : p.names = front ++ [n]) (hup : n ≠ "..") : p.collapse.name = n := by
  have hclimb (climbed : List String) : climb p.isAbsolute climbed n = n :: climbed := by
    simp [climb, hup]
  rw [name, collapse, hnames, List.foldl_append, List.foldl_cons, List.foldl_nil, hclimb]
  simp

theorem isAbsolute_append {p q : Path} (h : p.isAbsolute = true) :
    (p / q : Path).isAbsolute = true := by
  cases hq : q.isAbsolute with
  | true => rw [append_of_absolute hq, hq]
  | false =>
    rw [isAbsolute, append_anchor_of_relative hq]
    exact h

theorem wellFormed_append {p q : Path} (hp : p.WellFormed) (hq : q.WellFormed) :
    (p / q : Path).WellFormed := by
  intro n hn
  -- An absolute path replaces what it is put behind.
  cases habsolute : q.isAbsolute with
  | true =>
    rw [append_of_absolute habsolute] at hn
    exact hq n hn
  | false =>
    rw [append_names_of_relative habsolute] at hn
    exact (List.mem_append.1 hn).elim (hp n) (hq n)

/-- The names of a path end in those of the path that is put behind it. -/
theorem exists_names_append (p q : Path) : ∃ front, (p / q : Path).names = front ++ q.names := by
  cases hq : q.isAbsolute with
  | true => exact ⟨[], by rw [append_of_absolute hq, List.nil_append]⟩
  | false => exact ⟨p.names, append_names_of_relative hq⟩

end Path

/-- Locators are read from the folder of the importer, or from the base directory. -/
theorem isAbsolute_locatorBase {importer baseDirectory : String} (locator : String)
    (himporter : (Path.ofText importer).isAbsolute = true)
    (hbase : (Path.ofText baseDirectory).isAbsolute = true) :
    (locatorBase locator importer baseDirectory).isAbsolute = true ∧
      (locatorBase locator importer baseDirectory).WellFormed := by
  unfold locatorBase
  -- It starts at the directory of the importer, or at the base directory.
  split
  · refine ⟨?_, Path.wellFormed_ofText _⟩
    rw [Path.isAbsolute, Path.anchor_directoryOf]
    exact himporter
  · exact ⟨hbase, Path.wellFormed_ofText _⟩

/-- Behind the dot of an extension comes something other than a dot. -/
theorem IsBare.append_ne_up {e : String} (h : IsBare e) (front : List Char) :
    String.ofList (front ++ '.' :: e.toList) ≠ ".." := by
  intro hup
  have hchars := congrArg String.toList hup
  rw [String.toList_ofList, show "..".toList = ['.', '.'] from rfl] at hchars
  cases he : e.toList with
  | nil => exact h.1 (String.toList_eq_nil_iff.1 he)
  | cons c rest =>
    rw [he] at hchars
    -- Two dots leave nothing in front, and then the extension would begin with a dot.
    cases front with
    | nil =>
      obtain ⟨rfl, -⟩ : c = '.' ∧ rest = [] := by simpa using hchars
      exact h.2 (by rw [he]; rfl)
    | cons d front =>
      have hlength := congrArg List.length hchars
      simp only [List.length_append, List.length_cons, List.length_nil] at hlength
      omega

/-- Candidates are straight paths, and have the names of source files if an extension is put behind
the locator. -/
theorem exists_of_mem_candidatePaths {locator importer baseDirectory candidate : String}
    {extensions : List String} (himporter : (Path.ofText importer).isAbsolute = true)
    (hbase : (Path.ofText baseDirectory).isAbsolute = true)
    (h : candidate ∈ candidatePaths locator importer baseDirectory extensions) :
    ∃ p : Path, p.IsStraight ∧ candidate = p.text ∧ (Path.hasExtension locator.toList = false →
      (∀ e ∈ extensions, IsBare e ∧ '/' ∉ e.toList) → IsSourceName extensions p.name) := by
  obtain ⟨spelling, hspelling, rfl⟩ := List.mem_map.1 h
  have hlocated := isAbsolute_locatorBase locator himporter hbase
  generalize locatorBase locator importer baseDirectory = base at hlocated
  refine ⟨_, Path.isStraight_collapse (Path.isAbsolute_append hlocated.1)
    (Path.wellFormed_append hlocated.2 (Path.wellFormed_ofText spelling)), rfl,
    fun hextension hextensions => ?_⟩
  rw [locatorSpellings, if_neg (ne_true_of_eq_false hextension)] at hspelling
  obtain ⟨e, he, rfl⟩ := List.mem_map.1 hspelling
  obtain ⟨hbare, hslash⟩ := hextensions e he
  -- The extension ends the last name, however the locator is spelled.
  obtain ⟨front, last, hnames⟩ := Path.exists_name_append locator.toList hbare hslash
  have hread : (Path.ofText (locator ++ "." ++ e)).names =
      front ++ [String.ofList (last ++ '.' :: e.toList)] := by
    rw [← hnames]
    simp [Path.ofText, String.toList_append]
  obtain ⟨before, hbefore⟩ := Path.exists_names_append base (Path.ofText (locator ++ "." ++ e))
  rw [hread, ← List.append_assoc] at hbefore
  refine ⟨e, he, ?_⟩
  rw [Path.name_collapse hbefore (hbare.append_ne_up last), String.toList_ofList,
    String.toList_append]
  exact List.suffix_append _ _

end ImportAtlas

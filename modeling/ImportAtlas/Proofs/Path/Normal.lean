import ImportAtlas.Path.Relative
import ImportAtlas.Proofs.List
import Mathlib.Data.List.Count

/-!
# Normal paths seen from a directory

A straight path starts at the root and never goes up; a normal path is one that is also spelled in
the shortest way. Seen from one directory, normal paths stay apart: the relative path tells how far
to climb out of the directory, and so how many names the two have in common.

## Key results

- `Path.isStraight_collapse`: an absolute path is straight once every `..` is taken back
- `Path.stepsBetween_injective`: different targets are reached by different steps
- `Path.relativeTo_text_injective`: normal paths with the same relative path are the same
-/

namespace ImportAtlas.Path

/-- What stands between two slashes of a text holds none itself. -/
theorem slash_not_mem_of_mem_splitOn {s piece : List Char} (h : piece ∈ s.splitOn '/') :
    '/' ∉ piece := by
  rw [List.splitOn_eq_splitOnP] at h
  intro hslash
  have hcut := List.eq_false_of_mem_splitOnP h '/' hslash
  simp at hcut

/-- The names of a spelled path are names. -/
theorem wellFormed_ofText (s : String) : (ofText s).WellFormed := by
  intro n hn
  obtain ⟨hmem, hn⟩ := List.mem_filter.1 hn
  obtain ⟨piece, hpiece, rfl⟩ := List.mem_map.1 hmem
  have hslash := slash_not_mem_of_mem_splitOn hpiece
  rw [isName, hn, String.toList_ofList, Bool.true_and, Bool.not_eq_true', List.contains_eq_mem,
    decide_eq_false_iff_not]
  exact hslash

/-- A path starts at the root and goes through names. -/
structure IsGrounded (p : Path) : Prop where
  isAbsolute : p.isAbsolute = true
  wellFormed : p.WellFormed

/-- The folder above a path from the root is one, too. -/
theorem IsGrounded.parent {p : Path} (h : p.IsGrounded) : p.parent.IsGrounded where
  isAbsolute := h.isAbsolute
  wellFormed n hn := h.wellFormed n (p.names.dropLast_subset hn)

/-- A path is straight: it starts at the root, and no name that it goes through is `..`. -/
structure IsStraight (p : Path) : Prop where
  isAbsolute : p.isAbsolute = true
  names : ∀ n ∈ p.names, isName n = true ∧ n ≠ ".."

namespace IsStraight

variable {p : Path}

theorem wellFormed (h : p.IsStraight) : p.WellFormed :=
  fun n hn => (h.names n hn).1

theorem isGrounded (h : p.IsStraight) : p.IsGrounded :=
  ⟨h.isAbsolute, h.wellFormed⟩

/-- A straight path is read back from its spelling. -/
theorem ofText_text (h : p.IsStraight) : ofText p.text = p :=
  Path.ofText_text h.wellFormed

/-- A straight path goes on straight through names other than `..`. -/
theorem append (h : p.IsStraight) {names : List String}
    (hnames : ∀ n ∈ names, isName n = true ∧ n ≠ "..") :
    IsStraight { p with names := p.names ++ names } where
  isAbsolute := h.isAbsolute
  names n hn := (List.mem_append.1 hn).elim (h.names n) (hnames n)

/-- So it does through the names of a spelled path. -/
theorem append_ofText (h : p.IsStraight) {s : String} (hrelative : (ofText s).isAbsolute = false)
    (hup : ".." ∉ (ofText s).names) : (p / ofText s : Path).IsStraight where
  isAbsolute := by
    rw [Path.isAbsolute, append_anchor_of_relative hrelative]
    exact h.isAbsolute
  names n hn := by
    rw [append_names_of_relative hrelative] at hn
    -- No step of the second path goes up.
    refine (List.mem_append.1 hn).elim (h.names n) fun hn => ?_
    exact ⟨wellFormed_ofText s n hn, fun heq => hup (heq ▸ hn)⟩

end IsStraight

/-- A spelled path is normal: it starts with a single slash, and no name that it goes through is
empty, `.` or `..`. -/
def IsNormal (s : String) : Prop :=
  ∃ names : List String, (∀ n ∈ names, isName n = true ∧ n ≠ "..") ∧ s = text ⟨.root, names⟩

namespace IsNormal

variable {s : String}

/-- A path in normal form begins with one slash. -/
theorem anchor_eq (h : IsNormal s) : (ofText s).anchor = .root := by
  obtain ⟨names, hnames, rfl⟩ := h
  rw [ofText_text fun n hn => (hnames n hn).1]

/-- Its names are all names of entries. -/
theorem names_of_mem (h : IsNormal s) : ∀ n ∈ (ofText s).names, isName n = true ∧ n ≠ ".." := by
  obtain ⟨names, hnames, rfl⟩ := h
  rwa [ofText_text fun n hn => (hnames n hn).1]

/-- Reading a normal path and writing it again changes nothing. -/
theorem text_ofText (h : IsNormal s) : (ofText s).text = s := by
  obtain ⟨names, hnames, rfl⟩ := h
  rw [ofText_text fun n hn => (hnames n hn).1]

theorem isAbsolute (h : IsNormal s) : (ofText s).isAbsolute = true := by
  rw [Path.isAbsolute, h.anchor_eq]
  rfl

/-- So it is straight. -/
theorem isStraight (h : IsNormal s) : (ofText s).IsStraight :=
  ⟨h.isAbsolute, h.names_of_mem⟩

end IsNormal

/-- A name ends in its suffix. -/
theorem suffixOf_isSuffix (name : List Char) : suffixOf name <:+ name := by
  unfold suffixOf
  extract_lets ending stem
  split
  · rename_i hstem
    -- Something stands in front of what comes behind the last dot, so that dot does.
    have hsplit := List.takeWhile_append_dropWhile (p := (· != '.')) (l := name.reverse)
    cases hrest : name.reverse.dropWhile (· != '.') with
    | nil =>
      have hlength := congrArg List.length hsplit
      simp only [hrest, List.append_nil, List.length_reverse] at hlength
      simp only [stem, ending, List.length_reverse, Bool.and_eq_true, decide_eq_true_eq] at hstem
      omega
    | cons c front =>
      have hdot : c = '.' := by
        have hhead := List.head?_dropWhile_not (· != '.') name.reverse
        rw [hrest] at hhead
        simpa using hhead
      refine ⟨front.reverse, ?_⟩
      have hname := congrArg List.reverse hsplit
      rw [hrest, hdot, List.reverse_append, List.reverse_cons, List.reverse_reverse,
        List.append_assoc, List.singleton_append] at hname
      exact hname
  · exact List.nil_suffix

/-! ## Collapsing -/

/-- Names without a step up are taken as they come. -/
theorem foldl_climb {names : List String} (h : ∀ n ∈ names, n ≠ "..") (absolute : Bool)
    (climbed : List String) : names.foldl (climb absolute) climbed = names.reverse ++ climbed := by
  induction names generalizing climbed with
  | nil => rfl
  | cons n names ih =>
    simp only [List.mem_cons, forall_eq_or_imp] at h
    -- What is no step up is climbed.
    have hclimb : climb absolute climbed n = n :: climbed := by simp [climb, h.1]
    rw [List.foldl_cons, hclimb, ih h.2, List.reverse_cons, List.append_assoc]
    rfl

/-- Where no name goes up there is nothing to take back. -/
theorem collapse_eq_self {p : Path} (h : ∀ n ∈ p.names, n ≠ "..") : p.collapse = p := by
  rw [collapse, foldl_climb h, List.append_nil, List.reverse_reverse]

/-- A path from the root that never goes up is absolute as it is. -/
theorem absolute_eq_self {p cwd : Path} (habsolute : p.isAbsolute = true)
    (h : ∀ n ∈ p.names, n ≠ "..") : p.absolute cwd = p := by
  rw [absolute, append_of_absolute habsolute, collapse_eq_self h]

/-- So is a straight path, seen from wherever. -/
theorem IsStraight.absolute_eq {p : Path} (h : p.IsStraight) (cwd : Path) : p.absolute cwd = p :=
  absolute_eq_self h.isAbsolute fun n hn => (h.names n hn).2

/-- At a root a step up takes the last name away, or goes nowhere. -/
theorem forall_mem_foldl_climb {names climbed : List String} (hnames : ∀ n ∈ names, isName n = true)
    (hclimbed : ∀ n ∈ climbed, isName n = true ∧ n ≠ "..") :
    ∀ n ∈ names.foldl (climb true) climbed, isName n = true ∧ n ≠ ".." := by
  induction names generalizing climbed with
  | nil => exact hclimbed
  | cons m names ih =>
    simp only [List.mem_cons, forall_eq_or_imp] at hnames
    -- A name is put on top, and a `..` takes a name away: none of them is ever left on top.
    refine ih hnames.2 ?_
    unfold climb
    split
    · rename_i hm
      simp only [List.mem_cons, forall_eq_or_imp]
      exact ⟨⟨hnames.1, bne_iff_ne.1 hm⟩, hclimbed⟩
    · split
      · exact nofun
      · rename_i top rest
        simp only [List.mem_cons, forall_eq_or_imp] at hclimbed
        rw [if_neg hclimbed.1.2]
        exact hclimbed.2

/-- So no step up is left. -/
theorem isStraight_collapse {p : Path} (habsolute : p.isAbsolute = true) (h : p.WellFormed) :
    p.collapse.IsStraight := by
  refine ⟨habsolute, fun n hn => ?_⟩
  rw [collapse, habsolute, List.mem_reverse] at hn
  have hnone : ∀ n ∈ ([] : List String), isName n = true ∧ n ≠ ".." := nofun
  exact forall_mem_foldl_climb h hnone n hn

/-! ## Steps between directories -/

/-- A list of names is what it has in common with another one, and the rest. -/
theorem take_common_append (start target : List String) :
    start.take (commonLength start target) ++ target.drop (commonLength start target) =
      target := by
  rw [take_commonLength, List.take_append_drop]

/-- Between different places there are steps. -/
theorem stepsBetween_ne_nil {start target : List String} (h : start ≠ target) :
    stepsBetween start target ≠ [] := by
  intro hnil
  obtain ⟨hup, hdown⟩ := List.append_eq_nil_iff.1 hnil
  -- Nothing to climb and nothing to go down: all names are in common.
  have hstart : start.length ≤ commonLength start target := by
    have := congrArg List.length hup
    simp only [List.length_replicate, List.length_nil] at this
    omega
  have hsame := take_common_append start target
  rw [hdown, List.append_nil, List.take_of_length_le hstart] at hsame
  exact h hsame

/-- Different targets are reached by different steps: the steps up tell how many names are left. -/
theorem stepsBetween_injective {start target target' : List String} (h : ".." ∉ target)
    (h' : ".." ∉ target') (heq : stepsBetween start target = stepsBetween start target') :
    target = target' := by
  -- Only the steps up are `..`, and there is one for each name that is left.
  have hcount {l : List String} (hl : ".." ∉ l) :
      (stepsBetween start l).count ".." = start.length - commonLength start l := by
    have hrest : ".." ∉ l.drop (commonLength start l) := fun hmem => hl (List.mem_of_mem_drop hmem)
    rw [stepsBetween, List.count_append, List.count_replicate_self, List.count_eq_zero.2 hrest,
      Nat.add_zero]
  -- So both have as many names in common with the start, and go down alike from there.
  have hcommon : commonLength start target = commonLength start target' := by
    have hlen := congrArg (List.count "..") heq
    rw [hcount h, hcount h'] at hlen
    have hle := commonLength_le_left start target
    have hle' := commonLength_le_left start target'
    omega
  have hdown : target.drop (commonLength start target) =
      target'.drop (commonLength start target') := by
    rw [stepsBetween, stepsBetween, hcommon] at heq
    rw [hcommon]
    exact List.append_cancel_left heq
  rw [← take_common_append start target, ← take_common_append start target', hdown, hcommon]

/-- Where the steps go down at all, they end where the target does. -/
theorem getLast?_stepsBetween {start target : List String} (h : ¬ target <+: start) :
    (stepsBetween start target).getLast? = target.getLast? := by
  have hcommon := take_common_append start target
  -- As the target is not on the way to the start, the steps end downwards.
  have hdown : target.drop (commonLength start target) ≠ [] := by
    intro hnil
    rw [hnil, List.append_nil] at hcommon
    exact h (hcommon ▸ List.take_prefix _ _)
  conv_rhs => rw [← hcommon]
  rw [stepsBetween, List.getLast?_append_of_ne_nil _ hdown,
    List.getLast?_append_of_ne_nil _ hdown]

/-- All of them are names, or steps up. -/
theorem isName_of_mem_stepsBetween {start target : List String}
    (h : ∀ n ∈ target, isName n = true) : ∀ n ∈ stepsBetween start target, isName n = true := by
  intro n hn
  rcases List.mem_append.1 hn with hn | hn
  · rw [(List.mem_replicate.1 hn).2]
    decide
  · exact h n (List.mem_of_mem_drop hn)

/-! ## Relative paths -/

section Relative

variable {p : Path} {s s' : String} (cwd directory : Path)

namespace IsStraight

/-- A straight path seen from a directory is the steps from there to it. -/
theorem relativeTo_eq (h : p.IsStraight) :
    p.relativeTo cwd directory = ⟨.here, stepsBetween (directory.absolute cwd).names p.names⟩ := by
  rw [relativeTo, h.absolute_eq]

/-- These steps can be spelled. -/
theorem wellFormed_relativeTo (h : p.IsStraight) : (p.relativeTo cwd directory).WellFormed := by
  rw [h.relativeTo_eq cwd directory]
  exact isName_of_mem_stepsBetween h.wellFormed

/-- The text of a relative path is never empty. -/
theorem relativeTo_text_ne_empty (h : p.IsStraight) : (p.relativeTo cwd directory).text ≠ "" := by
  intro hempty
  -- The empty text is read as the path `.`, which is not written as the empty text.
  have hread := Path.ofText_text (h.wellFormed_relativeTo cwd directory)
  rw [hempty] at hread
  rw [← hread] at hempty
  exact absurd hempty (by decide)

/-- A path other than the directory has a last name, seen from there. -/
theorem relativeTo_name_ne_empty (h : p.IsStraight)
    (hne : p.names ≠ (directory.absolute cwd).names) :
    (p.relativeTo cwd directory).name ≠ "" := by
  have hwell := h.wellFormed_relativeTo cwd directory
  -- The two places differ, so there is a step between them, and no step is empty.
  have hnil : (p.relativeTo cwd directory).names ≠ [] := by
    rw [h.relativeTo_eq cwd directory]
    exact stepsBetween_ne_nil (Ne.symm hne)
  rw [name, List.getLast?_eq_some_getLast hnil, Option.getD_some]
  intro hempty
  have hname := hwell _ (List.getLast_mem hnil)
  rw [hempty] at hname
  exact absurd hname (by decide)

/-- A path that is not above the directory keeps its last name, seen from there. -/
theorem relativeTo_name_eq (h : p.IsStraight)
    (habove : ¬ p.names <+: (directory.absolute cwd).names) :
    (p.relativeTo cwd directory).name = p.name := by
  rw [h.relativeTo_eq cwd directory, name, name, getLast?_stepsBetween habove]

end IsStraight

/-- The same of a path in normal form. -/
theorem relativeTo_eq (h : IsNormal s) :
    (ofText s).relativeTo cwd directory =
      ⟨.here, stepsBetween (directory.absolute cwd).names (ofText s).names⟩ :=
  h.isStraight.relativeTo_eq cwd directory

theorem wellFormed_relativeTo (h : IsNormal s) :
    ((ofText s).relativeTo cwd directory).WellFormed :=
  h.isStraight.wellFormed_relativeTo cwd directory

/-- Normal paths that look the same from a directory are the same. -/
theorem relativeTo_text_injective (h : IsNormal s) (h' : IsNormal s')
    (heq : ((ofText s).relativeTo cwd directory).text =
      ((ofText s').relativeTo cwd directory).text) : s = s' := by
  -- Relative paths are well formed, so they are the same if their texts are.
  have hrelative : (ofText s).relativeTo cwd directory = (ofText s').relativeTo cwd directory := by
    rw [← ofText_text (wellFormed_relativeTo cwd directory h), heq,
      ofText_text (wellFormed_relativeTo cwd directory h')]
  rw [relativeTo_eq cwd directory h, relativeTo_eq cwd directory h', Path.mk.injEq] at hrelative
  have hnames : (ofText s).names = (ofText s').names :=
    stepsBetween_injective (fun hup => (h.names_of_mem _ hup).2 rfl)
      (fun hup => (h'.names_of_mem _ hup).2 rfl) hrelative.2
  have hpath : ofText s = ofText s' := by
    rw [show ofText s = ⟨.root, (ofText s).names⟩ from congrArg (Path.mk · _) h.anchor_eq,
      show ofText s' = ⟨.root, (ofText s').names⟩ from congrArg (Path.mk · _) h'.anchor_eq, hnames]
  rw [← h.text_ofText, ← h'.text_ofText, hpath]

end Relative

end ImportAtlas.Path

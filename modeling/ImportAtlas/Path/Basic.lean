/-!
# Paths

A path is where it starts and the names it goes through. Reading a path drops empty names and
names that are a single dot, and keeps `..`; a spelling with exactly two leading slashes is kept
apart from one with a single slash. `Path.ofText` reads and `Path.text` writes; on well-formed
paths writing and reading back changes nothing (`Path.ofText_text`).
-/

namespace ImportAtlas

/-- Where a path starts: at the working directory, at the root, or at the root spelled with two
slashes. -/
inductive Anchor where
  | here
  | root
  | doubleRoot
  deriving DecidableEq, Repr, Inhabited

/-- The leading slashes of a path. -/
def Anchor.text : Anchor → String
  | here => ""
  | root => "/"
  | doubleRoot => "//"

/-- The start of a path with that many leading slashes; three or more count as one. -/
def Anchor.ofSlashes : Nat → Anchor
  | 0 => here
  | 2 => doubleRoot
  | _ => root

/-- A path: where it starts and the names it goes through. -/
structure Path where
  anchor : Anchor
  names : List String
  deriving DecidableEq, Repr, Inhabited

namespace Path

/-- Whether a path may hold `n` as one of its names. -/
def isName (n : String) : Bool :=
  n != "" && n != "." && !n.toList.contains '/'

/-- Every name of the path is one. -/
def WellFormed (p : Path) : Prop :=
  ∀ n ∈ p.names, isName n = true

/-- The names of a spelled path: what stands between its slashes, without empty names and single
dots. -/
def namesOf (s : List Char) : List String :=
  ((s.splitOn '/').map String.ofList).filter fun n => n != "" && n != "."

/-- Reads a spelled path. -/
def ofText (s : String) : Path where
  anchor := .ofSlashes (s.toList.takeWhile (· == '/')).length
  names := namesOf s.toList

/-- The spelling of a path. A path that starts at the working directory and goes nowhere is a
single dot. -/
def text (p : Path) : String :=
  if p.anchor = .here ∧ p.names = [] then
    "."
  else
    p.anchor.text ++ String.ofList (['/'].intercalate (p.names.map String.toList))

instance : ToString Path := ⟨text⟩

/-- Whether the path does not depend on the working directory. -/
def isAbsolute (p : Path) : Bool :=
  p.anchor != .here

/-- The last name, empty for a path without names. -/
def name (p : Path) : String :=
  p.names.getLast?.getD ""

/-- The path without its last name. -/
def parent (p : Path) : Path :=
  { p with names := p.names.dropLast }

/-- `q` seen from `p`; an absolute `q` replaces `p`. -/
def append (p q : Path) : Path :=
  if q.isAbsolute then q else { p with names := p.names ++ q.names }

instance : HDiv Path Path Path := ⟨append⟩

/-- The path of everything before the last slash of a spelled path. -/
def directoryOf (s : String) : Path :=
  ofText (String.ofList (s.toList.reverse.dropWhile (· != '/')).reverse)

/-! ## Names and suffixes -/

/-- The part of a name from its last dot on; empty if that dot is first or last or missing. -/
def suffixOf (name : List Char) : List Char :=
  let ending := (name.reverse.takeWhile (· != '.')).reverse
  let stem := name.length - ending.length - 1
  if 0 < stem && !ending.isEmpty then '.' :: ending else []

/-- The suffix of the last name, with its dot. -/
def suffix (p : Path) : String :=
  String.ofList (suffixOf p.name.toList)

/-- What stands after the last slash of a spelled path. -/
def lastPart (s : List Char) : List Char :=
  (s.reverse.takeWhile (· != '/')).reverse

/-- Whether a spelled path ends in an extension, which may be a lone dot: its last part holds a
dot, and something other than dots before the last one. -/
def hasExtension (s : List Char) : Bool :=
  (((lastPart s).reverse.dropWhile (· != '.')).drop 1).any (· != '.')

/-! ## Lexical normal form -/

/-- Takes one step from the names climbed so far, innermost first: `..` takes the innermost name
back, vanishes at a root, and stays where there is nothing to take back. -/
def climb (absolute : Bool) (climbed : List String) (name : String) : List String :=
  if name != ".." then
    name :: climbed
  else
    match climbed with
    | [] => if absolute then [] else [".."]
    | top :: rest => if top = ".." then ".." :: climbed else rest

/-- The path with every `..` taken back lexically, as if no name were a link. -/
def collapse (p : Path) : Path :=
  { p with names := (p.names.foldl (climb p.isAbsolute) []).reverse }

/-! ## Laws -/

@[simp] theorem append_anchor_of_relative {p q : Path} (h : q.isAbsolute = false) :
    (p / q : Path).anchor = p.anchor := by
  change (append p q).anchor = p.anchor
  simp [append, h]

/-- Behind a path, a relative one goes on with its names. -/
@[simp] theorem append_names_of_relative {p q : Path} (h : q.isAbsolute = false) :
    (p / q : Path).names = p.names ++ q.names := by
  change (append p q).names = p.names ++ q.names
  simp [append, h]

/-- Going to an absolute path forgets where one was. -/
theorem append_of_absolute {p q : Path} (h : q.isAbsolute = true) : (p / q : Path) = q := by
  change append p q = q
  simp [append, h]

@[simp] theorem collapse_anchor (p : Path) : p.collapse.anchor = p.anchor := rfl

/-- Names with slashes between them are read back. -/
private theorem namesOf_intercalate {ns : List String} (h : ∀ n ∈ ns, isName n = true) :
    namesOf (['/'].intercalate (ns.map String.toList)) = ns := by
  by_cases hns : ns = []
  · subst hns
    simp [namesOf, List.intercalate]
  · have hslash : ∀ l ∈ ns.map String.toList, ¬ '/' ∈ l := by
      intro l hl
      obtain ⟨n, hn, rfl⟩ := List.mem_map.1 hl
      have := h n hn
      simp only [isName, Bool.and_eq_true, Bool.not_eq_true', List.contains_eq_mem,
        decide_eq_false_iff_not] at this
      exact this.2
    -- No name has a slash in it, so cutting at slashes gives the names, none of them empty.
    unfold namesOf
    rw [List.splitOn_intercalate _ hslash (by simpa using hns), List.map_map]
    have : (String.ofList ∘ String.toList) = id := by
      funext s
      simp
    rw [this, List.map_id, List.filter_eq_self]
    intro n hn
    have := h n hn
    simp only [isName, Bool.and_eq_true] at this
    simp [this.1.1, this.1.2]

private theorem namesOf_slash (s : List Char) : namesOf ('/' :: s) = namesOf s := by
  simp [namesOf, List.splitOn, List.splitOnP_cons_eq_if_modifyHead]

/-- They have no slash in front. -/
private theorem leadingSlashes_intercalate {ns : List String} (h : ∀ n ∈ ns, isName n = true) :
    (['/'].intercalate (ns.map String.toList)).takeWhile (· == '/') = [] := by
  cases ns with
  | nil => simp [List.intercalate]
  | cons n ns =>
    have hn := h n List.mem_cons_self
    simp only [isName, Bool.and_eq_true, bne_iff_ne, ne_eq, Bool.not_eq_true',
      List.contains_eq_mem, decide_eq_false_iff_not] at hn
    -- The first name begins with a character that is no slash.
    have hne : n.toList ≠ [] := fun e => hn.1.1 (String.toList_eq_nil_iff.1 e)
    obtain ⟨c, cs, hcs⟩ := List.exists_cons_of_ne_nil hne
    have hc : c ≠ '/' := fun e => hn.2 (by simp [hcs, e])
    cases ns with
    | nil => simp [List.intercalate, hcs, hc]
    | cons m ms => simp [List.intercalate, hcs, hc]

/-- Slashes in front of a text without leading slashes are counted exactly, and the names of the
text stay. -/
private theorem ofText_slashes {slashes : String} {k : Nat} {s : List Char}
    (hk : slashes.toList = List.replicate k '/') (h : s.takeWhile (· == '/') = []) :
    ofText (slashes ++ String.ofList s) = ⟨.ofSlashes k, namesOf s⟩ := by
  -- The slashes in front are counted, and add no name.
  have hread : ((List.replicate k '/' ++ s).takeWhile (· == '/')).length = k ∧
      namesOf (List.replicate k '/' ++ s) = namesOf s := by
    clear hk
    induction k with
    | zero => exact ⟨by rw [List.replicate_zero, List.nil_append, h, List.length_nil], rfl⟩
    | succ k ih =>
      rw [List.replicate_succ, List.cons_append, List.takeWhile_cons_of_pos (by decide),
        List.length_cons, namesOf_slash]
      exact ⟨congrArg _ ih.1, ih.2⟩
  unfold ofText
  rw [String.toList_append, String.toList_ofList, hk, hread.1, hread.2]

/-- Writing a well-formed path and reading it back gives it again. -/
theorem ofText_text {p : Path} (h : p.WellFormed) : ofText p.text = p := by
  obtain ⟨anchor, names⟩ := p
  have hslashes := leadingSlashes_intercalate h
  unfold text
  split
  · next hp =>
    obtain ⟨rfl, rfl⟩ := hp
    decide +kernel
  · -- The anchor is told by how many slashes stand in front: none, one or two.
    cases anchor with
    | here =>
      have hk : Anchor.here.text.toList = List.replicate 0 '/' := by decide
      rw [ofText_slashes hk hslashes, namesOf_intercalate h]
      rfl
    | root =>
      have hk : Anchor.root.text.toList = List.replicate 1 '/' := by decide
      rw [ofText_slashes hk hslashes, namesOf_intercalate h]
      rfl
    | doubleRoot =>
      have hk : Anchor.doubleRoot.text.toList = List.replicate 2 '/' := by decide
      rw [ofText_slashes hk hslashes, namesOf_intercalate h]
      rfl

end Path

end ImportAtlas

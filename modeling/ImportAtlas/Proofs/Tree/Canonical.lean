import ImportAtlas.Proofs.Path.Normal
import ImportAtlas.Proofs.Tree.Outline
import ImportAtlas.Tree.Canonical

/-!
# Canonical paths are straight

The search for a canonical path only goes down to names, and where it meets a circle of links the
path that remains is collapsed. So a canonical path starts at the root and never goes up. A straight
path leads where its names lead from the root, however many slashes come before them.

## Key results

- `Tree.linkAt?_root`: a search from the root sees the links whose paths are not too long
- `Tree.isSettled_resolve`: what the search ends with is made of names
- `Tree.isStraight_of_canonical?`: the canonical form of a path is straight
- `Tree.SameLinks.canonical?_eq`: nothing but links matters to canonical paths
- `Path.IsStraight.lookup_congr`: straight paths with the same names lead to the same entry
-/

namespace ImportAtlas

/-- Names that an entry of a tree can have. -/
def Place.IsProper (place : Place) : Prop :=
  ∀ n ∈ place, Path.isName n = true ∧ n ≠ ".."

namespace Place.IsProper

variable {place : Place} {segment : String}

/-- The path of a place is straight. -/
theorem isStraight (h : place.IsProper) : (Path.ofPlace place).IsStraight :=
  ⟨rfl, h⟩

theorem dropLast (h : place.IsProper) : IsProper place.dropLast :=
  fun n hn => h n (place.dropLast_subset hn)

/-- A segment that does not stay in place and does not go up goes down. -/
theorem child (h : place.IsProper) (hstay : ¬ (segment = "" ∨ segment = "."))
    (hup : segment ≠ "..") (hslash : '/' ∉ segment.toList) : IsProper (place ++ [segment]) := by
  intro n hn
  rcases List.mem_append.1 hn with hn | hn
  · exact h n hn
  · obtain rfl := List.mem_singleton.1 hn
    rw [not_or] at hstay
    refine ⟨?_, hup⟩
    simp only [Path.isName, Bool.and_eq_true, bne_iff_ne, Bool.not_eq_true', List.contains_eq_mem,
      decide_eq_false_iff_not]
    exact ⟨hstay, hslash⟩

end Place.IsProper

/-- The end of a search is made of names. -/
def Canonical.IsSettled {depth : Nat} : Canonical depth → Prop
  | found _ place => place.IsProper
  | circular path => path.isAbsolute = true ∧ path.WellFormed
  | unusable => True

/-- A path starts at the root or here, and both have proper names. -/
theorem isProper_startOf {here : Place} (h : here.IsProper) (path : String) :
    (startOf here path).IsProper := by
  unfold startOf
  split
  · exact nofun
  · exact h

/-- No slash is left in a segment. -/
theorem slash_not_mem_of_mem_segmentsOf {path segment : String} (h : segment ∈ segmentsOf path) :
    '/' ∉ segment.toList := by
  obtain ⟨piece, hpiece, rfl⟩ := List.mem_map.1 h
  rw [String.toList_ofList]
  exact Path.slash_not_mem_of_mem_splitOn hpiece

/-- A path that goes on by segments is still made of names. -/
theorem isSettled_resume {depth : Nat} {p : Path}
    (h : (Canonical.circular p : Canonical depth).IsSettled) (rest : List String) :
    (Canonical.circular (p.resume rest) : Canonical depth).IsSettled := by
  have hrest := Path.wellFormed_ofText ("/".intercalate rest)
  unfold Path.resume
  -- The rest is absolute only if it begins with a slash, and then it stands alone.
  cases habsolute : (Path.ofText ("/".intercalate rest)).isAbsolute with
  | true =>
    rw [Path.append_of_absolute habsolute]
    exact ⟨habsolute, hrest⟩
  | false =>
    refine ⟨?_, fun n hn => ?_⟩
    · rw [Path.isAbsolute, Path.append_anchor_of_relative habsolute]
      exact h.1
    · rw [Path.append_names_of_relative habsolute] at hn
      exact (List.mem_append.1 hn).elim (h.2 n) (hrest n)

namespace Tree

variable {α : Type}

/-! ## What is in sight -/

/-- What can be looked up from the root: the entries whose paths are not too long. -/
def inSight (t : Tree α) : Tree α :=
  ⟨t.entries.filter fun e => !isLongPath (Path.ofPlace e.1).text⟩

/-- What is in sight is what has a path that is not too long. -/
theorem get?_inSight (t : Tree α) (place : Place) :
    t.inSight.get? place =
      if isLongPath (Path.ofPlace place).text then none else t.get? place := by
  by_cases hroot : place = []
  · subst hroot
    have hshort : isLongPath (Path.ofPlace []).text = false := by decide
    rw [hshort, get?_nil, get?_nil, if_neg Bool.false_ne_true]
  · rw [get?, if_neg hroot, inSight,
      Dictionary.get?_filter _ (fun place => !isLongPath (Path.ofPlace place).text), get?,
      if_neg hroot]
    cases isLongPath (Path.ofPlace place).text <;> rfl

/-- What is in sight is there. -/
theorem get?_of_inSight {t : Tree α} {place : Place} {entry : Entry α}
    (h : t.inSight.get? place = some entry) : t.get? place = some entry := by
  rw [get?_inSight] at h
  split at h
  · cases h
  · exact h

/-- Nothing is out of sight where no path is too long. -/
theorem inSight_eq_self {t : Tree α}
    (h : ∀ place ∈ t.entries.map (·.1), isLongPath (Path.ofPlace place).text = false) :
    t.inSight = t := by
  refine congrArg mk (List.filter_eq_self.2 fun e he => ?_)
  rw [h e.1 (List.mem_map.2 ⟨e, he, rfl⟩)]
  rfl

/-- From the root, the links in sight are seen. -/
theorem linkAt?_root {t : Tree α} {depth : Nat} {place : Place} {target : String} :
    t.linkAt? (.root : Origin depth) place = some target ↔
      t.inSight.get? place = some (.link target) := by
  rw [linkAt?_eq_some, Origin.reaches, get?_inSight]
  cases isLongPath (Path.ofPlace place).text <;> simp

/-! ## The end of a search -/

/-- The search ends in something made of names, if it starts in such a place. -/
theorem isSettled_resolve {depth : Nat} (t : Tree α) (active : List (Origin depth × Place))
    (o : Origin depth) {here : Place} {segments : List String} (hhere : here.IsProper)
    (hsegments : ∀ segment ∈ segments, '/' ∉ segment.toList) :
    (t.resolve active o here segments).IsSettled := by
  have htarget (target : String) : ∀ segment ∈ segmentsOf target, '/' ∉ segment.toList :=
    fun _ => slash_not_mem_of_mem_segmentsOf
  fun_induction resolve t active o here segments with
  | case1 active o here => exact hhere
  | case2 active o here segment rest hstay ih =>
    exact ih hhere fun s hs => hsegments s (.tail _ hs)
  | case3 active o here rest hstay ih =>
    exact ih hhere.dropLast fun s hs => hsegments s (.tail _ hs)
  | case4 => trivial
  | case5 active o here segment rest hstay hup hnul target hget hactive =>
    -- The link itself stands at a place made of names, which the path left over is joined to.
    have hchild := hhere.child hstay hup (hsegments segment List.mem_cons_self)
    exact isSettled_resume ⟨hchild.isStraight.isAbsolute, hchild.isStraight.wellFormed⟩ rest
  | case6 active o here segment rest hstay hup hnul target hget hactive hlt o' there hgo ih' ih =>
    -- The target ends in a place made of names, and the rest goes on from there.
    have hthere := ih' (isProper_startOf hhere target) (htarget target)
    rw [hgo] at hthere
    exact ih hthere fun s hs => hsegments s (.tail _ hs)
  | case7 active o here segment rest hstay hup hnul target hget hactive hlt path hcircular ih =>
    have hpath := ih (isProper_startOf hhere target) (htarget target)
    rw [hcircular] at hpath
    exact isSettled_resume hpath rest
  | case8 => trivial
  | case9 active o here segment rest hstay hup hnul hlink ih =>
    exact ih (hhere.child hstay hup (hsegments segment List.mem_cons_self))
      fun s hs => hsegments s (.tail _ hs)

/-- The canonical form of a path is straight. -/
theorem isStraight_of_canonical? {t : Tree α} {here : Place} {path : String} {p : Path}
    (hhere : here.IsProper) (h : t.canonical? here path = some p) : p.IsStraight := by
  have hslash : ∀ segment ∈ segmentsOf path, '/' ∉ segment.toList :=
    fun _ => slash_not_mem_of_mem_segmentsOf
  have hsettled := t.isSettled_resolve [] (originOf here path) (isProper_startOf hhere path) hslash
  unfold canonical? at h
  split at h
  · rename_i hfound
    cases h
    rw [hfound] at hsettled
    exact Place.IsProper.isStraight hsettled
  · rename_i hcircular
    cases h
    rw [hcircular] at hsettled
    -- A circle leaves the rest of the path as it was spelled, and that is put in order afterwards.
    exact Path.isStraight_collapse hsettled.1 hsettled.2
  · cases h

end Tree

/-! ## Paths from the root as they are spelled -/

namespace Path.IsGrounded

variable {p : Path}

/-- The spelling of a path from the root: one or two slashes, and its names with slashes between
them. -/
theorem toList_text (h : p.IsGrounded) : ∃ slashes, (slashes = ['/'] ∨ slashes = ['/', '/']) ∧
    p.text.toList = slashes ++ ['/'].intercalate (p.names.map String.toList) := by
  have hanchor : p.anchor ≠ .here := by simpa [Path.isAbsolute] using h.isAbsolute
  rw [Path.text, if_neg fun hhere => hanchor hhere.1, String.toList_append, String.toList_ofList]
  refine ⟨_, ?_, rfl⟩
  cases hcase : p.anchor with
  | here => exact absurd hcase hanchor
  | root => exact .inl rfl
  | doubleRoot => exact .inr rfl

/-- A path from the root begins with a slash. -/
theorem head?_text (h : p.IsGrounded) : p.text.toList.head? = some '/' := by
  obtain ⟨slashes, hslashes, htext⟩ := h.toList_text
  rw [htext]
  rcases hslashes with rfl | rfl <;> rfl

/-- So it starts there, from wherever it is seen. -/
theorem startOf_text (h : p.IsGrounded) (here : Place) : startOf here p.text = [] :=
  if_pos h.head?_text

/-- Links on its way are looked up from the root, too. -/
theorem originOf_text (h : p.IsGrounded) (here : Place) :
    Tree.originOf here p.text = .root :=
  if_pos h.head?_text

/-- It is not empty. -/
theorem text_ne_empty (h : p.IsGrounded) : p.text ≠ "" := by
  intro hempty
  have hstart := h.startOf_text ["."]
  rw [hempty] at hstart
  exact absurd hstart (by decide)

/-- A name of a path stays nowhere. -/
theorem not_stay_of_mem (h : p.IsGrounded) {n : String} (hn : n ∈ p.names) :
    ¬ (n = "" ∨ n = ".") := by
  have hname := h.wellFormed n hn
  rintro (rfl | rfl) <;> exact absurd hname (by decide)

/-- Between the slashes of a path from the root stand its names, and nothing in front of them. -/
theorem pieces_text (h : p.IsGrounded) (hne : p.names ≠ []) : ∃ k,
    (p.text.toList.splitOn '/').map String.ofList = List.replicate k "" ++ p.names := by
  obtain ⟨slashes, hslashes, htext⟩ := h.toList_text
  -- Each slash in front gives an empty piece, and no name has a slash in it.
  have hcut (s : List Char) : ('/' :: s).splitOn '/' = [] :: s.splitOn '/' := by
    simp [List.splitOn, List.splitOnP_cons_eq_if_modifyHead]
  have hslash : ∀ l ∈ p.names.map String.toList, ¬ '/' ∈ l := by
    intro l hl
    obtain ⟨n, hn, rfl⟩ := List.mem_map.1 hl
    have hname := h.wellFormed n hn
    simp only [isName, Bool.and_eq_true, Bool.not_eq_true', List.contains_eq_mem,
      decide_eq_false_iff_not] at hname
    exact hname.2
  have hnames : (['/'].intercalate (p.names.map String.toList)).splitOn '/' =
      p.names.map String.toList :=
    List.splitOn_intercalate _ hslash (by simpa using hne)
  rcases hslashes with rfl | rfl
  · refine ⟨1, ?_⟩
    rw [htext, List.singleton_append, hcut, hnames]
    simp
  · refine ⟨2, ?_⟩
    rw [htext, List.cons_append, List.singleton_append, hcut, hcut, hnames]
    simp

/-- The steps of a path from the root are its names. -/
theorem stepsOf_text (h : p.IsGrounded) : stepsOf p.text = p.names := by
  by_cases hne : p.names = []
  · obtain ⟨slashes, hslashes, htext⟩ := h.toList_text
    rw [stepsOf, htext, hne]
    rcases hslashes with rfl | rfl <;> decide
  · obtain ⟨k, hpieces⟩ := h.pieces_text hne
    have hnonempty : ∀ n ∈ p.names, n ≠ "" := by
      rintro n hn rfl
      exact absurd (h.wellFormed "" hn) (by decide)
    have hsteps : (List.replicate k "" ++ p.names).filter (· != "") = p.names := by
      rw [List.filter_append, List.filter_replicate_of_neg (by simp), List.nil_append,
        List.filter_eq_self]
      simpa using hnonempty
    -- The last name is not empty, so no slash stands at the end.
    have hlast : (List.replicate k "" ++ p.names).getLast? ≠ some "" := by
      rw [List.getLast?_append_of_ne_nil _ hne]
      exact fun hempty => hnonempty "" (List.mem_of_getLast? hempty) rfl
    rw [stepsOf, hpieces]
    simp only [hsteps, hlast, decide_false, Bool.false_and, Bool.false_eq_true, ↓reduceIte]

/-- A path from the root leads where its names lead, unless it is too long. -/
theorem locate_eq (h : p.IsGrounded) {α : Type} (t : Tree α) (here : Place) (last : LastStep) :
    t.locate here last p.text =
      if isLongPath p.text then .error .longName else t.walk last linkBudget [] p.names := by
  rw [Tree.locate, if_neg h.text_ne_empty, h.startOf_text, h.stepsOf_text]

/-- The segments of a path from the root are empty ones and its names. -/
theorem segmentsOf_text (h : p.IsGrounded) :
    ∃ k, segmentsOf p.text = List.replicate k "" ++ p.names := by
  by_cases hne : p.names = []
  · obtain ⟨slashes, hslashes, htext⟩ := h.toList_text
    rw [segmentsOf, htext, hne]
    rcases hslashes with rfl | rfl
    · exact ⟨2, by decide⟩
    · exact ⟨3, by decide⟩
  · exact h.pieces_text hne

end Path.IsGrounded

/-! ## Trees with the same links -/

namespace Tree

/-- A name with a NUL ends the search. -/
theorem resolve_of_nul {α : Type} {t : Tree α} {depth : Nat} {active : List (Origin depth × Place)}
    {o : Origin depth} {here : Place} {segment : String} {rest : List String}
    (hstay : ¬ (segment = "" ∨ segment = ".")) (hup : segment ≠ "..")
    (hnul : segment.toList.contains '\x00' = true) :
    t.resolve active o here (segment :: rest) = .unusable := by
  rw [resolve, if_neg hstay, if_neg hup, if_pos hnul]

/-- A link that is not being followed is settled first, and the rest goes on from where it leads. -/
theorem resolve_of_link {α : Type} {t : Tree α} {depth : Nat} {active : List (Origin depth × Place)}
    {o : Origin depth} {here : Place} {segment target : String} {rest : List String}
    (hstay : ¬ (segment = "" ∨ segment = ".")) (hup : segment ≠ "..")
    (hnul : ¬ segment.toList.contains '\x00' = true)
    (hget : t.linkAt? o (here ++ [segment]) = some target)
    (hactive : ¬ active.contains (o, here ++ [segment]) = true) :
    t.resolve active o here (segment :: rest) =
      match t.resolve ((o, here ++ [segment]) :: active) (o.ofTarget target)
          (startOf here target) (segmentsOf target) with
      | .found o there => t.resolve active o there rest
      | .circular path => .circular (path.resume rest)
      | .unusable => .unusable := by
  rw [resolve, if_neg hstay, if_neg hup, if_neg hnul]
  split
  · -- A place holds one link, so the target is the given one.
    rename_i target' hget'
    obtain rfl : target' = target := Option.some_inj.1 (hget'.symm.trans hget)
    exact dif_neg hactive
  · rename_i hnone
    cases hget.symm.trans hnone

/-- What is not seen as a link is taken as a name. -/
theorem resolve_of_name {α : Type} {t : Tree α} {depth : Nat} {active : List (Origin depth × Place)}
    {o : Origin depth} {here : Place} {segment : String} {rest : List String}
    (hstay : ¬ (segment = "" ∨ segment = ".")) (hup : segment ≠ "..")
    (hnul : ¬ segment.toList.contains '\x00' = true)
    (hnone : t.linkAt? o (here ++ [segment]) = none) :
    t.resolve active o here (segment :: rest) = t.resolve active o (here ++ [segment]) rest := by
  rw [resolve, if_neg hstay, if_neg hup, if_neg hnul]
  split
  · rename_i hget
    cases hget.symm.trans hnone
  · rfl

variable {α : Type} {t t' : Tree α}

/-- Two trees have the same links. -/
def SameLinks (t t' : Tree α) : Prop :=
  ∀ place target, t'.get? place = some (.link target) ↔ t.get? place = some (.link target)

namespace SameLinks

/-- With the same links the same ones are seen. -/
theorem linkAt?_eq (h : t.SameLinks t') {depth : Nat} (o : Origin depth) (place : Place) :
    t'.linkAt? o place = t.linkAt? o place := by
  refine Option.ext fun target => ?_
  rw [linkAt?_eq_some, linkAt?_eq_some]
  exact and_congr_left fun _ => h place target

/-- The search for a canonical path ends alike: it looks at nothing but links. -/
theorem resolve_eq (h : t.SameLinks t') {depth : Nat} (active : List (Origin depth × Place))
    (o : Origin depth) (here : Place) (segments : List String) :
    t'.resolve active o here segments = t.resolve active o here segments := by
  fun_induction resolve t active o here segments with
  | case1 active o here => rw [resolve]
  | case2 active o here segment rest hstay ih => rw [resolve, if_pos hstay, ih]
  | case3 active o here rest hstay ih => rw [resolve, if_neg hstay, if_pos rfl, ih]
  | case4 active o here segment rest hstay hup hnul => exact resolve_of_nul hstay hup hnul
  | case5 active o here segment rest hstay hup hnul target hget hactive =>
    -- Both trees show the same link here.
    rw [← h.linkAt?_eq] at hget
    rw [resolve, if_neg hstay, if_neg hup, if_neg hnul]
    split
    · exact dif_pos hactive
    · rename_i hnone
      cases hget.symm.trans hnone
  | case6 active o here segment rest hstay hup hnul target hget hactive hlt o' there hgo ih' ih =>
    rw [← h.linkAt?_eq] at hget
    rw [resolve_of_link hstay hup hnul hget hactive, ih', hgo]
    exact ih
  | case7 active o here segment rest hstay hup hnul target hget hactive hlt path hcircular ih =>
    rw [← h.linkAt?_eq] at hget
    rw [resolve_of_link hstay hup hnul hget hactive, ih, hcircular]
  | case8 active o here segment rest hstay hup hnul target hget hactive hlt hunusable ih =>
    rw [← h.linkAt?_eq] at hget
    rw [resolve_of_link hstay hup hnul hget hactive, ih, hunusable]
  | case9 active o here segment rest hstay hup hnul hnone ih =>
    rw [← h.linkAt?_eq] at hnone
    rw [resolve_of_name hstay hup hnul hnone, ih]

/-- So canonical paths are the same. -/
theorem canonical?_eq (h : t.SameLinks t') (here : Place) (path : String) :
    t'.canonical? here path = t.canonical? here path := by
  rw [canonical?, h.resolve_eq, canonical?]

end SameLinks

/-- An outline has all links in it. -/
theorem SameOutline.sameLinks (h : t.SameOutline t') : t.SameLinks t' :=
  fun _ _ => ⟨h.symm.get?_eq_link, h.get?_eq_link⟩

end Tree

/-! ## Where straight paths lead -/

namespace Path.IsStraight

variable {α : Type} {p q : Path} {t : Tree α} {here place place' : Place} {entry entry' : Entry α}

/-- What a straight path leads to stands where its names lead from the root. -/
theorem walk_of_lookup (h : p.IsStraight) (hlookup : t.lookup here p.text = .ok (place, entry)) :
    t.walk .followed linkBudget [] p.names = .ok (.present place entry) := by
  unfold Tree.lookup at hlookup
  split at hlookup
  · rename_i hlocate
    cases hlookup
    have hwalk := Tree.walk_of_locate hlocate
    rwa [h.isGrounded.startOf_text, h.isGrounded.stepsOf_text] at hwalk
  · cases hlookup
  · cases hlookup

/-- Straight paths with the same names lead to the same entry. -/
theorem lookup_congr (hp : p.IsStraight) (hq : q.IsStraight) (hnames : p.names = q.names)
    (hlookup : t.lookup here p.text = .ok (place, entry))
    (hlookup' : t.lookup here q.text = .ok (place', entry')) : entry = entry' := by
  have hwalk := hp.walk_of_lookup hlookup
  rw [hnames, hq.walk_of_lookup hlookup'] at hwalk
  cases hwalk
  rfl

end Path.IsStraight

end ImportAtlas

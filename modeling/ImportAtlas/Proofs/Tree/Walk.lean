import ImportAtlas.Proofs.Tree.Plain
import Mathlib.Algebra.GroupWithZero.Nat

/-!
# Walks without links

In a tree without links names lead where they say: each goes down, and `..` goes up again. A walk
ends there if all that it goes through are folders, and if no name is too long.

## Key results

- `Path.IsGrounded.isShort_place`: the place of a path is no longer than the path
- `Tree.IsPlain.locate_eq_ok_iff`, `Tree.IsPlain.lookup_eq_ok_iff`: where a path from the root leads
- `Tree.IsPlain.canonical?_eq`: a path becomes canonical by its names alone
-/

namespace ImportAtlas

variable {α : Type}

/-! ## Where names lead -/

/-- Where names lead from a place if none of them is a link. -/
def Place.go (here : Place) (names : List String) : Place :=
  names.foldl (fun here n => if n = ".." then here.dropLast else here ++ [n]) here

/-- The place that a path from the root leads to if no name on the way is a link. -/
def Path.place (p : Path) : Place :=
  Place.go [] p.names

namespace Place

theorem go_up (here : Place) (rest : List String) :
    here.go (".." :: rest) = Place.go here.dropLast rest :=
  rfl

theorem go_down (here : Place) {n : String} (h : n ≠ "..") (rest : List String) :
    here.go (n :: rest) = Place.go (here ++ [n]) rest := by
  simp only [go, List.foldl_cons, if_neg h]

/-- Names lead on from where those in front of them lead. -/
theorem go_append (here : Place) (front rest : List String) :
    here.go (front ++ rest) = (here.go front).go rest :=
  List.foldl_append

/-- From proper names one comes to proper names. -/
theorem IsProper.go {here : Place} (h : here.IsProper) {names : List String}
    (hnames : ∀ n ∈ names, Path.isName n = true) : (here.go names).IsProper := by
  induction names generalizing here with
  | nil => exact h
  | cons n rest ih =>
    simp only [List.mem_cons, forall_eq_or_imp] at hnames
    -- A step up drops a proper name, and any other step adds one.
    by_cases hup : n = ".."
    · subst hup
      exact ih h.dropLast hnames.2
    · rw [go_down here hup]
      apply ih _ hnames.2
      intro m hm
      rcases List.mem_append.1 hm with hm | hm
      · exact h m hm
      · obtain rfl := List.mem_singleton.1 hm
        exact ⟨hnames.1, hup⟩

/-- Names that go down stay behind the place. -/
theorem go_of_isProper (here : Place) {names : List String} (h : Place.IsProper names) :
    here.go names = here ++ names := by
  induction names generalizing here with
  | nil => exact (List.append_nil here).symm
  | cons n rest ih =>
    rw [go_down here (h n List.mem_cons_self).2, ih _ fun m hm => h m (.tail _ hm),
      List.append_assoc, List.singleton_append]

end Place

namespace Path

/-- The place of a path from the root has proper names. -/
theorem IsGrounded.isProper_place {p : Path} (h : p.IsGrounded) : p.place.IsProper := by
  have hroot : Place.IsProper [] := nofun
  exact hroot.go h.wellFormed

/-- A straight path leads to the place of its names. -/
theorem IsStraight.place_eq {p : Path} (h : p.IsStraight) : p.place = p.names :=
  Place.go_of_isProper [] h.names

end Path

/-! ## The length of a path -/

/-- How many bytes names take with a slash in front of each. -/
def Place.weight (place : Place) : Nat :=
  (place.map fun n => n.utf8ByteSize + 1).sum

/-- Going up forgets names, so no place is longer than the names that lead to it. -/
theorem Place.weight_go_le (here : Place) (names : List String) :
    (here.go names).weight ≤ here.weight + Place.weight names := by
  induction names generalizing here with
  | nil => exact Nat.le_refl _
  | cons n rest ih =>
    have hcons : Place.weight (n :: rest) = n.utf8ByteSize + 1 + Place.weight rest := by
      simp [Place.weight]
    -- A name adds its own weight, and going up never adds any.
    by_cases hup : n = ".."
    · subst hup
      have hdrop : Place.weight here.dropLast ≤ here.weight := by
        rcases List.eq_nil_or_concat here with rfl | ⟨front, m, rfl⟩
        · exact Nat.le_refl _
        · simp [Place.weight]
      have hrest := ih here.dropLast
      rw [Place.go_up]
      omega
    · have hdown : Place.weight (here ++ [n]) = here.weight + (n.utf8ByteSize + 1) := by
        simp [Place.weight]
      have hrest := ih (here ++ [n])
      rw [Place.go_down here hup]
      omega

/-- All names on the way have been there, or are in the path. -/
theorem Place.mem_go {here : Place} {names : List String} {n : String} (h : n ∈ here.go names) :
    n ∈ here ∨ n ∈ names := by
  induction names generalizing here with
  | nil => exact .inl h
  | cons m rest ih =>
    -- A step up adds no name.
    by_cases hup : m = ".."
    · subst hup
      rcases ih h with hn | hn
      · exact .inl (here.dropLast_subset hn)
      · exact .inr (.tail _ hn)
    · rw [Place.go_down here hup] at h
      rcases ih h with hn | hn
      · rcases List.mem_append.1 hn with hn | hn
        · exact .inl hn
        · exact .inr (List.mem_singleton.1 hn ▸ List.mem_cons_self)
      · exact .inr (.tail _ hn)

/-- With a slash in front of them, names with slashes between them take their weight. -/
private theorem size_intercalate {names : List String} (h : names ≠ []) :
    1 + ("/".intercalate names).utf8ByteSize = Place.weight names := by
  have hslash : "/".utf8ByteSize = 1 := by decide
  induction names with
  | nil => exact absurd rfl h
  | cons n rest ih =>
    have hcons : Place.weight (n :: rest) = n.utf8ByteSize + 1 + Place.weight rest := by
      simp [Place.weight]
    -- Each name costs its slash; the first one has the slash that stands in front.
    cases rest with
    | nil => simp [Place.weight, Nat.add_comm]
    | cons m rest =>
      have hrest := ih (List.cons_ne_nil m rest)
      rw [String.intercalate_cons_cons, String.utf8ByteSize_append, String.utf8ByteSize_append,
        hslash, hcons]
      omega

/-- The spelling of a path from the root is as long as its slashes and names. -/
private theorem size_text {p : Path} (h : p.isAbsolute = true) :
    p.text.utf8ByteSize = p.anchor.text.utf8ByteSize + ("/".intercalate p.names).utf8ByteSize := by
  have hanchor : p.anchor ≠ .here := by simpa [Path.isAbsolute] using h
  have hnames : String.ofList (['/'].intercalate (p.names.map String.toList)) =
      "/".intercalate p.names := by
    rw [← String.toList_inj, String.toList_ofList, String.toList_intercalate]
    rfl
  rw [Path.text, if_neg fun hhere => hanchor hhere.1, hnames, String.utf8ByteSize_append]

/-- A place that a path leads to is short enough to be used, if the path is. -/
theorem Path.IsGrounded.isShort_place {p : Path} (h : p.IsGrounded)
    (hlong : isLongPath p.text = false) (hnames : ∀ n ∈ p.names, isLongName n = false) :
    p.place.IsShort where
  names n hn := hnames n ((Place.mem_go hn).resolve_left nofun)
  path := by
    have hroot : Anchor.root.text.utf8ByteSize = 1 := by decide
    have hsize := size_text (p := .ofPlace p.place) rfl
    rw [show (Path.ofPlace p.place).anchor = .root from rfl, hroot,
      show (Path.ofPlace p.place).names = p.place from rfl] at hsize
    simp only [isLongPath, decide_eq_false_iff_not, Nat.not_le] at hlong ⊢
    by_cases hnil : p.place = []
    · rw [hnil, String.intercalate_nil] at hsize
      rw [hnil, hsize]
      decide
    · have hne : p.names ≠ [] := fun hempty => hnil (by rw [Path.place, hempty]; rfl)
      -- The spelling has at least the slash and the names that the place is spelled with.
      have hslashes : 1 ≤ p.anchor.text.utf8ByteSize := by
        have habsolute := h.isAbsolute
        cases hanchor : p.anchor with
        | here => simp [Path.isAbsolute, hanchor] at habsolute
        | root => decide
        | doubleRoot => decide
      have hplace := size_intercalate hnil
      have hspelled := size_intercalate hne
      have htext := size_text h.isAbsolute
      have hle := Place.weight_go_le [] p.names
      have hzero : Place.weight [] = 0 := rfl
      rw [Path.place] at *
      omega

/-- The path of the folder above is no longer. -/
theorem Path.IsGrounded.isLongPath_parent {p : Path} (h : p.IsGrounded)
    (hlong : isLongPath p.text = false) : isLongPath p.parent.text = false := by
  have htext := size_text h.isAbsolute
  have hparent := size_text h.parent.isAbsolute
  have hanchor : p.parent.anchor = p.anchor := rfl
  simp only [isLongPath, decide_eq_false_iff_not, Nat.not_le] at hlong ⊢
  by_cases hnil : p.parent.names = []
  · rw [hnil, String.intercalate_nil, hanchor] at hparent
    have hempty : "".utf8ByteSize = 0 := rfl
    omega
  · have hne : p.names ≠ [] := fun hempty => hnil (by rw [Path.parent, hempty]; rfl)
    have hcut := p.names.dropLast_append_getLast hne
    -- The path spells all that its parent spells, and one name more.
    have hweight : Place.weight p.names =
        Place.weight p.parent.names + ((p.names.getLast hne).utf8ByteSize + 1) := by
      conv_lhs => rw [← hcut]
      simp [Place.weight, Path.parent]
    have hfolder := size_intercalate hnil
    have hspelled := size_intercalate hne
    rw [hanchor] at hparent
    omega

/-! ## Walks -/

namespace Tree

/-- From `here`, every name is looked up in a folder, and none of them is too long. -/
def Passes (t : Tree α) (here : Place) : List String → Prop
  | [] => True
  | n :: rest => t.isFolder here = true ∧ isLongName n = false ∧ t.Passes (here.go [n]) rest

variable {t t' : Tree α} {here place : Place} {names : List String} {last : LastStep} {budget : Nat}
  {spot : Spot α} {entry : Entry α}

/-- A way is free if it is so up to some folder, and on from there. -/
theorem passes_append {rest : List String} :
    t.Passes here (names ++ rest) ↔ t.Passes here names ∧ t.Passes (here.go names) rest := by
  induction names generalizing here with
  | nil => simp [Passes, Place.go]
  | cons n names ih =>
    have hgo : here.go (n :: names) = (here.go [n]).go names := Place.go_append here [n] names
    rw [List.cons_append, Passes, Passes, ih, hgo]
    tauto

/-- No name that is passed is too long. -/
theorem Passes.isLongName_eq (h : t.Passes here names) : ∀ n ∈ names, isLongName n = false := by
  induction names generalizing here with
  | nil => exact nofun
  | cons n rest ih =>
    rw [List.forall_mem_cons]
    exact ⟨h.2.1, ih h.2.2⟩

/-- Names are passed in every tree that has the same folders and more. -/
theorem Passes.mono (h : t.Passes here names)
    (hfolder : ∀ place, t.isFolder place = true → t'.isFolder place = true) :
    t'.Passes here names := by
  induction names generalizing here with
  | nil => trivial
  | cons n rest ih => exact ⟨hfolder here h.1, h.2.1, ih h.2.2⟩

/-- Above a folder there are folders. -/
theorem IsClosed.isFolder_dropLast (h : t.IsClosed) (hfolder : t.isFolder here = true) :
    t.isFolder here.dropLast = true := by
  apply h
  rw [isFolder_iff.1 hfolder]
  exact nofun

namespace IsPlain

/-- Without links, a walk that passes its names ends where they lead. -/
theorem walk_of_passes (h : t.IsPlain) (hclosed : t.IsClosed)
    (hnames : ∀ n ∈ names, Path.isName n = true) (hhere : t.get? here ≠ none)
    (hpasses : t.Passes here names) :
    t.walk last budget here names = .ok (t.spotAt (here.go names)) := by
  induction names generalizing here with
  | nil =>
    obtain ⟨entry, hget⟩ := Option.ne_none_iff_exists'.1 hhere
    rw [walk_nil hget]
    exact congrArg Except.ok (spotAt_of_get? hget).symm
  | cons n rest ih =>
    simp only [List.mem_cons, forall_eq_or_imp] at hnames
    obtain ⟨hfolder, hlong, hrest⟩ := hpasses
    by_cases hup : n = ".."
    · subst hup
      have habove := hclosed.isFolder_dropLast hfolder
      rw [walk_up hfolder, Place.go_up]
      refine ih hnames.2 ?_ hrest
      rw [isFolder_iff.1 habove]
      simp
    · have hdown : GoesDown last n rest := by
        refine ⟨?_, hup, ?_, ne_true_of_eq_false hlong⟩
        · rintro (rfl | rfl) <;> exact absurd hnames.1 (by decide)
        · rintro ⟨-, rfl⟩
          exact absurd (hnames.2 "" List.mem_cons_self) (by decide)
      rw [Place.go_down here hup] at hrest ⊢
      cases hget : t.get? (here ++ [n]) with
      | none =>
        -- Only the last name may be missing, since a folder must stand at any other.
        cases rest with
        | nil =>
          rw [walk_free hfolder hdown hget]
          exact congrArg Except.ok (spotAt_of_get?_eq_none hget).symm
        | cons m rest =>
          have hnext : t.get? (here ++ [n]) = some .folder := isFolder_iff.1 hrest.1
          rw [hget] at hnext
          cases hnext
      | some entry =>
        have hlink : ∀ target, entry ≠ .link target := by
          rintro target rfl
          exact h.ne_link _ _ hget
        rw [walk_down hfolder hdown hget hlink]
        exact ih hnames.2 (by rw [hget]; simp) hrest

/-- A walk that succeeds has passed its names. -/
theorem passes_of_walk (h : t.IsPlain) (hnames : ∀ n ∈ names, Path.isName n = true)
    (hwalk : t.walk last budget here names = .ok spot) : t.Passes here names := by
  have hup : isLongName ".." = false := by decide
  fun_induction walk t last budget here names with
  | case1 => trivial
  | case4 budget here n rest hfolder hstay ih =>
    simp only [List.mem_cons, forall_eq_or_imp] at hnames
    rcases hstay with rfl | rfl <;> exact absurd hnames.1 (by decide)
  | case5 budget here rest hfolder hstay ih =>
    simp only [List.mem_cons, forall_eq_or_imp] at hnames
    exact ⟨by simpa using hfolder, hup, ih hnames.2 hwalk⟩
  | case8 budget here n hfolder hstay hup hlong hget hmade =>
    exact ⟨by simpa using hfolder, eq_false_of_ne_true hlong, trivial⟩
  | case10 budget here n rest hfolder hstay hup hmade hlong target hget hkept =>
    -- A plain tree has no link to stop at or to go through.
    exact absurd hget (h.ne_link _ _)
  | case12 here n rest hfolder hstay hup hmade hlong target hget hkept budget ih =>
    exact absurd hget (h.ne_link _ _)
  | case13 budget here n rest hfolder hstay hup' hmade hlong entry hlink hget ih =>
    simp only [List.mem_cons, forall_eq_or_imp] at hnames
    refine ⟨by simpa using hfolder, eq_false_of_ne_true hlong, ?_⟩
    rw [Place.go_down here hup']
    exact ih hnames.2 hwalk
  | _ => cases hwalk

/-- Without links, a path from the root leads to the place of its names, if it is passed. -/
theorem locate_eq_ok_iff (h : t.IsPlain) (hclosed : t.IsClosed) {p : Path} (hp : p.IsGrounded) :
    t.locate here last p.text = .ok spot ↔
      isLongPath p.text = false ∧ t.Passes [] p.names ∧ spot = t.spotAt p.place := by
  have hroot : t.get? [] ≠ none := by
    rw [t.get?_nil]
    exact nofun
  rw [hp.locate_eq]
  cases hlong : isLongPath p.text with
  | true => simp
  | false =>
    simp only [Bool.false_eq_true, ↓reduceIte, true_and]
    constructor
    · intro hwalk
      -- A walk that ends has passed every folder on the way, and then it ends at the place.
      have hpasses := h.passes_of_walk hp.wellFormed hwalk
      rw [h.walk_of_passes hclosed hp.wellFormed hroot hpasses] at hwalk
      exact ⟨hpasses, (Except.ok.inj hwalk).symm⟩
    · rintro ⟨hpasses, rfl⟩
      exact h.walk_of_passes hclosed hp.wellFormed hroot hpasses

/-- In a plain tree a path leads where its names lead, if the way is free and it is not too long. -/
theorem lookup_eq_ok_iff (h : t.IsPlain) (hclosed : t.IsClosed) {p : Path} (hp : p.IsGrounded) :
    t.lookup here p.text = .ok (place, entry) ↔
      isLongPath p.text = false ∧ t.Passes [] p.names ∧ place = p.place ∧
        t.get? p.place = some entry := by
  -- With no link to follow, what is found stands at the names of the path.
  have hlocate (spot : Spot α) : t.locate here .followed p.text = .ok spot ↔ _ :=
    h.locate_eq_ok_iff hclosed hp
  unfold lookup
  constructor
  · intro hlookup
    split at hlookup
    · rename_i place' entry' hfound
      obtain ⟨hlong, hpasses, hspot⟩ := (hlocate _).1 hfound
      cases hlookup
      obtain ⟨rfl, hget⟩ := present_eq_spotAt_iff.1 hspot
      exact ⟨hlong, hpasses, rfl, hget⟩
    · cases hlookup
    · cases hlookup
  · rintro ⟨hlong, hpasses, rfl, hget⟩
    rw [(hlocate _).2 ⟨hlong, hpasses, (spotAt_of_get? hget).symm⟩]

end IsPlain

/-! ## Paths that are too long -/

/-- A name that is too long is found out on the way to an entry. -/
theorem IsClosed.walk_eq_longName (h : t.IsClosed) (last : LastStep) (budget : Nat) (here : Place)
    {names : List String} (hproper : Place.IsProper names) (hget : t.get? (here ++ names) ≠ none)
    (hlong : ∃ n ∈ names, isLongName n = true) :
    t.walk last budget here names = .error .longName := by
  induction names generalizing here with
  | nil =>
    obtain ⟨n, hn, -⟩ := hlong
    cases hn
  | cons n rest ih =>
    have hfolder := h.isFolder_of_append (List.cons_ne_nil n rest) hget
    cases hn : isLongName n with
    -- The walk stops at the first name that is too long.
    | true =>
      have hmade : ¬ (last = .made ∧ rest = [""]) := by
        rintro ⟨-, rfl⟩
        exact absurd (hproper "" (by simp)).1 (by decide)
      rw [walk, if_neg (by simp [hfolder]), if_neg (hproper.not_stay List.mem_cons_self),
        if_neg (hproper n List.mem_cons_self).2, if_neg hmade, if_pos hn]
    | false =>
      -- The name that is too long comes later, so a folder stands here.
      have hlater : ∃ m ∈ rest, isLongName m = true := by
        obtain ⟨m, hm, hlong⟩ := hlong
        rcases List.mem_cons.1 hm with rfl | hm
        · rw [hn] at hlong
          cases hlong
        · exact ⟨m, hm, hlong⟩
      rw [List.append_cons] at hget
      have hnext : t.get? (here ++ [n]) = some .folder := by
        apply isFolder_iff.1
        apply h.isFolder_of_append _ hget
        rintro rfl
        obtain ⟨m, hm, -⟩ := hlater
        cases hm
      have hno (target : String) : (Entry.folder : Entry α) ≠ .link target := by
        intro h
        cases h
      rw [walk_down hfolder (hproper.goesDown hn) hnext hno]
      exact ih _ (fun m hm => hproper m (.tail _ hm)) hget hlater

/-- Where an entry stands, its path can only be too long. -/
theorem IsClosed.lookup_eq_longName (h : t.IsClosed) (hproper : place.IsProper)
    (hget : t.get? place ≠ none) (hshort : ¬ place.IsShort) (here : Place) :
    t.lookup here (Path.ofPlace place).text = .error .longName := by
  have hgrounded := hproper.isStraight.isGrounded
  suffices hlocate : t.locate here .followed (Path.ofPlace place).text = .error .longName by
    rw [lookup, hlocate]
  rw [hgrounded.locate_eq]
  -- The path as a whole is too long, or one of its names is.
  cases hpath : isLongPath (Path.ofPlace place).text with
  | true => rw [if_pos rfl]
  | false =>
    rw [if_neg Bool.false_ne_true]
    apply h.walk_eq_longName _ _ [] hproper hget
    by_contra hnames
    exact hshort ⟨hpath, fun n hn => eq_false_of_ne_true fun hlong => hnames ⟨n, hn, hlong⟩⟩

/-! ## Canonical paths -/

/-- Without links, a path becomes canonical by its names alone. -/
theorem IsPlain.resolve_eq {depth : Nat} (h : t.IsPlain) (h' : t'.IsPlain)
    (active : List (Origin depth × Place)) (o : Origin depth) (here : Place)
    (segments : List String) :
    t'.resolve active o here segments = t.resolve active o here segments ∧
      ∀ path, t.resolve active o here segments ≠ .circular path := by
  induction segments generalizing o here with
  | nil =>
    rw [resolve, resolve]
    exact ⟨rfl, by simp⟩
  | cons segment rest ih =>
    rw [resolve, resolve]
    split
    · exact ih _ _
    · split
      · exact ih _ _
      · split
        · exact ⟨rfl, by simp⟩
        · split
          · -- Neither tree has a link that could be seen.
            rename_i target hget
            exact absurd (linkAt?_eq_some.1 hget).1 (h'.ne_link _ _)
          · split
            · rename_i target hget
              exact absurd (linkAt?_eq_some.1 hget).1 (h.ne_link _ _)
            · exact ih _ _

/-- So plain trees agree in canonical paths, which are all found. -/
theorem IsPlain.canonical?_eq (h : t.IsPlain) (h' : t'.IsPlain) (here : Place) (path : String) :
    t'.canonical? here path = t.canonical? here path ∧
      ∀ p, t.canonical? here path = some p → ∃ place, p = .ofPlace place := by
  obtain ⟨hsame, hcircular⟩ :=
    h.resolve_eq h' [] (originOf here path) (startOf here path) (segmentsOf path)
  refine ⟨by rw [canonical?, canonical?, hsame], fun p hp => ?_⟩
  unfold canonical? at hp
  split at hp
  · exact ⟨_, (Option.some_inj.1 hp).symm⟩
  · -- Without links there is no circle to be stopped at.
    rename_i hfound
    exact absurd hfound (hcircular _)
  · cases hp

end Tree

end ImportAtlas

import ImportAtlas.Proofs.Tree.Canonical
import Mathlib.Data.List.Induction

/-!
# Straight paths without links

Where every entry stands in a folder, what stands at a place is found by the names that lead there,
and where none of the places on the way is a link, a straight path is canonical.

## Key results

- `Tree.IsClosed.walk_eq`, `Tree.IsClosed.lookup_eq`: an entry is found by its names
- `Tree.canonical?_eq`: a straight path that goes through no link is canonical
-/

namespace ImportAtlas

variable {α : Type}

theorem Place.IsProper.not_stay {n : String} {place : Place} (h : place.IsProper) (hn : n ∈ place) :
    ¬ (n = "" ∨ n = ".") := by
  have hname := (h n hn).1
  simp only [Path.isName, Bool.and_eq_true, bne_iff_ne] at hname
  exact fun hor => hor.elim hname.1.1 hname.1.2

/-- A step by a name that an entry can have goes down, unless it is too long. -/
theorem Place.IsProper.goesDown {last : LastStep} {n : String} {rest : List String}
    (h : Place.IsProper (n :: rest)) (hshort : isLongName n = false) :
    Tree.GoesDown last n rest where
  not_stay := h.not_stay List.mem_cons_self
  ne_up := (h n List.mem_cons_self).2
  not_made := by
    -- An empty name is not proper.
    rintro ⟨-, rfl⟩
    exact absurd (h "" (by simp)).1 (by decide)
  short := ne_true_of_eq_false hshort

/-- Every entry stands in a folder. -/
def Tree.IsClosed (t : Tree α) : Prop :=
  ∀ place, t.get? place ≠ none → t.isFolder place.dropLast = true

/-- No entry is a link. -/
def Tree.IsPlain (t : Tree α) : Prop :=
  ∀ e ∈ t.entries, ∀ target, e.2 ≠ .link target

/-- The names that lead to a place, and the path that they make, are short enough to be used. -/
structure Place.IsShort (place : Place) : Prop where
  path : isLongPath (Path.ofPlace place).text = false
  names : ∀ n ∈ place, isLongName n = false

namespace Tree

variable {t : Tree α} {here place : Place} {entry : Entry α}

theorem isFolder_iff : t.isFolder place = true ↔ t.get? place = some .folder := by
  unfold isFolder
  split
  · rename_i hget
    simp [hget]
  · rename_i hget
    exact iff_of_false nofun hget

/-- What stands at a place other than the root is listed. -/
theorem mem_entries_of_get? (hroot : place ≠ []) (hget : t.get? place = some entry) :
    (place, entry) ∈ t.entries := by
  rw [get?, if_neg hroot] at hget
  exact Dictionary.mem_of_get? hget

/-- Something stands at a place that is listed. -/
theorem get?_ne_none_of_mem (h : (place, entry) ∈ t.entries) : t.get? place ≠ none := by
  unfold get?
  split
  · exact nofun
  · rw [ne_eq, Dictionary.get?_eq_none_iff, not_not]
    exact List.mem_map.2 ⟨_, h, rfl⟩

/-- So no link is found at any place. -/
theorem IsPlain.ne_link (h : t.IsPlain) (place : Place) (target : String) :
    t.get? place ≠ some (.link target) := by
  intro hget
  have hroot : place ≠ [] := by
    rintro rfl
    rw [get?_nil] at hget
    cases hget
  exact h _ (mem_entries_of_get? hroot hget) target rfl

/-- It is enough that the entries that are listed stand in folders. -/
theorem isClosed_of_entries (h : ∀ e ∈ t.entries, t.isFolder e.1.dropLast = true) :
    t.IsClosed := by
  intro place hget
  by_cases hroot : place = []
  · rw [hroot]
    rfl
  · obtain ⟨entry, hget⟩ := Option.ne_none_iff_exists'.1 hget
    exact h _ (mem_entries_of_get? hroot hget)

namespace IsClosed

/-- All that is above an entry are folders. -/
theorem isFolder_of_append (h : t.IsClosed) {rest : List String} (hrest : rest ≠ [])
    (hget : t.get? (here ++ rest) ≠ none) : t.isFolder here = true := by
  induction rest using List.reverseRecOn with
  | nil => exact absurd rfl hrest
  | append_singleton rest n ih =>
    have habove := h _ hget
    rw [← List.append_assoc, List.dropLast_concat] at habove
    -- The entry right below needs the folder itself; a deeper one needs the folder above it first.
    by_cases hnil : rest = []
    · rwa [hnil, List.append_nil] at habove
    · apply ih hnil
      rw [isFolder_iff.1 habove]
      exact nofun

/-- An entry other than a link is found by the names that lead to it. -/
theorem walk_eq (h : t.IsClosed) (last : LastStep) (budget : Nat) (here : Place)
    {names : List String}
    (hproper : Place.IsProper names) (hshort : ∀ n ∈ names, isLongName n = false)
    (hget : t.get? (here ++ names) = some entry) (hlink : ∀ target, entry ≠ .link target) :
    t.walk last budget here names = .ok (.present (here ++ names) entry) := by
  induction names generalizing here with
  | nil =>
    rw [List.append_nil] at hget ⊢
    exact walk_nil hget
  | cons n rest ih =>
    have hfolder : t.isFolder here = true := by
      apply h.isFolder_of_append (List.cons_ne_nil n rest)
      rw [hget]
      simp
    rw [List.append_cons] at hget ⊢
    -- The next entry is the last one, or a folder in which the last one stands.
    obtain ⟨next, hnext, hno⟩ : ∃ next, t.get? (here ++ [n]) = some next ∧
        ∀ target, next ≠ .link target := by
      by_cases hnil : rest = []
      · subst hnil
        rw [List.append_nil] at hget
        exact ⟨entry, hget, hlink⟩
      · refine ⟨.folder, isFolder_iff.1 (h.isFolder_of_append hnil ?_), nofun⟩
        rw [hget]
        simp
    rw [walk_down hfolder (hproper.goesDown (hshort n List.mem_cons_self)) hnext hno]
    exact ih (here ++ [n]) (fun m hm => hproper m (.tail _ hm)) (fun m hm => hshort m (.tail _ hm))
      hget

/-- So the canonical path of an entry leads to it. -/
theorem lookup_eq (h : t.IsClosed) (hproper : place.IsProper) (hshort : place.IsShort)
    (hget : t.get? place = some entry) (hlink : ∀ target, entry ≠ .link target) (here : Place) :
    t.lookup here (Path.ofPlace place).text = .ok (place, entry) := by
  have hgrounded := hproper.isStraight.isGrounded
  have hwalk := h.walk_eq .followed linkBudget [] hproper hshort.names hget hlink
  rw [List.nil_append] at hwalk
  -- The walk from the root ends at the entry itself.
  have hlocate : t.locate here .followed (Path.ofPlace place).text =
      .ok (.present place entry) := by
    rw [hgrounded.locate_eq, if_neg (ne_true_of_eq_false hshort.path)]
    exact hwalk
  rw [lookup, hlocate]

end IsClosed

/-! ## Canonical paths -/

/-- Names on which no link is seen are kept. -/
theorem resolve_eq {depth : Nat} (active : List (Origin depth × Place)) (o : Origin depth)
    (here : Place) {names : List String} (hproper : Place.IsProper names)
    (hnul : ∀ n ∈ names, n.toList.contains '\x00' = false)
    (hlink : ∀ front rest, names = front ++ rest → t.linkAt? o (here ++ front) = none) :
    t.resolve active o here names = .found o (here ++ names) := by
  induction names generalizing here with
  | nil => rw [resolve, List.append_nil]
  | cons n rest ih =>
    have hstay := hproper.not_stay List.mem_cons_self
    have hup := (hproper n List.mem_cons_self).2
    -- One name further there is still no link on the way.
    have hrest := ih (here ++ [n]) (fun m hm => hproper m (.tail _ hm))
      (fun m hm => hnul m (.tail _ hm)) fun front rest' hsplit => by
        rw [List.append_assoc]
        exact hlink ([n] ++ front) rest' (by rw [hsplit]; rfl)
    rw [resolve_of_name hstay hup (ne_true_of_eq_false (hnul n List.mem_cons_self))
      (hlink [n] rest rfl), hrest, List.append_assoc]
    rfl

section Links

variable {depth : Nat} {active : List (Origin depth × Place)} {o : Origin depth} {n target : String}
  {rest : List String}

/-- A link that is being followed leads back to itself. -/
theorem resolve_of_active (hproper : Place.IsProper [n])
    (hnul : n.toList.contains '\x00' = false)
    (hget : t.linkAt? o (here ++ [n]) = some target)
    (hactive : active.contains (o, here ++ [n]) = true) :
    t.resolve active o here (n :: rest) =
      .circular ((Path.ofPlace (here ++ [n])).resume rest) := by
  have hstay := hproper.not_stay List.mem_cons_self
  have hup := (hproper n List.mem_cons_self).2
  rw [resolve, if_neg hstay, if_neg hup, if_neg (ne_true_of_eq_false hnul)]
  split
  · -- The link is being followed already, so the rest is joined to it unread.
    exact dif_pos hactive
  · rename_i hnone
    cases hget.symm.trans hnone

/-- Any other link is followed, and its target may be where the search ends. -/
theorem resolve_of_link_circular (hproper : Place.IsProper [n])
    (hnul : n.toList.contains '\x00' = false)
    (hget : t.linkAt? o (here ++ [n]) = some target)
    (hactive : active.contains (o, here ++ [n]) = false) {path : Path}
    (hcircular : t.resolve ((o, here ++ [n]) :: active) (o.ofTarget target) (startOf here target)
      (segmentsOf target) = .circular path) :
    t.resolve active o here (n :: rest) = .circular (path.resume rest) := by
  have hstay := hproper.not_stay List.mem_cons_self
  have hup := (hproper n List.mem_cons_self).2
  rw [resolve_of_link hstay hup (ne_true_of_eq_false hnul) hget (ne_true_of_eq_false hactive),
    hcircular]

end Links

/-- Empty segments in front change nothing. -/
theorem resolve_replicate {depth : Nat} (t : Tree α) (active : List (Origin depth × Place))
    (o : Origin depth) (here : Place) (k : Nat) (segments : List String) :
    t.resolve active o here (List.replicate k "" ++ segments) =
      t.resolve active o here segments := by
  induction k with
  | zero => rfl
  | succ k ih =>
    rw [List.replicate_succ, List.cons_append, resolve, if_pos (.inl rfl), ih]

/-- A straight path that goes through no link in sight is canonical, but for slashes. -/
theorem canonical?_eq {p : Path} (hp : p.IsStraight)
    (hnul : ∀ n ∈ p.names, n.toList.contains '\x00' = false)
    (hlink : ∀ front rest target, p.names = front ++ rest →
      t.inSight.get? front ≠ some (.link target)) (here : Place) :
    t.canonical? here p.text = some (.ofPlace p.names) := by
  obtain ⟨k, hk⟩ := hp.isGrounded.segmentsOf_text
  -- No step on the way is a link that is seen.
  have hfound := t.resolve_eq [] (originOf here p.text) [] hp.names hnul
    fun front rest hsplit => by
      rw [List.nil_append, hp.isGrounded.originOf_text, Option.eq_none_iff_forall_ne_some]
      exact fun target hlinked => hlink front rest target hsplit (linkAt?_root.1 hlinked)
  rw [canonical?, hp.isGrounded.startOf_text, hk, resolve_replicate, hfound, List.nil_append]

end Tree

end ImportAtlas

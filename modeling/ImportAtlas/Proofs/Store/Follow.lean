import ImportAtlas.Proofs.Store.Open
import ImportAtlas.Proofs.Tree.Keeps

/-!
# The place of a database behind links

The path of a database is put together in another way than paths are walked: it may go through more
links, and what is missing may be left again. But behind a folder that a walk leads to, both are at
the same place, and there they stay when more is put into the tree.

## Key results

- `Store.exists_follow_append`: putting a path together goes on from the folder that a walk leads to
- `Store.placeOf?_of_keeps`: the place of a database is its last name in that folder
-/

namespace ImportAtlas.Store

variable {α : Type} {t t' : Tree α} {here place folder : Place} {front rest segments : List String}
  {budget limit : Nat} {n : String}

/-- Empty segments change nothing. -/
theorem follow_filter (t : Tree α) (limit : Nat) (here : Place) (segments : List String) :
    follow t limit here (segments.filter (· != "")) = follow t limit here segments := by
  -- What comes behind a link is put together with fewer links left, the rest with fewer segments.
  induction limit using Nat.strong_induction_on generalizing here segments with
  | _ limit ihLimit =>
    induction segments generalizing here with
    | nil => rfl
    | cons segment rest ih =>
      by_cases hempty : segment = ""
      · rw [List.filter_cons_of_neg (by simp [hempty]), ih, follow_stay (.inl hempty)]
      rw [List.filter_cons_of_pos (by simpa using hempty)]
      by_cases hdot : segment = "."
      · rw [follow_stay (.inr hdot), follow_stay (.inr hdot), ih]
      by_cases hup : segment = ".."
      · subst hup
        rw [follow_up, follow_up, ih]
      have hstay : ¬ (segment = "" ∨ segment = ".") := not_or.2 ⟨hempty, hdot⟩
      -- A link spends one of the limit, and its target may have empty names of its own.
      by_cases hlink : ∃ target, t.get? (here ++ [segment]) = some (.link target)
      · obtain ⟨target, hget⟩ := hlink
        cases limit with
        | zero => rw [follow_zero hstay hup hget, follow_zero hstay hup hget]
        | succ limit =>
          rw [follow_through hstay hup hget, follow_through hstay hup hget,
            ← ihLimit limit (Nat.lt_succ_self _) _ (segmentsOf target ++ _),
            ← ihLimit limit (Nat.lt_succ_self _) _ (segmentsOf target ++ rest)]
          simp
      · rw [follow_down hstay hup (not_exists.1 hlink), follow_down hstay hup (not_exists.1 hlink),
          ih]

theorem follow_congr {segments' : List String}
    (h : segments.filter (· != "") = segments'.filter (· != "")) :
    follow t limit here segments = follow t limit here segments' := by
  rw [← follow_filter, h, follow_filter]

/-- Behind a folder that a walk leads to, putting a path together goes on from there, with as many
links left as the walk leaves, unless there were too few. -/
theorem exists_follow_append
    (hwalk : t.walk .followed budget here front = .ok (.present folder .folder)) (limit : Nat) :
    ∃ left : Option Nat, ∀ t', t.Keeps t' → t'.IsClosed → ∀ rest,
      follow t' limit here (front ++ rest) =
        left.bind fun limit' => follow t' limit' folder rest := by
  generalize hlast : LastStep.followed = last at hwalk
  -- In a folder, a name that is short enough to be walked is in nothing's way but its size.
  have hfree {here : Place} {step : String} (hfolder : ¬ (!t.isFolder here) = true)
      (hsize : ¬ pathLimit < pathSize (here ++ [step])) (hlong : ¬ isLongName step = true)
      (t' : Tree α) (hkeeps : t.Keeps t') (hclosed : t'.IsClosed) :
      ¬ (pathLimit < pathSize (here ++ [step]) ∨ isBlocked t' here step = true) :=
    not_or.2 ⟨hsize, ne_true_of_eq_false (isBlocked_eq_false hclosed
      (hkeeps.isFolder (by simpa using hfolder)) (eq_false_of_ne_true hlong))⟩
  fun_induction Tree.walk t last budget here front generalizing limit with
  | case1 budget here entry hget =>
    cases hwalk
    exact ⟨some limit, fun t' _ _ rest => rfl⟩
  | case4 budget here step steps hfolder hstay ih =>
    obtain ⟨left, ih⟩ := ih limit hwalk
    refine ⟨left, fun t' hkeeps hclosed rest => ?_⟩
    rw [List.cons_append, follow_stay hstay, ih t' hkeeps hclosed]
  | case5 budget here steps hfolder hstay ih =>
    by_cases hroot : here = []
    · refine ⟨none, fun t' _ _ rest => ?_⟩
      rw [List.cons_append, follow_up, if_pos hroot]
      rfl
    · obtain ⟨left, ih⟩ := ih limit hwalk
      refine ⟨left, fun t' hkeeps hclosed rest => ?_⟩
      rw [List.cons_append, follow_up, if_neg hroot, ih t' hkeeps hclosed]
  | case10 budget here step steps hfolder hstay hup hmade hlong target hget hkept =>
    subst hlast
    cases hkept.2
  | case12 here step steps hfolder hstay hup hmade hlong target hget hkept budget ih =>
    -- Putting a path together has its own limit, which may be used up before the walk's budget.
    cases limit with
    | zero =>
      refine ⟨none, fun t' hkeeps _ rest => ?_⟩
      rw [List.cons_append, follow_zero hstay hup (hkeeps.get?_link hget)]
      rfl
    | succ limit =>
      by_cases hsize : pathLimit < pathSize (here ++ [step])
      · refine ⟨none, fun t' hkeeps _ rest => ?_⟩
        rw [List.cons_append, follow_through hstay hup (hkeeps.get?_link hget), if_pos (.inl hsize)]
        rfl
      · obtain ⟨left, ih⟩ := ih limit hwalk
        refine ⟨left, fun t' hkeeps hclosed rest => ?_⟩
        rw [List.cons_append, follow_through hstay hup (hkeeps.get?_link hget),
          if_neg (hfree hfolder hsize hlong t' hkeeps hclosed), ← ih t' hkeeps hclosed]
        apply follow_congr
        simp only [List.filter_append, List.append_assoc, Tree.filter_stepsOf]
  | case13 budget here step steps hfolder hstay hup hmade hlong entry hlink hget ih =>
    have hno (t' : Tree α) (hkeeps : t.Keeps t') (target : String) :
        t'.get? (here ++ [step]) ≠ some (.link target) := by
      obtain ⟨entry', hget', houtline⟩ := hkeeps _ _ hget
      rw [hget']
      exact fun h => Entry.ne_link_of_outline houtline hlink target (Option.some_inj.1 h)
    by_cases hsize : pathLimit < pathSize (here ++ [step])
    · refine ⟨none, fun t' hkeeps _ rest => ?_⟩
      rw [List.cons_append, follow_down hstay hup (hno t' hkeeps), if_pos (.inl hsize)]
      rfl
    · obtain ⟨left, ih⟩ := ih limit hwalk
      refine ⟨left, fun t' hkeeps hclosed rest => ?_⟩
      rw [List.cons_append, follow_down hstay hup (hno t' hkeeps),
        if_neg (hfree hfolder hsize hlong t' hkeeps hclosed), ih t' hkeeps hclosed]
  | _ => cases hwalk

/-- In a folder, a name that is no link is where a database may lie, if it is not too long. -/
theorem follow_name (hfolder : t.isFolder folder = true)
    (hname : Path.isName n = true) (hup : n ≠ "..")
    (hlink : ∀ target, t.get? (folder ++ [n]) ≠ some (.link target))
    (h : follow t limit folder [n] = some place) :
    place = folder ++ [n] ∧ isLongName n = false ∧ ¬ pathLimit < pathSize (folder ++ [n]) := by
  -- One step down, to a place that is neither too long nor blocked.
  rw [follow_down (not_stay_of_isName hname) hup hlink, Option.ite_none_left_eq_some, not_or,
    follow] at h
  obtain ⟨⟨hsize, hfree⟩, hplace⟩ := h
  exact ⟨(Option.some_inj.1 hplace).symm, isLongName_of_not_isBlocked hfolder hfree, hsize⟩

theorem follow_name_of_size (hclosed : t.IsClosed) (hfolder : t.isFolder folder = true)
    (hname : Path.isName n = true) (hup : n ≠ "..")
    (hlink : ∀ target, t.get? (folder ++ [n]) ≠ some (.link target)) (hlong : isLongName n = false)
    (hsize : ¬ pathLimit < pathSize (folder ++ [n])) :
    follow t limit folder [n] = some (folder ++ [n]) := by
  have hfree := ne_true_of_eq_false (isBlocked_eq_false hclosed hfolder hlong)
  rw [follow_down (not_stay_of_isName hname) hup hlink, if_neg (not_or.2 ⟨hsize, hfree⟩), follow]

/-- Behind a folder that a path leads to, a database lies at the last name of the path, now and when
more is there. -/
theorem placeOf?_of_keeps {p : Path} (hp : p.IsGrounded) (hnames : p.names = front ++ [n])
    (hup : n ≠ "..") (hparent : t.lookup here p.parent.text = .ok (folder, .folder))
    (hclosed : t.IsClosed) (hlink : ∀ target, t.get? (folder ++ [n]) ≠ some (.link target))
    (h : placeOf? t here p.text = some place) :
    place = folder ++ [n] ∧ isLongName n = false ∧ ∀ t', t.Keeps t' → t'.IsClosed →
      (∀ target, t'.get? (folder ++ [n]) ≠ some (.link target)) →
        placeOf? t' here p.text = some place := by
  obtain ⟨k, hk⟩ := hp.segmentsOf_text
  have hname := hp.wellFormed n (by rw [hnames]; simp)
  have hparents : p.parent.names = front := by
    rw [Path.parent, hnames, List.dropLast_concat]
  obtain ⟨-, -, hwalk⟩ := Tree.locate_eq_ok_iff.1 (Tree.lookup_eq_ok_iff.1 hparent)
  rw [hp.parent.startOf_text, hp.parent.stepsOf_text, hparents] at hwalk
  -- Up to the folder the walk is the same in every tree that keeps this one; only the last name is
  -- left.
  obtain ⟨left, hmore⟩ := exists_follow_append hwalk maxLinks
  have hfolder := Tree.isFolder_iff.2 (Tree.get?_of_lookup hparent)
  obtain ⟨hfollow, hsize⟩ := Option.filter_eq_some_iff.1 h
  rw [hp.startOf_text, hk, follow_replicate, hnames, hmore t (.refl t) hclosed] at hfollow
  obtain ⟨limit, rfl, hfollow⟩ := Option.bind_eq_some_iff.1 hfollow
  obtain ⟨rfl, hlong, hlimit⟩ := follow_name hfolder hname hup hlink hfollow
  refine ⟨rfl, hlong, fun t' hkeeps hclosed' hlink' => ?_⟩
  rw [placeOf?, hp.startOf_text, hk, follow_replicate, hnames, hmore t' hkeeps hclosed']
  refine Option.filter_eq_some_iff.2 ⟨?_, hsize⟩
  exact follow_name_of_size hclosed' (hkeeps.isFolder hfolder) hname hup hlink' hlong hlimit

end ImportAtlas.Store

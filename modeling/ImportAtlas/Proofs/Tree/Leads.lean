import ImportAtlas.Proofs.Tree.Growth

/-!
# Where links lead

With all links on the way followed, segments lead from a place to one other place at most. This
says where a path leads without saying how many links may be followed and what must be there. A walk
ends at that place, or at a link from which one goes on to it. This holds of a walk in a later tree,
too, as long as the later tree has no other links, and no folders in the places of links. The search
for a canonical path from the root that finds a place finds the one to which its segments lead past
the links in sight.

## Key results

- `Tree.Leads.unique`: segments lead to one place at most
- `Tree.leads_of_resolve`: the search for the canonical form of a path from the root ends where its
  segments lead past the links in sight
- `Tree.Resolves.ne_link`: a path from the root never resolves to a link
- `Tree.GoesWith.settles_of_walk`: a walk, even in a later tree, comes by the same places
- `Tree.Keeps.walk_followed`: a walk ends at the same place when more is there
-/

namespace ImportAtlas

variable {α : Type}

namespace Tree

variable {t t' t'' : Tree α} {here there mid place : Place} {segment target : String}
  {rest segments : List String}

/-- Segments lead from a place to another one when links are followed. What is missing is taken as
it is spelled. -/
inductive Leads (t : Tree α) : Place → List String → Place → Prop
  | done (here : Place) : Leads t here [] here
  /-- An empty segment and a dot lead nowhere else. -/
  | stay {here there : Place} {segment : String} {rest : List String}
      (hstay : segment = "" ∨ segment = ".") (h : Leads t here rest there) :
      Leads t here (segment :: rest) there
  | up {here there : Place} {rest : List String} (h : Leads t here.dropLast rest there) :
      Leads t here (".." :: rest) there
  /-- A link leads on from its target. -/
  | through {here mid there : Place} {segment target : String} {rest : List String}
      (hstay : ¬ (segment = "" ∨ segment = ".")) (hup : segment ≠ "..")
      (hget : t.get? (here ++ [segment]) = some (.link target))
      (htarget : Leads t (startOf here target) (segmentsOf target) mid)
      (h : Leads t mid rest there) : Leads t here (segment :: rest) there
  | down {here there : Place} {segment : String} {rest : List String}
      (hstay : ¬ (segment = "" ∨ segment = ".")) (hup : segment ≠ "..")
      (hlink : ∀ target, t.get? (here ++ [segment]) ≠ some (.link target))
      (h : Leads t (here ++ [segment]) rest there) : Leads t here (segment :: rest) there

/-! ## One segment -/

/-- Without segments one stays. -/
theorem leads_nil : t.Leads here [] there ↔ there = here := by
  constructor
  · rintro ⟨⟩
    rfl
  · rintro rfl
    exact .done there

/-- An empty segment and a dot stay in place. -/
theorem leads_cons_of_stay (hstay : segment = "" ∨ segment = ".") :
    t.Leads here (segment :: rest) there ↔ t.Leads here rest there := by
  refine ⟨fun h => ?_, .stay hstay⟩
  cases h with
  | stay _ h => exact h
  | up h => rcases hstay with h | h <;> exact absurd h (by decide)
  | through hno => exact absurd hstay hno
  | down hno => exact absurd hstay hno

/-- Two dots lead up. -/
theorem leads_cons_up : t.Leads here (".." :: rest) there ↔ t.Leads here.dropLast rest there := by
  refine ⟨fun h => ?_, .up⟩
  cases h with
  | stay hstay => rcases hstay with h | h <;> exact absurd h (by decide)
  | up h => exact h
  | through _ hup => exact absurd rfl hup
  | down _ hup => exact absurd rfl hup

/-- A link leads to where its target does, and from there on. -/
theorem leads_cons_of_link (hstay : ¬ (segment = "" ∨ segment = ".")) (hup : segment ≠ "..")
    (hget : t.get? (here ++ [segment]) = some (.link target)) :
    t.Leads here (segment :: rest) there ↔
      ∃ mid, t.Leads (startOf here target) (segmentsOf target) mid ∧ t.Leads mid rest there := by
  constructor
  · intro h
    -- Where a link stands, no other rule applies.
    cases h with
    | stay hyes => exact absurd hyes hstay
    | up => exact absurd rfl hup
    | through _ _ hget' htarget h =>
      rw [hget] at hget'
      cases hget'
      exact ⟨_, htarget, h⟩
    | down _ _ hlink => exact absurd hget (hlink target)
  · rintro ⟨mid, htarget, h⟩
    exact .through hstay hup hget htarget h

/-- Any other name leads down. -/
theorem leads_cons_of_ne_link (hstay : ¬ (segment = "" ∨ segment = ".")) (hup : segment ≠ "..")
    (hlink : ∀ target, t.get? (here ++ [segment]) ≠ some (.link target)) :
    t.Leads here (segment :: rest) there ↔ t.Leads (here ++ [segment]) rest there := by
  refine ⟨fun h => ?_, .down hstay hup hlink⟩
  -- Of the four ways on, only the last one is left.
  cases h with
  | stay hyes => exact absurd hyes hstay
  | up => exact absurd rfl hup
  | through _ _ hget => exact absurd hget (hlink _)
  | down _ _ _ h => exact h

/-! ## Many segments -/

/-- Segments lead to one place at most. -/
theorem Leads.unique {a b : Place} (h : t.Leads here segments a) (h' : t.Leads here segments b) :
    a = b := by
  induction h generalizing b with
  | done here => exact (leads_nil.1 h').symm
  | stay hstay h ih => exact ih ((leads_cons_of_stay hstay).1 h')
  | up h ih => exact ih (leads_cons_up.1 h')
  | through hstay hup hget htarget h ih ih' =>
    -- Both ways go through the target of the link, to one place.
    obtain ⟨mid, htarget', h'⟩ := (leads_cons_of_link hstay hup hget).1 h'
    obtain rfl := ih htarget'
    exact ih' h'
  | down hstay hup hlink h ih => exact ih ((leads_cons_of_ne_link hstay hup hlink).1 h')

/-- What comes behind a segment may be put in other words. -/
theorem leads_cons_congr {rest' : List String}
    (h : ∀ here, t.Leads here rest there ↔ t.Leads here rest' there) (here : Place)
    (segment : String) :
    t.Leads here (segment :: rest) there ↔ t.Leads here (segment :: rest') there := by
  -- Each kind of step goes to one place, from where the two rests lead alike.
  by_cases hstay : segment = "" ∨ segment = "."
  · rw [leads_cons_of_stay hstay, leads_cons_of_stay hstay, h]
  · by_cases hup : segment = ".."
    · subst hup
      rw [leads_cons_up, leads_cons_up, h]
    · by_cases hlink : ∃ target, t.get? (here ++ [segment]) = some (.link target)
      · obtain ⟨target, hget⟩ := hlink
        rw [leads_cons_of_link hstay hup hget, leads_cons_of_link hstay hup hget]
        simp only [h]
      · rw [leads_cons_of_ne_link hstay hup (not_exists.1 hlink),
          leads_cons_of_ne_link hstay hup (not_exists.1 hlink), h]

/-- Empty segments change nothing. -/
theorem leads_filter : t.Leads here (segments.filter (· != "")) there ↔
    t.Leads here segments there := by
  induction segments generalizing here with
  | nil => rfl
  | cons segment rest ih =>
    -- An empty segment stays where it is.
    by_cases hempty : segment = ""
    · rw [List.filter_cons_of_neg (by simp [hempty]), ih, leads_cons_of_stay (.inl hempty)]
    · rw [List.filter_cons_of_pos (by simpa using hempty)]
      exact leads_cons_congr (fun _ => ih) here segment

/-- So paths with the same segments, but for empty ones, lead to the same places. -/
theorem leads_congr {segments' : List String}
    (h : segments.filter (· != "") = segments'.filter (· != "")) :
    t.Leads here segments there ↔ t.Leads here segments' there := by
  rw [← leads_filter, h, leads_filter]

/-- Segments lead on from where those in front of them lead. -/
theorem leads_append {front : List String} : t.Leads here (front ++ rest) there ↔
    ∃ mid, t.Leads here front mid ∧ t.Leads mid rest there := by
  induction front generalizing here with
  | nil => simp [leads_nil]
  | cons segment front ih =>
    rw [List.cons_append]
    by_cases hstay : segment = "" ∨ segment = "."
    · simp only [leads_cons_of_stay hstay, ih]
    · by_cases hup : segment = ".."
      · subst hup
        simp only [leads_cons_up, ih]
      · -- Where a segment leads does not depend on what follows it, so the front can be cut off
        -- there.
        by_cases hlink : ∃ target, t.get? (here ++ [segment]) = some (.link target)
        · obtain ⟨target, hget⟩ := hlink
          simp only [leads_cons_of_link hstay hup hget, ih]
          constructor
          · rintro ⟨mid, htarget, mid', h, h'⟩
            exact ⟨mid', ⟨mid, htarget, h⟩, h'⟩
          · rintro ⟨mid', ⟨mid, htarget, h⟩, h'⟩
            exact ⟨mid, htarget, mid', h, h'⟩
        · simp only [leads_cons_of_ne_link hstay hup (not_exists.1 hlink), ih]

/-- The steps of a path are its segments but for empty ones. -/
theorem filter_stepsOf (path : String) :
    (stepsOf path).filter (· != "") = (segmentsOf path).filter (· != "") := by
  unfold stepsOf segmentsOf
  dsimp only
  split
  · simp
  · simp

/-! ## Where paths lead -/

/-- With its links followed, a path names one place, where something may stand or not. -/
def Resolves (t : Tree α) (here : Place) (path : String) (place : Place) : Prop :=
  t.Leads (startOf here path) (segmentsOf path) place

/-- From the root, the search for a canonical path ends where its segments lead past the links in
sight. -/
theorem leads_of_resolve {depth : Nat} {active : List (Origin depth × Place)}
    {origin o : Origin depth} (horigin : origin = .root)
    (h : t.resolve active origin here segments = .found o there) :
    o = .root ∧ t.inSight.Leads here segments there := by
  fun_induction resolve t active origin here segments generalizing o there with
  | case1 active origin here =>
    cases h
    exact ⟨horigin, .done _⟩
  | case2 active origin here segment rest hstay ih =>
    exact (ih horigin h).imp_right (.stay hstay)
  | case3 active origin here rest hstay ih =>
    subst horigin
    exact (ih rfl h).imp_right .up
  | case6 active origin here segment rest hstay hup hnul target hget hidle hlt o' mid hgo ih' ih =>
    subst horigin
    obtain ⟨rfl, htarget⟩ := ih' (ite_self _) hgo
    exact (ih rfl h).imp_right (.through hstay hup (linkAt?_root.1 hget) htarget)
  -- Where no link is seen none is in sight, so the step goes down there, too.
  | case9 active origin here segment rest hstay hup hnul hnone ih =>
    subst horigin
    refine (ih rfl h).imp_right (.down hstay hup fun target hget => ?_)
    cases (linkAt?_root.2 hget).symm.trans hnone
  | _ => cases h

theorem Resolves.leads {p : Path} (hp : p.IsGrounded) (h : t.Resolves here p.text place) :
    t.Leads [] (segmentsOf p.text) place := by
  rwa [Resolves, hp.startOf_text] at h

/-- Neither a place nor any folder that it is spelled in is a link. -/
def IsStraightTo (t : Tree α) (place : Place) : Prop :=
  ∀ front, front <+: place → ∀ target, t.get? front ≠ some (.link target)

theorem isStraightTo_nil : t.IsStraightTo [] := by
  intro front hfront target
  rw [List.prefix_nil.1 hfront, get?_nil]
  exact nofun

/-- Without links every way is straight. -/
theorem IsPlain.isStraightTo (h : t.IsPlain) (place : Place) : t.IsStraightTo place :=
  fun front _ target => h.ne_link front target

/-- Names that go through no link lead to their own place. -/
theorem leads_of_isStraightTo {names : List String} (hproper : Place.IsProper names)
    (h : t.IsStraightTo (here ++ names)) : t.Leads here names (here ++ names) := by
  induction names generalizing here with
  | nil => rw [List.append_nil]; exact .done here
  | cons n rest ih =>
    have hstay := hproper.not_stay List.mem_cons_self
    have hup := (hproper n List.mem_cons_self).2
    rw [List.append_cons] at h ⊢
    -- No link is met, so every name goes down.
    exact .down hstay hup (h _ (List.prefix_append _ _))
      (ih (fun m hm => hproper m (.tail _ hm)) h)

/-- A canonical path resolves to its place if no link is on the way. -/
theorem IsStraightTo.resolves (h : t.IsStraightTo place) (hproper : place.IsProper) (here : Place) :
    t.Resolves here (Path.ofPlace place).text place := by
  have hgrounded := hproper.isStraight.isGrounded
  obtain ⟨k, hk⟩ := hgrounded.segmentsOf_text
  -- The slash in front leaves empty segments, which lead nowhere.
  have hnames : (segmentsOf (Path.ofPlace place).text).filter (· != "") =
      place.filter (· != "") := by
    rw [hk, List.filter_append, List.filter_replicate_of_neg (by simp), List.nil_append]
    rfl
  rw [Resolves, hgrounded.startOf_text, leads_congr hnames]
  exact leads_of_isStraightTo hproper h

/-- From a place without links on the way, targets start at such places. -/
theorem isStraightTo_startOf (h : t.IsStraightTo here) (path : String) :
    t.IsStraightTo (startOf here path) := by
  unfold startOf
  split
  · exact isStraightTo_nil
  · exact h

/-- From a place that is spelled without links one comes to such places only, also in the eyes of a
tree with fewer links. -/
theorem Leads.isStraightTo (h : t.Leads here segments there)
    (hless : ∀ place target, t'.get? place = some (.link target) →
      t.get? place = some (.link target))
    (hhere : t'.IsStraightTo here) : t'.IsStraightTo there := by
  induction h with
  | done here => exact hhere
  | stay hstay h ih => exact ih hhere
  | up h ih => exact ih fun front hfront => hhere front (hfront.trans (List.dropLast_prefix _))
  -- A link is followed to a place that is straight again.
  | through hstay hup hget htarget h ih ih' => exact ih' (ih (isStraightTo_startOf hhere _))
  | down hstay hup hlink h ih =>
    refine ih fun front hfront => ?_
    rcases List.prefix_concat_iff.1 hfront with rfl | hfront
    · exact fun target hget => hlink target (hless _ target hget)
    · exact hhere front hfront

/-- A path from the root never resolves to a link. -/
theorem Resolves.ne_link {p : Path} (hp : p.IsGrounded) (h : t.Resolves here p.text place)
    (target : String) : t.get? place ≠ some (.link target) :=
  (h.leads hp).isStraightTo (fun _ _ hget => hget) isStraightTo_nil place (List.prefix_refl place)
    target

/-! ## Walks -/

/-- From a place on, a link that stands there is still to be followed. -/
def Settles (t : Tree α) (place there : Place) : Prop :=
  match t.get? place with
  | some (.link target) => t.Leads (startOf place.dropLast target) (segmentsOf target) there
  | _ => there = place

/-- A link still leads to the place of its target. -/
theorem settles_of_link (hget : t.get? place = some (.link target)) : t.Settles place there ↔
    t.Leads (startOf place.dropLast target) (segmentsOf target) there := by
  rw [Settles, hget]

/-- Where no link stands, nothing is left to follow. -/
theorem settles_of_ne_link (hlink : ∀ target, t.get? place ≠ some (.link target)) :
    t.Settles place there ↔ there = place := by
  unfold Settles
  split
  · rename_i target hget
    exact absurd hget (hlink target)
  · rfl

/-- A link leads to one place at most. -/
theorem Settles.unique {a b : Place} (h : t.Settles place a) (h' : t.Settles place b) : a = b := by
  by_cases hlink : ∃ target, t.get? place = some (.link target)
  · obtain ⟨target, hget⟩ := hlink
    exact ((settles_of_link hget).1 h).unique ((settles_of_link hget).1 h')
  · rw [(settles_of_ne_link (not_exists.1 hlink)).1 h,
      (settles_of_ne_link (not_exists.1 hlink)).1 h']

/-- A last name leads to its place, or on from a link there. -/
theorem settles_of_leads_single (hstay : ¬ (segment = "" ∨ segment = ".")) (hup : segment ≠ "..")
    (h : t.Leads here [segment] there) : t.Settles (here ++ [segment]) there := by
  by_cases hlink : ∃ target, t.get? (here ++ [segment]) = some (.link target)
  · obtain ⟨target, hget⟩ := hlink
    obtain ⟨mid, htarget, hrest⟩ := (leads_cons_of_link hstay hup hget).1 h
    obtain rfl := leads_nil.1 hrest
    rw [settles_of_link hget, List.dropLast_concat]
    exact htarget
  · rw [settles_of_ne_link (not_exists.1 hlink)]
    exact leads_nil.1 ((leads_cons_of_ne_link hstay hup (not_exists.1 hlink)).1 h)

/-- A later tree goes with an earlier one: it has no new links, and no folders in the places of
links. -/
structure GoesWith (t t' : Tree α) : Prop where
  get?_link : ∀ place target, t'.get? place = some (.link target) →
    t.get? place = some (.link target)
  ne_link : ∀ place, t'.isFolder place = true → ∀ target, t.get? place ≠ some (.link target)

/-- A tree goes with itself. -/
theorem GoesWith.refl (t : Tree α) : t.GoesWith t where
  get?_link _ _ h := h
  ne_link place hfolder target hget := by
    rw [isFolder_iff, hget] at hfolder
    cases hfolder

/-- Only from a folder does a walk go on. -/
theorem eq_of_walk_of_not_isFolder {last : LastStep} {budget : Nat} {steps : List String}
    {spot : Spot α} (hwalk : t.walk last budget here steps = .ok spot)
    (hfolder : t.isFolder here = false) : steps = [] ∧ spot.place = here := by
  -- A step is taken only from a folder.
  cases steps with
  | nil =>
    rw [walk] at hwalk
    split at hwalk
    · cases hwalk
      exact ⟨rfl, rfl⟩
    · cases hwalk
  | cons step rest =>
    rw [walk, hfolder] at hwalk
    cases hwalk

/-- The first steps of a walk to a folder lead to a folder. -/
theorem exists_leads_of_walk_append {budget : Nat} {front : List String} {folder : Place}
    (hwalk : t.walk .followed budget here (front ++ rest) = .ok (.present folder .folder)) :
    ∃ mid, t.Leads here front mid ∧ t.isFolder mid = true := by
  generalize hlast : LastStep.followed = last at hwalk
  generalize hsteps : front ++ rest = steps at hwalk
  -- Without first steps one is where the walk goes on from, which is a folder.
  have hnone (here : Place) (hfolder : ¬ (!t.isFolder here) = true) :
      ∃ mid, t.Leads here [] mid ∧ t.isFolder mid = true :=
    ⟨here, .done here, by simpa using hfolder⟩
  fun_induction walk t last budget here steps generalizing front with
  | case1 budget here entry hget =>
    cases hwalk
    obtain ⟨rfl, -⟩ := List.append_eq_nil_iff.1 hsteps
    exact ⟨folder, .done folder, isFolder_iff.2 hget⟩
  | case4 budget here step steps hfolder hstay ih =>
    cases front with
    | nil => exact hnone here hfolder
    | cons m front =>
      cases hsteps
      obtain ⟨mid, hleads, hmid⟩ := ih rfl hwalk
      exact ⟨mid, .stay hstay hleads, hmid⟩
  | case5 budget here steps hfolder hstay ih =>
    cases front with
    | nil => exact hnone here hfolder
    | cons m front =>
      cases hsteps
      obtain ⟨mid, hleads, hmid⟩ := ih rfl hwalk
      exact ⟨mid, .up hleads, hmid⟩
  | case10 budget here step steps hfolder hstay hup hmade hlong target hget hkept =>
    subst hlast
    cases hkept.2
  -- What leads through the link and on is split where the target ends.
  | case12 here step steps hfolder hstay hup hmade hlong target hget hkept budget ih =>
    cases front with
    | nil => exact hnone here hfolder
    | cons m front =>
      cases hsteps
      obtain ⟨mid, hleads, hmid⟩ := ih (List.append_assoc _ front _) hwalk
      obtain ⟨there, htarget, hrest⟩ := leads_append.1 hleads
      exact ⟨mid, .through hstay hup hget ((leads_congr (filter_stepsOf target)).1 htarget) hrest,
        hmid⟩
  | case13 budget here step steps hfolder hstay hup hmade hlong entry hlink hget ih =>
    cases front with
    | nil => exact hnone here hfolder
    | cons m front =>
      cases hsteps
      obtain ⟨mid, hleads, hmid⟩ := ih rfl hwalk
      refine ⟨mid, .down hstay hup (fun target hno => ?_) hleads, hmid⟩
      rw [hget] at hno
      exact hlink target (Option.some_inj.1 hno)
  | _ => cases hwalk

/-- A walk in a later tree comes to a place from which, in the earlier tree, one goes on to where
its steps lead. -/
theorem GoesWith.settles_of_walk (h : t.GoesWith t') (hclosed : t'.IsClosed) {last : LastStep}
    {budget : Nat} {steps : List String} {spot : Spot α}
    (hhere : ∀ target, t.get? here ≠ some (.link target))
    (hwalk : t'.walk last budget here steps = .ok spot) (hleads : t.Leads here steps there) :
    t.Settles spot.place there := by
  fun_induction walk t' last budget here steps with
  | case1 budget here entry hget =>
    cases hwalk
    exact (settles_of_ne_link hhere).2 (leads_nil.1 hleads)
  | case4 budget here step rest hfolder hstay ih =>
    exact ih hhere hwalk ((leads_cons_of_stay hstay).1 hleads)
  | case5 budget here rest hfolder hstay ih =>
    have habove : t'.isFolder here.dropLast = true :=
      hclosed here (by
        rw [isFolder_iff.1 (by simpa using hfolder)]
        rintro ⟨⟩)
    exact ih (h.ne_link _ habove) hwalk (leads_cons_up.1 hleads)
  | case8 budget here step hfolder hstay hup hlong hget hmade =>
    cases hwalk
    exact settles_of_leads_single hstay hup hleads
  | case10 budget here step rest hfolder hstay hup hmade hlong target hget hkept =>
    obtain ⟨rfl, -⟩ := hkept
    cases hwalk
    exact settles_of_leads_single hstay hup hleads
  | case12 here step rest hfolder hstay hup hmade hlong target hget hkept budget ih =>
    -- The link is in the earlier tree too, and its target comes first in both.
    obtain ⟨mid, htarget, hrest⟩ :=
      (leads_cons_of_link hstay hup (h.get?_link _ _ hget)).1 hleads
    have hstart : ∀ target', t.get? (startOf here target) ≠ some (.link target') := by
      unfold startOf
      split
      · rw [get?_nil]
        rintro target' ⟨⟩
      · exact hhere
    refine ih hstart hwalk ((leads_congr ?_).1 (leads_append.2 ⟨mid, htarget, hrest⟩))
    rw [List.filter_append, List.filter_append, filter_stepsOf]
  | case13 budget here step rest hfolder hstay hup hmade hlong entry hlink hget ih =>
    by_cases hnow : ∃ target, t.get? (here ++ [step]) = some (.link target)
    · -- Where a link was there is no folder, so the walk ends here.
      have hno : t'.isFolder (here ++ [step]) = false := by
        obtain ⟨target, hlink⟩ := hnow
        exact eq_false_of_ne_true fun hfolder => h.ne_link _ hfolder target hlink
      obtain ⟨rfl, hplace⟩ := eq_of_walk_of_not_isFolder hwalk hno
      rw [hplace]
      exact settles_of_leads_single hstay hup hleads
    · exact ih (not_exists.1 hnow) hwalk
        ((leads_cons_of_ne_link hstay hup (not_exists.1 hnow)).1 hleads)
  | _ => cases hwalk

/-- So does a path from the root. -/
theorem GoesWith.settles_of_locate (h : t.GoesWith t') (hclosed : t'.IsClosed) {last : LastStep}
    {p : Path} (hp : p.IsGrounded) {here' : Place} {spot : Spot α}
    (hlocate : t'.locate here' last p.text = .ok spot) (hleads : t.Resolves here p.text there) :
    t.Settles spot.place there := by
  have hwalk := walk_of_locate hlocate
  -- The walk has left the empty segments out.
  have hsteps := (leads_congr (filter_stepsOf p.text)).2 (hleads.leads hp)
  rw [hp.startOf_text] at hwalk
  refine h.settles_of_walk hclosed (fun target => ?_) hwalk hsteps
  rw [get?_nil]
  exact nofun

end Tree

end ImportAtlas

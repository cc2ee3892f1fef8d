import ImportAtlas.Proofs.Tree.Leads

/-!
# Trees without circles of links

A circle of links is a link that one comes by on the way to its own target. Where there is none,
the search for the canonical form of a path ends at the place to which the path leads, as long as it
sees all links on the way. From the root it sees those in sight, and it takes the others for names.
No link in sight is on the way to the place that is found then, so the path of that place is
canonical itself, seen from whatever folder.

## Key results

- `Tree.IsAcyclic.resolve_ne_circular`: no search from the root ends at a link
- `Tree.IsAcyclic.isUnlinked`: so the canonical form of a path from the root goes through none in
  sight
- `Tree.IsAcyclic.isUnlinked_of_sees`: nor does that of a path whose links are all seen
- `Tree.IsUnlinked.canonical?_eq`: a path that goes through no link in sight is canonical
-/

namespace ImportAtlas

namespace Tree

variable {α : Type} {t : Tree α} {depth : Nat} {active : List (Origin depth × Place)}
  {o : Origin depth} {here there link : Place} {segments : List String}

/-- With links followed, one comes by a link on the way that segments lead from a place. -/
inductive ComesBy (t : Tree α) (link : Place) : Place → List String → Prop
  | stay {here : Place} {segment : String} {rest : List String}
      (hstay : segment = "" ∨ segment = ".") (h : ComesBy t link here rest) :
      ComesBy t link here (segment :: rest)
  | up {here : Place} {rest : List String} (h : ComesBy t link here.dropLast rest) :
      ComesBy t link here (".." :: rest)
  /-- The link is met as the next step. -/
  | self {here : Place} {segment target : String} {rest : List String}
      (hstay : ¬ (segment = "" ∨ segment = ".")) (hup : segment ≠ "..")
      (hget : t.get? (here ++ [segment]) = some (.link target)) (hself : here ++ [segment] = link) :
      ComesBy t link here (segment :: rest)
  /-- It is met on the way to the target of another link. -/
  | through {here : Place} {segment target : String} {rest : List String}
      (hstay : ¬ (segment = "" ∨ segment = ".")) (hup : segment ≠ "..")
      (hget : t.get? (here ++ [segment]) = some (.link target))
      (htarget : ComesBy t link (startOf here target) (segmentsOf target)) :
      ComesBy t link here (segment :: rest)
  /-- It is met behind such a target. -/
  | behind {here mid : Place} {segment target : String} {rest : List String}
      (hstay : ¬ (segment = "" ∨ segment = ".")) (hup : segment ≠ "..")
      (hget : t.get? (here ++ [segment]) = some (.link target))
      (htarget : t.Leads (startOf here target) (segmentsOf target) mid)
      (h : ComesBy t link mid rest) : ComesBy t link here (segment :: rest)
  | down {here : Place} {segment : String} {rest : List String}
      (hstay : ¬ (segment = "" ∨ segment = ".")) (hup : segment ≠ "..")
      (hlink : ∀ target, t.get? (here ++ [segment]) ≠ some (.link target))
      (h : ComesBy t link (here ++ [segment]) rest) : ComesBy t link here (segment :: rest)

/-- One comes by no link on the way to its own target. -/
def HasNoCircle (t : Tree α) : Prop :=
  ∀ link target, t.get? link = some (.link target) →
    ¬ t.ComesBy link (startOf link.dropLast target) (segmentsOf target)

/-- There is no circle of links, whether the links that are out of sight from the root are followed
or taken for names. The two differ just where the path of a link is too long to be looked up. -/
structure IsAcyclic (t : Tree α) : Prop where
  hasNoCircle : t.HasNoCircle
  inSight : t.inSight.HasNoCircle

/-- With all links in sight there is only one way to take them. -/
theorem HasNoCircle.isAcyclic (h : t.HasNoCircle) (hsight : t.inSight = t) : t.IsAcyclic :=
  ⟨h, hsight.symm ▸ h⟩

/-- On names that go through no link one comes by none. -/
theorem not_comesBy_of_isStraightTo {names : List String} (hproper : Place.IsProper names)
    (h : t.IsStraightTo (here ++ names)) : ¬ t.ComesBy link here names := by
  induction names generalizing here with
  | nil => exact nofun
  | cons n rest ih =>
    have hstay := hproper.not_stay List.mem_cons_self
    have hup := (hproper n List.mem_cons_self).2
    rw [List.append_cons] at h
    have hnext := h _ (List.prefix_append (here ++ [n]) rest)
    intro hby
    -- To come by a link there has to be one on the way.
    cases hby with
    | stay hno => exact hstay hno
    | up => exact hup rfl
    | self _ _ hget => exact hnext _ hget
    | through _ _ hget => exact hnext _ hget
    | behind _ _ hget => exact hnext _ hget
    | down _ _ _ hby => exact ih (fun m hm => hproper m (.tail _ hm)) h hby

/-- On the way to the target of a link one comes neither by that link nor by those being followed,
as long as none of these is on the whole way. -/
theorem HasNoCircle.not_comesBy_target (h : t.HasNoCircle) {segment target : String}
    {rest : List String} (hstay : ¬ (segment = "" ∨ segment = ".")) (hup : segment ≠ "..")
    (hget : t.get? (here ++ [segment]) = some (.link target)) (o : Origin depth)
    (hactive : ∀ link ∈ active, ¬ t.ComesBy link.2 here (segment :: rest)) :
    ∀ link ∈ (o, here ++ [segment]) :: active,
      ¬ t.ComesBy link.2 (startOf here target) (segmentsOf target) := by
  intro link hlink hby
  rcases List.mem_cons.1 hlink with rfl | hlink
  · apply h _ target hget
    rwa [List.dropLast_concat]
  · -- A way from the target to an active link would go on from here.
    exact hactive link hlink (.through hstay hup hget hby)

/-- A search from the root does not end at a link that leads back to itself, as long as none of the
links being followed is on the way. -/
theorem IsAcyclic.resolve_ne_circular (h : t.IsAcyclic) (ho : o = .root)
    (hactive : ∀ link ∈ active, ¬ t.inSight.ComesBy link.2 here segments) (path : Path) :
    t.resolve active o here segments ≠ .circular path := by
  fun_induction resolve t active o here segments generalizing path with
  | case1 => rintro ⟨⟩
  | case2 active o here segment rest hstay ih =>
    exact ih ho (fun link hlink hby => hactive link hlink (.stay hstay hby)) path
  | case3 active o here rest hstay ih =>
    subst ho
    exact ih rfl (fun link hlink hby => hactive link hlink (.up hby)) path
  | case4 => rintro ⟨⟩
  | case5 active o here segment rest hstay hup hnul target hget hmember =>
    subst ho
    -- A link that is being followed would come by itself.
    have hself : t.inSight.ComesBy (here ++ [segment]) here (segment :: rest) :=
      .self hstay hup (linkAt?_root.1 hget) rfl
    exact absurd hself (hactive _ (List.contains_iff_mem.1 hmember))
  | case6 active o here segment rest hstay hup hnul target hget hidle hlt o' mid hgo ih' ih =>
    subst ho
    obtain ⟨rfl, hmid⟩ := leads_of_resolve (ite_self _) hgo
    have hentry := linkAt?_root.1 hget
    exact ih rfl (fun link hlink hby => hactive link hlink (.behind hstay hup hentry hmid hby)) path
  -- The target would have met a circle, which the tree does not have either.
  | case7 active o here segment rest hstay hup hnul target hget hidle hlt path' hcircular ih =>
    subst ho
    have hentry := linkAt?_root.1 hget
    exact absurd hcircular
      (ih (ite_self _) (h.inSight.not_comesBy_target hstay hup hentry _ hactive) path')
  | case8 => rintro ⟨⟩
  | case9 active o here segment rest hstay hup hnul hnone ih =>
    subst ho
    have hlink (target : String) : t.inSight.get? (here ++ [segment]) ≠ some (.link target) := by
      intro hget
      cases (linkAt?_root.2 hget).symm.trans hnone
    exact ih rfl (fun link hmem hby => hactive link hmem (.down hstay hup hlink hby)) path

/-- Segments lead from a place to another one, as each is spelled, past links that are all seen. -/
inductive Sees (t : Tree α) : Origin depth → Place → List String → Origin depth → Place → Prop
  | done (o : Origin depth) (here : Place) : Sees t o here [] o here
  | stay {o o' : Origin depth} {here there : Place} {segment : String} {rest : List String}
      (hstay : segment = "" ∨ segment = ".") (h : Sees t o here rest o' there) :
      Sees t o here (segment :: rest) o' there
  | up {o o' : Origin depth} {here there : Place} {rest : List String}
      (h : Sees t (o.above here) here.dropLast rest o' there) :
      Sees t o here (".." :: rest) o' there
  /-- Only a link in sight leads on from its target. -/
  | through {o o₁ o' : Origin depth} {here mid there : Place} {segment target : String}
      {rest : List String} (hstay : ¬ (segment = "" ∨ segment = ".")) (hup : segment ≠ "..")
      (hlink : t.linkAt? o (here ++ [segment]) = some target)
      (htarget : Sees t (o.ofTarget target) (startOf here target) (segmentsOf target) o₁ mid)
      (h : Sees t o₁ mid rest o' there) : Sees t o here (segment :: rest) o' there
  | down {o o' : Origin depth} {here there : Place} {segment : String} {rest : List String}
      (hstay : ¬ (segment = "" ∨ segment = ".")) (hup : segment ≠ "..")
      (hlink : ∀ target, t.get? (here ++ [segment]) ≠ some (.link target))
      (h : Sees t o (here ++ [segment]) rest o' there) : Sees t o here (segment :: rest) o' there

/-- What is seen leads where the links lead. -/
theorem Sees.leads {o' : Origin depth} (h : t.Sees o here segments o' there) :
    t.Leads here segments there := by
  induction h with
  | done o here => exact .done here
  | stay hstay h ih => exact .stay hstay ih
  | up h ih => exact .up ih
  | through hstay hup hlink htarget h ih ih' =>
    exact .through hstay hup (linkAt?_eq_some.1 hlink).1 ih ih'
  | down hstay hup hlink h ih => exact .down hstay hup hlink ih

/-- A search that sees all links on its way ends where its segments lead, unless a name cannot be
looked up. -/
theorem HasNoCircle.resolve_of_sees (h : t.HasNoCircle) {o' : Origin depth}
    (hsees : t.Sees o here segments o' there)
    (hactive : ∀ link ∈ active, ¬ t.ComesBy link.2 here segments) :
    t.resolve active o here segments = .found o' there ∨
      t.resolve active o here segments = .unusable := by
  induction hsees generalizing active with
  | done o here => exact .inl (by rw [resolve])
  | stay hstay hsees ih =>
    rw [resolve, if_pos hstay]
    exact ih fun link hlink hby => hactive link hlink (.stay hstay hby)
  | up hsees ih =>
    rw [resolve, if_neg (by decide), if_pos rfl]
    exact ih fun link hlink hby => hactive link hlink (.up hby)
  | @through o o₁ o' here mid there segment target rest hstay hup hlink htarget hsees ih ih' =>
    have hget := (linkAt?_eq_some.1 hlink).1
    have hrest := ih' fun link hmem hby =>
      hactive link hmem (.behind hstay hup hget htarget.leads hby)
    by_cases hnul : segment.toList.contains '\x00' = true
    · exact .inr (resolve_of_nul hstay hup hnul)
    · -- A link that leads to itself is what the tree does not have.
      have hidle : ¬ active.contains (o, here ++ [segment]) = true := fun hmem =>
        hactive _ (List.contains_iff_mem.1 hmem) (.self hstay hup hget rfl)
      rw [resolve_of_link hstay hup hnul hlink hidle]
      rcases ih (h.not_comesBy_target hstay hup hget _ hactive) with hgo | hgo
      · rw [hgo]
        exact hrest
      · rw [hgo]
        exact .inr rfl
  | @down o o' here there segment rest hstay hup hlink hsees ih =>
    by_cases hnul : segment.toList.contains '\x00' = true
    · exact .inr (resolve_of_nul hstay hup hnul)
    · rw [resolve_of_name hstay hup hnul (linkAt?_eq_none hlink o)]
      exact ih fun link hmem hby => hactive link hmem (.down hstay hup hlink hby)

/-- Each segment of a path without a NUL is without one. -/
theorem noNul_of_mem_segmentsOf {path segment : String}
    (hpath : path.toList.contains '\x00' = false) (h : segment ∈ segmentsOf path) :
    segment.toList.contains '\x00' = false := by
  obtain ⟨piece, hpiece, rfl⟩ := List.mem_map.1 h
  rw [List.contains_eq_mem, decide_eq_false_iff_not] at hpath ⊢
  rw [String.toList_ofList]
  intro hnul
  apply hpath
  -- The pieces make up the whole text again, so what is in a piece is in the text.
  have hwhole : ['/'].intercalate (path.toList.splitOn '/') = path.toList :=
    List.intercalate_splitOn '/'
  rw [← hwhole]
  exact (List.mem_intercalate_iff (by decide)).2 ⟨piece, hpiece, hnul⟩

/-- What a search finds has no name with a NUL, if it starts at such a place. -/
theorem noNul_of_resolve (hhere : ∀ n ∈ here, n.toList.contains '\x00' = false) {o' : Origin depth}
    (h : t.resolve active o here segments = .found o' there) :
    ∀ n ∈ there, n.toList.contains '\x00' = false := by
  -- A target starts at the root or here, and both are free of NULs.
  have hstart {here : Place} (hhere : ∀ n ∈ here, n.toList.contains '\x00' = false)
      (target : String) : ∀ n ∈ startOf here target, n.toList.contains '\x00' = false := by
    unfold startOf
    split
    · exact nofun
    · exact hhere
  fun_induction resolve t active o here segments generalizing o' there with
  | case1 active o here =>
    cases h
    exact hhere
  | case2 active o here segment rest hstay ih => exact ih hhere h
  | case3 active o here rest hstay ih =>
    exact ih (fun n hn => hhere n (here.dropLast_subset hn)) h
  | case6 active o here segment rest hstay hup hnul target hget hidle hlt o₁ mid hgo ih' ih =>
    exact ih (ih' (hstart hhere target) hgo) h
  | case9 active o here segment rest hstay hup hnul hnone ih =>
    refine ih (fun n hn => ?_) h
    rcases List.mem_append.1 hn with hn | hn
    · exact hhere n hn
    · rw [List.mem_singleton.1 hn]
      exact eq_false_of_ne_true hnul
  | _ => cases h

/-- The targets of links have no NUL. -/
def HasUsableTargets (t : Tree α) : Prop :=
  ∀ link target, t.get? link = some (.link target) → target.toList.contains '\x00' = false

/-- A search meets no NUL but in its segments and in targets of links. -/
theorem HasUsableTargets.resolve_ne_unusable (h : t.HasUsableTargets)
    (hsegments : ∀ segment ∈ segments, segment.toList.contains '\x00' = false) :
    t.resolve active o here segments ≠ .unusable := by
  fun_induction resolve t active o here segments with
  | case1 | case5 | case7 => rintro ⟨⟩
  | case2 active o here segment rest hstay ih => exact ih fun s hs => hsegments s (.tail _ hs)
  | case3 active o here rest hstay ih => exact ih fun s hs => hsegments s (.tail _ hs)
  | case4 active o here segment rest hstay hup hnul =>
    exact absurd hnul (ne_true_of_eq_false (hsegments segment List.mem_cons_self))
  | case6 active o here segment rest hstay hup hnul target hget hidle hlt o' mid hgo ih' ih =>
    exact ih fun s hs => hsegments s (.tail _ hs)
  | case8 active o here segment rest hstay hup hnul target hget hidle hlt hunusable ih =>
    -- The target is usable, so what is unusable would be in its rest.
    have htarget := h _ target (linkAt?_eq_some.1 hget).1
    exact absurd hunusable (ih fun _ => noNul_of_mem_segmentsOf htarget)
  | case9 active o here segment rest hstay hup hnul hnone ih =>
    exact ih fun s hs => hsegments s (.tail _ hs)

/-- A path without a NUL has a canonical form. -/
theorem HasUsableTargets.exists_canonical?_eq (h : t.HasUsableTargets) {path : String}
    (hpath : path.toList.contains '\x00' = false) (here : Place) :
    ∃ p, t.canonical? here path = some p := by
  unfold canonical?
  split
  · exact ⟨_, rfl⟩
  · exact ⟨_, rfl⟩
  · rename_i hunusable
    exact absurd hunusable (h.resolve_ne_unusable fun _ => noNul_of_mem_segmentsOf hpath)

/-- The names that lead to a place can all be looked up, and no link in sight is on the way. -/
structure IsUnlinked (t : Tree α) (place : Place) : Prop where
  isProper : place.IsProper
  noNul : ∀ n ∈ place, n.toList.contains '\x00' = false
  isStraightTo : t.inSight.IsStraightTo place

variable {place : Place} {p : Path} {path : String}

theorem isUnlinked_root : t.IsUnlinked [] :=
  ⟨List.forall_mem_nil _, List.forall_mem_nil _, isStraightTo_nil⟩

/-- From a place without links on the way, paths start at such places. -/
theorem isUnlinked_startOf (h : t.IsUnlinked here) (path : String) :
    t.IsUnlinked (startOf here path) := by
  unfold startOf
  split
  · exact isUnlinked_root
  · exact h

/-- The path of a place is canonical if no link in sight is on the way. -/
theorem IsUnlinked.canonical?_eq (h : t.IsUnlinked place) (here : Place) :
    t.canonical? here (Path.ofPlace place).text = some (.ofPlace place) :=
  Tree.canonical?_eq h.isProper.isStraight h.noNul
    (fun front rest target hcut => h.isStraightTo front ⟨rest, hcut.symm⟩ target) here

/-- Names that go through no link never lead through too many of them. -/
theorem walk_ne_manyLinks {last : LastStep} {budget : Nat} {names : List String}
    (hproper : Place.IsProper names) (h : t.IsStraightTo (here ++ names)) :
    t.walk last budget here names ≠ .error .manyLinks := by
  induction names generalizing here with
  | nil =>
    rw [walk]
    split <;> rintro ⟨⟩
  | cons n rest ih =>
    have hstay := hproper.not_stay List.mem_cons_self
    have hup := (hproper n List.mem_cons_self).2
    rw [List.append_cons] at h
    have hrest := ih (fun m hm => hproper m (.tail _ hm)) h
    rw [walk, if_neg hstay, if_neg hup]
    split
    · rintro ⟨⟩
    · split
      · rintro ⟨⟩
      · split
        · rintro ⟨⟩
        · split
          · split <;> rintro ⟨⟩
          · rename_i target hget
            -- On a straight way there is no link to follow.
            exact absurd hget (h _ (List.prefix_append _ _) target)
          · exact hrest

/-- Of a path that is not too long, the beginnings are not either. -/
theorem isLongPath_of_append {front rest : Place} (hproper : Place.IsProper (front ++ rest))
    (hlong : isLongPath (Path.ofPlace (front ++ rest)).text = false) :
    isLongPath (Path.ofPlace front).text = false := by
  induction rest using List.reverseRecOn with
  | nil => rwa [List.append_nil] at hlong
  | append_singleton rest n ih =>
    -- A path that fits has a parent that fits.
    have hparent := hproper.isStraight.isGrounded.isLongPath_parent hlong
    have habove : (Path.ofPlace (front ++ (rest ++ [n]))).parent = .ofPlace (front ++ rest) := by
      rw [Path.parent, Path.ofPlace, ← List.append_assoc, List.dropLast_concat]
      rfl
    rw [habove] at hparent
    refine ih (fun m hm => hproper m ?_) hparent
    rw [← List.append_assoc]
    exact List.mem_append_left [n] hm

/-- On the way to a place whose path is not too long all links are in sight. -/
theorem IsUnlinked.isStraightTo_of_short (h : t.IsUnlinked place)
    (hlong : isLongPath (Path.ofPlace place).text = false) : t.IsStraightTo place := by
  rintro front ⟨rest, rfl⟩ target hget
  apply h.isStraightTo front (List.prefix_append front rest) target
  rw [get?_inSight, isLongPath_of_append h.isProper hlong, if_neg Bool.false_ne_true]
  exact hget

/-- So a canonical path is never refused for too many links. -/
theorem IsUnlinked.lookup_ne_manyLinks (h : t.IsUnlinked place) (here : Place) :
    t.lookup here (Path.ofPlace place).text ≠ .error .manyLinks := by
  have hlocate : t.locate here .followed (Path.ofPlace place).text ≠ .error .manyLinks := by
    rw [h.isProper.isStraight.isGrounded.locate_eq]
    split
    · exact nofun
    · -- A path short enough to be followed has all links on its way in sight.
      rename_i hshort
      have hstraight := h.isStraightTo_of_short (eq_false_of_ne_true hshort)
      exact walk_ne_manyLinks h.isProper hstraight
  unfold lookup
  split
  · exact nofun
  · exact nofun
  · rename_i fault hfault
    rintro ⟨⟩
    exact hlocate hfault

/-- What a search from a place without links finds has usable names, so it is left to see that no
link in sight is on the way. -/
theorem isUnlinked_of_resolve {o' : Origin depth} (hhere : t.IsUnlinked here)
    (hsegments : ∀ segment ∈ segments, '/' ∉ segment.toList)
    (hfound : t.resolve active o here segments = .found o' there)
    (hstraight : t.inSight.IsStraightTo there) : t.IsUnlinked there where
  isProper := by
    have hsettled := t.isSettled_resolve active o hhere.isProper hsegments
    rwa [hfound] at hsettled
  noNul := noNul_of_resolve hhere.noNul hfound
  isStraightTo := hstraight

/-- The canonical form of a path goes through no link in sight, if the folder that it is seen from
goes through none and all links on the way are seen. -/
theorem IsAcyclic.isUnlinked_of_sees (h : t.IsAcyclic) (hhere : t.IsUnlinked here)
    {o : Origin here.length}
    (hsees : t.Sees (originOf here path) (startOf here path) (segmentsOf path) o there)
    (hcanonical : t.canonical? here path = some p) : p = .ofPlace there ∧ t.IsUnlinked there := by
  unfold canonical? at hcanonical
  rcases h.hasNoCircle.resolve_of_sees hsees (List.forall_mem_nil _) with hfound | hfound
  · have hstart := isUnlinked_startOf hhere path
    -- A link in sight is also a link, so the way past all links leads to no place behind one.
    have hstraight := hsees.leads.isStraightTo (fun _ _ => get?_of_inSight) hstart.isStraightTo
    rw [hfound] at hcanonical
    cases hcanonical
    exact ⟨rfl, isUnlinked_of_resolve hstart (fun _ => slash_not_mem_of_mem_segmentsOf) hfound
      hstraight⟩
  · rw [hfound] at hcanonical
    cases hcanonical

/-- The canonical form of a path from the root goes through no link in sight. -/
theorem IsAcyclic.isUnlinked (h : t.IsAcyclic) (hroot : path.toList.head? = some '/')
    (hcanonical : t.canonical? here path = some p) :
    ∃ place, p = .ofPlace place ∧ t.IsUnlinked place := by
  have horigin : originOf here path = .root := if_pos hroot
  have hstart : startOf here path = [] := if_pos hroot
  unfold canonical? at hcanonical
  rw [horigin, hstart] at hcanonical
  split at hcanonical
  · rename_i place hfound
    cases hcanonical
    have hstraight := (leads_of_resolve rfl hfound).2.isStraightTo (fun _ _ hget => hget)
      isStraightTo_nil
    exact ⟨place, rfl, isUnlinked_of_resolve isUnlinked_root
      (fun _ => slash_not_mem_of_mem_segmentsOf) hfound hstraight⟩
  · -- From the root no circle is met.
    rename_i hcircular
    exact absurd hcircular (h.resolve_ne_circular rfl (List.forall_mem_nil _) _)
  · cases hcanonical

end Tree

end ImportAtlas

import ImportAtlas.Proofs.Tree.Keeps
import ImportAtlas.Proofs.Writing

/-!
# Folders are founded

In any tree, with whatever links, making the folders of a path founds folders at names that were
free and changes nothing else, also where it stops half-way. If it succeeds the path leads to a
folder. A path that never goes up from a missing folder leads to one that was there before, in which
case nothing has changed at all, or to a new one, in which nothing stands yet.

## Key results

- `Tree.IsClimbable`: no folder is missing that a path goes up from
- `Act.ends_makeFolder_founded`, `Act.ends_makeFolders_founded`: how making folders ends
-/

namespace ImportAtlas

open EStateM

/-- Wherever the path goes up, there is a folder to go up from. -/
def Tree.IsClimbable {α : Type} (t : Tree α) (here : Place) (p : Path) : Prop :=
  ∀ front, front ++ [".."] <+: p.names →
    t.locate here .kept (Path.text ⟨p.anchor, front ++ [".."]⟩) ≠ .error .missing

section Climbable

variable {α : Type} {t : Tree α} {here : Place} {p : Path}

theorem Tree.IsClimbable.parent (h : t.IsClimbable here p) : t.IsClimbable here p.parent :=
  fun front hfront => h front (hfront.trans (List.dropLast_prefix _))

theorem Tree.IsClimbable.ne_up (h : t.IsClimbable here p) {front : List String} {n : String}
    (hnames : p.names = front ++ [n]) (hmissing : t.locate here .kept p.text = .error .missing) :
    n ≠ ".." := by
  rintro rfl
  refine h front (hnames ▸ List.prefix_refl _) ?_
  rw [← hnames]
  exact hmissing

/-- A path that never goes up is such a path. -/
theorem Tree.isClimbable_of_not_mem (h : ".." ∉ p.names) : t.IsClimbable here p :=
  fun _ hfront => absurd (hfront.subset (List.mem_append_right _ (List.mem_singleton_self _))) h

end Climbable

namespace Tree

section Made

variable {α : Type} {t t' : Tree α} {here folder : Place} {path : String}

/-- A folder that is made is the only one that is founded, and its path leads to it. -/
theorem founded_makeFolder (hclosed : t.IsClosed) (h : t.makeFolder here path = .ok t') :
    ∃ folder, Founded t t' ∧ t'.lookup here path = .ok (folder, .folder) ∧
      t.locate here .kept path = .ok (.vacant folder) ∧ t' = t.put folder .folder := by
  unfold makeFolder at h
  split at h
  · rename_i folder hlocate
    cases h
    have hwalk := walk_of_locate hlocate
    have hfree := get?_of_walk_vacant hwalk
    have hfounded := founded_put hclosed hfree (isFolder_of_walk_vacant hwalk)
    refine ⟨folder, hfounded, ?_, hlocate, rfl⟩
    refine hfounded.keeps.lookup_of_locate hlocate (fun target hlink => ?_)
      (get?_put_self _ (ne_nil_of_walk hwalk) _) nofun
    -- The place was free, so there is no link at it.
    rw [show t.get? folder = _ from hlink] at hfree
    cases hfree
  · cases h
  · cases h

/-- Only a folder above that is missing is said to be missing. -/
theorem locate_of_makeFolder_missing (h : t.makeFolder here path = .error .missing) :
    t.locate here .kept path = .error .missing := by
  unfold makeFolder at h
  split at h
  · cases h
  · cases h
  · rename_i hlocate
    cases h
    exact hlocate

/-- Nothing stands in a folder that has just been put at a free name. -/
theorem get?_put_folder_append (hclosed : t.IsClosed) (hfree : t.get? folder = none) (n : String) :
    (t.put folder .folder).get? (folder ++ [n]) = none := by
  rw [get?_put_of_ne _ (by simp)]
  by_contra hthere
  have habove := hclosed _ hthere
  rw [List.dropLast_concat, isFolder_iff, hfree] at habove
  cases habove

variable {t₁ t₂ : Tree α} {p : Path} {front : List String} {n : String} {folder₁ folder₂ : Place}

/-- If a path was missing, and the folder above it has been found and the folder itself made or
found, then nothing stands in it. -/
theorem IsClimbable.get?_append_eq_none (hclimb : t.IsClimbable here p) (hp : p.IsGrounded)
    (hnames : p.names = front ++ [n]) (hmissing : t.locate here .kept p.text = .error .missing)
    (hclosed₁ : t₁.IsClosed) (hlookup₁ : t₁.lookup here p.parent.text = .ok (folder₁, .folder))
    (hnew₁ : t₁ = t ∨ ∀ m, t₁.get? (folder₁ ++ [m]) = none)
    (hlookup₂ : t₂.lookup here p.text = .ok (folder₂, .folder))
    (hhow₂ : t₂ = t₁ ∨
      t₁.locate here .kept p.text = .ok (.vacant folder₂) ∧ t₂ = t₁.put folder₂ .folder)
    (m : String) : t₂.get? (folder₂ ++ [m]) = none := by
  obtain ⟨-, hlong, -⟩ := locate_eq_ok_iff.1 (lookup_eq_ok_iff.1 hlookup₂)
  have hup : n ≠ ".." := hclimb.ne_up hnames hmissing
  rcases hnew₁ with rfl | hempty₁
  · -- In a folder that is there a last name is not said to be missing.
    rw [locate_of_lookup_parent hp hnames hup hlookup₁ hlong (.inl rfl)] at hmissing
    split at hmissing <;> cases hmissing
  · have hfree : ∀ target, t₁.get? (folder₁ ++ [n]) ≠ some (.link target) := by
      rw [hempty₁]
      exact nofun
    rcases hhow₂ with rfl | ⟨hlocate, rfl⟩
    · -- It cannot have been there, for the folder above it was empty.
      have hlocate := lookup_eq_ok_iff.1 hlookup₂
      rw [locate_of_lookup_parent hp hnames hup hlookup₁ hlong (.inr hfree),
        spotAt_of_get?_eq_none (hempty₁ n)] at hlocate
      split at hlocate <;> cases hlocate
    · exact get?_put_folder_append hclosed₁ (get?_of_walk_vacant (walk_of_locate hlocate)) m

end Made

end Tree

namespace Act

variable {host : Host} {path : String} {p : Path}

/-- A folder is made at a free name, or was there already. Where it is said to be missing, a folder
above it is. -/
theorem ends_makeFolder_founded (hclosed : host.tree.IsClosed) : Ends (makeFolder path) host
    (fun _ host' => ∃ tree folder, host' = { host with tree } ∧ Tree.Founded host.tree tree ∧
      hasNul path = false ∧ tree.lookup host.folder path = .ok (folder, .folder) ∧
      (tree = host.tree ∨ host.tree.locate host.folder .kept path = .ok (.vacant folder) ∧
        tree = host.tree.put folder .folder))
    fun e host' => host' = host ∧ ∀ text, e = .access .missing text →
      host.tree.locate host.folder .kept path = .error .missing := by
  have hchange : Ends (change path Tree.makeFolder) host _ _ :=
    ends_iff.2 ⟨gives_change, fails_change⟩
  unfold makeFolder
  refine (hchange.mono ?_ fun _ _ h => h).tryCatch ?_
  · rintro _ _ ⟨tree, rfl, hnul, hmake⟩
    obtain ⟨folder, hfounded, hlookup, hnew⟩ := Tree.founded_makeFolder hclosed hmake
    exact ⟨tree, folder, rfl, hfounded, hnul, hlookup, .inr hnew⟩
  · rintro e host' ⟨rfl, hcause⟩
    -- Only the lack of the folder above gives the error for a missing entry.
    have hmissing : ∀ text, e = .access .missing text →
        host'.tree.locate host'.folder .kept path = .error .missing := by
      rintro text rfl
      rcases hcause with ⟨hcause, -⟩ | ⟨-, fault, hfault, hmake⟩
      · cases hcause
      · cases hfault
        exact Tree.locate_of_makeFolder_missing hmake
    have hasked : Ends (isFolder path) host' (fun b host'' => host'' = host' ∧ (b = true →
          hasNul path = false ∧ ∃ place,
            host'.tree.lookup host'.folder path = .ok (place, .folder)))
        fun e host'' => host'' = host' ∧ e = .access .longName path :=
      ends_iff.2 ⟨gives_isFolder path, fails_isFolder path⟩
    -- What is in the way may be a folder, and then nothing has to be done.
    split
    · rename_i fault text
      refine Ends.bind (hasked.mono (fun _ _ h => h) ?_) ?_
      · rintro _ _ ⟨rfl, rfl⟩
        exact ⟨rfl, nofun⟩
      · rintro b host ⟨rfl, hfolder⟩
        split
        · exact ends_throw ⟨rfl, hmissing⟩
        · rename_i hthere
          simp only [Bool.or_eq_true, Bool.not_eq_true', not_or, Bool.not_eq_false] at hthere
          obtain ⟨hnul, folder, hlookup⟩ := hfolder hthere.2
          exact ends_pure ⟨_, folder, rfl, .refl hclosed, hnul, hlookup, .inl rfl⟩
    · exact ends_throw ⟨rfl, hmissing⟩

theorem ends_makeFolders_founded (hclosed : host.tree.IsClosed) (hp : p.IsGrounded) :
    Ends (makeFolders p) host
      (fun _ host' => ∃ tree folder, host' = { host with tree } ∧ Tree.Founded host.tree tree ∧
        hasNul p.text = false ∧ tree.lookup host.folder p.text = .ok (folder, .folder) ∧
        (host.tree.IsClimbable host.folder p →
          tree = host.tree ∨ ∀ n, tree.get? (folder ++ [n]) = none))
      fun _ host' => ∃ tree, host' = { host with tree } ∧ Tree.Founded host.tree tree := by
  induction hlen : p.names.length using Nat.strong_induction_on generalizing p host with
  | _ len ih =>
    unfold makeFolders
    refine ((ends_makeFolder_founded hclosed).mono ?_ fun _ _ h => h).tryCatch ?_
    · rintro _ _ ⟨tree, folder, rfl, hfounded, hnul, hlookup, hhow⟩
      refine ⟨tree, folder, rfl, hfounded, hnul, hlookup, fun _ => hhow.imp_right ?_⟩
      rintro ⟨hlocate, rfl⟩
      exact Tree.get?_put_folder_append hclosed
        (Tree.get?_of_walk_vacant (Tree.walk_of_locate hlocate))
    · -- The recursion is on the names of the path, one less for the folder above.
      rintro e host' ⟨rfl, hmissing⟩
      split
      · rename_i text
        split
        · exact ends_throw ⟨_, rfl, .refl hclosed⟩
        · rename_i hnames
          obtain ⟨front, n, hcut⟩ : ∃ front n, p.names = front ++ [n] := by
            obtain hnil | ⟨front, n, hcut⟩ := List.eq_nil_or_concat p.names
            · exact absurd hnil hnames
            · exact ⟨front, n, by rw [hcut, List.concat_eq_append]⟩
          have hshorter : p.parent.names.length < len := by
            rw [← hlen, Path.parent, hcut]
            simp
          -- The folders above are founded first, and then the one that is wanted.
          refine Ends.bind (ih _ hshorter hclosed hp.parent rfl) ?_
          rintro _ _ ⟨tree₁, folder₁, rfl, hfounded₁, -, hlookup₁, hnew₁⟩
          have hmake : Ends (makeFolder p.text) { host' with tree := tree₁ } _ _ :=
            ends_makeFolder_founded hfounded₁.isClosed
          refine hmake.mono ?_ ?_
          · rintro _ _ ⟨tree₂, folder₂, rfl, hfounded₂, hnul, hlookup₂, hhow₂⟩
            exact ⟨tree₂, folder₂, rfl, hfounded₁.trans hfounded₂, hnul, hlookup₂,
              fun hclimb => .inr (hclimb.get?_append_eq_none hp hcut (hmissing text rfl)
                hfounded₁.isClosed hlookup₁ (hnew₁ hclimb.parent) hlookup₂ hhow₂)⟩
          · rintro _ _ ⟨rfl, -⟩
            exact ⟨tree₁, rfl, hfounded₁⟩
      · exact ends_throw ⟨_, rfl, .refl hclosed⟩

end Act

end ImportAtlas

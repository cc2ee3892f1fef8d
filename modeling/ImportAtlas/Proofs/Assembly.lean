import ImportAtlas.Proofs.Quiet

/-!
# What a graph is put together from

The files that a run puts into its graph have passed their checks, and so have the imports. So the
graph has sound parts only, and its files are numbered in ascending order.

## Key results

- `gives_buildGraph_isAssembled`: a graph that is built has been put together from sound parts
- `gives_prepare_isAssembled`: so has the graph of a run, and the ids of its files ascend
-/

namespace ImportAtlas

open EStateM

namespace ImportGraph

variable {g g' : ImportGraph}

/-- A file that is added is a part more. -/
theorem IsAssembled.addFile (h : g.IsAssembled) {f : SourceFile} (hf : f.fault? = none) {id : Int}
    (hadd : g.addFile f = .ok (g', id)) : g'.IsAssembled := by
  have hnext := h.afterOne (i := .file f) hf
  unfold ImportGraph.addFile at hadd
  split at hadd
  · rename_i id' g₁ hinsert
    cases hadd
    -- Adding a file is an insertion, with its id besides.
    have hact : (Insertion.file f).act g = .ok () g' := map_of_ok _ hinsert
    rwa [ImportGraph.afterOne, hact] at hnext
  · cases hadd

/-- An import that is tried leaves a graph of sound parts, whether it is refused or not. -/
theorem IsAssembled.ends_insertImport (h : g.IsAssembled) {e : ImportEdge}
    (he : e.fault? = none) : Ends (insertImport e) g (fun _ g' => g'.IsAssembled)
      fun _ g' => g'.IsAssembled := by
  have hnext := h.afterOne (i := .edge e) he
  -- The insertion that follows is the one the invariant is closed under.
  cases hinsert : insertImport e g with
  | ok e' g₁ =>
    have hact : (Insertion.edge e).act g = .ok () g₁ := map_of_ok _ hinsert
    rw [ImportGraph.afterOne, hact] at hnext
    exact ends_of_ok hinsert hnext
  | error fault g₁ =>
    have hact : (Insertion.edge e).act g = .error fault g₁ := map_of_error _ hinsert
    rw [ImportGraph.afterOne, hact] at hnext
    exact ends_of_error hinsert hnext

end ImportGraph

namespace Survey

variable {s : Settings} {c : Classifier} {host : Host} {g : ImportGraph} {survey : Survey}

/-- The source of a path is an acceptable file. -/
theorem gives_sourceOf_checked (path : String) :
    Gives (sourceOf s path) host fun f _ => f.fault? = none := by
  unfold sourceOf
  -- A file whose fields are refused is an error, so what is given has passed.
  split
  · exact gives_throw _
  · refine gives_bind fun here host' => ?_
    dsimp only
    split
    · rename_i hfault
      exact gives_pure hfault
    · exact gives_throw _

/-- So a graph stays assembled with a path more. -/
theorem gives_addPath_isAssembled (hg : g.IsAssembled) (path : String) :
    Gives (addPath s g path) host fun g' _ => g'.IsAssembled := by
  unfold addPath
  refine (gives_sourceOf_checked path).bind fun f host' hf => ?_
  refine (Act.gives_ofExcept _ _).bind fun added host'' hadded => ?_
  exact gives_pure (hg.addFile hf hadded.1)

/-- It stays so with the import of a statement. -/
theorem gives_addStatement_isAssembled (hg : survey.graph.IsAssembled) (file : SourceFile)
    (statement : List Char) : Gives (addStatement s c file survey statement) host
      fun survey' _ => survey'.graph.IsAssembled := by
  unfold addStatement
  split
  · exact gives_bind fun _ host' => gives_pure hg
  · refine gives_bind fun edge host' => ?_
    refine (Act.gives_ofExcept _ _).bind fun edge' host'' hchecked => ?_
    obtain ⟨hchecked, -⟩ := hchecked
    -- Only an import without a fault passes its check.
    have hsound : edge'.fault? = none := by
      unfold ImportEdge.checked at hchecked
      split at hchecked
      · cases hchecked
      · rename_i hfault
        cases hchecked
        exact hfault
    have hinsert := hg.ends_insertImport hsound
    split
    · rename_i hok
      exact gives_pure (hinsert.gives _ _ hok)
    · rename_i herror
      exact gives_bind fun _ _ => gives_pure (hinsert.fails _ _ herror)
    · exact gives_throw _

/-- It stays so with the imports of files, also if one of them stops it. -/
theorem gives_addFiles_isAssembled (hg : survey.graph.IsAssembled) (files : List SourceFile) :
    Gives (addFiles s c survey files) host fun result _ => result.1.graph.IsAssembled := by
  induction files generalizing survey host with
  | nil => exact gives_pure hg
  | cons file files ih =>
    have hfile : Gives (addFile s c survey file) host fun survey' _ => survey'.graph.IsAssembled :=
      gives_bind fun text host' =>
        gives_foldlM (fun statement _ survey' host'' h =>
          gives_addStatement_isAssembled h file statement) hg
    unfold addFiles
    refine Gives.bind (P := fun next _ => ∀ survey', next = .ok survey' →
      survey'.graph.IsAssembled) (Gives.tryCatch (.map (hfile.mono ?_)) ?_) ?_
    · rintro survey' _ h _ ⟨⟩
      exact h
    · refine fun e host' _ => gives_pure ?_
      rintro survey' ⟨⟩
    · -- A file that stops the work leaves the survey as it was before that file.
      intro next host' h
      cases next with
      | ok survey' => exact ih (h survey' rfl)
      | error e => exact gives_pure hg

/-- What a survey puts together is assembled. -/
theorem gives_ofPaths_isAssembled (paths : List String) :
    Gives (ofPaths s c paths) host fun result _ => result.1.graph.IsAssembled := by
  have hplaced : Gives (paths.foldlM (addPath s) .empty) host fun g _ => g.IsAssembled :=
    gives_foldlM (fun path _ g host' h => gives_addPath_isAssembled h path) .empty
  unfold ofPaths
  -- If a path stops the survey, the graph that is given is empty.
  refine Gives.bind (P := fun placed _ => ∀ g, placed = .ok g → g.IsAssembled)
    (Gives.tryCatch (.map (hplaced.mono ?_)) ?_) ?_
  · rintro g _ h _ ⟨⟩
    exact h
  · exact fun e host' _ => gives_pure nofun
  · intro placed host' h
    cases placed with
    | error e => exact gives_pure .empty
    | ok g =>
      refine (gives_addFiles_isAssembled (h g rfl) _).bind fun result host'' hresult => ?_
      obtain ⟨survey, stopped⟩ := result
      cases stopped with
      | none => exact gives_bind fun _ _ => gives_pure hresult
      | some e => exact gives_pure hresult

/-- Files are numbered from 1. -/
theorem pairwise_ids_filesOf (here : Place) (paths : List String) :
    ((filesOf s here paths).map (·.id)).Pairwise (· < ·) := by
  have hnumbers : ((paths.zipIdx 1).map Prod.snd).Pairwise (· < ·) := by
    rw [List.zipIdx_map_snd]
    exact List.pairwise_lt_range'
  rw [filesOf, List.map_map, List.pairwise_map]
  refine (List.pairwise_map.1 hnumbers).imp fun h => ?_
  exact Int.ofNat_lt.2 h

end Survey

variable {s : Settings} {host : Host}

/-- So is the graph that is built. -/
theorem gives_buildGraph_isAssembled (paths : List String) :
    Gives (buildGraph s paths) host fun g _ => g.IsAssembled := by
  unfold buildGraph
  refine gives_bind fun c host' => ?_
  refine (Survey.gives_ofPaths_isAssembled paths).bind fun result host'' hresult => ?_
  obtain ⟨survey, stopped⟩ := result
  -- Whatever stops the building gives no graph.
  cases stopped with
  | none => exact gives_pure hresult
  | some e => exact gives_throw e

/-- A run writes nothing but graphs of sound parts whose files have ascending ids. -/
theorem gives_prepare_isAssembled (hlog : host.logFile = none) :
    Gives (prepare s) host fun prepared _ => prepared.1.IsAssembled ∧
      (prepared.1.files.map (·.id)).Pairwise (· < ·) := by
  unfold prepare
  refine ((Inventory.isQuiet_list s.inventory host hlog).gives).bind fun paths host₁ hquiet => ?_
  -- Listing is quiet, so there is still no log file.
  have hlog₁ : host₁.HasLogFile := by
    intro file hfile
    rw [hquiet.logFile_eq, hlog] at hfile
    cases hfile
  refine Gives.bind (P := fun g _ => g.IsAssembled ∧ (g.files.map (·.id)).Pairwise (· < ·)) ?_ ?_
  · intro g host₂ hbuild
    obtain ⟨c, survey, textOf, rfl, -, -, hsurveyed⟩ :=
      Survey.gives_buildGraph hlog₁ paths g host₂ hbuild
    refine ⟨gives_buildGraph_isAssembled paths _ _ hbuild, ?_⟩
    rw [hsurveyed.files_eq]
    exact Survey.pairwise_ids_filesOf _ _
  · exact fun g host₂ hg => gives_bind fun link host₃ => gives_pure hg

end ImportAtlas

import ImportAtlas.Graph.Query
import ImportAtlas.Proofs.Act
import Mathlib.Data.List.Induction
import Mathlib.Data.List.Nodup
import Mathlib.Data.Set.Function

/-!
# Graphs after insertions

A graph comes about by insertions, some of which it refuses. What a single insertion can do is said
once (`Insertion.act_cases`); from it follows that the four parts of a graph agree with one another
after every run of insertions (`consistent_after`).

## Key results

- `Insertion.act_cases`: an insertion adds a file, adds an import, or changes nothing
- `ImportGraph.consistent_after`: the parts of a graph agree after any insertions
- `ImportGraph.insertions_agree`: what that means for its files, its imports and its indexes
-/

namespace ImportAtlas

/-- An insertion into a graph. -/
inductive Insertion (τ : Type := String) where
  | file (f : SourceFile τ)
  | edge (e : ImportEdge τ)

section AnyText

variable {τ : Type} [DecidableEq τ]

namespace Insertion

/-- The insertion as an act on a graph. -/
def act : Insertion τ → GraphAct τ Unit
  | file f => discard (ImportGraph.insertFile f)
  | edge e => discard (ImportGraph.insertImport e)

end Insertion

namespace ImportGraph

/-- The graph that an insertion leaves behind, whether it is refused or not. -/
def afterOne (g : ImportGraph τ) (i : Insertion τ) : ImportGraph τ :=
  match i.act g with
  | .ok _ g => g
  | .error _ g => g

/-- The graph after insertions, one after the other. -/
def after (is : List (Insertion τ)) : ImportGraph τ :=
  is.foldl afterOne empty

/-- The last insertion comes after all others. -/
theorem after_append_singleton (is : List (Insertion τ)) (i : Insertion τ) :
    after (is ++ [i]) = (after is).afterOne i := by
  simp [after]

/-! ## One insertion -/

omit [DecidableEq τ] in
theorem hasId_iff {g : ImportGraph τ} {id : Int} : g.hasId id = true ↔ id ∈ g.table.keys :=
  Dictionary.has_iff

omit [DecidableEq τ] in
/-- An id is free if no file has it as its key. -/
theorem hasId_eq_false_iff {g : ImportGraph τ} {id : Int} :
    g.hasId id = false ↔ id ∉ g.table.keys := by
  rw [← hasId_iff, Bool.not_eq_true]

theorem hasPath_iff {g : ImportGraph τ} {path : τ} :
    g.hasPath path = true ↔ path ∈ g.idsByPath.keys :=
  Dictionary.has_iff

/-- A file with a new path and a new id comes last. -/
theorem withFile_eq {g : ImportGraph τ} {f : SourceFile τ} {id : Int}
    (hpath : f.absolutePath ∉ g.idsByPath.keys) (hid : id ∉ g.table.keys) :
    g.withFile f id = { g with
      table := g.table ++ [(id, { f with id })]
      idsByPath := g.idsByPath ++ [(f.absolutePath, id)] } := by
  rw [withFile, Dictionary.put_of_not_mem hid, Dictionary.put_of_not_mem hpath]

/-- A new file comes last. -/
theorem files_withFile {g : ImportGraph τ} {f : SourceFile τ} {id : Int}
    (hpath : f.absolutePath ∉ g.idsByPath.keys) (hid : id ∉ g.table.keys) :
    (g.withFile f id).files = g.files ++ [{ f with id }] := by
  rw [withFile_eq hpath hid]
  simp [files, Dictionary.values]

/-- A file whose path and id are free is inserted. -/
theorem insertFile_of_not_mem {g : ImportGraph τ} {f : SourceFile τ}
    (hpath : f.absolutePath ∉ g.idsByPath.keys) (hid : g.idFor f ∉ g.table.keys) :
    insertFile f g = .ok (g.idFor f) (g.withFile f (g.idFor f)) := by
  rw [insertFile_eq, if_neg]
  simp only [Bool.or_eq_true, not_or, hasPath_iff, hasId_iff]
  exact ⟨hpath, hid⟩

/-- An import between files that are there is inserted, unless the same one is there. -/
theorem insertImport_of_not_mem {g : ImportGraph τ} {e : ImportEdge τ}
    (himporter : e.importerId ∈ g.table.keys)
    (htarget : ∀ id, e.targetId = some id → id ∈ g.table.keys) (hkey : e.key ∉ g.edgeKeys) :
    insertImport e g = .ok e (g.withEdge e) := by
  rw [insertImport_eq, if_neg (by simpa [hasId_iff] using himporter),
    if_neg (by simpa [Option.any_eq_true, hasId_eq_false_iff] using htarget),
    if_neg (by simpa using hkey)]

/-- An import whose ends are in the graph is a repetition if its key is taken. -/
theorem insertImport_of_mem {g : ImportGraph τ} {e : ImportEdge τ}
    (himporter : e.importerId ∈ g.table.keys)
    (htarget : ∀ id, e.targetId = some id → id ∈ g.table.keys) (hkey : e.key ∈ g.edgeKeys) :
    insertImport e g = .error (.duplicateImport e.importerPath e.locator) g := by
  rw [insertImport_eq, if_neg (by simpa [hasId_iff] using himporter),
    if_neg (by simpa [Option.any_eq_true, hasId_eq_false_iff] using htarget),
    if_pos (by simpa using hkey)]

end ImportGraph

open ImportGraph in
/-- What an insertion can do: it adds a file whose path and id are new, it adds an import whose ends
are there and whose key is new, or it stops and leaves the graph as it was. -/
theorem Insertion.act_cases (i : Insertion τ) (g : ImportGraph τ) :
    (∃ f, i = .file f ∧ f.absolutePath ∉ g.idsByPath.keys ∧ g.idFor f ∉ g.table.keys ∧
      i.act g = .ok () (g.withFile f (g.idFor f))) ∨
    (∃ e, i = .edge e ∧ e.importerId ∈ g.table.keys ∧
      (∀ id, e.targetId = some id → id ∈ g.table.keys) ∧ e.key ∉ g.edgeKeys ∧
      i.act g = .ok () (g.withEdge e)) ∨
    ∃ fault, i.act g = .error fault g := by
  cases i with
  | file f =>
    -- A file is refused for its path or for its id, by the one check.
    by_cases htaken : (g.hasPath f.absolutePath || g.hasId (g.idFor f)) = true
    · have hf := insertFile_eq f g
      rw [if_pos htaken] at hf
      exact .inr (.inr ⟨_, EStateM.discard_of_error hf⟩)
    · simp only [Bool.or_eq_true, not_or, hasPath_iff, hasId_iff] at htaken
      have hf := insertFile_of_not_mem htaken.1 htaken.2
      exact .inl ⟨f, rfl, htaken.1, htaken.2, EStateM.discard_of_ok hf⟩
  | edge e =>
    -- The three checks are made in this order, and each of them can refuse the import.
    have he := insertImport_eq e g
    by_cases himporter : e.importerId ∈ g.table.keys
    · rw [if_neg (by simpa [hasId_iff] using himporter)] at he
      by_cases htarget : ∀ id, e.targetId = some id → id ∈ g.table.keys
      · by_cases hkey : e.key ∈ g.edgeKeys
        · have he := insertImport_of_mem himporter htarget hkey
          exact .inr (.inr ⟨_, EStateM.discard_of_error he⟩)
        · have he := insertImport_of_not_mem himporter htarget hkey
          exact .inr (.inl ⟨e, rfl, himporter, htarget, hkey, EStateM.discard_of_ok he⟩)
      · rw [if_pos (by simpa [Option.any_eq_true, hasId_eq_false_iff] using htarget)] at he
        exact .inr (.inr ⟨_, EStateM.discard_of_error he⟩)
    · rw [if_pos (by simpa [hasId_eq_false_iff] using himporter)] at he
      exact .inr (.inr ⟨_, EStateM.discard_of_error he⟩)

namespace ImportGraph

/-! ## Agreement of the parts -/

/-- The parts of a graph agree: the table and the index of paths list the files in one order, the
keys are those of the imports, ids, paths and keys are unique, and imports stay in the graph. -/
structure Consistent (g : ImportGraph τ) : Prop where
  table_eq : g.table = g.files.map fun f => (f.id, f)
  idsByPath_eq : g.idsByPath = g.files.map fun f => (f.absolutePath, f.id)
  edgeKeys_eq : g.edgeKeys = (g.edges.map (·.key)).reverse
  nodup_ids : (g.files.map (·.id)).Nodup
  nodup_paths : (g.files.map (·.absolutePath)).Nodup
  nodup_keys : (g.edges.map (·.key)).Nodup
  importer_mem : ∀ e ∈ g.edges, e.importerId ∈ g.files.map (·.id)
  target_mem : ∀ e ∈ g.edges, ∀ id, e.targetId = some id → id ∈ g.files.map (·.id)

omit [DecidableEq τ] in
/-- A graph without files and imports is consistent. -/
theorem consistent_empty : (empty : ImportGraph τ).Consistent := by
  constructor <;> simp [empty, files, Dictionary.values]

namespace Consistent

variable {g : ImportGraph τ}

section Parts

omit [DecidableEq τ]

/-- In a consistent graph, the keys of the table are the ids of its files. -/
theorem keys_table (hg : g.Consistent) : g.table.keys = g.files.map (·.id) := by
  have h := congrArg Dictionary.keys hg.table_eq
  rwa [show Dictionary.keys (g.files.map fun f => (f.id, f)) = g.files.map (·.id) by
    simp [Dictionary.keys]] at h

/-- The id of a file is a key of the table. -/
theorem id_mem_keys (hg : g.Consistent) {f : SourceFile τ} (hf : f ∈ g.files) :
    f.id ∈ g.table.keys := by
  rw [hg.keys_table]
  exact List.mem_map.2 ⟨f, hf, rfl⟩

/-- The paths that lead to ids are those of its files. -/
theorem keys_idsByPath (hg : g.Consistent) :
    g.idsByPath.keys = g.files.map (·.absolutePath) := by
  have h := congrArg Dictionary.keys hg.idsByPath_eq
  rwa [show Dictionary.keys (g.files.map fun f => (f.absolutePath, f.id)) =
    g.files.map (·.absolutePath) by simp [Dictionary.keys]] at h

/-- A file is found by its id, and only by it. -/
theorem file?_eq_some_iff (hg : g.Consistent) {id : Int} {f : SourceFile τ} :
    g.file? id = some f ↔ f ∈ g.files ∧ f.id = id := by
  have hnodup : g.table.keys.Nodup := hg.keys_table ▸ hg.nodup_ids
  rw [file?, Dictionary.get?_eq_some_iff hnodup, hg.table_eq]
  simp only [List.mem_map, Prod.mk.injEq]
  constructor
  · rintro ⟨f', hf', rfl, rfl⟩
    exact ⟨hf', rfl⟩
  · rintro ⟨hf, rfl⟩
    exact ⟨f, hf, rfl, rfl⟩

end Parts

/-- An id is found by the path of its file, and only by it. -/
theorem idsByPath_get?_iff (hg : g.Consistent) {path : τ} {id : Int} :
    g.idsByPath.get? path = some id ↔ ∃ f ∈ g.files, f.absolutePath = path ∧ f.id = id := by
  have hnodup : g.idsByPath.keys.Nodup := hg.keys_idsByPath ▸ hg.nodup_paths
  rw [Dictionary.get?_eq_some_iff hnodup, hg.idsByPath_eq]
  simp only [List.mem_map, Prod.mk.injEq]

/-- A file is found by its path, and only by it. -/
theorem fileAt?_eq_some_iff (hg : g.Consistent) {path : τ} {f : SourceFile τ} :
    g.fileAt? path = some f ↔ f ∈ g.files ∧ f.absolutePath = path := by
  rw [fileAt?, Option.bind_eq_some_iff]
  constructor
  · -- The file under the id that the path leads to is the file with the path.
    rintro ⟨id, hid, hf⟩
    obtain ⟨f', hf', hpath, rfl⟩ := hg.idsByPath_get?_iff.1 hid
    obtain ⟨hmem, hid⟩ := hg.file?_eq_some_iff.1 hf
    have hsame : f = f' := List.inj_on_of_nodup_map hg.nodup_ids hmem hf' hid
    exact ⟨hmem, hsame ▸ hpath⟩
  · rintro ⟨hf, rfl⟩
    exact ⟨f.id, hg.idsByPath_get?_iff.2 ⟨f, hf, rfl, rfl⟩, hg.file?_eq_some_iff.2 ⟨hf, rfl⟩⟩

/-- The file at a path is the one with that path. -/
theorem fileAt?_eq_find? (hg : g.Consistent) (path : τ) :
    g.fileAt? path = g.files.find? fun f => f.absolutePath == path := by
  cases hfind : g.files.find? fun f => f.absolutePath == path with
  | none =>
    refine Option.eq_none_iff_forall_ne_some.2 fun f hf => ?_
    obtain ⟨hmem, hpath⟩ := hg.fileAt?_eq_some_iff.1 hf
    exact List.find?_eq_none.1 hfind f hmem (by simpa using hpath)
  | some f =>
    have hpath : f.absolutePath = path := by simpa using List.find?_some hfind
    exact hg.fileAt?_eq_some_iff.2 ⟨List.mem_of_find?_eq_some hfind, hpath⟩

/-- A consistent graph stays so with a file whose path and id are new. -/
theorem withFile (hg : g.Consistent) {f : SourceFile τ} {id : Int}
    (hpath : f.absolutePath ∉ g.idsByPath.keys) (hid : id ∉ g.table.keys) :
    (g.withFile f id).Consistent := by
  have hfiles := files_withFile hpath hid
  have heq := withFile_eq hpath hid
  -- What is new to the indexes is new to the files.
  have hpath' := hpath
  have hid' := hid
  rw [hg.keys_idsByPath] at hpath'
  rw [hg.keys_table] at hid'
  constructor
  case table_eq => rw [hfiles, heq, List.map_append, ← hg.table_eq]; rfl
  case idsByPath_eq => rw [hfiles, heq, List.map_append, ← hg.idsByPath_eq]; rfl
  case edgeKeys_eq => exact hg.edgeKeys_eq
  case nodup_ids =>
    rw [hfiles, List.map_append]
    exact List.Nodup.append hg.nodup_ids (by simp) (by simpa using hid')
  case nodup_paths =>
    rw [hfiles, List.map_append]
    exact List.Nodup.append hg.nodup_paths (by simp) (by simpa using hpath')
  case nodup_keys => exact hg.nodup_keys
  case importer_mem =>
    intro e he
    rw [hfiles, List.map_append]
    exact List.mem_append_left _ (hg.importer_mem e he)
  case target_mem =>
    intro e he id hid
    rw [hfiles, List.map_append]
    exact List.mem_append_left _ (hg.target_mem e he id hid)

/-- A consistent graph stays so with an import between its files that is new. -/
theorem withEdge (hg : g.Consistent) {e : ImportEdge τ} (himporter : e.importerId ∈ g.table.keys)
    (htarget : ∀ id, e.targetId = some id → id ∈ g.table.keys) (hkey : e.key ∉ g.edgeKeys) :
    (g.withEdge e).Consistent := by
  rw [hg.keys_table] at himporter htarget
  have hkey' : e.key ∉ g.edges.map (·.key) := by simpa [hg.edgeKeys_eq] using hkey
  -- Of the invariants, an import touches those of the keys and of its two ends.
  constructor
  case table_eq => exact hg.table_eq
  case idsByPath_eq => exact hg.idsByPath_eq
  case edgeKeys_eq =>
    simp only [ImportGraph.withEdge]
    rw [List.insert_of_not_mem hkey, hg.edgeKeys_eq]
    simp
  case nodup_ids => exact hg.nodup_ids
  case nodup_paths => exact hg.nodup_paths
  case nodup_keys =>
    simp only [ImportGraph.withEdge, List.map_append]
    exact List.Nodup.append hg.nodup_keys (by simp) (by simpa using hkey')
  case importer_mem =>
    intro e' he'
    rcases List.mem_append.1 he' with he' | he'
    · exact hg.importer_mem e' he'
    · exact List.mem_singleton.1 he' ▸ himporter
  case target_mem =>
    intro e' he' id hid
    rcases List.mem_append.1 he' with he' | he'
    · exact hg.target_mem e' he' id hid
    · exact htarget id (List.mem_singleton.1 he' ▸ hid)

end Consistent

/-- Whatever is inserted, a graph whose parts agree stays one. -/
theorem Consistent.afterOne {g : ImportGraph τ} (hg : g.Consistent) (i : Insertion τ) :
    (g.afterOne i).Consistent := by
  rcases i.act_cases g with ⟨f, -, hpath, hid, h⟩ | ⟨e, -, himporter, htarget, hkey, h⟩ | ⟨_, h⟩
  · simpa only [ImportGraph.afterOne, h] using hg.withFile hpath hid
  · simpa only [ImportGraph.afterOne, h] using hg.withEdge himporter htarget hkey
  · simpa only [ImportGraph.afterOne, h] using hg

/-- The parts of a graph agree after any insertions. -/
theorem consistent_after (is : List (Insertion τ)) : (after is).Consistent := by
  induction is using List.reverseRecOn with
  | nil => exact consistent_empty
  | append_singleton is i ih =>
    rw [after_append_singleton]
    exact ih.afterOne i

omit [DecidableEq τ] in
/-- A file without an id of its own is refused only for its path: the id it would get is free. -/
theorem idFor_not_mem {g : ImportGraph τ} {f : SourceFile τ} (h : f.id = 0) :
    g.idFor f ∉ g.table.keys := by
  rw [idFor, if_pos h]
  exact nextId_not_mem _

/-- An insertion that is refused changes nothing. -/
theorem eq_of_act_error {g g' : ImportGraph τ} {i : Insertion τ} {fault : GraphFault τ}
    (h : i.act g = .error fault g') : g' = g := by
  rcases i.act_cases g with ⟨_, -, -, -, hact⟩ | ⟨_, -, -, -, -, hact⟩ | ⟨_, hact⟩
  · rw [hact] at h; cases h
  · rw [hact] at h; cases h
  · rw [hact] at h; cases h; rfl

/-- A file without an id of its own is refused only if its path is taken. -/
theorem path_mem_of_insertFile_error {g g' : ImportGraph τ} {f : SourceFile τ}
    {fault : GraphFault τ} (hid : f.id = 0) (h : insertFile f g = .error fault g') :
    f.absolutePath ∈ g.idsByPath.keys := by
  by_contra hpath
  rw [insertFile_of_not_mem hpath (idFor_not_mem hid)] at h
  cases h

/-- The index of paths is a bijection between the paths of the files and their ids. -/
theorem Consistent.bijOn_idsByPath {g : ImportGraph τ} (hg : g.Consistent) :
    Set.BijOn g.idsByPath.get? {path | path ∈ g.idsByPath.keys}
      (some '' {id | id ∈ g.files.map (·.id)}) := by
  have hlook (f) (hf : f ∈ g.files) : g.idsByPath.get? f.absolutePath = some f.id :=
    hg.idsByPath_get?_iff.2 ⟨f, hf, rfl, rfl⟩
  rw [hg.keys_idsByPath]
  refine ⟨?_, ?_, ?_⟩
  -- Into, one to one, and onto.
  · intro path hpath
    obtain ⟨f, hf, rfl⟩ := List.mem_map.1 hpath
    exact ⟨f.id, List.mem_map.2 ⟨f, hf, rfl⟩, (hlook f hf).symm⟩
  · intro path hpath path' hpath' heq
    obtain ⟨f, hf, rfl⟩ := List.mem_map.1 hpath
    obtain ⟨f', hf', rfl⟩ := List.mem_map.1 hpath'
    rw [hlook f hf, hlook f' hf', Option.some_inj] at heq
    rw [List.inj_on_of_nodup_map hg.nodup_ids hf hf' heq]
  · rintro _ ⟨id, hid, rfl⟩
    obtain ⟨f, hf, rfl⟩ := List.mem_map.1 hid
    exact ⟨f.absolutePath, List.mem_map.2 ⟨f, hf, rfl⟩, hlook f hf⟩

/-- After any insertions, refused or not, the four parts of a graph agree: files stand under their
own ids, the index of paths leads to exactly the files, imports stay in the graph, and the keys are
those of the imports. A further insertion that is refused changes nothing, and a file without an id
of its own is refused only if its path is taken. -/
theorem insertions_agree (is : List Insertion) :
    let g := after is
    (g.table.keys.Nodup ∧ ∀ id f, g.file? id = some f ↔ f ∈ g.files ∧ f.id = id) ∧
    (g.idsByPath.keys.Nodup ∧
      Set.BijOn g.idsByPath.get? {path | path ∈ g.idsByPath.keys}
        (some '' {id | id ∈ g.files.map (·.id)}) ∧
      ∀ path id, g.idsByPath.get? path = some id ↔
        ∃ f ∈ g.files, f.absolutePath = path ∧ f.id = id) ∧
    (∀ e ∈ g.edges, (∃ f ∈ g.files, f.id = e.importerId) ∧
      ∀ id, e.targetId = some id → ∃ f ∈ g.files, f.id = id) ∧
    ((g.edges.map (·.key)).Nodup ∧ g.edgeKeys.Nodup ∧
      ∀ key, key ∈ g.edgeKeys ↔ ∃ e ∈ g.edges, e.key = key) ∧
    (∀ (i : Insertion) fault g', i.act g = .error fault g' → g' = g) ∧
    ∀ (f : SourceFile) fault g', f.id = 0 → insertFile f g = .error fault g' →
      ∃ f' ∈ g.files, f'.absolutePath = f.absolutePath := by
  intro g
  have hg : g.Consistent := consistent_after is
  have hids : g.table.keys.Nodup := hg.keys_table ▸ hg.nodup_ids
  have hpaths : g.idsByPath.keys.Nodup := hg.keys_idsByPath ▸ hg.nodup_paths
  have hkeys : g.edgeKeys.Nodup := by
    rw [hg.edgeKeys_eq]
    exact List.nodup_reverse.2 hg.nodup_keys
  refine ⟨⟨hids, ?_⟩, ⟨hpaths, hg.bijOn_idsByPath, ?_⟩, ?_, ⟨hg.nodup_keys, hkeys, ?_⟩, ?_, ?_⟩
  · intro id f
    exact hg.file?_eq_some_iff
  · intro path id
    exact hg.idsByPath_get?_iff
  · intro e he
    refine ⟨List.mem_map.1 (hg.importer_mem e he), ?_⟩
    intro id hid
    exact List.mem_map.1 (hg.target_mem e he id hid)
  · intro key
    rw [hg.edgeKeys_eq, List.mem_reverse, List.mem_map]
  · intro i fault g' h
    exact eq_of_act_error h
  · intro f fault g' hid h
    have hpath := path_mem_of_insertFile_error hid h
    rwa [hg.keys_idsByPath, List.mem_map] at hpath

/-! ## The id 0 -/

omit [DecidableEq τ] in
/-- A file gets the id 0 only where -1 is the largest id. -/
private theorem Consistent.neg_one_mem {g : ImportGraph τ} (hg : g.Consistent) {f : SourceFile τ}
    (h : g.idFor f = 0) : -1 ∈ g.files.map (·.id) := by
  unfold idFor at h
  split at h
  · have hne : g.table.keys ≠ [] := by
      intro hnil
      simp [hnil, nextId] at h
    have hmem := nextId_sub_one_mem hne
    rwa [h, hg.keys_table] at hmem
  · contradiction

/-- The id 0 is given only after -1, since a file with the id 0 is one that has none yet. -/
theorem neg_one_mem_of_zero_mem (is : List (Insertion τ)) (h : 0 ∈ (after is).files.map (·.id)) :
    -1 ∈ (after is).files.map (·.id) := by
  induction is using List.reverseRecOn with
  | nil => simp [after, empty, files, Dictionary.values] at h
  | append_singleton is i ih =>
    rw [after_append_singleton] at h ⊢
    rcases i.act_cases (after is) with ⟨f, -, hpath, hid, hact⟩ | ⟨e, -, -, -, -, hact⟩ | ⟨_, hact⟩
    · -- Either 0 was there before, or it is the id of the new file.
      simp only [afterOne, hact, files_withFile hpath hid, List.map_append, List.mem_append] at h ⊢
      refine .inl (h.elim ih fun hzero => (consistent_after is).neg_one_mem (f := f) ?_)
      exact (List.mem_singleton.1 hzero).symm
    · simp only [afterOne, hact] at h ⊢
      exact ih h
    · simp only [afterOne, hact] at h ⊢
      exact ih h

end ImportGraph

end AnyText

/-! ## Sound parts -/

/-- A file is accepted if its path begins at the root, and neither its relative path nor its name is
empty. -/
theorem SourceFile.fault?_eq_none_iff {f : SourceFile} :
    f.fault? = none ↔
      (Path.ofText f.absolutePath).isAbsolute = true ∧ f.relativePath ≠ "" ∧ f.baseName ≠ "" := by
  unfold fault?
  split
  · simp_all
  · split
    · simp_all
    · split <;> simp_all

/-- Nothing is wrong with the texts of what is inserted. -/
def Insertion.IsSound : Insertion → Prop
  | .file f => f.fault? = none
  | .edge e => e.fault? = none

instance : DecidablePred Insertion.IsSound
  | .file f => inferInstanceAs (Decidable (f.fault? = none))
  | .edge e => inferInstanceAs (Decidable (e.fault? = none))

namespace ImportGraph

/-- Nothing is wrong with the texts of the files and imports of a graph. -/
structure Sound (g : ImportGraph) : Prop where
  file : ∀ f ∈ g.files, f.fault? = none
  edge : ∀ e ∈ g.edges, e.fault? = none

/-- What is made of sound parts has only sound parts. -/
theorem sound_after {is : List Insertion} (his : ∀ i ∈ is, i.IsSound) : (after is).Sound := by
  induction is using List.reverseRecOn with
  | nil => constructor <;> simp [after, empty, files, Dictionary.values]
  | append_singleton is i ih =>
    have hsound := ih fun j hj => his j (List.mem_append_left _ hj)
    have hi : i.IsSound := his i (by simp)
    rw [after_append_singleton]
    rcases i.act_cases (after is) with
      ⟨f, rfl, hpath, hid, hact⟩ | ⟨e, rfl, -, -, -, hact⟩ | ⟨_, hact⟩
    · -- The id that a file gets is no text, so the file stays sound under it.
      simp only [afterOne, hact]
      refine ⟨fun f' hf' => ?_, hsound.edge⟩
      rw [files_withFile hpath hid, List.mem_append, List.mem_singleton] at hf'
      rcases hf' with hf' | rfl
      · exact hsound.file f' hf'
      · exact hi
    · simp only [afterOne, hact]
      refine ⟨hsound.file, fun e' he' => ?_⟩
      rcases List.mem_append.1 he' with he' | he'
      · exact hsound.edge e' he'
      · exact List.mem_singleton.1 he' ▸ hi
    · simp only [afterOne, hact]
      exact hsound

/-- A graph has been put together from sound parts, one after the other. -/
def IsAssembled (g : ImportGraph) : Prop :=
  ∃ is : List Insertion, (∀ i ∈ is, i.IsSound) ∧ g = after is

namespace IsAssembled

variable {g : ImportGraph}

/-- Nothing has been put into an empty graph. -/
theorem empty : empty.IsAssembled :=
  ⟨[], nofun, rfl⟩

/-- What is put together of files and imports is consistent. -/
theorem consistent (h : g.IsAssembled) : g.Consistent := by
  obtain ⟨is, -, rfl⟩ := h
  exact consistent_after is

/-- All its files and imports are acceptable. -/
theorem sound (h : g.IsAssembled) : g.Sound := by
  obtain ⟨is, his, rfl⟩ := h
  exact sound_after his

theorem neg_one_mem_of_zero_mem (h : g.IsAssembled) (hzero : 0 ∈ g.files.map (·.id)) :
    -1 ∈ g.files.map (·.id) := by
  obtain ⟨is, -, rfl⟩ := h
  exact ImportGraph.neg_one_mem_of_zero_mem is hzero

/-- A sound part more, which may also be refused. -/
theorem afterOne (h : g.IsAssembled) {i : Insertion} (hi : i.IsSound) :
    (g.afterOne i).IsAssembled := by
  obtain ⟨is, his, rfl⟩ := h
  refine ⟨is ++ [i], ?_, (after_append_singleton is i).symm⟩
  rw [List.forall_mem_append]
  exact ⟨his, List.forall_mem_singleton.2 hi⟩

end IsAssembled

/-- Files and imports in their order determine a graph whose parts agree. -/
theorem Consistent.ext {g h : ImportGraph} (hg : g.Consistent) (hh : h.Consistent)
    (hfiles : g.files = h.files) (hedges : g.edges = h.edges) : g = h := by
  have htable : g.table = h.table := by rw [hg.table_eq, hh.table_eq, hfiles]
  have hpaths : g.idsByPath = h.idsByPath := by rw [hg.idsByPath_eq, hh.idsByPath_eq, hfiles]
  have hkeys : g.edgeKeys = h.edgeKeys := by rw [hg.edgeKeys_eq, hh.edgeKeys_eq, hedges]
  cases g
  cases h
  simp_all

end ImportGraph

end ImportAtlas

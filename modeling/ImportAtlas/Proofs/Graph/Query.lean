import ImportAtlas.Proofs.Graph.Cycle

/-!
# The views of a graph agree

A graph is asked for the neighbours of a file, for the imports at either end of it, for the imports
of a kind, and for files by id or by path. Each question scans the graph in its own way. Since the
imports of a graph stay in it, the answers are views of one relation (`ImportGraph.Imports`), and no
lookup that they make can fail.

## Key results

- `ImportGraph.mem_children_iff`, `ImportGraph.mem_parents_iff`: neighbours are what imports lead to
- `ImportGraph.Consistent.mapM_file?`: the ids of the graph are all found
- `ImportGraph.importsOf_perm`, `ImportGraph.importsTo_perm`: imports are sorted out by either end
- `ImportGraph.queries_agree`: all questions together, after any insertions
-/

namespace ImportAtlas.ImportGraph

variable {g : ImportGraph}

/-! ## Neighbours -/

/-- Where all ids are those of files, looking them up gives a file for each. -/
theorem Consistent.mapM_file? (hg : g.Consistent) {ids : List Int}
    (hids : ids ⊆ g.files.map (·.id)) : ids.mapM g.file? = some (g.filesOf ids) := by
  induction ids with
  | nil => rfl
  | cons id ids ih =>
    obtain ⟨hid, hrest⟩ := List.cons_subset.1 hids
    obtain ⟨f, hf, rfl⟩ := List.mem_map.1 hid
    have hfile : g.file? f.id = some f := hg.file?_eq_some_iff.2 ⟨hf, rfl⟩
    rw [List.mapM_cons, hfile, ih hrest, filesOf, filesOf, List.filterMap_cons, hfile]
    rfl

/-- The ids of the files that a file imports, each once. -/
def childIds (g : ImportGraph) (id : Int) : List Int :=
  ((g.importsOf id).filterMap (·.targetId)).eraseDups

/-- The ids of the files that import a file, each once. -/
def parentIds (g : ImportGraph) (id : Int) : List Int :=
  ((g.importsTo id).map (·.importerId)).eraseDups

theorem children_eq (g : ImportGraph) (id : Int) : g.children id = g.filesOf (g.childIds id) := rfl

theorem parents_eq (g : ImportGraph) (id : Int) : g.parents id = g.filesOf (g.parentIds id) := rfl

/-- The ids of children are those that a file imports. -/
theorem mem_childIds {p q : Int} : q ∈ g.childIds p ↔ g.Imports p q := by
  rw [childIds, List.mem_eraseDups, List.mem_filterMap]
  simp only [mem_importsOf, Imports, and_assoc]

/-- The ids of parents are those that import a file. -/
theorem mem_parentIds {p q : Int} : p ∈ g.parentIds q ↔ g.Imports p q := by
  rw [parentIds, List.mem_eraseDups, List.mem_map]
  simp only [mem_importsTo, Imports]
  exact exists_congr fun e => by rw [and_assoc, and_comm (a := e.targetId = some q)]

/-- Children are files of the graph. -/
theorem childIds_subset (hg : g.Consistent) (p : Int) : g.childIds p ⊆ g.files.map (·.id) := by
  intro q hq
  obtain ⟨e, he, -, htarget⟩ := mem_childIds.1 hq
  exact hg.target_mem e he q htarget

/-- So are parents. -/
theorem parentIds_subset (hg : g.Consistent) (q : Int) : g.parentIds q ⊆ g.files.map (·.id) := by
  intro p hp
  obtain ⟨e, he, rfl, -⟩ := mem_parentIds.1 hp
  exact hg.importer_mem e he

/-- The children of a file have the ids of its children, in order. -/
theorem map_id_children (hg : g.Consistent) (p : Int) :
    (g.children p).map (·.id) = g.childIds p := by
  rw [children_eq, map_id_filesOf hg (childIds_subset hg p)]

/-- The parents of a file have the ids of its parents, in order. -/
theorem map_id_parents (hg : g.Consistent) (q : Int) :
    (g.parents q).map (·.id) = g.parentIds q := by
  rw [parents_eq, map_id_filesOf hg (parentIds_subset hg q)]

/-- A file is a child of those that import it. -/
theorem mem_children_iff (hg : g.Consistent) {p q : Int} :
    q ∈ (g.children p).map (·.id) ↔ g.Imports p q := by
  rw [map_id_children hg, mem_childIds]

/-- A file is a parent of those that it imports. -/
theorem mem_parents_iff (hg : g.Consistent) {p q : Int} :
    p ∈ (g.parents q).map (·.id) ↔ g.Imports p q := by
  rw [map_id_parents hg, mem_parentIds]

/-- A child that is imported twice is listed once. -/
theorem nodup_children (hg : g.Consistent) (p : Int) : (g.children p).Nodup := by
  refine List.Nodup.of_map (·.id) ?_
  rw [map_id_children hg]
  exact List.nodup_eraseDups _

/-- So is a parent that imports twice. -/
theorem nodup_parents (hg : g.Consistent) (q : Int) : (g.parents q).Nodup := by
  refine List.Nodup.of_map (·.id) ?_
  rw [map_id_parents hg]
  exact List.nodup_eraseDups _

/-- A file has no parents exactly if no import leads to it. -/
theorem parents_eq_nil_iff (hg : g.Consistent) {q : Int} :
    g.parents q = [] ↔ g.importsTo q = [] := by
  rw [← List.map_eq_nil_iff (f := (·.id)), map_id_parents hg, List.eq_nil_iff_forall_not_mem,
    List.eq_nil_iff_forall_not_mem]
  simp only [mem_parentIds, mem_importsTo, Imports]
  constructor
  · rintro h e ⟨he, htarget⟩
    exact h e.importerId ⟨e, he, rfl, htarget⟩
  · rintro h p ⟨e, he, -, htarget⟩
    exact h e ⟨he, htarget⟩

/-- No import leads to a file if none has it as its target. -/
theorem importsTo_eq_nil_iff {q : Int} :
    g.importsTo q = [] ↔ ∀ e ∈ g.edges, e.targetId ≠ some q := by
  simp [importsTo, List.filter_eq_nil_iff]

/-- A root is a file without parents to which no import leads. -/
theorem roots_eq (hg : g.Consistent) :
    g.roots = g.files.filter fun f => (g.parents f.id).isEmpty && (g.importsTo f.id).isEmpty := by
  refine List.filter_congr fun f _ => ?_
  rw [Bool.eq_iff_iff, Bool.and_eq_true, List.isEmpty_iff, List.isEmpty_iff, parents_eq_nil_iff hg,
    and_self, importsTo_eq_nil_iff]
  simp

/-! ## Imports by their ends and by their kinds -/

/-- Sorting out the imports by their importers takes each of them once. -/
theorem importsOf_perm (hg : g.Consistent) :
    (g.files.flatMap fun f => g.importsOf f.id).Perm g.edges := by
  have h := List.flatMap_filter_perm ImportEdge.importerId hg.nodup_ids hg.importer_mem
  rwa [List.flatMap_map] at h

/-- Sorting out the imports by their targets takes each of them once that has one. -/
theorem importsTo_perm (hg : g.Consistent) :
    (g.files.flatMap fun f => g.importsTo f.id).Perm g.resolvedEdges := by
  have hids : (g.files.map fun f => some f.id).Nodup := by
    have h := hg.nodup_ids.map (Option.some_injective Int)
    rwa [List.map_map] at h
  have htargets : ∀ e ∈ g.resolvedEdges, e.targetId ∈ g.files.map fun f => some f.id := by
    intro e he
    obtain ⟨he, hresolved⟩ := List.mem_filter.1 he
    obtain ⟨q, hq⟩ := Option.isSome_iff_exists.1 hresolved
    obtain ⟨f, hf, rfl⟩ := List.mem_map.1 (hg.target_mem e he q hq)
    exact List.mem_map.2 ⟨f, hf, hq.symm⟩
  have h := List.flatMap_filter_perm ImportEdge.targetId hids htargets
  rw [List.flatMap_map] at h
  -- An import that leads to a file is resolved.
  refine (List.Perm.of_eq ?_).trans h
  refine List.flatMap_congr fun f _ => ?_
  rw [resolvedEdges, List.filter_filter]
  refine List.filter_congr fun e _ => ?_
  cases htarget : e.targetId <;> simp [ImportEdge.isResolved, htarget]

/-- Sorting out the imports by their kinds takes each of them once. -/
theorem edgesOfKind_perm (g : ImportGraph) :
    (g.edgesOfKind (some .localFile) ++ g.edgesOfKind (some .library) ++ g.edgesOfKind none).Perm
      g.edges := by
  have hkinds : ∀ e ∈ g.edges, e.kind ∈ [some .localFile, some .library, none] := by
    rintro e -
    rcases e.kind with _ | _ | _ <;> simp
  have h := List.flatMap_filter_perm ImportEdge.kind (by decide) hkinds
  simpa [edgesOfKind] using h

/-! ## Adjacency -/

/-- Each file has one entry, with a target for each of its resolved imports. -/
theorem adjacency_eq_map (hg : g.Consistent) :
    g.adjacency = g.files.map fun f => (f.id, (g.importsOf f.id).filterMap (·.targetId)) := by
  rw [adjacency_eq, hg.keys_table, List.map_map]
  rfl

/-- The targets of the resolved imports are all targets that there are. -/
theorem filterMap_targetId_resolvedEdges (g : ImportGraph) :
    g.resolvedEdges.filterMap (·.targetId) = g.edges.filterMap (·.targetId) := by
  rw [resolvedEdges, List.filterMap_filter]
  refine List.filterMap_congr fun e _ => ?_
  cases htarget : e.targetId <;> simp [ImportEdge.isResolved, htarget]

/-- The entries together hold one target for each resolved import. -/
theorem adjacency_perm (hg : g.Consistent) :
    (g.adjacency.flatMap (·.2)).Perm (g.resolvedEdges.filterMap (·.targetId)) := by
  rw [adjacency_eq_map hg, List.flatMap_map, ← List.filterMap_flatMap,
    filterMap_targetId_resolvedEdges]
  exact (importsOf_perm hg).filterMap _

/-! ## Files by id and by path -/

/-- Each file is found by its id. -/
theorem Consistent.file_id (hg : g.Consistent) {f : SourceFile} (hf : f ∈ g.files) :
    g.file f.id = .ok f := by
  rw [file, hg.file?_eq_some_iff.2 ⟨hf, rfl⟩]

/-- The file at a path is the only one with it. -/
theorem fileAt?_eq_some_iff_unique (hg : g.Consistent) {path : String} {f : SourceFile} :
    g.fileAt? path = some f ↔
      f ∈ g.files ∧ f.absolutePath = path ∧ ∀ f' ∈ g.files, f'.absolutePath = path → f' = f := by
  rw [hg.fileAt?_eq_some_iff]
  refine and_congr_right fun hf => ⟨fun hpath => ⟨hpath, fun f' hf' hpath' => ?_⟩, (·.1)⟩
  exact List.inj_on_of_nodup_map hg.nodup_paths hf' hf (hpath'.trans hpath.symm)

/-! ## All questions -/

/-- After any insertions, the questions to a graph have one answer. What a file imports, what it is
imported by and what the adjacency says of it are the ends of stored imports, each neighbour once,
but in the adjacency once for each resolved import; all ids that are looked up are found. The roots
are the files without parents, which are those that nothing imports. The imports are sorted out by
their importers, by their targets and by their kinds. A file is found at a path if it is the only
one with that path, and its id leads to it. -/
theorem queries_agree (is : List Insertion) :
    let g := after is
    (∀ p q,
      (q ∈ (g.children p).map (·.id) ↔ g.Imports p q) ∧
      (p ∈ (g.parents q).map (·.id) ↔ g.Imports p q) ∧
      (q ∈ Adjacency.successors g.adjacency p ↔ g.Imports p q)) ∧
    (∀ p,
      (g.childIds p).mapM g.file? = some (g.children p) ∧ (g.children p).Nodup ∧
      (g.parentIds p).mapM g.file? = some (g.parents p) ∧ (g.parents p).Nodup) ∧
    (g.adjacency = g.files.map fun f => (f.id, (g.importsOf f.id).filterMap (·.targetId))) ∧
    (g.adjacency.flatMap (·.2)).Perm (g.resolvedEdges.filterMap (·.targetId)) ∧
    (g.roots = g.files.filter fun f => (g.parents f.id).isEmpty && (g.importsTo f.id).isEmpty) ∧
    (g.files.flatMap fun f => g.importsOf f.id).Perm g.edges ∧
    (g.files.flatMap fun f => g.importsTo f.id).Perm g.resolvedEdges ∧
    (g.edgesOfKind (some .localFile) ++ g.edgesOfKind (some .library) ++ g.edgesOfKind none).Perm
      g.edges ∧
    ∀ path f,
      (g.fileAt? path = some f ↔
        f ∈ g.files ∧ f.absolutePath = path ∧ ∀ f' ∈ g.files, f'.absolutePath = path → f' = f) ∧
      (g.fileAt? path = some f → g.file f.id = .ok f) := by
  intro g
  have hg : g.Consistent := consistent_after is
  refine ⟨?_, ?_, adjacency_eq_map hg, adjacency_perm hg, roots_eq hg, importsOf_perm hg,
    importsTo_perm hg, edgesOfKind_perm g, ?_⟩
  · intro p q
    exact ⟨mem_children_iff hg, mem_parents_iff hg, mem_successors_adjacency hg⟩
  · intro p
    exact ⟨hg.mapM_file? (childIds_subset hg p), nodup_children hg p,
      hg.mapM_file? (parentIds_subset hg p), nodup_parents hg p⟩
  · intro path f
    refine ⟨fileAt?_eq_some_iff_unique hg, fun h => ?_⟩
    exact hg.file_id (hg.fileAt?_eq_some_iff.1 h).1

end ImportAtlas.ImportGraph

import ImportAtlas.Proofs.Store.Mirror

/-!
# Loading a saved graph

The rows of a graph that was put together by insertions keep the rules of the tables, and among its
ids 0 comes after -1. So all of them pass when they are loaded.

## Key results

- `Store.graphOfTables_ok`: tables that hold a sound graph are loaded
-/

namespace ImportAtlas

namespace Store

variable {g : ImportGraph} {host : Host} {c : Connection} {t : Tables}

/-- A file is read back from its row. -/
theorem fileOfRow_rowOfFile (f : SourceFile) : fileOfRow (rowOfFile f) = f :=
  rfl

/-! ## Whole graphs -/

/-- The files of a graph by ascending id. -/
def byId (fs : List SourceFile) : List SourceFile :=
  fs.mergeSort fun a b => a.id ≤ b.id

/-- Files that differ in their ids ascend when they are put in order. -/
theorem pairwise_byId {fs : List SourceFile} (hids : (fs.map (·.id)).Nodup) :
    (byId fs).Pairwise fun a b => a.id < b.id :=
  Tables.pairwise_mergeSort_of_nodup hids

/-- Files in order stay in order. -/
theorem byId_eq_self {fs : List SourceFile} (hids : (fs.map (·.id)).Pairwise (· < ·)) :
    byId fs = fs :=
  List.mergeSort_of_pairwise
    ((List.pairwise_map.1 hids).imp fun h => by simpa using Int.le_of_lt h)

/-- Rows whose ids ascend are listed as they stand. -/
theorem importsById_eq {fs : List SourceFile} {es : List ImportEdge} (ht : t.Holds fs es) :
    t.importsById = t.imports :=
  List.mergeSort_of_pairwise (ht.ascending.imp fun h => by simpa using Int.le_of_lt h)

/-- Sorting the rows of files is sorting the files. -/
theorem filesById_eq {fs : List SourceFile} {es : List ImportEdge} (ht : t.Holds fs es) :
    t.filesById = (byId fs).map rowOfFile := by
  rw [Tables.filesById, ht.files]
  exact (List.map_mergeSort (r := fun a b : SourceFile => a.id ≤ b.id)
    (s := fun a b : FileRow => a.id ≤ b.id) fun _ _ _ _ => rfl).symm

/-- No row of a sound graph is invalid. -/
theorem not_rowFault (hsound : g.Sound) (ht : t.Holds g.files g.edges) (e : Error) :
    ¬ t.RowFault e := by
  rintro (⟨hrow, hfault⟩ | @⟨row, fault, hrow, hfault⟩)
  · rw [ht.files] at hrow
    obtain ⟨f, hf, rfl⟩ := List.mem_map.1 hrow
    simp [fileOfRow_rowOfFile, hsound.file f hf] at hfault
  · have hedge : edgeOfRow row ∈ g.edges := ht.imports ▸ List.mem_map.2 ⟨row, hrow, rfl⟩
    simp [hsound.edge _ hedge] at hfault

/-- Tables that hold a sound graph, in which 0 comes after -1, are loaded. -/
theorem graphOfTables_ok (hg : g.Consistent) (hsound : g.Sound)
    (hzero : 0 ∈ g.files.map (·.id) → -1 ∈ g.files.map (·.id)) (ht : t.Holds g.files g.edges) :
    ∃ g', graphOfTables t = .ok g' ∧ g'.Consistent ∧ g'.files = byId g.files ∧
      g'.edges = g.edges := by
  have hkeeps : t.KeepsZero := by
    rwa [Tables.KeepsZero, Tables.ids, ht.ids_eq]
  rcases graphOfTables_cases (ht.keepsRules hg) with ⟨g', hload, hg'⟩ | ⟨e, -, he⟩
  · have hmirrors := hg'.mirrors_iff.2 hkeeps
    refine ⟨g', hload, hg'.consistent, ?_, ?_⟩
    · rw [hmirrors.files, filesById_eq ht, List.map_map]
      exact List.map_id _
    · rw [hmirrors.edges, importsById_eq ht, ht.imports]
  · -- The rows are those of a graph, so none of them is refused.
    exact he.elim (fun h => absurd h (not_rowFault hsound ht e))
      (fun h => absurd h (hkeeps.not_zeroFault e))

/-- A graph of the tables is what is loaded. -/
theorem load_ok {g' : ImportGraph} (ht : tables host = .ok t host)
    (hg' : graphOfTables t = .ok g') : load host = .ok g' host := by
  unfold load
  rw [EStateM.bind_of_ok _ ht, hg']
  rfl

/-- A host with a new database in memory. -/
def memoryHost : Host where
  tree := .empty
  folder := []
  environment := []
  replies := []
  connection := some { storage := .memory (some .empty) }
  stamp := ""

end Store

end ImportAtlas

import ImportAtlas.Proofs.Store.Atomic
import ImportAtlas.Proofs.Store.Roundtrip

/-!
# Asking a saved graph for its imports

A database answers from its rows, and a graph from its imports. A graph that was saved into a new
database has a row for each import, in the same order, and a row for each file under its id, so both
give the same answers. The kinds sort the answers out. A path that cannot be written cannot be asked
for.

## Key results

- `Store.tables_of_save`: what a save that succeeds leaves in the tables
- `Tables.Holds.listings_eq`: the rows answer as the imports do
- `Store.query_saved`: the answers of the database to each question, and how they are sorted out
-/

namespace ImportAtlas

namespace ImportGraph

variable {g : ImportGraph}

/-! ## Asking the graph itself -/

/-- The answer that an import gives: a target that is a file is given by its relative path. -/
def listingOf (g : ImportGraph) (e : ImportEdge) : Store.ImportListing where
  importer := e.importerPath
  locator := e.locator
  kind := e.kind
  target := e.targetId.bind fun id => (g.file? id).map (·.relativePath)

/-- The answers of the imports of a file, or of all, that are of a kind, or of any. -/
def listings (g : ImportGraph) (importer : Option String) (kind : Option (Option ImportKind)) :
    List Store.ImportListing :=
  (g.edges.filter fun e =>
    importer.all (· == e.importerPath) && kind.all (· == e.kind)).map g.listingOf

theorem Consistent.file?_eq_find? (hg : g.Consistent) (id : Int) :
    g.file? id = g.files.find? fun f => f.id == id := by
  -- No two files have the same id, so the first one found is the one.
  cases hfind : g.files.find? fun f => f.id == id with
  | none =>
    refine Option.eq_none_iff_forall_ne_some.2 fun f hf => ?_
    obtain ⟨hmem, hid⟩ := hg.file?_eq_some_iff.1 hf
    exact List.find?_eq_none.1 hfind f hmem (by simpa using hid)
  | some f =>
    have hid : f.id = id := by simpa using List.find?_some hfind
    exact hg.file?_eq_some_iff.2 ⟨List.mem_of_find?_eq_some hfind, hid⟩

/-- Files are found by their ids in whatever order they stand. -/
theorem Consistent.file?_eq_of_perm {g' : ImportGraph} (hg : g.Consistent) (hg' : g'.Consistent)
    (hperm : g'.files.Perm g.files) : g'.file? = g.file? := by
  funext id
  ext f
  rw [hg'.file?_eq_some_iff, hg.file?_eq_some_iff, hperm.mem_iff]

/-- The answers depend on the imports and on the files under their ids. -/
theorem listings_congr {g' : ImportGraph} (hfile : g'.file? = g.file?)
    (hedges : g'.edges = g.edges) : g'.listings = g.listings := by
  have hlisting : g'.listingOf = g.listingOf := by
    funext e
    rw [listingOf, hfile, listingOf]
  funext importer kind
  rw [listings, hedges, hlisting, listings]

/-- An answer has a target exactly if the import has one, and then it is that file. -/
theorem target_listingOf (hg : g.Consistent) {e : ImportEdge} (he : e ∈ g.edges) :
    (e.targetId = none ∧ (g.listingOf e).target = none) ∨
      ∃ f ∈ g.files, e.targetId = some f.id ∧ (g.listingOf e).target = some f.relativePath := by
  unfold listingOf
  cases htarget : e.targetId with
  | none => exact .inl ⟨rfl, rfl⟩
  | some id =>
    -- An id that is given belongs to a file of the graph.
    obtain ⟨f, hf, rfl⟩ := List.mem_map.1 (hg.target_mem e he id htarget)
    refine .inr ⟨f, hf, rfl, ?_⟩
    rw [Option.bind_some, hg.file?_eq_some_iff.2 ⟨hf, rfl⟩]
    rfl

/-- The answers of one kind are those among all that have it. -/
theorem listings_some (g : ImportGraph) (importer : Option String) (kind : Option ImportKind) :
    g.listings importer (some kind) =
      (g.listings importer none).filter fun row => row.kind == kind := by
  unfold listings
  rw [List.filter_map, List.filter_filter]
  congr 1
  refine List.filter_congr fun e _ => ?_
  simp only [Option.all_some, Option.all_none, Bool.and_true, Function.comp_apply, listingOf]
  rw [Bool.and_comm, Bool.beq_comm]

/-- The three kinds sort the answers out. -/
theorem listings_perm (g : ImportGraph) (importer : Option String) :
    (g.listings importer (some (some .localFile)) ++ g.listings importer (some (some .library)) ++
      g.listings importer (some none)).Perm (g.listings importer none) := by
  -- Each row has one of the two kinds, or none.
  have hkinds : ∀ row ∈ g.listings importer none,
      row.kind ∈ [some .localFile, some .library, none] := by
    rintro row -
    rcases row.kind with _ | _ | _ <;> simp
  have h := List.flatMap_filter_perm Store.ImportListing.kind (by decide) hkinds
  simpa [listings_some] using h

end ImportGraph

namespace Tables

variable {t : Tables} {g : ImportGraph}

/-! ## The rows of a graph -/

/-- The row of an import answers as the import does. -/
theorem Holds.listingOf_eq (hg : g.Consistent) (ht : t.Holds g.files g.edges) (row : ImportRow) :
    Store.listingOf t row = g.listingOf (Store.edgeOfRow row) := by
  have hfile (id : Int) :
      (t.files.find? fun f => f.id == id).map (·.relativePath) =
        (g.file? id).map (·.relativePath) := by
    rw [ht.files, List.find?_map, hg.file?_eq_find?, Option.map_map]
    rfl
  simp only [Store.listingOf, ImportGraph.listingOf, Store.edgeOfRow, hfile]

/-- The rows answer as the imports do, in the same order. -/
theorem Holds.listings_eq (hg : g.Consistent) (ht : t.Holds g.files g.edges)
    (importer : Option String) (kind : Option (Option ImportKind)) :
    Store.listings t importer kind = g.listings importer kind := by
  unfold Store.listings ImportGraph.listings
  rw [Store.importsById_eq ht, ← ht.imports, List.filter_map, List.map_map]
  exact List.map_congr_left fun row _ => ht.listingOf_eq hg row

end Tables

namespace Store

variable {τ : Type} [Text.Form τ] {host host' : Host} {c : Connection} {t : Tables}

/-! ## Questions to the database -/

/-- Tables that are there can be asked for imports, once the importer has been bound. -/
theorem query_of_hasTables {kind : Option String} {wanted : Option (Option ImportKind)}
    (h : HasTables host c t) (hkind : kindFilter kind = .ok wanted) (importer : Option τ) :
    query importer kind host = Act.ofExcept id
      ((importer.mapM bindText).map fun importer => listings t importer wanted) host := by
  unfold query
  rw [EStateM.bind_of_ok _ (EStateM.discard_of_ok (connection_of_eq h.connection_eq)), hkind,
    EStateM.bind_of_ok _ (Act.ofExcept_ok _ _ _), EStateM.bind_of_ok _ h.tables_eq]
  cases importer.mapM bindText <;> rfl

/-- A save into a new database that succeeds leaves the rows of the graph and no others, and these
are of characters. -/
theorem tables_of_save {g : ImportGraph τ} (hfresh : IsFresh host c)
    (hsave : save g host = .ok () host') :
    ∃ c' t fs es, fs.map SourceFile.as = g.files ∧ es.map ImportEdge.as = g.edges ∧
      HasTables host' c' t ∧ t.Holds fs es := by
  obtain ⟨host₁, c', t, fs, es, hfs, hes, hsave₁, hcommitted, hconnection, hclosed, hcommitted'⟩ |
      ⟨_, hfails⟩ | ⟨_, _, _, _, -, -, -, -, -, hfails⟩ :=
    save_withRows g hfresh.connection_eq hfresh.transaction_eq
  · rw [hsave] at hsave₁
    cases hsave₁
    rw [hfresh.committed_eq] at hcommitted
    cases hcommitted
    exact ⟨c', _, fs, es, hfs, hes, ⟨hconnection, hclosed, hcommitted'⟩,
      Tables.holds_withRows fs es⟩
  · rw [hfails] at hsave
    cases hsave
  · rw [hfails] at hsave
    cases hsave

/-- What can be asked for: all imports, or those of a kind, or those without one. -/
def kindQuestions : List (Option String × Option (Option ImportKind)) :=
  [(none, none), (some "local", some (some .localFile)), (some "lib", some (some .library)),
    (some "none", some none)]

/-- A graph of sound parts that was saved into a new database, and so is one of characters, is asked
for imports there as it is asked itself, for each importer that can be written, or none, and for
each kind: the answers are one for each import that is wanted, in the order of insertion, with the
relative path of the file that is its target, if it has one. An importer that cannot be written is
refused, and changes nothing. Loading the graph and asking it gives the same. The kinds sort the
answers out. -/
theorem query_saved [DecidableEq τ] (is : List (Insertion τ))
    (his : ∀ i : Insertion, i.as ∈ is → i.IsSound) (host host' : Host) (c : Connection)
    (hfresh : IsFresh host c) (hsave : save (ImportGraph.after is) host = .ok () host') :
    ∃ g : ImportGraph, g.Consistent ∧ (ImportGraph.after is).IsAs g ∧
    (∀ importer : Option String, ∀ question ∈ kindQuestions,
      query (importer.map Text.Form.ofText : Option τ) question.1 host' =
        .ok (g.listings importer question.2) host') ∧
    (∀ importer : τ, Text.Form.written? importer = none → ∀ question ∈ kindQuestions,
      query (some importer) question.1 host' = .error .unencodable host') ∧
    (∀ e ∈ g.edges, (e.targetId = none ∧ (g.listingOf e).target = none) ∨
      ∃ f ∈ g.files, e.targetId = some f.id ∧ (g.listingOf e).target = some f.relativePath) ∧
    (∃ g', load host' = .ok g' host' ∧
      ∀ importer kind, g'.listings importer kind = g.listings importer kind) ∧
    ∀ importer,
      (∀ kind, g.listings importer (some kind) =
        (g.listings importer none).filter fun row => row.kind == kind) ∧
      (g.listings importer (some (some .localFile)) ++
        g.listings importer (some (some .library)) ++
          g.listings importer (some none)).Perm (g.listings importer none) := by
  obtain ⟨c', t, fs, es, hfs, hes, htables, ht⟩ := tables_of_save hfresh hsave
  -- What has been saved is of characters.
  obtain ⟨g, hassembled, hsame⟩ := ImportGraph.exists_isAs_after is his
    (ImportGraph.written?_ne_none_of_map_as hfs hes)
  obtain rfl : fs = g.files := SourceFile.as_injective.list_map (hfs.trans hsame.files)
  obtain rfl : es = g.edges := ImportEdge.as_injective.list_map (hes.trans hsame.edges)
  have hg : g.Consistent := hassembled.consistent
  have hkind : ∀ question ∈ kindQuestions, kindFilter question.1 = .ok question.2 := by
    intro question hquestion
    simp only [kindQuestions, List.mem_cons, List.not_mem_nil, or_false] at hquestion
    rcases hquestion with rfl | rfl | rfl | rfl <;> rfl
  refine ⟨g, hg, hsame, ?_, ?_, fun e he => ImportGraph.target_listingOf hg he, ?_,
    fun importer => ⟨g.listings_some importer, g.listings_perm importer⟩⟩
  · intro importer question hquestion
    rw [query_of_hasTables htables (hkind question hquestion), mapM_bindText_map,
      ← ht.listings_eq hg]
    rfl
  · intro importer hwritten question hquestion
    rw [query_of_hasTables htables (hkind question hquestion),
      mapM_bindText_of_unwritten hwritten]
    rfl
  · -- The graph that is loaded is held by the same tables, up to the order of its files.
    obtain ⟨g', hload, hg', hfiles, hedges⟩ :=
      graphOfTables_ok hg hassembled.sound hassembled.neg_one_mem_of_zero_mem ht
    have hfile : g'.file? = g.file? :=
      hg.file?_eq_of_perm hg' (hfiles ▸ List.mergeSort_perm _ _)
    refine ⟨g', load_ok htables.tables_eq hload, fun importer kind => ?_⟩
    rw [ImportGraph.listings_congr hfile hedges]

/-- The imports around the id 0 are saved into a new database. -/
theorem save_around_zero : ∃ host',
    save (ImportGraph.after (insertionsAroundZero.map Insertion.as) : ImportGraph Text.Raw)
      memoryHost = .ok () host' := by
  have hsame := ImportGraph.isAs_after (τ := Text.Raw) insertionsAroundZero
  rw [save_as hsame.files hsame.edges]
  exact ⟨_, rfl⟩

/-- Of the imports around the id 0, which are all local, those of one file are one. -/
theorem query_saved_around_zero :
    ∃ host', save (ImportGraph.after (insertionsAroundZero.map Insertion.as) :
        ImportGraph Text.Raw) memoryHost = .ok () host' ∧
      query (some (Text.Raw.ofText "a.js")) (some "local") host' =
        .ok [⟨"a.js", "./b", some .localFile, some "b.js"⟩] host' ∧
      query (some (Text.Raw.ofText "a.js")) (some "none") host' = .ok [] host' := by
  obtain ⟨host', hsave⟩ := save_around_zero
  obtain ⟨g, hg, hsame, hquery, -, -, -, -⟩ :=
    query_saved (insertionsAroundZero.map Insertion.as) (Insertion.isSound_of_as_mem (by decide))
      memoryHost host' { storage := .memory (some .empty) } ⟨rfl, rfl, rfl, rfl⟩ hsave
  obtain rfl : g = ImportGraph.after insertionsAroundZero :=
    hsame.unique (ImportGraph.isAs_after _) hg (ImportGraph.consistent_after _)
  refine ⟨host', hsave, ?_, ?_⟩
  · exact hquery (some "a.js") (some "local", some (some .localFile)) (by decide)
  · exact hquery (some "a.js") (some "none", some none) (by decide)

/-- Asking a saved graph for the imports of a file whose name is not UTF-8 gives no answer, not even
an empty one. -/
theorem query_unwritable :
    ∃ host', save (ImportGraph.after (insertionsAroundZero.map Insertion.as) :
        ImportGraph Text.Raw) memoryHost = .ok () host' ∧
      query (some unwritableFile.relativePath) none host' = .error .unencodable host' := by
  obtain ⟨host', hsave⟩ := save_around_zero
  obtain ⟨c, t, fs, es, -, -, htables, -⟩ :=
    tables_of_save (c := { storage := .memory (some .empty) }) ⟨rfl, rfl, rfl, rfl⟩ hsave
  exact ⟨host', hsave, query_of_hasTables htables rfl (some unwritableFile.relativePath)⟩

end Store

end ImportAtlas

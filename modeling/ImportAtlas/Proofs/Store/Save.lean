import ImportAtlas.Proofs.Graph.Insertion
import ImportAtlas.Proofs.List
import ImportAtlas.Proofs.Store.Bind

/-!
# Saving a graph

A graph whose parts agree breaks no rule of the tables: its files have ids and paths of their own,
its imports have keys of their own and refer to its files. So all its rows go into one transaction,
and the transaction into the storage, unless there are more imports than ids for their rows.

## Key results

- `Tables.insertFile_of_not_mem`, `Tables.insertImport_of_not_mem`: the rules that a row keeps
- `Store.save_ok`: a graph is saved into a database without rows
-/

namespace ImportAtlas

/-- The row of files that a file becomes. -/
def rowOfFile (f : SourceFile) : FileRow :=
  ⟨f.id, f.absolutePath, f.relativePath, f.baseName, some f.extension⟩

/-- The row of imports that an import becomes under an id. -/
def rowOfEdge (id : Int) (e : ImportEdge) : ImportRow :=
  ⟨id, e.importerId, e.importerPath, e.locator, e.kind, e.targetId, e.targetPath⟩

namespace Tables

/-! ## Rows that keep the rules -/

variable {t : Tables}

theorem hasFile_iff {id : Int} : t.hasFile id = true ↔ id ∈ t.files.map (·.id) := by
  simp [hasFile]

/-- A file with a new id and a new path gets a row of its own. -/
theorem insertFile_of_not_mem {f : SourceFile} (hid : f.id ∉ t.files.map (·.id))
    (hpath : f.absolutePath ∉ t.files.map (·.absolutePath)) :
    t.insertFile (Store.entryOfFile f) = .ok { t with files := t.files ++ [rowOfFile f] } := by
  have hid' : t.hasFile f.id = false := Bool.eq_false_iff.2 (mt hasFile_iff.1 hid)
  -- Neither the id nor the path is taken.
  have hpath' : (t.files.any fun row => row.absolutePath == f.absolutePath) = false := by
    simpa using hpath
  simp only [insertFile, Store.entryOfFile, requiredColumn, Option.getD_some, bind, Except.bind,
    hid', hpath', Bool.false_eq_true, ↓reduceIte]
  rfl

/-- A kind is read back from its tag. -/
theorem kindColumn_tag (kind : Option ImportKind) :
    kindColumn (kind.map (·.tag)) = .ok kind := by
  cases kind with
  | none => rfl
  | some kind => simp only [Option.map_some, kindColumn, ImportKind.ofTag?_tag]

/-- The next id of an import is past all that are there. -/
theorem lt_nextImportId {row : ImportRow} (h : row ∈ t.imports) : row.id < t.nextImportId :=
  lt_of_lt_of_le (lt_nextId (List.mem_map.2 ⟨row, h, rfl⟩)) (le_max_right _ _)

/-- It is never below 1. -/
theorem one_le_nextImportId (t : Tables) : 1 ≤ t.nextImportId :=
  le_max_left _ _

/-- Each import takes one id. -/
theorem nextImportId_append (t : Tables) (e : ImportEdge) :
    nextImportId { t with imports := t.imports ++ [rowOfEdge t.nextImportId e] } =
      t.nextImportId + 1 := by
  have hpos := t.one_le_nextImportId
  -- The new row has the largest id.
  have hnext : nextId ((t.imports ++ [rowOfEdge t.nextImportId e]).map (·.id)) =
      t.nextImportId + 1 := by
    refine nextId_eq (by simp [rowOfEdge]) fun id hid => ?_
    obtain ⟨row, hrow, rfl⟩ := List.mem_map.1 hid
    rcases List.mem_append.1 hrow with hrow | hrow
    · exact (lt_nextImportId hrow).le
    · rw [List.mem_singleton.1 hrow]
      rfl
  rw [nextImportId, hnext]
  omega

/-- An import gets a row of its own if its files are there, it is not, and there is an id left. -/
theorem insertImport_of_not_mem {e : ImportEdge} (hroom : t.nextImportId ≤ lastId)
    (hkey : e.key ∉ t.imports.map fun row => (Store.edgeOfRow row).key)
    (himporter : e.importerId ∈ t.files.map (·.id))
    (htarget : ∀ id, e.targetId = some id → id ∈ t.files.map (·.id)) :
    t.insertImport (Store.entryOfEdge e) =
      .ok { t with imports := t.imports ++ [rowOfEdge t.nextImportId e] } := by
  -- No row has both the path and the locator of this one.
  have hkey' : (t.imports.any fun row =>
      row.parentPath == e.importerPath && row.locator == e.locator) = false := by
    rw [List.any_eq_false]
    intro row hrow hsame
    simp only [Bool.and_eq_true, beq_iff_eq] at hsame
    refine hkey (List.mem_map.2 ⟨row, hrow, ?_⟩)
    rw [ImportEdge.key, Store.edgeOfRow, hsame.1, hsame.2, ImportEdge.key]
  have htarget' : (e.targetId.any fun id => !t.hasFile id) = false := by
    cases hid : e.targetId with
    | none => rfl
    | some id =>
      rw [Option.any_some, hasFile_iff.2 (htarget id hid)]
      rfl
  simp only [insertImport, Store.entryOfEdge, requiredColumn, kindColumn_tag, bind, Except.bind,
    hroom.not_gt, hkey', hasFile_iff.2 himporter, htarget', Bool.not_true, Bool.or_self,
    Bool.false_eq_true, ↓reduceIte]
  rfl

/-- The tables hold files and imports, in their order; the ids of the rows of imports ascend. -/
structure Holds (t : Tables) (fs : List SourceFile) (es : List ImportEdge) : Prop where
  files : t.files = fs.map rowOfFile
  imports : t.imports.map Store.edgeOfRow = es
  ascending : t.imports.Pairwise fun a b => a.id < b.id

/-- Empty tables hold nothing. -/
theorem holds_empty : empty.Holds [] [] := by
  constructor <;> simp [empty]

namespace Holds

variable {fs : List SourceFile} {es : List ImportEdge}

/-- The ids that are held are those of the files. -/
theorem ids_eq (h : t.Holds fs es) : t.files.map (·.id) = fs.map (·.id) := by
  rw [h.files, List.map_map]
  rfl

/-- So are the paths. -/
theorem paths_eq (h : t.Holds fs es) :
    t.files.map (·.absolutePath) = fs.map (·.absolutePath) := by
  rw [h.files, List.map_map]
  rfl

/-- A file more. -/
theorem insertFile (h : t.Holds fs es) {f : SourceFile} (hid : f.id ∉ fs.map (·.id))
    (hpath : f.absolutePath ∉ fs.map (·.absolutePath)) :
    ∃ t', t.insertFile (Store.entryOfFile f) = .ok t' ∧ t'.Holds (fs ++ [f]) es := by
  refine ⟨_, insertFile_of_not_mem (h.ids_eq ▸ hid) (h.paths_eq ▸ hpath), ?_, h.imports,
    h.ascending⟩
  simp [h.files]

/-- An import more, which takes one id. -/
theorem insertImport (h : t.Holds fs es) {e : ImportEdge} (hroom : t.nextImportId ≤ lastId)
    (hkey : e.key ∉ es.map (·.key)) (himporter : e.importerId ∈ fs.map (·.id))
    (htarget : ∀ id, e.targetId = some id → id ∈ fs.map (·.id)) :
    ∃ t', t.insertImport (Store.entryOfEdge e) = .ok t' ∧ t'.Holds fs (es ++ [e]) ∧
      t'.nextImportId = t.nextImportId + 1 := by
  rw [← h.imports, List.map_map] at hkey
  rw [← h.ids_eq] at himporter htarget
  refine ⟨_, insertImport_of_not_mem hroom hkey himporter htarget, ⟨h.files, ?_, ?_⟩,
    t.nextImportId_append e⟩
  · rw [List.map_append, h.imports]
    rfl
  · -- The new row has the largest id.
    refine List.pairwise_append.2 ⟨h.ascending, List.pairwise_singleton _ _, ?_⟩
    intro row hrow row' hrow'
    rw [List.mem_singleton.1 hrow']
    exact lt_nextImportId hrow

end Holds

end Tables

/-- The ids of the files of a graph fit into columns, and there are ids for the rows of its
imports. -/
structure ImportGraph.FitsTables (g : ImportGraph) : Prop where
  ids : ∀ f ∈ g.files, Store.fits f.id = true
  room : g.edges.length ≤ Tables.lastId

namespace Store

/-! ## Rows in a transaction -/

/-- The host with rows in an open transaction. -/
def staged (host : Host) (c : Connection) (t : Tables) : Host :=
  { host with connection := some { c with transaction := some t } }

variable {host : Host} {c : Connection} {t t' : Tables}

/-- What is staged is what the connection sees. -/
theorem tables_staged : tables (staged host c t) = .ok t (staged host c t) :=
  rfl

/-- The connection has it in an open transaction. -/
theorem connection_staged :
    connection (staged host c t) = .ok { c with transaction := some t } (staged host c t) :=
  rfl

/-- A row that fits into its columns and keeps the rules goes into the open transaction. -/
theorem stageRow_ok {α : Type} {columns : Except Error α} {row : α}
    {insert : Tables → α → Except Constraint Tables} (hcolumns : columns = .ok row)
    (hc : c.isReadOnly = false) (hinsert : insert t row = .ok t') :
    stageRow columns insert (staged host c t) = .ok () (staged host c t') := by
  unfold stageRow
  rw [EStateM.bind_of_ok _ tables_staged, hcolumns,
    EStateM.bind_of_ok _ (Act.ofExcept_ok id row (staged host c t)),
    EStateM.bind_of_ok _ connection_staged]
  simp only [hc, hinsert]
  rfl

/-- A number of 64 bits is bound as it is. -/
theorem bindNumber_ok {i : Int} (h : fits i = true) : bindNumber i = .ok i :=
  if_pos h

/-- A file of characters with an id that fits is taken as it is. -/
theorem bindFile_ok {f : SourceFile} (h : fits f.id = true) : bindFile f = .ok f := by
  unfold bindFile
  rw [bindNumber_ok h]
  rfl

/-- An import of characters with ids that fit is taken as it is. -/
theorem bindEdge_ok {e : ImportEdge} (h : ∀ id ∈ e.ids, fits id = true) : bindEdge e = .ok e := by
  have himporter : bindNumber e.importerId = .ok e.importerId :=
    bindNumber_ok (h _ (List.mem_cons_self ..))
  -- The numbers of the edge are its ids, and all of them fit.
  have htargetId : e.targetId.mapM bindNumber = .ok e.targetId := by
    cases hid : e.targetId with
    | none => rfl
    | some id =>
      rw [Option.mapM_some, bindNumber_ok (h id (by simp [ImportEdge.ids, hid]))]
      rfl
  have htargetPath : e.targetPath.mapM bindText = .ok e.targetPath := by
    cases e.targetPath <;> rfl
  unfold bindEdge
  rw [himporter, htargetId, htargetPath]
  rfl

variable {fs : List SourceFile} {es : List ImportEdge}

/-- Files with new ids and paths go into the open transaction, one after the other. -/
theorem stageFiles_ok (host : Host) (hc : c.isReadOnly = false) {new : List SourceFile}
    (ht : t.Holds fs es) (hfits : ∀ f ∈ new, fits f.id = true)
    (hids : ((fs ++ new).map (·.id)).Nodup) (hpaths : ((fs ++ new).map (·.absolutePath)).Nodup) :
    ∃ t', new.forM stageFile (staged host c t) = .ok () (staged host c t') ∧
      t'.Holds (fs ++ new) es := by
  induction new generalizing t fs with
  | nil => exact ⟨t, rfl, by simpa using ht⟩
  | cons f new ih =>
    simp only [List.mem_cons, forall_eq_or_imp] at hfits
    have hid : f.id ∉ fs.map (·.id) := List.not_mem_map_of_nodup_append hids
    have hpath : f.absolutePath ∉ fs.map (·.absolutePath) :=
      List.not_mem_map_of_nodup_append hpaths
    obtain ⟨t₁, hinsert, ht₁⟩ := ht.insertFile hid hpath
    -- A row is staged beside those before it, whose ids and paths are all different.
    have hstage : stageFile f (staged host c t) = .ok () (staged host c t₁) :=
      stageRow_ok (bindFile_ok hfits.1) hc hinsert
    rw [List.append_cons] at hids hpaths
    obtain ⟨t', hrest, ht'⟩ := ih ht₁ hfits.2 hids hpaths
    refine ⟨t', ?_, by rwa [List.append_cons]⟩
    rw [List.forM_eq_forM, List.forM_cons, EStateM.bind_of_ok _ hstage]
    exact hrest

/-- Imports with new keys between files of the tables go into the open transaction, one after the
other. -/
theorem stageEdges_ok (host : Host) (hc : c.isReadOnly = false) {new : List ImportEdge}
    (ht : t.Holds fs es) (hfits : ∀ f ∈ fs, fits f.id = true)
    (hkeys : ((es ++ new).map (·.key)).Nodup)
    (himporter : ∀ e ∈ new, e.importerId ∈ fs.map (·.id))
    (htarget : ∀ e ∈ new, ∀ id, e.targetId = some id → id ∈ fs.map (·.id))
    (hroom : t.nextImportId + new.length ≤ Tables.lastId + 1) :
    ∃ t', new.forM stageEdge (staged host c t) = .ok () (staged host c t') ∧
      t'.Holds fs (es ++ new) := by
  induction new generalizing t es with
  | nil => exact ⟨t, rfl, by simpa using ht⟩
  | cons e new ih =>
    simp only [List.mem_cons, forall_eq_or_imp] at himporter htarget
    have hfits' (id : Int) (hid : id ∈ fs.map (·.id)) : fits id = true := by
      obtain ⟨f, hf, rfl⟩ := List.mem_map.1 hid
      exact hfits f hf
    have hkey : e.key ∉ es.map (·.key) := List.not_mem_map_of_nodup_append hkeys
    rw [List.length_cons] at hroom
    -- The induction goes over tables that hold all edges staged so far.
    obtain ⟨t₁, hinsert, ht₁, hnext⟩ := ht.insertImport (by omega) hkey himporter.1 htarget.1
    -- The ids of both ends are ids of files, which fit.
    have hstage : stageEdge e (staged host c t) = .ok () (staged host c t₁) := by
      refine stageRow_ok (bindEdge_ok fun id hid => ?_) hc hinsert
      rcases List.mem_cons.1 hid with rfl | hid
      · exact hfits' _ himporter.1
      · exact hfits' _ (htarget.1 id (Option.mem_toList.1 hid))
    rw [List.append_cons] at hkeys
    obtain ⟨t', hrest, ht'⟩ := ih ht₁ hkeys himporter.2 htarget.2 (by omega)
    refine ⟨t', ?_, by rwa [List.append_cons]⟩
    rw [List.forM_eq_forM, List.forM_cons, EStateM.bind_of_ok _ hstage]
    exact hrest

/-! ## Whole graphs -/

/-- A database that has just been made is open: it can be written to, no transaction is open, and
its tables have no rows. -/
structure IsFresh (host : Host) (c : Connection) : Prop where
  connection_eq : host.connection = some c
  writable : c.isReadOnly = false
  transaction_eq : c.transaction = none
  committed_eq : committed host.tree c.storage = .ok (some .empty)

theorem connection_of_eq (h : host.connection = some c) : connection host = .ok c host := by
  unfold connection
  rw [EStateM.bind_get, h]
  rfl

/-- Without an open transaction the connection sees what is committed. -/
theorem tables_of_committed (hconnection : host.connection = some c)
    (htransaction : c.transaction = none)
    (hcommitted : committed host.tree c.storage = .ok (some t)) : tables host = .ok t host := by
  unfold tables
  rw [EStateM.bind_of_ok _ (connection_of_eq hconnection), htransaction]
  dsimp only
  rw [EStateM.bind_get, hcommitted]
  rfl

/-- Tables that are put into a storage are committed. The root of the tree holds none. -/
theorem store_ok (host : Host) (t : Tables) (hconnection : host.connection = some c)
    (hplace : ∀ place, c.storage = .file place → place ≠ []) :
    ∃ host' c', store t host = .ok () host' ∧ host'.connection = some c' ∧
      c'.isReadOnly = c.isReadOnly ∧ c'.transaction = none ∧
      committed host'.tree c'.storage = .ok (some t) := by
  unfold store
  rw [EStateM.bind_of_ok _ (connection_of_eq hconnection)]
  cases hstorage : c.storage with
  | memory before => exact ⟨_, _, rfl, rfl, rfl, rfl, rfl⟩
  | file place =>
    -- The tables are read back from the place where they were put.
    refine ⟨_, _, rfl, rfl, rfl, rfl, ?_⟩
    simp only [committed, Tree.get?_put_self _ (hplace place hstorage)]

/-- A transaction is committed into the storage that was there. -/
theorem commit_staged_committed (hcommitted : committed host.tree c.storage = .ok (some t')) :
    ∃ host' c', commit (staged host c t) = .ok () host' ∧ host'.connection = some c' ∧
      c'.transaction = none ∧ committed host'.tree c'.storage = .ok (some t) := by
  -- The root is a folder, and holds no tables.
  have hplace (place : Place) (hstorage : c.storage = .file place) : place ≠ [] := by
    rintro rfl
    simp [hstorage, committed, Tree.get?_nil] at hcommitted
  obtain ⟨host', c', hstore, hconnection, -, htransaction, hcommitted'⟩ :=
    store_ok (c := { c with transaction := some t }) (staged host c t) t rfl hplace
  refine ⟨host', c', ?_, hconnection, htransaction, hcommitted'⟩
  unfold commit
  rw [EStateM.bind_of_ok _ connection_staged]
  exact hstore

/-- A log record changes nothing at a place that holds tables. -/
theorem committed_appendTo {tree : Tree Content} {storage : Storage}
    (hcommitted : committed tree storage = .ok (some t)) (place : Place) (text : String) :
    committed (Act.appendTo tree place text) storage = .ok (some t) := by
  cases storage with
  | memory _ => exact hcommitted
  | file other =>
    unfold Act.appendTo
    by_cases hsame : place = other
    · -- Nothing is put behind a database.
      subst hsame
      simp only [committed] at hcommitted
      split at hcommitted
      · rename_i hget
        simpa only [hget, committed] using hcommitted
      · cases hcommitted
      · cases hcommitted
    · split
      · exact hcommitted
      · simpa only [committed, Tree.get?_put_of_ne _ hsame] using hcommitted
      · simpa only [committed, Tree.get?_put_of_ne _ hsame] using hcommitted

/-- Making tables where there are none gives a database that has just been made. -/
theorem isFresh_of_makeTables (host : Host) {host' : Host} (hconnection : host.connection = some c)
    (hnone : committed host.tree c.storage = .ok none) (hmake : makeTables host = .ok () host') :
    ∃ c', IsFresh host' c' := by
  unfold makeTables at hmake
  rw [EStateM.bind_of_ok _ (connection_of_eq hconnection),
    EStateM.bind_get, hnone,
    EStateM.bind_of_ok _ (Act.ofExcept_ok _ none host)] at hmake
  simp only [Option.isNone_none, ↓reduceIte] at hmake
  split at hmake
  · cases hmake
  · rename_i hwritable
    -- Storing the empty tables leaves a connection that is fresh.
    have hstore (hplace : ∀ place, c.storage = .file place → place ≠ [])
        (hmake : store .empty host = .ok () host') : ∃ c', IsFresh host' c' := by
      obtain ⟨host₁, c', hstore, hconnection', hreadOnly, htransaction, hcommitted⟩ :=
        store_ok host .empty hconnection hplace
      rw [hstore] at hmake
      cases hmake
      exact ⟨c', hconnection', by simpa [hreadOnly] using hwritable, htransaction, hcommitted⟩
    cases hstorage : c.storage with
    | memory before =>
      simp only [hstorage] at hmake
      exact hstore (fun place hplace => by simp [hstorage] at hplace) hmake
    | file place =>
      simp only [hstorage] at hmake
      split at hmake
      · cases hmake
      · rename_i hjournal
        -- At the root there is no name that a journal could be called after.
        refine hstore (fun other hother => ?_) hmake
        rintro rfl
        rw [hstorage] at hother
        cases hother
        simp [hasJournalName] at hjournal

/-- Connecting to a storage without tables gives a database that has just been made. -/
theorem isFresh_of_connect {path : Path} {fresh : Bool} {host₁ host' : Host}
    (hopened : opened path fresh host = .ok c host₁)
    (hnone : committed host₁.tree c.storage = .ok none)
    (hconnect : connect path fresh host = .ok () host') : ∃ c', IsFresh host' c' := by
  unfold connect at hconnect
  rw [EStateM.bind_of_ok _ hopened, EStateM.bind_modify] at hconnect
  cases hmake : makeTables { host₁ with connection := some c } with
  | error e host₂ =>
    rw [EStateM.bind_of_error _ hmake] at hconnect
    cases hconnect
  | ok _ host₂ =>
    rw [EStateM.bind_of_ok _ hmake] at hconnect
    obtain ⟨c', hfresh⟩ := isFresh_of_makeTables { host₁ with connection := some c } rfl hnone hmake
    cases hconnect
    -- The log takes a line after the tables are made, and that changes no database.
    refine ⟨c', hfresh.connection_eq, hfresh.writable, hfresh.transaction_eq, ?_⟩
    dsimp only
    split
    · exact committed_appendTo hfresh.committed_eq _ _
    · exact hfresh.committed_eq

/-- A graph whose parts agree is saved into a database without rows, if its ids fit and there are
ids for the rows of its imports. Its rows are committed. -/
theorem save_ok {g : ImportGraph} (hg : g.Consistent) (hfits : g.FitsTables)
    (hfresh : IsFresh host c) :
    ∃ host' c' t, save g host = .ok () host' ∧ host'.connection = some c' ∧
      c'.transaction = none ∧ committed host'.tree c'.storage = .ok (some t) ∧
      t.Holds g.files g.edges := by
  obtain ⟨t₁, hfiles, ht₁⟩ := stageFiles_ok host hfresh.writable Tables.holds_empty hfits.ids
    hg.nodup_ids hg.nodup_paths
  -- No import is there yet, so the first one gets the id 1.
  have hnext : t₁.nextImportId = 1 := by
    rw [Tables.nextImportId, List.map_eq_nil_iff.1 ht₁.imports]
    rfl
  have hroom : t₁.nextImportId + g.edges.length ≤ Tables.lastId + 1 := by
    have := hfits.room
    omega
  obtain ⟨t₂, hedges, ht₂⟩ := stageEdges_ok host hfresh.writable ht₁ hfits.ids hg.nodup_keys
    hg.importer_mem hg.target_mem hroom
  obtain ⟨host', c', hcommit, hconnection', hclosed', hcommitted'⟩ :=
    commit_staged_committed (t := t₂) hfresh.committed_eq
  refine ⟨host', c', t₂, ?_, hconnection', hclosed', hcommitted', ht₂⟩
  have hconnection := connection_of_eq hfresh.connection_eq
  have hstage : stage .empty host = .ok () (staged host c .empty) := by
    unfold stage
    rw [EStateM.bind_of_ok _ hconnection]
    rfl
  unfold save
  rw [EStateM.bind_of_ok _ hconnection]
  simp only [hfresh.transaction_eq, Option.isSome_none, Bool.false_eq_true, ↓reduceIte]
  refine EStateM.tryCatch_of_ok _ ?_
  -- The new tables are empty, then the files are staged, then the imports, and all is committed.
  rw [EStateM.bind_of_ok _ (tables_of_committed hfresh.connection_eq hfresh.transaction_eq
    hfresh.committed_eq), EStateM.bind_of_ok _ hstage, EStateM.bind_of_ok _ hfiles,
    EStateM.bind_of_ok _ hedges]
  exact hcommit

end Store

end ImportAtlas

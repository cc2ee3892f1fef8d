import ImportAtlas.Proofs.Store.Load

/-!
# What a save leaves behind

A save opens a transaction and puts one row after the other into it. Each row goes in, breaks a
rule, or has a number or a text that fits into no column. A broken rule is caught, and everything is
as it was before; what does not fit stops the save with the rows before it still in the open
transaction, for the next commit to store.

## Key results

- `Store.forM_outcome`: what rows do to an open transaction, one after the other
- `Store.save_cases`: a save stores all rows, changes nothing, or stops at what does not fit
- `Store.save_oversized_commits`: rows of a save that failed are stored by a later commit
-/

namespace ImportAtlas

namespace Tables

variable {t : Tables}

/-! ## Rows of a graph -/

/-- The tables with the row of one file more. -/
def withFile (t : Tables) (f : SourceFile) : Tables :=
  { t with files := t.files ++ [rowOfFile f] }

/-- The tables with the row of one import more. -/
def withEdge (t : Tables) (e : ImportEdge) : Tables :=
  { t with imports := t.imports ++ [rowOfEdge t.nextImportId e] }

/-- The tables with the rows of files and imports. -/
def withRows (t : Tables) (fs : List SourceFile) (es : List ImportEdge) : Tables :=
  es.foldl withEdge (fs.foldl withFile t)

/-- The row of a file goes in as it is, or breaks a rule. -/
theorem insertFile_cases (t : Tables) (f : SourceFile) :
    t.insertFile (Store.entryOfFile f) = .ok (t.withFile f) ∨
      ∃ rule, t.insertFile (Store.entryOfFile f) = .error rule := by
  -- The table refuses a second row with the id, then one with the path.
  cases hid : t.hasFile f.id
  · cases hpath : t.files.any fun row => row.absolutePath == f.absolutePath
    · left
      simp only [insertFile, Store.entryOfFile, requiredColumn, Option.getD_some, bind,
        Except.bind, hid, hpath, Bool.false_eq_true, ↓reduceIte]
      rfl
    · right
      simp only [insertFile, Store.entryOfFile, requiredColumn, Option.getD_some, bind,
        Except.bind, hid, hpath, Bool.false_eq_true, ↓reduceIte]
      exact ⟨_, rfl⟩
  · right
    simp only [insertFile, Store.entryOfFile, requiredColumn, Option.getD_some, bind, Except.bind,
      hid, ↓reduceIte]
    exact ⟨_, rfl⟩

/-- The row of an import goes in under the next id, or breaks a rule. -/
theorem insertImport_cases (t : Tables) (e : ImportEdge) :
    t.insertImport (Store.entryOfEdge e) = .ok (t.withEdge e) ∨
      ∃ rule, t.insertImport (Store.entryOfEdge e) = .error rule := by
  -- The table refuses when it is out of ids, then for a pair it holds, then for an end it lacks.
  by_cases hroom : lastId < t.nextImportId
  · right
    simp only [insertImport, bind, Except.bind, hroom, ↓reduceIte]
    exact ⟨_, rfl⟩
  cases hkey : t.imports.any fun row =>
    row.parentPath == e.importerPath && row.locator == e.locator
  · cases hends : !t.hasFile e.importerId || e.targetId.any fun id => !t.hasFile id
    · left
      simp only [insertImport, Store.entryOfEdge, requiredColumn, kindColumn_tag, bind,
        Except.bind, hroom, hkey, hends, Bool.false_eq_true, ↓reduceIte]
      rfl
    · right
      simp only [insertImport, Store.entryOfEdge, requiredColumn, kindColumn_tag, bind,
        Except.bind, hroom, hkey, hends, Bool.false_eq_true, ↓reduceIte]
      exact ⟨_, rfl⟩
  · right
    simp only [insertImport, Store.entryOfEdge, requiredColumn, kindColumn_tag, bind, Except.bind,
      hroom, hkey, ↓reduceIte]
    exact ⟨_, rfl⟩

/-- A row of imports goes in only if there is an id for it. -/
theorem nextImportId_le {t' : Tables} {e : ImportEntry} (h : t.insertImport e = .ok t') :
    t.nextImportId ≤ lastId := by
  by_contra hroom
  simp only [insertImport, bind, Except.bind, not_le.1 hroom, ↓reduceIte] at h
  cases h

/-- Files are put behind the rows that are there. -/
theorem foldl_withFile (t : Tables) (fs : List SourceFile) :
    fs.foldl withFile t = { t with files := t.files ++ fs.map rowOfFile } := by
  induction fs generalizing t with
  | nil => simp
  | cons f fs ih =>
    rw [List.foldl_cons, ih, List.map_cons, List.append_cons]
    rfl

/-- Imports get rows of their own, under ids above all that are there. -/
theorem foldl_withEdge (t : Tables) (es : List ImportEdge) :
    ∃ rows, es.foldl withEdge t = { t with imports := t.imports ++ rows } ∧
      rows.map Store.edgeOfRow = es ∧ rows.Pairwise (fun a b => a.id < b.id) ∧
        ∀ row ∈ rows, ∀ old ∈ t.imports, old.id < row.id := by
  induction es generalizing t with
  | nil => exact ⟨[], by simp, rfl, .nil, by simp⟩
  | cons e es ih =>
    -- The new row has an id above all old ones, and the rows after it have ids above its own.
    let row := rowOfEdge t.nextImportId e
    have hrow : ∀ old ∈ t.imports, old.id < row.id := fun old hold => lt_nextImportId hold
    obtain ⟨rows, hfold, hedges, hascending, hlater⟩ := ih (t.withEdge e)
    refine ⟨row :: rows, ?_, ?_, ?_, ?_⟩
    · rw [List.foldl_cons, hfold, List.append_cons]
      rfl
    · rw [List.map_cons, hedges]
      rfl
    · exact .cons (fun r hr => hlater r hr row (by simp [withEdge, row])) hascending
    · rw [List.forall_mem_cons]
      exact ⟨hrow, fun r hr old hold => hlater r hr old (by simp [withEdge, hold])⟩

/-- Tables that were empty hold the rows that were put into them. -/
theorem holds_withRows (fs : List SourceFile) (es : List ImportEdge) :
    (empty.withRows fs es).Holds fs es := by
  obtain ⟨rows, hrows, hedges, hascending, -⟩ := (fs.foldl withFile empty).foldl_withEdge es
  rw [withRows, hrows, foldl_withFile]
  exact ⟨rfl, hedges, hascending⟩

end Tables

namespace Store

variable {τ : Type} [Text.Form τ] {host : Host} {c : Connection} {t : Tables}

/-! ## One row -/

/-- What a row does to an open transaction: it goes in as a row of characters, or it is refused, or
it does not fit into its columns. -/
inductive RowOutcome {α β : Type} (host : Host) (c : Connection) (t : Tables)
    (grow : Tables → β → Tables) (as : β → α) (a : α) (ids : List Int) (texts : List τ) :
    EStateM.Result Error Host Unit → Prop
  | staged {b : β} (ha : a = as b) :
    RowOutcome host c t grow as a ids texts (.ok () (staged host c (grow t b)))
  | refused (fault : DatabaseFault) :
    RowOutcome host c t grow as a ids texts (.error (.database fault) (staged host c t))
  | unfit {e : Error} (he : Unfit ids texts e) :
    RowOutcome host c t grow as a ids texts (.error e (staged host c t))

/-- The checks of a row come one after the other: of its columns, of the connection, of the
rules. -/
theorem stageRow_outcome {α β : Type} {grow : Tables → β → Tables} {as : β → α} {a : α}
    {ids : List Int} {texts : List τ} {taken : β → Prop} {columns : Except Error β}
    {insert : Tables → β → Except Constraint Tables}
    (hcolumns : Binds ids texts (fun b => a = as b ∧ taken b) columns)
    (hinsert : ∀ b, insert t b = .ok (grow t b) ∨ ∃ rule, insert t b = .error rule) :
    RowOutcome host c t grow as a ids texts (stageRow columns insert (staged host c t)) := by
  cases columns with
  | error e =>
    -- The columns are looked at before the connection is, so nothing else is found.
    have hstage : stageRow (.error e) insert (staged host c t) = .error e (staged host c t) := by
      unfold stageRow
      rw [EStateM.bind_of_ok _ tables_staged]
      rfl
    rw [hstage]
    exact .unfit hcolumns
  | ok b =>
    cases hwritable : c.isReadOnly with
    | false =>
      -- The table takes the row or refuses it by one of its rules.
      obtain hinsert | ⟨rule, hinsert⟩ := hinsert b
      · rw [stageRow_ok rfl hwritable hinsert]
        exact .staged hcolumns.1
      · have hstage : stageRow (.ok b) insert (staged host c t) =
            .error (.database (.violation rule)) (staged host c t) := by
          unfold stageRow
          rw [EStateM.bind_of_ok _ tables_staged, EStateM.bind_of_ok _ (Act.ofExcept_ok id b _),
            EStateM.bind_of_ok _ connection_staged]
          simp only [hwritable, hinsert]
          rfl
        rw [hstage]
        exact .refused _
    | true =>
      have hstage : stageRow (.ok b) insert (staged host c t) =
          .error (.database .readOnly) (staged host c t) := by
        unfold stageRow
        rw [EStateM.bind_of_ok _ tables_staged, EStateM.bind_of_ok _ (Act.ofExcept_ok id b _),
          EStateM.bind_of_ok _ connection_staged]
        simp only [hwritable]
        rfl
      rw [hstage]
      exact .refused _

/-- A row that went into the open transaction fits into its columns and keeps the rules. -/
theorem stageRow_eq_ok {α : Type} {columns : Except Error α} {u : Unit} {host' : Host}
    {insert : Tables → α → Except Constraint Tables}
    (h : stageRow columns insert (staged host c t) = .ok u host') :
    ∃ row t', columns = .ok row ∧ insert t row = .ok t' ∧ host' = staged host c t' := by
  cases columns with
  | error e => cases h
  | ok row =>
    unfold stageRow at h
    rw [EStateM.bind_of_ok _ tables_staged, EStateM.bind_of_ok _ (Act.ofExcept_ok id row _),
      EStateM.bind_of_ok _ connection_staged] at h
    -- A row reaches the tables only over a connection that may write.
    cases hwritable : c.isReadOnly with
    | true =>
      simp only [hwritable] at h
      cases h
    | false =>
      simp only [hwritable] at h
      cases hinsert : insert t row with
      | error rule =>
        rw [hinsert] at h
        cases h
      | ok t' =>
        rw [hinsert] at h
        cases h
        exact ⟨row, t', rfl, hinsert, rfl⟩

/-- A file is staged, or it is refused for one of the reasons there are. -/
theorem stageFile_outcome (host : Host) (c : Connection) (t : Tables) (f : SourceFile τ) :
    RowOutcome host c t Tables.withFile SourceFile.as f [f.id] f.texts
      (stageFile f (staged host c t)) :=
  stageRow_outcome (binds_file f) t.insertFile_cases

/-- So is an import. -/
theorem stageEdge_outcome (host : Host) (c : Connection) (t : Tables) (e : ImportEdge τ) :
    RowOutcome host c t Tables.withEdge ImportEdge.as e e.ids e.texts
      (stageEdge e (staged host c t)) :=
  stageRow_outcome (binds_edge e) t.insertImport_cases

/-! ## One row after the other -/

/-- What rows do to an open transaction, one after the other: all go in as rows of characters, or
one is refused, or one does not fit into its columns and those before it stay in the transaction. -/
inductive RowsOutcome {α β : Type} (host : Host) (c : Connection) (t : Tables)
    (grow : Tables → β → Tables) (as : β → α) (ids : α → List Int) (texts : α → List τ)
    (rows : List α) : EStateM.Result Error Host Unit → Prop
  /-- All rows are staged. -/
  | staged {rows' : List β} (hrows : rows'.map as = rows) :
    RowsOutcome host c t grow as ids texts rows (.ok () (staged host c (rows'.foldl grow t)))
  /-- The database refuses one, and some are staged before it. -/
  | refused (fault : DatabaseFault) (t' : Tables) :
    RowsOutcome host c t grow as ids texts rows (.error (.database fault) (staged host c t'))
  /-- One cannot be handed over, and those before it are staged. -/
  | unfit {front : List β} {a : α} {back : List α} {e : Error}
    (hrows : front.map as ++ a :: back = rows) (he : Unfit (ids a) (texts a) e) :
    RowsOutcome host c t grow as ids texts rows (.error e (staged host c (front.foldl grow t)))

section Rows

variable {α β : Type} {grow : Tables → β → Tables} {as : β → α} {ids : α → List Int}
  {texts : α → List τ} {rows : List α}

/-- A row that is staged comes before the others. -/
theorem RowsOutcome.cons {a : α} {b : β} {result : EStateM.Result Error Host Unit} (ha : a = as b)
    (h : RowsOutcome host c (grow t b) grow as ids texts rows result) :
    RowsOutcome host c t grow as ids texts (a :: rows) result := by
  -- A row in front is staged before the rest, whatever becomes of that.
  cases h with
  | @staged rows' hrows =>
    have hrows' : (b :: rows').map as = a :: rows := by rw [List.map_cons, hrows, ha]
    exact .staged hrows'
  | refused fault t' => exact .refused fault t'
  | @unfit front a' back e hrows he =>
    have hrows' : (b :: front).map as ++ a' :: back = a :: rows := by
      rw [List.map_cons, List.cons_append, hrows, ha]
    exact .unfit hrows' he

/-- Rows are staged until one is refused. -/
theorem forM_outcome {act : α → Act Unit}
    (hact : ∀ (t : Tables) (a : α),
      RowOutcome host c t grow as a (ids a) (texts a) (act a (staged host c t)))
    (rows : List α) (t : Tables) :
    RowsOutcome host c t grow as ids texts rows (rows.forM act (staged host c t)) := by
  induction rows generalizing t with
  | nil =>
    have hnone : ([] : List β).map as = [] := rfl
    exact .staged hnone
  | cons a rows ih =>
    rw [List.forM_eq_forM, List.forM_cons]
    -- Only a row that goes in lets the others have their turn.
    generalize hresult : act a (staged host c t) = result
    have ha := hact t a
    rw [hresult] at ha
    cases ha with
    | @staged b ha =>
      rw [EStateM.bind_of_ok _ hresult]
      exact (ih (grow t b)).cons ha
    | refused fault =>
      rw [EStateM.bind_of_error _ hresult]
      exact .refused fault t
    | unfit he =>
      rw [EStateM.bind_of_error _ hresult]
      have hfirst : ([] : List β).map as ++ a :: rows = a :: rows := rfl
      exact .unfit hfirst he

end Rows

/-! ## Whole graphs -/

/-- Puts a graph into a transaction of its own and commits it. -/
def writeGraph (g : ImportGraph τ) : Act Unit := do
  stage (← tables)
  g.files.forM stageFile
  g.edges.forM stageEdge
  commit

/-- Takes back what led to an error, if the error is one that the database found. -/
def takeBack : Error → Act Unit
  | .database fault => do
    rollback
    unsaved fault.message
  | e => throw e

/-- To save a graph is to write it, and to take back what a fault of the database leaves. -/
theorem save_eq (g : ImportGraph τ) (hconnection : host.connection = some c)
    (hclosed : c.transaction = none) :
    save g host = (tryCatch (writeGraph g) takeBack : Act Unit) host := by
  unfold save
  rw [EStateM.bind_of_ok _ (connection_of_eq hconnection)]
  simp only [hclosed, Option.isSome_none, Bool.false_eq_true, ↓reduceIte]
  rfl

/-- A host without an open transaction comes back from one, whatever was put into it. -/
theorem rollback_staged (hconnection : host.connection = some c) (hclosed : c.transaction = none) :
    rollback (staged host c t) = .ok () host := by
  have hhost : { host with connection := some { c with transaction := none } } = host := by
    rw [← hclosed, ← hconnection]
  exact congrArg (EStateM.Result.ok ()) hhost

/-- A fault of the database is told as a failure to save, once all is taken back. -/
theorem takeBack_database {host' : Host} (hrollback : rollback host' = .ok () host)
    (fault : DatabaseFault) :
    takeBack (.database fault) host' =
      .error (.failure (.store ("Failed to save graph: " ++ fault.message) none)) host := by
  change (rollback >>= fun _ => unsaved fault.message) host' = _
  rw [EStateM.bind_of_ok _ hrollback]
  rfl

/-- Without a transaction there is nothing to take back. -/
theorem rollback_of_closed (hconnection : host.connection = some c)
    (hclosed : c.transaction = none) : rollback host = .ok () host := by
  have hhost : { host with connection := some { c with transaction := none } } = host := by
    rw [← hclosed, ← hconnection]
  unfold rollback
  rw [EStateM.bind_of_ok _ (connection_of_eq hconnection)]
  exact congrArg (EStateM.Result.ok ()) hhost

/-- Where no transaction can be opened nothing is changed. -/
theorem writeGraph_of_no_tables (g : ImportGraph τ) (hconnection : host.connection = some c)
    (hclosed : c.transaction = none)
    (hcommitted : ∀ t, committed host.tree c.storage ≠ .ok (some t)) :
    ∃ fault, writeGraph g host = .error (.database fault) host := by
  -- Whether the file is broken or merely has no tables yet, asking for its rows fails.
  have htables : ∃ fault, tables host = .error (.database fault) host := by
    unfold tables
    rw [EStateM.bind_of_ok _ (connection_of_eq hconnection), hclosed]
    dsimp only
    rw [EStateM.bind_get]
    cases hfound : committed host.tree c.storage with
    | error fault => exact ⟨fault, rfl⟩
    | ok found =>
      cases found with
      | none => exact ⟨.noTables, rfl⟩
      | some t => exact absurd hfound (hcommitted t)
  obtain ⟨fault, htables⟩ := htables
  exact ⟨fault, EStateM.bind_of_error _ htables⟩

/-- What a graph does to the tables of a database: all its rows are committed, or the database finds
a fault, or a row does not fit into its columns and those before it stay in a transaction. -/
theorem writeGraph_cases (g : ImportGraph τ) (hconnection : host.connection = some c)
    (hclosed : c.transaction = none)
    (hcommitted : committed host.tree c.storage = .ok (some t)) :
    (∃ host' c' fs es, fs.map SourceFile.as = g.files ∧ es.map ImportEdge.as = g.edges ∧
      writeGraph g host = .ok () host' ∧ host'.connection = some c' ∧ c'.transaction = none ∧
      committed host'.tree c'.storage = .ok (some (t.withRows fs es))) ∨
    (∃ fault t', writeGraph g host = .error (.database fault) (staged host c t')) ∨
    ∃ (fs : List SourceFile) (es : List ImportEdge) (e : Error),
      fs.map SourceFile.as <+: g.files ∧ es.map ImportEdge.as <+: g.edges ∧
      (fs.map SourceFile.as = g.files ∨ es = []) ∧ Unfit g.ids g.texts e ∧
      writeGraph g host = .error e (staged host c (t.withRows fs es)) := by
  have hstage : stage t host = .ok () (staged host c t) := by
    unfold stage
    rw [EStateM.bind_of_ok _ (connection_of_eq hconnection)]
    rfl
  unfold writeGraph
  rw [EStateM.bind_of_ok _ (tables_of_committed hconnection hclosed hcommitted),
    EStateM.bind_of_ok _ hstage]
  generalize hfiles : g.files.forM stageFile (staged host c t) = result
  have houtcome := forM_outcome (stageFile_outcome host c) g.files t
  rw [hfiles] at houtcome
  cases houtcome with
  -- A row that is refused and a row that cannot be bound stop the loop where they stand.
  | refused fault t' => exact .inr (.inl ⟨fault, t', EStateM.bind_of_error _ hfiles⟩)
  | @unfit fs f back e hrows he =>
    have hf : f ∈ g.files := hrows ▸ by simp
    refine .inr (.inr ⟨fs, [], e, ⟨f :: back, hrows⟩, List.nil_prefix, .inr rfl, ?_,
      EStateM.bind_of_error _ hfiles⟩)
    exact he.mono (g.ids_subset_of_file hf) (g.texts_subset_of_file hf)
  | @staged fs hfs =>
    -- All files are staged, so the edges are staged behind them.
    rw [EStateM.bind_of_ok _ hfiles]
    generalize hedges : g.edges.forM stageEdge
      (staged host c (fs.foldl Tables.withFile t)) = result
    have houtcome := forM_outcome (stageEdge_outcome host c) g.edges (fs.foldl Tables.withFile t)
    rw [hedges] at houtcome
    cases houtcome with
    | refused fault t' => exact .inr (.inl ⟨fault, t', EStateM.bind_of_error _ hedges⟩)
    | @unfit es edge back e hrows he =>
      have hedge : edge ∈ g.edges := hrows ▸ by simp
      refine .inr (.inr ⟨fs, es, e, hfs ▸ List.prefix_refl _, ⟨edge :: back, hrows⟩, .inl hfs, ?_,
        EStateM.bind_of_error _ hedges⟩)
      exact he.mono (g.ids_subset_of_edge hedge) (g.texts_subset_of_edge hedge)
    | @staged es hes =>
      rw [EStateM.bind_of_ok _ hedges]
      obtain ⟨host', c', hcommit, hrest⟩ :=
        commit_staged_committed (t := (fs.foldl Tables.withFile t |> es.foldl Tables.withEdge))
          hcommitted
      exact .inl ⟨host', c', fs, es, hfs, hes, hcommit, hrest⟩

/-- A save over an open connection without a transaction commits the rows of the graph, or changes
nothing, or stops at what does not fit with some of the rows in an open transaction. -/
theorem save_withRows (g : ImportGraph τ) (hconnection : host.connection = some c)
    (hclosed : c.transaction = none) :
    (∃ host' c' t fs es, fs.map SourceFile.as = g.files ∧ es.map ImportEdge.as = g.edges ∧
      save g host = .ok () host' ∧ committed host.tree c.storage = .ok (some t) ∧
      host'.connection = some c' ∧ c'.transaction = none ∧
      committed host'.tree c'.storage = .ok (some (t.withRows fs es))) ∨
    (∃ reason, save g host =
      .error (.failure (.store ("Failed to save graph: " ++ reason) none)) host) ∨
    ∃ (t : Tables) (fs : List SourceFile) (es : List ImportEdge) (e : Error),
      committed host.tree c.storage = .ok (some t) ∧
      fs.map SourceFile.as <+: g.files ∧ es.map ImportEdge.as <+: g.edges ∧
      (fs.map SourceFile.as = g.files ∨ es = []) ∧ Unfit g.ids g.texts e ∧
      save g host = .error e (staged host c (t.withRows fs es)) := by
  rw [save_eq g hconnection hclosed]
  by_cases hcommitted : ∃ t, committed host.tree c.storage = .ok (some t)
  · obtain ⟨t, hcommitted⟩ := hcommitted
    obtain ⟨host', c', fs, es, hfs, hes, hwrite, hconnection', hclosed', hcommitted'⟩ |
        ⟨fault, t', hwrite⟩ | ⟨fs, es, e, hfs, hes, hrest, he, hwrite⟩ :=
      writeGraph_cases g hconnection hclosed hcommitted
    · exact .inl ⟨host', c', t, fs, es, hfs, hes, EStateM.tryCatch_of_ok _ hwrite, hcommitted,
        hconnection', hclosed', hcommitted'⟩
    · -- The rows that went in go with the transaction.
      refine .inr (.inl ⟨fault.message, ?_⟩)
      rw [EStateM.tryCatch_of_error _ hwrite]
      exact takeBack_database (rollback_staged hconnection hclosed) fault
    · -- A column that cannot be bound is no fault of the database, so nothing is taken back.
      refine .inr (.inr ⟨t, fs, es, e, hcommitted, hfs, hes, hrest, he, ?_⟩)
      rw [EStateM.tryCatch_of_error _ hwrite]
      cases he <;> rfl
  · obtain ⟨fault, hwrite⟩ :=
      writeGraph_of_no_tables g hconnection hclosed (not_exists.1 hcommitted)
    refine .inr (.inl ⟨fault.message, ?_⟩)
    rw [EStateM.tryCatch_of_error _ hwrite]
    exact takeBack_database (rollback_of_closed hconnection hclosed) fault

/-- A save over an open connection without a transaction ends in one of three ways. Either all rows
of the graph are committed behind those that were there, none of which is changed; or the save
fails and nothing at all is changed; or an id or a text does not fit into its column, and the save
fails with the rows before it in an open transaction. -/
theorem save_cases (g : ImportGraph τ) (host : Host) (c : Connection)
    (hconnection : host.connection = some c) (hclosed : c.transaction = none) :
    (∃ (host' : Host) (c' : Connection) (t t' : Tables) (fs : List SourceFile)
        (rows : List ImportRow),
      save g host = .ok () host' ∧
      committed host.tree c.storage = .ok (some t) ∧ host'.connection = some c' ∧
      c'.transaction = none ∧ committed host'.tree c'.storage = .ok (some t') ∧
      fs.map SourceFile.as = g.files ∧ t'.files = t.files ++ fs.map rowOfFile ∧
      t'.imports = t.imports ++ rows ∧
      (rows.map edgeOfRow).map ImportEdge.as = g.edges ∧
      rows.Pairwise (fun a b => a.id < b.id) ∧
      ∀ row ∈ rows, ∀ old ∈ t.imports, old.id < row.id) ∨
    (∃ reason, save g host =
      .error (.failure (.store ("Failed to save graph: " ++ reason) none)) host) ∨
    ∃ (t : Tables) (fs : List SourceFile) (es : List ImportEdge) (e : Error),
      committed host.tree c.storage = .ok (some t) ∧
      fs.map SourceFile.as <+: g.files ∧ es.map ImportEdge.as <+: g.edges ∧
      (fs.map SourceFile.as = g.files ∨ es = []) ∧ Unfit g.ids g.texts e ∧
      save g host = .error e (staged host c (t.withRows fs es)) := by
  obtain ⟨host', c', t, fs, es, hfs, hes, hsave, hcommitted, hconnection', hclosed', hcommitted'⟩ |
      hfails := save_withRows g hconnection hclosed
  · obtain ⟨rows, hrows, hedges, hascending, hnew⟩ :=
      (fs.foldl Tables.withFile t).foldl_withEdge es
    rw [Tables.foldl_withFile] at hnew
    refine .inl ⟨host', c', t, _, fs, rows, hsave, hcommitted, hconnection', hclosed', hcommitted',
      hfs, ?_, ?_, hedges ▸ hes, hascending, hnew⟩
    · rw [Tables.withRows, hrows, Tables.foldl_withFile]
    · rw [Tables.withRows, hrows, Tables.foldl_withFile]
  · exact .inr hfails

/-- Two files, the second of which has an id that fits into no column. -/
def insertionsTooLarge : List Insertion :=
  [.file ⟨"/p/a.js", "a.js", "a.js", "js", 1⟩,
    .file ⟨"/p/b.js", "b.js", "b.js", "js", 9223372036854775808⟩]

/-- A save that stops at an id that is too large has a row in an open transaction. -/
theorem save_cases_of_too_large :
    memoryHost.connection = some { storage := .memory (some .empty) } ∧
    ∃ (t : Tables) (fs : List SourceFile) (es : List ImportEdge) (e : Error),
      fs.map SourceFile.as <+: (ImportGraph.after insertionsTooLarge).files ∧
      es.map ImportEdge.as <+: (ImportGraph.after insertionsTooLarge).edges ∧
      Unfit (ImportGraph.after insertionsTooLarge).ids (ImportGraph.after insertionsTooLarge).texts
        e ∧
      save (ImportGraph.after insertionsTooLarge) memoryHost =
        .error e (staged memoryHost { storage := .memory (some .empty) } (t.withRows fs es)) := by
  refine ⟨rfl, ?_⟩
  have hfails : ∃ host', save (ImportGraph.after insertionsTooLarge) memoryHost =
      .error .oversized host' := ⟨_, rfl⟩
  obtain ⟨host', hfails⟩ := hfails
  obtain ⟨_, _, _, _, _, _, hsave, -⟩ | ⟨_, hsave⟩ |
      ⟨t, fs, es, e, -, hfs, hes, -, he, hsave⟩ :=
    save_cases (ImportGraph.after insertionsTooLarge) memoryHost
      { storage := .memory (some .empty) } rfl rfl
  · rw [hfails] at hsave
    cases hsave
  · rw [hfails] at hsave
    cases hsave
  · exact ⟨t, fs, es, e, hfs, hes, he, hsave⟩

/-- The row of a save that failed is seen by the connection, and the next row that is inserted
commits it. -/
theorem save_oversized_commits :
    ∃ host₁ host₂, save (ImportGraph.after insertionsTooLarge) memoryHost =
        .error .oversized host₁ ∧
      tables host₁ = .ok ⟨[⟨1, "/p/a.js", "a.js", "a.js", some "js"⟩], []⟩ host₁ ∧
      insertFile (.int 5) (.text "/p/e.js") (.text "e.js") (.text "e.js") (.text "js") host₁ =
        .ok () host₂ ∧
      host₂.connection.map (fun c => committed host₂.tree c.storage) =
        some (.ok (some ⟨[⟨1, "/p/a.js", "a.js", "a.js", some "js"⟩,
          ⟨5, "/p/e.js", "e.js", "e.js", some "js"⟩], []⟩)) :=
  ⟨_, _, rfl, rfl, rfl, rfl⟩

end Store

end ImportAtlas

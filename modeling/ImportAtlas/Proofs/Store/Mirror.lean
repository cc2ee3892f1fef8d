import ImportAtlas.Proofs.List
import ImportAtlas.Proofs.Store.Rules

/-!
# What loading makes of tables

Loading puts the rows back through the rules of graphs, files by ascending id. All that rows can
break there the tables rule out already, with one exception: a file with the id 0 counts as one
without an id. It gets the next id after the rows before it, whose ids are negative, and that is 0
only after -1. Where it gets another id, the rows that refer to 0 lose their file, and the row with
the id 1 may find its id taken.

## Key results

- `Tables.loadedId_collides`: two rows get the same id only if they have the ids 0 and 1
- `Store.loadFile_cases`, `Store.loadEdge_cases`: what a single row does to the graph of those
  before it
- `Store.load_cases`: the graph that is loaded, or the row that stops the loading
- `Store.load_mirrors`: tables that keep the id 0 are loaded as they stand, unless a row is invalid
-/

namespace ImportAtlas

/-- The next id depends on which ids are in use, not on their order. -/
theorem nextId_congr {ids ids' : List Int} (h : ∀ id, id ∈ ids ↔ id ∈ ids') :
    nextId ids = nextId ids' := by
  rcases eq_or_ne ids [] with rfl | hids
  · have hnil : ids' = [] := List.eq_nil_iff_forall_not_mem.2 fun id hid => by
      simpa using (h id).2 hid
    rw [hnil]
  · -- The largest id of one list is the largest of the other.
    have heq := nextId_eq ((h _).1 (nextId_sub_one_mem hids)) fun id hid => by
      have hlt := lt_nextId ((h id).2 hid)
      omega
    omega

/-- A fold whose steps each keep a property of what has been gone through, or stop with an error of
some kind. -/
theorem Except.foldlM_cases {α ε σ : Type} {xs : List α} {step : σ → α → Except ε σ}
    {P : List α → σ → Prop} {Q : ε → Prop} {s : σ}
    (hstep : ∀ before x after s, xs = before ++ x :: after → P before s →
      (∃ s', step s x = .ok s' ∧ P (before ++ [x]) s') ∨ ∃ e, step s x = .error e ∧ Q e)
    (h : P [] s) :
    (∃ s', xs.foldlM step s = .ok s' ∧ P xs s') ∨ ∃ e, xs.foldlM step s = .error e ∧ Q e := by
  -- What is known depends on all the elements before, so these are carried along.
  suffices hrest : ∀ after before s, xs = before ++ after → P before s →
      (∃ s', after.foldlM step s = .ok s' ∧ P xs s') ∨
        ∃ e, after.foldlM step s = .error e ∧ Q e from hrest xs [] s rfl h
  intro after
  induction after with
  | nil =>
    intro before s hxs hs
    refine .inl ⟨s, rfl, ?_⟩
    rwa [hxs, List.append_nil]
  | cons x after ih =>
    intro before s hxs hs
    rw [List.foldlM_cons]
    rcases hstep before x after s hxs hs with ⟨s', hok, hs'⟩ | ⟨e, herror, he⟩
    · rw [hok]
      exact ih (before ++ [x]) s' (by rw [hxs, List.append_cons]) hs'
    · rw [herror]
      exact .inr ⟨e, rfl, he⟩

namespace Tables

variable {t : Tables} {id : Int}

/-! ## Ids that rows get -/

/-- The ids of the rows of files. -/
def ids (t : Tables) : List Int :=
  t.files.map (·.id)

/-- The id that a row of files gets when it is loaded: its own, or the next one after the negative
ids if its own is 0. -/
def loadedId (t : Tables) (id : Int) : Int :=
  if id = 0 then nextId (t.ids.filter (· < 0)) else id

/-- The file that is made of a row. -/
def loadedFile (t : Tables) (row : FileRow) : SourceFile :=
  { Store.fileOfRow row with id := t.loadedId row.id }

/-- The id 0 is not in use, or -1 is in use as well. -/
def KeepsZero (t : Tables) : Prop :=
  0 ∈ t.ids → -1 ∈ t.ids

instance : Decidable t.KeepsZero :=
  inferInstanceAs (Decidable (0 ∈ t.ids → -1 ∈ t.ids))

/-- An id other than 0 is loaded as it is. -/
theorem loadedId_of_ne (h : id ≠ 0) : t.loadedId id = id :=
  if_neg h

/-- The id 0 is replaced by the one after the ids below it. -/
theorem loadedId_zero : t.loadedId 0 = nextId (t.ids.filter (· < 0)) :=
  if_pos rfl

/-- A file with the id 0 comes after the negative ids. -/
theorem lt_loadedId_zero (hid : id ∈ t.ids) (hneg : id < 0) : id < t.loadedId 0 := by
  rw [loadedId_zero]
  exact lt_nextId (List.mem_filter.2 ⟨hid, by simpa using hneg⟩)

/-- Next to a negative id, the file with the id 0 does not get a positive one, and it gets 0 only
after -1. -/
theorem loadedId_zero_sub_one (hid : id ∈ t.ids) (hneg : id < 0) :
    t.loadedId 0 - 1 ∈ t.ids ∧ t.loadedId 0 ≤ 0 := by
  have hmem : id ∈ t.ids.filter (· < 0) := List.mem_filter.2 ⟨hid, by simpa using hneg⟩
  have hlast := nextId_sub_one_mem (List.ne_nil_of_mem hmem)
  rw [← loadedId_zero, List.mem_filter, decide_eq_true_eq] at hlast
  exact ⟨hlast.1, by omega⟩

/-- Where no id is negative, a file with the id 0 gets the first id there is. -/
theorem loadedId_zero_of_nonneg (h : ∀ id ∈ t.ids, 0 ≤ id) : t.loadedId 0 = 1 := by
  have hnil : t.ids.filter (· < 0) = [] := by
    simpa [List.filter_eq_nil_iff] using h
  rw [loadedId_zero, hnil]
  rfl

/-- Tables that keep the id 0 keep all ids. -/
theorem KeepsZero.loadedId_eq (h : t.KeepsZero) (hid : id ∈ t.ids) : t.loadedId id = id := by
  rcases eq_or_ne id 0 with rfl | hne
  · have hlt := lt_loadedId_zero (h hid) (by decide)
    have hle := (loadedId_zero_sub_one (h hid) (by decide)).2
    omega
  · exact loadedId_of_ne hne

/-- Where the id 0 is not kept, no row gets it. -/
theorem loadedId_ne_zero (h : ¬ t.KeepsZero) (id : Int) : t.loadedId id ≠ 0 := by
  -- Only the id 0 is replaced, by one that is not in the table while 0 is.
  rcases eq_or_ne id 0 with rfl | hne
  · intro hzero
    by_cases hneg : ∃ id ∈ t.ids, id < 0
    · obtain ⟨id, hid, hneg⟩ := hneg
      have hmem := (loadedId_zero_sub_one hid hneg).1
      rw [hzero] at hmem
      exact h fun _ => hmem
    · simp only [not_exists, not_and, not_lt] at hneg
      rw [loadedId_zero_of_nonneg hneg] at hzero
      omega
  · rwa [loadedId_of_ne hne]

/-- Two rows get the same id only if they have the ids 0 and 1 and no id is negative. -/
theorem loadedId_collides {id' : Int} (hid : id ∈ t.ids) (hlt : id < id')
    (h : t.loadedId id = t.loadedId id') : id = 0 ∧ id' = 1 ∧ ∀ i ∈ t.ids, 0 ≤ i := by
  rcases eq_or_ne id 0 with rfl | hne
  · -- With a negative id in the file the next free id would be at most 0, and no collision could
    -- come.
    have hnonneg : ∀ i ∈ t.ids, 0 ≤ i := by
      intro i hi
      by_contra hneg
      have hle := (loadedId_zero_sub_one hi (by omega)).2
      rw [h, loadedId_of_ne (by omega)] at hle
      omega
    rw [loadedId_zero_of_nonneg hnonneg, loadedId_of_ne (by omega)] at h
    exact ⟨rfl, h.symm, hnonneg⟩
  · rw [loadedId_of_ne hne] at h
    rcases eq_or_ne id' 0 with rfl | hne'
    · have hgt := lt_loadedId_zero hid hlt
      omega
    · rw [loadedId_of_ne hne'] at h
      omega

/-! ## What stops the loading -/

/-- A row whose own texts are invalid. -/
inductive RowFault (t : Tables) : Error → Prop
  | file {row : FileRow} {fault : FileFault} (hrow : row ∈ t.files)
      (hfault : (Store.fileOfRow row).fault? = some fault) :
      RowFault t (.failure (.invalidPath (Path.ofText row.absolutePath).text fault.reason))
  | edge {row : ImportRow} {fault : EdgeFault} (hrow : row ∈ t.imports)
      (hfault : (Store.edgeOfRow row).fault? = some fault) : RowFault t (.edge fault)

/-- A row that is valid by itself, in tables that do not keep the id 0. -/
inductive ZeroFault (t : Tables) : Error → Prop
  /-- The file with the id 0 has taken the id 1. -/
  | taken {row : FileRow} (hrow : row ∈ t.files) (hone : row.id = 1) (hzero : 0 ∈ t.ids)
      (hnonneg : ∀ id ∈ t.ids, 0 ≤ id) :
      ZeroFault t (.failure (.graph (.duplicateFile row.absolutePath)))
  /-- The import refers to the id 0, which no file has any more. -/
  | lost {row : ImportRow} (hrow : row ∈ t.imports)
      (hzero : row.parentId = 0 ∨ row.childId = some 0) (hlost : ¬ t.KeepsZero) :
      ZeroFault t (.failure (.graph (.unknownFile 0 row.parentPath (some row.locator))))

/-- Tables that keep the id 0 have no row that is at fault for it. -/
theorem KeepsZero.not_zeroFault (h : t.KeepsZero) (e : Error) : ¬ t.ZeroFault e := by
  rintro (⟨-, -, hzero, hnonneg⟩ | ⟨-, -, hlost⟩)
  · have hle := hnonneg _ (h hzero)
    omega
  · exact hlost h

end Tables

namespace ImportGraph

variable {g : ImportGraph}

/-- A file with a new path and a new id is added. -/
theorem addFile_of_not_mem {f : SourceFile} (hpath : f.absolutePath ∉ g.idsByPath.keys)
    (hid : g.idFor f ∉ g.table.keys) :
    g.addFile f = .ok (g.withFile f (g.idFor f), g.idFor f) := by
  simp only [addFile, insertFile_of_not_mem hpath hid]

/-- A file whose id is taken is refused. -/
theorem addFile_of_mem {f : SourceFile} (hid : g.idFor f ∈ g.table.keys) :
    g.addFile f = .error (.duplicateFile f.absolutePath) := by
  have h := insertFile_eq f g
  rw [if_pos (by simp [hasId_iff.2 hid])] at h
  simp only [addFile, h]

/-- A new import between files that are there is added. -/
theorem addImport_of_not_mem {e : ImportEdge} (himporter : e.importerId ∈ g.table.keys)
    (htarget : ∀ id, e.targetId = some id → id ∈ g.table.keys) (hkey : e.key ∉ g.edgeKeys) :
    g.addImport e = .ok (g.withEdge e) := by
  simp only [addImport, insertImport_of_not_mem himporter htarget hkey]

/-- An import of which one end is no file of the graph is refused for that end, the importer
first. -/
theorem addImport_of_missing {e : ImportEdge}
    (h : ¬ (e.importerId ∈ g.table.keys ∧ ∀ id, e.targetId = some id → id ∈ g.table.keys)) :
    ∃ id, (e.importerId = id ∨ e.targetId = some id) ∧ id ∉ g.table.keys ∧
      g.addImport e = .error (.unknownFile id e.importerPath (some e.locator)) := by
  have heq := insertImport_eq e g
  -- The importer is looked up first, and the error names the one that is missing.
  by_cases himporter : e.importerId ∈ g.table.keys
  · simp only [himporter, true_and, not_forall] at h
    obtain ⟨id, htarget, hmissing⟩ := h
    refine ⟨id, .inr htarget, hmissing, ?_⟩
    simp only [hasId_iff.2 himporter, htarget, Option.any_some, hasId_eq_false_iff.2 hmissing,
      Option.getD_some, Bool.not_true, Bool.not_false, Bool.false_eq_true, ↓reduceIte] at heq
    simp only [addImport, heq]
  · refine ⟨_, .inl rfl, himporter, ?_⟩
    simp only [hasId_eq_false_iff.2 himporter, Bool.not_false, ↓reduceIte] at heq
    simp only [addImport, heq]

end ImportGraph

namespace Store

variable {g : ImportGraph} {host : Host} {t : Tables}

/-! ## Rows of files -/

/-- Among rows by ascending id, those before a row are those with a smaller id. -/
theorem mem_ids_before {before after : List FileRow} {row : FileRow} (hrules : t.KeepsRules)
    (hrows : t.filesById = before ++ row :: after) (id : Int) :
    id ∈ before.map (·.id) ↔ id ∈ t.ids ∧ id < row.id := by
  have hsorted := Tables.pairwise_filesById hrules
  rw [hrows, List.pairwise_append, List.pairwise_cons] at hsorted
  obtain ⟨-, ⟨hafter, -⟩, hbefore⟩ := hsorted
  -- The rows are ordered by id, so those before this one have the smaller ids.
  have hids : id ∈ t.ids ↔ id ∈ (before ++ row :: after).map (·.id) := by
    rw [← hrows]
    exact ((t.filesById_perm.map _).mem_iff).symm
  simp only [hids, List.map_append, List.map_cons, List.mem_append, List.mem_cons]
  constructor
  · intro hid
    obtain ⟨row', hrow', rfl⟩ := List.mem_map.1 hid
    exact ⟨.inl hid, hbefore row' hrow' row List.mem_cons_self⟩
  · rintro ⟨hid | rfl | hid, hlt⟩
    · exact hid
    · omega
    · obtain ⟨row', hrow', rfl⟩ := List.mem_map.1 hid
      have hgt := hafter row' hrow'
      omega

/-- A graph has the files of some rows, none of which is invalid, and no imports yet. -/
structure HasFiles (t : Tables) (rows : List FileRow) (g : ImportGraph) : Prop where
  consistent : g.Consistent
  files : g.files = rows.map t.loadedFile
  edges : g.edges = []
  sound : ∀ row ∈ rows, (fileOfRow row).fault? = none

namespace HasFiles

variable {before after : List FileRow} {row : FileRow}

/-- Once some rows are loaded, their ids are keys. -/
theorem keys_table (hg : HasFiles t before g) :
    g.table.keys = before.map fun row => t.loadedId row.id := by
  rw [hg.consistent.keys_table, hg.files, List.map_map]
  rfl

/-- After the rows with smaller ids, a row gets the id that is said by `Tables.loadedId`. -/
theorem idFor_eq (hg : HasFiles t before g) (hrules : t.KeepsRules)
    (hrows : t.filesById = before ++ row :: after) :
    g.idFor (fileOfRow row) = t.loadedId row.id := by
  have hbefore := mem_ids_before hrules hrows
  unfold ImportGraph.idFor Tables.loadedId
  by_cases hzero : row.id = 0
  · -- The rows before the one with the id 0 are those with negative ids, which they keep.
    have hkeys : g.table.keys = before.map (·.id) := by
      rw [hg.keys_table]
      refine List.map_congr_left fun row' hrow' => Tables.loadedId_of_ne ?_
      have hlt := ((hbefore _).1 (List.mem_map.2 ⟨row', hrow', rfl⟩)).2
      omega
    rw [if_pos (show (fileOfRow row).id = 0 from hzero), if_pos hzero, hkeys]
    refine nextId_congr fun id => ?_
    rw [hbefore, List.mem_filter, decide_eq_true_eq, hzero]
  · exact (if_neg (show ¬ (fileOfRow row).id = 0 from hzero)).trans (if_neg hzero).symm

/-- A valid row whose id is free comes after the others. -/
theorem append (hg : HasFiles t before g) (hrules : t.KeepsRules)
    (hrows : t.filesById = before ++ row :: after) (hsound : (fileOfRow row).fault? = none)
    (hfree : t.loadedId row.id ∉ g.table.keys) :
    ∃ g', loadFile g row = .ok g' ∧ HasFiles t (before ++ [row]) g' := by
  have hid := hg.idFor_eq hrules hrows
  -- Two rows of one table differ in their paths, so the graph has no file at this one yet.
  have hpath : (fileOfRow row).absolutePath ∉ g.idsByPath.keys := by
    have hnodup := (t.filesById_perm.map FileRow.absolutePath).nodup_iff.2 hrules.nodup_paths
    rw [hrows] at hnodup
    rw [hg.consistent.keys_idsByPath, hg.files, List.map_map]
    exact List.not_mem_map_of_nodup_append hnodup
  have hadd := ImportGraph.addFile_of_not_mem hpath (hid.symm ▸ hfree)
  rw [hid] at hadd
  refine ⟨g.withFile (fileOfRow row) (t.loadedId row.id), ?_, hg.consistent.withFile hpath hfree,
    ?_, hg.edges, ?_⟩
  · simp only [loadFile, hsound, hadd]
  · rw [ImportGraph.files_withFile hpath hfree, hg.files, List.map_append]
    rfl
  · rw [List.forall_mem_append, List.forall_mem_singleton]
    exact ⟨hg.sound, hsound⟩

end HasFiles

/-- A row is loaded after the rows before it, or it is at fault. -/
theorem loadFile_cases {before after : List FileRow} {row : FileRow} (hrules : t.KeepsRules)
    (hrows : t.filesById = before ++ row :: after) (hg : HasFiles t before g) :
    (∃ g', loadFile g row = .ok g' ∧ HasFiles t (before ++ [row]) g') ∨
      ∃ e, loadFile g row = .error e ∧ (t.RowFault e ∨ t.ZeroFault e) := by
  have hrow : row ∈ t.files := t.filesById_perm.mem_iff.1 (by simp [hrows])
  cases hfault : (fileOfRow row).fault? with
  | some fault =>
    refine .inr ⟨_, ?_, .inl (.file hrow hfault)⟩
    simp only [loadFile, hfault]
    rfl
  | none =>
    by_cases hfree : t.loadedId row.id ∈ g.table.keys
    · -- The id is that of a row before, which can only be the one with the id 0.
      rw [hg.keys_table] at hfree
      obtain ⟨row', hrow', hsame⟩ := List.mem_map.1 hfree
      obtain ⟨hid, hlt⟩ := (mem_ids_before hrules hrows row'.id).1
        (List.mem_map.2 ⟨row', hrow', rfl⟩)
      obtain ⟨hzero, hone, hnonneg⟩ := Tables.loadedId_collides hid hlt hsame
      refine .inr ⟨_, ?_, .inr (.taken hrow hone (hzero ▸ hid) hnonneg)⟩
      rw [← hg.keys_table, ← hg.idFor_eq hrules hrows] at hfree
      simp only [loadFile, hfault, ImportGraph.addFile_of_mem hfree]
      rfl
    · exact .inl (hg.append hrules hrows hfault hfree)

/-! ## Rows of imports -/

/-- A graph has the files of all rows and the imports of some rows, none of which is invalid. -/
structure HasImports (t : Tables) (rows : List ImportRow) (g : ImportGraph) : Prop where
  consistent : g.Consistent
  files : g.files = t.filesById.map t.loadedFile
  edges : g.edges = rows.map edgeOfRow
  fileSound : ∀ row ∈ t.files, (fileOfRow row).fault? = none
  sound : ∀ row ∈ rows, (edgeOfRow row).fault? = none

/-- With all files loaded, imports may be. -/
theorem HasFiles.hasImports (hg : HasFiles t t.filesById g) : HasImports t [] g :=
  ⟨hg.consistent, hg.files, hg.edges,
    fun row hrow => hg.sound row (t.filesById_perm.mem_iff.2 hrow), by simp⟩

namespace HasImports

variable {before after : List ImportRow} {row : ImportRow} {id : Int}

/-- Each key is the loaded id of some row. -/
theorem mem_keys_iff (hg : HasImports t before g) :
    id ∈ g.table.keys ↔ ∃ id' ∈ t.ids, t.loadedId id' = id := by
  rw [hg.consistent.keys_table, hg.files, List.map_map, (t.filesById_perm.map _).mem_iff]
  simp [Tables.ids, Tables.loadedFile]

/-- An id in use that is no id of the graph is 0. -/
theorem eq_zero_of_not_mem (hg : HasImports t before g) (hid : id ∈ t.ids)
    (hmissing : id ∉ g.table.keys) : id = 0 ∧ ¬ t.KeepsZero := by
  have hmoved : t.loadedId id ≠ id := fun heq => hmissing (hg.mem_keys_iff.2 ⟨id, hid, heq⟩)
  refine ⟨?_, fun hzero => hmoved (hzero.loadedId_eq hid)⟩
  by_contra hne
  exact hmoved (Tables.loadedId_of_ne hne)

/-- A valid row that refers to files of the graph comes after the others. -/
theorem append (hg : HasImports t before g) (hrules : t.KeepsRules)
    (hrows : t.importsById = before ++ row :: after) (hsound : (edgeOfRow row).fault? = none)
    (himporter : row.parentId ∈ g.table.keys)
    (htarget : ∀ id, row.childId = some id → id ∈ g.table.keys) :
    ∃ g', loadEdge g row = .ok g' ∧ HasImports t (before ++ [row]) g' := by
  -- Two rows of one table differ in their keys, so the graph has no edge of this one yet.
  have hkey : (edgeOfRow row).key ∉ g.edgeKeys := by
    have hnodup := (t.importsById_perm.map fun row => (edgeOfRow row).key).nodup_iff.2
      hrules.nodup_keys
    rw [hrows] at hnodup
    rw [hg.consistent.edgeKeys_eq, List.mem_reverse, hg.edges, List.map_map]
    exact List.not_mem_map_of_nodup_append hnodup
  have hadd := ImportGraph.addImport_of_not_mem (e := edgeOfRow row) himporter htarget hkey
  refine ⟨g.withEdge (edgeOfRow row), ?_, hg.consistent.withEdge himporter htarget hkey, hg.files,
    ?_, hg.fileSound, ?_⟩
  · simp only [loadEdge, ImportEdge.checked, hsound, hadd, Except.mapError]
  · rw [List.map_append, ← hg.edges]
    rfl
  · rw [List.forall_mem_append, List.forall_mem_singleton]
    exact ⟨hg.sound, hsound⟩

end HasImports

/-- A row is loaded after the rows before it, or it is at fault. -/
theorem loadEdge_cases {before after : List ImportRow} {row : ImportRow} (hrules : t.KeepsRules)
    (hrows : t.importsById = before ++ row :: after) (hg : HasImports t before g) :
    (∃ g', loadEdge g row = .ok g' ∧ HasImports t (before ++ [row]) g') ∨
      ∃ e, loadEdge g row = .error e ∧ (t.RowFault e ∨ t.ZeroFault e) := by
  have hrow : row ∈ t.imports := t.importsById_perm.mem_iff.1 (by simp [hrows])
  cases hfault : (edgeOfRow row).fault? with
  | some fault =>
    refine .inr ⟨_, ?_, .inl (.edge hrow hfault)⟩
    simp only [loadEdge, ImportEdge.checked, hfault]
  | none =>
    by_cases hends : row.parentId ∈ g.table.keys ∧ ∀ id, row.childId = some id → id ∈ g.table.keys
    · exact .inl (hg.append hrules hrows hfault hends.1 hends.2)
    · -- The tables have a row for the end that is missing, so it is the one with the id 0.
      obtain ⟨id, hend, hmissing, hadd⟩ :=
        ImportGraph.addImport_of_missing (g := g) (e := edgeOfRow row) hends
      have hid : id ∈ t.ids := hend.elim (fun h => h ▸ hrules.parent_mem row hrow)
        (hrules.child_mem row hrow id)
      obtain ⟨rfl, hlost⟩ := hg.eq_zero_of_not_mem hid hmissing
      refine .inr ⟨_, ?_, .inr (.lost hrow hend hlost)⟩
      simp only [loadEdge, ImportEdge.checked, hfault, hadd, Except.mapError]
      rfl

/-! ## Whole tables -/

/-- A graph that has all rows shows that none of them is at fault. -/
theorem HasImports.not_fault (hg : HasImports t t.importsById g) (e : Error) :
    ¬ t.RowFault e ∧ ¬ t.ZeroFault e := by
  constructor
  · rintro (⟨hrow, hfault⟩ | ⟨hrow, hfault⟩)
    · simp [hg.fileSound _ hrow] at hfault
    · simp [hg.sound _ (t.importsById_perm.mem_iff.2 hrow)] at hfault
  · rintro (⟨hrow, hone, hzero, hnonneg⟩ | @⟨row, hrow, hzero, hlost⟩)
    · -- The rows with the ids 0 and 1 would be two files with one id.
      obtain ⟨row', hrow', hid'⟩ := List.mem_map.1 hzero
      have hnodup := hg.consistent.nodup_ids
      rw [hg.files, List.map_map, (t.filesById_perm.map _).nodup_iff] at hnodup
      have hsame := List.inj_on_of_nodup_map hnodup hrow hrow' (by
        simp only [Function.comp_apply, Tables.loadedFile, hone, hid',
          Tables.loadedId_zero_of_nonneg hnonneg]
        exact Tables.loadedId_of_ne (by decide))
      rw [hsame, hid'] at hone
      omega
    · have hedge : edgeOfRow row ∈ g.edges :=
        hg.edges ▸ List.mem_map.2 ⟨row, t.importsById_perm.mem_iff.2 hrow, rfl⟩
      have hmem : 0 ∈ g.table.keys := by
        rw [hg.consistent.keys_table]
        exact hzero.elim (fun h => h ▸ hg.consistent.importer_mem _ hedge)
          (hg.consistent.target_mem _ hedge 0)
      obtain ⟨id, -, hid⟩ := hg.mem_keys_iff.1 hmem
      exact Tables.loadedId_ne_zero hlost id hid

/-- Tables that keep their rules are put into a graph, or a row is at fault. -/
theorem graphOfTables_cases (hrules : t.KeepsRules) :
    (∃ g, graphOfTables t = .ok g ∧ HasImports t t.importsById g) ∨
      ∃ e, graphOfTables t = .error e ∧ (t.RowFault e ∨ t.ZeroFault e) := by
  unfold graphOfTables
  have hempty : HasFiles t [] .empty := ⟨ImportGraph.consistent_empty, rfl, rfl, by simp⟩
  -- First the rows of files are taken, then those of imports.
  rcases Except.foldlM_cases (fun _ _ _ _ hrows hg => loadFile_cases hrules hrows hg) hempty with
    ⟨g, hfiles, hg⟩ | ⟨e, herror, he⟩
  · rw [hfiles]
    exact Except.foldlM_cases (fun _ _ _ _ hrows hg => loadEdge_cases hrules hrows hg) hg.hasImports
  · rw [herror]
    exact .inr ⟨e, rfl, he⟩

/-- Loading leaves the database as it is. It gives the graph of the tables, or the error of a row
that is at fault. -/
theorem load_cases (ht : tables host = .ok t host) (hrules : t.KeepsRules) :
    (∃ g, load host = .ok g host ∧ HasImports t t.importsById g) ∨
      ∃ e, load host = .error e host ∧ (t.RowFault e ∨ t.ZeroFault e) := by
  unfold load
  rw [EStateM.bind_of_ok _ ht]
  -- Loading reads the tables and builds, without a change of them.
  rcases graphOfTables_cases hrules with ⟨g, hload, hg⟩ | ⟨e, herror, he⟩
  · rw [hload]
    exact .inl ⟨g, rfl, hg⟩
  · rw [herror]
    exact .inr ⟨e, rfl, he⟩

/-- A graph has the rows of tables, by ascending id and each as it stands. -/
structure Mirrors (g : ImportGraph) (t : Tables) : Prop where
  files : g.files = t.filesById.map fileOfRow
  edges : g.edges = t.importsById.map edgeOfRow

/-- The graph that is loaded mirrors the tables exactly if they keep the id 0. -/
theorem HasImports.mirrors_iff (hg : HasImports t t.importsById g) :
    Mirrors g t ↔ t.KeepsZero := by
  constructor
  · rintro ⟨hfiles, -⟩
    -- If the id 0 was given anew, the row with it is one that does not come back as it is.
    by_contra hlost
    simp only [Tables.KeepsZero, Classical.not_imp] at hlost
    obtain ⟨row, hrow, hid⟩ := List.mem_map.1 hlost.1
    rw [hg.files, List.map_inj_left] at hfiles
    have hsame := congrArg SourceFile.id (hfiles row (t.filesById_perm.mem_iff.2 hrow))
    simp only [Tables.loadedFile, fileOfRow, hid] at hsame
    exact Tables.loadedId_ne_zero (fun h => hlost.2 (h hlost.1)) 0 hsame
  · intro hzero
    refine ⟨?_, hg.edges⟩
    rw [hg.files]
    refine List.map_congr_left fun row hrow => ?_
    have hid := hzero.loadedId_eq
      (List.mem_map.2 ⟨row, t.filesById_perm.mem_iff.1 hrow, rfl⟩)
    rw [Tables.loadedFile, hid]
    rfl

/-- Tables that keep the id 0 are loaded as they stand, unless a row is invalid, and then with the
error of such a row. Where the id 0 is not kept, its file gets another id, or a row is refused that
is valid by itself: the one with the id 1, or an import that refers to 0. -/
theorem load_mirrors (ht : tables host = .ok t host) (hrules : t.KeepsRules) :
    (t.KeepsZero →
      (∃ g, load host = .ok g host ∧ Mirrors g t ∧ ∀ e, ¬ t.RowFault e) ∨
        ∃ e, load host = .error e host ∧ t.RowFault e) ∧
    (¬ t.KeepsZero →
      (∃ g, load host = .ok g host ∧ ¬ Mirrors g t ∧
          g.files = t.filesById.map t.loadedFile ∧ g.edges = t.importsById.map edgeOfRow ∧
            ∀ e, ¬ t.RowFault e ∧ ¬ t.ZeroFault e) ∨
        ∃ e, load host = .error e host ∧ (t.RowFault e ∨ t.ZeroFault e)) := by
  refine ⟨fun hzero => ?_, fun hlost => ?_⟩
  · rcases load_cases ht hrules with ⟨g, hload, hg⟩ | ⟨e, hload, he⟩
    · exact .inl ⟨g, hload, hg.mirrors_iff.2 hzero, fun e => (hg.not_fault e).1⟩
    · exact .inr ⟨e, hload, he.resolve_right (hzero.not_zeroFault e)⟩
  · rcases load_cases ht hrules with ⟨g, hload, hg⟩ | ⟨e, hload, he⟩
    · exact .inl ⟨g, hload, mt hg.mirrors_iff.1 hlost, hg.files, hg.edges, hg.not_fault⟩
    · exact .inr ⟨e, hload, he⟩

/-- A host with an open database in memory. -/
def holding (t : Tables) : Host where
  tree := .empty
  folder := []
  environment := []
  replies := []
  connection := some { storage := .memory (some t) }
  stamp := ""

/-- Tables whose rows do not stand in the order of their ids, and in which 0 comes after -1. -/
def tablesAroundZero : Tables where
  files := [⟨0, "/p/b.js", "b.js", "b.js", some "js"⟩, ⟨-1, "/p/a.js", "a.js", "a.js", some "js"⟩,
    ⟨-7, "/p/c", "c", "c", none⟩]
  imports := [⟨5, 0, "b.js", "./a", some .localFile, some (-1), some "/p/a.js"⟩,
    ⟨2, -1, "a.js", "./b", none, some 0, none⟩]

/-- The example keeps the rules. -/
theorem keepsRules_tablesAroundZero : tablesAroundZero.KeepsRules := by
  constructor <;> decide

/-- Rows are loaded by ascending id, an extension that is missing as an empty one. -/
theorem load_mirrors_around_zero :
    ∃ g, load (holding tablesAroundZero) = .ok g (holding tablesAroundZero) ∧
      g.files.map (fun f => (f.id, f.extension)) = [(-7, ""), (-1, "js"), (0, "js")] ∧
      g.edges.map (fun e => (e.importerId, e.locator, e.targetId)) =
        [(-1, "./b", some 0), (0, "./a", some (-1))] := by
  have htables : tables (holding tablesAroundZero) =
      .ok tablesAroundZero (holding tablesAroundZero) := rfl
  rcases (load_mirrors htables keepsRules_tablesAroundZero).1 (by decide) with
    ⟨g, hload, hg, -⟩ | ⟨e, -, he⟩
  · refine ⟨g, hload, ?_, ?_⟩
    · simp [hg.files, Tables.filesById, tablesAroundZero, List.mergeSort, fileOfRow]
    · simp [hg.edges, Tables.importsById, tablesAroundZero, List.mergeSort, edgeOfRow]
  · -- All texts of the rows are valid.
    have hfiles : ∀ row ∈ tablesAroundZero.files, (fileOfRow row).fault? = none := by decide
    have himports : ∀ row ∈ tablesAroundZero.imports, (edgeOfRow row).fault? = none := by decide
    rcases he with ⟨hrow, hfault⟩ | ⟨hrow, hfault⟩
    · simp [hfiles _ hrow] at hfault
    · simp [himports _ hrow] at hfault

/-- A row that was inserted under the id 0 is loaded under the id 1. -/
theorem load_moves_zero :
    ∃ host t g, insertFile (.int 0) (.text "/p/a.js") (.text "a.js") (.text "a.js") (.text "js")
        (holding .empty) = .ok () host ∧
      tables host = .ok t host ∧ t.KeepsRules ∧ t.ids = [0] ∧
      load host = .ok g host ∧ g.files = [⟨"/p/a.js", "a.js", "a.js", "js", 1⟩] ∧
      ¬ Mirrors g t := by
  let row : FileRow := ⟨0, "/p/a.js", "a.js", "a.js", some "js"⟩
  have hfiles : Tables.filesById ⟨[row], []⟩ = [row] := List.mergeSort_singleton _
  have himports : Tables.importsById ⟨[row], []⟩ = [] := List.mergeSort_nil
  have hload : load (holding ⟨[row], []⟩) =
      .ok (ImportGraph.empty.withFile (fileOfRow row) 1) (holding ⟨[row], []⟩) := by
    have hsound : (fileOfRow row).fault? = none := by decide
    unfold load graphOfTables
    rw [EStateM.bind_of_ok _ (show tables (holding ⟨[row], []⟩) = .ok ⟨[row], []⟩ _ from rfl),
      hfiles, himports, List.foldlM_cons, loadFile, hsound]
    rfl
  refine ⟨holding ⟨[row], []⟩, ⟨[row], []⟩, _, rfl, rfl, ?_, rfl, hload, rfl, ?_⟩
  · constructor <;> decide
  · rintro ⟨hsame, -⟩
    rw [hfiles] at hsame
    revert hsame
    decide

end Store

end ImportAtlas

import ImportAtlas.Proofs.Store.Save
import Mathlib.Data.List.Sort

/-!
# The rules that rows keep

Tables keep their rules whatever has been inserted into them: ids and paths of files are unique, and
so are ids and keys of imports, and an import refers to rows of files alone. Rows may have come from
elsewhere than from a graph, so their ids need not ascend and their texts need not be sound.

## Key results

- `Tables.KeepsRules.insertFile`, `Tables.KeepsRules.insertImport`: what is inserted keeps the rules
- `Tables.IsInserted.keepsRules`: so tables that come about by insertions keep them
- `Tables.pairwise_filesById`, `Tables.pairwise_importsById`: the rows in the order of their ids
- `Tables.Holds.keepsRules`: the rows of a graph whose parts agree keep the rules
-/

namespace ImportAtlas

namespace Tables

variable {t t' : Tables}

/-- The rows keep the rules of their tables. -/
structure KeepsRules (t : Tables) : Prop where
  nodup_ids : (t.files.map (·.id)).Nodup
  nodup_paths : (t.files.map (·.absolutePath)).Nodup
  nodup_importIds : (t.imports.map (·.id)).Nodup
  nodup_keys : (t.imports.map fun row => (Store.edgeOfRow row).key).Nodup
  parent_mem : ∀ row ∈ t.imports, row.parentId ∈ t.files.map (·.id)
  child_mem : ∀ row ∈ t.imports, ∀ id, row.childId = some id → id ∈ t.files.map (·.id)

/-! ## Insertions -/

/-- A row of files that is inserted has an id and a path of its own, and comes last. -/
theorem insertFile_eq_ok {e : FileEntry} (h : t.insertFile e = .ok t') :
    ∃ row, row.id ∉ t.files.map (·.id) ∧ row.absolutePath ∉ t.files.map (·.absolutePath) ∧
      t' = { t with files := t.files ++ [row] } := by
  simp only [insertFile, bind, Except.bind] at h
  split at h
  · cases h
  split at h
  · cases h
  split at h
  · cases h
  -- The three columns are given; what is left are the rules against a second id and a second path.
  rename_i _ absolutePath _ _ relativePath _ _ baseName _
  split at h
  · cases h
  rename_i hid
  split at h
  · cases h
  rename_i hpath
  cases h
  refine ⟨⟨_, absolutePath, relativePath, baseName, e.extension⟩, ?_, ?_, rfl⟩
  · exact fun hmem => hid (hasFile_iff.2 hmem)
  · simpa using hpath

/-- A row of imports that is inserted has an id and a key of its own, refers to rows of files, and
comes last. -/
theorem insertImport_eq_ok {e : ImportEntry} (h : t.insertImport e = .ok t') :
    ∃ row, row.id ∉ t.imports.map (·.id) ∧
      (Store.edgeOfRow row).key ∉ t.imports.map (fun row => (Store.edgeOfRow row).key) ∧
      row.parentId ∈ t.files.map (·.id) ∧
      (∀ id, row.childId = some id → id ∈ t.files.map (·.id)) ∧
      t' = { t with imports := t.imports ++ [row] } := by
  simp only [insertImport, bind, Except.bind] at h
  split at h
  · cases h
  split at h
  · cases h
  split at h
  · cases h
  split at h
  · cases h
  split at h
  · cases h
  -- The four columns are given; what is left are the rules on the key and on the files named.
  rename_i _ parentId _ _ parentPath _ _ locator _ _ kind _
  split at h
  · cases h
  rename_i hkey
  split at h
  · cases h
  rename_i hends
  cases h
  simp only [Bool.or_eq_true, Bool.not_eq_eq_eq_not, Bool.not_true, not_or, Bool.not_eq_false,
    hasFile_iff] at hends
  refine ⟨⟨_, parentId, parentPath, locator, kind, e.childId, e.childPath⟩, fun hmem => ?_, ?_,
    hends.1, fun id hid => ?_, rfl⟩
  · -- The id is above those of all rows.
    obtain ⟨row, hrow, hid⟩ := List.mem_map.1 hmem
    exact absurd hid (lt_nextImportId hrow).ne
  · intro hmem
    obtain ⟨row, hrow, hsame⟩ := List.mem_map.1 hmem
    refine hkey (List.any_eq_true.2 ⟨row, hrow, ?_⟩)
    simpa [ImportEdge.key, Store.edgeOfRow] using hsame
  · by_contra hmissing
    refine hends.2 ((Option.any_eq_true _ _).2 ⟨id, hid, ?_⟩)
    simpa using mt hasFile_iff.1 hmissing

namespace KeepsRules

/-- A file that is inserted keeps the rules. -/
theorem insertFile (ht : t.KeepsRules) {e : FileEntry} (h : t.insertFile e = .ok t') :
    t'.KeepsRules := by
  obtain ⟨row, hid, hpath, rfl⟩ := insertFile_eq_ok h
  constructor
  case nodup_ids =>
    rw [List.map_append]
    exact List.Nodup.append ht.nodup_ids (by simp) (by simpa using hid)
  case nodup_paths =>
    rw [List.map_append]
    exact List.Nodup.append ht.nodup_paths (by simp) (by simpa using hpath)
  case nodup_importIds => exact ht.nodup_importIds
  case nodup_keys => exact ht.nodup_keys
  case parent_mem =>
    intro row' hrow'
    rw [List.map_append]
    exact List.mem_append_left _ (ht.parent_mem row' hrow')
  case child_mem =>
    intro row' hrow' id hid'
    rw [List.map_append]
    exact List.mem_append_left _ (ht.child_mem row' hrow' id hid')

/-- So does an import. -/
theorem insertImport (ht : t.KeepsRules) {e : ImportEntry} (h : t.insertImport e = .ok t') :
    t'.KeepsRules := by
  obtain ⟨row, hid, hkey, hparent, hchild, rfl⟩ := insertImport_eq_ok h
  constructor
  case nodup_ids => exact ht.nodup_ids
  case nodup_paths => exact ht.nodup_paths
  case nodup_importIds =>
    rw [List.map_append]
    exact List.Nodup.append ht.nodup_importIds (by simp) (by simpa using hid)
  case nodup_keys =>
    rw [List.map_append]
    exact List.Nodup.append ht.nodup_keys (by simp) (by simpa using hkey)
  case parent_mem =>
    rw [List.forall_mem_append, List.forall_mem_singleton]
    exact ⟨ht.parent_mem, hparent⟩
  case child_mem =>
    rw [List.forall_mem_append, List.forall_mem_singleton]
    exact ⟨ht.child_mem, hchild⟩

end KeepsRules

/-- Tables that come about by insertions into empty ones. -/
inductive IsInserted : Tables → Prop
  | empty : IsInserted .empty
  | file {t t' : Tables} {e : FileEntry} (ht : IsInserted t) (h : t.insertFile e = .ok t') :
    IsInserted t'
  | edge {t t' : Tables} {e : ImportEntry} (ht : IsInserted t) (h : t.insertImport e = .ok t') :
    IsInserted t'

/-- So all tables that come of insertions keep them. -/
theorem IsInserted.keepsRules (ht : t.IsInserted) : t.KeepsRules := by
  induction ht with
  | empty => constructor <;> simp [Tables.empty]
  | file _ h ih => exact ih.insertFile h
  | edge _ h ih => exact ih.insertImport h

/-! ## Rows in the order of their ids -/

/-- Sorting by ids that are unique gives rows whose ids ascend. -/
theorem pairwise_mergeSort_of_nodup {α : Type} {id : α → Int} {rows : List α}
    (hids : (rows.map id).Nodup) :
    (rows.mergeSort fun a b => id a ≤ id b).Pairwise fun a b => id a < id b := by
  have hsorted : (rows.mergeSort fun a b => id a ≤ id b).Pairwise fun a b => id a ≤ id b := by
    have h : (rows.mergeSort fun a b => id a ≤ id b).Pairwise
        fun a b => decide (id a ≤ id b) = true := by
      refine List.pairwise_mergeSort (fun a b c hab hbc => ?_) (fun a b => ?_) rows
      · simp only [decide_eq_true_eq] at hab hbc ⊢
        omega
      · simp only [Bool.or_eq_true, decide_eq_true_eq]
        omega
    simpa only [decide_eq_true_eq] using h
  have hids' : ((rows.mergeSort fun a b => id a ≤ id b).map id).Nodup :=
    ((List.mergeSort_perm _ _).map _).nodup_iff.2 hids
  -- Ascending without repetition is strictly ascending.
  exact hsorted.imp₂ (fun a b hle hne => by omega) (List.pairwise_map.1 hids')

/-- In order of their ids, the rows ascend. -/
theorem pairwise_filesById (ht : t.KeepsRules) :
    t.filesById.Pairwise fun a b => a.id < b.id :=
  pairwise_mergeSort_of_nodup ht.nodup_ids

/-- They are the same rows in another order. -/
theorem filesById_perm (t : Tables) : t.filesById.Perm t.files :=
  List.mergeSort_perm _ _

theorem importsById_perm (t : Tables) : t.importsById.Perm t.imports :=
  List.mergeSort_perm _ _

/-! ## Rows of a graph -/

/-- The rows of a graph whose parts agree keep the rules. -/
theorem Holds.keepsRules {g : ImportGraph} (hg : g.Consistent) (ht : t.Holds g.files g.edges) :
    t.KeepsRules := by
  have hedge (row) (hrow : row ∈ t.imports) : Store.edgeOfRow row ∈ g.edges :=
    ht.imports ▸ List.mem_map.2 ⟨row, hrow, rfl⟩
  -- Each rule is one of the invariants of the graph, read off the rows.
  constructor
  case nodup_ids => exact ht.ids_eq ▸ hg.nodup_ids
  case nodup_paths => exact ht.paths_eq ▸ hg.nodup_paths
  case nodup_importIds =>
    exact List.pairwise_map.2 (ht.ascending.imp fun h heq => by omega)
  case nodup_keys =>
    have h := hg.nodup_keys
    rwa [← ht.imports, List.map_map] at h
  case parent_mem =>
    intro row hrow
    exact ht.ids_eq ▸ hg.importer_mem _ (hedge row hrow)
  case child_mem =>
    intro row hrow id hid
    exact ht.ids_eq ▸ hg.target_mem _ (hedge row hrow) id hid

end Tables

end ImportAtlas

import ImportAtlas.Graph.Cycle
import ImportAtlas.Proofs.Graph.Component
import ImportAtlas.Proofs.Graph.Insertion
import ImportAtlas.Proofs.List
import Mathlib.Data.List.Lex
import Mathlib.Data.List.Sort
import Mathlib.Data.List.Perm.Subperm
import Mathlib.Data.Set.Function
import Mathlib.Data.String.Basic

/-!
# Import cycles are classes of files that reach each other

The reported groups are tied to imports alone: two files are in one group if and only if each
reaches the other along imports. The listing is in an order that only the paths of the files decide,
since no two groups share a file.

## Key results

- `ImportGraph.mem_successors_adjacency`: the adjacency of a graph says what imports what
- `ImportGraph.cycles_eq`: the listing is that of the groups, sorted
- `ImportGraph.cycles_spec`: what the groups are, and that numbering and order do not matter
-/

namespace ImportAtlas

/-! ## The order of groups -/

namespace CycleGroup

/-- A group stands before another one if it is larger, or of the same size with files that come
first in order. -/
theorem precedes_iff {a b : CycleGroup} :
    a.precedes b = true ↔
      b.files.length < a.files.length ∨ a.files.length = b.files.length ∧ a.files ≤ b.files := by
  simp [precedes]

/-- The order of groups is transitive. -/
theorem precedes_trans (a b c : CycleGroup) (hab : a.precedes b = true)
    (hbc : b.precedes c = true) : a.precedes c = true := by
  rw [precedes_iff] at hab hbc ⊢
  rcases hab with hab | ⟨hab, hab'⟩ <;> rcases hbc with hbc | ⟨hbc, hbc'⟩
  · exact .inl (by omega)
  · exact .inl (by omega)
  · exact .inl (by omega)
  · exact .inr ⟨hab.trans hbc, hab'.trans hbc'⟩

/-- Of two groups one stands before the other. -/
theorem precedes_total (a b : CycleGroup) : (a.precedes b || b.precedes a) = true := by
  rw [Bool.or_eq_true, precedes_iff, precedes_iff]
  rcases Nat.lt_trichotomy a.files.length b.files.length with h | h | h
  · exact .inr (.inl h)
  · exact (le_total a.files b.files).imp (fun h' => .inr ⟨h, h'⟩) fun h' => .inr ⟨h.symm, h'⟩
  · exact .inl (.inl h)

/-- Groups that may stand on either side of each other have the same files. -/
theorem files_eq_of_precedes {a b : CycleGroup} (hab : a.precedes b = true)
    (hba : b.precedes a = true) : a.files = b.files := by
  rw [precedes_iff] at hab hba
  rcases hab with hab | ⟨hab, hab'⟩ <;> rcases hba with hba | ⟨hba, hba'⟩
  · omega
  · omega
  · omega
  · exact le_antisymm hab' hba'

end CycleGroup

namespace ImportGraph

variable {g h : ImportGraph}

/-! ## Reaching along imports -/

/-- The file with id `v` imports the file with id `u`. -/
def Imports (g : ImportGraph) (v u : Int) : Prop :=
  ∃ e ∈ g.edges, e.importerId = v ∧ e.targetId = some u

/-- A file reaches another along imports. -/
def Reaches (g : ImportGraph) : Int → Int → Prop :=
  Relation.ReflTransGen g.Imports

/-- Two files reach each other along imports. -/
def Mutual (g : ImportGraph) (f f' : SourceFile) : Prop :=
  g.Reaches f.id f'.id ∧ g.Reaches f'.id f.id

/-- Imports are added to the entries of their importers. -/
private theorem foldl_adjust (ids : List Int) (es : List ImportEdge) (targets : Int → List Int) :
    es.foldl (fun a e => Dictionary.adjust a e.importerId fun ts => ts ++ e.targetId.toList)
      (ids.map fun id => (id, targets id)) =
    ids.map fun id =>
      (id, targets id ++ (es.filter fun e => e.importerId == id).filterMap (·.targetId)) := by
  induction es generalizing targets with
  | nil => simp
  | cons e es ih =>
    -- The first import changes one entry, to which the others are added.
    have hone : Dictionary.adjust (ids.map fun id => (id, targets id)) e.importerId
        (fun ts => ts ++ e.targetId.toList) =
        ids.map fun id =>
          (id, if id == e.importerId then targets id ++ e.targetId.toList else targets id) := by
      simp only [Dictionary.adjust, List.map_map, Function.comp_def]
      refine List.map_congr_left fun id _ => ?_
      split <;> rfl
    rw [List.foldl_cons, hone, ih]
    refine List.map_congr_left fun id _ => ?_
    by_cases h : id = e.importerId
    · subst h
      cases htarget : e.targetId <;> simp [htarget]
    · simp [h, Ne.symm h]

/-- The adjacency has the targets of the imports of each file, in order. -/
theorem adjacency_eq (g : ImportGraph) :
    g.adjacency =
      g.table.keys.map fun id => (id, (g.importsOf id).filterMap (·.targetId)) := by
  rw [adjacency, foldl_adjust]
  refine List.map_congr_left fun id _ => ?_
  simp only [List.nil_append, resolvedEdges, importsOf, List.filter_filter, List.filterMap_filter,
    ImportEdge.isResolved]
  congr 2
  funext e
  cases e.targetId <;> simp

/-- The nodes of the adjacency are the ids of the files. -/
theorem keys_adjacency (g : ImportGraph) : Dictionary.keys g.adjacency = g.table.keys := by
  rw [adjacency_eq, Dictionary.keys, List.map_map]
  exact List.map_id _

/-- The successors of a file are the targets of its imports. -/
theorem successors_adjacency (hg : g.Consistent) (v : Int) :
    Adjacency.successors g.adjacency v = (g.importsOf v).filterMap (·.targetId) := by
  have hnodup : (Dictionary.keys g.adjacency).Nodup := by
    rw [keys_adjacency, hg.keys_table]
    exact hg.nodup_ids
  unfold Adjacency.successors
  by_cases hv : v ∈ g.table.keys
  · have hmem : (v, (g.importsOf v).filterMap (·.targetId)) ∈ g.adjacency := by
      rw [adjacency_eq]
      exact List.mem_map.2 ⟨v, hv, rfl⟩
    rw [Dictionary.get?_of_mem hnodup hmem, Option.getD_some]
  · -- An id that is not in the graph has no entry, and no imports either.
    have hnone : g.importsOf v = [] := by
      refine List.eq_nil_iff_forall_not_mem.2 fun e he => hv ?_
      obtain ⟨hedge, rfl⟩ := mem_importsOf.1 he
      exact hg.keys_table ▸ hg.importer_mem e hedge
    rw [Dictionary.get?_eq_none_iff.2 (keys_adjacency g ▸ hv), hnone]
    rfl

/-- Its edges are the imports between files. -/
theorem mem_successors_adjacency (hg : g.Consistent) {v u : Int} :
    u ∈ Adjacency.successors g.adjacency v ↔ g.Imports v u := by
  rw [successors_adjacency hg, List.mem_filterMap]
  simp only [mem_importsOf, Imports, and_assoc]

/-- So its paths are the paths of imports. -/
theorem reaches_adjacency (hg : g.Consistent) : Adjacency.Reaches g.adjacency = g.Reaches := by
  unfold Adjacency.Reaches Reaches
  congr 1
  funext v u
  exact propext (mem_successors_adjacency hg)

/-- What a file of the graph reaches is in the graph. -/
theorem Reaches.mem_ids (hg : g.Consistent) {v u : Int} (hvu : g.Reaches v u)
    (hv : v ∈ g.files.map (·.id)) : u ∈ g.files.map (·.id) := by
  induction hvu with
  | refl => exact hv
  | tail _ himports _ =>
    obtain ⟨e, he, -, htarget⟩ := himports
    exact hg.target_mem e he _ htarget

/-! ## Groups of files -/

/-- How many imports stay within a list of files. -/
def importsWithin (g : ImportGraph) (m : List SourceFile) : Nat :=
  g.edges.countP fun e =>
    (m.map (·.id)).contains e.importerId && e.targetId.any (m.map (·.id)).contains

/-- How a list of files is reported. -/
def groupOf (g : ImportGraph) (m : List SourceFile) : CycleGroup where
  files := (m.map (·.relativePath)).mergeSort fun a b => a ≤ b
  internalEdges := g.importsWithin m

/-- The files with the ids in a list. -/
def filesOf (g : ImportGraph) (ids : List Int) : List SourceFile :=
  ids.filterMap g.file?

/-- The groups, in the order in which a walk closes their components. -/
def groups (g : ImportGraph) : List (List SourceFile) :=
  ((Adjacency.components g.adjacency).filter fun c => 2 ≤ c.length).map g.filesOf

/-- The files that belong to a group: all that reach each other, if they are two or more. -/
structure IsGroup (g : ImportGraph) (m : List SourceFile) : Prop where
  subset : m ⊆ g.files
  nodup : m.Nodup
  two_le : 2 ≤ m.length
  mem_iff : ∀ f ∈ m, ∀ f' ∈ g.files, f' ∈ m ↔ g.Mutual f f'

/-- The files of some ids are those of the graph that have one of them. -/
theorem mem_filesOf (hg : g.Consistent) {ids : List Int} {f : SourceFile} :
    f ∈ g.filesOf ids ↔ f ∈ g.files ∧ f.id ∈ ids := by
  simp only [filesOf, List.mem_filterMap, hg.file?_eq_some_iff]
  constructor
  · rintro ⟨_, hid, hf, rfl⟩
    exact ⟨hf, hid⟩
  · rintro ⟨hf, hid⟩
    exact ⟨f.id, hid, hf, rfl⟩

/-- From ids of the graph one gets files with just these ids. -/
theorem map_id_filesOf (hg : g.Consistent) {ids : List Int}
    (hids : ids ⊆ g.files.map (·.id)) : (g.filesOf ids).map (·.id) = ids := by
  induction ids with
  | nil => rfl
  | cons id ids ih =>
    obtain ⟨hid, hrest⟩ := List.cons_subset.1 hids
    obtain ⟨f, hf, rfl⟩ := List.mem_map.1 hid
    -- Each id is the id of one file, so no look-up fails.
    have hfile : g.file? f.id = some f := hg.file?_eq_some_iff.2 ⟨hf, rfl⟩
    have hcons : g.filesOf (f.id :: ids) = f :: g.filesOf ids := by
      rw [filesOf, List.filterMap_cons, hfile]
      rfl
    rw [hcons, List.map_cons, ih hrest]

/-- The nodes of a component are ids of the graph. -/
theorem component_subset (hg : g.Consistent) {c : List Int}
    (hc : c ∈ Adjacency.components g.adjacency) : c ⊆ g.files.map (·.id) := by
  intro v hv
  obtain ⟨k, hk, hkv⟩ := Adjacency.mem_components_iff.1 ⟨c, hc, hv⟩
  rw [reaches_adjacency hg] at hkv
  rw [keys_adjacency, hg.keys_table] at hk
  exact hkv.mem_ids hg hk

/-- Each file is in a component. -/
theorem exists_component (hg : g.Consistent) {f : SourceFile} (hf : f ∈ g.files) :
    ∃ c ∈ Adjacency.components g.adjacency, f.id ∈ c := by
  refine Adjacency.mem_components_iff.2 ⟨f.id, ?_, .refl _⟩
  rw [keys_adjacency, hg.keys_table]
  exact List.mem_map.2 ⟨f, hf, rfl⟩

/-- A component has each id once. -/
theorem nodup_component {c : List Int} (hc : c ∈ Adjacency.components g.adjacency) : c.Nodup :=
  (List.nodup_flatten.1 (Adjacency.nodup_flatten_components g.adjacency)).1 c hc

/-- The files of a component of two or more are a group. -/
theorem isGroup_filesOf (hg : g.Consistent) {c : List Int}
    (hc : c ∈ Adjacency.components g.adjacency) (htwo : 2 ≤ c.length) :
    g.IsGroup (g.filesOf c) := by
  have hids := map_id_filesOf hg (component_subset hg hc)
  constructor
  case subset => exact fun f hf => ((mem_filesOf hg).1 hf).1
  case nodup =>
    have hnodup := nodup_component hc
    rw [← hids] at hnodup
    exact hnodup.of_map _
  case two_le => rwa [← hids, List.length_map] at htwo
  case mem_iff =>
    intro f hf f' hf'
    -- A component is a class of nodes that reach each other, told by their ids here.
    have hclass := (Adjacency.isComponent_of_mem hc).mem_iff f.id ((mem_filesOf hg).1 hf).2 f'.id
    rw [mem_filesOf hg, Mutual, ← reaches_adjacency hg]
    exact (and_iff_right hf').trans hclass

/-- Counting the successors of a component within it counts the imports that stay within. -/
theorem cycleGroup_eq (hg : g.Consistent) {c : List Int}
    (hc : c ∈ Adjacency.components g.adjacency) :
    g.cycleGroup g.adjacency c = g.groupOf (g.filesOf c) := by
  -- Node by node, each import is met at its importer.
  have hsuccessors : c.flatMap (Adjacency.successors g.adjacency) =
      (c.flatMap fun v => g.edges.filter fun e => e.importerId == v).filterMap (·.targetId) := by
    rw [List.filterMap_flatMap]
    exact List.flatMap_congr fun v _ => successors_adjacency hg v
  have hwithin : (c.flatMap (Adjacency.successors g.adjacency)).countP c.contains =
      g.importsWithin (g.filesOf c) := by
    rw [hsuccessors, List.countP_filterMap, List.countP_flatMap_filter _ (nodup_component hc),
      importsWithin, map_id_filesOf hg (component_subset hg hc)]
    congr 1
    funext e
    cases e.targetId <;> rfl
  simp only [cycleGroup, hwithin, groupOf, filesOf]

/-- The listing is that of the groups, sorted. -/
theorem cycles_eq (hg : g.Consistent) :
    g.cycles =
      (g.groups.mergeSort fun m m' => (g.groupOf m).precedes (g.groupOf m')).map g.groupOf := by
  rw [List.map_mergeSort (s := CycleGroup.precedes) fun _ _ _ _ => rfl, cycles, groups,
    List.map_map]
  congr 1
  refine List.map_congr_left fun c hc => ?_
  exact cycleGroup_eq hg (List.mem_filter.1 hc).1

namespace IsGroup

variable {m m' : List SourceFile} {f : SourceFile}

/-- A group has another file than any given one. -/
theorem exists_ne (hm : g.IsGroup m) (f : SourceFile) : ∃ f' ∈ m, f' ≠ f := by
  by_contra hall
  simp only [not_exists, not_and, not_not] at hall
  have hsub : m ⊆ [f] := fun f' hf' => List.mem_singleton.2 (hall f' hf')
  have hle : m.length ≤ [f].length := (List.subperm_of_subset hm.nodup hsub).length_le
  exact absurd (Nat.le_trans hm.two_le hle) (by simp)

/-- The files of a group differ in their ids. -/
theorem nodup_ids (hm : g.IsGroup m) (hg : g.Consistent) : (m.map (·.id)).Nodup :=
  hm.nodup.map_on fun _ hf _ hf' h =>
    List.inj_on_of_nodup_map hg.nodup_ids (hm.subset hf) (hm.subset hf') h

/-- Each file of a group imports a file of the group. -/
theorem exists_imports (hm : g.IsGroup m) (hg : g.Consistent) (hf : f ∈ m) :
    ∃ f' ∈ m, g.Imports f.id f'.id := by
  obtain ⟨f', hf', hne⟩ := hm.exists_ne f
  obtain ⟨hto, hback⟩ := (hm.mem_iff f hf f' (hm.subset hf')).1 hf'
  -- The first import on the way to `f'` leads to a file that reaches `f'`, and so `f` again.
  rcases Relation.ReflTransGen.cases_head hto with hid | ⟨u, himports, hu⟩
  · exact absurd (List.inj_on_of_nodup_map hg.nodup_ids (hm.subset hf) (hm.subset hf') hid).symm hne
  · have hu' : u ∈ g.files.map (·.id) :=
      Reaches.mem_ids hg (.single himports) (List.mem_map.2 ⟨f, hm.subset hf, rfl⟩)
    obtain ⟨f'', hf'', rfl⟩ := List.mem_map.1 hu'
    refine ⟨f'', ?_, himports⟩
    exact (hm.mem_iff f hf f'' hf'').2
      ⟨Relation.ReflTransGen.single himports, Relation.ReflTransGen.trans hu hback⟩

/-- A group has no fewer imports within it than files: each of its files imports one of them. -/
theorem length_le_importsWithin (hm : g.IsGroup m) (hg : g.Consistent) :
    m.length ≤ g.importsWithin m := by
  -- The importers of the imports within the group are all its files.
  have hsub : m.map (·.id) ⊆ (g.edges.filter fun e =>
      (m.map (·.id)).contains e.importerId && e.targetId.any (m.map (·.id)).contains).map
        (·.importerId) := by
    intro id hid
    obtain ⟨f, hf, rfl⟩ := List.mem_map.1 hid
    obtain ⟨f', hf', e, he, himporter, htarget⟩ := hm.exists_imports hg hf
    refine List.mem_map.2 ⟨e, List.mem_filter.2 ⟨he, ?_⟩, himporter⟩
    have hf'id : f'.id ∈ m.map (·.id) := List.mem_map.2 ⟨f', hf', rfl⟩
    rw [himporter, htarget, Option.any_some, Bool.and_eq_true]
    exact ⟨List.contains_iff_mem.2 hid, List.contains_iff_mem.2 hf'id⟩
  have hle := (List.subperm_of_subset (hm.nodup_ids hg) hsub).length_le
  rwa [List.length_map, List.length_map, ← List.countP_eq_length_filter] at hle

/-- Two groups with a file in common have the same files. -/
theorem perm_of_mem (hm : g.IsGroup m) (hm' : g.IsGroup m') (hf : f ∈ m) (hf' : f ∈ m') :
    m.Perm m' := by
  refine (List.perm_ext_iff_of_nodup hm.nodup hm'.nodup).2 fun x => ?_
  have hiff (hx : x ∈ g.files) : x ∈ m ↔ x ∈ m' :=
    (hm.mem_iff f hf x hx).trans (hm'.mem_iff f hf' x hx).symm
  exact ⟨fun hx => (hiff (hm.subset hx)).1 hx, fun hx => (hiff (hm'.subset hx)).2 hx⟩

end IsGroup

/-- In which order the files of a group are listed does not matter. -/
theorem groupOf_perm {m m' : List SourceFile} (hperm : m.Perm m') : g.groupOf m = g.groupOf m' := by
  -- The order that the members come in does not outlast the sort.
  have hfiles : (m.map (·.relativePath)).mergeSort (fun a b => a ≤ b) =
      (m'.map (·.relativePath)).mergeSort fun a b => a ≤ b := by
    refine List.Perm.eq_of_pairwise' (List.pairwise_mergeSort' (· ≤ ·) _)
      (List.pairwise_mergeSort' (· ≤ ·) _) ?_
    exact (List.mergeSort_perm _ _).trans ((hperm.map _).trans (List.mergeSort_perm _ _).symm)
  have hwithin : g.importsWithin m = g.importsWithin m' := by
    have hids (id : Int) : (m.map (·.id)).contains id = (m'.map (·.id)).contains id :=
      Bool.eq_iff_iff.2 (by
        rw [List.contains_iff_mem, List.contains_iff_mem]
        exact (hperm.map _).mem_iff)
    unfold importsWithin
    congr 1
    funext e
    rw [hids, funext hids]
  rw [groupOf, groupOf, hfiles, hwithin]

/-- What the search for components finds is a group. -/
theorem isGroup_of_mem (hg : g.Consistent) {m : List SourceFile} (hm : m ∈ g.groups) :
    g.IsGroup m := by
  obtain ⟨c, hc, rfl⟩ := List.mem_map.1 hm
  obtain ⟨hc, htwo⟩ := List.mem_filter.1 hc
  exact isGroup_filesOf hg hc (by simpa using htwo)

/-- Two files that reach each other are in a group. -/
theorem exists_group_of_mutual (hg : g.Consistent) {f f' : SourceFile} (hf : f ∈ g.files)
    (hf' : f' ∈ g.files) (hne : f ≠ f') (hmutual : g.Mutual f f') :
    ∃ m ∈ g.groups, f ∈ m ∧ f' ∈ m := by
  obtain ⟨c, hc, hfc⟩ := exists_component hg hf
  have hfc' : f'.id ∈ c := by
    rw [Mutual, ← reaches_adjacency hg] at hmutual
    exact ((Adjacency.isComponent_of_mem hc).mem_iff f.id hfc f'.id).2 hmutual
  -- Both files are in the component, which is therefore one of those listed.
  have htwo : 2 ≤ c.length := by
    have hids : f.id ≠ f'.id := fun h => hne (List.inj_on_of_nodup_map hg.nodup_ids hf hf' h)
    have hpair : [f.id, f'.id].Nodup := by simpa using hids
    exact (List.subperm_of_subset hpair (by simp [hfc, hfc'])).length_le
  have hmem : g.filesOf c ∈ g.groups :=
    List.mem_map.2 ⟨c, List.mem_filter.2 ⟨hc, by simpa using htwo⟩, rfl⟩
  exact ⟨_, hmem, (mem_filesOf hg).2 ⟨hf, hfc⟩, (mem_filesOf hg).2 ⟨hf', hfc'⟩⟩

/-- Every group is listed, in some order of its files. -/
theorem exists_perm_of_isGroup (hg : g.Consistent) {m : List SourceFile} (hm : g.IsGroup m) :
    ∃ m' ∈ g.groups, m.Perm m' := by
  obtain ⟨f, hf⟩ := List.exists_mem_of_length_pos (Nat.lt_of_lt_of_le Nat.zero_lt_two hm.two_le)
  obtain ⟨f', hf', hne⟩ := hm.exists_ne f
  have hmutual := (hm.mem_iff f hf f' (hm.subset hf')).1 hf'
  obtain ⟨m', hm', hfm', -⟩ :=
    exists_group_of_mutual hg (hm.subset hf) (hm.subset hf') hne.symm hmutual
  exact ⟨m', hm', hm.perm_of_mem (isGroup_of_mem hg hm') hf hfm'⟩

/-- No file is in two groups, or twice in one. -/
theorem nodup_flatten_groups (hg : g.Consistent) : g.groups.flatten.Nodup := by
  have hnodup := List.nodup_flatten.1 (Adjacency.nodup_flatten_components g.adjacency)
  refine List.nodup_flatten.2 ⟨fun m hm => (isGroup_of_mem hg hm).nodup, ?_⟩
  rw [groups, List.pairwise_map]
  refine (hnodup.2.filter _).imp fun {c d} hdisjoint f hf hf' => ?_
  exact hdisjoint ((mem_filesOf hg).1 hf).2 ((mem_filesOf hg).1 hf').2

/-- The same file under another id. -/
def renumberFile (σ : Int → Int) (f : SourceFile) : SourceFile :=
  { f with id := σ f.id }

/-- The same import between other ids. -/
def renumberEdge (σ : Int → Int) (e : ImportEdge) : ImportEdge :=
  { e with importerId := σ e.importerId, targetId := e.targetId.map σ }

/-- The graph `h` holds the files and imports of `g` under ids that `σ` gives, in any order. -/
structure IsRenumbering (σ : Int → Int) (g h : ImportGraph) : Prop where
  files : h.files.Perm (g.files.map (renumberFile σ))
  edges : h.edges.Perm (g.edges.map (renumberEdge σ))

namespace IsRenumbering

variable {σ : Int → Int} {m : List SourceFile}

/-- A renumbering gives different ids to different files. -/
theorem injOn (hr : IsRenumbering σ g h) (hh : h.Consistent) :
    Set.InjOn σ {id | id ∈ g.files.map (·.id)} := by
  have hnodup := (hr.files.map (·.id)).nodup_iff.1 hh.nodup_ids
  rw [List.map_map, show SourceFile.id ∘ renumberFile σ = σ ∘ SourceFile.id from rfl,
    ← List.map_map] at hnodup
  exact fun _ hid _ hid' heq => List.inj_on_of_nodup_map hnodup hid hid' heq

/-- A renumbering can be undone. -/
theorem exists_symm (hr : IsRenumbering σ g h) (hg : g.Consistent) (hh : h.Consistent) :
    ∃ τ, IsRenumbering τ h g ∧ ∀ id ∈ g.files.map (·.id), τ (σ id) = id := by
  have hinv := (hr.injOn hh).leftInvOn_invFunOn
  generalize Function.invFunOn σ {id | id ∈ g.files.map (·.id)} = τ at hinv
  refine ⟨τ, ⟨?_, ?_⟩, fun id hid => hinv hid⟩
  -- Renumbering there and back gives the files, and the imports, as they were.
  · refine ((hr.files.map _).trans (List.Perm.of_eq ?_)).symm
    rw [List.map_map]
    refine (List.map_congr_left fun f hf => ?_).trans (List.map_id _)
    have hid := hinv (List.mem_map.2 ⟨f, hf, rfl⟩)
    simp only [Function.comp, renumberFile, hid, id]
  · refine ((hr.edges.map _).trans (List.Perm.of_eq ?_)).symm
    rw [List.map_map]
    refine (List.map_congr_left fun e he => ?_).trans (List.map_id _)
    have himporter := hinv (hg.importer_mem e he)
    have htarget : (e.targetId.map σ).map τ = e.targetId := by
      cases hid : e.targetId with
      | none => rfl
      | some id => exact congrArg some (hinv (hg.target_mem e he id hid))
    simp only [Function.comp, renumberEdge, himporter, htarget, id]

/-- A path of imports is one when the files are renumbered. -/
theorem reaches (hr : IsRenumbering σ g h) {v u : Int} (hvu : g.Reaches v u) :
    h.Reaches (σ v) (σ u) := by
  refine Relation.ReflTransGen.lift (p := h.Imports) σ ?_ v u hvu
  rintro v u ⟨e, he, rfl, htarget⟩
  refine ⟨renumberEdge σ e, hr.edges.mem_iff.2 (List.mem_map.2 ⟨e, he, rfl⟩), rfl, ?_⟩
  rw [renumberEdge, htarget, Option.map_some]

/-- Files reach each other just if they do so renumbered. -/
theorem mutual_iff (hr : IsRenumbering σ g h) (hg : g.Consistent) (hh : h.Consistent)
    {f f' : SourceFile} (hf : f ∈ g.files) (hf' : f' ∈ g.files) :
    h.Mutual (renumberFile σ f) (renumberFile σ f') ↔ g.Mutual f f' := by
  -- A way in the renumbered graph is carried back by the inverse renumbering.
  obtain ⟨τ, hr', hτ⟩ := hr.exists_symm hg hh
  have hback {x y : SourceFile} (hx : x ∈ g.files) (hy : y ∈ g.files)
      (hxy : h.Reaches (σ x.id) (σ y.id)) : g.Reaches x.id y.id := by
    have hreaches := hr'.reaches hxy
    rwa [hτ _ (List.mem_map.2 ⟨x, hx, rfl⟩), hτ _ (List.mem_map.2 ⟨y, hy, rfl⟩)] at hreaches
  exact ⟨fun hm => ⟨hback hf hf' hm.1, hback hf' hf hm.2⟩,
    fun hm => ⟨hr.reaches hm.1, hr.reaches hm.2⟩⟩

/-- A file is in a group just if it is so renumbered. -/
theorem mem_map_iff (hr : IsRenumbering σ g h) (hg : g.Consistent) (hh : h.Consistent)
    (hm : m ⊆ g.files) {f : SourceFile} (hf : f ∈ g.files) :
    renumberFile σ f ∈ m.map (renumberFile σ) ↔ f ∈ m := by
  refine ⟨fun hmem => ?_, fun hmem => List.mem_map.2 ⟨f, hmem, rfl⟩⟩
  obtain ⟨f', hf', heq⟩ := List.mem_map.1 hmem
  have hid := hr.injOn hh (List.mem_map.2 ⟨f', hm hf', rfl⟩) (List.mem_map.2 ⟨f, hf, rfl⟩)
    (congrArg SourceFile.id heq)
  exact List.inj_on_of_nodup_map hg.nodup_ids (hm hf') hf hid ▸ hf'

/-- A group is one when its files are renumbered. -/
theorem isGroup (hr : IsRenumbering σ g h) (hg : g.Consistent) (hh : h.Consistent)
    (hm : g.IsGroup m) : h.IsGroup (m.map (renumberFile σ)) := by
  constructor
  case subset =>
    intro f hf
    obtain ⟨f', hf', rfl⟩ := List.mem_map.1 hf
    exact hr.files.mem_iff.2 (List.mem_map.2 ⟨f', hm.subset hf', rfl⟩)
  case nodup =>
    -- Files that get the same id had the same one, and so are the same file.
    refine hm.nodup.map_on fun f hf f' hf' heq => ?_
    have hid := hr.injOn hh (List.mem_map.2 ⟨f, hm.subset hf, rfl⟩)
      (List.mem_map.2 ⟨f', hm.subset hf', rfl⟩) (congrArg SourceFile.id heq)
    exact List.inj_on_of_nodup_map hg.nodup_ids (hm.subset hf) (hm.subset hf') hid
  case two_le => simpa using hm.two_le
  case mem_iff =>
    intro x hx x' hx'
    obtain ⟨f, hf, rfl⟩ := List.mem_map.1 hx
    obtain ⟨f', hf', rfl⟩ := List.mem_map.1 (hr.files.mem_iff.1 hx')
    rw [hr.mem_map_iff hg hh hm.subset hf', hr.mutual_iff hg hh (hm.subset hf) hf']
    exact hm.mem_iff f hf f' hf'

/-- What is reported of a group does not depend on the ids. -/
theorem groupOf_eq (hr : IsRenumbering σ g h) (hg : g.Consistent) (hh : h.Consistent)
    (hm : g.IsGroup m) : h.groupOf (m.map (renumberFile σ)) = g.groupOf m := by
  have hids : (m.map (renumberFile σ)).map (·.id) = (m.map (·.id)).map σ := by
    simp [renumberFile]
  -- On ids of the graph σ is one to one, so membership is kept both ways.
  have hcontains (id : Int) (hid : id ∈ g.files.map (·.id)) :
      ((m.map (·.id)).map σ).contains (σ id) = (m.map (·.id)).contains id := by
    rw [Bool.eq_iff_iff, List.contains_iff_mem, List.contains_iff_mem]
    refine ⟨fun hmem => ?_, fun hmem => List.mem_map.2 ⟨id, hmem, rfl⟩⟩
    obtain ⟨id', hid', heq⟩ := List.mem_map.1 hmem
    exact hr.injOn hh (List.map_subset _ hm.subset hid') hid heq ▸ hid'
  have hwithin : h.importsWithin (m.map (renumberFile σ)) = g.importsWithin m := by
    rw [importsWithin, hids, hr.edges.countP_eq, List.countP_map, importsWithin]
    refine List.countP_congr fun e he => ?_
    have htarget : (e.targetId.map σ).any ((m.map (·.id)).map σ).contains =
        e.targetId.any (m.map (·.id)).contains := by
      cases hid : e.targetId with
      | none => rfl
      | some id => exact hcontains id (hg.target_mem e he id hid)
    simp only [Function.comp, renumberEdge, hcontains _ (hg.importer_mem e he), htarget]
  have hpaths : (m.map (renumberFile σ)).map (·.relativePath) = m.map (·.relativePath) := by
    simp [renumberFile]
  rw [groupOf, groupOf, hwithin, hpaths]

end IsRenumbering

/-- What is listed is the report of a group, and the other way round. -/
theorem mem_cycles_iff (hg : g.Consistent) {c : CycleGroup} :
    c ∈ g.cycles ↔ ∃ m, g.IsGroup m ∧ g.groupOf m = c := by
  rw [cycles_eq hg, List.mem_map]
  simp only [List.mem_mergeSort]
  constructor
  · rintro ⟨m, hm, rfl⟩
    exact ⟨m, isGroup_of_mem hg hm, rfl⟩
  · rintro ⟨m, hm, rfl⟩
    obtain ⟨m', hm', hperm⟩ := exists_perm_of_isGroup hg hm
    exact ⟨m', hm', (groupOf_perm hperm).symm⟩

/-- A renumbered graph lists the same groups, in whatever order. -/
theorem IsRenumbering.mem_cycles_iff {σ : Int → Int} (hr : IsRenumbering σ g h)
    (hg : g.Consistent) (hh : h.Consistent) (c : CycleGroup) : c ∈ h.cycles ↔ c ∈ g.cycles := by
  have himp {σ : Int → Int} {g h : ImportGraph} (hr : IsRenumbering σ g h) (hg : g.Consistent)
      (hh : h.Consistent) (hc : c ∈ g.cycles) : c ∈ h.cycles := by
    obtain ⟨m, hm, rfl⟩ := (ImportGraph.mem_cycles_iff hg).1 hc
    exact (ImportGraph.mem_cycles_iff hh).2 ⟨_, hr.isGroup hg hh hm, hr.groupOf_eq hg hh hm⟩
  obtain ⟨τ, hr', -⟩ := hr.exists_symm hg hh
  exact ⟨himp hr' hh hg, himp hr hg hh⟩

/-- The groups are in order. -/
theorem pairwise_precedes_cycles (g : ImportGraph) :
    g.cycles.Pairwise fun c d => c.precedes d = true :=
  List.pairwise_mergeSort CycleGroup.precedes_trans CycleGroup.precedes_total _

/-- Where no two files share a relative path, the files of a report tell the group. -/
theorem perm_of_files_groupOf_eq (hpaths : (g.files.map (·.relativePath)).Nodup)
    {m m' : List SourceFile} (hm : g.IsGroup m) (hm' : g.IsGroup m')
    (hfiles : (g.groupOf m).files = (g.groupOf m').files) : m.Perm m' := by
  obtain ⟨f, hf⟩ := List.exists_mem_of_length_pos (Nat.lt_of_lt_of_le Nat.zero_lt_two hm.two_le)
  have hpath : f.relativePath ∈ (g.groupOf m').files := by
    rw [← hfiles]
    exact List.mem_mergeSort.2 (List.mem_map.2 ⟨f, hf, rfl⟩)
  obtain ⟨f', hf', heq⟩ := List.mem_map.1 (List.mem_mergeSort.1 hpath)
  have hsame := List.inj_on_of_nodup_map hpaths (hm'.subset hf') (hm.subset hf) heq
  exact hm.perm_of_mem hm' hf (hsame ▸ hf')

/-- No group is reported twice. -/
theorem nodup_cycles (hg : g.Consistent) (hpaths : (g.files.map (·.relativePath)).Nodup) :
    g.cycles.Nodup := by
  have hnodup : (g.groups.map g.groupOf).Nodup := by
    have hdisjoint := (List.nodup_flatten.1 (nodup_flatten_groups hg)).2
    -- Groups that share no id have different files, because a group is not empty.
    refine List.pairwise_map.2 (hdisjoint.imp_of_mem fun {m m'} hm hm' hdisjoint heq => ?_)
    have hgroup := isGroup_of_mem hg hm
    obtain ⟨f, hf⟩ :=
      List.exists_mem_of_length_pos (Nat.lt_of_lt_of_le Nat.zero_lt_two hgroup.two_le)
    have hperm := perm_of_files_groupOf_eq hpaths hgroup (isGroup_of_mem hg hm')
      (congrArg CycleGroup.files heq)
    exact hdisjoint hf (hperm.mem_iff.1 hf)
  rw [cycles_eq hg]
  exact ((List.mergeSort_perm _ _).map _).nodup_iff.2 hnodup

/-- Where no two files share a relative path, the listing depends neither on the ids nor on the
order of files and imports. -/
theorem IsRenumbering.cycles_eq {σ : Int → Int} (hr : IsRenumbering σ g h) (hg : g.Consistent)
    (hh : h.Consistent) (hpaths : (g.files.map (·.relativePath)).Nodup) : h.cycles = g.cycles := by
  have hpaths' : (h.files.map (·.relativePath)).Nodup := by
    refine (hr.files.map _).nodup_iff.2 ?_
    rwa [List.map_map, show SourceFile.relativePath ∘ renumberFile σ = SourceFile.relativePath
      from rfl]
  -- Both listings have the same groups, each once, and are sorted.
  have hperm : h.cycles.Perm g.cycles :=
    (List.perm_ext_iff_of_nodup (nodup_cycles hh hpaths') (nodup_cycles hg hpaths)).2
      (hr.mem_cycles_iff hg hh)
  refine List.Perm.eq_of_pairwise (fun c d hc hd hcd hdc => ?_) h.pairwise_precedes_cycles
    g.pairwise_precedes_cycles hperm
  obtain ⟨m, hm, rfl⟩ := (ImportGraph.mem_cycles_iff hg).1 ((hr.mem_cycles_iff hg hh c).1 hc)
  obtain ⟨m', hm', rfl⟩ := (ImportGraph.mem_cycles_iff hg).1 hd
  exact groupOf_perm
    (perm_of_files_groupOf_eq hpaths hm hm' (CycleGroup.files_eq_of_precedes hcd hdc))

/-- The files of a group are listed in ascending order. -/
theorem sorted_files_groupOf (g : ImportGraph) (m : List SourceFile) :
    (g.groupOf m).files.Perm (m.map (·.relativePath)) ∧
      (g.groupOf m).files.Pairwise (· ≤ ·) :=
  ⟨List.mergeSort_perm _ _, List.pairwise_mergeSort' (· ≤ ·) _⟩

/-- After any insertions the listed groups are disjoint lists of files of the graph. Two files are
in one group if and only if each reaches the other along imports, and a file is in a group if and
only if there is such another file. A group is reported by its relative paths in ascending order
and by the number of imports within it, which is no less than the number of its files. The largest
groups come first, those of one size in the order of their files; and where no two files share a
relative path, neither ids nor the order of insertion change the listing. -/
theorem cycles_spec (is : List Insertion) :
    let g := after is
    (∃ groups : List (List SourceFile),
      g.cycles = groups.map g.groupOf ∧ groups.flatten.Nodup ∧ groups.flatten ⊆ g.files ∧
      (∀ f ∈ g.files, ∀ f' ∈ g.files, f ≠ f' →
        ((∃ m ∈ groups, f ∈ m ∧ f' ∈ m) ↔ g.Reaches f.id f'.id ∧ g.Reaches f'.id f.id)) ∧
      (∀ f ∈ g.files, (∃ m ∈ groups, f ∈ m) ↔
        ∃ f' ∈ g.files, f' ≠ f ∧ g.Reaches f.id f'.id ∧ g.Reaches f'.id f.id) ∧
      ∀ m ∈ groups, (g.groupOf m).files.Perm (m.map (·.relativePath)) ∧
        (g.groupOf m).files.Pairwise (· ≤ ·) ∧
        (g.groupOf m).internalEdges =
          (g.edges.filter fun e => (m.map (·.id)).contains e.importerId &&
            e.targetId.any (m.map (·.id)).contains).length ∧
        m.length ≤ (g.groupOf m).internalEdges) ∧
    (g.cycles.Pairwise fun c d => d.files.length < c.files.length ∨
      c.files.length = d.files.length ∧ c.files ≤ d.files) ∧
    ∀ (js : List Insertion) (σ : Int → Int), IsRenumbering σ g (after js) →
      (g.files.map (·.relativePath)).Nodup → (after js).cycles = g.cycles := by
  intro g
  have hg : g.Consistent := consistent_after is
  -- The groups in the order of the listing.
  have hperm := List.mergeSort_perm g.groups fun m m' => (g.groupOf m).precedes (g.groupOf m')
  have hgroup (m) (hm : m ∈ g.groups.mergeSort fun m m' =>
      (g.groupOf m).precedes (g.groupOf m')) : g.IsGroup m :=
    isGroup_of_mem hg (List.mem_mergeSort.1 hm)
  have hexists {f f' : SourceFile} (hf : f ∈ g.files) (hf' : f' ∈ g.files) (hne : f ≠ f')
      (hmutual : g.Mutual f f') : ∃ m ∈ g.groups.mergeSort fun m m' =>
        (g.groupOf m).precedes (g.groupOf m'), f ∈ m ∧ f' ∈ m := by
    obtain ⟨m, hm, hfm, hfm'⟩ := exists_group_of_mutual hg hf hf' hne hmutual
    exact ⟨m, List.mem_mergeSort.2 hm, hfm, hfm'⟩
  refine ⟨⟨_, cycles_eq hg, hperm.flatten.nodup_iff.2 (nodup_flatten_groups hg), ?_, ?_, ?_, ?_⟩,
    g.pairwise_precedes_cycles.imp CycleGroup.precedes_iff.1, ?_⟩
  · intro f hf
    obtain ⟨m, hm, hfm⟩ := List.mem_flatten.1 hf
    exact (hgroup m hm).subset hfm
  · intro f hf f' hf' hne
    refine ⟨?_, fun hmutual => hexists hf hf' hne hmutual⟩
    rintro ⟨m, hm, hfm, hfm'⟩
    exact ((hgroup m hm).mem_iff f hfm f' hf').1 hfm'
  · intro f hf
    constructor
    · -- A group has two members at least, so each of them has another one.
      rintro ⟨m, hm, hfm⟩
      obtain ⟨f', hfm', hne⟩ := (hgroup m hm).exists_ne f
      have hf' := (hgroup m hm).subset hfm'
      exact ⟨f', hf', hne, ((hgroup m hm).mem_iff f hfm f' hf').1 hfm'⟩
    · rintro ⟨f', hf', hne, hmutual⟩
      obtain ⟨m, hm, hfm, -⟩ := hexists hf hf' hne.symm hmutual
      exact ⟨m, hm, hfm⟩
  · intro m hm
    obtain ⟨hfiles, hsorted⟩ := g.sorted_files_groupOf m
    exact ⟨hfiles, hsorted, List.countP_eq_length_filter, (hgroup m hm).length_le_importsWithin hg⟩
  · intro js σ hr hpaths
    exact hr.cycles_eq hg (consistent_after js) hpaths

end ImportGraph

end ImportAtlas

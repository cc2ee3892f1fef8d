import ImportAtlas.Proofs.Graph.Insertion

/-!
# Graphs of other texts

Insertions compare texts and do nothing else with them. So the graph that comes of insertions is the
same graph when their texts, all of characters, are taken for texts of another type. And a graph of
texts that can all be written is such a graph, whatever has been refused on the way to it.

## Key results

- `ImportGraph.isAs_after`: insertions with their texts as others make the graph with its texts so
- `ImportGraph.exists_isAs_after`: a graph whose texts can all be written is one of characters
-/

namespace ImportAtlas

variable {τ : Type}

/-! ## Ids and texts -/

/-- The texts of a file, in the order of their columns. -/
def SourceFile.texts (f : SourceFile τ) : List τ :=
  [f.absolutePath, f.relativePath, f.baseName, f.extension]

/-- The texts of an import, in the order of their columns. -/
def ImportEdge.texts (e : ImportEdge τ) : List τ :=
  e.importerPath :: e.locator :: e.targetPath.toList

/-- The texts of an insertion. -/
def Insertion.texts : Insertion τ → List τ
  | .file f => f.texts
  | .edge e => e.texts

/-- The ids of an import, in the order of their columns. -/
def ImportEdge.ids (e : ImportEdge τ) : List Int :=
  e.importerId :: e.targetId.toList

namespace ImportGraph

/-- The ids of the files and imports of a graph. -/
def ids (g : ImportGraph τ) : List Int :=
  g.files.map (·.id) ++ g.edges.flatMap (·.ids)

/-- The texts of the files and imports of a graph. -/
def texts (g : ImportGraph τ) : List τ :=
  g.files.flatMap (·.texts) ++ g.edges.flatMap (·.texts)

variable {g : ImportGraph τ} {f : SourceFile τ} {e : ImportEdge τ}

/-- The id of a file is one of the graph's. -/
theorem ids_subset_of_file (hf : f ∈ g.files) : [f.id] ⊆ g.ids := fun _ hid =>
  List.mem_append_left _ (List.mem_map.2 ⟨f, hf, (List.mem_singleton.1 hid).symm⟩)

/-- So are the ids of an import. -/
theorem ids_subset_of_edge (he : e ∈ g.edges) : e.ids ⊆ g.ids := fun _ hid =>
  List.mem_append_right _ (List.mem_flatMap.2 ⟨e, he, hid⟩)

/-- The texts of a file are among those of the graph. -/
theorem texts_subset_of_file (hf : f ∈ g.files) : f.texts ⊆ g.texts := fun _ htext =>
  List.mem_append_left _ (List.mem_flatMap.2 ⟨f, hf, htext⟩)

/-- So are the texts of an import. -/
theorem texts_subset_of_edge (he : e ∈ g.edges) : e.texts ⊆ g.texts := fun _ htext =>
  List.mem_append_right _ (List.mem_flatMap.2 ⟨e, he, htext⟩)

/-- A graph with more files and imports has more texts. -/
theorem texts_mono {g' : ImportGraph τ} (hfiles : g.files ⊆ g'.files)
    (hedges : g.edges ⊆ g'.edges) : g.texts ⊆ g'.texts := by
  intro text htext
  rcases List.mem_append.1 htext with htext | htext
  · obtain ⟨f, hf, htext⟩ := List.mem_flatMap.1 htext
    exact texts_subset_of_file (hfiles hf) htext
  · obtain ⟨e, he, htext⟩ := List.mem_flatMap.1 htext
    exact texts_subset_of_edge (hedges he) htext

end ImportGraph

/-! ## Insertions with other texts -/

variable [Text.Form τ]

@[simp] theorem ImportEdge.importerId_as (e : ImportEdge) :
    (e.as : ImportEdge τ).importerId = e.importerId := rfl

@[simp] theorem ImportEdge.targetId_as (e : ImportEdge) :
    (e.as : ImportEdge τ).targetId = e.targetId := rfl

/-- Written as texts, an import is what it was. -/
theorem ImportEdge.as_self (e : ImportEdge) : (e.as : ImportEdge) = e := by
  obtain ⟨_, _, _, _, _, targetPath⟩ := e
  cases targetPath <;> rfl

/-- The insertion with its texts as texts of another type. -/
def Insertion.as : Insertion → Insertion τ
  | .file f => .file f.as
  | .edge e => .edge e.as

section Characters

open Text.Form

/-- Files that differ do so with other texts, too. -/
theorem SourceFile.as_injective :
    Function.Injective (SourceFile.as : SourceFile → SourceFile τ) := by
  rintro ⟨⟩ ⟨⟩ h
  simp only [SourceFile.as, SourceFile.mk.injEq] at h
  obtain ⟨habsolute, hrelative, hbase, hextension, rfl⟩ := h
  rw [ofText_injective habsolute, ofText_injective hrelative, ofText_injective hbase,
    ofText_injective hextension]

/-- So do imports. -/
theorem ImportEdge.as_injective :
    Function.Injective (ImportEdge.as : ImportEdge → ImportEdge τ) := by
  rintro ⟨⟩ ⟨⟩ h
  simp only [ImportEdge.as, ImportEdge.mk.injEq] at h
  obtain ⟨rfl, hpath, hlocator, rfl, rfl, htarget⟩ := h
  have htargets : Function.Injective (Option.map (ofText : String → τ)) :=
    Option.map_injective fun _ _ => ofText_injective
  rw [ofText_injective hpath, ofText_injective hlocator, htargets htarget]

/-- And so do insertions. -/
theorem Insertion.as_injective :
    Function.Injective (Insertion.as : Insertion → Insertion τ) := by
  rintro (f | e) (f' | e') h
  · rw [SourceFile.as_injective (Insertion.file.inj h)]
  · cases h
  · cases h
  · rw [ImportEdge.as_injective (Insertion.edge.inj h)]

/-- Sound insertions of characters are sound with other texts, too. -/
theorem Insertion.isSound_of_as_mem {is : List Insertion} (his : ∀ i ∈ is, i.IsSound) :
    ∀ i : Insertion, i.as ∈ (is.map as : List (Insertion τ)) → i.IsSound := by
  intro i hi
  obtain ⟨j, hj, hsame⟩ := List.mem_map.1 hi
  exact as_injective hsame ▸ his j hj

/-- A file whose texts can all be written is one of characters. -/
theorem SourceFile.exists_as {f : SourceFile τ} (h : ∀ text ∈ f.texts, written? text ≠ none) :
    ∃ f' : SourceFile, f'.as = f := by
  obtain ⟨absolutePath, habsolute⟩ := exists_ofText (h f.absolutePath (by simp [texts]))
  obtain ⟨relativePath, hrelative⟩ := exists_ofText (h f.relativePath (by simp [texts]))
  obtain ⟨baseName, hbase⟩ := exists_ofText (h f.baseName (by simp [texts]))
  obtain ⟨extension, hextension⟩ := exists_ofText (h f.extension (by simp [texts]))
  refine ⟨⟨absolutePath, relativePath, baseName, extension, f.id⟩, ?_⟩
  rw [as, ← habsolute, ← hrelative, ← hbase, ← hextension]

/-- So is such an import. -/
theorem ImportEdge.exists_as {e : ImportEdge τ} (h : ∀ text ∈ e.texts, written? text ≠ none) :
    ∃ e' : ImportEdge, e'.as = e := by
  obtain ⟨importerPath, hpath⟩ := exists_ofText (h e.importerPath (by simp [texts]))
  obtain ⟨locator, hlocator⟩ := exists_ofText (h e.locator (by simp [texts]))
  -- There need not be a target, and then there is no text of one.
  have htarget : ∃ target : Option String, e.targetPath = target.map ofText := by
    cases hpath : e.targetPath with
    | none => exact ⟨none, rfl⟩
    | some path =>
      obtain ⟨target, rfl⟩ := exists_ofText (h path (by simp [texts, hpath]))
      exact ⟨some target, rfl⟩
  obtain ⟨target, htarget⟩ := htarget
  refine ⟨⟨e.importerId, importerPath, locator, e.kind, e.targetId, target⟩, ?_⟩
  rw [as, ← hpath, ← hlocator, ← htarget]

/-- And so is an insertion of one or the other. -/
theorem Insertion.exists_as {i : Insertion τ} (h : ∀ text ∈ i.texts, written? text ≠ none) :
    ∃ j : Insertion, j.as = i := by
  cases i with
  | file f =>
    obtain ⟨f', rfl⟩ := SourceFile.exists_as h
    exact ⟨.file f', rfl⟩
  | edge e =>
    obtain ⟨e', rfl⟩ := ImportEdge.exists_as h
    exact ⟨.edge e', rfl⟩

/-- The texts of what is of characters can all be written. -/
theorem ImportGraph.written?_ne_none_of_map_as {g : ImportGraph τ} {fs : List SourceFile}
    {es : List ImportEdge} (hfiles : fs.map SourceFile.as = g.files)
    (hedges : es.map ImportEdge.as = g.edges) : ∀ text ∈ g.texts, written? text ≠ none := by
  have hwritten (s : String) : written? (ofText s : τ) ≠ none := by
    rw [written?_ofText]
    exact nofun
  intro text htext
  rcases List.mem_append.1 htext with htext | htext
  · rw [← hfiles, List.flatMap_map] at htext
    obtain ⟨f, -, htext⟩ := List.mem_flatMap.1 htext
    simp only [SourceFile.texts, SourceFile.as, List.mem_cons, List.not_mem_nil, or_false] at htext
    rcases htext with rfl | rfl | rfl | rfl <;> exact hwritten _
  · rw [← hedges, List.flatMap_map] at htext
    obtain ⟨e, -, htext⟩ := List.mem_flatMap.1 htext
    simp only [ImportEdge.texts, ImportEdge.as, List.mem_cons, Option.mem_toList,
      Option.map_eq_some_iff] at htext
    rcases htext with rfl | rfl | ⟨s, -, rfl⟩ <;> exact hwritten _

end Characters

namespace ImportGraph

open Text.Form

/-- A graph has the files and imports of another one, with their texts as texts of its type. -/
structure IsAs (g : ImportGraph τ) (g' : ImportGraph) : Prop where
  files : g.files = g'.files.map (·.as)
  edges : g.edges = g'.edges.map (·.as)

/-- Two graphs of characters that have the same parts in another form are the same. -/
theorem IsAs.unique {g : ImportGraph τ} {g₁ g₂ : ImportGraph} (h₁ : g.IsAs g₁) (h₂ : g.IsAs g₂)
    (hg₁ : g₁.Consistent) (hg₂ : g₂.Consistent) : g₁ = g₂ := by
  refine hg₁.ext hg₂ ?_ ?_
  · exact SourceFile.as_injective.list_map (h₁.files.symm.trans h₂.files)
  · exact ImportEdge.as_injective.list_map (h₁.edges.symm.trans h₂.edges)

section Step

variable [DecidableEq τ]

omit [Text.Form τ] in
/-- A file is put into a graph unless its path or its id is taken. -/
theorem afterOne_file (g : ImportGraph τ) (f : SourceFile τ) :
    g.afterOne (.file f) =
      if g.hasPath f.absolutePath || g.hasId (g.idFor f) then g else g.withFile f (g.idFor f) := by
  have h := insertFile_eq f g
  split at h
  · rename_i htaken
    rw [if_pos htaken, afterOne, Insertion.act, EStateM.discard_of_error h]
  · rename_i hfree
    rw [if_neg hfree, afterOne, Insertion.act, EStateM.discard_of_ok h]

omit [Text.Form τ] in
/-- An import is put into a graph if its files are there and it is not. -/
theorem afterOne_edge (g : ImportGraph τ) (e : ImportEdge τ) :
    g.afterOne (.edge e) =
      if !g.hasId e.importerId || (e.targetId.any fun id => !g.hasId id) ||
        g.edgeKeys.contains e.key then g else g.withEdge e := by
  have h := insertImport_eq e g
  -- An import that is refused is refused for one of three reasons.
  cases himporter : g.hasId e.importerId with
  | false =>
    simp only [himporter, Bool.not_false, ↓reduceIte] at h
    simp only [afterOne, Insertion.act, EStateM.discard_of_error h, Bool.not_false,
      Bool.true_or, ↓reduceIte]
  | true =>
    cases htarget : e.targetId.any fun id => !g.hasId id with
    | true =>
      simp only [himporter, htarget, Bool.not_true, Bool.false_eq_true, ↓reduceIte] at h
      simp only [afterOne, Insertion.act, EStateM.discard_of_error h, Bool.or_true, Bool.true_or,
        ↓reduceIte]
    | false =>
      cases hkey : g.edgeKeys.contains e.key with
      | true =>
        simp only [himporter, htarget, hkey, Bool.not_true, Bool.false_eq_true, ↓reduceIte] at h
        simp only [afterOne, Insertion.act, EStateM.discard_of_error h, Bool.or_true, ↓reduceIte]
      | false =>
        simp only [himporter, htarget, hkey, Bool.not_true, Bool.false_eq_true, ↓reduceIte] at h
        simp only [afterOne, Insertion.act, EStateM.discard_of_ok h, Bool.not_true, Bool.or_self,
          Bool.false_eq_true, ↓reduceIte]

variable {g : ImportGraph τ} {g' : ImportGraph}

namespace IsAs

omit [DecidableEq τ] in
/-- A graph in another form has the same ids. -/
theorem keys_table (h : g.IsAs g') (hg : g.Consistent) (hg' : g'.Consistent) :
    g.table.keys = g'.table.keys := by
  rw [hg.keys_table, hg'.keys_table, h.files, List.map_map]
  rfl

omit [DecidableEq τ] in
/-- So an id is taken in both or in neither. -/
theorem hasId_eq (h : g.IsAs g') (hg : g.Consistent) (hg' : g'.Consistent) (id : Int) :
    g.hasId id = g'.hasId id := by
  rw [Bool.eq_iff_iff, hasId_iff, hasId_iff, h.keys_table hg hg']

/-- Texts of characters are different as other texts, too. -/
theorem hasPath_eq (h : g.IsAs g') (hg : g.Consistent) (hg' : g'.Consistent) (path : String) :
    g.hasPath (ofText path) = g'.hasPath path := by
  have hpaths : g.files.map (·.absolutePath) = (g'.files.map (·.absolutePath)).map ofText := by
    rw [h.files, List.map_map, List.map_map]
    rfl
  rw [Bool.eq_iff_iff, hasPath_iff, hasPath_iff, hg.keys_idsByPath, hg'.keys_idsByPath, hpaths]
  exact List.mem_map_of_injective fun _ _ => ofText_injective

/-- An import is there in both or in neither. -/
theorem contains_eq (h : g.IsAs g') (hg : g.Consistent) (hg' : g'.Consistent) (e : ImportEdge) :
    g.edgeKeys.contains (e.as : ImportEdge τ).key = g'.edgeKeys.contains e.key := by
  have hkey (e' : ImportEdge) : (e'.as : ImportEdge τ).key = e'.key.map ofText ofText := rfl
  have hkeys : g.edges.map (·.key) = (g'.edges.map (·.key)).map (Prod.map ofText ofText) := by
    rw [h.edges, List.map_map, List.map_map]
    rfl
  -- Two keys that differ stay apart in any type of texts.
  have hinjective : Function.Injective (Prod.map ofText ofText : String × String → τ × τ) :=
    Function.Injective.prodMap (fun _ _ => ofText_injective) fun _ _ => ofText_injective
  rw [Bool.eq_iff_iff, List.contains_iff_mem, List.contains_iff_mem, hg.edgeKeys_eq,
    hg'.edgeKeys_eq, List.mem_reverse, List.mem_reverse, hkeys, hkey]
  exact List.mem_map_of_injective hinjective

/-- A file that is put into both keeps them the same but for the form of texts. -/
theorem afterOne_file (h : g.IsAs g') (hg : g.Consistent) (hg' : g'.Consistent) (f : SourceFile) :
    (g.afterOne (.file f.as)).IsAs (g'.afterOne (.file f)) := by
  -- The next id depends on the ids only, and they are the same.
  have hid : g.idFor f.as = g'.idFor f := by
    rw [idFor, h.keys_table hg hg', idFor]
    rfl
  have htaken : (g.hasPath (f.as : SourceFile τ).absolutePath || g.hasId (g.idFor f.as)) =
      (g'.hasPath f.absolutePath || g'.hasId (g'.idFor f)) := by
    rw [hid, h.hasId_eq hg hg', ← h.hasPath_eq hg hg']
    rfl
  rw [ImportGraph.afterOne_file, ImportGraph.afterOne_file, htaken]
  split
  · exact h
  · rename_i hfree
    have hfree' := hfree
    rw [← htaken] at hfree'
    simp only [Bool.or_eq_true, not_or, hasPath_iff, hasId_iff] at hfree hfree'
    refine ⟨?_, h.edges⟩
    rw [files_withFile hfree'.1 hfree'.2, files_withFile hfree.1 hfree.2, List.map_append, h.files,
      hid]
    rfl

/-- So does an import. -/
theorem afterOne_edge (h : g.IsAs g') (hg : g.Consistent) (hg' : g'.Consistent) (e : ImportEdge) :
    (g.afterOne (.edge e.as)).IsAs (g'.afterOne (.edge e)) := by
  have hids : g.hasId = g'.hasId := funext (h.hasId_eq hg hg')
  rw [ImportGraph.afterOne_edge, ImportGraph.afterOne_edge, h.contains_eq hg hg', hids,
    ImportEdge.importerId_as, ImportEdge.targetId_as]
  split
  · exact h
  · refine ⟨h.files, ?_⟩
    simp only [withEdge, List.map_append, h.edges, List.map_cons, List.map_nil]

end IsAs

/-- Insertions with their texts as texts of another type make the graph with its texts so. -/
theorem isAs_after (is : List Insertion) :
    (after (is.map Insertion.as) : ImportGraph τ).IsAs (after is) := by
  -- From the end, as insertions are made one after the other.
  induction is using List.reverseRecOn with
  | nil => exact ⟨rfl, rfl⟩
  | append_singleton is i ih =>
    rw [List.map_append, List.map_singleton, after_append_singleton, after_append_singleton]
    cases i with
    | file f => exact ih.afterOne_file (consistent_after _) (consistent_after is) f
    | edge e => exact ih.afterOne_edge (consistent_after _) (consistent_after is) e

omit [Text.Form τ] in
/-- What is inserted leaves its texts in the graph, beside those that are there, unless it is
refused. -/
theorem texts_afterOne (g : ImportGraph τ) (i : Insertion τ) :
    g.afterOne i = g ∨ g.texts ⊆ (g.afterOne i).texts ∧ i.texts ⊆ (g.afterOne i).texts := by
  rcases i.act_cases g with ⟨f, rfl, hpath, hid, hact⟩ | ⟨e, rfl, -, -, -, hact⟩ | ⟨_, hact⟩
  · refine .inr ?_
    rw [afterOne, hact]
    dsimp only
    have hfiles := files_withFile hpath hid
    refine ⟨texts_mono ?_ (List.Subset.refl _), ?_⟩
    · rw [hfiles]
      exact List.subset_append_left _ _
    · -- The id that the file gets is none of its texts.
      exact texts_subset_of_file (f := { f with id := g.idFor f }) (by simp [hfiles])
  · refine .inr ?_
    rw [afterOne, hact]
    exact ⟨texts_mono (List.Subset.refl _) (List.subset_append_left _ _),
      texts_subset_of_edge (by simp [withEdge])⟩
  · exact .inl (by rw [afterOne, hact])

/-- A graph whose texts can all be written comes of insertions of characters. What has been refused
leaves no text behind, so it can be left out. -/
theorem exists_after_as (is : List (Insertion τ))
    (h : ∀ text ∈ (after is).texts, written? text ≠ none) :
    ∃ js : List Insertion, (∀ j ∈ js, j.as ∈ is) ∧ after (js.map Insertion.as) = after is := by
  induction is using List.reverseRecOn with
  | nil => exact ⟨[], nofun, rfl⟩
  | append_singleton is i ih =>
    rw [after_append_singleton] at h ⊢
    -- A refused insertion is left out, any other one is put behind those of the induction.
    rcases texts_afterOne (after is) i with hsame | ⟨hbefore, hnew⟩
    · rw [hsame] at h ⊢
      obtain ⟨js, hjs, hafter⟩ := ih h
      exact ⟨js, fun j hj => List.mem_append_left _ (hjs j hj), hafter⟩
    · obtain ⟨js, hjs, hafter⟩ := ih fun text htext => h text (hbefore htext)
      obtain ⟨j, rfl⟩ := Insertion.exists_as fun text htext => h text (hnew htext)
      refine ⟨js ++ [j], ?_, ?_⟩
      · rw [List.forall_mem_append, List.forall_mem_singleton]
        exact ⟨fun j hj => List.mem_append_left _ (hjs j hj), by simp⟩
      · rw [List.map_append, List.map_singleton, after_append_singleton, hafter]

/-- So it is a graph of characters that has been put together from sound parts, if all parts of
characters are sound. -/
theorem exists_isAs_after (is : List (Insertion τ))
    (his : ∀ i : Insertion, i.as ∈ is → i.IsSound)
    (h : ∀ text ∈ (after is).texts, written? text ≠ none) :
    ∃ g : ImportGraph, g.IsAssembled ∧ (after is).IsAs g := by
  obtain ⟨js, hjs, hafter⟩ := exists_after_as is h
  exact ⟨after js, ⟨js, fun j hj => his j (hjs j hj), rfl⟩, hafter ▸ isAs_after js⟩

end Step

end ImportGraph

end ImportAtlas

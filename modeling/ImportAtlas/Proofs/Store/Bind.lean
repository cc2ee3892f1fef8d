import ImportAtlas.Proofs.Graph.Texts
import ImportAtlas.Store.Graph

/-!
# What columns take

A row can be put into the database if its ids fit into their columns and its texts can be written;
it then is a row of characters. Otherwise the first column that does not fit stops the row, before
the database has seen it.

## Key results

- `Store.binds_file`, `Store.binds_edge`: what columns take of a file and of an import
- `Store.save_as`: a graph whose texts can all be written is saved as that of their characters is
-/

namespace ImportAtlas

variable {τ : Type} [Text.Form τ]

namespace Store

open Text.Form

/-! ## Single columns -/

/-- Why a row does not fit into its columns: an id is too large, or a text cannot be written. -/
inductive Unfit (ids : List Int) (texts : List τ) : Error → Prop
  | oversized {id : Int} (hid : id ∈ ids) (hfits : fits id = false) : Unfit ids texts .oversized
  | unencodable {text : τ} (htext : text ∈ texts) (hwritten : written? text = none) :
    Unfit ids texts .unencodable

/-- What does not fit into the columns of one row does not fit into those of all rows. -/
theorem Unfit.mono {ids ids' : List Int} {texts texts' : List τ} {e : Error}
    (h : Unfit ids texts e) (hids : ids ⊆ ids') (htexts : texts ⊆ texts') :
    Unfit ids' texts' e := by
  cases h with
  | oversized hid hfits => exact .oversized (hids hid) hfits
  | unencodable htext hwritten => exact .unencodable (htexts htext) hwritten

/-- Columns take what is given to them, or one of the ids and texts does not fit. -/
def Binds {α : Type} (ids : List Int) (texts : List τ) (taken : α → Prop) :
    Except Error α → Prop
  | .ok a => taken a
  | .error e => Unfit ids texts e

variable {α β : Type} {ids : List Int} {texts : List τ} {taken : α → Prop}

/-- Columns are filled one after the other, and the first that does not fit ends it. -/
theorem Binds.bind {taken' : β → Prop} {x : Except Error α} {f : α → Except Error β}
    (h : Binds ids texts taken x) (hf : ∀ a, taken a → Binds ids texts taken' (f a)) :
    Binds ids texts taken' (x >>= f) := by
  cases x with
  | ok a => exact hf a h
  | error e => exact h

/-- A number is bound if it has 64 bits. -/
theorem binds_number {i : Int} (hi : i ∈ ids) :
    Binds ids texts (fun j => i = j ∧ fits j = true) (bindNumber i) := by
  unfold bindNumber
  split
  · rename_i hfits
    exact ⟨rfl, hfits⟩
  · rename_i hfits
    exact .oversized hi (Bool.eq_false_iff.2 hfits)

/-- A text is bound if it can be written. -/
theorem binds_text {text : τ} (htext : text ∈ texts) :
    Binds ids texts (fun s => text = ofText s) (bindText text) := by
  unfold bindText
  split
  · rename_i hwritten
    exact written?_eq_some_iff.1 hwritten
  · rename_i hwritten
    exact .unencodable htext hwritten

/-- A column of ids that may be left empty. -/
theorem binds_number? {i : Option Int} (hi : ∀ j ∈ i, j ∈ ids) :
    Binds ids texts (fun j => i = j ∧ ∀ id ∈ j, fits id = true) (i.mapM bindNumber) := by
  cases i with
  | none => exact ⟨rfl, by simp⟩
  | some i =>
    refine (binds_number (hi i rfl)).bind fun j hj => ⟨by rw [hj.1], ?_⟩
    rintro _ ⟨⟩
    exact hj.2

/-- A column of texts that may be left empty. -/
theorem binds_text? {text : Option τ} (htext : ∀ s ∈ text, s ∈ texts) :
    Binds ids texts (fun s => text = s.map ofText) (text.mapM bindText) := by
  cases text with
  | none => exact rfl
  | some text =>
    refine (binds_text (htext text rfl)).bind fun s hs => ?_
    show some text = some (ofText s)
    rw [hs]

theorem bindText_ofText (s : String) : bindText (ofText s : τ) = .ok s := by
  rw [bindText, written?_ofText]

/-- A text of characters that may be missing is taken as it is. -/
theorem mapM_bindText_map (s? : Option String) :
    (s?.map ofText : Option τ).mapM bindText = .ok s? := by
  cases s? with
  | none => rfl
  | some s =>
    rw [Option.map_some, Option.mapM_some, bindText_ofText]
    rfl

/-- A filter that cannot be written is refused. -/
theorem mapM_bindText_of_unwritten {text : τ} (h : written? text = none) :
    (some text).mapM bindText = .error .unencodable := by
  rw [Option.mapM_some, bindText, h]
  rfl

/-- A text that may be missing is of characters, or it cannot be written. -/
theorem ofText_or_unwritten (text? : Option τ) :
    (∃ s? : Option String, text? = s?.map ofText) ∨
      ∃ text, text? = some text ∧ written? text = none := by
  cases text? with
  | none => exact .inl ⟨none, rfl⟩
  | some text =>
    cases hwritten : written? text with
    | none => exact .inr ⟨text, rfl, hwritten⟩
    | some s => exact .inl ⟨some s, by rw [Option.map_some, written?_eq_some_iff.1 hwritten]⟩

/-! ## Rows -/

/-- Columns take a file if its id fits and its texts are of characters. -/
theorem binds_file (f : SourceFile τ) :
    Binds [f.id] f.texts (fun f' => f = f'.as ∧ fits f'.id = true) (bindFile f) := by
  have htexts (text : τ) (h : text ∈ f.texts) :
      Binds [f.id] f.texts (fun s => text = ofText s) (bindText text) := binds_text h
  refine (binds_number (List.mem_singleton.2 rfl)).bind fun id hid => ?_
  refine (htexts f.absolutePath (by simp [SourceFile.texts])).bind fun absolutePath h₁ => ?_
  refine (htexts f.relativePath (by simp [SourceFile.texts])).bind fun relativePath h₂ => ?_
  refine (htexts f.baseName (by simp [SourceFile.texts])).bind fun baseName h₃ => ?_
  refine (htexts f.extension (by simp [SourceFile.texts])).bind fun extension h₄ => ?_
  refine ⟨?_, hid.2⟩
  rw [SourceFile.as, ← h₁, ← h₂, ← h₃, ← h₄, ← hid.1]

/-- Columns take an import if its ids fit and its texts are of characters. -/
theorem binds_edge (e : ImportEdge τ) :
    Binds e.ids e.texts (fun e' => e = e'.as ∧ ∀ id ∈ e'.ids, fits id = true) (bindEdge e) := by
  refine (binds_number (by simp [ImportEdge.ids])).bind fun importerId himporter => ?_
  refine (binds_text (by simp [ImportEdge.texts])).bind fun importerPath hpath => ?_
  refine (binds_text (by simp [ImportEdge.texts])).bind fun locator hlocator => ?_
  refine (binds_number? fun id hid => ?_).bind fun targetId htarget => ?_
  · simp [ImportEdge.ids, Option.mem_def.1 hid]
  refine (binds_text? fun text htext => ?_).bind fun targetPath htargetPath => ?_
  · simp [ImportEdge.texts, Option.mem_def.1 htext]
  refine ⟨?_, List.forall_mem_cons.2 ⟨himporter.2, fun id hid => htarget.2 id (by simpa using hid)⟩⟩
  rw [ImportEdge.as, ← himporter.1, ← hpath, ← hlocator, ← htarget.1, ← htargetPath]

/-! ## Texts of characters -/

/-- A file in another form is bound as it is. -/
theorem bindFile_as (f : SourceFile) : bindFile (f.as : SourceFile τ) = bindFile f := by
  simp only [bindFile, SourceFile.as, bindText_ofText]
  rfl

/-- So is an import. -/
theorem bindEdge_as (e : ImportEdge) : bindEdge (e.as : ImportEdge τ) = bindEdge e := by
  simp only [bindEdge, ImportEdge.as, bindText_ofText]
  cases e.targetPath with
  | none => rfl
  | some path =>
    simp only [Option.map_some, Option.mapM_some, bindText_ofText]
    rfl

/-- A graph whose texts can all be written is saved as that of their characters is. -/
theorem save_as {g : ImportGraph τ} {g' : ImportGraph} (hfiles : g.files = g'.files.map (·.as))
    (hedges : g.edges = g'.edges.map (·.as)) : save g = save g' := by
  have hfile (f : SourceFile) : stageFile (f.as : SourceFile τ) = stageFile f := by
    rw [stageFile, bindFile_as, stageFile]
  have hedge (e : ImportEdge) : stageEdge (e.as : ImportEdge τ) = stageEdge e := by
    rw [stageEdge, bindEdge_as, stageEdge]
  unfold save
  simp only [hfiles, hedges, List.forM_eq_forM, List.forM_map, hfile, hedge]

end Store

end ImportAtlas

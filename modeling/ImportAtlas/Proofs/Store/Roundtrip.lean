import ImportAtlas.Dot.Diagram
import ImportAtlas.Graph.Cycle
import ImportAtlas.Proofs.Store.Connect

/-!
# Saving a graph and loading it

A graph that is saved into a database that has just been created is committed there. It comes back
on the same connection and on any later one that leads to the same tables, by ascending ids. For
that its texts have to be of characters: one that cannot be written stops the save, with the
transaction still open.

## Key results

- `Store.load_save`: a graph that is saved into a new database comes back
- `Store.save_unwritable`: a graph with a text that cannot be written is not saved
-/

namespace ImportAtlas

open EStateM

namespace Store

variable {path : Path} {fresh : Bool} {host host₁ : Host} {c : Connection} {t : Tables}

/-! ## Connecting to tables -/

/-- A database has been created: it was opened, there were no tables in its storage, and connecting
has made them. -/
structure IsCreated (path : Path) (fresh : Bool) (host host' : Host) : Prop where
  exists_opened : ∃ c host₁, opened path fresh host = .ok c host₁ ∧
    committed host₁.tree c.storage = .ok none
  connect_eq : connect path fresh host = .ok () host'

theorem IsCreated.isFresh {host' : Host} (h : IsCreated path fresh host host') :
    ∃ c, IsFresh host' c := by
  obtain ⟨c, host₁, hopened, hnone⟩ := h.exists_opened
  exact isFresh_of_connect hopened hnone h.connect_eq

/-- Tables that are in a storage are those of the connection to it. -/
theorem connect_of_committed (hopened : opened path fresh host = .ok c host₁)
    (hcommitted : committed host₁.tree c.storage = .ok (some t)) :
    ∃ host₂, connect path fresh host = .ok () host₂ ∧ HasTables host₂ c t := by
  have htransaction : c.transaction = none := (ends_opened.gives _ _ hopened).2.1
  -- No tables are made where some are.
  have hmake : makeTables { host₁ with connection := some c } =
      .ok () { host₁ with connection := some c } := by
    unfold makeTables
    rw [bind_of_ok _ (connection_of_eq rfl), bind_get]
    simp only [hcommitted]
    rfl
  unfold connect
  rw [bind_of_ok _ hopened, bind_modify, bind_of_ok _ hmake]
  refine ⟨_, rfl, rfl, htransaction, ?_⟩
  dsimp only
  split
  · exact committed_appendTo hcommitted _ _
  · exact hcommitted

theorem HasTables.tables_eq (h : HasTables host c t) : tables host = .ok t host :=
  tables_of_committed h.connection_eq h.transaction_eq h.committed_eq

/-! ## A graph and its tables -/

/-- A graph of sound parts whose texts can all be written is saved into a database that has just
been created, if its ids fit into columns and there are ids for the rows of its imports. All its
rows are committed. Loading it, on this connection or on any later one to a storage with these
tables, gives the same files under the same ids, by ascending id, and the same imports in the same
order. Where the ids ascend already, the files come in the same order, so that diagrams and cycles
are the same. -/
theorem load_save {τ : Type} [DecidableEq τ] [Text.Form τ] (is : List (Insertion τ))
    (his : ∀ i : Insertion, i.as ∈ is → i.IsSound)
    (hwritten : ∀ text ∈ (ImportGraph.after is).texts, Text.Form.written? text ≠ none)
    (hfits : ∀ f ∈ (ImportGraph.after is).files, fits f.id = true)
    (hroom : (ImportGraph.after is).edges.length ≤ Tables.lastId) (path : Path) (fresh : Bool)
    (host₀ host : Host) (hcreated : IsCreated path fresh host₀ host) :
    ∃ g : ImportGraph, g.Consistent ∧ (ImportGraph.after is).IsAs g ∧
    ∃ host' c t g', save (ImportGraph.after is) host = .ok () host' ∧
      HasTables host' c t ∧ t.Holds g.files g.edges ∧ load host' = .ok g' host' ∧
      (∀ path' fresh' host₁ c₁ host₂, opened path' fresh' host₁ = .ok c₁ host₂ →
        committed host₂.tree c₁.storage = .ok (some t) →
          ∃ host₃, connect path' fresh' host₁ = .ok () host₃ ∧ load host₃ = .ok g' host₃) ∧
      (g'.files.Perm g.files ∧ (g'.files.Pairwise fun a b => a.id < b.id) ∧
        ∀ id, g'.file? id = g.file? id) ∧
      g'.edges = g.edges ∧
      ((g.files.Pairwise fun a b => a.id < b.id) →
        g'.files = g.files ∧ (∀ linkBase, g'.dotText linkBase = g.dotText linkBase) ∧
          g'.cycles = g.cycles) := by
  obtain ⟨g, hassembled, hsame⟩ := ImportGraph.exists_isAs_after is his hwritten
  have hg : g.Consistent := hassembled.consistent
  obtain ⟨c₀, hfresh⟩ := hcreated.isFresh
  -- The texts are of characters, so the graph is saved as that of the characters is.
  rw [hsame.files, List.forall_mem_map] at hfits
  rw [hsame.edges, List.length_map] at hroom
  obtain ⟨host', c, t, hsave, hconnection, hclosed, hcommitted, ht⟩ :=
    save_ok hg ⟨hfits, hroom⟩ hfresh
  rw [← save_as hsame.files hsame.edges] at hsave
  have htables : HasTables host' c t := ⟨hconnection, hclosed, hcommitted⟩
  obtain ⟨g', hload, hg', hfiles, hedges⟩ :=
    graphOfTables_ok hg hassembled.sound hassembled.neg_one_mem_of_zero_mem ht
  have hperm : g'.files.Perm g.files := hfiles ▸ List.mergeSort_perm _ _
  refine ⟨g, hg, hsame, host', c, t, g', hsave, htables, ht, load_ok htables.tables_eq hload, ?_,
    ⟨hperm, ?_, fun id => ?_⟩, hedges, ?_⟩
  · intro path' fresh' host₁ c₁ host₂ hopened hcommitted₁
    obtain ⟨host₃, hconnect, htables₃⟩ := connect_of_committed hopened hcommitted₁
    exact ⟨host₃, hconnect, load_ok htables₃.tables_eq hload⟩
  · rw [hfiles]
    exact pairwise_byId hg.nodup_ids
  · -- A file is found by its id wherever it stands.
    ext f
    rw [hg'.file?_eq_some_iff, hg.file?_eq_some_iff, hperm.mem_iff]
  · -- With the order of the files everything is the same.
    intro hascending
    have hsame : g'.files = g.files :=
      hfiles.trans (byId_eq_self (List.pairwise_map.2 hascending))
    have heq : g' = g := hg'.ext hg hsame hedges
    exact ⟨hsame, fun linkBase => by rw [heq], by rw [heq]⟩

/-- Two files that import each other, one of which gets the id 0, and then one with a lower id. -/
def insertionsAroundZero : List Insertion :=
  [.file ⟨"/p/a.js", "a.js", "a.js", "js", -1⟩, .file ⟨"/p/b.js", "b.js", "b.js", "js", 0⟩,
    .file ⟨"/p/c", "c", "c", "", -7⟩, .edge ⟨-1, "a.js", "./b", some .localFile, some 0, none⟩,
    .edge ⟨0, "b.js", "./a", some .localFile, some (-1), some "/p/a.js"⟩]

/-- A host with a file of no bytes beside the root. -/
def emptyFileHost : Host where
  tree := { entries := [(["d"], .file (.bytes []))] }
  folder := []
  environment := []
  replies := []
  stamp := ""

theorem opened_emptyFileHost : opened (Path.ofText "/d") false emptyFileHost =
    .ok { storage := .file ["d"] } emptyFileHost :=
  opened_besideRoot rfl rfl

/-- The id 0 that a file got after -1 is the one it has when it is loaded. -/
theorem load_save_around_zero :
    (ImportGraph.after insertionsAroundZero).files.map (·.id) = [-1, 0, -7] ∧
    ∃ host host' g', IsCreated (Path.ofText "/d") false emptyFileHost host ∧
      save (ImportGraph.after (insertionsAroundZero.map Insertion.as) : ImportGraph Text.Raw) host =
        .ok () host' ∧
      load host' = .ok g' host' ∧
      g'.file? 0 = some ⟨"/p/b.js", "b.js", "b.js", "js", 0⟩ ∧
      g'.edges = (ImportGraph.after insertionsAroundZero).edges := by
  have hcreated : ∃ host, IsCreated (Path.ofText "/d") false emptyFileHost host :=
    ⟨_, ⟨_, _, opened_emptyFileHost, rfl⟩, (bind_of_ok _ opened_emptyFileHost).trans rfl⟩
  obtain ⟨host, hcreated⟩ := hcreated
  obtain ⟨g, hg, hsame, host', c, t, g', hsave, -, -, hload, -, ⟨-, -, hfile⟩, hedges, -⟩ :=
    load_save (τ := Text.Raw) (insertionsAroundZero.map Insertion.as)
      (Insertion.isSound_of_as_mem (by decide)) (by decide) (by decide) (by decide)
      (Path.ofText "/d") false emptyFileHost host hcreated
  obtain rfl : g = ImportGraph.after insertionsAroundZero :=
    hsame.unique (ImportGraph.isAs_after _) hg (ImportGraph.consistent_after _)
  refine ⟨by decide, host, host', g', hcreated, hsave, hload, ?_, hedges⟩
  rw [hfile]
  decide

/-! ## Texts that cannot be written -/

/-- A file whose name starts with the byte 0x80, which begins no character. -/
def unwritableFile : SourceFile Text.Raw where
  absolutePath := ⟨[.char '/', .half 1152, .char 'a']⟩
  relativePath := ⟨[.half 1152, .char 'a']⟩
  baseName := ⟨[.half 1152, .char 'a']⟩
  extension := ⟨[]⟩
  id := 1

/-- A graph with such a file is not saved into a database that has just been created, though all
its ids fit; the transaction stays open. -/
theorem save_unwritable :
    (ImportGraph.after [.file unwritableFile]).files = [unwritableFile] ∧
      (∀ id ∈ (ImportGraph.after [.file unwritableFile]).ids, fits id = true) ∧
      ∃ host host' c, IsCreated (Path.ofText "/d") false emptyFileHost host ∧
        save (ImportGraph.after [.file unwritableFile]) host = .error .unencodable host' ∧
        host'.connection = some c ∧ c.transaction = some .empty := by
  have hconnect : ∃ host, IsCreated (Path.ofText "/d") false emptyFileHost host ∧
      ∃ host' c, save (ImportGraph.after [.file unwritableFile]) host =
        .error .unencodable host' ∧ host'.connection = some c ∧ c.transaction = some .empty :=
    ⟨_, ⟨⟨_, _, opened_emptyFileHost, rfl⟩, (bind_of_ok _ opened_emptyFileHost).trans rfl⟩,
      _, _, rfl, rfl, rfl⟩
  obtain ⟨host, hcreated, host', c, hsave⟩ := hconnect
  exact ⟨by decide, by decide, host, host', c, hcreated, hsave⟩

end Store

end ImportAtlas

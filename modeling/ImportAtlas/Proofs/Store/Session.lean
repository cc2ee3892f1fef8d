import ImportAtlas.Proofs.Store.Load
import ImportAtlas.Proofs.Store.Renew

/-!
# A graph saved to a database made anew

A session that saves a graph to a fresh database leaves its tables in a file of their own, or fails
and leaves every file as it was that another path resolves to. The graph can be loaded from there
in any later tree that still has the file and what its path goes by.

Where nothing is found at the path at first, nothing is taken away, either. If the folders above,
once they have been made, lead to a database, the graph goes to the rows that are there.

## Key results

- `Store.ends_session_save`: how saving a graph ends, and what that leaves
- `Store.Ready.session_load`: the graph is loaded again
- `Store.opened_fresh_of_missing`: opening a database anew that is found too late
-/

namespace ImportAtlas

open EStateM

namespace Store

variable {t t₀ : Tree Content} {here place folder : Place} {p : Path} {n : String}
  {host host' : Host} {tables : Tables} {g : ImportGraph}

/-! ## Connecting -/

/-- Tables are made in a file of no bytes if there is room for its journal. -/
theorem ends_makeTables_empty (hconnection : host.connection = some { storage := .file place })
    (hget : host.tree.get? place = some (.file (.bytes []))) :
    Ends makeTables host (fun _ host' => host' = stored host place .empty)
      fun _ host' => host' = host := by
  have hroot : place ≠ [] := by
    rintro rfl
    rw [Tree.get?_nil] at hget
    cases hget
  have hmake := ends_makeTables hconnection rfl fun other hother => by
    cases hother
    exact hroot
  refine ends_iff.2 ⟨fun _ host' hrun => ?_, fun e host' hrun => (hmake.fails e host' hrun).1⟩
  -- If tables were made there was room for the journal, and then it is known what was made.
  have hroom := (gives_makeTables hconnection (fun tables htables => by
    rw [hget] at htables
    cases htables) _ _ hrun).1
  rw [makeTables_of_empty hconnection hget hroom] at hrun
  injection hrun with _ hhost
  exact hhost.symm

section Saving

variable (hclosed : host.tree.IsClosed) (hlog : host.logFile = none) (hp : p.IsGrounded)
  (hplace : host.tree.Resolves host.folder p.text place)
  (hreplace : host.tree.IsReplaceable host.folder p)

include hclosed hlog hp hplace hreplace

/-- Once a fresh database is connected its tables are there, and are empty. -/
theorem ends_connect_fresh : Ends (connect p true) host
    (fun _ host' => host.SameOutside host' ∧ ∃ tree folder n,
      Ready host.tree tree host.folder p folder n ∧
      host'.connection = some { storage := .file (folder ++ [n]) } ∧
      host'.tree = tree.put (folder ++ [n]) (.file (.database .empty)))
    fun _ host' => host.SameOutside host' ∧ host.tree.Spares host'.tree place := by
  unfold connect
  refine Ends.bind ((ends_opened_renewed hclosed hlog hp hplace hreplace).mono
    (fun _ _ h => h) ?_) ?_
  · rintro _ _ ⟨tree, rfl, hspares⟩
    exact ⟨⟨rfl, rfl, rfl, rfl⟩, hspares⟩
  · rintro _ _ ⟨tree, folder, n, rfl, rfl, hready⟩
    refine ends_bind_modify ?_
    -- The file was just planted, so it is empty and has no tables.
    have hget : (tree.put (folder ++ [n]) (.file (.bytes []))).get? (folder ++ [n]) =
        some (.file (.bytes [])) := Tree.get?_put_self _ (by simp) _
    refine Ends.bind ((ends_makeTables_empty rfl hget).mono (fun _ _ h => h) ?_) ?_
    · rintro _ _ rfl
      exact ⟨⟨rfl, rfl, rfl, rfl⟩, hready.spares_put hclosed hp hplace _⟩
    · rintro _ _ rfl
      have hlog' : (stored { host with tree := tree.put (folder ++ [n]) (.file (.bytes [])) }
          (folder ++ [n]) .empty).logFile = none := hlog
      obtain ⟨host₁, hrun, hsame, htree, hconnection⟩ :=
        Act.log_of_logFile_eq hlog' .debug channel ("Graph DB connected at " ++ p.text)
      have hstored : host.SameOutside (stored { host with
          tree := tree.put (folder ++ [n]) (.file (.bytes [])) } (folder ++ [n]) .empty) :=
        ⟨rfl, rfl, rfl, rfl⟩
      -- The log is not a file here, so telling it leaves the tree.
      refine ends_of_ok hrun ⟨hstored.trans hsame, tree, folder, n, hready, hconnection, ?_⟩
      rw [htree]
      exact Tree.put_put _ _ _ _

omit hclosed hlog hp hplace hreplace in
/-- A graph goes into tables without rows, or the tree is left as it is. -/
theorem ends_save (hconnection : host.connection = some { storage := .file place })
    (hget : host.tree.get? place = some (.file (.database .empty))) (g : ImportGraph) :
    Ends (save g) host
      (fun _ host' => host' = stored host place (Tables.empty.withRows g.files g.edges))
      fun _ host' => host.SameOutside host' ∧ host'.tree = host.tree := by
  have hcommitted : committed host.tree (.file place) = .ok (some .empty) := by
    simp only [committed, hget]
  refine ends_iff.2 ⟨fun _ host' hrun => ?_, fun e host' hrun => ?_⟩
  · obtain ⟨-, tables, htables, rfl⟩ := gives_save g hconnection _ _ hrun
    rw [hcommitted] at htables
    cases htables
    rfl
  · -- Of the ways in which a save ends, those that fail leave the tree as it was.
    obtain ⟨_, _, _, _, _, -, -, hsave, -⟩ | ⟨_, hsave⟩ | ⟨_, _, _, _, -, -, -, -, -, hsave⟩ :=
      save_withRows g hconnection rfl
    all_goals
      rw [hsave] at hrun
      cases hrun
    · exact ⟨.refl _, rfl⟩
    · exact ⟨⟨rfl, rfl, rfl, rfl⟩, rfl⟩

/-- When a graph has been saved its rows are in the new file. Otherwise no file that another path
resolves to has been changed. -/
theorem ends_session_save (g : ImportGraph) : Ends (session p true (save g)) host
    (fun _ host' => host.SameOutside host' ∧ ∃ tree folder n,
      Ready host.tree tree host.folder p folder n ∧ host'.tree = tree.put (folder ++ [n])
        (.file (.database (Tables.empty.withRows g.files g.edges))))
    fun _ host' => host.SameOutside host' ∧ host.tree.Spares host'.tree place := by
  have hconnect := ends_connect_fresh hclosed hlog hp hplace hreplace
  -- What fails after the file has been renewed leaves it empty, but leaves all else.
  cases hrun : connect p true host with
  | error e host₁ =>
    obtain ⟨hsame, hspares⟩ := hconnect.fails _ _ hrun
    exact ends_of_error (session_of_connect_error hrun)
      ⟨hsame.trans ⟨rfl, rfl, rfl, rfl⟩, hspares⟩
  | ok _ host₁ =>
    obtain ⟨hsame, tree, folder, n, hready, hconnection, htree⟩ := hconnect.gives _ _ hrun
    have hget : host₁.tree.get? (folder ++ [n]) = some (.file (.database .empty)) := by
      rw [htree]
      exact Tree.get?_put_self _ (by simp) _
    have hsave := ends_save hconnection hget g
    cases hrun' : save g host₁ with
    | error e host₂ =>
      obtain ⟨hsame', htree'⟩ := hsave.fails _ _ hrun'
      refine ends_of_error (session_of_error hrun hrun')
        ⟨(hsame.trans hsame').trans ⟨rfl, rfl, rfl, rfl⟩, ?_⟩
      show host.tree.Spares host₂.tree place
      rw [htree', htree]
      exact hready.spares_put hclosed hp hplace _
    | ok _ host₂ =>
      -- The session closes the connection, which the tree does not see.
      obtain rfl := hsave.gives _ _ hrun'
      refine ends_of_ok (session_of_ok hrun hrun')
        ⟨hsame.trans ⟨rfl, rfl, rfl, rfl⟩, tree, folder, n, hready, ?_⟩
      simp only [stored, htree, Tree.put_put]

end Saving

/-! ## Loading -/

/-- From a database that is there a graph is loaded, and no file is changed. -/
theorem session_load_of_opened (hlog : host.logFile = none)
    (hopened : opened p false host = .ok { storage := .file place } host)
    (hget : host.tree.get? place = some (.file (.database tables)))
    (hload : graphOfTables tables = .ok g) :
    ∃ host', session p false load host = .ok g host' ∧ host'.tree = host.tree := by
  have hcommitted : committed host.tree (.file place) = .ok (some tables) := by
    simp only [committed, hget]
  -- The file has its tables, so none are made.
  have hmake : makeTables { host with connection := some { storage := .file place } } =
      .ok () { host with connection := some { storage := .file place } } := by
    unfold makeTables
    rw [bind_of_ok _ (connection_of_eq rfl), bind_get]
    simp only [hcommitted]
    rfl
  have hlog' : { host with connection := some { storage := .file place } }.logFile = none := hlog
  obtain ⟨host₁, hrun, hsame, htree, hconnection⟩ :=
    Act.log_of_logFile_eq hlog' .debug channel ("Graph DB connected at " ++ p.text)
  have hconnect : connect p false host = .ok () host₁ := by
    unfold connect
    rw [bind_of_ok _ hopened, bind_modify, bind_of_ok _ hmake]
    exact hrun
  have htables : Store.tables host₁ = .ok tables host₁ :=
    tables_of_committed hconnection rfl (by rw [htree]; exact hcommitted)
  exact ⟨_, session_of_ok hconnect (load_ok htables hload), htree⟩

/-- A database that was made anew is found in a later tree that keeps what its path goes by. -/
theorem Ready.opened_eq {content : Content}
    (h : Ready t₀ t host.folder p folder n) (hp : p.IsGrounded) (hkeeps : t.Keeps host.tree)
    (hclosed : host.tree.IsClosed)
    (hget : host.tree.get? (folder ++ [n]) = some (.file content)) :
    opened p false host = .ok { storage := .file (folder ++ [n]) } host := by
  have hlink : ∀ target, t.get? (folder ++ [n]) ≠ some (.link target) := by
    rw [h.get?_eq_none]
    exact nofun
  have hlink' : ∀ target, host.tree.get? (folder ++ [n]) ≠ some (.link target) := by
    rw [hget]
    exact nofun
  have hfile : host.tree.lookup host.folder p.text = .ok (folder ++ [n], .file content) :=
    hkeeps.lookup_of_locate (h.locate_eq hp .followed) hlink hget nofun
  -- The store finds the file by its own walk, which a tree that keeps the first one does not
  -- change.
  obtain ⟨-, -, hplace⟩ := placeOf?_of_keeps hp h.names_eq h.ne_up h.lookup_parent h.isClosed hlink
    h.placeOf?_eq
  have hstorage : storageOf { path := p.text } host.tree host.folder =
      .ok (.file (folder ++ [n])) := by
    unfold storageOf
    rw [isInMemory_of_isGrounded hp]
    simp only [hplace _ hkeeps hclosed hlink', hget, Address.modelFile?, Address.option?,
      List.find?_nil, Option.map_none, Bool.false_eq_true, ↓reduceIte]
    rfl
  rw [opened_of_lookup h.hasNul_eq hfile (hkeeps.lookup_folder h.lookup_parent)
    (ofText_text_of_isGrounded hp) hstorage, Address.isReadOnly_of_path]

/-- A graph that was saved is loaded as it was, if the ids of its files ascend. -/
theorem Ready.session_load (h : Ready t₀ t host.folder p folder n) (hp : p.IsGrounded)
    (hkeeps : t.Keeps host.tree) (hclosed : host.tree.IsClosed) (hlog : host.logFile = none)
    (hg : g.IsAssembled) (hids : (g.files.map (·.id)).Pairwise (· < ·))
    (hget : host.tree.get? (folder ++ [n]) =
      some (.file (.database (Tables.empty.withRows g.files g.edges)))) :
    ∃ host', session p false load host = .ok g host' ∧ host'.tree = host.tree := by
  obtain ⟨g', hload, hg', hfiles, hedges⟩ := graphOfTables_ok hg.consistent hg.sound
    hg.neg_one_mem_of_zero_mem (Tables.holds_withRows g.files g.edges)
  -- A graph without gaps in its ids is determined by its files and edges.
  obtain rfl : g' = g := hg'.ext hg.consistent (hfiles.trans (byId_eq_self hids)) hedges
  exact session_load_of_opened hlog (h.opened_eq hp hkeeps hclosed hget) hget hload

/-! ## Behind a missing folder -/

/-- Where nothing is found at first, a database that stands at the path once the folders above have
been made is opened as it is. -/
theorem opened_fresh_of_missing {text : String} {a : Address} {place : Place} {content : Content}
    (hmissing : Act.removeFile p.text host = .error (.access .missing text) host)
    (hfolders : Act.makeFolders p.parent host = .ok () host₁)
    (haddress : Address.ofText p.text = .ok a)
    (hstorage : storageOf a host₁.tree host₁.folder = .ok (.file place))
    (hget : host₁.tree.get? place = some (.file content)) :
    opened p true host =
      .ok { storage := .file place, isReadOnly := a.isReadOnly } host₁ := by
  have hplant : Storage.plant host₁.tree (.file place) = host₁.tree := by
    rw [Storage.plant, hget]
    rfl
  unfold opened
  extract_lets refuse
  rw [if_pos rfl]
  -- That the file is missing is caught.
  refine (bind_of_ok _ (tryCatch_of_ok _ ((bind_of_ok _
    ((tryCatch_of_error _ hmissing).trans rfl)).trans hfolders))).trans ?_
  rw [bind_get, haddress]
  simp only [hstorage, hplant]
  rfl

/-- A graph of one file. -/
def earlierTables : Tables :=
  Tables.empty.withRows [⟨"/a.js", "a.js", "a.js", "js", 1⟩] []

/-- A host where it has been saved beside the root. -/
def earlierHost : Host where
  tree := { entries := [(["d"], .file (.database earlierTables))] }
  folder := []
  environment := []
  replies := []
  stamp := ""

/-- The same with a folder beside the database. -/
def foundedHost : Host :=
  { earlierHost with tree := earlierHost.tree.put ["new"] .folder }

/-- The path climbs out of a folder that is missing. -/
private theorem stepsOf_climbing : stepsOf "/new/../d" = ["new", "..", "d"] ∧
    stepsOf "/new/.." = ["new", ".."] ∧ stepsOf "/new" = ["new"] := by
  decide

/-- It starts at the root. -/
private theorem startOf_climbing : startOf [] "/new/../d" = [] ∧ startOf [] "/new/.." = [] := by
  decide

private theorem isLongName_climbing : isLongName "new" = false ∧ isLongName "d" = false := by
  decide

section Founded

variable {t : Tree Content} (hnew : t.get? ["new"] = some .folder)
  (hget : t.get? ["d"] = some (.file (.database earlierTables)))

include hnew

/-- Once the folder is there, its parent is the root. -/
private theorem lookup_above : t.lookup [] "/new/.." = .ok ([], .folder) := by
  have hfolder : t.isFolder ["new"] = true := Tree.isFolder_iff.2 hnew
  have hroot : t.isFolder [] = true := Tree.isFolder_iff.2 t.get?_nil
  refine Tree.lookup_eq_ok_iff.2 ?_
  rw [Tree.locate, if_neg (by decide), if_neg (by decide), stepsOf_climbing.2.1,
    startOf_climbing.2]
  simp [Tree.walk, isLongName_climbing, hfolder, hroot, hnew, t.get?_nil]

include hget

/-- So the path leads to the earlier database. -/
private theorem lookup_climbing :
    t.lookup [] "/new/../d" = .ok (["d"], .file (.database earlierTables)) := by
  have hfolder : t.isFolder ["new"] = true := Tree.isFolder_iff.2 hnew
  have hroot : t.isFolder [] = true := Tree.isFolder_iff.2 t.get?_nil
  refine Tree.lookup_eq_ok_iff.2 ?_
  rw [Tree.locate, if_neg (by decide), if_neg (by decide), stepsOf_climbing.1, startOf_climbing.1]
  simp [Tree.walk, isLongName_climbing, hfolder, hroot, hnew, hget]

/-- It is where the database is stored. -/
private theorem storageOf_climbing :
    storageOf { path := "/new/../d" } t [] = .ok (.file ["d"]) := by
  have hroot : t.get? [] = some .folder := t.get?_nil
  have hsegments : segmentsOf "/new/../d" = ["", "new", "..", "d"] := by
    decide
  have hfree : isBlocked t [] "new" = false ∧ isBlocked t [] "d" = false := by
    simp [isBlocked, hroot, isLongName_climbing]
  have hsize : ¬ pathLimit < pathSize ["new"] ∧ ¬ pathLimit < pathSize ["d"] ∧
      pathSize ["d"] + journalSuffix.utf8ByteSize ≤ pathLimit + 1 := by
    decide
  -- Going up again takes the store to the file beside the new folder.
  have hplace : placeOf? t [] "/new/../d" = some ["d"] := by
    rw [placeOf?, startOf_climbing.1]
    simp [follow, hsegments, hfree, hnew, hget, hsize]
  unfold storageOf
  rw [show Address.isInMemory { path := "/new/../d" } = false by decide, hplace]
  simp only [Bool.false_eq_true, ↓reduceIte, Address.modelFile?, Address.option?,
    List.find?_nil, Option.map_none, hget]
  rfl

/-- It is opened with the tables in it. -/
private theorem opened_climbing {host : Host} (hhere : host.folder = []) (htree : host.tree = t) :
    opened (Path.ofText "/new/../d") false host = .ok { storage := .file ["d"] } host := by
  have hpath : (Path.ofText "/new/../d").text = "/new/../d" ∧
      (Path.ofText "/new/../d").parent.text = "/new/.." := by
    decide
  have haddress : Address.ofText (Path.ofText "/new/../d").text = .ok { path := "/new/../d" } := by
    rw [hpath.1]
    rfl
  -- Now that the folder is there, the way through it leads to the old file.
  have hlookup : host.tree.lookup host.folder (Path.ofText "/new/../d").text =
      .ok (["d"], .file (.database earlierTables)) := by
    rw [htree, hhere, hpath.1]
    exact lookup_climbing hnew hget
  have hparent : host.tree.lookup host.folder (Path.ofText "/new/../d").parent.text =
      .ok ([], .folder) := by
    rw [htree, hhere, hpath.2]
    exact lookup_above hnew
  have hstorage : storageOf { path := "/new/../d" } host.tree host.folder = .ok (.file ["d"]) := by
    rw [htree, hhere]
    exact storageOf_climbing hnew hget
  rw [opened_of_lookup (by decide) hlookup hparent haddress hstorage, Address.isReadOnly_of_path]

end Founded

/-- Until the folder is made, nothing is found. -/
private theorem locate_missing (last : LastStep) :
    earlierHost.tree.locate [] last "/new/../d" = .error .missing ∧
      earlierHost.tree.locate [] last "/new/.." = .error .missing := by
  constructor
  · rw [Tree.locate, if_neg (by decide), if_neg (by decide), stepsOf_climbing.1, Tree.walk]
    cases last <;> rfl
  · rw [Tree.locate, if_neg (by decide), if_neg (by decide), stepsOf_climbing.2.1, Tree.walk]
    cases last <;> rfl

/-- The folder is made only after the file has been looked for. -/
private theorem makeFolders_climbing :
    Act.makeFolders ⟨.root, ["new", ".."]⟩ earlierHost = .ok () foundedHost := by
  have hpath : (Path.mk .root ["new", ".."]).text = "/new/.." ∧
      (Path.mk .root ["new"]).text = "/new" := by
    decide
  have hchange : Act.change "/new/.." Tree.makeFolder earlierHost =
      .error (.access .missing "/new/..") earlierHost := by
    refine bind_of_error _ ?_
    rw [Host.ask_of_not_hasNul _ (by decide), Tree.makeFolder,
      show earlierHost.folder = [] from rfl, (locate_missing .kept).2]
    rfl
  -- The folder is missing, so the fault is not that it is in the way.
  have hasked : Act.isFolder "/new/.." earlierHost = .ok false earlierHost := by
    have hlookup : earlierHost.tree.lookup [] "/new/.." = .error .missing := by
      rw [Tree.lookup, (locate_missing .followed).2]
    exact (bind_of_ok _ (Act.probe_of_missing hlookup)).trans rfl
  have habove : Act.makeFolder "/new/.." earlierHost =
      .error (.access .missing "/new/..") earlierHost := by
    simp only [Act.makeFolder, tryCatch, tryCatchThe, MonadExceptOf.tryCatch, EStateM.tryCatch,
      hchange]
    exact (bind_of_ok _ hasked).trans rfl
  -- Only `/new` has to be made; with it there, `/new/..` is the root.
  have hmake : Act.makeFolders ⟨.root, ["new"]⟩ earlierHost = .ok () foundedHost := by
    have hlocate : earlierHost.tree.locate earlierHost.folder .kept "/new" =
        .ok (.vacant ["new"]) := by
      rw [Tree.locate, if_neg (by decide), if_neg (by decide), stepsOf_climbing.2.2, Tree.walk]
      rfl
    unfold Act.makeFolders
    rw [hpath.2]
    refine tryCatch_of_ok _ (tryCatch_of_ok _ (Act.change_of_ok (by decide) ?_))
    rw [Tree.makeFolder, hlocate]
  unfold Act.makeFolders
  simp only [tryCatch, tryCatchThe, MonadExceptOf.tryCatch, EStateM.tryCatch, hpath.1, habove]
  exact (bind_of_ok _ hmake).trans (Act.makeFolder_of_lookup (by decide) (lookup_above rfl))

/-- Behind a missing folder nothing is found that could be taken away. But once the folder has been
made, the path leads to a database, which keeps the rows it had. -/
theorem session_save_climbing : ∃ host' g host'',
    session (Path.ofText "/new/../d") true (save (.empty : ImportGraph)) earlierHost =
      .ok () host' ∧
      session (Path.ofText "/new/../d") false load host' = .ok g host'' ∧
      g.files ≠ ImportGraph.empty.files := by
  have hpath : (Path.ofText "/new/../d").text = "/new/../d" ∧
      (Path.ofText "/new/../d").parent = ⟨.root, ["new", ".."]⟩ ∧
      (Path.mk .root ["new", ".."]).text = "/new/.." := by
    decide
  have hremove : Act.removeFile "/new/../d" earlierHost =
      .error (.access .missing "/new/../d") earlierHost := by
    refine bind_of_error _ (bind_of_error _ ?_)
    rw [Host.ask_of_not_hasNul _ (by decide), Tree.removeFile,
      show earlierHost.folder = [] from rfl, (locate_missing .kept).1]
    rfl
  have hopened : opened (Path.ofText "/new/../d") true earlierHost =
      .ok { storage := .file ["d"] } foundedHost := by
    rw [opened_fresh_of_missing (hpath.1 ▸ hremove) (hpath.2.1 ▸ makeFolders_climbing)
      (hpath.1 ▸ rfl) (storageOf_climbing rfl rfl) rfl, Address.isReadOnly_of_path]
  obtain ⟨host₁, host₂, hconnect, hsave, hhere, hlog, htree⟩ : ∃ host₁ host₂,
      connect (Path.ofText "/new/../d") true earlierHost = .ok () host₁ ∧
        save (.empty : ImportGraph) host₁ = .ok () host₂ ∧ host₂.folder = [] ∧
        host₂.logFile = none ∧
          host₂.tree = foundedHost.tree.put ["d"] (.file (.database earlierTables)) :=
    ⟨_, _, (bind_of_ok _ hopened).trans rfl, rfl, rfl, rfl, rfl⟩
  have hget : host₂.tree.get? ["d"] = some (.file (.database earlierTables)) := by
    rw [htree]
    rfl
  have hnew : host₂.tree.get? ["new"] = some .folder := by
    rw [htree]
    rfl
  obtain ⟨g, hload, hfiles⟩ : ∃ g, graphOfTables earlierTables = .ok g ∧ g.files ≠ [] := by
    have hfiles : earlierTables.filesById = earlierTables.files := List.mergeSort_singleton _
    have himports : earlierTables.importsById = [] := List.mergeSort_nil
    unfold graphOfTables
    rw [hfiles, himports]
    exact ⟨_, rfl, by decide⟩
  let host' : Host := { host₂ with connection := none }
  have hlog' : host'.logFile = none := hlog
  obtain ⟨host'', hsession, -⟩ :=
    session_load_of_opened hlog' (opened_climbing hnew hget hhere rfl) hget hload
  exact ⟨host', g, host'', session_of_ok hconnect hsave, hsession, hfiles⟩

end Store

end ImportAtlas

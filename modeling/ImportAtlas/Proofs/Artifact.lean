import ImportAtlas.Proofs.Assembly
import ImportAtlas.Proofs.Describing
import ImportAtlas.Proofs.Rerun.Run
import ImportAtlas.Proofs.Store.Session

/-!
# What a run leaves behind

A run may stop at any step. Before the graph is complete nothing has been written; while the graph
is saved the file of the diagram stays as it is; and the layout program is called once at most,
when all that was to be written is complete, so that an error of rendering leaves it complete.

## Key results

- `run_ends`: how a run ends, and what it leaves
- `IsComplete`: the database and the diagram can be read back
-/

namespace ImportAtlas

open EStateM

/-! ## Rendering -/

/-- A call that has a layout program render a diagram file as an image file. -/
def Layout.IsRendering (l : Layout) (diagram image : Path) (c : Call) : Prop :=
  c.timeout = l.timeout ∧ ∃ engine, c.arguments = l.command ::
    ["-T" ++ String.ofList (image.suffix.toList.drop 1), "-K" ++ engine, diagram.text, "-o",
      image.text].map .text

/-- The tree is the same as before, and one call has been made at most, which is an allowed one. -/
structure Host.CallsOnce (allowed : Call → Prop) (host host' : Host) : Prop where
  tree_eq : host'.tree = host.tree
  folder_eq : host'.folder = host.folder
  logFile_eq : host'.logFile = host.logFile
  exists_calls : ∃ calls, host'.calls = host.calls ++ calls ∧ calls.length ≤ 1 ∧
    ∀ call ∈ calls, allowed call

/-- There may have been no call at all. -/
theorem Host.CallsOnce.refl (allowed : Call → Prop) (host : Host) : host.CallsOnce allowed host :=
  ⟨rfl, rfl, rfl, [], (List.append_nil _).symm, Nat.zero_le 1, nofun⟩

/-- More calls may be allowed. -/
theorem Host.CallsOnce.mono {allowed allowed' : Call → Prop} {host host' : Host}
    (h : host.CallsOnce allowed host') (hallowed : ∀ call, allowed call → allowed' call) :
    host.CallsOnce allowed' host' := by
  obtain ⟨calls, heq, hlength, hall⟩ := h.exists_calls
  exact ⟨h.tree_eq, h.folder_eq, h.logFile_eq, calls, heq, hlength,
    fun call hcall => hallowed call (hall call hcall)⟩

namespace Layout

variable {host : Host}

/-- The arguments of the layout program are put together without asking the host. -/
theorem asks_arguments (l : Layout) (diagram image : Path) :
    Asks (l.arguments diagram image) host
      (fun call => l.IsRendering diagram image ⟨call, l.timeout⟩) fun _ => True := by
  unfold arguments
  dsimp only
  split
  · exact asks_throw trivial
  · exact (Act.asks_spell host l.engine).bind fun engine _ => asks_pure ⟨rfl, engine, rfl⟩

/-- So is the line of a call. -/
theorem asks_lineOf (call : List Value) :
    Asks (lineOf call) host (fun _ => True) fun _ => True := by
  unfold lineOf
  refine Asks.bind (asks_mapM (B := fun _ => True) fun v _ => ?_) fun words _ => asks_pure trivial
  split
  · exact asks_pure trivial
  · split
    · exact asks_throw trivial
    · exact asks_pure trivial

/-- However rendering ends, the layout program has been called once at most. -/
theorem ends_render (l : Layout) (diagram image : Path) (hlog : host.logFile = none) :
    Ends (l.render diagram image) host
      (fun _ host' => host.CallsOnce (l.IsRendering diagram image) host')
      fun _ host' => host.CallsOnce (l.IsRendering diagram image) host' := by
  unfold render
  refine (asks_arguments l diagram image).ends_bind (fun _ _ => .refl _ host) fun call hcall => ?_
  refine (asks_lineOf call).ends_bind (fun _ _ => .refl _ host) fun line _ => ?_
  obtain ⟨host₁, hrun, hsame, htree, -⟩ :=
    Act.log_of_logFile_eq hlog .debug channel ("Running " ++ line)
  refine ends_bind_of_ok hrun ?_
  extract_lets refuse
  let host₂ : Host := { host₁ with
    replies := host₁.replies.drop 1, calls := host₁.calls ++ [⟨call, l.timeout⟩] }
  -- From here on the call has been made, whatever is answered.
  have hcalled {host' : Host} (htree' : host'.tree = host₁.tree)
      (hsame' : host₂.SameOutside host') :
      host.CallsOnce (l.IsRendering diagram image) host' := by
    refine ⟨htree'.trans htree, hsame'.folder_eq.trans hsame.folder_eq,
      hsame'.logFile_eq.trans hsame.logFile_eq, [⟨call, l.timeout⟩], ?_, Nat.le_refl 1,
      List.forall_mem_singleton.2 hcall⟩
    rw [hsame'.calls_eq, ← hsame.calls_eq]
  have hcall' : Act.call call l.timeout host₁ =
      .ok (host₁.replies.head?.getD .notFound) host₂ := rfl
  refine ends_bind_of_ok hcall' ?_
  have hrefuse (reason : String) : Ends (refuse reason : Act Unit) host₂
      (fun _ host' => host.CallsOnce (l.IsRendering diagram image) host')
      fun _ host' => host.CallsOnce (l.IsRendering diagram image) host' :=
    ends_throw (hcalled rfl (.refl _))
  -- No answer to the call changes the tree, so all three ends are the same host but for the log.
  split
  · exact hrefuse _
  · refine (Act.asks_spell _ l.timeout).ends_bind (fun _ _ => hcalled rfl (.refl _)) ?_
    exact fun shown _ => hrefuse _
  · split
    · have hlog₂ : host₂.logFile = none := hsame.logFile_eq.trans hlog
      obtain ⟨host₃, hrun₃, hsame₃, htree₃, -⟩ :=
        Act.log_of_logFile_eq hlog₂ .info channel ("Image written to " ++ image.text)
      exact ends_of_ok hrun₃ (hcalled htree₃ hsame₃)
    · exact hrefuse _

end Layout

/-! ## The steps of a run -/

/-- With links followed, the database and the diagram of a run are files at different places, and
what stands at the path of the database can be replaced. -/
structure Settings.OutputsApart (s : Settings) (t : Tree Content) (here database dot : Place) :
    Prop where
  resolves_database : ∀ file, s.databaseFile = .text file →
    t.Resolves here (s.outputPath file).text database
  isReplaceable_database : ∀ file, s.databaseFile = .text file →
    t.IsReplaceable here (s.outputPath file)
  resolves_dot : ∀ file, s.dotFile = .text file → t.Resolves here (s.outputPath file).text dot
  ne : dot ≠ database

/-- The graph can be read back from the database, if it was to be saved. -/
def HoldsGraph (s : Settings) (outputs : Outputs) (g : ImportGraph) (host : Host) : Prop :=
  outputs.persist = true → ∃ file host', s.databaseFile = .text file ∧
    Store.session (s.outputPath file) false Store.load host = .ok g host'

/-- The text can be read back from the file of the diagram, if it was to be written. -/
def HoldsText (s : Settings) (outputs : Outputs) (text : String) (host : Host) : Prop :=
  (outputs.describe || outputs.render) = true → ∃ file, s.dotFile = .text file ∧
    readSource (s.outputPath file) host = .ok text host

/-- All that a run was to write can be read back. -/
structure IsComplete (s : Settings) (outputs : Outputs) (g : ImportGraph) (text : String)
    (host : Host) : Prop where
  holdsGraph : HoldsGraph s outputs g host
  holdsText : HoldsText s outputs text host

section Steps

variable {s : Settings} {outputs : Outputs} {g : ImportGraph} {text : String}
  {host hostB hostC : Host} {database dot : Place}

/-- The graph has been saved to a database made anew, if it was to be saved. -/
def IsSavedAnew (s : Settings) (outputs : Outputs) (g : ImportGraph) (t : Tree Content)
    (host : Host) : Prop :=
  if outputs.persist then
    ∃ file tree folder n, s.databaseFile = .text file ∧
      Store.Ready t tree host.folder (s.outputPath file) folder n ∧ host.tree = tree.put
        (folder ++ [n]) (.file (.database (Tables.empty.withRows g.files g.edges)))
  else host.tree = t

/-- The text has been written to the file of the diagram, if it was to be written. -/
def IsInscribed (s : Settings) (outputs : Outputs) (text : String) (t : Tree Content)
    (host : Host) : Prop :=
  if outputs.describe || outputs.render then
    ∃ file place, s.dotFile = .text file ∧
      t.Inscribed host.tree host.folder (s.outputPath file) text place
  else host.tree = t

/-- The database is saved anew, or whatever stands in its place is spared. -/
theorem ends_persist (hs : s.IsAccepted) (hclosed : host.tree.IsClosed)
    (hlog : host.logFile = none) (hapart : s.OutputsApart host.tree host.folder database dot) :
    Ends (persist s outputs g) host
      (fun _ host' => host.SameOutside host' ∧ IsSavedAnew s outputs g host.tree host')
      fun _ host' => host.SameOutside host' ∧ host.tree.Spares host'.tree database := by
  unfold persist IsSavedAnew
  split
  · refine (asks_outputFile s host s.databaseFile).ends_bind
      (fun _ _ => ⟨.refl _, Tree.spares_refl _ _⟩) ?_
    rintro _ ⟨file, hfile, rfl⟩
    -- The session is the only part that changes anything.
    refine (Store.ends_session_save hclosed hlog (hs.isGrounded_outputPath file)
      (hapart.resolves_database file hfile) (hapart.isReplaceable_database file hfile) g).bind ?_
    rintro _ host' ⟨hsame, tree, folder, n, hready, htree⟩
    refine ends_pure ⟨hsame, file, tree, folder, n, hfile, ?_, htree⟩
    rwa [hsame.folder_eq]
  · exact ends_pure ⟨.refl _, rfl⟩

/-- The diagram is written, or the files are as before. -/
theorem ends_describe (hs : s.IsAccepted) (hclosed : host.tree.IsClosed)
    (hlog : host.logFile = none) : Ends (describe s outputs text) host
      (fun _ host' => host.SameOutside host' ∧ IsInscribed s outputs text host.tree host')
      fun _ host' => host.SameOutside host' ∧ host.tree.Founded host'.tree := by
  unfold describe IsInscribed
  -- With no diagram asked for nothing is written, and the tree is the old one.
  split
  · refine (asks_outputFile s host s.dotFile).ends_bind (fun _ _ => ⟨.refl _, .refl hclosed⟩) ?_
    rintro _ ⟨file, hfile, rfl⟩
    refine (ends_writeDiagram hclosed hlog (hs.isGrounded_outputPath file) text).bind ?_
    rintro _ host' ⟨hsame, place, hinscribed⟩
    refine ends_pure ⟨hsame, file, place, hfile, ?_⟩
    rwa [hsame.folder_eq]
  · exact ends_pure ⟨.refl _, rfl⟩

/-- A call that renders the diagram of a run, if it is to be rendered. -/
def IsDepiction (s : Settings) (outputs : Outputs) (c : Call) : Prop :=
  outputs.render = true ∧ ∃ file, s.dotFile = .text file ∧
    s.layout.IsRendering (s.outputPath file) (s.outputPath s.imageFile) c

/-- The layout program is called once at most. -/
theorem ends_depict (hlog : host.logFile = none) : Ends (depict s outputs) host
    (fun _ host' => host.CallsOnce (IsDepiction s outputs) host')
    fun _ host' => host.CallsOnce (IsDepiction s outputs) host' := by
  unfold depict
  split
  · rename_i hrender
    dsimp only
    refine (asks_outputFile s host s.dotFile).ends_bind (fun _ _ => .refl _ host) ?_
    rintro _ ⟨file, hfile, rfl⟩
    -- The one call that is made is the one that the settings have.
    have hallowed (call : Call) (hcall : s.layout.IsRendering (s.outputPath file)
        (s.outputPath s.imageFile) call) : IsDepiction s outputs call :=
      ⟨hrender, file, hfile, hcall⟩
    refine Ends.bind ((s.layout.ends_render _ _ hlog).mono (fun _ _ h => h.mono hallowed)
      fun _ _ h => h.mono hallowed) ?_
    exact fun _ host' h => ends_pure h
  · exact ends_pure (.refl _ host)

/-- The tree is closed when the graph has been saved. -/
theorem IsSavedAnew.isClosed {t : Tree Content} (hsaved : IsSavedAnew s outputs g t hostB)
    (hclosed : t.IsClosed) : hostB.tree.IsClosed := by
  unfold IsSavedAnew at hsaved
  split at hsaved
  · obtain ⟨file, tree, folder, n, -, hready, htree⟩ := hsaved
    exact htree ▸ hready.isClosed_put _
  · exact hsaved ▸ hclosed

section Saved

variable {t : Tree Content} (hs : s.IsAccepted) (hg : g.IsAssembled)
  (hids : (g.files.map (·.id)).Pairwise (· < ·)) (hlog : hostC.logFile = none)
  (hfolder : hostB.folder = hostC.folder) (hsaved : IsSavedAnew s outputs g t hostB)

include hs hg hids hlog hfolder hsaved

/-- The graph is read back from a tree that keeps all there was when it had been saved, if the file
of the database is the same. -/
theorem holdsGraph_of_keeps (hkeeps : hostB.tree.Keeps hostC.tree) (hclosed : hostC.tree.IsClosed)
    (hdatabase : ∀ file tree folder n, s.databaseFile = .text file →
      Store.Ready t tree hostC.folder (s.outputPath file) folder n →
      hostB.tree = tree.put (folder ++ [n])
        (.file (.database (Tables.empty.withRows g.files g.edges))) →
      hostC.tree.get? (folder ++ [n]) =
        some (.file (.database (Tables.empty.withRows g.files g.edges)))) :
    HoldsGraph s outputs g hostC := by
  unfold IsSavedAnew at hsaved
  intro hpersist
  rw [if_pos hpersist, hfolder] at hsaved
  obtain ⟨file, tree, folder, n, hfile, hready, htree⟩ := hsaved
  -- What the later steps keep is kept from the tree in which the database was put.
  have hput : tree.Keeps hostB.tree := htree ▸ hready.keeps_put _
  obtain ⟨host', hload, -⟩ := hready.session_load (hs.isGrounded_outputPath file)
    (hput.trans hkeeps) hclosed hlog hg hids (hdatabase file tree folder n hfile hready htree)
  exact ⟨file, host', hfile, hload⟩

/-- New folders do not keep the graph from being read back. -/
theorem holdsGraph_of_founded (hfounded : hostB.tree.Founded hostC.tree) :
    HoldsGraph s outputs g hostC := by
  refine holdsGraph_of_keeps hs hg hids hlog hfolder hsaved hfounded.keeps hfounded.isClosed ?_
  intro file tree folder n _ _ htree
  apply hfounded.get?_of_some
  rw [htree]
  exact Tree.get?_put_self _ (by simp) _

/-- When the database and the diagram have been written, both can be read back: the diagram has not
been written over the database, whose place its path does not resolve to. -/
theorem isComplete_of_inscribed (hclosed : t.IsClosed)
    (hapart : s.OutputsApart t hostC.folder database dot)
    (hinscribed : IsInscribed s outputs text hostB.tree hostC) :
    IsComplete s outputs g text hostC := by
  have hclosedB := hsaved.isClosed hclosed
  unfold IsInscribed at hinscribed
  split at hinscribed
  · obtain ⟨dotFile, spot, hdot, hinscribed⟩ := hinscribed
    refine ⟨?_, fun _ => ⟨dotFile, hdot, hinscribed.readSource_eq⟩⟩
    refine holdsGraph_of_keeps hs hg hids hlog hfolder hsaved hinscribed.keeps
      hinscribed.isClosed ?_
    intro file tree folder n hfile hready htree
    refine hinscribed.get?_file ?_ (htree ▸ Tree.get?_put_self _ (by simp) _)
    rintro rfl
    -- Where the diagram has been written is where its path resolved to before.
    obtain ⟨t₁, spot, hfounded, hlocate, hspot, -, -⟩ := hinscribed.exists_founded
    rw [htree] at hfounded
    have hsettles := (hready.goesWith_founded hfounded).settles_of_locate hfounded.isClosed
      (hs.isGrounded_outputPath dotFile) hlocate (hapart.resolves_dot dotFile hdot)
    rw [hspot] at hsettles
    exact hapart.ne (hsettles.unique
      (hready.settles (hs.isGrounded_outputPath file) (hapart.resolves_database file hfile)))
  · rename_i hunwanted
    refine ⟨?_, fun hwanted => absurd hwanted hunwanted⟩
    refine holdsGraph_of_founded hs hg hids hlog hfolder hsaved ?_
    rw [hinscribed]
    exact .refl hclosedB

end Saved

end Steps

/-! ## Runs -/

/-- How a run ends: it stops before anything has been written, or while the graph is saved, or while
the diagram is written, or while it is rendered, or it is done. The layout program is called in the
last two cases only, when all that was to be written is complete. -/
inductive RunEnd (s : Settings) (outputs : Outputs) (host : Host) (dot : Place) :
    EStateM.Result Error Host RunResult → Prop
  /-- The inventory or the graph is not complete. Nothing has been changed. -/
  | unprepared {e : Error} {host' : Host} (hcause : prepare s host = .error e host')
      (hquiet : host.Undisturbed host') : RunEnd s outputs host dot (.error e host')
  /-- The graph has not been saved. The file of the diagram is as it was. -/
  | unsaved {g : ImportGraph} {text : String} {hostA host' : Host} {e : Error}
      (hprepare : prepare s host = .ok (g, text) hostA)
      (hcause : persist s outputs g hostA = .error e host') (hlists : host.OnlyLists host')
      (hsame : ∀ file, s.dotFile = .text file → host.tree.SameFile host'.tree dot) :
      RunEnd s outputs host dot (.error e host')
  /-- The diagram has not been written. The graph can be read back. -/
  | undescribed {g : ImportGraph} {text : String} {path : Option Path} {hostA hostB host' : Host}
      {e : Error} (hprepare : prepare s host = .ok (g, text) hostA)
      (hpersist : persist s outputs g hostA = .ok path hostB)
      (hcause : describe s outputs text hostB = .error e host') (hlists : host.OnlyLists host')
      (hholds : HoldsGraph s outputs g host') : RunEnd s outputs host dot (.error e host')
  /-- The diagram has not been rendered. -/
  | undrawn {g : ImportGraph} {text : String} {hostA hostC host' : Host} {e : Error}
      (hprepare : prepare s host = .ok (g, text) hostA) (hlists : host.OnlyLists hostC)
      (hcomplete : IsComplete s outputs g text hostC)
      (hcause : depict s outputs hostC = .error e host')
      (hcalls : hostC.CallsOnce (IsDepiction s outputs) host')
      (hcomplete' : IsComplete s outputs g text host') : RunEnd s outputs host dot (.error e host')
  /-- All has been done. -/
  | done {result : RunResult} {hostA hostC host' : Host}
      (hprepare : prepare s host = .ok (result.graph, result.dotText) hostA)
      (hlists : host.OnlyLists hostC)
      (hcomplete : IsComplete s outputs result.graph result.dotText hostC)
      (hdepict : depict s outputs hostC = .ok result.imagePath host')
      (hcalls : hostC.CallsOnce (IsDepiction s outputs) host')
      (hcomplete' : IsComplete s outputs result.graph result.dotText host') :
      RunEnd s outputs host dot (.ok result host')

/-- What changes only in the tree makes no calls. -/
theorem Host.OnlyLists.sameOutside {host host' host'' : Host} (h : host.OnlyLists host')
    (hsame : host'.SameOutside host'') : host.OnlyLists host'' := by
  obtain ⟨calls, heq, hcalls⟩ := h
  exact ⟨calls, hsame.calls_eq.trans heq, hcalls⟩

/-- With accepted settings whose output files are apart, a run ends in one of these ways, whatever
the tree is like, and whatever other programs answer. -/
theorem run_ends {entries : Dictionary String Value} {s : Settings} {outputs : Outputs}
    {before accepted host : Host} {database dot : Place} (hfolder : before.folder.IsProper)
    (haccepted : Settings.ofEntries entries before = .ok s accepted)
    (hclosed : host.tree.IsClosed) (hlog : host.logFile = none)
    (hapart : s.OutputsApart host.tree host.folder database dot) :
    RunEnd s outputs host dot (run s outputs host) := by
  have hs := Settings.gives_ofEntries hfolder entries s accepted haccepted
  rw [← ends_result_iff (R := RunEnd s outputs host dot), run_eq]
  -- A run is cut at its four steps; each way to stop is the ending of the step it stops at.
  have hprepare := isQuiet_prepare s host hlog
  cases hrunA : prepare s host with
  | error e hostA =>
    exact ends_of_error (bind_of_error _ hrunA) (.unprepared hrunA (hprepare.fails _ _ hrunA))
  | ok prepared hostA =>
    obtain ⟨g, text⟩ := prepared
    obtain ⟨htreeA, hfolderA, hlogA, hlists⟩ := hprepare.gives _ _ hrunA
    obtain ⟨hg, hids⟩ := gives_prepare_isAssembled hlog _ _ hrunA
    rw [← htreeA] at hclosed
    rw [← htreeA, ← hfolderA] at hapart
    rw [← hlogA] at hlog
    refine ends_bind_of_ok hrunA ?_
    -- From here on the tree is the one the graph was built from.
    have hpersist : Ends (persist s outputs g) hostA _ _ := ends_persist hs hclosed hlog hapart
    cases hrunB : persist s outputs g hostA with
    | error e hostB =>
      obtain ⟨hsameB, hspares⟩ := hpersist.fails _ _ hrunB
      refine ends_of_error (bind_of_error _ hrunB) (.unsaved hrunA hrunB
        (hlists.sameOutside hsameB) fun file hfile => ?_)
      rw [← htreeA]
      exact hspares _ dot _ (hs.isGrounded_outputPath file) (hapart.resolves_dot file hfile)
        hapart.ne
    | ok databasePath hostB =>
      obtain ⟨hsameB, hsaved⟩ := hpersist.gives _ _ hrunB
      refine ends_bind_of_ok hrunB ?_
      have hdescribe : Ends (describe s outputs text) hostB _ _ :=
        ends_describe hs (hsaved.isClosed hclosed) (hsameB.logFile_eq.trans hlog)
      cases hrunC : describe s outputs text hostB with
      | error e hostC =>
        obtain ⟨hsameC, hfounded⟩ := hdescribe.fails _ _ hrunC
        have hlogC := hsameC.logFile_eq.trans (hsameB.logFile_eq.trans hlog)
        refine ends_of_error (bind_of_error _ hrunC) (.undescribed hrunA hrunB hrunC
          ((hlists.sameOutside hsameB).sameOutside hsameC) ?_)
        -- What making folders for the diagram leaves keeps the database that was saved.
        exact holdsGraph_of_founded hs hg hids hlogC hsameC.folder_eq.symm hsaved hfounded
      | ok dotPath hostC =>
        obtain ⟨hsameC, hinscribed⟩ := hdescribe.gives _ _ hrunC
        refine ends_bind_of_ok hrunC ?_
        have hlogC := hsameC.logFile_eq.trans (hsameB.logFile_eq.trans hlog)
        have hlistsC := (hlists.sameOutside hsameB).sameOutside hsameC
        -- Nothing that is read back depends on what has been called.
        have hcomplete {host' : Host} (htree : host'.tree = hostC.tree)
            (hfolder' : host'.folder = hostC.folder) (hlog' : host'.logFile = hostC.logFile) :
            IsComplete s outputs g text host' := by
          rw [← hsameB.folder_eq, ← hsameC.folder_eq, ← hfolder'] at hapart
          refine isComplete_of_inscribed hs hg hids (hlog'.trans hlogC)
            (hsameC.folder_eq.symm.trans hfolder'.symm) hsaved hclosed hapart ?_
          unfold IsInscribed at hinscribed ⊢
          rwa [htree, hfolder']
        have hdepict : Ends (depict s outputs) hostC _ _ := ends_depict hlogC
        cases hrunD : depict s outputs hostC with
        | error e hostD =>
          have hcalls := hdepict.fails _ _ hrunD
          exact ends_of_error (bind_of_error _ hrunD) (.undrawn hrunA hlistsC
            (hcomplete rfl rfl rfl) hrunD hcalls
            (hcomplete hcalls.tree_eq hcalls.folder_eq hcalls.logFile_eq))
        | ok imagePath hostD =>
          have hcalls := hdepict.gives _ _ hrunD
          refine ends_bind_of_ok hrunD (ends_pure ?_)
          exact .done hrunA hlistsC (hcomplete rfl rfl rfl) hrunD hcalls
            (hcomplete hcalls.tree_eq hcalls.folder_eq hcalls.logFile_eq)

/-- With two files that import each other and nothing else in their folder, a run for a diagram is
done, and every other run ends in one of these ways, too. -/
theorem run_ends_mutual :
    RunEnd (walkedSettings ["js"]) {} mutualHost ["p", "diagram.dot"]
        (run (walkedSettings ["js"]) {} mutualHost) ∧
      ∃ result host', run (walkedSettings ["js"]) diagramOnly mutualHost = .ok result host' ∧
        readSource ((walkedSettings ["js"]).outputPath "diagram.dot") host' =
          .ok result.dotText host' := by
  have hpaths : (walkedSettings ["js"]).outputPath "diagram.sqlite3" =
        .ofPlace ["p", "diagram.sqlite3"] ∧
      (walkedSettings ["js"]).outputPath "diagram.dot" = .ofPlace ["p", "diagram.dot"] := by decide
  have hresolves (place : Place) (hproper : place.IsProper) :
      mutualHost.tree.Resolves mutualHost.folder (Path.ofPlace place).text place :=
    (isPlain_mutualHost.isPlain.isStraightTo place).resolves hproper _
  have hproper : Place.IsProper ["p", "diagram.sqlite3"] ∧ Place.IsProper ["p", "diagram.dot"] := by
    unfold Place.IsProper
    decide
  have hapart : (walkedSettings ["js"]).OutputsApart mutualHost.tree mutualHost.folder
      ["p", "diagram.sqlite3"] ["p", "diagram.dot"] := by
    refine ⟨?_, ?_, ?_, by decide⟩
    · rintro _ ⟨⟩
      rw [hpaths.1]
      exact hresolves _ hproper.1
    · rintro _ ⟨⟩
      rw [hpaths.1]
      exact Tree.isReplaceable_of_not_mem isPlain_mutualHost.isClosed
        hproper.1.isStraight.isGrounded (by decide) (hresolves _ hproper.1) (by decide)
    · rintro _ ⟨⟩
      rw [hpaths.2]
      exact hresolves _ hproper.2
  have hends (outputs : Outputs) : RunEnd (walkedSettings ["js"]) outputs mutualHost
      ["p", "diagram.dot"] (run (walkedSettings ["js"]) outputs mutualHost) :=
    run_ends isPlain_mutualHost.folder (ofEntries_mutualHost (.inl rfl))
      isPlain_mutualHost.isClosed rfl hapart
  refine ⟨hends {}, ?_⟩
  obtain ⟨result, host', hrun, -⟩ := run_mutualHost (.inl rfl)
  refine ⟨result, host', hrun, ?_⟩
  cases hrun ▸ hends diagramOnly with
  | done _ _ _ _ _ hcomplete =>
    obtain ⟨_, ⟨⟩, hread⟩ := hcomplete.holdsText rfl
    exact hread

end ImportAtlas

import ImportAtlas.Proofs.Steps
import ImportAtlas.Proofs.Writing

/-!
# Quiet acts

Until the graph is complete a run only looks at the tree and asks version control what it knows of a
directory. So does every part of it, whether it succeeds or fails, as long as no log is written to a
file.

## Key results

- `Act.IsQuiet`: an act that leaves the tree alone and calls nothing but version control
- `Act.IsQuiet.later`: a quiet act in the course of a longer one
- `Act.IsQuiet.bind`, `Act.IsQuiet.tryCatch`, `Act.isQuiet_filterM`: acts that are put together of
  quiet ones
- `Inventory.isQuiet_list`, `isQuiet_buildGraph`, `isQuiet_prepare`: what is quiet
-/

namespace ImportAtlas

open EStateM

/-- A call that has version control list the files it knows below a directory. -/
def Call.IsListing (c : Call) : Prop :=
  ∃ directory, c.arguments = ["git", "-C", directory, "ls-files", "-z", "--cached"].map .text

/-- Nothing but version control has been called. -/
def Host.OnlyLists (host host' : Host) : Prop :=
  ∃ calls, host'.calls = host.calls ++ calls ∧ ∀ call ∈ calls, call.IsListing

/-- The tree is the same as before, and nothing but version control has been called. -/
structure Host.Undisturbed (host host' : Host) : Prop where
  tree_eq : host'.tree = host.tree
  folder_eq : host'.folder = host.folder
  logFile_eq : host'.logFile = host.logFile
  onlyLists : host.OnlyLists host'

namespace Host.Undisturbed

variable {host host' host'' : Host}

/-- A host that nothing happens to is undisturbed. -/
theorem refl (host : Host) : host.Undisturbed host :=
  ⟨rfl, rfl, rfl, [], (List.append_nil _).symm, nofun⟩

/-- What leaves a host undisturbed twice leaves it so altogether. -/
theorem trans (h : host.Undisturbed host') (h' : host'.Undisturbed host'') :
    host.Undisturbed host'' := by
  obtain ⟨calls, heq, hcalls⟩ := h.onlyLists
  -- The calls of the second part come behind those of the first.
  obtain ⟨calls', heq', hcalls'⟩ := h'.onlyLists
  refine ⟨h'.tree_eq.trans h.tree_eq, h'.folder_eq.trans h.folder_eq,
    h'.logFile_eq.trans h.logFile_eq, calls ++ calls', ?_, ?_⟩
  · rw [heq', heq, List.append_assoc]
  · rw [List.forall_mem_append]
    exact ⟨hcalls, hcalls'⟩

end Host.Undisturbed

namespace Act

/-- An act leaves the tree alone and calls nothing but version control, however it ends. -/
def IsQuiet {α : Type} (x : Act α) : Prop :=
  ∀ host : Host, host.logFile = none →
    Ends x host (fun _ host' => host.Undisturbed host') fun _ host' => host.Undisturbed host'

section Quiet

variable {α β γ : Type} {x : Act α} {f : α → Act β}

theorem isQuiet_pure (a : α) : IsQuiet (pure a) :=
  fun host _ => ends_pure (.refl host)

/-- To fail is quiet. -/
theorem isQuiet_throw (e : Error) : IsQuiet (throw e : Act α) :=
  fun host _ => ends_throw (.refl host)

/-- A quiet act that comes later leaves the host as undisturbed as it was until then. -/
theorem IsQuiet.later (h : IsQuiet x) {host host' : Host} (hlog : host.logFile = none)
    (hquiet : host.Undisturbed host') :
    Ends x host' (fun _ last => host.Undisturbed last) fun _ last => host.Undisturbed last :=
  (h host' (hquiet.logFile_eq.trans hlog)).mono (fun _ _ hlast => hquiet.trans hlast)
    fun _ _ hlast => hquiet.trans hlast

/-- An act in two quiet parts is quiet. -/
theorem IsQuiet.bind (h : IsQuiet x) (hf : ∀ a, IsQuiet (f a)) : IsQuiet (x >>= f) :=
  fun host hlog => (h host hlog).bind fun a _ hquiet => (hf a).later hlog hquiet

/-- An act is quiet if it is so for each host that it may find. -/
theorem isQuiet_bind_get {f : Host → Act α} (h : ∀ host, IsQuiet (f host)) :
    IsQuiet (get >>= f) :=
  fun host hlog => ends_bind_get (h host host hlog)

theorem IsQuiet.map (h : IsQuiet x) (f : α → β) : IsQuiet (f <$> x) :=
  fun host hlog => Ends.map (h host hlog)

/-- A quiet act whose errors are handled quietly is quiet, although the handling starts from the
host that the failure left. -/
theorem IsQuiet.tryCatch {handle : Error → Act α} (h : IsQuiet x)
    (hhandle : ∀ e, IsQuiet (handle e)) : IsQuiet (tryCatch x handle) :=
  fun host hlog => (h host hlog).tryCatch fun e _ hquiet => (hhandle e).later hlog hquiet

/-- Quiet acts for each element of a list are quiet together. -/
theorem isQuiet_mapM {act : γ → Act β} (l : List γ) (h : ∀ c, IsQuiet (act c)) :
    IsQuiet (l.mapM act) := by
  intro host hlog
  refine (ends_mapM (I := host.Undisturbed) (R := fun _ => True) (fun c _ later hlater => ?_)
    (.refl host)).mono (fun _ _ hlast => hlast.1) fun _ _ hlast => hlast
  exact ((h c).later hlog hlater).mono (fun _ _ hlast => ⟨hlast, trivial⟩) fun _ _ hlast => hlast

/-- A fold in quiet steps is quiet. -/
theorem isQuiet_foldlM {step : β → γ → Act β} (l : List γ) (h : ∀ b c, IsQuiet (step b c)) (b : β) :
    IsQuiet (l.foldlM step b) :=
  fun host hlog => ends_foldlM (P := fun _ later => host.Undisturbed later)
    (fun c _ b _ hlater => (h b c).later hlog hlater) (.refl host)

/-- A filter by quiet questions is quiet. -/
theorem isQuiet_filterM {keep : γ → Act Bool} (l : List γ) (h : ∀ c, IsQuiet (keep c)) :
    IsQuiet (l.filterM keep) := by
  intro host hlog
  refine (ends_filterM (I := host.Undisturbed) (R := fun _ _ => True) (fun c _ later hlater => ?_)
    (.refl host)).mono (fun _ _ hlast => hlast.1) fun _ _ hlast => hlast
  exact ((h c).later hlog hlater).mono (fun _ _ hlast => ⟨hlast, trivial⟩) fun _ _ hlast => hlast

/-! ## Questions to the host -/

/-- To log is quiet when there is no log file, since only the records grow then. -/
theorem isQuiet_log (level : LogLevel) (channel message : String) :
    IsQuiet (log level channel message) := by
  intro host hlog
  obtain ⟨host', hrun, hsame, htree, -⟩ := log_of_logFile_eq hlog level channel message
  exact ends_of_ok hrun ⟨htree, hsame.folder_eq, hsame.logFile_eq, [],
    by rw [hsame.calls_eq, List.append_nil], nofun⟩

/-- A result that is at hand is quiet. -/
theorem isQuiet_ofExcept {ε : Type} (wrap : ε → Error) (result : Except ε α) :
    IsQuiet (ofExcept wrap result) := by
  cases result with
  | ok a => exact isQuiet_pure a
  | error e => exact isQuiet_throw (wrap e)

theorem isQuiet_spell (v : Value) : IsQuiet (spell v) := by
  unfold spell
  split
  · exact isQuiet_throw _
  · split
    · exact isQuiet_throw _
    · exact isQuiet_pure _

/-- To look something up in the file tree is quiet, also when it is refused. -/
theorem isQuiet_ask (path : String)
    (question : Tree Content → Place → String → Except AccessFault α) :
    IsQuiet (ask path question) := by
  unfold ask
  split
  · exact isQuiet_throw _
  · exact isQuiet_bind_get fun host => isQuiet_ofExcept _ _

/-- Whether something stands somewhere is asked quietly. -/
theorem isQuiet_probe (path : String) : IsQuiet (probe path) := by
  unfold probe
  split
  · exact isQuiet_pure _
  · -- To look at the tree changes nothing.
    refine isQuiet_bind_get fun host => ?_
    split
    · exact isQuiet_pure _
    · exact isQuiet_throw _
    · exact isQuiet_pure _

theorem isQuiet_isFolder (path : String) : IsQuiet (isFolder path) := by
  unfold isFolder
  refine (isQuiet_probe path).bind fun found => ?_
  split <;> exact isQuiet_pure _

theorem isQuiet_isFile (path : String) : IsQuiet (isFile path) := by
  unfold isFile
  refine (isQuiet_probe path).bind fun found => ?_
  split <;> exact isQuiet_pure _

/-- To read a file is quiet. -/
theorem isQuiet_readBytes (path : String) : IsQuiet (readBytes path) := by
  unfold readBytes
  refine (isQuiet_ask path _).bind fun content => ?_
  split <;> exact isQuiet_pure _

/-- To resolve a path is quiet, also at a circle of links. -/
theorem isQuiet_resolve (path : Path) : IsQuiet (resolve path) := by
  unfold resolve canonical
  refine IsQuiet.bind (isQuiet_bind_get fun host => ?_) fun p => isQuiet_bind_get fun host => ?_
  · split
    · exact isQuiet_pure _
    · exact isQuiet_throw _
  · split
    · exact isQuiet_throw _
    · exact isQuiet_pure _

end Quiet

end Act

open Act

/-- To read a source is quiet. -/
theorem isQuiet_readSource (path : Path) : IsQuiet (readSource path) := by
  unfold readSource
  refine IsQuiet.bind ((isQuiet_readBytes _).tryCatch fun e => ?_) fun bytes => isQuiet_pure _
  split
  · exact isQuiet_throw _
  · exact isQuiet_throw _

/-! ## The inventory -/

namespace Inventory

/-- To look for a directory that is to be scanned is quiet. -/
theorem isQuiet_startingAt (directory : String) : IsQuiet (startingAt directory) := by
  unfold startingAt
  refine (isQuiet_resolve _).bind fun root => (isQuiet_isFolder _).bind fun b => ?_
  split
  · exact isQuiet_throw _
  · exact isQuiet_pure _

/-- Whether a pattern keeps a path out is asked quietly, also with patterns that are refused. -/
theorem isQuiet_isExcluded (patterns : List Value) (root p : Path) :
    IsQuiet (isExcluded patterns root p) := by
  unfold isExcluded
  split
  split
  · exact isQuiet_pure _
  · exact isQuiet_pure _
  · exact isQuiet_throw _
  · exact isQuiet_throw _

/-- To look at an entry is quiet, whether it is taken, passed over or entered. -/
theorem isQuiet_visit (extensions : List String) (patterns : List Value) (root : Path)
    (found : Walked) (entry : Path × Entry Content) :
    IsQuiet (visit extensions patterns root found entry) := by
  -- A link and any other entry are asked the same from here on.
  have hrest : IsQuiet (do
      if !hasExtension extensions entry.1 then
        return found
      else if !(← Act.isFile entry.1.text) then
        return found
      else if ← isExcluded patterns root entry.1 then
        return { found with excluded := found.excluded + 1 }
      else
        return { found with files := found.files ++ [entry.1.text] }) := by
    split
    · exact isQuiet_pure _
    · refine (isQuiet_isFile _).bind fun b => ?_
      split
      · exact isQuiet_pure _
      · refine (isQuiet_isExcluded _ _ _).bind fun b => ?_
        split <;> exact isQuiet_pure _
  unfold visit
  split
  · exact ((isQuiet_probe _).map _).bind fun _ => hrest
  · exact hrest

/-- A walk is quiet, as each of its visits is. -/
theorem isQuiet_walk (directory : String) (extensions : List String) (patterns : List Value) :
    IsQuiet (walk directory extensions patterns) := by
  unfold walk
  refine (isQuiet_startingAt directory).bind fun root => isQuiet_bind_get fun host => ?_
  refine (isQuiet_foldlM _ (isQuiet_visit extensions patterns root) _).bind fun found => ?_
  exact (isQuiet_log _ _ _).bind fun _ => isQuiet_pure _

/-- Version control is asked, and nothing else happens. -/
theorem isQuiet_trackedNames (root : Path) (timeout : Value) :
    IsQuiet (trackedNames root timeout) := by
  -- The command names the folder it lists, and nothing else is run.
  have hcall : IsQuiet (Act.call
      (["git", "-C", root.text, "ls-files", "-z", "--cached"].map .text) timeout) := by
    intro host _
    refine ends_of_ok rfl ⟨rfl, rfl, rfl, _, rfl, ?_⟩
    exact List.forall_mem_singleton.2 ⟨root.text, rfl⟩
  unfold trackedNames
  refine hcall.bind fun reply => ?_
  split
  · exact isQuiet_throw _
  · exact (isQuiet_spell _).bind fun s => isQuiet_throw _
  · split
    · exact isQuiet_pure _
    · exact isQuiet_throw _

/-- To list tracked files is quiet: the call of version control is the one that is allowed. -/
theorem isQuiet_listTracked (directory : String) (extensions : List String) (timeout : Value) :
    IsQuiet (listTracked directory extensions timeout) := by
  unfold listTracked
  refine (isQuiet_startingAt directory).bind fun root => ?_
  refine (isQuiet_trackedNames root timeout).bind fun output => ?_
  refine (isQuiet_filterM _ fun p => isQuiet_isFile _).bind fun files => ?_
  exact (isQuiet_log _ _ _).bind fun _ => isQuiet_pure _

/-- To list files is quiet, by walking and by asking. -/
theorem isQuiet_list (r : Request) : IsQuiet (list r) := by
  unfold list
  refine IsQuiet.bind (isQuiet_mapM _ fun directory => ?_) fun found => ?_
  · split
    · exact isQuiet_listTracked _ _ _
    · exact isQuiet_walk _ _ _
  · exact (isQuiet_log _ _ _).bind fun _ => isQuiet_pure _

end Inventory

/-! ## The graph -/

namespace Survey

variable {s : Settings} {c : Classifier} {g : ImportGraph} {file : SourceFile}

/-- To put a path into the graph is quiet. -/
theorem isQuiet_addPath (s : Settings) (g : ImportGraph) (path : String) :
    IsQuiet (addPath s g path) := by
  -- The working folder is read off the host, and the rest is the file's own fields.
  have hsource : IsQuiet (sourceOf s path) := by
    unfold sourceOf Act.workingPath
    split
    · exact isQuiet_throw _
    · refine IsQuiet.bind (isQuiet_bind_get fun host => isQuiet_pure _) fun here => ?_
      dsimp only
      split
      · exact isQuiet_pure _
      · exact isQuiet_throw _
  unfold addPath
  exact hsource.bind fun f => (isQuiet_ofExcept _ _).bind fun added => isQuiet_pure _

/-- To find what an import leads to is quiet. -/
theorem isQuiet_edgeOf (s : Settings) (c : Classifier) (g : ImportGraph) (file : SourceFile)
    (locator : String) : IsQuiet (edgeOf s c g file locator) := by
  have hkind : IsQuiet (s.kindOf c locator) := by
    unfold Settings.kindOf
    split
    · exact isQuiet_throw _
    · exact isQuiet_pure _
  -- Resolving only looks at the tree, and tells the log where it finds nothing.
  have hresolve :
      IsQuiet (resolveLocator locator file.absolutePath s.baseDirectory s.extensions) := by
    unfold resolveLocator
    refine isQuiet_bind_get fun host => ?_
    split
    · exact isQuiet_pure _
    · exact (isQuiet_log _ _ _).bind fun _ => isQuiet_pure _
  unfold edgeOf
  refine hkind.bind fun kind => ?_
  dsimp only
  split
  · exact isQuiet_pure _
  · refine hresolve.bind fun target => ?_
    split
    · exact isQuiet_pure _
    · split
      · exact isQuiet_pure _
      · exact (isQuiet_log _ _ _).bind fun _ => isQuiet_pure _

/-- To put a statement into the survey is quiet, also one that is skipped with a warning. -/
theorem isQuiet_addStatement (s : Settings) (c : Classifier) (file : SourceFile) (survey : Survey)
    (statement : List Char) : IsQuiet (addStatement s c file survey statement) := by
  unfold addStatement
  split
  · -- A statement that is skipped is only logged.
    exact (isQuiet_log _ _ _).bind fun _ => isQuiet_pure _
  · refine (isQuiet_edgeOf _ _ _ _ _).bind fun edge => (isQuiet_ofExcept _ _).bind fun edge => ?_
    split
    · exact isQuiet_pure _
    · exact (isQuiet_log _ _ _).bind fun _ => isQuiet_pure _
    · exact isQuiet_throw _

/-- What stops an act is kept beside what it would have given. -/
theorem isQuiet_except {α : Type} {x : Act α} (h : IsQuiet x) :
    IsQuiet (try Except.ok <$> x catch e => pure (Except.error e) : Act (Except Error α)) :=
  (h.map _).tryCatch fun _ => isQuiet_pure _

/-- To read the imports of files one after the other is quiet, also if one of them stops it. -/
theorem isQuiet_addFiles (s : Settings) (c : Classifier) (survey : Survey)
    (files : List SourceFile) : IsQuiet (addFiles s c survey files) := by
  induction files generalizing survey with
  | nil => exact isQuiet_pure _
  | cons file files ih =>
    have hfile : IsQuiet (addFile s c survey file) :=
      (isQuiet_readSource _).bind fun text =>
        isQuiet_foldlM _ (isQuiet_addStatement s c file) survey
    unfold addFiles
    refine (isQuiet_except hfile).bind fun next => ?_
    -- The survey goes on after a file that was read and stops at one that was not.
    cases next with
    | ok survey => exact ih survey
    | error e => exact isQuiet_pure _

/-- To survey paths is quiet. -/
theorem isQuiet_ofPaths (s : Settings) (c : Classifier) (paths : List String) :
    IsQuiet (ofPaths s c paths) := by
  unfold ofPaths
  refine (isQuiet_except (isQuiet_foldlM paths (isQuiet_addPath s) _)).bind fun placed => ?_
  -- No file is read before all of them are placed.
  cases placed with
  | error _ => exact isQuiet_pure _
  | ok g =>
    refine (isQuiet_addFiles s c _ _).bind fun result => ?_
    obtain ⟨survey, stopped⟩ := result
    cases stopped with
    | none => exact (isQuiet_log _ _ _).bind fun _ => isQuiet_pure _
    | some e => exact isQuiet_pure _

end Survey

/-- The build of a graph is a survey of its paths, and as quiet. -/
theorem isQuiet_buildGraph (s : Settings) (paths : List String) : IsQuiet (buildGraph s paths) := by
  -- The classifier is made of the settings alone.
  have hclassifier : IsQuiet s.classifier := by
    unfold Settings.classifier
    refine IsQuiet.bind (isQuiet_mapM _ fun v => ?_) fun classes => ?_
    · split
      · exact isQuiet_pure _
      · exact isQuiet_throw _
    · split
      · exact isQuiet_throw _
      · exact (isQuiet_mapM _ isQuiet_spell).bind fun folders => isQuiet_pure _
  unfold buildGraph
  refine hclassifier.bind fun c => (Survey.isQuiet_ofPaths s c paths).bind fun result => ?_
  obtain ⟨survey, stopped⟩ := result
  cases stopped with
  | none => exact isQuiet_pure _
  | some e => exact isQuiet_throw e

/-- Before a run writes anything, it has only asked. -/
theorem isQuiet_prepare (s : Settings) : IsQuiet (prepare s) := by
  have hlink (g : ImportGraph) : IsQuiet (s.linkText g) := by
    unfold Settings.linkText
    split
    · exact (isQuiet_spell _).map _
    · exact isQuiet_pure _
  unfold prepare
  -- Files are listed, read and linked, and none is written.
  refine (Inventory.isQuiet_list _).bind fun paths => ?_
  refine (isQuiet_buildGraph s paths).bind fun g => ?_
  exact (hlink g).bind fun link => isQuiet_pure _

end ImportAtlas

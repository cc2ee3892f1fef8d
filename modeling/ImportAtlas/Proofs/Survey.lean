import ImportAtlas.Proofs.Build
import ImportAtlas.Proofs.Host
import ImportAtlas.Run
import Mathlib.Algebra.GroupWithZero.Nat

/-!
# Surveys that come to an end

Under any settings, and for any paths: when all files are surveyed, every line that starts a
statement has been accounted for. Its statement was skipped with a warning, it repeated an import,
or it became an import. A survey is seen here as one walk over all statements, each with the file
it comes from.

## Key results

- `Survey.gives_addStatement`: what a statement does to a survey, if it does not stop the work
- `Survey.Surveyed.takes`: what is known of a survey, after one more statement
- `Survey.gives_ofPaths`: what is known of a survey that came to its end
- `Survey.ofPaths_accounts`: no statement is lost, and the summary divides the imports up
-/

namespace ImportAtlas

open EStateM

/-- Whether a record is a warning. -/
def LogRecord.isWarning (r : LogRecord) : Bool :=
  r.level == .warning

namespace Host

/-- Nothing has changed but for the log, which has `n` more warnings. -/
structure Warned (host : Host) (n : Nat) (host' : Host) : Prop where
  logged : host.Logged host'
  records_eq : ∃ new, host'.records = host.records ++ new ∧ new.countP LogRecord.isWarning = n

variable {host host' host'' : Host} {m n : Nat}

/-- Without a warning nothing is warned of. -/
theorem Warned.refl (host : Host) : host.Warned 0 host :=
  ⟨.refl host, [], (List.append_nil _).symm, rfl⟩

/-- Warnings add up. -/
theorem Warned.trans (h : host.Warned m host') (h' : host'.Warned n host'') :
    host.Warned (m + n) host'' := by
  obtain ⟨new, hrecords, hcount⟩ := h.records_eq
  obtain ⟨new', hrecords', hcount'⟩ := h'.records_eq
  refine ⟨h.logged.trans h'.logged, new ++ new', ?_, ?_⟩
  · rw [hrecords', hrecords, List.append_assoc]
  · rw [List.countP_append, hcount, hcount']

/-- A record is a warning more if it is one. -/
theorem gives_log (hlog : host.HasLogFile) (level : LogLevel) (channel message : String) :
    Gives (Act.log level channel message) host fun _ host' =>
      host.Warned (if level = .warning then 1 else 0) host' := by
  -- The record comes last, with the level as it is given.
  obtain ⟨host', hrecord, hlogged⟩ := logged_log hlog level channel message
  rintro _ _ hrecord'
  cases hrecord.symm.trans hrecord'
  refine ⟨hlogged, [⟨level, channelName channel, message⟩], ?_, ?_⟩
  · cases hrecord
    rfl
  · cases level <;> rfl

/-- What is read after some records could be read before them, and has only grown. -/
theorem Logged.readBytes_of_ok {path : String} {bytes : List UInt8} (h : host.Logged host')
    (hlog : host.HasLogFile) (hread : Act.readBytes path host' = .ok bytes host') :
    ∃ bytes₀ more, Act.readBytes path host = .ok bytes₀ host ∧ bytes = bytes₀ ++ more ∧
      (¬ host.LogsTo path → more = []) := by
  obtain ⟨hnul, place, content, hlookup, -⟩ := readBytes_eq_ok_iff.1 hread
  -- Where the path leads to a file now, it led to one before.
  have hleads : host.tree.leadsToFile host.folder path = true := by
    rw [← h.leadsToFile_eq hlog, Tree.leadsToFile, hlookup]
  unfold Tree.leadsToFile at hleads
  split at hleads
  case h_2 => cases hleads
  rename_i place₀ content₀ hlookup₀
  have hread₀ : Act.readBytes path host = .ok content₀.visible host :=
    readBytes_eq_ok_iff.2 ⟨hnul, place₀, content₀, hlookup₀, rfl⟩
  obtain ⟨more, hread', hmore⟩ := h.readBytes_ok hlog hread₀
  cases hread.symm.trans hread'
  exact ⟨_, more, hread₀, rfl, hmore⟩

end Host

/-- A source is decoded leniently from the bytes of its file. -/
theorem gives_readSource {p : Path} {host : Host} :
    Gives (readSource p) host fun text host' => host' = host ∧
      ∃ bytes, Act.readBytes p.text host = .ok bytes host ∧
        text = String.ofList (Text.Utf8.decodeLenient bytes) := by
  have hread : Gives (Act.readBytes p.text) host fun bytes host' =>
      host' = host ∧ Act.readBytes p.text host = .ok bytes host := by
    intro bytes host' h
    have hsame : Gives (Act.readBytes p.text) host fun _ host' => host' = host := by
      unfold Act.readBytes
      refine (Act.gives_ask _ _).bind fun content host' hasked => ?_
      cases content <;> exact gives_pure hasked.2.2
    cases hsame bytes host' h
    exact ⟨rfl, h⟩
  unfold readSource
  refine Gives.bind (Gives.tryCatch hread fun e host' _ => ?_) fun bytes host' h => ?_
  · -- No error of the file system is passed over.
    cases e <;> exact gives_throw _
  · obtain ⟨rfl, h⟩ := h
    exact gives_pure ⟨rfl, bytes, h, rfl⟩

/-- A locator can be classified: if some local start is no text, one before it fits. -/
def Settings.Classifies (s : Settings) (c : Classifier) (locator : String) : Prop :=
  (Value.leadingTexts s.localStarts).2 = none ∨ c.isLocal locator = true

/-- The kind that a locator is found to have is the one that the classifier gives it. -/
theorem Settings.gives_kindOf (s : Settings) (c : Classifier) (locator : String) (host : Host) :
    Gives (s.kindOf c locator) host fun kind host' =>
      kind = c.classify locator ∧ s.Classifies c locator ∧ host' = host := by
  unfold kindOf
  split
  · exact gives_throw _
  · rename_i hmet
    refine gives_pure ⟨rfl, ?_, rfl⟩
    -- A value that is no text matters only if no text before it decides.
    by_cases hother : (Value.leadingTexts s.localStarts).2 = none
    · exact .inl hother
    · refine .inr ?_
      simpa [Option.isSome_iff_ne_none, hother] using hmet

/-- A classifier takes the local starts up to the first one that is no text. -/
theorem Settings.gives_classifier (s : Settings) (host : Host) :
    Gives s.classifier host fun c host' =>
      c.localStarts = (Value.leadingTexts s.localStarts).1 ∧ host' = host := by
  -- Neither the check of the libraries nor their spelling changes anything.
  have hfolders : Gives ((Value.distinctNames s.libraries).mapM Act.spell) host
      fun _ host' => host' = host := by
    refine (gives_mapM (I := (· = host)) (R := fun _ => True) (fun v _ host' h => ?_) rfl).mono
      fun _ _ h => h.1
    unfold Act.spell
    split
    · exact gives_throw _
    · split
      · exact gives_throw _
      · exact gives_pure ⟨h, trivial⟩
  unfold classifier
  refine Gives.bind (P := fun _ host' => host' = host) ?_ fun classes host' hsame => ?_
  · refine (gives_mapM (I := (· = host)) (R := fun _ => True) (fun v _ host' h => ?_) rfl).mono
      fun _ _ h => h.1
    split
    · exact gives_pure ⟨h, trivial⟩
    · exact gives_throw _
  · subst hsame
    split
    · exact Gives.bind (P := fun _ _ => False) (gives_throw _) fun _ _ => False.elim
    · refine hfolders.bind fun folders host'' hsame => ?_
      exact gives_pure ⟨rfl, hsame⟩

/-- A locator is resolved to the first of its candidates that leads to a file, without a warning. -/
theorem gives_resolveLocator {host : Host} (hlog : host.HasLogFile)
    (locator importer baseDirectory : String) (extensions : List String) :
    Gives (resolveLocator locator importer baseDirectory extensions) host fun target host' =>
      target = (candidatePaths locator importer baseDirectory extensions).find?
        (host.tree.leadsToFile host.folder) ∧ host.Warned 0 host' := by
  unfold resolveLocator
  refine gives_get.bind fun found host' hsame => ?_
  obtain ⟨rfl, rfl⟩ := hsame
  split
  · rename_i target htarget
    exact gives_pure ⟨htarget.symm, .refl _⟩
  · -- That there is no target is logged, but not as a warning.
    rename_i hnone
    refine (Host.gives_log hlog .debug _ _).bind ?_
    intro _ host' hwarned
    exact gives_pure ⟨hnone.symm, hwarned⟩

namespace Survey

variable {s : Settings} {c : Classifier} {host host₀ : Host} {g : ImportGraph} {file : SourceFile}

/-- An import that is made is the one that `importOf` says. -/
theorem gives_edgeOf (hlog : host.HasLogFile) (hg : g.Consistent) (locator : String) :
    Gives (edgeOf s c g file locator) host fun edge host' =>
      edge = importOf s c host.tree host.folder g.files file locator ∧ s.Classifies c locator ∧
        host.Warned 0 host' := by
  unfold edgeOf
  refine (s.gives_kindOf c locator host).bind fun kind host' hkind => ?_
  obtain ⟨rfl, hclass, rfl⟩ := hkind
  -- Only a local import is looked for.
  by_cases hlocal : c.classify locator = some .localFile
  · simp only [hlocal, bne_self_eq_false, Bool.false_eq_true, ↓reduceIte]
    refine (gives_resolveLocator hlog locator _ _ _).bind ?_
    rintro target host₁ ⟨htarget, hwarned⟩
    cases target with
    | none =>
      refine gives_pure ⟨?_, hclass, hwarned⟩
      simp only [importOf, hlocal, ↓reduceIte, ← htarget]
      rfl
    | some target =>
      simp only [hg.fileAt?_eq_find? target]
      cases hfound : g.files.find? fun f => f.absolutePath == target with
      | some found =>
        refine gives_pure ⟨?_, hclass, hwarned⟩
        simp only [importOf, hlocal, ↓reduceIte, ← htarget, Option.bind_some, hfound,
          Option.map_some]
      | none =>
        -- The target is outside the inventory, which is logged.
        refine (Host.gives_log (hwarned.logged.hasLogFile hlog) .debug _ _).bind ?_
        intro _ host₂ hwarned₂
        refine gives_pure ⟨?_, hclass, hwarned.trans hwarned₂⟩
        simp only [importOf, hlocal, ↓reduceIte, ← htarget, Option.bind_some, hfound,
          Option.map_none]
  · simp only [bne_iff_ne, ne_eq, hlocal, not_false_eq_true, ↓reduceIte]
    refine gives_pure ⟨?_, hclass, .refl _⟩
    simp only [importOf, hlocal, ↓reduceIte]
    rfl

/-- A statement that does not stop the work is taken into account, and there is a warning for each
one that is skipped. -/
theorem gives_addStatement (hlog : host₀.HasLogFile) {survey : Survey}
    (hwarned : host₀.Warned survey.skippedLines host) (hg : survey.graph.Consistent)
    (hfile : file ∈ survey.graph.files) (statement : List Char) :
    Gives (addStatement s c file survey statement) host fun survey' host' =>
      Takes (importOf s c host₀.tree host₀.folder survey.graph.files file) survey statement
        survey' ∧
      (∀ found, locator statement = .ok found → s.Classifies c (String.ofList found)) ∧
      host₀.Warned survey'.skippedLines host' ∧ survey'.graph.Consistent ∧
      survey'.graph.files = survey.graph.files := by
  have hlog' := hwarned.logged.hasLogFile hlog
  unfold addStatement
  cases hlocator : ImportAtlas.locator statement with
  | error fault =>
    refine (Host.gives_log hlog' .warning _ _).bind ?_
    intro _ host' hmore
    exact gives_pure ⟨.skipped hlocator, nofun, hwarned.trans hmore, hg, rfl⟩
  | ok found =>
    refine (gives_edgeOf hlog' hg _).bind ?_
    rintro edge host₁ ⟨hedge, hclass, hwarned₁⟩
    rw [importOf_of_logged hwarned.logged hlog] at hedge
    have hwarned₁ := hwarned.trans hwarned₁
    refine (Act.gives_ofExcept _ _).bind ?_
    rintro edge' _ ⟨hchecked, rfl⟩
    -- The check of an import gives the import itself.
    have hsame : edge' = edge := by
      unfold ImportEdge.checked at hchecked
      split at hchecked <;> cases hchecked
      rfl
    subst hsame hedge
    have himporter : file.id ∈ survey.graph.table.keys := hg.id_mem_keys hfile
    have htarget (id : Int) (hid : (importOf s c host₀.tree host₀.folder survey.graph.files file
        (String.ofList found)).targetId = some id) : id ∈ survey.graph.table.keys :=
      targetId_importOf_mem hg hid
    have hclasses : ∀ found', Except.ok (ε := LocatorFault) found = .ok found' →
        s.Classifies c (String.ofList found') := by
      rintro _ ⟨⟩
      exact hclass
    -- The key was noted before, or it is noted now.
    by_cases hkey : (file.relativePath, String.ofList found) ∈ survey.graph.edgeKeys
    · rw [ImportGraph.insertImport_of_mem himporter htarget hkey]
      refine (Host.gives_log (hwarned₁.logged.hasLogFile hlog) .debug _ _).bind ?_
      intro _ host₂ hwarned₂
      exact gives_pure ⟨.repeated hlocator hkey, hclasses, hwarned₁.trans hwarned₂, hg, rfl⟩
    · rw [ImportGraph.insertImport_of_not_mem himporter htarget hkey]
      have hg' := hg.withEdge himporter htarget hkey
      exact gives_pure ⟨.imported hlocator hkey, hclasses, hwarned₁, hg', rfl⟩

/-! ## All statements, one after the other -/

/-- A statement with the file that it stands in. -/
abbrev Placed := SourceFile × List Char

/-- What is known of a survey of `files` when the statements `done` have been taken into account.
Each of them was skipped with a warning, repeated an import, or became one; every import comes from
one of them, and every one that has a locator has its import. -/
structure Surveyed (s : Settings) (c : Classifier) (host₀ : Host) (files : List SourceFile)
    (done : List Placed) (survey : Survey) (host : Host) : Prop where
  consistent : survey.graph.Consistent
  files_eq : survey.graph.files = files
  warned : host₀.Warned survey.skippedLines host
  /-- Each placed statement is skipped, repeated or an import. -/
  balance : survey.skippedLines + survey.duplicateImports + survey.graph.edges.length = done.length
  /-- Each import is that of a statement. -/
  exists_placed : ∀ e ∈ survey.graph.edges, ∃ p ∈ done, ∃ found, locator p.2 = .ok found ∧
    e = importOf s c host₀.tree host₀.folder files p.1 (String.ofList found)
  key_mem : ∀ p ∈ done, ∀ found, locator p.2 = .ok found →
    (p.1.relativePath, String.ofList found) ∈ survey.graph.edgeKeys
  classifies : ∀ p ∈ done, ∀ found, locator p.2 = .ok found →
    s.Classifies c (String.ofList found)

variable {files : List SourceFile} {done : List Placed}

/-- After one more statement the same is known, with that statement among those that are done. -/
theorem Surveyed.takes {survey survey' : Survey} {host' : Host} {statement : List Char}
    (h : Surveyed s c host₀ files done survey host)
    (htakes : Takes (importOf s c host₀.tree host₀.folder files file) survey statement survey')
    (hclass : ∀ found, locator statement = .ok found → s.Classifies c (String.ofList found))
    (hwarned : host₀.Warned survey'.skippedLines host') (hg : survey'.graph.Consistent)
    (hfiles : survey'.graph.files = survey.graph.files) :
    Surveyed s c host₀ files (done ++ [(file, statement)]) survey' host' := by
  -- What is said of imports and of statements before holds on; the new statement adds one case to
  -- each.
  refine ⟨hg, hfiles.trans h.files_eq, hwarned, ?_, fun e he => ?_, fun p hp found hfound => ?_,
    fun p hp => ?_⟩
  · rw [List.length_append, List.length_singleton, ← h.balance]
    exact htakes.balance
  · obtain he | ⟨found, hlocator, rfl⟩ := htakes.mem_edges he
    · obtain ⟨p, hp, hfound⟩ := h.exists_placed e he
      exact ⟨p, List.mem_append_left _ hp, hfound⟩
    · exact ⟨(file, statement), by simp, found, hlocator, rfl⟩
  · rcases List.mem_append.1 hp with hp | hp
    · exact htakes.edgeKeys_subset (h.key_mem p hp found hfound)
    · obtain rfl := List.mem_singleton.1 hp
      exact htakes.key_mem hfound
  · rcases List.mem_append.1 hp with hp | hp
    · exact h.classifies p hp
    · obtain rfl := List.mem_singleton.1 hp
      exact hclass

/-- The statements of a text, each with the file that the text is of. -/
def placedIn (s : Settings) (text : String) (file : SourceFile) : List Placed :=
  (statements s.joinBlocks.isTruthy text.toList).map (file, ·)

/-- The statements of all files, with the texts of their paths. -/
def placedOf (s : Settings) (textOf : String → String) (files : List SourceFile) : List Placed :=
  files.flatMap fun file => placedIn s (textOf file.absolutePath) file

/-- The statements of a file are taken one after the other. -/
theorem gives_addStatements (hlog : host₀.HasLogFile) {survey : Survey}
    (h : Surveyed s c host₀ files done survey host) (hfile : file ∈ files)
    (statements : List (List Char)) :
    Gives (statements.foldlM (addStatement s c file) survey) host
      (Surveyed s c host₀ files (done ++ statements.map (file, ·))) := by
  induction statements generalizing survey host done with
  | nil =>
    rw [List.map_nil, List.append_nil]
    exact gives_pure h
  | cons statement statements ih =>
    rw [List.foldlM_cons]
    have hstep := gives_addStatement (s := s) (c := c) hlog h.warned h.consistent
      (h.files_eq ▸ hfile) statement
    rw [h.files_eq] at hstep
    refine hstep.bind fun survey₁ host₁ h₁ => ?_
    obtain ⟨htakes, hclass, hwarned, hg, hfiles⟩ := h₁
    have hrest := ih (h.takes htakes hclass hwarned hg (hfiles.trans h.files_eq.symm))
    -- One statement after those done, then the rest after that one.
    rwa [List.append_assoc] at hrest

/-- A file that is read adds the statements of its text. -/
theorem gives_addFile (hlog : host₀.HasLogFile) {survey : Survey}
    (h : Surveyed s c host₀ files done survey host) (hfile : file ∈ files) :
    Gives (addFile s c survey file) host fun survey' host' => ∃ text,
      Reads host₀ (Path.ofText file.absolutePath).text text ∧
      Surveyed s c host₀ files (done ++ placedIn s text file) survey' host' := by
  unfold addFile
  refine gives_readSource.bind fun text host' hread => ?_
  obtain ⟨rfl, bytes, hread, htext⟩ := hread
  -- What is read now could be read at first, but for what the log has put behind it.
  obtain ⟨bytes₀, more, hread₀, rfl, hmore⟩ := h.warned.logged.readBytes_of_ok hlog hread
  refine (gives_addStatements hlog h hfile _).mono fun survey' host' h' => ?_
  exact ⟨text, ⟨bytes₀, more, hread₀, htext, hmore⟩, h'⟩

/-- If no file stops the work, all files have been read and have added their statements. -/
theorem gives_addFiles (hlog : host₀.HasLogFile) {survey : Survey} {rest : List SourceFile}
    (h : Surveyed s c host₀ files done survey host)
    (hrest : ∀ f ∈ rest, f ∈ files) (hnodup : (rest.map (·.absolutePath)).Nodup) :
    Gives (addFiles s c survey rest) host fun result host' => result.2 = none → ∃ textOf,
      (∀ f ∈ rest, Reads host₀ (Path.ofText f.absolutePath).text (textOf f.absolutePath)) ∧
      Surveyed s c host₀ files (done ++ placedOf s textOf rest) result.1 host' := by
  induction rest generalizing survey host done with
  | nil =>
    refine gives_pure fun _ => ⟨id, by simp, ?_⟩
    rwa [placedOf, List.flatMap_nil, List.append_nil]
  | cons file rest ih =>
    simp only [List.mem_cons, forall_eq_or_imp] at hrest
    rw [List.map_cons, List.nodup_cons] at hnodup
    unfold addFiles
    have hfirst : Gives (try Except.ok <$> addFile s c survey file
          catch e => pure (Except.error e) : Act (Except Error Survey)) host
        fun next host' => ∀ survey', next = .ok survey' → ∃ text,
          Reads host₀ (Path.ofText file.absolutePath).text text ∧
          Surveyed s c host₀ files (done ++ placedIn s text file) survey' host' := by
      refine Gives.tryCatch (.map ?_) fun e host' _ => gives_pure (by simp)
      refine (gives_addFile hlog h hrest.1).mono fun survey' host' h' => ?_
      rintro _ ⟨⟩
      exact h'
    refine hfirst.bind fun next host₁ h₁ => ?_
    cases next with
    | error e => exact gives_pure (by simp)
    | ok survey₁ =>
      obtain ⟨text, hread, h₁⟩ := h₁ survey₁ rfl
      refine (ih h₁ hrest.2 hnodup.2).mono fun result host' h' hnone => ?_
      obtain ⟨textOf, hreads, h'⟩ := h' hnone
      -- The text of `file` is given to its path, which no other file has.
      have hne {f : SourceFile} (hf : f ∈ rest) : f.absolutePath ≠ file.absolutePath :=
        fun heq => hnodup.1 (List.mem_map.2 ⟨f, hf, heq⟩)
      refine ⟨fun path => if path = file.absolutePath then text else textOf path, ?_, ?_⟩
      · simp only [List.mem_cons, forall_eq_or_imp, ↓reduceIte]
        refine ⟨hread, fun f hf => ?_⟩
        rw [if_neg (hne hf)]
        exact hreads f hf
      · have hplaced : placedOf s (fun path => if path = file.absolutePath then text
            else textOf path) rest = placedOf s textOf rest :=
          List.flatMap_congr fun f hf => by simp only [if_neg (hne hf)]
        have hcons : placedOf s (fun path => if path = file.absolutePath then text
            else textOf path) (file :: rest) = placedIn s text file ++ placedOf s textOf rest := by
          rw [← hplaced, placedOf, List.flatMap_cons, if_pos rfl, placedOf]
        rwa [hcons, ← List.append_assoc]

/-- The source of a path is called by its path seen from the project root. -/
theorem gives_sourceOf (s : Settings) (path : String) (host : Host) :
    Gives (sourceOf s path) host fun f host' => host' = host ∧
      f = SourceFile.ofPaths path (relativePath s host.folder path) := by
  unfold sourceOf
  by_cases hempty : path = ""
  · rw [if_pos hempty]
    exact gives_throw _
  · rw [if_neg hempty]
    intro f host' h
    dsimp only at h
    rw [bind_of_ok _ (Act.workingPath_eq host)] at h
    -- The file is given if nothing is wrong with it.
    revert h
    cases hfault : (SourceFile.ofPaths path (relativePath s host.folder path)).fault? with
    | none =>
      rw [relativePath] at hfault
      simp only [hfault]
      rintro ⟨⟩
      exact ⟨rfl, rfl⟩
    | some fault =>
      rw [relativePath] at hfault
      simp only [hfault]
      rintro ⟨⟩

/-- A path that is placed gets the next number. -/
theorem gives_addPath {paths : List String} (hg : g.Consistent)
    (hfiles : g.files = filesOf s host.folder paths) (path : String) :
    Gives (addPath s g path) host fun g' host' => host' = host ∧ g'.Consistent ∧
      g'.files = filesOf s host.folder (paths ++ [path]) ∧ g'.edges = g.edges := by
  unfold addPath
  refine (gives_sourceOf s path host).bind fun f host' hf => ?_
  obtain ⟨rfl, rfl⟩ := hf
  refine (Act.gives_ofExcept _ _).bind fun added host'' hadded => ?_
  obtain ⟨hadded, rfl⟩ := hadded
  generalize hsourced : SourceFile.ofPaths path (relativePath s host''.folder path) = f at hadded
  have hzero : f.id = 0 := by rw [← hsourced]; rfl
  have hid : g.idFor f = (paths.length + 1 : Nat) := by
    rw [ImportGraph.idFor, if_pos hzero, hg.keys_table, hfiles, nextId_filesOf]
  have hfree := ImportGraph.idFor_not_mem (g := g) hzero
  by_cases hpath : f.absolutePath ∈ g.idsByPath.keys
  · -- A path that is placed already is refused.
    rw [ImportGraph.addFile, ImportGraph.insertFile_eq, ImportGraph.hasPath_iff.2 hpath,
      Bool.true_or, if_pos rfl] at hadded
    cases hadded
  · have hinsert := ImportGraph.insertFile_of_not_mem hpath hfree
    rw [ImportGraph.addFile, hinsert] at hadded
    cases hadded
    refine gives_pure ⟨rfl, hg.withFile hpath hfree, ?_, rfl⟩
    rw [ImportGraph.files_withFile hpath hfree, hfiles, filesOf_append_singleton, hid, ← hsourced]
    rfl

/-- Paths become files in order, and no imports. -/
theorem gives_addPaths (before new : List String) (hg : g.Consistent)
    (hfiles : g.files = filesOf s host.folder before) :
    Gives (new.foldlM (addPath s) g) host fun g' host' => host' = host ∧ g'.Consistent ∧
      g'.files = filesOf s host.folder (before ++ new) ∧ g'.edges = g.edges := by
  induction new generalizing g before with
  | nil => exact gives_pure ⟨rfl, hg, by rw [hfiles, List.append_nil], rfl⟩
  | cons path new ih =>
    rw [List.foldlM_cons]
    refine (gives_addPath hg hfiles path).bind fun g₁ host₁ h₁ => ?_
    obtain ⟨rfl, hg₁, hfiles₁, hedges₁⟩ := h₁
    -- The files placed so far are those of the paths before, which the next path joins.
    refine (ih _ hg₁ hfiles₁).mono fun g' host' h' => ?_
    rw [List.append_assoc, List.singleton_append, hedges₁] at h'
    exact h'

/-- What is known of a survey that comes to its end: all its statements have been taken into
account, under the texts that the paths lead to. -/
theorem gives_ofPaths (hlog : host.HasLogFile) (paths : List String) :
    Gives (ofPaths s c paths) host fun result host' => result.2 = none → ∃ textOf,
      (∀ path ∈ paths, Reads host (Path.ofText path).text (textOf path)) ∧
      Surveyed s c host (filesOf s host.folder paths)
        (placedOf s textOf (filesOf s host.folder paths)) result.1 host' := by
  unfold ofPaths
  have hplaced : Gives (try Except.ok <$> paths.foldlM (addPath s) ImportGraph.empty
        catch e => pure (Except.error e) : Act (Except Error ImportGraph)) host
      fun placed host' => ∀ g, placed = .ok g → host' = host ∧ g.Consistent ∧
        g.files = filesOf s host.folder paths ∧ g.edges = [] := by
    refine Gives.tryCatch (.map ?_) fun e host' _ => gives_pure nofun
    refine (gives_addPaths [] paths ImportGraph.consistent_empty rfl).mono fun g host' h => ?_
    rintro _ ⟨⟩
    exact h
  refine hplaced.bind fun placed host₁ h₁ => ?_
  cases placed with
  | error e => exact gives_pure nofun
  | ok g =>
    obtain ⟨rfl, hg, hfiles, hedges⟩ := h₁ g rfl
    -- No edge is there before the first file is read.
    have hstart : Surveyed s c host₁ g.files [] { graph := g } host₁ := by
      refine ⟨hg, rfl, .refl _, ?_, ?_, nofun, nofun⟩
      · show 0 + 0 + g.edges.length = 0
        rw [hedges, List.length_nil]
      · show ∀ e ∈ g.edges, _
        rw [hedges]
        exact nofun
    refine (gives_addFiles hlog hstart (fun _ => id) hg.nodup_paths).bind fun result host₂ h₂ => ?_
    obtain ⟨survey, stopped⟩ := result
    cases stopped with
    | some e => exact gives_pure nofun
    | none =>
      obtain ⟨textOf, hreads, h₂⟩ := h₂ rfl
      rw [hfiles, List.nil_append] at h₂
      simp only [Option.isNone_none, ↓reduceIte]
      -- That the graph is built is logged, which is no warning.
      refine (Host.gives_log (h₂.warned.logged.hasLogFile hlog) .info _ _).bind ?_
      intro _ host' hwarned
      refine gives_pure fun _ => ⟨textOf, fun path hpath => ?_, { h₂ with
        warned := h₂.warned.trans hwarned }⟩
      rw [← paths_filesOf (s := s) host₁.folder paths, ← hfiles] at hpath
      obtain ⟨f, hf, rfl⟩ := List.mem_map.1 hpath
      exact hreads f hf

/-- What is known of a graph that is built. -/
theorem gives_buildGraph (hlog : host.HasLogFile) (paths : List String) :
    Gives (buildGraph s paths) host fun g host' => ∃ c survey textOf, g = survey.graph ∧
      c.localStarts = (Value.leadingTexts s.localStarts).1 ∧
      (∀ path ∈ paths, Reads host (Path.ofText path).text (textOf path)) ∧
      Surveyed s c host (filesOf s host.folder paths)
        (placedOf s textOf (filesOf s host.folder paths)) survey host' := by
  unfold buildGraph
  refine (s.gives_classifier host).bind fun c host' hc => ?_
  obtain ⟨hstarts, rfl⟩ := hc
  refine (gives_ofPaths hlog paths).bind fun result host₁ h => ?_
  obtain ⟨survey, stopped⟩ := result
  cases stopped with
  -- A survey that was stopped gives no graph.
  | some e => exact gives_throw _
  | none =>
    obtain ⟨textOf, hreads, hsurveyed⟩ := h rfl
    exact gives_pure ⟨c, survey, textOf, rfl, hstarts, hreads, hsurveyed⟩

/-- The number of statements is that of the lines that start one. -/
theorem length_placedOf (textOf : String → String) (here : Place) (paths : List String) :
    (placedOf s textOf (filesOf s here paths)).length =
      (paths.map fun path => (Text.lines (textOf path).toList).countP startsStatement).sum := by
  -- Each line that starts a statement is placed once.
  have hone (file : SourceFile) : (placedIn s (textOf file.absolutePath) file).length =
      (Text.lines (textOf file.absolutePath).toList).countP startsStatement := by
    rw [placedIn, List.length_map, statements, List.length_map, length_statementBlocks]
  rw [placedOf, List.length_flatMap]
  simp only [hone]
  conv_rhs => rw [← paths_filesOf (s := s) here paths, List.map_map]
  rfl

end Survey

/-! ## What the imports come to -/

/-- An import knows of its target what there is to know: its place if it is a local file that is
there, and its id if that file is one of `paths`. -/
structure ImportEdge.IsTraced (paths : List String) (e : ImportEdge) : Prop where
  targetPath_isSome : e.targetId.isSome = true → e.targetPath.isSome = true
  kind_eq : e.targetPath.isSome = true → e.kind = some .localFile
  targetId_isSome_iff : ∀ path ∈ e.targetPath, e.targetId.isSome = true ↔ path ∈ paths

/-- Whether an import leads to a file that is none of `paths`. -/
def ImportEdge.leadsOutside (paths : List String) (e : ImportEdge) : Bool :=
  e.targetPath.any fun path => !paths.contains path

/-- The import of a locator knows of its target what there is to know. -/
theorem Survey.isTraced_importOf (s : Settings) (c : Classifier) (t : Tree Content) (here : Place)
    (paths : List String) (file : SourceFile) (locator : String) :
    (importOf s c t here (filesOf s here paths) file locator).IsTraced paths := by
  constructor
  case targetPath_isSome =>
    intro h
    rw [Option.isSome_iff_exists] at h ⊢
    obtain ⟨id, hid⟩ := h
    obtain ⟨path, hpath, -⟩ := Option.bind_eq_some_iff.1 hid
    exact ⟨path, hpath⟩
  case kind_eq =>
    intro h
    by_contra hkind
    -- An import that is not local is given no target.
    change c.classify locator ≠ some .localFile at hkind
    simp [importOf, hkind] at h
  case targetId_isSome_iff =>
    intro path hpath
    change _ = some path at hpath
    have hid : (importOf s c t here (filesOf s here paths) file locator).targetId =
        ((filesOf s here paths).find? fun f => f.absolutePath == path).map (·.id) := by
      simp only [importOf] at hpath ⊢
      rw [hpath, Option.bind_some]
    conv_rhs => rw [← paths_filesOf (s := s) here paths]
    rw [hid, Option.isSome_map, List.find?_isSome]
    simp only [beq_iff_eq, List.mem_map]

namespace ImportGraph

/-- Every import is local, or of a library, or neither. -/
theorem length_edges_eq (g : ImportGraph) :
    g.edges.length = (g.edgesOfKind (some .localFile)).length +
      (g.edgesOfKind (some .library)).length + (g.edgesOfKind none).length := by
  unfold edgesOfKind
  simp only [← List.countP_eq_length_filter]
  induction g.edges with
  | nil => rfl
  | cons e es ih =>
    simp only [List.countP_cons, List.length_cons]
    -- Every import is of one of three kinds and is counted once.
    rcases e.kind with _ | _ | _
    · simp only [show ((none : Option ImportKind) == some .localFile) = false from rfl,
        show ((none : Option ImportKind) == some .library) = false from rfl, beq_self_eq_true,
        Bool.false_eq_true, ↓reduceIte]
      omega
    · simp only [show (some ImportKind.localFile == some .library) = false from rfl,
        show (some ImportKind.localFile == none) = false from rfl, beq_self_eq_true,
        Bool.false_eq_true, ↓reduceIte]
      omega
    · simp only [show (some ImportKind.library == some .localFile) = false from rfl,
        show (some ImportKind.library == none) = false from rfl, beq_self_eq_true,
        Bool.false_eq_true, ↓reduceIte]
      omega

/-- A local import has a target of the graph, or none, or one that is not of the graph. -/
theorem length_localEdges_eq {g : ImportGraph} {paths : List String}
    (h : ∀ e ∈ g.edges, e.IsTraced paths) :
    (g.edgesOfKind (some .localFile)).length = g.resolvedEdges.length +
      ((g.edgesOfKind (some .localFile)).filter fun e => e.targetPath.isNone).length +
      (g.edges.filter (·.leadsOutside paths)).length := by
  unfold edgesOfKind resolvedEdges
  simp only [List.filter_filter, ← List.countP_eq_length_filter]
  revert h
  induction g.edges with
  | nil => exact fun _ => rfl
  | cons e es ih =>
    intro h
    rw [List.forall_mem_cons] at h
    have hrest := ih h.2
    simp only [List.countP_cons, hrest, ImportEdge.leadsOutside]
    cases hpath : e.targetPath with
    | none =>
      -- Without a target path there is no target id.
      have hid : e.isResolved = false := by
        by_contra hid
        have hsome := h.1.targetPath_isSome (eq_true_of_ne_false hid)
        rw [hpath] at hsome
        cases hsome
      simp only [hid, Option.any_none, Option.isNone_none, Bool.true_and, Bool.false_eq_true,
        ↓reduceIte]
      omega
    | some path =>
      have hkind : e.kind = some .localFile := h.1.kind_eq (by rw [hpath]; rfl)
      have hiff := h.1.targetId_isSome_iff path hpath
      -- An edge that has a target is resolved or leads outside, by whether the path is listed.
      by_cases hmem : path ∈ paths
      · have hid : e.isResolved = true := hiff.2 hmem
        simp only [hkind, hid, hmem, Option.any_some, Option.isNone_some, List.contains_eq_mem,
          beq_self_eq_true, decide_true, Bool.not_true, Bool.false_and, Bool.false_eq_true,
          ↓reduceIte]
        omega
      · have hid : e.isResolved = false := eq_false_of_ne_true (mt hiff.1 hmem)
        simp only [hkind, hid, hmem, Option.any_some, Option.isNone_some, List.contains_eq_mem,
          beq_self_eq_true, decide_false, Bool.not_false, Bool.false_and, Bool.false_eq_true,
          ↓reduceIte]
        omega

end ImportGraph

/-- When a survey comes to its end, no line that starts a statement is lost: its statement was
skipped, it repeated an import, or it became one, and there is one warning for each statement that
was skipped. The imports are those that are local, of libraries, or neither; a local one leads to a
file of the graph, to none, or to one outside the graph. -/
theorem Survey.ofPaths_accounts {s : Settings} {c : Classifier} {paths : List String}
    {host host' : Host} {survey : Survey} (hlog : host.HasLogFile)
    (h : Survey.ofPaths s c paths host = .ok (survey, none) host') :
    (∃ textOf : String → String,
      (∀ path ∈ paths, Reads host (Path.ofText path).text (textOf path)) ∧
      survey.skippedLines + survey.duplicateImports + survey.graph.edges.length =
        (paths.map fun path => (Text.lines (textOf path).toList).countP startsStatement).sum) ∧
    (∃ new, host'.records = host.records ++ new ∧
      new.countP LogRecord.isWarning = survey.skippedLines) ∧
    survey.graph.files.map (·.absolutePath) = paths ∧
    (∀ e ∈ survey.graph.edges, (e.targetId.isSome = true → e.targetPath.isSome = true) ∧
      (e.targetPath.isSome = true → e.kind = some .localFile)) ∧
    ∀ r : RunResult, r.graph = survey.graph →
      ∃ files imports ofLocal library unclassified resolved unresolved cycles,
        r.summary = [("files", files), ("imports", imports), ("local", ofLocal),
          ("library", library), ("unclassified", unclassified), ("resolved", resolved),
          ("unresolved_local", unresolved), ("cycles", cycles)] ∧
        imports = ofLocal + library + unclassified ∧
        ofLocal = resolved + unresolved +
          (survey.graph.edges.filter (·.leadsOutside paths)).length := by
  obtain ⟨textOf, hreads, hsurveyed⟩ := gives_ofPaths hlog paths _ _ h rfl
  have htraced : ∀ e ∈ survey.graph.edges, e.IsTraced paths := by
    intro e he
    obtain ⟨p, -, found, -, rfl⟩ := hsurveyed.exists_placed e he
    exact isTraced_importOf s c _ _ paths p.1 _
  refine ⟨⟨textOf, hreads, ?_⟩, hsurveyed.warned.records_eq, ?_, ?_, ?_⟩
  · exact hsurveyed.balance.trans (length_placedOf textOf _ _)
  · rw [hsurveyed.files_eq, paths_filesOf]
  · intro e he
    exact ⟨(htraced e he).targetPath_isSome, (htraced e he).kind_eq⟩
  · intro r hr
    refine ⟨_, _, _, _, _, _, _, _, rfl, ?_, ?_⟩
    · rw [hr]
      exact ImportGraph.length_edges_eq _
    · rw [hr]
      exact ImportGraph.length_localEdges_eq htraced

/-- Of two files with one statement each, both statements are accounted for. -/
theorem Survey.ofPaths_accounts_mutual :
    ∃ survey host', Survey.ofPaths mutualSettings .default ["/p/a.js", "/p/b.js"] mutualHost =
        .ok (survey, none) host' ∧
      survey.skippedLines + survey.duplicateImports + survey.graph.edges.length = 2 := by
  have hreadA : Act.readBytes "/p/a.js" mutualHost = .ok _ mutualHost :=
    readBytes_mutualHost (.inl rfl) rfl
  have hreadB : Act.readBytes "/p/b.js" mutualHost = .ok _ mutualHost :=
    readBytes_mutualHost (.inr rfl) rfl
  have hplaceable : ∀ path ∈ ["/p/a.js", "/p/b.js"],
      IsPlaceable mutualSettings mutualHost.folder path := by
    simp only [List.mem_cons, List.not_mem_nil, or_false, forall_eq_or_imp, forall_eq]
    exact ⟨⟨⟨["p", "a.js"], by decide, by decide⟩, by decide⟩,
      ⟨⟨["p", "b.js"], by decide, by decide⟩, by decide⟩⟩
  have hreadable : ∀ path ∈ ["/p/a.js", "/p/b.js"],
      ∃ bytes, Act.readBytes path mutualHost = .ok bytes mutualHost := by
    simp only [List.mem_cons, List.not_mem_nil, or_false, forall_eq_or_imp, forall_eq]
    exact ⟨⟨_, hreadA⟩, ⟨_, hreadB⟩⟩
  have hlog : mutualHost.HasLogFile := nofun
  obtain ⟨survey, host', -, hsurvey, -⟩ := ofPaths_ok (s := mutualSettings) (c := .default)
    (by decide) hlog (by decide) hplaceable hreadable
  obtain ⟨⟨textOf, hreads, hbalance⟩, -⟩ := ofPaths_accounts hlog hsurvey
  refine ⟨survey, host', hsurvey, hbalance.trans ?_⟩
  -- Without a log file the texts are what the files hold.
  obtain ⟨bytes, more, hbytes, htext, hmore⟩ := hreads "/p/a.js" (by decide)
  cases hbytes.symm.trans hreadA
  cases hmore nofun
  obtain ⟨bytes, more, hbytes, htext', hmore⟩ := hreads "/p/b.js" (by decide)
  cases hbytes.symm.trans hreadB
  cases hmore nofun
  rw [List.map_cons, List.map_singleton, htext, htext']
  decide +kernel

end ImportAtlas

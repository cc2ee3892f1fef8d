import ImportAtlas.Proofs.Setting.Load

/-!
# Settings and the values that they are read from

Reading named values changes nothing on the host, so settings can be told from the values alone:
each value passes its checks, and what is not named is as it is unless set.

## Key results

- `Settings.ofEntries_eq_ok_iff`: which settings are read from named values
- `Settings.gives_ofEntries`: settings that are accepted have straight paths and bare extensions
-/

namespace EStateM

variable {ε σ α β : Type} {x : EStateM ε σ α} {s s' : σ} {A : α → Prop} {E : ε → Prop}

/-- After asking, what succeeds goes on from the same state. -/
theorem Asks.bind_eq_ok_iff (h : Asks x s A E) {f : α → EStateM ε σ β} {b : β} :
    (x >>= f) s = .ok b s' ↔ ∃ a, x s = .ok a s ∧ f a s = .ok b s' := by
  rw [EStateM.bind_eq_ok_iff]
  constructor
  · rintro ⟨a, s₁, hx, hf⟩
    -- What only asks leaves the state as it is.
    obtain rfl := (h.gives a s₁ hx).1
    exact ⟨a, hx, hf⟩
  · rintro ⟨a, hx, hf⟩
    exact ⟨a, s, hx, hf⟩

end EStateM

namespace ImportAtlas

open EStateM

namespace Settings

variable {host host' : Host} {entries : Dictionary String Value} {s : Settings}

/-! ## Reading one value -/

/-- Nothing but a text is read as one. -/
theorem textOf_eq_ok_iff {v : Value} {text : String} :
    textOf v host = .ok text host' ↔ v = .text text ∧ host' = host := by
  cases v with
  | text s =>
    constructor
    · rintro ⟨⟩
      exact ⟨rfl, rfl⟩
    · rintro ⟨⟨⟩, rfl⟩
      rfl
  | _ => exact iff_of_false nofun nofun

/-- What is refused gives nothing. -/
theorem refuse_ne_ok {α : Type} (key : String) (value : Value) (reason : String) (a : α) :
    (refuse key value reason : Act α) host ≠ .ok a host' :=
  fun h => gives_refuse key value reason (fun _ _ => False) a host' h

/-- A verbosity is known by its name only. -/
theorem ofName?_eq_some_iff {text : String} {v : Verbosity} :
    Verbosity.ofName? text = some v ↔ text = v.name := by
  constructor
  · intro h
    have hname := List.find?_some h
    exact (beq_iff_eq.1 hname).symm
  · rintro rfl
    cases v <;> rfl

/-! ## Reading all values -/

/-- The settings where nothing is set. -/
def unset : Settings where
  projectRoot := ""
  scanDirectories := []

/-- Settings are what named values are read as: each value passes its checks, and what is not named
is as it is unless set. -/
structure IsReadFrom (s : Settings) (entries : Dictionary String Value) (host : Host) : Prop where
  isNamed : ∀ e ∈ entries, names.contains e.1 = true
  projectRoot : ∃ text,
    valueOf entries "project_root" (.text (Path.ofPlace host.folder).text) = .text text ∧
      directoryOf none text host = .ok s.projectRoot host
  scanDirectories : ∃ items,
    itemsOf "scan_dirs" (valueOf entries "scan_dirs" (.list [])) host = .ok items host ∧
      directoriesOf s.projectRoot items host = .ok s.scanDirectories host
  extensions : ∃ items,
    itemsOf "extensions" (valueOf entries "extensions" (.list (unset.extensions.map .text))) host =
        .ok items host ∧
      items.mapM extensionOf host = .ok s.extensions host
  /-- There are some, and none of them is empty. -/
  extensions_ne : s.extensions.isEmpty = false ∧ s.extensions.contains "" = false
  libraries : itemsOf "known_libraries"
    (valueOf entries "known_libraries" (.list unset.libraries)) host = .ok s.libraries host
  localStarts : itemsOf "local_prefixes"
    (valueOf entries "local_prefixes" (.list unset.localStarts)) host = .ok s.localStarts host
  localStarts_ne : s.localStarts.isEmpty = false ∧ s.localStarts.all (·.isTruthy) = true
  excludePatterns : itemsOf "exclude_patterns"
    (valueOf entries "exclude_patterns" (.list unset.excludePatterns)) host =
      .ok s.excludePatterns host
  timeout : s.timeout = valueOf entries "subprocess_timeout_seconds" unset.timeout
  /-- The timeout is not below one. -/
  timeout_ge : s.timeout.isBelowOne? = some false
  verbosity : valueOf entries "verbosity" (.text unset.verbosity.name) = .text s.verbosity.name
  imageFile : valueOf entries "image_file" (.text unset.imageFile) = .text s.imageFile
  imageFile_suffix : (Path.ofText s.imageFile).suffix ≠ ""
  joinBlocks : s.joinBlocks = valueOf entries "follow_multiline" unset.joinBlocks
  trackedOnly : s.trackedOnly = valueOf entries "tracked_only" unset.trackedOnly
  databaseFile : s.databaseFile = valueOf entries "database_file" unset.databaseFile
  dotFile : s.dotFile = valueOf entries "dot_file" unset.dotFile
  layoutEngine : s.layoutEngine = valueOf entries "layout_engine" unset.layoutEngine
  dotCommand : s.dotCommand = valueOf entries "dot_command" unset.dotCommand
  linkBase : s.linkBase = valueOf entries "link_base" unset.linkBase

/-- Directories are spelled as straight paths. -/
theorem gives_directoriesOf (hfolder : host.folder.IsProper) (root : String) (items : List Value) :
    Gives (directoriesOf root items) host fun ds host' =>
      host' = host ∧ ∀ d ∈ ds, ∃ p : Path, p.IsStraight ∧ d = p.text := by
  refine gives_mapM (I := (· = host)) (fun d _ host' hsame => ?_) rfl
  subst hsame
  refine (gives_textOf d).bind fun text host'' hsame => ?_
  subst hsame
  exact gives_directoryOf hfolder (some root) text

/-- To read directories changes nothing. -/
theorem asks_directoriesOf (root : String) (items : List Value) :
    Asks (directoriesOf root items) host (fun _ => True) fun _ => True := by
  refine (asks_mapM (B := fun _ => True) (E := fun _ => True) fun d _ => ?_).mono
    (fun _ _ => trivial) fun _ h => h
  have htext : Asks (textOf d) host (fun _ => True) (IsRefused host []) := asks_textOf d
  refine Asks.bind (htext.mono (fun _ h => h) fun _ _ => trivial) fun text _ => ?_
  exact (asks_directoryOf _ text).mono (fun _ h => h) fun _ _ => trivial

/-- In the root, the root is scanned if no directory is named. -/
theorem directoriesOf_hostOfTree (tree : Tree Content) (replies : List Reply) :
    directoriesOf "/" [] (hostOfTree tree replies) = .ok ["/"] (hostOfTree tree replies) := by
  have hroot := (directoryOf_hostOfTree tree replies).2
  refine mapM_of_ok (f := fun _ => "/") fun d hd => ?_
  rw [List.mem_singleton.1 hd]
  exact hroot

section Steps

variable {α : Type} {a : α}

/-- Items are read first, and nothing changes until they are at hand. -/
theorem itemsOf_bind_eq_ok_iff {key : String} {v : Value} {f : List Value → Act α} :
    (itemsOf key v >>= f) host = .ok a host' ↔
      ∃ items, itemsOf key v host = .ok items host ∧ f items host = .ok a host' :=
  have hasks : Asks (itemsOf key v) host (fun _ => True) (IsRefused host []) := asks_itemsOf key v
  hasks.bind_eq_ok_iff

/-- The same of a text. -/
theorem textOf_bind_eq_ok_iff {v : Value} {f : String → Act α} :
    (textOf v >>= f) host = .ok a host' ↔ ∃ text, v = .text text ∧ f text host = .ok a host' := by
  have hasks : Asks (textOf v) host (fun _ => True) (IsRefused host []) := asks_textOf v
  rw [hasks.bind_eq_ok_iff]
  simp only [textOf_eq_ok_iff, and_true]

/-- The same of a directory. -/
theorem directoryOf_bind_eq_ok_iff {base : Option String} {path : String} {f : String → Act α} :
    (directoryOf base path >>= f) host = .ok a host' ↔
      ∃ d, directoryOf base path host = .ok d host ∧ f d host = .ok a host' :=
  (asks_directoryOf base path).bind_eq_ok_iff

/-- The same of directories. -/
theorem directoriesOf_bind_eq_ok_iff {root : String} {items : List Value}
    {f : List String → Act α} :
    (directoriesOf root items >>= f) host = .ok a host' ↔
      ∃ ds, directoriesOf root items host = .ok ds host ∧ f ds host = .ok a host' :=
  (asks_directoriesOf root items).bind_eq_ok_iff

/-- The same of extensions. -/
theorem extensionsOf_bind_eq_ok_iff {items : List Value} {f : List String → Act α} :
    (items.mapM extensionOf >>= f) host = .ok a host' ↔
      ∃ es, items.mapM extensionOf host = .ok es host ∧ f es host = .ok a host' :=
  have hasks (item : Value) : Asks (extensionOf item) host (fun _ => True) fun _ => True :=
    (asks_extensionOf item).mono (fun _ h => h) fun _ _ => trivial
  (asks_mapM fun item _ => hasks item).bind_eq_ok_iff

/-- Nothing comes of what has been refused. -/
theorem refuse_bind_eq_ok_iff {β : Type} {key reason : String} {value : Value} {f : β → Act α} :
    (refuse key value reason >>= f) host = .ok a host' ↔ False := by
  rw [bind_eq_ok_iff, iff_false]
  rintro ⟨b, s', hrefuse, -⟩
  exact refuse_ne_ok key value reason b hrefuse

theorem throw_bind_eq_ok_iff {β : Type} {e : Error} {f : β → Act α} :
    ((throw e : Act β) >>= f) host = .ok a host' ↔ False :=
  iff_false_intro nofun

/-- Of two acts, one is run. -/
theorem ite_eq_ok_iff {p : Prop} [Decidable p] {x y : Act α} :
    (if p then x else y) host = .ok a host' ↔
      p ∧ x host = .ok a host' ∨ ¬ p ∧ y host = .ok a host' := by
  split <;> simp [*]

end Steps

/-- What is read from named values passes their checks. -/
theorem isReadFrom_of_ofEntries (h : ofEntries entries host = .ok s host') :
    host' = host ∧ s.IsReadFrom entries host := by
  have hdirectories (root : String) (items : List Value) :
      ((if items.isEmpty then [.text root] else items).mapM fun d => do
        directoryOf (some root) (← textOf d)) = directoriesOf root items := rfl
  unfold ofEntries at h
  cases hfind : entries.find? fun e => !names.contains e.1 with
  | some entry => simp only [hfind, throw_bind_eq_ok_iff] at h
  | none =>
    have hnamed : ∀ e ∈ entries, names.contains e.1 = true := by
      simpa using List.find?_eq_none.1 hfind
    simp only [hfind, hdirectories, Act.workingPath, bind_assoc, bind_get, pure_bind,
      itemsOf_bind_eq_ok_iff, textOf_bind_eq_ok_iff, directoryOf_bind_eq_ok_iff,
      directoriesOf_bind_eq_ok_iff, extensionsOf_bind_eq_ok_iff, ite_eq_ok_iff,
      refuse_bind_eq_ok_iff, and_false, false_or] at h
    obtain ⟨scanned, hscanned, written, hwritten, libraries, hlibraries, starts, hstarts, patterns,
      hpatterns, text, htext, root, hroot, directories, hdirectories, bare, hbare, hbare_ne,
      hstarts_ne, h⟩ := h
    -- The timeout and the verbosity are looked at by cases.
    generalize hspoken : valueOf entries "verbosity" (.text Verbosity.normal.name) = spoken at h
    rcases htimeout : (valueOf entries "subprocess_timeout_seconds" (.int 60)).isBelowOne?
      with _ | _ | _
    · simp only [htimeout, throw_bind_eq_ok_iff] at h
    · simp only [htimeout] at h
      cases spoken with
      | text word =>
        rcases hverbosity : Verbosity.ofName? word with _ | verbosity
        · simp only [hverbosity, refuse_bind_eq_ok_iff] at h
        · simp only [hverbosity, textOf_bind_eq_ok_iff, ite_eq_ok_iff, refuse_bind_eq_ok_iff,
            and_false, false_or] at h
          obtain ⟨imageFile, himageFile, hsuffix, hend⟩ := h
          cases hend
          -- A word that is a verbosity is the name of it.
          obtain rfl := ofName?_eq_some_iff.1 hverbosity
          simp only [Bool.or_eq_true, not_or, Bool.not_eq_true, Bool.not_eq_false']
            at hbare_ne hstarts_ne
          exact ⟨rfl, hnamed, ⟨text, htext, hroot⟩, ⟨scanned, hscanned, hdirectories⟩,
            ⟨written, hwritten, hbare⟩, hbare_ne, hlibraries, hstarts, hstarts_ne, hpatterns, rfl,
            htimeout, hspoken, himageFile, hsuffix, rfl, rfl, rfl, rfl, rfl, rfl, rfl⟩
      | _ => simp only [refuse_bind_eq_ok_iff] at h
    · simp only [htimeout, refuse_bind_eq_ok_iff] at h

/-- Named values whose checks are passed are read. -/
theorem IsReadFrom.ofEntries_eq (h : s.IsReadFrom entries host) :
    ofEntries entries host = .ok s host := by
  have hdirectories (root : String) (items : List Value) :
      ((if items.isEmpty then [.text root] else items).mapM fun d => do
        directoryOf (some root) (← textOf d)) = directoriesOf root items := rfl
  have hfind : entries.find? (fun e => !names.contains e.1) = none :=
    List.find?_eq_none.2 fun e he => by
      rw [h.isNamed e he]
      decide
  obtain ⟨text, htext, hroot⟩ := h.projectRoot
  obtain ⟨scanned, hscanned, hscan⟩ := h.scanDirectories
  obtain ⟨written, hwritten, hbare⟩ := h.extensions
  have hbare_ne : (s.extensions.isEmpty || s.extensions.contains "") = false := by
    rw [h.extensions_ne.1, h.extensions_ne.2]
    rfl
  have hstarts_ne : (s.localStarts.isEmpty || !s.localStarts.all (·.isTruthy)) = false := by
    rw [h.localStarts_ne.1, h.localStarts_ne.2]
    rfl
  have htimeout := h.timeout_ge
  rw [h.timeout] at htimeout
  have hverbosity := h.verbosity
  have himageFile := h.imageFile
  have hword : Verbosity.ofName? s.verbosity.name = some s.verbosity := ofName?_eq_some_iff.2 rfl
  dsimp only [unset] at htimeout hverbosity himageFile
  -- Each check in the chain is turned into the condition that it passes.
  unfold ofEntries
  simp only [hfind, hdirectories, Act.workingPath, bind_assoc, bind_get, pure_bind,
    itemsOf_bind_eq_ok_iff, textOf_bind_eq_ok_iff, directoryOf_bind_eq_ok_iff,
    directoriesOf_bind_eq_ok_iff, extensionsOf_bind_eq_ok_iff, ite_eq_ok_iff,
    refuse_bind_eq_ok_iff, and_false, false_or]
  refine ⟨scanned, hscanned, written, hwritten, s.libraries, h.libraries, s.localStarts,
    h.localStarts, s.excludePatterns, h.excludePatterns, text, htext, s.projectRoot, hroot,
    s.scanDirectories, hscan, s.extensions, hbare, ne_true_of_eq_false hbare_ne,
    ne_true_of_eq_false hstarts_ne, ?_⟩
  simp only [htimeout, hverbosity, hword, himageFile, textOf_bind_eq_ok_iff, ite_eq_ok_iff,
    refuse_bind_eq_ok_iff, and_false, false_or]
  refine ⟨s.imageFile, rfl, h.imageFile_suffix, congrArg (Result.ok · host) ?_⟩
  cases s
  simp only [mk.injEq, true_and, and_true]
  exact ⟨h.joinBlocks.symm, h.trackedOnly.symm, h.databaseFile.symm, h.dotFile.symm,
    h.layoutEngine.symm, h.dotCommand.symm, h.linkBase.symm, h.timeout.symm⟩

/-- The settings that are read from named values. -/
theorem ofEntries_eq_ok_iff :
    ofEntries entries host = .ok s host' ↔ host' = host ∧ s.IsReadFrom entries host := by
  refine ⟨isReadFrom_of_ofEntries, ?_⟩
  rintro ⟨rfl, h⟩
  exact h.ofEntries_eq

/-! ## Settings that are accepted -/

/-- Settings that are read from named values have straight paths and bare extensions. -/
theorem IsReadFrom.isAccepted (hfolder : host.folder.IsProper) (h : s.IsReadFrom entries host) :
    s.IsAccepted where
  isRooted := by
    obtain ⟨text, -, hroot⟩ := h.projectRoot
    exact (gives_directoryOf hfolder none text _ _ hroot).2
  isStraight_of_mem := by
    obtain ⟨items, -, hscan⟩ := h.scanDirectories
    exact (gives_directoriesOf hfolder _ items _ _ hscan).2
  isBare_of_mem := by
    obtain ⟨items, -, hread⟩ := h.extensions
    have hdots : ∀ e ∈ s.extensions, e.toList.head? ≠ some '.' := by
      refine (gives_mapM (I := (· = host)) (fun v _ host' hsame => ?_) rfl _ _ hread).2
      subst hsame
      exact gives_extensionOf v
    -- An extension of nothing but dots has lost them all, and is refused as empty.
    refine fun e he => ⟨?_, hdots e he⟩
    rintro rfl
    exact Bool.false_ne_true (h.extensions_ne.2.symm.trans (List.contains_iff_mem.2 he))

/-- What is read is accepted. -/
theorem gives_ofEntries (hfolder : host.folder.IsProper) (entries : Dictionary String Value) :
    Gives (ofEntries entries) host fun s _ => s.IsAccepted :=
  fun _ _ h => (ofEntries_eq_ok_iff.1 h).2.isAccepted hfolder

/-- Settings that are accepted have a straight path as their project root. -/
theorem isRooted_of_ofEntries (hfolder : host.folder.IsProper)
    (h : ofEntries entries host = .ok s host') : s.IsRooted :=
  (gives_ofEntries hfolder entries s host' h).isRooted

end Settings

end ImportAtlas

import ImportAtlas.Proofs.Setting.Read
import ImportAtlas.Proofs.Setting.Source
import ImportAtlas.Proofs.Text.Utf8
import ImportAtlas.Proofs.Tree.Canonical

/-!
# The highest source counts

Loaded settings are read from the values that the highest sources give; faults of names and types
are reported as faults of the settings as a whole. Which values lower sources give to the same names
does not matter. Nor does the host, as long as directories are spelled alike on it: reading looks at
nothing but its links, its working directory and its home directories.

## Key results

- `Settings.asksAlike_ofEntries`: named values are read alike where directories are spelled alike
- `Settings.load_highest`: what settings are loaded from
-/

namespace ImportAtlas

open EStateM

/-- The name of a setting or the type of a value is to blame. -/
inductive Error.IsTypeFault : Error → Prop
  | unknownSetting (key : String) : IsTypeFault (.unknownSetting key)
  | takenSetting (key : String) : IsTypeFault (.takenSetting key)
  | illTyped : IsTypeFault .illTyped

/-- Directories are spelled alike on two hosts. -/
structure Host.SpellsAlike (host host' : Host) : Prop where
  sameLinks : host.tree.SameLinks host'.tree
  folder_eq : host'.folder = host.folder
  home_eq : (host'.environment.get? "HOME").or host'.home =
    (host.environment.get? "HOME").or host.home
  homes_eq : host'.homes = host.homes

namespace Settings

variable {host host' : Host} {entries entries' : Dictionary String Value}

/-! ## Reading on two hosts -/

/-- A text is read alike on all hosts. -/
theorem asksAlike_textOf (v : Value) : AsksAlike (textOf v) host (textOf v) host' := by
  unfold textOf
  split
  · exact asksAlike_pure _
  · exact asksAlike_throw _

/-- A value is refused alike. -/
theorem asksAlike_refuse {α : Type} (key : String) (value : Value) (reason : String) :
    AsksAlike (refuse key value reason : Act α) host (refuse key value reason) host' := by
  have hspell : AsksAlike (Act.spell value) host (Act.spell value) host' := by
    unfold Act.spell
    split
    · exact asksAlike_throw _
    · split
      · exact asksAlike_throw _
      · exact asksAlike_pure _
  exact (hspell.map fun _ => ()).bind fun _ => asksAlike_throw _

/-- The items of a list are read alike. -/
theorem asksAlike_itemsOf (key : String) (v : Value) :
    AsksAlike (itemsOf key v) host (itemsOf key v) host' := by
  unfold itemsOf
  split
  · exact asksAlike_refuse _ _ _
  · exact asksAlike_pure _
  · exact asksAlike_pure _
  · exact asksAlike_pure _
  · exact asksAlike_throw _

/-- So is an extension. -/
theorem asksAlike_extensionOf (v : Value) :
    AsksAlike (extensionOf v) host (extensionOf v) host' := by
  unfold extensionOf
  split
  · exact asksAlike_pure _
  · exact asksAlike_throw _

/-- Home directories are put in alike where they are spelled alike. -/
theorem asksAlike_expandHome (h : host.SpellsAlike host') (path : String) :
    AsksAlike (expandHome path) host (expandHome path) host' := by
  -- The homes are among what the two hosts spell alike.
  have hhome : AsksAlike homeDirectory host homeDirectory host' := by
    unfold homeDirectory
    refine asksAlike_bind_get ?_
    rw [h.home_eq]
    exact asksAlike_pure _
  unfold expandHome
  split
  · refine asksAlike_bind_get ?_
    rw [h.homes_eq]
    extract_lets finish
    have hfinish (home : Option String) : AsksAlike (finish home) host (finish home) host' := by
      cases home <;> exact asksAlike_pure _
    split
    · exact hhome.bind hfinish
    · exact (asksAlike_pure _).bind hfinish
  · exact asksAlike_pure _

/-- So directories are spelled alike. -/
theorem asksAlike_directoryOf (h : host.SpellsAlike host') (base : Option String) (path : String) :
    AsksAlike (directoryOf base path) host (directoryOf base path) host' := by
  unfold directoryOf
  refine (asksAlike_expandHome h path).bind fun expanded => ?_
  refine AsksAlike.bind ?_ fun p => asksAlike_pure _
  unfold Act.canonical
  refine asksAlike_bind_get ?_
  -- The canonical path depends on the folder and the links alone.
  rw [h.folder_eq, h.sameLinks.canonical?_eq]
  split
  · exact asksAlike_pure _
  · exact asksAlike_throw _

/-- A check is passed on both hosts, or on none. -/
theorem asksAlike_check {β : Type} {p : Prop} [Decidable p] {refusal : Act Unit}
    {next : Unit → Act β} (hrefusal : AsksAlike refusal host refusal host')
    (hnext : AsksAlike (next ()) host (next ()) host') :
    AsksAlike (if p then refusal >>= next else next ()) host
      (if p then refusal >>= next else next ()) host' := by
  split
  · exact hrefusal.bind fun _ => hnext
  · exact hnext

/-- The same named values are read alike where directories are spelled alike. -/
theorem asksAlike_ofEntries (h : host.SpellsAlike host') (entries : Dictionary String Value) :
    AsksAlike (ofEntries entries) host (ofEntries entries) host' := by
  have hworking : AsksAlike Act.workingPath host Act.workingPath host' := by
    refine asksAlike_bind_get ?_
    rw [h.folder_eq]
    exact asksAlike_pure _
  unfold ofEntries
  extract_lets value items read
  have hread : AsksAlike (read ()) host (read ()) host' := by
    refine hworking.bind fun working => ?_
    extract_lets working unset timeout spoken
    clear_value spoken timeout
    refine (asksAlike_itemsOf _ _).bind fun scanDirectories => ?_
    refine (asksAlike_itemsOf _ _).bind fun extensions => ?_
    refine (asksAlike_itemsOf _ _).bind fun libraries => ?_
    refine (asksAlike_itemsOf _ _).bind fun localStarts => ?_
    refine (asksAlike_itemsOf _ _).bind fun excludePatterns => ?_
    refine (asksAlike_textOf _).bind fun spelled => ?_
    refine (asksAlike_directoryOf h none spelled).bind fun root => ?_
    have heach (d : Value) : AsksAlike (do directoryOf (some root) (← textOf d)) host
        (do directoryOf (some root) (← textOf d)) host' :=
      (asksAlike_textOf d).bind fun text => asksAlike_directoryOf h _ text
    refine (asksAlike_mapM fun d _ => heach d).bind fun directories => ?_
    refine (asksAlike_mapM fun v _ => asksAlike_extensionOf v).bind fun bare => ?_
    -- The checks that are left, from the last one to the first.
    extract_lets finish checkVerbosity checkTimeout checkStarts
    have hfinish (verbosity : Verbosity) :
        AsksAlike (finish verbosity) host (finish verbosity) host' :=
      (asksAlike_textOf _).bind fun imageFile =>
        asksAlike_check (asksAlike_refuse _ _ _) (asksAlike_pure _)
    have hverbosity : AsksAlike (checkVerbosity ()) host (checkVerbosity ()) host' := by
      dsimp only [checkVerbosity]
      split
      · split
        · exact (asksAlike_pure _).bind hfinish
        · exact (asksAlike_refuse _ _ _).bind hfinish
      · exact (asksAlike_refuse _ _ _).bind hfinish
    have htimeout : AsksAlike (checkTimeout ()) host (checkTimeout ()) host' := by
      dsimp only [checkTimeout]
      split
      · exact (asksAlike_throw _).bind fun _ => hverbosity
      · exact (asksAlike_refuse _ _ _).bind fun _ => hverbosity
      · exact hverbosity
    have hstarts : AsksAlike (checkStarts ()) host (checkStarts ()) host' :=
      asksAlike_check (asksAlike_refuse _ _ _) htimeout
    exact asksAlike_check (asksAlike_refuse _ _ _) hstarts
  split
  · exact (asksAlike_throw _).bind fun _ => hread
  · exact hread

/-! ## Reading entries with the same values -/

/-- The first entry that is not named like a setting is looked for in vain if there is none. -/
theorem find?_unnamed_eq_none_iff : entries.find? (fun e => !names.contains e.1) = none ↔
    ∀ key, key ∉ names → entries.get? key = none := by
  rw [List.find?_eq_none]
  constructor
  · intro h key hkey
    rw [Dictionary.get?_eq_none_iff]
    intro hmem
    obtain ⟨e, he, rfl⟩ := List.mem_map.1 hmem
    exact hkey (by simpa using h e he)
  · -- An entry with a name of its own would be found by its key.
    intro h e he
    by_contra hname
    have hnone := h e.1 (by simpa using hname)
    exact Dictionary.get?_eq_none_iff.1 hnone (List.mem_map_of_mem he)

/-- An entry that is not named like a setting is refused before anything else. -/
theorem ofEntries_of_unnamed (host : Host) {key : String} (hkey : key ∉ names)
    (hget : entries.get? key ≠ none) :
    ∃ e : Error, e.IsTypeFault ∧ ofEntries entries host = .error e host := by
  cases hfind : entries.find? fun e => !names.contains e.1 with
  | none => exact absurd (find?_unnamed_eq_none_iff.1 hfind key hkey) hget
  | some entry =>
    refine ⟨if entry.1 = ownName then .takenSetting entry.1 else .unknownSetting entry.1, ?_, ?_⟩
    · -- The name of the settings' own type is refused with a message of its own.
      split
      · exact .takenSetting _
      · exact .unknownSetting _
    · unfold ofEntries
      simp only [hfind]
      rfl

/-- Where all names are those of settings, only the values matter. -/
theorem ofEntries_congr (hnamed : ∀ key, key ∉ names → entries.get? key = none)
    (h : ∀ key, entries'.get? key = entries.get? key) : ofEntries entries' = ofEntries entries := by
  have hvalue : valueOf entries' = valueOf entries := by
    funext key unset
    rw [valueOf, h, valueOf]
  have hnamed' : ∀ key, key ∉ names → entries'.get? key = none :=
    fun key hkey => (h key).trans (hnamed key hkey)
  -- The entries are only asked for the values of keys, and for a key that has no name.
  unfold ofEntries
  rw [hvalue, find?_unnamed_eq_none_iff.2 hnamed, find?_unnamed_eq_none_iff.2 hnamed']

/-! ## Loading -/

/-- The settings are not usable as a whole. -/
def unusable (reason : String) : Error :=
  .failure (.configuration ("Invalid configuration: " ++ reason))

/-- How loading ends, by how reading ends: the same way, but faults of names and types are reported
as faults of the settings as a whole. -/
inductive Reports (host : Host) : Result Error Host Settings → Result Error Host Settings → Prop
  | read (s : Settings) : Reports host (.ok s host) (.ok s host)
  | refused {e : Error} (he : ¬ e.IsTypeFault) : Reports host (.error e host) (.error e host)
  | unusable {e : Error} (he : e.IsTypeFault) (reason : String) :
    Reports host (.error e host) (.error (unusable reason) host)

/-- With names for all entries, loading reports what reading them gives. -/
theorem reports_load {g : Gathered} {file : Option String} {said : Dictionary String Value}
    (hgather : gather file said host = .ok g host) (hnames : g.hasNamelessEntry = false) :
    Reports host (ofEntries g.entries host) (load file said host) := by
  have hends : (∃ s, ofEntries g.entries host = .ok s host) ∨
      ∃ e, ofEntries g.entries host = .error e host :=
    (asks_iff.1 (asks_ofEntries g.entries)).imp (fun ⟨s, hs, _⟩ => ⟨s, hs⟩)
      fun ⟨e, he, _⟩ => ⟨e, he⟩
  unfold load
  rw [bind_of_ok _ hgather]
  dsimp only
  rw [hnames, if_neg Bool.false_ne_true]
  rcases hends with ⟨s, hs⟩ | ⟨e, he⟩
  · rw [tryCatch_of_ok _ hs, hs]
    exact .read s
  · rw [tryCatch_of_error _ he, he]
    -- Three errors are caught, which are the faults of names and types.
    split
    · exact .unusable (.unknownSetting _) _
    · exact .unusable (.takenSetting _) _
    · exact .unusable .illTyped _
    · rename_i hunknown htaken htyped
      refine .refused ?_
      rintro (key | key | _)
      · exact hunknown key rfl
      · exact htaken key rfl
      · exact htyped rfl

/-- An entry without a name is refused as unusable. -/
theorem load_of_hasNamelessEntry {g : Gathered} {file : Option String}
    {said : Dictionary String Value} (hgather : gather file said host = .ok g host)
    (hnames : g.hasNamelessEntry = true) :
    load file said host = .error (unusable "keywords must be strings") host := by
  unfold load
  rw [bind_of_ok _ hgather]
  dsimp only
  -- This is looked at before any of the values.
  rw [hnames, if_pos rfl]
  rfl

/-- What is reported does not depend on the order of entries. -/
theorem Reports.congr {result : Result Error Host Settings}
    (h : Reports host (ofEntries entries host) result)
    (hget : ∀ key, entries'.get? key = entries.get? key) :
    Reports host (ofEntries entries' host) result := by
  by_cases hnamed : ∀ key, key ∉ names → entries.get? key = none
  · rwa [ofEntries_congr hnamed hget]
  · push Not at hnamed
    obtain ⟨key, hkey, hsome⟩ := hnamed
    -- Which of the unnamed entries comes first may differ, but reading fails for either.
    have hsome' : entries'.get? key ≠ none := by rwa [hget]
    obtain ⟨e, he, hread⟩ := ofEntries_of_unnamed host hkey hsome
    obtain ⟨e', he', hread'⟩ := ofEntries_of_unnamed host hkey hsome'
    rw [hread] at h
    rw [hread']
    cases h with
    | refused hother => exact absurd he hother
    | unusable _ reason => exact .unusable he' reason

/-- Two loads end alike: with the same settings, with the same error, or with settings that are not
usable as a whole. -/
inductive LoadedAlike (host host' : Host) :
    Result Error Host Settings → Result Error Host Settings → Prop
  | read (s : Settings) : LoadedAlike host host' (.ok s host) (.ok s host')
  | refused (e : Error) : LoadedAlike host host' (.error e host) (.error e host')
  | unusable (reason reason' : String) :
    LoadedAlike host host' (.error (unusable reason) host) (.error (unusable reason') host')

/-- What is read alike is reported alike. -/
theorem Reports.loadedAlike {result result' : Result Error Host Settings}
    (h : Reports host (ofEntries entries host) result)
    (h' : Reports host' (ofEntries entries host') result') (halike : host.SpellsAlike host') :
    LoadedAlike host host' result result' := by
  rcases asksAlike_iff.1 (asksAlike_ofEntries halike entries) with ⟨s, hs, hs'⟩ | ⟨e, he, he'⟩
  · rw [hs] at h
    rw [hs'] at h'
    cases h
    cases h'
    exact .read s
  · -- The kind of the error decides how it is reported, and both hosts give the same error.
    rw [he] at h
    rw [he'] at h'
    cases h with
    | refused hother =>
      cases h' with
      | refused _ => exact .refused e
      | unusable htyped _ => exact absurd htyped hother
    | unusable htyped reason =>
      cases h' with
      | refused hother => exact absurd htyped hother
      | unusable _ reason' => exact .unusable reason reason'

namespace Sources

/-- Two sets of sources give the same values, except where a higher source gives one. -/
structure SameButHidden (S S' : Sources) : Prop where
  /-- A name that is no text is hidden by none but itself. -/
  isNamed_iff : S.IsNamed ↔ S'.IsNamed
  said : ∀ key, spoken S'.said key = spoken S.said key
  environment : ∀ key, spoken S.said key = none →
    heard S'.environment key = heard S.environment key
  asked : ∀ key, spoken S.said key = none → heard S.environment key = none →
    given S'.asked key = given S.asked key
  project : ∀ key, spoken S.said key = none → heard S.environment key = none →
    given S.asked key = none → given S'.project key = given S.project key
  home : ∀ key, spoken S.said key = none → heard S.environment key = none →
    given S.asked key = none → given S.project key = none → given S'.home key = given S.home key

/-- Sources that differ in what is hidden have the same settings. -/
theorem SameButHidden.get?_eq {S S' : Sources} (h : S.SameButHidden S') (key : String) :
    S'.get? key = S.get? key := by
  unfold Sources.get?
  rw [h.said]
  cases hsaid : spoken S.said key with
  | some v => rfl
  | none =>
    -- From here on each source counts only where all higher ones are silent.
    rw [h.environment key hsaid]
    cases henvironment : heard S.environment key with
    | some v => rfl
    | none =>
      rw [h.asked key hsaid henvironment]
      cases hasked : given S.asked key with
      | some v => rfl
      | none =>
        rw [h.project key hsaid henvironment hasked]
        cases hproject : given S.project key with
        | some v => rfl
        | none => rw [h.home key hsaid henvironment hasked hproject]

end Sources

/-- Where all sources can be parsed, settings are loaded from the values that the highest sources
give: whatever entries have these values, loading reports what reading them ends with. Names in a
file that are no texts make the settings unusable. The values that are hidden by higher sources do
not matter, wherever the sources are found. -/
theorem load_highest {S : Sources} {file : Option String} (h : S.AreFound host file) :
    (∃ entries : Dictionary String Value, ∀ key, entries.get? key = S.get? key) ∧
    (S.IsNamed → ∀ entries : Dictionary String Value, (∀ key, entries.get? key = S.get? key) →
      Reports host (ofEntries entries host) (load file S.said host)) ∧
    (¬ S.IsNamed → ∃ reason, load file S.said host = .error (unusable reason) host) ∧
    ∀ (S' : Sources) (host' : Host) (file' : Option String), S'.AreFound host' file' →
      host.SpellsAlike host' → S.SameButHidden S' →
        LoadedAlike host host' (load file S.said host) (load file' S'.said host') := by
  have hget := Sources.get?_gathered h.nodup_said
  have hreports {S : Sources} {host : Host} {file : Option String} (h : S.AreFound host file)
      (hnamed : S.IsNamed) (entries : Dictionary String Value)
      (hentries : ∀ key, entries.get? key = S.get? key) :
      Reports host (ofEntries entries host) (load file S.said host) := by
    have hnames := S.hasNamelessEntry_gathered.2 hnamed
    refine (reports_load h.gather_eq hnames).congr fun key => ?_
    rw [hentries, Sources.get?_gathered h.nodup_said]
  have hunnamed {S : Sources} {host : Host} {file : Option String} (h : S.AreFound host file)
      (hnamed : ¬ S.IsNamed) :
      load file S.said host = .error (unusable "keywords must be strings") host :=
    load_of_hasNamelessEntry h.gather_eq
      (eq_true_of_ne_false fun hnames => hnamed (S.hasNamelessEntry_gathered.1 hnames))
  -- What is gathered from the one set of sources has the values that the other one gives, too.
  refine ⟨⟨_, hget⟩, hreports h, fun hnamed => ⟨_, hunnamed h hnamed⟩, ?_⟩
  intro S' host' file' h' halike hsame
  -- Sources that say the same agree in whether all of their keys are texts.
  by_cases hnamed : S.IsNamed
  · have hnamed' := hsame.isNamed_iff.1 hnamed
    refine (hreports h hnamed _ hget).loadedAlike (hreports h' hnamed' _ fun key => ?_) halike
    rw [hget, hsame.get?_eq]
  · have hnamed' : ¬ S'.IsNamed := mt hsame.isNamed_iff.2 hnamed
    rw [hunnamed h hnamed, hunnamed h' hnamed']
    exact .unusable _ _


/-! ## A verbosity that a switch hides -/

/-- A host whose working directory has a settings file that names a verbosity. -/
def spokenHost (verbosity : Verbosity) : Host :=
  hostOfTree
    { entries := [(["import-diagram.toml"],
        .file (.bytes (Text.Utf8.encode ("verbosity='" ++ verbosity.name ++ "'").toList)))] } []

/-- The sources there, if the caller wants quiet. -/
def spokenSources (verbosity : Verbosity) : Sources where
  home := []
  project := [(.text "verbosity", .text verbosity.name)]
  asked := []
  environment := []
  said := [("project_root", .text "."), ("link_base", .none), ("quiet", .bool true)]

/-- The settings there. -/
def quietSettings : Settings where
  projectRoot := "/"
  scanDirectories := ["/"]
  verbosity := .quiet

/-- A document gives one name and its text, and nothing else. -/
private def isSingle (key text : String) : Toml.Reading (Dictionary String Value) → Bool
  | .ok [(k, .text t)] => k == key && t == text
  | _ => false

private theorem eq_of_isSingle {key text : String} {r : Toml.Reading (Dictionary String Value)}
    (h : isSingle key text r = true) : r = .ok [(key, .text text)] := by
  unfold isSingle at h
  split at h
  · rw [Bool.and_eq_true, beq_iff_eq, beq_iff_eq] at h
    rw [h.1, h.2]
  · cases h

/-- The sources of the example are found on its host. -/
private theorem areFound_spokenSources (verbosity : Verbosity) :
    (spokenSources verbosity).AreFound (spokenHost verbosity) none := by
  have hpath : (Path.ofText "/" / Path.ofText ".import-diagram.toml").text =
      "/.import-diagram.toml" ∧
      (Path.ofPlace [] / Path.ofText "import-diagram.toml").text = "/import-diagram.toml" := by
    decide
  have hglobal : Tree.IsBesideRoot "/.import-diagram.toml" ".import-diagram.toml" := by
    constructor <;> decide
  have hproject : Tree.IsBesideRoot "/import-diagram.toml" "import-diagram.toml" := by
    constructor <;> decide
  have hread : Act.readBytes "/import-diagram.toml" (spokenHost verbosity) =
      .ok (Text.Utf8.encode ("verbosity='" ++ verbosity.name ++ "'").toList)
        (spokenHost verbosity) :=
    Host.readBytes_eq_ok_iff.2 ⟨by decide, _, _, hproject.lookup_file rfl, rfl⟩
  -- The file has one entry, whatever the verbosity that it names.
  have hdocument : Toml.document ("verbosity='" ++ verbosity.name ++ "'").toList =
      .ok [("verbosity", .text verbosity.name)] := by
    apply eq_of_isSingle
    cases verbosity <;> decide +kernel
  have hfile : HoldsDocument (spokenHost verbosity)
      (.ofPlace (spokenHost verbosity).folder / Path.ofText "import-diagram.toml")
      [("verbosity", .text verbosity.name)] := by
    refine ⟨_, _, ?_, Text.Utf8.decode?_encode _, hdocument⟩
    rw [show (spokenHost verbosity).folder = [] from rfl, hpath.2]
    exact hread
  exact {
    home := by
      refine ⟨_, homePath_hostOfTree _ _, .inr ⟨?_, rfl⟩⟩
      rw [hpath.1]
      exact bind_of_ok _ (Act.probe_of_missing (hglobal.lookup_missing rfl))
    project := .inl (.whole hfile rfl)
    asked := nofun
    unasked := fun _ => rfl
    environment_eq := rfl
    isParsable := nofun
    nodup_said := by
      change ["project_root", "link_base", "quiet"].Nodup
      decide }

/-- Reading them gives the quiet settings. -/
private theorem ofEntries_spokenHost (verbosity : Verbosity) :
    ofEntries [("project_root", .text "."), ("verbosity", .text "quiet")] (spokenHost verbosity) =
      .ok quietSettings (spokenHost verbosity) := by
  have hread : quietSettings.IsReadFrom
      [("project_root", .text "."), ("verbosity", .text "quiet")] (spokenHost verbosity) := {
    isNamed := by simp [names]
    projectRoot := ⟨".", rfl, (directoryOf_hostOfTree _ _).1⟩
    scanDirectories := ⟨[], rfl, directoriesOf_hostOfTree _ _⟩
    extensions := ⟨_, rfl, rfl⟩
    extensions_ne := ⟨rfl, rfl⟩
    libraries := rfl
    localStarts := rfl
    localStarts_ne := ⟨rfl, rfl⟩
    excludePatterns := rfl
    timeout := rfl
    timeout_ge := rfl
    verbosity := rfl
    imageFile := rfl
    imageFile_suffix := by decide
    joinBlocks := rfl
    trackedOnly := rfl
    databaseFile := rfl
    dotFile := rfl
    layoutEngine := rfl
    dotCommand := rfl
    linkBase := rfl }
  exact hread.ofEntries_eq

/-- The hosts differ in what the file says only. -/
private theorem spellsAlike_spokenHost (verbosity verbosity' : Verbosity) :
    (spokenHost verbosity).SpellsAlike (spokenHost verbosity') where
  sameLinks :=
    have hentries : (spokenHost verbosity).tree.SameEntries (spokenHost verbosity').tree := rfl
    hentries.sameOutline.sameLinks
  folder_eq := rfl
  home_eq := rfl
  homes_eq := rfl

/-- Quiet is loaded, whichever verbosity the file names. -/
theorem load_spokenHost :
    load none (spokenSources .verbose).said (spokenHost .verbose) =
        .ok quietSettings (spokenHost .verbose) ∧
      load none (spokenSources .normal).said (spokenHost .normal) =
        .ok quietSettings (spokenHost .normal) := by
  have hget (key : String) : (spokenSources .verbose).get? key =
      Dictionary.get? [("project_root", .text "."), ("verbosity", .text "quiet")] key := by
    by_cases hkey : key ∈ ["project_root", "verbosity", "link_base", "quiet"]
    · simp only [List.mem_cons, List.not_mem_nil, or_false] at hkey
      rcases hkey with rfl | rfl | rfl | rfl <;> rfl
    · simp only [List.mem_cons, List.not_mem_nil, or_false, not_or] at hkey
      obtain ⟨hroot, hverbosity, hlink, hquiet⟩ := hkey
      simp [Sources.get?, spokenSources, spoken, heard, given, Dictionary.get?_cons,
        Dictionary.get?_nil, hverbosity, Ne.symm hroot, Ne.symm hverbosity, Ne.symm hlink,
        Ne.symm hquiet]
  have hsame : (spokenSources .verbose).SameButHidden (spokenSources .normal) := {
    isNamed_iff := by simp [Sources.IsNamed, spokenSources, Value.isText]
    said := fun _ => rfl
    environment := fun _ _ => rfl
    asked := fun _ _ _ => rfl
    project := by
      intro key hsaid _ _
      by_cases hkey : "verbosity" = key
      · subst hkey
        cases hsaid
      · simp [given, spokenSources, hkey]
    home := fun _ _ _ _ _ => rfl }
  obtain ⟨-, hnamed, -, hhidden⟩ := load_highest (areFound_spokenSources .verbose)
  have hreports := hnamed (by simp [Sources.IsNamed, spokenSources, Value.isText]) _
    fun key => (hget key).symm
  have halike := hhidden _ _ none (areFound_spokenSources .normal)
    (spellsAlike_spokenHost .verbose .normal) hsame
  rw [ofEntries_spokenHost] at hreports
  generalize load none (spokenSources .verbose).said (spokenHost .verbose) = result,
    load none (spokenSources .normal).said (spokenHost .normal) = result' at hreports halike ⊢
  cases hreports
  cases halike
  exact ⟨rfl, rfl⟩

end Settings

end ImportAtlas

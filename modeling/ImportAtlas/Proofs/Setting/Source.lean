import ImportAtlas.Proofs.Setting.Load

/-!
# What each source sets

A settings file gives its table of this program if it has that key, and else all of it; where a name
comes twice, its last value counts. The environment gives single values, each parsed as the setting
asks for, and never a list. What the caller says does not count where it is nothing, and a switch
that is on stands in for any verbosity. All sources are gathered so that a name has the value of the
highest source that sets it.

## Key results

- `Settings.gatherFile_eq`: what a settings file writes over what is gathered
- `Settings.fromEnvironment_eq`: the settings in the environment
- `Settings.get?_withSwitches`: what the caller says
- `Settings.gather_of_sources`: all sources together
-/

namespace ImportAtlas

open EStateM

namespace Settings

variable {host : Host} {path : Path} {pairs : List (Value × Value)}

/-! ## Settings files -/

/-- A file holds a document. -/
def HoldsDocument (host : Host) (path : Path) (table : Dictionary String Value) : Prop :=
  ∃ bytes text, Act.readBytes path.text host = .ok bytes host ∧
    Text.Utf8.decode? bytes = some text ∧ Toml.document text = .ok table

/-- What a settings file sets. A list of pairs is taken for a table. -/
inductive FileSets (host : Host) (path : Path) : List (Value × Value) → Prop
  /-- The table of this program, if the file has that key. -/
  | part {table : Dictionary String Value} {v : Value} {pairs : List (Value × Value)}
    (hfile : HoldsDocument host path table) (hkey : table.get? tableName = some v)
    (hpairs : v.pairs = .ok pairs) : FileSets host path pairs
  /-- All of the file otherwise. -/
  | whole {table : Dictionary String Value} (hfile : HoldsDocument host path table)
    (hkey : table.get? tableName = none) :
    FileSets host path (table.map fun e => (.text e.1, e.2))

/-- What a settings file sets that need not be there. -/
def MaySet (host : Host) (path : Path) (pairs : List (Value × Value)) : Prop :=
  FileSets host path pairs ∨ Act.pathExists path.text host = .ok false host ∧ pairs = []

/-- The value that pairs give to a name. The last one counts. -/
def given (pairs : List (Value × Value)) (key : String) : Option Value :=
  (pairs.filterMap fun
    | (.text name, v) => if name = key then some v else none
    | _ => none).getLast?

/-- What is written last counts. -/
theorem given_append (pairs others : List (Value × Value)) (key : String) :
    given (pairs ++ others) key = (given others key).or (given pairs key) := by
  unfold given
  rw [List.filterMap_append, List.getLast?_append]

/-- Where one pair is written, its name has its value. -/
theorem get?_writePair (g : Gathered) (pair : Value × Value) (key : String) :
    (g.writePair pair).entries.get? key = (given [pair] key).or (g.entries.get? key) := by
  obtain ⟨name, v⟩ := pair
  cases name with
  | text name =>
    change (g.entries.put name v).get? key = _
    -- A pair whose key is no text is noted and sets nothing.
    by_cases hname : name = key
    · subst hname
      simp [given]
    · rw [Dictionary.get?_put_of_ne _ _ hname]
      simp [given, hname]
  | _ => rfl

/-- Pairs are written over what is there, and the last one counts. -/
theorem get?_writePairs (g : Gathered) (pairs : List (Value × Value)) (key : String) :
    (pairs.foldl Gathered.writePair g).entries.get? key =
      (given pairs key).or (g.entries.get? key) := by
  induction pairs generalizing g with
  | nil => rfl
  | cons pair pairs ih =>
    -- The first pair is written first, so the pairs behind it hide what it gives.
    have hpairs : given (pair :: pairs) key = (given pairs key).or (given [pair] key) :=
      given_append [pair] pairs key
    rw [List.foldl_cons, ih, get?_writePair, hpairs, Option.or_assoc]

/-- Names that are no text are only counted. -/
theorem hasNamelessEntry_writePairs (g : Gathered) (pairs : List (Value × Value)) :
    (pairs.foldl Gathered.writePair g).hasNamelessEntry = false ↔
      g.hasNamelessEntry = false ∧ ∀ pair ∈ pairs, pair.1.isText = true := by
  induction pairs generalizing g with
  | nil => simp
  | cons pair pairs ih =>
    -- One pair adds the note exactly when its key is no text.
    have hpair : (g.writePair pair).hasNamelessEntry = false ↔
        g.hasNamelessEntry = false ∧ pair.1.isText = true := by
      obtain ⟨name, v⟩ := pair
      cases name with
      | text name => exact (and_iff_left rfl).symm
      | _ => exact iff_of_false nofun nofun
    rw [List.foldl_cons, ih, hpair, List.forall_mem_cons, and_assoc]

/-- A file that sets something is there. -/
theorem FileSets.pathExists_eq (h : FileSets host path pairs) :
    Act.pathExists path.text host = .ok true host := by
  -- Either way something is read from the file.
  have hthere : ∃ table, HoldsDocument host path table := by
    cases h with
    | part hfile => exact ⟨_, hfile⟩
    | whole hfile => exact ⟨_, hfile⟩
  obtain ⟨_, bytes, _, hread, -, -⟩ := hthere
  obtain ⟨hnul, place, content, hlookup, -⟩ := Host.readBytes_eq_ok_iff.1 hread
  exact bind_of_ok _ (Act.probe_of_lookup hnul hlookup)

/-- A file contributes the table of the program if it has one, and the whole of it otherwise. -/
theorem HoldsDocument.contribution_eq {table : Dictionary String Value}
    (h : HoldsDocument host path table) :
    contribution path host = .ok ((table.get? tableName).getD (.table table)) host := by
  obtain ⟨bytes, text, hread, hdecode, hdocument⟩ := h
  unfold contribution
  -- Read, decoded and parsed, one after the other without an error.
  refine (bind_of_ok _ (tryCatch_of_ok _ hread)).trans ?_
  rw [hdecode]
  dsimp only
  rw [hdocument]
  rfl

/-- A settings file writes what it sets over what is gathered. -/
theorem gatherFile_eq (h : FileSets host path pairs) (g : Gathered) :
    gatherFile g path host = .ok (pairs.foldl Gathered.writePair g) host := by
  -- The file sets its own table where it has one, and all of its pairs where it has none.
  have hcontribution : ∃ v, contribution path host = .ok v host ∧ v.pairs = .ok pairs := by
    cases h with
    | part hfile hkey hpairs =>
      refine ⟨_, hfile.contribution_eq, ?_⟩
      rwa [hkey]
    | whole hfile hkey =>
      refine ⟨_, hfile.contribution_eq, ?_⟩
      rw [hkey]
      rfl
  obtain ⟨v, hv, hpairs⟩ := hcontribution
  unfold gatherFile
  rw [bind_of_ok _ hv, Gathered.writeValue, hpairs]
  rfl

/-- A settings file is read if it is there. -/
theorem gatherFound_eq (h : MaySet host path pairs) (g : Gathered)
    (next : Gathered → Act Gathered) :
    (do
      if ← Act.pathExists path.text then
        let g ← gatherFile g path
        next g
      else
        next g) host = next (pairs.foldl Gathered.writePair g) host := by
  -- A file that is not there sets nothing.
  rcases h with hfile | ⟨hmissing, rfl⟩
  · rw [bind_of_ok _ hfile.pathExists_eq]
    exact bind_of_ok _ (gatherFile_eq hfile g)
  · rw [bind_of_ok _ hmissing]
    rfl

/-! ## Environment -/

/-- The value of a single setting in the text of a variable, if it can be parsed. -/
def scalar? (key text : String) : Option Value :=
  if key ∈ ["follow_multiline", "tracked_only"] then
    if text.toLower ∈ ["true", "1", "yes", "on"] then some (.bool true)
    else if text.toLower ∈ ["false", "0", "no", "off"] then some (.bool false)
    else none
  else if key = "subprocess_timeout_seconds" then
    (Text.readInteger text.toList).toOption.map .int
  else
    some (.text text)

/-- The value that the environment gives to a setting. Lists are not looked for. -/
def heard (environment : Dictionary String String) (key : String) : Option Value :=
  if key ∈ names ∧ key ∉ listNames then
    (environment.get? (variableName key)).bind (scalar? key)
  else
    none

/-- The variables of single settings can all be parsed. -/
def IsParsable (environment : Dictionary String String) : Prop :=
  ∀ key ∈ names, key ∉ listNames → ∀ text, environment.get? (variableName key) = some text →
    (scalar? key text).isSome = true

/-- A variable cannot say a list. -/
theorem parseVariable_of_mem_listNames {key : String} (hkey : key ∈ listNames) (text : String) :
    parseVariable key text host = .ok none host := by
  unfold parseVariable
  rw [if_pos (List.contains_iff_mem.2 hkey)]
  rfl

/-- A variable with a fitting text says its value. -/
theorem parseVariable_of_scalar? {key text : String} {v : Value} (hkey : key ∉ listNames)
    (hv : scalar? key text = some v) : parseVariable key text host = .ok (some v) host := by
  have hlist : ¬ listNames.contains key = true := fun hlist => hkey (List.contains_iff_mem.1 hlist)
  unfold scalar? at hv
  unfold parseVariable
  extract_lets word
  rw [if_neg hlist]
  -- A switch, the timeout, and a text are each parsed in a way of their own.
  by_cases hswitch : key ∈ ["follow_multiline", "tracked_only"]
  · have hswitch' : (key = "follow_multiline" || key = "tracked_only") = true := by
      simpa using hswitch
    rw [if_pos hswitch] at hv
    rw [if_pos hswitch']
    by_cases htrue : text.toLower ∈ ["true", "1", "yes", "on"]
    · rw [if_pos htrue] at hv
      rw [if_pos (List.contains_iff_mem.2 htrue)]
      cases hv
      rfl
    · rw [if_neg htrue] at hv
      rw [if_neg (mt List.contains_iff_mem.1 htrue)]
      by_cases hfalse : text.toLower ∈ ["false", "0", "no", "off"]
      · rw [if_pos hfalse] at hv
        rw [if_pos (List.contains_iff_mem.2 hfalse)]
        cases hv
        rfl
      · rw [if_neg hfalse] at hv
        cases hv
  · have hswitch' : ¬ (key = "follow_multiline" || key = "tracked_only") = true := by
      simpa using hswitch
    rw [if_neg hswitch] at hv
    rw [if_neg hswitch']
    by_cases htimeout : key = "subprocess_timeout_seconds"
    · rw [if_pos htimeout] at hv
      rw [if_pos htimeout]
      cases hread : Text.readInteger text.toList with
      | ok i =>
        rw [hread] at hv
        cases hv
        rfl
      | error fault =>
        rw [hread] at hv
        cases hv
    · rw [if_neg htimeout] at hv
      rw [if_neg htimeout]
      cases hv
      rfl

/-- Names that differ are keys that differ. -/
theorem nodup_keys_filterMap {names : List String} (hnames : names.Nodup)
    (value : String → Option Value) :
    (Dictionary.keys (names.filterMap fun name => (value name).map fun v => (name, v))).Nodup := by
  induction names with
  | nil => exact List.nodup_nil
  | cons name names ih =>
    rw [List.nodup_cons] at hnames
    rw [List.filterMap_cons]
    -- An entry that is kept has a name that stands only once in the list.
    cases value name with
    | none => exact ih hnames.2
    | some v =>
      refine List.nodup_cons.2 ⟨fun hmem => hnames.1 ?_, ih hnames.2⟩
      obtain ⟨e, he, rfl⟩ := List.mem_map.1 hmem
      obtain ⟨other, hother, hvalue⟩ := List.mem_filterMap.1 he
      obtain ⟨w, -, rfl⟩ := Option.map_eq_some_iff.1 hvalue
      exact hother

/-- The settings that the environment gives, in the order of their names. -/
def heardEntries (environment : Dictionary String String) : Dictionary String Value :=
  names.filterMap fun key => (heard environment key).map fun v => (key, v)

/-- No setting is heard twice. -/
theorem nodup_keys_heardEntries (environment : Dictionary String String) :
    (heardEntries environment).keys.Nodup :=
  nodup_keys_filterMap (by decide) (heard environment)

/-- What is heard of a setting is what its variable says. -/
theorem get?_heardEntries (environment : Dictionary String String) (key : String) :
    (heardEntries environment).get? key = heard environment key := by
  -- No name comes twice, so a value is found just if its entry is there.
  refine Option.ext fun v => ?_
  rw [Dictionary.get?_eq_some_iff (nodup_keys_heardEntries environment), heardEntries,
    List.mem_filterMap]
  constructor
  · rintro ⟨name, -, hvalue⟩
    obtain ⟨w, hw, hentry⟩ := Option.map_eq_some_iff.1 hvalue
    cases hentry
    exact hw
  · intro hv
    have hname : key ∈ names := by
      by_contra hname
      rw [heard, if_neg fun h => hname h.1] at hv
      cases hv
    exact ⟨key, hname, by rw [hv, Option.map_some]⟩

/-- What the environment gives if all its variables can be parsed. -/
theorem fromEnvironment_eq (h : IsParsable host.environment) :
    fromEnvironment host = .ok (heardEntries host.environment) host := by
  unfold fromEnvironment
  rw [bind_get]
  refine (bind_of_ok _ (mapM_of_ok (f := fun key => (heard host.environment key).map (key, ·))
    fun key hkey => ?_)).trans ?_
  · unfold heard
    cases hvariable : host.environment.get? (variableName key) with
    | none =>
      rw [Option.bind_none, ite_self]
      rfl
    | some text =>
      -- A list is never read from a variable; a scalar is, and here its text has the right form.
      by_cases hlist : key ∈ listNames
      · rw [if_neg fun hscalar => hscalar.2 hlist]
        exact bind_of_ok _ (parseVariable_of_mem_listNames hlist text)
      · obtain ⟨v, hv⟩ := Option.isSome_iff_exists.1 (h key hkey hlist text hvariable)
        rw [if_pos ⟨hkey, hlist⟩, Option.bind_some, hv]
        exact bind_of_ok _ (parseVariable_of_scalar? hlist hv)
  · rw [List.filterMap_map]
    rfl

/-! ## What the caller says -/

/-- The caller turns a switch on. -/
def isOn (said : Dictionary String Value) (switch : String) : Bool :=
  (said.get? switch).any (·.isTruthy)

/-- The value that the caller gives to a setting. A switch that is on is a verbosity, and quiet
wins; the switches are no settings themselves, and nothing counts as not said. -/
def spoken (said : Dictionary String Value) (key : String) : Option Value :=
  if key = "quiet" ∨ key = "verbose" then none
  else if key = "verbosity" ∧ isOn said "quiet" = true then some (.text "quiet")
  else if key = "verbosity" ∧ isOn said "verbose" = true then some (.text "verbose")
  else (said.get? key).filter isSaid

/-- What is said with one switch worked in. -/
def withSwitch (said : Dictionary String Value) (switch word : String) : Dictionary String Value :=
  (if isOn said switch then said.put "verbosity" (.text word) else said).filter (·.1 != switch)

/-- The two switches are applied one after the other, the quiet one last. -/
theorem withSwitches_eq (said : Dictionary String Value) : withSwitches said =
    withSwitch (withSwitch said "verbose" "verbose") "quiet" "quiet" :=
  rfl

/-- A switch that is on says the verbosity, and is no setting itself. -/
theorem get?_withSwitch (said : Dictionary String Value) (switch word key : String) :
    (withSwitch said switch word).get? key =
      if key = switch then none
      else if key = "verbosity" ∧ isOn said switch = true then some (.text word)
      else said.get? key := by
  unfold withSwitch
  rw [Dictionary.get?_filter _ (· != switch)]
  by_cases hswitch : key = switch
  · simp [hswitch]
  · have hkept : (key != switch) = true := by simpa using hswitch
    rw [if_pos hkept, if_neg hswitch]
    -- The verbosity is set only if the switch is on, and then over what was said of it.
    cases hon : isOn said switch with
    | false => simp
    | true =>
      by_cases hkey : key = "verbosity"
      · simp [hkey]
      · simp [hkey, Dictionary.get?_put_of_ne said _ (Ne.symm hkey)]

/-- A switch adds no key twice. -/
theorem nodup_keys_withSwitch {said : Dictionary String Value} (hsaid : said.keys.Nodup)
    (switch word : String) : (withSwitch said switch word).keys.Nodup := by
  have hput : (if isOn said switch then said.put "verbosity" (.text word) else said :
      Dictionary String Value).keys.Nodup := by
    split
    · exact Dictionary.nodup_keys_put hsaid
    · exact hsaid
  exact hput.sublist (List.filter_sublist.map _)

/-- What the caller says in the end. -/
def saidEntries (said : Dictionary String Value) : Dictionary String Value :=
  (withSwitches said).filter fun e => isSaid e.2

/-- So no setting is said twice. -/
theorem nodup_keys_saidEntries {said : Dictionary String Value} (hsaid : said.keys.Nodup) :
    (saidEntries said).keys.Nodup := by
  have hswitches : (withSwitches said).keys.Nodup :=
    nodup_keys_withSwitch (nodup_keys_withSwitch hsaid _ _) _ _
  exact hswitches.sublist (List.filter_sublist.map _)

/-- What is said of a setting is what the arguments say, switches included. -/
theorem get?_saidEntries {said : Dictionary String Value} (hsaid : said.keys.Nodup)
    (key : String) : (saidEntries said).get? key = spoken said key := by
  have hswitches : (withSwitches said).keys.Nodup :=
    nodup_keys_withSwitch (nodup_keys_withSwitch hsaid _ _) _ _
  have hfilter : (saidEntries said).get? key = ((withSwitches said).get? key).filter isSaid := by
    refine Option.ext fun v => ?_
    rw [Dictionary.get?_eq_some_iff (nodup_keys_saidEntries hsaid), saidEntries, List.mem_filter,
      Option.filter_eq_some_iff, Dictionary.get?_eq_some_iff hswitches]
  -- The first switch is worked in before the second one is looked at, and leaves it alone.
  have hquiet : isOn (withSwitch said "verbose" "verbose") "quiet" = isOn said "quiet" := by
    unfold isOn
    rw [get?_withSwitch, if_neg (by decide), if_neg fun h => absurd h.1 (by decide)]
  rw [hfilter, withSwitches_eq, get?_withSwitch, hquiet, get?_withSwitch]
  unfold spoken
  by_cases hkey : key = "quiet"
  · simp [hkey]
  · by_cases hkey' : key = "verbose"
    · simp [hkey']
    · by_cases hverbosity : key = "verbosity"
      · cases isOn said "quiet" <;> cases isOn said "verbose" <;> simp [hverbosity, isSaid]
      · simp [hkey, hkey', hverbosity]

/-! ## All sources -/

/-- What all sources set: the file in the home directory, the file in the working directory, the
file that is asked for, the environment, and the caller. -/
structure Sources where
  home : List (Value × Value)
  project : List (Value × Value)
  asked : List (Value × Value)
  environment : Dictionary String String
  said : Dictionary String Value

namespace Sources

/-- The value of the highest source that sets a name. -/
def get? (S : Sources) (key : String) : Option Value :=
  (spoken S.said key).or <| (heard S.environment key).or <| (given S.asked key).or <|
    (given S.project key).or (given S.home key)

/-- The names in settings files are all texts. -/
def IsNamed (S : Sources) : Prop :=
  ∀ pair ∈ S.home ++ S.project ++ S.asked, pair.1.isText = true

/-- What the sources on a host set, where all of them can be parsed. -/
structure AreFound (S : Sources) (host : Host) (file : Option String) : Prop where
  home : ∃ home, homePath host = .ok home host ∧
    MaySet host (home / Path.ofText ".import-diagram.toml") S.home
  project : MaySet host (.ofPlace host.folder / Path.ofText "import-diagram.toml") S.project
  /-- A file that is asked for has to be there. -/
  asked : ∀ text, file = some text → FileSets host (.ofText text) S.asked
  unasked : file = none → S.asked = []
  environment_eq : S.environment = host.environment
  isParsable : IsParsable S.environment
  /-- The caller says nothing twice. -/
  nodup_said : S.said.keys.Nodup

/-- What is gathered from all sources. -/
def gathered (S : Sources) : Gathered :=
  let g := (S.home ++ S.project ++ S.asked).foldl Gathered.writePair {}
  (g.write (heardEntries S.environment)).write (saidEntries S.said)

variable {S : Sources} {file : Option String}

/-- A name has the value of the highest source that sets it. -/
theorem get?_gathered (hsaid : S.said.keys.Nodup) (key : String) :
    S.gathered.entries.get? key = S.get? key := by
  -- What is written later stands before what was there.
  have hwrite (g : Gathered) {entries : Dictionary String Value} (h : entries.keys.Nodup) :
      (g.write entries).entries.get? key = (entries.get? key).or (g.entries.get? key) :=
    Dictionary.get?_putAll h key
  have hnone : (Gathered.entries {}).get? key = none := rfl
  unfold gathered Sources.get?
  rw [hwrite _ (nodup_keys_saidEntries hsaid), get?_saidEntries hsaid,
    hwrite _ (nodup_keys_heardEntries _), get?_heardEntries, get?_writePairs, given_append,
    given_append, hnone, Option.or_none]

/-- All gathered settings have names if those of all sources do. -/
theorem hasNamelessEntry_gathered (S : Sources) :
    S.gathered.hasNamelessEntry = false ↔ S.IsNamed :=
  (hasNamelessEntry_writePairs {} _).trans (and_iff_right rfl)

/-- All sources are written one over the other. -/
theorem AreFound.gather_eq (h : S.AreFound host file) :
    gather file S.said host = .ok S.gathered host := by
  obtain ⟨home, hhome, hfound⟩ := h.home
  have henvironment : fromEnvironment host = .ok (heardEntries S.environment) host := by
    rw [h.environment_eq]
    exact fromEnvironment_eq (h.environment_eq ▸ h.isParsable)
  unfold gather
  -- Each source goes on with the next one, so they are told from the last one to the first.
  extract_lets finish gatherAsked gatherProject
  have hfinish (g : Gathered) : finish () g host =
      .ok ((g.write (heardEntries S.environment)).write (saidEntries S.said)) host :=
    (bind_of_ok _ henvironment).trans rfl
  have hasked (g : Gathered) :
      gatherAsked () g host = finish () (S.asked.foldl Gathered.writePair g) host := by
    cases file with
    | none =>
      rw [h.unasked rfl]
      rfl
    | some text =>
      have hfile := h.asked text rfl
      refine (bind_of_ok _ hfile.pathExists_eq).trans ?_
      exact bind_of_ok _ (gatherFile_eq hfile g)
  refine (bind_of_ok _ hhome).trans ?_
  refine (gatherFound_eq hfound {} (gatherProject ())).trans ?_
  refine (bind_of_ok _ (Act.workingPath_eq host)).trans ?_
  refine (gatherFound_eq h.project _ (gatherAsked ())).trans ?_
  rw [hasked, hfinish, gathered, List.foldl_append, List.foldl_append]

end Sources

end Settings

end ImportAtlas

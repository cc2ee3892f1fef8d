import ImportAtlas.Proofs.Setting.Gather

/-!
# Loading settings

Loading settings changes nothing. It gives settings, or reports that they cannot be used. That a
setting has no name, or a value of the wrong type, is reported too, for such errors are caught. But
not all are: an extension that is no text, a directory behind a NUL and a refused value that cannot
be put in words stop the program as they are, as do the unexpected faults of a settings file.

## Key results

- `Settings.load_ends`: loading gives settings, reports a fault of them, or meets one of the faults
  that are not expected
- `Settings.load_undecodable`: a file that is not UTF-8 is such a fault
-/

namespace ImportAtlas

open EStateM

namespace Settings

variable {host : Host} {entries : Dictionary String Value}

/-! ## Values -/

/-- A path is read as a directory: as the project root, or, seen from there, as one that is scanned.
The project root is scanned if no other directory is. -/
inductive NamesDirectory (host : Host) (entries : Dictionary String Value) :
    Option String → String → Prop
  /-- The project root, or the folder that stands for it. -/
  | root {text : String} (htext : textOf (valueOf entries "project_root"
      (.text (Path.ofPlace host.folder).text)) host = .ok text host) :
    NamesDirectory host entries none text
  /-- A directory to scan, or the project root in its stead. -/
  | scanned {spelled root text : String} {items : List Value}
    (hspelled : NamesDirectory host entries none spelled)
    (hroot : directoryOf none spelled host = .ok root host)
    (hitems : itemsOf "scan_dirs" (valueOf entries "scan_dirs" (.list [])) host = .ok items host)
    (hitem : .text text ∈ items ∨ text = root) : NamesDirectory host entries (some root) text

/-- What stops the reading of gathered values, although it is not reported as a fault of them. -/
inductive IsStrayValue (host : Host) (entries : Dictionary String Value) : Error → Prop
  /-- A directory cannot be made canonical, for there is a NUL on its way. -/
  | directory {base : Option String} {text : String}
    (hnamed : NamesDirectory host entries base text)
    (hdirectory : directoryOf base text host = .error .nul host) : IsStrayValue host entries .nul
  /-- One of the extensions is no text. -/
  | extension {v item : Value} {items : List Value} (hget : entries.get? "extensions" = some v)
    (hitems : itemsOf "extensions" v host = .ok items host) (hitem : item ∈ items)
    (htext : item.isText = false) : IsStrayValue host entries .unsupported
  /-- A value that is refused cannot be spelled. -/
  | unspoken {key : String} {v w : Value} {e : Error} (hget : entries.get? key = some v)
    (hvalue : w = v ∨ ∃ items, itemsOf key v host = .ok items host ∧ w = .row items)
    (hspell : Act.spell w host = .error e host) : IsStrayValue host entries e

/-- What the reading of gathered values may stop with. -/
inductive IsRefused (host : Host) (entries : Dictionary String Value) : Error → Prop
  | unknownSetting (key : String) : IsRefused host entries (.unknownSetting key)
  | takenSetting (key : String) : IsRefused host entries (.takenSetting key)
  | illTyped : IsRefused host entries .illTyped
  | configuration {e : Error} (h : e.IsConfiguration) : IsRefused host entries e
  | stray {e : Error} (h : IsStrayValue host entries e) : IsRefused host entries e

/-- A text that is none is refused. -/
theorem asks_textOf (v : Value) :
    Asks (textOf v) host (fun _ => True) (IsRefused host entries) := by
  unfold textOf
  split
  · exact asks_pure trivial
  · exact asks_throw .illTyped

/-- A value that is not nested too deep and has no long integer can be spelled. -/
theorem spell_ne_error {v : Value} (hdepth : ¬ Value.depthLimit < v.depth)
    (hlong : v.hasLongInteger = false) (e : Error) : Act.spell v host ≠ .error e host := by
  unfold Act.spell
  rw [if_neg hdepth, hlong]
  exact nofun

/-- Texts can always be spelled. -/
theorem spell_text_ne_error (text : String) (e : Error) :
    Act.spell (.text text) host ≠ .error e host :=
  spell_ne_error (v := .text text) (Nat.not_lt_zero _) rfl e

/-- A list of texts can be spelled. -/
theorem spell_texts_ne_error (texts : List String) (e : Error) :
    Act.spell (.row (texts.map .text)) host ≠ .error e host := by
  -- Texts are neither nested nor long numbers.
  have hplain : Value.depthBelow (texts.map .text) = 0 ∧
      Value.haveLongInteger (texts.map .text) = false := by
    induction texts with
    | nil => exact ⟨rfl, rfl⟩
    | cons text texts ih =>
      simpa [Value.depthBelow, Value.haveLongInteger, Value.depth, Value.hasLongInteger] using ih
  refine spell_ne_error (v := .row _) ?_ hplain.2 e
  rw [Value.depth, hplain.1]
  decide

/-- A value that is refused is spelled for the report, which may be impossible. -/
theorem asks_refuse {α : Type} {A : α → Prop} (key : String) {value : Value} (reason : String)
    (hspell : ∀ e, Act.spell value host = .error e host → IsStrayValue host entries e) :
    Asks (refuse key value reason : Act α) host A (IsRefused host entries) := by
  unfold refuse
  -- The value is put into the message, and this may fail first.
  have hspoken : Asks (discard (Act.spell value)) host (fun _ => True) (IsRefused host entries) :=
    Asks.map ((Act.asks_spell host value).self.mono (fun _ _ => trivial)
      fun e h => .stray (hspell e h.1))
  refine hspoken.bind fun _ _ => ?_
  exact asks_throw (.configuration ⟨_, rfl, .invalidSetting _ _ _⟩)

/-- A check that is passed, or stops the work. -/
theorem asks_check {β : Type} {B : β → Prop} {E : Error → Prop} {p : Prop} [Decidable p]
    {refusal : Act Unit} {next : Unit → Act β} (hrefusal : Asks refusal host (fun _ => False) E)
    (hnext : ¬ p → Asks (next ()) host B E) :
    Asks (if p then refusal >>= next else next ()) host B E := by
  split
  · exact hrefusal.bind nofun
  · exact hnext ‹_›

/-- Items are refused if they are none. -/
theorem asks_itemsOf (key : String) (v : Value) :
    Asks (itemsOf key v) host (fun _ => True) (IsRefused host entries) := by
  unfold itemsOf
  split
  · exact (asks_refuse_text _ _ _).mono (fun _ h => h) fun _ h => .configuration h
  · exact asks_pure trivial
  · exact asks_pure trivial
  · exact asks_pure trivial
  · exact asks_throw .illTyped

/-- A directory is refused only for a NUL. -/
theorem asks_directoryOf (base : Option String) (path : String) :
    Asks (directoryOf base path) host (fun _ => True) fun e => e = .nul := by
  unfold directoryOf
  refine Asks.bind ((asks_expandHome path).mono (fun _ h => h) fun _ h => h.elim)
    fun expanded _ => ?_
  refine Asks.bind (A := fun _ => True) ?_ fun _ _ => asks_pure trivial
  -- The home directory is there, so all that is left to go wrong is a NUL.
  unfold Act.canonical
  refine asks_bind_get ?_
  split
  · exact asks_pure trivial
  · exact asks_throw rfl

/-- An extension is refused only if it is no text. -/
theorem asks_extensionOf (v : Value) : Asks (extensionOf v) host (fun _ => True) fun e =>
    e = .unsupported ∧ v.isText = false := by
  unfold extensionOf
  split
  · exact asks_pure trivial
  · rename_i hother
    refine asks_throw ⟨rfl, ?_⟩
    cases v with
    | text s => exact absurd rfl (hother s)
    | _ => rfl

/-- The items of a list setting that is not given are those that it has unless set. -/
theorem itemsOf_unset {key : String} {unset items : List Value}
    (hget : entries.get? key = none)
    (hitems : itemsOf key (valueOf entries key (.list unset)) host = .ok items host) :
    items = unset := by
  rw [valueOf, hget, Option.getD_none] at hitems
  cases hitems
  rfl

/-- So the extensions are refused only for one that is no text. -/
theorem asks_extensions (items : List Value)
    (hitems : itemsOf "extensions" (valueOf entries "extensions"
      (.list (["js", "jsx", "ts", "tsx"].map .text))) host = .ok items host) :
    Asks (items.mapM extensionOf) host (fun _ => True) (IsRefused host entries) := by
  refine (asks_mapM (B := fun _ => True) fun item hitem => (asks_extensionOf item).mono
    (fun _ h => h) ?_).mono (fun _ _ => trivial) fun _ h => h
  rintro e ⟨rfl, htext⟩
  refine .stray ?_
  cases hget : entries.get? "extensions" with
  | none =>
    -- The extensions that there are unless set are texts.
    obtain rfl := itemsOf_unset hget hitems
    simp only [List.mem_map] at hitem
    obtain ⟨text, -, rfl⟩ := hitem
    cases htext
  | some v =>
    rw [valueOf, hget, Option.getD_some] at hitems
    exact .extension hget hitems hitem htext

/-- The directories that a list setting names, seen from the project root. The project root is
scanned if no directory is named. -/
def directoriesOf (root : String) (items : List Value) : Act (List String) :=
  (if items.isEmpty then [.text root] else items).mapM fun d => do
    directoryOf (some root) (← textOf d)

/-- Reading the directories that are scanned stops with an item that is no text, or with a NUL on
the way to one of them. -/
theorem asks_directoriesOf_scanned {spelled root : String} {items : List Value}
    (hspelled : NamesDirectory host entries none spelled)
    (hroot : directoryOf none spelled host = .ok root host)
    (hitems : itemsOf "scan_dirs" (valueOf entries "scan_dirs" (.list [])) host = .ok items host) :
    Asks (directoriesOf root items) host (fun _ => True) (IsRefused host entries) := by
  refine (asks_mapM (B := fun _ => True) fun d hd => ?_).mono (fun _ _ => trivial) fun _ h => h
  refine Asks.bind ((asks_textOf d).self.mono (fun _ h => h.1) fun _ h => h.2) fun text htext => ?_
  refine (asks_directoryOf _ text).self.mono (fun _ _ => trivial) ?_
  rintro e ⟨hnul, rfl⟩
  obtain rfl : d = .text text := by
    cases d <;> cases htext
    rfl
  refine .stray (.directory (.scanned hspelled hroot hitems ?_) hnul)
  -- The root itself is read once more where it is the only one.
  split at hd
  · obtain ⟨⟩ := List.mem_singleton.1 hd
    exact .inr rfl
  · exact .inl hd

/-- A list that is refused is one that is given, or it can be spelled. -/
theorem isStrayValue_of_row {key : String} {unset items : List Value} {e : Error}
    (hunset : ∀ e, Act.spell (.row unset) host ≠ .error e host)
    (hitems : itemsOf key (valueOf entries key (.list unset)) host = .ok items host)
    (hspell : Act.spell (.row items) host = .error e host) : IsStrayValue host entries e := by
  -- What stands for a setting that is not given can be spelled.
  cases hget : entries.get? key with
  | none =>
    obtain rfl := itemsOf_unset hget hitems
    exact absurd hspell (hunset e)
  | some v =>
    rw [valueOf, hget, Option.getD_some] at hitems
    exact .unspoken hget (.inr ⟨items, hitems, rfl⟩) hspell

/-- A value that is refused is one that is given, or it can be spelled. -/
theorem isStrayValue_of_valueOf {key : String} {unset : Value} {e : Error}
    (hunset : ∀ e, Act.spell unset host ≠ .error e host)
    (hspell : Act.spell (valueOf entries key unset) host = .error e host) :
    IsStrayValue host entries e := by
  cases hget : entries.get? key with
  | none =>
    rw [valueOf, hget, Option.getD_none] at hspell
    exact absurd hspell (hunset e)
  | some v =>
    rw [valueOf, hget, Option.getD_some] at hspell
    exact .unspoken hget (.inl rfl) hspell

/-- Reading settings gives them, or refuses a value. -/
theorem asks_ofEntries (entries : Dictionary String Value) :
    Asks (ofEntries entries) host (fun _ => True) (IsRefused host entries) := by
  unfold ofEntries
  extract_lets value items read
  have hitems (key : String) (unset : List Value) : Asks (items key unset) host
      (fun found => itemsOf key (valueOf entries key (.list unset)) host = .ok found host)
      (IsRefused host entries) :=
    (asks_itemsOf key _).self.mono (fun _ h => h.1) fun _ h => h.2
  have hread : Asks (read ()) host (fun _ => True) (IsRefused host entries) := by
    refine Asks.bind (A := fun p => p = .ofPlace host.folder) (asks_bind_get (asks_pure rfl)) ?_
    rintro _ rfl
    extract_lets working unset timeout spoken
    have hspoken (reason : String) {α : Type} {A : α → Prop} :
        Asks (refuse "verbosity" spoken reason : Act α) host A (IsRefused host entries) :=
      asks_refuse _ _ fun e => isStrayValue_of_valueOf (spell_text_ne_error _)
    have htimeout (reason : String) : Asks (refuse "subprocess_timeout_seconds" timeout reason)
        host (fun _ : Unit => True) (IsRefused host entries) :=
      asks_refuse _ _ fun e => isStrayValue_of_valueOf
        (spell_ne_error (v := .int 60) (Nat.not_lt_zero _) (by decide +kernel))
    clear_value spoken timeout
    refine Asks.bind (hitems _ _) fun scanDirectories hscan => ?_
    refine Asks.bind (hitems _ _) fun extensions hextensions => ?_
    refine Asks.bind (hitems _ _) fun libraries _ => ?_
    refine Asks.bind (hitems _ _) fun localStarts hstarts => ?_
    refine Asks.bind (hitems _ _) fun excludePatterns _ => ?_
    refine Asks.bind ((asks_textOf _).self.mono (fun _ h => h.1) fun _ h => h.2)
      fun spelled hspelled => ?_
    -- Each directory is named by a setting, which the error of it goes back to.
    have hnamed : NamesDirectory host entries none spelled := .root hspelled
    refine Asks.bind ((asks_directoryOf none spelled).self.mono (fun _ h => h.1) ?_)
      fun root hroot => ?_
    · rintro e ⟨hnul, rfl⟩
      exact .stray (.directory hnamed hnul)
    refine Asks.bind (asks_directoriesOf_scanned hnamed hroot hscan) fun directories _ => ?_
    refine Asks.bind (asks_extensions extensions hextensions) fun bare _ => ?_
    -- The checks that are left, from the last one to the first.
    extract_lets finish checkVerbosity checkTimeout checkStarts
    have hfinish (verbosity : Verbosity) :
        Asks (finish verbosity) host (fun _ => True) (IsRefused host entries) := by
      refine Asks.bind (asks_textOf _) fun imageFile _ => ?_
      refine asks_check ?_ fun _ => asks_pure trivial
      exact (asks_refuse_text _ _ _).mono (fun _ h => h) fun _ h => .configuration h
    have hverbosity : Asks (checkVerbosity ()) host (fun _ => True) (IsRefused host entries) := by
      dsimp only [checkVerbosity]
      split
      · split
        · exact Asks.bind (A := fun _ => True) (asks_pure trivial) fun _ _ => hfinish _
        · exact Asks.bind (A := fun _ => True) (hspoken _) fun _ _ => hfinish _
      · exact Asks.bind (A := fun _ => True) (hspoken _) fun _ _ => hfinish _
    have hrest : Asks (checkTimeout ()) host (fun _ => True) (IsRefused host entries) := by
      dsimp only [checkTimeout]
      split
      · exact Asks.bind (A := fun _ => True) (asks_throw .illTyped) fun _ _ => hverbosity
      · exact (htimeout _).bind fun _ _ => hverbosity
      · exact hverbosity
    have hstarted : Asks (checkStarts ()) host (fun _ => True) (IsRefused host entries) :=
      asks_check (asks_refuse _ _ fun e =>
        isStrayValue_of_row (spell_texts_ne_error _) hstarts) fun _ => hrest
    exact asks_check (asks_refuse _ _ fun e =>
      isStrayValue_of_row (spell_texts_ne_error _) hextensions) fun _ => hstarted
  split
  · refine Asks.bind (A := fun _ => False) (asks_throw ?_) nofun
    split
    · exact .takenSetting _
    · exact .unknownSetting _
  · exact hread

/-! ## All settings -/

/-- What stops the loading of settings, although it is not reported as a fault of them. -/
inductive IsStray (host : Host) (file : Option String) (said : Dictionary String Value) :
    Error → Prop
  | source {e : Error} (h : IsStraySource host file e) : IsStray host file said e
  | value {g : Gathered} {e : Error} (hgather : gather file said host = .ok g host)
    (hnames : g.hasNamelessEntry = false) (h : IsStrayValue host g.entries e) :
    IsStray host file said e

/-- Loading changes nothing, and what it stops with is a fault of the settings, or one that is not
expected. -/
theorem asks_load (file : Option String) (said : Dictionary String Value) (host : Host) :
    Asks (load file said) host (fun _ => True) fun e =>
      e.IsConfiguration ∨ IsStray host file said e := by
  unfold load
  refine Asks.bind ((asks_gather file said).self.mono (fun _ h => h.1)
    fun _ h => h.2.imp_right .source) fun g hgather => ?_
  have hunusable {α : Type} (reason : String) {A : α → Prop} :
      Asks (Act.fail (.configuration ("Invalid configuration: " ++ reason)) : Act α) host A
        fun e => e.IsConfiguration ∨ IsStray host file said e :=
    asks_throw (.inl ⟨_, rfl, .configuration _⟩)
  refine asks_check (hunusable _) fun hnames => ?_
  refine (asks_ofEntries g.entries).tryCatch fun e he => ?_
  cases he with
  | unknownSetting key => exact hunusable _
  | takenSetting key => exact hunusable _
  | illTyped => exact asks_bind_get (hunusable _)
  | configuration h =>
    obtain ⟨f, rfl, hf⟩ := h
    exact asks_throw (.inl ⟨f, rfl, hf⟩)
  | stray h =>
    -- Errors of other kinds than these three leave the reading as they are.
    have hstray : Asks (throw e : Act Settings) host (fun _ => True) fun e =>
        e.IsConfiguration ∨ IsStray host file said e :=
      asks_throw (.inr (.value hgather (eq_false_of_ne_true hnames) h))
    split
    · exact hunusable _
    · exact hunusable _
    · exact asks_bind_get (hunusable _)
    · exact hstray

/-- Whatever the files, the variables and the caller say, loading changes nothing, and it gives
settings or reports that they cannot be used, unless it meets one of the faults that are not
expected. -/
theorem load_ends (file : Option String) (said : Dictionary String Value) (host : Host) :
    (∃ s, load file said host = .ok s host) ∨
      ∃ e, load file said host = .error e host ∧
        (e.IsConfiguration ∨ IsStray host file said e) := by
  rcases asks_iff.1 (asks_load file said host) with ⟨s, hs, -⟩ | hfails
  · exact .inl ⟨s, hs⟩
  · exact .inr hfails

/-! ## A host without settings files -/

/-- A host whose working directory is the root, and whose environment is empty. -/
def hostOfTree (tree : Tree Content) (replies : List Reply) : Host where
  tree
  folder := []
  environment := []
  replies
  stamp := ""

section HostOfTree

variable {tree : Tree Content} {replies : List Reply}

/-- The working folder of this host is its root. -/
theorem canonical?_hostOfTree (tree : Tree Content) {path : String}
    (hpath : path = "." ∨ path = "/") : tree.canonical? [] path = some ⟨.root, []⟩ := by
  have hsegments : segmentsOf "." = ["."] ∧ startOf [] "." = [] ∧ segmentsOf "/" = ["", ""] ∧
      startOf [] "/" = [] := by
    decide
  rcases hpath with rfl | rfl <;>
    simp [Tree.canonical?, Tree.resolve, hsegments, Path.ofPlace]

/-- So both spellings lead to the root. -/
theorem canonical_hostOfTree (tree : Tree Content) (replies : List Reply) {path : String}
    (hpath : path = "." ∨ path = "/") :
    Act.canonical path (hostOfTree tree replies) = .ok ⟨.root, []⟩ (hostOfTree tree replies) := by
  unfold Act.canonical
  rw [bind_get]
  dsimp only [hostOfTree]
  rw [canonical?_hostOfTree tree hpath]
  rfl

/-- It is the project root, and the one directory that is scanned. -/
theorem directoryOf_hostOfTree (tree : Tree Content) (replies : List Reply) :
    directoryOf none "." (hostOfTree tree replies) = .ok "/" (hostOfTree tree replies) ∧
    directoryOf (some "/") "/" (hostOfTree tree replies) = .ok "/" (hostOfTree tree replies) := by
  have hroot : (Path.mk .root []).text = "/" := by
    decide
  have hexpand (path : String) (hpath : path = "." ∨ path = "/") :
      expandHome path (hostOfTree tree replies) = .ok path (hostOfTree tree replies) := by
    rcases hpath with rfl | rfl <;> rfl
  -- Both spellings have the root as their real path.
  unfold directoryOf
  constructor
  · refine (bind_of_ok _ (hexpand "." (.inl rfl))).trans ?_
    refine (bind_of_ok _ (canonical_hostOfTree tree replies (.inl rfl))).trans ?_
    rw [hroot]
    rfl
  · refine (bind_of_ok _ (hexpand "/" (.inr rfl))).trans ?_
    refine (bind_of_ok _ (canonical_hostOfTree tree replies (.inr rfl))).trans ?_
    rw [hroot]
    rfl

/-- The root is the home directory of the user. -/
theorem homePath_hostOfTree (tree : Tree Content) (replies : List Reply) :
    homePath (hostOfTree tree replies) = .ok (Path.ofText "/") (hostOfTree tree replies) := by
  have hslash : withoutSlash "/" = "" := by
    decide
  -- The home of this host is the root, whose text without its slash is empty.
  have hdirectory : homeDirectory (hostOfTree tree replies) =
      .ok (some "") (hostOfTree tree replies) := by
    unfold homeDirectory
    rw [bind_get]
    change EStateM.Result.ok (some (withoutSlash "/")) _ = _
    rw [hslash]
  have hexpand : expandHome "~" (hostOfTree tree replies) =
      .ok "/" (hostOfTree tree replies) := by
    have hname : "~".toList = ['~'] := by
      decide
    unfold expandHome
    rw [hname]
    refine (bind_get _).trans ?_
    exact (bind_of_ok _ hdirectory).trans rfl
  exact bind_of_ok _ hexpand

/-- Without settings files only what is said is gathered. -/
theorem gather_hostOfTree (hglobal : tree.get? [".import-diagram.toml"] = none)
    (hproject : tree.get? ["import-diagram.toml"] = none) (said : Dictionary String Value) :
    gather none said (hostOfTree tree replies) =
      .ok (({} : Gathered).write ((withSwitches said).filter fun e => isSaid e.2))
        (hostOfTree tree replies) := by
  have hbesideGlobal : Tree.IsBesideRoot "/.import-diagram.toml" ".import-diagram.toml" := by
    constructor <;> decide
  have hbesideProject : Tree.IsBesideRoot "/import-diagram.toml" "import-diagram.toml" := by
    constructor <;> decide
  have hpath : (Path.ofText "/" / Path.ofText ".import-diagram.toml").text =
      "/.import-diagram.toml" ∧
      (Path.ofPlace [] / Path.ofText "import-diagram.toml").text = "/import-diagram.toml" := by
    decide
  -- Neither settings file is there, and the environment is empty, so only the arguments say
  -- anything.
  have hnone : Act.pathExists "/.import-diagram.toml" (hostOfTree tree replies) =
        .ok false (hostOfTree tree replies) ∧
      Act.pathExists "/import-diagram.toml" (hostOfTree tree replies) =
        .ok false (hostOfTree tree replies) :=
    ⟨bind_of_ok _ (Act.probe_of_missing (hbesideGlobal.lookup_missing hglobal)),
      bind_of_ok _ (Act.probe_of_missing (hbesideProject.lookup_missing hproject))⟩
  have henvironment : fromEnvironment (hostOfTree tree replies) =
      .ok [] (hostOfTree tree replies) := rfl
  unfold gather
  refine (bind_of_ok _ (homePath_hostOfTree tree replies)).trans ?_
  dsimp only
  rw [hpath.1]
  refine (bind_of_ok _ hnone.1).trans ?_
  refine (bind_of_ok _ (Act.workingPath_eq _)).trans ?_
  dsimp only [hostOfTree]
  rw [hpath.2]
  refine (bind_of_ok _ hnone.2).trans ?_
  exact bind_of_ok _ henvironment

end HostOfTree

/-- A host whose working directory has a settings file of a byte that no character starts with. -/
def undecodableHost : Host where
  tree := { entries := [(["import-diagram.toml"], .file (.bytes [255]))] }
  folder := []
  environment := []
  replies := []
  stamp := ""

/-- Of the two files that are looked for, only the second one is there. -/
private theorem lookup_undecodableHost :
    undecodableHost.tree.lookup [] "/.import-diagram.toml" = .error .missing ∧
    undecodableHost.tree.lookup [] "/import-diagram.toml" =
      .ok (["import-diagram.toml"], .file (.bytes [255])) := by
  have hglobal : Tree.IsBesideRoot "/.import-diagram.toml" ".import-diagram.toml" := by
    constructor <;> decide
  have hproject : Tree.IsBesideRoot "/import-diagram.toml" "import-diagram.toml" := by
    constructor <;> decide
  exact ⟨hglobal.lookup_missing rfl, hproject.lookup_file rfl⟩

/-- A settings file that is not UTF-8 stops the loading, and is not reported as such. -/
theorem load_undecodable : load none [] undecodableHost = .error .undecodable undecodableHost := by
  obtain ⟨hglobal, hproject⟩ := lookup_undecodableHost
  have hpath : (Path.ofText "/" / Path.ofText ".import-diagram.toml").text =
      "/.import-diagram.toml" ∧
      (Path.ofPlace [] / Path.ofText "import-diagram.toml").text = "/import-diagram.toml" := by
    decide
  have hhome : homePath undecodableHost = .ok (Path.ofText "/") undecodableHost := rfl
  have hnone : Act.pathExists "/.import-diagram.toml" undecodableHost =
      .ok false undecodableHost :=
    bind_of_ok _ (Act.probe_of_missing hglobal)
  have hsome : Act.pathExists "/import-diagram.toml" undecodableHost = .ok true undecodableHost :=
    bind_of_ok _ (Act.probe_of_lookup (by decide) hproject)
  have hread : Act.readBytes "/import-diagram.toml" undecodableHost = .ok [255] undecodableHost :=
    Host.readBytes_eq_ok_iff.2 ⟨by decide, _, _, hproject, rfl⟩
  have hdecode : Text.Utf8.decode? [255] = none := by
    have hunit : Text.Utf8.unit 255 [] = (none, []) := rfl
    rw [Text.Utf8.decode?, Text.Utf8.units, hunit]
    rfl
  have hcontribution : contribution (Path.ofPlace [] / Path.ofText "import-diagram.toml")
      undecodableHost = .error .undecodable undecodableHost := by
    unfold contribution
    rw [hpath.2]
    refine (bind_of_ok _ (tryCatch_of_ok _ hread)).trans ?_
    rw [hdecode]
    rfl
  have hgather : gather none [] undecodableHost = .error .undecodable undecodableHost := by
    unfold gather
    refine (bind_of_ok _ hhome).trans ?_
    dsimp only
    rw [hpath.1]
    refine (bind_of_ok _ hnone).trans ?_
    refine (bind_of_ok _ (Act.workingPath_eq _)).trans ?_
    dsimp only [undecodableHost]
    rw [hpath.2]
    refine (bind_of_ok _ hsome).trans ?_
    exact bind_of_error _ (bind_of_error _ hcontribution)
  exact bind_of_error _ hgather

end Settings

end ImportAtlas

import ImportAtlas.Proofs.Log
import ImportAtlas.Proofs.Setting.Root
import ImportAtlas.Setting.Load

/-!
# Where settings come from

Settings are gathered from files, from the environment and from what the caller says, and nothing is
changed by it. What is wrong with a file or a variable is reported as a fault of the settings,
except for a few faults that nothing expects: a file that is not UTF-8, a document with a number
that is too long or values that are nested too deep, and one that is no table in the end. These
stop the program as they are.

## Key results

- `Settings.asks_gatherFile`: a settings file is taken, reported, or one of the unexpected faults
- `Settings.asks_fromEnvironment`: what is wrong with a variable is always reported
- `Settings.asks_gather`: all sources together
-/

namespace ImportAtlas

open EStateM

/-- The settings cannot be used, and this is reported as such. -/
inductive Failure.IsConfiguration : Failure → Prop
  | configuration (message : String) : IsConfiguration (.configuration message)
  | invalidSetting (key : String) (value : Value) (reason : String) :
    IsConfiguration (.invalidSetting key value reason)

/-- An error is a failure of the settings. -/
def Error.IsConfiguration (e : Error) : Prop :=
  ∃ f : Failure, e = .failure f ∧ f.IsConfiguration

namespace Settings

variable {host : Host} {path : Path}

/-! ## Settings files -/

/-- What is wrong with a settings file, although it is not reported as such. -/
inductive IsStrayFile (host : Host) (path : Path) : Error → Prop
  /-- A name of its path is too long to be asked for. -/
  | longName (hlookup : host.tree.lookup host.folder path.text = .error .longName) :
    IsStrayFile host path (.access .longName path.text)
  /-- It is not UTF-8. -/
  | undecodable {bytes : List UInt8} (hread : Act.readBytes path.text host = .ok bytes host)
    (hdecode : Text.Utf8.decode? bytes = none) : IsStrayFile host path .undecodable
  /-- It has an integer with too many digits. -/
  | longInteger {bytes : List UInt8} {text : List Char} {digits : Nat}
    (hread : Act.readBytes path.text host = .ok bytes host)
    (hdecode : Text.Utf8.decode? bytes = some text)
    (hdocument : Toml.document text = .error (.longInteger digits)) :
    IsStrayFile host path (.longInteger (some digits))
  /-- Its values are nested too deep. -/
  | tooDeep {bytes : List UInt8} {text : List Char}
    (hread : Act.readBytes path.text host = .ok bytes host)
    (hdecode : Text.Utf8.decode? bytes = some text)
    (hdocument : Toml.document text = .error .tooDeep) : IsStrayFile host path .tooDeep
  /-- What it contributes is no table, nor taken for one. -/
  | notATable {v : Value} {e : Error} (hcontribution : contribution path host = .ok v host)
    (hpairs : v.pairs = .error e) : IsStrayFile host path e

/-- A file can be read, or its path is refused. -/
theorem asks_readBytes (hnul : Act.hasNul path.text = false) :
    Asks (Act.readBytes path.text) host (fun _ => True) fun e =>
      ∃ fault, e = .access fault path.text := by
  have hask := Host.ask_of_not_hasNul host hnul Tree.content
  unfold Act.readBytes
  -- What the file holds decides the value only.
  cases hcontent : host.tree.content host.folder path.text with
  | ok content =>
    rw [hcontent] at hask
    refine Asks.bind (A := fun _ => True) (ends_of_ok hask ⟨rfl, trivial⟩) fun content _ => ?_
    cases content <;> exact asks_pure trivial
  | error fault =>
    rw [hcontent] at hask
    exact Asks.bind (A := fun _ => True) (ends_of_error hask ⟨rfl, fault, rfl⟩) fun content _ => by
      cases content <;> exact asks_pure trivial

/-- A file contributes its settings, or it is refused or strays. -/
theorem asks_contribution (hnul : Act.hasNul path.text = false) :
    Asks (contribution path) host (fun _ => True) fun e =>
      e.IsConfiguration ∨ IsStrayFile host path e := by
  have hinvalid {α : Type} (reason : String) {A : α → Prop} :
      Asks (Act.fail (.configuration ("Invalid config file '" ++ path.text ++ "': " ++ reason)) :
        Act α) host A fun e => e.IsConfiguration ∨ IsStrayFile host path e :=
    asks_throw (.inl ⟨_, rfl, .configuration _⟩)
  unfold contribution
  refine Asks.bind (A := fun bytes => Act.readBytes path.text host = .ok bytes host) ?_ ?_
  · refine ((asks_readBytes hnul).self.mono (fun _ h => h.1) fun _ h => h).tryCatch ?_
    rintro e ⟨-, fault, rfl⟩
    exact hinvalid _
  intro bytes hbytes
  -- A file that cannot be read is invalid, but one that is not UTF-8 is not caught.
  cases hdecode : Text.Utf8.decode? bytes with
  | none => exact asks_throw (.inr (.undecodable hbytes hdecode))
  | some text =>
    dsimp only
    split
    · exact asks_pure trivial
    · exact asks_bind_get (hinvalid _)
    · rename_i hdocument
      exact asks_throw (.inr (.longInteger hbytes hdecode hdocument))
    · rename_i hdocument
      exact asks_throw (.inr (.tooDeep hbytes hdecode hdocument))

/-- The same of a file among the sources. -/
theorem asks_gatherFile (g : Gathered) (hnul : Act.hasNul path.text = false) :
    Asks (gatherFile g path) host (fun _ => True) fun e =>
      e.IsConfiguration ∨ IsStrayFile host path e := by
  unfold gatherFile
  refine Asks.bind ((asks_contribution hnul).self.mono (fun _ h => h.1) fun _ h => h.2) ?_
  intro v hv
  unfold Gathered.writeValue
  -- A value that is no table and no list of pairs gets out as it is.
  cases hpairs : v.pairs with
  | ok pairs => exact asks_pure trivial
  | error e => exact asks_throw (.inr (.notATable hv hpairs))

/-! ## Environment -/

/-- A text can be spelled, so what is wrong with one is always reported. -/
theorem asks_refuse_text {α : Type} (key text reason : String) {A : α → Prop} :
    Asks (refuse key (.text text) reason : Act α) host A Error.IsConfiguration :=
  asks_throw ⟨_, rfl, .invalidSetting _ _ _⟩

/-- A variable is parsed or refused. -/
theorem asks_parseVariable (key text : String) :
    Asks (parseVariable key text) host (fun _ => True) Error.IsConfiguration := by
  unfold parseVariable
  extract_lets refuseText
  split
  · exact asks_pure trivial
  · -- A switch or a whole number is refused when its text is not in the form; any other text is
    -- taken.
    split
    · split
      · exact asks_pure trivial
      · split
        · exact asks_pure trivial
        · exact asks_refuse_text _ _ _
    · split
      · split
        · exact asks_pure trivial
        · exact asks_refuse_text _ _ _
        · exact asks_refuse_text _ _ _
      · exact asks_pure trivial

/-- So is the environment. -/
theorem asks_fromEnvironment :
    Asks fromEnvironment host (fun _ => True) Error.IsConfiguration := by
  unfold fromEnvironment
  refine asks_bind_get (Asks.bind (asks_mapM (B := fun _ => True) fun key _ => ?_) ?_)
  · split
    · exact asks_pure trivial
    · exact Asks.bind (asks_parseVariable _ _) fun _ _ => asks_pure trivial
  · exact fun _ _ => asks_pure trivial

/-! ## All sources -/

/-- A path is looked at for a settings file: in the home directory, in the working directory, or
where the caller says. -/
inductive IsSettingsFile (host : Host) (file : Option String) : Path → Prop
  | global {home : Path} (hhome : homePath host = .ok home host) :
    IsSettingsFile host file (home / Path.ofText ".import-diagram.toml")
  | project : IsSettingsFile host file (.ofPlace host.folder / Path.ofText "import-diagram.toml")
  | said {text : String} (hfile : file = some text) : IsSettingsFile host file (.ofText text)

/-- What stops the gathering of settings, although it is not reported as a fault of them. -/
inductive IsStraySource (host : Host) (file : Option String) : Error → Prop
  /-- The home directory is spelled with a tilde in front. -/
  | noHome (hhome : homePath host = .error .noHome host) : IsStraySource host file .noHome
  /-- A settings file is wrong in a way that is not expected. -/
  | file {path : Path} {e : Error} (hpath : IsSettingsFile host file path)
    (hfile : IsStrayFile host path e) : IsStraySource host file e

/-- A tilde can always be looked up, even if nothing is put in for it. -/
theorem asks_expandHome (path : String) :
    Asks (expandHome path) host (fun _ => True) fun _ => False := by
  unfold expandHome
  split
  · -- Only a path with a tilde asks for a home, and a home that is unknown leaves it as it is.
    refine asks_bind_get ?_
    extract_lets finish
    have hfinish (home : Option String) :
        Asks (finish home) host (fun _ => True) fun _ => False := by
      cases home <;> exact asks_pure trivial
    split
    · exact Asks.bind (A := fun _ => True) (asks_bind_get (asks_pure trivial))
        fun home _ => hfinish home
    · exact Asks.bind (A := fun _ => True) (asks_pure trivial) fun home _ => hfinish home
  · exact asks_pure trivial

/-- The home path is known, or there is no home. -/
theorem asks_homePath : Asks homePath host (fun _ => True) fun e => e = .noHome := by
  have hhome : Asks (expandHome "~") host (fun _ => True) fun e => e = .noHome :=
    (asks_expandHome "~").mono (fun _ h => h) fun _ h => h.elim
  unfold homePath
  refine hhome.bind fun home _ => ?_
  split
  · exact asks_throw rfl
  · exact asks_pure trivial

/-- A settings file that is there is read. -/
theorem asks_gatherFound {file : Option String} (hpath : IsSettingsFile host file path)
    {next : Gathered → Act Gathered} (g : Gathered)
    (hnext : ∀ g, Asks (next g) host (fun _ => True) fun e =>
      e.IsConfiguration ∨ IsStraySource host file e) :
    Asks (do
      if ← Act.pathExists path.text then
        let g ← gatherFile g path
        next g
      else
        next g) host (fun _ => True) fun e => e.IsConfiguration ∨ IsStraySource host file e := by
  refine Asks.bind ((Act.asks_pathExists path.text).mono (fun _ h => h) ?_) fun b hb => ?_
  · rintro e ⟨rfl, hlong⟩
    exact .inr (.file hpath (.longName hlong))
  · split
    · rename_i hthere
      -- A path that leads somewhere holds no NUL.
      refine Asks.bind ((asks_gatherFile g (hb hthere)).mono (fun _ h => h) ?_) fun g _ => hnext g
      exact fun e he => he.imp_right fun hfile => .file hpath hfile
    · exact hnext g

/-- So all sources are gathered, or one of them is refused or strays. -/
theorem asks_gather (file : Option String) (said : Dictionary String Value) :
    Asks (gather file said) host (fun _ => True) fun e =>
      e.IsConfiguration ∨ IsStraySource host file e := by
  unfold gather
  extract_lets g finish gatherSaid gatherProject
  -- The sources are asked one after the other, so the last one comes first here.
  have hfinish (g : Gathered) : Asks (finish () g) host (fun _ => True) fun e =>
      e.IsConfiguration ∨ IsStraySource host file e := by
    dsimp only [finish]
    refine Asks.bind (asks_fromEnvironment.mono (fun _ h => h) fun _ h => .inl h) fun _ _ => ?_
    exact asks_pure trivial
  have hsaid (g : Gathered) : Asks (gatherSaid () g) host (fun _ => True) fun e =>
      e.IsConfiguration ∨ IsStraySource host file e := by
    cases file with
    | none => exact hfinish g
    | some text =>
      dsimp only [gatherSaid]
      refine Asks.bind ((Act.asks_pathExists _).mono (fun _ h => h) ?_) fun b hb => ?_
      · rintro e ⟨rfl, hlong⟩
        exact .inr (.file (.said rfl) (.longName hlong))
      · -- The file that is named must be there.
        cases b with
        | false =>
          exact Asks.bind (A := fun _ => False) (asks_throw (E := fun e => e.IsConfiguration ∨
            IsStraySource host (some text) e) (.inl ⟨_, rfl, .configuration _⟩)) nofun
        | true =>
          refine Asks.bind ((asks_gatherFile g (hb rfl)).mono (fun _ h => h) ?_)
            fun g _ => hfinish g
          exact fun e he => he.imp_right fun hfile => .file (.said rfl) hfile
  have hproject (g : Gathered) : Asks (gatherProject () g) host (fun _ => True) fun e =>
      e.IsConfiguration ∨ IsStraySource host file e := by
    dsimp only [gatherProject]
    refine Asks.bind (A := fun p => p = .ofPlace host.folder) ?_ ?_
    · exact asks_bind_get (asks_pure rfl)
    · rintro _ rfl
      exact asks_gatherFound .project g hsaid
  refine Asks.bind (asks_homePath.self.mono (fun _ h => h.1) ?_) fun home hhome => ?_
  · rintro e ⟨hhome, rfl⟩
    exact .inr (.noHome hhome)
  · dsimp only
    exact asks_gatherFound (.global hhome) g hproject

end Settings

end ImportAtlas

import ImportAtlas.Console.Command
import ImportAtlas.Proofs.Console.Screen
import ImportAtlas.Proofs.Setting.Load
import ImportAtlas.Proofs.Store.Connect
import ImportAtlas.Proofs.Store.Open
import ImportAtlas.Proofs.Store.Query

/-!
# How the listing of imports ends

The command that lists imports loads the settings, opens the database and asks it, and shows the
answer as a table. What is reported as a failure on the way is shown, and the exit status is 1. The
faults that are not reported get out: those of the settings, that of a database that is open but
cannot be used, that of the name of a file that cannot be written, and those of the screen.

## Key results

- `Console.imports_ends`: the ways in which the listing of imports ends
- `Console.database_ends`: the ways in which opening a database and listing its imports end
-/

namespace ImportAtlas

open EStateM

namespace Store

/-- The kinds that imports can be asked for by are those that the words name. -/
theorem exists_kindFilter_iff {kind : Option String} :
    (∃ wanted, kindFilter kind = .ok wanted) ↔ kind.all Console.kindWords.contains = true := by
  constructor
  · rintro ⟨wanted, h⟩
    unfold kindFilter at h
    split at h
    · rfl
    · rfl
    · rename_i word _
      unfold ImportKind.ofTag at h
      cases hkind : ImportKind.ofTag? word with
      | none =>
        rw [hkind] at h
        cases h
      | some kind =>
        obtain rfl := ImportKind.tag_of_ofTag? hkind
        cases kind <;> decide
  · intro hkind
    cases kind with
    | none => exact ⟨none, rfl⟩
    | some word =>
      simp only [Option.all_some, Console.kindWords, List.contains_iff_mem, List.mem_cons,
        List.not_mem_nil, or_false] at hkind
      -- There are three words for kinds, and each of them is the tag of one.
      rcases hkind with rfl | rfl | rfl <;> exact ⟨_, rfl⟩

end Store

namespace Console

variable {screen : Screen} {a : Arguments} {file : Option Text.Raw} {host host' : Host}
  {path : Path}

/-- The settings name the path of a database. -/
def NamesDatabase (a : Arguments) (host : Host) (path : Path) : Prop :=
  ∃ s, loadSettings a host = .ok s host ∧ s.outputFile s.databaseFile host = .ok path host

/-- Why imports are not listed, as it is told. -/
inductive IsTold (a : Arguments) (host : Host) : String → Prop
  /-- There is no such kind of imports. -/
  | kind (hkind : (a.value? "--kind").all kindWords.contains = false) :
    IsTold a host ("--kind must be one of " ++ ", ".intercalate kindWords)
  /-- The settings cannot be used. -/
  | settings {f : Failure} (hload : loadSettings a host = .error (.failure f) host) :
    IsTold a host f.text
  /-- The database cannot be opened. -/
  | database {path : Path} {f : Failure} {host' : Host} (hpath : NamesDatabase a host path)
    (hconnect : Store.connect path false host = .error (.failure f) host') : IsTold a host f.text

/-- The rows that the database has for the question in the arguments. -/
inductive IsListed (a : Arguments) (file : Option Text.Raw) (host : Host) :
    List Store.ImportListing → Prop
  | database {path : Path} {host' : Host} {c : Connection} {t : Tables}
    {importer : Option String} {wanted : Option (Option ImportKind)}
    (hpath : NamesDatabase a host path)
    (hconnect : Store.connect path false host = .ok () host') (htables : Store.HasTables host' c t)
    (hfile : file = importer.map Text.Raw.ofText)
    (hkind : Store.kindFilter (a.value? "--kind") = .ok wanted) :
    IsListed a file host (Store.listings t importer wanted)

/-- How the listing of imports ends. -/
inductive ImportsEnd (screen : Screen) (a : Arguments) (file : Option Text.Raw) (host : Host) :
    EStateM.Result Error Host Nat → Prop
  /-- The table is shown. -/
  | listed {host' : Host} {rows : List Store.ImportListing} {lines : List String}
    (hrows : IsListed a file host rows)
    (hlines : screen.lines (.table (importsTable rows)) = .ok lines)
    (hprinted : host'.printed = host.printed ++ lines) :
    ImportsEnd screen a file host (.ok 0 host')
  /-- It is told why there is none. -/
  | told {host' : Host} {reason : String} {lines : List String} (hreason : IsTold a host reason)
    (hlines : screen.lines (.text (errorLine "Error:" reason)) = .ok lines)
    (hprinted : host'.printed = host.printed ++ lines) :
    ImportsEnd screen a file host (.ok 1 host')
  /-- The database is open, but cannot be used, and its fault gets out. -/
  | unusable {path : Path} {host' host₁ : Host} {c : Connection} {fault : DatabaseFault}
    (hpath : NamesDatabase a host path)
    (hconnect : Store.connect path false host = .error (.database fault) host₁)
    (hfault : Store.IsUnusable host₁.tree c fault) :
    ImportsEnd screen a file host (.error (.database fault) host')
  /-- The name of the file that is asked for cannot be written. -/
  | unwritten {path : Path} {host' host₁ : Host} {text : Text.Raw}
    (hpath : NamesDatabase a host path)
    (hconnect : Store.connect path false host = .ok () host₁) (hfile : file = some text)
    (htext : Text.Form.written? text = none) :
    ImportsEnd screen a file host (.error .unencodable host')
  /-- A fault of the settings that is not expected gets out. -/
  | stray {host' : Host} {e : Error}
    (hstray : Settings.IsStray host ((configOf a).map (·.text)) (settingsOf a) e) :
    ImportsEnd screen a file host (.error e host')
  /-- The database file of the settings is no text. -/
  | noPath {host' : Host} {s : Settings} (hload : loadSettings a host = .ok s host)
    (hfile : s.databaseFile.isText = false) :
    ImportsEnd screen a file host (.error .illTyped host')
  /-- The screen refuses the table. -/
  | unlisted {host' : Host} {rows : List Store.ImportListing} {fault : ScreenFault}
    (hrows : IsListed a file host rows)
    (hlines : screen.lines (.table (importsTable rows)) = .error fault) :
    ImportsEnd screen a file host (.error (.screen fault) host')
  /-- The screen refuses what would be told. -/
  | untold {host' : Host} {reason : String} {fault : ScreenFault}
    (hreason : IsTold a host reason)
    (hlines : screen.lines (.text (errorLine "Error:" reason)) = .error fault) :
    ImportsEnd screen a file host (.error (.screen fault) host')

/-- What would be told is shown, or refused. -/
theorem ends_print_error {reason : String} (hprinted : host'.printed = host.printed)
    (hreason : IsTold a host reason) :
    Ends (print screen (.text (errorLine "Error:" reason))) host'
      (fun _ host'' => ImportsEnd screen a file host (.ok 1 host''))
      fun e host'' => ImportsEnd screen a file host (.error e host'') := by
  refine (ends_print _).mono ?_ ?_
  · rintro _ _ ⟨lines, hlines, rfl⟩
    exact .told hreason hlines (by rw [hprinted])
  · rintro e _ ⟨rfl, fault, rfl, hlines⟩
    exact .untold hreason hlines

/-- What keeps imports from being found, before it is told. -/
def Hinders (screen : Screen) (a : Arguments) (file : Option Text.Raw) (host : Host) (e : Error)
    (host' : Host) : Prop :=
  host'.printed = host.printed ∧
    ((∃ f, e = .failure f ∧ IsTold a host f.text) ∨
      ((∀ f, e ≠ .failure f) ∧ ImportsEnd screen a file host (.error e host')))

theorem ends_loadSettings : Ends (loadSettings a) host
    (fun s host' => host' = host ∧ loadSettings a host = .ok s host)
    (Hinders screen a file host) := by
  rcases asks_iff.1 (Settings.asks_load ((configOf a).map (·.text)) (settingsOf a) host) with
    ⟨s, hs, -⟩ | ⟨e, he, hcause⟩
  · exact ends_of_ok hs ⟨rfl, hs⟩
  · refine ends_of_error he ⟨rfl, ?_⟩
    -- An error that is no failure of the program is one that the settings do not translate.
    by_cases hfailure : ∃ f, e = .failure f
    · obtain ⟨f, rfl⟩ := hfailure
      exact .inl ⟨f, rfl, .settings he⟩
    · rw [not_exists] at hfailure
      refine .inr ⟨hfailure, .stray (hcause.resolve_left ?_)⟩
      rintro ⟨f, rfl, -⟩
      exact hfailure f rfl

theorem ends_outputFile {s : Settings} (hload : loadSettings a host = .ok s host) :
    Ends (s.outputFile s.databaseFile) host
      (fun path host' => host' = host ∧ NamesDatabase a host path)
      (Hinders screen a file host) := by
  cases hfile : s.databaseFile with
  | text file =>
    have hpath : s.outputFile (.text file) host = .ok (s.outputPath file) host := rfl
    exact ends_of_ok hpath ⟨rfl, s, hload, hfile ▸ hpath⟩
  -- Only a text names a file.
  | _ =>
    exact ends_of_error (e := Error.illTyped) rfl
      ⟨rfl, .inr ⟨nofun, .noPath hload (hfile ▸ rfl)⟩⟩

theorem ends_session {wanted : Option (Option ImportKind)} (hpath : NamesDatabase a host path)
    (hkind : Store.kindFilter (a.value? "--kind") = .ok wanted) :
    Ends (Store.session path false (Store.query file (a.value? "--kind"))) host
      (fun rows host' => host'.printed = host.printed ∧ IsListed a file host rows)
      (Hinders screen a file host) := by
  have hconnect := Store.connect_ends path false host
  generalize hresult : Store.connect path false host = result at hconnect
  cases hconnect with
  | connected htables hprinted =>
    have hquery := Store.query_of_hasTables htables hkind file
    rcases Store.ofText_or_unwritten file with ⟨importer, rfl⟩ | ⟨text, rfl, htext⟩
    · rw [Store.mapM_bindText_map] at hquery
      exact ends_of_ok (Store.session_of_ok hresult hquery)
        ⟨hprinted, .database hpath hresult htables rfl hkind⟩
    · -- The database is asked, and closed again, before the fault gets out.
      rw [Store.mapM_bindText_of_unwritten htext] at hquery
      exact ends_of_error (Store.session_of_error hresult hquery)
        ⟨hprinted, .inr ⟨nofun, .unwritten hpath hresult rfl htext⟩⟩
  | refused hready =>
    exact ends_of_error (Store.session_of_connect_error hresult)
      ⟨hready.printed_eq, .inl ⟨_, rfl, .database hpath hresult⟩⟩
  | unusable hready hconnection hfault =>
    exact ends_of_error (Store.session_of_connect_error hresult)
      ⟨hready.printed_eq, .inr ⟨nofun, .unusable hpath hresult hfault⟩⟩
  | nul hready hfresh => cases hfresh

/-- The imports are found, or it is told why they are not, or a fault gets out. -/
theorem ends_findImports {wanted : Option (Option ImportKind)}
    (hkind : Store.kindFilter (a.value? "--kind") = .ok wanted) :
    Ends (findImports screen a file) host
      (fun found host' =>
        (∃ rows, found = .ok rows ∧ host'.printed = host.printed ∧ IsListed a file host rows) ∨
        ∃ status, found = .error status ∧ ImportsEnd screen a file host (.ok status host'))
      fun e host' => ImportsEnd screen a file host (.error e host') := by
  unfold findImports
  refine Ends.tryCatch (L := Hinders screen a file host) ?_ ?_
  · refine ends_loadSettings.bind ?_
    rintro s _ ⟨rfl, hload⟩
    refine (ends_outputFile hload).bind ?_
    rintro path _ ⟨rfl, hpath⟩
    refine (ends_session hpath hkind).bind ?_
    rintro rows host₁ ⟨hprinted, hrows⟩
    exact ends_pure (.inl ⟨rows, rfl, hprinted, hrows⟩)
  · -- A failure is told and the status is 1; what is no failure gets out.
    rintro e host₁ ⟨hprinted, ⟨f, rfl, hreason⟩ | ⟨hfailure, hend⟩⟩
    · refine Ends.bind (P := fun status host' => ImportsEnd screen a file host (.ok status host'))
        ?_ fun status host' h => ends_pure (.inr ⟨status, rfl, h⟩)
      exact (ends_print_error hprinted hreason).bind fun _ host' h => ends_pure h
    · split
      · exact absurd rfl (hfailure _)
      · exact ends_throw hend

/-- Whatever the host and the screen are like, the table is shown, or it is told why there is none,
or one of the faults that are not reported gets out. -/
theorem imports_ends (screen : Screen) (a : Arguments) (file : Option Text.Raw) (host : Host) :
    ImportsEnd screen a file { host with logFile := none } (imports screen a file host) := by
  generalize hstarted : { host with logFile := none } = started
  suffices himports : Ends (imports screen a file) host
      (fun status host' => ImportsEnd screen a file started (.ok status host'))
      fun e host' => ImportsEnd screen a file started (.error e host') from
    ends_result_iff.1 himports
  unfold imports
  refine ends_bind_modify ?_
  rw [hstarted]
  split
  · rename_i hkind
    rw [Bool.not_eq_true'] at hkind
    exact (ends_print_error rfl (.kind hkind)).bind fun _ host' h => ends_pure h
  · rename_i hkind
    rw [Bool.not_eq_true', Bool.not_eq_false] at hkind
    obtain ⟨wanted, hwanted⟩ := Store.exists_kindFilter_iff.2 hkind
    refine (ends_findImports hwanted).bind ?_
    rintro found host₁ (⟨rows, rfl, hprinted, hrows⟩ | ⟨status, rfl, hend⟩)
    · -- What has been found is listed, unless the screen refuses it.
      refine ((ends_print _).mono (fun _ _ h => h) ?_).bind ?_
      · rintro e _ ⟨rfl, fault, rfl, hlines⟩
        exact .unlisted hrows hlines
      · rintro _ _ ⟨lines, hlines, rfl⟩
        exact ends_pure (.listed hrows hlines (by rw [hprinted]))
    · exact ends_pure hend

/-- Wherever a database is opened, it is open with its tables and nothing is lost, or it is reported
why it cannot be opened, or one of the faults that are not reported gets out; and the same holds for
the command that lists imports, on every screen. -/
theorem database_ends (path : Path) (fresh : Bool) (screen : Screen) (a : Arguments)
    (file : Option Text.Raw) (host : Host) :
    Store.ConnectEnd path fresh host (Store.connect path fresh host) ∧
      ImportsEnd screen a file { host with logFile := none } (imports screen a file host) :=
  ⟨Store.connect_ends path fresh host, imports_ends screen a file host⟩

end Console

end ImportAtlas

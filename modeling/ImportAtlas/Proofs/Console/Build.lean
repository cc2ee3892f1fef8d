import ImportAtlas.Proofs.Console.Plain
import ImportAtlas.Proofs.Console.Report
import ImportAtlas.Proofs.Setting.Classifier
import ImportAtlas.Proofs.Setting.Read
import ImportAtlas.Proofs.Steps
import ImportAtlas.Proofs.Writing

/-!
# How a build ends

A build starts its log, loads the settings, does the run and reports what it has produced. An error
on the way is told instead, also one that the screen raises when it refuses something of the report.
What is told is marked-up text as well, so the screen may refuse it too, and then the build ends
with an error, even if the run has succeeded. Names and messages without brackets are never refused.

## Key results

- `Console.buildEnd_build`: the ways in which a build ends
- `Console.build_ends`: when the exit status of a build is that of its run
- `Console.build_of_closer`: a run that succeeds, in a build that does not
-/

namespace ImportAtlas

open EStateM

namespace Console

variable {screen : Screen} {a : Arguments} {host started made stopped : Host} {r : RunResult}
  {e : Error}

/-! ## Errors that are told -/

/-- The label of an error that is told. -/
def errorLabel : Error → String
  | .failure _ => "Error:"
  | _ => "Unexpected error:"

/-- The host on which an error is told. What is not expected is logged first. -/
def noted (e : Error) (host : Host) : Host :=
  match e with
  | .failure _ => host
  | _ => hostAfter (Act.log .error rootChannel "Unexpected error") host

/-- What is told of an error on a host. -/
def telling (e : Error) (host : Host) : Exhibit :=
  .text (errorLine (errorLabel e) (e.text host.wording))

/-- Anything but a failure is unexpected. -/
theorem errorLabel_of_not_failure (h : ∀ f, e = .failure f → False) :
    errorLabel e = "Unexpected error:" := by
  unfold errorLabel
  split
  · exact absurd rfl (h _)
  · rfl

/-- So the log is told that there was such an error. -/
theorem log_of_not_failure (h : ∀ f, e = .failure f → False) (host : Host) :
    Act.log .error rootChannel "Unexpected error" host = .ok () (noted e host) := by
  unfold noted
  split
  · exact absurd rfl (h _)
  · rfl

/-- The labels of errors have no marks. -/
theorem errorLabel_spec (e : Error) : (errorLabel e).toList.all isPrinted = true ∧
    '\\' ∉ (errorLabel e).toList ∧ IsUnmarked (errorLabel e) := by
  have hlabels : ∀ label ∈ ["Error:", "Unexpected error:"], label.toList.all isPrinted = true ∧
      '\\' ∉ label.toList ∧ '[' ∉ label.toList ∧ label.toList.count ':' ≤ 1 := by
    decide
  have hmem : errorLabel e ∈ ["Error:", "Unexpected error:"] := by
    unfold errorLabel
    split <;> decide
  -- Either label ends in its one colon, and a picture takes two.
  obtain ⟨hprinted, hslash, hbracket, hcolon⟩ := hlabels _ hmem
  exact ⟨hprinted, hslash, hbracket, not_hasPicture_of_count hcolon⟩

/-- An error without brackets in its text is told. -/
theorem exists_lines_telling (hlaws : screen.Laws)
    (h : '[' ∉ (e.text host.wording).toList) :
    ∃ lines, screen.lines (telling e host) = .ok lines := by
  have hlabel := (errorLabel_spec e).2.2.bracket_not_mem
  have hshown := hlaws.shows_styled "red" (by decide) "" (errorLabel e)
    (" " ++ e.text host.wording) (by decide) hlabel (by simpa using h) (by decide)
  rwa [String.empty_append, ← String.append_assoc] at hshown

/-- An error whose text has no marks is told in one line, if there is room. -/
theorem lines_telling (hlaws : screen.Laws) (h : screen.IsVerbatim (e.text host.wording))
    (hroom : (errorLabel e ++ " " ++ e.text host.wording).length ≤ screen.width) :
    screen.lines (telling e host) = .ok [errorLabel e ++ " " ++ e.text host.wording] := by
  obtain ⟨hprinted, hslash, hlabel⟩ := errorLabel_spec e
  have hnil : screen.IsVerbatim "" :=
    hlaws.isVerbatim_of_isPrinted (by decide) (by decide) (by decide)
  have hbehind := hlaws.isVerbatim_append_space hnil h
  -- The label is read in its style and the text behind it as it stands.
  have hread := hlaws.read_styled "red" (by decide) "" (errorLabel e)
    (" " ++ e.text host.wording) hnil.isUnmarked hlabel hbehind.isUnmarked
    hnil.isNarrow (hlaws.isNarrow_of_isPrinted hprinted) hbehind.isNarrow (by decide) hslash
  rw [String.empty_append, String.empty_append, ← String.append_assoc, ← String.append_assoc]
    at hread
  have hnarrow := (hlaws.isNarrow_of_isPrinted hprinted).append hbehind.isNarrow
  rw [String.empty_append, ← String.append_assoc] at hnarrow
  exact hlaws.lines_text _ _ hread hnarrow hroom

/-! ## How a build ends -/

/-- Starts the log of a build. -/
def startBuildLog (a : Arguments) : Act Unit :=
  Act.startLog (LogLevel.ofVerbosity (a.has "--verbose") (a.has "--quiet"))
    ((logFileOf a).map (·.text))

/-- What a build has to report: the settings are loaded, and the run is done. -/
def produce (a : Arguments) : Act RunResult := do
  let settings ← loadSettings a
  run settings { persist := !a.has "--no-db", render := !a.has "--no-render" }

/-- What a build shows of its run; nothing if it is to be quiet. -/
def buildExhibits (a : Arguments) (r : RunResult) : List Exhibit :=
  if a.has "--quiet" then [] else exhibits r (a.has "--verbose")

/-- What stops a build whose log has been started. -/
inductive Stops (screen : Screen) (a : Arguments) (started : Host) : Error → Host → Prop
  /-- The settings cannot be loaded, or the run fails. -/
  | failed {e : Error} {made : Host} (hrun : produce a started = .error e made) :
    Stops screen a started e made
  /-- The run succeeds, but the screen refuses something of its report. -/
  | refused {r : RunResult} {made : Host} {fault : ScreenFault}
    (hrun : produce a started = .ok r made)
    (hfault : (screen.showAll (buildExhibits a r)).2 = some fault) :
    Stops screen a started (.screen fault)
      { made with printed := made.printed ++ (screen.showAll (buildExhibits a r)).1 }

/-- How a build ends. -/
inductive BuildEnd (screen : Screen) (a : Arguments) (host : Host) :
    EStateM.Result Error Host Nat → Prop
  /-- The run succeeds and is reported. -/
  | reported {started made : Host} {r : RunResult} (hlog : startBuildLog a host = .ok () started)
    (hrun : produce a started = .ok r made)
    (hshown : (screen.showAll (buildExhibits a r)).2 = none) :
    BuildEnd screen a host
      (.ok 0 { made with printed := made.printed ++ (screen.showAll (buildExhibits a r)).1 })
  /-- Something stops it, and is told. -/
  | told {started stopped : Host} {e : Error} {lines : List String}
    (hlog : startBuildLog a host = .ok () started) (hstops : Stops screen a started e stopped)
    (hlines : screen.lines (telling e (noted e stopped)) = .ok lines) :
    BuildEnd screen a host
      (.ok 1 { noted e stopped with printed := (noted e stopped).printed ++ lines })
  /-- The log cannot be started, and nothing else is done. -/
  | unlogged {host' : Host} {e : Error} (hlog : startBuildLog a host = .error e host') :
    BuildEnd screen a host (.error e host')
  /-- Something stops it, and the screen refuses what is to be told of that. -/
  | untold {started stopped : Host} {e : Error} {fault : ScreenFault}
    (hlog : startBuildLog a host = .ok () started) (hstops : Stops screen a started e stopped)
    (hlines : screen.lines (telling e (noted e stopped)) = .error fault) :
    BuildEnd screen a host (.error (.screen fault) (noted e stopped))

/-- The report of a build that is not quiet ends with status 0, or the screen refuses a part of it.
-/
theorem ends_report (hlog : startBuildLog a host = .ok () started)
    (hrun : produce a started = .ok r made) (hquiet : a.has "--quiet" = false) :
    Ends (report screen r (a.has "--verbose")) made
      (fun _ host' => BuildEnd screen a host (.ok 0 host')) (Stops screen a started) := by
  have hexhibits : buildExhibits a r = exhibits r (a.has "--verbose") := by
    rw [buildExhibits, hquiet, if_neg Bool.false_ne_true]
  rw [report_eq, ← hexhibits]
  -- What the report shows is a list of exhibits, so it ends where printing them ends.
  refine (ends_forM_print _ made).mono ?_ ?_
  · rintro _ _ ⟨hshown, rfl⟩
    exact .reported hlog hrun hshown
  · rintro _ _ ⟨fault, rfl, hfault, rfl⟩
    exact .refused hrun hfault

/-- A quiet build ends with status 0 and shows nothing. -/
theorem buildEnd_of_quiet (hlog : startBuildLog a host = .ok () started)
    (hrun : produce a started = .ok r made) (hquiet : a.has "--quiet" = true) :
    BuildEnd screen a host (.ok 0 made) := by
  have hnothing : buildExhibits a r = [] := if_pos hquiet
  have hend : BuildEnd screen a host _ := .reported hlog hrun (by rw [hnothing]; rfl)
  rwa [hnothing, Screen.showAll, List.append_nil] at hend

/-- What stops a build is told, or the screen refuses that. -/
theorem ends_tell (hlog : startBuildLog a host = .ok () started)
    (hstops : Stops screen a started e stopped) :
    Ends (print screen (telling e (noted e stopped))) (noted e stopped)
      (fun _ host' => BuildEnd screen a host (.ok 1 host'))
      fun e' host' => BuildEnd screen a host (.error e' host') := by
  refine (ends_print _).mono ?_ ?_
  · rintro _ _ ⟨lines, hlines, rfl⟩
    exact .told hlog hstops hlines
  · rintro _ _ ⟨rfl, fault, rfl, hlines⟩
    exact .untold hlog hstops hlines

/-- However a build ends, it is in one of the four ways. -/
theorem buildEnd_build (screen : Screen) (a : Arguments) (host : Host) :
    BuildEnd screen a host (build screen a host) := by
  suffices hbuild : Ends (build screen a) host
      (fun status host' => BuildEnd screen a host (.ok status host'))
      fun e host' => BuildEnd screen a host (.error e host') from ends_result_iff.1 hbuild
  unfold build
  extract_lets verbose quiet
  -- The log is started outside of the handlers, so an error there escapes.
  cases hlog : startBuildLog a host with
  | error e host' => exact ends_of_error (bind_of_error _ hlog) (.unlogged hlog)
  | ok _ started =>
    refine ends_bind_of_ok hlog ?_
    refine Ends.bind (P := fun (r : Except Nat Nat) host' => ∃ status,
      (r = .ok status ∨ r = .error status) ∧ BuildEnd screen a host (.ok status host')) ?_ ?_
    · refine Ends.tryCatch (L := Stops screen a started) ?_ ?_
      · cases hload : loadSettings a started with
        | error e stopped =>
          exact ends_of_error (bind_of_error _ hload) (.failed (bind_of_error _ hload))
        | ok s loaded =>
          refine ends_bind_of_ok hload ?_
          cases hrun : run s { persist := !a.has "--no-db", render := !a.has "--no-render" }
            loaded with
          | error e stopped =>
            exact ends_of_error (bind_of_error _ hrun)
              (.failed ((bind_of_ok _ hload).trans hrun))
          | ok r made =>
            have hproduce : produce a started = .ok r made := (bind_of_ok _ hload).trans hrun
            refine ends_bind_of_ok hrun ?_
            split
            · rename_i hquiet
              exact (ends_report hlog hproduce (by simpa using hquiet)).bind
                fun _ host' h => ends_pure ⟨0, .inr rfl, h⟩
            · rename_i hquiet
              exact ends_pure ⟨0, .inr rfl, buildEnd_of_quiet hlog hproduce (by simpa using hquiet)⟩
      · -- What stops the work is told on the console; the unexpected is logged before that.
        intro e stopped hstops
        have htell := ends_tell hlog hstops
        split
        · exact (Ends.bind htell fun _ host' h => ends_pure h).bind
            fun status host' h => ends_pure ⟨status, .inl rfl, h⟩
        · rename_i hunexpected
          unfold telling at htell
          rw [errorLabel_of_not_failure hunexpected] at htell
          refine ends_bind_of_ok (log_of_not_failure hunexpected stopped) ?_
          refine ends_bind_get ?_
          exact Ends.bind htell fun _ host' h => ends_pure ⟨1, .inr rfl, h⟩
    · rintro r host' ⟨status, rfl | rfl, h⟩ <;> exact ends_pure h

/-- Nothing that a build has to show has a bracket. -/
def ShowsNoBracket (a : Arguments) (started : Host) : Prop :=
  (∀ r made, produce a started = .ok r made → a.has "--quiet" = true ∨
    ∀ name ∈ reportNames r (a.has "--verbose"), '[' ∉ name.toList) ∧
  ∀ e made, produce a started = .error e made → '[' ∉ (e.text (noted e made).wording).toList

/-- Without a bracket in it, the report is shown in full. -/
theorem showAll_buildExhibits_eq_none (hlaws : screen.Laws) (hshows : ShowsNoBracket a started)
    (hrun : produce a started = .ok r made) :
    (screen.showAll (buildExhibits a r)).2 = none := by
  unfold buildExhibits
  split
  · rfl
  · rename_i hquiet
    exact showAll_exhibits_eq_none hlaws ((hshows.1 r made hrun).resolve_left hquiet)

/-- Whatever a build is asked to do, and on every screen, it ends in one of the ways above. Its exit
status is 0 if and only if its log can be started, its settings can be loaded, its run succeeds and
its report is not refused. Where nothing that is to be shown has a bracket, the exit status is 0 if
the run succeeds, and otherwise 1 after an error has been told; and what is told of an error without
marks is its label and its text. -/
theorem build_ends (screen : Screen) (a : Arguments) (host : Host) :
    BuildEnd screen a host (build screen a host) ∧
    ((∃ host', build screen a host = .ok 0 host') ↔ ∃ started made r,
      startBuildLog a host = .ok () started ∧ produce a started = .ok r made ∧
        (screen.showAll (buildExhibits a r)).2 = none) ∧
    (screen.Laws → ∀ started, startBuildLog a host = .ok () started → ShowsNoBracket a started →
      (∃ r made, produce a started = .ok r made ∧ build screen a host =
        .ok 0 { made with printed := made.printed ++ (screen.showAll (buildExhibits a r)).1 }) ∨
      ∃ e made lines, produce a started = .error e made ∧
        screen.lines (telling e (noted e made)) = .ok lines ∧ build screen a host =
          .ok 1 { noted e made with printed := (noted e made).printed ++ lines }) ∧
    (screen.Laws → ∀ e told, screen.IsVerbatim (e.text told.wording) →
      (errorLabel e ++ " " ++ e.text told.wording).length ≤ screen.width →
      screen.lines (telling e told) = .ok [errorLabel e ++ " " ++ e.text told.wording]) := by
  have hend := buildEnd_build screen a host
  refine ⟨hend, ⟨?_, ?_⟩, ?_, fun hlaws e told h hroom => lines_telling hlaws h hroom⟩
  · rintro ⟨host', hbuild⟩
    rw [hbuild] at hend
    cases hend with
    | reported hlog hrun hshown => exact ⟨_, _, _, hlog, hrun, hshown⟩
  · rintro ⟨started, made, r, hlog, hrun, hshown⟩
    generalize build screen a host = result at hend
    cases hend with
    | reported => exact ⟨_, rfl⟩
    | unlogged hlog' => cases hlog.symm.trans hlog'
    | told hlog' hstops | untold hlog' hstops =>
      cases hlog.symm.trans hlog'
      cases hstops with
      | failed hrun' => cases hrun.symm.trans hrun'
      | refused hrun' hfault =>
        cases hrun.symm.trans hrun'
        cases hshown.symm.trans hfault
  · intro hlaws started hlog hshows
    have hnone {r : RunResult} {made : Host} (hrun : produce a started = .ok r made) :=
      showAll_buildExhibits_eq_none hlaws hshows hrun
    generalize build screen a host = result at hend
    cases hend with
    | reported hlog' hrun hshown =>
      cases hlog.symm.trans hlog'
      exact .inl ⟨_, _, hrun, rfl⟩
    | unlogged hlog' => cases hlog.symm.trans hlog'
    | told hlog' hstops hlines =>
      cases hlog.symm.trans hlog'
      cases hstops with
      | failed hrun => exact .inr ⟨_, _, _, hrun, hlines, rfl⟩
      | refused hrun hfault => cases (hnone hrun).symm.trans hfault
    | untold hlog' hstops hlines =>
      cases hlog.symm.trans hlog'
      cases hstops with
      | failed hrun =>
        obtain ⟨lines, hshown⟩ := exists_lines_telling hlaws (hshows.2 _ _ hrun)
        cases hlines.symm.trans hshown
      | refused hrun hfault => cases (hnone hrun).symm.trans hfault

/-! ## A name with a tag that ends nothing -/

/-- A tree with one folder. -/
def folderTree (folder : String) : Tree Content where
  entries := [([folder], .folder)]

/-- A host with this tree, in which version control knows no files. -/
def folderHost (folder : String) : Host :=
  Settings.hostOfTree (folderTree folder) [.finished 0 "" ""]

/-- Arguments that ask for a description in this folder and nothing else. -/
def folderArguments (folder : String) : Arguments where
  options := [("--no-db", none), ("--no-render", none), ("--dot-file", some (folder ++ "/b].dot"))]

/-- The settings for these arguments. -/
def folderSettings (folder : String) : Settings where
  projectRoot := "/"
  scanDirectories := ["/"]
  dotFile := .text (folder ++ "/b].dot")

/-- The host after version control has answered. -/
def answeredFolder (folder : String) (records : List LogRecord) : Host :=
  { folderHost folder with
    replies := []
    calls := [⟨["git", "-C", "/", "ls-files", "-z", "--cached"].map .text, .int 60⟩]
    records }

/-- The root is scanned. -/
private theorem startingAt_folderHost (folder : String) :
    Inventory.startingAt "/" (folderHost folder) = .ok ⟨.root, []⟩ (folderHost folder) := by
  have htext : (Path.ofText "/").text = "/" ∧ (Path.mk .root []).text = "/" := by
    decide
  -- The tree has no links, so the root is its own real path.
  have hcanonical : (folderHost folder).tree.canonical? (folderHost folder).folder "/" =
      some ⟨.root, []⟩ :=
    Settings.canonical?_hostOfTree _ (.inr rfl)
  apply Inventory.startingAt_of_lookup
  · rw [htext.1, hcanonical]
  · decide
  · rw [htext.2]
    exact Tree.lookup_root _

/-- Version control knows no files, so none are listed. -/
private theorem list_folderHost (folder : String) : ∃ records,
    Inventory.list (folderSettings folder).inventory (folderHost folder) =
      .ok [] (answeredFolder folder records) := by
  -- Version control answers that it knows no file.
  have hanswer : Inventory.trackedNames ⟨.root, []⟩ (folderSettings folder).timeout
      (folderHost folder) = .ok "" (answeredFolder folder []) := by
    have htext : (Path.mk .root []).text = "/" := by decide
    unfold Inventory.trackedNames
    rw [htext]
    rfl
  have hnames : (("".toList.splitOn '\x00').map String.ofList).filter (· != "") = [] := by
    decide
  have htracked : ∃ records, Inventory.listTracked "/" (folderSettings folder).extensions
      (folderSettings folder).timeout (folderHost folder) =
      .ok [] (answeredFolder folder records) := by
    unfold Inventory.listTracked
    rw [bind_of_ok _ (startingAt_folderHost folder), bind_of_ok _ hanswer, hnames]
    exact ⟨_, rfl⟩
  obtain ⟨records, htracked⟩ := htracked
  have hsorted : Inventory.sorted [] = [] := by
    simp [Inventory.sorted]
  obtain ⟨records', hlist⟩ := Inventory.list_of_one (r := (folderSettings folder).inventory) rfl
    htracked rfl
  exact ⟨records', hsorted ▸ hlist⟩

/-- Nothing is found there. -/
private theorem prepare_folderHost (folder : String) : ∃ text records,
    prepare (folderSettings folder) (folderHost folder) =
      .ok (.empty, text) (answeredFolder folder records) := by
  obtain ⟨records, hlist⟩ := list_folderHost folder
  have hlibraries : ∀ v ∈ (folderSettings folder).libraries, v.isText = true :=
    List.forall_mem_map.2 fun _ _ => rfl
  obtain ⟨c, hclassifier⟩ := Settings.classifier_ok hlibraries (answeredFolder folder records)
  -- Without files the graph is empty.
  have hbuild : ∃ records', buildGraph (folderSettings folder) []
      (answeredFolder folder records) = .ok .empty (answeredFolder folder records') := by
    unfold buildGraph
    rw [bind_of_ok _ hclassifier]
    exact ⟨_, rfl⟩
  obtain ⟨records', hbuild⟩ := hbuild
  unfold prepare
  rw [bind_of_ok _ hlist, bind_of_ok _ hbuild]
  exact ⟨_, _, rfl⟩

section Folder

variable {folder : String} (hfolder : folder = "a" ∨ folder = "[")
include hfolder

/-- The settings of the example are loaded. -/
private theorem loadSettings_folderHost :
    loadSettings (folderArguments folder) (folderHost folder) =
      .ok (folderSettings folder) (folderHost folder) := by
  have hproject :=
    (Settings.directoryOf_hostOfTree (folderHost folder).tree (folderHost folder).replies).1
  have hdirectories :=
    Settings.directoriesOf_hostOfTree (folderHost folder).tree (folderHost folder).replies
  have hentries : Settings.ofEntries
      [("project_root", .text "."), ("dot_file", .text (folder ++ "/b].dot"))]
      (folderHost folder) = .ok (folderSettings folder) (folderHost folder) := by
    unfold Settings.ofEntries
    refine (bind_of_ok _ (Act.workingPath_eq (folderHost folder))).trans ?_
    -- Five lists and the project root are read as they are.
    iterate 6 refine (bind_of_ok _ rfl).trans ?_
    refine (bind_of_ok _ hproject).trans ?_
    refine (bind_of_ok _ hdirectories).trans ?_
    rcases hfolder with rfl | rfl <;> rfl
  -- Neither of the two files that are looked for is there.
  have hmissing : (folderHost folder).tree.get? [".import-diagram.toml"] = none ∧
      (folderHost folder).tree.get? ["import-diagram.toml"] = none := by
    rcases hfolder with rfl | rfl <;> exact ⟨rfl, rfl⟩
  have hgather : Settings.gather none (settingsOf (folderArguments folder)) (folderHost folder) =
      .ok _ (folderHost folder) :=
    Settings.gather_hostOfTree hmissing.1 hmissing.2 _
  have hsaid : (Settings.withSwitches (settingsOf (folderArguments folder))).filter
      (fun e => Settings.isSaid e.2) =
      [("project_root", .text "."), ("dot_file", .text (folder ++ "/b].dot"))] := by
    rcases hfolder with rfl | rfl <;> rfl
  rw [hsaid] at hgather
  exact (bind_of_ok _ hgather).trans (tryCatch_of_ok _ hentries)

/-- The host is a plain one. -/
private theorem isPlain_answeredFolder (records : List LogRecord) :
    (answeredFolder folder records).IsPlain where
  folder := nofun
  isPlain := by
    -- The only entry is a folder.
    intro e he target
    obtain rfl := List.mem_singleton.1 he
    exact nofun
  isClosed := by
    change (folderTree folder).IsClosed
    exact Tree.isClosed_of_entries (by rcases hfolder with rfl | rfl <;> decide)
  isProper := by
    change (folderTree folder).IsProper
    rw [Tree.isProper_iff]
    unfold Place.IsProper
    rcases hfolder with rfl | rfl <;> decide
  logFile_eq := rfl

/-- The diagram goes into the folder. -/
private theorem outputPath_folderHost :
    (folderSettings folder).outputPath (folder ++ "/b].dot") = .ofPlace [folder, "b].dot"] := by
  rcases hfolder with rfl | rfl <;> decide

/-- The names on the way are proper ones. -/
private theorem isProper_folderHost :
    Place.IsProper [folder] ∧ Place.IsProper [folder, "b].dot"] := by
  unfold Place.IsProper
  rcases hfolder with rfl | rfl <;> decide

/-- The folder is there, so none is made. -/
private theorem makeFolders_folderHost (records : List LogRecord) :
    Act.makeFolders (.ofPlace [folder]) (answeredFolder folder records) =
      .ok () (answeredFolder folder records) := by
  have hhost := isPlain_answeredFolder hfolder records
  have hshort : isLongPath (Path.ofPlace [folder]).text = false ∧ isLongName folder = false ∧
      Act.hasNul (Path.ofPlace [folder]).text = false := by
    rcases hfolder with rfl | rfl <;> decide
  have hget : (folderTree folder).get? [folder] = some .folder := by
    rcases hfolder with rfl | rfl <;> rfl
  have hplace : (Path.ofPlace [folder]).place = [folder] := by
    rcases hfolder with rfl | rfl <;> decide
  -- The folder is found where its name says.
  refine Act.makeFolders_of_lookup hshort.2.2 ((hhost.isPlain.lookup_eq_ok_iff hhost.isClosed
    (isProper_folderHost hfolder).1.isStraight.isGrounded).2 ⟨hshort.1, ?_, rfl, ?_⟩)
  · exact ⟨rfl, hshort.2.1, trivial⟩
  · rw [hplace]
    exact hget

/-- Nothing stands where the description is going to be. -/
private theorem filePlace_folderHost (records : List LogRecord) :
    (answeredFolder folder records).tree.filePlace []
      (Path.ofPlace [folder, "b].dot"]).text = .ok [folder, "b].dot"] := by
  have hhost := isPlain_answeredFolder hfolder records
  have hshort : isLongPath (Path.ofPlace [folder, "b].dot"]).text = false ∧
      isLongName folder = false ∧ isLongName "b].dot" = false := by
    rcases hfolder with rfl | rfl <;> decide
  have hpasses : (folderTree folder).Passes [] [folder, "b].dot"] := by
    rcases hfolder with rfl | rfl <;> exact ⟨rfl, hshort.2.1, rfl, hshort.2.2, trivial⟩
  -- The place in the folder is free.
  have hspot : (folderTree folder).spotAt [folder, "b].dot"] = .vacant [folder, "b].dot"] := by
    refine Tree.spotAt_of_get?_eq_none ?_
    rcases hfolder with rfl | rfl <;> rfl
  have hplace : (Path.ofPlace [folder, "b].dot"]).place = [folder, "b].dot"] := by
    rcases hfolder with rfl | rfl <;> decide
  have hlocate : (answeredFolder folder records).tree.locate [] .made
      (Path.ofPlace [folder, "b].dot"]).text = .ok (.vacant [folder, "b].dot"]) := by
    refine (hhost.isPlain.locate_eq_ok_iff hhost.isClosed
      (isProper_folderHost hfolder).2.isStraight.isGrounded).2 ⟨hshort.1, hpasses, ?_⟩
    rw [hplace]
    exact hspot.symm
  rw [Tree.filePlace, hlocate]

/-- The description is written. -/
private theorem describe_folderHost (records : List LogRecord) (text : String) : ∃ path made,
    describe (folderSettings folder) ⟨false, false, true⟩ text (answeredFolder folder records) =
      .ok (some path) made ∧ path.text = "/" ++ folder ++ "/b].dot" := by
  have hpath := outputPath_folderHost hfolder
  have htext : (Path.ofPlace [folder, "b].dot"]).text = "/" ++ folder ++ "/b].dot" ∧
      (Path.ofPlace [folder, "b].dot"]).parent = .ofPlace [folder] ∧
      Act.hasNul (Path.ofPlace [folder, "b].dot"]).text = false := by
    rcases hfolder with rfl | rfl <;> decide
  have hmade := makeFolders_folderHost hfolder records
  have hplace := filePlace_folderHost hfolder records
  rw [← htext.2.1, ← hpath] at hmade
  rw [← hpath] at hplace
  have hnul : Act.hasNul ((folderSettings folder).outputPath (folder ++ "/b].dot")).text = false :=
    hpath.symm ▸ htext.2.2
  -- The folder is there and the place is free, so the diagram can be written.
  have hwrite := Act.writeBytes_of_filePlace hmade hnul hplace (Text.Utf8.encode text.toList)
  obtain ⟨made, hdescribe⟩ : ∃ made, describe (folderSettings folder) ⟨false, false, true⟩ text
      (answeredFolder folder records) =
      .ok (some ((folderSettings folder).outputPath (folder ++ "/b].dot"))) made :=
    describe_of_writeBytes rfl rfl hwrite
  exact ⟨_, made, hdescribe, by rw [hpath, htext.1]⟩

/-- The run for these arguments succeeds, and has no more to report than the description. -/
private theorem produce_folderHost : ∃ r made,
    produce (folderArguments folder) (folderHost folder) = .ok r made ∧
      ∃ path : Path, outputPaths r = [("Graph description", path)] ∧
        path.text = "/" ++ folder ++ "/b].dot" := by
  obtain ⟨text, records, hprepare⟩ := prepare_folderHost folder
  obtain ⟨path, made, hdescribe, hpath⟩ := describe_folderHost hfolder records text
  have hrun : run (folderSettings folder) ⟨false, false, true⟩ (folderHost folder) = .ok _ made :=
    run_of_steps hprepare rfl hdescribe rfl
  exact ⟨_, made, (bind_of_ok _ (loadSettings_folderHost hfolder)).trans hrun, path, rfl, hpath⟩

end Folder

/-- The log goes to no file. -/
private theorem startBuildLog_folderHost (folder : String) :
    startBuildLog (folderArguments folder) (folderHost folder) = .ok () (folderHost folder) :=
  rfl

/-- Where the folder is an ordinary one, the exit status is that of the run. -/
theorem build_ends_folder : Screen.plain.Laws ∧
    ShowsNoBracket (folderArguments "a") (folderHost "a") ∧ ∃ r made lines,
      produce (folderArguments "a") (folderHost "a") = .ok r made ∧
        build Screen.plain (folderArguments "a") (folderHost "a") =
          .ok 0 { made with printed := made.printed ++ lines } := by
  obtain ⟨r, made, hrun, path, houtputs, hpath⟩ := produce_folderHost (.inl rfl)
  have hshows : ShowsNoBracket (folderArguments "a") (folderHost "a") := by
    constructor
    · intro r' made' hrun'
      cases hrun.symm.trans hrun'
      refine .inr fun name hname => ?_
      have hnames : reportNames r false = ["/" ++ "a" ++ "/b].dot"] := by
        rw [reportNames, houtputs, List.map_singleton, hpath]
        rfl
      obtain rfl := List.mem_singleton.1 (hnames ▸ hname)
      decide
    · intro e made' hrun'
      cases hrun.symm.trans hrun'
  refine ⟨Screen.plain_laws, hshows, r, made, ?_⟩
  rcases (build_ends Screen.plain (folderArguments "a") (folderHost "a")).2.2.1 Screen.plain_laws _
    (startBuildLog_folderHost "a") hshows with ⟨_, _, hrun', hbuild⟩ | ⟨_, _, _, hrun', -⟩
  · cases hrun.symm.trans hrun'
    exact ⟨_, hrun, hbuild⟩
  · cases hrun.symm.trans hrun'

/-- What a plain screen says of a tag that ends nothing, at a position of a text. -/
def closerFault (position : Nat) : ScreenFault where
  name := "MarkupError"
  message := "closing tag '[/b]' at position " ++ toString position ++ " doesn't match any open tag"

/-- Where the name of the folder is a bracket, the settings are loaded and the run succeeds, and yet
the build ends with an error: the bracket and what follows it are read as a tag, which ends
nothing, in the report and then in what is told of that. -/
theorem build_of_closer : ∃ started r made stopped,
    startBuildLog (folderArguments "[") (folderHost "[") = .ok () started ∧
      produce (folderArguments "[") started = .ok r made ∧
      build Screen.plain (folderArguments "[") (folderHost "[") =
        .error (.screen (closerFault 42)) stopped := by
  obtain ⟨r, made, hrun, path, houtputs, hpath⟩ := produce_folderHost (.inr rfl)
  have hreport : (Screen.plain.showAll (buildExhibits (folderArguments "[") r)).2 =
      some (closerFault 27) := by
    obtain ⟨table, htable⟩ := Screen.plain_laws.shows_table _ (bracket_not_mem_summaryTable r)
    have hline : pathLine "Graph description" path =
        "Graph description: [green]/[/b].dot[/green]" := by
      rw [pathLine, hpath]
      rfl
    have hexhibits : buildExhibits (folderArguments "[") r =
        [.table (summaryTable r), .text "Graph description: [green]/[/b].dot[/green]"] := by
      rw [← hline]
      show .table (summaryTable r) :: outputExhibits r = _
      rw [outputExhibits, houtputs]
      rfl
    have hrefused : Screen.plain.lines (.text "Graph description: [green]/[/b].dot[/green]") =
        .error (closerFault 27) := by
      rfl
    rw [hexhibits, Screen.showAll_cons_of_ok htable, Screen.showAll, hrefused]
  have htold (host : Host) : Screen.plain.lines (telling (.screen (closerFault 27)) host) =
      .error (closerFault 42) := by
    have htext : errorLine "Unexpected error:" (closerFault 27).message =
        "[red]Unexpected error:[/red] closing tag '[/b]' at position 27 " ++
          "doesn't match any open tag" := by
      decide
    show Screen.plain.lines (.text (errorLine "Unexpected error:" (closerFault 27).message)) = _
    rw [htext]
    rfl
  have hlog := startBuildLog_folderHost "["
  have hend := buildEnd_build Screen.plain (folderArguments "[") (folderHost "[")
  generalize build Screen.plain (folderArguments "[") (folderHost "[") = result at hend
  cases hend with
  | reported hlog' hrun' hshown =>
    cases hlog.symm.trans hlog'
    cases hrun.symm.trans hrun'
    cases hreport.symm.trans hshown
  | unlogged hlog' => cases hlog.symm.trans hlog'
  | told hlog' hstops hlines =>
    cases hlog.symm.trans hlog'
    cases hstops with
    | failed hrun' => cases hrun.symm.trans hrun'
    | refused hrun' hfault =>
      cases hrun.symm.trans hrun'
      cases hreport.symm.trans hfault
      cases (htold _).symm.trans hlines
  | untold hlog' hstops hlines =>
    cases hlog.symm.trans hlog'
    cases hstops with
    | failed hrun' => cases hrun.symm.trans hrun'
    | refused hrun' hfault =>
      cases hrun.symm.trans hrun'
      cases hreport.symm.trans hfault
      cases (htold _).symm.trans hlines
      exact ⟨_, r, made, _, hlog, hrun, rfl⟩

end Console

end ImportAtlas

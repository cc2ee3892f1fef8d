import ImportAtlas.Host
import ImportAtlas.Proofs.Act
import ImportAtlas.Proofs.Tree.Outline
import ImportAtlas.Source
import Mathlib.Logic.Basic

/-!
# What logging changes

A log record changes nothing but the content of the log file, which grows. So after any number of
records every path leads to where it led before, and every file but the log file reads the same.

## Key results

- `Host.logged_log`: what a record changes
- `Host.Logged.readBytes_ok`: a file that could be read can be read again
-/

namespace ImportAtlas

/-- The bytes that are read from a file. Of a database these are its mark. -/
def Content.visible : Content → List UInt8
  | .bytes bs => bs
  | .database _ => Text.Utf8.encode "SQLite format 3\x00".toList

namespace Host

/-- The log is written to a file that is there, if it is written to a file. -/
def HasLogFile (host : Host) : Prop :=
  ∀ file ∈ host.logFile, ∃ content, host.tree.get? file.place = some (.file content)

/-- A path leads to the file that the log is written to. -/
def LogsTo (host : Host) (path : String) : Prop :=
  ∃ file ∈ host.logFile, ∃ entry, host.tree.lookup host.folder path = .ok (file.place, entry)

/-- Nothing has changed but for what the log has put behind the log file. -/
structure Logged (host host' : Host) : Prop where
  folder_eq : host'.folder = host.folder
  logFile_eq : host'.logFile = host.logFile
  get?_eq : ∀ place, (∀ file ∈ host.logFile, file.place ≠ place) →
    host'.tree.get? place = host.tree.get? place
  grown : ∀ file ∈ host.logFile, ∀ content, host.tree.get? file.place = some (.file content) →
    ∃ content' more, host'.tree.get? file.place = some (.file content') ∧
      content'.visible = content.visible ++ more

variable {host host' host'' : Host} {path : String} {bytes : List UInt8}

namespace Logged

/-- Nothing need be logged. -/
theorem refl (host : Host) : host.Logged host where
  folder_eq := rfl
  logFile_eq := rfl
  get?_eq _ _ := rfl
  grown _ _ content h := ⟨content, [], h, (List.append_nil _).symm⟩

/-- What is logged twice is logged. -/
theorem trans (h : host.Logged host') (h' : host'.Logged host'') : host.Logged host'' where
  folder_eq := h'.folder_eq.trans h.folder_eq
  logFile_eq := h'.logFile_eq.trans h.logFile_eq
  get?_eq place hplace :=
    (h'.get?_eq place (h.logFile_eq ▸ hplace)).trans (h.get?_eq place hplace)
  grown file hfile content hget := by
    -- What the second part adds stands behind what the first has added.
    obtain ⟨content₁, more₁, hget₁, hgrown₁⟩ := h.grown file hfile content hget
    obtain ⟨content₂, more₂, hget₂, hgrown₂⟩ := h'.grown file (h.logFile_eq ▸ hfile) content₁ hget₁
    exact ⟨content₂, more₁ ++ more₂, hget₂, by rw [hgrown₂, hgrown₁, List.append_assoc]⟩

/-- The log file is still there. -/
theorem hasLogFile (h : host.Logged host') (hlog : host.HasLogFile) : host'.HasLogFile := by
  intro file hfile
  rw [h.logFile_eq] at hfile
  obtain ⟨content, hget⟩ := hlog file hfile
  obtain ⟨content', -, hget', -⟩ := h.grown file hfile content hget
  exact ⟨content', hget'⟩

/-- The trees differ in nothing but the content of the log file. -/
theorem sameOutline (h : host.Logged host') (hlog : host.HasLogFile) :
    host.tree.SameOutline host'.tree := by
  intro place
  by_cases hplace : ∀ file ∈ host.logFile, file.place ≠ place
  · -- Away from the log file nothing has changed.
    rw [h.get?_eq place hplace]
  · simp only [not_forall, not_not] at hplace
    obtain ⟨file, hfile, rfl⟩ := hplace
    obtain ⟨content, hget⟩ := hlog file hfile
    obtain ⟨content', -, hget', -⟩ := h.grown file hfile content hget
    rw [hget, hget']
    rfl

/-- What leads to a file still does, and nothing else does, since the log file is one already. -/
theorem leadsToFile_eq (h : host.Logged host') (hlog : host.HasLogFile) (path : String) :
    host'.tree.leadsToFile host'.folder path = host.tree.leadsToFile host.folder path := by
  rw [h.folder_eq, (h.sameOutline hlog).leadsToFile_eq]

end Logged

/-- What is put at the end of a file stands behind what was there. -/
theorem get?_appendTo {tree : Tree Content} {place : Place} {content : Content}
    (hget : tree.get? place = some (.file content)) (text : String) :
    (∀ other, place ≠ other → (Act.appendTo tree place text).get? other = tree.get? other) ∧
      ∃ content' more, (Act.appendTo tree place text).get? place = some (.file content') ∧
        content'.visible = content.visible ++ more := by
  -- The root is a folder, so a file stands somewhere else.
  have hplace : place ≠ [] := by
    rintro rfl
    simp [Tree.get?_nil] at hget
  unfold Act.appendTo
  rw [hget]
  cases content with
  | database tables => exact ⟨fun _ _ => rfl, _, [], hget, (List.append_nil _).symm⟩
  | bytes bs =>
    exact ⟨fun other hne => Tree.get?_put_of_ne _ hne _, _, _, Tree.get?_put_self _ hplace _, rfl⟩

/-- A record is logged, and changes the log file at most. -/
theorem logged_log (hlog : host.HasLogFile) (level : LogLevel) (channel message : String) :
    ∃ host', Act.log level channel message host = .ok () host' ∧ host.Logged host' := by
  refine ⟨_, rfl, rfl, rfl, ?_, ?_⟩
  -- The record is written if it is of a level that the log takes.
  · intro place hplace
    dsimp only
    split
    · rename_i file hkept
      have hfile : host.logFile = some file := (Option.filter_eq_some_iff.1 hkept).1
      obtain ⟨content, hget⟩ := hlog file hfile
      exact (get?_appendTo hget _).1 place (hplace file hfile)
    · rfl
  · intro file hfile content hget
    dsimp only
    split
    · rename_i file' hkept
      have hfile' : host.logFile = some file' := (Option.filter_eq_some_iff.1 hkept).1
      obtain rfl : file = file' := Option.some_inj.1 (hfile.symm.trans hfile')
      exact (get?_appendTo hget _).2
    · exact ⟨content, [], hget, (List.append_nil _).symm⟩

/-- Without a log file none is missing. -/
theorem hasLogFile_of_unlogged (hlog : host.logFile = none) : host.HasLogFile := by
  rw [HasLogFile, hlog]
  exact nofun

/-- Without a log file no path is that of one. -/
theorem not_logsTo_of_unlogged (hlog : host.logFile = none) (path : String) :
    ¬ host.LogsTo path := by
  rw [LogsTo, hlog]
  exact nofun

/-- Without a log file a record is all that logging leaves. -/
theorem log_of_unlogged (hlog : host.logFile = none) (level : LogLevel)
    (channel message : String) : ∃ records,
    Act.log level channel message host = .ok () { host with records } := by
  cases host
  cases hlog
  exact ⟨_, rfl⟩

/-! ## Reading again -/

/-- No question about a path with a NUL is answered. -/
theorem ask_of_hasNul {β : Type} (hnul : Act.hasNul path = true)
    (question : Tree Content → Place → String → Except AccessFault β) :
    Act.ask path question host = .error .nul host := by
  simp only [Act.ask, hnul, ↓reduceIte]
  rfl

/-- Any other question is put to the tree. -/
theorem ask_of_not_hasNul {β : Type} (host : Host) (hnul : Act.hasNul path = false)
    (question : Tree Content → Place → String → Except AccessFault β) :
    Act.ask path question host =
      Act.ofExcept (Error.access · path) (question host.tree host.folder path) host := by
  simp only [Act.ask, hnul, Bool.false_eq_true, ↓reduceIte]
  rfl

/-- What has content is a file. -/
theorem content_eq_ok_iff {content : Content} :
    host.tree.content host.folder path = .ok content ↔
      ∃ place, host.tree.lookup host.folder path = .ok (place, .file content) := by
  unfold Tree.content
  split
  · rename_i place content' hlookup
    rw [hlookup]
    simp
  · rename_i found hfile hlookup
    rw [hlookup]
    simp only [reduceCtorEq, false_iff, not_exists, Except.ok.injEq]
    -- What was found is no file, so it has no content to give.
    rintro place rfl
    exact hfile _ _ rfl
  · rename_i fault hlookup
    rw [hlookup]
    simp

/-- A path is read if it leads to a file. -/
theorem readBytes_eq_ok_iff :
    Act.readBytes path host = .ok bytes host ↔ Act.hasNul path = false ∧
      ∃ place content, host.tree.lookup host.folder path = .ok (place, .file content) ∧
        content.visible = bytes := by
  have hcontent : (∃ place content, host.tree.lookup host.folder path = .ok (place, .file content) ∧
      content.visible = bytes) ↔
      ∃ content, host.tree.content host.folder path = .ok content ∧ content.visible = bytes := by
    simp only [content_eq_ok_iff]
    exact ⟨fun ⟨place, content, h, hb⟩ => ⟨content, ⟨place, h⟩, hb⟩,
      fun ⟨content, ⟨place, h⟩, hb⟩ => ⟨place, content, h, hb⟩⟩
  rw [hcontent]
  -- With a NUL the question is not put to the tree at all.
  cases hnul : Act.hasNul path with
  | true =>
    rw [Act.readBytes, EStateM.bind_of_error _ (ask_of_hasNul hnul Tree.content)]
    simp
  | false =>
    have hask := ask_of_not_hasNul host hnul Tree.content
    cases hread : host.tree.content host.folder path with
    | error fault =>
      rw [hread] at hask
      rw [Act.readBytes, EStateM.bind_of_error _ hask]
      simp
    | ok content =>
      rw [hread] at hask
      rw [Act.readBytes, EStateM.bind_of_ok _ hask]
      cases content <;> simp [Content.visible, pure, EStateM.pure]

/-- What could be read still can, with more behind it only in the log file. -/
theorem Logged.readBytes_ok (h : host.Logged host') (hlog : host.HasLogFile)
    (hread : Act.readBytes path host = .ok bytes host) :
    ∃ more, Act.readBytes path host' = .ok (bytes ++ more) host' ∧
      (¬ host.LogsTo path → more = []) := by
  obtain ⟨hnul, place, content, hlookup, rfl⟩ := readBytes_eq_ok_iff.1 hread
  have hget := Tree.get?_of_lookup hlookup
  -- The path still leads to the same place, where there may be another content.
  have hlookup' (content' : Content) (hget' : host'.tree.get? place = some (.file content')) :
      host'.tree.lookup host'.folder path = .ok (place, .file content') := by
    rw [h.folder_eq, (h.sameOutline hlog).lookup_eq, hlookup]
    simp only [Except.map, hget', Option.getD_some]
  by_cases hplace : ∀ file ∈ host.logFile, file.place ≠ place
  · refine ⟨[], readBytes_eq_ok_iff.2 ⟨hnul, place, content, hlookup' content ?_, ?_⟩, fun _ => rfl⟩
    · rw [h.get?_eq place hplace, hget]
    · rw [List.append_nil]
  · simp only [not_forall, not_not] at hplace
    obtain ⟨file, hfile, rfl⟩ := hplace
    obtain ⟨content', more, hget', hgrown⟩ := h.grown file hfile content hget
    exact ⟨more, readBytes_eq_ok_iff.2 ⟨hnul, _, content', hlookup' content' hget', hgrown⟩,
      fun hnot => absurd ⟨file, hfile, _, hlookup⟩ hnot⟩

/-- A file is read as text from the bytes that its path leads to. -/
theorem readSource_ok {p : Path} (hread : Act.readBytes p.text host = .ok bytes host) :
    readSource p host = .ok (String.ofList (Text.Utf8.decodeLenient bytes)) host := by
  unfold readSource
  rw [EStateM.bind_of_ok _ (EStateM.tryCatch_of_ok _ hread)]
  rfl

end Host

end ImportAtlas

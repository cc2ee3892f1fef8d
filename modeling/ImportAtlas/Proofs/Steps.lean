import ImportAtlas.Proofs.Act
import ImportAtlas.Run

/-!
# The steps of a run

A run prepares its graph, saves it, describes it and depicts it, and each step may be left out but
the first one.

## Key results

- `run_eq`: a run is these steps
- `gives_run_steps`, `run_of_steps`: a run succeeds when its steps do
-/

namespace ImportAtlas

open EStateM

/-- What a run does before it writes anything. -/
def prepare (s : Settings) : Act (ImportGraph × String) := do
  let paths ← Inventory.list s.inventory
  let graph ← buildGraph s paths
  return (graph, graph.dotText (← s.linkText graph))

/-- How a run saves its graph. -/
def persist (s : Settings) (outputs : Outputs) (g : ImportGraph) : Act (Option Path) := do
  if outputs.persist then
    let path ← s.outputFile s.databaseFile
    Store.session path true (Store.save g)
    return some path
  else
    return none

/-- How a run writes its diagram. -/
def describe (s : Settings) (outputs : Outputs) (text : String) : Act (Option Path) := do
  if outputs.describe || outputs.render then
    let path ← s.outputFile s.dotFile
    writeDiagram text path
    return some path
  else
    return none

/-- How a run has its diagram rendered. -/
def depict (s : Settings) (outputs : Outputs) : Act (Option Path) := do
  if outputs.render then
    let path := s.outputPath s.imageFile
    s.layout.render (← s.outputFile s.dotFile) path
    return some path
  else
    return none

theorem run_eq (s : Settings) (outputs : Outputs) : run s outputs = (do
    let (graph, dotText) ← prepare s
    let databasePath ← persist s outputs graph
    let dotPath ← describe s outputs dotText
    let imagePath ← depict s outputs
    return { graph, dotText, cycles := graph.cycles, databasePath, dotPath, imagePath }) := by
  unfold run prepare persist describe depict
  cases outputs.persist <;> cases outputs.describe <;> cases outputs.render <;> simp

variable {s : Settings} {outputs : Outputs} {host hostA hostB hostC host' : Host}
  {graph : ImportGraph} {dotText : String} {databasePath dotPath imagePath : Option Path}

/-- The path of an output file is there if its name is a text. -/
theorem asks_outputFile (s : Settings) (host : Host) (v : Value) :
    Asks (s.outputFile v) host (fun path => ∃ file, v = .text file ∧ path = s.outputPath file)
      fun _ => True := by
  unfold Settings.outputFile
  refine Asks.map ?_
  cases v with
  | text file => exact asks_pure ⟨file, rfl, rfl⟩
  | _ => exact asks_throw trivial

/-- A file name is put behind the project root. -/
theorem outputFile_text (s : Settings) (host : Host) (file : String) :
    s.outputFile (.text file) host = .ok (s.outputPath file) host :=
  rfl

/-- A run that succeeds has gone through its four steps. -/
theorem gives_run_steps (s : Settings) (outputs : Outputs) (host : Host) :
    Gives (run s outputs) host fun result host' => ∃ hostA hostB hostC,
      prepare s host = .ok (result.graph, result.dotText) hostA ∧
      persist s outputs result.graph hostA = .ok result.databasePath hostB ∧
      describe s outputs result.dotText hostB = .ok result.dotPath hostC ∧
      depict s outputs hostC = .ok result.imagePath host' ∧
      result.cycles = result.graph.cycles := by
  intro result host' hrun
  rw [run_eq] at hrun
  -- A run that returns passed its four steps one after the other.
  obtain ⟨⟨graph, dotText⟩, hostA, hprepare, hafterA⟩ := bind_eq_ok_iff.1 hrun
  obtain ⟨databasePath, hostB, hpersist, hafterB⟩ := bind_eq_ok_iff.1 hafterA
  obtain ⟨dotPath, hostC, hdescribe, hafterC⟩ := bind_eq_ok_iff.1 hafterB
  obtain ⟨imagePath, _, hdepict, hresult⟩ := bind_eq_ok_iff.1 hafterC
  cases hresult
  exact ⟨hostA, hostB, hostC, hprepare, hpersist, hdescribe, hdepict, rfl⟩

/-- Four steps that succeed make a run. -/
theorem run_of_steps (hprepare : prepare s host = .ok (graph, dotText) hostA)
    (hpersist : persist s outputs graph hostA = .ok databasePath hostB)
    (hdescribe : describe s outputs dotText hostB = .ok dotPath hostC)
    (hdepict : depict s outputs hostC = .ok imagePath host') :
    run s outputs host =
      .ok ⟨graph, dotText, graph.cycles, databasePath, dotPath, imagePath⟩ host' := by
  rw [run_eq, bind_of_ok _ hprepare]
  dsimp only
  rw [bind_of_ok _ hpersist, bind_of_ok _ hdescribe, bind_of_ok _ hdepict]
  rfl

/-- A diagram is described if its text can be written. -/
theorem describe_of_writeBytes {file text : String} (hfile : s.dotFile = .text file)
    (hwanted : (outputs.describe || outputs.render) = true)
    (hwrite : Act.writeBytes (s.outputPath file) (Text.Utf8.encode text.toList) host =
      .ok () hostA) :
    ∃ host', describe s outputs text host = .ok (some (s.outputPath file)) host' := by
  -- What is left of the step after the writing is the record, which never fails.
  obtain ⟨host', hdiagram⟩ : ∃ host',
      writeDiagram text (s.outputPath file) host = .ok () host' := by
    unfold writeDiagram
    exact ⟨_, (bind_of_ok _ (tryCatch_of_ok _ hwrite)).trans rfl⟩
  refine ⟨host', ?_⟩
  unfold describe
  rw [if_pos hwanted, hfile, bind_of_ok _ (outputFile_text s host file), bind_of_ok _ hdiagram]
  rfl

/-- No image is made unless it is asked for. -/
theorem depict_of_not_render (s : Settings) (hrender : outputs.render = false) :
    depict s outputs host = .ok none host := by
  rw [depict, hrender]
  rfl

/-- The graph of a preparation is built from what was listed. -/
theorem gives_prepare_built (s : Settings) (host : Host) :
    Gives (prepare s) host fun prepared _ => ∃ paths listed built,
      Inventory.list s.inventory host = .ok paths listed ∧
      buildGraph s paths listed = .ok prepared.1 built := by
  intro prepared host' hprepare
  unfold prepare at hprepare
  obtain ⟨paths, listed, hlist, hafter⟩ := bind_eq_ok_iff.1 hprepare
  obtain ⟨graph, built, hbuild, hlast⟩ := bind_eq_ok_iff.1 hafter
  obtain ⟨link, _, -, hresult⟩ := bind_eq_ok_iff.1 hlast
  cases hresult
  exact ⟨paths, listed, built, hlist, hbuild⟩

end ImportAtlas

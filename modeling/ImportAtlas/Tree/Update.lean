import ImportAtlas.Tree.Locate

/-!
# Changing a file tree

Making folders, writing files, taking files away. An operation that fails leaves the tree as it
is. Writing goes through links and makes the file that a dangling link points to; taking away and
making folders do not follow a link that is the last name.
-/

namespace ImportAtlas.Tree

variable {α : Type}

/-- Makes the folder that a path names; nothing may stand there, not even a link. -/
def makeFolder (t : Tree α) (here : Place) (path : String) : Except AccessFault (Tree α) :=
  match t.locate here .kept path with
  | .ok (.vacant place) => .ok (t.put place .folder)
  | .ok (.present _ _) => .error .occupied
  | .error fault => .error fault

/-- Whether a path leads to a file. -/
def leadsToFile (t : Tree α) (here : Place) (path : String) : Bool :=
  match t.lookup here path with
  | .ok (_, .file _) => true
  | _ => false

/-- The place of the file that a path leads to, or of the file that writing to it makes. -/
def filePlace (t : Tree α) (here : Place) (path : String) : Except AccessFault Place :=
  match t.locate here .made path with
  | .ok (.vacant place) => .ok place
  | .ok (.present place (.file _)) => .ok place
  | .ok (.present _ _) => .error .isFolder
  | .error fault => .error fault

/-- Writes a file, over its content if it is there already. -/
def writeFile (t : Tree α) (here : Place) (path : String) (content : α) :
    Except AccessFault (Tree α) :=
  (t.filePlace here path).map fun place => t.put place (.file content)

/-- The content of a file. -/
def content (t : Tree α) (here : Place) (path : String) : Except AccessFault α :=
  match t.lookup here path with
  | .ok (_, .file content) => .ok content
  | .ok _ => .error .isFolder
  | .error fault => .error fault

/-- Takes the file or link away that a path names. -/
def removeFile (t : Tree α) (here : Place) (path : String) : Except AccessFault (Tree α) :=
  match t.locate here .kept path with
  | .ok (.present _ .folder) => .error .isFolder
  | .ok (.present place _) => .ok (t.erase place)
  | .ok (.vacant _) => .error .missing
  | .error fault => .error fault

theorem writeFile_eq_ok_iff {t t' : Tree α} {here : Place} {path : String} {content : α} :
    t.writeFile here path content = .ok t' ↔
      ∃ place, t.filePlace here path = .ok place ∧ t' = t.put place (.file content) := by
  unfold writeFile
  cases t.filePlace here path with
  | error fault => simp [Except.map]
  | ok place => simp [Except.map, eq_comm]

/-- What is read is what was written. -/
theorem get?_of_writeFile {t t' : Tree α} {here place : Place} {path : String} {content : α}
    (hp : t.filePlace here path = .ok place) (hne : place ≠ [])
    (h : t.writeFile here path content = .ok t') : t'.get? place = some (.file content) := by
  obtain ⟨place', hp', rfl⟩ := writeFile_eq_ok_iff.1 h
  cases hp.symm.trans hp'
  exact get?_put_self t hne _

end ImportAtlas.Tree

import ImportAtlas.Tree.Canonical

/-!
# Places of database files

The path of a database file is put together name by name before the file is opened: `.` is left
out, `..` takes the last name back, of which there must be one, and links are followed, also behind
the last name. Names that are missing are kept, so that what is missing may still be left again by
`..`. A path must not get too long, neither on the way nor with the names of the files that go with
a database.
-/

namespace ImportAtlas

namespace Store

/-- How many bytes the path of a database file may have on the way. -/
def pathLimit : Nat := 511

/-- How many links the path of a database file may go through. -/
def maxLinks : Nat := 200

/-- What is put behind the path of a database for the file that undoes a change. -/
def journalSuffix : String := "-journal"

/-- How many bytes the path of a place has. -/
def pathSize (place : Place) : Nat :=
  place.foldl (fun n name => n + 1 + name.utf8ByteSize) 0

variable {α : Type}

/-- Whether nothing can be asked about `name` in the folder at `here`, be it there or missing. -/
def isBlocked (t : Tree α) (here : Place) (name : String) : Bool :=
  let above := (List.range (here.length + 1)).map here.take
  above.any (fun place =>
    match t.get? place with
    | some (.file _) => true
    | _ => false) ||
  (t.isFolder here && isLongName name)

/-- Puts the segments of a path together from `here`, through at most `budget` links. -/
def follow (t : Tree α) (budget : Nat) (here : Place) (segments : List String) : Option Place :=
  match segments with
  | [] => some here
  | segment :: rest =>
    if segment = "" ∨ segment = "." then follow t budget here rest
    else if segment = ".." then
      -- Above the root there is nothing.
      if here = [] then none else follow t budget here.dropLast rest
    else if pathLimit < pathSize (here ++ [segment]) then none
    else if isBlocked t here segment then none
    else
      match t.get? (here ++ [segment]) with
      | some (.link target) =>
        match budget with
        | 0 => none
        | budget + 1 =>
          follow t budget (startOf here target) (segmentsOf target ++ rest)
      | _ => follow t budget (here ++ [segment]) rest
termination_by (budget, segments.length)

/-- The place of the database file that a spelled path names, seen from the folder `here`. -/
def placeOf? (t : Tree α) (here : Place) (path : String) : Option Place :=
  (follow t maxLinks (startOf here path) (segmentsOf path)).filter fun place =>
    place != [] && pathSize place + journalSuffix.utf8ByteSize ≤ pathLimit + 1

/-- Whether the file that undoes a change can be made beside a database. -/
def hasJournalName (place : Place) : Bool :=
  place.getLast?.any fun name => !isLongName (name ++ journalSuffix)

end Store

end ImportAtlas

import ImportAtlas.Path.Basic
import ImportAtlas.Tree.Basic

/-!
# From paths to places

A spelled path is followed name by name from the working directory or from the root. Links are
followed, forty of them at most. A path leads to an entry, or to a free spot in a folder if only
its last name is missing, or nowhere. A path of 4096 bytes or more leads nowhere.
-/

namespace ImportAtlas

/-- Where a path leads: to an entry, or to a free name in a folder. -/
inductive Spot (α : Type) where
  | present (place : Place) (entry : Entry α)
  | vacant (place : Place)
  deriving Repr

/-- What is done at the last name of a path. -/
inductive LastStep where
  /-- A link is kept as it is. -/
  | kept
  /-- A link is followed. -/
  | followed
  /-- A link is followed, and what is missing is to be made as a file, so that no slash may come
  behind it. -/
  | made
  deriving DecidableEq, Repr

/-- The steps of a spelled path. A slash at its end is one more step without a name, which stays in
place and only a folder allows. -/
def stepsOf (path : String) : List String :=
  let names := (path.toList.splitOn '/').map String.ofList
  let steps := names.filter (· != "")
  if names.getLast? = some "" && !steps.isEmpty then steps ++ [""] else steps

/-- How many links a path may go through. -/
def linkBudget : Nat := 40

/-- Whether `name` is too long for an entry. -/
def isLongName (name : String) : Bool :=
  255 < name.utf8ByteSize

/-- Whether a spelled path is too long to be followed. -/
def isLongPath (path : String) : Bool :=
  4096 ≤ path.utf8ByteSize

/-- Where a spelled path starts, seen from the folder `here`. -/
def startOf (here : Place) (path : String) : Place :=
  if path.toList.head? = some '/' then [] else here

namespace Tree

variable {α : Type}

/-- Follows `steps` from `here`, through at most `budget` links. -/
def walk (t : Tree α) (last : LastStep) (budget : Nat) (here : Place) (steps : List String) :
    Except AccessFault (Spot α) :=
  match steps with
  | [] =>
    match t.get? here with
    | some entry => .ok (.present here entry)
    | none => .error .missing
  | step :: rest =>
    if !t.isFolder here then .error .notFolder
    else if step = "" ∨ step = "." then walk t last budget here rest
    else if step = ".." then walk t last budget here.dropLast rest
    else if last = .made ∧ rest = [""] then .error .isFolder
    else if isLongName step then .error .longName
    else
      match t.get? (here ++ [step]) with
      -- Only the last name may be missing.
      | none => if rest = [] then .ok (.vacant (here ++ [step])) else .error .missing
      | some (.link target) =>
        if rest = [] ∧ last = .kept then
          .ok (.present (here ++ [step]) (.link target))
        else
          -- The steps of the target come before those that are left.
          match budget with
          | 0 => .error .manyLinks
          | budget + 1 => walk t last budget (startOf here target) (stepsOf target ++ rest)
      | some _ => walk t last budget (here ++ [step]) rest
termination_by (budget, steps.length)

/-- Where a spelled path leads, seen from the folder `here`. The empty path leads nowhere. -/
def locate (t : Tree α) (here : Place) (last : LastStep) (path : String) :
    Except AccessFault (Spot α) :=
  if path = "" then .error .missing
  else if isLongPath path then .error .longName
  else t.walk last linkBudget (startOf here path) (stepsOf path)

/-- The entry that a path leads to. -/
def lookup (t : Tree α) (here : Place) (path : String) : Except AccessFault (Place × Entry α) :=
  match t.locate here .followed path with
  | .ok (.present place entry) => .ok (place, entry)
  | .ok (.vacant _) => .error .missing
  | .error fault => .error fault

end Tree

end ImportAtlas

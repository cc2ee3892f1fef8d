import ImportAtlas.Dictionary
import ImportAtlas.Toml.Moment
import ImportAtlas.Toml.Number

/-!
# Values

A value is a text, a truth value, a number, a date or time, a list in brackets, or a table in
braces. Lists may go over several lines and end in a comma; tables in braces stand on one line.
A key of such a table may have dots, which makes tables inside it.
-/

namespace ImportAtlas.Toml

/-- Changes the table behind a path of keys inside a table. Missing tables are made; a list leads
on to its last item if `throughLists` is set. None if the path meets a value of another kind. -/
def alterAt (throughLists : Bool)
    (change : Dictionary String Value → Option (Dictionary String Value)) :
    List String → Dictionary String Value → Option (Dictionary String Value)
  | [], table => change table
  | k :: ks, table =>
    match table.get? k with
    | none => (alterAt throughLists change ks []).map fun inner => table.put k (.table inner)
    | some (.table inner) =>
      (alterAt throughLists change ks inner).map fun inner => table.put k (.table inner)
    -- The way through a list goes on in the last table of it.
    | some (.list items) =>
      if throughLists then
        match items.getLast? with
        | some (.table inner) =>
          (alterAt throughLists change ks inner).map fun inner =>
            table.put k (.list (items.dropLast ++ [.table inner]))
        | _ => none
      else
        none
    | some _ => none

/-- Puts a value to a key that is not there yet. -/
def putNew (key : String) (value : Value) (table : Dictionary String Value) :
    Option (Dictionary String Value) :=
  if table.has key then none else some (table.put key value)

/-- Whether a value is a list or a table. -/
def isNest : Value → Bool
  | .table _ | .list _ => true
  | _ => false

/-- Whether one of the closed paths leads to `key` or above it. -/
def isClosed (closed : List (List String)) (key : List String) : Bool :=
  closed.any fun path => path.isPrefixOf key

/-- How much room there is for values inside values: a list takes two units, a table three. -/
def nestingRoom : Nat := 980

/-- The room inside a value that takes `size` units of `room`. -/
def enter (size room : Nat) : Reading Nat :=
  if size ≤ room then .ok (room - size) else .error .tooDeep

mutual

/-- A value, with at most `fuel` steps into lists and tables. -/
def value : Nat → Nat → List Char → Reading (Value × List Char)
  | 0, _, _ => .error .malformed
  | fuel + 1, room, s =>
    match s with
    | '"' :: _ | '\'' :: _ => do
      let (content, rest) ← quotedText s
      return (.text (String.ofList content), rest)
    | '[' :: rest => do
      let room ← enter 2 room
      let rest ← skipGaps rest
      match rest with
      | ']' :: rest => return (.list [], rest)
      | _ =>
        let (items, rest) ← listItems fuel room rest
        return (.list items, rest)
    | '\x7b' :: rest => do
      let room ← enter 3 room
      match skipSpaces rest with
      | '\x7d' :: rest => return (.table [], rest)
      | rest => tableEntries fuel room [] [] rest
    | _ =>
      match afterMark? "true" s, afterMark? "false" s, moment s with
      | some rest, _, _ => .ok (.bool true, rest)
      | _, some rest, _ => .ok (.bool false, rest)
      | _, _, .moment m rest => .ok (.moment m, rest)
      | _, _, .noSuchDay => .error .malformed
      | _, _, .nothing => number s

/-- The items of a list from the next one on, up to the closing bracket. -/
def listItems : Nat → Nat → List Char → Reading (List Value × List Char)
  | 0, _, _ => .error .malformed
  | fuel + 1, room, s => do
    let (item, s) ← value fuel room s
    let s ← skipGaps s
    match s with
    | ']' :: s => return ([item], s)
    | ',' :: s =>
      let s ← skipGaps s
      match s with
      | ']' :: s => return ([item], s)
      | _ =>
        let (items, s) ← listItems fuel room s
        return (item :: items, s)
    | _ => .error .malformed

/-- The entries of a table from the next one on, up to the closing brace. Nothing may be added
below the keys in `closed`. -/
def tableEntries : Nat → Nat → List (List String) → Dictionary String Value → List Char →
    Reading (Value × List Char)
  | 0, _, _, _, _ => .error .malformed
  | fuel + 1, room, closed, table, s => do
    let (path, s) ← key s
    let s ← after? '=' s
    let (v, s) ← value fuel room (skipSpaces s)
    if isClosed closed path then
      throw .malformed
    let table ← alterAt false (putNew (path.getLastD "") v) path.dropLast table
    match skipSpaces s with
    | '\x7d' :: s => return (.table table, s)
    | ',' :: s =>
      tableEntries fuel room (if isNest v then path :: closed else closed) table (skipSpaces s)
    | _ => .error .malformed

end

/-- A key and its value. Each step into a list or table takes a character or two. -/
def keyValue (s : List Char) : Reading ((List String × Value) × List Char) := do
  let (path, s) ← key s
  let s ← after? '=' s
  let (v, s) ← value (2 * s.length + 2) nestingRoom (skipSpaces s)
  return ((path, v), s)

end ImportAtlas.Toml

import ImportAtlas.Dictionary
import ImportAtlas.Text.Quoted

/-!
# File trees

A tree has an entry at each place: a file with its content, a folder, or a link to another path. A
place is given by the names that lead to it from the root, none of them a link; the root is always
a folder.
-/

namespace ImportAtlas

/-- Names from the root down to an entry. -/
abbrev Place := List String

/-- What stands at a place. -/
inductive Entry (α : Type) where
  | file (content : α)
  | folder
  | link (target : String)
  deriving Repr

/-- The entries of a file tree other than the root, by place. -/
structure Tree (α : Type) where
  entries : Dictionary Place (Entry α)

/-- Why a path cannot be used. -/
inductive AccessFault where
  /-- Nothing stands there. -/
  | missing
  /-- Something stands there already. -/
  | occupied
  /-- The path goes on behind something that is no folder. -/
  | notFolder
  /-- A folder stands where a file is wanted. -/
  | isFolder
  /-- A name is too long to be one. -/
  | longName
  /-- The path goes through too many links. -/
  | manyLinks
  deriving DecidableEq, Repr

namespace AccessFault

/-- The number by which systems know the fault. -/
def code : AccessFault → Nat
  | missing => 2
  | occupied => 17
  | notFolder => 20
  | isFolder => 21
  | longName => 36
  | manyLinks => 40

/-- The fault in words. -/
def words : AccessFault → String
  | missing => "No such file or directory"
  | occupied => "File exists"
  | notFolder => "Not a directory"
  | isFolder => "Is a directory"
  | longName => "File name too long"
  | manyLinks => "Too many levels of symbolic links"

/-- The report of a fault met with a path. -/
def text (fault : AccessFault) (path : String) : String :=
  "[Errno " ++ toString fault.code ++ "] " ++ fault.words ++ ": " ++ quotedString path

end AccessFault

namespace Tree

variable {α : Type}

/-- The tree of the root alone. -/
def empty : Tree α :=
  ⟨[]⟩

/-- The entry at a place. -/
def get? (t : Tree α) (place : Place) : Option (Entry α) :=
  if place = [] then some .folder else Dictionary.get? t.entries place

/-- Puts an entry at a place, over what stands there. -/
def put (t : Tree α) (place : Place) (entry : Entry α) : Tree α :=
  ⟨Dictionary.put t.entries place entry⟩

/-- Takes the entry at a place away. -/
def erase (t : Tree α) (place : Place) : Tree α :=
  ⟨t.entries.filter fun e => e.1 != place⟩

/-- Whether a folder stands at a place. -/
def isFolder (t : Tree α) (place : Place) : Bool :=
  match t.get? place with
  | some .folder => true
  | _ => false

/-- The places strictly below a folder, with their entries. -/
def below (t : Tree α) (place : Place) : List (Place × Entry α) :=
  t.entries.filter fun e => place.isPrefixOf e.1 && e.1 != place

/-- The places of links. -/
def links (t : Tree α) : List Place :=
  t.entries.filterMap fun
    | (place, .link _) => some place
    | _ => none

/-- Puts an entry at a place and folders at all places above it that are free. -/
def plant (t : Tree α) (place : Place) (entry : Entry α) : Tree α :=
  let above := (List.range place.length).map place.take
  let grown := above.foldl (fun t p => if (t.get? p).isNone then t.put p .folder else t) t
  grown.put place entry

theorem get?_nil (t : Tree α) : t.get? [] = some .folder := by
  simp [get?]

@[simp] theorem put_put (t : Tree α) (place : Place) (entry entry' : Entry α) :
    (t.put place entry).put place entry' = t.put place entry' :=
  congrArg mk (Dictionary.put_put t.entries place entry entry')

/-- A place holds what was put there last. -/
theorem get?_put_self (t : Tree α) {place : Place} (h : place ≠ []) (entry : Entry α) :
    (t.put place entry).get? place = some entry := by
  simp [get?, put, h]

/-- Putting an entry changes no other place. -/
theorem get?_put_of_ne (t : Tree α) {place other : Place} (h : place ≠ other) (entry : Entry α) :
    (t.put place entry).get? other = t.get? other := by
  simp only [get?, put]
  rw [Dictionary.get?_put_of_ne _ _ h]

/-- A link of the tree is listed among its links. -/
theorem mem_links {t : Tree α} {place : Place} {target : String}
    (h : t.get? place = some (.link target)) : place ∈ t.links := by
  unfold get? at h
  split at h
  · simp at h
  · -- The entry that is found is one of the list.
    unfold Dictionary.get? at h
    obtain ⟨e, he, hl⟩ := Option.map_eq_some_iff.1 h
    have hp := List.find?_some he
    have hm := List.mem_of_find?_eq_some he
    obtain ⟨p, x⟩ := e
    simp only [beq_iff_eq] at hp hl
    subst hp hl
    exact List.mem_filterMap.2 ⟨_, hm, rfl⟩

end Tree

end ImportAtlas

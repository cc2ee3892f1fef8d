import ImportAtlas.Tree.Locate

/-!
# Canonical paths

The canonical form of a path has no links in it. It is found step by step; what is missing is kept
as it stands. A link that leads back to itself has no canonical form: the path is then the one at
that link with the rest of the steps behind it, taken back lexically.

A place on the way is spelled from the root, or from the working directory with some steps up in
front. A link that is being followed is not followed again from the same spelling, so the links not
yet followed bound the search. A link whose spelling is too long to be looked up passes for a name.
-/

namespace ImportAtlas

/-- How many steps up make any spelling too long to be looked up, with three bytes for each. -/
def climbLimit : Nat := 1365

/-- The path of a place. -/
def Path.ofPlace (place : Place) : Path :=
  ⟨.root, place⟩

/-- Where the spelling of a place starts: at the root, or some steps above the working directory,
which lies `depth` names deep. -/
inductive Origin (depth : Nat) where
  | root
  /-- Steps beyond the limit are not counted. -/
  | climbed (steps : Fin (climbLimit + 1))
  deriving DecidableEq, Repr

namespace Origin

variable {depth : Nat}

/-- All origins. -/
def all (depth : Nat) : List (Origin depth) :=
  root :: (List.finRange (climbLimit + 1)).map climbed

theorem mem_all (o : Origin depth) : o ∈ all depth := by
  cases o with
  | root => exact List.mem_cons_self
  | climbed steps =>
    exact List.mem_cons_of_mem _ (List.mem_map.2 ⟨steps, List.mem_finRange steps, rfl⟩)

/-- The origin of the folder above a place. One more step is taken up if the place is where the
spelling starts. -/
def above (o : Origin depth) (here : Place) : Origin depth :=
  match o with
  | root => root
  | climbed steps =>
    if depth - steps < here.length then climbed steps
    else climbed ⟨min (steps + 1) climbLimit, by omega⟩

/-- The origin of the target of a link. -/
def ofTarget (o : Origin depth) (target : String) : Origin depth :=
  if target.toList.head? = some '/' then root else o

/-- Whether the spelling of a place is short enough for a link there to be seen. -/
def reaches (o : Origin depth) (place : Place) : Bool :=
  match o with
  | root => !isLongPath (Path.ofPlace place).text
  | climbed steps =>
    steps < climbLimit &&
      !isLongPath ("/".intercalate (List.replicate steps ".." ++ place.drop (depth - steps)))

end Origin

/-- How the search for a canonical path ends. -/
inductive Canonical (depth : Nat) where
  /-- At a place, which may be free. -/
  | found (origin : Origin depth) (place : Place)
  /-- At a link that leads back to itself, with the path that remains. -/
  | circular (path : Path)
  /-- At a name with a NUL in it, which no path can have. -/
  | unusable
  deriving Repr

/-- The path that the segments `rest`, joined by slashes, name from `p`. -/
def Path.resume (p : Path) (rest : List String) : Path :=
  p / Path.ofText ("/".intercalate rest)

/-- The segments of a spelled path, empty ones among them. -/
def segmentsOf (path : String) : List String :=
  (path.toList.splitOn '/').map String.ofList

namespace Tree

variable {α : Type}

variable {depth : Nat}

/-- The target of the link at a place, if one is seen there. -/
def linkAt? (t : Tree α) (o : Origin depth) (place : Place) : Option String :=
  match t.get? place with
  | some (.link target) => if o.reaches place then some target else none
  | _ => none

/-- A link is seen if it is there and its spelling is short enough. -/
theorem linkAt?_eq_some {t : Tree α} {o : Origin depth} {place : Place} {target : String} :
    t.linkAt? o place = some target ↔
      t.get? place = some (.link target) ∧ o.reaches place = true := by
  unfold linkAt?
  split
  · rename_i hget
    simp [hget, and_comm]
  · rename_i hlink
    exact iff_of_false nofun fun h => hlink target h.1

/-- Where no link stands, none is seen. -/
theorem linkAt?_eq_none {t : Tree α} {place : Place}
    (h : ∀ target, t.get? place ≠ some (.link target)) (o : Origin depth) :
    t.linkAt? o place = none :=
  Option.eq_none_iff_forall_ne_some.2 fun target hlink => h target (linkAt?_eq_some.1 hlink).1

/-- The links, from all origins, that are not among those being followed. -/
def idleLinks (t : Tree α) (active : List (Origin depth × Place)) :
    List (Origin depth × Place) :=
  ((Origin.all depth).flatMap fun o => t.links.map (o, ·)).filter fun link =>
    !active.contains link

/-- To follow a link leaves one less that is not being followed. -/
theorem length_idleLinks_lt {t : Tree α} {active : List (Origin depth × Place)}
    {o : Origin depth} {place : Place} {target : String}
    (h : t.linkAt? o place = some target) (ha : active.contains (o, place) = false) :
    (t.idleLinks ((o, place) :: active)).length < (t.idleLinks active).length := by
  have hmem : (o, place) ∈ t.idleLinks active := by
    refine List.mem_filter.2 ⟨List.mem_flatMap.2 ⟨o, Origin.mem_all o, ?_⟩, by rw [ha]; rfl⟩
    exact List.mem_map.2 ⟨place, mem_links (linkAt?_eq_some.1 h).1, rfl⟩
  -- Following the link takes it, and only it, off the idle ones.
  have hsub : t.idleLinks ((o, place) :: active) =
      (t.idleLinks active).filter fun link => link != (o, place) := by
    simp only [idleLinks, List.filter_filter]
    congr 1
    funext link
    by_cases hl : link = (o, place) <;> simp [hl]
  rw [hsub]
  exact List.length_filter_lt_length_iff_exists.2 ⟨(o, place), hmem, by simp⟩

/-- Follows segments from a place while the links `active` are being followed. -/
def resolve (t : Tree α) (active : List (Origin depth × Place)) (o : Origin depth) (here : Place)
    (segments : List String) : Canonical depth :=
  match segments with
  | [] => .found o here
  | segment :: rest =>
    if segment = "" ∨ segment = "." then resolve t active o here rest
    else if segment = ".." then resolve t active (o.above here) here.dropLast rest
    else if segment.toList.contains '\x00' then .unusable
    else
      match h : t.linkAt? o (here ++ [segment]) with
      | some target =>
        -- A link met while it is being followed leads back to itself.
        if ha : active.contains (o, here ++ [segment]) then
          .circular ((Path.ofPlace (here ++ [segment])).resume rest)
        else
          have := length_idleLinks_lt h (eq_false_of_ne_true ha)
          -- The link's own target is settled first, then the rest goes on from where it leads.
          match resolve t ((o, here ++ [segment]) :: active) (o.ofTarget target)
              (startOf here target) (segmentsOf target) with
          | .found o there => resolve t active o there rest
          | .circular path => .circular (path.resume rest)
          | .unusable => .unusable
      | none => resolve t active o (here ++ [segment]) rest
termination_by ((t.idleLinks active).length, segments.length)

/-- Where the spelling of a path starts, seen from the folder `here`. -/
def originOf (here : Place) (path : String) : Origin here.length :=
  Origin.ofTarget (.climbed 0) path

/-- The canonical form of a spelled path, seen from the folder `here`; none if the path holds a
NUL. -/
def canonical? (t : Tree α) (here : Place) (path : String) : Option Path :=
  match t.resolve [] (originOf here path) (startOf here path) (segmentsOf path) with
  | .found _ place => some (.ofPlace place)
  | .circular path => some path.collapse
  | .unusable => none

end Tree

end ImportAtlas

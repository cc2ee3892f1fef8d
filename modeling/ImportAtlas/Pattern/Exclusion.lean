import ImportAtlas.Path.Relative
import ImportAtlas.Pattern.Glob

/-!
# Exclusion patterns

A pattern excludes a file in one of three ways: name by name from the end of the path, as one glob
over the whole spelled path, or, if it is a directory followed by `/*`, by the name of any
directory above the file. Paths are seen from the root that is scanned.
-/

namespace ImportAtlas

namespace Path

/-- The parts of a path: its leading slashes, if any, and its names. -/
def parts (p : Path) : List String :=
  if p.isAbsolute then p.anchor.text :: p.names else p.names

/-- Whether each part is matched by the glob in the same place. -/
def partsMatch (parts globs : List String) : Bool :=
  (parts.zip globs).all fun (part, glob) => (Glob.ofText glob).accepts part.toList

/-- Whether the last parts of `p` match the parts of `pattern`, one by one. An absolute pattern
must match all of the path. A pattern without parts matches nothing, not even vacuously: it is
refused with none. -/
def matches? (p pattern : Path) : Option Bool :=
  if pattern.parts = [] then
    none
  -- A pattern that begins at the root must match the whole path, any other one the end of it.
  else if pattern.isAbsolute then
    some (p.anchor = pattern.anchor && p.names.length = pattern.names.length &&
      partsMatch p.names pattern.names)
  else
    some (decide (pattern.names.length ≤ p.parts.length) &&
      partsMatch p.parts.reverse pattern.names.reverse)

end Path

/-- The directory that a pattern of the form `directory/*` excludes with everything below it. -/
def excludedDirectory? (pattern : String) : Option String :=
  match pattern.toList.reverse with
  | '*' :: '/' :: directory => some (String.ofList directory.reverse)
  | _ => none

/-- Whether `pattern` excludes the path `p`; none if the pattern is empty. -/
def excludes? (pattern : String) (p : Path) : Option Bool := do
  let byName ← p.matches? (Path.ofText pattern)
  return byName || (Glob.ofText pattern).accepts p.text.toList ||
    (excludedDirectory? pattern).any p.parts.dropLast.contains

/-- Whether one of the patterns excludes `p`. The first pattern that does settles it; an empty
pattern before that is refused with none. -/
def excludedByAny? : List String → Path → Option Bool
  | [], _ => some false
  | pattern :: patterns, p => do
    if ← excludes? pattern p then return true else excludedByAny? patterns p

/-- Whether one of the patterns excludes the file `p`, seen from `root` if it lies below it. -/
def shouldSkip? (patterns : List String) (root p : Path) : Option Bool :=
  excludedByAny? patterns ((p.below? root).getD p)

end ImportAtlas

import ImportAtlas.Path.Basic

/-!
# Candidate files of a locator

The files that a local locator may stand for, in the order in which they are tried. A locator that
starts with a dot is seen from the directory of the importing file, any other from the base
directory; one without an extension is tried with each of the source extensions. Nothing is looked
up here, so `..` is taken back lexically.
-/

namespace ImportAtlas

/-- The directory that a locator is seen from. -/
def locatorBase (locator importer baseDirectory : String) : Path :=
  if locator.toList.head? = some '.' then
    Path.directoryOf importer
  else
    Path.ofText baseDirectory

/-- The file names that a locator may be short for. -/
def locatorSpellings (locator : String) (extensions : List String) : List String :=
  if Path.hasExtension locator.toList then
    [locator]
  else
    extensions.map fun e => locator ++ "." ++ e

/-- The paths that `locator` may stand for in the file `importer`, in the order of trial. -/
def candidatePaths (locator importer baseDirectory : String) (extensions : List String) :
    List String :=
  let base := locatorBase locator importer baseDirectory
  (locatorSpellings locator extensions).map fun spelling =>
    (base / Path.ofText spelling : Path).collapse.text

end ImportAtlas

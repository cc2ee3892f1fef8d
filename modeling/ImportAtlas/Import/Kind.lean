/-!
# Kinds of imports

A locator stands for a file of the project, for a library, or for neither as far as is known. The
classifier knows the prefixes of the former and the names of the latter; what is local is never a
library.
-/

namespace ImportAtlas

/-- What an import refers to, as far as its locator tells. -/
inductive ImportKind where
  /-- A file of the project. -/
  | localFile
  /-- A package from outside. -/
  | library
  deriving DecidableEq, Repr

namespace ImportKind

/-- The tag of a kind in tables and databases. -/
def tag : ImportKind → String
  | localFile => "local"
  | library => "lib"

/-- The kind with a tag. -/
def ofTag? (s : String) : Option ImportKind :=
  if s = "local" then some localFile
  else if s = "lib" then some library
  else none

@[simp] theorem ofTag?_tag (k : ImportKind) : ofTag? k.tag = some k := by
  cases k <;> rfl

/-- Only its own tag is read as a kind. -/
theorem tag_of_ofTag? {s : String} {k : ImportKind} (h : ofTag? s = some k) : k.tag = s := by
  unfold ofTag? at h
  split at h
  · next hs => obtain rfl := Option.some.inj h; exact hs.symm
  · split at h
    · next hs => obtain rfl := Option.some.inj h; exact hs.symm
    · simp at h

end ImportKind

/-- What tells local and library locators from others. -/
structure Classifier where
  /-- Names of libraries. -/
  libraries : List String
  /-- How the locators of local files begin. -/
  localStarts : List String
  /-- The names of the folders that hold the parts of libraries. -/
  folders : List String := libraries
  deriving Repr

namespace Classifier

/-- The libraries that are known without being told. -/
def defaultLibraries : List String :=
  ["@fortawesome", "bootstrap", "datatables.net-bs4", "datatables.net-buttons-bs4",
    "datatables.net-rowgroup-bs4", "flatpickr", "immutable", "jquery", "jquery-ujs", "konva",
    "lodash", "prop-types", "react", "react-dom", "react-input-mask", "react-konva", "react-pdf",
    "react-select", "select2", "tippy.js", "webpacker-react"]

/-- How local locators begin unless told otherwise. -/
def defaultLocalStarts : List String :=
  ["./", "../", "components"]

/-- The classifier with the libraries and local starts that need no telling. -/
def default : Classifier :=
  { libraries := defaultLibraries, localStarts := defaultLocalStarts }

/-- Whether `locator` begins with `start`. -/
def begins (locator start : String) : Bool :=
  start.toList.isPrefixOf locator.toList

/-- Whether a locator stands for a file of the project. -/
def isLocal (c : Classifier) (locator : String) : Bool :=
  c.localStarts.any (begins locator)

/-- Whether a locator stands for a library: a scoped name, a known name, or a path inside the folder
of one. -/
def isLibrary (c : Classifier) (locator : String) : Bool :=
  !c.isLocal locator &&
    (begins locator "@" || c.libraries.contains locator ||
      c.folders.any fun folder => begins locator (folder ++ "/"))

/-- The kind of a locator; none if it is neither local nor a library. -/
def classify (c : Classifier) (locator : String) : Option ImportKind :=
  if c.isLocal locator then some .localFile
  else if c.isLibrary locator then some .library
  else none

/-- A locator is local by kind exactly when it is local. -/
@[simp] theorem classify_eq_localFile_iff {c : Classifier} {l : String} :
    c.classify l = some .localFile ↔ c.isLocal l = true := by
  unfold classify
  by_cases h : c.isLocal l <;> simp [h]

end Classifier

end ImportAtlas

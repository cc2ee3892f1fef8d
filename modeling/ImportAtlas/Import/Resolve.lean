import ImportAtlas.Host
import ImportAtlas.Import.Candidate

/-!
# Targets of locators

A local locator stands for the first of its candidates that is a file, also through links.
Whatever keeps a candidate from being looked up counts as there being no such file.
-/

namespace ImportAtlas

/-- The file that `locator` stands for in the file `importer`, if there is one. -/
def resolveLocator (locator importer baseDirectory : String) (extensions : List String) :
    Act (Option String) := do
  let host ← get
  match (candidatePaths locator importer baseDirectory extensions).find?
      (host.tree.leadsToFile host.folder) with
  | some target => return some target
  | none =>
    Act.log .debug "scanning.resolver"
      ("Unresolved local import " ++ locator ++ " from " ++ importer)
    return none

end ImportAtlas

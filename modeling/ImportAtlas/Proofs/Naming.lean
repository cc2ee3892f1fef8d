import ImportAtlas.Proofs.Import.Relative
import ImportAtlas.Proofs.Run
import ImportAtlas.Proofs.Setting.Again
import ImportAtlas.Proofs.Survey
import ImportAtlas.Proofs.Tree.Keeps
import Mathlib.Data.List.Find

/-!
# Files that are called by their relative paths

The files of a graph are called by their paths as they are seen from the project root. A relative
path leads from the project root to the names of a path, whether these are below it or beside it. So
files whose paths have different names are called differently, and the last name is that of the
path, since no file stands above the project root.

What a relative path does not tell is how many slashes a path begins with. Where no circle of links
is met, all paths begin with one. Behind a link that leads back to itself a path is kept as it is
spelled there, and then the same file may be listed under two paths, which are called alike.

## Key results

- `Survey.relativePath_eq_iff`: which paths are called alike
- `Survey.collapse_relativePath`: where a relative path leads
- `Survey.isCalledFrom_iff`: when all files are found by what they are called
- `Survey.files_called`: the files of what has been listed by walking
-/

namespace ImportAtlas

open EStateM

/-- A path is its anchor and its names. -/
theorem Path.eq_of_anchor_eq {p q : Path} (hanchor : p.anchor = q.anchor)
    (hnames : p.names = q.names) : p = q := by
  cases p
  cases q
  rw [Path.mk.injEq]
  exact ⟨hanchor, hnames⟩

/-- A straight path to a file is not above one to a folder. -/
theorem Path.IsStraight.not_above_folder {t : Tree Content} {here place : Place} {p root : Path}
    (hp : p.IsStraight) (hroot : root.IsStraight) (hfile : t.leadsToFile here p.text = true)
    (hfolder : t.lookup here root.text = .ok (place, .folder)) : ¬ p.names <+: root.names := by
  intro habove
  unfold Tree.leadsToFile at hfile
  split at hfile
  · rename_i hlookup
    -- The way to the folder is through folders alone, and the file would be on it.
    obtain ⟨folder, hwalk⟩ := Tree.exists_walk_prefix habove (hroot.walk_of_lookup hfolder)
    cases hwalk.symm.trans (hp.walk_of_lookup hlookup)
  · cases hfile

/-- The project root is a straight path. -/
theorem Settings.IsRooted.isStraight {s : Settings} (h : s.IsRooted) :
    (Path.ofText s.projectRoot).IsStraight := by
  obtain ⟨r, hr, hrtext⟩ := h
  rwa [hrtext, hr.ofText_text]

/-- What is to be listed by walking, whether version control is to be asked or not. -/
def Settings.walking (s : Settings) : Inventory.Request :=
  { s.inventory with trackedOnly := false }

/-- A file is described as its path is seen from the directory `root`. Its relative path leads to
the names of its path, behind the slashes of the directory. -/
structure SourceFile.IsSeenFrom (root : Path) (extensions : List String) (f : SourceFile) :
    Prop where
  baseName_eq : f.baseName = (Path.ofText f.absolutePath).name
  suffix_eq : (Path.ofText f.absolutePath).suffix = "." ++ f.extension
  extension_mem : f.extension ∈ extensions
  collapse_eq : (root / Path.ofText f.relativePath : Path).collapse =
    { Path.ofText f.absolutePath with anchor := root.anchor }

/-- A file of a graph is called by its relative path: the path leads to it from the directory
`root`, no other file has it, and the file is found by it. -/
structure ImportGraph.IsCalledFrom (g : ImportGraph) (root : Path) (f : SourceFile) : Prop where
  text_eq : (root / Path.ofText f.relativePath : Path).collapse.text = f.absolutePath
  eq_of_relativePath_eq : ∀ f' ∈ g.files, f'.relativePath = f.relativePath → f' = f
  fileCalled?_eq : g.fileCalled? f.relativePath = some f

namespace Survey

variable {s : Settings} {here : Place} {path path' : String} {paths : List String}

/-! ## Relative paths -/

section Relative

variable (hroot : (Path.ofText s.projectRoot).IsStraight)
include hroot

/-- A relative path is read as the steps from the project root. -/
theorem ofText_relativePath (h : (Path.ofText path).IsStraight) :
    Path.ofText (relativePath s here path) =
      ⟨.here, Path.stepsBetween (Path.ofText s.projectRoot).names (Path.ofText path).names⟩ := by
  rw [relativePath, Path.ofText_text (h.wellFormed_relativeTo _ _), h.relativeTo_eq,
    hroot.absolute_eq]

/-- From where the project root and a path are looked at is of no account. -/
theorem relativePath_congr (h : (Path.ofText path).IsStraight) (here here' : Place) :
    relativePath s here path = relativePath s here' path := by
  rw [relativePath, relativePath, h.relativeTo_eq, h.relativeTo_eq, hroot.absolute_eq,
    hroot.absolute_eq]

/-- Paths are called alike just if they have the same names. -/
theorem relativePath_eq_iff (h : (Path.ofText path).IsStraight)
    (h' : (Path.ofText path').IsStraight) :
    relativePath s here path = relativePath s here path' ↔
      (Path.ofText path).names = (Path.ofText path').names := by
  constructor
  · intro heq
    -- The way from the root to a place is different for different places.
    have hsteps := congrArg Path.ofText heq
    rw [ofText_relativePath hroot h, ofText_relativePath hroot h', Path.mk.injEq] at hsteps
    exact Path.stepsBetween_injective (fun hup => (h.names _ hup).2 rfl)
      (fun hup => (h'.names _ hup).2 rfl) hsteps.2
  · intro hnames
    rw [relativePath, relativePath, h.relativeTo_eq, h'.relativeTo_eq, hnames]

/-- From the project root, a relative path leads to the names of the path, behind the slashes of the
project root. -/
theorem collapse_relativePath (h : (Path.ofText path).IsStraight) :
    (Path.ofText s.projectRoot / Path.ofText (relativePath s here path) : Path).collapse =
      { Path.ofText path with anchor := (Path.ofText s.projectRoot).anchor } := by
  have htarget : Path.IsStraight
      { Path.ofText path with anchor := (Path.ofText s.projectRoot).anchor } :=
    ⟨hroot.isAbsolute, h.names⟩
  -- The steps from the root to the file lead back to the file.
  have hsteps := Path.collapse_append_steps hroot.isAbsolute hroot.wellFormed htarget rfl
  rw [Path.collapse_eq_self fun n hn => (hroot.names n hn).2] at hsteps
  rw [ofText_relativePath hroot h, hsteps]

end Relative

/-! ## The files of paths -/

/-- A path that a file can be made of: it is spelled as a straight path, which is not above the
project root, and it has one of the extensions. -/
structure IsSource (s : Settings) (path : String) : Prop where
  isStraight : (Path.ofText path).IsStraight
  text_eq : (Path.ofText path).text = path
  not_above : ¬ (Path.ofText path).names <+: (Path.ofText s.projectRoot).names
  hasExtension : Inventory.hasExtension s.extensions (Path.ofText path) = true

/-- A file has the last name of its relative path. -/
theorem baseName_fileOf (s : Settings) (here : Place) (path : String) (id : Nat) :
    (fileOf s here path id).baseName = (Path.ofText (relativePath s here path)).name := by
  simp only [fileOf, SourceFile.ofPaths]

/-- Its extension is what stands behind the last dot there. -/
theorem extension_fileOf (s : Settings) (here : Place) (path : String) (id : Nat) :
    (fileOf s here path id).extension =
      String.ofList ((Path.ofText (relativePath s here path)).suffix.toList.drop 1) := by
  simp only [fileOf, SourceFile.ofPaths]

section Files

variable (hroot : (Path.ofText s.projectRoot).IsStraight)
include hroot

/-- So the file of a source is seen from the project root. -/
theorem isSeenFrom_fileOf (h : IsSource s path) (id : Nat) :
    (fileOf s here path id).IsSeenFrom (Path.ofText s.projectRoot) s.extensions := by
  have hread : Path.ofText (relativePath s here path) =
      (Path.ofText path).relativeTo (.ofPlace here) (Path.ofText s.projectRoot) :=
    Path.ofText_text (h.isStraight.wellFormed_relativeTo _ _)
  have hname : (Path.ofText (relativePath s here path)).name = (Path.ofText path).name := by
    rw [hread, h.isStraight.relativeTo_name_eq]
    rw [hroot.absolute_eq]
    exact h.not_above
  obtain ⟨e, he, hsuffix⟩ := List.any_eq_true.1 h.hasExtension
  rw [beq_iff_eq] at hsuffix
  -- The suffix is read off the last name, and the extension is the suffix without its dot.
  have hextension : (fileOf s here path id).extension = e := by
    have hdrop : ("." ++ e).toList.drop 1 = e.toList := by
      rw [String.toList_append]
      rfl
    rw [extension_fileOf, Path.suffix, hname, ← Path.suffix, hsuffix, hdrop, String.ofList_toList]
  constructor
  case baseName_eq => rw [absolutePath_fileOf, baseName_fileOf, hname]
  case suffix_eq => rw [absolutePath_fileOf, hextension, hsuffix]
  case extension_mem => exact hextension ▸ he
  case collapse_eq =>
    rw [absolutePath_fileOf, relativePath_fileOf]
    exact collapse_relativePath hroot h.isStraight

/-- From wherever paths of sources are looked at, they become the same files. -/
theorem filesOf_congr (h : ∀ path ∈ paths, IsSource s path) (here here' : Place) :
    filesOf s here paths = filesOf s here' paths := by
  refine List.map_congr_left ?_
  rintro ⟨path, id⟩ hentry
  have hpath := h path (List.fst_mem_of_mem_zipIdx hentry)
  simp only [fileOf, relativePath_congr hroot hpath.isStraight here here']

/-- Files are called alike just if their paths have the same names. -/
theorem relativePath_eq_iff_of_mem (h : ∀ path ∈ paths, IsSource s path) {f f' : SourceFile}
    (hf : f ∈ filesOf s here paths) (hf' : f' ∈ filesOf s here paths) :
    f.relativePath = f'.relativePath ↔
      (Path.ofText f.absolutePath).names = (Path.ofText f'.absolutePath).names := by
  obtain ⟨path, hpath, id, rfl⟩ := exists_eq_fileOf hf
  obtain ⟨path', hpath', id', rfl⟩ := exists_eq_fileOf hf'
  simp only [relativePath_fileOf, absolutePath_fileOf]
  exact relativePath_eq_iff hroot (h path hpath).isStraight (h path' hpath').isStraight

/-- Of the files that are called alike, the first one is found. -/
theorem fileCalled?_eq_find? (h : ∀ path ∈ paths, IsSource s path) {g : ImportGraph}
    (hfiles : g.files = filesOf s here paths) {f : SourceFile} (hf : f ∈ filesOf s here paths) :
    g.fileCalled? f.relativePath = (filesOf s here paths).find? fun f' =>
      (Path.ofText f'.absolutePath).names == (Path.ofText f.absolutePath).names := by
  rw [ImportGraph.fileCalled?, hfiles]
  refine List.find?_congr fun f' hf' => ?_
  rw [Bool.eq_iff_iff, beq_iff_eq, beq_iff_eq]
  exact relativePath_eq_iff_of_mem hroot h hf' hf

/-- Files that are called alike are the same, if their paths begin with as many slashes. -/
theorem eq_of_called_alike (hnodup : paths.Nodup) (h : ∀ path ∈ paths, IsSource s path)
    (hanchor : ∀ path ∈ paths,
      (Path.ofText path).anchor = (Path.ofText s.projectRoot).anchor)
    {f f' : SourceFile} (hf : f ∈ filesOf s here paths) (hf' : f' ∈ filesOf s here paths)
    (heq : f.relativePath = f'.relativePath) : f = f' := by
  have hpaths : (filesOf s here paths).map (·.absolutePath) = paths := paths_filesOf here paths
  have hmem {f : SourceFile} (hf : f ∈ filesOf s here paths) : f.absolutePath ∈ paths :=
    hpaths ▸ List.mem_map_of_mem hf
  have hnames := (relativePath_eq_iff_of_mem hroot h hf hf').1 heq
  -- The same name means the same steps, and the anchors are those of the root.
  have hsame : Path.ofText f.absolutePath = Path.ofText f'.absolutePath :=
    Path.eq_of_anchor_eq ((hanchor _ (hmem hf)).trans (hanchor _ (hmem hf')).symm) hnames
  have hpath : f.absolutePath = f'.absolutePath := by
    rw [← (h _ (hmem hf)).text_eq, hsame, (h _ (hmem hf')).text_eq]
  exact List.inj_on_of_nodup_map (hpaths.symm ▸ hnodup) hf hf' hpath

/-- All files are found by what they are called just if their paths begin with as many slashes as
the project root. -/
theorem isCalledFrom_iff (hnodup : paths.Nodup) (h : ∀ path ∈ paths, IsSource s path)
    {g : ImportGraph} (hfiles : g.files = filesOf s here paths) :
    (∀ f ∈ g.files, g.IsCalledFrom (Path.ofText s.projectRoot) f) ↔
      ∀ path ∈ paths, (Path.ofText path).anchor = (Path.ofText s.projectRoot).anchor := by
  have hpaths : (g.files.map (·.absolutePath)) = paths := by rw [hfiles, paths_filesOf]
  have hsource : ∀ f ∈ g.files, IsSource s f.absolutePath := fun f hf =>
    h f.absolutePath (hpaths ▸ List.mem_map_of_mem hf)
  have hseen : ∀ f ∈ g.files, f.IsSeenFrom (Path.ofText s.projectRoot) s.extensions := by
    intro f hf
    obtain ⟨path, hpath, id, rfl⟩ := exists_eq_fileOf (hfiles ▸ hf)
    exact isSeenFrom_fileOf hroot (h path hpath) id
  constructor
  · intro hcalled path hpath
    obtain ⟨f, hf, rfl⟩ := List.mem_map.1 (hpaths ▸ hpath)
    -- What the relative path leads to begins as the project root does.
    have hstraight : Path.IsStraight { Path.ofText f.absolutePath with
        anchor := (Path.ofText s.projectRoot).anchor } :=
      ⟨hroot.isAbsolute, (hsource f hf).isStraight.names⟩
    calc (Path.ofText f.absolutePath).anchor
        = (Path.ofText (Path.ofText s.projectRoot /
            Path.ofText f.relativePath : Path).collapse.text).anchor := by
          rw [(hcalled f hf).text_eq]
      _ = (Path.ofText s.projectRoot).anchor := by
          rw [(hseen f hf).collapse_eq, hstraight.ofText_text]
  · intro hanchor
    have hanchor' : ∀ f ∈ g.files,
        (Path.ofText f.absolutePath).anchor = (Path.ofText s.projectRoot).anchor :=
      fun f hf => hanchor f.absolutePath (hpaths ▸ List.mem_map_of_mem hf)
    -- With one anchor for all, files of one name are one file.
    have hunique : ∀ f ∈ g.files, ∀ f' ∈ g.files, f'.relativePath = f.relativePath → f' = f :=
      fun f hf f' hf' heq =>
        eq_of_called_alike hroot hnodup h hanchor (hfiles ▸ hf') (hfiles ▸ hf) heq
    intro f hf
    constructor
    case text_eq =>
      rw [(hseen f hf).collapse_eq, ← hanchor' f hf, (hsource f hf).text_eq]
    case eq_of_relativePath_eq => exact hunique f hf
    case fileCalled?_eq =>
      exact List.find?_eq_some_of_unique hf (beq_self_eq_true _) fun f' hf' hsame =>
        hunique f hf f' hf' (beq_iff_eq.1 hsame)

end Files

/-! ## The files of a listing -/

section Listing

variable {host host' : Host} {place : Place}

/-- Walking lists each path once. -/
theorem listed_of_walking (hhost : host.IsProper)
    (hlist : Inventory.list s.walking host = .ok paths host') :
    paths.Nodup ∧ ∀ path ∈ paths, IsListed host path := by
  have htracked : s.walking.trackedOnly = true → ∀ reply ∈ host.replies, reply.NamesBelow := nofun
  exact (Inventory.gives_list hhost htracked _ _ hlist).2

/-- What is listed by walking can be made files of, if the project root is a folder. -/
theorem isSource_of_list (hhost : host.IsProper) (hrooted : s.IsRooted)
    (hroot : host.tree.lookup host.folder s.projectRoot = .ok (place, .folder))
    (hlist : Inventory.list s.walking host = .ok paths host') :
    ∀ path ∈ paths, IsSource s path := by
  intro path hpath
  have hlisted := (listed_of_walking hhost hlist).2
  obtain ⟨d, -, root, folder, e, hresolve, -, he, hextension, rfl⟩ :=
    Inventory.isFoundBelow_of_list hhost.hasLogFile rfl hlist path hpath
  have hstart := (Act.gives_resolve hhost.folder _ _ _ hresolve).1
  have hstraight := Inventory.isStraight_of_mem_entriesBelow hhost.tree hstart he
  obtain ⟨r, hr, hrtext⟩ := hrooted
  rw [hrtext] at hroot
  -- A path of the list is one that a walk spelled, so it is straight and reads back as it is.
  constructor
  case isStraight => rwa [hstraight.ofText_text]
  case text_eq => rw [hstraight.ofText_text]
  case not_above =>
    rw [hstraight.ofText_text, hrtext, hr.ofText_text]
    exact hstraight.not_above_folder hr (hlisted _ hpath).leadsToFile hroot
  case hasExtension => rwa [hstraight.ofText_text]

/-- Where no circle of links is met, all that is listed begins with a single slash. -/
theorem anchor_eq_root_of_list (hhost : host.IsProper) (hacyclic : host.tree.IsAcyclic)
    (haccepted : s.IsAccepted)
    (hlist : Inventory.list s.walking host = .ok paths host') :
    ∀ path ∈ paths, (Path.ofText path).anchor = .root := by
  intro path hpath
  obtain ⟨d, hd, root, folder, e, hresolve, hlookup, he, -, rfl⟩ :=
    Inventory.isFoundBelow_of_list hhost.hasLogFile rfl hlist path hpath
  have hstart := (Act.gives_resolve hhost.folder _ _ _ hresolve).1
  have hstraight := Inventory.isStraight_of_mem_entriesBelow hhost.tree hstart he
  obtain ⟨-, hcanonical⟩ := Act.gives_resolve_canonical? _ _ hresolve
  -- The directory is spelled from the root, so it leads to a place by way of no link.
  obtain ⟨p, hp, rfl⟩ := haccepted.isStraight_of_mem d hd
  rw [hp.ofText_text] at hcanonical
  obtain ⟨there, rfl, -⟩ := hacyclic.isUnlinked hp.isGrounded.head?_text hcanonical
  obtain ⟨names, -, hnames, -⟩ := (Inventory.exists_mem_entriesBelow_iff hlookup).1 ⟨e, he, rfl⟩
  rw [hstraight.ofText_text, hnames]
  rfl

/-- From wherever listed paths are put into a graph, they become the same files. -/
theorem placed_of_list (hhost : host.IsProper) (hrooted : s.IsRooted)
    (hroot : host.tree.lookup host.folder s.projectRoot = .ok (place, .folder))
    (hlist : Inventory.list s.walking host = .ok paths host')
    (here : Place) (later : Host) :
    ∃ g, paths.foldlM (addPath s) .empty later = .ok g later ∧ g.files = filesOf s here paths := by
  obtain ⟨hnodup, hlisted⟩ := listed_of_walking hhost hlist
  have haddable : ∀ path ∈ paths, IsAddable s later.folder path := fun path hpath =>
    isAddable_of_isListed hrooted hroot (hlisted path hpath) later.folder
  obtain ⟨g, hplaced, -, hfiles, -⟩ :=
    addPaths_ok [] paths ImportGraph.consistent_empty rfl hnodup haddable
  -- The relative path of a source does not depend on the folder the program is in.
  refine ⟨g, hplaced, hfiles.trans ?_⟩
  exact filesOf_congr hrooted.isStraight (isSource_of_list hhost hrooted hroot hlist) _ _

end Listing

/-- Let accepted settings have a folder as their project root, and let walking list some paths. From
wherever these are put into a graph, and so in every graph that is built of them, they become the
same files, each with the last name of its path and one of the extensions. A relative path leads
from the project root to the names of the path. So files are called alike just if their paths have
the same names, and of those the first one is found. All files are called from the project root just
if their paths begin with as many slashes as it does. All paths begin with one slash if there is no
circle of links where they are listed, and so does the project root if there is none where the
settings are read and all links on its way are seen. -/
theorem files_called {entries : Dictionary String Value} {s : Settings}
    {host₀ host₀' host host' : Host} {place : Place} {paths : List String}
    (hfolder : host₀.folder.IsProper)
    (haccepted : Settings.ofEntries entries host₀ = .ok s host₀') (hhost : host.IsProper)
    (hroot : host.tree.lookup host.folder s.projectRoot = .ok (place, .folder))
    (hlist : Inventory.list s.walking host = .ok paths host') :
    ∃ files : List SourceFile, files.map (·.absolutePath) = paths ∧
      (∀ later, ∃ g, paths.foldlM (addPath s) .empty later = .ok g later ∧ g.files = files) ∧
      (∀ later g later', later.HasLogFile → buildGraph s paths later = .ok g later' →
        g.files = files) ∧
      (∀ f ∈ files, f.IsSeenFrom (Path.ofText s.projectRoot) s.extensions) ∧
      (∀ f ∈ files, ∀ f' ∈ files, f.relativePath = f'.relativePath ↔
        (Path.ofText f.absolutePath).names = (Path.ofText f'.absolutePath).names) ∧
      (∀ g : ImportGraph, g.files = files →
        (∀ f ∈ files, g.fileCalled? f.relativePath = files.find? fun f' =>
          (Path.ofText f'.absolutePath).names == (Path.ofText f.absolutePath).names) ∧
        ((∀ f ∈ files, g.IsCalledFrom (Path.ofText s.projectRoot) f) ↔
          ∀ path ∈ paths, (Path.ofText path).anchor = (Path.ofText s.projectRoot).anchor)) ∧
      (host.tree.IsAcyclic → ∀ path ∈ paths, (Path.ofText path).anchor = .root) ∧
      (host₀.tree.IsAcyclic → host₀.tree.IsUnlinked host₀.folder →
        Settings.SeesProjectRoot entries host₀ → (Path.ofText s.projectRoot).anchor = .root) := by
  have hsettings := Settings.gives_ofEntries hfolder entries s host₀' haccepted
  obtain ⟨-, hread⟩ := Settings.ofEntries_eq_ok_iff.1 haccepted
  have hrooted := hsettings.isRooted
  have hnodup := (listed_of_walking hhost hlist).1
  have hsource := isSource_of_list hhost hrooted hroot hlist
  have hstraight := hrooted.isStraight
  refine ⟨filesOf s host.folder paths, paths_filesOf _ _,
    placed_of_list hhost hrooted hroot hlist host.folder,
    fun later g later' hlog hbuild => ?_, fun f hf => ?_,
    fun f hf f' hf' => relativePath_eq_iff_of_mem hstraight hsource hf hf',
    fun g hfiles => ⟨fun f hf => fileCalled?_eq_find? hstraight hsource hfiles hf,
      hfiles ▸ isCalledFrom_iff hstraight hnodup hsource hfiles⟩,
    fun hacyclic => anchor_eq_root_of_list hhost hacyclic hsettings hlist,
    fun hacyclic hunlinked hsees => ?_⟩
  · obtain ⟨c, survey, textOf, rfl, -, -, hsurveyed⟩ := gives_buildGraph hlog paths g later' hbuild
    exact hsurveyed.files_eq.trans (filesOf_congr hstraight hsource _ _)
  · obtain ⟨path, hpath, id, rfl⟩ := exists_eq_fileOf hf
    exact isSeenFrom_fileOf hstraight (hsource path hpath) id
  · obtain ⟨there, hthere, htext⟩ := hread.namesUnlinked hunlinked hacyclic hsees
    rw [htext, hthere.isProper.isStraight.ofText_text]
    rfl

/-! ## A file that is listed twice -/

/-- A folder with a file, and another folder beside it. A link leads back to itself, and a second
link to what is spelled behind the first one. -/
def doubledHost : Host where
  tree := { entries := [
    (["p"], .folder),
    (["p", "a.js"], .file (.bytes [])),
    (["r"], .folder),
    (["loop"], .link "loop"),
    (["l"], .link "loop///p")] }
  folder := []
  environment := []
  replies := []
  stamp := ""

/-- The second folder is the project root, and all files of some directories are asked for. -/
def doubledEntries (directories : List String) : Dictionary String Value :=
  [("project_root", .text "/r"), ("scan_dirs", .list (directories.map .text)),
    ("tracked_only", .bool false), ("exclude_patterns", .list [])]

/-- The settings with these directories. -/
def doubledSettings (directories : List String) : Settings where
  projectRoot := "/r"
  scanDirectories := directories
  trackedOnly := .bool false
  excludePatterns := []

/-- The host has proper names, and no log file. -/
private theorem isProper_doubledHost : doubledHost.IsProper where
  folder := by
    unfold Place.IsProper
    decide
  tree := by
    rw [Tree.isProper_iff]
    unfold Place.IsProper
    decide
  hasLogFile := nofun

/-- Both spellings of a path lead to the same entry. -/
private theorem lookup_doubledHost :
    doubledHost.tree.lookup [] "/r" = .ok (["r"], .folder) ∧
    doubledHost.tree.lookup [] "/p" = .ok (["p"], .folder) ∧
    doubledHost.tree.lookup [] "//p" = .ok (["p"], .folder) ∧
    doubledHost.tree.lookup [] "/p/a.js" = .ok (["p", "a.js"], .file (.bytes [])) ∧
    doubledHost.tree.lookup [] "//p/a.js" = .ok (["p", "a.js"], .file (.bytes [])) := by
  have hsteps : stepsOf "/r" = ["r"] ∧ stepsOf "/p" = ["p"] ∧ stepsOf "//p" = ["p"] ∧
      stepsOf "/p/a.js" = ["p", "a.js"] ∧ stepsOf "//p/a.js" = ["p", "a.js"] := by
    decide
  have hstart : startOf [] "/r" = [] ∧ startOf [] "/p" = [] ∧ startOf [] "//p" = [] ∧
      startOf [] "/p/a.js" = [] ∧ startOf [] "//p/a.js" = [] := by
    decide
  have hpath : ∀ path ∈ ["/r", "/p", "//p", "/p/a.js", "//p/a.js"], isLongPath path = false := by
    decide
  have hname : ∀ name ∈ ["r", "p", "a.js"], isLongName name = false := by
    decide
  have hfolder : doubledHost.tree.isFolder [] = true ∧
      doubledHost.tree.isFolder ["p"] = true :=
    ⟨rfl, rfl⟩
  have hget : doubledHost.tree.get? ["r"] = some .folder ∧
      doubledHost.tree.get? ["p"] = some .folder ∧
      doubledHost.tree.get? ["p", "a.js"] = some (.file (.bytes [])) :=
    ⟨rfl, rfl, rfl⟩
  simp only [List.forall_mem_cons] at hpath hname
  simp [Tree.lookup, Tree.locate, Tree.walk, linkBudget, hsteps, hstart, hpath, hname, hfolder,
    hget]

/-- The two folders are reached without a link. -/
private theorem isUnlinked_doubledHost {n : String} (hn : n = "r" ∨ n = "p") :
    doubledHost.tree.IsUnlinked [n] := by
  have hname : ∀ n ∈ ["r", "p"], (Path.isName n = true ∧ n ≠ "..") ∧
      n.toList.contains '\x00' = false := by
    decide
  have hfolder : doubledHost.tree.get? [n] = some .folder := by
    rcases hn with rfl | rfl <;> rfl
  have hmem : n ∈ ["r", "p"] := by simpa using hn
  refine ⟨fun m hm => ?_, fun m hm => ?_, fun front hfront target hlink => ?_⟩
  · rw [List.mem_singleton.1 hm]
    exact (hname n hmem).1
  · rw [List.mem_singleton.1 hm]
    exact (hname n hmem).2
  · -- On the way there is nothing but the root and the folder itself.
    have hget := Tree.get?_of_inSight hlink
    obtain rfl | hfront := List.prefix_concat_iff.1 (List.nil_append [n] ▸ hfront)
    · rw [List.nil_append, hfolder] at hget
      cases hget
    · rw [List.prefix_nil.1 hfront] at hget
      cases hget

section Circular

variable {depth : Nat} {active : List (Origin depth × Place)}

/-- What stands behind the link to itself is kept as it is spelled. -/
private theorem resolve_behind_loop
    (hidle : active.contains (.root, ([] : Place) ++ ["loop"]) = false) (rest : List String) :
    doubledHost.tree.resolve active .root [] ("loop" :: rest) =
      .circular (((Path.ofPlace ["loop"]).resume []).resume rest) := by
  have hproper : Place.IsProper ["loop"] := by
    unfold Place.IsProper
    decide
  have hlink : doubledHost.tree.linkAt? (.root : Origin depth) ([] ++ ["loop"]) = some "loop" :=
    Tree.linkAt?_root.2 rfl
  have htarget : segmentsOf "loop" = ["loop"] ∧ startOf [] "loop" = [] := by decide
  have hsame : (Origin.root : Origin depth).ofTarget "loop" = .root := ite_self _
  refine Tree.resolve_of_link_circular hproper (by decide) hlink hidle ?_
  rw [htarget.1, htarget.2, hsame]
  exact Tree.resolve_of_active hproper (by decide) hlink (by simp)

/-- The other link leads there. -/
private theorem resolve_doubled_link :
    doubledHost.tree.resolve [] (.root : Origin depth) [] ["l"] = .circular
      ((((Path.ofPlace ["loop"]).resume []).resume ["", "", "p"]).resume []) := by
  have hproper : Place.IsProper ["l"] := by
    unfold Place.IsProper
    decide
  have hlink : doubledHost.tree.linkAt? (.root : Origin depth) ([] ++ ["l"]) = some "loop///p" :=
    Tree.linkAt?_root.2 rfl
  have htarget : segmentsOf "loop///p" = ["loop", "", "", "p"] ∧ startOf [] "loop///p" = [] := by
    decide
  have hsame : (Origin.root : Origin depth).ofTarget "loop///p" = .root := ite_self _
  refine Tree.resolve_of_link_circular hproper (by decide) hlink rfl ?_
  rw [htarget.1, htarget.2, hsame]
  exact resolve_behind_loop (by simp) _

end Circular

/-- Once what stands behind the link to itself begins with one slash, and once with two. -/
private theorem canonical?_doubledHost :
    doubledHost.tree.canonical? [] "/loop//l" = some ⟨.root, ["l"]⟩ ∧
    doubledHost.tree.canonical? [] "/l" = some ⟨.doubleRoot, ["p"]⟩ := by
  have hsegments : segmentsOf "/loop//l" = ["", "loop", "", "l"] ∧
      segmentsOf "/l" = ["", "l"] := by decide
  have hstart : startOf [] "/loop//l" = [] ∧ startOf [] "/l" = [] := by decide
  have horigin : Tree.originOf [] "/loop//l" = .root ∧ Tree.originOf [] "/l" = .root := by decide
  constructor
  · rw [Tree.canonical?, hsegments.1, hstart.1, horigin.1, Tree.resolve, if_pos (.inl rfl),
      resolve_behind_loop (by simp)]
    decide
  · rw [Tree.canonical?, hsegments.2, hstart.2, horigin.2, Tree.resolve, if_pos (.inl rfl),
      resolve_doubled_link]
    decide

/-- The link is kept in one spelling, and resolved in the other one. -/
private theorem directoriesOf_doubledHost :
    Settings.directoriesOf "/r" [.text "/p"] doubledHost = .ok ["/p"] doubledHost ∧
    Settings.directoriesOf "/r" [.text "/loop//l", .text "/p"] doubledHost =
      .ok ["/l", "/p"] doubledHost := by
  have htext : (Path.ofPlace ["p"]).text = "/p" ∧ (Path.mk .root ["l"]).text = "/l" := by decide
  have hp : Settings.directoryOf (some "/r") "/p" doubledHost = .ok "/p" doubledHost :=
    Settings.directoryOf_of_namesUnlinked ⟨["p"], isUnlinked_doubledHost (.inr rfl), htext.1.symm⟩
      _
  -- Behind a link to itself the rest of a path is joined to it, and the rest `/l` has its own root.
  have hl : Settings.directoryOf (some "/r") "/loop//l" doubledHost = .ok "/l" doubledHost := by
    rw [Settings.directoryOf_of_absolute (by decide)]
    have hexpand : Settings.expandHome "/loop//l" doubledHost = .ok "/loop//l" doubledHost :=
      Settings.expandHome_of_absolute (by decide)
    exact (Settings.directoryOf_eq_ok_iff hexpand).2
      ⟨_, canonical?_doubledHost.1, htext.2.symm⟩
  have heach (path : String) : (do
      Settings.directoryOf (some "/r") (← Settings.textOf (.text path)) : Act String) =
      Settings.directoryOf (some "/r") path := rfl
  unfold Settings.directoriesOf
  constructor
  · rw [if_neg (by simp), List.mapM_cons, heach, bind_of_ok _ hp]
    rfl
  · rw [if_neg (by simp), List.mapM_cons, heach, bind_of_ok _ hl, List.mapM_cons, heach,
      bind_assoc, bind_of_ok _ hp]
    rfl

/-- The settings of the example are read. -/
private theorem ofEntries_doubledHost (spelled : List String) {directories : List String}
    (hscanned : Settings.directoriesOf "/r" (spelled.map .text) doubledHost =
      .ok directories doubledHost) :
    Settings.ofEntries (doubledEntries spelled) doubledHost =
      .ok (doubledSettings directories) doubledHost := by
  have htext : (Path.ofPlace ["r"]).text = "/r" := by decide
  have hsuffix : (Path.ofText "diagram.pdf").suffix ≠ "" := by decide
  have hread : (doubledSettings directories).IsReadFrom (doubledEntries spelled) doubledHost := {
    isNamed := by simp [doubledEntries, Settings.names]
    projectRoot := ⟨"/r", rfl, Settings.directoryOf_of_namesUnlinked
      ⟨["r"], isUnlinked_doubledHost (.inl rfl), htext.symm⟩ _⟩
    scanDirectories := ⟨_, rfl, hscanned⟩
    extensions := ⟨_, rfl, rfl⟩
    extensions_ne := ⟨rfl, rfl⟩
    libraries := rfl
    localStarts := rfl
    localStarts_ne := ⟨rfl, rfl⟩
    excludePatterns := rfl
    timeout := rfl
    timeout_ge := rfl
    verbosity := rfl
    imageFile := rfl
    imageFile_suffix := hsuffix
    joinBlocks := rfl
    trackedOnly := rfl
    databaseFile := rfl
    dotFile := rfl
    layoutEngine := rfl
    dotCommand := rfl
    linkBase := rfl }
  exact hread.ofEntries_eq

/-- The folder is walked through as it was found, with one slash in front or with two. -/
private theorem walk_doubledHost {d : String} {root : Path}
    (hroot : root = ⟨.root, ["p"]⟩ ∨ root = ⟨.doubleRoot, ["p"]⟩)
    (hcanonical : doubledHost.tree.canonical? [] (Path.ofText d).text = some root) :
    ∃ walked, Inventory.walk d (doubledSettings []).extensions [] doubledHost =
      .ok [(Path.mk root.anchor ["p", "a.js"]).text] walked := by
  obtain ⟨-, hp, hp', ha, ha'⟩ := lookup_doubledHost
  have hfolder : doubledHost.tree.lookup [] root.text = .ok (["p"], .folder) ∧
      Act.hasNul root.text = false := by
    have htext : (Path.mk .root ["p"]).text = "/p" ∧ (Path.mk .doubleRoot ["p"]).text = "//p" := by
      decide
    rcases hroot with rfl | rfl
    · rw [htext.1]
      exact ⟨hp, by decide⟩
    · rw [htext.2]
      exact ⟨hp', by decide⟩
  -- Both spellings of the folder lead to it, and so do both spellings of the file.
  have hfile : doubledHost.tree.lookup [] (Path.mk root.anchor ["p", "a.js"]).text =
      .ok (["p", "a.js"], .file (.bytes [])) ∧
      Act.hasNul (Path.mk root.anchor ["p", "a.js"]).text = false := by
    have htext : (Path.mk .root ["p", "a.js"]).text = "/p/a.js" ∧
        (Path.mk .doubleRoot ["p", "a.js"]).text = "//p/a.js" := by
      decide
    rcases hroot with rfl | rfl
    · rw [htext.1]
      exact ⟨ha, by decide⟩
    · rw [htext.2]
      exact ⟨ha', by decide⟩
  have hstart : Inventory.startingAt d doubledHost = .ok root doubledHost :=
    Inventory.startingAt_of_lookup hcanonical hfolder.2 hfolder.1
  -- The entries are spelled with the anchor of the root they are listed for.
  have hentries : Inventory.entriesBelow doubledHost.tree doubledHost.folder root =
      [(⟨root.anchor, ["p", "a.js"]⟩, .file (.bytes []))] := by
    have hlookup : doubledHost.tree.lookup doubledHost.folder root.text = _ := hfolder.1
    unfold Inventory.entriesBelow
    rw [hlookup]
    rcases hroot with rfl | rfl <;> rfl
  have hexamine : Inventory.examine (doubledSettings []).extensions [] root
      (⟨root.anchor, ["p", "a.js"]⟩, .file (.bytes [])) doubledHost = .ok .kept doubledHost := by
    refine Inventory.verdict_eq_kept_iff.2 ⟨?_, hfile.2, ?_, rfl⟩
    · rcases hroot with rfl | rfl <;> decide
    · have hlookup : doubledHost.tree.lookup doubledHost.folder
          (Path.mk root.anchor ["p", "a.js"]).text = _ := hfile.1
      rw [Tree.leadsToFile, hlookup]
  have hvisits : (Inventory.entriesBelow doubledHost.tree doubledHost.folder root).foldlM
      (Inventory.visit (doubledSettings []).extensions [] root) {} doubledHost =
      .ok { files := [(Path.mk root.anchor ["p", "a.js"]).text] } doubledHost := by
    rw [hentries, List.foldlM_cons, Inventory.visit_eq, bind_of_ok _ (map_of_ok _ hexamine)]
    rfl
  unfold Inventory.walk
  rw [bind_of_ok _ hstart, bind_get, bind_of_ok _ hvisits]
  exact ⟨_, rfl⟩

/-- The file is found with one slash in front, and with two. -/
private theorem walks_doubledHost :
    (∃ walked, Inventory.walk "/p" (doubledSettings []).extensions [] doubledHost =
      .ok ["/p/a.js"] walked) ∧
    ∃ walked, Inventory.walk "/l" (doubledSettings []).extensions [] doubledHost =
      .ok ["//p/a.js"] walked := by
  have hread : (Path.ofText "/p").text = "/p" ∧ (Path.ofText "/l").text = "/l" := by decide
  have htext : (Path.ofPlace ["p"]).text = "/p" ∧ (Path.mk .root ["p", "a.js"]).text = "/p/a.js" ∧
      (Path.mk .doubleRoot ["p", "a.js"]).text = "//p/a.js" := by decide
  have hp : doubledHost.tree.canonical? [] (Path.ofText "/p").text = some ⟨.root, ["p"]⟩ := by
    rw [hread.1, ← htext.1]
    exact (isUnlinked_doubledHost (.inr rfl)).canonical?_eq []
  -- What the link leads to keeps both slashes.
  have hl : doubledHost.tree.canonical? [] (Path.ofText "/l").text =
      some ⟨.doubleRoot, ["p"]⟩ := by
    rw [hread.2]
    exact canonical?_doubledHost.2
  constructor
  · rw [← htext.2.1]
    exact walk_doubledHost (.inl rfl) hp
  · rw [← htext.2.2]
    exact walk_doubledHost (.inr rfl) hl

/-- So it is listed twice. -/
private theorem list_doubledHost :
    (∃ listed, Inventory.list (doubledSettings ["/p"]).inventory doubledHost =
      .ok ["/p/a.js"] listed) ∧
    ∃ listed, Inventory.list (doubledSettings ["/l", "/p"]).inventory doubledHost =
      .ok ["//p/a.js", "/p/a.js"] listed := by
  obtain ⟨hp, hl⟩ := walks_doubledHost
  constructor
  · obtain ⟨listed, hlist⟩ := Inventory.list_of_walks (r := (doubledSettings ["/p"]).inventory)
      isProper_doubledHost.hasLogFile rfl (.cons hp .nil)
    exact ⟨listed, by rwa [Inventory.sorted_of_ascending (by decide) (by decide)] at hlist⟩
  · obtain ⟨listed, hlist⟩ := Inventory.list_of_walks
      (r := (doubledSettings ["/l", "/p"]).inventory)
      isProper_doubledHost.hasLogFile rfl (.cons hl (.cons hp .nil))
    exact ⟨listed, by rwa [Inventory.sorted_of_ascending (by decide) (by decide)] at hlist⟩

/-- The file is called by the path that leads to it from the project root beside its folder. -/
theorem files_called_beside : ∃ listed g,
    Settings.ofEntries (doubledEntries ["/p"]) doubledHost =
      .ok (doubledSettings ["/p"]) doubledHost ∧
    doubledHost.tree.lookup doubledHost.folder "/r" = .ok (["r"], .folder) ∧
    Inventory.list (doubledSettings ["/p"]).inventory doubledHost = .ok ["/p/a.js"] listed ∧
    ["/p/a.js"].foldlM (addPath (doubledSettings ["/p"])) .empty listed = .ok g listed ∧
    g.files.map (·.absolutePath) = ["/p/a.js"] ∧
    ∀ f ∈ g.files, g.IsCalledFrom (Path.ofText "/r") f := by
  have haccepted := ofEntries_doubledHost ["/p"] directoriesOf_doubledHost.1
  have hroot := lookup_doubledHost.1
  obtain ⟨listed, hlist⟩ := list_doubledHost.1
  obtain ⟨files, hpaths, hplaced, -, -, -, hcalled, -⟩ :=
    files_called isProper_doubledHost.folder haccepted isProper_doubledHost hroot hlist
  obtain ⟨g, hplaced, hfiles⟩ := hplaced listed
  have hanchor : ∀ path ∈ ["/p/a.js"],
      (Path.ofText path).anchor = (Path.ofText "/r").anchor := by
    decide
  refine ⟨listed, g, haccepted, hroot, hlist, hplaced, hfiles.symm ▸ hpaths, ?_⟩
  rw [hfiles]
  exact (hcalled g hfiles).2.2 hanchor

/-- If the link is scanned beside the folder that it leads to, the file is listed under two paths,
which are called alike. What they are called leads to the second one, and the first one is found by
it. -/
theorem files_called_alike : ∃ listed g f f',
    Settings.ofEntries (doubledEntries ["/loop//l", "/p"]) doubledHost =
      .ok (doubledSettings ["/l", "/p"]) doubledHost ∧
    doubledHost.tree.lookup doubledHost.folder "/r" = .ok (["r"], .folder) ∧
    Inventory.list (doubledSettings ["/l", "/p"]).inventory doubledHost =
      .ok ["//p/a.js", "/p/a.js"] listed ∧
    ["//p/a.js", "/p/a.js"].foldlM (addPath (doubledSettings ["/l", "/p"])) .empty listed =
      .ok g listed ∧
    g.files = [f, f'] ∧ f.absolutePath = "//p/a.js" ∧ f'.absolutePath = "/p/a.js" ∧
    f.relativePath = "../p/a.js" ∧ f'.relativePath = "../p/a.js" ∧
    (Path.ofText "/r" / Path.ofText "../p/a.js" : Path).collapse.text = "/p/a.js" ∧
    g.fileCalled? "../p/a.js" = some f ∧
    ¬ g.IsCalledFrom (Path.ofText "/r") f ∧ ¬ g.IsCalledFrom (Path.ofText "/r") f' := by
  have haccepted := ofEntries_doubledHost ["/loop//l", "/p"]
    directoriesOf_doubledHost.2
  have hroot := lookup_doubledHost.1
  obtain ⟨listed, hlist⟩ := list_doubledHost.2
  have hrooted := Settings.isRooted_of_ofEntries isProper_doubledHost.folder haccepted
  obtain ⟨g, hplaced, hfiles⟩ :=
    placed_of_list isProper_doubledHost hrooted hroot hlist [] listed
  have hrelative : relativePath (doubledSettings ["/l", "/p"]) [] "//p/a.js" = "../p/a.js" ∧
      relativePath (doubledSettings ["/l", "/p"]) [] "/p/a.js" = "../p/a.js" := by
    decide
  have hjoined : (Path.ofText "/r" / Path.ofText "../p/a.js" : Path).collapse.text =
      "/p/a.js" := by
    decide
  have hfound : g.fileCalled? "../p/a.js" =
      some (fileOf (doubledSettings ["/l", "/p"]) [] "//p/a.js" 1) := by
    rw [ImportGraph.fileCalled?, hfiles]
    exact List.find?_cons_of_pos (by rw [relativePath_fileOf, hrelative.1, beq_self_eq_true])
  refine ⟨listed, g, _, _, haccepted, hroot, hlist, hplaced, hfiles, absolutePath_fileOf ..,
    absolutePath_fileOf .., ?_, ?_, hjoined, hfound, fun hcalled => ?_, fun hcalled => ?_⟩
  · rw [relativePath_fileOf, hrelative.1]
  · rw [relativePath_fileOf, hrelative.2]
  · -- What it is called leads to the other path.
    have htext := hcalled.text_eq
    rw [relativePath_fileOf, hrelative.1, hjoined, absolutePath_fileOf] at htext
    exact absurd htext (by decide)
  · -- What it is called finds the other file.
    have hown := hcalled.fileCalled?_eq
    rw [relativePath_fileOf, hrelative.2, hfound, Option.some_inj] at hown
    have hpath := congrArg (·.absolutePath) hown
    rw [absolutePath_fileOf, absolutePath_fileOf] at hpath
    exact absurd hpath (by decide)

end Survey

end ImportAtlas

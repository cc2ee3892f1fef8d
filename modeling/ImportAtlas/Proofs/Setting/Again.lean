import ImportAtlas.Proofs.Inventory.Members
import ImportAtlas.Proofs.Setting.Read
import ImportAtlas.Proofs.Tree.Acyclic

/-!
# Settings that are read again

The settings of a host name their values in turn. In a tree without circles of links, reading these
values gives the same settings, in whatever folder and for whatever user they are read: the
directories that are scanned go through no link any more, so what is listed by walking is spelled
below them. The project root goes through no link either, if it was spelled from the root. Spelled
from the working directory, it may have gone up so far that a link in it was out of sight. A link
whose path from the root is too long to be looked up passes for a name throughout.

## Key results

- `Settings.ofEntries_again`: what reading settings again gives
- `Settings.ofEntries_again_linked`: a case of it
- `Settings.ofEntries_climbing`: a project root whose link is out of sight
-/

namespace ImportAtlas

open EStateM

namespace Settings

variable {host host' again : Host} {entries : Dictionary String Value} {s : Settings}

/-- The named values of settings, one for each setting. -/
def toEntries (s : Settings) : Dictionary String Value :=
  [("project_root", .text s.projectRoot),
    ("scan_dirs", .row (s.scanDirectories.map .text)),
    ("extensions", .row (s.extensions.map .text)),
    ("known_libraries", .row s.libraries),
    ("local_prefixes", .row s.localStarts),
    ("follow_multiline", s.joinBlocks),
    ("tracked_only", s.trackedOnly),
    ("exclude_patterns", .row s.excludePatterns),
    ("database_file", s.databaseFile),
    ("dot_file", s.dotFile),
    ("image_file", .text s.imageFile),
    ("layout_engine", s.layoutEngine),
    ("dot_command", s.dotCommand),
    ("link_base", s.linkBase),
    ("subprocess_timeout_seconds", s.timeout),
    ("verbosity", .text s.verbosity.name)]

/-- A directory is spelled as the path of a place that no link in sight is on the way to. -/
def NamesUnlinked (t : Tree Content) (directory : String) : Prop :=
  ∃ place, t.IsUnlinked place ∧ directory = (Path.ofPlace place).text

/-! ## Directories -/

/-- The canonical form of a path is found in the tree, and nothing changes. -/
theorem canonical_eq_ok_iff {path : String} {p : Path} :
    Act.canonical path host = .ok p host' ↔
      host.tree.canonical? host.folder path = some p ∧ host' = host := by
  unfold Act.canonical
  rw [bind_get]
  -- A path whose text has a NUL has no real path.
  cases host.tree.canonical? host.folder path with
  | none => exact iff_of_false nofun nofun
  | some q =>
    constructor
    · rintro ⟨⟩
      exact ⟨rfl, rfl⟩
    · rintro ⟨⟨⟩, rfl⟩
      rfl

/-- Nothing is put in for a path without a tilde in front. -/
theorem expandHome_of_ne_tilde {path : String} {c : Char} {rest : List Char}
    (hpath : path.toList = c :: rest) (hc : c ≠ '~') : expandHome path host = .ok path host := by
  have hpure : expandHome path = pure path := by
    unfold expandHome
    split
    · -- Only what starts with a tilde has anything to replace.
      rename_i htilde
      cases hpath.symm.trans htilde
      exact absurd rfl hc
    · rfl
  rw [hpure]
  rfl

/-- A path from the root has no tilde in front. -/
theorem expandHome_of_absolute {path : String} (h : path.toList.head? = some '/') :
    expandHome path host = .ok path host := by
  obtain ⟨rest, hrest⟩ := List.head?_eq_some_iff.1 h
  exact expandHome_of_ne_tilde hrest (by decide)

/-- A directory is spelled as the canonical form of what it was. -/
theorem directoryOf_eq_ok_iff {base : Option String} {path expanded d : String}
    (hexpand : expandHome path host = .ok expanded host) :
    directoryOf base path host = .ok d host ↔ ∃ p : Path, host.tree.canonical? host.folder
      ((base.map fun base => joinText base expanded).getD expanded) = some p ∧ d = p.text := by
  unfold directoryOf
  -- The text is joined to its base, made real, and spelled.
  rw [bind_of_ok _ hexpand, bind_eq_ok_iff]
  simp only [canonical_eq_ok_iff]
  constructor
  · rintro ⟨p, host', ⟨hp, rfl⟩, ⟨⟩⟩
    exact ⟨p, hp, rfl⟩
  · rintro ⟨p, hp, rfl⟩
    exact ⟨p, host, ⟨hp, rfl⟩, rfl⟩

/-- Spelled from the root, a directory is the same from wherever it is seen. -/
theorem directoryOf_of_absolute {path : String} (h : path.toList.head? = some '/')
    (base : Option String) : directoryOf base path host = directoryOf none path host := by
  cases base with
  | none => rfl
  | some base =>
    unfold directoryOf
    rw [bind_of_ok _ (expandHome_of_absolute h), bind_of_ok _ (expandHome_of_absolute h),
      Option.map_some, Option.getD_some, joinText, if_pos h]
    rfl

/-- A directory that goes through no link is canonical. -/
theorem directoryOf_of_namesUnlinked {d : String} (h : NamesUnlinked host.tree d)
    (base : Option String) : directoryOf base d host = .ok d host := by
  obtain ⟨place, hplace, rfl⟩ := h
  have hroot := hplace.isProper.isStraight.isGrounded.head?_text
  rw [directoryOf_of_absolute hroot, directoryOf_eq_ok_iff (expandHome_of_absolute hroot)]
  exact ⟨_, hplace.canonical?_eq host.folder, rfl⟩

/-- From the project root on, all directories are spelled from the root. -/
theorem namesUnlinked_of_directoriesOf (hacyclic : host.tree.IsAcyclic) {root : String}
    {items : List Value} {directories : List String} (hroot : root.toList.head? = some '/')
    (h : directoriesOf root items host = .ok directories host) :
    directories ≠ [] ∧ ∀ d ∈ directories, NamesUnlinked host.tree d := by
  have hjoin (path : String) : (joinText root path).toList.head? = some '/' := by
    unfold joinText
    split
    · assumption
    · obtain ⟨rest, hrest⟩ := List.head?_eq_some_iff.1 hroot
      rw [String.toList_append, String.toList_append, hrest]
      rfl
  -- What is joined to the root is spelled from it, and so its canonical path goes through no link.
  have heach : Gives (directoriesOf root items) host fun ds s => s = host ∧
      List.Forall₂ (fun _ d => NamesUnlinked host.tree d)
        (if items.isEmpty then [.text root] else items) ds := by
    refine gives_mapM_forall₂ (fun v _ s hs => ?_) rfl
    subst hs
    intro d s' hd
    obtain ⟨text, -, hd⟩ := textOf_bind_eq_ok_iff.1 hd
    obtain ⟨expanded, hexpand, -⟩ := (asks_expandHome text).bind_eq_ok_iff.1 hd
    obtain rfl := ((asks_directoryOf _ _).gives d s' hd).1
    obtain ⟨p, hcanonical, rfl⟩ := (directoryOf_eq_ok_iff hexpand).1 hd
    obtain ⟨place, rfl, hplace⟩ := hacyclic.isUnlinked (hjoin expanded) hcanonical
    exact ⟨rfl, place, hplace, rfl⟩
  obtain ⟨-, hnamed⟩ := heach directories host h
  constructor
  · -- An empty list of directories stands for the root.
    rintro rfl
    have hlength := hnamed.length_eq
    split at hlength
    · cases hlength
    · rename_i hitems
      exact hitems (List.isEmpty_iff_length_eq_zero.2 hlength)
  · intro d hd
    obtain ⟨k, hk, rfl⟩ := List.mem_iff_getElem.1 hd
    exact hnamed.get (by rw [hnamed.length_eq]; exact hk) hk

/-! ## Reading again -/

/-- The extensions that have been read have no dots left in front. -/
theorem IsReadFrom.extensionOf_eq (h : s.IsReadFrom entries host) {e : String}
    (he : e ∈ s.extensions) : extensionOf (.text e) again = .ok e again := by
  obtain ⟨items, -, hitems⟩ := h.extensions
  have hdot : Gives (items.mapM extensionOf) host fun es s => s = host ∧
      ∀ e ∈ es, e.toList.head? ≠ some '.' := by
    refine gives_mapM (I := (· = host)) (fun v _ s hs => ?_) rfl
    subst hs
    exact gives_extensionOf v
  -- The dots in front went when the settings were first read, so none is left to drop.
  have hbare : e.toList.dropWhile (· == '.') = e.toList := by
    have hhead := (hdot _ _ hitems).2 e he
    cases hletters : e.toList with
    | nil => rfl
    | cons c letters =>
      rw [hletters, List.head?_cons, ne_eq, Option.some_inj] at hhead
      exact List.dropWhile_cons_of_neg (by simpa using hhead)
  unfold extensionOf
  dsimp only
  rw [hbare, String.ofList_toList]
  rfl

/-- Settings are read from their own named values, but the project root is made canonical again. -/
theorem IsReadFrom.ofEntries_toEntries (h : s.IsReadFrom entries host)
    (hne : s.scanDirectories ≠ [])
    (hunlinked : ∀ d ∈ s.scanDirectories, NamesUnlinked again.tree d) {root : String}
    (hroot : directoryOf none s.projectRoot again = .ok root again) :
    ofEntries s.toEntries again = .ok { s with projectRoot := root } again := by
  -- Directories without a link in them are spelled as they resolve.
  have hscanned : directoriesOf root (s.scanDirectories.map .text) again =
      .ok s.scanDirectories again := by
    unfold directoriesOf
    rw [if_neg (by simpa using hne)]
    exact mapM_map_of_ok fun d hd => directoryOf_of_namesUnlinked (hunlinked d hd) _
  have hread : IsReadFrom { s with projectRoot := root } s.toEntries again := {
    isNamed := by simp [toEntries, names]
    projectRoot := ⟨s.projectRoot, rfl, hroot⟩
    scanDirectories := ⟨s.scanDirectories.map .text, rfl, hscanned⟩
    extensions := ⟨s.extensions.map .text, rfl, mapM_map_of_ok fun e he => h.extensionOf_eq he⟩
    extensions_ne := h.extensions_ne
    libraries := rfl
    localStarts := rfl
    localStarts_ne := h.localStarts_ne
    excludePatterns := rfl
    timeout := rfl
    timeout_ge := h.timeout_ge
    verbosity := rfl
    imageFile := rfl
    imageFile_suffix := h.imageFile_suffix
    joinBlocks := rfl
    trackedOnly := rfl
    databaseFile := rfl
    dotFile := rfl
    layoutEngine := rfl
    dotCommand := rfl
    linkBase := rfl }
  exact hread.ofEntries_eq

/-! ## What is listed -/

/-- A path goes on behind a folder, as both are spelled. -/
def IsSpelledBelow (folder path : String) : Prop :=
  ∃ rest, rest ≠ "" ∧ path = (if folder = "/" then "/" else folder ++ "/") ++ rest

/-- What stands below a place is spelled below it. -/
theorem isSpelledBelow_text {place names : Place} (hplace : place.IsProper)
    (hname : (Path.ofPlace (place ++ names)).name ≠ "") (hne : names ≠ []) :
    IsSpelledBelow (Path.ofPlace place).text (Path.ofPlace (place ++ names)).text := by
  have htext (names : List String) : (Path.ofPlace names).text =
      "/" ++ String.ofList (['/'].intercalate (names.map String.toList)) :=
    if_neg nofun
  refine ⟨String.ofList (['/'].intercalate (names.map String.toList)), ?_, ?_⟩
  · -- The last name is not empty.
    rw [ne_eq, String.ofList_eq_empty_iff]
    obtain ⟨n, rest, rfl⟩ := List.exists_cons_of_ne_nil hne
    cases rest with
    | nil =>
      rw [List.map_singleton, List.intercalate_singleton]
      simpa [Path.name, Path.ofPlace] using hname
    | cons m rest =>
      rw [List.map_cons, List.map_cons, List.intercalate_cons_cons]
      simp
  · -- Only below the root itself is no slash put in between.
    cases place with
    | nil =>
      rw [if_pos (by decide), List.nil_append]
      exact htext names
    | cons n place =>
      have hroot : (Path.ofPlace (n :: place)).text ≠ "/" := by
        intro hroot
        have hread : Path.ofText "/" = .ofPlace (n :: place) :=
          hroot ▸ hplace.isStraight.ofText_text
        have hnone : (Path.ofText "/").names = [] := by decide
        rw [hread] at hnone
        cases hnone
      rw [if_neg hroot, htext, htext, List.map_append,
        List.intercalate_append (by simp) (by simpa using hne)]
      simp [String.append_assoc, String.ofList_append]

/-- A canonical path is not refused. -/
theorem resolve_of_isUnlinked {place : Place} (h : host.tree.IsUnlinked place) :
    Act.resolve (Path.ofText (Path.ofPlace place).text) host = .ok (.ofPlace place) host := by
  have hcanonical : Act.canonical (Path.ofPlace place).text host = .ok (.ofPlace place) host :=
    canonical_eq_ok_iff.2 ⟨h.canonical?_eq host.folder, rfl⟩
  unfold Act.resolve
  rw [h.isProper.isStraight.ofText_text, bind_of_ok _ hcanonical, bind_get]
  -- The only error of a look-up that matters here is the one for too many links.
  cases hlookup : host.tree.lookup host.folder (Path.ofPlace place).text with
  | ok found => rfl
  | error fault =>
    cases fault with
    | manyLinks => exact absurd hlookup (h.lookup_ne_manyLinks host.folder)
    | _ => rfl

/-- The files that are found by walking a directory that goes through no link are spelled below
it. -/
theorem isSpelledBelow_of_isFoundBelow {d path : String} {extensions : List String}
    (h : NamesUnlinked host.tree d) (hfound : Inventory.IsFoundBelow host extensions d path) :
    IsSpelledBelow d path := by
  obtain ⟨place, hplace, rfl⟩ := h
  obtain ⟨root, folder, e, hresolve, hlookup, he, hextension, rfl⟩ := hfound
  cases hresolve.symm.trans (resolve_of_isUnlinked hplace)
  obtain ⟨names, hne, hnames, -⟩ :=
    (Inventory.exists_mem_entriesBelow_iff hlookup).1 ⟨e, he, rfl⟩
  rw [hnames] at hextension ⊢
  refine isSpelledBelow_text hplace.isProper (fun hname => ?_) hne
  -- Without a name there is no extension.
  obtain ⟨e, -, hsuffix⟩ := List.any_eq_true.1 hextension
  have hempty : (Path.ofPlace (place ++ names)).suffix = "" := by
    rw [Path.suffix, hname]
    rfl
  change ((Path.ofPlace (place ++ names)).suffix == "." ++ e) = true at hsuffix
  rw [hempty, beq_iff_eq, ← String.toList_inj, String.toList_append] at hsuffix
  cases hsuffix

/-- So are the files that are listed of all directories. -/
theorem isSpelledBelow_of_list {r : Inventory.Request} (hlog : host.HasLogFile)
    (htracked : r.trackedOnly = false)
    (hunlinked : ∀ d ∈ r.directories, NamesUnlinked host.tree d) {paths : List String}
    (h : Inventory.list r host = .ok paths host') :
    ∀ path ∈ paths, ∃ d ∈ r.directories, IsSpelledBelow d path := by
  intro path hpath
  obtain ⟨d, hd, hfound⟩ := Inventory.isFoundBelow_of_list hlog htracked h path hpath
  exact ⟨d, hd, isSpelledBelow_of_isFoundBelow (hunlinked d hd) hfound⟩

/-! ## Settings in a tree without circles of links -/

/-- All links on the way of the project root among named values are seen: once a home directory is
put in for a tilde, it is spelled from the root, or it does not go up too far from the working
directory. -/
def SeesProjectRoot (entries : Dictionary String Value) (host : Host) : Prop :=
  ∃ text expanded,
    valueOf entries "project_root" (.text (Path.ofPlace host.folder).text) = .text text ∧
      expandHome text host = .ok expanded host ∧
      (expanded.toList.head? = some '/' ∨ ∃ o place, host.tree.Sees
        (Tree.originOf host.folder expanded) (startOf host.folder expanded) (segmentsOf expanded)
        o place)

/-- A project root whose links are all seen goes through none once it is read. -/
theorem IsReadFrom.namesUnlinked (h : s.IsReadFrom entries host)
    (hfolder : host.tree.IsUnlinked host.folder) (hacyclic : host.tree.IsAcyclic)
    (hsees : SeesProjectRoot entries host) : NamesUnlinked host.tree s.projectRoot := by
  obtain ⟨text, expanded, htext, hexpand, hway⟩ := hsees
  obtain ⟨text', htext', hdirectory⟩ := h.projectRoot
  cases htext.symm.trans htext'
  obtain ⟨p, hcanonical, hp⟩ := (directoryOf_eq_ok_iff hexpand).1 hdirectory
  -- The way begins at the root, or in the working folder, which has no link on its way either.
  rcases hway with hroot | ⟨o, place, hsees⟩
  · obtain ⟨place, rfl, hplace⟩ := hacyclic.isUnlinked hroot hcanonical
    exact ⟨place, hplace, hp⟩
  · obtain ⟨rfl, hplace⟩ := hacyclic.isUnlinked_of_sees hfolder hsees hcanonical
    exact ⟨place, hplace, hp⟩

/-- Settings that have been read once are read again from the project root that they have. -/
theorem directoryOf_of_ofEntries_toEntries {s' : Settings}
    (h : ofEntries s.toEntries again = .ok s' host') :
    directoryOf none s.projectRoot again = .ok s'.projectRoot again := by
  obtain ⟨text, htext, hroot⟩ := (ofEntries_eq_ok_iff.1 h).2.projectRoot
  have hown : valueOf s.toEntries "project_root" (.text (Path.ofPlace again.folder).text) =
      .text s.projectRoot := rfl
  cases htext.symm.trans hown
  exact hroot

/-- Settings that are read in a tree without circles of links are kept when they are read again in
that tree, from whatever folder, for whatever user. The directories that are scanned are canonical
paths, so what is listed by walking is spelled below them. All settings but the project root are
kept in any case; nothing but a NUL in the project root, or in the target of a link on its way,
keeps them from being read. The project root is kept just if it goes through no link, which is so if
all links on its way were seen. -/
theorem ofEntries_again (hfolder : host.tree.IsUnlinked host.folder)
    (hacyclic : host.tree.IsAcyclic) (h : ofEntries entries host = .ok s host') :
    (∀ again, again.tree = host.tree →
      (∀ d ∈ s.scanDirectories, ∃ p : Path, d = p.text ∧
        Act.resolve (Path.ofText d) again = .ok p again) ∧
      (∀ r paths later, again.HasLogFile → r.directories = s.scanDirectories →
        r.trackedOnly = false → Inventory.list r again = .ok paths later →
        ∀ path ∈ paths, ∃ d ∈ s.scanDirectories, IsSpelledBelow d path) ∧
      (∀ s' later, ofEntries s.toEntries again = .ok s' later →
        s' = { s with projectRoot := s'.projectRoot } ∧ s'.baseDirectory = s.baseDirectory) ∧
      (host.tree.HasUsableTargets → Act.hasNul s.projectRoot = false →
        ∃ s', ofEntries s.toEntries again = .ok s' again)) ∧
    ((∀ again, again.tree = host.tree → ofEntries s.toEntries again = .ok s again) ↔
      NamesUnlinked host.tree s.projectRoot) ∧
    (SeesProjectRoot entries host → NamesUnlinked host.tree s.projectRoot) := by
  obtain ⟨p, hp, hroot⟩ := isRooted_of_ofEntries hfolder.isProper h
  have hhead : s.projectRoot.toList.head? = some '/' := hroot ▸ hp.isGrounded.head?_text
  obtain ⟨rfl, hread⟩ := ofEntries_eq_ok_iff.1 h
  obtain ⟨items, -, hdirectories⟩ := hread.scanDirectories
  obtain ⟨hne, hunlinked⟩ := namesUnlinked_of_directoriesOf hacyclic hhead hdirectories
  refine ⟨fun again hagain => ?_, ⟨fun hkept => ?_, fun hnamed again hagain => ?_⟩,
    hread.namesUnlinked hfolder hacyclic⟩
  · rw [← hagain] at hunlinked ⊢
    refine ⟨fun d hd => ?_, fun r paths later hlog hlisted htracked hlist => ?_,
      fun s' later hrun => ?_, fun htargets hnul => ?_⟩
    · -- A directory without links is its own real path.
      obtain ⟨place, hplace, rfl⟩ := hunlinked d hd
      exact ⟨.ofPlace place, rfl, resolve_of_isUnlinked hplace⟩
    · rw [← hlisted] at hunlinked ⊢
      exact isSpelledBelow_of_list hlog htracked hunlinked hlist
    · have hroot' := directoryOf_of_ofEntries_toEntries hrun
      have hsame := hrun.symm.trans (hread.ofEntries_toEntries hne hunlinked hroot')
      injection hsame with hsame
      refine ⟨hsame, ?_⟩
      rw [hsame, baseDirectory, baseDirectory]
      obtain ⟨d, directories, hcons⟩ := List.exists_cons_of_ne_nil hne
      rw [hcons, List.headD_cons, List.headD_cons]
    · obtain ⟨q, hcanonical⟩ := htargets.exists_canonical?_eq hnul again.folder
      have hroot' : directoryOf none s.projectRoot again = .ok q.text again :=
        (directoryOf_eq_ok_iff (expandHome_of_absolute hhead)).2 ⟨q, hcanonical, rfl⟩
      exact ⟨_, hread.ofEntries_toEntries hne hunlinked hroot'⟩
  · -- Seen from the root, the project root is canonical, so no link is left in it.
    have hagain := directoryOf_of_ofEntries_toEntries (hkept _ rfl)
    obtain ⟨q, hcanonical, hq⟩ := (directoryOf_eq_ok_iff (expandHome_of_absolute hhead)).1 hagain
    obtain ⟨place, rfl, hplace⟩ := hacyclic.isUnlinked hhead hcanonical
    exact ⟨place, hplace, hq⟩
  · rw [← hagain] at hunlinked hnamed
    exact hread.ofEntries_toEntries hne hunlinked (directoryOf_of_namesUnlinked hnamed none)

/-! ## A link to the project root -/

/-- A folder, and a link to it beside it. -/
def aliasHost : Host where
  tree := { entries := [(["p"], .folder), (["l"], .link "p")] }
  folder := []
  environment := []
  replies := []
  stamp := ""

/-- The folder is scanned, and nothing else is set. -/
def aliasSettings (root : String) : Settings where
  projectRoot := root
  scanDirectories := ["/p"]

/-- No path is too long in this tree. -/
private theorem inSight_aliasHost : aliasHost.tree.inSight = aliasHost.tree :=
  Tree.inSight_eq_self (by decide)

/-- The folder is not reached by way of the link. -/
private theorem isStraightTo_aliasHost : aliasHost.tree.IsStraightTo ["p"] := by
  intro front hfront target
  obtain rfl | hfront := List.prefix_concat_iff.1 (List.nil_append ["p"] ▸ hfront)
  · exact nofun
  · rw [List.prefix_nil.1 hfront]
    exact nofun

private theorem isProper_p : Place.IsProper ["p"] := by
  unfold Place.IsProper
  decide

private theorem isUnlinked_p : aliasHost.tree.IsUnlinked ["p"] :=
  ⟨isProper_p, by decide, inSight_aliasHost.symm ▸ isStraightTo_aliasHost⟩

/-- The one link leads to the folder, and so not to itself. -/
private theorem isAcyclic_aliasHost : aliasHost.tree.IsAcyclic := by
  refine Tree.HasNoCircle.isAcyclic (fun link target hget => ?_) inSight_aliasHost
  have hroot : link ≠ [] := by
    rintro rfl
    cases hget
  have hmem := Tree.mem_entries_of_get? hroot hget
  -- There is one link, and the way to its target does not go over it.
  obtain ⟨rfl, rfl⟩ : link = ["l"] ∧ target = "p" := by simpa [aliasHost] using hmem
  have hsegments : segmentsOf "p" = ["p"] ∧ startOf (List.dropLast ["l"]) "p" = [] := by decide
  rw [hsegments.1, hsegments.2]
  exact Tree.not_comesBy_of_isStraightTo isProper_p isStraightTo_aliasHost

/-- The folder is found by its name. -/
private theorem resolve_p (active : List (Origin 0 × Place)) (o : Origin 0) :
    aliasHost.tree.resolve active o [] ["p"] = .found o ["p"] :=
  Tree.resolve_eq active o [] isProper_p (by decide) fun front rest hcut =>
    Tree.linkAt?_eq_none (isStraightTo_aliasHost front ⟨rest, hcut.symm⟩) o

/-- Where the link is seen, it leads to the folder. -/
private theorem resolve_l {o : Origin 0}
    (ho : aliasHost.tree.linkAt? o ([] ++ ["l"]) = some "p") :
    aliasHost.tree.resolve [] o [] ["l"] = .found (o.ofTarget "p") ["p"] := by
  have hsegments : segmentsOf "p" = ["p"] ∧ startOf [] "p" = [] := by decide
  -- No link is being followed yet.
  have hidle : ¬ ([] : List (Origin 0 × Place)).contains (o, [] ++ ["l"]) = true := by simp
  rw [Tree.resolve_of_link (by decide) (by decide) (by decide) ho hidle, hsegments.1, hsegments.2,
    resolve_p]
  show aliasHost.tree.resolve [] _ ["p"] [] = _
  rw [Tree.resolve]

/-- The link is read as the folder. -/
private theorem directoryOf_l : directoryOf none "l" aliasHost = .ok "/p" aliasHost := by
  have hexpand : expandHome "l" aliasHost = .ok "l" aliasHost := rfl
  have hl : segmentsOf "l" = ["l"] ∧ startOf [] "l" = [] := by decide
  refine (directoryOf_eq_ok_iff hexpand).2 ⟨.ofPlace ["p"], ?_, by decide⟩
  show aliasHost.tree.canonical? [] "l" = _
  rw [Tree.canonical?, hl.1, hl.2, resolve_l (by decide)]

/-- So it is from the root. -/
private theorem directoryOf_rootl (base : Option String) :
    directoryOf base "/l" aliasHost = .ok "/p" aliasHost := by
  have hexpand : expandHome "/l" aliasHost = .ok "/l" aliasHost := rfl
  have hl : segmentsOf "/l" = ["", "l"] ∧ startOf [] "/l" = [] := by decide
  rw [directoryOf_of_absolute (by decide)]
  refine (directoryOf_eq_ok_iff hexpand).2 ⟨.ofPlace ["p"], ?_, by decide⟩
  show aliasHost.tree.canonical? [] "/l" = _
  rw [Tree.canonical?, hl.1, hl.2, Tree.resolve, if_pos (.inl rfl), resolve_l (by decide)]

private theorem directoryOf_rootp (base : Option String) :
    directoryOf base "/p" aliasHost = .ok "/p" aliasHost :=
  directoryOf_of_namesUnlinked ⟨["p"], isUnlinked_p, by decide⟩ base

/-- With nothing but the project root given, it is scanned. -/
private theorem ofEntries_aliasHost {text root : String}
    (hroot : directoryOf none text aliasHost = .ok root aliasHost)
    (hscan : directoryOf (some root) root aliasHost = .ok "/p" aliasHost) :
    ofEntries [("project_root", .text text)] aliasHost = .ok (aliasSettings root) aliasHost := by
  have hscanned : directoriesOf root [] aliasHost = .ok ["/p"] aliasHost :=
    mapM_of_ok (f := fun _ => "/p") fun d hd => by
      rw [List.mem_singleton.1 hd]
      exact hscan
  have hsuffix : (Path.ofText "diagram.pdf").suffix ≠ "" := by decide
  have hread : IsReadFrom (aliasSettings root) [("project_root", .text text)] aliasHost := {
    isNamed := by simp [names]
    projectRoot := ⟨text, rfl, hroot⟩
    scanDirectories := ⟨[], rfl, hscanned⟩
    extensions := ⟨_, rfl, rfl⟩
    extensions_ne := ⟨rfl, rfl⟩
    libraries := rfl
    localStarts := rfl
    localStarts_ne := ⟨rfl, rfl⟩
    excludePatterns := rfl
    timeout := rfl
    timeout_ge := rfl
    verbosity := rfl
    imageFile := rfl
    imageFile_suffix := hsuffix
    joinBlocks := rfl
    trackedOnly := rfl
    databaseFile := rfl
    dotFile := rfl
    layoutEngine := rfl
    dotCommand := rfl
    linkBase := rfl }
  exact hread.ofEntries_eq

/-- A project root that is a link is read as the folder, and so it is read again. -/
theorem ofEntries_again_linked : aliasHost.tree.IsAcyclic ∧
    ofEntries [("project_root", .text "l")] aliasHost = .ok (aliasSettings "/p") aliasHost ∧
    ∀ again, again.tree = aliasHost.tree →
      ofEntries (aliasSettings "/p").toEntries again = .ok (aliasSettings "/p") again := by
  have hread := ofEntries_aliasHost directoryOf_l (directoryOf_rootp _)
  have hsees : SeesProjectRoot [("project_root", .text "l")] aliasHost := by
    refine ⟨"l", "l", rfl, rfl, .inr ⟨.climbed 0, ["p"], ?_⟩⟩
    have hl : segmentsOf "l" = ["l"] ∧ segmentsOf "p" = ["p"] := by decide
    have hlink : aliasHost.tree.linkAt? (.climbed 0 : Origin 0) ([] ++ ["l"]) = some "p" := by
      decide
    have htarget : aliasHost.tree.Sees (.climbed 0 : Origin 0) [] (segmentsOf "p") (.climbed 0)
        ["p"] := by
      rw [hl.2]
      exact .down (by decide) (by decide) nofun (.done _ _)
    show aliasHost.tree.Sees (.climbed 0) [] (segmentsOf "l") (.climbed 0) ["p"]
    rw [hl.1]
    exact .through (by decide) (by decide) hlink htarget (.done _ _)
  obtain ⟨-, hkept, hnamed⟩ := ofEntries_again Tree.isUnlinked_root isAcyclic_aliasHost hread
  exact ⟨isAcyclic_aliasHost, hread, hkept.2 (hnamed hsees)⟩

/-- A project root so far up that the link there is out of sight. -/
def climbing : String :=
  String.ofList (['/'].intercalate (List.replicate climbLimit ['.', '.'] ++ [['l']]))

/-- The spelling is made of steps up and the name of the link. -/
private theorem segmentsOf_climbing :
    segmentsOf climbing = List.replicate climbLimit ".." ++ ["l"] := by
  -- No piece has a slash in it, so the text splits where it was joined.
  have hslash : ∀ piece ∈ List.replicate climbLimit ['.', '.'] ++ [['l']], '/' ∉ piece := by
    intro piece hpiece
    rcases List.mem_append.1 hpiece with hpiece | hpiece
    · rw [List.eq_of_mem_replicate hpiece]
      decide
    · rw [List.mem_singleton.1 hpiece]
      decide
  have hne : List.replicate climbLimit ['.', '.'] ++ [['l']] ≠ [] :=
    List.append_ne_nil_of_right_ne_nil _ (List.cons_ne_nil _ _)
  rw [segmentsOf, climbing, String.toList_ofList, List.splitOn_intercalate _ hslash hne,
    List.map_append, List.map_replicate]
  rfl

/-- It begins with a dot. -/
private theorem toList_climbing : ∃ rest, climbing.toList = '.' :: rest := by
  obtain ⟨k, hk⟩ : ∃ k, climbLimit = k + 1 := Nat.exists_eq_succ_of_ne_zero (by decide)
  rw [climbing, String.toList_ofList, hk, List.replicate_succ, List.cons_append]
  cases List.replicate k ['.', '.'] with
  | nil => exact ⟨_, rfl⟩
  | cons piece pieces => exact ⟨_, rfl⟩

/-- Each step up from the root is one more in front of the spelling, until the limit. -/
private theorem resolve_climb (t : Tree Content) (active : List (Origin 0 × Place)) (k : Nat) :
    ∀ (n : Fin (climbLimit + 1)) (rest : List String), n + k = climbLimit →
      t.resolve active (.climbed n : Origin 0) [] (List.replicate k ".." ++ rest) =
        t.resolve active (.climbed ⟨climbLimit, by decide⟩) [] rest := by
  induction k with
  | zero =>
    intro n rest hn
    obtain rfl : n = ⟨climbLimit, by decide⟩ := Fin.ext hn
    rw [List.replicate_zero, List.nil_append]
  | succ k ih =>
    intro n rest hn
    rw [List.replicate_succ, List.cons_append, Tree.resolve, if_neg (by decide), if_pos rfl]
    -- The count of the steps up stops at its limit.
    exact ih _ rest (by change min (n.val + 1) climbLimit + k = climbLimit; omega)

/-- After so many steps up the link is not seen, and its name is kept. -/
private theorem directoryOf_climbing :
    directoryOf none climbing aliasHost = .ok "/l" aliasHost := by
  obtain ⟨rest, hrest⟩ := toList_climbing
  have hexpand : expandHome climbing aliasHost = .ok climbing aliasHost :=
    expandHome_of_ne_tilde hrest (by decide)
  have hrelative : ¬ climbing.toList.head? = some '/' := by
    rw [hrest, List.head?_cons, Option.some_inj]
    decide
  have horigin : Tree.originOf [] climbing = .climbed 0 := by
    rw [Tree.originOf, Origin.ofTarget, if_neg hrelative]
  have hstart : startOf [] climbing = [] := by
    rw [startOf, if_neg hrelative]
  refine (directoryOf_eq_ok_iff hexpand).2 ⟨.ofPlace ["l"], ?_, by decide⟩
  show aliasHost.tree.canonical? [] climbing = _
  -- Spelled from the working folder, so that every `..` counts towards the limit.
  rw [Tree.canonical?, horigin, hstart, segmentsOf_climbing,
    resolve_climb _ _ _ 0 _ (Nat.zero_add _),
    Tree.resolve_of_name (by decide) (by decide) (by decide) (by decide), Tree.resolve]
  rfl

/-- A link that is out of sight stays in the project root, though not in the directory that is
scanned. When the settings are read again, it is in sight. -/
theorem ofEntries_climbing : aliasHost.tree.IsAcyclic ∧
    ofEntries [("project_root", .text climbing)] aliasHost = .ok (aliasSettings "/l") aliasHost ∧
    ofEntries (aliasSettings "/l").toEntries aliasHost = .ok (aliasSettings "/p") aliasHost := by
  have hread := ofEntries_aliasHost directoryOf_climbing (directoryOf_rootl _)
  have hscanned : ∀ d ∈ (aliasSettings "/l").scanDirectories, NamesUnlinked aliasHost.tree d := by
    intro d hd
    rw [List.mem_singleton.1 hd]
    exact ⟨["p"], isUnlinked_p, by decide⟩
  have hagain := (ofEntries_eq_ok_iff.1 hread).2.ofEntries_toEntries (List.cons_ne_nil _ _)
    hscanned (directoryOf_rootl none)
  exact ⟨isAcyclic_aliasHost, hread, hagain⟩

end Settings

end ImportAtlas

import ImportAtlas.Proofs.Inventory.Agree

/-!
# The members of an inventory

Which files an inventory lists, told from the tree and the answers of version control alone: by
walking, the files below one of the directories that have one of the extensions and that no pattern
excludes; otherwise the files that version control names and that are there. Nothing else is listed,
and each file once, in ascending order.

## Key results

- `Inventory.gives_walk_mem`: what a walk finds
- `Inventory.gives_listTracked_mem`: what is listed of the names that version control gives
- `Inventory.list_members`: what an inventory lists
-/

namespace ImportAtlas

open EStateM

namespace Inventory

variable {host host' : Host} {extensions : List String} {patterns : List Value}

/-! ## What is found by walking -/

/-- A path goes on from the folder `root` through folders alone, none of them a link, and something
stands at its end. -/
def IsBelow (t : Tree Content) (here : Place) (root p : Path) : Prop :=
  ∃ place names, t.lookup here root.text = .ok (place, .folder) ∧ names ≠ [] ∧
    p = { root with names := root.names ++ names } ∧
    (∀ front back, names = front ++ back → back ≠ [] → t.isFolder (place ++ front) = true) ∧
    t.get? (place ++ names) ≠ none

/-- In a tree whose entries all stand in folders, what is below a folder is what is walked
through. -/
theorem isBelow_iff {t : Tree Content} {here place : Place} {root p : Path} (hclosed : t.IsClosed)
    (hlookup : t.lookup here root.text = .ok (place, .folder)) :
    (∃ e ∈ entriesBelow t here root, e.1 = p) ↔ IsBelow t here root p := by
  rw [exists_mem_entriesBelow_iff hlookup]
  constructor
  · -- A closed tree has a folder at every place above an entry, so the way down meets no link.
    rintro ⟨names, hne, rfl, hget⟩
    refine ⟨place, names, hlookup, hne, rfl, ?_, hget⟩
    rintro front back rfl hback
    rw [← List.append_assoc] at hget
    exact hclosed.isFolder_of_append hback hget
  · rintro ⟨place', names, hlookup', hne, rfl, -, hget⟩
    cases hlookup.symm.trans hlookup'
    exact ⟨names, hne, rfl, hget⟩

/-- A path is found by walking a directory. -/
def IsWalked (host : Host) (extensions : List String) (patterns : List Value)
    (directory path : String) : Prop :=
  ∃ root p, Act.resolve (Path.ofText directory) host = .ok root host ∧
    IsBelow host.tree host.folder root p ∧ path = p.text ∧
    Act.hasNul p.text = false ∧ host.tree.leadsToFile host.folder p.text = true ∧
    hasExtension extensions p = true ∧ isExcluded patterns root p host = .ok false host

/-- A walk finds just the paths of the entries that are kept. -/
theorem gives_walk_kept (directory : String) :
    Gives (walk directory extensions patterns) host fun files _ => ∃ root place,
      Act.resolve (Path.ofText directory) host = .ok root host ∧
      host.tree.lookup host.folder root.text = .ok (place, .folder) ∧
      ∀ path, path ∈ files ↔ ∃ e ∈ entriesBelow host.tree host.folder root,
        verdict extensions patterns root e.1 host = .ok .kept host ∧ path = e.1.text := by
  unfold walk
  refine (gives_startingAt_resolve directory).bind ?_
  rintro root host ⟨rfl, hresolve, -, place, hlookup⟩
  refine gives_get.bind ?_
  rintro _ host ⟨rfl, rfl⟩
  refine gives_visits.bind ?_
  rintro found host ⟨rfl, -, hfiles⟩
  refine gives_bind fun _ s => gives_pure ⟨root, place, hresolve, hlookup, fun path => ?_⟩
  -- The walk starts with no file, so every file it gives was visited.
  exact (hfiles path).trans (or_iff_right List.not_mem_nil)

/-- A walk finds just the files that are to be walked to. -/
theorem gives_walk_mem (hclosed : host.tree.IsClosed) (directory : String) :
    Gives (walk directory extensions patterns) host fun files _ =>
      ∀ path, path ∈ files ↔ IsWalked host extensions patterns directory path := by
  refine (gives_walk_kept directory).mono fun files _ h path => ?_
  obtain ⟨root, place, hresolve, hlookup, hfiles⟩ := h
  rw [hfiles]
  constructor
  · rintro ⟨e, he, hkept, rfl⟩
    have hbelow := (isBelow_iff hclosed hlookup).1 ⟨e, he, rfl⟩
    obtain ⟨hextension, hnul, hfile, hexcluded⟩ := verdict_eq_kept_iff.1 hkept
    exact ⟨root, e.1, hresolve, hbelow, rfl, hnul, hfile, hextension, hexcluded⟩
  · rintro ⟨root', p, hresolve', hbelow, rfl, hnul, hfile, hextension, hexcluded⟩
    -- A directory resolves to one path, so this root is the one that was walked.
    cases hresolve.symm.trans hresolve'
    obtain ⟨e, he, rfl⟩ := (isBelow_iff hclosed hlookup).2 hbelow
    exact ⟨e, he, verdict_eq_kept_iff.2 ⟨hextension, hnul, hfile, hexcluded⟩, rfl⟩

/-- A path is found at an entry below a directory, whatever else is asked of it. It is spelled as
the entry is walked to, and has one of the extensions. -/
def IsFoundBelow (host : Host) (extensions : List String) (directory path : String) : Prop :=
  ∃ root place e, Act.resolve (Path.ofText directory) host = .ok root host ∧
    host.tree.lookup host.folder root.text = .ok (place, .folder) ∧
    e ∈ entriesBelow host.tree host.folder root ∧ hasExtension extensions e.1 = true ∧
    path = e.1.text

/-- So what it finds stands below the directory. -/
theorem gives_walk_isFoundBelow (directory : String) :
    Gives (walk directory extensions patterns) host fun files _ =>
      ∀ path ∈ files, IsFoundBelow host extensions directory path := by
  refine (gives_walk_kept directory).mono fun files _ h path hpath => ?_
  obtain ⟨root, place, hresolve, hlookup, hfiles⟩ := h
  obtain ⟨e, he, hkept, rfl⟩ := (hfiles path).1 hpath
  obtain ⟨hextension, -⟩ := verdict_eq_kept_iff.1 hkept
  exact ⟨root, place, e, hresolve, hlookup, he, hextension, rfl⟩

/-! ## What version control names -/

/-- A path is named by an answer of version control about a directory. -/
def IsTracked (host : Host) (reply : Option Reply) (extensions : List String)
    (directory path : String) : Prop :=
  ∃ root output errors piece, Act.resolve (Path.ofText directory) host = .ok root host ∧
    reply = some (.finished 0 output errors) ∧ piece ∈ output.toList.splitOn '\x00' ∧ piece ≠ [] ∧
    path = (root / Path.ofText (String.ofList piece) : Path).text ∧
    Act.hasNul path = false ∧ host.tree.leadsToFile host.folder path = true ∧
    hasExtension extensions (root / Path.ofText (String.ofList piece)) = true

/-- Version control is asked once, and has answered without an error. -/
theorem gives_trackedNames_reply (root : Path) (timeout : Value) :
    Gives (trackedNames root timeout) host fun output s =>
      host.SameEntries s ∧ s.replies = host.replies.tail ∧
      ∃ errors, host.replies.head? = some (.finished 0 output errors) := by
  unfold trackedNames
  extract_lets arguments
  have hcall : Gives (Act.call (arguments.map .text) timeout) host fun reply s =>
      host.SameEntries s ∧ s.replies = host.replies.tail ∧
        reply = host.replies.head?.getD .notFound := by
    -- The call takes the first of the answers that are left.
    rintro _ _ ⟨⟩
    exact ⟨⟨rfl, rfl, .refl _⟩, List.drop_one, rfl⟩
  refine hcall.bind ?_
  rintro reply s ⟨hsame, hreplies, hreply⟩
  cases reply with
  | notFound => exact gives_refuse _ _ _
  | timedOut => exact gives_bind fun _ _ => gives_refuse _ _ _
  | finished status output errors =>
    dsimp only
    split
    · rename_i hstatus
      subst hstatus
      refine gives_pure ⟨hsame, hreplies, errors, ?_⟩
      -- An answer that has come is not made up.
      cases hhead : host.replies.head? with
      | none =>
        rw [hhead] at hreply
        cases hreply
      | some reply =>
        rw [hhead, Option.getD_some] at hreply
        rw [hreply]
    · exact gives_refuse _ _ _

/-- The paths that are looked at are those of the pieces of an answer, but for empty pieces. -/
theorem mem_namedPaths_iff {root p : Path} {output : String} :
    p ∈ ((((output.toList.splitOn '\x00').map String.ofList).filter (· != "")).map
        fun n => (root / Path.ofText n : Path)).filter (hasExtension extensions) ↔
      ∃ piece ∈ output.toList.splitOn '\x00', piece ≠ [] ∧
        p = (root / Path.ofText (String.ofList piece) : Path) ∧
        hasExtension extensions p = true := by
  rw [List.mem_filter]
  constructor
  · rintro ⟨hp, hextension⟩
    obtain ⟨n, hn, rfl⟩ := List.mem_map.1 hp
    obtain ⟨hn, hne⟩ := List.mem_filter.1 hn
    obtain ⟨piece, hpiece, rfl⟩ := List.mem_map.1 hn
    refine ⟨piece, hpiece, ?_, rfl, hextension⟩
    rintro rfl
    -- An empty piece is the text behind the last NUL and names no file.
    simp at hne
  · rintro ⟨piece, hpiece, hne, rfl, hextension⟩
    refine ⟨List.mem_map.2 ⟨_, List.mem_filter.2 ⟨List.mem_map.2 ⟨piece, hpiece, rfl⟩, ?_⟩, rfl⟩,
      hextension⟩
    simpa [String.ofList_eq_empty_iff] using hne

/-- Listing tracked files finds those that the answer names and that are there. -/
theorem gives_listTracked_mem (hlog : host.HasLogFile) (directory : String) (timeout : Value) :
    Gives (listTracked directory extensions timeout) host fun files s =>
      host.SameEntries s ∧ s.replies = host.replies.tail ∧
      ∀ path, path ∈ files ↔ IsTracked host host.replies.head? extensions directory path := by
  unfold listTracked
  refine (gives_startingAt_resolve directory).bind ?_
  rintro root host ⟨rfl, hresolve, -⟩
  refine (gives_trackedNames_reply root timeout).bind ?_
  rintro output s ⟨hsame, hreplies, errors, hreply⟩
  extract_lets names paths
  refine (gives_filterM_iff (R := fun p => Act.hasNul p.text = false ∧
    s.tree.leadsToFile s.folder p.text = true) fun p _ => ?_).bind ?_
  · intro b s' hfile
    obtain rfl := (Act.gives_isFile _ _ _ hfile).1
    refine ⟨rfl, ?_⟩
    rw [← Act.isFile_eq_ok_true_iff, hfile]
    simp
  rintro files s' ⟨rfl, hfiles⟩
  have hlog' := hsame.hasLogFile hlog
  refine Gives.bind (P := fun _ s'' => s'.SameEntries s'' ∧ s''.replies = s'.replies) ?_ ?_
  · intro u s'' hrecord
    refine ⟨hlog'.gives_log _ _ _ _ _ hrecord, ?_⟩
    cases hrecord
    rfl
  rintro _ s'' ⟨hsame', hreplies'⟩
  refine gives_pure ⟨hsame.trans hsame', hreplies'.trans hreplies, fun path => ?_⟩
  -- Neither the call nor the log has changed where paths lead.
  have hleads (path : String) : s'.tree.leadsToFile s'.folder path =
      host.tree.leadsToFile host.folder path := by
    rw [hsame.folder_eq, hsame.tree.sameOutline.leadsToFile_eq]
  -- Both ways the piece of the output is the witness.
  constructor
  · intro hpath
    obtain ⟨p, hp, rfl⟩ := List.mem_map.1 hpath
    obtain ⟨hp, hnul, hfile⟩ := (hfiles p).1 hp
    obtain ⟨piece, hpiece, hne, rfl, hextension⟩ := mem_namedPaths_iff.1 hp
    exact ⟨root, output, errors, piece, hresolve, hreply, hpiece, hne, rfl, hnul,
      (hleads _).symm.trans hfile, hextension⟩
  · rintro ⟨root', output', errors', piece, hresolve', hreply', hpiece, hne, rfl, hnul, hfile,
      hextension⟩
    cases hresolve.symm.trans hresolve'
    cases hreply.symm.trans hreply'
    have hp := mem_namedPaths_iff.2 ⟨piece, hpiece, hne, rfl, hextension⟩
    exact List.mem_map.2 ⟨_, (hfiles _).2 ⟨hp, hnul, (hleads _).trans hfile⟩, rfl⟩

/-! ## All directories -/

/-- Each directory is walked as if it were the only one. -/
theorem gives_mapM_walk (hlog : host.HasLogFile) (directories : List String) :
    Gives (directories.mapM fun directory => walk directory extensions patterns) host fun found s =>
      host.SameEntries s ∧ List.Forall₂ (fun directory files =>
        ∃ s, walk directory extensions patterns host = .ok files s) directories found := by
  refine gives_mapM_forall₂ (fun directory _ s hs files s' hwalk => ?_) (.refl host)
  obtain ⟨files', s₁, hfirst, rfl, hs', hs₁⟩ :=
    follows_walk_of_sameEntries hs.symm (hs.hasLogFile hlog) directory files s' hwalk
  exact ⟨hs.trans hs', s₁, hfirst⟩

/-- What is found by walking directories, each of which can be walked alone. -/
theorem gives_mapM_walk_mem (hclosed : host.tree.IsClosed) (hlog : host.HasLogFile)
    (directories : List String) :
    Gives (directories.mapM fun directory => walk directory extensions patterns) host fun found _ =>
      (∀ d ∈ directories, ∃ files s, walk d extensions patterns host = .ok files s) ∧
      ∀ path, path ∈ found.flatten ↔
        ∃ d ∈ directories, IsWalked host extensions patterns d path := by
  intro found s hrun
  obtain ⟨-, hwalked⟩ := gives_mapM_walk hlog directories _ _ hrun
  -- The walks were made from one host, one for each directory in turn.
  clear hrun
  induction hwalked with
  | nil => exact ⟨nofun, fun path => by simp⟩
  | cons hfirst _ ih =>
    obtain ⟨s, hfirst⟩ := hfirst
    refine ⟨List.forall_mem_cons.2 ⟨⟨_, s, hfirst⟩, ih.1⟩, fun path => ?_⟩
    rw [List.flatten_cons, List.mem_append, List.exists_mem_cons_iff, ih.2,
      gives_walk_mem hclosed _ _ _ hfirst]

/-- Directories that can be walked one by one can be walked one after the other. -/
theorem mapM_walk_total (hlog : host.HasLogFile) (directories : List String)
    (h : ∀ d ∈ directories, ∃ files s, walk d extensions patterns host = .ok files s) :
    ∃ found s, (directories.mapM fun directory => walk directory extensions patterns) host =
      .ok found s := by
  -- A walk reads the entries only, so it returns on every later host as it does on the first.
  have heach : ∀ d ∈ directories, ∀ s, host.SameEntries s → ∃ files s',
      walk d extensions patterns s = .ok files s' ∧ host.SameEntries s' := by
    intro d hd s hs
    obtain ⟨files, s', hwalk⟩ := h d hd
    obtain ⟨files', s'', hrun, -, -, hs'⟩ :=
      follows_walk_of_sameEntries hs hlog d files s' hwalk
    exact ⟨files', s'', hrun, hs.trans hs'⟩
  obtain ⟨found, s, hrun, -⟩ := mapM_total heach (.refl host)
  exact ⟨found, s, hrun⟩

/-- What is tracked does not depend on contents. -/
theorem IsTracked.of_sameEntries (h : host.SameEntries host') {reply : Option Reply}
    {directory path : String} (htracked : IsTracked host reply extensions directory path) :
    IsTracked host' reply extensions directory path := by
  obtain ⟨root, output, errors, piece, hresolve, hreply, hpiece, hne, hpath, hnul, hfile,
    hextension⟩ := htracked
  obtain ⟨_, _, hresolve', rfl, -, rfl⟩ := h.agree_resolve _ root _ hresolve
  refine ⟨_, output, errors, piece, hresolve', hreply, hpiece, hne, hpath, hnul, ?_, hextension⟩
  rw [h.folder_eq, h.tree.sameOutline.leadsToFile_eq, hfile]

/-- Version control answers for the directories one by one. -/
theorem gives_mapM_listTracked (hlog : host.HasLogFile) (timeout : Value)
    (directories : List String) :
    Gives (directories.mapM fun directory => listTracked directory extensions timeout) host
      fun found _ => ∀ path, path ∈ found.flatten ↔ ∃ (k : Nat) (d : String),
        directories[k]? = some d ∧ IsTracked host host.replies[k]? extensions d path := by
  induction directories generalizing host with
  | nil => exact gives_pure fun path => by simp
  | cons directory directories ih =>
    rw [List.mapM_cons]
    refine (gives_listTracked_mem hlog directory timeout).bind ?_
    rintro files s ⟨hsame, hreplies, hfiles⟩
    refine (ih (hsame.hasLogFile hlog)).bind fun found s' hfound => ?_
    refine gives_pure fun path => ?_
    rw [List.flatten_cons, List.mem_append, hfiles, hfound, hreplies]
    -- The first answer is about the first directory, and the answers behind it are about the rest.
    constructor
    · rintro (hfirst | ⟨k, d, hd, hlater⟩)
      · exact ⟨0, directory, rfl, List.head?_eq_getElem? ▸ hfirst⟩
      · rw [List.getElem?_tail] at hlater
        exact ⟨k + 1, d, hd, hlater.of_sameEntries hsame.symm⟩
    · rintro ⟨k, d, hd, hpath⟩
      cases k with
      | zero =>
        cases hd
        exact .inl (List.head?_eq_getElem? ▸ hpath)
      | succ k =>
        refine .inr ⟨k, d, hd, ?_⟩
        rw [List.getElem?_tail]
        exact hpath.of_sameEntries hsame

/-- What is listed of all directories is sorted. -/
theorem list_eq_ok_iff {r : Request} {paths : List String} :
    (∃ host', list r host = .ok paths host') ↔ ∃ found s, (r.directories.mapM fun directory =>
      if r.trackedOnly then listTracked directory r.extensions r.timeout
      else walk directory r.extensions r.excludePatterns) host = .ok found s ∧
        paths = sorted found.flatten := by
  unfold list
  constructor
  · rintro ⟨host', hrun⟩
    obtain ⟨found, s, hfound, hrun⟩ := bind_eq_ok_iff.1 hrun
    -- Sorting and the last record come after the roots, and neither fails.
    obtain ⟨_, _, -, hrun⟩ := bind_eq_ok_iff.1 hrun
    cases hrun
    exact ⟨found, s, hfound, rfl⟩
  · rintro ⟨found, s, hfound, rfl⟩
    rw [bind_of_ok _ hfound]
    exact ⟨_, rfl⟩

/-- What is listed by walking was found below one of the directories. -/
theorem isFoundBelow_of_list {r : Request} {paths : List String} (hlog : host.HasLogFile)
    (htracked : r.trackedOnly = false) (h : list r host = .ok paths host') :
    ∀ path ∈ paths, ∃ d ∈ r.directories, IsFoundBelow host r.extensions d path := by
  obtain ⟨found, s, hfound, rfl⟩ := list_eq_ok_iff.1 ⟨host', h⟩
  simp only [htracked, Bool.false_eq_true, ↓reduceIte] at hfound
  obtain ⟨-, hwalked⟩ := gives_mapM_walk hlog _ _ _ hfound
  intro path hpath
  obtain ⟨files, hfiles, hpath⟩ := List.mem_flatten.1 (mem_sorted.1 hpath)
  -- The list of files a path comes from stands at the index of its directory.
  obtain ⟨k, hk, rfl⟩ := List.mem_iff_getElem.1 hfiles
  have hk' : k < r.directories.length := by rwa [hwalked.length_eq]
  obtain ⟨s', hwalk⟩ := hwalked.get hk' hk
  exact ⟨_, List.getElem_mem hk', gives_walk_isFoundBelow _ _ _ hwalk path hpath⟩

/-- Directories that are walked one by one are listed together. -/
theorem list_of_walks {r : Request} (hlog : host.HasLogFile) (htracked : r.trackedOnly = false)
    {found : List (List String)}
    (h : List.Forall₂ (fun directory files => ∃ s,
      walk directory r.extensions r.excludePatterns host = .ok files s) r.directories found) :
    ∃ host', list r host = .ok (sorted found.flatten) host' := by
  have heach : ∀ d ∈ r.directories, ∃ files s,
      walk d r.extensions r.excludePatterns host = .ok files s := by
    intro d hd
    obtain ⟨k, hk, rfl⟩ := List.mem_iff_getElem.1 hd
    obtain ⟨s, hwalk⟩ := h.get hk (h.length_eq ▸ hk)
    exact ⟨_, s, hwalk⟩
  obtain ⟨found', s, hrun⟩ := mapM_walk_total hlog r.directories heach
  obtain ⟨-, hwalked⟩ := gives_mapM_walk hlog _ _ _ hrun
  -- A walk of the same directory gives the same files.
  obtain rfl : found = found' := by
    refine List.right_unique_forall₂' ?_ h hwalked
    rintro d files files' ⟨s, hfirst⟩ ⟨s', hsecond⟩
    cases hfirst.symm.trans hsecond
    rfl
  refine list_eq_ok_iff.2 ⟨found, s, ?_, rfl⟩
  simp only [htracked, Bool.false_eq_true, ↓reduceIte]
  exact hrun

/-- What is listed is ascending, and consists of the files that are found by walking one of the
directories, or that version control names for one of them. In which order directories and
extensions are given for walking, and how often, makes no difference. -/
theorem list_members {r : Request} {paths : List String} (hclosed : host.tree.IsClosed)
    (hlog : host.HasLogFile) (h : list r host = .ok paths host') :
    paths.Pairwise (· < ·) ∧
    (r.trackedOnly = false →
      (∀ path, path ∈ paths ↔
        ∃ d ∈ r.directories, IsWalked host r.extensions r.excludePatterns d path) ∧
      ∀ directories extensions, (∀ d, d ∈ directories ↔ d ∈ r.directories) →
        (∀ e, e ∈ extensions ↔ e ∈ r.extensions) →
        ∃ host'', list { r with directories, extensions } host = .ok paths host'') ∧
    (r.trackedOnly = true → ∀ path, path ∈ paths ↔ ∃ (k : Nat) (d : String),
      r.directories[k]? = some d ∧ IsTracked host host.replies[k]? r.extensions d path) := by
  obtain ⟨found, s, hfound, rfl⟩ := list_eq_ok_iff.1 ⟨host', h⟩
  refine ⟨pairwise_sorted _, fun htracked => ?_, fun htracked path => ?_⟩
  · simp only [htracked, Bool.false_eq_true, ↓reduceIte] at hfound
    obtain ⟨hsucceeds, hpaths⟩ := gives_mapM_walk_mem hclosed hlog _ _ _ hfound
    refine ⟨fun path => mem_sorted.trans (hpaths path), ?_⟩
    intro directories extensions hdirectories hextensions
    obtain ⟨found', s', hfound'⟩ := mapM_walk_total hlog directories
      fun d hd => hsucceeds d ((hdirectories d).1 hd)
    refine list_eq_ok_iff.2 ⟨found', s', ?_, ?_⟩
    · simp only [htracked, Bool.false_eq_true, ↓reduceIte, walk_eq_of_mem_iff hextensions]
      exact hfound'
    · refine (sorted_eq_of_mem_iff fun path => ?_).symm
      rw [hpaths, (gives_mapM_walk_mem hclosed hlog _ _ _ hfound').2]
      simp only [hdirectories]
  · simp only [htracked, ↓reduceIte] at hfound
    rw [mem_sorted]
    exact gives_mapM_listTracked hlog r.timeout r.directories _ _ hfound path

/-- A folder with a source file, a link that has the name of one, and a link to the folder
itself. -/
def linkedHost : Host where
  tree := { entries := [
    (["p"], .folder),
    (["p", "a.js"], .file (.bytes [])),
    (["p", "b.js"], .link "x"),
    (["p", "q"], .link "/p"),
    (["p", "x"], .file (.bytes []))] }
  folder := []
  environment := []
  replies := []
  stamp := ""

/-- All that is asked for below the folder, but for what a pattern excludes. -/
def linkedRequest : Request where
  directories := ["/p"]
  extensions := ["js"]
  trackedOnly := false
  excludePatterns := [.text "a.*"]

/-- The linked folder is the folder that it is linked in, and the linked file is a file. -/
private theorem lookup_linkedHost :
    linkedHost.tree.lookup [] "/p" = .ok (["p"], .folder) ∧
    linkedHost.tree.lookup [] "/p/q" = .ok (["p"], .folder) ∧
    linkedHost.tree.lookup [] "/p/a.js" = .ok (["p", "a.js"], .file (.bytes [])) ∧
    linkedHost.tree.lookup [] "/p/b.js" = .ok (["p", "x"], .file (.bytes [])) := by
  have hsteps : stepsOf "/p" = ["p"] ∧ stepsOf "/p/q" = ["p", "q"] ∧
      stepsOf "/p/a.js" = ["p", "a.js"] ∧ stepsOf "/p/b.js" = ["p", "b.js"] ∧
      stepsOf "x" = ["x"] := by
    decide
  have hstart : startOf [] "/p" = [] ∧ startOf [] "/p/q" = [] ∧ startOf [] "/p/a.js" = [] ∧
      startOf [] "/p/b.js" = [] ∧ startOf ["p"] "x" = ["p"] ∧ startOf ["p"] "/p" = [] := by
    decide
  have hpath : ∀ path ∈ ["/p", "/p/q", "/p/a.js", "/p/b.js", "x"], isLongPath path = false := by
    decide
  have hname : ∀ name ∈ ["p", "q", "a.js", "b.js", "x"], isLongName name = false := by
    decide
  have hfolder : linkedHost.tree.isFolder [] = true ∧ linkedHost.tree.isFolder ["p"] = true :=
    ⟨rfl, rfl⟩
  have hget : linkedHost.tree.get? ["p"] = some .folder ∧
      linkedHost.tree.get? ["p", "a.js"] = some (.file (.bytes [])) ∧
      linkedHost.tree.get? ["p", "b.js"] = some (.link "x") ∧
      linkedHost.tree.get? ["p", "q"] = some (.link "/p") ∧
      linkedHost.tree.get? ["p", "x"] = some (.file (.bytes [])) :=
    ⟨rfl, rfl, rfl, rfl, rfl⟩
  simp only [List.forall_mem_cons] at hpath hname
  simp [Tree.lookup, Tree.locate, Tree.walk, linkBudget, hsteps, hstart, hpath, hname, hfolder,
    hget]

/-- The scan starts at the folder. -/
private theorem startingAt_linkedHost :
    startingAt "/p" linkedHost = .ok ⟨.root, ["p"]⟩ linkedHost := by
  have htext : (Path.ofText "/p").text = "/p" ∧ (Path.mk .root ["p"]).text = "/p" := by
    decide
  have hcanonical : linkedHost.tree.canonical? [] "/p" = some ⟨.root, ["p"]⟩ := by
    have hsegments : segmentsOf "/p" = ["", "p"] ∧ startOf [] "/p" = [] := by decide
    have hnone : linkedHost.tree.linkAt? (Tree.originOf [] "/p") ([] ++ ["p"]) = none := rfl
    rw [Tree.canonical?, hsegments.1, hsegments.2, Tree.resolve, if_pos (.inl rfl),
      Tree.resolve_of_name (by decide) (by decide) (by decide) hnone, Tree.resolve]
    rfl
  refine startingAt_of_lookup ?_ (by decide) (htext.2 ▸ lookup_linkedHost.1)
  rwa [htext.1]

/-- The file is excluded, the link to what has another name is kept, and all else is passed. -/
private theorem examine_linkedHost :
    examine ["js"] [.text "a.*"] ⟨.root, ["p"]⟩ (⟨.root, ["p", "a.js"]⟩, .file (.bytes []))
      linkedHost = .ok .excluded linkedHost ∧
    examine ["js"] [.text "a.*"] ⟨.root, ["p"]⟩ (⟨.root, ["p", "b.js"]⟩, .link "x") linkedHost =
      .ok .kept linkedHost ∧
    examine ["js"] [.text "a.*"] ⟨.root, ["p"]⟩ (⟨.root, ["p", "q"]⟩, .link "/p") linkedHost =
      .ok .passed linkedHost ∧
    examine ["js"] [.text "a.*"] ⟨.root, ["p"]⟩ (⟨.root, ["p", "x"]⟩, .file (.bytes []))
      linkedHost = .ok .passed linkedHost := by
  obtain ⟨-, hq, ha, hb⟩ := lookup_linkedHost
  have htext : (Path.mk .root ["p", "a.js"]).text = "/p/a.js" ∧
      (Path.mk .root ["p", "b.js"]).text = "/p/b.js" ∧
      (Path.mk .root ["p", "q"]).text = "/p/q" := by
    decide
  have hextension : hasExtension ["js"] ⟨.root, ["p", "a.js"]⟩ = true ∧
      hasExtension ["js"] ⟨.root, ["p", "b.js"]⟩ = true ∧
      hasExtension ["js"] ⟨.root, ["p", "q"]⟩ = false ∧
      hasExtension ["js"] ⟨.root, ["p", "x"]⟩ = false := by
    decide
  -- One file is excluded by its name, and one entry has no extension that is asked for.
  have hskipped : shouldSkip? ["a.*"] ⟨.root, ["p"]⟩ ⟨.root, ["p", "a.js"]⟩ = some true ∧
      shouldSkip? ["a.*"] ⟨.root, ["p"]⟩ ⟨.root, ["p", "b.js"]⟩ = some false := by
    decide +kernel
  have hexcluded : isExcluded [.text "a.*"] ⟨.root, ["p"]⟩ ⟨.root, ["p", "a.js"]⟩ linkedHost =
      .ok true linkedHost := by
    simp only [isExcluded, Value.leadingTexts, hskipped]
    rfl
  have hkept : isExcluded [.text "a.*"] ⟨.root, ["p"]⟩ ⟨.root, ["p", "b.js"]⟩ linkedHost =
      .ok false linkedHost := by
    simp only [isExcluded, Value.leadingTexts, hskipped]
    rfl
  unfold examine verdict
  rw [htext.1, htext.2.1, htext.2.2, hextension.1, hextension.2.1, hextension.2.2.1,
    hextension.2.2.2]
  -- Links are asked for twice, and the second answer counts.
  refine ⟨?_, ?_, ?_, rfl⟩
  · refine (bind_of_ok _ (Act.isFile_of_lookup (by decide) ha)).trans ?_
    exact bind_of_ok _ hexcluded
  · refine (bind_of_ok _ (discard_of_ok (Act.probe_of_lookup (by decide) hb))).trans ?_
    refine (bind_of_ok _ (Act.isFile_of_lookup (by decide) hb)).trans ?_
    exact bind_of_ok _ hkept
  · exact bind_of_ok _ (discard_of_ok (Act.probe_of_lookup (by decide) hq))

/-- Of the names with the extension that is asked for, the linked file has the one that no pattern
excludes. -/
private theorem list_linkedHost :
    ∃ host', list linkedRequest linkedHost = .ok ["/p/b.js"] host' := by
  have htext : (Path.mk .root ["p"]).text = "/p" ∧
      (Path.mk .root ["p", "b.js"]).text = "/p/b.js" := by
    decide
  have hentries : entriesBelow linkedHost.tree linkedHost.folder ⟨.root, ["p"]⟩ =
      [(⟨.root, ["p", "a.js"]⟩, .file (.bytes [])), (⟨.root, ["p", "b.js"]⟩, .link "x"),
        (⟨.root, ["p", "q"]⟩, .link "/p"), (⟨.root, ["p", "x"]⟩, .file (.bytes []))] := by
    have hlookup : linkedHost.tree.lookup linkedHost.folder (Path.mk .root ["p"]).text =
        .ok (["p"], .folder) := htext.1 ▸ lookup_linkedHost.1
    unfold entriesBelow
    rw [hlookup]
    rfl
  obtain ⟨ha, hb, hq, hx⟩ := examine_linkedHost
  -- `a.js` is excluded, `b.js` is kept, the link to the folder and `x` are passed by.
  have hvisits : (entriesBelow linkedHost.tree linkedHost.folder ⟨.root, ["p"]⟩).foldlM
      (visit ["js"] [.text "a.*"] ⟨.root, ["p"]⟩) {} linkedHost =
      .ok { files := ["/p/b.js"], excluded := 1 } linkedHost := by
    rw [hentries, List.foldlM_cons, visit_eq, bind_of_ok _ (map_of_ok _ ha), List.foldlM_cons,
      visit_eq, bind_of_ok _ (map_of_ok _ hb), List.foldlM_cons, visit_eq,
      bind_of_ok _ (map_of_ok _ hq), List.foldlM_cons, visit_eq, bind_of_ok _ (map_of_ok _ hx)]
    simp only [Walked.note, htext.2]
    rfl
  obtain ⟨host', hwalk⟩ : ∃ host', walk "/p" ["js"] [.text "a.*"] linkedHost =
      .ok ["/p/b.js"] host' := by
    unfold walk
    rw [bind_of_ok _ startingAt_linkedHost, bind_get, bind_of_ok _ hvisits]
    exact ⟨_, rfl⟩
  refine list_eq_ok_iff.2 ⟨[["/p/b.js"]], host', ?_, by decide +kernel⟩
  exact (bind_of_ok _ hwalk).trans rfl

/-- Here the link to a file is all that is listed. -/
theorem list_members_linked : (∃ host', list linkedRequest linkedHost = .ok ["/p/b.js"] host') ∧
    ∀ path, path = "/p/b.js" ↔ IsWalked linkedHost ["js"] [.text "a.*"] "/p" path := by
  obtain ⟨host', hlist⟩ := list_linkedHost
  refine ⟨⟨host', hlist⟩, fun path => ?_⟩
  have hclosed : linkedHost.tree.IsClosed := Tree.isClosed_of_entries (by decide)
  have hmembers := ((list_members hclosed nofun hlist).2.1 rfl).1 path
  rw [← List.mem_singleton, hmembers]
  simp [linkedRequest]

end Inventory

end ImportAtlas

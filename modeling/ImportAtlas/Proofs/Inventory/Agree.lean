import ImportAtlas.Proofs.Inventory.Verdict

/-!
# Hosts with the same entries

A walk asks which entries there are and where they lead, never what a file holds. So two hosts that
differ only there, and in what is recorded, are walked alike. This is the case of a host before and
after a record is logged, so no directory that is listed changes what is listed of the next one.

## Key results

- `Host.HasLogFile.gives_log`: logging keeps all entries
- `Host.SameEntries.agree_isFile`, `Host.SameEntries.agree_resolve`: questions are answered alike
- `Inventory.follows_walk_of_sameEntries`: a walk finds the same files
-/

namespace ImportAtlas

open EStateM

namespace Host

/-- A listing sees no difference: all that may have changed is what files hold, and records. -/
structure SameEntries (host host' : Host) : Prop where
  folder_eq : host'.folder = host.folder
  logFile_eq : host'.logFile = host.logFile
  tree : host.tree.SameEntries host'.tree

variable {host host' host'' : Host}

namespace SameEntries

/-- A host has its own entries. -/
theorem refl (host : Host) : host.SameEntries host :=
  ⟨rfl, rfl, rfl⟩

/-- Hosts with the same entries have them either way. -/
theorem symm (h : host.SameEntries host') : host'.SameEntries host :=
  ⟨h.folder_eq.symm, h.logFile_eq.symm, h.tree.symm⟩

/-- What has the entries of one that has those of a third has those of the third. -/
theorem trans (h : host.SameEntries host') (h' : host'.SameEntries host'') :
    host.SameEntries host'' :=
  ⟨h'.folder_eq.trans h.folder_eq, h'.logFile_eq.trans h.logFile_eq, h.tree.trans h'.tree⟩

/-- The log file of one can be written on the other. -/
theorem hasLogFile (h : host.SameEntries host') (hlog : host.HasLogFile) : host'.HasLogFile := by
  intro file hfile
  rw [h.logFile_eq] at hfile
  obtain ⟨content, hget⟩ := hlog file hfile
  obtain ⟨entry, hget', houtline⟩ := h.tree.sameOutline.exists_get? hget
  cases entry <;> cases houtline
  exact ⟨_, hget'⟩

end SameEntries

/-- A record goes to a file that is there, so the entries are the same. -/
theorem HasLogFile.log (hlog : host.HasLogFile) (level : LogLevel) (channel message : String) :
    ∃ host', Act.log level channel message host = .ok () host' ∧ host.SameEntries host' := by
  refine ⟨_, rfl, rfl, rfl, ?_⟩
  dsimp only
  split
  · rename_i file hkept
    obtain ⟨content, hget⟩ := hlog file (Option.filter_eq_some_iff.1 hkept).1
    have hroot : file.place ≠ [] := by
      rintro hroot
      rw [hroot, Tree.get?_nil] at hget
      cases hget
    -- The log file is there, so at most its bytes change.
    unfold Act.appendTo
    rw [hget]
    cases content with
    | database tables => exact .refl _
    | bytes bs => exact Tree.sameEntries_put hroot hget _
  · exact .refl _

/-- To log keeps the entries, since the file is there and only grows. -/
theorem HasLogFile.gives_log (hlog : host.HasLogFile) (level : LogLevel)
    (channel message : String) :
    Gives (Act.log level channel message) host fun _ host' => host.SameEntries host' := by
  intro u host' h
  obtain ⟨host₁, h₁, hsame⟩ := hlog.log level channel message
  cases h.symm.trans h₁
  exact hsame

end Host

/-- Two hosts answer a question alike, and neither changes. -/
abbrev Act.Agree {β : Type} (x y : Act β) (host host' : Host) : Prop :=
  Follows x host y host' fun a s a' s' => a' = a ∧ s = host ∧ s' = host'

namespace Host.SameEntries

variable {host host' : Host} (h : host.SameEntries host')
include h

/-- A path leads to the same place on both hosts, and to what stands there on the second one. -/
theorem lookup_eq (path : String) : host'.tree.lookup host'.folder path =
    (host.tree.lookup host.folder path).map fun found =>
      (found.1, (host'.tree.get? found.1).getD found.2) := by
  rw [h.folder_eq, h.tree.sameOutline.lookup_eq]

/-- What is found on one is found on the other, but for the content of a file. -/
theorem follows_probe (path : String) :
    Follows (Act.probe path) host (Act.probe path) host' fun found s found' s' =>
      found'.map Entry.outline = found.map Entry.outline ∧ s = host ∧ s' = host' := by
  unfold Act.probe
  split
  · exact follows_pure ⟨rfl, rfl, rfl⟩
  · refine follows_get.bind ?_
    rintro _ host _ host' ⟨rfl, rfl, rfl, rfl⟩
    rw [h.lookup_eq]
    -- Of an entry its kind is seen on both hosts; of what is not found, whether the path is too
    -- long.
    cases hlookup : host.tree.lookup host.folder path with
    | ok found =>
      obtain ⟨entry', hget', houtline⟩ :=
        h.tree.sameOutline.exists_get? (Tree.get?_of_lookup hlookup)
      refine follows_pure ⟨?_, rfl, rfl⟩
      rw [hget', Option.getD_some, Option.map_some, Option.map_some, houtline]
    | error fault =>
      cases fault with
      | longName => exact follows_throw _
      | _ => exact follows_pure ⟨rfl, rfl, rfl⟩

/-- A question that reads no more of what is found than its outline is answered alike. -/
theorem agree_probe_bind (path : String) {answer : Option (Entry Content) → Act Bool}
    (read : Option (Entry Unit) → Bool)
    (hread : ∀ found, answer found = pure (read (found.map Entry.outline))) :
    Act.Agree (Act.probe path >>= answer) (Act.probe path >>= answer) host host' := by
  refine (h.follows_probe path).bind ?_
  rintro found _ found' _ ⟨houtline, rfl, rfl⟩
  rw [hread, hread, houtline]
  exact follows_pure ⟨rfl, rfl, rfl⟩

/-- What is a folder on one is a folder on the other. -/
theorem agree_isFolder (path : String) :
    Act.Agree (Act.isFolder path) (Act.isFolder path) host host' := by
  refine h.agree_probe_bind path (fun found => found.any Entry.isFolder) fun found => ?_
  rcases found with _ | _ | _ | _ <;> rfl

/-- What is a file on one is a file on the other. -/
theorem agree_isFile (path : String) :
    Act.Agree (Act.isFile path) (Act.isFile path) host host' := by
  refine h.agree_probe_bind path (fun found => found.any Entry.isFile) fun found => ?_
  rcases found with _ | _ | _ | _ <;> rfl

/-- A path resolves alike: only links matter, and whether too many of them are met. -/
theorem agree_resolve (path : Path) :
    Act.Agree (Act.resolve path) (Act.resolve path) host host' := by
  -- The canonical form depends on links only.
  have hcanonical : Act.Agree (Act.canonical path.text) (Act.canonical path.text) host host' := by
    unfold Act.canonical
    refine follows_get.bind ?_
    rintro _ host _ host' ⟨rfl, rfl, rfl, rfl⟩
    rw [h.folder_eq, h.tree.sameOutline.sameLinks.canonical?_eq]
    split
    · exact follows_pure ⟨rfl, rfl, rfl⟩
    · exact follows_throw _
  unfold Act.resolve
  refine hcanonical.bind ?_
  rintro _ _ p _ ⟨rfl, rfl, rfl⟩
  refine follows_get.bind ?_
  rintro _ host _ host' ⟨rfl, rfl, rfl, rfl⟩
  rw [h.lookup_eq]
  cases host.tree.lookup host.folder p.text with
  | ok found => exact follows_pure ⟨rfl, rfl, rfl⟩
  | error fault =>
    cases fault with
    | manyLinks => exact follows_throw _
    | _ => exact follows_pure ⟨rfl, rfl, rfl⟩

end Host.SameEntries

namespace Inventory

variable {host host' : Host} {extensions : List String} {patterns : List Value} {root : Path}

variable (h : host.SameEntries host')
include h

/-- A directory that is to be scanned is found or refused alike. -/
theorem agree_startingAt (directory : String) :
    Act.Agree (startingAt directory) (startingAt directory) host host' := by
  unfold startingAt
  refine (h.agree_resolve _).bind ?_
  rintro _ _ root _ ⟨rfl, rfl, rfl⟩
  refine (h.agree_isFolder root.text).bind ?_
  rintro _ _ b _ ⟨rfl, rfl, rfl⟩
  -- No folder is refused on either side.
  cases b with
  | false => exact follows_throw _
  | true => exact follows_pure ⟨rfl, rfl, rfl⟩

/-- Whether a path is taken does not depend on contents. -/
theorem agree_verdict (p : Path) :
    Act.Agree (verdict extensions patterns root p) (verdict extensions patterns root p)
      host host' := by
  unfold verdict
  -- The extension and the patterns read the path alone; only the kind of the entry asks the tree.
  cases hasExtension extensions p with
  | false => exact follows_pure ⟨rfl, rfl, rfl⟩
  | true =>
    refine (h.agree_isFile p.text).bind ?_
    rintro _ _ b _ ⟨rfl, rfl, rfl⟩
    cases b with
    | false => exact follows_pure ⟨rfl, rfl, rfl⟩
    | true =>
      refine (isStateless_isExcluded patterns root p).follows.bind ?_
      rintro _ _ excluded _ ⟨rfl, rfl, rfl⟩
      cases excluded <;> exact follows_pure ⟨rfl, rfl, rfl⟩

/-- Nor does it for an entry, links among them. -/
theorem agree_examine {e e' : Path × Entry Content}
    (he : Prod.map id Entry.outline e' = Prod.map id Entry.outline e) :
    Act.Agree (examine extensions patterns root e) (examine extensions patterns root e')
      host host' := by
  obtain ⟨p, entry⟩ := e
  obtain ⟨p', entry'⟩ := e'
  obtain ⟨hp, houtline⟩ := Prod.mk.inj he
  obtain rfl : p' = p := hp
  have hlinked : Act.Agree (do discard (Act.probe p'.text); verdict extensions patterns root p')
      (do discard (Act.probe p'.text); verdict extensions patterns root p') host host' := by
    refine Follows.bind (R := fun _ s _ s' => s = host ∧ s' = host') ?_ ?_
    · exact ((h.follows_probe p'.text).mono fun _ _ _ _ h => h.2).discard
    · rintro _ _ _ _ ⟨rfl, rfl⟩
      exact agree_verdict h p'
  -- Entries of one kind are examined in one way: files and folders at once, links after a probe.
  cases entry <;> cases entry' <;> cases houtline
  · exact agree_verdict h p'
  · exact agree_verdict h p'
  · exact hlinked

/-- So visits to the same entries find the same files. -/
theorem agree_visits (found : Walked) {entries entries' : List (Path × Entry Content)}
    (he : entries'.map (Prod.map id Entry.outline) = entries.map (Prod.map id Entry.outline)) :
    Act.Agree (entries.foldlM (visit extensions patterns root) found)
      (entries'.foldlM (visit extensions patterns root) found) host host' := by
  induction entries generalizing found entries' with
  | nil =>
    rw [List.map_nil, List.map_eq_nil_iff] at he
    rw [he]
    exact follows_pure ⟨rfl, rfl, rfl⟩
  | cons e entries ih =>
    obtain ⟨e', entries', rfl, he', hentries⟩ := List.map_eq_cons_iff.1 he
    rw [List.foldlM_cons, List.foldlM_cons]
    have hpath : e'.1 = e.1 := (Prod.mk.inj he').1
    have hfirst : Act.Agree (visit extensions patterns root found e)
        (visit extensions patterns root found e') host host' := by
      -- A visit reads no more of an entry than its path and its outline.
      rw [visit_eq, visit_eq, hpath]
      refine ((agree_examine h he').mono ?_).map
      rintro v _ _ _ ⟨rfl, rfl, rfl⟩
      exact ⟨rfl, rfl, rfl⟩
    refine hfirst.bind ?_
    rintro _ _ found' _ ⟨rfl, rfl, rfl⟩
    exact ih found' hentries

/-- The same entries lie below a folder. -/
theorem map_entriesBelow (root : Path) :
    (entriesBelow host'.tree host'.folder root).map (Prod.map id Entry.outline) =
      (entriesBelow host.tree host.folder root).map (Prod.map id Entry.outline) := by
  have hbelow (place : Place) : (host'.tree.below place).map (Prod.map id Entry.outline) =
      (host.tree.below place).map (Prod.map id Entry.outline) := by
    -- What lies below a place is told by the places alone, so by the outlines too.
    have hfilter (t : Tree Content) : (t.below place).map (Prod.map id Entry.outline) =
        (t.entries.map (Prod.map id Entry.outline)).filter fun e =>
          place.isPrefixOf e.1 && e.1 != place := by
      rw [List.filter_map]
      rfl
    rw [hfilter, hfilter, h.tree]
  unfold entriesBelow
  rw [h.lookup_eq]
  cases host.tree.lookup host.folder root.text with
  | error fault => rfl
  | ok found =>
    have hmap := congrArg (List.map fun e : Place × Entry Unit =>
      ({ root with names := root.names ++ e.1.drop found.1.length }, e.2)) (hbelow found.1)
    rw [List.map_map, List.map_map] at hmap
    simp only [Except.map, List.map_map]
    exact hmap

/-- The same files are found by walking. -/
theorem follows_walk_of_sameEntries (hlog : host.HasLogFile) (directory : String) :
    Follows (walk directory extensions patterns) host (walk directory extensions patterns) host'
      fun files s files' s' => files' = files ∧ host.SameEntries s ∧ host'.SameEntries s' := by
  unfold walk
  refine (agree_startingAt h directory).bind ?_
  rintro _ _ root _ ⟨rfl, rfl, rfl⟩
  refine follows_get.bind ?_
  rintro _ host _ host' ⟨rfl, rfl, rfl, rfl⟩
  refine (agree_visits h {} (map_entriesBelow h root)).bind ?_
  rintro _ host found host' ⟨rfl, rfl, rfl⟩
  -- At the end the walk is noted in the log.
  obtain ⟨host₁, hrecord, hsame⟩ := (h.hasLogFile hlog).log .debug channel ("Walked " ++
    root.text ++ ": " ++ toString found.files.length ++ " files, " ++ toString found.excluded ++
      " excluded")
  refine (Follows.bind (R := fun _ s _ s' => host.SameEntries s ∧ host'.SameEntries s')
    (fun u s hs => ⟨(), host₁, hrecord, hlog.gives_log _ _ _ _ _ hs, hsame⟩) ?_)
  rintro _ s _ s' hsame
  exact follows_pure ⟨rfl, hsame⟩

end Inventory

end ImportAtlas

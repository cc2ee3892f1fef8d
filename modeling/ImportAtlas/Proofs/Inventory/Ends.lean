import ImportAtlas.Proofs.Inventory.Agree
import ImportAtlas.Proofs.Pattern.Exclusion
import ImportAtlas.Proofs.Tree.Acyclic

/-!
# How a listing ends

A directory that is none, and version control that does not answer, are reasons to refuse a listing,
and said to be. Before a directory can be refused its path has to be resolved, though, and each path
that is met has to be looked up; that can fail in ways of its own. So can an exclusion pattern
without parts. None of these is turned into a refusal.

## Key results

- `Inventory.Refusal`, `Inventory.Stray`: what stops a listing, each with its cause
- `Inventory.ends_walk`, `Inventory.ends_listTracked`: how the listing of one directory ends
- `Inventory.list_ends`: a listing succeeds, is refused, or goes astray for one of the causes
- `Inventory.list_of_linkLoop`, `Inventory.list_loop`: a directory in a circle of links is not
  refused
-/

namespace ImportAtlas

open EStateM

namespace Inventory

variable {host host' : Host} {r : Request}

/-- The path is the canonical one of a directory to be listed. -/
def IsRoot (host : Host) (r : Request) (root : Path) : Prop :=
  ∃ directory ∈ r.directories, Act.resolve (Path.ofText directory) host = .ok root host

/-- A directory is refused, and so the whole listing. -/
inductive Refusal (host : Host) (r : Request) : Error → Prop
  /-- The directory does not lead to a folder. -/
  | notFolder {root : Path} (hroot : IsRoot host r root)
      (hfolder : ¬ (Act.hasNul root.text = false ∧
        ∃ place, host.tree.lookup host.folder root.text = .ok (place, .folder))) :
      Refusal host r (.failure (.inventory root.text "not a directory"))
  | notFound {root : Path} (hroot : IsRoot host r root) (htracks : r.trackedOnly = true) :
      Refusal host r (.failure (.inventory root.text "git executable not found"))
  | timedOut {root : Path} {text : String} (hroot : IsRoot host r root)
      (htracks : r.trackedOnly = true) (hreply : .timedOut ∈ host.replies)
      (htext : ∀ s, Act.spell r.timeout s = .ok text s) :
      Refusal host r
        (.failure (.inventory root.text ("git ls-files timed out after " ++ text ++ "s")))
  | failed {root : Path} {status : Int} {output errors said : String} (hroot : IsRoot host r root)
      (htracks : r.trackedOnly = true) (hreply : .finished status output errors ∈ host.replies)
      (hstatus : status ≠ 0) (hsaid : said = String.ofList (Text.trim errors.toList)) :
      Refusal host r
        (.failure (.inventory root.text (if said = "" then "git ls-files failed" else said)))

/-- A listing is stopped by what is not turned into a refusal. -/
inductive Stray (host : Host) (r : Request) : Error → Prop
  /-- A directory is spelled with a NUL, or a link has a target with one. -/
  | nul {directory : String} (hdirectory : directory ∈ r.directories)
      (hnul : Act.hasNul (Path.ofText directory).text = true ∨ ¬ host.tree.HasUsableTargets) :
      Stray host r .nul
  /-- A directory ends in a circle of links. -/
  | linkLoop {directory : String} {root : Path} (hdirectory : directory ∈ r.directories)
      (hcanonical :
        host.tree.canonical? host.folder (Path.ofText directory).text = some root)
      (hlookup : host.tree.lookup host.folder root.text = .error .manyLinks) :
      Stray host r (.linkLoop root.text)
  /-- A directory has a name that is too long. -/
  | longRoot {root : Path} (hroot : IsRoot host r root)
      (hlookup : host.tree.lookup host.folder root.text = .error .longName) :
      Stray host r (.access .longName root.text)
  /-- Something below a directory has a name that is too long, or leads to one. -/
  | longEntry {root p : Path} (hroot : IsRoot host r root) (hwalks : r.trackedOnly = false)
      (hentry : ∃ e ∈ entriesBelow host.tree host.folder root, e.1 = p)
      (hlookup : host.tree.lookup host.folder p.text = .error .longName) :
      Stray host r (.access .longName p.text)
  /-- Version control names a file by a name that is too long. -/
  | longName {root p : Path} {output errors : String} {piece : List Char}
      (hroot : IsRoot host r root) (htracks : r.trackedOnly = true)
      (hreply : .finished 0 output errors ∈ host.replies)
      (hpiece : piece ∈ output.toList.splitOn '\x00')
      (hp : p = (root / Path.ofText (String.ofList piece) : Path))
      (hlookup : host.tree.lookup host.folder p.text = .error .longName) :
      Stray host r (.access .longName p.text)
  /-- A pattern has no parts. -/
  | emptyPattern {pattern : String} (hwalks : r.trackedOnly = false)
      (hpattern : .text pattern ∈ r.excludePatterns) (hparts : (Path.ofText pattern).parts = []) :
      Stray host r .emptyPattern
  /-- Version control takes too long, and there is no spelling of how long it may take. -/
  | unspelled {e : Error} (htracks : r.trackedOnly = true) (hreply : .timedOut ∈ host.replies)
      (htext : ∀ s, Act.spell r.timeout s = .error e s) : Stray host r e

/-- A host while files are listed: a listing sees no difference, and some answers are used up. -/
structure IsListing (host host' : Host) : Prop where
  sameEntries : host.SameEntries host'
  replies : ∀ reply ∈ host'.replies, reply ∈ host.replies

/-- Listing nothing leaves the host as it is. -/
theorem IsListing.refl (host : Host) : IsListing host host :=
  ⟨.refl host, fun _ => id⟩

/-- Listing twice is listing. -/
theorem IsListing.trans {host'' : Host} (h : IsListing host host') (h' : IsListing host' host'') :
    IsListing host host'' :=
  ⟨h.sameEntries.trans h'.sameEntries,
    fun reply hreply => h.replies reply (h'.replies reply hreply)⟩

/-! ## Causes in the course of a listing -/

end Inventory

namespace Host.SameEntries

variable {host host' : Host} (h : host.SameEntries host')
include h

/-- While files are listed, a path is refused as it was before. -/
theorem lookup_eq_error_iff {path : String} {fault : AccessFault} :
    host'.tree.lookup host'.folder path = .error fault ↔
      host.tree.lookup host.folder path = .error fault := by
  rw [h.lookup_eq]
  cases host.tree.lookup host.folder path <;> simp [Except.map]

/-- Its canonical form is the same. -/
theorem canonical?_eq (path : String) :
    host'.tree.canonical? host'.folder path = host.tree.canonical? host.folder path := by
  rw [h.folder_eq, h.tree.sameOutline.sameLinks.canonical?_eq]

/-- The same paths lead to folders. -/
theorem exists_lookup_folder {path : String}
    (hfolder : ∃ place, host.tree.lookup host.folder path = .ok (place, .folder)) :
    ∃ place, host'.tree.lookup host'.folder path = .ok (place, .folder) := by
  obtain ⟨place, hlookup⟩ := hfolder
  obtain ⟨entry, hget, houtline⟩ := h.tree.sameOutline.exists_get? (Tree.get?_of_lookup hlookup)
  -- Of the same outline as a folder is only a folder.
  cases entry <;> cases houtline
  refine ⟨place, ?_⟩
  rw [h.lookup_eq, hlookup]
  simp [Except.map, hget]

/-- Links still have usable targets. -/
theorem hasUsableTargets (htargets : host.tree.HasUsableTargets) :
    host'.tree.HasUsableTargets :=
  fun link target hget => htargets link target (h.tree.sameOutline.symm.get?_eq_link hget)

/-- The same paths are walked through. -/
theorem exists_mem_entriesBelow_iff {root p : Path} :
    (∃ e ∈ Inventory.entriesBelow host'.tree host'.folder root, e.1 = p) ↔
      ∃ e ∈ Inventory.entriesBelow host.tree host.folder root, e.1 = p := by
  have hpaths := congrArg (List.map Prod.fst) (Inventory.map_entriesBelow h root)
  rw [List.map_map, List.map_map] at hpaths
  have hfst (e : Path × Entry Content) : (Prod.fst ∘ Prod.map id Entry.outline) e = e.1 := rfl
  rw [← List.mem_map, ← List.mem_map, ← funext hfst, hpaths]

end Host.SameEntries

namespace Inventory

variable {host host' : Host} {r : Request} {e : Error}

/-- A root is one with the same entries. -/
theorem IsRoot.of_sameEntries {root : Path} (h : host.SameEntries host')
    (hroot : IsRoot host' r root) : IsRoot host r root := by
  obtain ⟨directory, hdirectory, hresolve⟩ := hroot
  obtain ⟨_, _, hresolve', rfl, -, rfl⟩ := h.symm.agree_resolve _ root _ hresolve
  exact ⟨directory, hdirectory, hresolve'⟩

/-- What refuses a directory in the course of a listing refuses it at the start. -/
theorem Refusal.of_isListing (h : IsListing host host') (he : Refusal host' r e) :
    Refusal host r e := by
  -- Listing changes no entry and takes replies off the script only, so each cause was there before.
  have hsame := h.sameEntries
  cases he with
  | notFolder hroot hfolder =>
    exact .notFolder (hroot.of_sameEntries hsame)
      fun hthere => hfolder ⟨hthere.1, hsame.exists_lookup_folder hthere.2⟩
  | notFound hroot htracks => exact .notFound (hroot.of_sameEntries hsame) htracks
  | timedOut hroot htracks hreply htext =>
    exact .timedOut (hroot.of_sameEntries hsame) htracks (h.replies _ hreply) htext
  | failed hroot htracks hreply hstatus hsaid =>
    exact .failed (hroot.of_sameEntries hsame) htracks (h.replies _ hreply) hstatus hsaid

/-- What stops the listing of a directory in its course is there at the start. -/
theorem Stray.of_isListing (h : IsListing host host') (he : Stray host' r e) : Stray host r e := by
  have hsame := h.sameEntries
  -- Each cause is told by the entries, the links or the replies, and listing keeps all of these.
  cases he with
  | nul hdirectory hnul =>
    exact .nul hdirectory (hnul.imp_right (mt hsame.hasUsableTargets))
  | linkLoop hdirectory hcanonical hlookup =>
    rw [hsame.canonical?_eq] at hcanonical
    exact .linkLoop hdirectory hcanonical (hsame.lookup_eq_error_iff.1 hlookup)
  | longRoot hroot hlookup =>
    exact .longRoot (hroot.of_sameEntries hsame) (hsame.lookup_eq_error_iff.1 hlookup)
  | longEntry hroot hwalks hentry hlookup =>
    exact .longEntry (hroot.of_sameEntries hsame) hwalks
      (hsame.exists_mem_entriesBelow_iff.1 hentry) (hsame.lookup_eq_error_iff.1 hlookup)
  | longName hroot htracks hreply hpiece hp hlookup =>
    exact .longName (hroot.of_sameEntries hsame) htracks (h.replies _ hreply) hpiece hp
      (hsame.lookup_eq_error_iff.1 hlookup)
  | emptyPattern hwalks hpattern hparts => exact .emptyPattern hwalks hpattern hparts
  | unspelled htracks hreply htext => exact .unspelled htracks (h.replies _ hreply) htext

/-! ## One directory -/

/-- A directory has a canonical path, unless there is a NUL or a circle of links. -/
theorem asks_root {directory : String} (hdirectory : directory ∈ r.directories) :
    Asks (Act.resolve (Path.ofText directory)) host (IsRoot host r) (Stray host r) := by
  refine (Act.asks_resolve (Path.ofText directory)).self.mono ?_ ?_
  · exact fun root hroot => ⟨directory, hdirectory, hroot.1⟩
  · rintro e ⟨-, ⟨rfl, hnone⟩ | ⟨root, rfl, hcanonical, hlookup⟩⟩
    · -- Without a NUL in the path or in a link there would be a canonical path.
      refine .nul hdirectory (or_iff_not_imp_right.2 fun htargets => ?_)
      by_contra hnul
      obtain ⟨root, hroot⟩ := (not_not.1 htargets).exists_canonical?_eq
        (eq_false_of_ne_true hnul) host.folder
      rw [hnone] at hroot
      cases hroot
    · exact .linkLoop hdirectory hcanonical hlookup

/-- A directory is refused for one of the reasons there are, or it strays. -/
theorem asks_startingAt {directory : String} (hdirectory : directory ∈ r.directories) :
    Asks (startingAt directory) host (IsRoot host r)
      fun e => Refusal host r e ∨ Stray host r e := by
  unfold startingAt
  refine ((asks_root hdirectory).mono (fun _ => id) fun _ => .inr).bind fun root hroot => ?_
  refine ((Act.asks_isFolder root.text).mono (fun _ => id) ?_).bind fun b hb => ?_
  · rintro _ ⟨rfl, hlookup⟩
    exact .inr (.longRoot hroot hlookup)
  · -- A directory that is none is refused, and this is told.
    cases b with
    | false => exact asks_throw (.inl (.notFolder hroot fun h => Bool.false_ne_true (hb.2 h)))
    | true => exact asks_pure hroot

/-- Patterns that are texts are refused only if one of them has no parts. -/
theorem asks_isExcluded (patterns : List String) (root p : Path) :
    Asks (isExcluded (patterns.map .text) root p) host (fun _ => True) fun e =>
      e = .emptyPattern ∧ ∃ pattern ∈ patterns, (Path.ofText pattern).parts = [] := by
  unfold isExcluded
  rw [Value.leadingTexts_map_text]
  dsimp only
  -- Without a verdict, one of the patterns has no parts.
  cases hskip : shouldSkip? patterns root p with
  | none => exact asks_throw ⟨rfl, exists_of_excludedByAny?_eq_none hskip⟩
  | some skipped => cases skipped <;> exact asks_pure trivial

section Walking

variable {patterns : List String} (hpatterns : r.excludePatterns = patterns.map .text)
include hpatterns

/-- Once a root is found, only what strays stops the look at a path. -/
theorem asks_verdict {root p : Path} (hroot : IsRoot host r root) (hwalks : r.trackedOnly = false)
    (hentry : ∃ e ∈ entriesBelow host.tree host.folder root, e.1 = p) :
    Asks (verdict r.extensions r.excludePatterns root p) host (fun _ => True) (Stray host r) := by
  unfold verdict
  split
  · exact asks_pure trivial
  · refine ((Act.asks_isFile p.text).mono (fun _ => id) ?_).bind fun isFile _ => ?_
    · rintro _ ⟨rfl, hlookup⟩
      exact .longEntry hroot hwalks hentry hlookup
    · cases isFile with
      | false => exact asks_pure trivial
      | true =>
        rw [hpatterns]
        refine ((asks_isExcluded patterns root p).mono (fun _ => id) ?_).bind fun excluded _ => ?_
        · rintro _ ⟨rfl, pattern, hpattern, hparts⟩
          -- The one pattern that cannot be compared with a path is one without a name.
          refine .emptyPattern hwalks ?_ hparts
          rw [hpatterns]
          exact List.mem_map_of_mem hpattern
        · cases excluded <;> exact asks_pure trivial

/-- The same of the visit to an entry. -/
theorem asks_visit {root : Path} (hroot : IsRoot host r root) (hwalks : r.trackedOnly = false)
    {e : Path × Entry Content} (he : e ∈ entriesBelow host.tree host.folder root)
    (found : Walked) :
    Asks (visit r.extensions r.excludePatterns root found e) host (fun _ => True)
      (Stray host r) := by
  have hverdict := asks_verdict hpatterns hroot hwalks ⟨e, he, rfl⟩
  have hexamine : Asks (examine r.extensions r.excludePatterns root e) host (fun _ => True)
      (Stray host r) := by
    unfold examine
    split
    · -- A link is asked about once more than other entries, whatever it leads to.
      refine Asks.bind (A := fun _ => True) ?_ fun _ _ => hverdict
      refine Asks.map ((Act.asks_probe e.1.text).mono (fun _ _ => trivial) ?_)
      rintro _ ⟨rfl, hlookup⟩
      exact .longEntry hroot hwalks ⟨e, he, rfl⟩ hlookup
    · exact hverdict
  rw [visit_eq]
  exact hexamine.map

/-- The listing of a directory by walking. -/
theorem ends_walk (hlog : host.HasLogFile) (hwalks : r.trackedOnly = false) {directory : String}
    (hdirectory : directory ∈ r.directories) :
    Ends (walk directory r.extensions r.excludePatterns) host (fun _ s => IsListing host s)
      fun e _ => Refusal host r e ∨ Stray host r e := by
  unfold walk
  refine (asks_startingAt hdirectory).ends_bind (fun _ => id) fun root hroot => ?_
  refine ends_bind_get ?_
  extract_lets entries
  have hvisits : Asks (entries.foldlM (visit r.extensions r.excludePatterns root) {}) host
      (fun _ => True) (Stray host r) :=
    asks_foldlM (fun e he found _ => asks_visit hpatterns hroot hwalks he found) trivial
  refine hvisits.ends_bind (fun _ => .inr) fun found _ => ?_
  obtain ⟨s, hrecord, hsame⟩ := hlog.log .debug channel ("Walked " ++ root.text ++ ": " ++
    toString found.files.length ++ " files, " ++ toString found.excluded ++ " excluded")
  refine ends_bind_of_ok hrecord (ends_pure ⟨hsame, ?_⟩)
  -- The log takes its line, and no answer is used up.
  cases hrecord
  exact fun _ => id

end Walking

/-- What version control says of a directory is an answer that was there. -/
theorem ends_trackedNames {root : Path} (hroot : IsRoot host r root)
    (htracks : r.trackedOnly = true) :
    Ends (trackedNames root r.timeout) host
      (fun output s => IsListing host s ∧ ∃ errors, .finished 0 output errors ∈ host.replies)
      fun e _ => Refusal host r e ∨ Stray host r e := by
  unfold trackedNames
  extract_lets arguments
  have hcall : Act.call (arguments.map .text) r.timeout host =
      .ok (host.replies.head?.getD .notFound) { host with
        replies := host.replies.drop 1
        calls := host.calls ++ [Call.mk (arguments.map .text) r.timeout] } := rfl
  refine ends_bind_of_ok hcall ?_
  have hlisting : IsListing host { host with
      replies := host.replies.drop 1
      calls := host.calls ++ [Call.mk (arguments.map .text) r.timeout] } :=
    ⟨⟨rfl, rfl, .refl _⟩, fun reply hreply => List.mem_of_mem_drop hreply⟩
  -- Where no answer is left, version control counts as missing.
  cases hhead : host.replies.head? with
  | none => exact ends_throw (.inl (.notFound hroot htracks))
  | some reply =>
    have hreply : reply ∈ host.replies := List.mem_of_mem_head? hhead
    rw [Option.getD_some]
    -- Each kind of answer ends in its own way, and only a good one goes on.
    cases reply with
    | notFound => exact ends_throw (.inl (.notFound hroot htracks))
    | timedOut =>
      refine (Act.asks_spell_forall _ r.timeout).ends_bind ?_ fun text htext => ?_
      · exact fun e he => .inr (.unspelled htracks hreply he)
      · exact ends_throw (.inl (.timedOut hroot htracks hreply htext))
    | finished status output errors =>
      dsimp only
      split
      · rename_i hstatus
        subst hstatus
        exact ends_pure ⟨hlisting, errors, hreply⟩
      · rename_i hstatus
        exact ends_throw (.inl (.failed hroot htracks hreply hstatus rfl))

/-- The listing of a directory by version control. -/
theorem ends_listTracked (hlog : host.HasLogFile) (htracks : r.trackedOnly = true)
    {directory : String} (hdirectory : directory ∈ r.directories) :
    Ends (listTracked directory r.extensions r.timeout) host (fun _ s => IsListing host s)
      fun e _ => Refusal host r e ∨ Stray host r e := by
  unfold listTracked
  refine (asks_startingAt hdirectory).ends_bind (fun _ => id) fun root hroot => ?_
  refine (ends_trackedNames hroot htracks).bind ?_
  rintro output s ⟨hlisting, errors, hreply⟩
  extract_lets names paths
  have hfiles : Asks (paths.filterM fun p => Act.isFile p.text) s (fun _ => True)
      (Stray host r) := by
    -- A tracked name can only go wrong by its length, and `git` gave it as a piece of its answer.
    refine asks_filterM fun p hp => (Act.asks_isFile p.text).mono (fun _ => id) ?_
    rintro _ ⟨rfl, hlookup⟩
    obtain ⟨n, hn, rfl⟩ := List.mem_map.1 (List.mem_filter.1 hp).1
    obtain ⟨piece, hpiece, rfl⟩ := List.mem_map.1 (List.mem_filter.1 hn).1
    exact .longName hroot htracks hreply hpiece rfl
      (hlisting.sameEntries.lookup_eq_error_iff.1 hlookup)
  refine hfiles.ends_bind (fun _ => .inr) fun files _ => ?_
  obtain ⟨s', hrecord, hsame⟩ := (hlisting.sameEntries.hasLogFile hlog).log .debug channel
    ("git ls-files: " ++ toString files.length ++ " matching files in " ++ root.text)
  refine ends_bind_of_ok hrecord (ends_pure (hlisting.trans ⟨hsame, ?_⟩))
  cases hrecord
  exact fun _ => id

/-! ## All directories -/

/-- A listing succeeds, or is refused for a directory, or goes astray, for a cause that was there
from the start. Patterns are texts. -/
theorem list_ends {patterns : List String} (hpatterns : r.excludePatterns = patterns.map .text)
    (hlog : host.HasLogFile) :
    (∃ paths host', list r host = .ok paths host') ∨
      ∃ e host', list r host = .error e host' ∧ (Refusal host r e ∨ Stray host r e) := by
  have hdirectory : ∀ directory ∈ r.directories, ∀ s, IsListing host s →
      Ends (if r.trackedOnly then listTracked directory r.extensions r.timeout
        else walk directory r.extensions r.excludePatterns) s
        (fun _ s' => IsListing host s' ∧ True) fun e _ => Refusal host r e ∨ Stray host r e := by
    intro directory hdirectory s hs
    have hlog' := hs.sameEntries.hasLogFile hlog
    have hback : Ends (if r.trackedOnly then listTracked directory r.extensions r.timeout
        else walk directory r.extensions r.excludePatterns) s (fun _ s' => IsListing s s')
        fun e _ => Refusal s r e ∨ Stray s r e := by
      split
      · exact ends_listTracked hlog' ‹_› hdirectory
      · exact ends_walk hpatterns hlog' (eq_false_of_ne_true ‹_›) hdirectory
    refine hback.mono (fun _ s' hs' => ⟨hs.trans hs', trivial⟩) fun e _ he => ?_
    exact he.imp (.of_isListing hs) (.of_isListing hs)
  have hlist : Ends (list r) host (fun _ _ => True)
      fun e _ => Refusal host r e ∨ Stray host r e := by
    unfold list
    refine (ends_mapM hdirectory (.refl host)).bind ?_
    rintro found s -
    extract_lets files
    exact ends_bind_modify (ends_pure trivial)
  cases hrun : list r host with
  | ok paths host' => exact .inl ⟨paths, host', rfl⟩
  | error e host' => exact .inr ⟨e, host', rfl, hlist.fails e host' hrun⟩

/-! ## Circles of links -/

/-- A listing that begins with a directory in a circle of links is stopped by the circle, also if
version control is to be asked. -/
theorem list_of_linkLoop {directory : String} {directories : List String} {root : Path}
    (hdirectories : r.directories = directory :: directories)
    (hcanonical : host.tree.canonical? host.folder (Path.ofText directory).text = some root)
    (hlookup : host.tree.lookup host.folder root.text = .error .manyLinks) :
    list r host = .error (.linkLoop root.text) host := by
  have hresolve : Act.resolve (Path.ofText directory) host =
      .error (.linkLoop root.text) host := by
    have hpath : Act.canonical (Path.ofText directory).text host = .ok root host := by
      unfold Act.canonical
      rw [bind_get, hcanonical]
      rfl
    unfold Act.resolve
    rw [bind_of_ok _ hpath, bind_get, hlookup]
    rfl
  have hstart : startingAt directory host = .error (.linkLoop root.text) host := by
    unfold startingAt
    exact bind_of_error _ hresolve
  unfold list
  rw [hdirectories, List.mapM_cons]
  -- The first directory stops the listing, whether it is walked or asked about.
  refine bind_of_error _ (bind_of_error _ ?_)
  split
  · unfold listTracked
    exact bind_of_error _ hstart
  · unfold walk
    exact bind_of_error _ hstart

/-- A link that leads to itself. -/
def loopHost : Host where
  tree := { entries := [(["p"], .link "p")] }
  folder := []
  environment := []
  replies := []
  stamp := ""

/-- The link as the only directory to be listed. -/
def loopRequest (trackedOnly : Bool) : Request where
  directories := ["/p"]
  extensions := ["js"]
  trackedOnly := trackedOnly

/-- The link to itself is its own canonical form. -/
private theorem canonical?_loopHost :
    loopHost.tree.canonical? loopHost.folder "/p" = some ⟨.root, ["p"]⟩ := by
  have hsegments : segmentsOf "/p" = ["", "p"] ∧ segmentsOf "p" = ["p"] := by decide
  have hstart : startOf [] "/p" = [] ∧ startOf [] "p" = [] := by decide
  have horigin : Tree.originOf [] "/p" = .root ∧
      (Origin.root : Origin ([] : Place).length).ofTarget "p" = .root := by decide
  have hlink : loopHost.tree.linkAt? (.root : Origin ([] : Place).length) ([] ++ ["p"]) =
      some "p" := rfl
  have hproper : Place.IsProper ["p"] := by
    unfold Place.IsProper
    decide
  -- The target of the link is the link itself, which is being followed by then.
  have hcircular : loopHost.tree.resolve [((.root : Origin ([] : Place).length), [] ++ ["p"])]
      (Origin.root.ofTarget "p") (startOf [] "p") (segmentsOf "p") =
      .circular ((Path.ofPlace ([] ++ ["p"])).resume []) := by
    rw [hstart.2, hsegments.2, horigin.2]
    exact Tree.resolve_of_active hproper (by decide) hlink (by simp)
  have hgo : loopHost.tree.resolve [] (.root : Origin ([] : Place).length) [] ["p"] = _ :=
    Tree.resolve_of_link_circular hproper (by decide) hlink rfl hcircular
  show loopHost.tree.canonical? [] "/p" = _
  rw [Tree.canonical?, hsegments.1, hstart.1, horigin.1, Tree.resolve, if_pos (.inl rfl), hgo]
  decide

/-- To look it up one would follow it too often. -/
private theorem lookup_loopHost :
    loopHost.tree.lookup loopHost.folder "/p" = .error .manyLinks := by
  have hsteps : stepsOf "/p" = ["p"] ∧ startOf [] "/p" = [] := by decide
  have hshort : isLongPath "/p" = false := by decide
  have hdown : Tree.GoesDown .followed "p" [] :=
    Tree.goesDown_followed (by decide) (by decide) (by decide)
  have hwalk : loopHost.tree.walk .followed linkBudget [] ["p"] = .error .manyLinks :=
    Tree.walk_circle rfl hdown rfl (by decide) (by decide) linkBudget
  show loopHost.tree.lookup [] "/p" = _
  rw [Tree.lookup, Tree.locate, hshort, hsteps.1, hsteps.2, hwalk]
  rfl

/-- So listing is refused, by walking and by asking. -/
private theorem list_loopRequest (trackedOnly : Bool) :
    list (loopRequest trackedOnly) loopHost = .error (.linkLoop "/p") loopHost := by
  have hpath : (Path.ofText "/p").text = "/p" ∧ (Path.mk .root ["p"]).text = "/p" := by decide
  have hcanonical : loopHost.tree.canonical? loopHost.folder (Path.ofText "/p").text =
      some ⟨.root, ["p"]⟩ := by
    rw [hpath.1, canonical?_loopHost]
  have hlookup : loopHost.tree.lookup loopHost.folder (Path.mk .root ["p"]).text =
      .error .manyLinks := by
    rw [hpath.2, lookup_loopHost]
  have hlist : list (loopRequest trackedOnly) loopHost =
      .error (.linkLoop (Path.mk .root ["p"]).text) loopHost :=
    list_of_linkLoop rfl hcanonical hlookup
  rwa [hpath.2] at hlist

/-- The circle is there from the start, and it is not refused as a directory that is none. -/
theorem list_ends_loop : (loopRequest false).excludePatterns = [].map Value.text ∧
    loopHost.HasLogFile ∧ ∃ e host', list (loopRequest false) loopHost = .error e host' ∧
      Stray loopHost (loopRequest false) e := by
  have hpatterns : (loopRequest false).excludePatterns = [].map Value.text := rfl
  have hlog : loopHost.HasLogFile := nofun
  refine ⟨hpatterns, hlog, ?_⟩
  have hlist := list_loopRequest false
  rcases list_ends hpatterns hlog with ⟨paths, host', hok⟩ | ⟨e, host', herror, he⟩
  · rw [hlist] at hok
    cases hok
  · refine ⟨e, host', herror, he.resolve_left fun hrefusal => ?_⟩
    rw [hlist] at herror
    cases herror
    cases hrefusal

/-- A link that leads to itself is no folder, and still the listing is not refused, neither by
walking nor if version control is to be asked. -/
theorem list_loop :
    list (loopRequest false) loopHost = .error (.linkLoop "/p") loopHost ∧
      list (loopRequest true) loopHost = .error (.linkLoop "/p") loopHost :=
  ⟨list_loopRequest false, list_loopRequest true⟩

end Inventory

end ImportAtlas

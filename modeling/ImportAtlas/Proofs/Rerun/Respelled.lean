import ImportAtlas.Proofs.Build
import ImportAtlas.Proofs.Import.Respelling
import ImportAtlas.Proofs.Log
import ImportAtlas.Proofs.Text.Quoted
import ImportAtlas.Proofs.Text.Utf8

/-!
# Building from files in another spelling

Two trees hold the same but for the spelling of some files. A survey of the one goes step by step
like a survey of the other: the same files are found, the same locators are read, and the same
imports are made. The logs differ in the statements that they quote. So if the log is written to one
of the files that are read, these differ in more than their spelling, but stay alike.

## Key results

- `Host.Alike.matches_log`: logs that are alike stay so
- `Host.Alike.matches_readSource`: the texts that are read are alike
- `Survey.matches_ofPaths`: a survey ends in the same way
- `Respelling.invisible`: statements, graph and counters are the same in another spelling
-/

namespace ImportAtlas

open EStateM

/-! ## Trees that are alike -/

/-- Contents that are alike: texts that are, or the same tables. -/
inductive Content.Alike : Content → Content → Prop
  | bytes {bs bs' : List UInt8}
    (h : ImportAtlas.Alike true (Text.Utf8.decodeLenient bs) (Text.Utf8.decodeLenient bs')) :
    Content.Alike (.bytes bs) (.bytes bs')
  | database (tables : Tables) : Content.Alike (.database tables) (.database tables)

/-- Entries that are alike: they differ in what a file holds at most. -/
inductive Entry.Alike : Entry Content → Entry Content → Prop
  | file {content content' : Content} (h : content.Alike content') :
    Entry.Alike (.file content) (.file content')
  | folder : Entry.Alike .folder .folder
  | link (target : String) : Entry.Alike (.link target) (.link target)

/-- A content is like itself. -/
theorem Content.Alike.refl (content : Content) : content.Alike content := by
  cases content with
  | bytes bs => exact .bytes (ImportAtlas.Alike.refl _)
  | database tables => exact .database tables

/-- So is an entry. -/
theorem Entry.Alike.refl (entry : Entry Content) : entry.Alike entry := by
  cases entry with
  | file content => exact .file (.refl content)
  | folder => exact .folder
  | link target => exact .link target

namespace Tree

variable {t t' : Tree Content} {place : Place}

/-- Trees whose entries are alike everywhere. -/
def Alike (t t' : Tree Content) : Prop :=
  ∀ place, Option.Rel Entry.Alike (t.get? place) (t'.get? place)

namespace Alike

/-- Trees that are alike have the same outline. -/
theorem sameOutline (h : t.Alike t') : t.SameOutline t' := by
  intro place
  have hplace := h place
  generalize t.get? place = entry, t'.get? place = entry' at hplace
  cases hplace with
  | none => rfl
  | some hentry => cases hentry <;> rfl

/-- Trees stay alike where entries are put that are. -/
theorem put (h : t.Alike t') (place : Place) {entry entry' : Entry Content}
    (hentry : entry.Alike entry') : (t.put place entry).Alike (t'.put place entry') := by
  intro other
  -- Nothing is written at the root, and at any other place the entry is the new or an old one.
  by_cases hroot : other = []
  · rw [hroot, get?_nil, get?_nil]
    exact .some .folder
  · by_cases hsame : place = other
    · subst hsame
      rw [get?_put_self _ hroot, get?_put_self _ hroot]
      exact .some hentry
    · rw [get?_put_of_ne _ hsame, get?_put_of_ne _ hsame]
      exact h other

/-- Texts that are alike are put behind what is there, if both or none of them start with a line
feed. -/
theorem appendTo (h : t.Alike t') (place : Place) {text text' : String}
    (htext : ImportAtlas.Alike true text.toList text'.toList)
    (hhead : text.toList.head? = text'.toList.head?) :
    (Act.appendTo t place text).Alike (Act.appendTo t' place text') := by
  have hplace := h place
  have hnew : Content.Alike (.bytes (Text.Utf8.encode text.toList))
      (.bytes (Text.Utf8.encode text'.toList)) := by
    refine .bytes ?_
    rwa [Text.Utf8.decodeLenient_encode, Text.Utf8.decodeLenient_encode]
  unfold Act.appendTo
  generalize t.get? place = entry, t'.get? place = entry' at hplace
  cases hplace with
  | none => exact h.put place (.file hnew)
  | some hentry =>
    cases hentry with
    | folder => exact h.put place (.file hnew)
    | link target => exact h.put place (.file hnew)
    | file hcontent =>
      cases hcontent with
      | database tables => exact h
      | bytes hbytes =>
        -- Only a text whose first character is that of the other may stand behind a return.
        refine h.put place (.file (.bytes ?_))
        rw [Text.Utf8.decodeLenient_append_encode, Text.Utf8.decodeLenient_append_encode]
        exact hbytes.append htext fun _ => by rw [hhead]

/-- A path leads to contents that are alike, or to none for the same reason. -/
theorem content (h : t.Alike t') (here : Place) (path : String) :
    (∃ fault, t.content here path = .error fault ∧ t'.content here path = .error fault) ∨
      ∃ content content', t.content here path = .ok content ∧
        t'.content here path = .ok content' ∧ content.Alike content' := by
  unfold Tree.content
  rw [h.sameOutline.lookup_eq]
  cases hlookup : t.lookup here path with
  | error fault => exact .inl ⟨fault, rfl, rfl⟩
  | ok found =>
    obtain ⟨place, entry⟩ := found
    have hplace := h place
    rw [get?_of_lookup hlookup] at hplace
    -- Both walks come to this place; what they find differs in a file's bytes at most.
    simp only [Except.map]
    generalize t'.get? place = entry' at hplace
    cases hplace with
    | some hentry =>
      cases hentry with
      | file hcontent => exact .inr ⟨_, _, rfl, rfl, hcontent⟩
      | folder => exact .inl ⟨_, rfl, rfl⟩
      | link target => exact .inl ⟨_, rfl, rfl⟩

end Alike

end Tree

/-! ## Messages that quote statements -/

/-- A character that is no space is not trimmed away. -/
theorem Text.mem_trim_iff {s : List Char} {c : Char} (hc : Text.isBlank c = false) :
    c ∈ Text.trim s ↔ c ∈ s := by
  have hdrop (s : List Char) : c ∈ s.dropWhile Text.isBlank ↔ c ∈ s := by
    induction s with
    | nil => rfl
    | cons d s ih =>
      rw [List.dropWhile_cons]
      split
      · rename_i hd
        -- What is dropped is blank, and `c` is not.
        have hne : c ≠ d := by
          rintro rfl
          rw [hc] at hd
          cases hd
        simp [ih, hne]
      · rfl
  rw [trim, trimEnd, trimStart, List.mem_reverse, hdrop, List.mem_reverse, hdrop]

theorem isQuote_quoteFor (s : List Char) : isQuote (Text.quoteFor s) = true := by
  rcases Text.quoteFor_cases s with hq | hq <;> rw [hq] <;> rfl

/-- A quoted text does not begin with a line feed. -/
theorem head?_quoted_ne (s rest : List Char) : (Text.quoted s ++ rest).head? ≠ some '\n' := by
  have hhead : (Text.quoted s ++ rest).head? = some (Text.quoteFor s) := rfl
  rw [hhead]
  rcases Text.quoteFor_cases s with hq | hq <;> rw [hq] <;> decide

/-- What is quoted of texts that are alike is alike before a parenthesis. -/
theorem Alike.quoted {isStrict : Bool} {s t : List Char} (h : Alike isStrict s t)
    (rest : List Char) :
    Alike true (Text.quoted (Text.trim s) ++ ' ' :: '(' :: rest)
      (Text.quoted (Text.trim t) ++ ' ' :: '(' :: rest) := by
  obtain ⟨u, hu⟩ := Text.exists_quoted_eq (Text.trim s)
  obtain ⟨v, hv⟩ := Text.exists_quoted_eq (Text.trim t)
  -- The closing brace is no quote and is not escaped, so it is in both texts or in neither.
  have hbrace : '\x7d' ∈ u ↔ '\x7d' ∈ v := by
    have hquoted {s u : List Char}
        (hu : Text.quoted (Text.trim s) = Text.quoteFor (Text.trim s) :: u) :
        '\x7d' ∈ u ↔ '\x7d' ∈ s := by
      have hne : '\x7d' ≠ Text.quoteFor (Text.trim s) := by
        intro heq
        have hq := isQuote_quoteFor (Text.trim s)
        rw [← heq] at hq
        cases hq
      rw [← Text.mem_trim_iff (s := s) (by decide), ← Text.mem_quoted_brace_iff (s := Text.trim s),
        hu, List.mem_cons, or_iff_right hne]
    rw [hquoted hu, hquoted hv, h.mem_brace_iff]
  have hunbroken {s u : List Char} {q : Char} (hu : Text.quoted s = q :: u) :
      ∀ c ∈ u, Text.isBreak c = false := fun c hc =>
    Text.isBreak_of_mem_quoted (hu ▸ List.mem_cons_of_mem q hc)
  rw [hu, hv]
  exact .shown (isQuote_quoteFor _) (isQuote_quoteFor _) (hunbroken hu) (hunbroken hv) hbrace
    (Alike.refl rest)

/-- The words for a statement without a locator quote it trimmed. -/
theorem Failure.toList_text_noLocator (statement : List Char) (reason : String) :
    (Failure.noLocator (String.ofList statement) reason).text.toList =
      "Cannot extract locator from import line: ".toList ++
        (Text.quoted (Text.trim statement) ++
          ' ' :: '(' :: ("reason=".toList ++ reason.toList ++ [')'])) := by
  have htext : (Failure.noLocator (String.ofList statement) reason).text =
      "Cannot extract locator from import line: " ++
        quotedString (String.ofList (Text.trim (String.ofList statement).toList)) ++ " (" ++
          ("reason" ++ "=" ++ reason) ++ ")" := rfl
  rw [htext, quotedString, String.toList_ofList, String.toList_ofList]
  simp [String.toList_append]

/-! ## Hosts that are alike -/

/-- Hosts whose trees are alike, and whose other parts that a survey reads are the same. -/
structure Host.Alike (host host' : Host) : Prop where
  tree : host.tree.Alike host'.tree
  folder_eq : host'.folder = host.folder
  logFile_eq : host'.logFile = host.logFile
  stamp_eq : host'.stamp = host.stamp

namespace Host.Alike

variable {host host' : Host}

/-- Records whose messages are alike, and start alike, leave hosts that are. -/
theorem matches_log (h : host.Alike host') (level : LogLevel) (channel : String)
    {message message' : String}
    (hmessage : ImportAtlas.Alike true message.toList message'.toList)
    (hhead : message.toList.head? = message'.toList.head?) :
    Matches (Act.log level channel message) host (Act.log level channel message') host' Eq
      Host.Alike := by
  refine .ok rfl ⟨?_, h.folder_eq, h.logFile_eq, h.stamp_eq⟩
  dsimp only
  rw [h.logFile_eq, h.stamp_eq]
  split
  · rename_i file hfile
    -- Both lines have the same front, which is not empty.
    let front := host.stamp ++ " " ++ level.name ++
      String.ofList (List.replicate (8 - level.name.length) ' ') ++ " " ++ channelName channel ++
        ": "
    have hline (message : String) : (LogRecord.line ⟨level, channelName channel, message⟩
        host.stamp ++ "\n").toList = front.toList ++ (message.toList ++ ['\n']) := by
      simp [LogRecord.line, front, String.toList_append]
    have hfront : front.toList ≠ [] := by simp [front, String.toList_append]
    refine h.tree.appendTo file.place ?_ ?_
    · rw [hline, hline]
      refine (ImportAtlas.Alike.refl _).append (hmessage.append (.refl _) fun _ => Iff.rfl) ?_
      intro _
      rw [List.head?_append, List.head?_append, hhead]
    · rw [hline, hline, List.head?_append_of_ne_nil _ hfront, List.head?_append_of_ne_nil _ hfront]
  · exact h.tree

/-- The same record leaves hosts alike. -/
theorem matches_log_same (h : host.Alike host') (level : LogLevel) (channel message : String) :
    Matches (Act.log level channel message) host (Act.log level channel message) host' Eq
      Host.Alike :=
  h.matches_log level channel (.refl _) rfl

/-- A pure result is the same on hosts that are alike. -/
theorem matches_ofExcept {ε α : Type} (h : host.Alike host') (wrap : ε → Error)
    (result : Except ε α) :
    Matches (Act.ofExcept wrap result) host (Act.ofExcept wrap result) host' Eq Host.Alike := by
  cases result with
  | ok a => exact matches_pure rfl h
  | error e => exact matches_throw _ h

/-- What is read from a file is alike. -/
theorem matches_readBytes (h : host.Alike host') (path : String) :
    Matches (Act.readBytes path) host (Act.readBytes path) host'
      (fun bs bs' => ImportAtlas.Alike true (Text.Utf8.decodeLenient bs)
        (Text.Utf8.decodeLenient bs')) Host.Alike := by
  have hask : Matches (Act.ask path Tree.content) host (Act.ask path Tree.content) host'
      Content.Alike Host.Alike := by
    unfold Act.ask
    split
    · exact matches_throw _ h
    · refine matches_bind_get ?_
      rw [h.folder_eq]
      rcases h.tree.content host.folder path with ⟨fault, hs, ht⟩ | ⟨c, c', hs, ht, hc⟩
      · rw [hs, ht]
        exact matches_throw _ h
      · rw [hs, ht]
        exact matches_pure hc h
  -- A file differs in its spelling at most, a database not at all.
  refine hask.bind fun content content' s t hcontent hst => ?_
  cases hcontent with
  | bytes hbytes => exact matches_pure hbytes hst
  | database tables => exact matches_pure (.refl _) hst

/-- The texts that are read are alike, or cannot be read for the same reason. -/
theorem matches_readSource (h : host.Alike host') (path : Path) :
    Matches (readSource path) host (readSource path) host'
      (fun text text' => ImportAtlas.Alike true text.toList text'.toList) Host.Alike := by
  refine Matches.bind (Matches.tryCatch (h.matches_readBytes path.text) fun e s t hst => ?_)
    fun bs bs' s t hbytes hst => ?_
  · cases e <;> exact matches_throw _ hst
  · refine matches_pure ?_ hst
    rwa [String.toList_ofList, String.toList_ofList]

/-- A locator stands for the same file. -/
theorem matches_resolveLocator (h : host.Alike host') (locator importer baseDirectory : String)
    (extensions : List String) :
    Matches (resolveLocator locator importer baseDirectory extensions) host
      (resolveLocator locator importer baseDirectory extensions) host' Eq Host.Alike := by
  -- Candidates are looked up by the outline of the tree, which the two trees share.
  have hleads : host'.tree.leadsToFile host'.folder = host.tree.leadsToFile host.folder := by
    funext path
    rw [h.folder_eq, h.tree.sameOutline.leadsToFile_eq]
  refine matches_bind_get ?_
  rw [hleads]
  split
  · exact matches_pure rfl h
  · exact (h.matches_log_same _ _ _).bind fun _ _ _ _ _ hst => matches_pure rfl hst

end Host.Alike

/-! ## Surveys -/

namespace Survey

variable {s : Settings} {c : Classifier} {host host' : Host}

/-- A path is added alike. -/
theorem matches_addPath (h : host.Alike host') (g : ImportGraph) (path : String) :
    Matches (addPath s g path) host (addPath s g path) host' Eq Host.Alike := by
  have hsource : Matches (sourceOf s path) host (sourceOf s path) host' Eq Host.Alike := by
    unfold sourceOf
    split
    · exact matches_throw _ h
    · -- A path is placed by its names and the folder, never by what a file holds.
      have hworking : Matches Act.workingPath host Act.workingPath host' Eq Host.Alike := by
        refine matches_pure ?_ h
        rw [h.folder_eq]
      refine hworking.bind ?_
      rintro here _ t t' rfl h
      dsimp only
      split
      · exact matches_pure rfl h
      · exact matches_throw _ h
  refine hsource.bind ?_
  rintro f _ t t' rfl h
  refine (h.matches_ofExcept _ _).bind ?_
  rintro a _ t t' rfl h
  exact matches_pure rfl h

/-- An import is resolved alike. -/
theorem matches_edgeOf (h : host.Alike host') (g : ImportGraph) (file : SourceFile)
    (locator : String) :
    Matches (edgeOf s c g file locator) host (edgeOf s c g file locator) host' Eq
      Host.Alike := by
  have hkind : Matches (s.kindOf c locator) host (s.kindOf c locator) host' Eq Host.Alike := by
    unfold Settings.kindOf
    split
    · exact matches_throw _ h
    · exact matches_pure rfl h
  -- The kind is read off the locator alone; only the search for the target asks the host.
  refine hkind.bind ?_
  rintro kind _ t t' rfl h
  dsimp only
  split
  · exact matches_pure rfl h
  · refine (h.matches_resolveLocator _ _ _ _).bind ?_
    rintro found _ t t' rfl h
    split
    · exact matches_pure rfl h
    · split
      · exact matches_pure rfl h
      · exact (h.matches_log_same _ _ _).bind fun _ _ _ _ _ h => matches_pure rfl h

/-- Statements that are alike are taken into account alike. -/
theorem matches_addStatement (h : host.Alike host') (file : SourceFile) (survey : Survey)
    {statement statement' : List Char} (hstatement : ImportAtlas.Alike false statement statement') :
    Matches (addStatement s c file survey statement) host
      (addStatement s c file survey statement') host' Eq Host.Alike := by
  unfold addStatement
  rw [hstatement.locator_eq]
  split
  · -- The records quote the statements, which may be different.
    rename_i fault _
    let front := (file.relativePath ++ ": ").toList ++
      "Cannot extract locator from import line: ".toList
    have hmessage (statement : List Char) :
        (file.relativePath ++ ": " ++
          (Failure.noLocator (String.ofList statement) fault.reason).text).toList =
        front ++ (Text.quoted (Text.trim statement) ++
          ' ' :: '(' :: ("reason=".toList ++ fault.reason.toList ++ [')'])) := by
      rw [String.toList_append, Failure.toList_text_noLocator]
      exact (List.append_assoc _ _ _).symm
    have hfront : front ≠ [] := by simp [front, String.toList_append]
    have hquoted := hstatement.quoted ("reason=".toList ++ fault.reason.toList ++ [')'])
    refine (h.matches_log .warning channel ?_ ?_).bind fun _ _ _ _ _ h => matches_pure rfl h
    · rw [hmessage, hmessage]
      exact (ImportAtlas.Alike.refl front).append hquoted fun _ =>
        iff_of_false (head?_quoted_ne _ _) (head?_quoted_ne _ _)
    · rw [hmessage, hmessage, List.head?_append_of_ne_nil _ hfront,
        List.head?_append_of_ne_nil _ hfront]
  · -- From the locator on, the two texts do not differ any more.
    refine (matches_edgeOf h _ _ _).bind ?_
    rintro edge _ t t' rfl h
    refine (h.matches_ofExcept _ _).bind ?_
    rintro edge _ t t' rfl h
    split
    · exact matches_pure rfl h
    · exact (h.matches_log_same _ _ _).bind fun _ _ _ _ _ h => matches_pure rfl h
    · exact matches_throw _ h

/-- The imports of a file are added alike. -/
theorem matches_addFile (h : host.Alike host') (survey : Survey) (file : SourceFile) :
    Matches (addFile s c survey file) host (addFile s c survey file) host' Eq Host.Alike := by
  refine (h.matches_readSource _).bind fun text text' t t' htext h => ?_
  refine matches_foldlM (htext.statements _) ?_ rfl h
  rintro statement statement' hstatement survey _ t t' rfl h
  exact matches_addStatement h file survey hstatement

/-- An act and its error, as a value. -/
theorem matches_attempt {α : Type} {x y : Act α} (h : Matches x host y host' Eq Host.Alike) :
    Matches (tryCatch (Except.ok <$> x) fun e => pure (.error e)) host
      (tryCatch (Except.ok <$> y) fun e => pure (.error e)) host' Eq Host.Alike := by
  have hok : Matches (Except.ok (ε := Error) <$> x) host (Except.ok <$> y) host' Eq Host.Alike :=
    Matches.map (h.mono fun _ _ => congrArg _)
  exact hok.tryCatch fun e t t' h => matches_pure rfl h

/-- So are those of all files. -/
theorem matches_addFiles (h : host.Alike host') (survey : Survey) (files : List SourceFile) :
    Matches (addFiles s c survey files) host (addFiles s c survey files) host' Eq
      Host.Alike := by
  induction files generalizing host host' survey with
  | nil => exact matches_pure rfl h
  | cons file files ih =>
    unfold addFiles
    refine (matches_attempt (matches_addFile h survey file)).bind ?_
    rintro next _ t t' rfl h
    -- Both surveys stop at the same file, or at none.
    cases next with
    | ok survey => exact ih h survey
    | error e => exact matches_pure rfl h

/-- A survey ends in the same way, with the same graph and the same counts. -/
theorem matches_ofPaths (h : host.Alike host') (paths : List String) :
    Matches (ofPaths s c paths) host (ofPaths s c paths) host' Eq Host.Alike := by
  have hplaced : Matches (paths.foldlM (addPath s) .empty) host (paths.foldlM (addPath s) .empty)
      host' Eq Host.Alike := by
    refine matches_foldlM (List.forall₂_eq_eq_eq ▸ rfl : List.Forall₂ Eq paths paths) ?_ rfl h
    rintro path _ rfl g _ t t' rfl h
    exact matches_addPath h g path
  refine (matches_attempt hplaced).bind ?_
  rintro placed _ t t' rfl h
  -- The attempt gives the same answer on both hosts, so both stop at the same error or go on.
  cases placed with
  | error e => exact matches_pure rfl h
  | ok graph =>
    refine (matches_addFiles h _ _).bind ?_
    rintro ⟨survey, stopped⟩ _ t t' rfl h
    dsimp only
    split
    · exact (h.matches_log_same _ _ _).bind fun _ _ _ _ _ h => matches_pure rfl h
    · exact matches_pure rfl h

/-- What is attempted does not fail: an error is a result like any other. -/
theorem fails_attempt {α : Type} (x : Act α) (host : Host) :
    Fails (tryCatch (Except.ok <$> x) fun e => pure (.error e) : Act (Except Error α)) host
      fun _ _ => False :=
  Fails.tryCatch fun _ _ _ => fails_pure _

/-- To read the imports of files never fails: what stops it is a part of what it gives. -/
theorem fails_addFiles (survey : Survey) (files : List SourceFile) (host : Host) :
    Fails (addFiles s c survey files) host fun _ _ => False := by
  induction files generalizing survey host with
  | nil => exact fails_pure _
  | cons file files ih =>
    unfold addFiles
    refine (fails_attempt _ _).bind_forall fun next host => ?_
    cases next with
    | ok survey => exact ih survey host
    | error e => exact fails_pure _

/-- A survey always comes to an end: what stops it is told beside what there is so far. -/
theorem exists_ofPaths_eq_ok (s : Settings) (c : Classifier) (paths : List String) (host : Host) :
    ∃ ended after, ofPaths s c paths host = .ok ended after := by
  have hlog (level : LogLevel) (message : String) (host : Host) :
      Fails (Act.log level channel message) host fun _ _ => False := by
    rintro e after hfail
    obtain ⟨after', hok⟩ : ∃ after, Act.log level channel message host = .ok () after := ⟨_, rfl⟩
    rw [hok] at hfail
    cases hfail
  have hends : Fails (ofPaths s c paths) host fun _ _ => False := by
    unfold ofPaths
    -- What goes wrong with a file is caught and stands in the answer.
    refine (fails_attempt _ _).bind_forall fun placed host => ?_
    cases placed with
    | error e => exact fails_pure _
    | ok graph =>
      refine (fails_addFiles _ _ _).bind_forall fun found host => ?_
      obtain ⟨survey, stopped⟩ := found
      cases stopped with
      | some e => exact fails_pure _
      | none =>
        exact (hlog _ _ _).bind_forall fun _ _ => fails_pure _
  cases hrun : ofPaths s c paths host with
  | ok ended after => exact ⟨ended, after, rfl⟩
  | error e after => exact (hends e after hrun).elim

end Survey

/-! ## Files in another spelling -/

namespace Tree

variable {t t' : Tree Content} {place : Place}

/-- A tree holds what another one does, but some files are in other spellings. -/
def IsRespelled (t t' : Tree Content) : Prop :=
  ∀ place, t'.get? place = t.get? place ∨
    ∃ bs bs', ∃ r : Respelling, t.get? place = some (.file (.bytes bs)) ∧
      t'.get? place = some (.file (.bytes bs')) ∧ r.Fits (Text.Utf8.decodeLenient bs) ∧
        Text.Utf8.decodeLenient bs' = r.apply (Text.Utf8.decodeLenient bs)

/-- What is respelled is alike. -/
theorem IsRespelled.alike (h : t.IsRespelled t') : t.Alike t' := by
  intro place
  rcases h place with hsame | ⟨bs, bs', r, hget, hget', hfits, hbytes⟩
  · rw [hsame]
    cases t.get? place with
    | none => exact .none
    | some entry => exact .some (.refl entry)
  · rw [hget, hget']
    refine .some (.file (.bytes ?_))
    rw [hbytes]
    exact Respelling.alike hfits

/-- Writing a file anew in another spelling changes no other. -/
theorem isRespelled_put {bs : List UInt8} (hget : t.get? place = some (.file (.bytes bs)))
    {r : Respelling} (hfits : r.Fits (Text.Utf8.decodeLenient bs)) :
    t.IsRespelled (t.put place
      (.file (.bytes (Text.Utf8.encode (r.apply (Text.Utf8.decodeLenient bs)))))) := by
  -- The root is a folder, so the file stands somewhere else.
  have hroot : place ≠ [] := by
    rintro rfl
    rw [get?_nil] at hget
    cases hget
  intro other
  by_cases hsame : place = other
  · subst hsame
    exact .inr ⟨bs, _, r, hget, get?_put_self _ hroot _, hfits, Text.Utf8.decodeLenient_encode _⟩
  · exact .inl (get?_put_of_ne _ hsame _)

end Tree

/-- Other quotes, and a carriage return before each line feed of a text that has none, are not seen:
the statements of the text have the same locators, or none for the same reasons, and a survey of any
paths ends with the same graph and the same counts, and for the same reason, when files of the tree
are in other spellings. -/
theorem Respelling.invisible :
    (∀ (r : Respelling) (text : List Char) (joinBlocks : Bool), r.Fits text →
      (statements joinBlocks (r.apply text)).map locator =
        (statements joinBlocks text).map locator) ∧
    ∀ (s : Settings) (c : Classifier) (paths : List String) (host : Host) (tree : Tree Content),
      host.tree.IsRespelled tree → ∃ survey stopped after after',
        Survey.ofPaths s c paths host = .ok (survey, stopped) after ∧
          Survey.ofPaths s c paths { host with tree } = .ok (survey, stopped) after' := by
  constructor
  · intro r text joinBlocks hfits
    exact ((Respelling.alike hfits).map_locator_eq joinBlocks).symm
  · intro s c paths host tree htree
    have halike : host.Alike { host with tree } := ⟨htree.alike, rfl, rfl, rfl⟩
    have hmatch := Survey.matches_ofPaths (s := s) (c := c) halike paths
    obtain ⟨⟨survey, stopped⟩, after, hrun⟩ := Survey.exists_ofPaths_eq_ok s c paths host
    obtain ⟨ended', after', hrun'⟩ := Survey.exists_ofPaths_eq_ok s c paths { host with tree }
    unfold Matches at hmatch
    rw [hrun, hrun'] at hmatch
    cases hmatch with
    | ok hsame _ => exact ⟨survey, stopped, after, after', hrun, hsame ▸ hrun'⟩

/-- Of two files that import each other, one is written anew with double quotes. -/
theorem Respelling.invisible_mutual :
    let r : Respelling := ⟨true, .double⟩
    let text := "import \x7b\n b \x7d from './b';\n".toList
    let bs := Text.Utf8.encode "import b from './b'".toList
    let tree := mutualTree.put ["p", "a.js"]
      (.file (.bytes (Text.Utf8.encode (r.apply (Text.Utf8.decodeLenient bs)))))
    r.apply text = "import \x7b\r\n b \x7d from \"./b\";\r\n".toList ∧
    (statements true (r.apply text)).map locator = (statements true text).map locator ∧
    ∃ survey stopped after after',
      Survey.ofPaths mutualSettings .default ["/p/a.js", "/p/b.js"] mutualHost =
        .ok (survey, stopped) after ∧
      Survey.ofPaths mutualSettings .default ["/p/a.js", "/p/b.js"] { mutualHost with tree } =
        .ok (survey, stopped) after' := by
  intro r text bs tree
  have hbs : Text.Utf8.decodeLenient bs = "import b from './b'".toList :=
    Text.Utf8.decodeLenient_encode _
  have htree : mutualHost.tree.IsRespelled tree := by
    refine Tree.isRespelled_put rfl fun _ => ?_
    rw [hbs]
    decide
  exact ⟨by decide, Respelling.invisible.1 r text true fun _ => by decide,
    Respelling.invisible.2 _ _ _ _ tree htree⟩

end ImportAtlas

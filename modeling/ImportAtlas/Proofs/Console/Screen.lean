import ImportAtlas.Console.Screen
import ImportAtlas.Proofs.Act
import ImportAtlas.Proofs.List
import ImportAtlas.Text.Blank

/-!
# What is known of a screen

The laws of a screen say what the library that draws on the console is known to do: text without
marks is read as it stands, a style is read off, a text and a table that have room are drawn as they
are read, and what has no brackets but those of a style is never refused. Whatever else it does, it
shows things one after the other, up to the first that it refuses.

## Key results

- `Console.Screen.Laws`: the laws
- `Console.Screen.Laws.lines_table_of_isVerbatim`: a table of texts without marks is drawn as it is
- `Console.ends_forM_print`: what is shown of several things
-/

namespace ImportAtlas

open EStateM

namespace Console

/-! ## Texts without marks -/

/-- A name stands between two colons of a text. It may be the name of a picture. -/
def HasPicture (s : List Char) : Prop :=
  ∃ name, (∀ c ∈ name, Text.isBlank c = false) ∧ ':' :: name ++ [':'] <:+: s

/-- A text without marks, neither those of styles nor those of pictures. -/
structure IsUnmarked (text : String) : Prop where
  bracket_not_mem : '[' ∉ text.toList
  not_hasPicture : ¬ HasPicture text.toList

/-- A single colon stands around no name. -/
theorem not_hasPicture_of_count {s : List Char} (h : s.count ':' ≤ 1) : ¬ HasPicture s := by
  rintro ⟨name, -, hname⟩
  have hcount := hname.sublist.count_le ':'
  simp only [List.cons_append, List.count_cons_self, List.count_append] at hcount
  omega

/-- Without brackets and colons there is no markup. -/
theorem isUnmarked_of_not_mem {text : String} (hbracket : '[' ∉ text.toList)
    (hcolon : ':' ∉ text.toList) : IsUnmarked text :=
  ⟨hbracket, not_hasPicture_of_count (by rw [List.count_eq_zero.2 hcolon]; exact Nat.zero_le 1)⟩

/-- No name stands on both sides of a blank. -/
theorem hasPicture_append_cons {s t : List Char} {c : Char} (hblank : Text.isBlank c = true) :
    HasPicture (s ++ c :: t) ↔ HasPicture s ∨ HasPicture t := by
  -- Neither the colons nor a name of a picture have a space, so none reaches across one.
  have hside (name : List Char) (hname : ∀ c ∈ name, Text.isBlank c = false) :
      ':' :: name ++ [':'] <:+: s ++ c :: t ↔
        ':' :: name ++ [':'] <:+: s ∨ ':' :: name ++ [':'] <:+: t := by
    refine List.infix_append_cons_iff (List.cons_ne_nil _ _) fun hmem => ?_
    have hcolon : c ≠ ':' := by
      rintro rfl
      exact absurd hblank (by decide)
    have hin : c ∈ name := by simpa [hcolon] using hmem
    exact absurd hblank (ne_true_of_eq_false (hname c hin))
  constructor
  · rintro ⟨name, hname, hinfix⟩
    exact ((hside name hname).1 hinfix).imp (⟨name, hname, ·⟩) (⟨name, hname, ·⟩)
  · rintro (⟨name, hname, hinfix⟩ | ⟨name, hname, hinfix⟩)
    · exact ⟨name, hname, (hside name hname).2 (.inl hinfix)⟩
    · exact ⟨name, hname, (hside name hname).2 (.inr hinfix)⟩

/-- Two texts without marks, with a space between them. -/
theorem IsUnmarked.append_space {text text' : String} (h : IsUnmarked text)
    (h' : IsUnmarked text') : IsUnmarked (text ++ " " ++ text') := by
  have hletters : (text ++ " " ++ text').toList = text.toList ++ ' ' :: text'.toList := by simp
  constructor
  · rw [hletters]
    simpa using ⟨h.bracket_not_mem, h'.bracket_not_mem⟩
  · rw [hletters, hasPicture_append_cons (by decide)]
    exact not_or.2 ⟨h.not_hasPicture, h'.not_hasPicture⟩

namespace Screen

variable {screen : Screen} {text : String}

/-- All characters of a text are shown as they are, in one column each. -/
def IsNarrow (screen : Screen) (text : String) : Prop :=
  ∀ c ∈ text.toList, screen.narrow c = true

/-- A text of such characters, and without marks. -/
structure IsVerbatim (screen : Screen) (text : String) : Prop where
  isUnmarked : IsUnmarked text
  isNarrow : screen.IsNarrow text

/-- Narrow texts make a narrow text. -/
theorem IsNarrow.append {text' : String} (h : screen.IsNarrow text) (h' : screen.IsNarrow text') :
    screen.IsNarrow (text ++ text') := by
  intro c hc
  rw [String.toList_append] at hc
  exact (List.mem_append.1 hc).elim (h c) (h' c)

/-! ## Laws -/

/-- What the library that draws on the console is known to do. -/
structure Laws (screen : Screen) : Prop where
  /-- The printable characters of ASCII are shown as they are, and so is the arrow. -/
  narrow_of_isPrinted : ∀ c, isPrinted c = true → screen.narrow c = true
  /-- A text without marks is read as it stands. -/
  read_unmarked : ∀ text, IsUnmarked text → screen.IsNarrow text → screen.read text = .ok text
  /-- The marks around a text in a style are taken away. A backslash might keep one of them. -/
  read_styled : ∀ style ∈ styles, ∀ before text behind, IsUnmarked before → IsUnmarked text →
    IsUnmarked behind → screen.IsNarrow before → screen.IsNarrow text → screen.IsNarrow behind →
    '\\' ∉ before.toList → '\\' ∉ text.toList →
    screen.read (before ++ styled style text ++ behind) = .ok (before ++ text ++ behind)
  /-- A text that has room in a line is shown in one line. -/
  lines_text : ∀ text seen, screen.read text = .ok seen → screen.IsNarrow seen →
    seen.length ≤ screen.width → screen.lines (.text text) = .ok [seen]
  /-- A table that has room is drawn with a line for each row. -/
  lines_table : ∀ (t : Table) (seen : String → String),
    (∀ text ∈ t.texts, screen.read text = .ok (seen text) ∧ screen.IsNarrow (seen text)) →
    t.IsRegular → t.allRows ≠ [] → seen t.title ≠ "" → (t.map seen).FitsIn screen.width →
    screen.lines (.table t) = .ok (t.map seen).drawn
  /-- A text without brackets is not refused. -/
  shows_text : ∀ text, '[' ∉ text.toList → ∃ lines, screen.lines (.text text) = .ok lines
  /-- Nor is one that has no brackets but those of a style. A backslash might hide the first of
  them. -/
  shows_styled : ∀ style ∈ styles, ∀ before text behind, '[' ∉ before.toList →
    '[' ∉ text.toList → '[' ∉ behind.toList → '\\' ∉ before.toList →
    ∃ lines, screen.lines (.text (before ++ styled style text ++ behind)) = .ok lines
  /-- Nor is a table of texts without brackets. -/
  shows_table : ∀ t : Table, (∀ text ∈ t.texts, '[' ∉ text.toList) →
    ∃ lines, screen.lines (.table t) = .ok lines

namespace Laws

variable (h : screen.Laws)
include h

/-- A printed text is narrow. -/
theorem isNarrow_of_isPrinted (htext : text.toList.all isPrinted = true) : screen.IsNarrow text :=
  fun c hc => h.narrow_of_isPrinted c (List.all_eq_true.1 htext c hc)

/-- Texts of printable characters without brackets and colons are shown as they are. -/
theorem isVerbatim_of_isPrinted (htext : text.toList.all isPrinted = true)
    (hbracket : '[' ∉ text.toList) (hcolon : ':' ∉ text.toList) : screen.IsVerbatim text :=
  ⟨isUnmarked_of_not_mem hbracket hcolon, h.isNarrow_of_isPrinted htext⟩

/-- Texts that are shown verbatim are so with a space between them. -/
theorem isVerbatim_append_space {text' : String} (htext : screen.IsVerbatim text)
    (htext' : screen.IsVerbatim text') : screen.IsVerbatim (text ++ " " ++ text') := by
  have hspace : screen.IsNarrow " " := h.isNarrow_of_isPrinted (by decide)
  exact ⟨htext.isUnmarked.append_space htext'.isUnmarked,
    (htext.isNarrow.append hspace).append htext'.isNarrow⟩

end Laws

/-! ## One thing after the other -/

/-- The lines of things that are shown one after the other, and why the next one is refused if one
is. -/
def showAll (screen : Screen) : List Exhibit → List String × Option ScreenFault
  | [] => ([], none)
  | e :: es =>
    match screen.lines e with
    | .ok lines => (lines ++ (showAll screen es).1, (showAll screen es).2)
    | .error fault => ([], some fault)

/-- What can be shown is shown before the rest. -/
theorem showAll_cons_of_ok {e : Exhibit} {lines : List String} (h : screen.lines e = .ok lines)
    (es : List Exhibit) : screen.showAll (e :: es) =
      (lines ++ (screen.showAll es).1, (screen.showAll es).2) := by
  rw [showAll, h]

/-- All is shown if nothing is refused. -/
theorem showAll_eq_none {es : List Exhibit} (h : ∀ e ∈ es, ∃ lines, screen.lines e = .ok lines) :
    (screen.showAll es).2 = none := by
  induction es with
  | nil => rfl
  | cons e es ih =>
    rw [List.forall_mem_cons] at h
    obtain ⟨lines, hlines⟩ := h.1
    rw [showAll_cons_of_ok hlines]
    exact ih h.2

end Screen

/-! ## Showing things -/

variable {screen : Screen} {host : Host}

/-- To print something adds its lines, or the screen refuses it and none is added. -/
theorem ends_print (e : Exhibit) : Ends (print screen e) host
    (fun _ host' => ∃ lines, screen.lines e = .ok lines ∧
      host' = { host with printed := host.printed ++ lines })
    fun err host' => host' = host ∧ ∃ fault, err = .screen fault ∧
      screen.lines e = .error fault := by
  unfold print
  cases hlines : screen.lines e with
  | ok lines => exact ends_of_ok rfl ⟨lines, rfl, rfl⟩
  | error fault => exact ends_of_error rfl ⟨rfl, fault, rfl, rfl⟩

/-- Things are shown one after the other. What has been shown before one is refused stays. -/
theorem ends_forM_print (es : List Exhibit) (host : Host) : Ends (es.forM (print screen)) host
    (fun _ host' => (screen.showAll es).2 = none ∧
      host' = { host with printed := host.printed ++ (screen.showAll es).1 })
    fun err host' => ∃ fault, err = .screen fault ∧ (screen.showAll es).2 = some fault ∧
      host' = { host with printed := host.printed ++ (screen.showAll es).1 } := by
  induction es generalizing host with
  | nil => exact ends_pure ⟨rfl, by simp [Screen.showAll]⟩
  | cons e es ih =>
    rw [List.forM_eq_forM, List.forM_cons]
    refine Ends.bind ((ends_print e).mono (fun _ _ h => h) ?_) ?_
    · -- The first exhibit that is refused is where the showing stops.
      rintro err _ ⟨rfl, fault, rfl, hlines⟩
      rw [Screen.showAll, hlines]
      exact ⟨fault, rfl, rfl, by simp⟩
    · rintro _ _ ⟨lines, hlines, rfl⟩
      rw [Screen.showAll_cons_of_ok hlines]
      refine (ih _).mono ?_ ?_
      · rintro _ _ ⟨hnone, rfl⟩
        exact ⟨hnone, by simp⟩
      · rintro err _ ⟨fault, rfl, hfault, rfl⟩
        exact ⟨fault, rfl, hfault, by simp⟩

end Console

end ImportAtlas

import ImportAtlas.Import.Statement
import ImportAtlas.Text.Blank

/-!
# Locators

A locator is the text by which a statement names what it imports. It is the last word of the
statement, without one closing semicolon and without quotes; a statement of a single word has
none. No locator that is read is empty (`ne_nil_of_locator_eq_ok`).
-/

namespace ImportAtlas

/-- Why no locator can be read off a statement. -/
inductive LocatorFault where
  /-- The statement has fewer than two words. -/
  | missing
  /-- The last word holds nothing but quotes. -/
  | empty
  deriving DecidableEq, Repr

/-- The fault in words. -/
def LocatorFault.reason : LocatorFault → String
  | missing => "no whitespace-delimited locator token"
  | empty => "empty locator"

/-- Whether `c` is one of the quotes that locators are written in. -/
def isQuote (c : Char) : Bool :=
  c == '\'' || c == '"'

/-- A word without one closing semicolon. -/
def dropSemicolon (word : List Char) : List Char :=
  if word.getLast? = some ';' then word.dropLast else word

/-- A word without one closing semicolon and without quotes. -/
def unquote (word : List Char) : List Char :=
  (dropSemicolon word).filter fun c => !isQuote c

/-- The locator of a statement. -/
def locator (statement : List Char) : Except LocatorFault (List Char) :=
  match (Text.words statement).reverse with
  | last :: _ :: _ => if unquote last = [] then .error .empty else .ok (unquote last)
  | _ => .error .missing

/-- An import statement whose locator could be read. -/
structure ImportStatement where
  /-- All lines of the statement. -/
  text : String
  locator : String
  /-- Whether the first line opens a block. -/
  opensBlock : Bool
  deriving DecidableEq, Repr

/-- Reads the locator of a statement. -/
def ImportStatement.ofText (text : String) : Except LocatorFault ImportStatement := do
  let found ← ImportAtlas.locator text.toList
  let firstLine := (Text.lines text.toList).head?
  return ⟨text, String.ofList found, (firstLine.map ImportAtlas.opensBlock).getD false⟩

/-- A locator is never empty. -/
theorem ne_nil_of_locator_eq_ok {s l : List Char} (h : locator s = .ok l) : l ≠ [] := by
  unfold locator at h
  split at h
  · split at h
    · simp at h
    · next hne => exact Except.ok.inj h ▸ hne
  · simp at h

/-- A locator holds no quote. -/
theorem not_isQuote_of_mem_locator {s l : List Char} (h : locator s = .ok l) {c : Char}
    (hc : c ∈ l) : isQuote c = false := by
  unfold locator at h
  split at h
  · split at h
    · simp at h
    · -- The quotes have been filtered off what is given back.
      rw [← Except.ok.inj h] at hc
      simpa using (List.mem_filter.1 hc).2
  · simp at h

end ImportAtlas

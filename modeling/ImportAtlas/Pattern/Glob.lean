/-!
# Globs

A glob stands for a set of texts: `*` for any run of characters, `?` for any one of them, a set in
brackets for one of its members, and every other character for itself. Nothing else is special,
not even a slash, a leading dot or a backslash. A bracket that is never closed stands for itself.

The members of a set are written in runs with a `-` between two of them; the `-` makes a range of
the last character before it and the first one after it. A range from a higher to a lower
character is empty: it vanishes together with both characters, and its two runs become one.
-/

namespace ImportAtlas

/-- One piece of a glob. -/
inductive GlobItem where
  /-- Any run of characters, also the empty one. -/
  | anyRun
  /-- Any one character. -/
  | anyOne
  | char (c : Char)
  /-- One character that lies in one of the closed ranges, or in none of them if `negated`. -/
  | set (negated : Bool) (ranges : List (Char × Char))
  deriving DecidableEq, Repr

/-- Whether a piece stands for the single character `c`. -/
def GlobItem.accepts (c : Char) : GlobItem → Bool
  | .anyRun => true
  | .anyOne => true
  | .char d => c == d
  | .set negated ranges => negated != ranges.any fun r => r.1 ≤ c && c ≤ r.2

/-- A glob: its pieces from left to right. -/
abbrev Glob := List GlobItem

namespace Glob

/-! ## Sets -/

/-- The runs of a set. A `-` among the first `guarded` characters of a run is a member like any
other, so that one at the very start, or right behind a range, makes no range. -/
def runs : Nat → List Char → List (List Char)
  | _, [] => [[]]
  | 0, '-' :: s => [] :: runs 2 s
  | guarded, c :: s =>
    match runs (guarded - 1) s with
    | r :: rs => (c :: r) :: rs
    | [] => [[c]]

/-- The runs with a `-` at the very end, which makes no range, put back to its run. -/
def closeRuns (rs : List (List Char)) : List (List Char) :=
  match rs.reverse with
  | [] :: r :: before => ((r ++ ['-']) :: before).reverse
  | _ => rs

/-- Puts a run in front of others. If the range between them is empty, it vanishes. -/
def consRun (r : List Char) (rs : List (List Char)) : List (List Char) :=
  match r.getLast?, rs with
  | some low, (high :: tail) :: others =>
    if high < low then (r.dropLast ++ tail) :: others else r :: rs
  | _, _ => r :: rs

/-- The ranges that runs stand for. A `-` with no run before it is a member. -/
def rangesOfRuns : List (List Char) → List (Char × Char)
  | [] => []
  | [r] => r.map fun c => (c, c)
  | r :: next :: others =>
    match r.getLast?, next with
    -- A dash joins the last character before it to the first one behind it.
    -- A dash joins the last character before it to the first one behind it.
    | some low, high :: tail =>
      (r.dropLast.map fun c => (c, c)) ++ (low, high) :: rangesOfRuns (tail :: others)
    | _, _ => ('-', '-') :: rangesOfRuns (next :: others)
termination_by rs => rs.length

/-- The set between two brackets. A leading `!` negates it. -/
def setOf (body : List Char) : GlobItem :=
  let guarded := if body.head? = some '!' then 2 else 1
  -- A `!` that comes first because an empty range before it has vanished negates too.
  match (closeRuns (runs guarded body)).foldr consRun [] with
  | ('!' :: r) :: others => .set true (rangesOfRuns (r :: others))
  | rs => .set false (rangesOfRuns rs)

/-- The body of a set whose opening bracket stands right before `s`, and the shorter rest behind
its closing bracket. A closing bracket at the start of the body, also behind a `!`, is a member. -/
def splitSet? (s : List Char) :
    Option (List Char × { rest : List Char // rest.length < s.length }) :=
  let bang := if s.head? = some '!' then 1 else 0
  -- A bracket right behind the opening, or behind its bang, is a member of the set.
  -- A bracket right behind the opening, or behind its bang, is a member of the set.
  let lead := if s[bang]? = some ']' then bang + 1 else bang
  let ending := (s.drop lead).dropWhile (· != ']')
  if h : ending = [] then
    none
  else
    some (s.take lead ++ (s.drop lead).takeWhile (· != ']'), ⟨ending.tail, by
      have h₁ := (List.dropWhile_sublist (· != ']') (l := s.drop lead)).length_le
      have h₂ := List.length_pos_iff.2 h
      simp only [List.length_drop] at h₁
      simp only [List.length_tail, ending] at h₂ ⊢
      omega⟩)

/-- The pieces of a glob. -/
def ofChars : List Char → Glob
  | [] => []
  | '*' :: s => .anyRun :: ofChars s
  | '?' :: s => .anyOne :: ofChars s
  | '[' :: s =>
    match splitSet? s with
    | some (body, ⟨rest, _shorter⟩) => setOf body :: ofChars rest
    -- A set that is not closed is no set, and its bracket stands for itself.
    -- A set that is not closed is no set, and its bracket stands for itself.
    | none => .char '[' :: ofChars s
  | c :: s => .char c :: ofChars s
termination_by s => s.length
decreasing_by
  all_goals simp only [List.length_cons]
  all_goals omega

/-- Reads a glob. -/
def ofText (s : String) : Glob :=
  ofChars s.toList

/-! ## Matching -/

/-- For each place of a list, whether `true` stands there or further on. -/
def orOnwards : List Bool → List Bool
  | [] => []
  | b :: bs =>
    let further := orOnwards bs
    (b || further.headD false) :: further

/-- For each end of `s`, from `s` itself down to the empty one, whether the glob stands for the
whole of it. -/
def acceptsTails : Glob → List Char → List Bool
  | [], s => s.map (fun _ => false) ++ [true]
  | .anyRun :: g, s => orOnwards (acceptsTails g s)
  | item :: g, s =>
    List.zipWith (fun c rest => item.accepts c && rest) s (acceptsTails g s).tail ++ [false]

/-- Whether the glob stands for the whole of a text. -/
def accepts (g : Glob) (s : List Char) : Bool :=
  (acceptsTails g s).headD false

@[simp] theorem length_orOnwards (bs : List Bool) : (orOnwards bs).length = bs.length := by
  induction bs with
  | nil => rfl
  | cons b bs ih => simp [orOnwards, ih]

/-- There is one answer for each end of the text. -/
@[simp] theorem length_acceptsTails (g : Glob) (s : List Char) :
    (acceptsTails g s).length = s.length + 1 := by
  fun_induction acceptsTails g s with
  | case1 => simp
  | case2 s g ih => simp [ih]
  | case3 s g item _ ih => simp [ih]

/-- The answers for the ends of `c :: s` go on with those for the ends of `s`. -/
theorem tail_acceptsTails_cons (g : Glob) (c : Char) (s : List Char) :
    (acceptsTails g (c :: s)).tail = acceptsTails g s := by
  induction g with
  | nil => simp [acceptsTails]
  | cons item g ih =>
    have hne : acceptsTails g (c :: s) ≠ [] := by
      intro h
      have := length_acceptsTails g (c :: s)
      simp [h] at this
    obtain ⟨b, bs, hb⟩ := List.exists_cons_of_ne_nil hne
    rw [hb, List.tail_cons] at ih
    have hlen := length_acceptsTails g s
    -- Each entry depends only on the part of the text behind it, and one character more in front
    -- changes no such part.
    cases item <;> simp only [acceptsTails, hb, ih, orOnwards, List.tail_cons]
    all_goals
      obtain ⟨d, ds, hd⟩ : ∃ d ds, acceptsTails g s = d :: ds :=
        List.exists_cons_of_ne_nil (by intro h; simp [h] at hlen)
      simp [hd]

/-- The empty glob stands for the empty text. -/
@[simp] theorem accepts_nil (s : List Char) : accepts [] s = s.isEmpty := by
  cases s <;> simp [accepts, acceptsTails]

end Glob

end ImportAtlas

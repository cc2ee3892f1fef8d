import ImportAtlas.Pattern.Glob

/-!
# What globs stand for

A glob is matched piece by piece from the left. A text without `*`, `?` and `[` is a glob that
stands for itself; with a `*` behind it, it stands for all texts that start with it.

## Key results

- `Glob.accepts_cons`, `Glob.accepts_anyRun`: what the first piece of a glob asks for
- `Glob.accepts_literal_iff`, `Glob.accepts_literal_anyRun_iff`: texts without special characters
-/

namespace ImportAtlas.Glob

/-! ## Piece by piece -/

theorem acceptsTails_eq (g : Glob) (c : Char) (s : List Char) :
    acceptsTails g (c :: s) = accepts g (c :: s) :: acceptsTails g s := by
  have hlength := length_acceptsTails g (c :: s)
  have htail := tail_acceptsTails_cons g c s
  unfold accepts
  -- There is one answer for each tail, so the first is about the whole text.
  cases htails : acceptsTails g (c :: s) with
  | nil => simp [htails] at hlength
  | cons b bs =>
    rw [htails, List.tail_cons] at htail
    rw [htail, List.headD_cons]

/-- A piece that stands for one character takes the first one. -/
theorem accepts_cons {item : GlobItem} (hitem : item ≠ .anyRun) (g : Glob) (c : Char)
    (s : List Char) : accepts (item :: g) (c :: s) = (item.accepts c && accepts g s) := by
  have htails : acceptsTails (item :: g) (c :: s) = List.zipWith (fun c rest =>
      item.accepts c && rest) (c :: s) (acceptsTails g (c :: s)).tail ++ [false] := by
    -- Only a star may take no character or several.
    cases item with
    | anyRun => exact absurd rfl hitem
    | _ => rfl
  rw [accepts, htails, tail_acceptsTails_cons, accepts]
  cases hrest : acceptsTails g s with
  | nil =>
    have hlength := length_acceptsTails g s
    simp [hrest] at hlength
  | cons b bs => simp

/-- A piece that stands for one character finds none in the empty text. -/
theorem accepts_cons_nil {item : GlobItem} (hitem : item ≠ .anyRun) (g : Glob) :
    accepts (item :: g) [] = false := by
  cases item with
  | anyRun => exact absurd rfl hitem
  | _ => rfl

/-- A run takes nothing, or one character more. -/
theorem accepts_anyRun_cons (g : Glob) (c : Char) (s : List Char) :
    accepts (.anyRun :: g) (c :: s) = (accepts g (c :: s) || accepts (.anyRun :: g) s) := by
  have hrun (s : List Char) : accepts (.anyRun :: g) s =
      (orOnwards (acceptsTails g s)).headD false := rfl
  rw [hrun, hrun, acceptsTails_eq, orOnwards, List.headD_cons]

/-- A run at the end stands for whatever is left. -/
@[simp] theorem accepts_anyRun (s : List Char) : accepts [.anyRun] s = true := by
  induction s with
  | nil => rfl
  | cons c s ih => rw [accepts_anyRun_cons, ih, Bool.or_true]

/-! ## Texts that stand for themselves -/

/-- A text in which no character is special. -/
def IsLiteral (s : List Char) : Prop :=
  ∀ c ∈ s, c ≠ '*' ∧ c ≠ '?' ∧ c ≠ '['

variable {s : List Char}

theorem ofChars_append (h : IsLiteral s) (rest : List Char) :
    ofChars (s ++ rest) = s.map .char ++ ofChars rest := by
  induction s with
  | nil => rfl
  | cons c s ih =>
    -- A literal character opens no run and no set.
    obtain ⟨⟨hrun, hone, hset⟩, hs⟩ := List.forall_mem_cons.1 h
    rw [List.cons_append, ofChars, ih hs]
    · rfl
    · exact hrun
    · exact hone
    · exact hset

/-- Characters that stand for themselves are met at the start of a text. -/
theorem accepts_chars_append (g : Glob) (t : List Char) :
    accepts (s.map .char ++ g) t = true ↔ ∃ rest, t = s ++ rest ∧ accepts g rest = true := by
  induction s generalizing t with
  | nil => simp
  | cons c s ih =>
    -- A character takes exactly one.
    cases t with
    | nil => simp [accepts_cons_nil]
    | cons d t =>
      have hitem : GlobItem.char c ≠ .anyRun := by simp
      rw [List.map_cons, List.cons_append, accepts_cons hitem, Bool.and_eq_true, ih]
      simp only [GlobItem.accepts, beq_iff_eq, List.cons_append, List.cons.injEq, and_assoc,
        exists_and_left]

/-- A text without special characters stands for itself. -/
theorem accepts_literal_iff (h : IsLiteral s) (t : List Char) :
    accepts (ofChars s) t = true ↔ t = s := by
  have hchars := ofChars_append h []
  rw [List.append_nil] at hchars
  rw [hchars, accepts_chars_append]
  simp [ofChars]

/-- With a `*` behind it, it stands for all texts that start with it. -/
theorem accepts_literal_anyRun_iff (h : IsLiteral s) (t : List Char) :
    accepts (ofChars (s ++ ['*'])) t = true ↔ s <+: t := by
  have hrun : ofChars ['*'] = [.anyRun] := by
    simp [ofChars]
  rw [ofChars_append h, hrun, accepts_chars_append]
  simp only [accepts_anyRun, and_true]
  exact exists_congr fun rest => eq_comm

end ImportAtlas.Glob

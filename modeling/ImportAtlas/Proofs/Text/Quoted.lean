import ImportAtlas.Text.Line
import ImportAtlas.Text.Quoted
import Mathlib.Data.Nat.Digits.Defs

/-!
# Quoted text is a part of a line

What is quoted is shown without anything that would end a line, and with its braces as they are.

## Key results

- `Text.mem_escapeChar`: the characters of an escaped form
- `Text.isBreak_of_mem_quoted`: no line ends within quoted text
- `Text.mem_quoted_brace_iff`: a closing brace is shown if it is there
-/

namespace ImportAtlas.Text

/-- The characters that escaped forms are made of. -/
def IsEscape (c : Char) : Prop :=
  c ∈ ['\\', 't', 'n', 'r', 'x', 'u', 'U'] ∨ ∃ k < 16, c = Nat.digitChar k

/-- An escape breaks no line and closes no block. -/
theorem IsEscape.isBreak_eq {c : Char} (h : IsEscape c) : isBreak c = false ∧ c ≠ '\x7d' := by
  have hplain : ['\\', 't', 'n', 'r', 'x', 'u', 'U'].all
      (fun c => !isBreak c && c != '\x7d') = true := by
    decide
  rcases h with h | ⟨k, hk, rfl⟩
  · simpa using List.all_eq_true.1 hplain c h
  · revert k
    decide

/-- Digits are escapes of this kind. -/
theorem isEscape_of_mem_toDigits {n : Nat} {c : Char} (h : c ∈ Nat.toDigits 16 n) :
    IsEscape c := by
  induction n using Nat.strongRecOn generalizing c with
  | ind n ih =>
    rcases Nat.lt_or_ge n 16 with hn | hn
    · rw [Nat.toDigits_of_lt_base hn, List.mem_singleton] at h
      exact .inr ⟨n, hn, h⟩
    · -- The last digit is behind those of a smaller number.
      rw [Nat.toDigits_of_base_le (by decide) hn, List.mem_append, List.mem_singleton] at h
      rcases h with h | h
      · exact ih (n / 16) (by omega) h
      · exact .inr ⟨n % 16, Nat.mod_lt n (by decide), h⟩

/-- So are those of a padded number. -/
theorem isEscape_of_mem_hexadecimal {width n : Nat} {c : Char} (h : c ∈ hexadecimal width n) :
    IsEscape c := by
  rcases List.mem_append.1 h with h | h
  · exact .inr ⟨0, by decide, List.eq_of_mem_replicate h⟩
  · exact isEscape_of_mem_toDigits h

/-- So are those with a name. -/
theorem isEscape_of_mem_named {name d : Char} (hname : name ∈ ['t', 'n', 'r'])
    (h : d ∈ ['\\', name]) : IsEscape d := by
  simp only [List.mem_cons, List.not_mem_nil, or_false] at h hname
  rcases h with rfl | rfl
  · exact .inl (by decide)
  · rcases hname with rfl | rfl | rfl <;> exact .inl (by decide)

/-- So are those with a number. -/
theorem isEscape_of_mem_numbered {width n : Nat} {mark d : Char} (hmark : mark ∈ ['x', 'u', 'U'])
    (h : d ∈ '\\' :: mark :: hexadecimal width n) : IsEscape d := by
  simp only [List.mem_cons, List.not_mem_nil, or_false] at h hmark
  rcases h with rfl | rfl | h
  · exact .inl (by decide)
  · rcases hmark with rfl | rfl | rfl <;> exact .inl (by decide)
  · exact isEscape_of_mem_hexadecimal h

/-- An escaped form is made of the characters of such forms, but for a character that is a quote or
printable and is shown as it is. -/
theorem mem_escapeChar {q c d : Char} (h : d ∈ escapeChar q c) :
    IsEscape d ∨ d = c ∧ (c = q ∨ isPrintable c = true) := by
  unfold escapeChar at h
  split at h
  · rename_i hself
    simp only [Bool.or_eq_true, beq_iff_eq] at hself
    simp only [List.mem_cons, List.not_mem_nil, or_false] at h
    rcases h with rfl | rfl
    · exact .inl (.inl (by decide))
    · -- What is escaped by itself is the backslash or the quote.
      rcases hself with rfl | rfl
      · exact .inl (.inl (by decide))
      · exact .inr ⟨rfl, .inl rfl⟩
  · split at h
    · exact .inl (isEscape_of_mem_named (by decide) h)
    · split at h
      · exact .inl (isEscape_of_mem_named (by decide) h)
      · split at h
        · exact .inl (isEscape_of_mem_named (by decide) h)
        · split at h
          · rename_i hprintable
            exact .inr ⟨List.mem_singleton.1 h, .inr hprintable⟩
          · split at h
            · exact .inl (isEscape_of_mem_numbered (by decide) h)
            · split at h
              · exact .inl (isEscape_of_mem_numbered (by decide) h)
              · exact .inl (isEscape_of_mem_numbered (by decide) h)

/-- What ends a line is not printable. -/
theorem isPrintable_of_isBreak {c : Char} (h : isBreak c = true) : isPrintable c = false := by
  simp only [isBreak, Bool.or_eq_true, beq_iff_eq] at h
  rcases h with ((((((((rfl | rfl) | rfl) | rfl) | rfl) | rfl) | rfl) | rfl) | rfl) | rfl <;>
    decide +kernel

theorem quoteFor_cases (s : List Char) : quoteFor s = '\'' ∨ quoteFor s = '"' := by
  unfold quoteFor
  split
  · exact .inr rfl
  · exact .inl rfl

/-- No line ends within quoted text. -/
theorem isBreak_of_mem_quoted {s : List Char} {c : Char} (h : c ∈ quoted s) :
    isBreak c = false := by
  have hquote : isBreak (quoteFor s) = false := by
    rcases quoteFor_cases s with hq | hq <;> rw [hq] <;> rfl
  simp only [quoted, List.mem_append, List.mem_cons, List.mem_flatMap, List.not_mem_nil,
    or_false] at h
  -- A break inside would not be printable, so it would be escaped.
  rcases h with (rfl | ⟨d, -, hc⟩) | rfl
  · exact hquote
  · rcases mem_escapeChar hc with hc | ⟨rfl, rfl | hprintable⟩
    · exact hc.isBreak_eq.1
    · exact hquote
    · refine eq_false_of_ne_true fun hbreak => ?_
      rw [isPrintable_of_isBreak hbreak] at hprintable
      cases hprintable
  · exact hquote

/-- A closing brace is shown as it is, and only if it is there. -/
theorem mem_quoted_brace_iff {s : List Char} : '\x7d' ∈ quoted s ↔ '\x7d' ∈ s := by
  have hne : '\x7d' ≠ quoteFor s := by
    rcases quoteFor_cases s with hq | hq <;> rw [hq] <;> decide
  have hself : escapeChar (quoteFor s) '\x7d' = ['\x7d'] := by
    have hquote : ('\x7d' == quoteFor s) = false := by simpa using hne
    simp only [escapeChar, hquote]
    rfl
  simp only [quoted, List.mem_append, List.mem_cons, List.mem_flatMap, List.not_mem_nil, or_false,
    hne, or_false, false_or]
  constructor
  · rintro ⟨c, hc, hmem⟩
    -- No escape is spelled with a brace.
    rcases mem_escapeChar hmem with hescape | ⟨rfl, -⟩
    · exact absurd rfl hescape.isBreak_eq.2
    · exact hc
  · intro h
    exact ⟨'\x7d', h, hself ▸ List.mem_singleton_self _⟩

/-- Quoted text starts with a quote. -/
theorem exists_quoted_eq (s : List Char) :
    ∃ rest, quoted s = quoteFor s :: rest :=
  ⟨_, rfl⟩

end ImportAtlas.Text

import ImportAtlas.Text.Utf8
import Mathlib.Tactic.IntervalCases

/-!
# Reading what was written as UTF-8

Every character is written as one well-formed unit, so reading gives the text back, with nothing
shown as broken.

## Key results

- `Text.Utf8.units_utf8EncodeChar_append`: a character that was written is one unit
- `Text.Utf8.decode?_encode`, `Text.Utf8.decodeLenient_encode`: a text that was written is read
  back
- `Text.Utf8.decodeLenient_append_encode`: so is one that was written behind other bytes
-/

namespace ImportAtlas.Text.Utf8

/-- A byte that follows gives its six bits, if the lead byte allows for it. -/
theorem continuation_ofNat {low high : UInt8} {d : Nat} (hd : d < 64) (hlow : low.toNat ≤ d + 128)
    (hhigh : d + 128 ≤ high.toNat) (following bits : Nat) (bs : List UInt8) :
    continuation (following + 1) low high bits (UInt8.ofNat (d + 128) :: bs) =
      continuation following 0x80 0xBF (64 * bits + d) bs := by
  have hbyte : (UInt8.ofNat (d + 128)).toNat = d + 128 := by
    rw [UInt8.toNat_ofNat']
    omega
  have hsub : (UInt8.ofNat (d + 128)).toNat - 0x80 = d := by
    omega
  -- The byte is in the range, so its six bits are taken over.
  rw [continuation, hsub, if_pos]
  simp only [UInt8.le_iff_toNat_le, hbyte, hlow, hhigh, decide_true, Bool.and_self]

/-- The same, where the byte may be any that follows. -/
theorem continuation_ofNat_of_lt {d : Nat} (hd : d < 64) (following bits : Nat) (bs : List UInt8) :
    continuation (following + 1) 0x80 0xBF bits (UInt8.ofNat (d + 128) :: bs) =
      continuation following 0x80 0xBF (64 * bits + d) bs :=
  continuation_ofNat hd (by simp) (by simp; omega) following bits bs

/-! ## Lead bytes -/

theorem lead?_of_one {v : Nat} (hv : v ≤ 127) :
    lead? (UInt8.ofNat v) = some ⟨0, 0x80, 0xBF, v⟩ := by
  have hbyte : (UInt8.ofNat v).toNat = v := by
    rw [UInt8.toNat_ofNat']
    omega
  -- A single byte stands for itself.
  have hlow : UInt8.ofNat v < 0x80 := by
    rw [UInt8.lt_iff_toNat_lt, hbyte]
    simp
    omega
  rw [lead?, if_pos hlow, hbyte]

/-- Two bytes are never spent on what fits into one. -/
theorem lead?_of_two {k : Nat} (hlow : 2 ≤ k) (hhigh : k < 32) :
    lead? (UInt8.ofNat (k + 192)) = some ⟨1, 0x80, 0xBF, k⟩ := by
  interval_cases k <;> rfl

/-- The second of three bytes leaves out what fits into two, and the surrogates. -/
theorem lead?_of_three {k : Nat} (hk : k < 16) : lead? (UInt8.ofNat (k + 224)) =
    some ⟨2, if k = 0 then 0xA0 else 0x80, if k = 13 then 0x9F else 0xBF, k⟩ := by
  interval_cases k <;> rfl

/-- The second of four bytes leaves out what fits into three, and what is no code point. -/
theorem lead?_of_four {k : Nat} (hk : k < 5) : lead? (UInt8.ofNat (k + 240)) =
    some ⟨3, if k = 0 then 0x90 else 0x80, if k = 4 then 0x8F else 0xBF, k⟩ := by
  interval_cases k <;> rfl

/-! ## Characters and texts -/

/-- A unit of one character, by what its lead byte promises. -/
theorem units_of_lead {b low high : UInt8} {following bits : Nat} {bs rest : List UInt8} {c : Char}
    (hlead : lead? b = some ⟨following, low, high, bits⟩)
    (hread : continuation following low high bits bs = (some c.toNat, rest)) :
    units (b :: bs) = some c :: units rest := by
  have hunit : unit b bs = (some c, rest) := by
    rw [unit, hlead]
    simp only [hread, Option.map_some, Char.ofNat_toNat]
  rw [units, hunit]

/-- Two bytes carry five bits and six. -/
theorem units_of_two {c : Char} {v : Nat} (hc : c.toNat = v) (hlow : 128 ≤ v) (hhigh : v < 2048)
    (bs : List UInt8) :
    units (UInt8.ofNat (v / 64 % 32 + 192) :: UInt8.ofNat (v % 64 + 128) :: bs) =
      some c :: units bs := by
  -- Five bits in the first byte, and six in the other.
  refine units_of_lead (lead?_of_two (k := v / 64 % 32) (by omega) (by omega)) ?_
  refine (continuation_ofNat_of_lt (by omega) _ _ _).trans ?_
  rw [continuation, hc]
  congr 2
  omega

/-- Three bytes carry four bits, six and six. -/
theorem units_of_three {c : Char} {v : Nat} (hc : c.toNat = v) (hlow : 2048 ≤ v)
    (hhigh : v < 65536) (hvalid : v < 0xD800 ∨ 0xDFFF < v) (bs : List UInt8) :
    units (UInt8.ofNat (v / 4096 % 16 + 224) :: UInt8.ofNat (v / 64 % 64 + 128) ::
      UInt8.ofNat (v % 64 + 128) :: bs) = some c :: units bs := by
  refine units_of_lead (lead?_of_three (k := v / 4096 % 16) (by omega)) ?_
  refine (continuation_ofNat (by omega) ?_ ?_ _ _ _).trans ?_
  · -- What two bytes carry is not written in three.
    split
    · show 160 ≤ _
      omega
    · show 128 ≤ _
      omega
  · -- No character is a surrogate.
    split
    · show _ ≤ 159
      omega
    · show _ ≤ 191
      omega
  · refine (continuation_ofNat_of_lt (by omega) _ _ _).trans ?_
    rw [continuation, hc]
    congr 2
    omega

/-- Four bytes carry three bits, six, six and six. -/
theorem units_of_four {c : Char} {v : Nat} (hc : c.toNat = v) (hlow : 65536 ≤ v)
    (hhigh : v < 0x110000) (bs : List UInt8) :
    units (UInt8.ofNat (v / 262144 % 8 + 240) :: UInt8.ofNat (v / 4096 % 64 + 128) ::
      UInt8.ofNat (v / 64 % 64 + 128) :: UInt8.ofNat (v % 64 + 128) :: bs) =
      some c :: units bs := by
  refine units_of_lead (lead?_of_four (k := v / 262144 % 8) (by omega)) ?_
  refine (continuation_ofNat (by omega) ?_ ?_ _ _ _).trans ?_
  · -- What three bytes carry is not written in four.
    split
    · show 144 ≤ _
      omega
    · show 128 ≤ _
      omega
  · -- Code points end at `0x10FFFF`.
    split
    · show _ ≤ 143
      omega
    · show _ ≤ 191
      omega
  · refine (continuation_ofNat_of_lt (by omega) _ _ _).trans ?_
    refine (continuation_ofNat_of_lt (by omega) _ _ _).trans ?_
    rw [continuation, hc]
    congr 2
    omega

/-- A character that was written is read as one unit. -/
theorem units_utf8EncodeChar_append (c : Char) (bs : List UInt8) :
    units (String.utf8EncodeChar c ++ bs) = some c :: units bs := by
  have hvalid : c.toNat < 0xD800 ∨ 0xDFFF < c.toNat ∧ c.toNat < 0x110000 := c.valid
  have hv : c.val.toNat = c.toNat := rfl
  unfold String.utf8EncodeChar
  rw [hv]
  dsimp only
  -- The character takes one unit for each of the four ranges, and no range holds a surrogate.
  split
  · rename_i hone
    exact units_of_lead (lead?_of_one hone) rfl
  · split
    · exact units_of_two rfl (by omega) (by omega) bs
    · split
      · exact units_of_three rfl (by omega) (by omega) (by omega) bs
      · exact units_of_four rfl (by omega) (by omega) bs

/-- What is encoded is read as its characters. -/
theorem units_encode (s : List Char) : units (encode s) = s.map some := by
  induction s with
  | nil => exact units_nil
  | cons c s ih =>
    rw [List.map_cons, ← ih]
    exact units_utf8EncodeChar_append c (encode s)

/-- What was written is read back. -/
theorem decode?_encode (s : List Char) : decode? (encode s) = some s := by
  rw [decode?, units_encode]
  induction s with
  | nil => rfl
  | cons c s ih => rw [List.map_cons, List.mapM_cons, ih]; rfl

/-- So it is decoded again. -/
theorem decodeLenient_encode (s : List Char) : decodeLenient (encode s) = s :=
  decodeLenient_of_decode? (decode?_encode s)

/-! ## Texts behind other bytes -/

/-- The first byte begins a character. -/
def StartsAnew (bs : List UInt8) : Prop :=
  ∀ b ∈ bs.head?, (lead? b).isSome

/-- A byte that begins a character follows no other one, and those that may follow it are among
those that may follow any. -/
theorem bounds_of_lead? {b : UInt8} {l : Lead} (h : lead? b = some l) :
    (b < 0x80 ∨ 0xBF < b) ∧ 0x80 ≤ l.low ∧ l.high ≤ 0xBF := by
  -- From 0xC2 on a byte starts a sequence, and no byte inside one is that high.
  have hbyte (hlow : ¬ b < 0xC2) : 0xBF < b := by
    rw [UInt8.lt_iff_toNat_lt] at hlow ⊢
    simp only [UInt8.reduceToNat] at hlow ⊢
    omega
  unfold lead? at h
  split at h
  · rename_i hone
    cases h
    refine ⟨.inl hone, ?_⟩
    dsimp only
    decide
  · split at h
    · cases h
    · rename_i hmany
      refine ⟨.inr (hbyte hmany), ?_⟩
      repeat' split at h
      all_goals cases h <;> dsimp only <;> decide

/-- What may follow does not follow where a character begins. -/
theorem continuation_append {low high : UInt8} (hlow : 0x80 ≤ low) (hhigh : high ≤ 0xBF)
    {more : List UInt8} (hmore : StartsAnew more) (following bits : Nat) (bs : List UInt8) :
    continuation following low high bits (bs ++ more) =
      ((continuation following low high bits bs).1,
        (continuation following low high bits bs).2 ++ more) := by
  fun_induction continuation following low high bits bs with
  | case1 => rfl
  | case2 following low high bits =>
    -- What is missing is not made up for by what comes next.
    cases more with
    | nil => rfl
    | cons b more =>
      obtain ⟨l, hlead⟩ := Option.isSome_iff_exists.1 (hmore b rfl)
      have hb : (low ≤ b && b ≤ high) = false := by
        have hanew := (bounds_of_lead? hlead).1
        rw [UInt8.lt_iff_toNat_lt, UInt8.lt_iff_toNat_lt] at hanew
        rw [UInt8.le_iff_toNat_le] at hlow hhigh
        rw [Bool.and_eq_false_iff, decide_eq_false_iff_not, decide_eq_false_iff_not,
          UInt8.le_iff_toNat_le, UInt8.le_iff_toNat_le]
        omega
      rw [List.nil_append, continuation, hb]
      rfl
  | case3 following low high bits b bs hb ih =>
    rw [List.cons_append, continuation, if_pos hb]
    exact ih (by decide) (by decide)
  | case4 following low high bits b bs hb =>
    rw [List.cons_append, continuation, if_neg hb]

/-- What starts anew does not change the unit before it. -/
theorem unit_append {more : List UInt8} (hmore : StartsAnew more) (b : UInt8) (bs : List UInt8) :
    unit b (bs ++ more) = ((unit b bs).1, (unit b bs).2 ++ more) := by
  unfold unit
  split
  · rfl
  · rename_i l hlead
    obtain ⟨-, hlow, hhigh⟩ := bounds_of_lead? hlead
    simp only [continuation_append hlow hhigh hmore]

/-- So the units before it are the same. -/
theorem units_append {more : List UInt8} (hmore : StartsAnew more) (bs : List UInt8) :
    units (bs ++ more) = units bs ++ units more := by
  fun_induction units bs with
  | case1 => rfl
  | case2 b bs ih => rw [List.cons_append, units, unit_append hmore, ih, List.cons_append]

/-- An encoded text starts anew, as each of its characters does. -/
theorem startsAnew_encode (s : List Char) : StartsAnew (encode s) := by
  cases s with
  | nil => exact nofun
  | cons c s =>
    have hvalid : c.toNat < 0xD800 ∨ 0xDFFF < c.toNat ∧ c.toNat < 0x110000 := c.valid
    have hv : c.val.toNat = c.toNat := rfl
    unfold StartsAnew encode
    rw [List.flatMap_cons]
    unfold String.utf8EncodeChar
    rw [hv]
    dsimp only
    generalize c.toNat = v at hvalid
    -- The lead byte of each length is one of the bytes that begin a character.
    -- The four lengths are those of the encoding.
    split
    · rename_i hone
      rintro _ ⟨⟩
      rw [lead?_of_one hone]
      rfl
    · split
      · rintro _ ⟨⟩
        rw [lead?_of_two (k := v / 64 % 32) (by omega) (by omega)]
        rfl
      · split
        · rintro _ ⟨⟩
          rw [lead?_of_three (k := v / 4096 % 16) (by omega)]
          rfl
        · rintro _ ⟨⟩
          rw [lead?_of_four (k := v / 262144 % 8) (by omega)]
          rfl

/-- A text that was written behind other bytes is read behind what they give. -/
theorem decodeLenient_append_encode (bs : List UInt8) (s : List Char) :
    decodeLenient (bs ++ encode s) = decodeLenient bs ++ s := by
  rw [decodeLenient, units_append (startsAnew_encode s), List.map_append]
  exact congrArg _ (decodeLenient_encode s)

end ImportAtlas.Text.Utf8

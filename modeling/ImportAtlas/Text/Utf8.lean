/-!
# UTF-8

Bytes are read as UTF-8 in units: one unit is a well-formed character or a longest run of bytes
that begins one and breaks off. Lenient reading shows each broken unit as U+FFFD; strict reading
refuses it. Writing gives every character its one well-formed spelling.
-/

namespace ImportAtlas.Text.Utf8

/-- What a lead byte promises: how many bytes follow, the range of the next one, and the bits that
the lead byte gives to the code point. -/
structure Lead where
  following : Nat
  low : UInt8
  high : UInt8
  bits : Nat

/-- The promise of a lead byte; none if no well-formed character starts with it. The narrowed
ranges leave out overlong spellings, surrogates and code points past U+10FFFF. -/
def lead? (b : UInt8) : Option Lead :=
  if b < 0x80 then some ⟨0, 0x80, 0xBF, b.toNat⟩
  else if b < 0xC2 then none
  else if b < 0xE0 then some ⟨1, 0x80, 0xBF, b.toNat - 0xC0⟩
  else if b == 0xE0 then some ⟨2, 0xA0, 0xBF, 0⟩
  else if b == 0xED then some ⟨2, 0x80, 0x9F, 0x0D⟩
  else if b < 0xF0 then some ⟨2, 0x80, 0xBF, b.toNat - 0xE0⟩
  else if b == 0xF0 then some ⟨3, 0x90, 0xBF, 0⟩
  else if b < 0xF4 then some ⟨3, 0x80, 0xBF, b.toNat - 0xF0⟩
  else if b == 0xF4 then some ⟨3, 0x80, 0x8F, 4⟩
  else none

/-- Reads `following` more bytes, the next one between `low` and `high`. Gives the code point, or
none if the bytes break off, and the bytes that are left. -/
def continuation : Nat → UInt8 → UInt8 → Nat → List UInt8 → Option Nat × List UInt8
  | 0, _, _, bits, bs => (some bits, bs)
  | _ + 1, _, _, _, [] => (none, [])
  | following + 1, low, high, bits, b :: bs =>
    if low ≤ b && b ≤ high then
      -- Only the first byte of the continuation has bounds of its own.
      continuation following 0x80 0xBF (64 * bits + (b.toNat - 0x80)) bs
    else
      (none, b :: bs)

theorem length_continuation_le (following : Nat) (low high : UInt8) (bits : Nat)
    (bs : List UInt8) : (continuation following low high bits bs).2.length ≤ bs.length := by
  fun_induction continuation following low high bits bs with
  | case1 => simp
  | case2 => simp
  | case3 => simp_all; omega
  | case4 => simp

/-- The first unit of `b :: bs`, none if it is broken, and the bytes after it. -/
def unit (b : UInt8) (bs : List UInt8) : Option Char × List UInt8 :=
  match lead? b with
  | none => (none, bs)
  | some l =>
    let r := continuation l.following l.low l.high l.bits bs
    (r.1.map Char.ofNat, r.2)

theorem length_unit_le (b : UInt8) (bs : List UInt8) : (unit b bs).2.length ≤ bs.length := by
  unfold unit
  split
  · simp
  · exact length_continuation_le ..

/-- The units of a byte sequence, none for each broken one. -/
def units : List UInt8 → List (Option Char)
  | [] => []
  | b :: bs => (unit b bs).1 :: units (unit b bs).2
termination_by bs => bs.length
decreasing_by
  have := length_unit_le b bs
  simp only [List.length_cons]
  omega

/-- The text of a byte sequence, each broken unit shown as U+FFFD. -/
def decodeLenient (bs : List UInt8) : List Char :=
  (units bs).map fun u => u.getD '\uFFFD'

/-- The text of a well-formed byte sequence. -/
def decode? (bs : List UInt8) : Option (List Char) :=
  (units bs).mapM id

/-- The text of a byte sequence in which a byte that is part of no character stands for itself: it
becomes the character of its number in a plane that is for private use. -/
def decodeDistinct : List UInt8 → List Char
  | [] => []
  | b :: bs =>
    match (unit b bs).1 with
    | some c => c :: decodeDistinct (unit b bs).2
    | none => Char.ofNat (0x10FF00 + b.toNat) :: decodeDistinct bs
termination_by bs => bs.length
decreasing_by
  · have := length_unit_le b bs
    simp only [List.length_cons]
    omega
  · simp only [List.length_cons]
    omega

/-- The bytes of a text. -/
def encode (s : List Char) : List UInt8 :=
  s.flatMap String.utf8EncodeChar

@[simp] theorem units_nil : units [] = [] := by
  simp [units]

/-- Where strict reading succeeds, lenient reading gives the same text. -/
theorem decodeLenient_of_decode? {bs : List UInt8} {s : List Char} (h : decode? bs = some s) :
    decodeLenient bs = s := by
  unfold decode? at h
  unfold decodeLenient
  -- Both are made from the units, one leniently.
  generalize units bs = us at h
  induction us generalizing s with
  | nil => simp_all
  | cons u us ih =>
    cases u with
    | none => simp at h
    | some c =>
      cases hs : us.mapM id with
      | none => simp [hs] at h
      | some t =>
        simp only [List.mapM_cons, id_eq, hs, Option.bind_eq_bind, Option.bind_some,
          Option.pure_def, Option.some.injEq] at h
        simp [← h, ih hs]

end ImportAtlas.Text.Utf8

import ImportAtlas.Text.Hex
import ImportAtlas.Text.Utf8

/-!
# Addresses of databases

A database is named by a spelled path, or by an address: `file:`, a path, and perhaps a question
mark with options that are separated by ampersands; a number sign ends it. Two hexadecimal digits
behind a percent sign stand for a byte. The options say how the file may be used, by which way of
access, whether it never changes, and from which other file it takes over its permissions; those
that are not known mean nothing. The path `:memory:`, the empty one, and some options name a
database in memory.
-/

namespace ImportAtlas

namespace Store

/-- How the file of a database may be used. -/
inductive AccessMode where
  | readOnly
  /-- It may be written, but it must be there. -/
  | readWrite
  /-- It may be written, and is made if it is missing. -/
  | create
  /-- There is no file. -/
  | memory
  deriving DecidableEq, Repr

namespace AccessMode

/-- The mode with a name. -/
def ofName? : String → Option AccessMode
  | "ro" => some .readOnly
  | "rw" => some .readWrite
  | "rwc" => some .create
  | "memory" => some .memory
  | _ => none

/-- How much a mode allows. -/
def rank : AccessMode → Nat
  | memory => 0
  | readOnly => 1
  | readWrite => 2
  | create => 3

/-- Whether an option may change the mode to `next`: no mode but that of memory may be exceeded. -/
def allows (mode next : AccessMode) : Bool :=
  mode = .memory || next.rank ≤ mode.rank

end AccessMode

/-- What an address says. -/
structure Address where
  /-- The spelled path of the file. -/
  path : String
  mode : AccessMode := .create
  /-- The way of access, if one is named. -/
  system : Option String := none
  /-- All options with their values, in order. -/
  options : List (String × String) := []
  deriving DecidableEq, Repr

namespace Address

/-! ## Bytes -/

/-- The bytes of a part of an address, up to the first that is zero. -/
def bytesOf : List Char → List UInt8
  | '%' :: a :: b :: s =>
    match Text.hexValue? a, Text.hexValue? b with
    -- A byte 0 is dropped, since it would end the path.
    | some a, some b => if 16 * a + b = 0 then [] else UInt8.ofNat (16 * a + b) :: bytesOf s
    | _, _ => Text.Utf8.encode ['%'] ++ bytesOf (a :: b :: s)
  | c :: s => Text.Utf8.encode [c] ++ bytesOf s
  | [] => []

/-- The text that a part of an address stands for. Different bytes give different texts. -/
def decoded (s : List Char) : String :=
  String.ofList (Text.Utf8.decodeDistinct (bytesOf s))

/-! ## Options -/

/-- An option by its name and its value. -/
def optionOf (s : List Char) : String × String :=
  (decoded (s.takeWhile (· != '=')), decoded ((s.dropWhile (· != '=')).drop 1))

/-- The ways of access that use files. -/
def fileSystems : List String :=
  ["unix", "unix-none", "unix-dotfile", "unix-excl"]

/-- The way of access that keeps everything in memory. -/
def memorySystem : String := "memdb"

/-- Takes an option into account; the reason is given if it cannot be granted. -/
def withOption (a : Address) : String × String → Except String Address
  | ("vfs", system) => .ok { a with system := some system }
  | ("cache", kind) =>
    if kind = "shared" || kind = "private" then .ok a else .error ("no such cache mode: " ++ kind)
  | ("mode", name) =>
    match AccessMode.ofName? name with
    | none => .error ("no such access mode: " ++ name)
    | some mode =>
      -- A mode may only take rights away.
      if a.mode.allows mode then .ok { a with mode }
      else .error ("access mode not allowed: " ++ name)
  | _ => .ok a

/-- Checks the way of access. -/
def withSystem (a : Address) : Except String Address :=
  match a.system with
  | none => .ok a
  | some system =>
    if system = memorySystem || fileSystems.contains system then .ok a
    else .error ("no such vfs: " ++ system)

/-- Reads what follows the mark of an address. -/
def ofMarked (s : List Char) : Except String Address := do
  let s := s.takeWhile (· != '#')
  let query := (s.dropWhile (· != '?')).drop 1
  let named := ((query.splitOn '&').filter fun o => o.head?.any (· != '=')).map optionOf
  let a ← named.foldlM withOption { path := decoded (s.takeWhile (· != '?')), options := named }
  a.withSystem

/-- Reads the name of a database. -/
def ofText (s : String) : Except String Address :=
  match s.toList with
  | 'f' :: 'i' :: 'l' :: 'e' :: ':' :: rest => ofMarked rest
  | _ => .ok { path := s }

/-! ## Questions -/

/-- Whether nothing but its name could tell the database from others in memory. -/
def isUnnamed (a : Address) : Bool :=
  a.path = "" || a.path = ":memory:" || a.mode = .memory

/-- Whether the database is in memory. -/
def isInMemory (a : Address) : Bool :=
  a.isUnnamed || a.system = some memorySystem

/-- The value of an option; the first one counts. -/
def option? (a : Address) (name : String) : Option String :=
  (a.options.find? fun o => o.1 == name).map (·.2)

/-- The whole number at the start of a text, in decimal or behind `0x`, or zero if it is past 31
bits. -/
def leadingNumber (s : List Char) : Nat :=
  let valueOf (base most : Nat) (s : List Char) : Nat :=
    let ds := (s.dropWhile (· == '0')).takeWhile (Text.isDigitOf base)
    let n := Text.ofDigits base ds
    -- What does not fit counts as zero.
    if ds.length ≤ most && n ≤ 2147483647 then n else 0
  match s with
  | '0' :: mark :: c :: s =>
    if (mark == 'x' || mark == 'X') && (Text.hexValue? c).isSome then valueOf 16 8 (c :: s)
    else valueOf 10 10 ('0' :: mark :: c :: s)
  | s => valueOf 10 10 s

/-- Whether the value of an option means yes: a number whose last byte is not zero, or a word. -/
def isYes (value : String) : Bool :=
  if value.toList.head?.any Char.isDigit then leadingNumber value.toList % 256 != 0
  else ["on", "yes", "true"].contains value.toLower

/-- Whether the database may not be written to. One that never changes is not, unless it has no name
that could be kept. -/
def isReadOnly (a : Address) : Bool :=
  a.mode = .readOnly || (!a.isUnnamed && (a.option? "immutable").any isYes)

/-- The file whose permissions a new file takes over, if one is named. -/
def modelFile? (a : Address) : Option String :=
  a.option? "modeof"

theorem isReadOnly_of_path (path : String) : isReadOnly { path } = false := by
  simp [isReadOnly, option?]

/-- A name without the mark of an address is a path. -/
theorem ofText_of_not_isPrefixOf {s : String} (h : "file:".toList.isPrefixOf s.toList = false) :
    ofText s = .ok { path := s } := by
  unfold ofText
  split
  · next rest hs => simp [hs, List.isPrefixOf] at h
  · rfl

end Address

end Store

end ImportAtlas

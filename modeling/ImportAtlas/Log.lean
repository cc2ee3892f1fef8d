/-!
# Log records

A record has a level, the channel that it comes from, and a message. All channels lie below the
root channel of the program. A log keeps the records at or above a level.
-/

namespace ImportAtlas

/-- The levels of records, from the least to the most urgent. -/
inductive LogLevel where
  | debug
  | info
  | warning
  | error
  | critical
  deriving DecidableEq, Repr

namespace LogLevel

/-- The number of a level. -/
def number : LogLevel → Nat
  | debug => 10
  | info => 20
  | warning => 30
  | error => 40
  | critical => 50

/-- The name of a level. -/
def name : LogLevel → String
  | debug => "DEBUG"
  | info => "INFO"
  | warning => "WARNING"
  | error => "ERROR"
  | critical => "CRITICAL"

/-- The levels by name. -/
def ofName? (s : String) : Option LogLevel :=
  [debug, info, warning, error, critical].find? fun l => l.name == s

/-- Whether a record of level `l` is kept by a log of level `threshold`. -/
def passes (l threshold : LogLevel) : Bool :=
  threshold.number ≤ l.number

/-- The level of a log, as the user asks for it; quiet wins over verbose. -/
def ofVerbosity (verbose quiet : Bool) : LogLevel :=
  if quiet then error else if verbose then debug else warning

end LogLevel

/-- The channel above all others. -/
def rootChannel : String :=
  "import_diagram"

/-- The full name of a channel. A name outside the root channel is put below it. -/
def channelName (name : String) : String :=
  if name = rootChannel || (rootChannel ++ ".").toList.isPrefixOf name.toList then name
  else rootChannel ++ "." ++ name

/-- A message with its level and channel. -/
structure LogRecord where
  level : LogLevel
  channel : String
  message : String
  deriving DecidableEq, Repr

/-- The line of a record in a log file, behind the time `stamp`. -/
def LogRecord.line (r : LogRecord) (stamp : String) : String :=
  let padding := String.ofList (List.replicate (8 - r.level.name.length) ' ')
  stamp ++ " " ++ r.level.name ++ padding ++ " " ++ r.channel ++ ": " ++ r.message

/-- Every channel lies below the root channel, or is it. -/
theorem root_isPrefixOf_channelName (name : String) :
    rootChannel.toList.isPrefixOf (channelName name).toList = true := by
  unfold channelName
  -- A name below the root stays as it is, any other is put below it.
  split
  · rename_i h
    rcases (Bool.or_eq_true _ _).mp h with h | h
    · simp_all
    · simp only [String.toList_append, List.isPrefixOf_iff_prefix] at h ⊢
      exact (List.prefix_append _ _).trans h
  · simp only [String.toList_append, List.isPrefixOf_iff_prefix, List.append_assoc]
    exact List.prefix_append _ _

end ImportAtlas

/-!
# Arguments

The arguments of a command are options and words. An option has a long name, perhaps a letter, and
takes a value or none. Its value follows it as the next argument, whatever that looks like, or is
written behind it: with `=` behind a long name, and without anything between behind a letter.
Letters of options may share one dash. Two dashes end the options.
-/

namespace ImportAtlas

namespace Console

/-- An option that a command knows. -/
structure OptionForm where
  /-- The long name, with its dashes. -/
  name : String
  letter : Option Char := none
  takesValue : Bool := false
  deriving DecidableEq, Repr

/-- Why a command line cannot be understood. -/
inductive UsageFault where
  | unknownOption (text : String)
  | missingValue (option : String)
  | needlessValue (option : String)
  | unknownCommand (text : String)
  | extraArgument (text : String)
  /-- The project is no folder that exists. -/
  | noFolder (path : String)
  /-- The settings file is no file that exists. -/
  | noFile (path : String)
  deriving DecidableEq, Repr

/-- Arguments that have been read. -/
structure Arguments where
  /-- The options by long name, each with its value if it takes one. -/
  options : List (String × Option String) := []
  words : List String := []
  deriving DecidableEq, Repr

namespace Arguments

/-- Whether an option is given. -/
def has (a : Arguments) (name : String) : Bool :=
  a.options.any fun o => o.1 == name

/-- All values that an option is given. -/
def values (a : Arguments) (name : String) : List String :=
  a.options.filterMap fun o => if o.1 = name then o.2 else none

/-- The value of an option; the last one wins. -/
def value? (a : Arguments) (name : String) : Option String :=
  (a.values name).getLast?

/-- The arguments with options put before them. -/
def withOptions (a : Arguments) (options : List (String × Option String)) : Arguments :=
  { a with options := options ++ a.options }

/-- Whether an argument is to be read as options. A single dash is a word. -/
def isOption (argument : String) : Bool :=
  argument.toList.head? == some '-' && 1 < argument.length

/-- What an argument of options says: the options that are complete, and the one whose value is the
next argument. -/
structure Reading where
  options : List (String × Option String) := []
  pending : Option String := none

/-- Reads option letters that share one dash. -/
def readLetters (forms : List OptionForm) : List Char → Except UsageFault Reading
  | [] => .ok {}
  | c :: rest =>
    -- A letter that takes a value takes all that is left of the argument.
    match forms.find? fun form => form.letter == some c with
    | none => .error (.unknownOption (String.ofList ['-', c]))
    | some form =>
      if form.takesValue then
        if rest = [] then .ok { pending := some form.name }
        else .ok { options := [(form.name, some (String.ofList rest))] }
      else do
        let r ← readLetters forms rest
        return { r with options := (form.name, none) :: r.options }

/-- Reads an option by its long name, with the value that is written behind it. -/
def readLong (form : OptionForm) (value : Option String) : Except UsageFault Reading :=
  match form.takesValue, value with
  | true, none => .ok { pending := some form.name }
  | false, some _ => .error (.needlessValue form.name)
  | _, value => .ok { options := [(form.name, value)] }

/-- Reads an argument of options. -/
def readOption (forms : List OptionForm) (argument : List Char) : Except UsageFault Reading :=
  let name := String.ofList (argument.takeWhile (· != '='))
  let value := match argument.dropWhile (· != '=') with
    | [] => none
    | _ :: value => some (String.ofList value)
  match forms.find? fun form => form.name == name with
  | some form => readLong form value
  | none =>
    -- Letters may be run together behind one dash; a long option stands alone.
    match argument with
    | '-' :: '-' :: _ => .error (.unknownOption name)
    | _ => readLetters forms (argument.drop 1)

/-- Reads arguments while the option `pending` still waits for its value. If options and words are
`mixed`, options may follow words; otherwise the first word ends them. -/
def readFrom (forms : List OptionForm) (mixed : Bool) (pending : Option String) :
    List String → Except UsageFault Arguments
  | [] =>
    match pending with
    | some name => .error (.missingValue name)
    | none => .ok {}
  | argument :: rest =>
    match pending with
    -- An option that waits for its value takes the next argument, even one that looks like an
    -- option.
    | some name => do
      return (← readFrom forms mixed none rest).withOptions [(name, some argument)]
    | none =>
      if argument = "--" then
        .ok { words := rest }
      else if isOption argument then do
        let r ← readOption forms argument.toList
        return (← readFrom forms mixed r.pending rest).withOptions r.options
      else if mixed then do
        let a ← readFrom forms mixed none rest
        return { a with words := argument :: a.words }
      else
        .ok { words := argument :: rest }

/-- Reads the arguments of a command. -/
def read (forms : List OptionForm) (mixed : Bool) (arguments : List String) :
    Except UsageFault Arguments :=
  readFrom forms mixed none arguments

/-- All that stands behind two dashes is words. -/
@[simp] theorem read_dashes (forms : List OptionForm) (mixed : Bool) (words : List String) :
    read forms mixed ("--" :: words) = .ok { words } :=
  rfl

/-- Arguments without options are words. -/
theorem read_words (forms : List OptionForm) (mixed : Bool) {words : List String}
    (h : ∀ w ∈ words, isOption w = false) : read forms mixed words = .ok { words } := by
  unfold read
  induction words with
  | nil => rfl
  | cons w words ih =>
    have hw := h w List.mem_cons_self
    -- The marker that ends the options begins with a dash, so no word is it.
    have hd : w ≠ "--" := fun e => by
      rw [e] at hw
      exact absurd hw (by decide)
    simp only [readFrom, if_neg hd, hw, Bool.false_eq_true, if_false]
    rw [ih fun v hv => h v (List.mem_cons_of_mem _ hv)]
    split <;> rfl

end Arguments

end Console

end ImportAtlas

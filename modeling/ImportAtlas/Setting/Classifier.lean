import ImportAtlas.Import.Kind
import ImportAtlas.Setting.Basic

/-!
# Classifiers from settings

The settings may name libraries and local starts by values of any type. The names of libraries are
put in order, so they must be of one class of values that have an order; each of them is known by
its spelling as a folder, but only a text is also a library by itself. Local starts are tried one
after the other, and one that is no text stops the work when its turn comes.
-/

namespace ImportAtlas

/-- The classes of values that can be put in order among themselves. -/
inductive OrderClass where
  | nothing
  | number
  | text
  | day
  | time
  /-- A time on a day. -/
  | point
  /-- A time on a day whose distance from universal time is known. -/
  | zonedPoint
  deriving DecidableEq, Repr

namespace Value

/-- The class of a value. Lists and tables have none, and cannot be names either. -/
def orderClass? : Value → Option OrderClass
  | none => some .nothing
  | bool _ | int _ | floating _ => some .number
  | text _ => some .text
  | moment (.day _) => some .day
  | moment (.time _) => some .time
  | moment (.both _ _ Option.none) => some .point
  | moment (.both _ _ (some _)) => some .zonedPoint
  | list _ | row _ | table _ => Option.none

/-- Values without those that are the same name as one before them. -/
def distinctNames (vs : List Value) : List Value :=
  vs.foldl (fun kept v => if kept.any v.isSameName then kept else kept ++ [v]) []

/-- The texts among values. -/
def textsAmong (vs : List Value) : List String :=
  vs.filterMap fun
    | text s => some s
    | _ => Option.none

end Value

namespace Settings

/-- What tells local and library locators apart. -/
def classifier (s : Settings) : Act Classifier := do
  let classes ← s.libraries.mapM fun v =>
    match v.orderClass? with
    | some c => pure c
    | none => throw .illTyped
  -- Values of two classes cannot be put in order.
  if 1 < classes.eraseDups.length then
    throw .illTyped
  return {
    libraries := Value.textsAmong s.libraries
    localStarts := (Value.leadingTexts s.localStarts).1
    folders := ← (Value.distinctNames s.libraries).mapM Act.spell }

/-- The kind of a locator, as the classifier of the settings tells it. A local start that is no text
is met if none before it fits. -/
def kindOf (s : Settings) (c : Classifier) (locator : String) : Act (Option ImportKind) := do
  if (Value.leadingTexts s.localStarts).2.isSome && !c.isLocal locator then
    throw .illTyped
  return c.classify locator

end Settings

end ImportAtlas

import CatalogFilter.Settings.Value
import CatalogFilter.Text.Numeral

/-!
# Places among settings

The key of a setting may lead into groups and lists: `logging.level` is the value named `level` in the
group `logging`, and `columns[0]` the first item of the list `columns`.  A key that cannot be read in this
way is the name of a single value.
-/

namespace CatalogFilter.Settings

open Text

/-! ## §1 Reading places -/

/-- A step into a value. -/
inductive Step where
  /-- To a value of a group. -/
  | name (name : String)
  /-- To an item of a list; a negative number counts from the end. -/
  | item (index : Int)
  deriving DecidableEq, Repr

/-- Steps from all settings to one value. -/
abbrev Place := List Step

namespace Place

def isNameChar (c : Char) : Bool := c.isAlphanum || c == '_' || c == '-' || c == ' '

def skipBlanks (cs : List Char) : List Char := cs.dropWhile fun c => c == ' ' || c == '\t'

/-- The number of an item, read after its opening bracket, and the text after the closing one. -/
def readIndex (cs : List Char) : Option (Int × List Char) :=
  let (negative, cs) :=
    match skipBlanks cs with
    | '-' :: cs => (true, cs)
    | cs => (false, cs)
  let digits := leadingDigits cs
  let index : Int := if negative then -(digitsValue digits : Int) else digitsValue digits
  match skipBlanks (afterDigits cs) with
  | ']' :: rest => if digits.isEmpty || !fitsWord index then none else some (index, rest)
  | _ => none

/-- The steps that a text is, of which there may be so many. -/
def readSteps : Nat → List Char → Option Place
  | _, [] => some []
  | bound + 1, '.' :: cs =>
    let name := cs.takeWhile isNameChar
    if name.isEmpty then none
    else (readSteps bound (cs.dropWhile isNameChar)).map (.name (String.ofList name) :: ·)
  | bound + 1, '[' :: cs => do
    let (index, rest) ← readIndex cs
    let steps ← readSteps bound rest
    pure (.item index :: steps)
  | _, _ => none

def ofKey (key : String) : Place :=
  let cs := key.toList
  let name := cs.takeWhile isNameChar
  match readSteps cs.length (cs.dropWhile isNameChar) with
  | some steps => if name.isEmpty then [.name key] else .name (String.ofList name) :: steps
  | none => [.name key]

end Place

/-! ## §2 Writing to places -/

namespace Value

def indexFrom (length : Nat) (index : Int) : Nat :=
  if index < 0 then length - index.natAbs else index.toNat

/-- The items with another one in a place, before which nothing may have stood. -/
def setItem (items : List Value) (index : Nat) (value : Value) : List Value :=
  (items ++ List.replicate (index + 1 - items.length) nothing).set index value

/-- A value laid over what stands at a place.  The place is made if it is missing, and whatever stands on
the way to it and is neither a group nor a list as the step asks for gives way. -/
def put (value : Value) : Place → Option Value → Value
  | [], below => laidOver below value
  | .name name :: place, below =>
    let entries := (below.map entries).getD []
    let key := name.toLower
    .group (Entries.set entries key (put value place (entries.lookup key)))
  | .item index :: place, below =>
    let items := (below.map items).getD []
    let index := indexFrom items.length index
    .list (setItem items index (put value place items[index]?))

/-- Settings with further ones laid over them, each under its key. -/
def putAll (below : Value) (settings : List (String × Value)) : Value :=
  settings.foldl (fun below (key, value) => put value (Place.ofKey key) (some below)) below

end Value
end CatalogFilter.Settings

import Swat4Stats.Library.Text

/-!
# Search vectors

A text search vector is known by the weighted texts that it is built from. What the database makes
of a text, and of the regular expressions that normalise it, is up to the database.
-/

namespace Swat4Stats

set_option autoImplicit false

inductive SearchWeight where
  | a | b | c
  deriving DecidableEq, Repr

/-- The replacements by regular expressions, under the names they have in the source. -/
inductive NormRule where
  | camelcase | digits | alnum | whitespace
  deriving DecidableEq, Repr

/-- A text after the given replacements, the first one applied first. -/
structure SearchText where
  rules : List NormRule
  text : Text
  deriving DecidableEq, Repr

/-- One `SearchVector(...)`: its expressions are concatenated. -/
structure SearchTerm where
  weight : SearchWeight
  texts : List SearchText
  deriving DecidableEq, Repr

abbrev SearchVector := List SearchTerm

/-- Null counts as the empty text. -/
def SearchTerm.ofColumn (weight : SearchWeight) (column : Option Text) : SearchTerm :=
  ⟨weight, [⟨[], column.getD []⟩]⟩

def normalizedNamesRules : List (List NormRule) :=
  [[.camelcase], [.digits], [.alnum, .whitespace],
    [.camelcase, .digits, .alnum, .whitespace]]

def normalizedNamesSearchVector (names : Option Text) (weight : SearchWeight) : SearchTerm :=
  ⟨weight, normalizedNamesRules.map fun rules => ⟨rules, names.getD []⟩⟩

/-- `ArrayToString(names, " ")` -/
def arrayToString (names : Option (List Text)) : Option Text :=
  names.map fun names => List.intercalate [' '] names

def profileSearchVector (name : Option Text) (names : Option (List Text)) : SearchVector :=
  [SearchTerm.ofColumn .a name, SearchTerm.ofColumn .b (arrayToString names),
    normalizedNamesSearchVector name .c, normalizedNamesSearchVector (arrayToString names) .c]

def serverSearchVector (hostnameClean : Option Text) : SearchVector :=
  [SearchTerm.ofColumn .a hostnameClean, normalizedNamesSearchVector hostnameClean .b]

end Swat4Stats

import SmellCheck.Text.Glob
/-!
# Method filters

A filter chooses methods by patterns for their full names. A pattern for
a namespace ends in `.**`. A pattern without a type part may also match
the name of the method alone.
-/

namespace SmellCheck

/-- What follows the first double colon of a full name. -/
def bareName? (fullName : String) : Option String :=
  (Text.cut? [':', ':'] fullName.toList).map fun (_, name) => String.ofList name

/-- The pattern matches a full name. -/
def patternMatches (pattern fullName : String) : Bool :=
  match Text.after? ".**".toList.reverse pattern.toList.reverse with
  | some start => Text.startsWith fullName.toList (start.reverse ++ ['.'])
  | none =>
    Glob.textAccepts pattern fullName ||
      (!Text.contains pattern.toList [':', ':'] &&
        (bareName? fullName).any (Glob.textAccepts pattern))

/-- Which methods to take. -/
structure MethodFilter where
  /-- If there are any, one of these has to match. -/
  included : List String := []
  /-- None of these may match. -/
  excluded : List String := []
  deriving DecidableEq

/-- The method with the given full name is taken. -/
def MethodFilter.accepts (f : MethodFilter) (fullName : String) : Bool :=
  (f.included.isEmpty || f.included.any (patternMatches · fullName)) &&
    !f.excluded.any (patternMatches · fullName)

end SmellCheck

import Lexis.Value

/-!
# Contexts

A context gives values to names.  A name that it does not define may still be a standard member, one
that every record answers to: `Context.render` looks at the context's own names first, at the
standard members second, and shows nothing for any other name.
-/

namespace Lexis

/-- Names and their values; of two entries of one name the first counts. -/
abbrev Context := List (Text × Value)

namespace Context

/-- The value that a context itself gives to a name. -/
def own? (context : Context) (name : Text) : Option Value :=
  (context.find? (·.1 == name)).map (·.2)

/-- The standard members that are procedures and are shown under their own name. -/
def standardProcedures : List String :=
  ["toString", "toLocaleString", "valueOf", "hasOwnProperty", "isPrototypeOf",
    "propertyIsEnumerable", "__defineGetter__", "__defineSetter__", "__lookupGetter__",
    "__lookupSetter__"]

/-- What is shown for a procedure. -/
def procedureText (name : Text) : Text :=
  Text.ofString "function " ++ name ++ Text.ofString "() \x7b [native code] \x7d"

/-- What is shown for a standard member. -/
def standard? (name : Text) : Option Text :=
  if standardProcedures.any (Text.ofString · == name) then some (procedureText name)
  else if name = Text.ofString "constructor" then
    some (procedureText (Text.ofString "Object"))
  else if name = Text.ofString "__proto__" then some Value.recordTag
  else none

/-- **What is shown for a name.** -/
def render (context : Context) (name : Text) : Text :=
  match context.own? name with
  | some v => v.render
  | none => (standard? name).getD []

end Context

end Lexis

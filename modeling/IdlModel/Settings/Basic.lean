import IdlModel.Json.Basic

/-!
# Settings

What a run can be told apart from its input.  Every setting has a default.

As JSON the settings are an object with the keys `error_limit`, `log_warnings`,
`primitive_package` and `default_package`.  A missing key takes its default and
an unknown one is refused.
-/

namespace IdlModel

open Json

/-- The settings of a run. -/
structure Settings where
  /-- How many errors may be reported before a run gives up. -/
  errorLimit : Nat := 10
  /-- Whether warnings are shown. -/
  logWarnings : Bool := true
  /-- The package of promises of primitive types. -/
  primitivePackage : String := "builtin"
  /-- The package of every entity, in place of one package for each file. -/
  defaultPackage : Option String := none
deriving Repr, DecidableEq

namespace Settings

/-- The keys of the settings. -/
def keys : List String := ["error_limit", "log_warnings", "primitive_package", "default_package"]

/-- The object of the settings. -/
def toJson (s : Settings) : Json :=
  .obj [("error_limit", .nat s.errorLimit), ("log_warnings", .bool s.logWarnings),
    ("primitive_package", .str s.primitivePackage), ("default_package", ofText? s.defaultPackage)]

/-- Read the settings from the members of an object. -/
def ofRecord? (ms : Record) : Option Settings :=
  if ms.all fun (key, _) => keys.contains key then do
    return {
      errorLimit := ← ms.withDefault "error_limit" 10 nat?
      logWarnings := ← ms.withDefault "log_warnings" true bool?
      primitivePackage := ← ms.withDefault "primitive_package" "builtin" str?
      defaultPackage := ← ms.optional "default_package" str? }
  else none

/-- Read the object of the settings, or an array of the first ones. -/
def ofJson? (j : Json) : Option Settings := (j.record? keys).bind ofRecord?

end Settings

end IdlModel

import LogGuard.Call.Method

/-!
# The import to insert

The import names all safe functions and reaches the safety module by a specifier that climbs one
directory for each level between the importing file and the root.
-/

namespace LogGuard.Import

/-- The specifier of the root-relative module `module` in a file `depth` directories below the root.
-/
def specifier (depth : Nat) (module : Text) : Text :=
  if depth = 0 then "./".toList ++ module
  else (List.replicate depth "../".toList).flatten ++ module

/-- The names of all safe functions, separated by commas. -/
def safeNames : Text :=
  ", ".toList.intercalate (Call.Method.all.map Call.Method.safeName)

/-- The declaration that imports all safe functions from `specifier`. -/
def declarationText (specifier : Text) : Text :=
  "import \x7b ".toList ++ safeNames ++ " \x7d from '".toList ++ specifier ++ "';".toList

end LogGuard.Import

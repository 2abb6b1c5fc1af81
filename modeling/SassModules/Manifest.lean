import SassModules.Json.Reader
import SassModules.Session

/-!
# Package manifests

A package may name its stylesheet in `package.json`, in the field `sass` or else `style`. A manifest that cannot be read,
or that is no JSON object, names nothing; but a whole number with too many digits in it is a fault.
-/

namespace SassModules.Manifest

/-- The file name of a manifest. -/
def fileName : Text := "package.json".toList

/-- Is the value a string that is not empty? -/
def isNonEmptyString : Json → Bool
  | .string t => !t.isEmpty
  | .unpaired _ => true
  | _ => false

/-- A field that is a string and not empty. -/
def nonEmptyField? (manifest : Json) (name : String) : Option Json :=
  (manifest.field? name.toList).filter isNonEmptyString

/-- What a manifest names as its stylesheet; a string that is no text names no file. -/
def entry? (manifest : Json) : Option Json := nonEmptyField? manifest "sass" <|> nonEmptyField? manifest "style"

/-- Read the JSON object in a file. -/
def read (p : Path) : Query (Option Json) := do
  let content ← tryCatch (some <$> Session.fileText p) fun
    | .read cause => if cause.isUnreadable then pure none else throw (.read cause)
    | fault => throw fault
  match content.elim (.error .malformed) Json.read with
  | .ok (.object fields) => return some (.object fields)
  | .ok _ =>
    Session.report (.manifestNotObject p)
    return none
  | .error .malformed =>
    Session.report (.manifestFailed p)
    return none
  | .error (.tooManyDigits count) => throw (.longNumber (some count))

end SassModules.Manifest

import SassModules.Path
import SassModules.Text.Number
import SassModules.Text.Quoted
import SassModules.Text.Utf8

/-!
# Faults

Why an operation gives no answer, as causes; `message` holds the wording of each.
-/

namespace SassModules

/-- Why a path cannot be read, listed or written. -/
inductive ReadFault where
  | missing (path : Path)
  | notDirectory (path : Path)
  | isDirectory (path : Path)
  | denied (path : Path)
  | tooLong (path : Path)
  | nullCharacter
  | undecodable (bytes : Utf8.Malformed)
deriving DecidableEq

/-- Why settings cannot be understood. -/
inductive SettingsFault where
  | notMapping
  | sectionNotMapping
  | badTrace (shown : Text)
  | badIncludePaths
  | unreadable (file : Path) (cause : ReadFault)
  | malformed (file : Path)
deriving DecidableEq

/-- Why an operation gives no answer. A number is too long to be read, with so many digits, or to be written; `raised` is
what the reader of settings files raises on a text that it does not find malformed. -/
inductive Fault where
  | read (cause : ReadFault)
  | settings (cause : SettingsFault)
  | homeUnknown
  | longNumber (digits : Option Nat)
  | raised (message : Text)
  | tooDeep
deriving DecidableEq

namespace ReadFault

/-- A path in quotes. -/
def quotedPath (p : Path) : String := Text.str (Text.quoted p.text)

/-- The wording of a read fault. -/
def message : ReadFault → String
  | .missing p => s!"[Errno 2] No such file or directory: {quotedPath p}"
  | .notDirectory p => s!"[Errno 20] Not a directory: {quotedPath p}"
  | .isDirectory p => s!"[Errno 21] Is a directory: {quotedPath p}"
  | .denied p => s!"[Errno 13] Permission denied: {quotedPath p}"
  | .tooLong p => s!"[Errno 36] File name too long: {quotedPath p}"
  | .nullCharacter => "embedded null byte"
  | .undecodable m => m.message

/-- Did the disk refuse the path? A path that no disk can hold, and bytes that are no text, are other faults. -/
def isRefusal : ReadFault → Bool
  | .nullCharacter => false
  | .undecodable _ => false
  | _ => true

/-- Is the path refused, as against leading to nothing? -/
def isForbidding : ReadFault → Bool
  | .denied _ => true
  | .tooLong _ => true
  | _ => false

/-- Is the file at fault, not the path? -/
def isUnreadable : ReadFault → Bool
  | .nullCharacter => false
  | _ => true

end ReadFault

/-- The wording of a settings fault. -/
def SettingsFault.message : SettingsFault → String
  | .notMapping => "Settings file must contain a mapping"
  | .sectionNotMapping => "'sassPrefixResolver' must be a mapping"
  | .badTrace shown => s!"Invalid trace level '{Text.str shown}' (expected one of: off, messages, verbose)"
  | .badIncludePaths => "'include_paths' must be a list of strings"
  | .unreadable file cause => s!"Cannot read settings file '{file.str}': {cause.message}"
  | .malformed file => s!"Invalid YAML in '{file.str}'"

/-- The wording of a fault of a number that is too long. -/
def longNumberMessage (digits : Option Nat) : String :=
  let found := match digits with
    | some n => s!": value has {n} digits"
    | none => ""
  s!"Exceeds the limit ({Text.maxDigits} digits) for integer string conversion{found}; " ++
    "use sys.set_int_max_str_digits() to increase the limit"

/-- The wording of a fault. -/
def Fault.message : Fault → String
  | .read cause => cause.message
  | .settings cause => cause.message
  | .homeUnknown => "Could not determine home directory."
  | .longNumber digits => longNumberMessage digits
  | .raised message => Text.str message
  | .tooDeep => "maximum recursion depth exceeded"

end SassModules

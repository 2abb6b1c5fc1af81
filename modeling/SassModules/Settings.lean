import SassModules.Data
import SassModules.Event
import SassModules.Disk
import SassModules.Text.Lower

/-!
# Settings

A workspace may hold a settings file. It says how much of the work is reported and where else modules are looked for.
Editors keep their settings in a section with names of its own; the plain names win over those of the section. The reader
of the format of settings files is a parameter: it gives data, or finds a text malformed, or raises something else.
-/

namespace SassModules

/-- What a workspace can choose: how much is reported, and the further directories to look modules up in. -/
structure Settings where
  trace : TraceLevel
  includePaths : List Text
deriving DecidableEq

namespace Settings

/-- The settings of a workspace that chooses nothing. -/
def default : Settings := ⟨.off, []⟩

/-! ## Understanding data -/

/-- The trace level of a value. An unquoted `off` is the truth value, so false and null switch tracing off. A value with a
number that cannot be written cannot be complained about either. -/
def traceOf : Data → Except Fault TraceLevel
  | .null => .ok .off
  | .bool false => .ok .off
  | d =>
    if d.hasLongNumber then .error (.longNumber none)
    else match TraceLevel.ofText? (Text.lower d.shown) with
      | some t => .ok t
      | none => .error (.settings (.badTrace d.shown))

/-- The texts of a list that holds nothing else. -/
def textsOf? : List Data → Option (List Text)
  | [] => some []
  | .text t :: ds => (textsOf? ds).map (t :: ·)
  | _ :: _ => none

/-- The include paths of a value; a single one may stand without a list. -/
def includePathsOf : Data → Except Fault (List Text)
  | .null => .ok []
  | .text t => .ok [t]
  | .list items => match textsOf? items with
    | some ts => .ok ts
    | none => .error (.settings .badIncludePaths)
  | _ => .error (.settings .badIncludePaths)

/-- The name of the section for editors. -/
def sectionName : String := "sassPrefixResolver"

/-- The fields of the section for editors. -/
def sectionFields (fields : List (Data × Data)) : Except Fault (List (Data × Data)) :=
  match Data.field? sectionName fields with
  | none => .ok []
  | some .null => .ok []
  | some (.map fs) => .ok fs
  | some _ => .error (.settings .sectionNotMapping)

/-- The settings that data stands for. -/
def ofData : Data → Except Fault Settings
  | .null => .ok default
  | .map fields => do
    let inSection ← sectionFields fields
    let trace := (Data.field? "trace" fields).or (Data.field? "trace.server" inSection)
    let includePaths := (Data.field? "include_paths" fields).or (Data.field? "includePaths" inSection)
    .ok ⟨← traceOf (trace.getD .null), ← includePathsOf (includePaths.getD .null)⟩
  | _ => .error (.settings .notMapping)

/-! ## Settings files -/

/-- The names that a settings file may have, the preferred one first. -/
def fileNames : List String := [".sassref.yaml", ".sassref.yml"]

/-- The first of the paths at which there is a file. -/
def firstFile (d : Disk) : List Path → Except ReadFault (Option Path)
  | [] => .ok none
  | p :: ps => do if ← d.askFile p then return some p else firstFile d ps

/-- The settings file of a workspace. -/
def find? (d : Disk) (root : Path) : Except ReadFault (Option Path) :=
  firstFile d (fileNames.map fun n => root.child n.toList)

/-- The settings of a file. -/
def ofFile (reader : Data.Reader) (d : Disk) (file : Path) : Except Fault Settings :=
  match d.readText file with
  | .error cause => .error (if cause.isRefusal then .settings (.unreadable file cause) else .read cause)
  | .ok content =>
    match reader content with
    | .error .malformed => .error (.settings (.malformed file))
    | .error (.raised message) => .error (.raised message)
    | .ok data => ofData data

/-- The file that settings are loaded from: the given one, or else the one that the workspace has. -/
def source? (d : Disk) (given root : Option Path) : Except ReadFault (Option Path) :=
  match given, root with
  | some file, _ => .ok (some file)
  | none, some root => find? d root
  | none, none => .ok none

/-- The settings of the given file, or else of the file that the workspace has. -/
def load (reader : Data.Reader) (d : Disk) (given root : Option Path) : Except Fault Settings :=
  match source? d given root with
  | .error cause => .error (.read cause)
  | .ok (some file) => ofFile reader d file
  | .ok none => .ok default

/-! ## Include paths -/

/-- The path with a leading `~`, or `~` and the name of a user, replaced by the home directory. -/
def expandHome (d : Disk) (p : Path) : Except Fault Path :=
  match p.isAbsolute, p.names with
  | false, ('~' :: user) :: ns => match d.home? user with
    | some home => .ok (home.join ⟨.relative, ns⟩)
    | none => .error .homeUnknown
  | _, _ => .ok p

/-- The directories of the include paths; a relative one is seen from the workspace. -/
def directories (s : Settings) (d : Disk) (root : Path) : Except Fault (List Path) :=
  s.includePaths.mapM fun t => (expandHome d (Path.ofText t)).map root.join

end Settings

end SassModules

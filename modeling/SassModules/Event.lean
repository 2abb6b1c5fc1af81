import SassModules.Cursor.Context
import SassModules.Cursor.Document

/-!
# Events

What the library reports while it works. Each event has a level and a wording; `TraceLevel` says which levels are shown.
-/

namespace SassModules

/-- The severity of an event. -/
inductive Level where
  | debug
  | info
  | warning
  | error
  | critical
deriving DecidableEq

namespace Level

/-- The rank of a level; an event is shown when its rank reaches the threshold. -/
def rank : Level → Nat
  | .debug => 10
  | .info => 20
  | .warning => 30
  | .error => 40
  | .critical => 50

/-- How a level is spelt. -/
def text : Level → String
  | .debug => "DEBUG"
  | .info => "INFO"
  | .warning => "WARNING"
  | .error => "ERROR"
  | .critical => "CRITICAL"

/-- A line of the log. -/
def line (l : Level) (message : String) : String := s!"[{l.text}] {message}"

end Level

/-- How much of the work is reported. -/
inductive TraceLevel where
  | off
  | messages
  | verbose
deriving DecidableEq

namespace TraceLevel

/-- The least level that is shown; errors always are. -/
def threshold : TraceLevel → Level
  | .off => .error
  | .messages => .info
  | .verbose => .debug

/-- How a trace level is spelt. -/
def text : TraceLevel → String
  | .off => "off"
  | .messages => "messages"
  | .verbose => "verbose"

/-- The trace level of a spelling. -/
def ofText? (t : Text) : Option TraceLevel := [off, messages, verbose].find? (·.text.toList == t)

/-- Does the trace level show a level? -/
def isShown (t : TraceLevel) (l : Level) : Bool := t.threshold.rank ≤ l.rank

end TraceLevel

/-- What the library reports. -/
inductive Event where
  | useFound (path aliasName : Text) (line : Nat)
  | forwardFound (path : Text) (pre : Option Text) (line : Nat)
  | unbalanced (line : Nat)
  | mixinFound (name : Text) (file : Path) (line column : Nat)
  | mixinAbsent (name : Text) (file : Path)
  | variableFound (name : Text) (file : Path) (line column : Nat)
  | variableAbsent (name : Text) (file : Path)
  | cacheMiss (file : Path)
  | cacheHit (file : Path)
  | cacheSet (file : Path)
  | cacheInvalidated (file : Path)
  | cacheCleared
  | readFailed (file : Path)
  | manifestFailed (file : Path)
  | manifestNotObject (file : Path)
  | resolving (modulePath : Text) (file : Path)
  | builtinSkipped
  | relativeFailed (modulePath : Text)
  | packageFailed (modulePath : Text)
  | resolvedTo (file : Path)
  | resolvedByManifest (file : Path)
  | resolvedByInclude (file : Path)
  | cycle (file : Path)
  | listingCycle (file : Path)
  | prefixMatched (member origin pre : Text)
  | forwardFailed (modulePath : Text)
  | forwardResolved (file : Path)
  | aliasUnbound (aliasName : Text)
  | aliasBound (path aliasName : Text)
  | aliasBuiltin (aliasName : Text)
  | aliasFailed (modulePath : Text)
  | aliasResolved (file : Path)
  | memberForwarded (file : Path) (origin : Text)
  | memberDirect (file : Path)
  | definitionAsked (file : Path) (position : Position)
  | noWorkspace
  | argumentAsked (argument : Argument)
  | noToken
  | referenceAsked (reference : Reference)
  | moduleOpened (file : Path)
  | definitionAbsent (member : Text)
  | definitionFound (location : Location)
  | callUnknown (mixin : Text)
  | noParameters (mixin : Text)
  | parameterAbsent (name : Text) (available : List Text)
  | argumentFound (location : Location)
  | definitionFailed
  | completionAsked (position : Position)
  | noContext (before : Text)
  | contextFound (context : Context)
  | completionOffered (count : Nat) (aliasName : Text)
  | completionFailed
  | moduleSkipped (file : Path)
  | graphBuilt (summary : Text)

namespace Event

/-- The level of an event. -/
def level : Event → Level
  | .cacheCleared => .info
  | .readFailed _ => .error
  | .noWorkspace => .error
  | .argumentAsked _ => .info
  | .referenceAsked _ => .info
  | .moduleOpened _ => .info
  | .definitionFound _ => .info
  | .argumentFound _ => .info
  | .definitionFailed => .error
  | .completionFailed => .error
  | .moduleSkipped _ => .warning
  | .graphBuilt _ => .info
  | _ => .debug

/-- A location as `file:line:column`. -/
def place (l : Location) : String := s!"{l.file.str}:{l.line}:{l.column}"

/-- A context with the names of its parts. -/
def shown : Context → String
  | .mixinArgument aliasName mixin =>
    let bound := match aliasName with
      | some a => s!"'{Text.str a}'"
      | none => "None"
    s!"MixinArgumentContext(alias={bound}, mixin_name='{Text.str mixin}')"
  | .memberAccess aliasName filter typed =>
    let kind := match filter with
      | .mixin => "MIXIN: 'mixin'"
      | .var => "VARIABLE: 'variable'"
      | .both => "BOTH: 'both'"
    s!"MemberAccessContext(alias='{Text.str aliasName}', member_filter=<MemberFilter.{kind}>, typed_length={typed})"
  | .scopeVariable typed => s!"ScopeVariableContext(typed_length={typed})"

open Text in
/-- The wording of an event. -/
def message : Event → String
  | .useFound path aliasName line => s!"Found @use: {str path} as {str aliasName} (line {line})"
  | .forwardFound path none line => s!"Found @forward: {str path} (line {line})"
  | .forwardFound path (some pre) line => s!"Found @forward: {str path} as {str pre}* (line {line})"
  | .unbalanced line => s!"Unbalanced parameter list at line {line}"
  | .mixinFound name file line column => s!"Found mixin definition: {str name} at {file.str}:{line}:{column}"
  | .mixinAbsent name file => s!"Mixin \"{str name}\" not found in {file.str}"
  | .variableFound name file line column => s!"Found variable definition: {str name} at {file.str}:{line}:{column}"
  | .variableAbsent name file => s!"Variable \"{str name}\" not found in {file.str}"
  | .cacheMiss file => s!"Cache miss: {file.str}"
  | .cacheHit file => s!"Cache hit: {file.str}"
  | .cacheSet file => s!"Cache set: {file.str}"
  | .cacheInvalidated file => s!"Cache invalidated: {file.str}"
  | .cacheCleared => "Cache cleared"
  | .readFailed file => s!"Failed to read file: {file.str}"
  | .manifestFailed file => s!"Failed to read package manifest: {file.str}"
  | .manifestNotObject file => s!"Package manifest is not an object: {file.str}"
  | .resolving modulePath file => s!"Resolving module: {str modulePath} from {file.str}"
  | .builtinSkipped => "Built-in module, skipping"
  | .relativeFailed modulePath => s!"Failed to resolve relative path: {str modulePath}"
  | .packageFailed modulePath => s!"Failed to resolve package: {str modulePath}"
  | .resolvedTo file => s!"Resolved to: {file.str}"
  | .resolvedByManifest file => s!"Resolved via package.json: {file.str}"
  | .resolvedByInclude file => s!"Resolved via include path: {file.str}"
  | .cycle file => s!"Circular reference detected: {file.str}"
  | .listingCycle file => s!"Circular reference detected in find_all_forwarded_members: {file.str}"
  | .prefixMatched member origin pre =>
    s!"Prefix match: \"{str member}\" -> \"{str origin}\" (prefix: \"{str pre}\")"
  | .forwardFailed modulePath => s!"Failed to resolve forward path: {str modulePath}"
  | .forwardResolved file => s!"Resolved forward to: {file.str}"
  | .aliasUnbound aliasName => s!"No @use statement found for namespace: {str aliasName}"
  | .aliasBound path aliasName => s!"Found @use: {str path} as {str aliasName}"
  | .aliasBuiltin aliasName => s!"Namespace {str aliasName} is a built-in module"
  | .aliasFailed modulePath => s!"Failed to resolve module: {str modulePath}"
  | .aliasResolved file => s!"Resolved module to: {file.str}"
  | .memberForwarded file origin => s!"Forwarded to: {file.str}, original name: {str origin}"
  | .memberDirect file => s!"Direct definition in: {file.str}"
  | .definitionAsked file p => s!"find_definition called at {file.str}:{p.line}:{p.character}"
  | .noWorkspace => "No workspace folder found"
  | .argumentAsked a => s!"Resolving argument: {str a.name} in {str a.aliasName}.{str a.mixin}"
  | .noToken => "No valid token found at cursor position"
  | .referenceAsked r => s!"Resolving: {str r.text} (namespace: {str r.aliasName}, member: {str r.member})"
  | .moduleOpened file => s!"Jumping to module file: {file.str}"
  | .definitionAbsent member => s!"Definition not found: {str member}"
  | .definitionFound l => s!"Definition found: {place l}"
  | .callUnknown mixin => s!"Mixin definition not found: {str mixin}"
  | .noParameters mixin => s!"Mixin has no parameters: {str mixin}"
  | .parameterAbsent name available =>
    let names := str (Text.join ", " available)
    s!"Parameter not found: {str name} (available: {names})"
  | .argumentFound l => s!"Argument definition found: {place l}"
  | .definitionFailed => "Error in find_definition"
  | .completionAsked p => s!"provide_completions called at {p.line}:{p.character}"
  | .noContext before => s!"No completion context for: \"{str before}\""
  | .contextFound c => s!"Completion context: {shown c}"
  | .completionOffered count aliasName =>
    s!"Returning {count} completion items for namespace: {str aliasName}"
  | .completionFailed => "Error in provide_completions"
  | .moduleSkipped file => s!"Skipping unreadable module: {file.str}"
  | .graphBuilt summary => s!"Built {str summary}"

/-- The log lines of the events that a trace level shows. -/
def logLines (t : TraceLevel) (es : List Event) : List String :=
  (es.filter fun e => t.isShown e.level).map fun e => e.level.line e.message

end Event

end SassModules

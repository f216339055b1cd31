import AttributeScope.Text.Quoted

/-!
# Log events

What happens on the way to an answer, as data.  The functions that compute answers do not log;
beside each of them stands a function that lists its events in order.
-/

namespace AttributeScope

/-- How severe an event is. -/
inductive Level where
  | error
  | warn
  | info
  | debug
  | trace
deriving DecidableEq, Repr

namespace Level

/-- The rank of a level, the most severe first. -/
def rank : Level → Nat
  | error => 0
  | warn => 1
  | info => 2
  | debug => 3
  | trace => 4

/-- The name of a level in a log. -/
def label : Level → String
  | error => "ERROR"
  | warn => "WARN"
  | info => "INFO"
  | debug => "DEBUG"
  | trace => "TRACE"

end Level

/-- Something that a log may report. -/
inductive Event where
  /-- A pattern has more recursive segments than may be expanded. -/
  | patternOverLimit (pattern : String) (segments limit : Nat)
  /-- An anchored pattern has a segment that the scope dialect cannot express. -/
  | variantDropped (directory variant : String)
  /-- A pattern stays non-generated although it was marked generated later. -/
  | keptNonGenerated (pattern : String)
  /-- A directive file is being read, with the directory its patterns are anchored at. -/
  | sourceStarted (path directory : String)
  /-- A directive was skipped because of its expansion. -/
  | directiveSkipped (path : String) (line : Nat) (pattern : String)
  | directiveResolved (path : String) (line : Nat) (pattern : String) (resolved : List String)
  | largeFile
  | decodedLossily (path : String)
  | walkFault (message : String)
  | filesFound (count : Nat) (root : String)
  | fileSkipped (path reason : String)
  | configLoading (path : String)
  /-- There is no file with settings. -/
  | configDefaulted
  | scanStarted (root : String)
  | scanFinished (files patterns : Nat)
deriving DecidableEq, Repr

namespace Event

/-- How severe an event is. -/
def level : Event → Level
  | patternOverLimit .. => .warn
  | variantDropped .. => .warn
  | keptNonGenerated .. => .debug
  | sourceStarted .. => .debug
  | directiveSkipped .. => .warn
  | directiveResolved .. => .trace
  | largeFile => .info
  | decodedLossily .. => .warn
  | walkFault .. => .warn
  | filesFound .. => .debug
  | fileSkipped .. => .warn
  | configLoading .. => .debug
  | configDefaulted => .debug
  | scanStarted .. => .trace
  | scanFinished .. => .debug

/-- The text of an event in a log. -/
def message : Event → String
  | patternOverLimit pattern segments limit =>
    s!"skipping pattern '{pattern}': {segments} recursive segments exceed limit of {limit}"
  | variantDropped directory variant =>
    s!"dropping '{directory}{variant}': a path segment is exactly '@'"
  | keptNonGenerated pattern => s!"keeping '{pattern}' non-generated"
  | sourceStarted path directory => s!"processing {path} (anchored at {directory})"
  | directiveSkipped path line pattern => s!"{path}:{line}: pattern '{pattern}' skipped"
  | directiveResolved path line pattern resolved =>
    s!"{path}:{line}: {pattern} -> {Text.quotedSet resolved}"
  | largeFile => "Reading large directive file"
  | decodedLossily path => s!"{path} is not valid UTF-8, decoding lossily"
  | walkFault message => s!"Walk error: {message}"
  | filesFound count root => s!"found {count} directive files under {root}"
  | fileSkipped path reason => s!"skipping {path}: {reason}"
  | configLoading path => s!"loading config from {path}"
  | configDefaulted => "no config found, using defaults"
  | scanStarted root => s!"scanning {root}"
  | scanFinished files patterns => s!"{files} directive files, {patterns} patterns"

end Event

/-- The events of a log that shows a level and what is more severe. -/
def eventsAtLevel (level : Level) (events : List Event) : List Event :=
  events.filter fun event => event.level.rank ≤ level.rank

end AttributeScope

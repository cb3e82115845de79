import SchemaSummary.Command.Program
import SchemaSummary.Generation.Generator

/-! # Log

  What a run reports about its progress, and how much of it is shown.

  The events of generation are told from the request alone. They stop where generation stops:
  an event that speaks of a result is there only if the result is.
-/

namespace SchemaSummary

/-! ## Control characters -/

/-- The controls of seven bits that a terminal acts upon: bell, backspace, form feed, escape and
    delete. -/
def terminalControls : List Char := ['\x07', '\x08', '\x0c', '\x1b', '\x7f']

/-- A character as the log shows it. What a terminal would act upon is shown by its code; tabs and
    breaks are left alone. -/
def visibleChar (c : Char) : List Char :=
  let digits := Nat.toDigits 16 c.toNat
  if terminalControls.contains c then ['\\', 'x'] ++ digits.leftpad 2 '0'
  else if 0x80 ≤ c.toNat ∧ c.toNat ≤ 0x9F then ['\\', 'u', '\x7b'] ++ digits ++ ['\x7d']
  else [c]

/-- A text as the log shows it. -/
def visible (text : String) : String := String.ofList (text.toList.flatMap visibleChar)

/-! ## Events -/

/-- How important an event is, from the most to the least important. -/
inductive Level where
  | error
  | warn
  | info
  | debug
  | trace
  deriving Repr, BEq, DecidableEq, Inhabited

namespace Level

/-- The name of a level. -/
def name : Level → String
  | .error => "ERROR"
  | .warn => "WARN"
  | .info => "INFO"
  | .debug => "DEBUG"
  | .trace => "TRACE"

/-- The verbosity from which on events of a level are shown. -/
def threshold : Level → Nat
  | .error | .warn => 0
  | .info => 1
  | .debug => 2
  | .trace => 3

end Level

/-- Something that happens in a run. -/
inductive Event where
  /-- The program starts. -/
  | started
  /-- The plugin has read its input. -/
  | received (bytes : Nat)
  /-- The files to generate are known. -/
  | selected (files all : Nat)
  /-- The document of a schema file is made. -/
  | flattened (file : String) (messages services : Nat)
  /-- A document has nothing in it. -/
  | nothingDeclared (file : String)
  /-- A file is generated. -/
  | generated (file output : String) (stats : Stats)
  /-- All files are generated. -/
  | finished (files : Nat) (totals : Stats)
  /-- A request is answered with an error. -/
  | refused (e : Error)
  /-- All files of a descriptor set are dealt with. -/
  | delivered (files : Nat) (descriptorSet : String)
  deriving Repr, BEq, DecidableEq

namespace Event

/-- How important an event is. -/
def level : Event → Level
  | .started | .selected _ _ | .generated _ _ _ => .debug
  | .received _ | .flattened _ _ _ | .nothingDeclared _ => .trace
  | .finished _ _ | .delivered _ _ => .info
  | .refused e => if e.isRequestError then .warn else .error

/-- The wording of an event. -/
def text : Event → String
  | .started => banner
  | .received bytes => "Read " ++ toString bytes ++ " bytes from stdin"
  | .selected files all =>
    "Selected " ++ toString files ++ " of " ++ toString all ++ " files for generation"
  | .flattened file messages services =>
    "Flattened " ++ file ++ ": " ++ toString messages ++ " messages, " ++ toString services ++
      " services"
  | .nothingDeclared file => file ++ " declares no messages or services"
  | .generated file output stats => file ++ " -> " ++ output ++ " (" ++ stats.text ++ ")"
  | .finished files totals =>
    "Generated " ++ toString files ++ " files (" ++ totals.text ++ ")"
  | .refused e =>
    (if e.isRequestError then "Rejected request: " else "Generation failed: ") ++ e.message
  | .delivered files descriptorSet =>
    "Generated " ++ toString files ++ " file(s) from " ++ descriptorSet

/-- The line of an event. -/
def line (e : Event) : String := e.level.name ++ " " ++ visible e.text ++ "\n"

end Event

/-- The lines of the events that are shown at the given verbosity. -/
def logText (verbosity : Nat) (events : List Event) : String :=
  String.join ((events.filter fun e => e.level.threshold ≤ verbosity).map Event.line)

/-! ## The events of generation -/

namespace Generator

/-- The events of one schema file that come before its output is named. -/
def openingEvents (f : FileDescriptor) : List Event :=
  let document := f.document
  .flattened f.path document.messages.length document.services.length ::
    (if document.isEmpty then [.nothingDeclared f.path] else [])

/-- The events of the given schema files, up to the first that fails. -/
def fileEvents (g : Generator) : List FileDescriptor → List Event
  | [] => []
  | f :: fs =>
    -- A document is made before its output is named, so these events come even if that fails.
    openingEvents f ++
      match g.generateFile f with
      | .error _ => []
      | .ok (file, stats) => .generated f.path file.name stats :: g.fileEvents fs

/-- The events of a run. -/
def events (g : Generator) (q : Request) : List Event :=
  match q.select with
  | .error _ => []
  | .ok selected =>
    .selected selected.length q.files.length :: g.fileEvents selected ++
      match g.run q with
      | .error _ => []
      | .ok (files, totals) => [.finished files.length totals]

end Generator

/-- The events of generating what a request asks for. -/
def Request.events (q : Request) : List Event :=
  match q.config with
  | .error _ => []
  | .ok config => (Generator.yaml config).events q

end SchemaSummary

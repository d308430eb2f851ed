import MethodSignatures.Signature.Dump
import MethodSignatures.Signature.Reading
import MethodSignatures.Text.Visible

/-! # Events of a reading

What a reading reports while it goes on: its start, the head, a text that is set aside, and its end. It ends with
`finished` or with a rejection, except that nothing is reported of a list that cannot be cut into pieces. In a log an
event leaves a record, in which texts are quoted with the given characters hidden.
-/

namespace MethodSignatures

/-- Steps are traced. What a caller may want to look into is for debugging. -/
inductive Level where
  | trace
  | debug
deriving DecidableEq

def Level.label : Level → String
  | trace => "TRACE"
  | debug => "DEBUG"

inductive Event where
  | started (text : String)
  | headRead (modifier : Option Modifier) (returnType : String)
  | tailIgnored (tail name : String)
  | finished (name : String) (count : Nat)
  | emptyRejected
  | textRejected (text : String) (fault : OutlineFault)
  | argumentRejected (position : Nat) (text : String)
deriving DecidableEq

namespace Event

def level : Event → Level
  | started _ | headRead _ _ | finished _ _ => .trace
  | tailIgnored _ _ | emptyRejected | textRejected _ _ | argumentRejected _ _ => .debug

section

variable (hidden : Char → Bool)

/-- A text as a message shows it: quoted, with the hidden characters made visible. -/
def shown (text : String) : String :=
  .ofList ((Text.visible hidden).quote text)

def message : Event → String
  | started text => "parsing signature " ++ shown hidden text
  | headRead modifier returnType =>
    "modifier " ++ .ofList ((Dump.ofOption (modifier.map Modifier.dump)).compactIn (Text.visible hidden)) ++
      ", return type " ++ shown hidden returnType
  | tailIgnored tail name =>
    "ignoring " ++ shown hidden tail ++ " after the argument list of " ++ shown hidden name
  | finished name count => "method " ++ shown hidden name ++ " with " ++ toString count ++ " argument(s)"
  | emptyRejected => "rejecting empty signature"
  | textRejected text fault => "rejecting " ++ shown hidden text ++ ": " ++ fault.reason
  | argumentRejected position text => "rejecting argument #" ++ toString position ++ " " ++ shown hidden text

end

end Event

/-! ## The events of a reading -/

def Head.event (head : Head) : Event :=
  .headRead head.modifier head.returnType

/-- A tail is reported unless it is empty. -/
def Body.events (body : Body) : List Event :=
  if body.tail.isEmpty then [] else [.tailIgnored (.ofList body.tail) body.name]

/-- A piece that is refused is reported, but not a text without pieces. -/
def Argument.ListFault.event? : ListFault → Option Event
  | uncut _ => none
  | refused refusal => some (.argumentRejected refusal.position refusal.text)

/-- The events of a reading of `text`, in the order in which they happen. The tail is known, and reported,
before the first argument is looked at. -/
def Reading.events (text : String) : Reading → List Event
  | blank => [.started text, .emptyRejected]
  | headless fault => [.started text, .textRejected text fault]
  | bodiless head fault => [.started text, head.event, .textRejected text fault]
  | refused head body fault => [.started text, head.event] ++ body.events ++ fault.event?.toList
  | complete head body arguments =>
    [.started text, head.event] ++ body.events ++ [.finished body.name arguments.length]

/-! ## Records -/

structure Record where
  level : Level
  text : String
deriving DecidableEq

section

variable (hidden : Char → Bool)

def Event.record (event : Event) : Record where
  level := event.level
  text := event.message hidden

def Reading.records (text : String) (reading : Reading) : List Record :=
  (reading.events text).map (Event.record hidden)

/-- The records that reading `text` leaves in a log. -/
def Signature.records (text : String) : List Record :=
  (Reading.ofText text).records hidden text

end

end MethodSignatures

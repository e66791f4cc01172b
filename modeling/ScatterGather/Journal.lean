/-!
# The journal

Everything that is reported along the way, in order: events of the library itself at one of four
levels, and remarks of callbacks that a caller registered. Recording is the only thing that code
which is generic in the state it works on needs to know about that state.
-/

namespace ScatterGather

inductive Level where
  | debug
  | info
  | warn
  | error
deriving DecidableEq, Repr

def Level.label : Level → String
  | .debug => "DEBUG"
  | .info => "INFO"
  | .warn => "WARN"
  | .error => "ERROR"

/-- One line of the journal. -/
inductive Entry where
  | event (level : Level) (text : String)
  | remark (text : String)
deriving DecidableEq, Repr

namespace Entry

/-- The text of an event with its level in front. -/
def eventLine? : Entry → Option String
  | .event level text => some (level.label ++ " " ++ text)
  | .remark _ => none

def remark? : Entry → Option String
  | .event _ _ => none
  | .remark text => some text

end Entry

/-- A state that keeps a journal. -/
class Journaled (ω : Type) where
  /-- Record one more entry. -/
  record : ω → Entry → ω

export Journaled (record)

/-- Record an event. -/
def report {ω : Type} [Journaled ω] (level : Level) (text : String) (world : ω) : ω :=
  record world (.event level text)

end ScatterGather

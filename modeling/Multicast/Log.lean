/-! Log lines. -/
namespace Multicast.Log

inductive Level where
  | error
  | warn
  | info
  | debug
  | trace
  deriving DecidableEq, Repr

namespace Level

def text : Level → String
  | .error => "ERROR"
  | .warn => "WARN"
  | .info => "INFO"
  | .debug => "DEBUG"
  | .trace => "TRACE"

/-- Grows as lines matter less. -/
def rank : Level → Nat
  | .error => 1
  | .warn => 2
  | .info => 3
  | .debug => 4
  | .trace => 5

end Level

structure Line where
  level : Level
  message : String
  deriving DecidableEq, Repr

def Line.text (l : Line) : String := l.level.text ++ " " ++ l.message

end Multicast.Log

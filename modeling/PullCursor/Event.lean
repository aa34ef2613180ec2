import PullCursor.Element
import PullCursor.Fault.Basic

/-! Everything that can be watched while cursors work. A trace of events is the only record of
what happened below a cursor, so it also tells how often each leaf was used. -/
namespace PullCursor

inductive Level where
  | trace
  | debug
  | warn
deriving DecidableEq

def Level.name : Level → String
  | .trace => "TRACE"
  | .debug => "DEBUG"
  | .warn => "WARN"

/-- What the library has to say for itself: things that no caller is told about otherwise. -/
inductive Notice where
  | computationFailed
  | closingFailed
  | failuresDropped (count : Nat)
  | closeFailedToo
  | closeFailedUnwinding
  | closeFailed (report : String)
deriving DecidableEq

namespace Notice

def level : Notice → Level
  | .computationFailed => .trace
  | .closingFailed | .closeFailedToo => .debug
  | .failuresDropped _ | .closeFailedUnwinding | .closeFailed _ => .warn

def text : Notice → String
  | .computationFailed => "computing the next element failed; iteration is finished"
  | .closingFailed => "closing an iteration after its computation failed"
  | .failuresDropped n =>
      s!"{n} more failures while closing concatenated iterations were discarded"
  | .closeFailedToo =>
      "closing an iteration failed after draining it failed; reporting the first failure"
  | .closeFailedUnwinding => "failed to close an iteration while unwinding from a panic"
  | .closeFailed report => s!"failed to close an iteration: {report}"

end Notice

inductive Operation where
  | hasNext
  | next
  | pull
  | close
deriving DecidableEq

inductive ProbeUse where
  | compute
  | release
  | closeCall
deriving DecidableEq

inductive Event where
  | log (notice : Notice)
  | tested (id : String) (x : Element)
  | applied (id : String) (x : Element)
  | reworded (id : String) (e : Fault)
  | computed (id : String)
  | released (id : String)
  | polled (id : String)
  | called (id : String) (op : Operation)
  /-- The supply of children was asked for the `n`-th time, from zero. -/
  | taken (id : String) (n : Nat)
  | visited (y : Element)
  | closedWith (n : Nat)
  | probed (label : Nat) (use : ProbeUse)

end PullCursor

/-! Faults: what ends a computation before it has a result. -/

namespace Handset

inductive Arith
  | add | subtract | multiply | negate
  deriving DecidableEq, Repr

/-- An arithmetic result out of range, or a fault that a callback raises itself, with its text if
it carries one. `nesting` ends callbacks that call each other deeper than a session allows. -/
inductive Fault
  | overflow (op : Arith)
  | raised (text : Option String)
  | nesting
  deriving DecidableEq, Repr

def Arith.verb : Arith → String
  | .add => "add"
  | .subtract => "subtract"
  | .multiply => "multiply"
  | .negate => "negate"

def Fault.text? : Fault → Option String
  | .overflow op => some s!"attempt to {op.verb} with overflow"
  | .raised text => text
  | .nesting => some "callbacks nested too deep"

/-- The text of a fault as its witness sees it. -/
def Fault.message (fault : Fault) : String :=
  fault.text?.getD ""

/-- The text of a fault as the log shows it. -/
def Fault.report (fault : Fault) : String :=
  fault.text?.getD "unknown panic payload"

end Handset

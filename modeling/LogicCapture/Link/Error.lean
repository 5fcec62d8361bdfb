/-!
How a transfer over the byte link can fail: the port itself, its reading and
writing, the time that it takes, or a transfer that stops halfway.
-/

namespace LogicCapture

inductive LinkError where
  /-- The port could not be opened or controlled. -/
  | port (text : String)
  /-- The port failed to read or write. -/
  | io (text : String)
  | timeout (elapsedMillis : Nat)
  | shortWrite (expected actual : Nat)
  | shortRead (expected actual : Nat)
deriving DecidableEq

def LinkError.message : LinkError → String
  | port text => s!"Serial port error: {text}"
  | io text => s!"IO error: {text}"
  | timeout elapsed => s!"Timeout after {elapsed} ms waiting for the analyser"
  | shortWrite expected actual => s!"Short write: sent {actual} of {expected} bytes"
  | shortRead expected actual => s!"Short read: received {actual} of {expected} bytes"

end LogicCapture

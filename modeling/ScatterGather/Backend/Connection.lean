import ScatterGather.Backend.Store

/-!
# Connections

A connection to a backend owns one local transaction, which can be begun again after each commit or
rollback. While it is active its writes are staged; otherwise they go straight to the store.
-/

namespace ScatterGather

/-- How far the transaction of a connection has come. -/
inductive Phase where
  | idle
  | active
  | committed
  | rolledBack
deriving DecidableEq, Repr

def Phase.inspect : Phase → String
  | .idle => "Idle"
  | .active => "Active"
  | .committed => "Committed"
  | .rolledBack => "RolledBack"

/-- A connection with its transaction. -/
structure Connection where
  closed : Bool
  phase : Phase
  staged : Writes
  timeout : Option UInt32
deriving DecidableEq

namespace Connection

def fresh : Connection :=
  ⟨false, .idle, ∅, none⟩

def isActive (c : Connection) : Bool :=
  c.phase = .active

def wasCommitted (c : Connection) : Bool :=
  c.phase = .committed

/-- A connection as it is inspected: it shows nothing of itself. -/
def inspect (_ : Connection) : String :=
  "NativeSession \x7b .. \x7d"

/-- What the connection sees of a store. -/
def view (c : Connection) (store : Store) : Store :=
  store.overlay c.staged

/-- The value that the connection sees for a key. -/
def get? (c : Connection) (store : Store) (key : String) : Option Json :=
  match c.staged.get? key with
  | some staged => staged
  | none => store.get? key

end Connection

end ScatterGather

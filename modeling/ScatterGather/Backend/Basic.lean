import ScatterGather.Backend.Connection

/-!
# Backends

A backend is one partition: a store, the connections opened to it so far, counters of the calls
that had an effect, and a switch per kind of call that makes the next one fail. Connections are
numbered in the order in which they were opened, and are never forgotten, so a number stays valid
after its connection was closed.
-/

namespace ScatterGather

/-- The calls that can be made to fail. -/
inductive NativeCall where
  | opening
  | beginning
  | committing
  | rollingBack
  | closing
deriving DecidableEq, Repr

def NativeCall.name : NativeCall → String
  | .opening => "open"
  | .beginning => "begin"
  | .committing => "commit"
  | .rollingBack => "rollback"
  | .closing => "close"

inductive BackendError where
  | injectedFault (call : NativeCall)
  | alreadyActive
  | notActive
  | closed
  | closeRefused
deriving DecidableEq, Repr

def BackendError.message : BackendError → String
  | .injectedFault call => "Injected fault on " ++ call.name
  | .alreadyActive => "Transaction already active"
  | .notActive => "Transaction not active"
  | .closed => "Session closed"
  | .closeRefused => "close refused"

/-- The calls of which the next one fails. -/
structure Faults where
  opening : Bool
  beginning : Bool
  committing : Bool
  rollingBack : Bool
  closing : Bool
deriving DecidableEq, Repr

namespace Faults

def none : Faults :=
  ⟨false, false, false, false, false⟩

def isArmed (faults : Faults) : NativeCall → Bool
  | .opening => faults.opening
  | .beginning => faults.beginning
  | .committing => faults.committing
  | .rollingBack => faults.rollingBack
  | .closing => faults.closing

def set (faults : Faults) (call : NativeCall) (armed : Bool) : Faults :=
  match call with
  | .opening => { faults with opening := armed }
  | .beginning => { faults with beginning := armed }
  | .committing => { faults with committing := armed }
  | .rollingBack => { faults with rollingBack := armed }
  | .closing => { faults with closing := armed }

end Faults

/-- How many calls had an effect. -/
structure CallCounts where
  opened : Nat
  closed : Nat
  begins : Nat
  commits : Nat
  rollbacks : Nat
deriving DecidableEq, Repr

structure Backend where
  store : Store
  faults : Faults
  calls : CallCounts
  connections : List Connection
deriving DecidableEq

namespace Backend

/-- A backend with an empty store, to which nobody has connected. -/
def empty : Backend :=
  ⟨∅, .none, ⟨0, 0, 0, 0, 0⟩, []⟩

instance : Inhabited Backend := ⟨empty⟩

def arm (b : Backend) (call : NativeCall) : Backend :=
  { b with faults := b.faults.set call true }

/-- The backend after a fault was used up. -/
def disarm (b : Backend) (call : NativeCall) : Backend :=
  { b with faults := b.faults.set call false }

/-- Write a row without a connection. -/
def seed (b : Backend) (key : String) (value : Json) : Backend :=
  { b with store := b.store.write key (some value) }

def connection? (b : Backend) (number : Nat) : Option Connection :=
  b.connections[number]?

def setConnection (b : Backend) (number : Nat) (c : Connection) : Backend :=
  { b with connections := b.connections.set number c }

/-- Open a connection; the answer is its number. -/
def openConnection (b : Backend) : Except BackendError Nat × Backend :=
  if b.faults.opening then (.error (.injectedFault .opening), b.disarm .opening)
  else
    (.ok b.connections.length,
      { b with
        calls := { b.calls with opened := b.calls.opened + 1 }
        connections := b.connections ++ [.fresh] })

/-- Close a connection. Closing it again has no effect; a refused close leaves it open. -/
def close (b : Backend) (number : Nat) : Except BackendError Unit × Backend :=
  match b.connection? number with
  | none => (.error .closed, b)
  | some c =>
    if b.faults.closing then (.error .closeRefused, b.disarm .closing)
    else if c.closed then (.ok (), b)
    else
      (.ok (),
        { b.setConnection number { c with closed := true } with
          calls := { b.calls with closed := b.calls.closed + 1 } })

/-- Begin the transaction of a connection, with nothing staged. -/
def begin (b : Backend) (number : Nat) : Except BackendError Unit × Backend :=
  match b.connection? number with
  | none => (.error .closed, b)
  | some c =>
    if b.faults.beginning then (.error (.injectedFault .beginning), b.disarm .beginning)
    else if c.isActive then (.error .alreadyActive, b)
    else
      (.ok (),
        { b.setConnection number { c with phase := .active, staged := ∅ } with
          calls := { b.calls with begins := b.calls.begins + 1 } })

/-- Commit the transaction of a connection: its staged writes become part of the store. -/
def commit (b : Backend) (number : Nat) : Except BackendError Unit × Backend :=
  match b.connection? number with
  | none => (.error .closed, b)
  | some c =>
    if !c.isActive then (.error .notActive, b)
    else if b.faults.committing then (.error (.injectedFault .committing), b.disarm .committing)
    else
      (.ok (),
        { b.setConnection number { c with phase := .committed, staged := ∅ } with
          store := b.store.overlay c.staged
          calls := { b.calls with commits := b.calls.commits + 1 } })

/-- Roll the transaction of a connection back: its staged writes are dropped. Without an active
transaction there is nothing to do. -/
def rollback (b : Backend) (number : Nat) : Except BackendError Unit × Backend :=
  match b.connection? number with
  | none => (.error .closed, b)
  | some c =>
    if !c.isActive then (.ok (), b)
    else if b.faults.rollingBack then
      (.error (.injectedFault .rollingBack), b.disarm .rollingBack)
    else
      (.ok (),
        { b.setConnection number { c with phase := .rolledBack, staged := ∅ } with
          calls := { b.calls with rollbacks := b.calls.rollbacks + 1 } })

def setTimeout (b : Backend) (number : Nat) (seconds : UInt32) : Backend :=
  match b.connection? number with
  | none => b
  | some c => b.setConnection number { c with timeout := some seconds }

/-- The value of a key, as a connection sees it. -/
def get (b : Backend) (number : Nat) (key : String) : Except BackendError (Option Json) :=
  match b.connection? number with
  | none => .error .closed
  | some c => if c.closed then .error .closed else .ok (c.get? b.store key)

/-- The rows whose key begins with `start`, as a connection sees them. -/
def scan (b : Backend) (number : Nat) (start : String) :
    Except BackendError (List (String × Json)) :=
  match b.connection? number with
  | none => .error .closed
  | some c => if c.closed then .error .closed else .ok ((c.view b.store).scan start)

/-- Write through a connection: staged while its transaction is active, at once otherwise. A
missing value deletes the key. -/
def write (b : Backend) (number : Nat) (key : String) (value : Option Json) :
    Except BackendError Unit × Backend :=
  match b.connection? number with
  | none => (.error .closed, b)
  | some c =>
    if c.closed then (.error .closed, b)
    else if c.isActive then
      (.ok (), b.setConnection number { c with staged := c.staged.insert key value })
    else (.ok (), { b with store := b.store.write key value })

end Backend

end ScatterGather

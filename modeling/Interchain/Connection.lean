/-
The state of a database connection.

It is open after a connection that succeeded, until a disconnection that
succeeded or a report of trouble from the driver.
-/
import Interchain.Settings

namespace Interchain

inductive DriverCall
  | connect (uri : String) (pool : PoolSettings)
  | disconnect
deriving DecidableEq

inductive DriverReport
  | error
  | disconnected
deriving DecidableEq

structure Connection where
  isOpen : Bool
deriving DecidableEq

namespace Connection

def closed : Connection := ⟨false⟩

def connect (c : Connection) (s : Settings) (fault : Option String) :
    Except Failure Unit × List DriverCall × Connection :=
  if c.isOpen then (.ok (), [], c)
  else
    match fault with
    | none => (.ok (), [.connect s.databaseUri s.pool], ⟨true⟩)
    | some text => (.error (.raised text), [.connect s.databaseUri s.pool], c)

def disconnect (c : Connection) (fault : Option String) :
    Except Failure Unit × List DriverCall × Connection :=
  if !c.isOpen then (.ok (), [], c)
  else
    match fault with
    | none => (.ok (), [.disconnect], ⟨false⟩)
    | some text => (.error (.raised text), [.disconnect], c)

/-- Either report means that the connection is lost. -/
def receive (_ : Connection) : DriverReport → Connection
  | .error | .disconnected => closed

end Connection
end Interchain

/-
Requests and responses between chains.

Byte fields are hexadecimal texts as their sender wrote them.  Integers come from
any caller and are checked where they are written or used.
-/
import Interchain.Failure

namespace Interchain

/-- A message for a module on another chain. -/
structure PostRequest where
  source : String
  dest : String
  nonce : Int
  fromModule : String
  toModule : String
  timeout : Int
  body : String
  gasLimit : Int
deriving DecidableEq

/-- A question for storage values of another chain. -/
structure GetRequest where
  source : String
  dest : String
  nonce : Int
  fromModule : String
  timeout : Int
  keys : List String
  height : Int
  gasLimit : Int
deriving DecidableEq

structure StorageValue where
  key : String
  value : String
deriving DecidableEq

/-- A post request and what its destination answered. -/
structure PostResponse where
  request : PostRequest
  response : String
deriving DecidableEq

structure GetResponse where
  request : GetRequest
  values : List StorageValue
deriving DecidableEq

def PostRequest.context (r : PostRequest) : RequestContext := ⟨r.source, r.dest, r.nonce⟩

def GetRequest.context (r : GetRequest) : RequestContext := ⟨r.source, r.dest, r.nonce⟩

/-- A timeout of zero never passes; any other has passed once the clock reaches it. -/
def hasExpired (timeout clock : Int) : Bool := timeout != 0 && timeout ≤ clock

def requestKey (source : String) (nonce : Int) : String := s!"{source}/{nonce}"

end Interchain

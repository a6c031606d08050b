/-
What can go wrong.

A refusal of the asset module is a cause, perhaps bound to the coordinates of the
request it answers.  Two other failures reach a caller: an argument that cannot
be written, and a failure raised by a gateway.
-/
import Interchain.Abi.Decode
import Interchain.Chain
import Interchain.Lifecycle

namespace Interchain

/-- Kinds of refusal: 1xxx access, 2xxx input, 3xxx ledger, 4xxx lifecycle, 5xxx gateway. -/
inductive ErrorCode
  | unauthorized
  | validationFailed
  | decodeError
  | insufficientBalance
  | overflow
  | conservationViolation
  | invalidTransition
  | requestNotFound
  | gatewayError
deriving DecidableEq

namespace ErrorCode

def number : ErrorCode → Nat
  | .unauthorized => 1001
  | .validationFailed => 2001
  | .decodeError => 2002
  | .insufficientBalance => 3001
  | .overflow => 3002
  | .conservationViolation => 3003
  | .invalidTransition => 4001
  | .requestNotFound => 4002
  | .gatewayError => 5001

def name : ErrorCode → String
  | .unauthorized => "Unauthorized"
  | .validationFailed => "ValidationFailed"
  | .decodeError => "DecodeError"
  | .insufficientBalance => "InsufficientBalance"
  | .overflow => "Overflow"
  | .conservationViolation => "ConservationViolation"
  | .invalidTransition => "InvalidTransition"
  | .requestNotFound => "RequestNotFound"
  | .gatewayError => "GatewayError"

def all : List ErrorCode :=
  [.unauthorized, .validationFailed, .decodeError, .insufficientBalance, .overflow,
   .conservationViolation, .invalidTransition, .requestNotFound, .gatewayError]

end ErrorCode

/-- Tags that close the text of a fault of the wire formats. -/
def invalidArgument (text : String) : String := s!"{text} (code=INVALID_ARGUMENT)"

def bufferOverrun (text : String) : String := s!"{text} (code=BUFFER_OVERRUN)"

def Abi.Fault.message : Abi.Fault → String
  | .outOfBounds => bufferOverrun "data out-of-bounds"
  | .insufficientLength => bufferOverrun "insufficient data length"
  | .overflow => invalidArgument "overflow"
  | .wideAddress => invalidArgument "value exceeds width"
  | .invalidText f => invalidArgument f.message

inductive Item
  | payload
  | postEnvelope
  | getEnvelope
  | responseEnvelope
  | acknowledgement
deriving DecidableEq

def Item.name : Item → String
  | .payload => "payload"
  | .postEnvelope => "post envelope"
  | .getEnvelope => "get envelope"
  | .responseEnvelope => "response envelope"
  | .acknowledgement => "acknowledgement"

inductive DecodeFault
  | payloadLength
  | notBytes (item : Item)
  | malformed (item : Item) (fault : Abi.ExactFault)
  | chainText (fault : Utf8.Fault)
  | notAcknowledgement
deriving DecidableEq

def Abi.ExactFault.message : Abi.ExactFault → String
  | .unreadable f => f.message
  | .spoilt i => s!"deferred error during ABI decoding triggered accessing index {i}"
  | .notCanonical => "non-canonical or overlong encoding"

def DecodeFault.message : DecodeFault → String
  | .payloadLength => "Payload must be exactly 96 bytes"
  | .notBytes item => s!"Malformed {item.name}: not a byte string"
  | .malformed item f => s!"Malformed {item.name}: {f.message}"
  | .chainText f => s!"State machine id is not valid UTF-8: {invalidArgument f.message}"
  | .notAcknowledgement => "Response is not an acknowledgement"

inductive SubmissionKind
  | post
  | get
  | response
deriving DecidableEq

def SubmissionKind.name : SubmissionKind → String
  | .post => "post"
  | .get => "get"
  | .response => "response"

def SubmissionKind.title : SubmissionKind → String
  | .post => "Post"
  | .get => "Get"
  | .response => "Response"

/-- Why the asset module or its host refuses. -/
inductive Cause
  | notHost (caller : String)
  | notAddress (field : String)
  | outOfRange (field : String)
  | notBetween (field : String) (max : Int)
  | keyNotBytes (index : Nat)
  | chain (id : String) (fault : Chain.Fault)
  | chainTaken (id : String)
  | chainMissing (id : String)
  | clockBackwards
  | missingValue (key : String)
  | emptyKey (index : Nat)
  | amountRange (amount : Int)
  | duplicateAccount (account : Address)
  | balanceRange (account : Address)
  | snapshotNumeral (field : String)
  | decode (fault : DecodeFault)
  | insufficientBalance (account : String) (balance amount : Int)
  | creditOverflow (amount : Int) (account : Address)
  | supplyOverflow
  | supplyMismatch (supply sum : Int)
  | transition (current next : RequestStatus) (key : String)
  | expired (key : String) (deadline : Int)
  | requestNotFound (key : String)
  | dispatchRejected (kind : SubmissionKind) (reason : String)
  | stated (code : ErrorCode) (text : String)
deriving DecidableEq

namespace Cause

def code : Cause → ErrorCode
  | .notHost _ => .unauthorized
  | .notAddress _ | .outOfRange _ | .notBetween _ _ | .keyNotBytes _ | .chain _ _ | .chainTaken _
  | .chainMissing _ | .clockBackwards | .missingValue _ | .emptyKey _ | .amountRange _
  | .duplicateAccount _ | .balanceRange _ | .snapshotNumeral _ => .validationFailed
  | .decode _ => .decodeError
  | .insufficientBalance _ _ _ => .insufficientBalance
  | .creditOverflow _ _ | .supplyOverflow => .overflow
  | .supplyMismatch _ _ => .conservationViolation
  | .transition _ _ _ | .expired _ _ => .invalidTransition
  | .requestNotFound _ => .requestNotFound
  | .dispatchRejected _ _ => .gatewayError
  | .stated code _ => code

def message : Cause → String
  | .notHost caller => s!"Caller {caller} is not the host"
  | .notAddress field => s!"{field} must be a 20-byte address"
  | .outOfRange field => s!"{field} is out of range"
  | .notBetween field max => s!"{field} must be between 0 and {max}"
  | .keyNotBytes i => s!"keys[{i}] must be a hex byte string"
  | .chain id f => f.message id
  | .chainTaken id => s!"State machine {id} is already registered"
  | .chainMissing id => s!"State machine {id} is not registered"
  | .clockBackwards => "Host clock cannot move backwards"
  | .missingValue key => s!"Missing value for key {key}"
  | .emptyKey i => s!"Empty storage key at index {i}"
  | .amountRange n => s!"Amount {n} is outside the uint256 range"
  | .duplicateAccount a => s!"Duplicate account in ledger state: {a.render}"
  | .balanceRange a => s!"Balance out of range for {a.render}"
  | .snapshotNumeral field => s!"Snapshot {field} is not a decimal integer"
  | .decode f => f.message
  | .insufficientBalance account balance amount =>
    s!"Insufficient balance for {account}: has {balance}, needs {amount}"
  | .creditOverflow n a => s!"Crediting {n} to {a.render} overflows the ledger"
  | .supplyOverflow => "Total supply exceeds uint256"
  | .supplyMismatch supply sum =>
    s!"Total supply {supply} does not equal the sum of balances {sum}"
  | .transition current next key =>
    s!"Invalid state transition from {current.name} to {next.name} for request {key}"
  | .expired key deadline => s!"Request {key} expired at {deadline}"
  | .requestNotFound key => s!"Request not found: {key}"
  | .dispatchRejected kind reason => s!"{kind.title} dispatch rejected: {reason}"
  | .stated _ text => text

def undecodable : Cause := .stated .decodeError "Failed to decode request data"

def arithmeticOverflow : Cause := .stated .overflow "Ledger arithmetic overflow"

end Cause

structure RequestContext where
  source : String
  dest : String
  nonce : Int
deriving DecidableEq

/-- A refusal and the request it answers, if any. -/
structure ModuleError where
  cause : Cause
  context : Option RequestContext := none
deriving DecidableEq

/-- Why an argument cannot be written, be it to the wire or as a text. -/
inductive ArgumentFault
  | notBytes
  | outOfRange
  | address (fault : Address.Fault)
  | noText
deriving DecidableEq

def ArgumentFault.message : ArgumentFault → String
  | .notBytes => invalidArgument "invalid BytesLike value"
  | .outOfRange => invalidArgument "value out-of-bounds"
  | .address f => invalidArgument f.message
  | .noText => "Cannot convert object to primitive value"

inductive Failure
  | refused (error : ModuleError)
  | argument (fault : ArgumentFault)
  | raised (text : String)
deriving DecidableEq

namespace Failure

def ofCause (c : Cause) : Failure := .refused ⟨c, none⟩

def message : Failure → String
  | .refused e => e.cause.message
  | .argument f => f.message
  | .raised text => text

def bind (context : Option RequestContext) : Failure → Failure
  | .refused ⟨c, none⟩ => .refused ⟨c, context⟩
  | f => f

def outcome : Failure → String
  | .refused e => e.cause.code.name
  | .argument _ | .raised _ => "Internal"

end Failure

def refuse {α : Type} : Except Cause α → Except Failure α
  | .ok a => .ok a
  | .error c => .error (.ofCause c)

end Interchain

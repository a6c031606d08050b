/-
Chains and their identifiers.

A chain is named on the wire by a text: `POLY`, `BSC`, `ETH-` and a layer,
`POLKADOT-` or `KUSAMA-` and a parachain number, `GRANDPA-` or `BEEFY-` and the
free text of a consensus state.  Only the parachain number has several
spellings, by its leading zeros, and `id` writes it without.
-/
import Interchain.Text.Decimal

namespace Interchain

inductive RelayChain
  | polkadot
  | kusama
deriving DecidableEq

inductive EthereumLayer
  | execution
  | arbitrum
  | optimism
  | base
deriving DecidableEq

inductive ConsensusProtocol
  | grandpa
  | beefy
deriving DecidableEq

inductive Chain
  | parachain (relay : RelayChain) (paraId : Nat)
  | ethereum (layer : EthereumLayer)
  | polygon
  | bsc
  | consensus (protocol : ConsensusProtocol) (stateId : String)
deriving DecidableEq

def RelayChain.name : RelayChain → String
  | .polkadot => "POLKADOT"
  | .kusama => "KUSAMA"

def EthereumLayer.name : EthereumLayer → String
  | .execution => "EXEU"
  | .arbitrum => "ARBI"
  | .optimism => "OPTI"
  | .base => "BASE"

def ConsensusProtocol.name : ConsensusProtocol → String
  | .grandpa => "GRANDPA"
  | .beefy => "BEEFY"

def EthereumLayer.ofName? (t : String) : Option EthereumLayer :=
  [EthereumLayer.execution, .arbitrum, .optimism, .base].find? (fun l => l.name == t)

namespace Chain

inductive Fault
  | unknown
  | paraIdNotNumber
  | paraIdOutOfRange
  | unknownLayer
  | missingStateId
deriving DecidableEq

def Fault.message (id : String) : Fault → String
  | .unknown => s!"Unknown state machine: {id}"
  | .paraIdNotNumber => s!"Invalid para id in state machine {id}"
  | .paraIdOutOfRange => s!"Para id out of range in state machine {id}"
  | .unknownLayer => s!"Unknown ethereum layer in state machine {id}"
  | .missingStateId => s!"Missing consensus state id in {id}"

def maxParaId : Nat := 2 ^ 32 - 1

def id : Chain → String
  | .parachain r n => s!"{r.name}-{n}"
  | .ethereum l => s!"ETH-{l.name}"
  | .polygon => "POLY"
  | .bsc => "BSC"
  | .consensus p t => s!"{p.name}-{t}"

def parachain? (relay : RelayChain) (t : String) : Except Fault Chain :=
  match Decimal.parse? t with
  | none => .error .paraIdNotNumber
  | some n => if maxParaId < n then .error .paraIdOutOfRange else .ok (.parachain relay n)

def ethereum? (t : String) : Except Fault Chain :=
  match EthereumLayer.ofName? t with
  | none => .error .unknownLayer
  | some l => .ok (.ethereum l)

def consensus? (protocol : ConsensusProtocol) (t : String) : Except Fault Chain :=
  if t.toList.isEmpty then .error .missingStateId else .ok (.consensus protocol t)

def split? (t : String) : Option (String × String) :=
  let cs := t.toList
  match cs.dropWhile (· ≠ '-') with
  | [] => none
  | _ :: rest => some (String.ofList (cs.takeWhile (· ≠ '-')), String.ofList rest)

def parse (t : String) : Except Fault Chain :=
  if t = "POLY" then .ok .polygon
  else if t = "BSC" then .ok .bsc
  else
    match split? t with
    | none => .error .unknown
    | some (family, rest) =>
      if family = "POLKADOT" then parachain? .polkadot rest
      else if family = "KUSAMA" then parachain? .kusama rest
      else if family = "ETH" then ethereum? rest
      else if family = "GRANDPA" then consensus? .grandpa rest
      else if family = "BEEFY" then consensus? .beefy rest
      else .error .unknown

end Chain
end Interchain

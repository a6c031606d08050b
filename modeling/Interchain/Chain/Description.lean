/-
Chains as they are described from outside.

A description may give a parachain any number and Ethereum any layer.  Where it
fits a chain its identifier is that of the chain; otherwise it is written out in
the same way, although nothing reads it back.
-/
import Interchain.Chain
import Interchain.Double

namespace Interchain

inductive ChainDescription
  | parachain (relay : RelayChain) (number : Float)
  | ethereum (layer : String)
  | known (chain : Chain)

namespace ChainDescription

def chain? : ChainDescription → Option Chain
  | .parachain relay x =>
    match Double.toNat? x with
    | some n => if n ≤ Chain.maxParaId then some (.parachain relay n) else none
    | none => none
  | .ethereum t => (EthereumLayer.ofName? t).map .ethereum
  | .known c => some c

def written : ChainDescription → String
  | .parachain relay x => s!"{relay.name}-{Double.text x}"
  | .ethereum t => s!"ETH-{t}"
  | .known c => c.id

def id (d : ChainDescription) : String :=
  match d.chain? with
  | some c => c.id
  | none => d.written

end ChainDescription
end Interchain

/-
Parameters of outbound calls, checked and brought to normal form before anything
else happens.
-/
import Interchain.Address.Reread
import Interchain.Message

namespace Interchain

structure TransferParams where
  recipient : String
  dest : String
  amount : Int
  timeout : Int
  gasLimit : Int
deriving DecidableEq

structure Transfer where
  recipient : Address
  dest : Chain
  amount : Nat
  timeout : Nat
  gasLimit : Nat
deriving DecidableEq

structure GetParams where
  dest : String
  keys : List String
  height : Int
  timeout : Int
  gasLimit : Int
deriving DecidableEq

/-- A get request with its parameters in range and its keys in lower case. -/
structure Query where
  dest : Chain
  keys : List String
  height : Nat
  timeout : Nat
  gasLimit : Nat
deriving DecidableEq

namespace Params

def address (t field : String) : Except Cause Address :=
  match Address.parse? t with
  | none => .error (.notAddress field)
  | some a => .ok a

def chain (id : String) : Except Cause Chain :=
  match Chain.parse id with
  | .error f => .error (.chain id f)
  | .ok c => .ok c

def normalChain (id : String) : Except Cause String := (chain id).map Chain.id

def uint (n max : Int) (field : String) : Except Cause Nat :=
  if n < 0 ∨ max < n then .error (.notBetween field max) else .ok n.toNat

/-- The keys from the one at index `i` on, in lower case. -/
def keysFrom : (i : Nat) → List String → Except Cause (List String)
  | _, [] => .ok []
  | i, k :: ks =>
    match Hex.parse? k with
    | none => .error (.keyNotBytes i)
    | some _ => (keysFrom (i + 1) ks).map (Hex.lowerText k :: ·)

end Params

open Params

def TransferParams.check (p : TransferParams) : Except Cause Transfer := do
  let r ← address p.recipient "to"
  let d ← chain p.dest
  let n ← uint p.amount maxUint256 "amount"
  let t ← uint p.timeout maxUint64 "timeout"
  let g ← uint p.gasLimit maxUint64 "gasLimit"
  return ⟨r, d, n, t, g⟩

def GetParams.check (p : GetParams) : Except Cause Query := do
  let ks ← keysFrom 0 p.keys
  let d ← chain p.dest
  let h ← uint p.height maxUint64 "height"
  let t ← uint p.timeout maxUint64 "timeout"
  let g ← uint p.gasLimit maxUint64 "gasLimit"
  return ⟨d, ks, h, t, g⟩

/-- A caller has to be the host, in any spelling of its address. -/
def ensureHost (caller : String) (host : Address) : Except Cause Unit :=
  if Address.parse? caller = some host then .ok () else .error (.notHost caller)

def ensureHostText (caller host : String) : Except Cause Unit :=
  match Address.parse? caller with
  | none => .error (.notHost caller)
  | some a => if a.render = host then .ok () else .error (.notHost caller)

theorem ensureHostText_render (caller : String) (host : Address) :
    ensureHostText caller host.render = ensureHost caller host := by
  rw [ensureHostText, ensureHost]
  cases Address.parse? caller with
  | none => rfl
  | some a =>
    by_cases h : a = host
    · simp only [h, if_true]
    · have hr : ¬ a.render = host.render := fun hr => h (Address.render_injective hr)
      simp only [h, hr, Option.some.injEq, if_false]

end Interchain

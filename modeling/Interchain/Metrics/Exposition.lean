/-
Metrics as text: the exposition format that scrapers read, and a sorted list for
comparison.
-/
import Interchain.Double
import Interchain.Metrics.Basic

namespace Interchain
namespace Exposition

/-- One value of a family, with its labels in order. -/
structure Series where
  labels : List (String × String)
  value : String

/-- A metric with its help text and its kind. -/
structure Family where
  name : String
  help : String
  kind : String
  series : List Series

def contentType : String := "text/plain; version=0.0.4; charset=utf-8"

/-- The label that closes every series. -/
def serviceLabel : String × String := ("service", "ismp-assets")

def count (n : Nat) : String := Double.text (Double.ofInt n)

/-- Every metric, in the order in which they are exposed. -/
def families (m : Metrics) : List Family :=
  [⟨"assets_dispatches_total", "Outbound requests submitted to the gateway", "counter",
      m.dispatches.map (fun e =>
        ⟨[("kind", e.1.1.name), ("outcome", e.1.2.name)], count e.2⟩)⟩,
   ⟨"assets_acknowledgement_failures_total", "Acknowledgement responses rejected by the gateway",
      "counter", [⟨[], count m.acknowledgementFailures⟩]⟩,
   ⟨"assets_handler_invocations_total", "Inbound handler invocations", "counter",
      m.invocations.map (fun e =>
        ⟨[("handler", e.1.1.name), ("outcome", e.1.2.name)], count e.2⟩)⟩,
   ⟨"assets_ledger_operations_total", "Committed ledger operations by type", "counter",
      m.ledgerOperations.map (fun e => ⟨[("operation", e.1.name)], count e.2⟩)⟩,
   ⟨"assets_total_supply", "Total supply of the local ledger", "gauge",
      m.supplies.map (fun e => ⟨[("stateMachine", e.1)], count e.2⟩)⟩]

def escape (c : Char) : List Char :=
  if c = '\\' then ['\\', '\\']
  else if c = '\n' then ['\\', 'n']
  else if c = '"' then ['\\', '"']
  else [c]

def labelText (l : String × String) : String :=
  l.1 ++ "=\"" ++ String.ofList (l.2.toList.flatMap escape) ++ "\""

def seriesLine (name : String) (s : Series) : String :=
  let labels := String.intercalate "," ((s.labels ++ [serviceLabel]).map labelText)
  name ++ "\x7b" ++ labels ++ "\x7d " ++ s.value

/-- The lines of a family, with a blank line at the end. -/
def familyLines (f : Family) : List String :=
  [s!"# HELP {f.name} {f.help}", s!"# TYPE {f.name} {f.kind}"] ++
    f.series.map (seriesLine f.name) ++ [""]

def lines (m : Metrics) : List String := (families m).flatMap familyLines

def unitsOf (c : Char) : List Nat :=
  if c.toNat < 0x10000 then [c.toNat]
  else [0xD800 + (c.toNat - 0x10000) / 0x400, 0xDC00 + (c.toNat - 0x10000) % 0x400]

def orderKey (t : String) : List Nat := t.toList.flatMap unitsOf

def summaryLine (name : String) (s : Series) : String :=
  let labels := String.intercalate "," (s.labels.map (fun l => s!"{l.1}={l.2}"))
  s!"{name}|{labels}|{s.value}"

/-- Every series on one line, in the order of UTF-16 units. -/
def summary (m : Metrics) : List String :=
  let all := (families m).flatMap (fun f => f.series.map (summaryLine f.name))
  all.mergeSort (fun a b => !(orderKey b).lex (orderKey a) Nat.blt)

end Exposition
end Interchain

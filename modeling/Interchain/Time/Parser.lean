/-
Reading instants from text.

A text is read in its standard form as far as it keeps to it, and from there on
freely.  Where no zone is named, universal time is meant.
-/
import Interchain.Time.FreeForm
import Interchain.Time.Standard

namespace Interchain
namespace Timestamp

/-- An instant with no text. -/
def unknown : Timestamp := ⟨limit + 1⟩

/-- Reads an instant.  A text ends at its first null character. -/
def parse? (t : String) : Option Timestamp :=
  match Standard.read (Token.scan (t.toList.takeWhile (fun c => c.toNat ≠ 0))) with
  | .whole d => d.instant? true
  | .departs d ts => (FreeForm.read d ts).bind (Draft.instant? false)
  | .refused => none

end Timestamp
end Interchain

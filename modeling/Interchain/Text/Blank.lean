/-
Blank characters: the tabs, line ends and spaces that may stand in front of a
number, among them every space separator of Unicode and the byte order mark.
-/

namespace Interchain
namespace Blank

/-- Ranges of code points, both ends included. -/
def ranges : List (Nat × Nat) :=
  [(0x09, 0x0D), (0x20, 0x20), (0xA0, 0xA0), (0x1680, 0x1680), (0x2000, 0x200A),
   (0x2028, 0x2029), (0x202F, 0x202F), (0x205F, 0x205F), (0x3000, 0x3000), (0xFEFF, 0xFEFF)]

def isBlank (c : Char) : Bool := ranges.any (fun r => r.1 ≤ c.toNat && c.toNat ≤ r.2)

end Blank
end Interchain

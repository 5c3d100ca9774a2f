/-!
The characters of the Unicode property `White_Space`.
-/

namespace RegisterMachine.Text

/-- The property holds on these ranges of code points, ends included. -/
def blankRanges : List (Nat × Nat) :=
  [(0x9, 0xD), (0x20, 0x20), (0x85, 0x85), (0xA0, 0xA0), (0x1680, 0x1680), (0x2000, 0x200A),
    (0x2028, 0x2029), (0x202F, 0x202F), (0x205F, 0x205F), (0x3000, 0x3000)]

/-- A blank separates words and has no other meaning. -/
def isBlank (char : Char) : Bool :=
  blankRanges.any fun (first, last) => decide (first ≤ char.toNat ∧ char.toNat ≤ last)

end RegisterMachine.Text

/-!
The number of values that fit in some bits.
-/

namespace RegisterMachine

/-- Each bit doubles the number of values. -/
def modulus (bits : Nat) : Nat := Nat.pow 2 bits

theorem modulus_pos (bits : Nat) : 0 < modulus bits := Nat.two_pow_pos bits

theorem modulus_succ (bits : Nat) : modulus (bits + 1) = modulus bits * 2 := rfl

end RegisterMachine

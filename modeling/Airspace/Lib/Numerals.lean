import Mathlib.Data.Nat.Cast.Defs

/-! Numerals of a development.

    A numeral over a ring carries a proof that it is at least two. The proof below is made of the numeral
    alone, so the modules that write the same constant carry the same proof of it. -/

namespace Airspace

/-- A test that comes out true. The test is implicit: the one instance is tried for every test, and the
    unifier evaluates it. -/
class Passes {test : Bool} : Prop where
  eq_true : test = true

instance passes_true : @Passes true := ⟨rfl⟩

instance atLeastTwo (n : ℕ) [h : @Passes (Nat.ble 2 n)] : Nat.AtLeastTwo n := ⟨Nat.le_of_ble_eq_true h.eq_true⟩

end Airspace

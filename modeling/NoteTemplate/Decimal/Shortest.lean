/-!
# Shortest decimals

Every finite binary64 number has an interval of reals that round to it. Among the decimals
in that interval the ones with the fewest digits are the shortest, and of these the nearest
to the number is chosen. All arithmetic is exact, on natural numbers.

* `Decimal.shortest`: the shortest decimal of a number given by its bits.
-/

namespace NoteTemplate

/-- The number `digits * 10 ^ exponent`. -/
structure Decimal where
  digits : Nat
  exponent : Int
deriving DecidableEq, Repr

namespace Decimal

/-- A positive binary64 number, `mantissa * 2 ^ exponent`. -/
structure Binary where
  mantissa : Nat
  exponent : Int
  /-- the next smaller number has the next smaller exponent -/
  narrowBelow : Bool

/-- The size of the number with these bits, without its sign. -/
def Binary.ofBits (bits : UInt64) : Binary :=
  let fraction : Nat := bits.toNat % Nat.pow 2 52
  let biased : Nat := bits.toNat / Nat.pow 2 52 % Nat.pow 2 11
  if biased = 0 then ⟨fraction, -1074, false⟩
  else ⟨fraction + Nat.pow 2 52, (biased : Int) - 1075, fraction = 0 && biased > 1⟩

/-- Whether the sign bit is set. -/
def isNegative (bits : UInt64) : Bool := bits.toNat ≥ Nat.pow 2 63

/-- The nearest multiple of `10 ^ d` that rounds to the number, if there is one. Of two that
are as near as each other it is the even one. Lengths are measured in quarters of the number's
last binary place. -/
def onGrid? (b : Binary) (d : Int) : Option Nat :=
  let q := b.exponent - 2
  let quarter := Nat.pow 2 q.toNat * Nat.pow 10 (-d).toNat
  let step := Nat.pow 10 d.toNat * Nat.pow 2 (-q).toNat
  let value := 4 * b.mantissa * quarter
  let low := value - (if b.narrowBelow then 1 else 2) * quarter
  let high := value + 2 * quarter
  let within := fun n => if b.mantissa % 2 = 0 then low ≤ n * step && n * step ≤ high
    else low < n * step && n * step < high
  let below := value / step
  let above := below + 1
  match within below, within above with
  | true, true =>
    let down := value - below * step
    let up := above * step - value
    some (if down < up ∨ (down = up ∧ below % 2 = 0) then below else above)
  | true, false => some below
  | false, true => some above
  | false, false => none

/-- The coarsest of the grids `10 ^ d`, `10 ^ (d - 1)`, … that holds a decimal. -/
def search (b : Binary) : (fuel : Nat) → (d : Int) → Decimal
  | 0, d => ⟨0, d⟩
  | fuel + 1, d =>
    match onGrid? b d with
    | some n => ⟨n, d⟩
    | none => search b fuel (d - 1)

/-- The shortest decimal that rounds to the number with these bits. -/
def shortest (bits : UInt64) : Decimal := search (Binary.ofBits bits) 660 309

end Decimal

end NoteTemplate

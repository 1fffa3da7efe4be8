import Calculator.Number.Magnitude

/-!
# Binary64 numbers

A binary64 number is either not a number or a magnitude with a sign.  Both zeros and both
infinities are signed magnitudes, and all values that are not a number are taken as one.

## Main definitions

* `Binary64` — the numbers of the calculator.
* `Binary64.ofBits`, `Binary64.toBits` — the interchange encoding in 64 bits.
* `Binary64.whole?` — the integer that a number is equal to, if there is one.
* `Binary64.sameNumber` — numerical equality, which joins the zeros.

## Main results

* `Binary64.ofBits_toBits` — the encoding of a number says which number it is.
-/

namespace Calculator

/-- A floating point number with 53 bits of precision. -/
inductive Binary64
  /-- Not a number. -/
  | nan
  /-- A magnitude with a sign; `negative` also tells the two zeros apart. -/
  | signed (negative : Bool) (size : Magnitude)
  deriving DecidableEq, Repr

/-- The bit of an encoding that stands for the sign. -/
abbrev signBit : Nat := 0x8000000000000000

namespace Binary64

instance : Inhabited Binary64 := ⟨nan⟩

/-- The number one. -/
def one : Binary64 := signed false .one

/-- The number whose encoding has the given 64 bits. -/
def ofBits (bits : Nat) : Binary64 :=
  let rank := bits % signBit
  if h : rank ≤ infinityRank then signed (bits / signBit % 2 == 1) ⟨rank, h⟩ else nan

/-- The 64 bits that encode a number. -/
def toBits : Binary64 → Nat
  | nan => 0x7FF8000000000000
  | signed negative size => (if negative then signBit else 0) + size.rank

/-- Whether the number is neither infinite nor not a number. -/
def isFinite : Binary64 → Bool
  | nan => false
  | signed _ size => size.isFinite

/-- Whether the number is a zero of either sign. -/
def isZero : Binary64 → Bool
  | nan => false
  | signed _ size => size.rank == 0

/-- Whether the number is less than zero; a negative zero is not. -/
def isNegative : Binary64 → Bool
  | nan => false
  | signed negative size => negative && size.rank != 0

/-- Whether the number is an infinity of either sign. -/
def isInfinite : Binary64 → Bool
  | nan => false
  | signed _ size => size.rank == infinityRank

/-- The integer that the number is equal to, if it is finite and has no fraction. -/
def whole? : Binary64 → Option Int
  | nan => none
  | signed negative size =>
    if size.isFinite && size.quanta % quantaPerUnit == 0 then
      let n : Int := (size.quanta / quantaPerUnit : Nat)
      some (if negative then -n else n)
    else none

/-- Whether the number is an odd integer. -/
def isOdd (x : Binary64) : Bool := x.whole?.any fun n => n % 2 == 1

/-- Numerical equality: the two zeros are equal and nothing equals what is not a number. -/
def sameNumber : Binary64 → Binary64 → Bool
  | signed s a, signed t b => a.rank == b.rank && (s == t || a.rank == 0)
  | _, _ => false

/-- The encoding of a number says which number it is. -/
theorem ofBits_toBits (x : Binary64) : ofBits x.toBits = x := by
  cases x with
  | nan => rfl
  | signed negative size =>
    have h : size.rank < signBit := Nat.lt_of_le_of_lt size.rank_le (by decide)
    -- the sign is the highest bit, and the rank takes those below it
    have hmod : (signed negative size).toBits % signBit = size.rank := by
      cases negative <;> simp [toBits] <;> omega
    have hdiv : ((signed negative size).toBits / signBit % 2 == 1) = negative := by
      cases negative
      · rw [show (signed false size).toBits / signBit = 0 by simp [toBits]; omega]; rfl
      · rw [show (signed true size).toBits / signBit = 1 by simp [toBits]; omega]; rfl
    unfold ofBits
    simp only [hdiv]
    rw [dif_pos (by rw [hmod]; exact size.rank_le)]
    congr 1
    exact Magnitude.rank_injective hmod

end Binary64

end Calculator

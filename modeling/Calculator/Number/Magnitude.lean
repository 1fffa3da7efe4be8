/-!
# Magnitudes of binary64 numbers

The sizes a binary64 number can have, from zero up to and including infinity, form one
increasing list.  A magnitude is a place in that list, its *rank*, so that the order of
magnitudes is the order of ranks and the next larger size is one rank up.

The rank of a size is also its bit pattern without the sign: the lowest 52 bits are the fraction
and the bits above them the exponent.  Every finite size is a whole number of *quanta* of
`2 ^ (-1074)`; sizes below `2 ^ 52` quanta are the subnormal ones.  Infinity takes the place that
`2 ^ 1024` would have if the exponents went on, which is how rounding treats it.

## Main definitions

* `Magnitude` — a place in the list of sizes.
* `quantaAt`, `Magnitude.quanta` — the size in quanta.
* `floorRank` — the last rank whose size does not exceed a number of quanta.
* `Magnitude.nearest` — the magnitude nearest to a fraction, an exact half going to the even rank.
-/

namespace Calculator

/-- The rank of infinity, the last one. -/
abbrev infinityRank : Nat := 0x7FF0000000000000

/-- How many ranks there are from one power of two to the next. -/
abbrev fractionRanks : Nat := 0x10000000000000

/-- The size of a binary64 number, by its place in the increasing list of all sizes. -/
structure Magnitude where
  /-- The place in the list: `0` is zero, `infinityRank` is infinity. -/
  rank : Nat
  rank_le : rank ≤ infinityRank
  deriving DecidableEq, Repr

/-- The size at a rank, in quanta of `2 ^ (-1074)`. -/
def quantaAt (rank : Nat) : Nat :=
  if rank < fractionRanks then rank
  else (fractionRanks + rank % fractionRanks) <<< (rank / fractionRanks - 1)

/-- The last rank whose size does not exceed `q` quanta: up to `2 ^ 53` ranks and quanta agree,
and from there on 53 leading bits are kept. -/
def floorRank (q : Nat) : Nat :=
  if q < 2 * fractionRanks then q else (q.log2 - 52) * fractionRanks + q >>> (q.log2 - 52)

/-- One quantum is a `1 / quantaPerUnit` part of one. -/
abbrev quantaPerUnit : Nat := 1 <<< 1074

namespace Magnitude

/-- The magnitude at a rank, where every rank past the last stands for infinity. -/
def ofRank (rank : Nat) : Magnitude := ⟨min rank infinityRank, Nat.min_le_right _ _⟩

instance : Inhabited Magnitude := ⟨ofRank 0⟩

/-- The size of zero. -/
def zero : Magnitude := ofRank 0

/-- The size of one. -/
def one : Magnitude := ofRank (1023 * fractionRanks)

/-- The size of an infinity. -/
def infinity : Magnitude := ofRank infinityRank

/-- The size in quanta of `2 ^ (-1074)`; infinity counts as `2 ^ 1024`. -/
def quanta (m : Magnitude) : Nat := quantaAt m.rank

/-- Whether the size is that of a number, not of an infinity. -/
def isFinite (m : Magnitude) : Bool := m.rank < infinityRank

/-- The magnitude nearest to `num / den` quanta; an exact half goes to the even rank, and what is
nearer to `2 ^ 1024` than to the largest finite size is infinite. -/
def nearest (num den : Nat) : Magnitude :=
  let below := floorRank (num / den)
  let half := (quantaAt below + quantaAt (below + 1)) * den
  if 2 * num < half then ofRank below
  else if half < 2 * num then ofRank (below + 1)
  else ofRank (below + below % 2)

@[simp] theorem ofRank_rank (m : Magnitude) : ofRank m.rank = m := by
  cases m with
  | mk rank rank_le => simp [ofRank, Nat.min_eq_left rank_le]

theorem rank_ofRank_of_le {rank : Nat} (h : rank ≤ infinityRank) : (ofRank rank).rank = rank :=
  Nat.min_eq_left h

theorem rank_injective {a b : Magnitude} (h : a.rank = b.rank) : a = b := by
  cases a; cases b; simp_all

end Magnitude

@[simp] theorem quantaAt_zero : quantaAt 0 = 0 := rfl

/-- Below `2 ^ 52` quanta each quantum is a size of its own. -/
theorem quantaAt_of_lt {rank : Nat} (h : rank < fractionRanks) : quantaAt rank = rank := if_pos h

end Calculator

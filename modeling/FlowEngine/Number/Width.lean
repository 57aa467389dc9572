import FlowEngine.Number.Binary64

/-!
# Widths of integers

An integer of an expression is held in 64 or 128 bits, with or without a sign. The width matters
where an integer meets a float: it has an exact float only if it comes back from it, and the way
back stops at the bounds of the width.

* `Width.least`, `Width.greatest` — the bounds of a width.
* `Width.ofResult`, `Width.ofLiteral` — the widths of results and of literals.
* `Width.toFloat?` — an integer as a float.
* `Binary64.toWord?` — a float as an integer.
-/

namespace FlowEngine

/-- How an integer is held. -/
inductive Width where
  | unsigned64
  | signed64
  | unsigned128
  | signed128
  deriving DecidableEq, Inhabited

namespace Width

/-- The least integer of a width. -/
def least : Width → Int
  | unsigned64 | unsigned128 => 0
  | signed64 => -0x8000000000000000
  | signed128 => -0x80000000000000000000000000000000

/-- The greatest integer of a width. -/
def greatest : Width → Int
  | unsigned64 => 0xFFFFFFFFFFFFFFFF
  | signed64 => 0x7FFFFFFFFFFFFFFF
  | unsigned128 => 0xFFFFFFFFFFFFFFFFFFFFFFFFFFFFFFFF
  | signed128 => 0x7FFFFFFFFFFFFFFFFFFFFFFFFFFFFFFF

/-- Whether an integer lies within the bounds of a width. -/
def fits (w : Width) (i : Int) : Bool := decide (w.least ≤ i) && decide (i ≤ w.greatest)

/-- The width of a result: 64 bits if they are enough. -/
def ofResult (i : Int) : Width := if signed64.fits i then signed64 else signed128

/-- The width of a literal: 64 bits if they are enough. -/
def ofLiteral (n : Nat) : Width := if unsigned64.fits n then unsigned64 else unsigned128

/-- An integer within the bounds of 128 bits with a sign, modulo what they can tell apart. -/
def wrap (i : Int) : Int := i.bmod 0x100000000000000000000000000000000

/-- An integer as a float. Unless `lossy`, the integer must come back from it. -/
def toFloat? (w : Width) (lossy : Bool) (i : Int) : Option Binary64 :=
  let x := Binary64.ofInt i
  if lossy || x.truncClamp w.least w.greatest == i then some x else none

end Width

/-- The integer of 64 bits that a float turns into and comes back from. The greatest one is where
the float next above it ends up. -/
def Binary64.toWord? (x : Binary64) : Option Int :=
  let i := x.truncClamp Width.signed64.least Width.signed64.greatest
  if (ofInt i).valueEq x then some i else none

end FlowEngine

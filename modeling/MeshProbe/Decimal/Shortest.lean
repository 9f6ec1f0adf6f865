import MeshProbe.Decimal.Binary64
/-!
The shortest decimal that reads back as a given binary number, and its layout as text. Among the
shortest ones the nearest is taken; which way an exact tie goes and where positional notation
ends is for the format that asks.
-/

namespace MeshProbe

/-- Where a decimal that lies midway between two shortest ones goes. -/
inductive Tie
  | even
  | up
  deriving DecidableEq, Repr

/-- How a format lays out a decimal `0.d₁d₂… * 10 ^ k`. -/
structure DecimalLayout where
  /-- The least `k` that is written positionally. -/
  fromPoint : Int
  /-- The greatest one, if there is any. -/
  toPoint : Option Int
  /-- Whether a whole number keeps `.0`. -/
  keepsPoint : Bool
  tie : Tie

namespace Binary64

/-- Twice the lower and upper bound of what rounds to the number, in units of
`2 ^ (exponent - 1)`: below a power of two the numbers lie twice as dense. -/
def bounds (x : Binary64) : Nat × Nat :=
  let m := x.significand
  let low := if m = Nat.pow 2 52 ∧ minExponent < x.exponent then 4 * m - 1 else 4 * m - 2
  (low, 4 * m + 2)

/-- `n * 2 ^ e` as a quotient. -/
def scaleUp (n : Nat) (e : Int) : Nat × Nat :=
  if 0 ≤ e then (n * Nat.pow 2 e.toNat, 1) else (n, Nat.pow 2 (-e).toNat)

/-- `n * 10 ^ e` as a quotient. -/
def scaleTen (n : Nat) (e : Int) : Nat × Nat :=
  if 0 ≤ e then (n * Nat.pow 10 e.toNat, 1) else (n, Nat.pow 10 (-e).toNat)

/-- Whether the decimal `n * 10 ^ e` rounds to the number. -/
def readsBack (x : Binary64) (n : Nat) (e : Int) : Bool :=
  let (low, high) := x.bounds
  let (an, ad) := scaleTen n e
  let (ln, ld) := scaleUp low (x.exponent - 2)
  let (hn, hd) := scaleUp high (x.exponent - 2)
  if x.significand % 2 = 0 then ln * ad ≤ an * ld && an * hd ≤ hn * ad
  else decide (ln * ad < an * ld) && decide (an * hd < hn * ad)

/-- The number of digits before the point of the magnitude, zero or less below one tenth. -/
def pointOf (x : Binary64) : Int :=
  let (num, den) := x.toQuotient
  let guess : Int := ((num.log2 : Int) - den.log2) * 30103 / 100000
  let below (k : Int) : Bool :=
    let (n, d) := scaleTen 1 k
    num * d < n * den
  if below (guess - 1) then guess - 1
  else if below guess then guess
  else if below (guess + 1) then guess + 1
  else guess + 2

/-- The better of the two neighbours of the magnitude on the grid of `count` digits, if one of
them reads back. -/
def onGrid (x : Binary64) (tie : Tie) (point : Int) (count : Nat) : Option (Nat × Int) :=
  let e := point - count
  let (num, den) := x.toQuotient
  let (sn, sd) := scaleTen 1 e
  let q := num * sd / (den * sn)
  let rest := 2 * (num * sd % (den * sn))
  let unit := den * sn
  match x.readsBack q e, x.readsBack (q + 1) e with
  | true, false => some (q, e)
  | false, true => some (q + 1, e)
  | false, false => none
  | true, true =>
    if rest < unit then some (q, e)
    else if unit < rest then some (q + 1, e)
    else match tie with
      | .up => some (q + 1, e)
      | .even => some (q + q % 2, e)

def stripZeros : Nat → Nat → Int → Nat × Int
  | 0, n, e => (n, e)
  | fuel + 1, n, e => if n % 10 = 0 then stripZeros fuel (n / 10) (e + 1) else (n, e)

/-- Digits and exponent of the shortest decimal that reads back; seventeen digits always do. -/
def shortest (x : Binary64) (tie : Tie) : Nat × Int :=
  if x.isZero then (0, 0)
  else
    let point := x.pointOf
    match (List.range 17).findSome? fun i => x.onGrid tie point (i + 1) with
    | some (n, e) => stripZeros 20 n e
    | none => (0, 0)

/-- The decimal as text: positional within the bounds of the layout, else with an exponent. -/
def render (layout : DecimalLayout) (x : Binary64) : String :=
  let sign := if x.negative then "-" else ""
  let whole := if layout.keepsPoint then ".0" else ""
  if x.isZero then sign ++ "0" ++ whole
  else
    let (n, e) := x.shortest layout.tie
    let digits := Nat.toDigits 10 n
    let point : Int := e + digits.length
    let positional :=
      layout.fromPoint ≤ point && (layout.toPoint.map (fun high => decide (point ≤ high))).getD true
    let text :=
      if positional then
        if 0 ≤ e then
          String.ofList (digits ++ List.replicate e.toNat '0') ++ whole
        else if 0 < point then
          String.ofList (digits.take point.toNat ++ '.' :: digits.drop point.toNat)
        else "0." ++ String.ofList (List.replicate (-point).toNat '0' ++ digits)
      else
        let fraction := match digits with
          | first :: second :: rest => String.ofList (first :: '.' :: second :: rest)
          | one => String.ofList one
        fraction ++ "e" ++ toString (point - 1)
    sign ++ text

end Binary64

end MeshProbe

/-!
The shortest decimal text of a double. The double is taken apart into a natural significand and
a power of two; the reals that round to it form an interval, and the text has the fewest digits
with which a decimal lies in that interval, the nearest one where several do. All comparisons
are exact, on natural numbers.
-/

namespace DictionaryDdl.Text

/-- A positive number `digits * 10 ^ exponent`. -/
structure Decimal where
  digits : Nat
  exponent : Int

/-- A positive double `significand * 2 ^ exponent`; `lowest` holds for the least significand of
its exponent, below which the doubles lie twice as close. -/
structure Binary where
  significand : Nat
  exponent : Int
  lowest : Bool

/-- The parts of a positive finite double. -/
def Binary.ofFloat (x : Float) : Binary :=
  let biased := (x.toBits >>> 52 &&& 0x7FF).toNat
  let fraction := (x.toBits &&& 0xFFFFFFFFFFFFF).toNat
  if biased = 0 then
    ⟨fraction, -1074, false⟩
  else
    ⟨fraction + 0x10000000000000, (biased : Int) - 1075, fraction == 0 && biased != 1⟩

/-- `n * 2 ^ twos * 10 ^ tens` as a fraction of naturals. -/
def scaled (n : Nat) (twos tens : Int) : Nat × Nat :=
  (n * Nat.pow 2 twos.toNat * Nat.pow 10 tens.toNat,
    Nat.pow 2 (-twos).toNat * Nat.pow 10 (-tens).toNat)

/-- Whether the decimal `d * 10 ^ exponent` rounds to the double. Units are a quarter of the
double's last place: the interval reaches two of them up, and down two or, below the lowest
significand, one. -/
def Binary.covers (b : Binary) (d : Nat) (exponent : Int) : Bool :=
  let value := 4 * b.significand
  let low := value - (if b.lowest then 1 else 2)
  let high := value + 2
  let (num, den) := scaled d (2 - b.exponent) exponent
  if b.significand % 2 = 0 then
    low * den ≤ num && num ≤ high * den
  else
    low * den < num && num < high * den

/-- The multiple of `10 ^ exponent` nearest to the double among those that round to it. -/
def Binary.onGrid? (b : Binary) (exponent : Int) : Option Decimal :=
  let (num, den) := scaled b.significand b.exponent (-exponent)
  let below := num / den
  let lower := b.covers below exponent
  let upper := b.covers (below + 1) exponent
  let nearer := 2 * (num % den) < den || (2 * (num % den) == den && below % 2 == 0)
  if lower && (nearer || !upper) then some ⟨below, exponent⟩
  else if upper then some ⟨below + 1, exponent⟩
  else none

/-- The first grid, from coarse to fine, that holds a decimal for the double. -/
def Binary.search (b : Binary) : Nat → Int → Decimal
  | 0, exponent => ⟨b.significand, exponent⟩
  | fuel + 1, exponent =>
      match b.onGrid? exponent with
      | some found => found
      | none => b.search fuel (exponent - 1)

/-- The shortest decimal of a positive double. No double reaches `10 ^ 309`, and seventeen
digits always do. -/
def shortest (x : Float) : Decimal :=
  (Binary.ofFloat x).search 700 309

/-- The digits of a decimal with a point after the first one, and the signed exponent. -/
def scientific (ds : List Char) (exponent : Int) : String :=
  let mantissa := match ds with
    | [] => []
    | [d] => [d]
    | d :: more => d :: '.' :: more
  let sign := if exponent < 0 then "-" else "+"
  String.ofList mantissa ++ "e" ++ sign ++ toString exponent.natAbs

/-- The text of a decimal whose digits end in no zero: positional from `10 ^ -5` up to `10 ^ 16`
and always with a point, scientific elsewhere. -/
def positional (ds : List Char) (exponent : Int) : String :=
  let point := (ds.length : Int) + exponent
  if point > 16 ∨ point ≤ -5 then
    scientific ds (point - 1)
  else if point ≤ 0 then
    String.ofList ("0.".toList ++ List.replicate (-point).toNat '0' ++ ds)
  else if exponent < 0 then
    String.ofList (ds.take point.toNat ++ '.' :: ds.drop point.toNat)
  else
    String.ofList (ds ++ List.replicate exponent.toNat '0' ++ ".0".toList)

/-- The shortest text of a finite double. -/
def doubleText (x : Float) : String :=
  let sign := if x.toBits >>> 63 = 1 then "-" else ""
  if x == 0.0 then
    sign ++ "0.0"
  else
    let decimal := shortest x
    let ds := Nat.toDigits 10 decimal.digits
    let kept := (ds.reverse.dropWhile (· == '0')).reverse
    sign ++ positional kept (decimal.exponent + (ds.length - kept.length : Nat))

end DictionaryDdl.Text

/-!
# Hexadecimal text

Numbers in base sixteen: shown with lower-case digits, read with digits in either case.
-/

namespace AdviceWeaver.Text

/-- The digits of `n` in base sixteen, at least `width` of them, zeros in front. -/
def hexDigits (width n : Nat) : List Char :=
  let digits := Nat.toDigits 16 n
  List.replicate (width - digits.length) '0' ++ digits

/-- A number as `0x` and its digits, at least `width` of them. -/
def hex (width n : Nat) : String :=
  "0x" ++ String.ofList (hexDigits width n)

/-- The value of a digit in base sixteen. -/
def hexValue? (c : Char) : Option Nat :=
  "0123456789abcdef".toList.idxOf? c.toLower

/-- The character whose code the digits spell. -/
def charOfHex? (digits : List Char) : Option Char := do
  let values ← digits.mapM hexValue?
  let code := values.foldl (fun n value => 16 * n + value) 0
  if code.isValidChar then some (Char.ofNat code) else none

end AdviceWeaver.Text

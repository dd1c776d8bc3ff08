import Brainfuck.Text.Decimal

/-!
# Brainfuck.Text.Duration

The text of a span of whole milliseconds: nothing is `0ns`, less than a second
is counted in milliseconds, and anything longer in seconds with as many of
three decimal places as are needed.

```
0 ↦ 0ns    7 ↦ 7ms    1500 ↦ 1.5s    60000 ↦ 60s    123456789 ↦ 123456.789s
```
-/

namespace Brainfuck.Text

/-- The three decimal places of a number of thousandths, trailing zeros cut. -/
def thousandths (n : Nat) : String :=
  let places := [n / 100 % 10, n / 10 % 10, n % 10]
  let kept := (places.reverse.dropWhile (· == 0)).reverse
  String.join (kept.map decimal)

/-- The text of a span of milliseconds. -/
def duration (ms : Nat) : String :=
  if ms = 0 then "0ns"
  else if ms < 1000 then decimal ms ++ "ms"
  else if ms % 1000 = 0 then decimal (ms / 1000) ++ "s"
  else decimal (ms / 1000) ++ "." ++ thousandths (ms % 1000) ++ "s"

example : duration 999 = "999ms" := by decide +kernel
example : duration 1001 = "1.001s" := by decide +kernel
example : duration 1500 = "1.5s" := by decide +kernel

end Brainfuck.Text

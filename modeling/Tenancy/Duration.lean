/-
**Durations.**

A span of time as a whole number of nanoseconds, and the short form in which a message shows it:
the largest unit of which the span holds at least one, and the exact decimal fraction of that unit
without trailing zeros (`1.5ms`, `60s`, `0ns`).

Main definitions:

* `Tenancy.Duration` — a span of time;
* `Tenancy.Duration.unit` — the unit a span is shown in;
* `Tenancy.Duration.render` — **the short form**.
-/

set_option relaxedAutoImplicit false
set_option autoImplicit false

namespace Tenancy

/-- **A span of time**, in whole nanoseconds. -/
structure Duration where
  nanoseconds : Nat
deriving DecidableEq, Repr, Inhabited

namespace Duration

/-- The span of a whole number of microseconds. -/
def ofMicroseconds (n : Nat) : Duration := ⟨n * 1000⟩

/-- The span of a whole number of seconds. -/
def ofSeconds (n : Nat) : Duration := ⟨n * 1000000000⟩

/-- No time at all. -/
def isZero (d : Duration) : Bool := d.nanoseconds == 0

/-! ### The short form -/

/-- A unit of time: how many nanoseconds it has, how many decimal places that is, and its
symbol. -/
structure TimeUnit where
  size : Nat
  places : Nat
  symbol : String

/-- The largest unit of which the span holds at least one; a span below a microsecond is shown in
nanoseconds. -/
def unit (d : Duration) : TimeUnit :=
  if 1000000000 ≤ d.nanoseconds then ⟨1000000000, 9, "s"⟩
  else if 1000000 ≤ d.nanoseconds then ⟨1000000, 6, "ms"⟩
  else if 1000 ≤ d.nanoseconds then ⟨1000, 3, "µs"⟩
  else ⟨1, 0, "ns"⟩

/-- The `places` decimal digits of `n`, leading zeros included. -/
def paddedDigits (places n : Nat) : List Char :=
  let digits := Nat.toDigits 10 n
  List.replicate (places - digits.length) '0' ++ digits

/-- The digits of a fraction of `places` places without the zeros at its end. -/
def fractionDigits (places n : Nat) : List Char :=
  if n = 0 then [] else ((paddedDigits places n).reverse.dropWhile (· == '0')).reverse

/-- **The short form of a span.** -/
def render (d : Duration) : String :=
  let fraction := fractionDigits d.unit.places (d.nanoseconds % d.unit.size)
  let tail := if fraction.isEmpty then [] else '.' :: fraction
  String.ofList (Nat.toDigits 10 (d.nanoseconds / d.unit.size) ++ tail) ++ d.unit.symbol

theorem fractionDigits_zero (places : Nat) : fractionDigits places 0 = [] := rfl

/-- No time is shown in the smallest unit. -/
theorem render_zero : render ⟨0⟩ = "0ns" := by decide +kernel

example : render ⟨1500000⟩ = "1.5ms" := by decide +kernel
example : render ⟨59999999999⟩ = "59.999999999s" := by decide +kernel
example : render (ofSeconds 60) = "60s" := by decide +kernel

end Duration

end Tenancy

/-!
Time in whole milliseconds. A clock can only reach instants below a fixed one; whoever computes
an instant has to say what holds when it lies beyond.
-/

namespace MeshProbe

/-- A state in which time passes. Sleeping ends at its instant, or before it when the sleeper is
cancelled. -/
class Clock (σ : Type) where
  now : σ → Nat
  sleepUntil : Nat → σ → σ
  isCancelled : σ → Bool

namespace Instant

/-- The first instant that no clock reaches: nearly `2 ^ 63` seconds. -/
def limit : Nat := (Nat.pow 2 63 - 1) * 1000

/-- The instant a while after another, if a clock reaches it. -/
def add? (start span : Nat) : Option Nat :=
  if start + span < limit then some (start + span) else none

end Instant

namespace Span

def ofSeconds (s : Nat) : Nat := s * 1000

/-- Thirty years of 365 days: stands for an end that no clock reaches. -/
def far : Nat := ofSeconds (86400 * 365 * 30)

/-- A fraction of a second in thousandths, without zeros at its end. -/
def fraction (ms : Nat) : List Char :=
  let digits := (Nat.toDigits 10 (1000 + ms % 1000)).drop 1
  (digits.reverse.dropWhile (· = '0')).reverse

/-- A span as text: in seconds from one second on, else in milliseconds, and nothing at all in
nanoseconds. -/
def render (ms : Nat) : String :=
  if ms = 0 then "0ns"
  else if ms < 1000 then toString ms ++ "ms"
  else
    match fraction ms with
    | [] => toString (ms / 1000) ++ "s"
    | digits => toString (ms / 1000) ++ "." ++ String.ofList digits ++ "s"

end Span

end MeshProbe

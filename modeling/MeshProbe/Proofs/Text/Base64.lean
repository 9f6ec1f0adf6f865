import MeshProbe.Text.Percent
import Mathlib.Tactic

/-!
Reading base64. Each group of four digits is read as the three bytes that it was
made of, a group that is filled up with equal signs as the one or two bytes, so
any bytes are read back from their digits.
-/

namespace MeshProbe.Base64

def value? (c : Char) : Option Nat :=
  if c.isUpper then some (c.toNat - 65)
  else if c.isLower then some (c.toNat - 71)
  else if c.isDigit then some (c.toNat + 4)
  else if c = '+' then some 62
  else if c = '/' then some 63
  else none

/-- Reads groups of four digits, of which only the last may be filled up. -/
def decode? : List Char → Option Bytes
  | [] => some []
  | a :: b :: c :: d :: rest => do
    let a ← value? a
    let b ← value? b
    let first := UInt8.ofNat (a * 4 + b / 16)
    if c = '=' then
      if d = '=' ∧ rest = [] then some [first] else none
    else
      let c ← value? c
      let second := UInt8.ofNat (b % 16 * 16 + c / 4)
      if d = '=' then
        if rest = [] then some [first, second] else none
      else
        let d ← value? d
        let others ← decode? rest
        some (first :: second :: UInt8.ofNat (c % 4 * 64 + d) :: others)
  | _ => none

/-- A digit has the value it was made from and is no equal sign. -/
theorem digit_spec {n : Nat} (h : n < 64) : value? (digit n) = some n ∧ digit n ≠ '=' := by
  have hall : ∀ n < 64, value? (digit n) = some n ∧ digit n ≠ '=' := by decide
  exact hall n h

theorem ofNat_eq {n : Nat} {b : UInt8} (h : n = b.toNat) : UInt8.ofNat n = b := by
  rw [h, UInt8.ofNat_toNat]

/-- Bytes are read back from their digits. -/
theorem decode?_encode (bytes : Bytes) : decode? (encode bytes) = some bytes := by
  induction bytes using encode.induct with
  | case1 a b c rest ih =>
    have ha := a.toNat_lt
    have hb := b.toNat_lt
    have hc := c.toNat_lt
    obtain ⟨n, hn⟩ : ∃ n, n = (a.toNat * 256 + b.toNat) * 256 + c.toNat := ⟨_, rfl⟩
    obtain ⟨h1, -⟩ := digit_spec (n := n / 262144) (by omega)
    obtain ⟨h2, -⟩ := digit_spec (n := n / 4096 % 64) (by omega)
    obtain ⟨h3, hne3⟩ := digit_spec (n := n / 64 % 64) (by omega)
    obtain ⟨h4, hne4⟩ := digit_spec (n := n % 64) (by omega)
    have hfirst : UInt8.ofNat (n / 262144 * 4 + n / 4096 % 64 / 16) = a := ofNat_eq (by omega)
    have hsecond : UInt8.ofNat (n / 4096 % 64 % 16 * 16 + n / 64 % 64 / 4) = b :=
      ofNat_eq (by omega)
    have hthird : UInt8.ofNat (n / 64 % 64 % 4 * 64 + n % 64) = c := ofNat_eq (by omega)
    simp only [encode, ← hn, decode?, h1, h2, h3, h4, hne3, hne4, ih, hfirst, hsecond, hthird,
      Option.bind_eq_bind, Option.bind_some, if_false]
  | case2 a b =>
    have ha := a.toNat_lt
    have hb := b.toNat_lt
    obtain ⟨n, hn⟩ : ∃ n, n = a.toNat * 256 + b.toNat := ⟨_, rfl⟩
    obtain ⟨h1, -⟩ := digit_spec (n := n / 1024) (by omega)
    obtain ⟨h2, -⟩ := digit_spec (n := n / 16 % 64) (by omega)
    obtain ⟨h3, hne3⟩ := digit_spec (n := n % 16 * 4) (by omega)
    have hfirst : UInt8.ofNat (n / 1024 * 4 + n / 16 % 64 / 16) = a := ofNat_eq (by omega)
    have hsecond : UInt8.ofNat (n / 16 % 64 % 16 * 16 + n % 16 * 4 / 4) = b :=
      ofNat_eq (by omega)
    simp only [encode, ← hn, decode?, h1, h2, h3, hne3, hfirst, hsecond, Option.bind_eq_bind,
      Option.bind_some, if_false, if_true]
  | case3 a =>
    have ha := a.toNat_lt
    obtain ⟨h1, -⟩ := digit_spec (n := a.toNat / 4) (by omega)
    obtain ⟨h2, -⟩ := digit_spec (n := a.toNat % 4 * 16) (by omega)
    have hfirst : UInt8.ofNat (a.toNat / 4 * 4 + a.toNat % 4 * 16 / 16) = a := ofNat_eq (by omega)
    simp only [encode, decode?, h1, h2, hfirst, Option.bind_eq_bind, Option.bind_some, and_self,
      if_true]
  | case4 => rfl

end MeshProbe.Base64

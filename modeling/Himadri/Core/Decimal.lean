import Mathlib.Data.Char
import Mathlib.Tactic.Common
import Mathlib.Tactic.Ring

/-!
# Digits of a fixed width

The last digits of a number, as many as a field of a text has room for. Fields of one width compare
like the numbers in them, character by character (`padded_append_lt`), and what follows the fields
decides only where the fields agree. At the root namespace: nothing here belongs to one format.
-/

namespace Decimal

/-- The digit of a number below ten. -/
def digit (n : ℕ) : Char := Char.ofNat ('0'.toNat + n)

/-- The last `w` digits of a number. -/
def padded : ℕ → ℕ → List Char
  | 0, _ => []
  | w + 1, n => padded w (n / 10) ++ [digit (n % 10)]

theorem digit_lt_digit {n m : ℕ} (h : n < m) (hm : m < 10) : digit n < digit m := by
  have hall : ∀ m < 10, ∀ n < m, digit n < digit m := by decide
  exact hall m hm n h

theorem lt_digit {c : Char} (hc : c < '0') {n : ℕ} (hn : n < 10) : c < digit n := by
  have hall : ∀ n < 10, '0' ≤ digit n := by decide
  exact lt_of_lt_of_le hc (hall n hn)

/-- **Fields of one width compare like the numbers in them**, whatever follows. -/
theorem padded_append_lt {w n m : ℕ} (h : n < m) (hm : m < 10 ^ w) (xs ys : List Char) :
    padded w n ++ xs < padded w m ++ ys := by
  induction w generalizing n m xs ys with
  | zero =>
    rw [pow_zero] at hm
    omega
  | succ w ih =>
    rw [pow_succ] at hm
    rw [padded, padded, List.append_assoc, List.append_assoc]
    rcases Nat.lt_or_ge (n / 10) (m / 10) with hlt | hge
    · exact ih hlt (by omega) _ _
    · have heq : n / 10 = m / 10 := by omega
      rw [heq]
      refine List.append_left_lt (List.cons_lt_cons_iff.2 (.inl ?_))
      exact digit_lt_digit (by omega) (by omega)

/-- A character that comes before the digits comes before a field. -/
theorem cons_lt_padded {c : Char} (hc : c < '0') (w n : ℕ) (xs ys : List Char) :
    c :: xs < padded (w + 1) n ++ ys := by
  induction w generalizing n ys with
  | zero => exact List.cons_lt_cons_iff.2 (.inl (lt_digit hc (Nat.mod_lt n (by omega))))
  | succ w ih =>
    rw [padded, List.append_assoc]
    exact ih (n / 10) _

/-- A field is its leading digits and then the others. -/
theorem padded_add (w v n : ℕ) : padded (w + v) n = padded w (n / 10 ^ v) ++ padded v n := by
  induction v generalizing n with
  | zero => rw [Nat.add_zero, pow_zero, Nat.div_one, padded, List.append_nil]
  | succ v ih =>
    rw [← Nat.add_assoc, padded, padded, ih, Nat.div_div_eq_div_mul, pow_succ', List.append_assoc]

/-- Fractions of a unit of `10 ^ k` parts from which zeros at the end are dropped compare like the
numbers of parts, if the character that ends them comes before the digits. -/
theorem fraction_append_lt {k w p w' p' n m : ℕ} (hk : w + p = k) (hk' : w' + p' = k)
    (hn : 10 ^ p ∣ n) (hm : 10 ^ p' ∣ m) (h : n < m) (hmax : m < 10 ^ k) {c : Char} (hc : c < '0')
    (xs ys : List Char) :
    padded w (n / 10 ^ p) ++ c :: xs < padded w' (m / 10 ^ p') ++ ys := by
  have hpos (i : ℕ) : 0 < 10 ^ i := Nat.pow_pos (by omega)
  have hbound {i j : ℕ} (hij : i + j = k) : m / 10 ^ j < 10 ^ i := by
    rw [Nat.div_lt_iff_lt_mul (hpos j), ← pow_add, hij]
    exact hmax
  rcases Nat.le_total p' p with hp | hp
  · -- the second fraction goes on
    obtain ⟨v, rfl⟩ := Nat.exists_eq_add_of_le hp
    obtain rfl : w' = w + v := by omega
    rw [padded_add, Nat.div_div_eq_div_mul, ← pow_add, List.append_assoc]
    rcases Nat.lt_or_ge (n / 10 ^ (p' + v)) (m / 10 ^ (p' + v)) with hlt | hge
    · exact padded_append_lt hlt (hbound hk) _ _
    · have heq : n / 10 ^ (p' + v) = m / 10 ^ (p' + v) :=
        Nat.le_antisymm (Nat.div_le_div_right h.le) hge
      rw [heq]
      rcases v with - | v
      · have hsame : n = m := by
          rw [← Nat.div_mul_cancel hn, ← Nat.div_mul_cancel hm]
          exact congrArg (· * 10 ^ p') heq
        omega
      · exact List.append_left_lt (cons_lt_padded hc v _ _ _)
  · -- the first one goes on
    obtain ⟨v, rfl⟩ := Nat.exists_eq_add_of_le hp
    obtain rfl : w = w' + v := by omega
    rw [padded_add, Nat.div_div_eq_div_mul, ← pow_add, List.append_assoc]
    refine padded_append_lt ?_ (hbound hk') _ _
    rw [Nat.div_lt_iff_lt_mul (hpos _), Nat.div_mul_cancel hm]
    exact h

end Decimal

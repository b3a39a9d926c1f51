import Himadri.Core.Decimal
import Mathlib.Data.Prod.Lex
import Mathlib.Data.Set.Function
import Mathlib.Tactic.Linarith

/-!
# Instants and their RFC 3339 text

`DateTime<Utc>` of `chrono`: its order, and the text `to_rfc3339` gives it. From the year 0 to the
year 9999 the texts sort like the instants, however many digits their fractions have
(`toRfc3339_lt_toRfc3339_iff`). A later year is written with a sign, and its text sorts before all
of those (`toRfc3339_lt_of_lt_year`).
-/

open Decimal

namespace Chrono

/-! ### Instants -/

/-- The days of the months of a year. -/
def monthLengths (year : ℤ) : List ℕ :=
  [31, if year % 4 = 0 ∧ (year % 100 ≠ 0 ∨ year % 400 = 0) then 29 else 28,
    31, 30, 31, 30, 31, 31, 30, 31, 30, 31]

/-- `DateTime<Utc>`. -/
@[ext]
structure DateTime where
  year : ℤ
  /-- The day of the year, from one. -/
  ordinal : ℕ
  secs : ℕ
  /-- The nanoseconds of the second, which goes on in a leap second. -/
  frac : ℕ
  ordinal_pos : 0 < ordinal
  ordinal_le : ordinal ≤ (monthLengths year).sum
  secs_lt : secs < 86400
  frac_lt : frac < 2000000000
  leap : 1000000000 ≤ frac → secs % 60 = 59

namespace DateTime

/-- What instants are compared by. -/
def key (t : DateTime) : ℤ ×ₗ ℕ ×ₗ ℕ ×ₗ ℕ :=
  toLex (t.year, toLex (t.ordinal, toLex (t.secs, t.frac)))

theorem key_injective : Function.Injective key := by
  intro t u h
  obtain ⟨hyear, hrest⟩ := Prod.ext_iff.1 (toLex.injective h)
  obtain ⟨hordinal, hrest⟩ := Prod.ext_iff.1 (toLex.injective hrest)
  obtain ⟨hsecs, hfrac⟩ := Prod.ext_iff.1 (toLex.injective hrest)
  exact DateTime.ext hyear hordinal hsecs hfrac

instance : LinearOrder DateTime := LinearOrder.lift' key key_injective

theorem lt_iff {t u : DateTime} :
    t < u ↔ t.year < u.year ∨ t.year = u.year ∧ (t.ordinal < u.ordinal ∨
      t.ordinal = u.ordinal ∧ (t.secs < u.secs ∨ t.secs = u.secs ∧ t.frac < u.frac)) := by
  show t.key < u.key ↔ _
  simp only [key, Prod.Lex.toLex_lt_toLex]

/-- The instant is written with a year of four digits. -/
def FourDigitYear (t : DateTime) : Prop := 0 ≤ t.year ∧ t.year ≤ 9999

instance (t : DateTime) : Decidable t.FourDigitYear := instDecidableAnd

/-- The instant is written with a year of four digits and is one of whole microseconds. -/
structure Plain (t : DateTime) : Prop where
  year : t.FourDigitYear
  micros : t.frac % 1000 = 0
  noLeap : t.frac < 1000000000

end DateTime

/-! ### The text -/

/-- The months before a day, and the day in its month. -/
def monthDay : List ℕ → ℕ → ℕ × ℕ
  | [], d => (0, d)
  | l :: ls, d => if d ≤ l then (0, d) else ((monthDay ls (d - l)).1 + 1, (monthDay ls (d - l)).2)

/-- The year, with its sign where it has not four digits. -/
def yearText (year : ℤ) : List Char :=
  if 0 ≤ year ∧ year ≤ 9999 then padded 4 year.toNat
  else
    (if year < 0 then '-' else '+') ::
      if year.natAbs < 10000 then padded 4 year.natAbs else Nat.toDigits 10 year.natAbs

theorem DateTime.FourDigitYear.yearText_eq {t : DateTime} (h : t.FourDigitYear) :
    yearText t.year = padded 4 t.year.toNat := if_pos h

/-- The fraction of a second, in as few groups of three digits as it takes. -/
def fractionText (f : ℕ) : List Char :=
  if f = 0 then []
  else if f % 1000000 = 0 then '.' :: padded 3 (f / 1000000)
  else if f % 1000 = 0 then '.' :: padded 6 (f / 1000)
  else '.' :: padded 9 f

/-- `DateTime::to_rfc3339`. -/
def toRfc3339 (t : DateTime) : String :=
  let date := monthDay (monthLengths t.year) t.ordinal
  .ofList (yearText t.year ++ '-' :: (padded 2 (date.1 + 1) ++ '-' :: (padded 2 date.2 ++
    'T' :: (padded 2 (t.secs / 3600) ++ ':' :: (padded 2 (t.secs / 60 % 60) ++
      ':' :: (padded 2 (t.secs % 60 + t.frac / 1000000000) ++
        (fractionText (t.frac % 1000000000) ++ ['+', '0', '0', ':', '0', '0'])))))))

/-! ### The order of the texts -/

theorem monthDay_lt (ls : List ℕ) {d d' : ℕ} (h : d < d') :
    (monthDay ls d).1 < (monthDay ls d').1 ∨
      (monthDay ls d).1 = (monthDay ls d').1 ∧ (monthDay ls d).2 < (monthDay ls d').2 := by
  induction ls generalizing d d' with
  | nil => exact .inr ⟨rfl, h⟩
  | cons l ls ih =>
    simp only [monthDay]
    split <;> split
    · exact .inr ⟨rfl, h⟩
    · exact .inl (Nat.succ_pos _)
    · omega
    · have hless : d - l < d' - l := by omega
      have hrest := ih hless
      omega

theorem monthDay_bounds {ls : List ℕ} {d : ℕ} (hls : ∀ l ∈ ls, l ≤ 31) (hd : d ≤ ls.sum) :
    (monthDay ls d).1 ≤ ls.length ∧ (monthDay ls d).2 ≤ 31 := by
  induction ls generalizing d with
  | nil =>
    have hzero : d = 0 := by simpa using hd
    simp [monthDay, hzero]
  | cons l ls ih =>
    rw [List.sum_cons] at hd
    rw [List.forall_mem_cons] at hls
    have hrest := ih (d := d - l) hls.2 (by omega)
    simp only [monthDay, List.length_cons]
    split <;> dsimp only <;> omega

theorem DateTime.monthDay_bounds (t : DateTime) :
    (monthDay (monthLengths t.year) t.ordinal).1 < 13 ∧
      (monthDay (monthLengths t.year) t.ordinal).2 < 32 := by
  have hlengths : ∀ l ∈ monthLengths t.year, l ≤ 31 := by
    unfold monthLengths
    split <;> decide
  have hbounds := Chrono.monthDay_bounds hlengths t.ordinal_le
  have hlength : (monthLengths t.year).length = 12 := rfl
  omega

theorem fractionText_eq {f : ℕ} (hf : f ≠ 0) :
    ∃ w p, w + p = 9 ∧ 10 ^ p ∣ f ∧ fractionText f = '.' :: padded w (f / 10 ^ p) := by
  rw [fractionText, if_neg hf]
  split
  · next h => exact ⟨3, 6, rfl, Nat.dvd_of_mod_eq_zero h, rfl⟩
  · split
    · next h => exact ⟨6, 3, rfl, Nat.dvd_of_mod_eq_zero h, rfl⟩
    · exact ⟨9, 0, rfl, one_dvd _, by rw [pow_zero, Nat.div_one]⟩

/-- A longer fraction sorts where its digits put it, and no fraction before all of them. -/
theorem fractionText_lt {f g : ℕ} (h : f < g) (hg : g < 1000000000) (xs ys : List Char) :
    fractionText f ++ '+' :: xs < fractionText g ++ ys := by
  obtain ⟨w', p', hk', hdvd', htext'⟩ := fractionText_eq (f := g) (by omega)
  rw [htext']
  rcases Nat.eq_zero_or_pos f with rfl | hf
  · exact List.cons_lt_cons_iff.2 (.inl (by decide))
  · obtain ⟨w, p, hk, hdvd, htext⟩ := fractionText_eq (f := f) (by omega)
    rw [htext]
    exact List.cons_lt_cons_iff.2
      (.inr ⟨rfl, fraction_append_lt hk hk' hdvd hdvd' h hg (by decide) xs ys⟩)

/-- Past the same field and the character after it, the rest decides. -/
theorem append_cons_lt {xs ys zs : List Char} (h : ys < zs) (c : Char) :
    xs ++ c :: ys < xs ++ c :: zs :=
  List.append_left_lt (List.cons_lt_cons_iff.2 (.inr ⟨rfl, h⟩))

theorem toRfc3339_lt {t u : DateTime} (ht : t.FourDigitYear) (hu : u.FourDigitYear) (h : t < u) :
    toRfc3339 t < toRfc3339 u := by
  show (toRfc3339 t).toList < (toRfc3339 u).toList
  simp only [toRfc3339, String.toList_ofList]
  rw [ht.yearText_eq, hu.yearText_eq]
  obtain ⟨hyear₀, -⟩ := ht
  obtain ⟨-, hyear₁⟩ := hu
  obtain ⟨hmonth₁, hday₁⟩ := u.monthDay_bounds
  have hsecs₁ := u.secs_lt
  have hfrac₁ := u.frac_lt
  rcases DateTime.lt_iff.1 h with hyear | ⟨hyear, hrest⟩
  · exact padded_append_lt (by omega) (by omega) _ _
  rw [hyear]
  refine append_cons_lt ?_ _
  rcases hrest with hordinal | ⟨hordinal, hrest⟩
  · rcases monthDay_lt (monthLengths u.year) hordinal with hmonth | ⟨hmonth, hday⟩
    · exact padded_append_lt (by omega) (by omega) _ _
    · rw [hmonth]
      exact append_cons_lt (padded_append_lt hday (by omega) _ _) _
  rw [hordinal]
  refine append_cons_lt (append_cons_lt ?_ _) _
  rcases hrest with hsecs | ⟨hsecs, hfrac⟩
  · rcases Nat.lt_or_ge (t.secs / 3600) (u.secs / 3600) with hhour | hhour
    · exact padded_append_lt hhour (by omega) _ _
    have hhour : t.secs / 3600 = u.secs / 3600 := by omega
    rw [hhour]
    refine append_cons_lt ?_ _
    rcases Nat.lt_or_ge (t.secs / 60 % 60) (u.secs / 60 % 60) with hminute | hminute
    · exact padded_append_lt hminute (by omega) _ _
    have hminute : t.secs / 60 % 60 = u.secs / 60 % 60 := by omega
    rw [hminute]
    refine append_cons_lt (padded_append_lt ?_ (by omega) _ _) _
    -- within a minute, only its last second can be a leap second
    have hleap := t.leap
    have hfrac := t.frac_lt
    omega
  · rw [hsecs]
    refine append_cons_lt (append_cons_lt ?_ _) _
    rcases Nat.lt_or_ge (t.frac / 1000000000) (u.frac / 1000000000) with hsecond | hsecond
    · exact padded_append_lt (by omega) (by omega) _ _
    have hsecond : t.frac / 1000000000 = u.frac / 1000000000 := by omega
    rw [hsecond]
    exact List.append_left_lt (fractionText_lt (by omega) (by omega) _ _)

/-- **The texts of instants with years of four digits sort like the instants.** -/
theorem toRfc3339_lt_toRfc3339_iff {t u : DateTime} (ht : t.FourDigitYear) (hu : u.FourDigitYear) :
    toRfc3339 t < toRfc3339 u ↔ t < u := by
  refine ⟨fun h ↦ ?_, toRfc3339_lt ht hu⟩
  rcases lt_trichotomy t u with hlt | rfl | hgt
  · exact hlt
  · exact (String.lt_irrefl _ h).elim
  · exact (String.lt_asymm h (toRfc3339_lt hu ht hgt)).elim

theorem toRfc3339_injOn : Set.InjOn toRfc3339 {t | t.FourDigitYear} := by
  intro t ht u hu heq
  by_contra hne
  rcases lt_or_gt_of_ne hne with hlt | hgt
  · exact String.ne_of_lt (toRfc3339_lt ht hu hlt) heq
  · exact String.ne_of_lt (toRfc3339_lt hu ht hgt) heq.symm

/-- An instant past the year 9999 sorts before the instants with years of four digits. -/
theorem toRfc3339_lt_of_lt_year {t u : DateTime} (ht : t.FourDigitYear) (hu : 9999 < u.year) :
    toRfc3339 u < toRfc3339 t := by
  show (toRfc3339 u).toList < (toRfc3339 t).toList
  simp only [toRfc3339, String.toList_ofList]
  rw [ht.yearText_eq, yearText, if_neg (by omega), if_neg (by omega)]
  exact cons_lt_padded (by decide) 3 _ _ _

end Chrono

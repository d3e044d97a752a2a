import Mathlib.Algebra.BigOperators.Intervals
import Mathlib.Algebra.Order.BigOperators.Group.Finset
import TinyForth.Bulletin

/-!
# Dates and times in order

A date and time is written in digits of fixed width, the longer units first, and the millionths of a
second are left out when there are none.  So the texts have two lengths.  They are in the order of
their characters exactly if the times they show are in the order of time (`precedes_render_iff`,
`before_iff_instant_lt`).

The order of the characters is that of the fields from the year down, because numerals of one width
are in the order of their numbers (`precedes_padded_iff`) and every field has its width.  The text
of a time without millionths is a beginning of the text of each later time in the same second.

The order of time is that of `instant`, a count of millionths of a second that goes through the
months and the leap years of the calendar.  It too is the order of the fields, because the days of a
month all come before the next month, and the days of a year before the next year
(`position_lt_iff`).
-/

namespace TinyForth

namespace Text

/-! ## The order of texts -/

/-- The text comes before the other in the order of code points, character by character. -/
def Precedes (s t : Text) : Prop := List.Lex (fun c d : Char => c.toNat < d.toNat) s t

theorem precedes_cons_iff {c d : Char} {s t : Text} :
    Precedes (c :: s) (d :: t) ↔ c.toNat < d.toNat ∨ c = d ∧ Precedes s t :=
  List.cons_lex_cons_iff

theorem not_precedes_self (t : Text) : ¬ Precedes t t := by
  induction t with
  | nil => exact List.not_lex_nil
  | cons c t ih =>
      rw [precedes_cons_iff]
      rintro (less | ⟨_, later⟩)
      · exact Nat.lt_irrefl _ less
      · exact ih later

/-- Texts that begin with as many characters are in the order of these, and of the rest if these are
the same. -/
theorem precedes_append_iff {a b s t : Text} (same : a.length = b.length) :
    Precedes (a ++ s) (b ++ t) ↔ Precedes a b ∨ a = b ∧ Precedes s t := by
  induction a generalizing b with
  | nil =>
      obtain rfl := List.eq_nil_of_length_eq_zero same.symm
      simp [not_precedes_self]
  | cons c a ih =>
      cases b with
      | nil => cases same
      | cons d b =>
          rw [List.cons_append, List.cons_append, precedes_cons_iff, precedes_cons_iff,
            ih (Nat.succ.inj same), List.cons.injEq]
          tauto

/-! ## Numerals of fixed width -/

theorem length_padded (base width n : Nat) : (padded base width n).length = width := by
  induction width generalizing n with
  | zero => rfl
  | succ width ih => rw [padded, List.length_append, ih, List.length_singleton]

theorem precedes_digitChar_iff {m n : Nat} (hm : m < 10) (hn : n < 10) :
    Precedes [Nat.digitChar m] [Nat.digitChar n] ↔ m < n := by
  have last : ¬ Precedes [] [] := not_precedes_self []
  rw [precedes_cons_iff, Nat.toNat_digitChar_of_lt_ten hm, Nat.toNat_digitChar_of_lt_ten hn]
  simp [last]

theorem digitChar_injective {m n : Nat} (hm : m < 10) (hn : n < 10)
    (h : Nat.digitChar m = Nat.digitChar n) : m = n := by
  have codes := congrArg Char.toNat h
  rw [Nat.toNat_digitChar_of_lt_ten hm, Nat.toNat_digitChar_of_lt_ten hn] at codes
  exact Nat.add_left_cancel codes

theorem div_ten_lt {width n : Nat} (h : n < 10 ^ (width + 1)) : n / 10 < 10 ^ width :=
  Nat.div_lt_of_lt_mul (by rwa [pow_succ, Nat.mul_comm] at h)

/-- A numeral of fixed width tells its number. -/
theorem padded_inj {width m n : Nat} (hm : m < 10 ^ width) (hn : n < 10 ^ width) :
    padded 10 width m = padded 10 width n ↔ m = n := by
  refine ⟨?_, fun same => by rw [same]⟩
  induction width generalizing m n with
  | zero => omega
  | succ width ih =>
      intro h
      obtain ⟨front, last⟩ := List.append_inj' h rfl
      have high := ih (div_ten_lt hm) (div_ten_lt hn) front
      have low := digitChar_injective (Nat.mod_lt m (by decide)) (Nat.mod_lt n (by decide))
        (List.head_eq_of_cons_eq last)
      omega

/-- Numerals of one width are in the order of their numbers. -/
theorem precedes_padded_iff {width m n : Nat} (hm : m < 10 ^ width) (hn : n < 10 ^ width) :
    Precedes (padded 10 width m) (padded 10 width n) ↔ m < n := by
  induction width generalizing m n with
  | zero =>
      rw [pow_zero] at hm hn
      exact iff_of_false (not_precedes_self []) (by omega)
  | succ width ih =>
      have width_eq : (padded 10 width (m / 10)).length = (padded 10 width (n / 10)).length := by
        rw [length_padded, length_padded]
      rw [padded, padded, precedes_append_iff width_eq, ih (div_ten_lt hm) (div_ten_lt hn),
        padded_inj (div_ten_lt hm) (div_ten_lt hn),
        precedes_digitChar_iff (Nat.mod_lt m (by decide)) (Nat.mod_lt n (by decide))]
      omega

/-- Texts that begin with numerals of one width are in the order of the numbers, and of the rest if
the numbers are the same. -/
theorem precedes_field_iff {width m n : Nat} (hm : m < 10 ^ width) (hn : n < 10 ^ width)
    {s t : Text} :
    Precedes (padded 10 width m ++ s) (padded 10 width n ++ t) ↔ m < n ∨ m = n ∧ Precedes s t := by
  have same : (padded 10 width m).length = (padded 10 width n).length := by
    rw [length_padded, length_padded]
  rw [precedes_append_iff same, precedes_padded_iff hm hn, padded_inj hm hn]

end Text

namespace Bulletin

/-! ## The calendar -/

/-- Every fourth year is a leap year, but of the full centuries only every fourth. -/
def isLeapYear (year : Nat) : Bool := year % 4 == 0 && (year % 100 != 0 || year % 400 == 0)

/-- The days of a month. -/
def daysInMonth (year month : Nat) : Nat :=
  if month = 2 then if isLeapYear year then 29 else 28
  else if month = 4 ∨ month = 6 ∨ month = 9 ∨ month = 11 then 30
  else 31

theorem daysInMonth_le (year month : Nat) : daysInMonth year month ≤ 31 := by
  unfold daysInMonth
  split_ifs <;> decide

/-- The days of a year. -/
def daysInYear (year : Nat) : Nat := if isLeapYear year then 366 else 365

/-- The place of a part of a unit, when units of the given lengths follow each other and the first
unit and the first part of a unit have the number 1. -/
def position (length : Nat → Nat) (unit part : Nat) : Nat :=
  ∑ k ∈ Finset.Ico 1 unit, length k + part

theorem position_mono (length : Nat → Nat) {m n : Nat} (hm : 1 ≤ m) (less : m < n) :
    position length m (length m) ≤ position length n 0 := by
  rw [position, position, ← Finset.sum_Ico_succ_top hm, Nat.add_zero]
  exact Finset.sum_le_sum_of_subset_of_nonneg (Finset.Ico_subset_Ico_right less)
    fun _ _ _ => Nat.zero_le _

/-- Parts of units are in the order of the units, and of the parts in one unit. -/
theorem position_lt_iff (length : Nat → Nat) {m n d e : Nat} (hm : 1 ≤ m) (hn : 1 ≤ n)
    (hd : 1 ≤ d ∧ d ≤ length m) (he : 1 ≤ e ∧ e ≤ length n) :
    position length m d < position length n e ↔ m < n ∨ m = n ∧ d < e := by
  have up := fun less => position_mono length (n := n) hm less
  have down := fun less => position_mono length (n := m) hn less
  simp only [position] at *
  rcases Nat.lt_trichotomy m n with less | rfl | less
  · have := up less
    omega
  · omega
  · have := down less
    omega

/-- The months make up the year. -/
theorem position_month_le {year month day : Nat} (hm : 1 ≤ month ∧ month ≤ 12)
    (hd : day ≤ daysInMonth year month) :
    position (daysInMonth year) month day ≤ daysInYear year := by
  have whole : position (daysInMonth year) 13 0 = daysInYear year := by
    simp only [position, Finset.sum_Ico_eq_sum_range, Finset.sum_range_succ, daysInMonth,
      daysInYear]
    split <;> rfl
  have := position_mono (daysInMonth year) hm.1 (show month < 13 by omega)
  simp only [position] at *
  omega

namespace DateTime

/-- A day of the calendar, and a time of day. -/
structure Valid (t : DateTime) : Prop where
  year : 1 ≤ t.year ∧ t.year ≤ 9999
  month : 1 ≤ t.month ∧ t.month ≤ 12
  day : 1 ≤ t.day ∧ t.day ≤ daysInMonth t.year t.month
  hour : t.hour < 24
  minute : t.minute < 60
  second : t.second < 60
  microsecond : t.microsecond < 1000000

theorem valid_iff (t : DateTime) : t.Valid ↔
    (1 ≤ t.year ∧ t.year ≤ 9999) ∧ (1 ≤ t.month ∧ t.month ≤ 12) ∧
      (1 ≤ t.day ∧ t.day ≤ daysInMonth t.year t.month) ∧ t.hour < 24 ∧ t.minute < 60 ∧
        t.second < 60 ∧ t.microsecond < 1000000 :=
  ⟨fun ⟨y, m, d, h, i, s, u⟩ => ⟨y, m, d, h, i, s, u⟩,
    fun ⟨y, m, d, h, i, s, u⟩ => ⟨y, m, d, h, i, s, u⟩⟩

instance (t : DateTime) : Decidable t.Valid := decidable_of_iff _ (valid_iff t).symm

/-- The fields, from the year down. -/
def fields (t : DateTime) : List Nat :=
  [t.year, t.month, t.day, t.hour, t.minute, t.second, t.microsecond]

/-- The first field that is not the same is less. -/
def Before (a b : DateTime) : Prop := List.Lex (· < ·) a.fields b.fields

/-- The number of the day, where the first day of the year 1 has the number 1. -/
def dayNumber (t : DateTime) : Nat :=
  position daysInYear t.year (position (daysInMonth t.year) t.month t.day)

/-- The millionths of a second that have passed since the start of the day before the first. -/
def instant (t : DateTime) : Nat :=
  (((t.dayNumber * 24 + t.hour) * 60 + t.minute) * 60 + t.second) * 1000000 + t.microsecond

variable {a b : DateTime}

theorem before_iff : a.Before b ↔
    a.year < b.year ∨ a.year = b.year ∧ (a.month < b.month ∨ a.month = b.month ∧
      (a.day < b.day ∨ a.day = b.day ∧ (a.hour < b.hour ∨ a.hour = b.hour ∧
        (a.minute < b.minute ∨ a.minute = b.minute ∧ (a.second < b.second ∨ a.second = b.second ∧
          a.microsecond < b.microsecond))))) := by
  simp only [Before, fields, List.cons_lex_cons_iff, List.not_lex_nil, and_false, or_false]

/-! ## The order of time -/

theorem Valid.positive_day (h : a.Valid) :
    1 ≤ position (daysInMonth a.year) a.month a.day ∧
      position (daysInMonth a.year) a.month a.day ≤ daysInYear a.year := by
  refine ⟨?_, position_month_le h.month h.day.2⟩
  have := h.day.1
  rw [position]
  omega

theorem dayNumber_lt_iff (ha : a.Valid) (hb : b.Valid) :
    a.dayNumber < b.dayNumber ↔ a.year < b.year ∨ a.year = b.year ∧
      (a.month < b.month ∨ a.month = b.month ∧ a.day < b.day) := by
  rw [dayNumber, dayNumber,
    position_lt_iff daysInYear ha.year.1 hb.year.1 ha.positive_day hb.positive_day]
  refine or_congr_right (and_congr_right fun same => ?_)
  have day := hb.day
  rw [← same] at day ⊢
  exact position_lt_iff (daysInMonth a.year) ha.month.1 hb.month.1 ha.day day

/-- One time is before another by the fields exactly if it is by the millionths of a second. -/
theorem before_iff_instant_lt (ha : a.Valid) (hb : b.Valid) :
    a.Before b ↔ a.instant < b.instant := by
  have less := dayNumber_lt_iff ha hb
  have more := dayNumber_lt_iff hb ha
  obtain ⟨_, _, _, hour, minute, second, microsecond⟩ := ha
  obtain ⟨_, _, _, hour', minute', second', microsecond'⟩ := hb
  rw [before_iff, instant, instant]
  omega

/-! ## The order of the texts -/

/-- The millionths as they are written. -/
def fraction (microsecond : Nat) : Text :=
  if microsecond = 0 then [] else '.' :: Text.padded 10 6 microsecond

theorem render_eq (t : DateTime) : t.render =
    Text.padded 10 4 t.year ++ '-' :: (Text.padded 10 2 t.month ++ '-' :: (Text.padded 10 2 t.day ++
      'T' :: (Text.padded 10 2 t.hour ++ ':' :: (Text.padded 10 2 t.minute ++
        ':' :: (Text.padded 10 2 t.second ++ fraction t.microsecond))))) := by
  simp [render, fraction]

theorem precedes_mark_iff {c : Char} {s t : Text} :
    Text.Precedes (c :: s) (c :: t) ↔ Text.Precedes s t := by
  simp [Text.precedes_cons_iff]

/-- No millionths are less than some, and the text that is left out comes before any other. -/
theorem precedes_fraction_iff {m n : Nat} (hm : m < 1000000) (hn : n < 1000000) :
    Text.Precedes (fraction m) (fraction n) ↔ m < n := by
  unfold fraction
  split
  next zero =>
    split
    next zero' => exact iff_of_false (Text.not_precedes_self []) (by omega)
    next => exact iff_of_true .nil (by omega)
  next =>
    split
    next zero' => exact iff_of_false List.not_lex_nil (by omega)
    next => rw [precedes_mark_iff, Text.precedes_padded_iff hm hn]

/-- The fields of a date and time fit the widths they are written in. -/
theorem Valid.fits (h : a.Valid) :
    a.year < 10 ^ 4 ∧ a.month < 10 ^ 2 ∧ a.day < 10 ^ 2 ∧ a.hour < 10 ^ 2 ∧ a.minute < 10 ^ 2 ∧
      a.second < 10 ^ 2 := by
  obtain ⟨⟨_, year⟩, ⟨_, month⟩, ⟨_, day⟩, hour, minute, second, _⟩ := h
  have longest := daysInMonth_le a.year a.month
  refine ⟨?_, ?_, ?_, ?_, ?_, ?_⟩ <;> omega

/-- The texts are in the order of the fields. -/
theorem precedes_render_iff (ha : a.Valid) (hb : b.Valid) :
    Text.Precedes a.render b.render ↔ a.Before b := by
  obtain ⟨year, month, day, hour, minute, second⟩ := ha.fits
  obtain ⟨year', month', day', hour', minute', second'⟩ := hb.fits
  rw [render_eq, render_eq, before_iff, Text.precedes_field_iff year year', precedes_mark_iff,
    Text.precedes_field_iff month month', precedes_mark_iff, Text.precedes_field_iff day day',
    precedes_mark_iff, Text.precedes_field_iff hour hour', precedes_mark_iff,
    Text.precedes_field_iff minute minute', precedes_mark_iff,
    Text.precedes_field_iff second second', precedes_fraction_iff ha.microsecond hb.microsecond]

theorem eq_of_not_before (less : ¬ a.Before b) (more : ¬ b.Before a) : a = b := by
  rw [before_iff] at less more
  cases a
  cases b
  simp only [mk.injEq]
  dsimp only at less more
  omega

/-- Dates and times sort by their texts.  The text of one comes before that of another, in the order
of code points, exactly if it is the earlier of the two, which is to say that fewer millionths of a
second have passed, or that the first field that is not the same is less.  The text tells the date
and time. -/
theorem texts_of_times_are_in_order (ha : a.Valid) (hb : b.Valid) :
    (Text.Precedes a.render b.render ↔ a.instant < b.instant) ∧
    (Text.Precedes a.render b.render ↔ a.Before b) ∧
    (a.render = b.render ↔ a = b) := by
  have order := precedes_render_iff ha hb
  refine ⟨order.trans (before_iff_instant_lt ha hb), order, ?_, fun same => by rw [same]⟩
  intro same
  have less : ¬ a.Before b := by
    rw [← order, same]
    exact Text.not_precedes_self b.render
  have more : ¬ b.Before a := by
    rw [← precedes_render_iff hb ha, same]
    exact Text.not_precedes_self b.render
  exact eq_of_not_before less more

/-- The last second of a leap day, and a part of it later. -/
theorem texts_of_leap_day_are_in_order :
    let a : DateTime := ⟨2024, 2, 29, 23, 59, 59, 0⟩
    let b : DateTime := ⟨2024, 2, 29, 23, 59, 59, 70⟩
    a.Valid ∧ b.Valid ∧ a.render = "2024-02-29T23:59:59".toList ∧
      b.render = "2024-02-29T23:59:59.000070".toList ∧ a.instant < b.instant ∧
      Text.Precedes a.render b.render ∧ ¬ Text.Precedes b.render a.render := by
  intro a b
  have ha : a.Valid := by decide
  have hb : b.Valid := by decide
  obtain ⟨byInstant, byFields, _⟩ := texts_of_times_are_in_order ha hb
  obtain ⟨_, byFields', _⟩ := texts_of_times_are_in_order hb ha
  have precedes := byFields.mpr (before_iff.mpr (by decide))
  refine ⟨ha, hb, by decide, by decide, byInstant.mp precedes, precedes, ?_⟩
  rw [byFields', before_iff]
  decide

end DateTime

end Bulletin

end TinyForth

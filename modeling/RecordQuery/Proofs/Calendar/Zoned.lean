import RecordQuery.Proofs.Calendar.Reach
import RecordQuery.Proofs.Calendar.Text

/-!
# Instants that are written with an offset

A text may name an instant by what a clock shows that is not set to universal time, and say how far
the clock is ahead (`ZonedTime`).  The instant is the one at which the clock shows this: the seconds
of the clock less the offset, counted from the midnight of its date, which may lie on the day before
or on the day behind (`ZonedTime.day`).

*Reading.*  Both grammars read such a text as that instant (`ZonedTime.ofStored?_text`,
`ZonedTime.exists_ofLiteral?_text`), the strict one if the year has four digits.  Far from the ends
of the calendar there is one (`ZonedTime.exists_instant`).

*Bare dates.*  The text of a date is no instant of the strict grammar, and so it names the midnight
of the date (`Date.ofLiteral?_text`).
-/

namespace RecordQuery

open Text

/-! ## Fields of fixed width -/

namespace Instant

theorem readNumber?_two_strict {n : Nat} (hn : n < 100) (rest : List Char) :
    readNumber? 2 2 (paddedDigits 2 n ++ rest) = some (n, rest) := by
  rw [← trimLeft_paddedDigits]
  exact readNumber?_two (Nat.le_refl 2) hn rest

theorem readNumber?_year {y : Int} (hfirst : 0 ≤ y) (hlast : y ≤ 9999) (rest : List Char) :
    readNumber? 4 4 (Date.yearChars y ++ rest) = some (y.toNat, rest) := by
  have hlength : (paddedDigits 4 y.toNat).length = 4 :=
    length_paddedDigits (by decide) (by omega)
  rw [Date.yearChars, if_pos ⟨hfirst, hlast⟩, readNumber?_append
    (fun _ => isDigit_of_mem_paddedDigits) (by omega) (by omega) (.inl hlength),
    ofDigitChars_paddedDigits]

end Instant

namespace Date

theorem month_lt (d : Date) : d.month < 100 := Nat.lt_of_le_of_lt d.month_spec.2.1 (by decide)

theorem dayOfMonth_lt (d : Date) : d.dayOfMonth < 100 := by
  obtain ⟨hfirst, hlast, -⟩ := d.month_spec
  have hlength : monthLength d.year d.month ≤ 31 := monthLength_le _ ⟨hfirst, hlast⟩
  have hday := d.dayOfMonth_le
  omega

/-- The fields of a date, one behind the other. -/
theorem chars_append (d : Date) (rest : List Char) :
    d.chars ++ rest = yearChars d.year ++ '-' :: (paddedDigits 2 d.month ++
      '-' :: (paddedDigits 2 d.dayOfMonth ++ rest)) := by
  rw [chars]
  simp only [List.append_assoc, List.cons_append]

end Date

/-! ## Offsets -/

/-- How far a clock is ahead of universal time, as it is written. -/
inductive Zone where
  | universal (mark : Char) (named : mark = 'Z' ∨ mark = 'z')
  /-- A sign and a number of hours and minutes; behind either minus sign the clock is behind. -/
  | offset (sign : Char) (hours minutes : Nat) (signed : sign = '+' ∨ sign = '-' ∨ sign = '−')
    (hours_lt : hours < 24) (minutes_lt : minutes < 60)

namespace Zone

def chars : Zone → List Char
  | universal mark _ => [mark]
  | offset sign hours minutes .. =>
    sign :: (paddedDigits 2 hours ++ ':' :: paddedDigits 2 minutes)

/-- The seconds that the clock is ahead. -/
def seconds : Zone → Int
  | universal .. => 0
  | offset sign hours minutes .. =>
    let seconds : Int := 3600 * hours + 60 * minutes
    if sign = '+' then seconds else -seconds

theorem seconds_bounds (z : Zone) :
    -86400 < z.seconds ∧ z.seconds < 86400 ∧ z.seconds % 60 = 0 := by
  cases z with
  | universal mark named =>
      change -86400 < (0 : Int) ∧ (0 : Int) < 86400 ∧ (0 : Int) % 60 = 0
      decide
  | offset sign hours minutes signed hours_lt minutes_lt =>
      simp only [seconds]
      split <;> omega

/-- An offset is read, whatever the grammar drops between hours and minutes. -/
theorem readOffset?_chars (z : Zone) {gap : List Char → Option (List Char)}
    (hgap : ∀ n, gap (':' :: paddedDigits 2 n) = some (paddedDigits 2 n)) :
    Instant.readOffset? gap z.chars = some (z.seconds, []) := by
  cases z with
  | universal mark named => rw [chars, Instant.readOffset?, if_pos named]; rfl
  | offset sign hours minutes signed hours_lt minutes_lt =>
      have hhours := Instant.readNumber?_two_strict (show hours < 100 by omega)
        (':' :: paddedDigits 2 minutes)
      have hminutes := Instant.readNumber?_two_strict (show minutes < 100 by omega) []
      rw [List.append_nil] at hminutes
      have hmark : ¬(sign = 'Z' ∨ sign = 'z') := by
        rcases signed with rfl | rfl | rfl <;> decide
      rw [chars, Instant.readOffset?, if_neg hmark, if_pos signed]
      refine Instant.read_then hhours (Instant.read_then (hgap minutes) ?_)
      exact Instant.read_then hminutes (if_neg (by omega))

/-- What stands before an offset ends there, and the offset is not the name of universal time. -/
theorem head_chars (z : Zone) :
    ∀ c ∈ z.chars.head?, c.isDigit = false ∧ c ≠ '.' ∧ isBlank c = false ∧ c.toLower ≠ 'u' := by
  intro c hc
  cases z with
  | universal mark named =>
      cases hc
      rcases named with rfl | rfl <;> decide
  | offset sign hours minutes signed hours_lt minutes_lt =>
      cases hc
      rcases signed with rfl | rfl | rfl <;> decide

theorem dropGap_colon (n : Nat) :
    Instant.dropGap (':' :: paddedDigits 2 n) = paddedDigits 2 n := by
  unfold Instant.dropGap
  rw [List.dropWhile_cons_of_pos (by decide)]
  cases hdigits : paddedDigits 2 n with
  | nil => rfl
  | cons d ds =>
      have hd : d.isDigit = true := isDigit_of_mem_paddedDigits (by rw [hdigits]; exact .head _)
      have hcolon : d ≠ ':' := ne_of_isDigit hd (by decide)
      exact List.dropWhile_cons_of_neg (by simp [hcolon, isBlank_of_isDigit hd])

theorem readZone?_chars (z : Zone) :
    Instant.readZone? (trimLeft z.chars) = some (z.seconds, []) := by
  have hread : Instant.readOffset? (fun cs => some (Instant.dropGap cs)) z.chars =
      some (z.seconds, []) := z.readOffset?_chars fun n => congrArg some (dropGap_colon n)
  have htrim : trimLeft z.chars = z.chars := by
    cases hchars : z.chars with
    | nil => rfl
    | cons c cs => exact trimLeft_cons (z.head_chars c (by rw [hchars]; rfl)).2.2.1 cs
  rw [htrim, ← hread]
  unfold Instant.readZone?
  split
  next u t c cs hchars =>
    have hname : u.toLower ≠ 'u' := (z.head_chars u (by rw [hchars]; rfl)).2.2.2
    rw [if_neg fun h => hname h.1, hchars]
  next => rfl

end Zone

/-! ## Clocks -/

/-- What a clock with an offset shows, as it is written. -/
structure ZonedTime where
  date : Date
  /-- The mark between date and time of day. -/
  separator : Char
  hour : Nat
  minute : Nat
  /-- The second of the minute, 60 within a leap second. -/
  second : Nat
  /-- The digits behind the decimal point; without any there is no point. -/
  fraction : List Char
  zone : Zone
  separates : separator = 'T' ∨ separator = 't' ∨ separator = ' '
  hour_lt : hour < 24
  minute_lt : minute < 60
  second_le : second ≤ 60
  isDigit_of_mem_fraction : ∀ c ∈ fraction, c.isDigit = true

namespace ZonedTime

def fractionChars (w : ZonedTime) : List Char :=
  if w.fraction.isEmpty then [] else '.' :: w.fraction

def chars (w : ZonedTime) : List Char :=
  w.date.chars ++ w.separator :: (paddedDigits 2 w.hour ++ ':' :: (paddedDigits 2 w.minute ++
    ':' :: (paddedDigits 2 w.second ++ (w.fractionChars ++ w.zone.chars))))

def text (w : ZonedTime) : String := String.ofList w.chars

/-- The seconds of universal time since the midnight of the date that the clock shows. -/
def seconds (w : ZonedTime) : Int :=
  3600 * w.hour + 60 * w.minute + min w.second 59 - w.zone.seconds

/-- The nanoseconds that the fraction says; digits behind the ninth do not count. -/
def fractionNano (w : ZonedTime) : Nat :=
  Nat.ofDigitChars 10 (w.fraction.take 9) 0 * tenTo (9 - (w.fraction.take 9).length)

def nano (w : ZonedTime) : Nat := w.fractionNano + if w.second = 60 then 1000000000 else 0

/-- The instant at which the clock shows this, if the calendar holds it. -/
def instant? (w : ZonedTime) : Option Instant := Instant.ofSeconds? w.date w.seconds w.nano

/-- The day of universal time, which the offset may move away from the date of the clock. -/
def day (w : ZonedTime) : Int := w.date.day + w.seconds / 86400

variable {w : ZonedTime}

theorem day_of_instant? {i : Instant} (h : w.instant? = some i) : i.date.day = w.day := by
  obtain ⟨hseconds, -⟩ := Instant.ofSeconds?_eq_some_iff.mp h
  have hbound := i.second_lt
  rw [day]
  omega

theorem fractionNano_lt (w : ZonedTime) : w.fractionNano < 1000000000 := by
  have hdigits : Nat.ofDigitChars 10 (w.fraction.take 9) 0 < 10 ^ (w.fraction.take 9).length :=
    ofDigitChars_lt fun c hc => w.isDigit_of_mem_fraction c (List.mem_of_mem_take hc)
  have hlength : (w.fraction.take 9).length ≤ 9 := List.length_take_le _ _
  calc w.fractionNano
      < 10 ^ (w.fraction.take 9).length * 10 ^ (9 - (w.fraction.take 9).length) :=
        Nat.mul_lt_mul_of_pos_right hdigits (Nat.pow_pos (by decide))
    _ = 1000000000 := by rw [← Nat.pow_add, Nat.add_sub_cancel' hlength]

/-- A year inside the calendar, the clock stands at an instant. -/
theorem exists_instant (hfirst : firstYear + 1 ≤ w.date.year)
    (hlast : w.date.year ≤ lastYear - 1) : ∃ i, w.instant? = some i := by
  have hhour := w.hour_lt
  have hminute := w.minute_lt
  obtain ⟨hbehind, hahead, hwhole⟩ := w.zone.seconds_bounds
  have hseconds :
      w.seconds = 3600 * w.hour + 60 * w.minute + min w.second 59 - w.zone.seconds := rfl
  have hnano : w.nano < 2000000000 := by
    have := w.fractionNano_lt
    rw [nano]
    split <;> omega
  have hleap : 1000000000 ≤ w.nano → (w.seconds % 86400).toNat % 60 = 59 := by
    have := w.fractionNano_lt
    rw [nano]
    split <;> omega
  obtain ⟨date, hdate⟩ := Date.exists_step hfirst hlast (n := w.seconds / 86400) (by omega)
    (by omega)
  refine ⟨⟨date, (w.seconds % 86400).toNat, w.nano, by omega, hnano, hleap⟩, ?_⟩
  refine Instant.ofSeconds?_eq_some_iff.mpr ⟨?_, rfl⟩
  simp only
  omega

/-! ## Reading -/

theorem assemble?_eq_instant? (w : ZonedTime) :
    Instant.assemble? w.date.year w.date.month w.date.dayOfMonth w.hour w.minute w.second
      w.fractionNano w.zone.seconds = w.instant? := by
  have hhour := w.hour_lt
  have hminute := w.minute_lt
  have hsecond := w.second_le
  obtain ⟨hbehind, hahead, -⟩ := w.zone.seconds_bounds
  rw [Instant.assemble?, Date.ofCivil?_year_month]
  simp only [Option.bind_eq_bind, Option.bind_some]
  rw [if_neg (by omega), instant?, nano, seconds]
  split
  next hleap => rw [hleap, Nat.min_eq_right (by decide)]
  next hplain => rw [Nat.min_eq_left (by omega), Nat.add_zero]

theorem readFraction?_chars (w : ZonedTime) :
    Instant.readFraction? (w.fractionChars ++ w.zone.chars) =
      some (w.fractionNano, w.zone.chars) := by
  have hend : ∀ c ∈ w.zone.chars.head?, c.isDigit = false := fun c hc => (w.zone.head_chars c hc).1
  unfold fractionChars fractionNano
  split
  next hnone =>
    rw [List.isEmpty_iff.mp hnone, List.nil_append]
    cases hzone : w.zone.chars with
    | nil => rfl
    | cons c rest =>
        rw [Instant.readFraction?]
        · rfl
        · exact fun _ h => (w.zone.head_chars c (by rw [hzone]; rfl)).2.1 (List.cons.inj h).1
  next hsome =>
    rw [List.isEmpty_iff] at hsome
    exact Instant.readFraction?_append w.isDigit_of_mem_fraction hsome hend

theorem expectSeparator?_cons (w : ZonedTime) (rest : List Char) :
    Instant.expectSeparator? (w.separator :: rest) = some rest :=
  if_pos w.separates

theorem fields_lt (w : ZonedTime) : w.hour < 100 ∧ w.minute < 100 ∧ w.second < 100 :=
  ⟨Nat.lt_trans w.hour_lt (by decide), Nat.lt_trans w.minute_lt (by decide),
    Nat.lt_of_le_of_lt w.second_le (by decide)⟩

/-- **A stored text with an offset is read as the instant of the clock.** -/
theorem ofStored?_text (w : ZonedTime) : Instant.ofStored? w.text = w.instant? := by
  obtain ⟨hhour, hminute, hsecond⟩ := w.fields_lt
  have hyear := fun rest => Instant.readYear?_yearChars w.date.year ('-' :: rest) (by simp)
  have htwo : ∀ {n : Nat}, n < 100 → ∀ rest,
      Instant.readNumber? 1 2 (trimLeft (paddedDigits 2 n ++ rest)) = some (n, rest) :=
    Instant.readNumber?_two (by decide)
  have hdash := Instant.expect?_trimLeft (show isBlank '-' = false by decide)
  have hcolon := Instant.expect?_trimLeft (show isBlank ':' = false by decide)
  rw [Instant.ofStored?, text, String.toList_ofList, chars, w.date.chars_append,
    Instant.readLenient?]
  refine Instant.read_then (hyear _) (Instant.read_then (hdash _) ?_)
  refine Instant.read_then (htwo w.date.month_lt _) (Instant.read_then (hdash _) ?_)
  refine Instant.read_then (htwo w.date.dayOfMonth_lt _) ?_
  refine Instant.read_then (w.expectSeparator?_cons _) (Instant.read_then (htwo hhour _) ?_)
  refine Instant.read_then (hcolon _) (Instant.read_then (htwo hminute _) ?_)
  refine Instant.read_then (hcolon _) (Instant.read_then (htwo hsecond _) ?_)
  refine Instant.read_then w.readFraction?_chars ?_
  exact Instant.read_then w.zone.readZone?_chars w.assemble?_eq_instant?

/-- **A literal with an offset is read as the instant of the clock.** -/
theorem exists_ofLiteral?_text (hfirst : 0 ≤ w.date.year) (hlast : w.date.year ≤ 9999) :
    ∃ i, w.instant? = some i ∧ Instant.ofLiteral? w.text = some i := by
  obtain ⟨i, hi⟩ := w.exists_instant (Int.le_trans (by decide) hfirst)
    (Int.le_trans hlast (by decide))
  have hstrict : Instant.readStrict? w.chars = some i := by
    obtain ⟨hhour, hminute, hsecond⟩ := w.fields_lt
    have hyear := fun rest => Instant.readNumber?_year hfirst hlast ('-' :: rest)
    have htwo : ∀ {n : Nat}, n < 100 → ∀ rest,
        Instant.readNumber? 2 2 (paddedDigits 2 n ++ rest) = some (n, rest) :=
      Instant.readNumber?_two_strict
    have hexpect : ∀ c rest, Instant.expect? c (c :: rest) = some rest := fun c rest => if_pos rfl
    have hzone : Instant.readOffset? (Instant.expect? ':') w.zone.chars =
        some (w.zone.seconds, []) := w.zone.readOffset?_chars fun n => hexpect ':' _
    rw [chars, w.date.chars_append, Instant.readStrict?]
    refine Instant.read_then (hyear _) (Instant.read_then (hexpect '-' _) ?_)
    refine Instant.read_then (htwo w.date.month_lt _) (Instant.read_then (hexpect '-' _) ?_)
    refine Instant.read_then (htwo w.date.dayOfMonth_lt _) ?_
    refine Instant.read_then (w.expectSeparator?_cons _) (Instant.read_then (htwo hhour _) ?_)
    refine Instant.read_then (hexpect ':' _) (Instant.read_then (htwo hminute _) ?_)
    refine Instant.read_then (hexpect ':' _) (Instant.read_then (htwo hsecond _) ?_)
    refine Instant.read_then w.readFraction?_chars (Instant.read_then hzone ?_)
    rw [Int.toNat_of_nonneg hfirst]
    exact w.assemble?_eq_instant?.trans hi
  refine ⟨i, hi, ?_⟩
  rw [Instant.ofLiteral?, text, String.toList_ofList, hstrict]
  rfl

end ZonedTime

/-! ## Bare dates -/

namespace Date

/-- The text of a date breaks off where the strict grammar goes on with the time of day. -/
theorem readStrict?_chars (d : Date) : Instant.readStrict? d.chars = none := by
  rw [← List.append_nil d.chars, d.chars_append, Instant.readStrict?]
  by_cases hplain : 0 ≤ d.year ∧ d.year ≤ 9999
  · refine Instant.read_then (Instant.readNumber?_year hplain.1 hplain.2 _) ?_
    refine Instant.read_then rfl ?_
    refine Instant.read_then (Instant.readNumber?_two_strict d.month_lt _) ?_
    refine Instant.read_then rfl ?_
    exact Instant.read_then (Instant.readNumber?_two_strict d.dayOfMonth_lt _) rfl
  · have hsign : ((if d.year < 0 then '-' else '+') : Char).isDigit = false := by split <;> decide
    rw [yearChars, if_neg hplain, List.cons_append, Instant.readNumber?]
    simp [hsign]

theorem readDate?_chars (d : Date) : Instant.readDate? d.chars = some d := by
  have htwo : ∀ {n : Nat}, n < 100 → ∀ rest,
      Instant.readNumber? 1 2 (trimLeft (paddedDigits 2 n ++ rest)) = some (n, rest) :=
    Instant.readNumber?_two (by decide)
  rw [← List.append_nil d.chars, d.chars_append, Instant.readDate?]
  refine Instant.read_then (Instant.readYear?_yearChars d.year _ (by simp)) ?_
  refine Instant.read_then rfl (Instant.read_then (htwo d.month_lt _) ?_)
  exact Instant.read_then rfl (Instant.read_then (htwo d.dayOfMonth_lt _) d.ofCivil?_year_month)

/-- **The text of a date is read as its midnight.** -/
theorem ofLiteral?_text (d : Date) : Instant.ofLiteral? d.text = some (.midnight d) := by
  rw [Instant.ofLiteral?, text, String.toList_ofList, d.readStrict?_chars, d.readDate?_chars]
  rfl

end Date

end RecordQuery

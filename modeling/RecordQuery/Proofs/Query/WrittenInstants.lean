import RecordQuery.Proofs.Calendar.Zoned
import RecordQuery.Proofs.Query.Answer
import RecordQuery.Proofs.Query.Literal

/-!
# Texts that name instants

The text that shows an instant is what a clock in universal time shows when it stands there
(`Instant.text_clock`, `Instant.instant?_clock`): second 60 within a leap second, and as many digits
behind the point as are needed.  In years of four digits it is therefore a literal for the instant
(`Instant.ofLiteral?_text`).  A date of those years is named by its digits, which are the text of
the date (`Date.text_eq`) and mean its midnight.

*Equality.*  Instants are compared by their place in time order, and no two share one
(`Instant.rank_injective`).  So an attribute equals such a text just when it holds the instant that
the text shows (`answer_equal_text_iff`).
-/

namespace RecordQuery

open Text

/-! ## Dates by their digits -/

namespace Date

/-- Four digits of a year, and two of a month and of a day of the month. -/
def digits (year month day : Nat) : List Char :=
  paddedDigits 4 year ++ '-' :: paddedDigits 2 month ++ '-' :: paddedDigits 2 day

/-- The month that begins on a day of the year or before, and ends behind it, is its month. -/
theorem monthOfDay_eq : ∀ leap, ∀ month < 13, 1 ≤ month → ∀ day < 31,
    day < daysBeforeMonth leap (month + 1) - daysBeforeMonth leap month →
      monthOfDay leap (daysBeforeMonth leap month + day) = month := by
  decide +kernel

/-- A day of a month lies in its year. -/
theorem daysBeforeMonth_add_le {year : Int} {month day : Nat} (hmonth : 1 ≤ month)
    (hmonth' : month ≤ 12) (hday : day ≤ monthLength year month) :
    (daysBeforeMonth (isLeapYear year) month + day : Int) ≤ yearLength year := by
  obtain ⟨hbefore, hend⟩ := daysBeforeMonth_lt_succ (isLeapYear year) month (by omega) hmonth
  rw [monthLength] at hday
  rw [yearLength]
  split
  next hleap =>
    rw [if_pos hleap] at hend
    omega
  next hleap =>
    rw [if_neg hleap] at hend
    omega

/-- A date is the date of a year, a month and a day of the month if it has these. -/
theorem ofCivil?_eq_some_iff {year : Int} {month day : Nat} {d : Date} :
    ofCivil? year month day = some d ↔ d.year = year ∧ d.month = month ∧ d.dayOfMonth = day := by
  constructor
  · intro h
    rw [ofCivil?, Option.ite_none_right_eq_some, ofDay?_eq_some_iff] at h
    obtain ⟨⟨hmonth, hmonth', hday, hday'⟩, hd⟩ := h
    have hend := daysBeforeMonth_add_le hmonth hmonth' hday'
    have hyear : d.year = year := by
      refine yearOfDay_eq_iff.mpr ⟨by omega, ?_⟩
      rw [yearStart_succ]
      omega
    have hdayOfYear : d.dayOfYear = daysBeforeMonth (isLeapYear year) month + (day - 1) := by
      rw [dayOfYear, hyear]
      omega
    have hfound : d.month = month := by
      have hshort := monthLength_le year ⟨hmonth, hmonth'⟩
      rw [monthLength] at hday' hshort
      rw [Date.month, hyear, hdayOfYear]
      exact monthOfDay_eq _ month (by omega) hmonth _ (by omega) (by omega)
    refine ⟨hyear, hfound, ?_⟩
    rw [dayOfMonth, hfound, hyear, hdayOfYear]
    omega
  · rintro ⟨rfl, rfl, rfl⟩
    exact d.ofCivil?_year_month

/-- In years of four digits, the text of a date is its digits. -/
theorem text_eq {d : Date} {year : Nat} (hyear : d.year = year) (hlast : year ≤ 9999) :
    d.text = String.ofList (digits year d.month d.dayOfMonth) := by
  rw [text, chars, yearChars, hyear, if_pos ⟨Int.natCast_nonneg _, by omega⟩, Int.toNat_natCast,
    digits]

/-- In years of four digits, every month has a date for each of its days. -/
theorem exists_civil {year month day : Nat} (hlast : year ≤ 9999) (hmonth : 1 ≤ month)
    (hmonth' : month ≤ 12) (hday : 1 ≤ day) (hday' : day ≤ monthLength year month) :
    ∃ d : Date, d.year = year ∧ d.month = month ∧ d.dayOfMonth = day := by
  have hend := daysBeforeMonth_add_le hmonth hmonth' hday'
  have hlow : yearStart 0 ≤ yearStart year := yearStart_le (Int.natCast_nonneg _)
  have hhigh : yearStart (year + 1) ≤ yearStart 10000 := yearStart_le (by omega)
  have hcalendar : firstDay ≤ yearStart 0 ∧ yearStart 10000 ≤ lastDay := by decide
  rw [yearStart_succ] at hhigh
  refine ⟨⟨yearStart year + daysBeforeMonth (isLeapYear year) month + day - 1, by omega,
    by omega⟩, ofCivil?_eq_some_iff.mp ?_⟩
  rw [ofCivil?, if_pos ⟨hmonth, hmonth', hday, hday'⟩, ofDay?_eq_some_iff]

end Date

/-! ## Instants in time order -/

namespace Instant

/-- No two instants share a place in time order. -/
theorem rank_injective {i j : Instant} (h : i.rank = j.rank) : i = j := by
  obtain ⟨d, s, n, hs, hn, hleap⟩ := i
  obtain ⟨e, t, m, ht, hm, hleap'⟩ := j
  simp only [rank] at h
  have hday : d = e := Date.day_injective (by omega)
  have hsecond : s = t := by omega
  have hnano : n = m := by omega
  cases hday
  cases hsecond
  cases hnano
  rfl

theorem compare_eq_eq_iff {i j : Instant} : compare i j = .eq ↔ i = j := by
  change compare i.rank j.rank = .eq ↔ i = j
  rw [Std.LawfulEqOrd.compare_eq_iff_eq]
  exact ⟨rank_injective, congrArg rank⟩

/-! ## Instants by their text -/

/-- A fraction is shown as a point with digits behind it, or not at all. -/
theorem fractionChars_eq (nano : Nat) :
    (if (fractionChars nano).tail.isEmpty then [] else '.' :: (fractionChars nano).tail) =
        fractionChars nano ∧
      ∀ c ∈ (fractionChars nano).tail, c.isDigit = true := by
  have hpadded : ∀ width value, 0 < width →
      (if (paddedDigits width value).isEmpty then [] else '.' :: paddedDigits width value) =
          '.' :: paddedDigits width value ∧
        ∀ c ∈ paddedDigits width value, c.isDigit = true := by
    intro width value hpos
    refine ⟨if_neg fun hempty => ?_, fun _ => isDigit_of_mem_paddedDigits⟩
    have hlength := le_length_paddedDigits width value
    rw [List.isEmpty_iff.mp hempty] at hlength
    exact Nat.not_le.mpr hpos hlength
  unfold fractionChars
  split
  next hnone => exact ⟨rfl, fun _ hc => nomatch hc⟩
  next hsome =>
    split
    · exact hpadded 3 _ (by decide)
    · split
      · exact hpadded 6 _ (by decide)
      · exact hpadded 9 _ (by decide)

/-- Whether an instant lies in a leap second, as the second that is shown on top. -/
def leap (i : Instant) : Nat := if i.nano < 1000000000 then 0 else 1

/-- The nanoseconds that are shown. -/
def shownNano (i : Instant) : Nat := i.nano - i.leap * 1000000000

theorem nano_eq (i : Instant) :
    i.nano = i.shownNano + i.leap * 1000000000 ∧ i.shownNano < 1000000000 ∧ i.leap ≤ 1 ∧
      (i.leap = 1 → i.second % 60 = 59) := by
  have hbound := i.nano_lt
  have hlast := i.leap_second
  rw [shownNano, leap]
  split <;> omega

theorem signed_plus : '+' = '+' ∨ '+' = '-' ∨ '+' = '−' := .inl rfl

theorem separates_mark : 'T' = 'T' ∨ 'T' = 't' ∨ 'T' = ' ' := .inl rfl

theorem shown_bounds (i : Instant) :
    i.second / 3600 < 24 ∧ i.second / 60 % 60 < 60 ∧ i.second % 60 + i.leap ≤ 60 := by
  have hsecond := i.second_lt
  have hnano := i.nano_eq
  omega

/-- The clock in universal time that stands at an instant. -/
def clock (i : Instant) : ZonedTime where
  date := i.date
  separator := 'T'
  hour := i.second / 3600
  minute := i.second / 60 % 60
  second := i.second % 60 + i.leap
  fraction := (fractionChars i.shownNano).tail
  zone := .offset '+' 0 0 signed_plus (Nat.succ_pos 23) (Nat.succ_pos 59)
  separates := separates_mark
  hour_lt := i.shown_bounds.1
  minute_lt := i.shown_bounds.2.1
  second_le := i.shown_bounds.2.2
  isDigit_of_mem_fraction := (fractionChars_eq i.shownNano).2

/-- The clock shows the text of the instant. -/
theorem text_clock (i : Instant) : i.clock.text = i.text := by
  have hfraction : i.clock.fractionChars = fractionChars i.shownNano :=
    (fractionChars_eq i.shownNano).1
  rw [ZonedTime.text, ZonedTime.chars, hfraction, text, localChars, timeChars]
  simp only [List.append_assoc, List.cons_append]
  rfl

/-- The clock stands at the instant. -/
theorem instant?_clock (i : Instant) : i.clock.instant? = some i := by
  obtain ⟨hnano, hshown, hleap, hlast⟩ := i.nano_eq
  -- both writers of the fraction are read back, and they write the same
  have hfraction : i.clock.fractionNano = i.shownNano := by
    have hchars : i.clock.fractionChars = fractionChars i.shownNano :=
      (fractionChars_eq i.shownNano).1
    have hend := i.clock.zone.head_chars
    have hread := i.clock.readFraction?_chars
    rw [hchars, readFraction?_fractionChars hshown _ fun c hc => ⟨(hend c hc).1, (hend c hc).2.1⟩]
      at hread
    exact (congrArg Prod.fst (Option.some.inj hread)).symm
  have hzone : i.clock.zone.seconds = 0 := rfl
  have hhour : i.clock.hour = i.second / 3600 := rfl
  have hminute : i.clock.minute = i.second / 60 % 60 := rfl
  have hsecond : i.clock.second = i.second % 60 + i.leap := rfl
  have hdate : i.clock.date.day = i.date.day := rfl
  refine ofSeconds?_eq_some_iff.mpr ⟨?_, ?_⟩
  · rw [ZonedTime.seconds, hzone, hhour, hminute, hsecond, hdate]
    omega
  · rw [ZonedTime.nano, hfraction]
    split <;> omega

/-- **The text that shows an instant is a literal for it**, in years of four digits. -/
theorem ofLiteral?_text {i : Instant} (hfirst : 0 ≤ i.date.year) (hlast : i.date.year ≤ 9999) :
    ofLiteral? i.text = some i := by
  obtain ⟨j, hj, hread⟩ := i.clock.exists_ofLiteral?_text hfirst hlast
  rw [← i.text_clock, hread, ← hj, i.instant?_clock]

end Instant

/-! ## Equality with a text -/

section Equality

variable {e : Entity} {ctx : Context} {row : Record} {name s : String} {i t : Instant}

/-- An attribute of instants has the key of the instant that it holds, and no other key. -/
theorem Key.ofColumn_dateTime_iff {column : String} {k : Key} :
    Key.ofColumn row column (some .dateTime) = .ok (some k) ↔
      ∃ v t, row.get? column = some v ∧ v.unaliased = .instant t ∧ k = .instant t := by
  unfold Key.ofColumn
  cases hvalue : row.get? column with
  | none => simp
  | some v =>
      have hfits : k.fits .dateTime = true ↔ ∃ t, k = .instant t := by
        cases k <;> simp [Key.fits]
      have hinstant : ∀ t, Key.ofValue column v = .ok (some (.instant t)) ↔
          v.unaliased = .instant t := by
        intro t
        unfold Key.ofValue
        cases v.unaliased <;> simp [map_eq_ok_iff]
      simp only [Key.ofStored_eq_some_iff, hfits]
      constructor
      · rintro ⟨hkey, t, rfl⟩
        exact ⟨v, t, rfl, (hinstant t).mp hkey, rfl⟩
      · rintro ⟨w, t, hw, hplain, rfl⟩
        cases hw
        exact ⟨(hinstant t).mpr hplain, t, rfl⟩

theorem Key.equal_instant (caseSensitive : Bool) (t i : Instant) :
    Key.equal caseSensitive (.instant t) (.instant i) = decide (t = i) := by
  refine decide_eq_decide.mpr ?_
  rw [Key.compare?, Option.some.injEq]
  exact Instant.compare_eq_eq_iff

/-- A text that is read as an instant is compiled to the test for that instant. -/
theorem Condition.testOf_equal_text (hread : Instant.ofLiteral? s = some i) :
    Condition.testOf ctx name (some .dateTime) (.equal true) [.text s] =
      .ok (.equalsAny [.instant i], true) := by
  have hliteral : Key.ofLiteral name (some .dateTime) (.text s) = .ok (.instant i) := by
    simp only [Key.ofLiteral, Key.ofTypedLiteral, Value.unaliased, Key.instantLiteral?, hread]
    rfl
  simp only [Condition.testOf, List.mapM_cons, List.mapM_nil, hliteral]
  rfl

/-- **An attribute that holds an instant equals a text just when that is read as the instant.** -/
theorem HoldsInstant.answer_equal_text (h : HoldsInstant e row name t)
    (hread : Instant.ofLiteral? s = some i) :
    e.answer ctx row name (.equal true) [.text s] = .ok (decide (t = i)) := by
  rw [h.answer_eq_holds rfl (Condition.testOf_equal_text hread)]
  simp only [Test.holds, Test.equalsAnyOf, List.any_cons, List.any_nil, Key.equal_instant,
    Bool.or_false]
  rfl

/-- Nothing but the instant passes. -/
theorem answer_equal_text_iff (htype : e.typeOf? (lowercase name) = some .dateTime)
    (hread : Instant.ofLiteral? s = some i) :
    e.answer ctx row name (.equal true) [.text s] = .ok true ↔ HoldsInstant e row name i := by
  constructor
  · intro h
    obtain ⟨compiled, hcompiled, hrow⟩ := bind_eq_ok_iff.mp h
    obtain ⟨-, -, test, expected, htest, rfl⟩ := Condition.compileFor_eq_ok_iff.mp hcompiled
    rw [htype] at htest
    cases htest.symm.trans (Condition.testOf_equal_text hread)
    obtain ⟨key, hkey, hrow⟩ := bind_eq_ok_iff.mp hrow
    rw [CompiledCondition.keyOf, htype] at hkey
    cases key with
    | none => cases hrow
    | some k =>
        obtain ⟨v, t, hvalue, hplain, rfl⟩ := Key.ofColumn_dateTime_iff.mp hkey
        have hholds : HoldsInstant e row name t := ⟨htype, v, hvalue, hplain⟩
        rw [hholds.answer_equal_text hread, Except.ok.injEq, decide_eq_true_iff] at h
        exact h ▸ hholds
  · intro h
    rw [h.answer_equal_text hread, decide_eq_true rfl]

end Equality

/-- **What is shown is a literal.**  In years of four digits, the text that shows an instant is read
as the instant, whatever its fraction, so an attribute equals the text just when it holds that
instant; and the digits of a date are read as the start of that date. -/
theorem Instant.display_isLiteral :
    (∀ i : Instant, 0 ≤ i.date.year → i.date.year ≤ 9999 →
      Instant.ofLiteral? (Value.instant i).display = some i ∧
        ∀ (e : Entity) (ctx : Context) (row : Record) (name : String),
          e.typeOf? (lowercase name) = some .dateTime →
            (e.answer ctx row name (.equal true) [.text (Value.instant i).display] = .ok true ↔
              HoldsInstant e row name i) ∧
            ∀ t, HoldsInstant e row name t →
              e.answer ctx row name (.equal true) [.text (Value.instant i).display] =
                .ok (decide (t = i))) ∧
      ∀ year month day : Nat, year ≤ 9999 → 1 ≤ month → month ≤ 12 → 1 ≤ day →
        day ≤ monthLength year month →
          ∃ t : Instant, Instant.ofLiteral? (String.ofList (Date.digits year month day)) = some t ∧
            (t.date.year = year ∧ t.date.month = month ∧ t.date.dayOfMonth = day) ∧
            t.second = 0 ∧ t.nano = 0 := by
  constructor
  · intro i hfirst hlast
    have hread : Instant.ofLiteral? (Value.instant i).display = some i :=
      Instant.ofLiteral?_text hfirst hlast
    exact ⟨hread, fun e ctx row name htype =>
      ⟨answer_equal_text_iff htype hread, fun t h => h.answer_equal_text hread⟩⟩
  · intro year month day hlast hmonth hmonth' hday hday'
    obtain ⟨d, hyear, rfl, rfl⟩ := Date.exists_civil hlast hmonth hmonth' hday hday'
    have hread : Instant.ofLiteral? (String.ofList (Date.digits year d.month d.dayOfMonth)) =
        some (.midnight d) := by
      rw [← Date.text_eq hyear hlast, d.ofLiteral?_text]
    exact ⟨.midnight d, hread, ⟨hyear, rfl, rfl⟩, rfl, rfl⟩

namespace Sample

/-- Half a second into a leap second at the end of 29 February of the year 2000. -/
def leapDayEnd : Instant :=
  ⟨⟨730178, by decide, by decide⟩, 86399, 1500000000, by decide, by decide, by decide⟩

/-- Of two rows, the one that holds the instant equals its text; the digits of its date name the
midnight of that date. -/
theorem display_isLiteral_leapDayEnd :
    (Value.instant leapDayEnd).display = "2000-02-29T23:59:60.500+00:00" ∧
      acquaintance.answer ctx (ada.set "met" (.instant leapDayEnd)) "met" (.equal true)
        [.text (Value.instant leapDayEnd).display] = .ok true ∧
      acquaintance.answer ctx (ada.set "met" (.instant (.midnight leapDayEnd.date))) "met"
        (.equal true) [.text (Value.instant leapDayEnd).display] = .ok false ∧
      Date.digits 2000 2 29 = "2000-02-29".toList ∧
      Instant.ofLiteral? "2000-02-29" = some (.midnight leapDayEnd.date) := by
  obtain ⟨hinstants, hdates⟩ := Instant.display_isLiteral
  have hholds : ∀ t, HoldsInstant acquaintance (ada.set "met" (.instant t)) "met" t :=
    fun t => ⟨rfl, .instant t, rfl, rfl⟩
  obtain ⟨-, hequal⟩ := hinstants leapDayEnd (by decide +kernel) (by decide +kernel)
  obtain ⟨hsame, -⟩ := hequal acquaintance ctx (ada.set "met" (.instant leapDayEnd)) "met" rfl
  obtain ⟨-, hother⟩ :=
    hequal acquaintance ctx (ada.set "met" (.instant (.midnight leapDayEnd.date))) "met" rfl
  obtain ⟨t, hread, ⟨hyear, hmonth, hday⟩, hsecond, hnano⟩ :=
    hdates 2000 2 29 (by decide) (by decide) (by decide) (by decide) (by decide)
  have hdate : t.date = leapDayEnd.date := by
    have hcivil : Date.ofCivil? 2000 2 29 = some t.date :=
      Date.ofCivil?_eq_some_iff.mpr ⟨hyear, hmonth, hday⟩
    exact Option.some.inj (hcivil.symm.trans (by decide +kernel))
  have hmidnight : t = .midnight leapDayEnd.date :=
    Instant.rank_injective (by rw [Instant.rank, hdate, hsecond, hnano]; rfl)
  refine ⟨by decide +kernel, hsame.mpr (hholds _), ?_, by decide +kernel, hmidnight ▸ hread⟩
  rw [hother _ (hholds _)]
  decide +kernel

end Sample

end RecordQuery

import RecordQuery.Calendar.Instant
import RecordQuery.Proofs.Calendar.Year
import RecordQuery.Proofs.Text.Digits

/-!
# Dates and instants are read back

A date has a year, a month and a day of the month, and is the date of these
(`Date.ofCivil?_year_month`).  The stored text of an instant shows them and the time of day in
fields whose widths the reader can tell: each is as long as the reader allows, or no digit stands
behind it (`readNumber?_append`).  So the text is read as the instant
(`Instant.ofStored?_storedText`), a leap second included, which is written as second 60.
-/

namespace RecordQuery

open Text

/-! ## Months and days -/

/-- The month of a day of the year begins on the day or before, and the next one behind it. -/
theorem monthOfDay_spec : ∀ leap, ∀ day < 366, (day < if leap then 366 else 365) →
    1 ≤ monthOfDay leap day ∧ monthOfDay leap day ≤ 12 ∧
      daysBeforeMonth leap (monthOfDay leap day) ≤ day ∧
      day < daysBeforeMonth leap (monthOfDay leap day + 1) := by
  decide +kernel

namespace Date

theorem day_eq (d : Date) : d.day = yearStart d.year + d.dayOfYear := by
  obtain ⟨hlow, -⟩ := yearOfDay_spec d.day
  change yearStart d.year ≤ d.day at hlow
  rw [dayOfYear]
  omega

theorem dayOfYear_lt (d : Date) : d.dayOfYear < if isLeapYear d.year then 366 else 365 := by
  obtain ⟨-, hhigh⟩ := yearOfDay_spec d.day
  change d.day < yearStart (d.year + 1) at hhigh
  rw [yearStart_succ, d.day_eq, yearLength] at hhigh
  split at hhigh
  next hleap =>
    rw [if_pos hleap]
    omega
  next hleap =>
    rw [if_neg hleap]
    omega

theorem month_spec (d : Date) : 1 ≤ d.month ∧ d.month ≤ 12 ∧
    daysBeforeMonth (isLeapYear d.year) d.month ≤ d.dayOfYear ∧
    d.dayOfYear < daysBeforeMonth (isLeapYear d.year) (d.month + 1) := by
  have hlength := d.dayOfYear_lt
  refine monthOfDay_spec _ _ ?_ hlength
  split at hlength
  · exact hlength
  · omega

theorem dayOfMonth_le (d : Date) : d.dayOfMonth ≤ monthLength d.year d.month := by
  obtain ⟨-, -, hlow, hhigh⟩ := d.month_spec
  rw [dayOfMonth, monthLength]
  omega

theorem monthLength_le (year : Int) {month : Nat} (h : 1 ≤ month ∧ month ≤ 12) :
    monthLength year month ≤ 31 := by
  have hlength : ∀ leap, ∀ month < 13, 1 ≤ month →
      daysBeforeMonth leap (month + 1) - daysBeforeMonth leap month ≤ 31 := by decide
  exact hlength _ month (by omega) h.1

/-- A date is the date of its year, month and day of the month. -/
theorem ofCivil?_year_month (d : Date) : ofCivil? d.year d.month d.dayOfMonth = some d := by
  obtain ⟨hfirst, hlast, hlow, -⟩ := d.month_spec
  have hday : 1 ≤ d.dayOfMonth := Nat.le_add_left ..
  rw [ofCivil?, if_pos ⟨hfirst, hlast, hday, d.dayOfMonth_le⟩, ofDay?_eq_some_iff, d.day_eq,
    dayOfMonth]
  omega

end Date

/-! ## Fields -/

namespace Instant

theorem takeWhile_append {p : Char → Bool} {cs rest : List Char} (hcs : ∀ c ∈ cs, p c = true)
    (hrest : ∀ c ∈ rest.head?, p c = false) : (cs ++ rest).takeWhile p = cs := by
  have hstop : rest.takeWhile p = [] := by
    cases rest with
    | nil => rfl
    | cons c rest => exact List.takeWhile_cons_of_neg (by simp [hrest c rfl])
  rw [List.takeWhile_append_of_pos hcs, hstop, List.append_nil]

section Fields

variable {most : Nat} {ds rest : List Char}

/-- A field ends where it is as long as the reader allows, or no digit stands behind it. -/
theorem takeWhile_take_append (hds : ∀ d ∈ ds, d.isDigit = true) (hmost : ds.length ≤ most)
    (hrest : ds.length = most ∨ ∀ c ∈ rest.head?, c.isDigit = false) :
    ((ds ++ rest).take most).takeWhile Char.isDigit = ds := by
  have hend : ∀ c ∈ (rest.take (most - ds.length)).head?, c.isDigit = false := by
    intro c hc
    rcases hrest with hfull | hend
    · rw [hfull, Nat.sub_self, List.take_zero] at hc
      cases hc
    · cases rest with
      | nil => rw [List.take_nil] at hc; cases hc
      | cons d rest =>
          cases hroom : most - ds.length with
          | zero => rw [hroom] at hc; cases hc
          | succ n =>
              rw [hroom] at hc
              exact hend c hc
  rw [List.take_append, List.take_of_length_le hmost, takeWhile_append hds hend]

theorem readNumber?_append {least : Nat} (hds : ∀ d ∈ ds, d.isDigit = true)
    (hleast : least ≤ ds.length) (hmost : ds.length ≤ most)
    (hrest : ds.length = most ∨ ∀ c ∈ rest.head?, c.isDigit = false) :
    readNumber? least most (ds ++ rest) = some (Nat.ofDigitChars 10 ds 0, rest) := by
  rw [readNumber?]
  simp only [takeWhile_take_append hds hmost hrest, if_neg (Nat.not_lt.mpr hleast),
    List.drop_left]

/-- A fraction is read as nanoseconds, as far as nine digits say them. -/
theorem readFraction?_append (hds : ∀ d ∈ ds, d.isDigit = true) (hne : ds ≠ [])
    (hrest : ∀ c ∈ rest.head?, c.isDigit = false) :
    readFraction? ('.' :: (ds ++ rest)) =
      some (Nat.ofDigitChars 10 (ds.take 9) 0 * tenTo (9 - (ds.take 9).length), rest) := by
  have hcut : ds ++ rest = ds.take 9 ++ (ds.drop 9 ++ rest) := by
    rw [← List.append_assoc, List.take_append_drop]
  have hread : ((ds ++ rest).take 9).takeWhile Char.isDigit = ds.take 9 := by
    rw [hcut]
    refine takeWhile_take_append (fun d hd => hds d (List.mem_of_mem_take hd))
      (List.length_take_le _ _) ?_
    by_cases hlong : 9 ≤ ds.length
    · exact .inl (List.length_take_of_le hlong)
    · rw [List.drop_of_length_le (by omega)]
      exact .inr hrest
  have hbehind : (ds.drop 9 ++ rest).dropWhile Char.isDigit = rest := by
    rw [List.dropWhile_append_of_pos fun d hd => hds d (List.mem_of_mem_drop hd)]
    cases rest with
    | nil => rfl
    | cons c rest => exact List.dropWhile_cons_of_neg (by simp [hrest c rfl])
  have hdrop : (ds ++ rest).drop (ds.take 9).length = ds.drop 9 ++ rest := by
    rw [hcut, List.drop_left]
  rw [readFraction?, hread, hdrop, hbehind]
  simp [hne]

end Fields

/-- Behind a field that is read, reading goes on with the rest. -/
theorem read_then {α β : Type} {x : Option α} {a : α} {next : α → Option β} {r : Option β}
    (h : x = some a) (hnext : next a = r) : (x >>= next) = r := by
  rw [h]
  exact hnext

/-- A month, a day or a part of the time of day is read from its two digits. -/
theorem readNumber?_two {least n : Nat} (hleast : least ≤ 2) (hn : n < 100) (rest : List Char) :
    readNumber? least 2 (trimLeft (paddedDigits 2 n ++ rest)) = some (n, rest) := by
  have hlength : (paddedDigits 2 n).length = 2 := length_paddedDigits (by decide) hn
  rw [trimLeft_paddedDigits, readNumber?_append (fun _ => isDigit_of_mem_paddedDigits)
    (by omega) (by omega) (.inl hlength), ofDigitChars_paddedDigits]

theorem readYear?_digits {cs : List Char} (h : ∀ c ∈ cs.head?, c.isDigit = true) :
    readYear? cs = (readNumber? 1 4 cs).map fun p => ((p.1 : Int), p.2) := by
  cases cs with
  | nil => rfl
  | cons c cs =>
      have hc : c.isDigit = true := h c rfl
      rw [readYear?]
      · exact fun _ h => ne_of_isDigit hc (by decide) (List.cons.inj h).1
      · exact fun _ h => ne_of_isDigit hc (by decide) (List.cons.inj h).1

/-- A year is read in every form in which it is written. -/
theorem readYear?_yearChars (y : Int) (rest : List Char)
    (hrest : ∀ c ∈ rest.head?, c.isDigit = false) :
    readYear? (trimLeft (Date.yearChars y ++ rest)) = some (y, rest) := by
  unfold Date.yearChars
  split
  next hplain =>
    have hlength : (paddedDigits 4 y.toNat).length = 4 :=
      length_paddedDigits (by decide) (by omega)
    have hvalue : (y.toNat : Int) = y := Int.toNat_of_nonneg hplain.1
    rw [trimLeft_paddedDigits, readYear?_digits, readNumber?_append
      (fun _ => isDigit_of_mem_paddedDigits) (by omega) (by omega) (.inl hlength),
      ofDigitChars_paddedDigits, Option.map_some, hvalue]
    intro c hc
    cases hdigits : paddedDigits 4 y.toNat with
    | nil => rw [hdigits] at hlength; cases hlength
    | cons d ds =>
        rw [hdigits] at hc
        cases hc
        exact isDigit_of_mem_paddedDigits (by rw [hdigits]; exact .head _)
  next hsigned =>
    have hread : readNumber? 1 (paddedDigits 4 y.natAbs ++ rest).length
        (paddedDigits 4 y.natAbs ++ rest) = some (y.natAbs, rest) := by
      have hlength := le_length_paddedDigits 4 y.natAbs
      rw [readNumber?_append (fun _ => isDigit_of_mem_paddedDigits) (by omega)
        (by rw [List.length_append]; omega) (.inr hrest), ofDigitChars_paddedDigits]
    rw [List.cons_append]
    split
    next hneg =>
      have hvalue : -(y.natAbs : Int) = y := by omega
      rw [trimLeft_cons (by decide), readYear?, hread]
      exact congrArg (fun v => some (v, rest)) hvalue
    next hpos =>
      have hvalue : (y.natAbs : Int) = y := by omega
      rw [trimLeft_cons (by decide), readYear?, hread]
      exact congrArg (fun v => some (v, rest)) hvalue

/-- A fraction is read as what it was written for. -/
theorem readFraction?_fractionChars {nano : Nat} (hnano : nano < 1000000000) (rest : List Char)
    (hrest : ∀ c ∈ rest.head?, c.isDigit = false ∧ c ≠ '.') :
    readFraction? (fractionChars nano ++ rest) = some (nano, rest) := by
  have hend : ∀ c ∈ rest.head?, c.isDigit = false := fun c hc => (hrest c hc).1
  unfold fractionChars
  split
  next hzero =>
    subst hzero
    cases rest with
    | nil => rfl
    | cons c rest =>
        rw [List.nil_append, readFraction?]
        exact fun _ h => (hrest c rfl).2 (List.cons.inj h).1
  next hsome =>
    have hwidth : ∀ width value, 0 < width → width ≤ 9 → value < 10 ^ width →
        value * tenTo (9 - width) = nano →
        readFraction? ('.' :: (paddedDigits width value ++ rest)) = some (nano, rest) := by
      intro width value hpos hle hvalue hnano
      have hlength := length_paddedDigits hpos hvalue
      have hne : paddedDigits width value ≠ [] := by
        intro hnil
        rw [hnil] at hlength
        exact Nat.ne_of_gt hpos hlength.symm
      rw [readFraction?_append (fun _ => isDigit_of_mem_paddedDigits) hne hend,
        List.take_of_length_le (by omega), ofDigitChars_paddedDigits, hlength, hnano]
    split
    next hmilli => exact hwidth 3 _ (by decide) (by decide) (by omega) (by simp [tenTo]; omega)
    next hmilli =>
      split
      next hmicro => exact hwidth 6 _ (by decide) (by decide) (by omega) (by simp [tenTo]; omega)
      next hmicro => exact hwidth 9 _ (by decide) (by decide) (by omega) (by simp [tenTo])

/-! ## Instants -/

/-- Seconds counted from a date lead to the instant that is as many seconds from it. -/
theorem ofSeconds?_eq_some_iff {d : Date} {seconds : Int} {nano : Nat} {i : Instant} :
    ofSeconds? d seconds nano = some i ↔
      i.date.day * 86400 + i.second = d.day * 86400 + seconds ∧ i.nano = nano := by
  constructor
  · intro h
    unfold ofSeconds? at h
    simp only at h
    split at h
    next hnano =>
      obtain ⟨date, hdate, rfl⟩ := Option.map_eq_some_iff.mp h
      rw [Date.addDays?_eq_some_iff] at hdate
      refine ⟨?_, rfl⟩
      simp only
      omega
    next => cases h
  · rintro ⟨hseconds, rfl⟩
    have hbound := i.second_lt
    have hsecond : (seconds % 86400).toNat = i.second := by omega
    have hday : d.addDays? (seconds / 86400) = some i.date := by
      rw [Date.addDays?_eq_some_iff]
      omega
    simp only [ofSeconds?, hsecond, hday, Option.map_some]
    exact dif_pos ⟨i.nano_lt, i.leap_second⟩

/-- The time of day is made up of its parts. -/
theorem assemble?_parts (i : Instant) {leap nano : Nat}
    (hleap : leap = if i.nano < 1000000000 then 0 else 1)
    (hnano : nano = i.nano - leap * 1000000000) :
    assemble? i.date.year i.date.month i.date.dayOfMonth (i.second / 3600) (i.second / 60 % 60)
      (i.second % 60 + leap) nano 0 = some i := by
  have hbound := i.second_lt
  have htime : ∀ second : Int, second = i.second → ofSeconds? i.date second i.nano = some i := by
    rintro _ rfl
    exact ofSeconds?_eq_some_iff.mpr ⟨rfl, rfl⟩
  rw [assemble?, Date.ofCivil?_year_month]
  simp only [Option.bind_eq_bind, Option.bind_some]
  rw [if_neg (by split at hleap <;> omega)]
  split at hleap
  next hplain =>
    subst hleap
    have hsecond : ¬i.second % 60 + 0 = 60 := by omega
    have hvalue : nano = i.nano := by omega
    simp only [if_neg hsecond, hvalue]
    exact htime _ (by omega)
  next hextra =>
    subst hleap
    have hlast := i.leap_second (Nat.le_of_not_lt hextra)
    have hsecond : i.second % 60 + 1 = 60 := by omega
    have hvalue : nano + 1000000000 = i.nano := by omega
    simp only [if_pos hsecond, hvalue]
    exact htime _ (by omega)

theorem expect?_trimLeft {c : Char} (h : isBlank c = false) (cs : List Char) :
    expect? c (trimLeft (c :: cs)) = some cs := by
  rw [trimLeft_cons h, expect?, if_pos rfl]

/-- **The stored text of an instant is read as the instant.** -/
theorem ofStored?_storedText (i : Instant) : ofStored? i.storedText = some i := by
  obtain ⟨leap, hleap⟩ : ∃ leap, leap = if i.nano < 1000000000 then 0 else 1 := ⟨_, rfl⟩
  obtain ⟨nano, hnano⟩ : ∃ nano, nano = i.nano - leap * 1000000000 := ⟨_, rfl⟩
  have hchars : i.localChars ++ ['Z'] = Date.yearChars i.date.year ++ ('-' ::
      (paddedDigits 2 i.date.month ++ ('-' :: (paddedDigits 2 i.date.dayOfMonth ++ ('T' ::
      (paddedDigits 2 (i.second / 3600) ++ (':' :: (paddedDigits 2 (i.second / 60 % 60) ++ (':' ::
      (paddedDigits 2 (i.second % 60 + leap) ++
        (fractionChars nano ++ ['Z']))))))))))) := by
    rw [localChars, Date.chars, timeChars, hnano, hleap]
    simp only [List.append_assoc, List.cons_append]
  have hsecond := i.second_lt
  have hbound := i.nano_lt
  have hnano_lt : nano < 1000000000 := by split at hleap <;> omega
  have hsecond_lt : i.second % 60 + leap < 100 := by split at hleap <;> omega
  obtain ⟨hfirst, hlast, -⟩ := i.date.month_spec
  have hday_le : i.date.dayOfMonth ≤ 31 :=
    Nat.le_trans i.date.dayOfMonth_le (Date.monthLength_le _ ⟨hfirst, hlast⟩)
  have hyear := fun rest => readYear?_yearChars i.date.year ('-' :: rest) (by simp)
  have htwo : ∀ {n : Nat}, n < 100 → ∀ rest,
      readNumber? 1 2 (trimLeft (paddedDigits 2 n ++ rest)) = some (n, rest) :=
    readNumber?_two (by decide)
  have hmonth := htwo (show i.date.month < 100 by omega)
  have hday := htwo (show i.date.dayOfMonth < 100 by omega)
  have hseparator : ∀ cs, expectSeparator? ('T' :: cs) = some cs := fun cs => rfl
  have hhour := htwo (show i.second / 3600 < 100 by omega)
  have hminute := htwo (show i.second / 60 % 60 < 100 by omega)
  have hsecond := htwo hsecond_lt
  have hfraction := readFraction?_fractionChars hnano_lt ['Z'] (by simp)
  have hzone : readZone? (trimLeft ['Z']) = some (0, []) := by decide
  have hend : (trimLeft []).isEmpty = true := rfl
  have hdash := expect?_trimLeft (show isBlank '-' = false by decide)
  have hcolon := expect?_trimLeft (show isBlank ':' = false by decide)
  rw [ofStored?, storedText, String.toList_ofList, hchars, readLenient?]
  refine read_then (hyear _) (read_then (hdash _) (read_then (hmonth _) ?_))
  refine read_then (hdash _) (read_then (hday _) (read_then (hseparator _) ?_))
  refine read_then (hhour _) (read_then (hcolon _) (read_then (hminute _) ?_))
  refine read_then (hcolon _) (read_then (hsecond _) (read_then hfraction ?_))
  exact read_then hzone ((if_pos hend).trans (assemble?_parts i hleap hnano))

end Instant

end RecordQuery

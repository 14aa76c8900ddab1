import RecordQuery.Proofs.Calendar.Shifts
import RecordQuery.Proofs.Calendar.Zoned
import RecordQuery.Proofs.Query.Answer
import RecordQuery.Proofs.Query.Literal

/-!
# Operators on days follow the order of dates

An operator on days compares instants with the midnights around a day, and has an answer of its own
where the calendar has no day behind that day.  Either way it compares the date of the instant, in
universal time, with the day (`DayRelation.accepts_eq`).

The day is named by a literal (`Value.NamesDay`): by an instant, by the text of a date, or by what a
clock with an offset shows.  The last names the day in universal time, which is the day of the
clock, the day before or the day behind (`onDays_order`).
-/

namespace RecordQuery

open Text

/-! ## Relations to a day -/

namespace DayRelation

/-- A date stands in the relation to a day. -/
def Relates : DayRelation → Date → Date → Prop
  | on, a, d => a = d
  | onOrBefore, a, d => a ≤ d
  | onOrAfter, a, d => d ≤ a

instance (r : DayRelation) (a d : Date) : Decidable (r.Relates a d) :=
  match r with
  | on => inferInstanceAs (Decidable (a = d))
  | onOrBefore => inferInstanceAs (Decidable (a ≤ d))
  | onOrAfter => inferInstanceAs (Decidable (d ≤ a))

/-- What lies before the midnight with which a day ends lies on the day or before it.  Nothing lies
behind the last day of the calendar. -/
theorem before_end_iff {d : Date} {t : Instant} :
    ((d.addDays? 1).all fun next => t < .midnight next) = true ↔ t.date.day ≤ d.day := by
  cases hnext : d.addDays? 1 with
  | none =>
      have hlast : t.date.day ≤ lastDay := t.date.le_last
      have hend : lastDay ≤ d.day := by
        refine Int.not_lt.mp fun hlt => ?_
        obtain ⟨next, hday⟩ : ∃ next : Date, next.day = d.day + 1 :=
          ⟨⟨d.day + 1, Int.le_trans d.first_le (by omega), hlt⟩, rfl⟩
        rw [Date.addDays?_eq_some_iff.mpr hday] at hnext
        cases hnext
      simp only [Option.all_none, true_iff]
      omega
  | some next =>
      rw [Date.addDays?_eq_some_iff] at hnext
      rw [Option.all_some, decide_eq_true_iff, Instant.lt_midnight_iff]
      omega

/-- **An operator on days compares dates.** -/
theorem accepts_eq (r : DayRelation) (d : Date) (t : Instant) :
    r.accepts d t = decide (r.Relates t.date d) := by
  have hstarts : Instant.midnight d ≤ t ↔ d.day ≤ t.date.day := Instant.midnight_le_iff
  have hends := before_end_iff (d := d) (t := t)
  rw [Bool.eq_iff_iff, decide_eq_true_iff]
  cases r with
  | on =>
      have hday : t.date = d ↔ t.date.day = d.day := ⟨congrArg Date.day, Date.day_injective⟩
      rw [accepts, Bool.and_eq_true, decide_eq_true_iff, hstarts, hends, Relates, hday]
      omega
  | onOrBefore => exact hends
  | onOrAfter => exact decide_eq_true_iff.trans hstarts

end DayRelation

/-! ## Literals -/

/-- The literal names a day: the date in universal time of the instant that it is read as. -/
def Value.NamesDay (v : Value) (d : Date) : Prop :=
  ∃ i, Key.instantLiteral? v.unaliased = some i ∧ i.date = d

section Answers

variable {e : Entity} {ctx : Context} {row : Record} {name : String} {t : Instant} {v : Value}
  {d : Date}

theorem Condition.dayLiteral_eq_ok_iff : dayLiteral name v = .ok d ↔ v.NamesDay d := by
  simp only [dayLiteral, map_eq_ok_iff, Key.orRefuse_eq_ok_iff, Value.NamesDay]

/-- An operator on days answers with its relation to the day that the literal names. -/
theorem HoldsInstant.answer_day (h : HoldsInstant e row name t) {o : Operator} {r : DayRelation}
    {expected : Bool} (harity : o.arity = .one)
    (htest : Condition.testOf ctx (lowercase name) (some .dateTime) o [v] =
      Condition.requireType (lowercase name) (some .dateTime) AttributeType.isDate >>= fun _ =>
        Condition.dayLiteral (lowercase name) v >>= fun d => .ok (.day r d, expected))
    (hd : v.NamesDay d) :
    e.answer ctx row name o [v] = .ok (decide (r.Relates t.date d) == expected) := by
  rw [h.answer_of_read harity htest (Condition.dayLiteral_eq_ok_iff.mpr hd), ← r.accepts_eq]
  rfl

/-- How the operators on days answer, and which literals name which day. -/
structure DayOrder (e : Entity) (ctx : Context) (row : Record) (name : String) (t : Instant) :
    Prop where
  on : ∀ {v : Value} {d : Date}, v.NamesDay d →
    e.answer ctx row name (.on true) [v] = .ok (decide (t.date = d))
  notOn : ∀ {v : Value} {d : Date}, v.NamesDay d →
    e.answer ctx row name (.on false) [v] = .ok (decide (t.date ≠ d))
  onOrBefore : ∀ {v : Value} {d : Date}, v.NamesDay d →
    e.answer ctx row name .onOrBefore [v] = .ok (decide (t.date ≤ d))
  onOrAfter : ∀ {v : Value} {d : Date}, v.NamesDay d →
    e.answer ctx row name .onOrAfter [v] = .ok (decide (d ≤ t.date))
  /-- The text of a date names it, whatever its year. -/
  bareDate : ∀ d : Date, (Value.text d.text).NamesDay d
  /-- An instant names its day. -/
  instant : ∀ i : Instant, (Value.instant i).NamesDay i.date
  /-- What a clock with an offset shows names the day in universal time. -/
  zoned : ∀ w : ZonedTime, 0 ≤ w.date.year → w.date.year ≤ 9999 →
    ∃ d : Date, d.day = w.day ∧ (Value.text w.text).NamesDay d
  /-- So does the instant that is read from it. -/
  stored : ∀ (w : ZonedTime) (i : Instant), Instant.ofStored? w.text = some i →
    ∃ d : Date, d.day = w.day ∧ (Value.instant i).NamesDay d
  /-- An alias names what its value names. -/
  aliased : ∀ (entity name : String) (v : Value) (d : Date), v.NamesDay d →
    (Value.aliased ⟨entity, name, v⟩).NamesDay d

/-- **Operators on days.**  On an attribute that holds an instant, they compare its date with the
day that the literal names, up to the last day of the calendar. -/
theorem onDays_order (h : HoldsInstant e row name t) : DayOrder e ctx row name t := by
  constructor
  case on => exact fun hd => (h.answer_day rfl rfl hd).trans (by rw [beq_true]; rfl)
  case notOn =>
    intro v d hd
    rw [h.answer_day (r := .on) rfl rfl hd, beq_false, ← decide_not]
    rfl
  case onOrBefore => exact fun hd => (h.answer_day rfl rfl hd).trans (by rw [beq_true]; rfl)
  case onOrAfter => exact fun hd => (h.answer_day rfl rfl hd).trans (by rw [beq_true]; rfl)
  case bareDate => exact fun d => ⟨.midnight d, d.ofLiteral?_text, rfl⟩
  case instant => exact fun i => ⟨i, rfl, rfl⟩
  case zoned =>
    intro w hfirst hlast
    obtain ⟨i, hi, hread⟩ := w.exists_ofLiteral?_text hfirst hlast
    exact ⟨i.date, w.day_of_instant? hi, i, hread, rfl⟩
  case stored =>
    intro w i hi
    rw [w.ofStored?_text] at hi
    exact ⟨i.date, w.day_of_instant? hi, i, rfl, rfl⟩
  case aliased =>
    intro entity name v d hd
    rwa [Value.NamesDay, Value.unaliased]

end Answers

namespace Sample

/-- Half past three in the morning of the day behind the default one, on a clock that is five and a
half hours ahead. -/
def aheadClock : ZonedTime where
  date := ⟨1, by decide, by decide⟩
  separator := 'T'
  hour := 3
  minute := 30
  second := 0
  fraction := []
  zone := .offset '+' 5 30 (.inl rfl) (by decide) (by decide)
  separates := .inl rfl
  hour_lt := by decide
  minute_lt := by decide
  second_le := by decide
  isDigit_of_mem_fraction := by simp

/-- In universal time, what the clock shows is on the day of the meeting. -/
theorem onDays_order_met :
    HoldsInstant acquaintance (ada.set "met" (.instant default)) "met" default ∧
      aheadClock.text = "0001-01-02T03:30:00+05:30" ∧
      DayOrder acquaintance ctx (ada.set "met" (.instant default)) "met" default ∧
      acquaintance.answer ctx (ada.set "met" (.instant default)) "met" (.on true)
        [.text aheadClock.text] = .ok true := by
  have hmet : HoldsInstant acquaintance (ada.set "met" (.instant default)) "met" default :=
    ⟨rfl, .instant default, rfl, rfl⟩
  have horder : DayOrder acquaintance ctx (ada.set "met" (.instant default)) "met" default :=
    onDays_order hmet
  obtain ⟨d, hd, hnames⟩ := horder.zoned aheadClock (by decide +kernel) (by decide +kernel)
  have hdefault : (default : Instant).date = d := Date.day_injective hd.symm
  refine ⟨hmet, by decide +kernel, horder, ?_⟩
  rw [horder.on hnames, decide_eq_true hdefault]

end Sample

end RecordQuery

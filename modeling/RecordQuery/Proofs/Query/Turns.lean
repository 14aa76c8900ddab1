import Mathlib.Order.Bounds.Defs
import RecordQuery.Proofs.Calendar.Shifts
import RecordQuery.Proofs.Calendar.Units
import RecordQuery.Proofs.Query.Answer
import RecordQuery.Proofs.Query.Evaluation

/-!
# The last, the current and the next unit tile time

Each operator that turns a unit of the calendar computes two dates from the clock and asks whether
an instant lies between their midnights.  That is to compare two numbers: the unit of the instant is
as many units behind that of the clock as the turn says (`TurnUnit.holds_window`), wherever the
clock is two calendar years inside the calendar.

So the three operators of a unit exclude each other, the current unit is a class of instants, the
next unit is the other side of the last one, and it starts with the first instant behind the current
one (`calendarUnits_tile`).
-/

namespace RecordQuery

open Text

/-! ## Windows -/

/-- A date two calendar years inside the calendar. -/
def Date.Inside (d : Date) : Prop := firstYear + 2 ≤ d.year ∧ d.year ≤ lastYear - 2

instance (d : Date) : Decidable d.Inside :=
  inferInstanceAs (Decidable (firstYear + 2 ≤ d.year ∧ d.year ≤ lastYear - 2))

namespace Window

variable {d first last : Date} {turn : Turn}

/-- An instant lies between the midnights of two dates when its date lies between these. -/
theorem spans_iff {t : Instant} :
    spans first last t = true ↔ first.day ≤ t.date.day ∧ t.date.day < last.day := by
  rw [spans, Bool.and_eq_true, decide_eq_true_eq, decide_eq_true_eq, Instant.midnight_le_iff,
    Instant.lt_midnight_iff]

theorem day_monthStart (d : Date) : (monthStart d).day = monthFirst d.monthIndex := by
  obtain ⟨e, he, hday⟩ := d.exists_monthFirst
  rw [monthStart, he, Option.getD_some, hday]

theorem monthBounds?_eq (hfirst : first.day = monthFirst (d.monthIndex + distance turn))
    (hlast : last.day = monthFirst (d.monthIndex + distance turn + 1)) :
    monthBounds? d turn = some (first, last) := by
  have hbegin : (monthStart d).addMonths? (distance turn) = some first := by
    rw [Date.addMonths?_monthFirst (day_monthStart d), Date.ofDay?_eq_some_iff, hfirst]
  have hend : first.addMonths? 1 = some last := by
    rw [Date.addMonths?_monthFirst hfirst, Date.ofDay?_eq_some_iff, hlast]
  rw [monthBounds?, hbegin, Option.bind_eq_bind, Option.bind_some, hend]
  rfl

theorem yearBounds?_eq (hfirst : first.day = yearStart (d.year + distance turn))
    (hlast : last.day = yearStart (d.year + distance turn + 1)) :
    yearBounds? d turn = some (first, last) := by
  have hstart : ∀ {e : Date} {y : Int}, e.day = yearStart y → Date.ofCivil? y 1 1 = some e := by
    intro e y he
    have hlength : 1 ≤ monthLength y 1 := by
      unfold monthLength
      cases isLeapYear y <;> decide
    rw [Date.ofCivil?, if_pos ⟨by decide, by decide, by decide, hlength⟩,
      Date.ofDay?_eq_some_iff, he]
    simp [daysBeforeMonth]
  rw [yearBounds?]
  simp only [hstart hfirst, hstart hlast]
  rfl

theorem distance_injective {turn turn' : Turn} (h : distance turn = distance turn') :
    turn = turn' := by
  cases turn <;> cases turn' <;> first | rfl | cases h

end Window

namespace TurnUnit

/-- The window of a unit that is turned. -/
def window (turn : Turn) : TurnUnit → Window
  | day => .day turn
  | longer unit => .calendar unit turn

variable {ctx : Context} {t : Instant} {first last : Date} {turn : Turn}

/-- The window of a unit reaches from the first day of the unit to that of the next one. -/
theorem holds_eq_spans (unit : TurnUnit) (hinside : ctx.today.Inside)
    (hfirst : first.day = unit.firstDay ctx.weekStart
      (unit.number ctx.weekStart ctx.today + Window.distance turn))
    (hlast : last.day = unit.firstDay ctx.weekStart
      (unit.number ctx.weekStart ctx.today + Window.distance turn + 1)) :
    (unit.window turn).holds ctx t = .ok (Window.spans first last t) := by
  cases unit with
  | day =>
      simp only [firstDay, number] at hfirst hlast
      refine bind_eq_ok_iff.mpr ⟨first, Date.step_eq_ok_iff.mpr hfirst, ?_⟩
      exact bind_eq_ok_iff.mpr ⟨last, Date.step_eq_ok_iff.mpr (by omega), rfl⟩
  | longer unit =>
      cases unit with
      | week =>
          obtain ⟨this, hthis⟩ := (longer .week).exists_firstDay ctx.weekStart hinside.1 hinside.2
            (n := 0) (by decide) (by decide)
          have hstart : ctx.weekStart.fromSunday < 7 := by cases ctx.weekStart <;> decide
          simp only [firstDay, number] at hfirst hlast hthis
          refine bind_eq_ok_iff.mpr ⟨this, Date.step_eq_ok_iff.mpr ?_, ?_⟩
          · unfold Date.daysFromSunday
            omega
          · refine bind_eq_ok_iff.mpr ⟨first, Date.step_eq_ok_iff.mpr (by omega), ?_⟩
            exact bind_eq_ok_iff.mpr ⟨last, Date.step_eq_ok_iff.mpr (by omega), rfl⟩
      | month => rw [window, Window.holds, Window.monthBounds?_eq hfirst hlast]; rfl
      | year => rw [window, Window.holds, Window.yearBounds?_eq hfirst hlast]; rfl

/-- **A window compares numbers of units.** -/
theorem holds_window (unit : TurnUnit) (hinside : ctx.today.Inside) (turn : Turn) (t : Instant) :
    (unit.window turn).holds ctx t = .ok (decide (unit.number ctx.weekStart t.date =
      unit.number ctx.weekStart ctx.today + Window.distance turn)) := by
  have hturn := Window.distance_bounds turn
  obtain ⟨first, hfirst⟩ := unit.exists_firstDay ctx.weekStart hinside.1 hinside.2 hturn.1
    (Int.le_trans hturn.2 (by decide))
  obtain ⟨last, hlast⟩ := unit.exists_firstDay ctx.weekStart hinside.1 hinside.2
    (n := Window.distance turn + 1) (by omega) (by omega)
  rw [← Int.add_assoc] at hlast
  rw [unit.holds_eq_spans hinside hfirst hlast]
  refine congrArg Except.ok ?_
  rw [Bool.eq_iff_iff, Window.spans_iff, decide_eq_true_iff, number_eq_iff, hfirst, hlast]

/-- The operator of a unit that is turned. -/
def operator : TurnUnit → Turn → Operator
  | day => .day
  | longer unit => .calendar unit

end TurnUnit

/-! ## Answers -/

/-- The answer of an operator without literals when the clock shows an instant. -/
def Entity.answerAt (e : Entity) (ctx : Context) (now : Instant) (row : Record) (name : String)
    (o : Operator) : Except QueryError Bool :=
  e.answer { ctx with now := now } row name o []

/-- The instants behind all those that match an operator when the clock shows an instant. -/
def Entity.behindMatches (e : Entity) (ctx : Context) (now : Instant) (name : String)
    (o : Operator) : Set Instant :=
  { u | ∀ row t, HoldsInstant e row name t → e.answerAt ctx now row name o = .ok true → t < u }

section Answers

variable {e : Entity} {ctx : Context} {row row' : Record} {name : String} {s t u : Instant}

theorem HoldsInstant.answerAt_eq (h : HoldsInstant e row name t) (hs : s.date.Inside)
    (unit : TurnUnit) (turn : Turn) :
    e.answerAt ctx s row name (unit.operator turn) = .ok (decide
      (unit.number ctx.weekStart t.date =
        unit.number ctx.weekStart s.date + Window.distance turn)) := by
  have harity : (unit.operator turn).arity.accepts 0 = true := by cases unit <;> rfl
  have htest : Condition.testOf { ctx with now := s } (lowercase name) (some .dateTime)
      (unit.operator turn) [] = .ok (.window (unit.window turn), true) := by cases unit <;> rfl
  have hanswer : e.answerAt ctx s row name (unit.operator turn) =
      (unit.window turn).holds { ctx with now := s } t := h.answer_eq_holds harity htest
  have hinside : ({ ctx with now := s } : Context).today.Inside := hs
  exact hanswer.trans (unit.holds_window hinside turn t)

theorem HoldsInstant.answerAt_eq_true_iff (h : HoldsInstant e row name t) (hs : s.date.Inside)
    (unit : TurnUnit) (turn : Turn) :
    e.answerAt ctx s row name (unit.operator turn) = .ok true ↔
      unit.number ctx.weekStart t.date =
        unit.number ctx.weekStart s.date + Window.distance turn := by
  rw [h.answerAt_eq hs, Except.ok.injEq, decide_eq_true_iff]

/-- Every instant is held by some row. -/
theorem exists_holdsInstant (h : e.typeOf? (lowercase name) = some .dateTime) (t : Instant) :
    ∃ row, HoldsInstant e row name t := by
  refine ⟨(Record.new "" .nil).set name (.instant t), h, .instant t, ?_, rfl⟩
  simp [Record.new, Record.set, Record.get?, NameMap.insert, NameMap.lookup?, NameMap.get?]

/-- The first instant behind the current unit is the midnight with which the next unit begins. -/
theorem isLeast_behindMatches (h : e.typeOf? (lowercase name) = some .dateTime)
    (hs : s.date.Inside) (unit : TurnUnit) {d : Date}
    (hd : d.day = unit.firstDay ctx.weekStart (unit.number ctx.weekStart s.date + 1)) :
    IsLeast (e.behindMatches ctx s name (unit.operator .this)) (.midnight d) := by
  have hcurrent : ∀ {row t}, HoldsInstant e row name t →
      (e.answerAt ctx s row name (unit.operator .this) = .ok true ↔
        unit.number ctx.weekStart t.date = unit.number ctx.weekStart s.date) := by
    intro row t hrow
    rw [hrow.answerAt_eq_true_iff hs, Window.distance, Int.add_zero]
  constructor
  · intro row t hrow hmatch
    rw [hcurrent hrow, unit.number_eq_iff] at hmatch
    rw [Instant.lt_midnight_iff, hd]
    exact hmatch.2
  · intro v hv
    refine Int.not_lt.mp fun hbefore => ?_
    -- an instant before that midnight and behind the clock is itself in the current unit
    obtain ⟨row, hrow⟩ := exists_holdsInstant h v
    obtain ⟨clock, hclock⟩ := exists_holdsInstant h s
    have hbehind : s.rank < v.rank := hv clock s hclock ((hcurrent hclock).mpr rfl)
    have hdates : s.date.day ≤ v.date.day := Instant.day_le_of_lt hbehind
    have hend : v.date.day < d.day := Instant.lt_midnight_iff.mp hbefore
    have hown : unit.number ctx.weekStart s.date = unit.number ctx.weekStart s.date := rfl
    have hstart := ((unit.number_eq_iff ctx.weekStart).mp hown).1
    have hsame : unit.number ctx.weekStart v.date = unit.number ctx.weekStart s.date :=
      (unit.number_eq_iff ctx.weekStart).mpr ⟨Int.le_trans hstart hdates, hd ▸ hend⟩
    exact Int.lt_irrefl _ (hv row v hrow ((hcurrent hrow).mpr hsame))

/-- How the answers of the operators of a unit hang together.  The clock stands two calendar years
inside the calendar. -/
structure TilesTime (e : Entity) (ctx : Context) (name : String) (operator : Turn → Operator) :
    Prop where
  /-- Every operator has an answer. -/
  answered : ∀ {s t : Instant} {row : Record}, s.date.Inside → HoldsInstant e row name t →
    ∀ turn, ∃ answer, e.answerAt ctx s row name (operator turn) = .ok answer
  /-- At most one of them matches. -/
  exclusive : ∀ {s t : Instant} {row : Record}, s.date.Inside → HoldsInstant e row name t →
    ∀ turn turn', e.answerAt ctx s row name (operator turn) = .ok true →
      e.answerAt ctx s row name (operator turn') = .ok true → turn = turn'
  /-- The clock shows an instant of the current unit. -/
  this_refl : ∀ {s : Instant} {row : Record}, s.date.Inside → HoldsInstant e row name s →
    e.answerAt ctx s row name (operator .this) = .ok true
  /-- Of two instants, either both are in the current unit of the other or neither is. -/
  this_symm : ∀ {s t : Instant} {row row' : Record}, s.date.Inside → t.date.Inside →
    HoldsInstant e row name t → HoldsInstant e row' name s →
      (e.answerAt ctx s row name (operator .this) = .ok true ↔
        e.answerAt ctx t row' name (operator .this) = .ok true)
  /-- Instants that share the current unit with a third one share it with each other. -/
  this_trans : ∀ {s t u : Instant} {row row' : Record}, s.date.Inside → t.date.Inside →
    HoldsInstant e row name t → HoldsInstant e row' name u →
      e.answerAt ctx s row name (operator .this) = .ok true →
        e.answerAt ctx t row' name (operator .this) = .ok true →
          e.answerAt ctx s row' name (operator .this) = .ok true
  /-- What is in the next unit of an instant has that instant in its last unit. -/
  next_iff_last : ∀ {s t : Instant} {row row' : Record}, s.date.Inside → t.date.Inside →
    HoldsInstant e row name t → HoldsInstant e row' name s →
      (e.answerAt ctx s row name (operator .next) = .ok true ↔
        e.answerAt ctx t row' name (operator .last) = .ok true)
  /-- The first instant behind the current unit is in the next one. -/
  next_begins : ∀ {s : Instant}, s.date.Inside →
    ∃ u, IsLeast (e.behindMatches ctx s name (operator .this)) u ∧
      ∀ row, HoldsInstant e row name u →
        e.answerAt ctx s row name (operator .next) = .ok true

/-- **The units of the calendar tile time.**  On an attribute that is declared to hold instants, and
with weeks that start on whatever day, days, weeks, months and years each fall into the last, the
current and the next one. -/
theorem calendarUnits_tile (h : e.typeOf? (lowercase name) = some .dateTime) (ctx : Context)
    (unit : TurnUnit) : TilesTime e ctx name unit.operator := by
  constructor
  case answered => exact fun hs hrow turn => ⟨_, hrow.answerAt_eq hs unit turn⟩
  case exclusive =>
    intro s t row hs hrow turn turn' hmatch hmatch'
    rw [hrow.answerAt_eq_true_iff hs] at hmatch hmatch'
    exact Window.distance_injective (by omega)
  case this_refl =>
    intro s row hs hrow
    rw [hrow.answerAt_eq_true_iff hs, Window.distance, Int.add_zero]
  case this_symm =>
    intro s t row row' hs ht hrow hrow'
    rw [hrow.answerAt_eq_true_iff hs, hrow'.answerAt_eq_true_iff ht, Window.distance,
      Int.add_zero, Int.add_zero, eq_comm]
  case this_trans =>
    intro s t u row row' hs ht hrow hrow' hmatch hmatch'
    rw [hrow.answerAt_eq_true_iff hs] at hmatch
    rw [hrow'.answerAt_eq_true_iff ht] at hmatch'
    rw [hrow'.answerAt_eq_true_iff hs]
    simp only [Window.distance] at hmatch hmatch' ⊢
    omega
  case next_iff_last =>
    intro s t row row' hs ht hrow hrow'
    rw [hrow.answerAt_eq_true_iff hs, hrow'.answerAt_eq_true_iff ht]
    simp only [Window.distance]
    omega
  case next_begins =>
    intro s hs
    obtain ⟨d, hd⟩ := unit.exists_firstDay ctx.weekStart hs.1 hs.2 (n := 1) (by decide) (by decide)
    refine ⟨.midnight d, isLeast_behindMatches h hs unit hd, fun row hrow => ?_⟩
    rw [hrow.answerAt_eq_true_iff hs, unit.number_eq_iff]
    have hlt := unit.firstDay_lt_succ ctx.weekStart
      (unit.number ctx.weekStart s.date + Window.distance .next)
    exact ⟨Int.le_of_eq hd.symm, hd ▸ hlt⟩

end Answers

namespace Sample

/-- The day before the default one, with which a month and a year end. -/
def eve : Instant := .midnight ⟨-1, by decide, by decide⟩

/-- On the default day, the day before it belongs to the last month. -/
theorem calendarUnits_tile_met :
    acquaintance.typeOf? (lowercase "met") = some .dateTime ∧
      TilesTime acquaintance ctx "met" (.calendar .month) ∧
      acquaintance.answerAt ctx default (ada.set "met" (.instant eve)) "met"
        (.calendar .month .last) = .ok true := by
  have htype : acquaintance.typeOf? (lowercase "met") = some .dateTime := rfl
  have htiles : TilesTime acquaintance ctx "met" (.calendar .month) :=
    calendarUnits_tile htype ctx (.longer .month)
  have hdefault : HoldsInstant acquaintance (ada.set "met" (.instant default)) "met" default :=
    ⟨htype, .instant default, rfl, rfl⟩
  have heve : HoldsInstant acquaintance (ada.set "met" (.instant eve)) "met" eve :=
    ⟨htype, .instant eve, rfl, rfl⟩
  have hnext : acquaintance.answerAt ctx eve (ada.set "met" (.instant default)) "met"
      (.calendar .month .next) = .ok true := rfl
  have hiff := htiles.next_iff_last (s := eve) (t := default) (by decide +kernel)
    (by decide +kernel) hdefault heve
  exact ⟨htype, htiles, hiff.mp hnext⟩

end Sample

end RecordQuery

import RecordQuery.Proofs.Query.Evaluation

/-!
# Steps of the date operators

*Steps.*  Some date operators step from the clock to other days without asking whether the calendar
holds them.  `StepsTo` says of a computation which days these are: it has a value if the calendar
holds all of them and overflows if it does not.  Steps of dates and instants put one day in front of
those of the rest (`StepsTo.date`, `StepsTo.instant`).

*Operators.*  The windows of days and weeks and the two spans of seven days step in this way, and no
other operator on dates does (`Operator.steppedDays`).  So a condition with such an operator fails
on a date near the ends of the calendar only (`CompiledCondition.evaluate_steps`): from two weeks
inside it always has an answer.
-/

namespace RecordQuery

open Text

/-! ## Steps -/

/-- A computation that steps to days has a value if the calendar holds them, and overflows if it
does not hold one of them. -/
inductive StepsTo {α : Type} : List Int → Except QueryError α → Prop where
  | ok {days : List Int} {a : α} (h : ∀ day ∈ days, InCalendar day) : StepsTo days (.ok a)
  | overflow {days : List Int} {day : Int} (hday : day ∈ days) (h : ¬ InCalendar day) :
      StepsTo days (.error .calendarOverflow)

/-- The day on which a step of days from an instant ends.  A step back out of the leap second that
ends a day takes it as the first second of the next day. -/
def Instant.steppedDay (i : Instant) (n : Int) : Int :=
  if n < 0 ∧ 1000000000 ≤ i.nano ∧ i.second = 86399 then i.date.day + n + 1 else i.date.day + n

namespace Instant

theorem isSome_addDays?_iff (i : Instant) {n : Int} :
    (i.addDays? n).isSome = true ↔ InCalendar (i.steppedDay n) := by
  have hsecond := i.second_lt
  have hday : i.date.day + i.steppedSecond (86400 * n) / 86400 = i.steppedDay n := by
    unfold steppedSecond steppedDay
    split <;> split <;> omega
  rw [addDays?, isSome_addSeconds?_iff, hday]

end Instant

namespace StepsTo

variable {α β : Type} {days : List Int} {x : Except QueryError α}

theorem exists_ok_iff (h : StepsTo days x) : (∃ a, x = .ok a) ↔ ∀ day ∈ days, InCalendar day := by
  cases h with
  | ok h => exact ⟨fun _ => h, fun _ => ⟨_, rfl⟩⟩
  | overflow hday h => exact ⟨nofun, fun hall => absurd (hall _ hday) h⟩

theorem eq_of_error (h : StepsTo days x) {failure : QueryError} (hfailure : x = .error failure) :
    failure = .calendarOverflow := by
  cases h with
  | ok h => cases hfailure
  | overflow hday h => exact (Except.error.inj hfailure).symm

theorem pure (a : α) : StepsTo [] (.ok a) := .ok nofun

/-- What is made of a value takes no further step. -/
theorem map (h : StepsTo days x) (f : α → β) : StepsTo days (x >>= fun a => .ok (f a)) := by
  cases h with
  | ok h => exact .ok h
  | overflow hday h => exact .overflow hday h

/-- A day that the calendar does not hold is not stepped to, and one that it holds comes before the
days of the rest. -/
theorem cons {day : Int} {f : α → Except QueryError β}
    (hout : ¬ InCalendar day → x = .error .calendarOverflow)
    (hin : InCalendar day → ∃ a, x = .ok a ∧ StepsTo days (f a)) :
    StepsTo (day :: days) (x >>= f) := by
  by_cases hday : InCalendar day
  · obtain ⟨a, rfl, hrest⟩ := hin hday
    rw [ok_bind]
    generalize f a = y at hrest
    cases hrest with
    | ok h => exact .ok (List.forall_mem_cons.mpr ⟨hday, h⟩)
    | overflow hlater h => exact .overflow (.tail _ hlater) h
  · rw [hout hday, error_bind]
    exact .overflow (.head _) hday

theorem date {d : Date} {n : Int} {f : Date → Except QueryError β}
    (h : ∀ e, e.day = d.day + n → StepsTo days (f e)) :
    StepsTo ((d.day + n) :: days) (d.step n >>= f) := by
  refine cons (fun hout => ?_) fun hin => ?_
  · have hnone : d.addDays? n = none := dif_neg hout
    rw [Date.step, hnone]
  · exact ⟨⟨_, hin.1, hin.2⟩, Date.step_eq_ok_iff.mpr rfl, h _ rfl⟩

theorem instant {i : Instant} {n : Int} {f : Instant → Except QueryError β}
    (h : ∀ j, StepsTo days (f j)) : StepsTo (i.steppedDay n :: days) (i.step n >>= f) := by
  refine cons (fun hout => ?_) fun hin => ?_
  · cases hstep : i.addDays? n with
    | none => rw [Instant.step, hstep]
    | some j => exact absurd (i.isSome_addDays?_iff.mp (hstep ▸ rfl)) hout
  · obtain ⟨j, hj⟩ := Option.isSome_iff_exists.mp (i.isSome_addDays?_iff.mpr hin)
    exact ⟨j, by rw [Instant.step, hj], h j⟩

end StepsTo

/-! ## Windows and operators -/

/-- The day on which the week of the clock starts. -/
def Context.weekDay (ctx : Context) : Int :=
  ctx.today.day + -((ctx.today.daysFromSunday + 7 - ctx.weekStart.fromSunday) % 7 : Nat)

/-- The days that a window of time is found by stepping to. -/
def Window.steppedDays (ctx : Context) (t : Instant) : Window → List Int
  | .day turn => [ctx.today.day + distance turn, ctx.today.day + (distance turn + 1)]
  | .lastSevenDays => [ctx.now.steppedDay (-7)]
  | .nextSevenDays => if ctx.now ≤ t then [ctx.now.steppedDay 7] else []
  | .calendar .week turn =>
      [ctx.weekDay, ctx.weekDay + 7 * distance turn, ctx.weekDay + 7 * distance turn + 7]
  | _ => []

theorem Window.holds_steps (w : Window) (ctx : Context) (t : Instant) :
    StepsTo (w.steppedDays ctx t) (w.holds ctx t) := by
  cases w with
  | day turn => exact .date fun first _ => .date fun last _ => .pure _
  | lastSevenDays => exact .instant fun first => .pure _
  | nextSevenDays =>
      by_cases hnow : ctx.now ≤ t
      · rw [steppedDays, holds, if_pos hnow, if_pos hnow]
        exact .instant fun last => .pure _
      · rw [steppedDays, holds, if_neg hnow, if_neg hnow]
        exact .pure _
  | lastSpan unit count => exact .pure _
  | nextSpan unit count => exact .pure _
  | olderThan unit count => exact .pure _
  | calendar unit turn =>
      cases unit with
      | week =>
          refine .date fun start hstart => ?_
          change start.day = ctx.weekDay at hstart
          rw [← hstart]
          refine .date fun first hfirst => ?_
          rw [← hfirst]
          exact .date fun last _ => .pure _
      | month => exact .pure _
      | year => exact .pure _

namespace Operator

/-- The operators that compare an instant with a date or with the clock, by the calendar. -/
def comparesDates : Operator → Bool
  | on _ | onOrBefore | onOrAfter | day _ | lastSevenDays | nextSevenDays => true
  | lastSpan _ | nextSpan _ | olderThan _ | calendar _ _ => true
  | _ => false

/-- The days that an operator on dates steps to. -/
def steppedDays (ctx : Context) (t : Instant) : Operator → List Int
  | day turn => (Window.day turn).steppedDays ctx t
  | lastSevenDays => Window.lastSevenDays.steppedDays ctx t
  | nextSevenDays => Window.nextSevenDays.steppedDays ctx t
  | calendar unit turn => (Window.calendar unit turn).steppedDays ctx t
  | _ => []

theorem Asks.holds_steps {s : FiscalSettings} {declared : Option AttributeType} {o : Operator}
    {test : Test} {expected : Bool} (h : o.Asks s declared test expected)
    (ho : o.comparesDates = true) (ctx : Context) (column : String) (t : Instant) :
    StepsTo (o.steppedDays ctx t) (test.holds ctx column (.instant t)) := by
  cases h with
  | on | onOrBefore | onOrAfter => exact .pure _
  | day turn => exact Window.holds_steps (.day turn) ctx t
  | lastSevenDays => exact Window.holds_steps .lastSevenDays ctx t
  | nextSevenDays => exact Window.holds_steps .nextSevenDays ctx t
  | lastSpan unit count => exact Window.holds_steps (.lastSpan unit count) ctx t
  | nextSpan unit count => exact Window.holds_steps (.nextSpan unit count) ctx t
  | olderThan unit count => exact Window.holds_steps (.olderThan unit count) ctx t
  | calendar unit turn => exact Window.holds_steps (.calendar unit turn) ctx t
  | _ => cases ho

theorem Asks.isDate {s : FiscalSettings} {declared : Option AttributeType} {o : Operator}
    {test : Test} {expected : Bool} (h : o.Asks s declared test expected)
    (ho : o.comparesDates = true) : Supported declared AttributeType.isDate := by
  cases h <;> first | assumption | cases ho

/-- From two weeks inside the calendar no operator on dates leaves it. -/
theorem inCalendar_of_steppedDays {ctx : Context} (hfirst : firstDay + 13 ≤ ctx.today.day)
    (hlast : ctx.today.day + 14 ≤ lastDay) (o : Operator) (t : Instant) :
    ∀ day ∈ o.steppedDays ctx t, InCalendar day := by
  have hweek : ctx.today.day - 6 ≤ ctx.weekDay ∧ ctx.weekDay ≤ ctx.today.day := by
    have hago := Nat.mod_lt (ctx.today.daysFromSunday + 7 - ctx.weekStart.fromSunday)
      (show 0 < 7 by decide)
    unfold Context.weekDay
    omega
  have hnow : ∀ n : Int, ctx.today.day + n ≤ ctx.now.steppedDay n ∧
      ctx.now.steppedDay n ≤ ctx.today.day + n + 1 := by
    intro n
    unfold Instant.steppedDay Context.today
    split <;> omega
  intro day hday
  unfold InCalendar
  cases o with
  | day turn =>
      have hturn := Window.distance_bounds turn
      rcases List.mem_cons.mp hday with rfl | hday
      · omega
      · cases List.mem_singleton.mp hday
        omega
  | lastSevenDays =>
      have hback := hnow (-7)
      cases List.mem_singleton.mp hday
      omega
  | nextSevenDays =>
      have hforth := hnow 7
      simp only [steppedDays, Window.steppedDays] at hday
      split at hday
      · cases List.mem_singleton.mp hday
        omega
      · cases hday
  | calendar unit turn =>
      have hturn := Window.distance_bounds turn
      cases unit with
      | week =>
          simp only [steppedDays, Window.steppedDays, List.mem_cons, List.not_mem_nil,
            or_false] at hday
          omega
      | month => cases hday
      | year => cases hday
  | _ => cases hday

end Operator

/-! ## Conditions -/

namespace CompiledCondition

variable {c : Condition} {column : String} {e : Entity} {ctx : Context}
  {compiled : CompiledCondition} {row : Record} {v : Value} {t : Instant}

/-- An instant is the key of a declared attribute that holds it, where instants are stored. -/
theorem keyOf_instant (hc : c.compileFor column e ctx = .ok compiled)
    (ho : c.operator.comparesDates = true) (hvalue : row.get? column = some v)
    (hinstant : v.unaliased = .instant t) :
    compiled.keyOf row = .ok ((e.typeOf? (lowercase c.name)).map fun _ => .instant t) := by
  obtain ⟨-, -, test, expected, htest, rfl⟩ := Condition.compileFor_eq_ok_iff.mp hc
  unfold keyOf
  cases hdeclared : e.typeOf? (lowercase c.name) with
  | none => rfl
  | some type =>
      have hdate := (Condition.asks_of_testOf htest).isDate ho type hdeclared
      cases type with
      | dateTime => simp only [Key.ofColumn, hvalue, Key.ofStored, Key.ofValue, hinstant]; rfl
      | _ => cases hdate

/-- **Operators on dates fail near the ends of the calendar only.**  A condition with such an
operator has an answer for an instant if the calendar holds all days that the operator steps to, and
overflows otherwise; from two weeks inside the calendar it always has an answer. -/
theorem evaluate_steps (hc : c.compileFor column e ctx = .ok compiled)
    (ho : c.operator.comparesDates = true) (hvalue : row.get? column = some v)
    (hinstant : v.unaliased = .instant t) (ctx' : Context) :
    ((∃ answer, compiled.evaluate ctx' row = .ok answer) ↔
      e.typeOf? (lowercase c.name) = none ∨
        ∀ day ∈ c.operator.steppedDays ctx' t, InCalendar day) ∧
    (∀ failure, compiled.evaluate ctx' row = .error failure → failure = .calendarOverflow) ∧
    (firstDay + 13 ≤ ctx'.today.day → ctx'.today.day + 14 ≤ lastDay →
      ∃ answer, compiled.evaluate ctx' row = .ok answer) := by
  have hkey := keyOf_instant hc ho hvalue hinstant
  obtain ⟨-, -, test, expected, htest, rfl⟩ := Condition.compileFor_eq_ok_iff.mp hc
  cases hdeclared : e.typeOf? (lowercase c.name) with
  | none =>
      rw [hdeclared] at hkey
      have hanswer : ∃ answer, evaluate ⟨column, none, c.operator, test, expected⟩ ctx' row =
          .ok answer := ⟨_, bind_eq_ok_iff.mpr ⟨none, hkey, rfl⟩⟩
      refine ⟨⟨fun _ => .inl rfl, fun _ => hanswer⟩, fun failure hfailure => ?_, fun _ _ => hanswer⟩
      obtain ⟨answer, hanswer⟩ := hanswer
      cases hanswer.symm.trans hfailure
  | some type =>
      rw [hdeclared] at hkey
      have hasks := Condition.asks_of_testOf htest
      have hsteps : StepsTo (c.operator.steppedDays ctx' t)
          (evaluate ⟨column, some type, c.operator, test, expected⟩ ctx' row) := by
        rw [evaluate, hkey]
        exact (hasks.holds_steps ho ctx' column t).map (· == expected)
      refine ⟨hsteps.exists_ok_iff.trans (by simp), fun failure => hsteps.eq_of_error, ?_⟩
      intro hfirst hlast
      exact hsteps.exists_ok_iff.mpr (c.operator.inCalendar_of_steppedDays hfirst hlast t)

end CompiledCondition

namespace Sample

/-- The condition that the meeting is today. -/
def metToday : Condition := .new "met" (.day .this) []

def compiledToday : CompiledCondition :=
  ⟨"met", some .dateTime, .day .this, .window (.day .this), true⟩

/-- Noon of the last day of the calendar. -/
def lastNoon : Instant :=
  ((Date.ofDay? lastDay).bind fun day => Instant.ofSeconds? day 43200 0).getD default

/-- Whether the meeting is today has an answer at the default moment. -/
theorem evaluate_today :
    metToday.compileFor "met" acquaintance ctx = .ok compiledToday ∧
      ∃ answer, compiledToday.evaluate ctx (ada.set "met" (.instant lastNoon)) = .ok answer := by
  have hc : metToday.compileFor "met" acquaintance ctx = .ok compiledToday := rfl
  have hvalue : (ada.set "met" (.instant lastNoon)).get? "met" = some (.instant lastNoon) := rfl
  obtain ⟨-, -, hinside⟩ := CompiledCondition.evaluate_steps hc rfl hvalue rfl ctx
  exact ⟨hc, hinside (by decide) (by decide)⟩

/-- On the last day of the calendar, whether the meeting is today has none. -/
theorem today_overflows :
    metToday.compileFor "met" acquaintance ctx = .ok compiledToday ∧
      compiledToday.evaluate { ctx with now := lastNoon } (ada.set "met" (.instant lastNoon)) =
        .error .calendarOverflow :=
  ⟨rfl, rfl⟩

end Sample

end RecordQuery

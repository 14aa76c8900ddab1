import RecordQuery.Proofs.Calendar.Shifts
import RecordQuery.Proofs.Query.Answer
import RecordQuery.Proofs.Query.Evaluation

/-!
# Counts of spans

The operators on spans count units back from the clock or on from it, each unit in its own way:

* hours from the clock itself;
* days and weeks from the midnight of its day, a span that starts now ending with a whole day;
* months and years from that midnight too, to the same day of the month or the last day of a month
  that is shorter.

Ages are counted from the clock itself in every unit.  In all of them a larger count leads further,
as far as the calendar reaches.

*Windows.*  The first instant of a longer span is earlier, and its last one later
(`Window.leads_spanStart?`, `Window.leads_spanEnd?`), and an age that is larger was reached earlier
(`Window.leads_ageStart?`).

*Answers.*  A span holds what a shorter one holds, and nothing at all if it reaches out of the
calendar; what is older than an age is older than a smaller one; and what is not behind the clock
lies in a span or is older, if the calendar reaches back that far (`spans_agree`).
-/

namespace RecordQuery

open Text

/-! ## Windows -/

/-- The unit of spans that is also one of ages. -/
def AgeUnit.span : AgeUnit → SpanUnit
  | .days => .days
  | .months => .months
  | .years => .years

namespace Window

/-- The instant at which a span that starts now is over: its last instant for hours, the midnight
behind its last day for the others. -/
def spanEnd? (ctx : Context) (count : Nat) : SpanUnit → Option Instant
  | .hours => ctx.now.addHours? count
  | .days => (ctx.today.addDays? (count + 1)).map .midnight
  | .weeks => (ctx.today.addDays? (7 * count + 1)).map .midnight
  | .months => ((ctx.today.addMonths? count).bind (·.addDays? 1)).map .midnight
  | .years => ((ctx.today.addMonths? (12 * count)).bind (·.addDays? 1)).map .midnight

/-- The instant is not behind a span that is over at another one. -/
def endsBy (last t : Instant) : SpanUnit → Bool
  | .hours => t ≤ last
  | _ => t < last

theorem beforeSpanEnd_eq (ctx : Context) (count : Nat) (t : Instant) (unit : SpanUnit) :
    beforeSpanEnd ctx count t unit = (spanEnd? ctx count unit).any (endsBy · t unit) := by
  cases unit <;> simp only [beforeSpanEnd, spanEnd?, Option.any_map] <;> rfl

variable (ctx : Context)

/-- A longer span that ends now starts earlier. -/
theorem leads_spanStart? (unit : SpanUnit) : Leads (· ≥ ·) (spanStart? ctx · unit) := by
  have hmidnight : ∀ d e : Date, d ≥ e → Instant.midnight d ≥ .midnight e :=
    fun _ _ => Instant.midnight_le
  cases unit with
  | hours => exact ctx.now.steady_addSeconds?.recedes fun m n hle => by omega
  | days => exact (ctx.today.steady_addDays?.recedes fun m n hle => by omega).map hmidnight
  | weeks => exact (ctx.today.steady_addDays?.recedes fun m n hle => by omega).map hmidnight
  | months => exact (ctx.today.steady_addMonths?.recedes fun m n hle => by omega).map hmidnight
  | years => exact (ctx.today.steady_addMonths?.recedes fun m n hle => by omega).map hmidnight

/-- A longer span that starts now is over later. -/
theorem leads_spanEnd? (unit : SpanUnit) : Leads (· ≤ ·) (spanEnd? ctx · unit) := by
  have hmidnight : ∀ d e : Date, d ≤ e → Instant.midnight d ≤ .midnight e :=
    fun _ _ => Instant.midnight_le
  cases unit with
  | hours => exact ctx.now.steady_addSeconds?.advances fun m n hle => by omega
  | days => exact (ctx.today.steady_addDays?.advances fun m n hle => by omega).map hmidnight
  | weeks => exact (ctx.today.steady_addDays?.advances fun m n hle => by omega).map hmidnight
  | months =>
      refine Leads.map (Date.leads_nextDay ?_) hmidnight
      exact ctx.today.steady_addMonths?.advances fun m n hle => by omega
  | years =>
      refine Leads.map (Date.leads_nextDay ?_) hmidnight
      exact ctx.today.steady_addMonths?.advances fun m n hle => by omega

/-- A larger age was reached earlier. -/
theorem leads_ageStart? (unit : AgeUnit) : Leads (· ≥ ·) (ageStart? ctx · unit) := by
  have hdate : ∀ d e : Date, d ≥ e →
      ({ ctx.now with date := d } : Instant) ≥ { ctx.now with date := e } :=
    fun _ _ => ctx.now.withDate_le
  cases unit with
  | days => exact ctx.now.steady_addSeconds?.recedes fun m n hle => by omega
  | months => exact (ctx.today.steady_addMonths?.recedes fun m n hle => by omega).map hdate
  | years => exact (ctx.today.steady_addMonths?.recedes fun m n hle => by omega).map hdate

/-! ## Tests -/

variable {ctx : Context} {t : Instant} {m n : Nat}

/-- A span that ends now holds what a shorter one holds, if it has a start. -/
theorem holds_lastSpan_mono {unit : SpanUnit} (hle : m ≤ n)
    (h : (lastSpan unit m).holds ctx t = .ok true) :
    (lastSpan unit n).holds ctx t = .ok (spanStart? ctx n unit).isSome := by
  refine congrArg Except.ok ?_
  cases hn : spanStart? ctx n unit with
  | none => rfl
  | some b =>
      obtain ⟨a, ha, hba⟩ := leads_spanStart? ctx unit m n b hle hn
      have hin := Except.ok.inj h
      dsimp only at ha
      rw [ha, Option.any_some, Bool.and_eq_true, decide_eq_true_eq, decide_eq_true_eq] at hin
      rw [Option.any_some, Option.isSome_some, Bool.and_eq_true, decide_eq_true_eq,
        decide_eq_true_eq]
      exact ⟨Int.le_trans hba hin.1, hin.2⟩

/-- A span that starts now holds what a shorter one holds, if it has an end. -/
theorem holds_nextSpan_mono {unit : SpanUnit} (hle : m ≤ n)
    (h : (nextSpan unit m).holds ctx t = .ok true) :
    (nextSpan unit n).holds ctx t = .ok (spanEnd? ctx n unit).isSome := by
  refine congrArg Except.ok ?_
  have hin := Except.ok.inj h
  rw [beforeSpanEnd_eq, Bool.and_eq_true, decide_eq_true_eq] at hin
  rw [beforeSpanEnd_eq]
  cases hn : spanEnd? ctx n unit with
  | none => exact Bool.and_false _
  | some b =>
      obtain ⟨a, ha, hab⟩ := leads_spanEnd? ctx unit m n b hle hn
      dsimp only at ha
      rw [ha, Option.any_some] at hin
      rw [Option.any_some, Option.isSome_some, Bool.and_eq_true, decide_eq_true_eq]
      refine ⟨hin.1, ?_⟩
      cases unit with
      | hours => exact decide_eq_true (Int.le_trans (of_decide_eq_true hin.2) hab)
      | _ => exact decide_eq_true (Int.lt_of_lt_of_le (of_decide_eq_true hin.2) hab)

/-- What is older than an age is older than a smaller one. -/
theorem holds_olderThan_anti {unit : AgeUnit} (hle : m ≤ n)
    (h : (olderThan unit n).holds ctx t = .ok true) :
    (olderThan unit m).holds ctx t = .ok true := by
  refine congrArg Except.ok ?_
  obtain ⟨b, hb, hlt⟩ := (Option.any_eq_true ..).mp (Except.ok.inj h)
  obtain ⟨a, ha, hba⟩ := leads_ageStart? ctx unit m n b hle hb
  refine (Option.any_eq_true ..).mpr ⟨a, ha, decide_eq_true ?_⟩
  exact Int.lt_of_lt_of_le (of_decide_eq_true hlt) hba

/-- Where a span has a start, the age of its length was reached, not before that start. -/
theorem exists_ageStart? {unit : AgeUnit} {first : Instant}
    (h : spanStart? ctx n unit.span = some first) :
    ∃ cutoff, ageStart? ctx n unit = some cutoff ∧ first ≤ cutoff := by
  cases unit with
  | days =>
      obtain ⟨d, hd, rfl⟩ := Option.map_eq_some_iff.mp h
      exact ctx.now.exists_addDays?_back (Date.addDays?_eq_some_iff.mp hd)
  | months | years =>
      obtain ⟨d, hd, rfl⟩ := Option.map_eq_some_iff.mp h
      exact ⟨{ ctx.now with date := d }, Option.map_eq_some_iff.mpr ⟨d, hd, rfl⟩,
        Instant.midnight_date_le _⟩

/-- What is not behind the clock lies in a span that has a start or is older. -/
theorem holds_lastSpan_or_olderThan {unit : AgeUnit} (hpast : t ≤ ctx.now)
    (hstart : (spanStart? ctx n unit.span).isSome = true) :
    ∃ last older, (lastSpan unit.span n).holds ctx t = .ok last ∧
      (olderThan unit n).holds ctx t = .ok older ∧ (last || older) = true := by
  refine ⟨_, _, rfl, rfl, ?_⟩
  obtain ⟨first, hfirst⟩ := Option.isSome_iff_exists.mp hstart
  obtain ⟨cutoff, hcutoff, hle⟩ := exists_ageStart? hfirst
  rw [hfirst, hcutoff, Option.any_some, Option.any_some, Bool.or_eq_true, Bool.and_eq_true,
    decide_eq_true_eq, decide_eq_true_eq, decide_eq_true_eq]
  by_cases hin : first ≤ t
  · exact .inl ⟨hin, hpast⟩
  · exact .inr (Int.lt_of_lt_of_le (Int.not_le.mp hin) hle)

end Window

/-! ## Answers -/

/-- The literal names a number of units that operators on spans take. -/
structure CountedBy (name : String) (n : Nat) (v : Value) : Prop where
  whole : wholeLiteral name v = .ok n
  fits : fitsUnsigned 32 n = true

theorem Condition.countLiteral_eq_ok_iff {name : String} {o : Operator} {v : Value} {n : Nat} :
    countLiteral name o v = .ok n ↔ CountedBy name n v := by
  rw [countLiteral, bind_eq_ok_iff]
  constructor
  · rintro ⟨whole, hwhole, h⟩
    split at h
    next hfits =>
      have hpos : 0 ≤ whole := of_decide_eq_true (Bool.and_eq_true_iff.mp hfits).1
      cases h
      rw [← Int.toNat_of_nonneg hpos] at hwhole hfits
      exact ⟨hwhole, hfits⟩
    next => cases h
  · rintro ⟨hwhole, hfits⟩
    exact ⟨n, hwhole, by rw [if_pos hfits]; rfl⟩

section Answers

variable {e : Entity} {ctx : Context} {row : Record} {name : String} {t : Instant} {n : Nat}
  {v : Value}

namespace HoldsInstant

/-- An operator that counts answers with its window for the count. -/
theorem answer_counted (h : HoldsInstant e row name t) {o : Operator} {window : Nat → Window}
    (harity : o.arity = .one)
    (htest : Condition.testOf ctx (lowercase name) (some .dateTime) o [v] =
      Condition.requireType (lowercase name) (some .dateTime) AttributeType.isDate >>= fun _ =>
        Condition.countLiteral (lowercase name) o v >>= fun n => .ok (.window (window n), true))
    (hn : CountedBy (lowercase name) n v) :
    e.answer ctx row name o [v] = (window n).holds ctx t := by
  rw [h.answer_of_read harity htest (Condition.countLiteral_eq_ok_iff.mpr hn)]
  change ((window n).holds ctx t).map (· == true) = _
  cases (window n).holds ctx t with
  | error failure => rfl
  | ok b => exact congrArg Except.ok (beq_true b)

theorem answer_lastSpan (h : HoldsInstant e row name t) (hn : CountedBy (lowercase name) n v)
    (unit : SpanUnit) :
    e.answer ctx row name (.lastSpan unit) [v] = (Window.lastSpan unit n).holds ctx t :=
  h.answer_counted rfl rfl hn

theorem answer_nextSpan (h : HoldsInstant e row name t) (hn : CountedBy (lowercase name) n v)
    (unit : SpanUnit) :
    e.answer ctx row name (.nextSpan unit) [v] = (Window.nextSpan unit n).holds ctx t :=
  h.answer_counted rfl rfl hn

theorem answer_olderThan (h : HoldsInstant e row name t) (hn : CountedBy (lowercase name) n v)
    (unit : AgeUnit) :
    e.answer ctx row name (.olderThan unit) [v] = (Window.olderThan unit n).holds ctx t :=
  h.answer_counted rfl rfl hn

end HoldsInstant

/-- How the answers of the operators on spans depend on the count. -/
structure SpansAgree (e : Entity) (ctx : Context) (row : Record) (name : String) (t : Instant) :
    Prop where
  /-- What lies in a span that ends now lies in a longer one, if that one has a start; otherwise
  nothing lies in the longer one. -/
  last : ∀ {m n : Nat} {v w : Value} (unit : SpanUnit), m ≤ n → CountedBy (lowercase name) m v →
    CountedBy (lowercase name) n w → e.answer ctx row name (.lastSpan unit) [v] = .ok true →
      e.answer ctx row name (.lastSpan unit) [w] = .ok (Window.spanStart? ctx n unit).isSome
  /-- What lies in a span that starts now lies in a longer one, if that one has an end; otherwise
  nothing lies in the longer one. -/
  next : ∀ {m n : Nat} {v w : Value} (unit : SpanUnit), m ≤ n → CountedBy (lowercase name) m v →
    CountedBy (lowercase name) n w → e.answer ctx row name (.nextSpan unit) [v] = .ok true →
      e.answer ctx row name (.nextSpan unit) [w] = .ok (Window.spanEnd? ctx n unit).isSome
  /-- What is older than an age is older than a smaller one. -/
  older : ∀ {m n : Nat} {v w : Value} (unit : AgeUnit), m ≤ n → CountedBy (lowercase name) m v →
    CountedBy (lowercase name) n w → e.answer ctx row name (.olderThan unit) [w] = .ok true →
      e.answer ctx row name (.olderThan unit) [v] = .ok true
  /-- What is not behind the clock lies in a span that has a start or is older. -/
  covered : ∀ {n : Nat} {v : Value} (unit : AgeUnit), t ≤ ctx.now →
    CountedBy (lowercase name) n v → (Window.spanStart? ctx n unit.span).isSome = true →
      ∃ last older, e.answer ctx row name (.lastSpan unit.span) [v] = .ok last ∧
        e.answer ctx row name (.olderThan unit) [v] = .ok older ∧ (last || older) = true

/-- **Larger counts.**  On an attribute that holds an instant, a larger count of units loses no
match as long as the calendar reaches to the end of the span, and a larger age gains none. -/
theorem spans_agree (h : HoldsInstant e row name t) : SpansAgree e ctx row name t := by
  constructor
  case last =>
    intro m n v w unit hle hm hn hin
    rw [h.answer_lastSpan hm] at hin
    rw [h.answer_lastSpan hn]
    exact Window.holds_lastSpan_mono hle hin
  case next =>
    intro m n v w unit hle hm hn hin
    rw [h.answer_nextSpan hm] at hin
    rw [h.answer_nextSpan hn]
    exact Window.holds_nextSpan_mono hle hin
  case older =>
    intro m n v w unit hle hm hn hold
    rw [h.answer_olderThan hn] at hold
    rw [h.answer_olderThan hm]
    exact Window.holds_olderThan_anti hle hold
  case covered =>
    intro n v unit hpast hn hstart
    rw [h.answer_lastSpan hn, h.answer_olderThan hn]
    exact Window.holds_lastSpan_or_olderThan hpast hstart

end Answers

namespace Sample

/-- A second of 15 March 2024. -/
def inMarch (second : Int) : Instant :=
  ((Date.ofCivil? 2024 3 15).bind fun d => Instant.ofSeconds? d second 0).getD default

/-- The clock shows noon. -/
def noonCtx : Context := { ctx with now := inMarch 43200 }

/-- They met at nine in the morning. -/
def metAtNine : Record := ada.set "met" (.instant (inMarch 32400))

/-- The meeting lies in the last day, so it lies in the last two. -/
theorem spans_agree_met :
    HoldsInstant acquaintance metAtNine "met" (inMarch 32400) ∧
      SpansAgree acquaintance noonCtx metAtNine "met" (inMarch 32400) ∧
      acquaintance.answer noonCtx metAtNine "met" (.lastSpan .days) [.int 2] = .ok true := by
  have hmet : HoldsInstant acquaintance metAtNine "met" (inMarch 32400) :=
    ⟨rfl, .instant (inMarch 32400), rfl, rfl⟩
  have hagree : SpansAgree acquaintance noonCtx metAtNine "met" (inMarch 32400) := spans_agree hmet
  have hday : acquaintance.answer noonCtx metAtNine "met" (.lastSpan .days) [.int 1] = .ok true :=
    rfl
  exact ⟨hmet, hagree, hagree.last .days (m := 1) (n := 2) (by decide) ⟨rfl, rfl⟩ ⟨rfl, rfl⟩ hday⟩

/-- The meeting lies in the last day, and not in as many days as a count can be. -/
theorem longer_span_loses :
    CountedBy "met" 1 (.int 1) ∧ CountedBy "met" 4294967295 (.bigint 4294967295) ∧
      acquaintance.answer noonCtx metAtNine "met" (.lastSpan .days) [.int 1] = .ok true ∧
      acquaintance.answer noonCtx metAtNine "met" (.lastSpan .days) [.bigint 4294967295] =
        .ok false :=
  ⟨⟨rfl, rfl⟩, ⟨rfl, rfl⟩, rfl, rfl⟩

end Sample

end RecordQuery

import RecordQuery.Proofs.Calendar.Months
import RecordQuery.Proofs.Calendar.Reach

/-!
# Shifts by a count

A shift moves a date or an instant by a number of units, back or on, and may leave the calendar.
What lies between two shifts that can be made can be made, and leads to what lies between
(`Steady`).  As the shift by nothing can be made, this holds of a shorter shift in either direction.

*Dates.*  Shifts by days and by months lead to days that are in order, and that is all there is to
it (`Date.steady_ofDay?`).

*Instants.*  A shift by seconds does not go from the instant itself if that lies in a leap second,
so shifts are compared by the seconds that they lead to (`Instant.steady_addSeconds?`).

*Counts.*  `Leads` says the same of a shift whose length depends on a count of units.
-/

namespace RecordQuery

/-! ## One direction -/

/-- Where a shift by a count of units can be made, one by a smaller count can be, and what it leads
to stands in a relation to what the larger count leads to. -/
def Leads (r : α → α → Prop) (f : Nat → Option α) : Prop :=
  ∀ (m n : Nat) (b : α), m ≤ n → f n = some b → ∃ a, f m = some a ∧ r a b

theorem Leads.map {r : α → α → Prop} {s : β → β → Prop} {f : Nat → Option α} {g : α → β}
    (h : Leads r f) (hg : ∀ a b, r a b → s (g a) (g b)) : Leads s fun n => (f n).map g := by
  intro m n c hle hc
  obtain ⟨b, hb, rfl⟩ := Option.map_eq_some_iff.mp hc
  obtain ⟨a, ha, hrel⟩ := h m n b hle hb
  exact ⟨g a, Option.map_eq_some_iff.mpr ⟨a, ha, rfl⟩, hg a b hrel⟩

/-- The shift by nothing leads to the start, and between two shifts that can be made all can be made
and lead to what lies between. -/
structure Steady [LE α] (start : α) (shift : Int → Option α) : Prop where
  zero : shift 0 = some start
  between : ∀ {l m n : Int} {a c : α}, l ≤ m → m ≤ n → shift l = some a → shift n = some c →
    ∃ b, shift m = some b ∧ a ≤ b ∧ b ≤ c

namespace Steady

variable [LE α] {start : α} {shift : Int → Option α} {distance : Nat → Int}

/-- Back by a larger count it is no later. -/
theorem recedes (h : Steady start shift)
    (hback : ∀ m n, m ≤ n → distance n ≤ distance m ∧ distance m ≤ 0) :
    Leads (· ≥ ·) fun n => shift (distance n) := by
  intro m n b hle hb
  obtain ⟨hfurther, hbehind⟩ := hback m n hle
  obtain ⟨a, ha, hba, -⟩ := h.between hfurther hbehind hb h.zero
  exact ⟨a, ha, hba⟩

/-- On by a larger count it is no earlier. -/
theorem advances (h : Steady start shift)
    (hon : ∀ m n, m ≤ n → 0 ≤ distance m ∧ distance m ≤ distance n) :
    Leads (· ≤ ·) fun n => shift (distance n) := by
  intro m n b hle hb
  obtain ⟨hbefore, hfurther⟩ := hon m n hle
  obtain ⟨a, ha, -, hab⟩ := h.between hbefore hfurther h.zero hb
  exact ⟨a, ha, hab⟩

end Steady

namespace Date

/-- Days that are in order are reached one after another. -/
theorem steady_ofDay? (d : Date) {day : Int → Int} (hzero : day 0 = d.day)
    (hmono : ∀ {m n}, m ≤ n → day m ≤ day n) : Steady d fun n => ofDay? (day n) where
  zero := ofDay?_eq_some_iff.mpr hzero.symm
  between := by
    intro l m n a c hlow hhigh ha hc
    rw [ofDay?_eq_some_iff] at ha hc
    obtain ⟨b, hb⟩ := exists_between (ha ▸ hmono hlow) (hc ▸ hmono hhigh)
    refine ⟨b, ofDay?_eq_some_iff.mpr hb, ?_, ?_⟩
    · change a.day ≤ b.day
      rw [ha, hb]
      exact hmono hlow
    · change b.day ≤ c.day
      rw [hb, hc]
      exact hmono hhigh

theorem steady_addDays? (d : Date) : Steady d d.addDays? :=
  d.steady_ofDay? (Int.add_zero _) fun hle => Int.add_le_add_left hle _

theorem steady_addMonths? (d : Date) : Steady d d.addMonths? := by
  rw [show d.addMonths? = fun n => ofDay? (d.monthDay n) from funext d.addMonths?_eq]
  exact d.steady_ofDay? d.monthDay_zero d.monthDay_mono

/-- The days behind those that shifts lead to. -/
theorem leads_nextDay {f : Nat → Option Date} (h : Leads (· ≤ ·) f) :
    Leads (· ≤ ·) fun n => (f n).bind (·.addDays? 1) := by
  intro m n c hle hc
  obtain ⟨b, hb, hc⟩ := Option.bind_eq_some_iff.mp hc
  obtain ⟨a, ha, hab⟩ := h m n b hle hb
  change a.day ≤ b.day at hab
  rw [addDays?_eq_some_iff] at hc
  obtain ⟨next, hnext⟩ := exists_between (d := a) (e := c) (n := a.day + 1) (by omega) (by omega)
  refine ⟨next, Option.bind_eq_some_iff.mpr ⟨a, ha, addDays?_eq_some_iff.mpr hnext⟩, ?_⟩
  change next.day ≤ c.day
  omega

end Date

namespace Instant

variable {j : Instant}

/-- A date begins at its midnight. -/
theorem midnight_le_iff {d : Date} {t : Instant} : midnight d ≤ t ↔ d.day ≤ t.date.day := by
  have hsecond := t.second_lt
  have hnano := t.nano_lt
  change (midnight d).rank ≤ t.rank ↔ _
  unfold rank midnight
  simp only
  omega

theorem lt_midnight_iff {d : Date} {t : Instant} : t < midnight d ↔ t.date.day < d.day := by
  rw [← Int.not_le, ← midnight_le_iff]
  exact Int.not_le.symm

/-- A later instant does not lie on an earlier date. -/
theorem day_le_of_lt {s t : Instant} (h : s < t) : s.date.day ≤ t.date.day :=
  midnight_le_iff.mp (Int.le_trans (midnight_le_iff.mpr (Int.le_refl _)) (Int.le_of_lt h))

theorem midnight_le {d e : Date} (h : d ≤ e) : midnight d ≤ midnight e := midnight_le_iff.mpr h

theorem midnight_date_le (i : Instant) : midnight i.date ≤ i := midnight_le_iff.mpr (Int.le_refl _)

/-- Instants of one time of day are in the order of their dates. -/
theorem withDate_le (i : Instant) {d e : Date} (h : d ≤ e) :
    ({ i with date := d } : Instant) ≤ { i with date := e } := by
  change d.day ≤ e.day at h
  change (d.day * 86400 + i.second) * 2000000000 + i.nano ≤
    (e.day * 86400 + i.second) * 2000000000 + i.nano
  omega

theorem rank_of_ofSeconds? {d : Date} {seconds : Int} {nano : Nat}
    (h : ofSeconds? d seconds nano = some j) :
    j.rank = (d.day * 86400 + seconds) * 2000000000 + nano := by
  obtain ⟨hseconds, hnano⟩ := ofSeconds?_eq_some_iff.mp h
  rw [rank, hseconds, hnano]

/-- A longer step leads to a later second. -/
theorem steppedSecond_mono (i : Instant) {m n : Int} (h : m ≤ n) :
    i.steppedSecond m ≤ i.steppedSecond n := by
  unfold steppedSecond
  split <;> split <;> omega

/-- A longer step leads no earlier. -/
theorem addSeconds?_mono {i a b : Instant} {m n : Int} (h : m ≤ n) (ha : i.addSeconds? m = some a)
    (hb : i.addSeconds? n = some b) : a ≤ b := by
  have hnano := i.nano_lt
  have hrank : ∀ {k : Int} {j : Instant}, i.addSeconds? k = some j → j.rank =
      (i.date.day * 86400 + i.steppedSecond k) * 2000000000 +
        (if k = 0 then i.nano else i.nano % 1000000000 : Nat) := by
    intro k j hj
    by_cases hk : k = 0
    · -- no step is taken at all
      rw [addSeconds?, if_pos hk, Option.some.injEq] at hj
      rw [if_pos hk, steppedSecond, if_neg (by omega), hk, Int.add_zero, ← hj, rank]
    · rw [i.addSeconds?_eq hk] at hj
      rw [if_neg hk, rank_of_ofSeconds? hj]
  have hseconds := i.steppedSecond_mono h
  change a.rank ≤ b.rank
  rw [hrank ha, hrank hb]
  unfold steppedSecond at hseconds ⊢
  split <;> split <;> split <;> split <;> omega

theorem steady_addSeconds? (i : Instant) : Steady i i.addSeconds? where
  zero := if_pos rfl
  between := by
    intro l m n a c hlow hhigh ha hc
    have hreach := i.isSome_addSeconds?_iff.mp (Option.isSome_of_eq_some ha)
    have hreach' := i.isSome_addSeconds?_iff.mp (Option.isSome_of_eq_some hc)
    have hbehind := i.steppedSecond_mono hlow
    have hbefore := i.steppedSecond_mono hhigh
    have hbetween : InCalendar (i.date.day + i.steppedSecond m / 86400) := by
      unfold InCalendar at hreach hreach' ⊢
      omega
    obtain ⟨b, hb⟩ := Option.isSome_iff_exists.mp (i.isSome_addSeconds?_iff.mpr hbetween)
    exact ⟨b, hb, addSeconds?_mono hlow ha hb, addSeconds?_mono hhigh hb hc⟩

/-- The same time of day some days earlier, or the second behind it, is not before the midnight of
that day. -/
theorem exists_addDays?_back (i : Instant) {d : Date} {n : Nat} (hd : d.day = i.date.day + -n) :
    ∃ j, i.addDays? (-n) = some j ∧ midnight d ≤ j := by
  by_cases hn : n = 0
  · refine ⟨i, by rw [hn]; rfl, ?_⟩
    rw [show d = i.date from Date.day_injective (by omega)]
    exact i.midnight_date_le
  · have hsecond := i.second_lt
    have hfirst := d.first_le
    have hlast := i.date.le_last
    have hstepped : 86400 * -(n : Int) ≤ i.steppedSecond (86400 * -n) ∧
        i.steppedSecond (86400 * -n) ≤ 86400 + 86400 * -(n : Int) := by
      unfold steppedSecond
      split <;> omega
    have hreach : InCalendar (i.date.day + i.steppedSecond (86400 * -n) / 86400) := by
      unfold InCalendar
      omega
    obtain ⟨j, hj⟩ := Option.isSome_iff_exists.mp (i.isSome_addSeconds?_iff.mpr hreach)
    refine ⟨j, hj, midnight_le_iff.mpr ?_⟩
    rw [i.addSeconds?_eq (by omega)] at hj
    obtain ⟨hseconds, -⟩ := ofSeconds?_eq_some_iff.mp hj
    have hbound := j.second_lt
    omega

end Instant

end RecordQuery

import Mathlib.Data.List.Induction
import Mathlib.Data.List.Nodup
import Mathlib.Logic.Function.Basic
import RecordQuery.Proofs.NameMap
import RecordQuery.Proofs.Sample
import RecordQuery.Schema.Catalog

/-!
# Registrations side by side

To register an entity type a caller reads the current schema, adds the entity type to that copy,
and applies the copy.  Each of the three is one step, and several callers may take their steps in
any order.  A schedule is the list of the callers in the order of the steps.

What a caller applies replaces whatever was applied since it read, so an entity type may be
registered and yet be missing when all calls are done (`Sample.account_lost`).  `Timely` says of a
schedule that every step which applies a copy does what `Catalog.register` does.  Timely schedules
lose nothing (`present_of_timely`), and they are the only ones if no entity type to be registered
stands in the catalog before (`timely_of_present`).

The second half rests on an invariant of the copies (`Invariant`): no copy holds what was not
applied yet, and each is the current schema or lacks something that was applied.  A step that
applies a copy of the second kind leaves that entity type missing.
-/

namespace RecordQuery

namespace Catalog

/-! ## Callers and their steps -/

/-- Where a caller stands in a registration. -/
inductive Phase where
  | between
  /-- It holds a copy of the schema that was current when it read. -/
  | copied (e : Entity) (s : Schema)
  /-- It has added the entity type to its copy. -/
  | added (e : Entity) (s : Schema)
deriving DecidableEq, Repr

/-- A caller and the entity types that it has not begun to register. -/
structure Caller where
  phase : Phase
  waiting : List Entity
deriving DecidableEq, Repr

namespace Caller

/-- The entity types whose registration has not ended. -/
def pending : Caller → List Entity
  | ⟨.between, es⟩ => es
  | ⟨.copied e _, es⟩ => e :: es
  | ⟨.added e _, es⟩ => e :: es

/-- A caller in the middle of a registration began with a copy of which this holds. -/
def BeganWith (P : Schema → Prop) (caller : Caller) : Prop :=
  match caller.phase with
  | .between => True
  | .copied _ s => P s
  | .added e s => ∃ t, s = t.addEntity e ∧ P t

theorem BeganWith.mono {P Q : Schema → Prop} (h : ∀ s, P s → Q s) {caller : Caller}
    (hP : caller.BeganWith P) : caller.BeganWith Q := by
  obtain ⟨phase, waiting⟩ := caller
  cases phase with
  | between => exact trivial
  | copied e s => exact h s hP
  | added e s =>
      obtain ⟨t, hs, ht⟩ := hP
      exact ⟨t, hs, h t ht⟩

end Caller

/-- A catalog and its callers, which are numbered. -/
structure System where
  catalog : Catalog
  callers : Nat → Caller

namespace System

/-- No caller has begun. -/
def start (c : Catalog) (registrations : Nat → List Entity) : System :=
  ⟨c, fun i => ⟨.between, registrations i⟩⟩

/-- Where one caller stands is changed. -/
def put (sys : System) (i : Nat) (caller : Caller) : System :=
  { sys with callers := Function.update sys.callers i caller }

@[simp] theorem catalog_put (sys : System) (i : Nat) (caller : Caller) :
    (sys.put i caller).catalog = sys.catalog := rfl

@[simp] theorem callers_put_self (sys : System) (i : Nat) (caller : Caller) :
    (sys.put i caller).callers i = caller :=
  Function.update_self ..

theorem callers_put_of_ne (sys : System) {i j : Nat} (h : j ≠ i) (caller : Caller) :
    (sys.put i caller).callers j = sys.callers j :=
  Function.update_of_ne h ..

/-- A caller takes its next step; one that is done does nothing. -/
def step (sys : System) (i : Nat) : System :=
  match sys.callers i with
  | ⟨.between, []⟩ => sys
  | ⟨.between, e :: es⟩ => sys.put i ⟨.copied e sys.catalog.current, es⟩
  | ⟨.copied e s, es⟩ => sys.put i ⟨.added e (s.addEntity e), es⟩
  | ⟨.added _ s, es⟩ => { sys.put i ⟨.between, es⟩ with catalog := sys.catalog.apply s }

/-- The callers take steps in the order of a schedule. -/
def run (sys : System) (schedule : List Nat) : System := schedule.foldl step sys

/-- All calls are done. -/
def Finished (sys : System) : Prop := ∀ i, sys.callers i = ⟨.between, []⟩

theorem run_concat (sys : System) (schedule : List Nat) (i : Nat) :
    sys.run (schedule ++ [i]) = (sys.run schedule).step i :=
  List.foldl_append

/-- A registration without the steps of others is `Catalog.register`. -/
theorem run_alone {sys : System} {i : Nat} {e : Entity} {es : List Entity}
    (h : sys.callers i = ⟨.between, e :: es⟩) :
    (sys.run [i, i, i]).catalog = sys.catalog.register e := by
  simp [run, step, h, register]

/-- A step does nothing, takes a copy, adds to a copy, or applies one. -/
theorem step_cases (sys : System) (i : Nat) :
    (sys.callers i = ⟨.between, []⟩ ∧ sys.step i = sys) ∨
      (∃ e es, sys.callers i = ⟨.between, e :: es⟩ ∧
        sys.step i = sys.put i ⟨.copied e sys.catalog.current, es⟩) ∨
      (∃ e s es, sys.callers i = ⟨.copied e s, es⟩ ∧
        sys.step i = sys.put i ⟨.added e (s.addEntity e), es⟩) ∨
      ∃ e s es, sys.callers i = ⟨.added e s, es⟩ ∧
        sys.step i = { sys.put i ⟨.between, es⟩ with catalog := sys.catalog.apply s } := by
  cases hi : sys.callers i with
  | mk phase waiting =>
      cases phase with
      | between =>
          cases waiting with
          | nil => exact .inl ⟨rfl, by rw [step, hi]⟩
          | cons e es => exact .inr (.inl ⟨e, es, rfl, by rw [step, hi]⟩)
      | copied e s => exact .inr (.inr (.inl ⟨e, s, waiting, rfl, by rw [step, hi]⟩))
      | added e s => exact .inr (.inr (.inr ⟨e, s, waiting, rfl, by rw [step, hi]⟩))

/-! ## Schedules that lose nothing -/

/-- Every step of the schedule that applies a copy does what an undivided registration does. -/
def Timely (sys : System) (schedule : List Nat) : Prop :=
  ∀ before i, before ++ [i] <+: schedule → ∀ e s es,
    (sys.run before).callers i = ⟨.added e s, es⟩ →
      (sys.run before).catalog.apply s = (sys.run before).catalog.register e

theorem timely_concat {sys : System} {schedule : List Nat} {i : Nat} :
    sys.Timely (schedule ++ [i]) ↔ sys.Timely schedule ∧ ∀ e s es,
      (sys.run schedule).callers i = ⟨.added e s, es⟩ →
        (sys.run schedule).catalog.apply s = (sys.run schedule).catalog.register e := by
  constructor
  · intro h
    refine ⟨fun before j hbefore => h before j (hbefore.trans (List.prefix_append ..)), ?_⟩
    exact h schedule i (List.prefix_refl _)
  · rintro ⟨hschedule, hlast⟩ before j hbefore
    rcases List.prefix_concat_iff.mp hbefore with heq | hprefix
    · obtain ⟨rfl, hj⟩ := List.append_inj' heq rfl
      cases hj
      exact hlast
    · exact hschedule before j hprefix

end System

/-- No two registrations are of the same name. -/
def DistinctNames (registrations : Nat → List Entity) : Prop :=
  (∀ i, ((registrations i).map (·.name)).Nodup) ∧
    ∀ i j, i ≠ j → ∀ e ∈ registrations i, ∀ f ∈ registrations j, e.name ≠ f.name

/-- The registrations of a name are one. -/
theorem DistinctNames.eq_of_name_eq {registrations : Nat → List Entity}
    (h : DistinctNames registrations) {i j : Nat} {e f : Entity} (he : e ∈ registrations i)
    (hf : f ∈ registrations j) (hname : e.name = f.name) : i = j ∧ e = f := by
  by_cases hij : i = j
  · subst hij
    exact ⟨rfl, List.inj_on_of_nodup_map (h.1 i) he hf hname⟩
  · exact absurd hname (h.2 i j hij e he f hf)

/-- No registered entity type stands in the catalog already. -/
def AllNew (registrations : Nat → List Entity) (c : Catalog) : Prop :=
  ∀ i, ∀ e ∈ registrations i, NameMap.get? c.current.entities e.name ≠ some e

namespace System

/-- The registration of an entity type has ended. -/
def Applied (registrations : Nat → List Entity) (sys : System) (e : Entity) : Prop :=
  ∃ i, e ∈ registrations i ∧ e ∉ (sys.callers i).pending

/-- What is pending with a caller is the rest of what it registers. -/
def InOrder (registrations : Nat → List Entity) (sys : System) : Prop :=
  ∀ i, (sys.callers i).pending <:+ registrations i

/-- Every entity type whose registration has ended stands in the current schema. -/
def Present (registrations : Nat → List Entity) (sys : System) : Prop :=
  ∀ f, Applied registrations sys f →
    NameMap.get? sys.catalog.current.entities f.name = some f

section Registrations

variable {registrations : Nat → List Entity} {sys : System} {i : Nat} {e f : Entity} {s : Schema}
  {es : List Entity}

theorem pending_put {caller : Caller} (h : caller.pending = (sys.callers i).pending) (j : Nat) :
    ((sys.put i caller).callers j).pending = (sys.callers j).pending := by
  by_cases hj : j = i
  · subst hj
    rw [callers_put_self, h]
  · rw [callers_put_of_ne _ hj]

theorem step_of_added (hi : sys.callers i = ⟨.added e s, es⟩) :
    sys.step i = { sys.put i ⟨.between, es⟩ with catalog := sys.catalog.apply s } := by
  rw [step, hi]

/-- After the step the current schema is that of the copy. -/
theorem entities_step_of_added (hi : sys.callers i = ⟨.added e s, es⟩) :
    (sys.step i).catalog.current.entities = s.entities := by
  rw [step_of_added hi]
  rfl

/-- A step applies a copy, or it keeps the catalog and what is pending. -/
theorem added_or_kept (sys : System) (i : Nat) :
    (∃ e s es, sys.callers i = ⟨.added e s, es⟩) ∨
      (∀ e s es, sys.callers i ≠ ⟨.added e s, es⟩) ∧ (sys.step i).catalog = sys.catalog ∧
        ∀ j, ((sys.step i).callers j).pending = (sys.callers j).pending := by
  rcases sys.step_cases i with ⟨hi, h⟩ | ⟨e, es, hi, h⟩ | ⟨e, s, es, hi, h⟩ | ⟨e, s, es, hi, -⟩
  · exact .inr ⟨by simp [hi], by rw [h], fun j => by rw [h]⟩
  · exact .inr ⟨by simp [hi], by rw [h, catalog_put],
      fun j => by rw [h, pending_put (by rw [hi]; rfl)]⟩
  · exact .inr ⟨by simp [hi], by rw [h, catalog_put],
      fun j => by rw [h, pending_put (by rw [hi]; rfl)]⟩
  · exact .inl ⟨e, s, es, hi⟩

theorem pending_of_added (hi : sys.callers i = ⟨.added e s, es⟩) :
    (sys.callers i).pending = e :: es := by
  rw [hi]
  rfl

theorem pending_step_self (hi : sys.callers i = ⟨.added e s, es⟩) :
    ((sys.step i).callers i).pending = es := by
  rw [step_of_added hi]
  exact congrArg Caller.pending (callers_put_self ..)

theorem pending_step_of_ne (hi : sys.callers i = ⟨.added e s, es⟩) {j : Nat} (hj : j ≠ i) :
    ((sys.step i).callers j).pending = (sys.callers j).pending := by
  rw [step_of_added hi]
  exact congrArg Caller.pending (callers_put_of_ne _ hj _)

/-- Callers end their registrations in order. -/
theorem InOrder.step (h : InOrder registrations sys) : InOrder registrations (sys.step i) := by
  intro j
  rcases sys.added_or_kept i with ⟨e, s, es, hi⟩ | ⟨-, -, hpending⟩
  · by_cases hj : j = i
    · subst hj
      rw [pending_step_self hi]
      refine (List.suffix_cons e es).trans ?_
      rw [← pending_of_added hi]
      exact h j
    · rw [pending_step_of_ne hi hj]
      exact h j
  · rw [hpending j]
    exact h j

/-- Where the same is pending, the same has been applied. -/
theorem applied_congr {sys' : System}
    (h : ∀ j, (sys'.callers j).pending = (sys.callers j).pending) :
    Applied registrations sys' f ↔ Applied registrations sys f := by
  simp only [Applied, h]

section Added

variable (hnames : DistinctNames registrations) (horder : InOrder registrations sys)
  (hi : sys.callers i = ⟨.added e s, es⟩)
include hnames horder hi

/-- A step that applies a copy ends the registration of one entity type. -/
theorem applied_step_iff :
    Applied registrations (sys.step i) f ↔ Applied registrations sys f ∨ f = e := by
  have hsuffix : e :: es <:+ registrations i := pending_of_added hi ▸ horder i
  have hnew : e ∉ es := (List.nodup_cons.mp ((hnames.1 i).of_map.sublist hsuffix.sublist)).1
  constructor
  · rintro ⟨j, hf, hended⟩
    by_cases hj : j = i
    · subst hj
      by_cases hfe : f = e
      · exact .inr hfe
      · rw [pending_step_self hi] at hended
        refine .inl ⟨j, hf, ?_⟩
        rw [pending_of_added hi]
        exact List.not_mem_cons_of_ne_of_not_mem hfe hended
    · exact .inl ⟨j, hf, pending_step_of_ne hi hj ▸ hended⟩
  · rintro (⟨j, hf, hended⟩ | rfl)
    · refine ⟨j, hf, ?_⟩
      by_cases hj : j = i
      · subst hj
        rw [pending_of_added hi] at hended
        rw [pending_step_self hi]
        exact fun h => hended (.tail _ h)
      · rwa [pending_step_of_ne hi hj]
    · exact ⟨i, hsuffix.subset (.head _), pending_step_self hi ▸ hnew⟩

/-- No entity type that was applied has the name of one that is about to be. -/
theorem name_ne_of_applied (hf : Applied registrations sys f) : e.name ≠ f.name := by
  intro hname
  obtain ⟨j, hf, hended⟩ := hf
  have hpending : e ∈ (sys.callers i).pending := pending_of_added hi ▸ .head _
  obtain ⟨rfl, rfl⟩ := hnames.eq_of_name_eq ((horder i).subset hpending) hf hname
  exact hended hpending

end Added

/-! ## Timely schedules lose nothing -/

/-- A step that does what an undivided registration does keeps what was applied. -/
theorem Present.step (hnames : DistinctNames registrations) (horder : InOrder registrations sys)
    (htimely : ∀ e s es, sys.callers i = ⟨.added e s, es⟩ →
      sys.catalog.apply s = sys.catalog.register e)
    (h : Present registrations sys) : Present registrations (sys.step i) := by
  intro f hf
  rcases sys.added_or_kept i with ⟨e, s, es, hi⟩ | ⟨-, hcatalog, hpending⟩
  · have hentities : s.entities = NameMap.insert sys.catalog.current.entities e.name e :=
      congrArg (fun c : Catalog => c.current.entities) (htimely e s es hi)
    rw [entities_step_of_added hi, hentities, NameMap.get?_insert]
    rcases (applied_step_iff hnames horder hi).mp hf with hf | rfl
    · rw [if_neg (name_ne_of_applied hnames horder hi hf), h f hf]
    · rw [if_pos rfl]
  · rw [hcatalog]
    exact h f ((applied_congr hpending).mp hf)

/-! ## Copies -/

/-- A copy holds nothing that was not applied yet, and it is the current schema or lacks something
that was applied. -/
structure Copy (registrations : Nat → List Entity) (sys : System) (s : Schema) : Prop where
  applied : ∀ i, ∀ f ∈ registrations i, NameMap.get? s.entities f.name = some f →
    Applied registrations sys f
  current_or_stale : s = sys.catalog.current ∨
    ∃ f, Applied registrations sys f ∧ NameMap.get? s.entities f.name ≠ some f

theorem Copy.congr {sys' : System} (hcatalog : sys'.catalog = sys.catalog)
    (hpending : ∀ j, (sys'.callers j).pending = (sys.callers j).pending)
    (h : Copy registrations sys s) : Copy registrations sys' s where
  applied j f hf hfound := (applied_congr hpending).mpr (h.applied j f hf hfound)
  current_or_stale := by
    rw [hcatalog]
    refine h.current_or_stale.imp id ?_
    rintro ⟨f, hf, hlacks⟩
    exact ⟨f, (applied_congr hpending).mpr hf, hlacks⟩

/-- The step that applies one copy makes every other one stale. -/
theorem Copy.step_of_added {t : Schema} (hnames : DistinctNames registrations)
    (horder : InOrder registrations sys) (hi : sys.callers i = ⟨.added e s, es⟩)
    (h : Copy registrations sys t) : Copy registrations (sys.step i) t where
  applied j f hf hfound := (applied_step_iff hnames horder hi).mpr (.inl (h.applied j f hf hfound))
  current_or_stale := by
    right
    rcases h.current_or_stale with hcurrent | ⟨f, hf, hlacks⟩
    · have he : e ∈ registrations i :=
        (horder i).subset (pending_of_added hi ▸ .head _)
      refine ⟨e, (applied_step_iff hnames horder hi).mpr (.inr rfl), fun hfound => ?_⟩
      exact name_ne_of_applied hnames horder hi (h.applied i e he hfound) rfl
    · exact ⟨f, (applied_step_iff hnames horder hi).mpr (.inl hf), hlacks⟩

/-- What holds of a run from a catalog that holds none of the registered entity types. -/
structure Invariant (registrations : Nat → List Entity) (sys : System) : Prop where
  inOrder : InOrder registrations sys
  current : Copy registrations sys sys.catalog.current
  copies : ∀ i, (sys.callers i).BeganWith (Copy registrations sys)

theorem Invariant.put {caller : Caller} (h : Invariant registrations sys)
    (hpending : caller.pending = (sys.callers i).pending)
    (hcaller : caller.BeganWith (Copy registrations sys)) :
    Invariant registrations (sys.put i caller) where
  inOrder j := pending_put hpending j ▸ h.inOrder j
  current := h.current.congr (catalog_put sys i caller) (pending_put hpending)
  copies j := by
    have hcopy : ∀ s, Copy registrations sys s → Copy registrations (sys.put i caller) s :=
      fun s hs => hs.congr (catalog_put sys i caller) (pending_put hpending)
    by_cases hj : j = i
    · subst hj
      rw [callers_put_self]
      exact hcaller.mono hcopy
    · rw [callers_put_of_ne _ hj]
      exact (h.copies j).mono hcopy

/-- What a caller has added to is a copy. -/
theorem Invariant.exists_copy (h : Invariant registrations sys)
    (hi : sys.callers i = ⟨.added e s, es⟩) :
    ∃ t, s = t.addEntity e ∧ Copy registrations sys t := by
  have hbegan := h.copies i
  rwa [hi] at hbegan

/-- Every step keeps the invariant. -/
theorem Invariant.step (hnames : DistinctNames registrations) (h : Invariant registrations sys) :
    Invariant registrations (sys.step i) := by
  rcases sys.step_cases i with ⟨-, hstep⟩ | ⟨e, es, hi, hstep⟩ | ⟨e, s, es, hi, hstep⟩ |
    ⟨e, s, es, hi, -⟩
  · rwa [hstep]
  · rw [hstep]
    exact h.put (by rw [hi]; rfl) h.current
  · have hcopy : Copy registrations sys s := by
      have hbegan := h.copies i
      rwa [hi] at hbegan
    rw [hstep]
    exact h.put (by rw [hi]; rfl) ⟨s, rfl, hcopy⟩
  · obtain ⟨t, rfl, ht⟩ := h.exists_copy hi
    refine ⟨h.inOrder.step, ⟨fun j f hf hfound => ?_, .inl rfl⟩, fun j => ?_⟩
    · rw [entities_step_of_added hi, Schema.addEntity, NameMap.get?_insert] at hfound
      by_cases hname : e.name = f.name
      · rw [if_pos hname, Option.some.injEq] at hfound
        exact (applied_step_iff hnames h.inOrder hi).mpr (.inr hfound.symm)
      · rw [if_neg hname] at hfound
        exact (applied_step_iff hnames h.inOrder hi).mpr (.inl (ht.applied j f hf hfound))
    · by_cases hj : j = i
      · subst hj
        rw [step_of_added hi]
        show Caller.BeganWith _ ((sys.put j ⟨.between, es⟩).callers j)
        rw [callers_put_self]
        exact trivial
      · have hkept : (sys.step i).callers j = sys.callers j := by
          rw [step_of_added hi]
          exact callers_put_of_ne _ hj _
        rw [hkept]
        exact (h.copies j).mono fun u hu => hu.step_of_added hnames h.inOrder hi

/-- Where everything applied is present after a step, it was before, and the step did what an
undivided registration does. -/
theorem Invariant.present_of_step (hnames : DistinctNames registrations)
    (h : Invariant registrations sys) (hpresent : Present registrations (sys.step i)) :
    Present registrations sys ∧ ∀ e s es, sys.callers i = ⟨.added e s, es⟩ →
      sys.catalog.apply s = sys.catalog.register e := by
  rcases sys.added_or_kept i with ⟨e, s, es, hi⟩ | ⟨hother, hcatalog, hpending⟩
  · obtain ⟨t, rfl, ht⟩ := h.exists_copy hi
    -- What the copy lacked before the step is not there after it either.
    have hcopied : ∀ f, Applied registrations sys f → NameMap.get? t.entities f.name = some f := by
      intro f hf
      have hfound := hpresent f ((applied_step_iff hnames h.inOrder hi).mpr (.inl hf))
      rw [entities_step_of_added hi, Schema.addEntity, NameMap.get?_insert] at hfound
      rwa [if_neg (name_ne_of_applied hnames h.inOrder hi hf)] at hfound
    have hcurrent : t = sys.catalog.current := by
      refine ht.current_or_stale.resolve_right ?_
      rintro ⟨f, hf, hlacks⟩
      exact hlacks (hcopied f hf)
    refine ⟨fun f hf => hcurrent ▸ hcopied f hf, fun e' s' es' hi' => ?_⟩
    rw [hi] at hi'
    cases hi'
    rw [hcurrent, register]
  · refine ⟨fun f hf => ?_, fun e s es hi => absurd hi (hother e s es)⟩
    rw [← hcatalog]
    exact hpresent f ((applied_congr hpending).mpr hf)

/-! ## Whole runs -/

theorem applied_start (c : Catalog) : ¬Applied registrations (start c registrations) f := by
  rintro ⟨i, hf, hended⟩
  exact hended hf

theorem inOrder_run (c : Catalog) (schedule : List Nat) :
    InOrder registrations ((start c registrations).run schedule) := by
  induction schedule using List.reverseRecOn with
  | nil => exact fun i => List.suffix_refl _
  | append_singleton schedule i ih =>
      rw [run_concat]
      exact ih.step

/-- A timely schedule loses nothing, whatever stood in the catalog before. -/
theorem present_of_timely (hnames : DistinctNames registrations) {c : Catalog}
    {schedule : List Nat} (htimely : (start c registrations).Timely schedule) :
    Present registrations ((start c registrations).run schedule) := by
  induction schedule using List.reverseRecOn with
  | nil => exact fun f hf => absurd hf (applied_start c)
  | append_singleton schedule i ih =>
      obtain ⟨hschedule, hlast⟩ := timely_concat.mp htimely
      rw [run_concat]
      exact (ih hschedule).step hnames (inOrder_run c schedule) hlast

theorem invariant_run (hnames : DistinctNames registrations) {c : Catalog}
    (hnew : AllNew registrations c) (schedule : List Nat) :
    Invariant registrations ((start c registrations).run schedule) := by
  induction schedule using List.reverseRecOn with
  | nil =>
      refine ⟨inOrder_run c [], ⟨fun i f hf hfound => ?_, .inl rfl⟩, fun i => trivial⟩
      exact absurd hfound (hnew i f hf)
  | append_singleton schedule i ih =>
      rw [run_concat]
      exact ih.step hnames

/-- A schedule that loses nothing is timely. -/
theorem timely_of_present (hnames : DistinctNames registrations) {c : Catalog}
    (hnew : AllNew registrations c) {schedule : List Nat}
    (hpresent : Present registrations ((start c registrations).run schedule)) :
    (start c registrations).Timely schedule := by
  induction schedule using List.reverseRecOn with
  | nil =>
      intro before i hbefore
      exact absurd (List.prefix_nil.mp hbefore) (by simp)
  | append_singleton schedule i ih =>
      rw [run_concat] at hpresent
      obtain ⟨hbefore, hlast⟩ :=
        (invariant_run hnames hnew schedule).present_of_step hnames hpresent
      exact timely_concat.mpr ⟨ih hbefore, hlast⟩

/-- When all calls are done, everything registered has been applied. -/
theorem Finished.applied_iff (h : sys.Finished) :
    Applied registrations sys e ↔ ∃ i, e ∈ registrations i := by
  simp [Applied, h _, Caller.pending]

end Registrations

/-- **Registrations are lost unless they are timely.**  When all callers are done with
registrations of different names, the current schema holds every registered entity type if each
copy was applied as an undivided registration would be; and only then, if none of the entity types
stood in the catalog before. -/
theorem registered_iff_timely {c : Catalog} {registrations : Nat → List Entity}
    (hnames : DistinctNames registrations) {schedule : List Nat}
    (hfinished : ((start c registrations).run schedule).Finished) :
    ((start c registrations).Timely schedule → ∀ i, ∀ e ∈ registrations i, NameMap.get?
      ((start c registrations).run schedule).catalog.current.entities e.name = some e) ∧
    (AllNew registrations c → (∀ i, ∀ e ∈ registrations i, NameMap.get?
      ((start c registrations).run schedule).catalog.current.entities e.name = some e) →
        (start c registrations).Timely schedule) := by
  constructor
  · intro htimely i e he
    exact present_of_timely hnames htimely e (hfinished.applied_iff.mpr ⟨i, he⟩)
  · intro hnew hpresent
    refine timely_of_present hnames hnew fun e he => ?_
    obtain ⟨i, he⟩ := hfinished.applied_iff.mp he
    exact hpresent i e he

end System

end Catalog

namespace Sample

open Catalog

/-- Two callers with one entity type each. -/
def registrations : Nat → List Entity
  | 0 => [account]
  | 1 => [contact]
  | _ => []

theorem registrations_distinct : DistinctNames registrations := by
  refine ⟨fun i => ?_, fun i j hij e he f hf => ?_⟩
  · match i with
    | 0 => decide
    | 1 => decide
    | _ + 2 => exact .nil
  · match i, j with
    | 0, 0 => exact absurd rfl hij
    | 0, 1 =>
        cases List.mem_singleton.mp he
        cases List.mem_singleton.mp hf
        decide
    | 1, 0 =>
        cases List.mem_singleton.mp he
        cases List.mem_singleton.mp hf
        decide
    | 1, 1 => exact absurd rfl hij
    | _ + 2, _ => cases he
    | 0, _ + 2 => cases hf
    | 1, _ + 2 => cases hf

/-- One caller after the other: nothing is lost, and every step was timely. -/
theorem one_after_another :
    let sys := System.start (.empty default) registrations
    DistinctNames registrations ∧ (sys.run [0, 0, 0, 1, 1, 1]).Finished ∧
      AllNew registrations (.empty default) ∧ sys.Timely [0, 0, 0, 1, 1, 1] ∧
      ∀ i, ∀ e ∈ registrations i, NameMap.get?
        (sys.run [0, 0, 0, 1, 1, 1]).catalog.current.entities e.name = some e := by
  intro sys
  have hfinished : (sys.run [0, 0, 0, 1, 1, 1]).Finished := by
    intro i
    match i with
    | 0 => rfl
    | 1 => rfl
    | _ + 2 => rfl
  have hnew : AllNew registrations (.empty default) := fun i e he => nofun
  have hpresent : ∀ i, ∀ e ∈ registrations i, NameMap.get?
      (sys.run [0, 0, 0, 1, 1, 1]).catalog.current.entities e.name = some e := by
    intro i
    match i with
    | 0 => decide +kernel
    | 1 => decide +kernel
    | _ + 2 => exact nofun
  obtain ⟨hkept, honly⟩ := System.registered_iff_timely registrations_distinct hfinished
  have htimely := honly hnew hpresent
  exact ⟨registrations_distinct, hfinished, hnew, htimely, hkept htimely⟩

/-- Both callers read before one of them applies: what the first applies is lost. -/
theorem account_lost :
    let sys := System.start (.empty default) registrations
    DistinctNames registrations ∧ (sys.run [0, 1, 0, 0, 1, 1]).Finished ∧
      ¬∀ i, ∀ e ∈ registrations i, NameMap.get?
        (sys.run [0, 1, 0, 0, 1, 1]).catalog.current.entities e.name = some e := by
  intro sys
  refine ⟨registrations_distinct, fun i => ?_, fun h => ?_⟩
  · match i with
    | 0 => rfl
    | 1 => rfl
    | _ + 2 => rfl
  · have haccount : NameMap.get? (sys.run [0, 1, 0, 0, 1, 1]).catalog.current.entities
        account.name = none := by decide +kernel
    rw [h 0 account (.head _)] at haccount
    cases haccount

end Sample

end RecordQuery

import RecordQuery.Proofs.Failure
import RecordQuery.Query.Filter

/-!
# Filters under changes of their conditions

What happens to a filter when all its conditions are changed and nothing else.

*Renaming.*  `Filter.map` changes every condition.  Testing the changed filter is testing the
filter by a changed test (`holds_map`), and a compilation that follows the change gives the changed
compiled filter (`mapM_map`).

*Agreement.*  A filter is evaluated in a fixed order and up to the first answer that settles it,
so tests that agree on its conditions agree on the filter (`holds_congr`), failures included.

*Conjunctions.*  A conjunction holds where all its parts hold (`holds_and_iff`).
-/

namespace RecordQuery.Filter

/-! ## Changing conditions -/

mutual

/-- Changes every condition. -/
def map (f : α → β) : Filter α → Filter β
  | .node c cs fs => .node c (cs.map f) (mapAll f fs)

/-- Changes every condition of some filters. -/
def mapAll (f : α → β) : List (Filter α) → List (Filter β)
  | [] => []
  | g :: gs => map f g :: mapAll f gs

end

mutual

theorem allConditions_map (f : α → β) : ∀ g : Filter α,
    (g.map f).allConditions = g.allConditions.map f
  | .node c cs fs => by
      rw [map, allConditions, allConditions, List.map_append, conditionsOfAll_mapAll]

theorem conditionsOfAll_mapAll (f : α → β) : ∀ gs : List (Filter α),
    conditionsOfAll (mapAll f gs) = (conditionsOfAll gs).map f
  | [] => rfl
  | g :: gs => by
      rw [mapAll, conditionsOfAll, conditionsOfAll, List.map_append, allConditions_map,
        conditionsOfAll_mapAll]

end

mutual

theorem map_id : ∀ f : Filter α, f.map id = f
  | .node c cs fs => by rw [map, List.map_id, mapAll_id]

theorem mapAll_id : ∀ fs : List (Filter α), mapAll id fs = fs
  | [] => rfl
  | f :: fs => by rw [mapAll, map_id, mapAll_id]

end

/-! ## Filters without conditions -/

mutual

theorem isEmpty_eq (f : Filter α) : f.isEmpty = f.allConditions.isEmpty :=
  match f with
  | .node c cs fs => by
      rw [isEmpty, allConditions, allEmpty_eq]
      cases cs <;> simp

theorem allEmpty_eq (fs : List (Filter α)) : allEmpty fs = (conditionsOfAll fs).isEmpty :=
  match fs with
  | [] => rfl
  | f :: fs => by
      rw [allEmpty, conditionsOfAll, isEmpty_eq, allEmpty_eq]
      cases f.allConditions <;> simp

end

theorem isEmpty_map (f : α → β) (g : Filter α) : (g.map f).isEmpty = g.isEmpty := by
  rw [isEmpty_eq, isEmpty_eq, allConditions_map, List.isEmpty_map]

/-- A filter without conditions lets everything pass. -/
theorem holds_of_isEmpty {test : α → Except ε Bool} : ∀ {f : Filter α}, f.isEmpty = true →
    f.holds test = .ok true
  | .node c cs fs, h => by
      rw [isEmpty] at h
      simp only [holds, h, if_true, pure_eq_ok]

/-! ## Evaluation -/

theorem reaches_map (g : α → β) (answer : Bool) (test : β → Except ε Bool) (cs : List α) :
    reaches answer test (cs.map g) = reaches answer (fun a => test (g a)) cs := by
  induction cs with
  | nil => rfl
  | cons c cs ih => rw [List.map_cons, reaches, reaches, ih]

mutual

theorem holds_map (g : α → β) (test : β → Except ε Bool) : ∀ f : Filter α,
    (f.map g).holds test = f.holds fun a => test (g a)
  | .node c cs fs => by
      have hempty : allEmpty (mapAll g fs) = allEmpty fs := by
        rw [allEmpty_eq, allEmpty_eq, conditionsOfAll_mapAll, List.isEmpty_map]
      rw [map, holds, holds, reaches_map, nestedReach_mapAll, hempty, List.isEmpty_map]

theorem nestedReach_mapAll (g : α → β) (answer : Bool) (test : β → Except ε Bool) :
    ∀ fs : List (Filter α),
      nestedReach answer test (mapAll g fs) = nestedReach answer (fun a => test (g a)) fs
  | [] => rfl
  | f :: fs => by
      rw [mapAll, nestedReach, nestedReach, isEmpty_map, holds_map, nestedReach_mapAll]

end

section Settling

variable {test : α → Except ε Bool}

/-- No condition gives an answer where all give the other one. -/
theorem reaches_eq_false_iff {answer : Bool} {cs : List α} :
    reaches answer test cs = .ok false ↔ ∀ c ∈ cs, test c = .ok !answer := by
  induction cs with
  | nil => simp [reaches]
  | cons c cs ih =>
      rw [reaches, List.forall_mem_cons, ← ih, bind_eq_ok_iff]
      constructor
      · rintro ⟨b, hb, hrest⟩
        split at hrest
        next hsettled => cases hrest
        next hother => exact ⟨by rw [hb, Bool.eq_not.mpr hother], hrest⟩
      · rintro ⟨hfirst, hrest⟩
        exact ⟨_, hfirst, by simpa using hrest⟩

theorem nestedReach_eq_false_iff {answer : Bool} {fs : List (Filter α)} :
    nestedReach answer test fs = .ok false ↔
      ∀ f ∈ fs, f.isEmpty = false → f.holds test = .ok !answer := by
  induction fs with
  | nil => simp [nestedReach]
  | cons f fs ih =>
      rw [nestedReach, List.forall_mem_cons, ← ih]
      cases hempty : f.isEmpty with
      | true => simp
      | false =>
          rw [if_neg Bool.false_ne_true, bind_eq_ok_iff]
          constructor
          · rintro ⟨b, hb, hrest⟩
            split at hrest
            next hsettled => cases hrest
            next hother => exact ⟨fun _ => by rw [hb, Bool.eq_not.mpr hother], hrest⟩
          · rintro ⟨hfirst, hrest⟩
            exact ⟨_, hfirst rfl, by simpa using hrest⟩

theorem forall_isEmpty_of_allEmpty {fs : List (Filter α)} (h : allEmpty fs = true) :
    ∀ f ∈ fs, f.isEmpty = true := by
  induction fs with
  | nil => exact fun f hf => nomatch hf
  | cons f fs ih =>
      obtain ⟨hfirst, hrest⟩ := Bool.and_eq_true_iff.mp h
      exact List.forall_mem_cons.mpr ⟨hfirst, ih hrest⟩

/-- A conjunction holds where all its conditions hold and all its filters, but for those without
conditions. -/
theorem holds_and_iff {cs : List α} {fs : List (Filter α)} :
    (node .and cs fs).holds test = .ok true ↔
      (∀ c ∈ cs, test c = .ok true) ∧ ∀ f ∈ fs, f.isEmpty = false → f.holds test = .ok true := by
  have hown : reaches false test cs = .ok false ↔ ∀ c ∈ cs, test c = .ok true :=
    reaches_eq_false_iff
  have hnested : nestedReach false test fs = .ok false ↔
      ∀ f ∈ fs, f.isEmpty = false → f.holds test = .ok true := nestedReach_eq_false_iff
  rw [← hown, ← hnested, holds]
  split
  next hempty =>
    obtain ⟨hcs, hfs⟩ := Bool.and_eq_true_iff.mp hempty
    have hall := forall_isEmpty_of_allEmpty hfs
    refine iff_of_true rfl ⟨hown.mpr fun c hc => ?_, hnested.mpr fun f hf hsome => ?_⟩
    · rw [List.isEmpty_iff.mp hcs] at hc
      cases hc
    · rw [hall f hf] at hsome
      cases hsome
  next hsome =>
    simp only [Connective.settling, bind_eq_ok_iff]
    constructor
    · rintro ⟨reached, hreached, h⟩
      cases reached with
      | true => cases h
      | false =>
          obtain ⟨nested, hnested, h⟩ := bind_eq_ok_iff.mp h
          cases nested with
          | true => cases h
          | false => exact ⟨hreached, hnested⟩
    · rintro ⟨hreached, hnested⟩
      exact ⟨false, hreached, bind_eq_ok_iff.mpr ⟨false, hnested, rfl⟩⟩

/-- A conjunction with more conditions holds only where it holds without them. -/
theorem holds_of_withConditions {f : Filter α} (hand : f.connective = .and) {more : List α}
    (h : (f.withConditions more).holds test = .ok true) : f.holds test = .ok true := by
  cases f with
  | node k cs fs =>
      cases hand
      obtain ⟨hconditions, hfilters⟩ := holds_and_iff.mp h
      exact holds_and_iff.mpr ⟨(List.forall_mem_append.mp hconditions).1, hfilters⟩

end Settling

section Agreement

variable {test : α → Except ε Bool} {test' : α → Except δ Bool}

theorem reaches_congr (answer : Bool) {cs : List α}
    (h : ∀ c ∈ cs, SameValue (test c) (test' c)) :
    SameValue (reaches answer test cs) (reaches answer test' cs) := by
  induction cs with
  | nil => exact .refl _
  | cons c cs ih =>
      obtain ⟨hfirst, hrest⟩ := List.forall_mem_cons.mp h
      refine hfirst.bind fun b => ?_
      split
      · exact .refl _
      · exact ih hrest

mutual

/-- Tests that agree on the conditions of a filter agree on the filter. -/
theorem holds_congr : ∀ {f : Filter α}, (∀ c ∈ f.allConditions, SameValue (test c) (test' c)) →
    SameValue (f.holds test) (f.holds test')
  | .node c cs fs, h => by
      rw [allConditions, List.forall_mem_append] at h
      obtain ⟨hown, hnested⟩ := h
      rw [holds, holds]
      split
      · exact .refl _
      · refine (reaches_congr c.settling hown).bind fun b => ?_
        split
        · exact .refl _
        · refine (nestedReach_congr c.settling hnested).bind fun b => ?_
          split
          · exact .refl _
          · exact .refl _

theorem nestedReach_congr (answer : Bool) : ∀ {fs : List (Filter α)},
    (∀ c ∈ conditionsOfAll fs, SameValue (test c) (test' c)) →
      SameValue (nestedReach answer test fs) (nestedReach answer test' fs)
  | [], _ => .refl _
  | f :: fs, h => by
      rw [conditionsOfAll, List.forall_mem_append] at h
      obtain ⟨hfirst, hrest⟩ := h
      rw [nestedReach, nestedReach]
      split
      · exact nestedReach_congr answer hrest
      · refine (holds_congr hfirst).bind fun b => ?_
        split
        · exact .refl _
        · exact nestedReach_congr answer hrest

end

end Agreement

/-! ## Compilation -/

section Compilation

variable {f : α → Except ε β} {f' : γ → Except ε δ} {g : α → γ} {h : β → δ}

theorem listMapM_map {cs : List α} (hall : ∀ c ∈ cs, f' (g c) = (f c).map h) :
    (cs.map g).mapM f' = (cs.mapM f).map (List.map h) := by
  induction cs with
  | nil => rfl
  | cons c cs ih =>
      obtain ⟨hfirst, hrest⟩ := List.forall_mem_cons.mp hall
      rw [List.map_cons, List.mapM_cons, List.mapM_cons, hfirst, ih hrest]
      cases f c with
      | error e => rfl
      | ok b => cases cs.mapM f <;> rfl

mutual

/-- A compilation that follows a change of every condition gives the compiled filter, changed. -/
theorem mapM_map : ∀ {F : Filter α}, (∀ c ∈ F.allConditions, f' (g c) = (f c).map h) →
    (F.map g).mapM f' = (F.mapM f).map (Filter.map h)
  | .node c cs fs, hall => by
      rw [allConditions, List.forall_mem_append] at hall
      obtain ⟨hown, hnested⟩ := hall
      rw [map, mapM, mapM, listMapM_map hown, mapAllM_mapAll hnested]
      cases cs.mapM f with
      | error e => rfl
      | ok bs => cases mapAllM f fs <;> rfl

theorem mapAllM_mapAll : ∀ {fs : List (Filter α)},
    (∀ c ∈ conditionsOfAll fs, f' (g c) = (f c).map h) →
      mapAllM f' (mapAll g fs) = (mapAllM f fs).map (mapAll h)
  | [], _ => rfl
  | F :: fs, hall => by
      rw [conditionsOfAll, List.forall_mem_append] at hall
      obtain ⟨hfirst, hrest⟩ := hall
      rw [mapAll, mapAllM, mapAllM, mapM_map hfirst, mapAllM_mapAll hrest]
      cases F.mapM f with
      | error e => rfl
      | ok F' => cases mapAllM f fs <;> rfl

end

mutual

/-- The conditions of a compiled filter are those of the filter, compiled one by one. -/
theorem mapM_allConditions : ∀ {F : Filter α} {G : Filter β}, F.mapM f = .ok G →
    F.allConditions.mapM f = .ok G.allConditions
  | .node c cs fs, G, h => by
      rw [mapM] at h
      obtain ⟨bs, hbs, h⟩ := bind_eq_ok_iff.mp h
      obtain ⟨gs, hgs, h⟩ := bind_eq_ok_iff.mp h
      cases h
      rw [allConditions, allConditions, List.mapM_append, hbs, mapAllM_conditionsOfAll hgs]
      rfl

theorem mapAllM_conditionsOfAll : ∀ {fs : List (Filter α)} {gs : List (Filter β)},
    mapAllM f fs = .ok gs → (conditionsOfAll fs).mapM f = .ok (conditionsOfAll gs)
  | [], gs, h => by
      cases h
      rfl
  | F :: fs, gs, h => by
      rw [mapAllM] at h
      obtain ⟨G, hG, h⟩ := bind_eq_ok_iff.mp h
      obtain ⟨gs', hgs, h⟩ := bind_eq_ok_iff.mp h
      cases h
      rw [conditionsOfAll, conditionsOfAll, List.mapM_append, mapM_allConditions hG,
        mapAllM_conditionsOfAll hgs]
      rfl

end

theorem connective_of_mapM {F : Filter α} {G : Filter β} (h : F.mapM f = .ok G) :
    G.connective = F.connective := by
  cases F with
  | node k cs fs =>
      rw [mapM] at h
      obtain ⟨bs, -, h⟩ := bind_eq_ok_iff.mp h
      obtain ⟨gs, -, h⟩ := bind_eq_ok_iff.mp h
      cases h
      rfl

/-- More conditions compile behind the others. -/
theorem mapM_withConditions {F : Filter α} {G G' : Filter β} {more : List α}
    (h : F.mapM f = .ok G) (h' : (F.withConditions more).mapM f = .ok G') :
    ∃ bs, more.mapM f = .ok bs ∧ G' = G.withConditions bs := by
  cases F with
  | node k cs fs =>
      rw [mapM] at h
      obtain ⟨bs, hbs, h⟩ := bind_eq_ok_iff.mp h
      obtain ⟨gs, hgs, h⟩ := bind_eq_ok_iff.mp h
      cases h
      rw [withConditions, mapM, hgs] at h'
      obtain ⟨all, hall, h'⟩ := bind_eq_ok_iff.mp h'
      rw [List.mapM_append, hbs, ok_bind] at hall
      obtain ⟨ms, hms, hall⟩ := bind_eq_ok_iff.mp hall
      cases hall
      cases h'
      exact ⟨ms, hms, rfl⟩

theorem isEmpty_of_mapM {F : Filter α} {G : Filter β} (h : F.mapM f = .ok G) :
    G.isEmpty = F.isEmpty := by
  rw [isEmpty_eq, isEmpty_eq, RecordQuery.isEmpty_of_mapM (mapM_allConditions h)]

mutual

/-- A filter compiles exactly when all its conditions do. -/
theorem exists_mapM_iff : ∀ {F : Filter α},
    (∃ G, F.mapM f = .ok G) ↔ ∀ c ∈ F.allConditions, ∃ b, f c = .ok b
  | .node c cs fs => by
      rw [allConditions, List.forall_mem_append, ← exists_mapM_eq_ok_iff, ← exists_mapAllM_iff]
      constructor
      · rintro ⟨G, h⟩
        rw [mapM] at h
        obtain ⟨bs, hbs, h⟩ := bind_eq_ok_iff.mp h
        obtain ⟨gs, hgs, -⟩ := bind_eq_ok_iff.mp h
        exact ⟨⟨bs, hbs⟩, gs, hgs⟩
      · rintro ⟨⟨bs, hbs⟩, gs, hgs⟩
        exact ⟨.node c bs gs, bind_eq_ok_iff.mpr ⟨bs, hbs, bind_eq_ok_iff.mpr ⟨gs, hgs, rfl⟩⟩⟩

theorem exists_mapAllM_iff : ∀ {fs : List (Filter α)},
    (∃ gs, mapAllM f fs = .ok gs) ↔ ∀ c ∈ conditionsOfAll fs, ∃ b, f c = .ok b
  | [] => by simp [mapAllM, conditionsOfAll]
  | F :: fs => by
      rw [conditionsOfAll, List.forall_mem_append, ← exists_mapM_iff, ← exists_mapAllM_iff]
      constructor
      · rintro ⟨gs, h⟩
        rw [mapAllM] at h
        obtain ⟨G, hG, h⟩ := bind_eq_ok_iff.mp h
        obtain ⟨gs', hgs, -⟩ := bind_eq_ok_iff.mp h
        exact ⟨⟨G, hG⟩, gs', hgs⟩
      · rintro ⟨⟨G, hG⟩, gs, hgs⟩
        exact ⟨G :: gs, bind_eq_ok_iff.mpr ⟨G, hG, bind_eq_ok_iff.mpr ⟨gs, hgs, rfl⟩⟩⟩

end

section Testing

variable {test : β → Except ε Bool}

theorem reaches_of_mapM {answer : Bool} {cs : List α} {bs : List β} (h : cs.mapM f = .ok bs) :
    reaches answer test bs = reaches answer (fun a => f a >>= test) cs := by
  induction cs generalizing bs with
  | nil =>
      cases h
      rfl
  | cons c cs ih =>
      obtain ⟨b, bs', hb, hbs, rfl⟩ := mapM_cons_eq_ok_iff.mp h
      rw [reaches, reaches, ih hbs, hb, ok_bind]

mutual

/-- Testing a compiled filter is compiling each condition when it is tested. -/
theorem holds_of_mapM : ∀ {F : Filter α} {G : Filter β}, F.mapM f = .ok G →
    G.holds test = F.holds fun a => f a >>= test
  | .node c cs fs, G, h => by
      rw [mapM] at h
      obtain ⟨bs, hbs, h⟩ := bind_eq_ok_iff.mp h
      obtain ⟨gs, hgs, h⟩ := bind_eq_ok_iff.mp h
      cases h
      have hempty : allEmpty gs = allEmpty fs := by
        rw [allEmpty_eq, allEmpty_eq, RecordQuery.isEmpty_of_mapM (mapAllM_conditionsOfAll hgs)]
      rw [holds, holds, RecordQuery.isEmpty_of_mapM hbs, hempty, reaches_of_mapM hbs,
        nestedReach_of_mapAllM hgs]

theorem nestedReach_of_mapAllM {answer : Bool} : ∀ {fs : List (Filter α)} {gs : List (Filter β)},
    mapAllM f fs = .ok gs →
      nestedReach answer test gs = nestedReach answer (fun a => f a >>= test) fs
  | [], gs, h => by
      cases h
      rfl
  | F :: fs, gs, h => by
      rw [mapAllM] at h
      obtain ⟨G, hG, h⟩ := bind_eq_ok_iff.mp h
      obtain ⟨gs', hgs, h⟩ := bind_eq_ok_iff.mp h
      cases h
      rw [nestedReach, nestedReach, isEmpty_of_mapM hG, holds_of_mapM hG,
        nestedReach_of_mapAllM hgs]

end

end Testing

end Compilation

end RecordQuery.Filter

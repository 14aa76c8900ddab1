import RecordQuery.Proofs.Join.Witness

/-!
# All choices in order

The choices that a source record leads to are finitely many.  `found` lists the records that may be
taken at a link with their positions, and `choices` and `forestChoices` build from them the list
of all witnesses.

`mem_choices` and `mem_forestChoices` say that exactly the witnesses are listed, and
`choices_pairwise` and `forestChoices_pairwise` that they are listed in order, so none is listed
twice.  Nothing here speaks of how joins are executed.
-/

namespace RecordQuery

open Text

/-! ## Records that may be taken -/

open Classical in
/-- The records that may be joined and meet the source, with their positions. -/
noncomputable def found (db : Database) (ctx : Context) (l : LinkSpec) (j : Join)
    (source : Record) : List (Record × Nat) :=
  (db.store.snapshot j.entity).zipIdx.filter fun p =>
    decide (Joinable db ctx l j p.2 p.1 ∧ l.Meets source p.1)

variable {db : Database} {ctx : Context}

theorem mem_found {l : LinkSpec} {j : Join} {source joined : Record} {position : Nat} :
    (joined, position) ∈ found db ctx l j source ↔
      Joinable db ctx l j position joined ∧ l.Meets source joined := by
  classical
  simp only [found, List.mem_filter, decide_eq_true_eq]
  constructor
  · exact fun h => h.2
  · exact fun h => ⟨List.mk_mem_zipIdx_iff_getElem?.mpr h.1.1, h⟩

/-- Records are found in the order of the table. -/
theorem found_pairwise (l : LinkSpec) (j : Join) (source : Record) :
    (found db ctx l j source).Pairwise fun p q => p.2 < q.2 := by
  apply List.Pairwise.filter
  rw [← List.pairwise_map (f := Prod.snd), List.zipIdx_map_snd]
  exact List.pairwise_lt_range'

/-! ## Choices -/

mutual

/-- The choices at a link, by the positions of the records. -/
noncomputable def choices (db : Database) (ctx : Context) :
    Link → Tree Join → Record → List Choice
  | .node l ls, .node j js, source =>
      let taken := (found db ctx l j source).flatMap fun p =>
        (forestChoices db ctx ls js p.1).map (Choice.record p.2 p.1)
      if taken.isEmpty && l.kind = .leftOuter then [.nothing] else taken

/-- The choices for links side by side, those of the first link varying slowest. -/
noncomputable def forestChoices (db : Database) (ctx : Context) :
    List Link → List (Tree Join) → Record → List (List Choice)
  | [], [], _ => [[]]
  | l :: ls, t :: ts, source =>
      (choices db ctx l t source).flatMap fun c =>
        (forestChoices db ctx ls ts source).map (c :: ·)
  | _, _, _ => []

end

/-! ## Membership -/

mutual

theorem mem_choices : ∀ {l : Link} {t : Tree Join} {source : Record} {c : Choice},
    c ∈ choices db ctx l t source ↔ Witness db ctx l t source c
  | .node l ls, .node j js, source, c => by
      have hrecord : ∀ position joined below,
          .record position joined below ∈ ((found db ctx l j source).flatMap fun p =>
            (forestChoices db ctx ls js p.1).map (Choice.record p.2 p.1)) ↔
              Joinable db ctx l j position joined ∧ l.Meets source joined ∧
                ForestWitness db ctx ls js joined below := by
        intro position joined below
        simp only [List.mem_flatMap, List.mem_map, Prod.exists, mem_found, mem_forestChoices]
        constructor
        · rintro ⟨_, _, ⟨hjoinable, hmeets⟩, _, hbelow, ⟨⟩⟩
          exact ⟨hjoinable, hmeets, hbelow⟩
        · rintro ⟨hjoinable, hmeets, hbelow⟩
          exact ⟨joined, position, ⟨hjoinable, hmeets⟩, below, hbelow, rfl⟩
      have hnothing : .nothing ∉ ((found db ctx l j source).flatMap fun p =>
          (forestChoices db ctx ls js p.1).map (Choice.record p.2 p.1)) := by
        simp
      simp only [choices]
      generalize ((found db ctx l j source).flatMap fun p =>
        (forestChoices db ctx ls js p.1).map (Choice.record p.2 p.1)) = taken at hrecord hnothing ⊢
      split
      next hkept =>
        simp only [Bool.and_eq_true, List.isEmpty_iff, decide_eq_true_eq] at hkept
        obtain ⟨rfl, hkind⟩ := hkept
        cases c with
        | nothing => simp [Witness, hkind, ← hrecord]
        | record position joined below => simp [Witness, ← hrecord]
      next hdropped =>
        cases c with
        | record position joined below => simp only [Witness, hrecord]
        | nothing =>
            simp only [hnothing, Witness, ← hrecord, false_iff, not_and]
            intro hkind hnone
            apply hdropped
            have hempty : taken = [] := by
              refine List.eq_nil_iff_forall_not_mem.mpr fun d hd => ?_
              cases d with
              | nothing => exact hnothing hd
              | record position joined below => exact hnone position joined below hd
            simp [hempty, hkind]

theorem mem_forestChoices : ∀ {ls : List Link} {ts : List (Tree Join)} {source : Record}
    {cs : List Choice}, cs ∈ forestChoices db ctx ls ts source ↔ ForestWitness db ctx ls ts source cs
  | [], [], source, cs => by cases cs <;> simp [forestChoices, ForestWitness]
  | [], _ :: _, source, cs => by cases cs <;> simp [forestChoices, ForestWitness]
  | _ :: _, [], source, cs => by cases cs <;> simp [forestChoices, ForestWitness]
  | l :: ls, t :: ts, source, [] => by simp [forestChoices, ForestWitness]
  | l :: ls, t :: ts, source, c :: cs => by
      simp [forestChoices, ForestWitness, mem_choices, mem_forestChoices]

end

/-! ## Order -/

mutual

theorem choices_pairwise : ∀ (l : Link) (t : Tree Join) (source : Record),
    (choices db ctx l t source).Pairwise Choice.Before
  | .node l ls, .node j js, source => by
      simp only [choices]
      split
      · exact List.pairwise_singleton ..
      · rw [List.pairwise_flatMap]
        refine ⟨fun p _ => ?_, (found_pairwise l j source).imp fun hlt => ?_⟩
        · rw [List.pairwise_map]
          exact (forestChoices_pairwise ls js p.1).imp fun h => .inside h
        · simp only [List.mem_map]
          rintro _ ⟨cs, -, rfl⟩ _ ⟨ds, -, rfl⟩
          exact .position hlt

theorem forestChoices_pairwise : ∀ (ls : List Link) (ts : List (Tree Join)) (source : Record),
    (forestChoices db ctx ls ts source).Pairwise Choice.ForestBefore
  | [], [], source => List.pairwise_singleton ..
  | [], _ :: _, source => List.Pairwise.nil
  | _ :: _, [], source => List.Pairwise.nil
  | l :: ls, t :: ts, source => by
      simp only [forestChoices]
      rw [List.pairwise_flatMap]
      refine ⟨fun c _ => ?_, (choices_pairwise l t source).imp fun hbefore => ?_⟩
      · rw [List.pairwise_map]
        exact (forestChoices_pairwise ls ts source).imp fun h => .tail h
      · simp only [List.mem_map]
        rintro _ ⟨cs, -, rfl⟩ _ ⟨ds, -, rfl⟩
        exact .head hbefore

end

end RecordQuery

import RecordQuery.Proofs.NameMap
import RecordQuery.Proofs.Join.Planned
import RecordQuery.Proofs.Number.Value

/-!
# What joins mean

The relational reading of a forest of links, without strategies, indexes or loops.

*Choices.*  At each link a row takes one record that may be joined and meets the source, together
with choices for the links below, whose source is the record just taken.  At an outer link it
takes nothing, but only if no such choice exists; so a match whose links below leave no choice is
no match.  `Witness` says when a `Choice` is one that a row may make, and `ForestWitness` says so
of a choice for every link side by side.

*Order.*  Choices are ordered by the positions of the records in their tables, the first
difference deciding, depth first (`Choice.ForestBefore`).

*Rows.*  A list of choices turns a row into the row with the columns of the chosen records put in,
depth first (`Choice.extend`).

*Keys.*  `KeysRead` says that no key fails that is read on the way.
-/

namespace RecordQuery

open Text

/-! ## Choices -/

/-- What a row takes at a link: nothing, or the record at a position of its table with what it
takes at the links below. -/
inductive Choice where
  | nothing
  | record (position : Nat) (joined : Record) (below : List Choice)

namespace Choice

mutual

/-- The first choice takes the earlier record where the two first differ. -/
inductive Before : Choice → Choice → Prop where
  | position {m n : Nat} {r s : Record} {cs ds : List Choice} :
      m < n → Before (.record m r cs) (.record n s ds)
  | inside {n : Nat} {r : Record} {cs ds : List Choice} :
      ForestBefore cs ds → Before (.record n r cs) (.record n r ds)

/-- The first list of choices takes the earlier record where the two first differ. -/
inductive ForestBefore : List Choice → List Choice → Prop where
  | head {c d : Choice} {cs ds : List Choice} : Before c d → ForestBefore (c :: cs) (d :: ds)
  | tail {c : Choice} {cs ds : List Choice} :
      ForestBefore cs ds → ForestBefore (c :: cs) (c :: ds)

end

mutual

theorem Before.ne : ∀ {c d : Choice}, c.Before d → c ≠ d
  | _, _, .position hlt, rfl => Nat.lt_irrefl _ hlt
  | _, _, .inside hinside, rfl => hinside.ne rfl

theorem ForestBefore.ne : ∀ {cs ds : List Choice}, ForestBefore cs ds → cs ≠ ds
  | _, _, .head hhead, rfl => hhead.ne rfl
  | _, _, .tail htail, rfl => htail.ne rfl

end

end Choice

/-! ## Records that may be taken -/

/-- A record stands at a position among the stored records of the joined entity type and satisfies
the criteria of the link. -/
def Joinable (db : Database) (ctx : Context) (l : LinkSpec) (j : Join) (position : Nat)
    (joined : Record) : Prop :=
  (db.store.snapshot j.entity)[position]? = some joined ∧
    ∃ criteria, l.criteria.compile (.link j.entity j.aliasName) ctx = .ok criteria ∧
      criteria.evaluate ctx joined = .ok true

/-- Two keys are the same to a join: decimals that write one number, and other keys that are equal.
Sets of codes are never the same. -/
inductive Key.Meets : Key → Key → Prop where
  | number {d e : Decimal} : d.value = e.value → Meets (.number d) (.number e)
  | equal {k : Key} : (∀ d, k ≠ .number d) → (∀ cs, k ≠ .codes cs) → Meets k k

/-- The attributes that a link compares both have keys, so neither is null, and these meet. -/
def LinkSpec.Meets (l : LinkSpec) (source joined : Record) : Prop :=
  ∃ k k', Key.ofColumn source (lowercase l.fromAttribute) none = .ok (some k) ∧
    Key.ofColumn joined (lowercase l.toAttribute) none = .ok (some k') ∧ k.Meets k'

theorem Key.forJoin?_eq_some_iff {k m : Key} :
    k.forJoin? = some m ↔ (∃ d, k = .number d ∧ m = .number d.normalize) ∨
      ((∀ d, k ≠ .number d) ∧ (∀ cs, k ≠ .codes cs) ∧ m = k) := by
  cases k <;> simp [forJoin?, eq_comm]

/-- Keys are the same to a join where both have one join key. -/
theorem Key.meets_iff {k k' : Key} :
    k.Meets k' ↔ ∃ m, k.forJoin? = some m ∧ k'.forJoin? = some m := by
  constructor
  · intro h
    cases h with
    | @number d e hsame =>
        refine ⟨.number e.normalize, ?_, rfl⟩
        rw [forJoin?, Decimal.normalize_eq_normalize_iff.mpr hsame]
    | equal hnumber hcodes =>
        have hself := forJoin?_eq_some_iff.mpr (.inr ⟨hnumber, hcodes, rfl⟩)
        exact ⟨k, hself, hself⟩
  · rintro ⟨m, hk, hk'⟩
    rcases forJoin?_eq_some_iff.mp hk with ⟨d, rfl, rfl⟩ | ⟨hnumber, hcodes, rfl⟩
    · rcases forJoin?_eq_some_iff.mp hk' with ⟨e, rfl, hsame⟩ | ⟨hnumber, -, rfl⟩
      · exact .number (Decimal.normalize_eq_normalize_iff.mp (Key.number.inj hsame))
      · exact absurd rfl (hnumber d.normalize)
    · rcases forJoin?_eq_some_iff.mp hk' with ⟨e, rfl, rfl⟩ | ⟨-, -, rfl⟩
      · exact absurd rfl (hnumber e.normalize)
      · exact .equal hnumber hcodes

theorem joinKey?_eq (name : String) (r : Record) :
    joinKey? name r = (Key.ofColumn r name none).map (·.bind Key.forJoin?) := by
  unfold joinKey? Key.ofColumn Key.ofStored
  cases r.get? name with
  | none => rfl
  | some v =>
      cases hv : Key.ofValue name v with
      | error e => simp only [hv, error_bind]
      | ok k => cases k <;> simp [hv]

/-- A link's attributes meet where both have one join key. -/
theorem LinkSpec.meets_iff {l : LinkSpec} {source joined : Record} :
    l.Meets source joined ↔ ∃ m, joinKey? (lowercase l.fromAttribute) source = .ok (some m) ∧
      joinKey? (lowercase l.toAttribute) joined = .ok (some m) := by
  simp only [Meets, joinKey?_eq, map_eq_ok_iff, Key.meets_iff, Option.bind_eq_some_iff]
  constructor
  · rintro ⟨k, k', hk, hk', m, hm, hm'⟩
    exact ⟨m, ⟨some k, hk, k, rfl, hm⟩, some k', hk', k', rfl, hm'⟩
  · rintro ⟨m, ⟨_, hk, k, rfl, hm⟩, _, hk', k', rfl, hm'⟩
    exact ⟨k, k', hk, hk', m, hm, hm'⟩

/-! ## Witnesses -/

mutual

/-- A choice at a link that a source record leads to. -/
def Witness (db : Database) (ctx : Context) : Link → Tree Join → Record → Choice → Prop
  | .node l ls, .node j js, source, .record position joined below =>
      Joinable db ctx l j position joined ∧ l.Meets source joined ∧
        ForestWitness db ctx ls js joined below
  | .node l ls, .node j js, source, .nothing =>
      l.kind = .leftOuter ∧ ∀ position joined below,
        ¬ (Joinable db ctx l j position joined ∧ l.Meets source joined ∧
          ForestWitness db ctx ls js joined below)

/-- A choice for each of some links that a source record leads to. -/
def ForestWitness (db : Database) (ctx : Context) :
    List Link → List (Tree Join) → Record → List Choice → Prop
  | [], [], _, [] => True
  | l :: ls, t :: ts, source, c :: cs =>
      Witness db ctx l t source c ∧ ForestWitness db ctx ls ts source cs
  | _, _, _, _ => False

end

mutual

/-- Every join key that a link and those below it read for a source record can be read.  Where
the source has no key those of the other records are not read. -/
def KeysRead (db : Database) (ctx : Context) : Link → Tree Join → Record → Prop
  | .node l ls, .node j js, source =>
      (∃ key, joinKey? (lowercase l.fromAttribute) source = .ok key ∧
        (key ≠ none → ∀ position joined, Joinable db ctx l j position joined →
          ∃ key', joinKey? (lowercase l.toAttribute) joined = .ok key')) ∧
      ∀ position joined, Joinable db ctx l j position joined → l.Meets source joined →
        ForestKeysRead db ctx ls js joined

/-- Every join key that some links read for a source record can be read.  Where no choice exists
at a link those behind it are not reached. -/
def ForestKeysRead (db : Database) (ctx : Context) :
    List Link → List (Tree Join) → Record → Prop
  | l :: ls, t :: ts, source =>
      KeysRead db ctx l t source ∧
        ((∃ c, Witness db ctx l t source c) → ForestKeysRead db ctx ls ts source)
  | _, _, _ => True

end

/-! ## Rows -/

namespace Join

/-- The entries that a join takes from a map of a joined record, each under the alias of the join, a
point and the name: all that belong to it, or those found under its list of names. -/
def addedEntries (j : Join) (write : String → α → β) (entries : NameMap α) : List (String × β) :=
  match j.columns with
  | .all => entries.filterMap fun e =>
      (j.ownName? e.1).map fun n => (j.aliasName ++ "." ++ n, write n e.2)
  | .listed names => names.filterMap fun n =>
      (NameMap.lookup? entries n).map fun a => (j.aliasName ++ "." ++ n, write n a)

/-- The requested attributes of a joined record, each with the entity type and the name that it
comes from. -/
def addedAttributes (j : Join) (joined : Record) : List (String × Value) :=
  j.addedEntries (fun n v => .aliased ⟨j.entity.name, n, v.unaliased⟩) joined.attributes

/-- The display texts of the requested attributes of a joined record. -/
def addedTexts (j : Join) (joined : Record) : List (String × String) :=
  j.addedEntries (fun _ s => s) joined.formatted

end Join

namespace Choice

mutual

/-- The chosen records with the joins that add them, depth first. -/
def chosen : Tree Join → Choice → List (Join × Record)
  | .node j js, .record _ joined below => (j, joined) :: forestChosen js below
  | .node _ _, .nothing => []

/-- The chosen records of joins side by side. -/
def forestChosen : List (Tree Join) → List Choice → List (Join × Record)
  | t :: ts, c :: cs => chosen t c ++ forestChosen ts cs
  | _, _ => []

end

/-- The attributes that choices add to a row, depth first. -/
def addedAttributes (ts : List (Tree Join)) (cs : List Choice) : List (String × Value) :=
  (forestChosen ts cs).flatMap fun a => a.1.addedAttributes a.2

/-- The display texts that choices add to a row, depth first. -/
def addedTexts (ts : List (Tree Join)) (cs : List Choice) : List (String × String) :=
  (forestChosen ts cs).flatMap fun a => a.1.addedTexts a.2

/-- A row with the requested columns of joined records put in one after another. -/
def extend (row : Record) (added : List (Join × Record)) : Record :=
  { row with
    attributes := NameMap.insertAll row.attributes (added.flatMap fun a => a.1.addedAttributes a.2)
    formatted := NameMap.insertAll row.formatted (added.flatMap fun a => a.1.addedTexts a.2) }

end Choice

namespace Choice

/-- A row is what choices make of another: under every name it holds what the chosen records put
there last, else what the other row holds, and nothing else changes. -/
structure RowOf (ts : List (Tree Join)) (cs : List Choice) (row row' : Record) : Prop where
  entity : row'.entity = row.entity
  id : row'.id = row.id
  attributes : ∀ name, NameMap.get? row'.attributes name =
    (NameMap.get? (addedAttributes ts cs).reverse name).or (NameMap.get? row.attributes name)
  formatted : ∀ name, NameMap.get? row'.formatted name =
    (NameMap.get? (addedTexts ts cs).reverse name).or (NameMap.get? row.formatted name)

theorem rowOf_extend (ts : List (Tree Join)) (cs : List Choice) (row : Record) :
    RowOf ts cs row (extend row (forestChosen ts cs)) :=
  ⟨rfl, rfl, fun name => NameMap.get?_insertAll name _ _,
    fun name => NameMap.get?_insertAll name _ _⟩

@[simp] theorem extend_nil (row : Record) : extend row [] = row := by
  cases row
  rfl

theorem extend_append (row : Record) (as bs : List (Join × Record)) :
    extend row (as ++ bs) = extend (extend row as) bs := by
  simp only [extend, List.flatMap_append, NameMap.insertAll_append]

end Choice

namespace Join

variable {j : Join} {write : String → α → β} {entries : NameMap α}

theorem addedEntries_all (hcolumns : j.columns = .all) :
    j.addedEntries write entries = entries.filterMap fun e =>
      (j.ownName? e.1).map fun n => (mergedName j.aliasName n, write n e.2) := by
  rw [addedEntries, hcolumns]
  rfl

theorem addedEntries_listed {names : List String} (hcolumns : j.columns = .listed names) :
    j.addedEntries write entries = names.filterMap fun n =>
      (NameMap.lookup? entries n).map fun a => (mergedName j.aliasName n, write n a) := by
  rw [addedEntries, hcolumns]
  rfl

/-- A join adds nothing but columns under its alias. -/
theorem exists_mergedName {added : String × β} (h : added ∈ j.addedEntries write entries) :
    ∃ own, added.1 = mergedName j.aliasName own := by
  cases hcolumns : j.columns with
  | all =>
      rw [addedEntries_all hcolumns] at h
      obtain ⟨entry, -, hentry⟩ := List.mem_filterMap.mp h
      obtain ⟨own, -, rfl⟩ := Option.map_eq_some_iff.mp hentry
      exact ⟨own, rfl⟩
  | listed names =>
      rw [addedEntries_listed hcolumns] at h
      obtain ⟨own, -, hown⟩ := List.mem_filterMap.mp h
      obtain ⟨a, -, rfl⟩ := Option.map_eq_some_iff.mp hown
      exact ⟨own, rfl⟩

theorem mergeEntries_eq_insertAll (hcolumns : j.columns = .all) (into : NameMap β) :
    j.mergeEntries write entries into =
      NameMap.insertAll into (j.addedEntries write entries) := by
  rw [addedEntries_all hcolumns]
  induction entries generalizing into with
  | nil => rfl
  | cons e entries ih =>
      simp only [mergeEntries, List.foldl_cons] at ih ⊢
      cases hown : j.ownName? e.1 with
      | none => simp [hown, ih]
      | some n => simp [hown, ih, NameMap.insertAll]

theorem foldl_mergeColumn (j : Join) (joined : Record) (names : List String) (row : Record) :
    names.foldl (j.mergeColumn joined) row =
      { row with
        attributes := NameMap.insertAll row.attributes (names.filterMap fun n =>
          (joined.get? n).map fun v => (mergedName j.aliasName n, j.merged n v))
        formatted := NameMap.insertAll row.formatted (names.filterMap fun n =>
          (joined.formatted? n).map fun s => (mergedName j.aliasName n, s)) } := by
  induction names generalizing row with
  | nil =>
      cases row
      rfl
  | cons n names ih =>
      rw [List.foldl_cons, ih]
      cases hv : joined.get? n <;> cases hs : joined.formatted? n <;>
        simp [mergeColumn, hv, hs, NameMap.insertAll]

/-- Merging a record puts its requested columns into the row. -/
theorem merge_eq_extend (j : Join) (row joined : Record) :
    j.merge row joined = Choice.extend row [(j, joined)] := by
  simp only [Choice.extend, List.flatMap_singleton, addedAttributes, addedTexts]
  cases hcolumns : j.columns with
  | all =>
      simp only [merge, hcolumns, ← mergeEntries_eq_insertAll hcolumns]
      rfl
  | listed names =>
      simp only [merge, hcolumns, foldl_mergeColumn, addedEntries_listed hcolumns]
      rfl

end Join

end RecordQuery

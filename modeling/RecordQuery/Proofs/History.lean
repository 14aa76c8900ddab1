import Mathlib.Data.Nat.SuccPred
import Mathlib.Order.SuccPred.Archimedean
import RecordQuery.Proofs.NameMap
import RecordQuery.Proofs.Table

/-!
# A store and its history

What a store holds is a matter of what was done to it.  A history is the list of single events:
insertions, removals, and removals of everything.  The insertions of an identifier since its last
removal (`insertions`) say all about it: it has a record when there is one, the record is that of
the latest, and its place among the others is that of the first.

`Store.Reflects` relates a store to a history in these terms, and every event keeps the relation
(`Reflects.apply`).  `Store.ordered_map_after` draws the conclusion for every sequence of changes
from the empty store, along with what the next change gives back and does.
-/

namespace RecordQuery

open Text

/-! ## Changes and events -/

/-- A change to a store. -/
inductive Change where
  | insert (r : Record)
  | insertAll (rs : List Record)
  | erase (entity : String) (id : RecordId)
  | clear

/-- What happens at one time. -/
inductive Event where
  | inserted (r : Record)
  | erased (entity : String) (id : RecordId)
  | cleared

/-- The events of a change; records are inserted one after another. -/
def Change.events : Change → List Event
  | .insert r => [.inserted r]
  | .insertAll rs => rs.map .inserted
  | .erase entity id => [.erased entity id]
  | .clear => [.cleared]

namespace Event

/-- The event inserts a record of the entity type with the identifier. -/
def Inserts (entity : String) (id : RecordId) : Event → Prop
  | .inserted r => lowercase r.entity = lowercase entity ∧ r.id = id
  | .erased _ _ => False
  | .cleared => False

/-- The event removes what has the identifier in the table of the entity type. -/
def Removes (entity : String) (id : RecordId) : Event → Prop
  | .inserted _ => False
  | .erased entity' id' => lowercase entity' = lowercase entity ∧ id' = id
  | .cleared => True

theorem Inserts.not_removes {e : Event} {entity : String} {id : RecordId}
    (h : e.Inserts entity id) : ¬e.Removes entity id := by
  cases e with
  | inserted r => exact not_false
  | erased entity' id' => exact h.elim
  | cleared => exact h.elim

end Event

/-! ## Insertions since the last removal -/

/-- The times at which an identifier was inserted after its last removal. -/
def insertions (history : List Event) (entity : String) (id : RecordId) : Set Nat :=
  {k | (∃ e, history[k]? = some e ∧ e.Inserts entity id) ∧
    ∀ j > k, ∀ e, history[j]? = some e → ¬e.Removes entity id}

/-- The record of the latest insertion, if no removal came after it. -/
def Stands (history : List Event) (entity : String) (r : Record) : Prop :=
  ∃ k, IsGreatest (insertions history entity r.id) k ∧ history[k]? = some (.inserted r)

/-- The first insertion of one identifier came before that of another. -/
def Precedes (history : List Event) (entity : String) (id id' : RecordId) : Prop :=
  ∃ j k, IsLeast (insertions history entity id) j ∧ IsLeast (insertions history entity id') k ∧
    j < k

section Insertions

variable {history : List Event} {e : Event} {entity : String} {id id' : RecordId} {r : Record}

theorem lt_length_of_mem_insertions {k : Nat} (hk : k ∈ insertions history entity id) :
    k < history.length := by
  obtain ⟨⟨e, he, hinserts⟩, hkept⟩ := hk
  exact (List.getElem?_eq_some_iff.mp he).1

theorem insertions_nil : insertions [] entity id = ∅ := by
  refine Set.eq_empty_iff_forall_notMem.mpr fun k hk => ?_
  exact Nat.not_lt_zero k (lt_length_of_mem_insertions hk)

/-- An event at the end is the only one there, and every other time is before it. -/
theorem mem_insertions_concat {k : Nat} :
    k ∈ insertions (history ++ [e]) entity id ↔
      (k ∈ insertions history entity id ∧ ¬e.Removes entity id) ∨
        (k = history.length ∧ e.Inserts entity id) := by
  constructor
  · rintro ⟨⟨e', he', hinserts⟩, hkept⟩
    rcases Nat.lt_trichotomy k history.length with hlt | rfl | hgt
    · rw [List.getElem?_append_left hlt] at he'
      refine .inl ⟨⟨⟨e', he', hinserts⟩, fun j hj e'' he'' => ?_⟩, ?_⟩
      · have hbound := (List.getElem?_eq_some_iff.mp he'').1
        exact hkept j hj e'' (by rw [List.getElem?_append_left hbound, he''])
      · exact hkept history.length hlt e List.getElem?_concat_length
    · rw [List.getElem?_concat_length, Option.some.injEq] at he'
      subst he'
      exact .inr ⟨rfl, hinserts⟩
    · rw [List.getElem?_eq_none (by simpa using Nat.succ_le_of_lt hgt)] at he'
      cases he'
  · rintro (⟨⟨⟨e', he', hinserts⟩, hkept⟩, hremoves⟩ | ⟨rfl, hinserts⟩)
    · have hlt := (List.getElem?_eq_some_iff.mp he').1
      refine ⟨⟨e', by rw [List.getElem?_append_left hlt, he'], hinserts⟩, fun j hj e'' he'' => ?_⟩
      rcases Nat.lt_trichotomy j history.length with hbefore | rfl | hafter
      · rw [List.getElem?_append_left hbefore] at he''
        exact hkept j hj e'' he''
      · rw [List.getElem?_concat_length, Option.some.injEq] at he''
        rwa [← he'']
      · rw [List.getElem?_eq_none (by simpa using Nat.succ_le_of_lt hafter)] at he''
        cases he''
    · refine ⟨⟨e, List.getElem?_concat_length, hinserts⟩, fun j hj e'' he'' => ?_⟩
      rw [List.getElem?_eq_none (by simpa using Nat.succ_le_of_lt hj)] at he''
      cases he''

theorem insertions_concat_of_removes (h : e.Removes entity id) :
    insertions (history ++ [e]) entity id = ∅ := by
  refine Set.eq_empty_iff_forall_notMem.mpr fun k hk => ?_
  rcases mem_insertions_concat.mp hk with ⟨-, hkept⟩ | ⟨-, hinserts⟩
  · exact hkept h
  · exact hinserts.not_removes h

theorem insertions_concat_of_inserts (h : e.Inserts entity id) :
    insertions (history ++ [e]) entity id =
      insert history.length (insertions history entity id) := by
  ext k
  rw [mem_insertions_concat, Set.mem_insert_iff, and_iff_left h.not_removes, and_iff_left h,
    or_comm]

/-- Events about other identifiers and other entity types do not count. -/
theorem insertions_concat_of_unrelated (hinserts : ¬e.Inserts entity id)
    (hremoves : ¬e.Removes entity id) :
    insertions (history ++ [e]) entity id = insertions history entity id := by
  ext k
  rw [mem_insertions_concat, and_iff_left hremoves, or_iff_left fun h => hinserts h.2]

/-- What was inserted and not removed stands. -/
theorem exists_stands (h : (insertions history entity id).Nonempty) :
    ∃ r, r.id = id ∧ Stands history entity r := by
  obtain ⟨k, hk⟩ := BddAbove.exists_isGreatest_of_nonempty
    ⟨history.length, fun k hk => Nat.le_of_lt (lt_length_of_mem_insertions hk)⟩ h
  obtain ⟨⟨e, he, hinserts⟩, hkept⟩ := hk.1
  cases e with
  | inserted r => exact ⟨r, hinserts.2, k, by rwa [hinserts.2], he⟩
  | erased entity' id' => exact hinserts.elim
  | cleared => exact hinserts.elim

theorem Stands.nonempty (h : Stands history entity r) :
    (insertions history entity r.id).Nonempty := by
  obtain ⟨k, hk, hr⟩ := h
  exact ⟨k, hk.1⟩

/-- Whether a record stands after an event depends on earlier events as long as the event is not
about it. -/
theorem stands_concat_of_unrelated (hinserts : ¬e.Inserts entity r.id)
    (hremoves : ¬e.Removes entity r.id) :
    Stands (history ++ [e]) entity r ↔ Stands history entity r := by
  unfold Stands
  rw [insertions_concat_of_unrelated hinserts hremoves]
  refine exists_congr fun k => and_congr_right fun hk => ?_
  rw [List.getElem?_append_left (lt_length_of_mem_insertions hk.1)]

theorem stands_concat_of_removes (h : e.Removes entity r.id) :
    ¬Stands (history ++ [e]) entity r := by
  intro hstands
  obtain ⟨k, hk⟩ := hstands.nonempty
  rw [insertions_concat_of_removes h] at hk
  exact hk

/-- The record just inserted is the one that stands under its identifier. -/
theorem stands_concat_of_inserts (h : e.Inserts entity r.id) :
    Stands (history ++ [e]) entity r ↔ e = .inserted r := by
  have hlast : IsGreatest (insertions (history ++ [e]) entity r.id) history.length := by
    rw [insertions_concat_of_inserts h]
    refine ⟨Set.mem_insert _ _, fun k hk => ?_⟩
    rcases hk with rfl | hk
    · exact Nat.le_refl _
    · exact Nat.le_of_lt (lt_length_of_mem_insertions hk)
  constructor
  · rintro ⟨k, hk, hr⟩
    rw [hk.unique hlast, List.getElem?_concat_length] at hr
    exact Option.some.inj hr
  · rintro rfl
    exact ⟨history.length, hlast, List.getElem?_concat_length⟩

/-- The first insertion stays the first until a removal. -/
theorem isLeast_concat {k : Nat} (h : IsLeast (insertions history entity id) k)
    (hremoves : ¬e.Removes entity id) : IsLeast (insertions (history ++ [e]) entity id) k := by
  refine ⟨mem_insertions_concat.mpr (.inl ⟨h.1, hremoves⟩), fun j hj => ?_⟩
  rcases mem_insertions_concat.mp hj with ⟨hj, -⟩ | ⟨rfl, -⟩
  · exact h.2 hj
  · exact Nat.le_of_lt (lt_length_of_mem_insertions h.1)

theorem Precedes.concat (h : Precedes history entity id id') (hremoves : ¬e.Removes entity id)
    (hremoves' : ¬e.Removes entity id') : Precedes (history ++ [e]) entity id id' := by
  obtain ⟨j, k, hj, hk, hjk⟩ := h
  exact ⟨j, k, isLeast_concat hj hremoves, isLeast_concat hk hremoves', hjk⟩

/-- A new identifier comes behind all others. -/
theorem precedes_concat_of_inserts (h : (insertions history entity id).Nonempty)
    (hremoves : ¬e.Removes entity id) (hnew : insertions history entity id' = ∅)
    (hinserts : e.Inserts entity id') : Precedes (history ++ [e]) entity id id' := by
  obtain ⟨j, hfirst⟩ := BddBelow.exists_isLeast_of_nonempty (OrderBot.bddBelow _) h
  refine ⟨j, history.length, isLeast_concat hfirst hremoves, ?_,
    lt_length_of_mem_insertions hfirst.1⟩
  rw [insertions_concat_of_inserts hinserts, hnew, insert_empty_eq]
  exact isLeast_singleton

end Insertions

/-! ## Tables -/

/-- The table of an entity type holds what the history leaves, in the order of its history. -/
structure Table.Reflects (t : Table) (history : List Event) (entity : String) : Prop where
  indexed : t.Indexed
  mem_iff : ∀ r, r ∈ t.rows.toList ↔ Stands history entity r
  ordered : (t.rows.toList.map (·.id)).Pairwise (Precedes history entity)

namespace Table

variable {t : Table} {history : List Event} {e : Event} {entity : String} {id : RecordId}
  {r : Record}

theorem reflects_nil (entity : String) : empty.Reflects [] entity where
  indexed := indexed_empty
  mem_iff r := by
    constructor
    · intro hr
      cases hr
    · intro hstands
      obtain ⟨k, hk⟩ := hstands.nonempty
      rw [insertions_nil] at hk
      exact hk.elim
  ordered := .nil

theorem reflects_cleared (history : List Event) (entity : String) :
    empty.Reflects (history ++ [.cleared]) entity where
  indexed := indexed_empty
  mem_iff r := by
    constructor
    · intro hr
      cases hr
    · intro hstands
      have hremoves : Event.cleared.Removes entity r.id := trivial
      exact (stands_concat_of_removes hremoves hstands).elim
  ordered := .nil

namespace Reflects

/-- An identifier stands in the table if it was inserted and not removed. -/
theorem mem_ids_iff (h : t.Reflects history entity) :
    id ∈ t.rows.toList.map (·.id) ↔ (insertions history entity id).Nonempty := by
  rw [List.mem_map]
  constructor
  · rintro ⟨r, hr, rfl⟩
    exact ((h.mem_iff r).mp hr).nonempty
  · intro hinserted
    obtain ⟨r, hid, hstands⟩ := exists_stands hinserted
    exact ⟨r, (h.mem_iff r).mpr hstands, hid⟩

theorem unrelated (h : t.Reflects history entity) (hinserts : ∀ id, ¬e.Inserts entity id)
    (hremoves : ∀ id, ¬e.Removes entity id) : t.Reflects (history ++ [e]) entity where
  indexed := h.indexed
  mem_iff r := by
    rw [h.mem_iff, stands_concat_of_unrelated (hinserts r.id) (hremoves r.id)]
  ordered := h.ordered.imp fun hbefore => hbefore.concat (hremoves _) (hremoves _)

theorem inserted (h : t.Reflects history entity) (hentity : lowercase r.entity = lowercase entity) :
    (t.insert r).2.Reflects (history ++ [.inserted r]) entity where
  indexed := h.indexed.insert r
  mem_iff s := by
    rw [rows_insert h.indexed, mem_upserted, h.mem_iff]
    by_cases hid : r.id = s.id
    · have hinserts : (Event.inserted r).Inserts entity s.id := ⟨hentity, hid⟩
      rw [stands_concat_of_inserts hinserts, Event.inserted.injEq]
      simp [hid, eq_comm]
    · have hinserts : ¬(Event.inserted r).Inserts entity s.id := fun h => hid h.2
      rw [stands_concat_of_unrelated hinserts not_false]
      constructor
      · rintro (rfl | ⟨hstands, -⟩)
        · exact (hid rfl).elim
        · exact hstands
      · exact fun hstands => .inr ⟨hstands, Ne.symm hid⟩
  ordered := by
    have hkept : (t.rows.toList.map (·.id)).Pairwise (Precedes (history ++ [.inserted r]) entity) :=
      h.ordered.imp fun hbefore => hbefore.concat not_false not_false
    rw [rows_insert h.indexed, ids_upserted]
    split
    next hthere => exact hkept
    next hnew =>
      have hnone : insertions history entity r.id = ∅ :=
        Set.not_nonempty_iff_eq_empty.mp (mt h.mem_ids_iff.mpr hnew)
      refine List.pairwise_append.mpr
        ⟨hkept, List.pairwise_singleton _ _, fun id hid id' hid' => ?_⟩
      rw [List.mem_singleton.mp hid']
      exact precedes_concat_of_inserts (h.mem_ids_iff.mp hid) not_false hnone ⟨hentity, rfl⟩

theorem erased {entity' : String} (h : t.Reflects history entity)
    (hentity : lowercase entity' = lowercase entity) :
    (t.erase id).2.Reflects (history ++ [.erased entity' id]) entity where
  indexed := h.indexed.erase id
  mem_iff r := by
    rw [rows_erase h.indexed, List.mem_filter, h.mem_iff, decide_eq_true_iff]
    by_cases hid : id = r.id
    · have hremoves : (Event.erased entity' id).Removes entity r.id := ⟨hentity, hid⟩
      constructor
      · rintro ⟨-, hother⟩
        exact (hother hid.symm).elim
      · exact fun hstands => (stands_concat_of_removes hremoves hstands).elim
    · have hremoves : ¬(Event.erased entity' id).Removes entity r.id := fun h => hid h.2
      have hinserts : ¬(Event.erased entity' id).Inserts entity r.id := not_false
      rw [stands_concat_of_unrelated hinserts hremoves, and_iff_left (Ne.symm hid)]
  ordered := by
    rw [rows_erase h.indexed, List.pairwise_map]
    refine ((List.pairwise_map.mp h.ordered).filter _).imp_of_mem fun hr hs hbefore => ?_
    have hne : ∀ {r : Record}, r ∈ t.rows.toList.filter (·.id ≠ id) → id ≠ r.id := fun hr =>
      Ne.symm (of_decide_eq_true (List.mem_filter.mp hr).2)
    exact hbefore.concat (fun hremoves => hne hr hremoves.2) (fun hremoves => hne hs hremoves.2)

end Reflects

end Table

/-! ## Stores -/

namespace Store

/-- Carries out a change. -/
def change (s : Store) : Change → Store
  | .insert r => (s.insert r).2
  | .insertAll rs => s.insertAll rs
  | .erase entity id => (s.erase entity id).2
  | .clear => s.clear

/-- The store after changes from the empty store. -/
def after (changes : List Change) : Store := changes.foldl change empty

/-- The store after an event. -/
def apply (s : Store) : Event → Store
  | .inserted r => (s.insert r).2
  | .erased entity id => (s.erase entity id).2
  | .cleared => s.clear

theorem change_eq_foldl_apply (s : Store) (c : Change) : s.change c = c.events.foldl apply s := by
  cases c with
  | insert r => rfl
  | insertAll rs =>
      rw [Change.events, List.foldl_map]
      rfl
  | erase entity id => rfl
  | clear => rfl

theorem after_eq_foldl_apply (changes : List Change) :
    after changes = (changes.flatMap Change.events).foldl apply empty := by
  rw [after, List.foldl_flatMap]
  exact congrArg (changes.foldl · empty) (funext fun s => funext (change_eq_foldl_apply s))

/-! ## One table of the store -/

variable {s : Store} {entity : String}

theorem table_insert (s : Store) (r : Record) (entity : String) :
    (s.insert r).2.table entity =
      if lowercase r.entity = lowercase entity then ((s.table entity).insert r).2
      else s.table entity := by
  simp only [insert, table, NameMap.get?_insert]
  split
  next hsame => rw [hsame]; rfl
  next hother => rfl

theorem erase_fst (s : Store) (entity : String) (id : RecordId) :
    (s.erase entity id).1 = s.find? entity id := by
  unfold erase find? table
  split
  next t ht => rw [ht]; exact Table.erase_fst t id
  next hnone =>
    rw [hnone]
    exact (Table.find?_empty id).symm

theorem table_erase (s : Store) (entity : String) (id : RecordId) (entity' : String) :
    (s.erase entity id).2.table entity' =
      if lowercase entity = lowercase entity' then ((s.table entity').erase id).2
      else s.table entity' := by
  unfold erase
  split
  next t ht =>
    simp only [table, NameMap.get?_insert]
    split
    next hsame => rw [← hsame, ht]; rfl
    next hother => rfl
  next hnone =>
    split
    next hsame =>
      rw [table, ← hsame, hnone, Option.getD_none, Table.erase_empty]
    next hother => rfl

/-- Tables of entity types without a record among the inserted ones are untouched. -/
theorem table_insertAll {rs : List Record}
    (h : ∀ r ∈ rs, lowercase r.entity ≠ lowercase entity) :
    (s.insertAll rs).table entity = s.table entity := by
  induction rs generalizing s with
  | nil => rfl
  | cons r rs ih =>
      obtain ⟨hfirst, hrest⟩ := List.forall_mem_cons.mp h
      show ((s.insert r).2.insertAll rs).table entity = _
      rw [ih hrest, table_insert, if_neg hfirst]

/-! ## The store of a history -/

/-- Every table holds what the history leaves. -/
def Reflects (s : Store) (history : List Event) : Prop :=
  ∀ entity, (s.table entity).Reflects history entity

theorem reflects_empty : empty.Reflects [] :=
  Table.reflects_nil

/-- One event keeps the relation between a store and its history. -/
theorem Reflects.apply {history : List Event} (h : s.Reflects history) (e : Event) :
    (s.apply e).Reflects (history ++ [e]) := by
  intro entity
  cases e with
  | inserted r =>
      rw [Store.apply, table_insert]
      split
      next hsame => exact (h entity).inserted hsame
      next hother =>
        exact (h entity).unrelated (fun id hinserts => hother hinserts.1) fun _ => not_false
  | erased entity' id =>
      rw [Store.apply, table_erase]
      split
      next hsame => exact (h entity).erased hsame
      next hother =>
        exact (h entity).unrelated (fun _ => not_false) fun id hremoves => hother hremoves.1
  | cleared => exact Table.reflects_cleared history entity

/-- A run of events keeps it. -/
theorem Reflects.foldl_apply {history : List Event} (h : s.Reflects history) (es : List Event) :
    (es.foldl Store.apply s).Reflects (history ++ es) := by
  induction es generalizing s history with
  | nil => rwa [List.append_nil]
  | cons e es ih =>
      rw [List.foldl_cons, List.append_cons]
      exact ih (h.apply e)

theorem reflects_after (changes : List Change) :
    (after changes).Reflects (changes.flatMap Change.events) := by
  rw [after_eq_foldl_apply]
  exact reflects_empty.foldl_apply _

/-- The store is a map of records that keeps the order of insertion: what it holds is what the
history leaves, and what it answers and does next is said by the lists of its records. -/
structure OrderedMap (s : Store) (history : List Event) : Prop where
  indexed : ∀ entity, (s.table entity).Indexed
  distinct : ∀ entity, ((s.records entity).map (·.id)).Nodup
  mem_records : ∀ entity r, r ∈ s.records entity ↔ Stands history entity r
  ordered : ∀ entity, ((s.records entity).map (·.id)).Pairwise (Precedes history entity)
  find?_eq : ∀ entity id, s.find? entity id = (s.records entity).find? (·.id = id)
  count_eq : ∀ entity, s.count entity = (s.records entity).length
  replaced : ∀ r, (s.insert r).1 = s.find? r.entity r.id
  records_insert : ∀ r entity, lowercase r.entity = lowercase entity →
    (s.insert r).2.records entity = Table.upserted (s.records entity) r
  removed : ∀ entity id, (s.erase entity id).1 = s.find? entity id
  records_erase : ∀ entity id entity', lowercase entity = lowercase entity' →
    (s.erase entity id).2.records entity' = (s.records entity').filter (·.id ≠ id)
  insert_other : ∀ r entity, lowercase r.entity ≠ lowercase entity →
    (s.insert r).2.table entity = s.table entity
  insertAll_other : ∀ rs entity, (∀ r ∈ rs, lowercase r.entity ≠ lowercase entity) →
    (s.insertAll rs).table entity = s.table entity
  erase_other : ∀ entity id entity', lowercase entity ≠ lowercase entity' →
    (s.erase entity id).2.table entity' = s.table entity'
  records_clear : ∀ entity, s.clear.records entity = []

theorem Reflects.orderedMap {history : List Event} (h : s.Reflects history) :
    s.OrderedMap history where
  indexed entity := (h entity).indexed
  distinct entity := (h entity).indexed.nodup
  mem_records entity := (h entity).mem_iff
  ordered entity := (h entity).ordered
  find?_eq entity := (h entity).indexed.find?_eq
  count_eq entity := Array.length_toList.symm
  replaced r := Table.insert_fst _ r
  records_insert r entity hsame := by
    rw [records, table_insert, if_pos hsame]
    exact Table.rows_insert (h entity).indexed r
  removed := erase_fst s
  records_erase entity id entity' hsame := by
    rw [records, table_erase, if_pos hsame]
    exact Table.rows_erase (h entity').indexed id
  insert_other r entity hother := by rw [table_insert, if_neg hother]
  insertAll_other rs entity := table_insertAll
  erase_other entity id entity' hother := by rw [table_erase, if_neg hother]
  records_clear entity := rfl

/-- **A store is a map that keeps the order of insertion**, after every sequence of changes from
the empty store and whatever the letter case of the names in it. -/
theorem ordered_map_after (changes : List Change) :
    (after changes).OrderedMap (changes.flatMap Change.events) :=
  (reflects_after changes).orderedMap

end Store

end RecordQuery

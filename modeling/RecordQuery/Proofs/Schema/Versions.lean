import Mathlib.Data.List.Induction
import RecordQuery.Proofs.NameMap
import RecordQuery.Proofs.Sample
import RecordQuery.Schema.Catalog

/-!
# The versions of a catalog

A catalog keeps three things that are written apart: the number of its version, its current schema
and its history.  A *run* is a list of calls, and what a run leaves is read off its prefixes.  The
version is the number of calls (`toNat_version_after`), and a version is found exactly when it
counts a nonempty prefix of the run: it is then the schema that was current after that prefix
(`schemaAt?_after`).  So a later call adds a prefix and changes none.

Versions are 64 bits wide.  A run of `2 ^ 64` calls would count from zero again, so the numbers
are those of shorter runs.  What is found stays found however long the run is.
-/

namespace RecordQuery

namespace Catalog

/-! ## Runs -/

/-- A call that makes a new version. -/
inductive Call where
  | apply (s : Schema)
  | register (e : Entity)
deriving DecidableEq, Repr

namespace Call

/-- The schema that a call puts in place of the current one. -/
def given (current : Schema) : Call → Schema
  | .apply s => s
  | .register e => current.addEntity e

/-- What a call gives back, which is the new version, and what it leaves. -/
def run (c : Catalog) : Call → UInt64 × Catalog
  | .apply s => ((c.apply s).version, c.apply s)
  | .register e => ((c.register e).version, c.register e)

/-- Both calls put their schema in place by applying it. -/
theorem run_eq (c : Catalog) (call : Call) :
    call.run c = (c.version + 1, c.apply (call.given c.current)) := by
  cases call with
  | apply s => rfl
  | register e => rfl

end Call

/-- What the calls of a run give back, in order. -/
def answers (c : Catalog) : List Call → List UInt64
  | [] => []
  | call :: calls => (call.run c).1 :: answers (call.run c).2 calls

/-- The catalog that a run leaves of a new one. -/
def after (createdAt : Instant) (calls : List Call) : Catalog :=
  calls.foldl (fun c call => (call.run c).2) (empty createdAt)

section Runs

variable (createdAt : Instant) (calls : List Call)

theorem after_concat (call : Call) :
    after createdAt (calls ++ [call]) =
      (after createdAt calls).apply (call.given (after createdAt calls).current) := by
  rw [after, List.foldl_append, List.foldl_cons, List.foldl_nil, Call.run_eq]
  rfl

theorem answers_append (c : Catalog) (later : List Call) :
    answers c (calls ++ later) =
      answers c calls ++ answers (calls.foldl (fun c call => (call.run c).2) c) later := by
  induction calls generalizing c with
  | nil => rfl
  | cons call calls ih => rw [List.cons_append, answers, ih, answers, List.foldl_cons]; rfl

/-! ## Numbers -/

theorem version_after : (after createdAt calls).version = UInt64.ofNat calls.length := by
  induction calls using List.reverseRecOn with
  | nil => rfl
  | append_singleton calls call ih =>
      rw [after_concat, List.length_append, List.length_singleton, UInt64.ofNat_add, ← ih]
      rfl

/-- The calls count up from one. -/
theorem answers_eq :
    answers (empty createdAt) calls = (List.range' 1 calls.length).map UInt64.ofNat := by
  induction calls using List.reverseRecOn with
  | nil => rfl
  | append_singleton calls call ih =>
      have hlast : (call.run (after createdAt calls)).1 = UInt64.ofNat (1 + calls.length) := by
        rw [Call.run_eq, version_after, Nat.add_comm, UInt64.ofNat_add]
        rfl
      rw [answers_append, ih, List.length_append, List.length_singleton, List.range'_concat,
        List.map_append, Nat.one_mul, List.map_singleton, ← hlast]
      rfl

/-- The history lists what the calls gave back. -/
theorem versions_after : (after createdAt calls).versions = answers (empty createdAt) calls := by
  induction calls using List.reverseRecOn with
  | nil => rfl
  | append_singleton calls call ih =>
      rw [after_concat, answers_append, ← ih, answers, answers, Call.run_eq]
      exact List.map_append

end Runs

/-! ## What is found under a version -/

/-- Behind what was found before, the applied schema is found under its version. -/
theorem schemaAt?_apply (c : Catalog) (s : Schema) (v : UInt64) :
    (c.apply s).schemaAt? v =
      (c.schemaAt? v).or (if c.version + 1 = v then some { s with version := v } else none) := by
  show (c.history ++ [{ s with version := c.version + 1 }]).find?
    (fun t : Schema => t.version = v) = _
  rw [List.find?_append]
  congr 1
  split
  next hlast => subst hlast; simp
  next hother => simpa using hother

/-- What is found stays found, through every further call. -/
theorem schemaAt?_after_append {createdAt : Instant} {calls : List Call} {v : UInt64} {s : Schema}
    (hfound : (after createdAt calls).schemaAt? v = some s) (later : List Call) :
    (after createdAt (calls ++ later)).schemaAt? v = some s := by
  induction later using List.reverseRecOn with
  | nil => rwa [List.append_nil]
  | append_singleton later call ih =>
      rw [← List.append_assoc, after_concat, schemaAt?_apply, ih, Option.some_or]

/-- Under a version stands the schema that was current after so many calls. -/
theorem schemaAt?_after (createdAt : Instant) {calls : List Call}
    (hsize : calls.length < UInt64.size) (v : UInt64) :
    (after createdAt calls).schemaAt? v =
      if 0 < v.toNat ∧ v.toNat ≤ calls.length then
        some (after createdAt (calls.take v.toNat)).current
      else none := by
  induction calls using List.reverseRecOn with
  | nil =>
      rw [if_neg fun h => absurd h.2 (Nat.not_le_of_lt h.1)]
      rfl
  | append_singleton calls call ih =>
      rw [List.length_append, List.length_singleton] at hsize ⊢
      have hnext : (after createdAt calls).version + 1 = UInt64.ofNat (calls.length + 1) := by
        rw [version_after, UInt64.ofNat_add]
        rfl
      rw [after_concat, schemaAt?_apply, ih (Nat.lt_of_succ_lt hsize), hnext]
      rcases Nat.lt_trichotomy v.toNat (calls.length + 1) with hlt | heq | hgt
      · -- The prefix lies within the run before the call.
        have hle : v.toNat ≤ calls.length := Nat.le_of_lt_succ hlt
        have hother : UInt64.ofNat (calls.length + 1) ≠ v := by
          rintro rfl
          rw [UInt64.toNat_ofNat_of_lt' hsize] at hlt
          exact Nat.lt_irrefl _ hlt
        rw [if_neg hother, Option.or_none, List.take_append_of_le_length hle]
        simp only [hle, Nat.le_of_lt hlt, and_true]
      · have hlast : UInt64.ofNat (calls.length + 1) = v := by rw [← heq, UInt64.ofNat_toNat]
        rw [if_neg (by omega), if_pos hlast, Option.none_or, if_pos (by omega), heq,
          List.take_of_length_le (by simp), after_concat]
        subst hlast
        exact congrArg some (by rw [Catalog.apply, hnext])
      · have hother : UInt64.ofNat (calls.length + 1) ≠ v := by
          rintro rfl
          rw [UInt64.toNat_ofNat_of_lt' hsize] at hgt
          exact Nat.lt_irrefl _ hgt
        rw [if_neg (by omega), if_neg hother, if_neg (by omega), Option.or_none]

/-- The schema that a call put in place is found under the number of the call. -/
theorem schemaAt?_after_of_lt (createdAt : Instant) {calls : List Call}
    (hsize : calls.length < UInt64.size) (k : Nat) (hk : k < calls.length) :
    (after createdAt calls).schemaAt? (UInt64.ofNat (k + 1)) =
      some { calls[k].given (after createdAt (calls.take k)).current with
        version := UInt64.ofNat (k + 1) } := by
  have hnumber : (UInt64.ofNat (k + 1)).toNat = k + 1 := UInt64.toNat_ofNat_of_lt' (by omega)
  have hversion : (after createdAt (calls.take k)).version + 1 = UInt64.ofNat (k + 1) := by
    rw [version_after, List.length_take_of_le (Nat.le_of_lt hk), UInt64.ofNat_add]
    rfl
  rw [schemaAt?_after createdAt hsize, hnumber, if_pos ⟨Nat.succ_pos k, hk⟩,
    List.take_succ_eq_append_getElem hk, after_concat, Catalog.apply, hversion]

/-! ## Registrations -/

/-- A registration replaces what stands under the name of the entity type and nothing else. -/
theorem get?_register (c : Catalog) (e : Entity) (name : String) :
    NameMap.get? (c.register e).current.entities name =
      if e.name = name then some e else NameMap.get? c.current.entities name :=
  NameMap.get?_insert ..

/-! ## The history as a whole -/

/-- The numbers of a run of this length are those of the natural numbers. -/
theorem map_toNat_range' {n : Nat} (hsize : n < UInt64.size) :
    ((List.range' 1 n).map UInt64.ofNat).map UInt64.toNat = List.range' 1 n := by
  rw [List.map_map]
  refine (List.map_congr_left fun k hk => ?_).trans (List.map_id _)
  have hle : k < 1 + n := (List.mem_range'_1.mp hk).2
  exact UInt64.toNat_ofNat_of_lt' (by omega)

/-- A run leaves a history to which calls are appended only: what they give back and what is
found under each version. -/
structure AppendOnly (createdAt : Instant) (calls : List Call) : Prop where
  answered : (answers (empty createdAt) calls).map UInt64.toNat = List.range' 1 calls.length
  listed : (after createdAt calls).versions.map UInt64.toNat = List.range' 1 calls.length
  counted : (after createdAt calls).version.toNat = calls.length
  found : ∀ k (hk : k < calls.length),
    (after createdAt calls).schemaAt? (UInt64.ofNat (k + 1)) =
      some { calls[k].given (after createdAt (calls.take k)).current with
        version := UInt64.ofNat (k + 1) }
  kept : ∀ v s, (after createdAt calls).schemaAt? v = some s →
    ∀ later, (after createdAt (calls ++ later)).schemaAt? v = some s
  latest : calls ≠ [] → (after createdAt calls).schemaAt? (after createdAt calls).version =
    some (after createdAt calls).current
  registered : ∀ e name, NameMap.get? (after createdAt (calls ++ [.register e])).current.entities
    name = if e.name = name then some e
      else NameMap.get? (after createdAt calls).current.entities name
  missing : ∀ v : UInt64, v = 0 ∨ calls.length < v.toNat →
    (after createdAt calls).schemaAt? v = none

/-- **A catalog is an append-only history of versions**, after every run of calls that its version
can count. -/
theorem appendOnly_after (createdAt : Instant) (calls : List Call)
    (hsize : calls.length < UInt64.size) : AppendOnly createdAt calls where
  answered := by rw [answers_eq, map_toNat_range' hsize]
  listed := by rw [versions_after, answers_eq, map_toNat_range' hsize]
  counted := by rw [version_after, UInt64.toNat_ofNat_of_lt' hsize]
  found := schemaAt?_after_of_lt createdAt hsize
  kept v s hfound := schemaAt?_after_append hfound
  latest hcalls := by
    have hcount : (after createdAt calls).version.toNat = calls.length := by
      rw [version_after, UInt64.toNat_ofNat_of_lt' hsize]
    rw [schemaAt?_after createdAt hsize, hcount,
      if_pos ⟨List.length_pos_iff.mpr hcalls, Nat.le_refl _⟩, List.take_length]
  registered e name := by
    rw [after_concat]
    exact get?_register _ e name
  missing v hv := by
    rw [schemaAt?_after createdAt hsize, if_neg]
    rintro ⟨hpos, hle⟩
    rcases hv with rfl | hgt
    · exact Nat.lt_irrefl 0 hpos
    · omega

/-- Two calls: a schema that carries another version, and an entity type beside its own. -/
theorem appendOnly_two_calls :
    let calls := [.apply (Schema.ofEntities 7 default [Sample.account]), .register Sample.contact]
    calls.length < UInt64.size ∧ AppendOnly default calls := by
  intro calls
  exact ⟨by decide, appendOnly_after default calls (by decide)⟩

end Catalog

end RecordQuery

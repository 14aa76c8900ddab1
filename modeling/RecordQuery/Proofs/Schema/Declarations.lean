import Mathlib.Data.List.Induction
import RecordQuery.Proofs.Canonical

/-!
# What entity types declare

An entity type is built by calls that set its primary name and declare attributes.  A name holds
what was declared for it last.  Where nothing was, the primary identifier is a unique identifier
and the primary name is text (`get?_after`).

So three promises are kept by every call: the attributes stand under their own names in lower case,
the primary name is declared, and so is the primary identifier (`keepsPromises_after`).  The fourth
is not.  A declaration replaces what stands under its name, and the primary identifier is no
exception, so its type is a unique identifier only as long as nobody declares it otherwise.
-/

namespace RecordQuery

open Text

/-! ## Attributes -/

namespace Attribute

/-- Attributes that are made by constructors. -/
inductive Built : Attribute → Prop where
  | new (name : String) (type : AttributeType) : Built (new name type)
  | lookup (name : String) (targets : List String) : Built (lookup name targets)
  | withTargets {a : Attribute} (targets : List String) : Built a → Built (a.withTargets targets)
  | withOption {a : Attribute} (code : Int32) (label : String) : Built a →
      Built (a.withOption code label)

/-- Targets and options do not change the name. -/
theorem Built.lowercase_name {a : Attribute} (h : a.Built) : lowercase a.name = a.name := by
  induction h with
  | new name type => exact lowercase_name_new name type
  | lookup name targets => exact lowercase_name_new name .lookup
  | withTargets targets _ ih => exact ih
  | withOption code label _ ih => exact ih

end Attribute

namespace Entity

/-! ## Calls -/

/-- A call that adds to an entity type. -/
inductive Call where
  | primaryName (name : String)
  | add (a : Attribute)
  | declare (name : String) (type : AttributeType)
  | addAll (as : List Attribute)

namespace Call

/-- What a call makes of an entity type. -/
def run (e : Entity) : Call → Entity
  | .primaryName name => e.withPrimaryName name
  | .add a => e.withAttribute a
  | .declare name type => e.declare name type
  | .addAll as => e.withAttributes as

/-- The attributes that a call declares, in order. -/
def declared : Call → List Attribute
  | .primaryName _ => []
  | .add a => [a]
  | .declare name type => [Attribute.new name type]
  | .addAll as => as

/-- The primary name that a call sets. -/
def primaryName? : Call → Option String
  | .primaryName name => some (lowercase name)
  | _ => none

/-- All attributes of a call are made by constructors. -/
def Built (call : Call) : Prop := ∀ a ∈ call.declared, a.Built

end Call

/-- What calls, one after another, make of an entity type. -/
def after (e : Entity) (calls : List Call) : Entity := calls.foldl Call.run e

/-- What calls declare last for a name. -/
def lastDeclared? (calls : List Call) (name : String) : Option Attribute :=
  (calls.flatMap Call.declared).reverse.find? (·.name = name)

variable {e : Entity} {calls : List Call}

theorem after_concat (e : Entity) (calls : List Call) (call : Call) :
    e.after (calls ++ [call]) = call.run (e.after calls) := by
  simp [after]

/-- The later declaration is found first. -/
theorem lastDeclared?_concat (calls : List Call) (call : Call) (name : String) :
    lastDeclared? (calls ++ [call]) name =
      (call.declared.reverse.find? (·.name = name)).or (lastDeclared? calls name) := by
  simp [lastDeclared?]

/-! ## What stands under a name -/

theorem get?_withAttributes (e : Entity) (as : List Attribute) (name : String) :
    NameMap.get? (e.withAttributes as).attributes name =
      (as.reverse.find? (·.name = name)).or (NameMap.get? e.attributes name) := by
  induction as generalizing e with
  | nil => rfl
  | cons a as ih =>
      show NameMap.get? ((e.withAttribute a).withAttributes as).attributes name = _
      rw [ih, withAttribute, NameMap.get?_insert, List.reverse_cons, List.find?_append,
        Option.or_assoc]
      by_cases hname : a.name = name
      · simp [hname]
      · simp [hname]

/-- A call puts its declarations in place; the primary name is declared only if it was not. -/
theorem get?_run (e : Entity) (call : Call) (name : String) :
    NameMap.get? (call.run e).attributes name =
      (call.declared.reverse.find? (·.name = name)).or ((NameMap.get? e.attributes name).or
        (if call.primaryName? = some name then some (Attribute.new name .string) else none)) := by
  cases call with
  | primaryName n =>
      show NameMap.get? (NameMap.insertNew e.attributes _ _) name = _
      rw [NameMap.get?_insertNew]
      by_cases hname : lowercase n = name
      · simp [Call.declared, Call.primaryName?, hname]
      · simp [Call.declared, Call.primaryName?, hname]
  | add a =>
      show NameMap.get? (e.withAttributes [a]).attributes name = _
      simp [get?_withAttributes, Call.declared, Call.primaryName?]
  | declare n type =>
      show NameMap.get? (e.withAttributes [Attribute.new n type]).attributes name = _
      simp [get?_withAttributes, Call.declared, Call.primaryName?]
  | addAll as =>
      show NameMap.get? (e.withAttributes as).attributes name = _
      simp [get?_withAttributes, Call.declared, Call.primaryName?]

/-- **A name holds what was declared for it last**, else what stood there before the calls, else
text if a call made it the primary name. -/
theorem get?_after (e : Entity) (calls : List Call) (name : String) :
    NameMap.get? (e.after calls).attributes name =
      (lastDeclared? calls name).or ((NameMap.get? e.attributes name).or
        (if name ∈ calls.filterMap Call.primaryName? then some (Attribute.new name .string)
          else none)) := by
  induction calls using List.reverseRecOn with
  | nil => simp [after, lastDeclared?]
  | append_singleton calls call ih =>
      rw [after_concat, get?_run, ih, lastDeclared?_concat, Option.or_assoc, Option.or_assoc,
        Option.or_assoc]
      have hlater : ∀ a : Attribute, (if name ∈ calls.filterMap Call.primaryName? then some a
            else none).or (if call.primaryName? = some name then some a else none) =
          if name ∈ (calls ++ [call]).filterMap Call.primaryName? then some a else none := by
        intro a
        by_cases hearlier : name ∈ calls.filterMap Call.primaryName?
        · simp [hearlier]
        · simp [hearlier]
      rw [hlater]

/-! ## What calls leave as it is -/

theorem withAttributes_names (e : Entity) (as : List Attribute) :
    (e.withAttributes as).name = e.name ∧ (e.withAttributes as).primaryId = e.primaryId ∧
      (e.withAttributes as).primaryName = e.primaryName := by
  induction as generalizing e with
  | nil => exact ⟨rfl, rfl, rfl⟩
  | cons a as ih => exact ih (e.withAttribute a)

theorem run_names (e : Entity) (call : Call) :
    (call.run e).name = e.name ∧ (call.run e).primaryId = e.primaryId ∧
      (call.run e).primaryName = call.primaryName?.or e.primaryName := by
  cases call with
  | primaryName n => exact ⟨rfl, rfl, rfl⟩
  | add a => exact ⟨rfl, rfl, rfl⟩
  | declare n type => exact ⟨rfl, rfl, rfl⟩
  | addAll as => exact e.withAttributes_names as

/-- The name and the primary identifier stay, and the primary name is the last that was set. -/
theorem after_names (e : Entity) (calls : List Call) :
    (e.after calls).name = e.name ∧ (e.after calls).primaryId = e.primaryId ∧
      (e.after calls).primaryName =
        (calls.filterMap Call.primaryName?).getLast?.or e.primaryName := by
  induction calls using List.reverseRecOn with
  | nil => exact ⟨rfl, rfl, rfl⟩
  | append_singleton calls call ih =>
      obtain ⟨hname, hid, hset⟩ := ih
      obtain ⟨hname', hid', hset'⟩ := run_names (e.after calls) call
      rw [after_concat]
      refine ⟨hname'.trans hname, hid'.trans hid, ?_⟩
      rw [hset', hset]
      cases hcall : call.primaryName? with
      | none => simp [hcall]
      | some n => simp [hcall]

/-! ## Own names -/

/-- Every attribute stands under its own name, each name once, and all names are in lower case. -/
structure Filed (e : Entity) : Prop extends e.Canonical where
  sorted : NameMap.Sorted e.attributes
  own : ∀ p ∈ e.attributes, p.2.name = p.1

theorem filed_new (name primaryId : String) : (new name primaryId).Filed where
  toCanonical := canonical_new name primaryId
  sorted := List.pairwise_singleton _ _
  own := List.forall_mem_singleton.mpr (lowercase_lowercase primaryId)

namespace Filed

theorem withPrimaryName (h : e.Filed) (name : String) : (e.withPrimaryName name).Filed where
  toCanonical := h.toCanonical.withPrimaryName name
  sorted := h.sorted.insertNew _ _
  own p hp := by
    rcases NameMap.mem_insertNew hp with rfl | hold
    · exact lowercase_lowercase name
    · exact h.own p hold

theorem withAttribute (h : e.Filed) {a : Attribute} (ha : a.Built) : (e.withAttribute a).Filed where
  toCanonical := h.toCanonical.withAttribute ha.lowercase_name
  sorted := h.sorted.insert
  own p hp := by
    rcases NameMap.mem_insert hp with rfl | hold
    · rfl
    · exact h.own p hold

theorem withAttributes (h : e.Filed) {as : List Attribute} (has : ∀ a ∈ as, a.Built) :
    (e.withAttributes as).Filed := by
  induction as generalizing e with
  | nil => exact h
  | cons a as ih =>
      obtain ⟨ha, hrest⟩ := List.forall_mem_cons.mp has
      exact ih (h.withAttribute ha) hrest

theorem run (h : e.Filed) {call : Call} (hcall : call.Built) : (call.run e).Filed := by
  cases call with
  | primaryName name => exact h.withPrimaryName name
  | add a => exact h.withAttribute (hcall a (.head _))
  | declare name type => exact h.withAttribute (.new name type)
  | addAll as => exact h.withAttributes hcall

theorem after (h : e.Filed) (hcalls : ∀ call ∈ calls, call.Built) : (e.after calls).Filed := by
  induction calls generalizing e with
  | nil => exact h
  | cons call calls ih =>
      obtain ⟨hcall, hrest⟩ := List.forall_mem_cons.mp hcalls
      exact ih (h.run hcall) hrest

/-- A name in lower case is looked up as it is. -/
theorem attribute?_eq (h : e.Filed) {name : String} (hname : lowercase name = name) :
    e.attribute? name = NameMap.get? e.attributes name := by
  rw [attribute?, h.attributes.lookup?_eq, hname]

end Filed

/-! ## Promises -/

section New

variable (name primaryId : String) (calls : List Call)

/-- Under the primary identifier stands what was declared last for it, else a unique identifier. -/
theorem get?_primaryId :
    NameMap.get? ((new name primaryId).after calls).attributes (lowercase primaryId) =
      some ((lastDeclared? calls (lowercase primaryId)).getD
        (Attribute.new (lowercase primaryId) .uniqueIdentifier)) := by
  rw [get?_after]
  have hfirst : NameMap.get? (new name primaryId).attributes (lowercase primaryId) =
      some (Attribute.new (lowercase primaryId) .uniqueIdentifier) := by
    simp [new, NameMap.get?]
  rw [hfirst]
  cases lastDeclared? calls (lowercase primaryId) with
  | none => simp
  | some a => simp

/-- What was made the primary name is declared, before or by that call. -/
theorem isSome_get?_of_primaryName (e : Entity) {n : String}
    (h : n ∈ calls.filterMap Call.primaryName?) :
    (NameMap.get? (e.after calls).attributes n).isSome = true := by
  rw [get?_after, if_pos h]
  simp

end New

/-- A primary name is set in lower case. -/
theorem Call.lowercase_primaryName? {call : Call} {n : String} (h : call.primaryName? = some n) :
    lowercase n = n := by
  cases call with
  | primaryName m =>
      cases h
      exact lowercase_lowercase m
  | add a => cases h
  | declare m type => cases h
  | addAll as => cases h

/-- The promises of an entity type that was built by calls, and when it keeps the one on the type of
its primary identifier. -/
structure KeepsPromises (calls : List Call) (e : Entity) : Prop where
  filed : e.Filed
  primaryName : ∀ n, e.primaryName = some n → e.declares n = true
  primaryId : e.declares e.primaryId = true
  uniqueIdentifier : e.typeOf? e.primaryId = some .uniqueIdentifier ↔
    ∀ a, lastDeclared? calls e.primaryId = some a → a.type = .uniqueIdentifier

/-- **What an entity type promises is kept by every sequence of calls**, but for the type of its
primary identifier: it stays a unique identifier just if what is declared last for it, if anything,
is one. -/
theorem keepsPromises_after (name primaryId : String) {calls : List Call}
    (h : ∀ call ∈ calls, call.Built) :
    ((new name primaryId).after calls).name = lowercase name ∧
      ((new name primaryId).after calls).primaryId = lowercase primaryId ∧
      ((new name primaryId).after calls).primaryName =
        (calls.filterMap Call.primaryName?).getLast? ∧
      KeepsPromises calls ((new name primaryId).after calls) := by
  obtain ⟨hname, hid, hset⟩ := (new name primaryId).after_names calls
  change _ = Option.or _ none at hset
  rw [Option.or_none] at hset
  change _ = lowercase primaryId at hid
  have hfiled := (filed_new name primaryId).after h
  have hstands := get?_primaryId name primaryId calls
  have hfound : ((new name primaryId).after calls).attribute? (lowercase primaryId) = _ :=
    (hfiled.attribute?_eq (lowercase_lowercase primaryId)).trans hstands
  refine ⟨hname, hid, hset, ?_⟩
  constructor
  case filed => exact hfiled
  case primaryName =>
    intro n hn
    have hmem : n ∈ calls.filterMap Call.primaryName? :=
      List.mem_of_getLast? (hset.symm.trans hn)
    obtain ⟨call, -, hcall⟩ := List.mem_filterMap.mp hmem
    rw [declares, hfiled.attribute?_eq (Call.lowercase_primaryName? hcall)]
    exact isSome_get?_of_primaryName calls _ hmem
  case primaryId =>
    rw [declares, hid, hfound]
    rfl
  case uniqueIdentifier =>
    rw [hid, typeOf?, hfound]
    cases lastDeclared? calls (lowercase primaryId) with
    | none => simp [Attribute.new]
    | some a => simp

end Entity

namespace Sample

/-- Calls that name the primary identifier in other letters: as the primary name, and as what it is
with a label. -/
def carefulCalls : List Entity.Call :=
  [.primaryName "ACCOUNTID", .declare "Code" .decimal,
   .add ((Attribute.new "AccountId" .uniqueIdentifier).withOption 1 "One"),
   .addAll [.lookup "Parent" ["Account"]]]

theorem carefulCalls_keepPromises :
    (∀ call ∈ carefulCalls, call.Built) ∧
      Entity.KeepsPromises carefulCalls ((Entity.new "Account" "AccountID").after carefulCalls) ∧
      ((Entity.new "Account" "AccountID").after carefulCalls).typeOf? "accountid" =
        some .uniqueIdentifier := by
  have hbuilt : ∀ call ∈ carefulCalls, call.Built := by
    simp only [carefulCalls, List.forall_mem_cons, Entity.Call.Built, Entity.Call.declared]
    refine ⟨fun a ha => (nomatch ha), ⟨.new _ _, fun a ha => (nomatch ha)⟩,
      ⟨.withOption _ _ (.new _ _), fun a ha => (nomatch ha)⟩,
      ⟨.lookup _ _, fun a ha => (nomatch ha)⟩, fun call hcall => (nomatch hcall)⟩
  obtain ⟨-, hid, -, hkept⟩ := Entity.keepsPromises_after "Account" "AccountID" hbuilt
  have hlower : lowercase "AccountID" = "accountid" := by decide +kernel
  have hlast : (Entity.lastDeclared? carefulCalls "accountid").map (·.type) =
      some .uniqueIdentifier := by decide +kernel
  refine ⟨hbuilt, hkept, ?_⟩
  have htype := hkept.uniqueIdentifier
  rw [hid, hlower] at htype
  refine htype.mpr fun a ha => ?_
  rw [ha] at hlast
  exact Option.some.inj hlast

/-- A declaration of the primary identifier as text stays. -/
theorem primaryId_redeclared :
    (∀ call ∈ [Entity.Call.declare "AccountId" .string], call.Built) ∧
      ((Entity.new "account" "accountid").after [.declare "AccountId" .string]).primaryId =
        "accountid" ∧
      ((Entity.new "account" "accountid").after [.declare "AccountId" .string]).typeOf?
        "accountid" = some .string := by
  refine ⟨?_, by decide +kernel, by decide +kernel⟩
  simp only [List.forall_mem_singleton, Entity.Call.Built, Entity.Call.declared]
  exact .new _ _

end Sample

end RecordQuery

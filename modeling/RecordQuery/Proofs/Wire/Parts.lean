import RecordQuery.Proofs.Calendar.Text
import RecordQuery.Proofs.Json.RoundTrip
import RecordQuery.Proofs.NameMap
import RecordQuery.Proofs.Number.Text
import RecordQuery.Proofs.RecordId
import RecordQuery.Wire.Schema

/-!
# Parts of JSON forms are read back

A form is read back by a reader when it has a text of its own and the reader makes the value out of
it wherever it may open as many levels as the form nests (`Json.Gives`).  The forms of lists, maps
and objects of fixed shape are read back when their parts are, one level down.
-/

namespace RecordQuery

/-! ## Nesting -/

namespace Json

mutual

/-- The number of arrays and objects around the innermost value. -/
def depth : Json → Nat
  | .null => 0
  | .bool _ => 0
  | .integer _ => 0
  | .double _ => 0
  | .string _ => 0
  | .array js => itemsDepth js + 1
  | .object ms => membersDepth ms + 1
  | .respelled j => depth j + 1
  | .unreadable => 0

/-- The depth of the deepest item. -/
def itemsDepth : List Json → Nat
  | [] => 0
  | j :: js => max (depth j) (itemsDepth js)

/-- The depth of the deepest member. -/
def membersDepth : List (String × Json) → Nat
  | [] => 0
  | (_, j) :: ms => max (depth j) (membersDepth ms)

end

theorem itemsDepth_le_iff {js : List Json} {n : Nat} :
    itemsDepth js ≤ n ↔ ∀ j ∈ js, j.depth ≤ n := by
  induction js with
  | nil => simp [itemsDepth]
  | cons j js ih => simp [itemsDepth, ih]

theorem membersDepth_le_iff {ms : List (String × Json)} {n : Nat} :
    membersDepth ms ≤ n ↔ ∀ m ∈ ms, m.2.depth ≤ n := by
  induction ms with
  | nil => simp [membersDepth]
  | cons m ms ih => simp [membersDepth, ih]

theorem depth_array_le {js : List Json} {n : Nat} (h : (Json.array js).depth ≤ n) :
    ∃ k, n = k + 1 ∧ ∀ j ∈ js, j.depth ≤ k := by
  rw [depth] at h
  exact ⟨n - 1, by omega, itemsDepth_le_iff.mp (by omega)⟩

theorem depth_object_le {ms : List (String × Json)} {n : Nat} (h : (Json.object ms).depth ≤ n) :
    ∃ k, n = k + 1 ∧ ∀ m ∈ ms, m.2.depth ≤ k := by
  rw [depth] at h
  exact ⟨n - 1, by omega, membersDepth_le_iff.mp (by omega)⟩

theorem readable_array_iff {js : List Json} :
    (Json.array js).Readable ↔ ∀ j ∈ js, j.Readable := by
  rw [Readable]
  induction js with
  | nil => simp [AllReadable]
  | cons j js ih => simp [AllReadable, ih]

theorem readable_object_iff {ms : List (String × Json)} :
    (Json.object ms).Readable ↔ ∀ m ∈ ms, m.2.Readable := by
  rw [Readable]
  induction ms with
  | nil => simp [MembersReadable]
  | cons m ms ih => simp [MembersReadable, ih]

/-! ## Forms that are read back -/

/-- The form has a text, and the reader makes the value of it. -/
structure Gives (read : (depth : Nat) → Json → Option α) (j : Json) (a : α) : Prop where
  readable : j.Readable
  read_eq : ∀ depth, j.depth ≤ depth → read depth j = some a

theorem Gives.of_read {read : Json → Option α} {j : Json} {a : α} (hreadable : j.Readable)
    (hread : read j = some a) : Gives (fun _ => read) j a :=
  ⟨hreadable, fun _ _ => hread⟩

/-- What is read back from its form is read back from the text of its form. -/
theorem Gives.of_text {read : (depth : Nat) → Json → Option α} {j : Json} {a : α}
    (h : Gives read j a) (hdepth : j.depth ≤ maxDepth) :
    (ofText? j.text).bind (read maxDepth) = some a := by
  rw [ofText?_text h.readable, Option.bind_some, h.read_eq _ hdepth]

/-- A reader that opens no level needs no bound. -/
theorem Gives.eq_some {read : Json → Option α} {j : Json} {a : α}
    (h : Gives (fun _ => read) j a) : read j = some a :=
  h.read_eq _ (Nat.le_refl _)

theorem gives_string (s : String) : Gives (fun _ => string?) (.string s) s := .of_read trivial rfl

theorem gives_bool (b : Bool) : Gives (fun _ => bool?) (.bool b) b := .of_read trivial rfl

section Parts

variable {read : (depth : Nat) → Json → Option β} {write : α → Json} {f : α → β}

/-- What may be absent is written as null then. -/
theorem Gives.ofOption (o : Option α) (hread : ∀ a ∈ o, Gives read (write a) (f a))
    (hnull : ∀ a, write a ≠ .null) :
    Gives (fun depth j => j.optional? (read depth)) (ofOption write o) (o.map f) := by
  cases o with
  | none => exact ⟨trivial, fun _ _ => rfl⟩
  | some a =>
      have hread := hread a rfl
      refine ⟨hread.readable, fun depth hdepth => ?_⟩
      rw [Json.ofOption, optional?, hread.read_eq depth hdepth]
      · rfl
      · exact hnull a

/-- A text that may be absent. -/
theorem gives_optionalString (s : Option String) :
    Gives (fun _ j => j.optional? string?) (ofOption .string s) s := by
  simpa using Gives.ofOption s (fun s _ => gives_string s) fun _ h => nomatch h

theorem mapM_map_eq (read : γ → Option β) (write : α → γ) (f : α → β) {as : List α}
    (h : ∀ a ∈ as, read (write a) = some (f a)) : (as.map write).mapM read = some (as.map f) := by
  induction as with
  | nil => rfl
  | cons a as ih =>
      obtain ⟨ha, has⟩ := List.forall_mem_cons.mp h
      rw [List.map_cons, List.mapM_cons, ha, ih has]
      rfl

theorem Gives.list {as : List α} (h : ∀ a ∈ as, Gives read (write a) (f a)) :
    Gives (list? read) (ofList write as) (as.map f) where
  readable := readable_array_iff.mpr (List.forall_mem_map.mpr fun a ha => (h a ha).readable)
  read_eq depth hdepth := by
    obtain ⟨depth, rfl, hitems⟩ := depth_array_le hdepth
    rw [ofList, list?]
    exact mapM_map_eq _ _ _ fun a ha =>
      (h a ha).read_eq depth (hitems _ (List.mem_map_of_mem ha))

/-- The entries of a map are read one by one. -/
theorem mapM_entries {m : NameMap α} (h : ∀ e ∈ m, Gives read (write e.2) (f e.2)) {depth : Nat}
    (hdepth : ∀ e ∈ m.map fun e => (e.1, write e.2), e.2.depth ≤ depth) :
    (m.map fun e => (e.1, write e.2)).mapM (fun e => (read depth e.2).map (e.1, ·)) =
      some (m.map fun e => (e.1, f e.2)) := by
  refine mapM_map_eq _ _ _ fun e he => ?_
  rw [(h e he).read_eq depth (hdepth _ (List.mem_map_of_mem he)), Option.map_some]

/-- A map is read back from its entries in any order. -/
theorem Gives.entries {m es : NameMap α} (hm : NameMap.Sorted m) (hes : es.Perm m)
    (h : ∀ e ∈ m, Gives read (write e.2) (f e.2)) :
    Gives (map? read) (ofMap write es) (m.map fun e => (e.1, f e.2)) where
  readable := readable_object_iff.mpr
    (List.forall_mem_map.mpr fun e he => (h e (hes.mem_iff.mp he)).readable)
  read_eq depth hdepth := by
    obtain ⟨depth, rfl, hmembers⟩ := depth_object_le hdepth
    have hread := mapM_entries (fun e he => h e (hes.mem_iff.mp he)) hmembers
    rw [ofMap, map?]
    simp only [members?, Option.bind_eq_bind, Option.bind_some, hread]
    rw [(hm.map_snd f).ofList_perm (hes.map _)]

theorem Gives.map {m : NameMap α} (hm : NameMap.Sorted m)
    (h : ∀ e ∈ m, Gives read (write e.2) (f e.2)) :
    Gives (map? read) (ofMap write m) (m.map fun e => (e.1, f e.2)) :=
  .entries hm (.refl m) h

/-- Texts under names. -/
theorem gives_texts {m : NameMap String} (hm : NameMap.Sorted m) :
    Gives (map? fun _ => string?) (ofMap .string m) m := by
  have hmap : Gives (map? fun _ => string?) (ofMap .string m) (m.map fun e => (e.1, id e.2)) :=
    .map hm fun e _ => gives_string e.2
  simpa using hmap

end Parts

/-! ## Members of fixed shape -/

section Members

variable {ms : List (String × Json)} {n : String} {read : Json → Option α} {j : Json} {a : α}

/-- A reader goes on with what it has read. -/
theorem some_then {x : Option α} (h : x = some a) (next : α → Option β) : (x >>= next) = next a := by
  rw [h]
  rfl

/-- A reader goes on behind a member with what it makes of the member. -/
theorem field?_then (h : valuesOf ms n = [j]) (hread : read j = some a) (next : α → Option β) :
    (field? ms n >>= fun j => read j >>= next) = next a := by
  rw [some_then (show field? ms n = some j by rw [field?, h]), some_then hread]

/-- A reader ends at a member that it cannot make anything of. -/
theorem field?_ends (h : valuesOf ms n = [j]) (hread : read j = none) (next : α → Option β) :
    (field? ms n >>= fun j => read j >>= next) = none := by
  rw [some_then (show field? ms n = some j by rw [field?, h]), hread]
  rfl

theorem fieldOrNull?_then (h : valuesOf ms n = [j]) (hread : read j = some a)
    (next : α → Option β) : (fieldOrNull? ms n >>= fun j => read j >>= next) = next a := by
  rw [some_then (show fieldOrNull? ms n = some j by rw [fieldOrNull?, h]), some_then hread]

end Members

theorem items?_array (js : List Json) : (array js).items? = some js := rfl

theorem members?_object (ms : List (String × Json)) : (object ms).members? = some ms := rfl

theorem shape?_object (names : List String) (ms : List (String × Json)) :
    (object ms).shape? names = some ms := rfl

/-- An object is read by its members. -/
theorem fields?_object (names : List String) (read : Nat → List (String × Json) → Option α)
    (depth : Nat) (ms : List (String × Json)) :
    fields? names read (depth + 1) (.object ms) = read depth ms := by
  rw [fields?, shape?_object, Option.bind_some]

theorem Gives.fields {names : List String} {read : Nat → List (String × Json) → Option α}
    {ms : List (String × Json)} {a : α} (hreadable : ∀ m ∈ ms, m.2.Readable)
    (hread : ∀ depth, (∀ m ∈ ms, m.2.depth ≤ depth) → read depth ms = some a) :
    Gives (fields? names read) (.object ms) a where
  readable := readable_object_iff.mpr hreadable
  read_eq depth hdepth := by
    obtain ⟨depth, rfl, hmembers⟩ := depth_object_le hdepth
    rw [fields?_object]
    exact hread depth hmembers

/-! ## Numbers, choices and texts -/

theorem readable_integer_iff {n : Int} :
    (integer n).Readable ↔ -2 ^ 63 ≤ n ∧ n < 2 ^ 64 := by
  rw [Readable]
  simp only [fitsSigned, fitsUnsigned, twoTo, Bool.and_eq_true, decide_eq_true_eq, Nat.pow_eq,
    Nat.cast_pow, Nat.cast_ofNat, Nat.add_one_sub_one]
  split <;> omega

theorem fitsSigned_iff {bits : Nat} {n : Int} :
    fitsSigned bits n = true ↔ -2 ^ (bits - 1) ≤ n ∧ n < 2 ^ (bits - 1) := by
  simp [fitsSigned, twoTo]

theorem fitsUnsigned_iff {bits : Nat} {n : Int} :
    fitsUnsigned bits n = true ↔ 0 ≤ n ∧ n < 2 ^ bits := by
  simp [fitsUnsigned, twoTo]

/-- A signed number of at most 64 bits is read back. -/
theorem gives_signed {bits : Nat} (hbits : bits ≤ 64) (make : Int → α) {n : Int}
    (hlow : -2 ^ (bits - 1) ≤ n) (hhigh : n < 2 ^ (bits - 1)) :
    Gives (fun _ j => (j.signed? bits).map make) (.integer n) (make n) := by
  have hfits : fitsSigned bits n = true := fitsSigned_iff.mpr ⟨hlow, hhigh⟩
  have hwidest : (2 : Int) ^ (bits - 1) ≤ 2 ^ 63 := pow_le_pow_right₀ (by decide) (by omega)
  refine .of_read (readable_integer_iff.mpr (by omega)) ?_
  rw [signed?, if_pos hfits, Option.map_some]

/-- An unsigned number of at most 64 bits is read back. -/
theorem gives_unsigned {bits : Nat} (hbits : bits ≤ 64) (make : Nat → α) {n : Nat}
    (hhigh : n < 2 ^ bits) :
    Gives (fun _ j => (j.unsigned? bits).map make) (.integer n) (make n) := by
  have hfits : fitsUnsigned bits n = true :=
    fitsUnsigned_iff.mpr ⟨Int.natCast_nonneg _, by exact_mod_cast hhigh⟩
  have hwidest : 2 ^ bits ≤ 2 ^ 64 := Nat.pow_le_pow_right (by decide) hbits
  refine .of_read (readable_integer_iff.mpr (by omega)) ?_
  rw [unsigned?, if_pos hfits, Option.map_some, Int.toNat_natCast]

theorem gives_int32 (n : Int32) : Gives (fun _ => int32?) (.integer n.toInt) n := by
  have hgives := gives_signed (by decide : 32 ≤ 64) Int32.ofInt n.le_toInt n.toInt_lt
  rwa [Int32.ofInt_toInt] at hgives

theorem gives_int64 (n : Int64) : Gives (fun _ => int64?) (.integer n.toInt) n := by
  have hgives := gives_signed (Nat.le_refl 64) Int64.ofInt n.le_toInt n.toInt_lt
  rwa [Int64.ofInt_toInt] at hgives

theorem gives_uint32 (n : UInt32) : Gives (fun _ => uint32?) (.integer n.toNat) n := by
  have hgives := gives_unsigned (by decide : 32 ≤ 64) UInt32.ofNat n.toNat_lt
  rwa [UInt32.ofNat_toNat] at hgives

theorem gives_uint64 {n : Nat} (h : n < 2 ^ 64) :
    Gives (fun _ => uint64?) (.integer n) (UInt64.ofNat n) :=
  gives_unsigned (Nat.le_refl 64) UInt64.ofNat h

theorem gives_byte (b : UInt8) :
    Gives (fun _ j => (j.unsigned? 8).map UInt8.ofNat) (.integer b.toNat) b := by
  have hgives := gives_unsigned (by decide : 8 ≤ 64) UInt8.ofNat b.toNat_lt
  rwa [UInt8.ofNat_toNat] at hgives

/-- A choice is read from its name. -/
theorem gives_choice {ofName? : String → Option α} {name : String} {a : α}
    (h : ofName? name = some a) : Gives (choice? ofName?) (.string name) a :=
  ⟨trivial, fun depth _ => by rw [choice?, h]⟩

end Json

theorem Decimal.gives_toJson {d : Decimal} (h : fitsSigned 64 d.scale = true) :
    Json.Gives Decimal.ofJson? d.toJson d.reread :=
  ⟨trivial, fun depth _ => by rw [toJson, ofJson?, ofText?_text h]⟩

theorem RecordId.gives_toJson (id : RecordId) : Json.Gives (fun _ => ofJson?) id.toJson id := by
  refine .of_read trivial ?_
  rw [toJson, ofJson?, Json.string?, Option.bind_some, id.ofText?_text]

theorem Instant.gives_toJson (i : Instant) : Json.Gives (fun _ => ofJson?) i.toJson i := by
  refine .of_read trivial ?_
  rw [toJson, ofJson?, Json.string?, Option.bind_some, i.ofStored?_storedText]

end RecordQuery

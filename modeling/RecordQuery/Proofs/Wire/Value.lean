import RecordQuery.Proofs.Wire.Parts

/-!
# Values and records are read back

The JSON form of a value gives the value back, with every decimal as its text tells it
(`Value.gives_toJson`).  Values, references, records and merged columns hold one another, so there
is one theorem for each of them, by the recursion that writes them.

A double is written in decimal digits and is left out (`Value.Legible`).
-/

namespace RecordQuery

open Json (Gives)

/-! ## Values told by their text -/

mutual

/-- No double stands in the value, its maps are in order and 64 bits hold the scales of its
decimals. -/
def Value.Legible : Value → Prop
  | .decimal d | .money d => fitsSigned 64 d.scale = true
  | .double _ => False
  | .reference r => r.Legible
  | .records rs => recordsLegible rs
  | .aliased c => c.Legible
  | .null | .bool _ | .int _ | .bigint _ | .text _ | .instant _ | .recordId _ | .bytes _
  | .option _ | .options _ => True

def Reference.Legible : Reference → Prop
  | ⟨_, _, _, keys⟩ => NameMap.Sorted keys ∧ attributesLegible keys

def Record.Legible : Record → Prop
  | ⟨_, _, attributes, formatted⟩ =>
    NameMap.Sorted attributes ∧ attributesLegible attributes ∧ NameMap.Sorted formatted

def MergedColumn.Legible : MergedColumn → Prop
  | ⟨_, _, value⟩ => value.Legible

def recordsLegible : List Record → Prop
  | [] => True
  | r :: rs => r.Legible ∧ recordsLegible rs

def attributesLegible : List (String × Value) → Prop
  | [] => True
  | (_, v) :: as => v.Legible ∧ attributesLegible as

end

/-! ## Changing decimals -/

mutual

/-- Changes every decimal of a value. -/
def Value.mapDecimals (f : Decimal → Decimal) : Value → Value
  | .decimal d => .decimal (f d)
  | .money d => .money (f d)
  | .reference r => .reference (r.mapDecimals f)
  | .records rs => .records (recordsMapDecimals f rs)
  | .aliased c => .aliased (c.mapDecimals f)
  | .null => .null
  | .bool b => .bool b
  | .int n => .int n
  | .bigint n => .bigint n
  | .double d => .double d
  | .text s => .text s
  | .instant i => .instant i
  | .recordId id => .recordId id
  | .bytes bs => .bytes bs
  | .option c => .option c
  | .options cs => .options cs

def Reference.mapDecimals (f : Decimal → Decimal) : Reference → Reference
  | ⟨entity, id, name, keys⟩ => ⟨entity, id, name, attributesMapDecimals f keys⟩

def Record.mapDecimals (f : Decimal → Decimal) : Record → Record
  | ⟨entity, id, attributes, formatted⟩ =>
    ⟨entity, id, attributesMapDecimals f attributes, formatted⟩

def MergedColumn.mapDecimals (f : Decimal → Decimal) : MergedColumn → MergedColumn
  | ⟨entity, name, value⟩ => ⟨entity, name, value.mapDecimals f⟩

def recordsMapDecimals (f : Decimal → Decimal) : List Record → List Record
  | [] => []
  | r :: rs => r.mapDecimals f :: recordsMapDecimals f rs

def attributesMapDecimals (f : Decimal → Decimal) :
    List (String × Value) → List (String × Value)
  | [] => []
  | (n, v) :: as => (n, v.mapDecimals f) :: attributesMapDecimals f as

end

theorem recordsMapDecimals_eq (f : Decimal → Decimal) (rs : List Record) :
    recordsMapDecimals f rs = rs.map (Record.mapDecimals f) := by
  induction rs with
  | nil => rfl
  | cons r rs ih => rw [recordsMapDecimals, ih, List.map_cons]

theorem attributesMapDecimals_eq (f : Decimal → Decimal) (as : List (String × Value)) :
    attributesMapDecimals f as = as.map fun e => (e.1, e.2.mapDecimals f) := by
  induction as with
  | nil => rfl
  | cons a as ih => rw [attributesMapDecimals, ih, List.map_cons]

theorem recordsToJson_eq (rs : List Record) : recordsToJson rs = rs.map Record.toJson := by
  induction rs with
  | nil => rfl
  | cons r rs ih => rw [recordsToJson, ih, List.map_cons]

theorem attributesToJson_eq (as : List (String × Value)) :
    attributesToJson as = as.map fun e => (e.1, e.2.toJson) := by
  induction as with
  | nil => rfl
  | cons a as ih => rw [attributesToJson, ih, List.map_cons]

/-! ## One level -/

/-- A value is read under the name of its kind. -/
theorem Value.gives_tagged {tag : String} {read : (depth : Nat) → Json → Option α}
    (make : α → Value)
    (hread : ∀ depth j, ofJson? (depth + 1) (.object [(tag, j)]) = (read depth j).map make)
    {j : Json} {a : α} (h : Gives read j a) : Gives ofJson? (.object [(tag, j)]) (make a) where
  readable := Json.readable_object_iff.mpr (by simp [h.readable])
  read_eq depth hdepth := by
    obtain ⟨depth, rfl, hmembers⟩ := Json.depth_object_le hdepth
    rw [hread, h.read_eq depth (hmembers _ (.head _)), Option.map_some]

section Attributes

variable {as : List (String × Value)}

theorem attributes_readable
    (h : ∀ e ∈ as, Gives Value.ofJson? e.2.toJson (e.2.mapDecimals Decimal.reread)) :
    (Json.object (attributesToJson as)).Readable := by
  rw [attributesToJson_eq]
  exact Json.readable_object_iff.mpr (List.forall_mem_map.mpr fun e he => (h e he).readable)

/-- The members of the form of attributes are read as the attributes. -/
theorem mapM_attributes
    (h : ∀ e ∈ as, Gives Value.ofJson? e.2.toJson (e.2.mapDecimals Decimal.reread)) {depth : Nat}
    (hdepth : ∀ m ∈ attributesToJson as, m.2.depth ≤ depth) :
    (attributesToJson as).mapM (fun m => (Value.ofJson? depth m.2).map (m.1, ·)) =
      some (attributesMapDecimals Decimal.reread as) := by
  rw [attributesToJson_eq] at hdepth ⊢
  rw [attributesMapDecimals_eq]
  exact Json.mapM_entries h hdepth

theorem attributes_sorted (h : NameMap.Sorted as) (f : Decimal → Decimal) :
    NameMap.ofList (attributesMapDecimals f as) = attributesMapDecimals f as := by
  rw [attributesMapDecimals_eq]
  exact (h.map_snd _).ofList_eq

end Attributes

theorem Reference.gives_of_keys {entity : String} {id : RecordId} {name : Option String}
    {keys : List (String × Value)} (hkeys : NameMap.Sorted keys)
    (h : ∀ e ∈ keys, Gives Value.ofJson? e.2.toJson (e.2.mapDecimals Decimal.reread)) :
    Gives ofJson? (toJson ⟨entity, id, name, keys⟩)
      (mapDecimals Decimal.reread ⟨entity, id, name, keys⟩) where
  readable := by
    rw [toJson]
    refine Json.readable_object_iff.mpr ?_
    simp [(Json.gives_string entity).readable, id.gives_toJson.readable,
      (Json.gives_optionalString name).readable, attributes_readable h]
  read_eq depth hdepth := by
    rw [toJson] at hdepth ⊢
    obtain ⟨depth, rfl, hmembers⟩ := Json.depth_object_le hdepth
    obtain ⟨depth, rfl, hdepths⟩ := Json.depth_object_le
      (hmembers ("key_attributes", .object (attributesToJson keys)) (by simp))
    rw [ofJson?]
    rw [Json.some_then (Json.shape?_object _ _),
      Json.field?_then (by simp [Json.valuesOf]) (Json.gives_string entity).eq_some,
      Json.field?_then (by simp [Json.valuesOf]) id.gives_toJson.eq_some,
      Json.fieldOrNull?_then (by simp [Json.valuesOf]) (Json.gives_optionalString name).eq_some,
      Json.field?_then (by simp [Json.valuesOf]) (Json.members?_object (attributesToJson keys)),
      Json.some_then (mapM_attributes h hdepths), attributes_sorted hkeys]
    rfl

theorem Record.gives_of_attributes {entity : String} {id : RecordId}
    {attributes : List (String × Value)} {formatted : List (String × String)}
    (hattributes : NameMap.Sorted attributes) (hformatted : NameMap.Sorted formatted)
    (h : ∀ e ∈ attributes, Gives Value.ofJson? e.2.toJson (e.2.mapDecimals Decimal.reread)) :
    Gives ofJson? (toJson ⟨entity, id, attributes, formatted⟩)
      (mapDecimals Decimal.reread ⟨entity, id, attributes, formatted⟩) := by
  have htexts := Json.gives_texts hformatted
  rw [toJson]
  refine ⟨Json.readable_object_iff.mpr ?_, fun depth hdepth => ?_⟩
  · simp [(Json.gives_string entity).readable, id.gives_toJson.readable, htexts.readable,
      attributes_readable h]
  · obtain ⟨depth, rfl, hmembers⟩ := Json.depth_object_le hdepth
    obtain ⟨depth, rfl, hdepths⟩ := Json.depth_object_le
      (hmembers ("attributes", .object (attributesToJson attributes)) (by simp))
    have hformatted := htexts.read_eq _
      (hmembers ("formatted_values", .ofMap .string formatted) (by simp))
    rw [ofJson?]
    rw [Json.some_then (Json.shape?_object _ _),
      Json.field?_then (by simp [Json.valuesOf]) (Json.gives_string entity).eq_some,
      Json.field?_then (by simp [Json.valuesOf]) id.gives_toJson.eq_some,
      Json.field?_then (by simp [Json.valuesOf])
        (Json.members?_object (attributesToJson attributes)),
      Json.some_then (mapM_attributes h hdepths),
      Json.field?_then (by simp [Json.valuesOf]) hformatted, attributes_sorted hattributes]
    rfl

theorem MergedColumn.gives_of_value {entity name : String} {value : Value}
    (h : Gives Value.ofJson? value.toJson (value.mapDecimals Decimal.reread)) :
    Gives ofJson? (toJson ⟨entity, name, value⟩)
      (mapDecimals Decimal.reread ⟨entity, name, value⟩) := by
  rw [toJson]
  refine ⟨Json.readable_object_iff.mpr ?_, fun depth hdepth => ?_⟩
  · simp [(Json.gives_string _).readable, h.readable]
  · obtain ⟨depth, rfl, hmembers⟩ := Json.depth_object_le hdepth
    have hvalue := h.read_eq depth (hmembers ("value", value.toJson) (by simp))
    rw [ofJson?]
    rw [Json.some_then (Json.shape?_object _ _),
      Json.field?_then (by simp [Json.valuesOf]) (Json.gives_string entity).eq_some,
      Json.field?_then (by simp [Json.valuesOf]) (Json.gives_string name).eq_some,
      Json.field?_then (by simp [Json.valuesOf]) hvalue]
    rfl

/-! ## All levels -/

/-- The records of a value are a list one level down. -/
theorem Value.ofJson?_records (depth : Nat) (j : Json) :
    ofJson? (depth + 1) (.object [("EntityCollection", j)]) =
      (Json.list? Record.ofJson? depth j).map .records := by
  cases depth <;> cases j <;> rfl

mutual

/-- **The JSON form of a value gives the value back**, with its decimals as they are reread. -/
theorem Value.gives_toJson : ∀ {v : Value}, v.Legible →
    Gives Value.ofJson? v.toJson (v.mapDecimals Decimal.reread)
  | .null, _ => ⟨trivial, fun _ _ => by rw [Value.toJson, Value.ofJson?, if_pos rfl]; rfl⟩
  | .bool b, _ => Value.gives_tagged .bool (fun _ _ => rfl) (Json.gives_bool b)
  | .int n, _ => Value.gives_tagged .int (fun _ _ => rfl) (Json.gives_int32 n)
  | .bigint n, _ => Value.gives_tagged .bigint (fun _ _ => rfl) (Json.gives_int64 n)
  | .double _, h => h.elim
  | .decimal _, h => Value.gives_tagged .decimal (fun _ _ => rfl) (Decimal.gives_toJson h)
  | .text s, _ => Value.gives_tagged .text (fun _ _ => rfl) (Json.gives_string s)
  | .instant i, _ => Value.gives_tagged .instant (fun _ _ => rfl) i.gives_toJson
  | .recordId id, _ => Value.gives_tagged .recordId (fun _ _ => rfl) id.gives_toJson
  | .bytes bs, _ => by
      have hbytes := Gives.list fun b (_ : b ∈ bs) => Json.gives_byte b
      rw [List.map_id'] at hbytes
      exact Value.gives_tagged .bytes (fun _ _ => rfl) hbytes
  | .reference _, h => Value.gives_tagged .reference (fun _ _ => rfl) (Reference.gives_toJson h)
  | .option c, _ => Value.gives_tagged .option (fun _ _ => rfl) (Json.gives_int32 c)
  | .money _, h => Value.gives_tagged .money (fun _ _ => rfl) (Decimal.gives_toJson h)
  | .options cs, _ => by
      have hcodes := Gives.list fun c (_ : c ∈ cs) => Json.gives_int32 c
      rw [List.map_id'] at hcodes
      exact Value.gives_tagged .options (fun _ _ => rfl) hcodes
  | .records rs, h => by
      rw [Value.toJson, recordsToJson_eq, Value.mapDecimals, recordsMapDecimals_eq]
      exact Value.gives_tagged .records Value.ofJson?_records (Gives.list (records_give h))
  | .aliased _, h => Value.gives_tagged .aliased (fun _ _ => rfl) (MergedColumn.gives_toJson h)

theorem Reference.gives_toJson : ∀ {r : Reference}, r.Legible →
    Gives Reference.ofJson? r.toJson (r.mapDecimals Decimal.reread)
  | ⟨_, _, _, _⟩, h => Reference.gives_of_keys h.1 (attributes_give h.2)

theorem Record.gives_toJson : ∀ {r : Record}, r.Legible →
    Gives Record.ofJson? r.toJson (r.mapDecimals Decimal.reread)
  | ⟨_, _, _, _⟩, h => Record.gives_of_attributes h.1 h.2.2 (attributes_give h.2.1)

theorem MergedColumn.gives_toJson : ∀ {c : MergedColumn}, c.Legible →
    Gives MergedColumn.ofJson? c.toJson (c.mapDecimals Decimal.reread)
  | ⟨_, _, _⟩, h => MergedColumn.gives_of_value (Value.gives_toJson h)

theorem records_give : ∀ {rs : List Record}, recordsLegible rs → ∀ r ∈ rs,
    Gives Record.ofJson? r.toJson (r.mapDecimals Decimal.reread)
  | [], _ => fun _ hr => nomatch hr
  | _ :: _, h => List.forall_mem_cons.mpr ⟨Record.gives_toJson h.1, records_give h.2⟩

theorem attributes_give : ∀ {as : List (String × Value)}, attributesLegible as → ∀ e ∈ as,
    Gives Value.ofJson? e.2.toJson (e.2.mapDecimals Decimal.reread)
  | [], _ => fun _ he => nomatch he
  | (_, _) :: _, h => List.forall_mem_cons.mpr ⟨Value.gives_toJson h.1, attributes_give h.2⟩

end

end RecordQuery

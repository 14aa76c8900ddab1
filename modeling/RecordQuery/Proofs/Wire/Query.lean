import RecordQuery.Proofs.Query.Filter
import RecordQuery.Proofs.Wire.Value
import RecordQuery.Wire.Query

/-!
# Queries and results are read back

The JSON text of a query gives the query back (`Query.ofText?_text`), and so does that of a result
(`ResultSet.ofText?_text`).  A decimal comes back as its text tells it, which is a decimal of the
same value.

The reader of texts opens `Json.maxDepth` levels.  Filters and links hold one another without a
bound, and so do values, so a query or a result has a text that is read back only where its form
nests no deeper (`Query.ofText?_nested`).
-/

namespace RecordQuery

open Json (Gives)

/-! ## Names of choices -/

theorem Operator.mem_all (o : Operator) : o ∈ all := by
  cases o with
  | null b | equal b | among b | between b | sharesCodes b | caller b | businessUnit b | on b =>
      cases b <;> decide
  | relation r => cases r <;> decide
  | text shape b => cases shape <;> cases b <;> decide
  | day t | fiscalYear t | fiscalPeriod t => cases t <;> decide
  | lastSpan u | nextSpan u => cases u <;> decide
  | olderThan u => cases u <;> decide
  | calendar u t => cases u <;> cases t <;> decide
  | fiscalPeriodAndYear b => cases b <;> decide
  | onOrBefore | onOrAfter | lastSevenDays | nextSevenDays | inFiscalYear | inFiscalPeriod => decide

theorem Operator.ofName?_name (o : Operator) : ofName? o.name = some o := by
  have hall : ∀ o ∈ all, ofName? o.name = some o := by decide
  exact hall o o.mem_all

theorem Connective.ofName?_name (c : Connective) : ofName? c.name = some c := by
  cases c <;> rfl

theorem JoinKind.ofName?_name (k : JoinKind) : ofName? k.name = some k := by
  cases k <;> rfl

theorem Direction.ofName?_name (d : Direction) : ofName? d.name = some d := by
  cases d <;> rfl

/-! ## Conditions and filters -/

namespace Condition

/-- The literal values are told by their text. -/
def Legible (c : Condition) : Prop := ∀ v ∈ c.values, v.Legible

/-- Changes every decimal of the literal values. -/
def mapDecimals (f : Decimal → Decimal) (c : Condition) : Condition :=
  { c with values := c.values.map (Value.mapDecimals f) }

theorem gives_toJson {c : Condition} (h : c.Legible) :
    Gives ofJson? c.toJson (c.mapDecimals Decimal.reread) := by
  have halias := Json.gives_optionalString c.aliasName
  have hoperator := Json.gives_choice c.operator.ofName?_name
  have hvalues : Gives (Json.list? Value.ofJson?) (.ofList Value.toJson c.values)
      (c.values.map (Value.mapDecimals Decimal.reread)) :=
    .list fun v hv => Value.gives_toJson (h v hv)
  refine .fields ?_ fun depth hdepth => ?_
  · simp [halias.readable, (Json.gives_string c.name).readable, hoperator.readable,
      hvalues.readable]
  · have hvalues := hvalues.read_eq depth (hdepth ("values", .ofList Value.toJson c.values) (by simp))
    rw [Json.fieldOrNull?_then (by simp [Json.valuesOf]) halias.eq_some,
      Json.field?_then (by simp [Json.valuesOf]) (Json.gives_string c.name).eq_some,
      Json.field?_then (by simp [Json.valuesOf]) (hoperator.read_eq depth (Nat.zero_le _)),
      Json.field?_then (by simp [Json.valuesOf]) hvalues]
    rfl

end Condition

namespace Filter

/-- The values of all conditions are told by their text. -/
def Legible (f : Filter Condition) : Prop := ∀ c ∈ f.allConditions, c.Legible

/-- Changes every decimal of a filter. -/
def mapDecimals (f : Decimal → Decimal) : Filter Condition → Filter Condition :=
  Filter.map (Condition.mapDecimals f)

theorem allToJson_eq (fs : List (Filter Condition)) : allToJson fs = fs.map toJson := by
  induction fs with
  | nil => rfl
  | cons f fs ih => rw [allToJson, ih, List.map_cons]

theorem toJson_node (c : Connective) (cs : List Condition) (fs : List (Filter Condition)) :
    toJson (.node c cs fs) = .object
      [("filter_operator", .string c.name), ("conditions", .ofList Condition.toJson cs),
       ("filters", .ofList toJson fs)] := by
  rw [toJson, allToJson_eq, Json.ofList, Json.ofList]

theorem mapAll_eq (g : α → β) (fs : List (Filter α)) : mapAll g fs = fs.map (map g) := by
  induction fs with
  | nil => rfl
  | cons f fs ih => rw [mapAll, ih, List.map_cons]

/-- A filter is read back where the filters in it are. -/
theorem gives_node {connective : Connective} {conditions : List Condition}
    {filters : List (Filter Condition)} (hconditions : ∀ c ∈ conditions, c.Legible)
    (hfilters : ∀ f ∈ filters, Gives ofJson? f.toJson (f.mapDecimals Decimal.reread)) :
    Gives ofJson? (toJson (.node connective conditions filters))
      (mapDecimals Decimal.reread (.node connective conditions filters)) := by
  have hconnective := Json.gives_choice connective.ofName?_name
  have hconditions : Gives (Json.list? Condition.ofJson?) (.ofList Condition.toJson conditions)
      (conditions.map (Condition.mapDecimals Decimal.reread)) :=
    .list fun c hc => Condition.gives_toJson (hconditions c hc)
  have hfilters : Gives (Json.list? ofJson?) (.ofList toJson filters)
      (filters.map (mapDecimals Decimal.reread)) := .list hfilters
  rw [toJson_node]
  refine ⟨Json.readable_object_iff.mpr ?_, fun depth hdepth => ?_⟩
  · simp [hconnective.readable, hconditions.readable, hfilters.readable]
  · obtain ⟨depth, rfl, hmembers⟩ := Json.depth_object_le hdepth
    have hlist := hmembers ("filters", .ofList toJson filters) (by simp)
    obtain ⟨depth, rfl, -⟩ := Json.depth_array_le hlist
    have hfilters := hfilters.read_eq _ hlist
    have hconditions := hconditions.read_eq _
      (hmembers ("conditions", .ofList Condition.toJson conditions) (by simp))
    rw [Json.ofList, Json.list?] at hfilters
    rw [ofJson?]
    rw [Json.some_then (Json.shape?_object _ _),
      Json.field?_then (by simp [Json.valuesOf]) (hconnective.read_eq _ (Nat.zero_le _)),
      Json.field?_then (by simp [Json.valuesOf]) hconditions,
      Json.field?_then (by simp [Json.valuesOf, Json.ofList]) (Json.items?_array (filters.map toJson)),
      Json.some_then hfilters, mapDecimals, map, mapAll_eq]

mutual

theorem gives_toJson : ∀ {f : Filter Condition}, f.Legible →
    Gives ofJson? f.toJson (f.mapDecimals Decimal.reread)
  | .node _ _ _, h => by
      rw [Legible, allConditions] at h
      obtain ⟨hconditions, hfilters⟩ := List.forall_mem_append.mp h
      exact gives_node hconditions (gives_allToJson hfilters)

theorem gives_allToJson : ∀ {fs : List (Filter Condition)}, (∀ c ∈ conditionsOfAll fs, c.Legible) →
    ∀ f ∈ fs, Gives ofJson? f.toJson (f.mapDecimals Decimal.reread)
  | [], _ => fun _ hf => nomatch hf
  | _ :: _, h => by
      rw [conditionsOfAll] at h
      obtain ⟨hfirst, hrest⟩ := List.forall_mem_append.mp h
      exact List.forall_mem_cons.mpr ⟨gives_toJson hfirst, gives_allToJson hrest⟩

end

end Filter

/-! ## Columns, orders and pages -/

theorem ColumnSet.gives_toJson (c : ColumnSet) : Gives ofJson? c.toJson c := by
  cases c with
  | all => exact ⟨trivial, fun _ _ => by rw [toJson, ofJson?, if_pos rfl]⟩
  | listed names =>
      have hnames : Gives Json.strings? (.ofList .string names) (names.map fun n => n) :=
        .list fun n _ => Json.gives_string n
      rw [List.map_id'] at hnames
      refine ⟨Json.readable_object_iff.mpr (by simp [hnames.readable]), fun depth hdepth => ?_⟩
      rw [toJson] at hdepth ⊢
      obtain ⟨depth, rfl, hmembers⟩ := Json.depth_object_le hdepth
      rw [ofJson?, if_pos rfl, hnames.read_eq depth (hmembers _ (.head _)), Option.map_some]
      rintro ⟨⟩

theorem Order.gives_toJson (o : Order) : Gives ofJson? o.toJson o := by
  have hname := Json.gives_string o.name
  have hdirection := Json.gives_choice o.direction.ofName?_name
  have halias := Json.gives_optionalString o.aliasName
  refine .fields ?_ fun depth _ => ?_
  · simp [hname.readable, hdirection.readable, halias.readable]
  · rw [Json.field?_then (by simp [Json.valuesOf]) hname.eq_some,
      Json.field?_then (by simp [Json.valuesOf]) (hdirection.read_eq depth (Nat.zero_le _)),
      Json.fieldOrNull?_then (by simp [Json.valuesOf]) halias.eq_some]

theorem PageRequest.gives_toJson (r : PageRequest) : Gives ofJson? r.toJson r := by
  have hnumber := Json.gives_uint32 r.number
  have hcount := Json.gives_uint32 r.count
  have hcookie := Json.gives_optionalString r.cookie
  refine .fields ?_ fun depth _ => ?_
  · simp [hnumber.readable, hcount.readable, hcookie.readable]
  · rw [Json.field?_then (by simp [Json.valuesOf]) hnumber.eq_some,
      Json.field?_then (by simp [Json.valuesOf]) hcount.eq_some,
      Json.fieldOrNull?_then (by simp [Json.valuesOf]) hcookie.eq_some]

/-! ## Links -/

namespace Tree

mutual

/-- Changes every label. -/
def map (f : α → β) : Tree α → Tree β
  | .node a ts => .node (f a) (forestMap f ts)

def forestMap (f : α → β) : List (Tree α) → List (Tree β)
  | [] => []
  | t :: ts => t.map f :: forestMap f ts

end

theorem forestMap_eq (f : α → β) (ts : List (Tree α)) : forestMap f ts = ts.map (map f) := by
  induction ts with
  | nil => rfl
  | cons t ts ih => rw [forestMap, ih, List.map_cons]

end Tree

/-- Changes every decimal of the criteria. -/
def LinkSpec.mapDecimals (f : Decimal → Decimal) (l : LinkSpec) : LinkSpec :=
  { l with criteria := l.criteria.mapDecimals f }

namespace Link

/-- The values of all criteria are told by their text. -/
def Legible (l : Link) : Prop := ∀ s ∈ l.labels, s.criteria.Legible

/-- Changes every decimal of a link and of those below it. -/
def mapDecimals (f : Decimal → Decimal) : Link → Link := Tree.map (LinkSpec.mapDecimals f)

theorem allToJson_eq (ls : List Link) : allToJson ls = ls.map toJson := by
  induction ls with
  | nil => rfl
  | cons l ls ih => rw [allToJson, ih, List.map_cons]

theorem toJson_node (l : LinkSpec) (branches : List Link) :
    toJson (.node l branches) = .object
      [("link_from_entity_name", .string l.source),
       ("link_from_attribute_name", .string l.fromAttribute),
       ("link_to_entity_name", .string l.target),
       ("link_to_attribute_name", .string l.toAttribute),
       ("join_operator", .string l.kind.name), ("entity_alias", .ofOption .string l.aliasName),
       ("columns", l.columns.toJson), ("link_criteria", l.criteria.toJson),
       ("link_entities", .ofList toJson branches)] := by
  rw [toJson, allToJson_eq, Json.ofList]

/-- A link is read back where the links below it are. -/
theorem gives_node {l : LinkSpec} {branches : List Link} (hcriteria : l.criteria.Legible)
    (hbranches : ∀ b ∈ branches, Gives ofJson? (toJson b) (mapDecimals Decimal.reread b)) :
    Gives ofJson? (toJson (.node l branches)) (mapDecimals Decimal.reread (.node l branches)) := by
  have hkind := Json.gives_choice l.kind.ofName?_name
  have halias := Json.gives_optionalString l.aliasName
  have hcolumns := l.columns.gives_toJson
  have hcriteria := Filter.gives_toJson hcriteria
  have hbranches : Gives (Json.list? ofJson?) (.ofList toJson branches)
      (branches.map (mapDecimals Decimal.reread)) := .list hbranches
  rw [toJson_node]
  refine ⟨Json.readable_object_iff.mpr ?_, fun depth hdepth => ?_⟩
  · simp [(Json.gives_string _).readable, halias.readable, hcolumns.readable,
      hcriteria.readable, hbranches.readable]
  · obtain ⟨depth, rfl, hmembers⟩ := Json.depth_object_le hdepth
    have hlist := hmembers ("link_entities", .ofList toJson branches) (by simp)
    obtain ⟨depth, rfl, -⟩ := Json.depth_array_le hlist
    have hbranches := hbranches.read_eq _ hlist
    have hcolumns := hcolumns.read_eq _ (hmembers ("columns", l.columns.toJson) (by simp))
    have hcriteria := hcriteria.read_eq _ (hmembers ("link_criteria", l.criteria.toJson) (by simp))
    rw [Json.ofList, Json.list?] at hbranches
    rw [ofJson?]
    rw [Json.some_then (Json.shape?_object _ _),
      Json.field?_then (by simp [Json.valuesOf]) (Json.gives_string l.source).eq_some,
      Json.field?_then (by simp [Json.valuesOf]) (Json.gives_string l.fromAttribute).eq_some,
      Json.field?_then (by simp [Json.valuesOf]) (Json.gives_string l.target).eq_some,
      Json.field?_then (by simp [Json.valuesOf]) (Json.gives_string l.toAttribute).eq_some,
      Json.field?_then (by simp [Json.valuesOf]) (hkind.read_eq _ (Nat.zero_le _)),
      Json.fieldOrNull?_then (by simp [Json.valuesOf]) halias.eq_some,
      Json.field?_then (by simp [Json.valuesOf]) hcolumns,
      Json.field?_then (by simp [Json.valuesOf]) hcriteria,
      Json.field?_then (by simp [Json.valuesOf, Json.ofList]) (Json.items?_array (branches.map toJson)),
      Json.some_then hbranches, mapDecimals, Tree.map, Tree.forestMap_eq]
    rfl

mutual

theorem gives_toJson : ∀ {l : Link}, Legible l →
    Gives ofJson? (toJson l) (mapDecimals Decimal.reread l)
  | .node _ _, h => by
      rw [Legible, Tree.labels] at h
      obtain ⟨hfirst, hbelow⟩ := List.forall_mem_cons.mp h
      exact gives_node hfirst (gives_allToJson hbelow)

theorem gives_allToJson : ∀ {ls : List Link}, (∀ s ∈ Tree.forestLabels ls, s.criteria.Legible) →
    ∀ l ∈ ls, Gives ofJson? (toJson l) (mapDecimals Decimal.reread l)
  | [], _ => fun _ hl => nomatch hl
  | _ :: _, h => by
      rw [Tree.forestLabels] at h
      obtain ⟨hfirst, hrest⟩ := List.forall_mem_append.mp h
      exact List.forall_mem_cons.mpr ⟨gives_toJson hfirst, gives_allToJson hrest⟩

end

end Link

/-! ## Queries -/

namespace Query

/-- The values of all conditions are told by their text. -/
structure Legible (q : Query) : Prop where
  criteria : q.criteria.Legible
  links : ∀ l ∈ q.links, Link.Legible l

/-- Changes every decimal of a query. -/
def mapDecimals (f : Decimal → Decimal) (q : Query) : Query :=
  { q with
    criteria := q.criteria.mapDecimals f
    links := q.links.map (Link.mapDecimals f) }

theorem gives_toJson {q : Query} (h : q.Legible) :
    Gives ofJson? q.toJson (q.mapDecimals Decimal.reread) := by
  have hcolumns := q.columns.gives_toJson
  have hcriteria := Filter.gives_toJson h.criteria
  have hlinks : Gives (Json.list? Link.ofJson?) (.ofList Link.toJson q.links)
      (q.links.map (Link.mapDecimals Decimal.reread)) :=
    .list fun l hl => Link.gives_toJson (h.links l hl)
  have horders : Gives (Json.list? Order.ofJson?) (.ofList Order.toJson q.orders)
      (q.orders.map fun o => o) := .list fun o _ => o.gives_toJson
  have hpage := Gives.ofOption q.page (fun r _ => r.gives_toJson) fun _ h => nomatch h
  have htop := Gives.ofOption q.top (fun n _ => Json.gives_uint32 n) fun _ h => nomatch h
  rw [List.map_id'] at horders
  rw [Option.map_id'] at hpage htop
  rw [toJson, Link.allToJson_eq]
  refine .fields ?_ fun depth hdepth => ?_
  · have hreadable := hlinks.readable
    rw [Json.ofList] at hreadable
    simp [(Json.gives_string _).readable, hcolumns.readable, hcriteria.readable, hreadable,
      horders.readable, hpage.readable, htop.readable, (Json.gives_bool _).readable]
  · have hcolumns := hcolumns.read_eq depth (hdepth ("column_set", q.columns.toJson) (by simp))
    have hcriteria := hcriteria.read_eq depth (hdepth ("criteria", q.criteria.toJson) (by simp))
    have hlinks := hlinks.read_eq depth
      (hdepth ("link_entities", .ofList Link.toJson q.links) (by simp [Json.ofList]))
    have horders := horders.read_eq depth (hdepth ("orders", .ofList Order.toJson q.orders) (by simp))
    have hpage := hpage.read_eq depth
      (hdepth ("page_info", .ofOption PageRequest.toJson q.page) (by simp))
    rw [Json.field?_then (by simp [Json.valuesOf]) (Json.gives_string q.entity).eq_some,
      Json.field?_then (by simp [Json.valuesOf]) hcolumns,
      Json.field?_then (by simp [Json.valuesOf]) hcriteria,
      Json.field?_then (by simp [Json.valuesOf, Json.ofList]) hlinks,
      Json.field?_then (by simp [Json.valuesOf]) horders,
      Json.fieldOrNull?_then (by simp [Json.valuesOf]) hpage,
      Json.fieldOrNull?_then (by simp [Json.valuesOf]) htop.eq_some,
      Json.field?_then (by simp [Json.valuesOf]) (Json.gives_bool q.distinct).eq_some,
      Json.field?_then (by simp [Json.valuesOf]) (Json.gives_bool q.countTotal).eq_some]
    rfl

end Query

/-! ## Results -/

namespace ResultSet

/-- The values of all rows are told by their text, and 64 bits hold the number of all rows. -/
structure Legible (r : ResultSet) : Prop where
  rows : ∀ row ∈ r.rows, row.Legible
  total : ∀ n ∈ r.total, n < 2 ^ 64

/-- Changes every decimal of a result. -/
def mapDecimals (f : Decimal → Decimal) (r : ResultSet) : ResultSet :=
  { r with rows := r.rows.map (Record.mapDecimals f) }

theorem gives_toJson {r : ResultSet} (h : r.Legible) :
    Gives ofJson? r.toJson (r.mapDecimals Decimal.reread) := by
  have hrows : Gives (Json.list? Record.ofJson?) (.ofList Record.toJson r.rows)
      (r.rows.map (Record.mapDecimals Decimal.reread)) :=
    .list fun row hrow => Record.gives_toJson (h.rows row hrow)
  have hcookie := Json.gives_optionalString r.cookie
  have htotal : Gives (fun _ j => j.optional? Json.uint64?)
      (.ofOption (fun (n : Nat) => .integer n) r.total) (r.total.map UInt64.ofNat) :=
    .ofOption r.total (fun n hn => Json.gives_uint64 (h.total n hn)) fun _ h => nomatch h
  have hcount : (r.total.map UInt64.ofNat).map (·.toNat) = r.total := by
    cases htotal : r.total with
    | none => rfl
    | some n => simp [UInt64.toNat_ofNat_of_lt' (h.total n htotal)]
  rw [toJson, recordsToJson_eq]
  refine .fields ?_ fun depth hdepth => ?_
  · have hreadable := hrows.readable
    rw [Json.ofList] at hreadable
    simp [(Json.gives_string _).readable, hreadable, (Json.gives_bool _).readable,
      hcookie.readable, htotal.readable]
  · have hrows := hrows.read_eq depth
      (hdepth ("entities", .ofList Record.toJson r.rows) (by simp [Json.ofList]))
    rw [Json.field?_then (by simp [Json.valuesOf]) (Json.gives_string r.entity).eq_some,
      Json.field?_then (by simp [Json.valuesOf, Json.ofList]) hrows,
      Json.field?_then (by simp [Json.valuesOf]) (Json.gives_bool r.more).eq_some,
      Json.fieldOrNull?_then (by simp [Json.valuesOf]) hcookie.eq_some,
      Json.fieldOrNull?_then (by simp [Json.valuesOf]) htotal.eq_some, hcount]
    rfl

end ResultSet

/-! ## Texts -/

/-- **Queries and results survive their JSON text** where it nests no deeper than the reader of
texts goes.  What is read is what was written, with every decimal as its text tells it, which is
a decimal of the same value. -/
theorem survive_text {q : Query} (hq : q.Legible) (hqdepth : q.toJson.depth ≤ Json.maxDepth)
    {r : ResultSet} (hr : r.Legible) (hrdepth : r.toJson.depth ≤ Json.maxDepth) :
    (Json.ofText? q.toJson.text).bind (Query.ofJson? Json.maxDepth) =
        some (q.mapDecimals Decimal.reread) ∧
      (Json.ofText? r.toJson.text).bind (ResultSet.ofJson? Json.maxDepth) =
        some (r.mapDecimals Decimal.reread) ∧
      ∀ d : Decimal, d.reread.compare d = .eq :=
  ⟨(Query.gives_toJson hq).of_text hqdepth, (ResultSet.gives_toJson hr).of_text hrdepth,
    Decimal.compare_reread⟩

namespace Sample

/-- A query for the records of a code, joined to those that one of two filters lets pass. -/
def byCode : Query :=
  { Query.new "account" with
    criteria := .node .and [.eq "code" (.decimal ⟨150, 2⟩)] []
    links := [.node ⟨"account", "code", "contact", "code", .leftOuter, some "c", .all,
      .node .or [] [.node .and [.eq "code" (.money ⟨15, -3⟩)] [], .empty]⟩ []] }

/-- A task that regards a contact with a code. -/
def callOfCode : Record :=
  ⟨"task", ⟨5⟩, [("regarding", .reference ⟨"contact", ⟨2⟩, some "Ada", [("code", .money ⟨150, 2⟩)]⟩)],
    []⟩

/-- The result of two rows, one with a merged column and one with a list of records. -/
def resultOfCode : ResultSet :=
  ⟨"account",
    [⟨"account", ⟨1⟩, [("c.code", .aliased ⟨"contact", "code", .decimal ⟨15, -3⟩⟩)],
      [("c.code", "15000")]⟩,
     ⟨"account", ⟨6⟩, [("calls", .records [callOfCode])], []⟩], false, none, some 2⟩

theorem byCode_legible : byCode.Legible where
  criteria := by
    simp [byCode, Filter.Legible, Filter.allConditions, Filter.conditionsOfAll, Condition.Legible,
      Condition.eq, Condition.new, Value.Legible]
    decide
  links := by
    simp [byCode, Link.Legible, Tree.labels, Tree.forestLabels, Filter.Legible,
      Filter.allConditions, Filter.conditionsOfAll, Filter.empty, Condition.Legible,
      Condition.eq, Condition.new, Value.Legible]
    decide

theorem resultOfCode_legible : resultOfCode.Legible where
  rows := by
    simp [resultOfCode, callOfCode, Record.Legible, Value.Legible, Reference.Legible,
      MergedColumn.Legible, attributesLegible, recordsLegible, NameMap.Sorted]
    decide
  total := by simp [resultOfCode]

/-- A query and a result are read back, with the code in thousands as a whole number. -/
theorem byCode_survives_text :
    (Json.ofText? byCode.toJson.text).bind (Query.ofJson? Json.maxDepth) =
        some (byCode.mapDecimals Decimal.reread) ∧
      (Json.ofText? resultOfCode.toJson.text).bind (ResultSet.ofJson? Json.maxDepth) =
        some (resultOfCode.mapDecimals Decimal.reread) ∧
      Decimal.reread ⟨15, -3⟩ = ⟨15000, 0⟩ := by
  obtain ⟨hquery, hresult, -⟩ :=
    survive_text byCode_legible (by decide) resultOfCode_legible (by decide)
  exact ⟨hquery, hresult, by decide⟩

end Sample

/-! ## Filters in filters -/

/-- A filter with a number of filters around it, none of which holds a condition. -/
def Filter.nested : Nat → Filter α
  | 0 => .empty
  | n + 1 => .node .and [] [nested n]

/-- Every filter takes two levels: its own and that of the list it holds filters in. -/
theorem Filter.ofJson?_nested {n depth : Nat} (h : depth < 2 * n + 2) :
    ofJson? depth (nested n).toJson = none := by
  induction n generalizing depth with
  | zero =>
      rcases depth with _ | _ | depth
      · rfl
      · rfl
      · omega
  | succ n ih =>
      rcases depth with _ | _ | depth
      · rfl
      · rfl
      · have hinner : ofJson? depth (nested n).toJson = none := ih (by omega)
        rw [nested, toJson_node, ofJson?, Json.some_then (Json.shape?_object _ _),
          Json.field?_then (by simp [Json.valuesOf])
            ((Json.gives_choice Connective.and.ofName?_name).read_eq _ (Nat.zero_le _)),
          Json.field?_then (by simp [Json.valuesOf]) (show Json.list? Condition.ofJson? (depth + 1)
            (.ofList Condition.toJson []) = some [] from rfl),
          Json.field?_then (by simp [Json.valuesOf, Json.ofList])
            (Json.items?_array [(nested n).toJson]), List.mapM_cons, hinner]
        rfl

/-- Without conditions nothing stands in a filter that a text could not tell. -/
theorem Filter.nested_legible (n : Nat) : (nested n).Legible := by
  have hnone : (nested n : Filter Condition).allConditions = [] := by
    induction n with
    | zero => rfl
    | succ n ih => rw [nested, allConditions, conditionsOfAll, ih]; rfl
  rw [Legible, hnone]
  exact fun _ h => nomatch h

theorem Query.ofJson?_eq_none {q : Query} {depth : Nat} (hcolumns : q.columns.toJson.depth ≤ depth)
    (hcriteria : Filter.ofJson? depth q.criteria.toJson = none) :
    ofJson? (depth + 1) q.toJson = none := by
  rw [toJson, ofJson?, Json.fields?_object,
    Json.field?_then (by simp [Json.valuesOf]) (Json.gives_string q.entity).eq_some,
    Json.field?_then (by simp [Json.valuesOf]) (q.columns.gives_toJson.read_eq depth hcolumns),
    Json.field?_ends (by simp [Json.valuesOf]) hcriteria]

/-- A query for all records, with sixty-three filters around an empty one. -/
def Sample.deep : Query :=
  ⟨"account", .all, .nested 63, [], [], none, none, false, false⟩

/-- The text of a query whose filters lie too deep is not read. -/
theorem Sample.deep_not_read :
    deep.Legible ∧ (Json.ofText? deep.toJson.text).bind (Query.ofJson? Json.maxDepth) = none := by
  have hlegible : deep.Legible := ⟨Filter.nested_legible 63, fun _ h => nomatch h⟩
  refine ⟨hlegible, ?_⟩
  rw [Json.ofText?_text (Query.gives_toJson hlegible).readable, Option.bind_some]
  exact Query.ofJson?_eq_none (by decide) (Filter.ofJson?_nested (by decide))

end RecordQuery

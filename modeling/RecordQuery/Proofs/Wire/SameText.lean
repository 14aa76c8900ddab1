import RecordQuery.Proofs.Equality
import RecordQuery.Proofs.Json.SameText
import RecordQuery.Proofs.Number.Shortest
import RecordQuery.Proofs.Wire.Parts

/-!
# Records of one text

*Texts.*  Records have one JSON text if and only if they agree with their numbers written alike
(`Record.text_eq_iff_writtenAlike`).  There is one step for every kind of value, and the kinds are
told apart by their tags (`Value.kind_eq_of_chars`).

*Numbers.*  Decimals of one text have one value (`Decimal.compare_of_text`), and doubles of one text
are one double or have no finite value (`Double.writtenAlike_iff`).  So records of one text are
equal if their doubles are finite, and equal records have one text if each of their numbers has one
spelling (`Record.writtenAlike_eq_equals`).
-/

namespace RecordQuery

open Json (Gives)

/-! ## Numbers written alike -/

/-- Two decimals have one text. -/
def Decimal.writtenAlike (d e : Decimal) : Bool := d.text == e.text

/-- Two doubles have one JSON text, which is that of null for those without a finite value. -/
def Double.writtenAlike (d e : Double) : Bool := (Json.double d).text == (Json.double e).text

/-- Two records are the same with their numbers written alike. -/
def Record.writtenAlike (a b : Record) : Bool :=
  a.agrees Decimal.writtenAlike Double.writtenAlike b

/-! ## Tags -/

/-- The tag of the values of a kind in JSON. -/
def ValueKind.tag : ValueKind → String
  | .null => "Null"
  | .boolean => "Bool"
  | .integer => "Int"
  | .bigint => "BigInt"
  | .double => "Double"
  | .decimal => "Decimal"
  | .string => "String"
  | .datetime => "DateTime"
  | .guid => "Guid"
  | .binary => "Bytes"
  | .reference => "Reference"
  | .optionSet => "OptionSet"
  | .money => "Money"
  | .multiSelect => "MultiOptionSet"
  | .collection => "EntityCollection"
  | .aliased => "Aliased"

theorem ValueKind.tag_injective : Function.Injective tag := by
  intro k l h
  cases k <;> cases l <;> first | rfl | exact absurd h (by decide)

theorem Json.tagged_chars_eq_iff {tag tag' : String} {j k : Json} :
    (Json.object [(tag, j)]).chars = (Json.object [(tag', k)]).chars ↔
      tag = tag' ∧ j.chars = k.chars := by
  rw [Json.object_chars_eq_iff]
  simp [Json.memberTexts]

theorem Value.exists_tagged {v : Value} (h : v.kind ≠ .null) :
    ∃ j, v.toJson = .object [(v.kind.tag, j)] := by
  cases v <;> first | exact absurd rfl h | exact ⟨_, rfl⟩

/-- Values of one text are of one kind. -/
theorem Value.kind_eq_of_chars {v w : Value} (h : v.toJson.chars = w.toJson.chars) :
    v.kind = w.kind := by
  have hnull : ∀ {u : Value}, u.kind ≠ .null → u.toJson.chars ≠ (Value.null).toJson.chars := by
    intro u hu heq
    obtain ⟨j, hj⟩ := exists_tagged hu
    rw [hj] at heq
    cases heq
  have hkind : ∀ {u : Value}, u.kind = .null → u = .null := by
    intro u hu
    cases u <;> first | rfl | cases hu
  by_cases hv : v.kind = .null
  · by_cases hw : w.kind = .null
    · rw [hv, hw]
    · rw [hkind hv] at h
      exact absurd h.symm (hnull hw)
  · by_cases hw : w.kind = .null
    · rw [hkind hw] at h
      exact absurd h (hnull hv)
    · obtain ⟨j, hj⟩ := exists_tagged hv
      obtain ⟨k, hk⟩ := exists_tagged hw
      rw [hj, hk, Json.tagged_chars_eq_iff] at h
      exact ValueKind.tag_injective h.1

/-! ## Texts -/

/-- Forms of one text that are read back give one value. -/
theorem Json.Gives.inj {read : (depth : Nat) → Json → Option α} {j k : Json} {a b : α}
    (hj : Gives read j a) (hk : Gives read k b) (h : j.chars = k.chars) : a = b := by
  have hsame : j = k := by
    refine Option.some.inj ((Json.ofText?_text hj.readable).symm.trans ?_)
    rw [← Json.ofText?_text hk.readable, Json.text, Json.text, h]
  subst hsame
  have hread := hj.read_eq _ (Nat.le_refl _)
  rw [hk.read_eq _ (Nat.le_refl _)] at hread
  exact (Option.some.inj hread).symm

/-- What is read back as it is has a text of its own. -/
theorem Json.leaf_eq_iff [BEq α] [LawfulBEq α] {read : (depth : Nat) → Json → Option α}
    {write : α → Json} (hread : ∀ a, Gives read (write a) a) {a b : α} :
    (write a).chars = (write b).chars ↔ (a == b) = true := by
  rw [beq_iff_eq]
  exact ⟨(hread a).inj (hread b), fun h => h ▸ rfl⟩

theorem Json.gives_list {read : (depth : Nat) → Json → Option α} {write : α → Json}
    (hread : ∀ a, Gives read (write a) a) (as : List α) :
    Gives (Json.list? read) (Json.ofList write as) as := by
  have hlist := Gives.list fun a (_ : a ∈ as) => hread a
  rwa [List.map_id'] at hlist

/-! ## Records of one text -/

theorem Json.texts_eq_iff {m n : NameMap String} :
    (Json.ofMap .string m).chars = (Json.ofMap .string n).chars ↔ (m == n) = true := by
  have hinj : Function.Injective fun e : String × String => (e.1, (Json.string e.2).chars) := by
    intro e e' h
    obtain ⟨hname, htext⟩ := Prod.mk.inj h
    exact Prod.ext hname (Json.stringChars_inj htext)
  rw [Json.ofMap, Json.ofMap, Json.object_chars_eq_iff, Json.memberTexts, Json.memberTexts,
    List.map_map, List.map_map, beq_iff_eq]
  exact hinj.list_map.eq_iff

/-- Two values have one text if and only if they are the same with their numbers written alike. -/
def Value.ToldByText (v w : Value) : Prop :=
  v.toJson.chars = w.toJson.chars ↔
    v.agrees Decimal.writtenAlike Double.writtenAlike w = true

/-- It is enough to compare values of one kind. -/
theorem Value.toldByText_of (v w : Value) (h : v.SameKind w → v.ToldByText w) :
    v.ToldByText w := by
  by_cases hkind : v.SameKind w
  · exact h hkind
  · exact iff_of_false (fun h => hkind (sameKind_of_kind_eq (kind_eq_of_chars h)))
      fun h => hkind (sameKind_of_agrees h)

theorem Value.ToldByText.of_content {tag : String} {v w : Value} {j k : Json}
    (hv : v.toJson = .object [(tag, j)]) (hw : w.toJson = .object [(tag, k)])
    (h : j.chars = k.chars ↔ v.agrees Decimal.writtenAlike Double.writtenAlike w = true) :
    v.ToldByText w := by
  rw [ToldByText, hv, hw, Json.tagged_chars_eq_iff, and_iff_right rfl]
  exact h

theorem Decimal.chars_toJson_eq_iff {d e : Decimal} :
    d.toJson.chars = e.toJson.chars ↔ d.writtenAlike e = true :=
  Json.leaf_eq_iff Json.gives_string

mutual

theorem Value.toldByText : ∀ v w : Value, v.SameKind w → v.ToldByText w
  | .null, _, h => by
      cases h with
      | null => exact iff_of_true rfl rfl
  | .bool _, _, h => by
      cases h with
      | bool => exact .of_content rfl rfl (Json.leaf_eq_iff Json.gives_bool)
  | .int _, _, h => by
      cases h with
      | int => exact .of_content rfl rfl (Json.leaf_eq_iff Json.gives_int32)
  | .bigint _, _, h => by
      cases h with
      | bigint => exact .of_content rfl rfl (Json.leaf_eq_iff Json.gives_int64)
  | .double _, _, h => by
      cases h with
      | double => exact .of_content rfl rfl (Json.text_eq_iff.symm.trans beq_iff_eq.symm)
  | .decimal _, _, h => by
      cases h with
      | decimal => exact .of_content rfl rfl Decimal.chars_toJson_eq_iff
  | .text _, _, h => by
      cases h with
      | text => exact .of_content rfl rfl (Json.leaf_eq_iff Json.gives_string)
  | .instant _, _, h => by
      cases h with
      | instant => exact .of_content rfl rfl (Json.leaf_eq_iff Instant.gives_toJson)
  | .recordId _, _, h => by
      cases h with
      | recordId => exact .of_content rfl rfl (Json.leaf_eq_iff RecordId.gives_toJson)
  | .bytes _, _, h => by
      cases h with
      | bytes => exact .of_content rfl rfl (Json.leaf_eq_iff (Json.gives_list Json.gives_byte))
  | .reference r, _, h => by
      cases h with
      | reference _ s => exact .of_content rfl rfl (Reference.chars_toJson_eq_iff r s)
  | .option _, _, h => by
      cases h with
      | option => exact .of_content rfl rfl (Json.leaf_eq_iff Json.gives_int32)
  | .money _, _, h => by
      cases h with
      | money => exact .of_content rfl rfl Decimal.chars_toJson_eq_iff
  | .options _, _, h => by
      cases h with
      | options => exact .of_content rfl rfl (Json.leaf_eq_iff (Json.gives_list Json.gives_int32))
  | .records rs, _, h => by
      cases h with
      | records _ ss =>
          exact .of_content rfl rfl (Json.array_chars_eq_iff.trans (records_chars_eq_iff rs ss))
  | .aliased c, _, h => by
      cases h with
      | aliased _ d => exact .of_content rfl rfl (MergedColumn.chars_toJson_eq_iff c d)

theorem Reference.chars_toJson_eq_iff : ∀ r s : Reference, r.toJson.chars = s.toJson.chars ↔
    r.agrees Decimal.writtenAlike Double.writtenAlike s = true
  | ⟨entity, id, name, keys⟩, ⟨entity', id', name', keys'⟩ => by
      have hentity := Json.leaf_eq_iff Json.gives_string (a := entity) (b := entity')
      have hid := Json.leaf_eq_iff RecordId.gives_toJson (a := id) (b := id')
      have hname := Json.leaf_eq_iff Json.gives_optionalString (a := name) (b := name')
      have hkeys := attributes_chars_eq_iff keys keys'
      rw [← Json.object_chars_eq_iff] at hkeys
      rw [Reference.toJson, Reference.toJson, Json.object_chars_eq_iff, Reference.agrees]
      simp [Json.memberTexts, -beq_iff_eq, hentity, hid, hname, hkeys, and_assoc]

theorem Record.chars_toJson_eq_iff : ∀ r s : Record, r.toJson.chars = s.toJson.chars ↔
    r.agrees Decimal.writtenAlike Double.writtenAlike s = true
  | ⟨entity, id, attributes, formatted⟩, ⟨entity', id', attributes', formatted'⟩ => by
      have hentity := Json.leaf_eq_iff Json.gives_string (a := entity) (b := entity')
      have hid := Json.leaf_eq_iff RecordId.gives_toJson (a := id) (b := id')
      have hattributes := attributes_chars_eq_iff attributes attributes'
      rw [← Json.object_chars_eq_iff] at hattributes
      have hformatted := Json.texts_eq_iff (m := formatted) (n := formatted')
      rw [Record.toJson, Record.toJson, Json.object_chars_eq_iff, Record.agrees]
      simp [Json.memberTexts, -beq_iff_eq, hentity, hid, hattributes, hformatted, and_assoc]

theorem MergedColumn.chars_toJson_eq_iff : ∀ c d : MergedColumn, c.toJson.chars = d.toJson.chars ↔
    c.agrees Decimal.writtenAlike Double.writtenAlike d = true
  | ⟨entity, name, value⟩, ⟨entity', name', value'⟩ => by
      have hentity := Json.leaf_eq_iff Json.gives_string (a := entity) (b := entity')
      have hname := Json.leaf_eq_iff Json.gives_string (a := name) (b := name')
      have hvalue := Value.toldByText_of value value' (Value.toldByText value value')
      rw [Value.ToldByText] at hvalue
      rw [MergedColumn.toJson, MergedColumn.toJson, Json.object_chars_eq_iff, MergedColumn.agrees]
      simp [Json.memberTexts, -beq_iff_eq, hentity, hname, hvalue, and_assoc]

theorem records_chars_eq_iff : ∀ rs ss : List Record,
    (recordsToJson rs).map Json.chars = (recordsToJson ss).map Json.chars ↔
      recordsAgree Decimal.writtenAlike Double.writtenAlike rs ss = true
  | [], [] => ⟨fun _ => rfl, fun _ => rfl⟩
  | [], _ :: _ => ⟨nofun, nofun⟩
  | _ :: _, [] => ⟨nofun, nofun⟩
  | r :: rs, s :: ss => by
      have hfirst := Record.chars_toJson_eq_iff r s
      have hrest := records_chars_eq_iff rs ss
      rw [recordsToJson, recordsToJson, recordsAgree, List.map_cons, List.map_cons, List.cons.injEq,
        hfirst, hrest, Bool.and_eq_true]

theorem attributes_chars_eq_iff : ∀ as bs : List (String × Value),
    Json.memberTexts (attributesToJson as) = Json.memberTexts (attributesToJson bs) ↔
      attributesAgree Decimal.writtenAlike Double.writtenAlike as bs = true
  | [], [] => ⟨fun _ => rfl, fun _ => rfl⟩
  | [], _ :: _ => ⟨nofun, nofun⟩
  | _ :: _, [] => ⟨nofun, nofun⟩
  | (n, v) :: as, (m, w) :: bs => by
      have hvalue := Value.toldByText_of v w (Value.toldByText v w)
      have hrest := attributes_chars_eq_iff as bs
      rw [Value.ToldByText] at hvalue
      rw [Json.memberTexts, Json.memberTexts] at hrest
      rw [attributesToJson, attributesToJson, attributesAgree, Json.memberTexts, Json.memberTexts,
        List.map_cons, List.map_cons, List.cons.injEq, Prod.mk.injEq, hvalue, hrest,
        Bool.and_eq_true, Bool.and_eq_true, beq_iff_eq]

end

theorem Record.text_eq_iff_writtenAlike {a b : Record} :
    a.toJson.text = b.toJson.text ↔ a.writtenAlike b = true :=
  Json.text_eq_iff.trans (Record.chars_toJson_eq_iff a b)

/-! ## Numbers of one text -/

/-- Decimals of one text have one value. -/
theorem Decimal.compare_of_text {d e : Decimal} (hd : fitsSigned 64 d.scale = true)
    (he : fitsSigned 64 e.scale = true) (h : d.text = e.text) : compare d e = .eq := by
  have hreread := ofText?_text hd
  rw [h, ofText?_text he] at hreread
  rw [compare_eq, compare_eq_iff_eq, ← value_reread d, ← value_reread e,
    Option.some.inj hreread]

/-- The text of a finite double holds no letter. -/
theorem Double.letter_not_mem_text {d : Double} (h : d.isFinite = true) : 'n' ∉ d.text.toList := by
  rw [text_eq h]
  intro hn
  rcases List.mem_append.mp hn with hn | hn
  · cases hneg : d.isNegative <;> rw [hneg] at hn <;> simp [Decimal.signChars] at hn
  · exact not_mem_positional rfl (by decide) _ _ hn

theorem Double.chars_of_isFinite {d : Double} (h : d.isFinite = true) :
    (Json.double d).chars = d.text.toList := by
  rw [Json.chars, if_pos h]

theorem Double.chars_of_not_isFinite {d : Double} (h : d.isFinite = false) :
    (Json.double d).chars = ['n', 'u', 'l', 'l'] := by
  rw [Json.chars, h, if_neg Bool.false_ne_true]
  decide

theorem Double.chars_ne {d e : Double} (hd : d.isFinite = true) (he : e.isFinite = false) :
    (Json.double d).chars ≠ (Json.double e).chars := by
  rw [chars_of_isFinite hd, chars_of_not_isFinite he]
  intro h
  exact letter_not_mem_text hd (h ▸ .head _)

/-- Doubles are written alike if they are one double, or if neither has a finite value. -/
theorem Double.writtenAlike_iff {d e : Double} :
    d.writtenAlike e = true ↔ d = e ∨ d.isFinite = false ∧ e.isFinite = false := by
  rw [writtenAlike, beq_iff_eq, Json.text_eq_iff]
  constructor
  · intro h
    cases hd : d.isFinite with
    | true =>
        cases he : e.isFinite with
        | true =>
            rw [chars_of_isFinite hd, chars_of_isFinite he] at h
            exact .inl (text_inj hd he (String.toList_inj.mp h))
        | false => exact absurd h (chars_ne hd he)
    | false =>
        cases he : e.isFinite with
        | true => exact absurd h.symm (chars_ne he hd)
        | false => exact .inr ⟨rfl, rfl⟩
  · intro h
    rcases h with rfl | ⟨hd, he⟩
    · rfl
    · rw [chars_of_not_isFinite hd, chars_of_not_isFinite he]

theorem Double.sameValue_self {d : Double} (h : d.isFinite = true) : d.sameValue d = true := by
  rw [sameValue, isNaN_of_isFinite h, beq_self_eq_true]
  rfl

/-- Numbers that are equal exactly if they are written alike. -/
structure OneSpelling (P : Decimal → Prop) (Q : Double → Prop) : Prop where
  scale : ∀ d, P d → fitsSigned 64 d.scale = true
  decimals : ∀ d e, P d → P e → compare d e = .eq → d.text = e.text
  finite : ∀ d, Q d → d.isFinite = true
  doubles : ∀ d e, Q d → Q e → d.sameValue e = true → d = e

/-- There are two zeros. -/
theorem Double.eq_zero_or_eq_neg {d : Double} (h : d.bits.toNat % twoTo 63 = 0) :
    d = ⟨0⟩ ∨ d = neg ⟨0⟩ := by
  have hbits : d.bits.toNat = (0 : UInt64).toNat ∨ d.bits.toNat = (neg ⟨0⟩).bits.toNat := by
    have hhalf : twoTo 63 = 2 ^ 63 := rfl
    have hzero : (0 : UInt64).toNat = 0 := rfl
    have hneg : (neg ⟨0⟩).bits.toNat = 2 ^ 63 := by decide
    have hlt := d.bits.toNat_lt
    rw [hhalf] at h
    rw [hzero, hneg]
    omega
  cases d
  exact hbits.imp (fun h => congrArg mk (UInt64.toNat_inj.mp h))
    fun h => congrArg mk (UInt64.toNat_inj.mp h)

/-- Decimals of one scale and finite doubles have one spelling, the zero below zero left out. -/
theorem oneSpelling_of_scale {s : Int} (hs : fitsSigned 64 s = true) :
    OneSpelling (·.scale = s) fun d => d.isFinite = true ∧ d ≠ Double.neg ⟨0⟩ where
  scale d hd := hd ▸ hs
  decimals d e hd he h := by
    rw [Decimal.compare_eq, compare_eq_iff_eq, Decimal.value, Decimal.value, hd, he] at h
    have hcoefficient : d.coefficient = e.coefficient :=
      Int.cast_injective (mul_right_cancel₀ (zpow_ne_zero _ (by norm_num)) h)
    have hsame : d = e := by
      cases d
      cases e
      exact congrArg₂ Decimal.mk hcoefficient (hd.trans he.symm)
    rw [hsame]
  finite d hd := hd.1
  doubles d e hd he h := by
    rw [Double.sameValue, Bool.and_eq_true, Bool.or_eq_true, beq_iff_eq, Bool.and_eq_true,
      Bool.and_eq_true, beq_iff_eq, beq_iff_eq] at h
    obtain ⟨-, hsame | ⟨hdzero, hezero⟩⟩ := h
    · exact hsame
    · rw [(Double.eq_zero_or_eq_neg hdzero).resolve_right hd.2,
        (Double.eq_zero_or_eq_neg hezero).resolve_right he.2]

/-- Records whose numbers have one spelling are equal exactly if they are written alike. -/
theorem Record.writtenAlike_eq_equals {P : Decimal → Prop} {Q : Double → Prop}
    (hspelling : OneSpelling P Q) {a b : Record} (ha : a.HasNumbers P Q) (hb : b.HasNumbers P Q) :
    a.writtenAlike b = a.equals b := by
  refine Bool.eq_iff_iff.mpr ⟨agrees_imp ⟨fun d e hd he h => ?_, fun d e hd he h => ?_⟩ ha hb,
    agrees_imp ⟨fun d e hd he h => ?_, fun d e hd he h => ?_⟩ ha hb⟩
  · rw [Decimal.compare_of_text (hspelling.scale d hd) (hspelling.scale e he) (beq_iff_eq.mp h)]
    rfl
  · obtain rfl | ⟨hnot, -⟩ := Double.writtenAlike_iff.mp h
    · exact Double.sameValue_self (hspelling.finite d hd)
    · rw [hspelling.finite d hd] at hnot
      cases hnot
  · exact beq_iff_eq.mpr (hspelling.decimals d e hd he (beq_iff_eq.mp h))
  · exact Double.writtenAlike_iff.mpr (.inl (hspelling.doubles d e hd he h))

end RecordQuery

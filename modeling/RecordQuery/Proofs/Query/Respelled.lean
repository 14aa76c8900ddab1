import RecordQuery.Proofs.Join.Respelled
import RecordQuery.Proofs.Json.SameText
import RecordQuery.Proofs.Query.Projection
import RecordQuery.Proofs.Wire.Value

/-!
# Results with respelled columns

Rows that differ in the spelling of columns are projected to rows that do
(`Record.Respelled.project`): a projection selects a joined column by its alias, refreshes what is
wrapped and looks a label up by a name whose letter case does not matter.

Whether two rows repeat each other is decided by their JSON texts, in which the spellings stand.
But the spellings are the same in all rows of one query, so two rows have one text just when the two
rows that they differ from in spelling have one (`Record.Respelled.text_eq_iff`).
-/

namespace RecordQuery

open Text

/-! ## Selected entries -/

namespace NameMap.Respelled

variable {K : Spelling} {write : String → β → α} {m m' : NameMap α}

/-- What stands under a name that no column has does not matter. -/
theorem insertNew (h : Respelled K write m m') {name : String} (hleft : ¬ K.Left name)
    (hright : ¬ K.Right name) (a : α) :
    Respelled K write (NameMap.insertNew m name a) (NameMap.insertNew m' name a) where
  column := by
    intro b n n' hk
    obtain ⟨x, hx, hx'⟩ := h.column hk
    have hn : name ≠ mergedName b n := fun heq => hleft ⟨b, n, n', hk, heq⟩
    have hn' : name ≠ mergedName b n' := fun heq => hright ⟨b, n, n', hk, heq⟩
    refine ⟨x, ?_, ?_⟩
    · rw [get?_insertNew, if_neg hn, Option.or_none, hx]
    · rw [get?_insertNew, if_neg hn', Option.or_none, hx']
  other := by
    intro key hkey hkey'
    rw [get?_insertNew, get?_insertNew, h.other hkey hkey']
  left := by
    intro key hkey hkey'
    have hne : name ≠ key := fun heq => hright (heq ▸ hkey')
    rw [get?_insertNew, if_neg hne, Option.or_none, h.left hkey hkey']
  right := by
    intro key hkey hkey'
    have hne : name ≠ key := fun heq => hleft (heq ▸ hkey)
    rw [get?_insertNew, if_neg hne, Option.or_none, h.right hkey hkey']

/-- Entries are selected and changed alike. -/
theorem filterMap {rewrite : String → δ → γ} (h : Respelled K write m m') (hsorted : Sorted m)
    (hsorted' : Sorted m') (f f' : String → α → Option γ)
    (hcolumn : ∀ {a n n'}, K a n n' → ∀ x, ∃ y : Option δ,
      f (mergedName a n) (write n x) = y.map (rewrite n) ∧
        f' (mergedName a n') (write n' x) = y.map (rewrite n'))
    (hother : ∀ {key}, ¬ K.Left key → ¬ K.Right key → f key = f' key) :
    Respelled K rewrite (m.filterMap fun e => (f e.1 e.2).map (e.1, ·))
      (m'.filterMap fun e => (f' e.1 e.2).map (e.1, ·)) where
  column := by
    intro a n n' hk
    obtain ⟨x, hx, hx'⟩ := h.column hk
    rw [get?_filterMap hsorted.names_ne, get?_filterMap hsorted'.names_ne, hx, hx']
    cases x with
    | none => exact ⟨none, rfl, rfl⟩
    | some x => exact hcolumn hk x
  other := by
    intro key hkey hkey'
    rw [get?_filterMap hsorted.names_ne, get?_filterMap hsorted'.names_ne, h.other hkey hkey',
      hother hkey hkey']
  left := by
    intro key hkey hkey'
    rw [get?_filterMap hsorted.names_ne, h.left hkey hkey']
    rfl
  right := by
    intro key hkey hkey'
    rw [get?_filterMap hsorted'.names_ne, h.right hkey hkey']
    rfl

end NameMap.Respelled

/-! ## Projected rows -/

namespace Projector

variable {p : Projector}

/-- All columns of links are selected; what they wrap is refreshed. -/
theorem kept?_asColumn {a : String} (ha : PointFree a)
    (hknown : NameMap.contains p.aliases a = true) (n : String) (x : String × Value) :
    p.kept? (mergedName a n) (Value.asColumn n x) =
      (if (p.db.refresh x.2).isNull then none else some (x.1, p.db.refresh x.2)).map
        (Value.asColumn n) := by
  have hselects : p.selects (mergedName a n) = true :=
    selects_iff.mpr (.inl ⟨a, n, ha.splitName?_mergedName n, hknown⟩)
  have hrefresh : p.db.refresh (Value.asColumn n x) = Value.asColumn n (x.1, p.db.refresh x.2) := by
    rw [Value.asColumn, Database.refresh, Value.asColumn]
  have hnull : (Value.asColumn n (x.1, p.db.refresh x.2)).isNull = (p.db.refresh x.2).isNull := rfl
  rw [kept?, hselects, hrefresh, hnull]
  cases (p.db.refresh x.2).isNull <;> rfl

/-- The labels of a column do not depend on how it is spelled. -/
theorem labels?_asColumn (haliases : ∀ e ∈ p.aliases, e.2.Canonical) {a : String} (ha : PointFree a)
    {n n' : String} (hn : asciiLower n = asciiLower n') (x : String × Value) :
    p.labels? (mergedName a n) (Value.asColumn n x) =
      p.labels? (mergedName a n') (Value.asColumn n' x) := by
  have hattribute : p.attribute? (mergedName a n) = p.attribute? (mergedName a n') := by
    rw [attribute?, attribute?, ha.splitName?_mergedName, ha.splitName?_mergedName]
    dsimp only
    cases hfound : NameMap.get? p.aliases a with
    | none => rfl
    | some e => exact (haliases _ (NameMap.mem_of_get? hfound)).attribute?_congr hn
  rw [labels?, labels?, hattribute]
  rfl

end Projector

/-- **Projecting keeps rows respelled**, where the columns belong to aliases of the query and none
takes the place of the primary identifier. -/
theorem Record.Respelled.project {K : Spelling} {row row' : Record} (h : Respelled K row row')
    (hK : K.Recased) {p : Projector}
    (hknown : ∀ {a n n'}, K a n n' → NameMap.contains p.aliases a = true)
    (haliases : ∀ e ∈ p.aliases, e.2.Canonical) (hleft : ¬ K.Left p.entity.primaryId)
    (hright : ¬ K.Right p.entity.primaryId) : Respelled K (p.project row) (p.project row') := by
  have hkept : NameMap.Respelled K Value.asColumn (p.keptAttributes row)
      (p.keptAttributes row') := by
    rw [p.keptAttributes_eq, p.keptAttributes_eq]
    refine h.attributes.filterMap h.sorted.attributes h.sorted'.attributes _ _ ?_ fun _ _ => rfl
    intro a n n' hk x
    exact ⟨_, Projector.kept?_asColumn (hK.pointFree hk) (hknown hk) n x,
      Projector.kept?_asColumn (hK.pointFree hk) (hknown hk) n' x⟩
  have hsorted := Projector.sorted_keptAttributes (p := p) h.sorted
  have hsorted' := Projector.sorted_keptAttributes (p := p) h.sorted'
  refine ⟨congrArg lowercase h.entity, h.id, ?_, ?_, ?_, ?_⟩
  · exact Projector.sorted_project h.sorted
  · exact Projector.sorted_project h.sorted'
  · rw [Projector.project, Projector.project, h.id]
    exact hkept.insertNew hleft hright _
  · refine hkept.filterMap hsorted hsorted' (p.displayText? row) (p.displayText? row') ?_ ?_
    · intro a n n' hk x
      obtain ⟨text, htext, htext'⟩ := h.formatted.column hk
      have hlabels := Projector.labels?_asColumn haliases (hK.pointFree hk) (hK.alike hk) x
      refine ⟨p.displayText? row (mergedName a n) (Value.asColumn n x), Option.map_id'.symm, ?_⟩
      rw [Option.map_id', Projector.displayText?, Projector.displayText?, htext, htext', hlabels]
    · intro key hkey hkey'
      funext v
      rw [Projector.displayText?, Projector.displayText?, h.formatted.other hkey hkey']

/-! ## Texts of rows -/

theorem NameMap.map_eq_map_iff {m m' : NameMap α} (h : Sorted m) (h' : Sorted m') (f : α → β) :
    m.map (fun e => (e.1, f e.2)) = m'.map (fun e => (e.1, f e.2)) ↔
      ∀ key, (get? m key).map f = (get? m' key).map f := by
  have hget : ∀ (m : NameMap α) key,
      get? (m.map fun e => (e.1, f e.2)) key = (get? m key).map f := fun m key =>
    get?_map (f := id) (fun _ _ heq => heq) (fun _ => f) key m
  constructor
  · intro heq key
    rw [← hget, ← hget, heq]
  · intro hsame
    refine (h.map_snd f).ext (h'.map_snd f) fun key => ?_
    rw [hget, hget, hsame]

namespace NameMap.Respelled

variable {K : Spelling} {write : String → β → α} {m₁ m₁' m₂ m₂' : NameMap α} {f : α → γ}

/-- Maps that look the same do so in any spelling. -/
theorem same (h₁ : Respelled K write m₁ m₁') (h₂ : Respelled K write m₂ m₂')
    (hwrite : ∀ n n' x y, f (write n x) = f (write n y) → f (write n' x) = f (write n' y))
    (hsame : ∀ key, (get? m₁ key).map f = (get? m₂ key).map f) (key : String) :
    (get? m₁' key).map f = (get? m₂' key).map f := by
  by_cases hright : K.Right key
  · obtain ⟨a, n, n', hk, rfl⟩ := hright
    obtain ⟨x, hx, hx'⟩ := h₁.column hk
    obtain ⟨y, hy, hy'⟩ := h₂.column hk
    have hcolumn := hsame (mergedName a n)
    rw [hx, hy] at hcolumn
    rw [hx', hy']
    cases x with
    | none =>
        cases y with
        | none => rfl
        | some y => cases hcolumn
    | some x =>
        cases y with
        | none => cases hcolumn
        | some y => exact congrArg some (hwrite n n' x y (Option.some.inj hcolumn))
  · by_cases hleft : K.Left key
    · rw [h₁.right hleft hright, h₂.right hleft hright]
    · rw [← h₁.other hleft hright, ← h₂.other hleft hright, hsame]

theorem same_iff (h₁ : Respelled K write m₁ m₁') (h₂ : Respelled K write m₂ m₂')
    (hwrite : ∀ n n' x y, f (write n x) = f (write n y) → f (write n' x) = f (write n' y)) :
    (∀ key, (get? m₁ key).map f = (get? m₂ key).map f) ↔
      ∀ key, (get? m₁' key).map f = (get? m₂' key).map f :=
  ⟨h₁.same h₂ hwrite, h₁.symm.same h₂.symm hwrite⟩

end NameMap.Respelled

/-- The text of a wrapped value does not tie the value to its name. -/
theorem Value.chars_asColumn_congr (n n' : String) (x y : String × Value)
    (h : (asColumn n x).toJson.chars = (asColumn n y).toJson.chars) :
    (asColumn n' x).toJson.chars = (asColumn n' y).toJson.chars := by
  have hparts : ∀ n, (asColumn n x).toJson.chars = (asColumn n y).toJson.chars ↔
      (Json.string x.1).chars = (Json.string y.1).chars ∧ x.2.toJson.chars = y.2.toJson.chars := by
    intro n
    simp [asColumn, toJson, MergedColumn.toJson, Json.object_chars_eq_iff, Json.memberTexts]
  exact (hparts n').mpr ((hparts n).mp h)

/-- Records of one text are alike in all parts, the texts of their attributes included. -/
theorem Record.text_toJson_eq_iff {r s : Record} : r.toJson.text = s.toJson.text ↔
    (Json.string r.entity).chars = (Json.string s.entity).chars ∧
      r.id.toJson.chars = s.id.toJson.chars ∧
      r.attributes.map (fun e => (e.1, e.2.toJson.chars)) =
        s.attributes.map (fun e => (e.1, e.2.toJson.chars)) ∧
      r.formatted.map (fun e => (e.1, (Json.string e.2).chars)) =
        s.formatted.map fun e => (e.1, (Json.string e.2).chars) := by
  obtain ⟨entity, id, attributes, formatted⟩ := r
  obtain ⟨entity', id', attributes', formatted'⟩ := s
  rw [Json.text_eq_iff, toJson, toJson, Json.object_chars_eq_iff]
  simp only [Json.memberTexts, Json.object_chars_eq_iff, Json.ofMap, attributesToJson_eq,
    List.map_cons, List.map_nil, List.map_map, Function.comp_def, List.cons.injEq, Prod.mk.injEq,
    true_and, and_true]

/-- **Rows repeat each other in any spelling or in none.** -/
theorem Record.Respelled.text_eq_iff {K : Spelling} {r r' s s' : Record} (hr : Respelled K r r')
    (hs : Respelled K s s') :
    r.toJson.text = s.toJson.text ↔ r'.toJson.text = s'.toJson.text := by
  have hattributes := hr.attributes.same_iff (f := fun v => v.toJson.chars) hs.attributes
    Value.chars_asColumn_congr
  have hformatted := hr.formatted.same_iff (f := fun text => (Json.string text).chars)
    hs.formatted fun _ _ _ _ h => h
  rw [← NameMap.map_eq_map_iff hr.sorted.attributes hs.sorted.attributes,
    ← NameMap.map_eq_map_iff hr.sorted'.attributes hs.sorted'.attributes] at hattributes
  rw [← NameMap.map_eq_map_iff hr.sorted.formatted hs.sorted.formatted,
    ← NameMap.map_eq_map_iff hr.sorted'.formatted hs.sorted'.formatted] at hformatted
  rw [text_toJson_eq_iff, text_toJson_eq_iff, hr.entity, hs.entity, hr.id, hs.id, hattributes,
    hformatted]

/-! ## Alike results -/

/-- Two entries are one, or they are a column under an alias in two letter cases. -/
inductive AlikeEntry (write : String → β → α) : String × α → String × α → Prop where
  | same (e : String × α) : AlikeEntry write e e
  | column (a : String) {n n' : String} (x : β) : asciiLower n = asciiLower n' →
      AlikeEntry write (mergedName a n, write n x) (mergedName a n', write n' x)

/-- Every entry of each map is alike one of the other. -/
def NameMap.Alike (write : String → β → α) (m m' : NameMap α) : Prop :=
  (∀ e ∈ m, ∃ e' ∈ m', AlikeEntry write e e') ∧ ∀ e' ∈ m', ∃ e ∈ m, AlikeEntry write e e'

/-- The rows are the same but for the letter case of columns under aliases, in their names and in
the names that wrapped values remember. -/
structure Record.Alike (row row' : Record) : Prop where
  entity : row.entity = row'.entity
  id : row.id = row'.id
  attributes : NameMap.Alike Value.asColumn row.attributes row'.attributes
  formatted : NameMap.Alike (fun _ text => text) row.formatted row'.formatted

theorem NameMap.Alike.refl (write : String → β → α) (m : NameMap α) : Alike write m m :=
  ⟨fun e he => ⟨e, he, .same e⟩, fun e he => ⟨e, he, .same e⟩⟩

theorem Record.Alike.refl (row : Record) : row.Alike row := ⟨rfl, rfl, .refl _ _, .refl _ _⟩

theorem AlikeEntry.symm {write : String → β → α} {e e' : String × α} (h : AlikeEntry write e e') :
    AlikeEntry write e' e := by
  cases h with
  | same => exact .same e
  | column a x hn => exact .column a x hn.symm

namespace NameMap.Respelled

variable {K : Spelling} {write : String → β → α} {m m' : NameMap α}

/-- Where letter case is all that changes, each entry has one that is alike. -/
theorem exists_alike (h : Respelled K write m m') (hK : K.Recased) (hsorted : Sorted m)
    {e : String × α} (he : e ∈ m) : ∃ e' ∈ m', AlikeEntry write e e' := by
  obtain ⟨key, v⟩ := e
  have hv : get? m key = some v := (get?_eq_some_iff_mem hsorted.names_ne).mpr he
  by_cases hleft : K.Left key
  · obtain ⟨a, n, n', hk, rfl⟩ := hleft
    obtain ⟨x, hx, hx'⟩ := h.column hk
    obtain ⟨x, rfl, rfl⟩ := Option.map_eq_some_iff.mp (hx.symm.trans hv)
    exact ⟨_, mem_of_get? hx', .column a x (hK.alike hk)⟩
  · by_cases hright : K.Right key
    · cases hv.symm.trans (h.left hleft hright)
    · exact ⟨_, mem_of_get? ((h.other hleft hright).symm.trans hv), .same _⟩

theorem alike (h : Respelled K write m m') (hK : K.Recased) (hsorted : Sorted m)
    (hsorted' : Sorted m') : Alike write m m' :=
  ⟨fun _ he => h.exists_alike hK hsorted he, fun _ he =>
    (h.symm.exists_alike hK.swap hsorted' he).imp fun _ hf => hf.imp_right .symm⟩

end NameMap.Respelled

theorem Record.Respelled.alike {K : Spelling} {row row' : Record} (h : Respelled K row row')
    (hK : K.Recased) : row.Alike row' :=
  ⟨h.entity, h.id, h.attributes.alike hK h.sorted.attributes h.sorted'.attributes,
    h.formatted.alike hK h.sorted.formatted h.sorted'.formatted⟩

end RecordQuery

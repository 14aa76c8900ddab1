import Mathlib.Data.List.Forall2
import RecordQuery.Proofs.Number.Value
import RecordQuery.Proofs.Query.Sorting

/-!
# The order of keys

*What comes before what.*  `Key.Before` says when one key comes strictly before another, kind by
kind: numbers by value, texts by lower case unless case counts, no key before any key.  This is how
keys compare for sorting (`Key.compareForSort_eq_lt_iff`).

*Order.*  Keys of one kind are in order (`Key.compare?_swap`, `Key.isLE_trans_of_compare?`), also
with absent ones among them (`Key.ordersOn_ofKind`), and so are lists of keys that are of one kind
at each place (`CompiledOrder.ordersOn_compareAll`).  The keys that fit one declared type are of one
kind (`Key.kind_eq_of_fits`), so this is how the keys of declared attributes are
(`CompiledOrder.exists_kind`).

Attributes that are not declared may hold keys of several kinds, which count as equal.  They are in
no order, because a key of one kind may stand between two of another (`Key.Separates`).  So all this
is about keys with a property, and `OrdersOn` says so.
-/

namespace RecordQuery

/-! ## Comparisons of elements with a property -/

universe u v

variable {α : Type u} {β : Type v}

/-- A comparison is an order of the elements with a property. -/
abbrev OrdersOn (P : α → Prop) (cmp : α → α → Ordering) : Prop :=
  Std.TransCmp fun a b : Subtype P => cmp a.1 b.1

namespace OrdersOn

variable {P : α → Prop} {Q : β → Prop} {cmp cmp' : α → α → Ordering}

theorem swap (h : OrdersOn P cmp) {a b : α} (ha : P a) (hb : P b) : cmp a b = (cmp b a).swap :=
  @Std.OrientedCmp.eq_swap _ _ h.toOrientedCmp ⟨a, ha⟩ ⟨b, hb⟩

theorem le_trans (h : OrdersOn P cmp) {a b c : α} (ha : P a) (hb : P b) (hc : P c)
    (hab : (cmp a b).isLE = true) (hbc : (cmp b c).isLE = true) : (cmp a c).isLE = true :=
  @Std.TransCmp.isLE_trans _ _ h ⟨a, ha⟩ ⟨b, hb⟩ ⟨c, hc⟩ hab hbc

theorem congr (h : OrdersOn P cmp) (heq : ∀ a b, P a → P b → cmp' a b = cmp a b) :
    OrdersOn P cmp' := by
  have hsame : (fun a b : Subtype P => cmp' a.1 b.1) = fun a b => cmp a.1 b.1 :=
    funext fun a => funext fun b => heq a.1 b.1 a.2 b.2
  rw [OrdersOn, hsame]
  exact h

/-- Elements are ordered by what a function makes of them. -/
theorem comap {cmp : β → β → Ordering} (h : OrdersOn Q cmp) (f : α → β) (hf : ∀ a, P a → Q (f a)) :
    OrdersOn P fun a b => cmp (f a) (f b) where
  eq_swap {a b} := h.swap (hf a.1 a.2) (hf b.1 b.2)
  isLE_trans {a b c} := h.le_trans (hf a.1 a.2) (hf b.1 b.2) (hf c.1 c.2)

/-- One order after another is an order. -/
theorem lex (h : OrdersOn P cmp) (h' : OrdersOn P cmp') :
    OrdersOn P fun a b => (cmp a b).then (cmp' a b) :=
  @Std.instTransCmpCompareLex _ _ _ h h'

theorem reverse (h : OrdersOn P cmp) : OrdersOn P fun a b => (cmp a b).swap := by
  have hopposite : OrdersOn P fun a b => cmp b a := @Std.TransCmp.opposite _ _ h
  exact hopposite.congr fun a b ha hb => (h.swap hb ha).symm

/-- What an order puts strictly before what is a weak order. -/
theorem weakOrderOn (h : OrdersOn P cmp) : WeakOrderOn P fun a b => cmp a b = .lt where
  asymm {a b} ha hb hab := by
    rw [h.swap hb ha, of_decide_eq_true hab]
    rfl
  trans {a b c} ha hb hc hab hbc := by
    have hle : ∀ {x y : α}, P x → P y → decide (cmp x y = .lt) = false → (cmp y x).isLE = true := by
      intro x y hx hy hxy
      rw [h.swap hy hx]
      cases hcmp : cmp x y with
      | lt => exact absurd hcmp (of_decide_eq_false hxy)
      | eq => rfl
      | gt => rfl
    have hca := h.le_trans hc hb ha (hle hb hc hbc) (hle ha hb hab)
    refine decide_eq_false fun hlt => ?_
    rw [h.swap hc ha, hlt] at hca
    cases hca

end OrdersOn

/-! ## Keys -/

instance : Std.TransOrd RecordId := inferInstanceAs (Std.TransCmp (compareOn RecordId.bits))

instance : Std.TransOrd Instant := inferInstanceAs (Std.TransCmp (compareOn Instant.rank))

namespace Key

variable {caseSensitive : Bool} {a b c : Key} {o o' : Ordering} {t : AttributeType}

theorem compare?_swap (caseSensitive : Bool) (a b : Key) :
    compare? caseSensitive b a = (compare? caseSensitive a b).map Ordering.swap := by
  -- keys of two kinds do not compare either way, and those of one kind compare as their parts
  cases a <;> cases b <;> first | rfl | exact congrArg some Std.OrientedOrd.eq_swap

theorem isLE_trans_of_compare? (hab : compare? caseSensitive a b = some o) (ho : o.isLE = true)
    (hbc : compare? caseSensitive b c = some o') (ho' : o'.isLE = true) :
    ∃ o'', compare? caseSensitive a c = some o'' ∧ o''.isLE = true := by
  cases a <;> cases b <;> cases hab <;> cases c <;> cases hbc <;>
    exact ⟨_, rfl, Std.TransOrd.isLE_trans ho ho'⟩

theorem compareForSort_swap (caseSensitive : Bool) (a b : Option Key) :
    compareForSort caseSensitive a b = (compareForSort caseSensitive b a).swap := by
  cases a with
  | none => cases b <;> rfl
  | some a =>
      cases b with
      | none => rfl
      | some b =>
          simp only [compareForSort]
          rw [compare?_swap caseSensitive b a]
          cases compare? caseSensitive b a <;> rfl

/-! ## Kinds -/

/-- The kinds of keys. -/
inductive Kind where
  | bool | number | text | instant | recordId | bytes | codes
deriving DecidableEq, Repr

/-- The kind of a key. -/
def kind : Key → Kind
  | .bool _ => .bool
  | .number _ => .number
  | .text _ => .text
  | .instant _ => .instant
  | .recordId _ => .recordId
  | .bytes _ => .bytes
  | .codes _ => .codes

/-- Keys compare when they are of one kind. -/
theorem compare?_eq_none_iff (caseSensitive : Bool) :
    compare? caseSensitive a b = none ↔ a.kind ≠ b.kind := by
  cases a <;> cases b <;> simp [compare?, kind]

/-- The keys that fit one type are of one kind. -/
theorem kind_eq_of_fits (ha : a.fits t = true) (hb : b.fits t = true) : a.kind = b.kind := by
  cases t <;> cases a <;> cases ha <;> cases b <;> cases hb <;> rfl

theorem exists_kind_of_fits (t : AttributeType) :
    ∃ kind : Kind, ∀ k : Key, k.fits t = true → k.kind = kind := by
  by_cases hnone : ∃ k : Key, k.fits t = true
  · obtain ⟨k, hk⟩ := hnone
    exact ⟨k.kind, fun k' hk' => kind_eq_of_fits hk' hk⟩
  · exact ⟨.bool, fun k hk => absurd ⟨k, hk⟩ hnone⟩

/-- The key is absent or of a kind. -/
def OfKind (kind : Kind) (k : Option Key) : Prop := ∀ key, k = some key → key.kind = kind

/-- A key of one kind stands between two keys of another kind. -/
def Separates (b a c : Option Key) : Prop :=
  ∃ x y z, a = some x ∧ b = some y ∧ c = some z ∧ x.kind = z.kind ∧ y.kind ≠ x.kind

/-- **Only a key of another kind breaks the order of two keys.** -/
theorem compareForSort_trans {a b c : Option Key} (h : ¬ Separates b a c)
    (hab : (compareForSort caseSensitive a b).isLE = true)
    (hbc : (compareForSort caseSensitive b c).isLE = true) :
    (compareForSort caseSensitive a c).isLE = true := by
  match a, b, c with
  | none, _, none => rfl
  | none, _, some _ => rfl
  | some _, none, _ => cases hab
  | some _, some _, none => cases hbc
  | some x, some y, some z =>
      by_cases hends : x.kind = z.kind
      · have hmiddle : y.kind = x.kind := by
          by_contra hne
          exact h ⟨x, y, z, rfl, rfl, rfl, hends, hne⟩
        obtain ⟨o, ho⟩ := Option.ne_none_iff_exists'.mp
          fun hnone => (compare?_eq_none_iff caseSensitive).mp hnone hmiddle.symm
        obtain ⟨o', ho'⟩ := Option.ne_none_iff_exists'.mp
          fun hnone => (compare?_eq_none_iff caseSensitive).mp hnone (hmiddle.trans hends)
        simp only [compareForSort, ho, ho', Option.getD_some] at hab hbc
        obtain ⟨o'', ho'', hle⟩ := isLE_trans_of_compare? ho hab ho' hbc
        simpa only [compareForSort, ho'', Option.getD_some] using hle
      · rw [compareForSort, (compare?_eq_none_iff caseSensitive).mpr hends]
        rfl

/-- A key of another kind than two keys is not told apart from either. -/
theorem Separates.compareForSort_eq {a b c : Option Key} (h : Separates b a c)
    (caseSensitive : Bool) :
    compareForSort caseSensitive a b = .eq ∧ compareForSort caseSensitive b c = .eq := by
  obtain ⟨x, y, z, rfl, rfl, rfl, hends, hne⟩ := h
  have hfirst := (compare?_eq_none_iff caseSensitive).mpr hne.symm
  have hlast := (compare?_eq_none_iff caseSensitive).mpr fun h => hne (h.trans hends.symm)
  simp only [compareForSort, hfirst, hlast, Option.getD_none, and_self]

/-- Keys of one kind are in order, with absent ones before them. -/
theorem ordersOn_ofKind (caseSensitive : Bool) (kind : Kind) :
    OrdersOn (OfKind kind) (compareForSort caseSensitive) where
  eq_swap := compareForSort_swap caseSensitive _ _
  isLE_trans {a b c} hab hbc := by
    refine compareForSort_trans ?_ hab hbc
    rintro ⟨x, y, z, ha, hb, -, -, hne⟩
    exact hne ((b.2 y hb).trans (a.2 x ha).symm)

/-- The key is absent or fits a type. -/
def FitsIfAny (t : AttributeType) (k : Option Key) : Prop := ∀ key, k = some key → key.fits t = true

/-! ## What comes before what -/

/-- One key comes strictly before another when keys are sorted.  Texts are compared in lower case
unless case counts. -/
inductive Before (caseSensitive : Bool) : Option Key → Option Key → Prop where
  | absent (k : Key) : Before caseSensitive none (some k)
  | bool : Before caseSensitive (some (.bool false)) (some (.bool true))
  | number {d e : Decimal} (h : d.value < e.value) :
      Before caseSensitive (some (.number d)) (some (.number e))
  | text {s t : String}
      (h : (if caseSensitive then s else Text.lowercase s) <
        if caseSensitive then t else Text.lowercase t) :
      Before caseSensitive (some (.text s)) (some (.text t))
  | instant {i j : Instant} (h : i < j) :
      Before caseSensitive (some (.instant i)) (some (.instant j))
  | recordId {i j : RecordId} (h : i.bits < j.bits) :
      Before caseSensitive (some (.recordId i)) (some (.recordId j))
  | bytes {bs cs : List UInt8} (h : bs < cs) :
      Before caseSensitive (some (.bytes bs)) (some (.bytes cs))
  | codes {cs ds : List Int32} (h : cs < ds) :
      Before caseSensitive (some (.codes cs)) (some (.codes ds))

/-- Lists compare by the first difference. -/
theorem compare_list_eq_lt_iff {α : Type} [Ord α] [LT α] [Std.LawfulEqOrd α]
    (hlt : ∀ x y : α, compare x y = .lt ↔ x < y) {xs ys : List α} :
    compare xs ys = .lt ↔ xs < ys := by
  rw [List.compare_eq_compareLex]
  induction xs generalizing ys with
  | nil => cases ys <;> simp [List.compareLex]
  | cons x xs ih =>
      cases ys with
      | nil => simp [List.compareLex]
      | cons y ys =>
          rw [List.compareLex_cons_cons, Ordering.then_eq_lt, ih, hlt, List.cons_lt_cons_iff,
            Std.LawfulEqOrd.compare_eq_iff_eq]

/-- Keys of one kind compare as what they hold. -/
theorem compare?_eq_lt_iff :
    compare? caseSensitive a b = some .lt ↔ Before caseSensitive (some a) (some b) := by
  constructor
  · intro h
    cases a <;> cases b <;> simp only [compare?, Option.some.injEq, reduceCtorEq] at h
    case bool.bool p q =>
      cases p <;> cases q <;> first | exact .bool | cases h
    case number.number d e =>
      rw [Decimal.compare_eq, compare_lt_iff_lt] at h
      exact .number h
    case text.text s t => exact .text (compareOfLessAndEq_eq_lt.mp h)
    case instant.instant i j =>
      have hrank : i.rank < j.rank := compare_lt_iff_lt.mp h
      exact .instant hrank
    case recordId.recordId i j => exact .recordId (compareOfLessAndEq_eq_lt.mp h)
    case bytes.bytes bs cs =>
      exact .bytes ((compare_list_eq_lt_iff fun _ _ => compareOfLessAndEq_eq_lt).mp h)
    case codes.codes cs ds =>
      exact .codes ((compare_list_eq_lt_iff fun _ _ => compareOfLessAndEq_eq_lt).mp h)
  · intro h
    cases h with
    | bool => rfl
    | number h =>
        rw [compare?, Decimal.compare_eq, compare_lt_iff_lt.mpr h]
    | text h => exact congrArg some (compareOfLessAndEq_eq_lt.mpr h)
    | @instant i j h =>
        have hrank : compare i.rank j.rank = .lt := compare_lt_iff_lt.mpr h
        exact congrArg some hrank
    | recordId h => exact congrArg some (compareOfLessAndEq_eq_lt.mpr h)
    | bytes h =>
        exact congrArg some ((compare_list_eq_lt_iff fun _ _ => compareOfLessAndEq_eq_lt).mpr h)
    | codes h =>
        exact congrArg some ((compare_list_eq_lt_iff fun _ _ => compareOfLessAndEq_eq_lt).mpr h)

/-- Keys compare for sorting as they come before each other. -/
theorem compareForSort_eq_lt_iff {a b : Option Key} :
    compareForSort caseSensitive a b = .lt ↔ Before caseSensitive a b := by
  match a, b with
  | none, none => exact ⟨nofun, nofun⟩
  | none, some k => exact ⟨fun _ => .absent k, fun _ => rfl⟩
  | some _, none => exact ⟨nofun, nofun⟩
  | some a, some b =>
      rw [← compare?_eq_lt_iff, compareForSort]
      cases compare? caseSensitive a b <;> simp

end Key

/-! ## Lists of keys -/

namespace CompiledOrder

/-- The attribute that is ordered by is declared, and the key is absent or fits its type. -/
def Holds (o : CompiledOrder) (k : Option Key) : Prop :=
  ∃ t, o.declared = some t ∧ Key.FitsIfAny t k

/-- The keys that an order by a declared attribute may find are of one kind. -/
theorem exists_kind (o : CompiledOrder) :
    ∃ kind : Key.Kind, ∀ k, o.Holds k → Key.OfKind kind k := by
  cases hdeclared : o.declared with
  | none =>
      refine ⟨.bool, fun k hk => ?_⟩
      obtain ⟨t, ht, -⟩ := hk
      rw [hdeclared] at ht
      cases ht
  | some t =>
      obtain ⟨kind, hkind⟩ := Key.exists_kind_of_fits t
      refine ⟨kind, fun k hk key hkey => ?_⟩
      obtain ⟨t', ht', hfits⟩ := hk
      rw [hdeclared] at ht'
      cases ht'
      exact hkind key (hfits key hkey)

theorem ordersOn_compareKeys (o : CompiledOrder) (caseSensitive : Bool) (kind : Key.Kind) :
    OrdersOn (Key.OfKind kind) (o.compareKeys caseSensitive) := by
  have hsort := Key.ordersOn_ofKind caseSensitive kind
  cases hdirection : o.direction with
  | ascending => exact hsort.congr fun a b _ _ => by simp [compareKeys, hdirection]
  | descending => exact hsort.reverse.congr fun a b _ _ => by simp [compareKeys, hdirection]

/-- Each of the keys found for orders is absent or of the kind that is set for its order. -/
abbrev OfKinds (kind : CompiledOrder → Key.Kind) : List CompiledOrder → List (Option Key) → Prop :=
  List.Forall₂ fun o k => Key.OfKind (kind o) k

/-- Keys of one kind for each order are in order, the first difference deciding. -/
theorem ordersOn_compareAll (caseSensitive : Bool) (kind : CompiledOrder → Key.Kind) :
    ∀ os : List CompiledOrder, OrdersOn (OfKinds kind os) (compareAll caseSensitive os)
  | [] => by
      have hequal : OrdersOn (OfKinds kind []) fun _ _ => .eq :=
        { eq_swap := rfl, isLE_trans _ _ := rfl }
      exact hequal.congr fun a b ha hb => by simp [compareAll]
  | o :: os => by
      have hhead : OrdersOn (OfKinds kind (o :: os)) fun ks ls =>
          o.compareKeys caseSensitive (ks.headD none) (ls.headD none) :=
        (ordersOn_compareKeys o caseSensitive (kind o)).comap (List.headD · none) fun ks hks => by
          cases hks with
          | cons hk _ => exact hk
      have htail : OrdersOn (OfKinds kind (o :: os)) fun ks ls =>
          compareAll caseSensitive os ks.tail ls.tail :=
        (ordersOn_compareAll caseSensitive kind os).comap List.tail fun ks hks => by
          cases hks with
          | cons _ hrest => exact hrest
      refine (hhead.lex htail).congr fun ks ls hks hls => ?_
      cases hks
      cases hls
      rfl

end CompiledOrder

end RecordQuery

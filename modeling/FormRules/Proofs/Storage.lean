import FormRules.Json.Schema
import FormRules.Proofs.Documents

/-!
# Stored data reads back

Data is stored as the text of a document (`Codec.encode`) and read from it (`Codec.decode?`). There
are two steps to undo. The document of the data is read as the data (`Codec.IsLossless.back`), and
the text of the document is parsed as the document, since no part of it stands for nothing
(`Codec.IsLossless.kept`).

The main result is `Codec.reads_back`. It holds for every kind of data that is stored, whatever the
texts in it are. Its doubles must be finite and read back from their own texts. Those that were read
from a text are finite already (`Codec.IsLossless.isFinite_of_decode?`).
-/

namespace FormRules

open Json

/-! ## Records and lists -/

section

variable {α : Type} {write : α → Json} {read : Json → Option α}

/-- A list is read back if its elements are. -/
theorem list?_map {as : List α} (h : ∀ a ∈ as, read (write a) = some a) :
    list? read (.array (as.map write)) = some as := by
  rw [list?]
  induction as with
  | nil => rfl
  | cons a as ih =>
    obtain ⟨ha, has⟩ := List.forall_mem_cons.1 h
    simp [ha, ih has]

/-- What is read as a list was read element by element. -/
theorem exists_of_mem_list? {j : Json} {as : List α} (h : list? read j = some as) :
    ∀ a ∈ as, ∃ xs, j = .array xs ∧ ∃ x ∈ xs, read x = some a := by
  unfold list? at h
  split at h
  case h_2 => cases h
  next xs =>
  suffices hmem : ∀ a ∈ as, ∃ x ∈ xs, read x = some a from fun a ha => ⟨xs, rfl, hmem a ha⟩
  induction xs generalizing as with
  | nil =>
    obtain rfl : [] = as := Option.some.inj h
    simp
  | cons x xs ih =>
    rw [List.mapM_cons] at h
    obtain ⟨b, hb, h⟩ := Option.bind_eq_some_iff.1 h
    obtain ⟨bs, hbs, h⟩ := Option.bind_eq_some_iff.1 h
    obtain rfl : b :: bs = as := Option.some.inj h
    refine List.forall_mem_cons.2 ⟨⟨x, List.mem_cons_self, hb⟩, fun a ha => ?_⟩
    obtain ⟨y, hy, hread⟩ := ih hbs a ha
    exact ⟨y, List.mem_cons_of_mem _ hy, hread⟩

/-- A list is kept if its elements are. -/
theorem isKept_array {as : List α} (h : ∀ a ∈ as, (write a).IsKept) :
    IsKept (.array (as.map write)) :=
  .array (List.forall_mem_map.2 h)

end

/-- A record of two fields is read back by their names. -/
theorem Json.pair?_pair {a b : String} (h : a ≠ b) (x y : Json) :
    pair? a b (pair a b x y) = some (x, y) := by
  simp [pair, pair?, member?, h, h.symm]

theorem Json.isKept_pair (a b : String) {x y : Json} (hx : x.IsKept) (hy : y.IsKept) :
    (pair a b x y).IsKept :=
  .object (by simp) (by simp [hx, hy])

/-! ## Field identifiers and configuration -/

/-- Selectors read back. -/
theorem Selector.ofJson?_toJson (s : Selector) : ofJson? s.toJson = some s := by
  have hvalues : list? text? (.array (s.values.map Json.text)) = some s.values :=
    list?_map fun _ _ => rfl
  simp [ofJson?, toJson, pair?_pair, hvalues, Json.text, text?]

theorem Selector.isKept_toJson (s : Selector) : s.toJson.IsKept :=
  isKept_pair _ _ (.string s.name) (isKept_array fun t _ => .string t)

/-- Field identifiers read back, the blank one as itself. -/
theorem Spec.ofJson?_toJson (s : Spec) : ofJson? s.toJson = some s := by
  cases s with
  | all => rfl
  | fields ss =>
    have hfields : list? Selector.ofJson? (.array (ss.map Selector.toJson)) = some ss :=
      list?_map fun s _ => s.ofJson?_toJson
    simp [ofJson?, toJson, hfields]

theorem Spec.isKept_toJson (s : Spec) : s.toJson.IsKept := by
  cases s with
  | all => exact .string "All"
  | fields ss =>
    exact .object (by simp) (by simpa using isKept_array fun s _ => s.isKept_toJson)

/-- Affix rules read back. -/
theorem AffixRule.ofJson?_toJson (r : AffixRule) : ofJson? r.toJson = some r := by
  simp [ofJson?, toJson, pair?_pair, Json.text, text?]

theorem AffixRule.isKept_toJson (r : AffixRule) : r.toJson.IsKept :=
  isKept_pair _ _ (.string r.affix) (.string r.negative)

/-- Lists of affix rules read back. -/
theorem AffixRules.ofJson?_toJson (r : AffixRules) : ofJson? r.toJson = some r := by
  have hrules (rs : List AffixRule) :
      list? AffixRule.ofJson? (.array (rs.map AffixRule.toJson)) = some rs :=
    list?_map fun r _ => r.ofJson?_toJson
  simp [ofJson?, toJson, pair?_pair, hrules]

theorem AffixRules.isKept_toJson (r : AffixRules) : r.toJson.IsKept :=
  isKept_pair _ _ (isKept_array fun r _ => r.isKept_toJson)
    (isKept_array fun r _ => r.isKept_toJson)

/-- Class names read back. -/
theorem ClassNames.ofJson?_toJson (c : ClassNames) : ofJson? c.toJson = some c := by
  simp [ofJson?, toJson, pair?_pair, Json.text, text?]

theorem ClassNames.isKept_toJson (c : ClassNames) : c.toJson.IsKept :=
  isKept_pair _ _ (.string c.requiredIndicator) (.string c.collapseShow)

/-! ## Values -/

namespace Value

/-- The doubles in a value. -/
def doubles : Value → List Float
  | float x => [x]
  | _ => []

/-- Finite values read back: of the kinds that are tried in turn, none before the right one fits. -/
theorem ofJson?_toJson {v : Value} (hv : ∀ x ∈ v.doubles, x.isFinite = true) :
    ofJson? v.toJson = some v := by
  cases v with
  | int n =>
    have hrange := And.intro (Int64.minValue_le_toInt n) (Int64.toInt_le n)
    rw [toJson, ofJson?, if_pos hrange, Int64.ofInt_toInt]
  | float x =>
    rw [toJson, if_pos (hv x List.mem_cons_self), ofJson?]
  | bool b => rfl
  | text s => rfl

/-- A value is kept if its doubles are finite and read back from their texts. -/
theorem isKept_toJson {v : Value} (hv : ∀ x ∈ v.doubles, x.isFinite = true ∧ ReadsBack x) :
    v.toJson.IsKept := by
  cases v with
  | int n => exact .whole (Int64.minValue_le_toInt n) ((Int64.toInt_le n).trans (by decide))
  | float x =>
    obtain ⟨hx, hback⟩ := hv x List.mem_cons_self
    rw [toJson, if_pos hx]
    exact .fraction hx hback
  | bool b => exact .bool b
  | text s => exact .string s

/-- A number that does not fit 64 bits with sign is finite all the same. -/
theorem isFinite_of_ofJson? {j : Json} {v : Value} (hj : j.IsFinite) (h : ofJson? j = some v) :
    ∀ x ∈ v.doubles, x.isFinite = true := by
  unfold ofJson? at h
  split at h
  · split at h <;> obtain rfl := Option.some.inj h
    · simp [doubles]
    · simp [doubles, Double.isFinite_toFloat]
  · obtain rfl := Option.some.inj h
    cases hj with
    | number hfinite => simp [doubles, hfinite]
  · obtain rfl := Option.some.inj h
    simp [doubles]
  · obtain rfl := Option.some.inj h
    simp [doubles]
  · cases h

end Value

/-! ## Codecs -/

/-- A way to keep data as a document: how it is written and read, and the doubles in it. -/
structure Codec (α : Type) where
  write : α → Json
  read? : Json → Option α
  doubles : α → List Float

namespace Codec

variable {α : Type} {c : Codec α} {a : α}

/-- The text of the data. -/
def encode (c : Codec α) (a : α) : String := (c.write a).render

/-- The data in a text. -/
def decode? (c : Codec α) (text : String) : Option α := (parse text).bind c.read?

/-- Values. -/
def value : Codec Value := ⟨Value.toJson, Value.ofJson?, Value.doubles⟩

/-- Lists are arrays. -/
def list (c : Codec α) : Codec (List α) where
  write as := .array (as.map c.write)
  read? := list? c.read?
  doubles as := as.flatMap c.doubles

/-- Data without doubles. -/
def plain (write : α → Json) (read? : Json → Option α) : Codec α := ⟨write, read?, fun _ => []⟩

/-- The kinds of data that are stored. -/
inductive IsStored : {α : Type} → Codec α → Prop
  | value : IsStored value
  | values : IsStored value.list
  | selector : IsStored (plain Selector.toJson Selector.ofJson?)
  | spec : IsStored (plain Spec.toJson Spec.ofJson?)
  | affixRule : IsStored (plain AffixRule.toJson AffixRule.ofJson?)
  | affixRules : IsStored (plain AffixRules.toJson AffixRules.ofJson?)
  | classNames : IsStored (plain ClassNames.toJson ClassNames.ofJson?)

/-- What is written is kept and reads back, and what is read has no infinities if the document has
none. -/
structure IsLossless (c : Codec α) : Prop where
  back : ∀ a, (∀ x ∈ c.doubles a, x.isFinite = true) → c.read? (c.write a) = some a
  kept : ∀ a, (∀ x ∈ c.doubles a, x.isFinite = true ∧ ReadsBack x) → (c.write a).IsKept
  finite : ∀ j a, j.IsFinite → c.read? j = some a → ∀ x ∈ c.doubles a, x.isFinite = true

/-- Values are stored without loss. -/
theorem isLossless_value : value.IsLossless where
  back _ := Value.ofJson?_toJson
  kept _ := Value.isKept_toJson
  finite _ _ := Value.isFinite_of_ofJson?

/-- So are lists of what is stored without loss. -/
theorem IsLossless.list (hc : c.IsLossless) : c.list.IsLossless where
  back as has := list?_map fun a ha => hc.back a fun x hx => has x (List.mem_flatMap.2 ⟨a, ha, hx⟩)
  kept as has :=
    isKept_array fun a ha => hc.kept a fun x hx => has x (List.mem_flatMap.2 ⟨a, ha, hx⟩)
  finite j as hj h x hx := by
    obtain ⟨a, ha, hx⟩ := List.mem_flatMap.1 hx
    obtain ⟨ys, rfl, y, hy, hread⟩ := exists_of_mem_list? h a ha
    cases hj with
    | array hfinite => exact hc.finite y a (hfinite y hy) hread x hx

/-- So is plain data that reads back from its document. -/
theorem isLossless_plain {write : α → Json} {read? : Json → Option α}
    (hback : ∀ a, read? (write a) = some a) (hkept : ∀ a, (write a).IsKept) :
    (plain write read?).IsLossless where
  back a _ := hback a
  kept a _ := hkept a
  finite _ _ _ _ _ hx := absurd hx List.not_mem_nil

/-- Every kind of data that is stored is stored without loss. -/
theorem IsStored.isLossless (hc : c.IsStored) : c.IsLossless := by
  cases hc with
  | value => exact isLossless_value
  | values => exact isLossless_value.list
  | selector => exact isLossless_plain Selector.ofJson?_toJson Selector.isKept_toJson
  | spec => exact isLossless_plain Spec.ofJson?_toJson Spec.isKept_toJson
  | affixRule => exact isLossless_plain AffixRule.ofJson?_toJson AffixRule.isKept_toJson
  | affixRules => exact isLossless_plain AffixRules.ofJson?_toJson AffixRules.isKept_toJson
  | classNames => exact isLossless_plain ClassNames.ofJson?_toJson ClassNames.isKept_toJson

/-- What is stored without loss is read from its text. -/
theorem IsLossless.decode?_encode (hc : c.IsLossless)
    (ha : ∀ x ∈ c.doubles a, x.isFinite = true ∧ ReadsBack x) :
    c.decode? (c.encode a) = some a := by
  rw [decode?, encode, (hc.kept a ha).parse_printed, Option.bind_some]
  exact hc.back a fun x hx => (ha x hx).1

/-- Doubles that were read are finite. -/
theorem IsLossless.isFinite_of_decode? (hc : c.IsLossless) {text : String}
    (h : c.decode? text = some a) : ∀ x ∈ c.doubles a, x.isFinite = true := by
  obtain ⟨j, hparse, hread⟩ := Option.bind_eq_some_iff.1 h
  exact hc.finite j a (isFinite_of_parse hparse) hread

/-- A double that is not finite is stored as null. -/
theorem encode_float {x : Float} (hx : x.isFinite = false) : value.encode (.float x) = "null" := by
  have hwrite : value.write (.float x) = .null := by
    show Value.toJson (.float x) = .null
    rw [Value.toJson, hx]
    rfl
  rw [encode, hwrite]
  rfl

/-- Null is read as no value. -/
theorem decode?_null : value.decode? "null" = none := by
  have hparse : parse "null" = some .null := IsKept.null.parse_printed
  rw [decode?, hparse]
  rfl

/-- Stored data reads back, whatever its texts, and so does what was read from any text. An infinity
or not-a-number is stored as null, which is no value. -/
theorem reads_back (hc : c.IsStored) :
    (∀ a, (∀ x ∈ c.doubles a, x.isFinite = true ∧ ReadsBack x) →
      c.decode? (c.encode a) = some a) ∧
    (∀ text a, c.decode? text = some a → (∀ x ∈ c.doubles a, ReadsBack x) →
      c.decode? (c.encode a) = some a) ∧
    (∀ x, x.isFinite = false → value.encode (.float x) = "null") ∧ value.decode? "null" = none := by
  refine ⟨fun a ha => hc.isLossless.decode?_encode ha, fun text a h ha => ?_,
    fun x hx => encode_float hx, decode?_null⟩
  have hfinite := hc.isLossless.isFinite_of_decode? h
  exact hc.isLossless.decode?_encode fun x hx => ⟨hfinite x hx, ha x hx⟩

/-- A list of all kinds of values, and numbers at the limit of the whole ones. -/
theorem reads_back_mixed :
    value.list.decode? "[3,3.0,true,\"3\"]" =
        some [.int 3, .float 3, .bool true, .text "3"] ∧
      value.decode? "9223372036854775808" = some (.float 9223372036854775808) ∧
      value.decode? "9.223372036854776e+18" = some (.float 9223372036854775808) ∧
      value.encode (.float (0 / 0)) = "null" := by
  obtain ⟨hback, -, hnull, -⟩ := reads_back .values
  obtain ⟨-, hagain, -⟩ := reads_back .value
  have hthree : (3 : Float).isFinite = true ∧ ReadsBack 3 :=
    ⟨by decide +kernel, (readsBack_iff (by decide +kernel)).2 (by decide +kernel)⟩
  have hlarge : ReadsBack 9223372036854775808 :=
    (readsBack_iff (by decide +kernel)).2 (by decide +kernel)
  have hlist : value.list.encode [.int 3, .float 3, .bool true, .text "3"] =
      "[3,3.0,true,\"3\"]" := by
    decide +kernel
  have hfloat : value.encode (.float 9223372036854775808) = "9.223372036854776e+18" := by
    decide +kernel
  have hwhole : value.decode? "9223372036854775808" = some (.float 9223372036854775808) := by
    have hrender :
        render (.number (some (.whole 9223372036854775808))) = "9223372036854775808" := by
      decide +kernel
    have hround : (UInt64.ofNat 9223372036854775808).toFloat = 9223372036854775808 := by
      decide +kernel
    have hkept := @IsKept.whole 9223372036854775808 (by decide) (by decide)
    rw [decode?, ← hrender, hkept.parse_printed, ← hround]
    rfl
  rw [← hlist, ← hfloat]
  exact ⟨hback _ (by simpa [list, value, Value.doubles] using hthree), hwhole,
    hagain _ _ hwhole (by simpa [value, Value.doubles] using hlarge), hnull _ (by decide +kernel)⟩

end Codec

end FormRules

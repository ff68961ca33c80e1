import FormRules.Proofs.Grammar

/-!
# Writing identifiers back

An identifier is data before it is text: any name and any values can be put into a selector. Written
as text, a name with a colon turns into a name and a value, a blank at the end of a value is lost, and
a list without selectors looks like the identifier of every field. `Spec.IsWritable` says which
identifiers are free of this. They are those whose text is read back as the same identifier, and
everything that the reader gives is one of them (`Spec.parse_render`).

Of a writable selector the text is a piece that spells it (`Selector.spells_chars`), and what a piece
spells is writable (`Selector.isWritable_of_spells`). Pieces have no commas of their own, so lists of
selectors follow from cutting what was joined.
-/

namespace FormRules

open Text

/-! ## Joining and cutting -/

namespace Text

/-- Pieces without the separator are found again between the separators that join them. -/
theorem splitOn_intercalate {sep : Char} {pieces : List (List Char)} (hne : pieces ≠ [])
    (h : ∀ piece ∈ pieces, sep ∉ piece) : splitOn sep (List.intercalate [sep] pieces) = pieces := by
  induction pieces with
  | nil => exact absurd rfl hne
  | cons piece pieces ih =>
    have hpiece : sep ∉ piece := h piece List.mem_cons_self
    cases pieces with
    | nil => rw [List.intercalate_singleton, splitOn_of_notMem hpiece]
    | cons next pieces =>
      rw [List.intercalate_cons_cons, List.append_assoc, List.singleton_append,
        splitOn_append_cons hpiece, ih (by simp) fun p hp => h p (List.mem_cons_of_mem _ hp)]

/-- A separator in front of each of the pieces is one in front of all, and others between them. -/
theorem flatMap_cons_eq_cons_intercalate {sep : Char} {pieces : List (List Char)}
    (hne : pieces ≠ []) :
    pieces.flatMap (sep :: ·) = sep :: List.intercalate [sep] pieces := by
  induction pieces with
  | nil => exact absurd rfl hne
  | cons piece pieces ih =>
    cases pieces with
    | nil => simp
    | cons next pieces =>
      rw [List.flatMap_cons, ih (by simp), List.intercalate_cons_cons, List.cons_append,
        List.append_assoc, List.singleton_append]

/-- The characters of the pieces are those of the text. -/
theorem subset_of_mem_splitOn {sep : Char} {cs piece : List Char} (h : piece ∈ splitOn sep cs) :
    piece ⊆ cs := by
  induction cs generalizing piece with
  | nil => simp_all [splitOn]
  | cons c cs ih =>
    by_cases hc : c = sep
    · rw [splitOn, if_pos hc] at h
      rcases List.mem_cons.1 h with rfl | h
      · exact List.nil_subset _
      · exact List.subset_cons_of_subset c (ih h)
    · rw [splitOn, if_neg hc] at h
      cases hs : splitOn sep cs with
      | nil => exact absurd hs (splitOn_ne_nil sep cs)
      | cons first pieces =>
        rw [hs] at h
        rcases List.mem_cons.1 h with rfl | h
        · exact List.cons_subset_cons c (ih (hs ▸ List.mem_cons_self))
        · exact List.subset_cons_of_subset c (ih (hs ▸ List.mem_cons_of_mem _ h))

theorem mem_of_mem_trimEnd {c : Char} {cs : List Char} (h : c ∈ trimEnd cs) : c ∈ cs := by
  have hmem : c ∈ cs.reverse.dropWhile isBlank := List.mem_reverse.1 h
  exact List.mem_reverse.1 ((List.dropWhile_suffix isBlank).subset hmem)

/-- What is left of a text does not end with a blank. -/
theorem not_isBlank_of_mem_getLast?_trimEnd (cs : List Char) :
    ∀ c ∈ (trimEnd cs).getLast?, isBlank c = false := by
  rw [trimEnd, List.getLast?_reverse]
  exact not_of_mem_head?_dropWhile isBlank cs.reverse

/-- A text that does not end with a blank has none cut off. -/
theorem trimEnd_of_getLast? {cs : List Char} (h : ∀ c ∈ cs.getLast?, isBlank c = false) :
    trimEnd cs = cs := by
  rw [trimEnd, List.reverse_eq_iff]
  cases hcs : cs.reverse with
  | nil => rfl
  | cons c rest =>
    have hc : isBlank c = false := h c (by rw [← List.head?_reverse, hcs]; rfl)
    rw [List.dropWhile_cons_of_neg (by simp [hc])]

end Text

/-! ## Selectors -/

namespace Selector

/-- A selector whose text does not read as another one. -/
structure IsWritable (s : Selector) : Prop where
  named : s.name ≠ ""
  name : ∀ c ∈ s.name.toList, c ≠ ',' ∧ c ≠ ':' ∧ isBlank c = false
  value : ∀ v ∈ s.values, ∀ c ∈ v.toList, c ≠ ',' ∧ c ≠ ':'
  valueEnd : ∀ v ∈ s.values, ∀ c ∈ v.toList.getLast?, isBlank c = false

theorem IsWritable.group {s : Selector} (h : s.IsWritable) : s.group.IsWritable :=
  ⟨h.named, h.name, by simp [Selector.group], by simp [Selector.group]⟩

/-- The text of a writable selector spells it. -/
theorem spells_chars {s : Selector} (h : s.IsWritable) : Spells s.chars s := by
  have hne : s.name.toList ≠ [] := by simpa using h.named
  have hname : ∀ c ∈ s.name.toList, isNameChar c = true := fun c hc => isNameChar_iff.2 (h.name c hc)
  obtain ⟨name, values⟩ := s
  by_cases hvalues : values = []
  · subst hvalues
    have hspells : Spells ([] ++ (name.toList ++ [])) ⟨String.ofList name.toList, []⟩ :=
      .name (by simp) hne hname (by simp)
    simpa [chars] using hspells
  · have hcolon : ∀ piece ∈ values.map String.toList, ':' ∉ piece := by
      intro piece hpiece hmem
      obtain ⟨v, hv, rfl⟩ := List.mem_map.1 hpiece
      exact (h.value v hv ':' hmem).2 rfl
    have htail : values.flatMap (fun v => ':' :: v.toList) =
        ':' :: List.intercalate [':'] (values.map String.toList) := by
      rw [← flatMap_cons_eq_cons_intercalate (by simpa using hvalues), List.flatMap_map]
    have hread : (splitOn ':' (List.intercalate [':'] (values.map String.toList))).map
        (fun v => String.ofList (trimEnd v)) = values := by
      rw [splitOn_intercalate (by simpa using hvalues) hcolon, List.map_map]
      refine (List.map_congr_left fun v hv => ?_).trans (List.map_id values)
      simp [trimEnd_of_getLast? (h.valueEnd v hv)]
    have hspells : Spells
        ([] ++ (name.toList ++ ':' :: List.intercalate [':'] (values.map String.toList)))
        ⟨String.ofList name.toList, _⟩ := .values (by simp) hne hname _
    rw [hread] at hspells
    simpa [chars, htail] using hspells

/-- The text of a writable selector is one piece. -/
theorem comma_notMem_chars {s : Selector} (h : s.IsWritable) : ',' ∉ s.chars := by
  rw [chars, List.mem_append, List.mem_flatMap]
  rintro (hc | ⟨v, hv, hc⟩)
  · exact (h.name ',' hc).1 rfl
  · rcases List.mem_cons.1 hc with hc | hc
    · exact absurd hc (by decide)
    · exact (h.value v hv ',' hc).1 rfl

/-- What a piece spells is writable. -/
theorem isWritable_of_spells {piece : List Char} {s : Selector} (h : Spells piece s)
    (hcomma : ',' ∉ piece) : s.IsWritable := by
  have hnamed : ∀ {name : List Char}, name ≠ [] → String.ofList name ≠ "" := by
    intro name hne heq
    exact hne (by simpa using congrArg String.toList heq)
  cases h with
  | name hlead hne hname htrail =>
    refine ⟨hnamed hne, fun c hc => ?_, by simp, by simp⟩
    exact isNameChar_iff.1 (hname c (by simpa using hc))
  | values hlead hne hname tail =>
    refine ⟨hnamed hne, fun c hc => ?_, fun v hv c hc => ?_, fun v hv => ?_⟩
    · exact isNameChar_iff.1 (hname c (by simpa using hc))
    · obtain ⟨part, hpart, rfl⟩ := List.mem_map.1 hv
      have hmem : c ∈ part := mem_of_mem_trimEnd (by simpa using hc)
      refine ⟨?_, ?_⟩
      · rintro rfl
        exact hcomma (by simp [subset_of_mem_splitOn hpart hmem])
      · rintro rfl
        exact not_mem_of_mem_splitOn hpart hmem
    · obtain ⟨part, -, rfl⟩ := List.mem_map.1 hv
      simpa using not_isBlank_of_mem_getLast?_trimEnd part

/-- What pieces spell is writable. -/
theorem isWritable_of_forall₂ {pieces : List (List Char)} {ss : List Selector}
    (h : List.Forall₂ Spells pieces ss) (hcomma : ∀ piece ∈ pieces, ',' ∉ piece) :
    ∀ s ∈ ss, s.IsWritable := by
  induction h with
  | nil => simp
  | cons hs _ ih =>
    obtain ⟨hpiece, hpieces⟩ := List.forall_mem_cons.1 hcomma
    exact List.forall_mem_cons.2 ⟨isWritable_of_spells hs hpiece, ih hpieces⟩

end Selector

/-! ## Identifiers -/

namespace Spec

/-- An identifier whose text does not read as another one. -/
def IsWritable : Spec → Prop
  | .all => True
  | .fields ss => ss ≠ [] ∧ ∀ s ∈ ss, s.IsWritable

theorem IsWritable.trigger {s : Spec} (h : s.IsWritable) : s.trigger.IsWritable := by
  cases s with
  | all => trivial
  | fields ss =>
    refine ⟨by simpa using h.1, fun s hs => ?_⟩
    obtain ⟨t, ht, rfl⟩ := List.mem_map.1 hs
    exact (h.2 t ht).group

/-- What the reader gives is writable. -/
theorem isWritable_of_parse {text : String} {s : Spec} (h : parse text = .ok s) :
    s.IsWritable := by
  cases s with
  | all => trivial
  | fields ss =>
    have hspells := parse_eq_fields_iff.1 h
    refine ⟨?_, Selector.isWritable_of_forall₂ hspells fun _ => not_mem_of_mem_splitOn⟩
    rintro rfl
    exact splitOn_ne_nil _ _ (List.forall₂_nil_right_iff.1 hspells)

/-- The text of a writable identifier reads as this identifier. -/
theorem parse_render_of_isWritable {s : Spec} (h : s.IsWritable) : parse s.render = .ok s := by
  cases s with
  | all => rfl
  | fields ss =>
    obtain ⟨hne, hwritable⟩ := h
    have hpieces : splitOn ',' (render (.fields ss)).toList = ss.map Selector.chars := by
      rw [render, String.toList_ofList]
      refine splitOn_intercalate (by simpa using hne) fun piece hpiece => ?_
      obtain ⟨s, hs, rfl⟩ := List.mem_map.1 hpiece
      exact Selector.comma_notMem_chars (hwritable s hs)
    rw [parse_eq_fields_iff, hpieces, List.forall₂_map_left_iff, List.forall₂_same]
    exact fun s hs => Selector.spells_chars (hwritable s hs)

/-- Reading undoes writing. Whatever was read from a text, and what a condition on it listens to, is
read back from its own text. Of all identifiers there are, those are read back that stand for every
field, or have selectors, each with a name that is not empty and without commas, colons and blanks,
and with values that are without commas and colons and do not end with a blank. -/
theorem parse_render : (∀ (text : String) (s : Spec), parse text = .ok s →
      parse s.render = .ok s ∧ parse s.trigger.render = .ok s.trigger) ∧
    ∀ s : Spec, parse s.render = .ok s ↔ s.IsWritable := by
  refine ⟨fun text s h => ?_, fun s => ⟨isWritable_of_parse, parse_render_of_isWritable⟩⟩
  have hs : s.IsWritable := isWritable_of_parse h
  exact ⟨parse_render_of_isWritable hs, parse_render_of_isWritable hs.trigger⟩

/-- A city with a blank in front, and a field of which the empty value is meant. -/
def cities : Spec := .fields [⟨"city", [" New York"]⟩, ⟨"code", [""]⟩]

/-- The blanks behind the first value are lost in reading, and the one in front of it is kept in
reading and writing. A name with a colon reads as a name and a value. -/
theorem parse_render_cities : parse " city: New York  , code:" = .ok cities ∧
    parse cities.render = .ok cities ∧ parse cities.trigger.render = .ok cities.trigger ∧
    ¬ parse (Spec.fields [⟨"a:b", []⟩]).render = .ok (.fields [⟨"a:b", []⟩]) := by
  have hread : parse " city: New York  , code:" = .ok cities := by decide +kernel
  obtain ⟨hcities, htrigger⟩ := parse_render.1 _ _ hread
  refine ⟨hread, hcities, htrigger, fun h => ?_⟩
  have hwritable := ((parse_render.2 _).1 h).2 ⟨"a:b", []⟩ List.mem_cons_self
  exact (hwritable.name ':' (by decide)).2.1 rfl

end Spec

end FormRules

import FormRules.Proofs.Conditions
import FormRules.Proofs.Grammar

/-!
# Conditions on extensions

A condition on the extension of a value lists extensions between commas, and case does not matter in
it. The whole list is put into lower case before it is cut. This could differ from putting each piece
into lower case, since what a capital sigma becomes depends on the letters around it, and these could
be those of the next piece. But the search for such letters ends at a comma, which is no letter and
can not be passed over, so each piece is treated as if it were alone (`Text.splitOn_lower`). The
condition on a field is then a statement about the pieces (`Host.check_extension`).
-/

namespace FormRules

/-! ## Lower case between separators -/

namespace Text

/-- Letters on one side of the character do not count for those on the other. -/
structure IsBreak (c : Char) : Prop where
  uncased : isCased c = false
  notIgnorable : isCaseIgnorable c = false

variable {sep c : Char} {cs : List Char}

theorem isBreak_comma : IsBreak ',' := ⟨by decide +kernel, by decide +kernel⟩

/-- The search for a letter ends at a break. -/
theorem meetsCased_break (h : IsBreak sep) (cs ds : List Char) :
    meetsCased (cs ++ sep :: ds) = meetsCased cs := by
  have hstop : (sep :: ds).dropWhile isCaseIgnorable = sep :: ds :=
    List.dropWhile_cons_of_neg (by simp [h.notIgnorable])
  unfold meetsCased
  rw [List.dropWhile_append]
  cases cs.dropWhile isCaseIgnorable with
  | nil => simp [hstop, h.uncased]
  | cons c cs => simp

/-- What is in front of a break does not matter behind it. -/
theorem lowerAfter_break (h : IsBreak sep) (before far cs : List Char) :
    lowerAfter (before ++ sep :: far) cs = lowerAfter before cs := by
  induction cs generalizing before with
  | nil => rfl
  | cons c cs ih => rw [lowerAfter, lowerAfter, meetsCased_break h, ← List.cons_append, ih]

/-- A break cuts a text into parts that are put into lower case on their own. -/
theorem lower_append_break (h : IsBreak sep) (hsep : lowerChar sep = [sep]) (cs ds : List Char) :
    lower (cs ++ sep :: ds) = lower cs ++ sep :: lower ds := by
  have hsigma : sep ≠ 'Σ' := by
    rintro rfl
    exact absurd h.uncased (by decide +kernel)
  suffices hafter : ∀ before,
      lowerAfter before (cs ++ sep :: ds) = lowerAfter before cs ++ sep :: lower ds from hafter []
  induction cs with
  | nil =>
    intro before
    have hbehind := lowerAfter_break h [] before ds
    rw [List.nil_append] at hbehind
    simp only [List.nil_append] at hbehind ⊢
    rw [lowerAfter, lowerAfter, if_neg hsigma, hsep, hbehind]
    rfl
  | cons c cs ih =>
    intro before
    rw [List.cons_append, lowerAfter, lowerAfter, meetsCased_break h, ih, List.append_assoc]

theorem shifted?_lowerRuns_gt {n m : Nat} (h : shifted? lowerRuns n = some m) : ','.toNat < m := by
  have hruns : ∀ run ∈ lowerRuns, (','.toNat : Int) < run.first + run.shift := by decide +kernel
  obtain ⟨run, hrun, rfl⟩ := Option.map_eq_some_iff.1 h
  have hfirst : run.first ≤ n := by
    have hcovers := List.find?_some hrun
    simp only [CaseRun.covers, Bool.and_eq_true, decide_eq_true_eq] at hcovers
    exact hcovers.1.1
  have := hruns run (List.mem_of_find?_eq_some hrun)
  omega

/-- Nothing becomes a comma. -/
theorem comma_notMem_lowerChar (hc : c ≠ ',') : ',' ∉ lowerChar c := by
  have hascii : ∀ n < 0x80, n ≠ ','.toNat → (Char.ofNat n).toLower ≠ ',' := by decide +kernel
  unfold lowerChar
  split
  · next hlt =>
    have hne : c.toNat ≠ ','.toNat := fun h => hc (Char.toNat_inj.1 h)
    have := hascii c.toNat hlt hne
    rw [Char.ofNat_toNat] at this
    simpa using this.symm
  split
  · decide
  split
  · next n hn =>
    have hgt := shifted?_lowerRuns_gt hn
    have hval : (Char.ofNat n).toNat = n ∨ (Char.ofNat n).toNat = 0 := by
      unfold Char.ofNat
      by_cases hvalid : n.isValidChar
      · rw [dif_pos hvalid]
        exact .inl rfl
      · rw [dif_neg hvalid]
        exact .inr rfl
    have hcomma : ','.toNat = 44 := rfl
    rw [List.mem_singleton]
    intro heq
    rw [← heq] at hval
    omega
  · simpa using hc.symm

theorem lowerChar_ne_nil (c : Char) : lowerChar c ≠ [] := by
  unfold lowerChar
  repeat' split
  all_goals simp

theorem comma_notMem_lower (h : ',' ∉ cs) : ',' ∉ lower cs := by
  suffices hafter : ∀ before, ',' ∉ lowerAfter before cs from hafter []
  induction cs with
  | nil => simp [lowerAfter]
  | cons c cs ih =>
    intro before
    obtain ⟨hc, hcs⟩ : ',' ≠ c ∧ ',' ∉ cs := by simpa using h
    rw [lowerAfter, List.mem_append, not_or]
    refine ⟨?_, ih hcs _⟩
    split
    · split <;> decide
    · exact comma_notMem_lowerChar hc.symm

theorem lower_eq_nil_iff : lower cs = [] ↔ cs = [] := by
  cases cs with
  | nil => simp [lower, lowerAfter]
  | cons c cs =>
    have hne : lower (c :: cs) ≠ [] := by
      rw [lower, lowerAfter]
      refine List.append_ne_nil_of_left_ne_nil ?_ _
      split
      · simp
      · exact lowerChar_ne_nil c
    simp [hne]

/-- A list is put into lower case piece by piece. -/
theorem splitOn_lower (cs : List Char) :
    splitOn ',' (lower cs) = (splitOn ',' cs).map lower := by
  obtain ⟨n, hn⟩ : ∃ n, cs.length ≤ n := ⟨_, Nat.le_refl _⟩
  induction n generalizing cs with
  | zero =>
    obtain rfl : cs = [] := List.length_eq_zero_iff.1 (Nat.le_zero.1 hn)
    rfl
  | succ n ih =>
    rcases splitOn_cases ',' cs with ⟨hnot, hpieces⟩ | ⟨piece, rest, hpiece, rfl, hpieces⟩
    · rw [hpieces, splitOn_of_notMem (comma_notMem_lower hnot)]
      rfl
    · have hshort : rest.length ≤ n := by simp at hn; omega
      rw [hpieces, lower_append_break isBreak_comma (lowerChar_of_ascii (by decide)),
        splitOn_append_cons (comma_notMem_lower hpiece), ih rest hshort]
      rfl

end Text

/-! ## Extensions -/

namespace Evaluation

/-- The extension is what stands behind the last dot. -/
theorem extension_append {s : String} {stem e : List Char} (hs : s.toList = stem ++ '.' :: e)
    (he : '.' ∉ e) : extension (some (.text s)) = Text.lower e := by
  have hrest : ∀ c ∈ e.reverse, (c != '.') = true := by
    intro c hc
    simpa using fun h : c = '.' => he (by simpa [h] using hc)
  have hcut : (e.reverse ++ '.' :: stem.reverse).takeWhile (· != '.') = e.reverse :=
    (Text.takeWhile_dropWhile_append hrest (by simp)).1
  have hreverse : s.toList.reverse = e.reverse ++ '.' :: stem.reverse := by simp [hs]
  have hdot : '.' ∈ s.toList := by simp [hs]
  simp only [extension, if_pos hdot, hreverse, hcut, List.reverse_reverse]

/-- A text with an extension, by the place of its last dot. -/
theorem extension_ne_nil_iff {s : String} {d : List Char} :
    extension (some (.text s)) = d ∧ d ≠ [] ↔
      ∃ stem e, s.toList = stem ++ '.' :: e ∧ '.' ∉ e ∧ e ≠ [] ∧ Text.lower e = d := by
  constructor
  · rintro ⟨rfl, hne⟩
    have hdot : '.' ∈ s.toList := by
      by_contra hdot
      exact hne (by simp [extension, hdot])
    obtain ⟨stem, e, hs, he⟩ : ∃ stem e, s.toList = stem ++ '.' :: e ∧ '.' ∉ e := by
      obtain ⟨as, bs, hrev, has⟩ := List.eq_append_cons_of_mem (List.mem_reverse.2 hdot)
      refine ⟨bs.reverse, as.reverse, ?_, by simpa using has⟩
      simpa using congrArg List.reverse hrev
    rw [extension_append hs he] at hne ⊢
    exact ⟨stem, e, hs, he, fun h => hne (Text.lower_eq_nil_iff.2 h), rfl⟩
  · rintro ⟨stem, e, hs, he, hne, rfl⟩
    exact ⟨extension_append hs he, fun h => hne (Text.lower_eq_nil_iff.1 h)⟩

/-- The list contains the extension but for case. -/
theorem hasListedExtension_iff {c : Value} {start l s : String} (hc : c.asText = start ++ l) :
    hasListedExtension start c (some (.text s)) = true ↔
      ∃ stem e, s.toList = stem ++ '.' :: e ∧ '.' ∉ e ∧ e ≠ [] ∧
        ∃ p ∈ Text.splitOn ',' l.toList, Text.lower p = Text.lower e := by
  have hlisted : hasListedExtension start c (some (.text s)) = true ↔ ∃ d,
      (extension (some (.text s)) = d ∧ d ≠ []) ∧
        ∃ p ∈ Text.splitOn ',' l.toList, Text.lower p = d := by
    simp [hasListedExtension, argument_append hc, Text.splitOn_lower]
  rw [hlisted]
  simp only [extension_ne_nil_iff]
  constructor
  · rintro ⟨d, ⟨stem, e, hs, he, hne, rfl⟩, hp⟩
    exact ⟨stem, e, hs, he, hne, hp⟩
  · rintro ⟨stem, e, hs, he, hne, hp⟩
    exact ⟨_, ⟨stem, e, hs, he, hne, rfl⟩, hp⟩

end Evaluation

namespace Host

variable {host : Host}

/-- A condition on the extension holds of a field with a text whose extension is listed, but for
case, and not of a field that reads as zero. -/
theorem check_extension (host : Host) (hbuiltin : host.evaluations = Config.builtin.evaluations)
    (l : String) (hl : l ≠ "") (hline : '\n' ∉ l.toList) (flags : Flags) (spec : Spec) :
    (∀ k v, (host.resolve spec false).value = [k] → host.form.value? k = some (.text v) →
      ((host.check flags spec (.text ("file-extension:" ++ l))).value = true ↔
        ∃ stem e, v.toList = stem ++ '.' :: e ∧ '.' ∉ e ∧ e ≠ [] ∧
          ∃ p ∈ Text.splitOn ',' l.toList, Text.lower p = Text.lower e)) ∧
    (∀ k ∈ (host.resolve spec false).value, host.form.value? k = some (.int 0) →
      (host.check flags spec (.text ("file-extension:" ++ l))).value = false) := by
  obtain ⟨-, -, hlisted, -⟩ := EvaluationTable.takesLines_builtin
  have hlookup := hbuiltin ▸ hlisted.lookup (c := .text ("file-extension:" ++ l)) rfl hl hline
  have hfield : ∀ k ∈ (host.resolve spec false).value,
      host.saysOf flags (.text ("file-extension:" ++ l)) k =
        Evaluation.hasListedExtension "file-extension:" (.text ("file-extension:" ++ l))
          (host.form.value? k) := by
    intro k hk
    obtain ⟨f, hf⟩ := saysOf_of_mem hk flags (.text ("file-extension:" ++ l))
    rw [hf, hlookup]
    rfl
  rw [value_check_eq]
  constructor
  · intro k v hone hv
    rw [hone] at hfield ⊢
    rw [if_neg (List.cons_ne_nil _ _), List.all_cons, List.all_nil, Bool.and_true,
      hfield k List.mem_cons_self, hv]
    exact Evaluation.hasListedExtension_iff rfl
  · intro k hk hv
    rw [if_neg (List.ne_nil_of_mem hk), List.all_eq_false]
    refine ⟨k, hk, ?_⟩
    rw [hfield k hk, hv]
    simp [Evaluation.hasListedExtension, Evaluation.extension]

/-- The last sigma of a plan in capitals is that at the end of a listed piece. A plan without an
extension has none that is listed, even as an empty piece. A box that is not checked has no
extension, whatever its value would be. -/
theorem check_extension_plan :
    ((noteHost "plan.v2.ΟΔΟΣ").check noFlags noteField
      (.text ("file-extension:" ++ "Pdf,οδος,"))).value = true ∧
    ((noteHost "plan.").check noFlags noteField
      (.text ("file-extension:" ++ "Pdf,οδος,"))).value = false ∧
    ((Host.new .builtin ((Form.empty "order").add
      { id := "note", kind := .checkbox, value := "plan.pdf" }) false).check noFlags noteField
      (.text ("file-extension:" ++ "Pdf,οδος,"))).value = false := by
  have hplan := (check_extension (noteHost "plan.v2.ΟΔΟΣ") rfl "Pdf,οδος," (by decide) (by decide)
    noFlags noteField).1 0 "plan.v2.ΟΔΟΣ" rfl rfl
  have hdot := (check_extension (noteHost "plan.") rfl "Pdf,οδος," (by decide) (by decide)
    noFlags noteField).1 0 "plan." rfl rfl
  have hbox := (check_extension (Host.new .builtin ((Form.empty "order").add
    { id := "note", kind := .checkbox, value := "plan.pdf" }) false) rfl "Pdf,οδος," (by decide)
    (by decide) noFlags noteField).2 0 (by decide +kernel) rfl
  refine ⟨hplan.2 ⟨"plan.v2".toList, "ΟΔΟΣ".toList, rfl, by decide, by decide, "οδος".toList,
    by decide, by decide +kernel⟩, Bool.eq_false_iff.2 fun h => ?_, hbox⟩
  obtain ⟨stem, e, hcut, hnot, hne, -⟩ := hdot.1 h
  have hlast : e.getLast? = some '.' := by
    rw [← List.getLast?_append_of_ne_nil (stem ++ ['.']) hne, ← List.append_cons, ← hcut]
    rfl
  exact hnot (List.mem_of_getLast? hlast)

end Host

end FormRules

/-!
# Cutting texts

Texts are cut at separators, behind a known beginning, and by their size in bytes. `splitOn` loses
nothing but the separators, and no piece contains one.
-/

namespace FormRules.Text

/-- The pieces between the separators: one more than there are separators. -/
def splitOn (sep : Char) : List Char → List (List Char)
  | [] => [[]]
  | c :: cs =>
    if c = sep then [] :: splitOn sep cs
    else match splitOn sep cs with
      | [] => [[c]]
      | piece :: pieces => (c :: piece) :: pieces

theorem splitOn_ne_nil (sep : Char) (cs : List Char) : splitOn sep cs ≠ [] := by
  cases cs with
  | nil => simp [splitOn]
  | cons c cs =>
    unfold splitOn
    split
    · simp
    · split <;> simp

/-- No piece contains the separator. -/
theorem not_mem_of_mem_splitOn {sep : Char} {cs piece : List Char}
    (h : piece ∈ splitOn sep cs) : sep ∉ piece := by
  induction cs generalizing piece with
  | nil => simp [splitOn] at h; simp [h]
  | cons c cs ih =>
    unfold splitOn at h
    split at h
    · rcases List.mem_cons.1 h with rfl | h
      · simp
      · exact ih h
    · next hc =>
      split at h
      · simp only [List.mem_singleton] at h
        subst h
        simpa using fun e : sep = c => hc e.symm
      · next p ps hs =>
        rcases List.mem_cons.1 h with rfl | h
        · have : sep ∉ p := ih (by simp [hs])
          simpa [this] using fun e : sep = c => hc e.symm
        · exact ih (by simp [hs, h])

/-- The number of bytes of a text in UTF-8. -/
def byteSize : List Char → Nat
  | [] => 0
  | c :: cs => c.utf8Size + byteSize cs

@[simp] theorem byteSize_nil : byteSize [] = 0 := rfl

@[simp] theorem byteSize_cons (c : Char) (cs : List Char) :
    byteSize (c :: cs) = c.utf8Size + byteSize cs := rfl

@[simp] theorem byteSize_append (as bs : List Char) :
    byteSize (as ++ bs) = byteSize as + byteSize bs := by
  induction as with
  | nil => simp
  | cons a as ih => simp [ih, Nat.add_assoc]

/-- The text behind a known beginning. -/
def after? : (start cs : List Char) → Option (List Char)
  | [], cs => some cs
  | _ :: _, [] => none
  | a :: start, c :: cs => if a = c then after? start cs else none

theorem after?_eq_some_iff {start cs rest : List Char} :
    after? start cs = some rest ↔ cs = start ++ rest := by
  induction start generalizing cs with
  | nil => simp [after?, eq_comm]
  | cons a start ih =>
    cases cs with
    | nil => simp [after?]
    | cons c cs =>
      by_cases h : a = c
      · simp [after?, h, ih]
      · simpa [after?, h] using fun e : c = a => absurd e.symm h

/-- The text cut before its last `n` bytes, if that is between two characters. -/
def cutBytes? (cs : List Char) (n : Nat) : Option (List Char × List Char) :=
  if byteSize cs = n then some ([], cs)
  else match cs with
    | [] => none
    | c :: cs => (cutBytes? cs n).map fun (stem, tail) => (c :: stem, tail)

theorem cutBytes?_eq_some {cs stem tail : List Char} {n : Nat}
    (h : cutBytes? cs n = some (stem, tail)) : cs = stem ++ tail ∧ byteSize tail = n := by
  induction cs generalizing stem tail with
  | nil =>
    unfold cutBytes? at h
    split at h
    · simp only [Option.some.injEq, Prod.mk.injEq] at h
      grind
    · simp at h
  | cons c cs ih =>
    unfold cutBytes? at h
    split at h
    · simp only [Option.some.injEq, Prod.mk.injEq] at h
      grind
    · simp only [Option.map_eq_some_iff, Prod.exists, Prod.mk.injEq] at h
      obtain ⟨stem', tail', hc, rfl, rfl⟩ := h
      have := ih hc
      grind

end FormRules.Text

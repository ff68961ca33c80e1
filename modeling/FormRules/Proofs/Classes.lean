import FormRules.Proofs.Readers

/-!
# Bracketed classes with something behind

A class is read in rounds, each of which takes a member, a range, an operator or a class inside
(`classRound`, with what goes on as a parameter). A class that is open at the end of the text takes
the closing parenthesis for a member and, as nothing closes it any more, is refused in the end.
The one reader that looks further ahead than it takes is that of ranges: a single member with only
the closing behind it is read differently than at the end of a text, but nothing can come of that
(`leaves_range_closing`).
-/

namespace FormRules.Pattern

open Text

/-! ## Bracketed classes -/

/-- Reads the name of a class and the signs behind it. -/
def className? (negated : Bool) (cs : List Char) : Option (CharSet × List Char) :=
  match cs.dropWhile (· != ':') with
  | ':' :: ']' :: rest =>
    (namedClass? (String.ofList (cs.takeWhile (· != ':')))).map fun s =>
      (if negated then .compl s else s, rest)
  | _ => none

/-- A named class may be negated behind its colon. -/
theorem readNamedClass?_colon (cs : List Char) : readNamedClass? (':' :: cs) =
    if cs.head? = some '^' then className? true cs.tail else className? false cs := by
  cases cs with
  | nil => rfl
  | cons c cs =>
    by_cases hc : c = '^'
    · subst hc
      rfl
    · simp [readNamedClass?, hc]
      rfl

/-- The name of a class does not see the closing. -/
theorem className?_closing (negated : Bool) (cs : List Char) :
    className? negated (cs ++ closing) =
      (className? negated cs).map fun p => (p.1, p.2 ++ closing) := by
  unfold className?
  rcases run_closing (· != ':') cs with ⟨htake, hdrop, hne⟩ | ⟨-, hdrop, hnil⟩
  · rw [htake, hdrop]
    obtain ⟨c, ds, hds⟩ := List.exists_cons_of_ne_nil hne
    rw [hds]
    cases ds with
    | nil => simp [closing]
    | cons d ds =>
      by_cases h : c = ':' ∧ d = ']'
      · obtain ⟨rfl, rfl⟩ := h
        cases h : namedClass? (String.ofList (cs.takeWhile (· != ':'))) <;> simp
      · simp only [List.cons_append]
        split
        · simp_all
        · split
          · simp_all
          · rfl
  · rw [hdrop, hnil]
    rfl

/-- Reading the name of a class takes it from the front. -/
theorem suffix_of_className? {negated : Bool} {cs rest : List Char} {s : CharSet}
    (h : className? negated cs = some (s, rest)) : rest <:+ cs := by
  unfold className? at h
  split at h
  · next ds hdrop =>
    obtain ⟨t, -, ht⟩ := Option.map_eq_some_iff.1 h
    obtain ⟨-, rfl⟩ := Prod.mk.inj ht
    have hds : ':' :: ']' :: ds <:+ cs := hdrop ▸ List.dropWhile_suffix _
    exact (List.suffix_append [':', ']'] ds).trans hds
  · simp at h

/-- The name of a class does not go on through the closing. -/
theorem readNamedClass?_closing (cs : List Char) : readNamedClass? (cs ++ closing) =
    (readNamedClass? cs).map fun p => (p.1, p.2 ++ closing) := by
  cases cs with
  | nil => rfl
  | cons c cs =>
    by_cases hc : c = ':'
    · subst hc
      rw [List.cons_append, readNamedClass?_colon, readNamedClass?_colon]
      cases cs with
      | nil => exact className?_closing false []
      | cons d cs =>
        by_cases hd : d = '^'
        · subst hd
          exact className?_closing true cs
        · simpa [hd] using className?_closing false (d :: cs)
    · simp [readNamedClass?, hc]

theorem suffix_of_readNamedClass? {cs rest : List Char} {s : CharSet}
    (h : readNamedClass? cs = some (s, rest)) : rest <:+ cs := by
  cases cs with
  | nil => simp [readNamedClass?] at h
  | cons c cs =>
    by_cases hc : c = ':'
    · subst hc
      rw [readNamedClass?_colon] at h
      refine List.IsSuffix.trans ?_ (List.suffix_cons ':' cs)
      split at h
      · exact (suffix_of_className? h).trans (List.tail_suffix cs)
      · exact suffix_of_className? h
    · simp [readNamedClass?, hc] at h

/-- A member takes one character at least. -/
theorem leaves_readClassItem (cs : List Char) : Leaves cs.tail (readClassItem cs) := by
  unfold readClassItem
  split
  · next cs => exact leaves_readEscape cs
  · next c cs _ => exact Leaves.ok List.suffix_rfl
  · exact Leaves.error

/-- A member does not see the closing, unless it is the closing. -/
theorem tracks_readClassItem (cs : List Char) :
    Tracks (readClassItem (cs ++ closing)) (readClassItem cs) := by
  cases cs with
  | nil => exact Tracks.of_leaves (Leaves.ok List.suffix_rfl)
  | cons c cs =>
    by_cases hc : c = '\\'
    · subst hc
      exact tracks_readEscape cs
    · have hitem : ∀ cs, readClassItem (c :: cs) = .ok (.literal c, cs) := by
        intro cs
        simp [readClassItem]
      rw [List.cons_append, hitem, hitem]
      exact Tracks.ok

/-- An end of a range that stands by itself. -/
def Escape.member? : Escape → Except SyntaxError CharSet
  | .literal c => .ok (.one c)
  | .set s => .ok s
  | .anchor _ => .error .badEscape

/-- Reads the second end of a range. -/
def secondEnd (first : Escape) (cs : List Char) : Except SyntaxError (CharSet × List Char) := do
  let (last, cs) ← readClassItem cs
  match first, last with
  | .literal low, .literal high =>
    if low ≤ high then .ok (.range low high, cs) else .error .badRange
  | _, _ => .error .badRange

/-- Whether a hyphen with this behind it makes a range. -/
def Flags.goesOn (flags : Flags) (cs : List Char) : Bool :=
  (flags.skip cs).head?.all fun c => c != ']' && c != '-'

/-- Goes on from the first end of a range, which may stand by itself. -/
def rangeFrom (flags : Flags) (first : Escape) (cs : List Char) :
    Except SyntaxError (CharSet × List Char) :=
  match flags.skip cs with
  | [] => .error .classNotClosed
  | c :: ds =>
    if c = '-' ∧ flags.goesOn ds then secondEnd first (flags.skip ds)
    else first.member?.map (·, cs)

/-- A range is a member and what may follow it. -/
theorem readClassRange_eq (flags : Flags) (cs : List Char) : readClassRange flags cs =
    readClassItem cs >>= fun p => rangeFrom flags p.1 p.2 := by
  unfold readClassRange
  congr 1
  funext p
  obtain ⟨first, cs⟩ := p
  dsimp only
  split
  · next hskip => simp [rangeFrom, hskip]
  · next ds hskip =>
    split
    · next hds => cases first <;> simp [rangeFrom, Flags.goesOn, hskip, hds] <;> rfl
    · next hds => cases first <;> simp [rangeFrom, Flags.goesOn, hskip, hds] <;> rfl
    · next hbracket hhyphen =>
      have hgoes : flags.goesOn ds = true := by
        unfold Flags.goesOn
        cases hds : flags.skip ds with
        | nil => rfl
        | cons d ds' =>
          have hd : d ≠ ']' := fun h => hbracket ds' (by rw [hds, h])
          have hd' : d ≠ '-' := fun h => hhyphen ds' (by rw [hds, h])
          simp [hd, hd']
      have hrange : rangeFrom flags first cs = secondEnd first (flags.skip ds) := by
        simp [rangeFrom, hskip, hgoes]
      exact hrange.symm
  · next hnil hhyphen =>
    obtain ⟨c, ds, hskip⟩ := List.exists_cons_of_ne_nil hnil
    have hc : c ≠ '-' := fun h => hhyphen ds (by rw [hskip, h])
    cases first <;> simp [rangeFrom, hskip, hc] <;> rfl

theorem leaves_member (first : Escape) (cs : List Char) :
    Leaves cs (first.member?.map (·, cs)) := by
  cases first with
  | literal c => exact Leaves.ok List.suffix_rfl
  | set s => exact Leaves.ok List.suffix_rfl
  | anchor a => exact Leaves.error

theorem tracks_member (first : Escape) (cs : List Char) :
    Tracks (first.member?.map (·, cs ++ closing)) (first.member?.map (·, cs)) := by
  cases first with
  | literal c => exact Tracks.ok
  | set s => exact Tracks.ok
  | anchor a => exact Tracks.error

/-- The upper end of a range takes one character at least. -/
theorem leaves_secondEnd (first : Escape) (cs : List Char) :
    Leaves cs.tail (secondEnd first cs) := by
  refine Leaves.bind (leaves_readClassItem cs) fun last rest => ?_
  dsimp only
  split
  · split
    · exact Leaves.ok List.suffix_rfl
    · exact Leaves.error
  · exact Leaves.error

/-- The upper end of a range does not see the closing, unless it is the closing. -/
theorem tracks_secondEnd (first : Escape) (cs : List Char) :
    Tracks (secondEnd first (cs ++ closing)) (secondEnd first cs) := by
  refine Tracks.bind (tracks_readClassItem cs) (fun last rest => ?_) fun last rest => ?_
  · dsimp only
    split
    · split
      · exact Leaves.ok List.suffix_rfl
      · exact Leaves.error
    · exact Leaves.error
  · dsimp only
    split
    · split
      · exact Tracks.ok
      · exact Tracks.error
    · exact Tracks.error

theorem leaves_rangeFrom (flags : Flags) (first : Escape) (cs : List Char) :
    Leaves cs (rangeFrom flags first cs) := by
  unfold rangeFrom
  split
  · exact Leaves.error
  · next c ds hskip =>
    have hds : flags.skip ds <:+ cs :=
      (flags.skip_suffix ds).trans ((List.suffix_cons c ds).trans (hskip ▸ flags.skip_suffix cs))
    split
    · exact (leaves_secondEnd first _).mono ((List.tail_suffix _).trans hds)
    · exact leaves_member first cs

/-- A range takes one character at least. -/
theorem leaves_readClassRange (flags : Flags) (cs : List Char) :
    Leaves cs.tail (readClassRange flags cs) := by
  rw [readClassRange_eq]
  exact Leaves.bind (leaves_readClassItem cs) fun first rest => leaves_rangeFrom flags first rest

/-- The end of a range is read as in the text alone, unless the closing is all that follows. -/
theorem tracks_rangeFrom (flags : Flags) (first : Escape) {cs : List Char}
    (hcs : flags.skip cs ≠ []) :
    Tracks (rangeFrom flags first (cs ++ closing)) (rangeFrom flags first cs) := by
  obtain ⟨c, ds, hskip⟩ := List.exists_cons_of_ne_nil hcs
  have hskip' : flags.skip (cs ++ closing) = c :: (ds ++ closing) := by
    rcases flags.skip_closing cs with h | ⟨-, h⟩
    · rw [h, hskip, List.cons_append]
    · exact absurd h hcs
  have hgoes : flags.goesOn (ds ++ closing) = flags.goesOn ds := by
    unfold Flags.goesOn
    rcases flags.skip_closing ds with h | ⟨h, h'⟩
    · rw [h]
      cases flags.skip ds <;> simp [closing]
    · rw [h, h']
  unfold rangeFrom
  rw [hskip, hskip']
  dsimp only
  rw [hgoes]
  split
  · rcases flags.skip_closing ds with h | ⟨h, -⟩
    · rw [h]
      exact tracks_secondEnd first _
    · rw [h]
      exact Tracks.of_leaves ((leaves_secondEnd first []).mono List.nil_suffix)
  · exact tracks_member first cs

/-- Reads the start of a class behind the caret. -/
def openMembers (negated : Bool) (cs : List Char) : ClassState × List Char :=
  let rest := cs.dropWhile (· == '-')
  let st : ClassState := { negated }
  if rest.length < cs.length then (st.insert (.one '-'), rest)
  else match cs with
    | ']' :: cs => (st.insert (.one ']'), cs)
    | cs => (st, cs)

/-- A class is negated if it begins so, and its first members may be brackets or hyphens. -/
theorem openClass_eq (flags : Flags) (cs : List Char) : openClass flags cs =
    match flags.skip cs with
    | '^' :: cs => openMembers true (flags.skip cs)
    | cs => openMembers false cs := by
  unfold openClass
  cases flags.skip cs with
  | nil => rfl
  | cons c ds =>
    by_cases hc : c = '^'
    · subst hc
      rfl
    · simp [hc, -List.length_cons]
      rfl

theorem openMembers_suffix (negated : Bool) (cs : List Char) :
    (openMembers negated cs).2 <:+ cs := by
  unfold openMembers
  dsimp only
  split
  · exact List.dropWhile_suffix _
  · split
    · exact List.suffix_cons _ _
    · exact List.suffix_rfl

/-- The members that a class opens with do not see the closing. -/
theorem openMembers_closing (negated : Bool) (cs : List Char) :
    openMembers negated (cs ++ closing) =
      ((openMembers negated cs).1, (openMembers negated cs).2 ++ closing) := by
  unfold openMembers
  obtain ⟨-, hdrop⟩ := run_of_closing (p := (· == '-')) rfl cs
  rw [hdrop]
  simp only [List.length_append, Nat.add_lt_add_iff_right]
  split
  · rfl
  · cases cs with
    | nil => rfl
    | cons c cs =>
      by_cases hc : c = ']'
      · subst hc
        rfl
      · simp [hc]

theorem openClass_suffix (flags : Flags) (cs : List Char) : (openClass flags cs).2 <:+ cs := by
  rw [openClass_eq]
  split
  · next ds hskip =>
    have hds : ds <:+ cs := (List.suffix_cons '^' ds).trans (hskip ▸ flags.skip_suffix cs)
    exact (openMembers_suffix true _).trans ((flags.skip_suffix ds).trans hds)
  · exact (openMembers_suffix false _).trans (flags.skip_suffix cs)

/-- How a class opens does not depend on the closing, unless a comment swallows that. -/
theorem openClass_closing (flags : Flags) (cs : List Char) :
    openClass flags (cs ++ closing) = ((openClass flags cs).1, (openClass flags cs).2 ++ closing) ∨
      (openClass flags (cs ++ closing)).2 = [] := by
  rw [openClass_eq, openClass_eq]
  rcases flags.skip_closing cs with h | ⟨h, -⟩
  · rw [h]
    cases hskip : flags.skip cs with
    | nil => exact Or.inl (openMembers_closing false [])
    | cons c ds =>
      by_cases hc : c = '^'
      · subst hc
        rcases flags.skip_closing ds with h' | ⟨h', -⟩
        · exact Or.inl (by simpa [h'] using openMembers_closing true (flags.skip ds))
        · exact Or.inr (by simp [h', openMembers])
      · exact Or.inl (by simpa [hc] using openMembers_closing false (c :: ds))
  · rw [h]
    exact Or.inr rfl

/-- Reads an operator of a class. -/
def classOp? : List Char → Option (ClassOp × List Char)
  | '&' :: '&' :: cs => some (.inter, cs)
  | '-' :: '-' :: cs => some (.diff, cs)
  | '~' :: '~' :: cs => some (.symmDiff, cs)
  | _ => none

/-- One round of reading a class, where `next` goes on with it and reads the classes inside. -/
def classRound (flags : Flags)
    (next : ClassState → List Char → Except SyntaxError (CharSet × List Char))
    (st : ClassState) (cs : List Char) : Except SyntaxError (CharSet × List Char) :=
  match flags.skip cs with
  | [] => .error .classNotClosed
  | c :: ds =>
    if c = ']' then .ok (st.close flags, ds)
    else if c = '[' then
      match readNamedClass? ds with
      | some (s, ds) => next (st.insert s) ds
      | none =>
        next (openClass flags ds).1 (openClass flags ds).2 >>= fun p => next (st.insert p.1) p.2
    else match classOp? (c :: ds) with
      | some (op, ds) => next (st.operate flags op) ds
      | none => readClassRange flags (c :: ds) >>= fun p => next (st.insert p.1) p.2

/-- A class is read in rounds. -/
theorem readClass_succ (flags : Flags) (fuel : Nat) (st : ClassState) (cs : List Char) :
    readClass flags (fuel + 1) st cs = classRound flags (readClass flags fuel) st cs := by
  rw [readClass, classRound]
  split
  · next h => rw [h]
  · next ds h => rw [h]; rfl
  · next ds h =>
    rw [h]
    rfl
  · next ds h => rw [h]; rfl
  · next ds h => rw [h]; rfl
  · next ds h => rw [h]; rfl
  · next hnil hclose hopen hinter hdiff hsymm =>
    obtain ⟨c, ds, h⟩ := List.exists_cons_of_ne_nil hnil
    have hop : classOp? (c :: ds) = none := by
      unfold classOp?
      split
      · next heq => exact absurd (h.trans heq) (hinter _)
      · next heq => exact absurd (h.trans heq) (hdiff _)
      · next heq => exact absurd (h.trans heq) (hsymm _)
      · rfl
    have hc : c ≠ ']' := fun hc => hclose ds (by rw [h, hc])
    have hc' : c ≠ '[' := fun hc => hopen ds (by rw [h, hc])
    rw [h]
    simp only [hop, if_neg hc, if_neg hc']

theorem suffix_of_classOp? {cs ds : List Char} {op : ClassOp} (h : classOp? cs = some (op, ds)) :
    ds <:+ cs.tail := by
  unfold classOp? at h
  split at h
  · obtain ⟨-, rfl⟩ := Prod.mk.inj (Option.some.inj h)
    exact List.suffix_cons _ _
  · obtain ⟨-, rfl⟩ := Prod.mk.inj (Option.some.inj h)
    exact List.suffix_cons _ _
  · obtain ⟨-, rfl⟩ := Prod.mk.inj (Option.some.inj h)
    exact List.suffix_cons _ _
  · simp at h

/-- An operator does not see the closing. -/
theorem classOp?_closing (c : Char) (cs : List Char) : classOp? (c :: (cs ++ closing)) =
    (classOp? (c :: cs)).map fun p => (p.1, p.2 ++ closing) := by
  cases cs with
  | nil =>
    have hone : classOp? [c] = none := by
      unfold classOp?
      split <;> simp_all
    have hclosing : classOp? (c :: closing) = none := by
      unfold classOp? closing
      split <;> simp_all
    rw [hone, List.nil_append, hclosing]
    rfl
  | cons d cs =>
    by_cases h : c = d ∧ (c = '&' ∨ c = '-' ∨ c = '~')
    · obtain ⟨rfl, rfl | rfl | rfl⟩ := h <;> rfl
    · have hnone : ∀ rest, classOp? (c :: d :: rest) = none := by
        intro rest
        unfold classOp?
        split <;> simp_all
      rw [List.cons_append, hnone, hnone]
      rfl

section Round

variable {flags : Flags}
  {next next' : ClassState → List Char → Except SyntaxError (CharSet × List Char)}
  {st : ClassState} {cs : List Char}

/-- A round takes one character at least. -/
theorem leaves_classRound (hnext : ∀ st ds, Leaves ds (next st ds)) :
    Leaves (flags.skip cs).tail (classRound flags next st cs) := by
  unfold classRound
  split
  · exact Leaves.error
  · next c ds hskip =>
    rw [hskip, List.tail_cons]
    split
    · exact Leaves.ok List.suffix_rfl
    · split
      · split
        · next h => exact (hnext _ _).mono (suffix_of_readNamedClass? h)
        · refine Leaves.bind ((hnext _ _).mono (openClass_suffix flags ds)) fun s ds => hnext _ ds
      · split
        · next h => exact (hnext _ _).mono (suffix_of_classOp? h)
        · exact Leaves.bind (leaves_readClassRange flags (c :: ds)) fun s ds => hnext _ ds

/-- The first end of a range with only the closing behind it stands by itself. -/
theorem leaves_range_closing (hclosing : ∀ st, Leaves ['$'] (next st (cs ++ closing)))
    (hcs : flags.skip cs = []) (first : Escape) :
    Leaves ['$'] (rangeFrom flags first (cs ++ closing) >>= fun p => next (st.insert p.1) p.2) := by
  unfold rangeFrom
  rcases flags.skip_closing cs with h | ⟨h, -⟩
  · rw [h, hcs]
    cases first with
    | literal c => exact hclosing _
    | set s => exact hclosing _
    | anchor a => exact Leaves.error
  · rw [h]
    exact Leaves.error

/-- A range with the closing behind it is read like one without, or comes to nothing. -/
theorem tracks_range (cs : List Char) (hleaves : ∀ st ds, Leaves ds (next st ds))
    (hclosing : ∀ st ds, flags.skip ds = [] → Leaves ['$'] (next st (ds ++ closing)))
    (hnext : ∀ st ds, Tracks (next st (ds ++ closing)) (next' st ds)) :
    Tracks (readClassRange flags (cs ++ closing) >>= fun p => next (st.insert p.1) p.2)
      (readClassRange flags cs >>= fun p => next' (st.insert p.1) p.2) := by
  simp only [readClassRange_eq, bind_assoc]
  refine Tracks.bind (tracks_readClassItem cs) (fun first rest => ?_) fun first rest => ?_
  · exact Leaves.bind (leaves_rangeFrom flags first rest) fun s ds => hleaves _ ds
  · by_cases hrest : flags.skip rest = []
    · exact Tracks.of_leaves (leaves_range_closing (fun st => hclosing st rest hrest) hrest first)
    · exact Tracks.bind (tracks_rangeFrom flags first hrest) (fun s ds => hleaves _ ds)
        fun s ds => hnext _ ds

/-- A round does not see the closing if what follows it does not. -/
theorem tracks_classRound (hleaves : ∀ st ds, Leaves ds (next st ds))
    (hclosing : ∀ st ds, flags.skip ds = [] → Leaves ['$'] (next st (ds ++ closing)))
    (hnext : ∀ st ds, Tracks (next st (ds ++ closing)) (next' st ds)) :
    Tracks (classRound flags next st (cs ++ closing)) (classRound flags next' st cs) := by
  rcases flags.skip_closing cs with h | ⟨h, -⟩
  · cases hskip : flags.skip cs with
    | nil =>
      refine Tracks.of_leaves ((leaves_classRound hleaves).mono ?_)
      rw [h, hskip]
      exact List.suffix_rfl
    | cons c ds =>
      unfold classRound
      rw [h, hskip]
      dsimp only [List.cons_append]
      split
      · exact Tracks.ok
      · split
        · rw [readNamedClass?_closing]
          cases readNamedClass? ds with
          | some p => exact hnext _ p.2
          | none =>
            rcases openClass_closing flags ds with hopen | hopen
            · simp only [Option.map_none, hopen]
              exact Tracks.bind (hnext _ _) (fun s ds => hleaves _ ds) fun s ds => hnext _ ds
            · simp only [Option.map_none, hopen]
              refine Tracks.of_leaves (Leaves.mono ?_ List.nil_suffix)
              exact Leaves.bind (hleaves _ []) fun s ds => hleaves _ ds
        · rw [classOp?_closing]
          cases classOp? (c :: ds) with
          | some p => exact hnext _ p.2
          | none => exact tracks_range (c :: ds) hleaves hclosing hnext
  · unfold classRound
    rw [h]
    exact Tracks.error

/-- Rounds go on with texts that are shorter. -/
theorem classRound_congr (hleaves : ∀ st ds, Leaves ds (next st ds))
    (h : ∀ st ds, ds.length < (flags.skip cs).length → next st ds = next' st ds) :
    classRound flags next st cs = classRound flags next' st cs := by
  unfold classRound
  cases hskip : flags.skip cs with
  | nil => rfl
  | cons c ds =>
    have hds : ds.length < (flags.skip cs).length := by simp [hskip]
    dsimp only
    split
    · rfl
    · split
      · cases hname : readNamedClass? ds with
        | some p =>
          exact h _ p.2 (Nat.lt_of_le_of_lt (suffix_of_readNamedClass? hname).length_le hds)
        | none =>
          have hopen := Nat.lt_of_le_of_lt (openClass_suffix flags ds).length_le hds
          dsimp only
          rw [← h _ _ hopen]
          exact (hleaves _ _).bind_congr fun s rest hrest =>
            h _ rest (Nat.lt_of_le_of_lt hrest hopen)
      · cases hop : classOp? (c :: ds) with
        | some p => exact h _ p.2 (Nat.lt_of_le_of_lt (suffix_of_classOp? hop).length_le hds)
        | none =>
          exact (leaves_readClassRange flags (c :: ds)).bind_congr fun s rest hrest =>
            h _ rest (Nat.lt_of_le_of_lt hrest hds)

end Round

/-- A class takes one character at least. -/
theorem leaves_readClass (flags : Flags) (fuel : Nat) (st : ClassState) (cs : List Char) :
    Leaves (flags.skip cs).tail (readClass flags fuel st cs) := by
  induction fuel generalizing st cs with
  | zero => exact Leaves.error
  | succ fuel ih =>
    rw [readClass_succ]
    exact leaves_classRound fun st ds =>
      (ih st ds).mono ((List.tail_suffix _).trans (flags.skip_suffix ds))

/-- A class does not see the closing, by induction on its rounds. -/
theorem tracks_readClass (flags : Flags) (fuel : Nat) (st : ClassState) (cs : List Char) :
    Tracks (readClass flags fuel st (cs ++ closing)) (readClass flags fuel st cs) := by
  induction fuel generalizing st cs with
  | zero => exact Tracks.error
  | succ fuel ih =>
    rw [readClass_succ, readClass_succ]
    refine tracks_classRound (fun st ds => ?_) (fun st ds hds => ?_) ih
    · exact (leaves_readClass flags fuel st ds).mono
        ((List.tail_suffix _).trans (flags.skip_suffix ds))
    · refine (leaves_readClass flags fuel st (ds ++ closing)).mono ?_
      rcases flags.skip_closing ds with h | ⟨h, -⟩
      · rw [h, hds]
        exact List.suffix_rfl
      · rw [h]
        exact List.nil_suffix

/-- A class that is open at the end is refused. -/
theorem readClass_nil (flags : Flags) (fuel : Nat) (st : ClassState) :
    readClass flags fuel st [] = .error .classNotClosed := by
  cases fuel <;> rfl

/-- As much fuel as the text has characters is enough. -/
theorem readClass_fuel (flags : Flags) {fuel fuel' : Nat} (st : ClassState) {cs : List Char}
    (h : cs.length ≤ fuel) (h' : cs.length ≤ fuel') :
    readClass flags fuel st cs = readClass flags fuel' st cs := by
  induction fuel generalizing fuel' st cs with
  | zero =>
    obtain rfl := List.eq_nil_of_length_eq_zero (Nat.le_zero.1 h)
    rw [readClass_nil, readClass_nil]
  | succ fuel ih =>
    cases fuel' with
    | zero =>
      obtain rfl := List.eq_nil_of_length_eq_zero (Nat.le_zero.1 h')
      rw [readClass_nil, readClass_nil]
    | succ fuel' =>
      have hskip := (flags.skip_suffix cs).length_le
      rw [readClass_succ, readClass_succ]
      refine classRound_congr (fun st ds => ?_) fun st ds hds => ih st (by omega) (by omega)
      exact (leaves_readClass flags fuel st ds).mono
        ((List.tail_suffix _).trans (flags.skip_suffix ds))

end FormRules.Pattern

import FormRules.Proofs.Turns

/-!
# Orders along a run

The agenda of a run on an orderly sheet is a stack of orders. A task and those that take its place
have the same orders (`Task.Unfolds.orders_of`, `Task.Unfolds.orders_to`), they wake nobody that it
would not have woken (`Task.Unfolds.wakes_of`), and they may stand where it stood
(`Task.Before.of_unfolds`). Among themselves they are a stack again (`Task.Unfolds.pairwise`): the
orders of one rule wake other rules only, as rules do not feed themselves.
-/

namespace FormRules

open BuiltinAction Relation

namespace Task

variable {S : Sheet} {e : Engine} {t t' u : Task} {news : List Task} {h : Handle} {x : Effect}
  {on : Bool} {j : QueryId}

/-! ## Orders and wakes -/

theorem orders_perform {a : BuiltinAction} {args : Args} {i : HostId} {skip : Bool} :
    (Task.perform i (.builtin a) args skip).Orders S h x on ↔
      h ∈ S.form.pick (Spec.lenient args.field) ∧ (x, on) ∈ a.switches args := by
  constructor
  · rintro ⟨hpick, b, hb, hswitch⟩
    obtain rfl : a = b := by simpa using hb
    exact ⟨hpick, hswitch⟩
  · exact fun ho => ⟨ho.1, a, rfl, ho.2⟩

theorem orders_effect {field : String} {y : Effect} {on' : Bool} {i : HostId}
    {skip answers : Bool} :
    (Task.effect i field y (.ofBool on') skip answers).Orders S h x on ↔
      h ∈ S.form.pick (Spec.lenient field) ∧ y = x ∧ on' = on := by
  have hinj : Switch.ofBool on' = Switch.ofBool on ↔ on' = on := by
    cases on' <;> cases on <;> simp [Switch.ofBool]
  simp only [Orders, hinj]

/-- The tasks of a plan have the orders of the action. -/
theorem orders_plan {a : BuiltinAction} (ha : a.isSwitch = true) {args : Args} {skip : Bool} :
    (∃ o ∈ a.plan {} args, (o.task skip).Orders S h x on) ↔
      h ∈ S.form.pick (Spec.lenient args.field) ∧ (x, on) ∈ a.switches args := by
  rw [mem_switches ha]
  constructor
  · rintro ⟨o, ho, horders⟩
    rcases mem_plan ha ho with ⟨d, rfl⟩ | ⟨y, on', rfl, -⟩
    · exact absurd horders id
    · obtain ⟨hpick, rfl, rfl⟩ := orders_effect.1 horders
      exact ⟨hpick, ho⟩
  · exact fun ⟨hpick, ho⟩ => ⟨_, ho, orders_effect.2 ⟨hpick, rfl, rfl⟩⟩

/-- What takes the place of a task has no orders but those of the task. -/
theorem Unfolds.orders_of (hu : t.Unfolds S e news) (ht : t' ∈ news) (ho : t'.Orders S h x on) :
    t.Orders S h x on := by
  cases hu with
  | idle hidle => simp at ht
  | unmoved => simp at ht
  | close => simp at ht
  | @round q b skip i rest =>
    rcases List.mem_cons.1 ht with rfl | ht
    · exact ⟨i, List.mem_cons_self, ho⟩
    · obtain rfl := List.mem_singleton.1 ht
      obtain ⟨k, hk, hw⟩ := ho
      exact ⟨k, List.mem_cons_of_mem i hk, hw⟩
  | deliver hr ha =>
    obtain rfl := List.mem_singleton.1 ht
    exact ⟨_, _, hr, ha, ho⟩
  | @dispatch name tokens args negate skip report report' answers a hswitch ha =>
    rcases List.mem_cons.1 ht with rfl | ht
    · obtain ⟨hpick, hmem⟩ := orders_perform.1 ho
      exact ⟨hpick, name, List.mem_cons_self, (ha x on).1 hmem⟩
    · obtain rfl := List.mem_singleton.1 ht
      obtain ⟨hpick, n, hn, hmem⟩ := ho
      exact ⟨hpick, n, List.mem_cons_of_mem _ hn, hmem⟩
  | perform hswitch =>
    rcases List.mem_append.1 ht with ht | ht
    · obtain ⟨o, hmem, rfl⟩ := List.mem_map.1 ht
      exact orders_perform.2 ((orders_plan hswitch).1 ⟨o, hmem, ho⟩)
    · obtain rfl := List.mem_singleton.1 ht
      exact absurd ho id
  | notify hlisteners =>
    simp only [List.mem_cons, List.not_mem_nil, or_false] at ht
    rcases ht with rfl | rfl <;> exact absurd ho id
  | inform =>
    simp only [List.mem_cons, List.not_mem_nil, or_false] at ht
    rcases ht with rfl | rfl | rfl <;> exact absurd ho id
  | write =>
    simp only [List.mem_cons, List.not_mem_nil, or_false] at ht
    rcases ht with rfl | rfl | rfl <;> exact absurd ho id
  | condition hq hh hr hops =>
    obtain rfl := List.mem_singleton.1 ht
    exact absurd ho id

/-- What takes the place of a task has all its orders. -/
theorem Unfolds.orders_to (hu : t.Unfolds S e news) (ho : t.Orders S h x on) :
    ∃ t' ∈ news, t'.Orders S h x on := by
  cases hu with
  | @idle t hidle =>
    exfalso
    cases t with
    | round q b skip pending =>
      cases pending with
      | nil => simp [Orders] at ho
      | cons i rest => exact hidle
    | dispatch i tokens args negate skip report answers =>
      cases tokens with
      | nil => simp [Orders, Form.Orders] at ho
      | cons token tokens => exact hidle
    | deliver q i b skip => exact hidle
    | perform i action args skip => exact hidle
    | effect i field y s skip answers => exact hidle
    | _ => exact ho
  | @round q b skip i rest =>
    obtain ⟨k, hk, hw⟩ := ho
    rcases List.mem_cons.1 hk with rfl | hk
    · exact ⟨_, List.mem_cons_self, hw⟩
    · exact ⟨.round q b skip rest, by simp, k, hk, hw⟩
  | @deliver q i b skip r a hr ha =>
    obtain ⟨r', a', hr', ha', horders⟩ := ho
    obtain rfl := Option.some.inj (hr.symm.trans hr')
    obtain rfl := Option.some.inj (ha.symm.trans ha')
    exact ⟨_, List.mem_singleton_self _, horders⟩
  | @dispatch name tokens args negate skip report report' answers a hswitch ha =>
    obtain ⟨hpick, n, hn, hmem⟩ := ho
    rcases List.mem_cons.1 hn with heq | hn
    · obtain rfl : n = name := by simpa using heq
      exact ⟨_, List.mem_cons_self, orders_perform.2 ⟨hpick, (ha x on).2 hmem⟩⟩
    · exact ⟨.dispatch 0 tokens args negate skip report' answers, by simp, hpick, n, hn, hmem⟩
  | @perform a args skip hswitch =>
    obtain ⟨o, ho, horders⟩ := (orders_plan hswitch).2 (orders_perform.1 ho)
    exact ⟨_, List.mem_append_left _ (List.mem_map.2 ⟨o, ho, rfl⟩), horders⟩
  | _ => exact absurd ho id

theorem Unfolds.rouses_of (hu : t.Unfolds S e news) (ht : t' ∈ news) (hr : t'.Rouses S j) :
    t.Rouses S j := by
  cases hu with
  | idle hidle => simp at ht
  | unmoved => simp at ht
  | close => simp at ht
  | round =>
    simp only [List.mem_cons, List.not_mem_nil, or_false] at ht
    rcases ht with rfl | rfl <;> exact absurd hr id
  | deliver =>
    obtain rfl := List.mem_singleton.1 ht
    exact absurd hr id
  | dispatch =>
    simp only [List.mem_cons, List.not_mem_nil, or_false] at ht
    rcases ht with rfl | rfl <;> exact absurd hr id
  | perform hswitch =>
    rcases List.mem_append.1 ht with ht | ht
    · obtain ⟨o, ho, rfl⟩ := List.mem_map.1 ht
      rcases mem_plan hswitch ho with ⟨d, rfl⟩ | ⟨y, on', rfl, -⟩ <;> exact absurd hr id
    · obtain rfl := List.mem_singleton.1 ht
      exact absurd hr id
  | notify hlisteners =>
    simp only [List.mem_cons, List.not_mem_nil, or_false] at ht
    rcases ht with rfl | rfl
    · obtain ⟨q, -, hq, hwatches⟩ := hlisteners _ hr
      obtain rfl : j = q := by simpa using hq
      exact ⟨_, List.mem_cons_self, hwatches⟩
    · obtain ⟨k, hk, hwatches⟩ := hr
      exact ⟨k, List.mem_cons_of_mem _ hk, hwatches⟩
  | inform =>
    simp only [List.mem_cons, List.not_mem_nil, or_false] at ht
    rcases ht with rfl | rfl | rfl
    · obtain rfl : _ = j := hr
      exact List.mem_cons_self
    · exact absurd hr id
    · exact List.mem_cons_of_mem _ hr
  | write => trivial
  | condition hq hh hr hops => trivial

/-- What takes the place of a task wakes no one but whom the task might wake. -/
theorem Unfolds.wakes_of (hu : t.Unfolds S e news) (ht : t' ∈ news) (hw : t'.Wakes S j) :
    t.Wakes S j := by
  rcases hw with hr | ⟨h, on, ho, hwatches⟩
  · exact Or.inl (hu.rouses_of ht hr)
  · exact Or.inr ⟨h, on, hu.orders_of ht ho, hwatches⟩

/-- An effect wakes those who watch what it reports. -/
theorem wakes_of_changed {form : Form} {field : String} {skip answers : Bool} {k : Handle}
    (hk : k ∈ (form.apply (S.form.pick (Spec.lenient field)) x (.ofBool on)).2)
    (hwatches : S.Watches j k) : (Task.effect 0 field x (.ofBool on) skip answers).Wakes S j := by
  by_cases hchecked : x = .checked
  · exact Or.inr ⟨k, on, orders_effect.2 ⟨Form.applyEach_subset _ _ hk, hchecked, rfl⟩, hwatches⟩
  · rw [Form.apply_unreported _ _ hchecked] at hk
    simp at hk

/-! ## The stack -/

theorem Before.of_silent (ho : ∀ h x on, ¬ t'.Orders S h x on) (hopens : ¬ t.Opens)
    (hbuilds : ¬ t'.Builds) : Before S t t' :=
  ⟨fun _ _ _ _ _ _ h x _ _ on => ho h x on, fun h => absurd h hopens, hbuilds⟩

theorem not_orders_of_isOuter (ht : t.IsOuter) (h : Handle) (x : Effect) (on : Bool) :
    ¬ t.Orders S h x on := by
  cases t with
  | step s => exact id
  | ran s => exact id
  | answer a => exact id
  | hold hosts queries => exact id
  | _ => exact absurd ht id

theorem Before.of_isOuter (ht : t'.IsOuter) : Before S t t' where
  orders _ _ _ _ _ _ h x _ _ on := not_orders_of_isOuter ht h x on
  outer _ := ht
  builds := by cases t' <;> first | exact id | exact absurd ht id

/-- What takes the place of a task may stand where the task stood. -/
theorem Before.of_unfolds (hu : t.Unfolds S e news) (ht : t' ∈ news) (hb : Before S t u) :
    Before S t' u where
  orders j q hw := hb.orders j q (hu.wakes_of ht hw)
  builds := hb.builds
  outer hopens := by
    refine hb.outer ?_
    cases hu with
    | condition hq hh hr hops => trivial
    | write => trivial
    | idle hidle => simp at ht
    | unmoved => simp at ht
    | close => simp at ht
    | deliver =>
      obtain rfl := List.mem_singleton.1 ht
      exact absurd hopens id
    | perform hswitch =>
      rcases List.mem_append.1 ht with ht | ht
      · obtain ⟨o, ho, rfl⟩ := List.mem_map.1 ht
        cases o <;> exact absurd hopens id
      · obtain rfl := List.mem_singleton.1 ht
        exact absurd hopens id
    | inform =>
      simp only [List.mem_cons, List.not_mem_nil, or_false] at ht
      rcases ht with rfl | rfl | rfl <;> exact absurd hopens id
    | _ =>
      simp only [List.mem_cons, List.not_mem_nil, or_false] at ht
      rcases ht with rfl | rfl <;> exact absurd hopens id

end Task

/-- Among orders of one rule, none wakes the rule again. -/
theorem Sheet.IsOrderly.before {S : Sheet} (hS : S.IsOrderly) {q : QueryId} {r : SwitchRule}
    (hr : S.rules[q]? = some r) {t t' : Task} (hrouses : ∀ j, ¬ t.Rouses S j) (hopens : ¬ t.Opens)
    (hbuilds : ¬ t'.Builds)
    (ht : ∀ h x on, t.Orders S h x on → ∃ c ∈ r.commands, S.Drives c h x)
    (ht' : ∀ h x on, t'.Orders S h x on → ∃ c ∈ r.commands, S.Drives c h x) : t.Before S t' where
  outer h := absurd h hopens
  builds := hbuilds
  orders := by
    intro j q' hw hreach i b h x on hwants on' ho'
    obtain ⟨c', hc', hd'⟩ := ht' h x on' ho'
    obtain ⟨r', hr', c, hc, hd, -⟩ := hwants.exists_command
    obtain ⟨rfl, -⟩ := hS.eq_of_drives hr' hr hc hc' hd hd'
    rcases hw with hrouse | ⟨k, on, ho, hwatches⟩
    · exact hrouses j hrouse
    · obtain ⟨c₁, hc₁, hd₁⟩ := ht k .checked on ho
      have hfeeds : S.Feeds q' j := ⟨r, hr, c₁, hc₁, k, hd₁, hwatches⟩
      exact hS.acyclic q' (TransGen.head' hfeeds hreach)

theorem Sheet.exists_command {S : Sheet} {r : SwitchRule} {a : Attachment}
    (ha : a ∈ r.attachments) {tokens : List (Token Step)} (htokens : tokens ⊆ a.tokens)
    {negate : Bool} {h : Handle} {x : Effect} {on : Bool}
    (ho : S.form.Orders tokens a.args negate h x on) : ∃ c ∈ r.commands, S.Drives c h x := by
  obtain ⟨hpick, name, hname, hswitch⟩ := ho
  have hmem : name ∈ a.names := by simpa [Attachment.tokens] using htokens hname
  exact ⟨⟨a.failing, name, a.args⟩,
    List.mem_flatMap.2 ⟨a, ha, List.mem_map.2 ⟨name, hmem, rfl⟩⟩, hpick, _, hswitch⟩

namespace Task

variable {S : Sheet} {e e' : Engine} {t t' u : Task} {news : List Task}

/-- What takes the place of a task is a stack by itself. -/
theorem Unfolds.pairwise (hS : S.IsOrderly) (hu : t.Unfolds S e news) (hf : e.Follows S t) :
    news.Pairwise (Before S) := by
  have hsilent : ∀ {t t' : Task}, (∀ h x on, ¬ t'.Orders S h x on) → ¬ t.Opens → ¬ t'.Builds →
      Before S t t' := Before.of_silent
  cases hu with
  | idle hidle => exact .nil
  | unmoved => exact .nil
  | close => exact .nil
  | @round q b skip i rest =>
    refine List.pairwise_pair.2 ?_
    cases hr : S.rules[q]? with
    | none =>
      refine hsilent (fun h x on ho => ?_) id id
      obtain ⟨k, -, r, a, hr', -⟩ := ho
      simp [hr] at hr'
    | some r =>
      have hcommand : ∀ {k h x on}, S.Wants q k b h x on → ∃ c ∈ r.commands, S.Drives c h x := by
        intro k h x on hw
        obtain ⟨r', hr', c, hc, hd, -⟩ := hw.exists_command
        obtain rfl := Option.some.inj (hr.symm.trans hr')
        exact ⟨c, hc, hd⟩
      refine hS.before hr (fun _ => id) id id (fun h x on ho => hcommand ho) fun h x on ho => ?_
      obtain ⟨k, -, hw⟩ := ho
      exact hcommand hw
  | deliver => exact List.pairwise_singleton _ _
  | @dispatch name tokens args negate skip report report' answers a hswitch ha =>
    obtain ⟨-, q, r, hr, a', ha', rfl, htokens⟩ := hf
    refine List.pairwise_pair.2
      (hS.before hr (fun _ => id) id id (fun h x on ho => ?_) fun h x on ho => ?_)
    · obtain ⟨hpick, hmem⟩ := orders_perform.1 ho
      exact Sheet.exists_command ha' htokens ⟨hpick, name, List.mem_cons_self, (ha x on).1 hmem⟩
    · obtain ⟨hpick, n, hn, hmem⟩ := ho
      exact Sheet.exists_command ha' htokens ⟨hpick, n, List.mem_cons_of_mem _ hn, hmem⟩
  | @perform a args skip hswitch =>
    have hplan : ∀ {o o' : Operation}, o ∈ a.plan {} args → o' ∈ a.plan {} args →
        (∀ field s, o ≠ .effect field .checked s) → Before S (o.task skip) (o'.task skip) := by
      intro o o' ho ho' hne
      refine ⟨fun j q hw => ?_, fun hopens => absurd hopens (by cases o <;> exact id),
        by cases o' <;> exact id⟩
      exfalso
      rcases mem_plan hswitch ho with ⟨d, rfl⟩ | ⟨y, on', rfl, -⟩
      · rcases hw with hr | ⟨h, on, ho, -⟩
        · exact hr
        · exact ho
      · rcases hw with hr | ⟨h, on, ho, -⟩
        · exact hr
        · obtain ⟨-, rfl, -⟩ := orders_effect.1 ho
          exact hne _ _ rfl
    refine List.pairwise_append.2 ⟨?_, List.pairwise_singleton _ _, fun t ht t' ht' => ?_⟩
    · exact List.pairwise_map.2
        ((pairwise_plan a args).imp_of_mem fun ho ho' hne => hplan ho ho' hne)
    · obtain ⟨o, ho, rfl⟩ := List.mem_map.1 ht
      obtain rfl := List.mem_singleton.1 ht'
      exact hsilent (fun _ _ _ => id) (by cases o <;> exact id) id
  | notify hlisteners => exact List.pairwise_pair.2 (hsilent (fun _ _ _ => id) id id)
  | inform =>
    refine List.pairwise_cons.2
      ⟨fun t ht => ?_, List.pairwise_pair.2 (hsilent (fun _ _ _ => id) id id)⟩
    simp only [List.mem_cons, List.not_mem_nil, or_false] at ht
    rcases ht with rfl | rfl <;> exact hsilent (fun _ _ _ => id) id id
  | write =>
    refine List.pairwise_cons.2
      ⟨fun t ht => ?_, List.pairwise_pair.2 (hsilent (fun _ _ _ => id) id id)⟩
    simp only [List.mem_cons, List.not_mem_nil, or_false] at ht
    rcases ht with rfl | rfl <;> exact hsilent (fun _ _ _ => id) id id
  | condition hq hh hr hops => exact List.pairwise_singleton _ _

/-! ## Tasks of a run -/

/-- What takes the place of a task of a run is of the run again. -/
theorem Unfolds.follows (hu : t.Unfolds S e news) (hf : e.Follows S t) (ht : t' ∈ news) :
    e.Follows S t' := by
  cases hu with
  | idle hidle => simp at ht
  | unmoved => simp at ht
  | close => simp at ht
  | round =>
    simp only [List.mem_cons, List.not_mem_nil, or_false] at ht
    rcases ht with rfl | rfl
    · exact hf _ List.mem_cons_self
    · exact fun k hk => hf k (List.mem_cons_of_mem _ hk)
  | @deliver q i b skip r a hr ha =>
    obtain rfl := List.mem_singleton.1 ht
    exact ⟨rfl, q, r, hr, a, List.mem_of_getElem? ha, rfl, List.Subset.refl _⟩
  | @dispatch name tokens args negate skip report report' answers a hswitch ha =>
    obtain ⟨-, q, r, hr, a', ha', rfl, htokens⟩ := hf
    simp only [List.mem_cons, List.not_mem_nil, or_false] at ht
    rcases ht with rfl | rfl
    · have hname : name ∈ a'.names := by
        simpa [Attachment.tokens] using htokens List.mem_cons_self
      refine ⟨rfl, r, List.mem_of_getElem? hr, ⟨a'.failing, name, a'.args⟩,
        List.mem_flatMap.2 ⟨a', ha', List.mem_map.2 ⟨name, hname, rfl⟩⟩, rfl, a, rfl, hswitch, ?_⟩
      exact fun x on hmem => ⟨_, (ha x on).1 hmem⟩
    · exact ⟨rfl, q, r, hr, a', ha', rfl, fun t ht => htokens (List.mem_cons_of_mem _ ht)⟩
  | @perform a args skip hswitch =>
    obtain ⟨-, r, hr, c, hc, rfl, b, hb, -, hmem⟩ := hf
    obtain rfl : a = b := by simpa using hb
    rcases List.mem_append.1 ht with ht | ht
    · obtain ⟨o, ho, rfl⟩ := List.mem_map.1 ht
      rcases mem_plan hswitch ho with ⟨d, rfl⟩ | ⟨y, on, rfl, hy⟩
      · trivial
      · exact ⟨rfl, hy, ⟨on, rfl⟩, r, hr, c, hc, rfl, hmem y on ((mem_switches hswitch).2 ho)⟩
    · obtain rfl := List.mem_singleton.1 ht
      trivial
  | notify hlisteners =>
    simp only [List.mem_cons, List.not_mem_nil, or_false] at ht
    rcases ht with rfl | rfl
    · intro l hl
      obtain ⟨q, hq, hquery, -⟩ := hlisteners l hl
      exact ⟨q, hq, hquery⟩
    · exact rfl
  | @inform q listeners field v automatic =>
    simp only [List.mem_cons, List.not_mem_nil, or_false] at ht
    rcases ht with rfl | rfl | rfl
    · obtain ⟨p, hp, hquery⟩ := hf _ List.mem_cons_self
      obtain rfl : q = p := by simpa using hquery
      exact hp
    · trivial
    · exact fun l hl => hf l (List.mem_cons_of_mem _ hl)
  | @write field v automatic =>
    simp only [List.mem_cons, List.not_mem_nil, or_false] at ht
    obtain ⟨c, hc, hstep⟩ := hf
    rcases ht with rfl | rfl | rfl
    · cases c with
      | rule r name => simp [Call.step] at hstep
      | write field' v' automatic' =>
        simp only [Call.step, Step.write.injEq] at hstep
        obtain ⟨rfl, rfl, rfl⟩ := hstep
        exact ⟨rfl, v, automatic, hc⟩
    · trivial
    · trivial
  | @condition f f' op ops name r hq hh hr hops =>
    obtain rfl := List.mem_singleton.1 ht
    exact ⟨hh.trans hf.1, hq ▸ hf.2.1, r, hq ▸ hr, hq ▸ hops⟩

/-- A chain goes on as a chain, and nothing else does. -/
theorem Unfolds.chain_of_mem (hu : t.Unfolds S e news) {f : Facet} {ops : List (ChainOp Step)}
    {name : Option String} (hmem : .chain f ops name ∈ news) :
    ∃ f₀ op, t = .chain f₀ (op :: ops) name ∧ f.query = f₀.query := by
  cases hu with
  | condition hq =>
    simp only [List.mem_singleton, Task.chain.injEq] at hmem
    obtain ⟨rfl, rfl, rfl⟩ := hmem
    exact ⟨_, _, rfl, hq⟩
  | perform hswitch =>
    rcases List.mem_append.1 hmem with hmem | hmem
    · obtain ⟨o, -, ho⟩ := List.mem_map.1 hmem
      cases o <;> simp [Operation.task] at ho
    · simp at hmem
  | _ => simp at hmem

theorem Unfolds.chain?_eq (hu : t.Unfolds S e news) :
    t.chain? = none ∧ ∀ t' ∈ news, t'.chain? = none := by
  cases hu with
  | @idle t hidle =>
    refine ⟨?_, by simp⟩
    cases t with
    | step s => exact absurd hidle id
    | _ => rfl
  | perform hswitch =>
    refine ⟨rfl, fun t ht => ?_⟩
    rcases List.mem_append.1 ht with ht | ht
    · obtain ⟨o, -, rfl⟩ := List.mem_map.1 ht
      cases o <;> rfl
    · obtain rfl := List.mem_singleton.1 ht
      rfl
  | _ => exact ⟨rfl, by simp [chain?]⟩

end Task

end FormRules

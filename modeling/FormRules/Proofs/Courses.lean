import FormRules.Proofs.Orders

/-!
# The course of a run

Along a run on an orderly sheet, everything that a rule wants in its last state is there or is
ordered (`Engine.IsOn`, kept by `Engine.IsOn.step` and so by `Engine.IsOn.run`). Each kind of turn has
a lemma of its own. Tasks that are only replaced keep their orders (`Engine.isOn_unfold`), an effect
carries its order out (`Engine.isOn_effect`), and a write touches nothing but boxes that calls write
to (`Engine.isOn_write`). A rule that comes to another state finds no orders for its old state further
down, since whoever wakes it would have been woken by it, and orders a new round
(`Engine.isOn_fire`). An attachment hears of the present state of its rule (`Engine.isOn_attach`).
-/

namespace FormRules

open BuiltinAction Relation

namespace Engine

variable {S : Sheet} {e e' : Engine} {t : Task} {ts news : List Task}

/-- Tasks of a run know the engine by its rules only. -/
theorem Follows.of_marked (hf : e.Follows S t) (length : e'.queries.length = e.queries.length)
    (callbacks : ∀ q, e'.callbacks q = e.callbacks q) : e'.Follows S t := by
  cases t with
  | chain f ops name =>
    obtain ⟨hh, hlast, r, hr, hops⟩ := hf
    exact ⟨hh, hlast.trans length.symm, r, hr, (callbacks f.query).symm ▸ hops⟩
  | trigger q => exact Nat.lt_of_lt_of_eq hf length.symm
  | round q b skip pending => exact fun i hi => (callbacks q).symm ▸ hf i hi
  | deliver q i b skip => exact Nat.lt_of_lt_of_eq hf (congrArg List.length (callbacks q).symm)
  | inform listeners field v automatic => exact fun l hl => length.symm ▸ hf l hl
  | _ => exact hf

theorem Follows.of_outer (hf : e.Follows S t) (ht : t.IsOuter) : e'.Follows S t := by
  cases t with
  | step s => exact hf
  | ran s => trivial
  | answer a => trivial
  | hold hosts queries => trivial
  | _ => exact absurd ht id

/-- What is left to show of a task that makes no attachment and starts no rule. -/
theorem IsOn.of_news (h : e.IsOn S) (ha : e.agenda = t :: ts) (hplain : e'.IsPlain Config.builtin)
    (hfresh : ∀ r, e'.Fresh r) (hhost : ∃ host, e'.hosts = [host] ∧ host.Follows S e'.queries.length)
    (length : e'.queries.length = e.queries.length)
    (parent : ∀ q, (e'.queryAt q).parent = (e.queryAt q).parent)
    (callbacks : ∀ q, e'.callbacks q = e.callbacks q) (ha' : e'.agenda = news ++ ts)
    (hnews : ∀ t' ∈ news, e.Follows S t') (hpairwise : news.Pairwise (Task.Before S))
    (hfront : ∀ t' ∈ news, ∀ u, t.Before S u → t'.Before S u)
    (hchain : t.chain? = none ∧ ∀ t' ∈ news, t'.chain? = none)
    (hattached : ∀ f ops name, t = .chain f ops name →
      (∀ r, S.rules[f.query]? = some r → (e.callbacks f.query).length = r.attachments.length) ∨
        ∃ f' ops' name', .chain f' ops' name' ∈ news ∧ f'.query = f.query)
    (hbuilding : ∀ f ops name, .chain f ops name ∈ news → (Task.chain f ops name).Builds →
      e'.last? f.query = none)
    (horders : ∀ t' ∈ e'.agenda, ∀ h x on, t'.Orders S h x on →
      ∃ q i b, e'.last? q = some b ∧ S.Wants q i b h x on)
    (hsynced : ∀ q i b h x on, e'.last? q = some b → i < (e'.callbacks q).length →
      S.Wants q i b h x on → (x = .checked → ¬ S.Writes h) →
        (∀ host, e'.host? 0 = some host → host.form.shows h x = some on) ∨
          ∃ t' ∈ e'.agenda, ∃ on', t'.Orders S h x on') : e'.IsOn S := by
  have hstacked := h.stacked
  rw [ha] at hstacked
  obtain ⟨hbelow, hrest⟩ := List.pairwise_cons.1 hstacked
  refine ⟨hplain, hfresh, hhost, fun q s hs => ?_, ?_, fun q r hq hr => ?_,
    fun f ops name hmem hbuilds => ?_, fun t' ht' => ?_, ?_, horders, hsynced⟩
  · have hq : q < e.queries.length := length ▸ (List.getElem?_eq_some_iff.1 hs).1
    obtain ⟨u, hu⟩ : ∃ u, e.query? q = some u := ⟨_, List.getElem?_eq_getElem hq⟩
    have hparent := parent q
    have hcallbacks := callbacks q
    rw [queryAt_eq hs, queryAt_eq hu] at hparent
    simp only [Engine.callbacks, hs, hu, Option.getD_some] at hcallbacks
    obtain ⟨hp, r, hr, hprefix⟩ := h.queries q u hu
    exact ⟨hparent.trans hp, r, hr, hcallbacks ▸ hprefix⟩
  · have hnone : news.filterMap Task.chain? = [] := by
      rw [List.filterMap_eq_nil_iff]
      exact hchain.2
    have hscript := h.script
    rw [ha, List.filterMap_cons, hchain.1] at hscript
    rw [length, ha', List.filterMap_append, hnone, List.nil_append]
    exact hscript
  · rw [length] at hq
    rcases h.attached q r hq hr with hall | ⟨f, ops, name, hmem, rfl⟩
    · exact Or.inl (callbacks q ▸ hall)
    · rw [ha] at hmem
      rcases List.mem_cons.1 hmem with heq | hmem
      · rcases hattached f ops name heq.symm with hall | ⟨f', ops', name', hmem', hq'⟩
        · exact Or.inl (callbacks _ ▸ hall r hr)
        · exact Or.inr ⟨f', ops', name', ha' ▸ List.mem_append_left ts hmem', hq'⟩
      · exact Or.inr ⟨f, ops, name, ha' ▸ List.mem_append_right news hmem, rfl⟩
  · rw [ha'] at hmem
    rcases List.mem_append.1 hmem with hmem | hmem
    · exact hbuilding f ops name hmem hbuilds
    · exact absurd hbuilds (hbelow _ hmem).builds
  · rw [ha'] at ht'
    rcases List.mem_append.1 ht' with ht' | ht'
    · exact Follows.of_marked (hnews t' ht') length callbacks
    · exact Follows.of_marked (h.tasks t' (ha ▸ List.mem_cons_of_mem t ht')) length callbacks
  · rw [ha']
    exact List.pairwise_append.2 ⟨hpairwise, hrest,
      fun t' ht' u hu => hfront t' ht' u (hbelow u hu)⟩

/-- A rule has no callbacks but its attachments. -/
theorem IsOn.length_callbacks_le (h : e.IsOn S) {q : QueryId} {r : SwitchRule}
    (hr : S.rules[q]? = some r) : (e.callbacks q).length ≤ r.attachments.length := by
  cases hs : e.query? q with
  | none => simp [callbacks, hs]
  | some s =>
    obtain ⟨r', hr', hprefix⟩ := (h.queries q s hs).rule
    obtain rfl := Option.some.inj (hr.symm.trans hr')
    simpa [callbacks, hs] using hprefix.length_le

/-- A chain that is through has made all attachments. -/
theorem IsOn.length_callbacks_of_close (h : e.IsOn S) {f : Facet} {name : Option String}
    (hf : e.Follows S (.chain f [] name)) {r : SwitchRule} (hr : S.rules[f.query]? = some r) :
    (e.callbacks f.query).length = r.attachments.length := by
  obtain ⟨-, -, r', hr', hops⟩ := hf
  obtain rfl := Option.some.inj (hr.symm.trans hr')
  refine Nat.le_antisymm (h.length_callbacks_le hr) ?_
  generalize f.kind = kind at hops
  generalize hnil : ([] : List (ChainOp Step)) = ops at hops
  cases hops with
  | condition hc hparts => simp at hnil
  | junction hparts =>
    have hdrop := (List.append_eq_nil_iff.1 hnil.symm).2
    exact List.drop_eq_nil_iff.1 (List.map_eq_nil_iff.1 hdrop)

theorem isOn_unfold (hS : S.IsOrderly) (h : e.IsOn S) (ha : e.agenda = t :: ts)
    (hplain : e'.IsPlain Config.builtin) (hfresh : ∀ r, e'.Fresh r) {host host' : Host}
    (hu : t.Unfolds S e news) (hmarked : e.Marked e') (hhost : e.hosts = [host])
    (hhost' : e'.hosts = [host']) (hfollows : host'.Follows S e'.queries.length)
    (hform : host'.form = host.form) (ha' : e'.agenda = news ++ ts) : e'.IsOn S := by
  have hft : e.Follows S t := h.tasks t (ha ▸ List.mem_cons_self)
  refine h.of_news ha hplain hfresh ⟨host', hhost', hfollows⟩ hmarked.length hmarked.parent
    hmarked.callbacks ha' (fun t' ht' => hu.follows hft ht') (hu.pairwise hS hft)
    (fun t' ht' u hb => hb.of_unfolds hu ht') hu.chain?_eq ?_ ?_ ?_ ?_
  · rintro f ops name rfl
    cases hu with
    | idle hidle => exact absurd hidle id
    | condition hq => exact Or.inr ⟨_, _, _, List.mem_singleton_self _, hq⟩
    | close => exact Or.inl fun r hr => h.length_callbacks_of_close hft hr
  · intro f ops name hmem hbuilds
    rw [hmarked.last]
    obtain ⟨f₀, op, heq, hq⟩ := hu.chain_of_mem hmem
    subst heq
    rw [hq]
    obtain ⟨op', hop', hne⟩ := hbuilds
    exact h.building f₀ (op :: ops) name (ha ▸ List.mem_cons_self)
      ⟨op', List.mem_cons_of_mem op hop', hne⟩
  · intro t' ht' k x on ho
    rw [ha'] at ht'
    have horders : ∃ q i b, e.last? q = some b ∧ S.Wants q i b k x on := by
      rcases List.mem_append.1 ht' with ht' | ht'
      · exact h.orders t (ha ▸ List.mem_cons_self) k x on (hu.orders_of ht' ho)
      · exact h.orders t' (ha ▸ List.mem_cons_of_mem t ht') k x on ho
    obtain ⟨q, i, b, hb, hwants⟩ := horders
    exact ⟨q, i, b, (hmarked.last q).trans hb, hwants⟩
  · intro q i b k x on hb hi hwants hwrites
    rw [hmarked.last] at hb
    rw [hmarked.callbacks] at hi
    rcases h.synced q i b k x on hb hi hwants hwrites with hshows | ⟨t', ht', on', ho⟩
    · refine Or.inl fun y hy => ?_
      obtain rfl : y = host' := Option.some.inj (hy.symm.trans (host?_of_hosts hhost'))
      rw [hform]
      exact hshows host (host?_of_hosts hhost)
    · right
      rw [ha] at ht'
      rcases List.mem_cons.1 ht' with rfl | ht'
      · obtain ⟨t'', ht'', ho'⟩ := hu.orders_to ho
        exact ⟨t'', ha' ▸ List.mem_append_left ts ht'', on', ho'⟩
      · exact ⟨t', ha' ▸ List.mem_append_right news ht', on', ho⟩

/-! ### Changes of the form -/

/-- What is left to show of a task that changes the form and has it notified. -/
theorem IsOn.of_form (h : e.IsOn S) (ha : e.agenda = t :: ts) (hplain : e'.IsPlain Config.builtin)
    (hfresh : ∀ r, e'.Fresh r) {host host' : Host} (hmarked : e.Marked e') (hhost : e.hosts = [host])
    (hhost' : e'.hosts = [host']) (hfollows : host'.Follows S e'.queries.length)
    (ht : t.chain? = none ∧ ∀ f ops name, t ≠ .chain f ops name) (ha' : e'.agenda = news ++ ts)
    (hnews : ∀ t' ∈ news, (∃ a, t' = .answer a) ∨ ∃ changed automatic,
      t' = .notify 0 changed automatic ∧ ∀ k ∈ changed, ∀ j, S.Watches j k → t.Wakes S j)
    (hshows : ∀ q i b k x on, e.last? q = some b → S.Wants q i b k x on →
      (x = .checked → ¬ S.Writes k) → (host.form.shows k x = some on ∨ ∃ on', t.Orders S k x on') →
        host'.form.shows k x = some on) : e'.IsOn S := by
  have hsilent : ∀ t' ∈ news, (∀ k x on, ¬ t'.Orders S k x on) ∧ ¬ t'.Opens ∧ ¬ t'.Builds := by
    intro t' ht'
    rcases hnews t' ht' with ⟨a, rfl⟩ | ⟨changed, automatic, rfl, -⟩
    · exact ⟨fun _ _ _ => id, id, id⟩
    · exact ⟨fun _ _ _ => id, id, id⟩
  have hno : ∀ f ops name, .chain f ops name ∉ news := by
    intro f ops name hmem
    rcases hnews _ hmem with ⟨a, heq⟩ | ⟨changed, automatic, heq, -⟩
    · simp at heq
    · simp at heq
  refine h.of_news ha hplain hfresh ⟨host', hhost', hfollows⟩ hmarked.length hmarked.parent
    hmarked.callbacks ha' (fun t' ht' => ?_) ?_ (fun t' ht' u hb => ?_) ⟨ht.1, fun t' ht' => ?_⟩
    (fun f ops name heq => absurd heq (ht.2 f ops name))
    (fun f ops name hmem => absurd hmem (hno f ops name)) ?_ ?_
  · rcases hnews t' ht' with ⟨a, rfl⟩ | ⟨changed, automatic, rfl, -⟩
    · trivial
    · exact rfl
  · exact List.pairwise_of_forall_mem_list fun t₁ h₁ t₂ h₂ =>
      .of_silent (hsilent t₂ h₂).1 (hsilent t₁ h₁).2.1 (hsilent t₂ h₂).2.2
  · refine ⟨fun j q hw => hb.orders j q ?_, fun hopens => absurd hopens (hsilent t' ht').2.1,
      hb.builds⟩
    rcases hw with hrouses | ⟨k, on, ho, -⟩
    · rcases hnews t' ht' with ⟨a, rfl⟩ | ⟨changed, automatic, rfl, hwakes⟩
      · exact absurd hrouses id
      · obtain ⟨k, hk, hwatches⟩ := hrouses
        exact hwakes k hk j hwatches
    · exact absurd ho ((hsilent t' ht').1 _ _ _)
  · rcases hnews t' ht' with ⟨a, rfl⟩ | ⟨changed, automatic, rfl, -⟩
    · rfl
    · rfl
  · intro t' ht' k x on ho
    rw [ha'] at ht'
    rcases List.mem_append.1 ht' with ht' | ht'
    · exact absurd ho ((hsilent t' ht').1 _ _ _)
    · obtain ⟨q, i, b, hb, hwants⟩ := h.orders t' (ha ▸ List.mem_cons_of_mem t ht') k x on ho
      exact ⟨q, i, b, (hmarked.last q).trans hb, hwants⟩
  · intro q i b k x on hb hi hwants hwrites
    rw [hmarked.last] at hb
    rw [hmarked.callbacks] at hi
    have hnow : (host.form.shows k x = some on ∨ ∃ on', t.Orders S k x on') →
        ∀ y, e'.host? 0 = some y → y.form.shows k x = some on := by
      intro hor y hy
      obtain rfl : y = host' := Option.some.inj (hy.symm.trans (host?_of_hosts hhost'))
      exact hshows q i b k x on hb hwants hwrites hor
    rcases h.synced q i b k x on hb hi hwants hwrites with hbefore | ⟨t', ht', on', ho⟩
    · exact Or.inl (hnow (Or.inl (hbefore host (host?_of_hosts hhost))))
    · rw [ha] at ht'
      rcases List.mem_cons.1 ht' with rfl | ht'
      · exact Or.inl (hnow (Or.inr ⟨on', ho⟩))
      · exact Or.inr ⟨t', ha' ▸ List.mem_append_right news ht', on', ho⟩

/-- An effect carries out an order of a rule in its last state, and no other rule drives the
property. -/
theorem isOn_effect (hS : S.IsOrderly) (h : e.IsOn S) {field : String} {x : Effect} {on : Bool}
    {skip answers : Bool} (ha : e.agenda = .effect 0 field x (.ofBool on) skip answers :: ts)
    (hplain : e'.IsPlain Config.builtin) (hfresh : ∀ r, e'.Fresh r) {host host' : Host}
    {more : List Task} (hmarked : e.Marked e') (hhost : e.hosts = [host])
    (hhost' : e'.hosts = [host']) (hfollows : host'.Follows S e'.queries.length)
    (hform : host'.form = (host.form.apply (S.form.pick (Spec.lenient field)) x (.ofBool on)).1)
    (hmore : ∀ t ∈ more, ∃ a, t = .answer a)
    (ha' : e'.agenda = .notify 0
      (host.form.apply (S.form.pick (Spec.lenient field)) x (.ofBool on)).2 true :: (more ++ ts)) :
    e'.IsOn S := by
  have hft : e.Follows S (.effect 0 field x (.ofBool on) skip answers) :=
    h.tasks _ (ha ▸ List.mem_cons_self)
  obtain ⟨-, hx, -, r, hr, c, hc, rfl, hswitch⟩ := hft
  have hhostFollows : host.Follows S e.queries.length := by
    obtain ⟨y, hy, hyFollows⟩ := h.host
    obtain rfl : y = host := by simpa using hy.symm.trans hhost
    exact hyFollows
  have hplainForm : host.form.IsPlain := hS.plain.of_kinds hhostFollows.kinds
  refine h.of_form (t := .effect 0 c.args.field x (.ofBool on) skip answers) ha hplain hfresh hmarked
    hhost hhost' hfollows ⟨rfl, fun _ _ _ h => Task.noConfusion h⟩
    (show e'.agenda = (.notify 0 _ true :: more) ++ ts from ha') (fun t' ht' => ?_) ?_
  · rcases List.mem_cons.1 ht' with rfl | ht'
    · exact Or.inr ⟨_, true, rfl, fun k hk j hwatches => Task.wakes_of_changed hk hwatches⟩
    · exact Or.inl (hmore t' ht')
  · intro q i b k y on₁ hb hwants hwrites hor
    have hy : y ≠ .optionVisible := hwants.ne_optionVisible hS
    have hbox : x = .checked → ∀ k ∈ S.form.pick (Spec.lenient c.args.field), host.form.isBox k := by
      intro hchecked k hk kind hkind
      exact hS.boxes r hr c hc k ⟨hk, hchecked ▸ hswitch⟩ kind (hhostFollows.kinds ▸ hkind)
    rw [hform, Form.shows_apply hplainForm hx hy on hbox]
    split
    · next hkey =>
      obtain ⟨hk, rfl⟩ := hkey
      have ho : (Task.effect 0 c.args.field y (.ofBool on) skip answers).Orders S k y on :=
        Task.orders_effect.2 ⟨hk, rfl, rfl⟩
      obtain ⟨q', i', b', hb', hwants'⟩ := h.orders _ (ha ▸ List.mem_cons_self) k y on ho
      obtain ⟨rfl, hsame⟩ := hS.unique hwants hwants'
      obtain rfl : b = b' := Option.some.inj (hb.symm.trans hb')
      obtain ⟨f, hf⟩ := Form.exists_field_of_mem_pick hk
      obtain ⟨g, hg, -⟩ := hhostFollows.fields.field hf
      rw [hsame rfl, Form.shows, hg]
      rfl
    · next hkey =>
      rcases hor with hshows | ⟨on', ho⟩
      · exact hshows
      · obtain ⟨hk, rfl, -⟩ := Task.orders_effect.1 ho
        exact absurd ⟨hk, rfl⟩ hkey

/-- A write leaves what rules drive, unless it is to the boxes that they check. -/
theorem isOn_write (hS : S.IsOrderly) (h : e.IsOn S) {field : String} {v : Value} {automatic : Bool}
    (ha : e.agenda = .write 0 field v automatic :: ts) (hplain : e'.IsPlain Config.builtin)
    (hfresh : ∀ r, e'.Fresh r) {host host' : Host} (hmarked : e.Marked e') (hhost : e.hosts = [host])
    (hhost' : e'.hosts = [host']) (hfollows : host'.Follows S e'.queries.length)
    (hform : host'.form = (host.form.write (host.form.pick (Spec.lenient field)) v).1)
    (ha' : e'.agenda = .notify 0 (host.form.write (host.form.pick (Spec.lenient field)) v).2
      automatic :: ts) : e'.IsOn S := by
  have hft : e.Follows S (.write 0 field v automatic) := h.tasks _ (ha ▸ List.mem_cons_self)
  obtain ⟨-, v', automatic', hcall⟩ := hft
  obtain ⟨y, hy, hhostFollows⟩ := h.host
  obtain rfl : y = host := by simpa using hy.symm.trans hhost
  refine h.of_form ha hplain hfresh hmarked hhost hhost' hfollows
    ⟨rfl, fun _ _ _ h => Task.noConfusion h⟩
    (show e'.agenda = [.notify 0 _ automatic] ++ ts from ha') (fun t' ht' => ?_) ?_
  · obtain rfl := List.mem_singleton.1 ht'
    exact Or.inr ⟨_, automatic, rfl, fun k hk j hwatches => Or.inl trivial⟩
  · intro q i b k x on hb hwants hwrites hor
    have hmiss : x = .checked → k ∉ y.form.pick (Spec.lenient field) := by
      intro hchecked hk
      refine hwrites hchecked ⟨field, v', automatic', hcall, ?_⟩
      rw [← hhostFollows.fields.pick_trigger]
      exact Form.pick_subset_trigger hk
    rw [hform, Form.shows_write v (hS.plain.of_kinds hhostFollows.kinds) (hwants.ne_optionVisible hS)
      hmiss]
    exact hor.resolve_right fun ⟨on', ho⟩ => ho

/-! ### Rounds -/

/-- A rule that comes to another state has no orders of its old state left. An order for its old
state cannot stand below its own trigger. -/
theorem isOn_fire (h : e.IsOn S) {q : QueryId} {b skip : Bool} (ha : e.agenda = .trigger q :: ts)
    (hplain : e'.IsPlain Config.builtin) (hfresh : ∀ r, e'.Fresh r)
    (length : e'.queries.length = e.queries.length)
    (parent : ∀ p, (e'.queryAt p).parent = (e.queryAt p).parent)
    (callbacks : ∀ p, e'.callbacks p = e.callbacks p)
    (last : ∀ p, e'.last? p = if p = q then some b else e.last? p) (hhosts : e'.hosts = e.hosts)
    (ha' : e'.agenda = .round q b skip (List.range (e.callbacks q).length) :: ts) : e'.IsOn S := by
  obtain ⟨host, hhost, hfollows⟩ := h.host
  have hstacked := h.stacked
  rw [ha] at hstacked
  have hbelow : ∀ u ∈ ts, (Task.trigger q).Before S u :=
    fun u hu => List.rel_of_pairwise_cons hstacked hu
  have hnews : e'.agenda = [.round q b skip (List.range (e.callbacks q).length)] ++ ts := ha'
  refine h.of_news ha hplain hfresh ⟨host, hhosts.trans hhost, length.symm ▸ hfollows⟩ length parent
    callbacks hnews ?_
    (List.pairwise_singleton _ _) ?_ ⟨rfl, by simp [Task.chain?]⟩ (fun _ _ _ h => Task.noConfusion h)
    (fun f ops name hmem => by simp at hmem) ?_ ?_
  · intro t' ht'
    obtain rfl := List.mem_singleton.1 ht'
    exact fun i hi => List.mem_range.1 hi
  · intro t' ht' u hb
    obtain rfl := List.mem_singleton.1 ht'
    refine ⟨fun j q' hw hreach => ?_, fun hopens => absurd hopens id, hb.builds⟩
    rcases hw with hrouses | ⟨k, on, ⟨i, -, hwants⟩, hwatches⟩
    · exact absurd hrouses id
    · obtain ⟨r, hr, c, hc, hd, -⟩ := hwants.exists_command
      exact hb.orders q q' (Or.inl rfl) (.head ⟨r, hr, c, hc, k, hd, hwatches⟩ hreach)
  · intro t' ht' k x on ho
    rw [ha'] at ht'
    rcases List.mem_cons.1 ht' with rfl | hmem
    · obtain ⟨i, -, hwants⟩ := ho
      exact ⟨q, i, b, (last q).trans (if_pos rfl), hwants⟩
    · obtain ⟨q', i, b', hb', hwants⟩ := h.orders t' (ha ▸ List.mem_cons_of_mem _ hmem) k x on ho
      have hne : q' ≠ q := by
        rintro rfl
        exact (hbelow t' hmem).orders q' q' (Or.inl rfl) .refl i b' k x on hwants on ho
      exact ⟨q', i, b', (last q').trans ((if_neg hne).trans hb'), hwants⟩
  · intro q' i b' k x on hb' hi hwants hwrites
    rw [last] at hb'
    rw [callbacks] at hi
    split at hb'
    · next heq =>
      subst heq
      obtain rfl := Option.some.inj hb'
      have ho : (Task.round q' b skip (List.range (e.callbacks q').length)).Orders S k x on :=
        ⟨i, List.mem_range.2 hi, hwants⟩
      exact Or.inr ⟨_, ha' ▸ List.mem_cons_self, on, ho⟩
    · rcases h.synced q' i b' k x on hb' hi hwants hwrites with hshows | ⟨t', ht', on', ho⟩
      · exact Or.inl fun y hy => hshows y (by rw [host?, ← hhosts]; exact hy)
      · rw [ha] at ht'
        rcases List.mem_cons.1 ht' with rfl | ht'
        · exact absurd ho id
        · exact Or.inr ⟨t', ha' ▸ List.mem_cons_of_mem _ ht', on', ho⟩

/-! ### Attachments -/

/-- What is left to show when a rule is started or goes on, as nothing but such tasks is below. -/
theorem IsOn.of_outer_below (h : e.IsOn S) (ha : e.agenda = t :: ts) (hopens : t.Opens)
    (ht : ∀ k x on, ¬ t.Orders S k x on) (hplain : e'.IsPlain Config.builtin)
    (hfresh : ∀ r, e'.Fresh r) {host host' : Host} (hhost : e.hosts = [host])
    (hhost' : e'.hosts = [host']) (hfollows : host'.Follows S e'.queries.length)
    (hform : host'.form = host.form) (parent : ∀ p, (e'.queryAt p).parent = (e.queryAt p).parent)
    (last : ∀ p, e'.last? p = e.last? p) (ha' : e'.agenda = news ++ ts)
    (hcallbacks : ∀ q < e'.queries.length, ∃ r, S.rules[q]? = some r ∧
      e'.callbacks q <+: r.attachments.map Attachment.callback)
    (hscript : (S.rules.drop e'.queries.length).map SwitchRule.chain =
      news.filterMap Task.chain? ++ ts.filterMap Task.chain?)
    (hattached : ∀ q < e'.queries.length, ((∀ f ops name, t = .chain f ops name → f.query ≠ q) ∧
      q < e.queries.length ∧ e'.callbacks q = e.callbacks q) ∨
        ∃ f ops name, .chain f ops name ∈ news ∧ f.query = q)
    (hbuilding : ∀ f ops name, .chain f ops name ∈ news → (Task.chain f ops name).Builds →
      e.last? f.query = none)
    (htasks : ∀ t' ∈ news, e'.Follows S t') (hpairwise : news.Pairwise (Task.Before S))
    (horders : ∀ t' ∈ news, ∀ k x on, t'.Orders S k x on →
      ∃ q i b, e.last? q = some b ∧ S.Wants q i b k x on)
    (hsynced : ∀ q i b k x on, e.last? q = some b → ¬ i < (e.callbacks q).length →
      i < (e'.callbacks q).length → S.Wants q i b k x on →
        ∃ t' ∈ news, ∃ on', t'.Orders S k x on') : e'.IsOn S := by
  have hstacked := h.stacked
  rw [ha] at hstacked
  obtain ⟨hbelow, hrest⟩ := List.pairwise_cons.1 hstacked
  have houter : ∀ u ∈ ts, u.IsOuter := fun u hu => (hbelow u hu).outer hopens
  have hsilent : ∀ u ∈ ts, ∀ k x on, ¬ u.Orders S k x on :=
    fun u hu => Task.not_orders_of_isOuter (houter u hu)
  refine ⟨hplain, hfresh, ⟨host', hhost', hfollows⟩, fun q s hs => ?_, ?_, fun q r hq hr => ?_,
    fun f ops name hmem hbuilds => ?_, fun t' ht' => ?_, ?_, fun t' ht' k x on ho => ?_,
    fun q i b k x on hb hi hwants hwrites => ?_⟩
  · obtain ⟨r, hr, hprefix⟩ := hcallbacks q (List.getElem?_eq_some_iff.1 hs).1
    have hroot : (e.queryAt q).parent = none := by
      cases hu : e.query? q with
      | none => simp [queryAt, hu]
      | some u => rw [queryAt_eq hu]; exact (h.queries q u hu).parent
    have hparent := parent q
    rw [queryAt_eq hs, hroot] at hparent
    exact ⟨hparent, r, hr, by simpa [Engine.callbacks, hs] using hprefix⟩
  · rw [ha', List.filterMap_append, hscript]
  · rcases hattached q hq with ⟨hne, hlt, hsame⟩ | ⟨f, ops, name, hmem, hf⟩
    · rcases h.attached q r hlt hr with hall | ⟨f, ops, name, hmem, hf⟩
      · exact Or.inl (hsame ▸ hall)
      · rw [ha] at hmem
        rcases List.mem_cons.1 hmem with heq | hmem
        · exact absurd hf (hne f ops name heq.symm)
        · exact absurd (houter _ hmem) id
    · exact Or.inr ⟨f, ops, name, ha' ▸ List.mem_append_left ts hmem, hf⟩
  · rw [ha'] at hmem
    rw [last]
    rcases List.mem_append.1 hmem with hmem | hmem
    · exact hbuilding f ops name hmem hbuilds
    · exact absurd (houter _ hmem) id
  · rw [ha'] at ht'
    rcases List.mem_append.1 ht' with ht' | ht'
    · exact htasks t' ht'
    · exact (h.tasks t' (ha ▸ List.mem_cons_of_mem t ht')).of_outer (houter t' ht')
  · rw [ha']
    exact List.pairwise_append.2 ⟨hpairwise, hrest, fun t' _ u hu => .of_isOuter (houter u hu)⟩
  · rw [ha'] at ht'
    rcases List.mem_append.1 ht' with ht' | ht'
    · obtain ⟨q, i, b, hb, hwants⟩ := horders t' ht' k x on ho
      exact ⟨q, i, b, (last q).trans hb, hwants⟩
    · exact absurd ho (hsilent t' ht' k x on)
  · rw [last] at hb
    by_cases hold : i < (e.callbacks q).length
    · rcases h.synced q i b k x on hb hold hwants hwrites with hshows | ⟨t', ht', on', ho⟩
      · refine Or.inl fun y hy => ?_
        obtain rfl : y = host' := Option.some.inj (hy.symm.trans (host?_of_hosts hhost'))
        rw [hform]
        exact hshows host (host?_of_hosts hhost)
      · rw [ha] at ht'
        rcases List.mem_cons.1 ht' with rfl | ht'
        · exact absurd ho (ht k x on')
        · exact absurd ho (hsilent t' ht' k x on')
    · obtain ⟨t', ht', on', ho⟩ := hsynced q i b k x on hb hold hi hwants
      exact Or.inr ⟨t', ha' ▸ List.mem_append_left ts ht', on', ho⟩

/-- The callbacks of every rule are the first of its attachments. -/
theorem IsOn.callbacks_prefix (h : e.IsOn S) {q : QueryId} (hq : q < e.queries.length) :
    ∃ r, S.rules[q]? = some r ∧ e.callbacks q <+: r.attachments.map Attachment.callback := by
  obtain ⟨s, hs⟩ : ∃ s, e.query? q = some s := ⟨_, List.getElem?_eq_getElem hq⟩
  obtain ⟨r, hr, hprefix⟩ := (h.queries q s hs).rule
  exact ⟨r, hr, by simpa [callbacks, hs] using hprefix⟩

theorem not_builds_of_attachments {f : Facet} {attachments : List Attachment}
    {name : Option String} : ¬ (Task.chain f (attachments.map Attachment.op) name).Builds := by
  rintro ⟨op, hop, hne⟩
  obtain ⟨a, -, rfl⟩ := List.mem_map.1 hop
  exact hne a rfl

/-- An attachment hears of the present state of its rule. -/
theorem isOn_attach (h : e.IsOn S) {f : Facet} {a : Attachment} {ops : List (ChainOp Step)}
    {name : Option String} (ha : e.agenda = .chain f (a.op :: ops) name :: ts)
    (hplain : e'.IsPlain Config.builtin) (hfresh : ∀ r, e'.Fresh r) {r : SwitchRule} {first : Task}
    (hr : S.rules[f.query]? = some r) (hget : r.attachments[(e.callbacks f.query).length]? = some a)
    (hops : ops = (r.attachments.drop ((e.callbacks f.query).length + 1)).map Attachment.op)
    (length : e'.queries.length = e.queries.length)
    (parent : ∀ p, (e'.queryAt p).parent = (e.queryAt p).parent)
    (callbacks : ∀ p, e'.callbacks p =
      if p = f.query then e.callbacks p ++ [a.callback] else e.callbacks p)
    (last : ∀ p, e'.last? p = e.last? p) (hhosts : e'.hosts = e.hosts)
    (hfirst : (e.last? f.query = none ∧ first = .trigger f.query) ∨
      ∃ b, e.last? f.query = some b ∧ first = .deliver f.query (e.callbacks f.query).length b true)
    (ha' : e'.agenda = first :: .chain ⟨.junction, f.host, f.query⟩ ops name :: ts) : e'.IsOn S := by
  obtain ⟨host, hhost, hfollows⟩ := h.host
  obtain ⟨hf, hquery, -⟩ : e.Follows S (.chain f (a.op :: ops) name) :=
    h.tasks _ (ha ▸ List.mem_cons_self)
  have hlt : f.query < e.queries.length := Nat.lt_of_succ_le (Nat.le_of_eq hquery)
  have hgrown : (e'.callbacks f.query).length = (e.callbacks f.query).length + 1 := by
    rw [callbacks, if_pos rfl, List.length_append, List.length_singleton]
  have hnews : e'.agenda = [first, .chain ⟨.junction, f.host, f.query⟩ ops name] ++ ts := ha'
  refine h.of_outer_below ha trivial (fun _ _ _ => id) hplain hfresh hhost (hhosts.trans hhost)
    (length.symm ▸ hfollows) rfl parent last hnews (fun q hq => ?_) ?_ (fun q hq => ?_)
    (fun f' ops' name' hmem hbuilds => ?_) (fun t' ht' => ?_) ?_
    (fun t' ht' k x on ho => ?_) fun q i b k x on hb hold hi hwants => ?_
  · obtain ⟨r', hr', hprefix⟩ := h.callbacks_prefix (length ▸ hq)
    refine ⟨r', hr', ?_⟩
    rw [callbacks]
    split
    · next heq =>
      subst heq
      obtain rfl := Option.some.inj (hr.symm.trans hr')
      rw [List.prefix_iff_eq_take] at hprefix
      rw [List.prefix_iff_eq_take, List.length_append, List.length_singleton,
        List.take_add_one, ← hprefix, List.getElem?_map, hget]
      rfl
    · exact hprefix
  · have hscript := h.script
    rw [ha, List.filterMap_cons] at hscript
    rw [length, hscript]
    rcases hfirst with ⟨-, rfl⟩ | ⟨b, -, rfl⟩ <;> rfl
  · by_cases heq : q = f.query
    · exact Or.inr ⟨_, ops, name, List.mem_cons_of_mem _ List.mem_cons_self, heq.symm⟩
    · refine Or.inl ⟨fun f' ops' name' hchain hf' => ?_, length ▸ hq,
        (callbacks q).trans (if_neg heq)⟩
      obtain ⟨rfl, -⟩ := Task.chain.inj hchain
      exact heq hf'.symm
  · simp only [List.mem_cons, List.not_mem_nil, or_false] at hmem
    rcases hmem with rfl | heq
    · rcases hfirst with ⟨-, hfirst⟩ | ⟨b, -, hfirst⟩ <;> simp at hfirst
    · obtain ⟨rfl, rfl, rfl⟩ := Task.chain.inj heq
      exact absurd (hops ▸ hbuilds) not_builds_of_attachments
  · simp only [List.mem_cons, List.not_mem_nil, or_false] at ht'
    rcases ht' with rfl | rfl
    · rcases hfirst with ⟨-, rfl⟩ | ⟨b, -, rfl⟩
      · exact Nat.lt_of_lt_of_eq hlt length.symm
      · exact Nat.lt_of_lt_of_eq (Nat.lt_succ_self _) hgrown.symm
    · refine ⟨hf, hquery.trans length.symm, r, hr, ?_⟩
      have hcontinues : r.Continues ((e.callbacks f.query).length + 1) .junction
          (([] : List Part).flatMap Part.ops ++
            (r.attachments.drop ((e.callbacks f.query).length + 1)).map Attachment.op) :=
        .junction (by simp)
      rw [hgrown, hops]
      exact hcontinues
  · refine List.pairwise_pair.2 (.of_silent (fun _ _ _ => id) ?_ (hops ▸ not_builds_of_attachments))
    rcases hfirst with ⟨-, rfl⟩ | ⟨b, -, rfl⟩ <;> exact id
  · simp only [List.mem_cons, List.not_mem_nil, or_false] at ht'
    rcases ht' with rfl | rfl
    · rcases hfirst with ⟨-, rfl⟩ | ⟨b, hb, rfl⟩
      · exact absurd ho id
      · exact ⟨f.query, _, b, hb, ho⟩
    · exact absurd ho id
  · rw [callbacks] at hi
    split at hi
    · next heq =>
      subst heq
      rcases hfirst with ⟨hnone, -⟩ | ⟨b', hb', rfl⟩
      · simp [hnone] at hb
      · obtain rfl := Option.some.inj (hb.symm.trans hb')
        have hi' : i = (e.callbacks f.query).length := by
          rw [List.length_append, List.length_singleton] at hi
          omega
        exact ⟨_, List.mem_cons_self, on, hi' ▸ hwants⟩
    · exact absurd hi hold

theorem chain_continues (r : SwitchRule) : r.Continues 0 .condition r.chain :=
  .condition List.mem_cons_self fun p hp =>
    List.mem_cons_of_mem _ (List.mem_map.2 ⟨p, hp, rfl⟩)

theorem isOn_start (h : e.IsOn S) {r : SwitchRule} {name : Option String}
    (ha : e.agenda = .step (.rule r.chain name none) :: ts) (hplain : e'.IsPlain Config.builtin)
    (hfresh : ∀ r, e'.Fresh r) {host host' : Host} (hr : S.rules[e.queries.length]? = some r)
    (length : e'.queries.length = e.queries.length + 1)
    (queries : ∀ p, e'.queryAt p = e.queryAt p) (hhost : e.hosts = [host])
    (hhost' : e'.hosts = [host']) (hfollows : host'.Follows S e'.queries.length)
    (hform : host'.form = host.form)
    (ha' : e'.agenda = .chain ⟨.condition, 0, e.queries.length⟩ r.chain name :: .hold [0] [] :: ts) :
    e'.IsOn S := by
  have hcallbacks : ∀ p, e'.callbacks p = e.callbacks p :=
    fun p => congrArg Query.callbacks (queries p)
  have hnew : e.queryAt e.queries.length = {} := by
    rw [queryAt, query?, List.getElem?_eq_none (Nat.le_refl _)]
    rfl
  have hempty : e.callbacks e.queries.length = [] := congrArg Query.callbacks hnew
  have hnews : e'.agenda =
      [.chain ⟨.condition, 0, e.queries.length⟩ r.chain name, .hold [0] []] ++ ts := ha'
  refine h.of_outer_below ha trivial (fun _ _ _ => id) hplain hfresh hhost hhost' hfollows hform
    (fun p => congrArg Query.parent (queries p)) (fun p => congrArg Query.last (queries p)) hnews
    (fun q hq => ?_) ?_ (fun q hq => ?_) (fun f' ops' name' hmem _ => ?_) (fun t' ht' => ?_)
    (List.pairwise_pair.2 (.of_isOuter trivial)) (fun t' ht' k x on ho => ?_)
    fun q i b k x on hb hold hi hwants => absurd (hcallbacks q ▸ hi) hold
  · rw [hcallbacks]
    rcases Nat.lt_or_eq_of_le (Nat.le_of_lt_succ (length ▸ hq)) with hlt | rfl
    · exact h.callbacks_prefix hlt
    · exact ⟨r, hr, hempty ▸ List.nil_prefix⟩
  · have hscript := h.script
    obtain ⟨hlt, rfl⟩ := List.getElem?_eq_some_iff.1 hr
    rw [ha, List.drop_eq_getElem_cons hlt, List.map_cons] at hscript
    rw [length]
    exact (List.cons.inj hscript).2
  · rcases Nat.lt_or_eq_of_le (Nat.le_of_lt_succ (length ▸ hq)) with hlt | rfl
    · exact Or.inl ⟨fun _ _ _ h => Task.noConfusion h, hlt, hcallbacks q⟩
    · exact Or.inr ⟨_, _, _, List.mem_cons_self, rfl⟩
  · simp only [List.mem_cons, List.not_mem_nil, or_false, reduceCtorEq] at hmem
    obtain ⟨rfl, -⟩ := Task.chain.inj hmem
    exact congrArg Query.last hnew
  · simp only [List.mem_cons, List.not_mem_nil, or_false] at ht'
    rcases ht' with rfl | rfl
    · refine ⟨rfl, length.symm, r, hr, ?_⟩
      rw [hcallbacks, hempty]
      exact chain_continues r
    · trivial
  · simp only [List.mem_cons, List.not_mem_nil, or_false] at ht'
    rcases ht' with rfl | rfl <;> exact absurd ho id

/-! ## Runs -/

/-- Whoever adds a condition to a rule finds it without a result. -/
theorem IsOn.last?_of_addsTo (h : e.IsOn S) {q : QueryId} (hq : e.addsTo q = true) :
    e.last? q = none := by
  unfold addsTo at hq
  split at hq
  · next f op ops name ts ha =>
    rw [Bool.and_eq_true, beq_iff_eq] at hq
    obtain ⟨hadds, hroot⟩ := hq
    rw [root_of_parent fun s hs => (h.queries _ s hs).parent] at hroot
    rw [← hroot]
    refine h.building f (op :: ops) name (ha ▸ List.mem_cons_self) ⟨op, List.mem_cons_self, ?_⟩
    rintro a rfl
    simp [Attachment.op, Facet.adds] at hadds
  · simp at hq

/-- A step of a run on an orderly sheet. -/
theorem IsOn.step (hS : S.IsOrderly) (h : e.IsOn S) : e.step.IsOn S := by
  have hplain : e.step.IsPlain Config.builtin := h.plain.step Draft.build_withDefaults
  have hfresh : ∀ r, e.step.Fresh r := fun r =>
    (h.fresh r).step Draft.build_withDefaults h.plain (fun s hs => (h.queries r s hs).parent)
      h.last?_of_addsTo
  cases ha : e.agenda with
  | nil => simpa [Engine.step, ha] using h
  | cons t ts =>
    have hturn := turn hS h ha
    generalize e.step = e' at hplain hfresh hturn
    cases hturn with
    | unfold hu hmarked hhost hhost' hfollows hform ha' =>
      exact isOn_unfold hS h ha hplain hfresh hu hmarked hhost hhost' hfollows hform ha'
    | effect hmarked hhost hhost' hfollows hform hmore ha' =>
      exact isOn_effect hS h ha hplain hfresh hmarked hhost hhost' hfollows hform hmore ha'
    | write hmarked hhost hhost' hfollows hform ha' =>
      exact isOn_write hS h ha hplain hfresh hmarked hhost hhost' hfollows hform ha'
    | fire length parent callbacks last hhosts ha' =>
      exact isOn_fire h ha hplain hfresh length parent callbacks last hhosts ha'
    | attach hr hget hops length parent callbacks last hhosts hfirst ha' =>
      exact isOn_attach h ha hplain hfresh hr hget hops length parent callbacks last hhosts hfirst
        ha'
    | start hr length queries hhost hhost' hfollows hform ha' =>
      exact isOn_start h ha hplain hfresh hr length queries hhost hhost' hfollows hform ha'

theorem IsOn.run (hS : S.IsOrderly) (h : e.IsOn S) (n : Nat) : (e.run n).IsOn S := by
  induction n with
  | zero => exact h
  | succ n ih =>
    rw [run_succ']
    exact ih.step hS

theorem isOuter_ofScript {steps : List Step} : ∀ t ∈ Task.ofScript steps, t.IsOuter := by
  intro t ht
  obtain ⟨s, -, ht⟩ := List.mem_flatMap.1 ht
  simp only [List.mem_cons, List.not_mem_nil, or_false] at ht
  rcases ht with rfl | rfl <;> trivial

/-- The script of a sheet builds its rules. -/
theorem chains_ofScript (S : Sheet) :
    (Task.ofScript S.steps).filterMap Task.chain? = S.rules.map SwitchRule.chain := by
  unfold Sheet.steps Sheet.rules
  induction S.calls with
  | nil => rfl
  | cons c calls ih =>
    have hcons : Task.ofScript ((c :: calls).map Call.step) =
        .step c.step :: .ran c.step.name :: Task.ofScript (calls.map Call.step) := rfl
    rw [hcons]
    cases c with
    | rule r name => exact congrArg (List.cons r.chain) ih
    | write field v automatic => exact ih

/-- The calls of a sheet are plain steps. -/
theorem isPlain_steps (hS : S.IsOrderly) : ∀ s ∈ S.steps, s.IsPlain Config.builtin.evaluations := by
  have hreports : ∀ name ∈ switchNames, name ∈ reportingNames := by decide +kernel
  intro s hs
  obtain ⟨c, hc, rfl⟩ := List.mem_map.1 hs
  cases c with
  | write field v automatic => exact .write field v automatic
  | rule r name =>
    have hr : r ∈ S.rules := List.mem_filterMap.2 ⟨_, hc, rfl⟩
    have hwhen : ∀ c ∈ r.conditions, (ChainOp.when (.value c.1) (some c.2)).IsPlain
        Config.builtin.evaluations := fun c hc =>
      .when (hS.conditions r hr c hc).1 (hS.conditions r hr c hc).2
    refine .rule fun op hop => ?_
    rcases List.mem_cons.1 hop with rfl | hop
    · exact hwhen (r.condition, r.field) List.mem_cons_self
    · rcases List.mem_append.1 hop with hop | hop
      · obtain ⟨p, hp, hop⟩ := List.mem_flatMap.1 hop
        simp only [Part.ops, List.mem_cons, List.not_mem_nil, or_false] at hop
        rcases hop with rfl | rfl
        · cases p.isOr
          · exact .and
          · exact .or
        · exact hwhen (p.condition, p.field) (List.mem_cons_of_mem _ (List.mem_map.2 ⟨p, hp, rfl⟩))
      · obtain ⟨a, ha, rfl⟩ := List.mem_map.1 hop
        refine .attach fun token htoken => ?_
        obtain ⟨name, hname, rfl⟩ := List.mem_map.1 htoken
        exact .named (hreports name (hS.mem_switchNames hr ha htoken))

/-- A new engine on an orderly sheet. -/
theorem isOn_running (hS : S.IsOrderly) (watched : Bool) :
    (running .builtin S.form watched S.steps).IsOn S := by
  have hqueries : (running .builtin S.form watched S.steps).queries = [] := rfl
  have hlast : ∀ q, (running .builtin S.form watched S.steps).last? q = none := fun q => by
    simp [last?, queryAt, query?, hqueries]
  have houter : ∀ t ∈ Task.ofScript S.steps, t.IsOuter := isOuter_ofScript
  refine ⟨isPlain_onForm Draft.build_withDefaults S.form watched (isPlain_steps hS),
    fun r => fresh_of_none (by simp [query?, hqueries]), ⟨_, rfl, ?_⟩,
    fun q s hs => by simp [query?, hqueries] at hs, ?_, fun q r hq _ => by simp [hqueries] at hq,
    fun f ops name hmem _ => absurd (houter _ hmem) id, fun t ht => ?_, ?_,
    fun t ht k x on ho => absurd ho (Task.not_orders_of_isOuter (houter t ht) k x on),
    fun q i b k x on hb => by simp [hlast] at hb⟩
  · exact ⟨rfl, .refl _, rfl, Resolver.isPaired_new S.form watched, by simp [Host.new]⟩
  · exact (chains_ofScript S).symm
  · obtain ⟨s, hs, ht⟩ := List.mem_flatMap.1 ht
    obtain ⟨c, hc, rfl⟩ := List.mem_map.1 hs
    simp only [List.mem_cons, List.not_mem_nil, or_false] at ht
    rcases ht with rfl | rfl
    · exact ⟨c, hc, rfl⟩
    · trivial
  · exact List.pairwise_of_forall_mem_list fun t _ u hu => .of_isOuter (houter u hu)

end Engine

end FormRules

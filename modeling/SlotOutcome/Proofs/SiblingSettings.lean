import Mathlib.Data.List.Nodup
import SlotOutcome.Proofs.Lockstep
import SlotOutcome.Proofs.ReadKeys

/-!
# The settings of siblings

Features that are called one after another by a caller that collates all work on its bag. The
defaults of each definition stay in the bag for its later siblings, and there they count before the
defaults of these. So a feature finds under a key what the first of its siblings so far says that
has the key, unless the caller has it. Features of different types have different keys, so each of
them finds its own settings, but for the two triggers: of these the second one looks for the symbols
of the first.

## Main definitions

* `Effect.HasKeys`: definitions with settings of their own type only.
* `firstSetting`: what the first of some definitions with a key says.
* `Definition.SharesKey`: the two triggers.
* `Visit.WorksAlone`: a feature that does what it would do with its own settings alone.

## Main results

* `Effect.run_childless`: what a feature without children does to its bag.
* `fireAll_settings`: the settings that siblings find, one by one.
* `trigger_settings`: each sibling finds its own settings, except for a second trigger.
-/

namespace SlotOutcome

/-- What stands under a key is among the keys. -/
theorem Members.mem_keys_of_get? {key : String} {value : Json} :
    {above : Option String} → (m : Members above) → m.get? key = some value → key ∈ m.keys
  | _, .cons k v _ rest, h => by
    rw [get?] at h
    rw [keys, toList, List.map_cons]
    split at h
    · next heq =>
      rw [heq]
      exact List.mem_cons_self
    · exact List.mem_cons_of_mem k (mem_keys_of_get? rest h)

/-- A definition of a type of feature with no settings but those of this type. -/
def Effect.HasKeys (e : Effect) (d : Definition) : Prop :=
  ∀ key ∈ d.params.keys, key ∈ e.keys ∨ key ∈ Key.context

instance (e : Effect) (d : Definition) : Decidable (e.HasKeys d) :=
  inferInstanceAs (Decidable (∀ key ∈ d.params.keys, key ∈ e.keys ∨ key ∈ Key.context))

/-- What the first of some definitions with a key says. -/
def firstSetting (ds : List Definition) (key : String) : Option Json :=
  ds.findSome? (·.params.get? key)

/-- A counter that was triggered may have raised a flag under a key. -/
def MayBeRaised (visits : List Visit) (key : String) : Prop :=
  ∃ v ∈ visits, v.node.tag = "Counter" ∧ v.bag.MayRaise key

theorem MayBeRaised.mono {visits visits' : List Visit} {key : String} (h : MayBeRaised visits key)
    (hsubset : visits ⊆ visits') : MayBeRaised visits' key := by
  obtain ⟨v, hv, hraise⟩ := h
  exact ⟨v, hsubset hv, hraise⟩

section Siblings

variable {σ : Type} [RandomSource σ]

/-! ### Features without children -/

theorem atomic_leaves {d : Definition} {e : Effect} (he : e ≠ .setParams) {α : Type}
    {act act' : RoundState → Bag → PlanM σ (α × RoundState × Bag)} (hatom : Atom d e act act')
    {p q : Pass σ} {r : Except FeatureError α} (hrun : atomic act p = (r, q)) :
    q.visits = p.visits ∧ e.Leaves p.bag q.bag := by
  rw [atomic] at hrun
  rcases hact : act p.state p.bag p.source with ⟨error | ⟨a, s, bag⟩, source⟩ <;>
    rw [hact] at hrun <;> cases hrun
  · exact ⟨rfl, .refl e p.bag⟩
  · exact ⟨rfl, hatom.leaves p.state p.bag he _ ⟨p.source, source, hact⟩⟩

/-- Nothing is triggered, and only some keys of the bag may change. -/
def quiet (σ : Type) (writes : List String) : Lockstep σ σ where
  Rel m _ := ∀ p r q, m p = (r, q) →
    q.visits = p.visits ∧ ∀ key ∉ writes, q.bag.get? key = p.bag.get? key
  pure _ p r q hrun := by
    cases hrun
    exact ⟨rfl, fun _ _ => rfl⟩
  throw _ p r q hrun := by
    cases hrun
    exact ⟨rfl, fun _ _ => rfl⟩
  bind {α β m m' f f'} h hf p r q hrun := by
    rw [bind_run] at hrun
    rcases hm : m p with ⟨e | a, p'⟩ <;> rw [hm] at hrun
    · cases hrun
      exact h p _ _ hm
    · obtain ⟨hvisits, hbag⟩ := h p _ _ hm
      obtain ⟨hvisits', hbag'⟩ := hf a p' r q hrun
      exact ⟨hvisits'.trans hvisits, fun key hkey => (hbag' key hkey).trans (hbag key hkey)⟩
  view h p r q hrun := h p p rfl rfl p r q hrun

/-- A feature without children triggers nothing, and does to its bag what its type does. -/
theorem Effect.run_childless {d : Definition} {e : Effect} (he : e ≠ .setParams) {p q : Pass σ}
    {r : Except FeatureError Unit} (hrun : e.run d [] p = (r, q)) :
    q.visits = p.visits ∧ e.Leaves p.bag q.bag := by
  by_cases hcounter : e = .counter
  · subst hcounter
    rw [Effect.run_leaf rfl] at hrun
    exact atomic_leaves he (.leaf rfl rfl : Atom (τ := σ) d .counter _ _) hrun
  have hquiet : (quiet σ e.writes).Rel (e.run d []) (e.run d []) := by
    refine (quiet σ e.writes).run .nil (fun hatom p r q hact => ?_)
      (fun _ bag m _ h p r q hrun => ?_) fun _ previous bag m _ h p r q hrun => ?_
    · obtain ⟨hvisits, hleaves⟩ := atomic_leaves he hatom hact
      exact ⟨hvisits, fun key hkey => hleaves.get?_eq hcounter hkey⟩
    · cases hrun
      exact ⟨(h _ _ _ rfl).1, fun _ _ => rfl⟩
    · cases hrun
      exact ⟨(h _ _ _ rfl).1, fun _ _ => rfl⟩
  obtain ⟨hvisits, hbag⟩ := hquiet p r q hrun
  exact ⟨hvisits, fun key hkey => .inl (hbag key hkey)⟩

/-! ### Siblings -/

/-- A child of a caller that collates: it is visited unless its tag is unknown, and if it succeeds
the caller has those of its defaults that it lacked. -/
theorem trigger_childless {d : Definition} (hd : d.features = []) (hset : d.tag ≠ "SetParams")
    {above : List Definition} {p q : Pass σ} {r : Except FeatureError Unit} (hbag : p.bag.Collates)
    (hrun : d.trigger .builtin above p = (r, q)) :
    (q.visits = p.visits ∨ q.visits = ⟨above, d, d.params.overlay p.bag⟩ :: p.visits) ∧
      (r = .ok () → q.bag.Collates ∧ ∀ key ∉ Key.context, ¬MayBeRaised q.visits key →
        q.bag.get? key = (p.bag.get? key).or (d.params.get? key)) := by
  rw [Definition.trigger_eq, hd, List.map_nil] at hrun
  rcases hcreate : Registry.builtin.create d.tag with error | e
  · rw [Definition.enter_run_unknown hcreate] at hrun
    cases hrun
    exact ⟨.inl rfl, nofun⟩
  have htag : e.tag = d.tag := Registry.tag_of_create_builtin hcreate
  have he : e ≠ .setParams := by
    rintro rfl
    exact hset htag.symm
  rcases hwork : e.run d [] (d.entered above p) with ⟨r', q'⟩
  obtain ⟨hvisits, hleaves⟩ := Effect.run_childless he hwork
  rw [Definition.enter_run hcreate (Bag.isCollate_eq_true hbag) hwork] at hrun
  cases hrun
  refine ⟨.inr hvisits, fun hr => ?_⟩
  rcases r' with error | ⟨⟩
  · cases hr
  have hentered : (d.entered above p).bag.Collates := hbag.overlay d.params
  refine ⟨?_, fun key hkey hraised => ?_⟩
  · rcases hleaves Key.collate e.collate_not_mem_writes with hsame | ⟨-, -, htrue⟩
    · exact hsame.trans hentered
    · exact htrue
  · rcases hleaves key fun hwrites => hkey (e.writes_subset_context hwrites) with hsame |
      ⟨rfl, hraise, -⟩
    · exact hsame.trans (Bag.get?_overlay d.params p.bag key)
    · refine absurd ⟨⟨above, d, d.params.overlay p.bag⟩, ?_, htag.symm, hraise⟩ hraised
      rw [hvisits]
      exact List.mem_cons_self

theorem firstSetting_cons (d : Definition) (ds : List Definition) (key : String) :
    firstSetting (d :: ds) key = (d.params.get? key).or (firstSetting ds key) := by
  rw [firstSetting, List.findSome?_cons]
  cases d.params.get? key <;> rfl

/-- Siblings find under a key what the caller has there, or else what the first of them so far says
that has the key. -/
theorem fireAll_settings {above ds : List Definition}
    (hds : ∀ d ∈ ds, d.features = [] ∧ d.tag ≠ "SetParams") {p q : Pass σ}
    {r : Except FeatureError Unit} (hbag : p.bag.Collates)
    (hrun : fireAll (ds.map fun c => ⟨c, c.trigger .builtin above⟩) p = (r, q)) :
    ∃ new, q.visits = new ++ p.visits ∧ ∀ v ∈ new, v.above = above ∧
      ∃ before after, ds = before ++ v.node :: after ∧
        ∀ key ∉ Key.context, ¬MayBeRaised q.visits key →
          v.bag.get? key = (p.bag.get? key).or (firstSetting (before ++ [v.node]) key) := by
  induction ds generalizing p with
  | nil =>
    cases hrun
    exact ⟨[], rfl, fun _ hv => nomatch hv⟩
  | cons d rest ih =>
    obtain ⟨hd, hrest⟩ := List.forall_mem_cons.mp hds
    change (d.trigger .builtin above >>= fun _ => fireAll (rest.map _)) p = (r, q) at hrun
    rw [bind_run] at hrun
    rcases hfirst : d.trigger .builtin above p with ⟨r', p'⟩
    rw [hfirst] at hrun
    obtain ⟨hvisited, hleft⟩ := trigger_childless hd.1 hd.2 hbag hfirst
    -- The visit of the first sibling, if there is one, whatever comes after it.
    have hhere (more : List Visit) : ∃ new, more ++ p'.visits = (more ++ new) ++ p.visits ∧
        ∀ v ∈ new, v.above = above ∧ ∃ before after, d :: rest = before ++ v.node :: after ∧
          ∀ key ∉ Key.context, ¬MayBeRaised q.visits key →
            v.bag.get? key = (p.bag.get? key).or (firstSetting (before ++ [v.node]) key) := by
      rcases hvisited with hvisits | hvisits
      · exact ⟨[], by rw [hvisits, List.append_nil], fun _ hv => nomatch hv⟩
      · refine ⟨[⟨above, d, d.params.overlay p.bag⟩], by rw [hvisits, List.append_assoc]; rfl, ?_⟩
        intro v hv
        obtain rfl := List.mem_singleton.mp hv
        refine ⟨rfl, [], rest, rfl, fun key _ _ => ?_⟩
        rw [List.nil_append, firstSetting_cons, Bag.get?_overlay]
        exact congrArg _ (Option.or_none).symm
    rcases r' with error | ⟨⟩
    · cases hrun
      obtain ⟨new, hnew, hsettings⟩ := hhere []
      exact ⟨new, hnew, hsettings⟩
    · obtain ⟨hcollates, hbag'⟩ := hleft rfl
      obtain ⟨more, hmore, hsettings⟩ := ih hrest hcollates hrun
      obtain ⟨new, hnew, hfound⟩ := hhere more
      refine ⟨more ++ new, hmore.trans hnew, fun v hv => ?_⟩
      rcases List.mem_append.mp hv with hv | hv
      · obtain ⟨habove, before, after, hsplit, hkeys⟩ := hsettings v hv
        refine ⟨habove, d :: before, after, by rw [hsplit]; rfl, fun key hkey hraised => ?_⟩
        have hraised' : ¬MayBeRaised p'.visits key := fun h => hraised
          (h.mono (hmore ▸ List.subset_append_right more p'.visits))
        rw [hkeys key hkey hraised, hbag' key hkey hraised', List.cons_append, firstSetting_cons,
          Option.or_assoc]
      · exact hfound v hv

end Siblings

/-! ### Settings of their own -/

/-- Two definitions of triggers, one of each type, and one of the keys that both types read. -/
def Definition.SharesKey (b c : Definition) (key : String) : Prop :=
  key ∈ ["TriggerId", "TriggerIds"] ∧
    (b.tag = "CountTrigger" ∧ c.tag = "SymbolTrigger" ∨
      b.tag = "SymbolTrigger" ∧ c.tag = "CountTrigger")

/-- Where all definitions with a key agree, the first one says what any of them says. -/
theorem firstSetting_eq {ds : List Definition} {d : Definition} {key : String} {value : Json}
    (hd : d ∈ ds) (hvalue : d.params.get? key = some value)
    (hsame : ∀ b ∈ ds, ∀ other, b.params.get? key = some other → other = value) :
    firstSetting ds key = some value := by
  induction ds with
  | nil => cases hd
  | cons b ds ih =>
    rw [firstSetting_cons]
    rcases hb : b.params.get? key with _ | other
    · have hd : d ∈ ds := by
        rcases List.mem_cons.mp hd with rfl | hd
        · rw [hvalue] at hb
          cases hb
        · exact hd
      rw [Option.none_or]
      exact ih hd fun b hb => hsame b (List.mem_cons_of_mem _ hb)
    · rw [hsame b List.mem_cons_self other hb]
      rfl

/-- Different types of features have no key in common, unless they are the two triggers. -/
theorem sharesKey_of_mem_keys {b c : Definition} {e e' : Effect}
    (he : Registry.builtin.create b.tag = .ok e) (he' : Registry.builtin.create c.tag = .ok e')
    (hne : b.tag ≠ c.tag) {key : String} (hkey : key ∈ e.keys) (hkey' : key ∈ e'.keys) :
    b.SharesKey c key := by
  have htag : e.tag = b.tag := Registry.tag_of_create_builtin he
  have htag' : e'.tag = c.tag := Registry.tag_of_create_builtin he'
  have hdifferent : e ≠ e' := by
    rintro rfl
    exact hne (htag.symm.trans htag')
  obtain ⟨hshared, htypes⟩ := Effect.triggers_of_mem_keys hdifferent hkey hkey'
  refine ⟨hshared, ?_⟩
  rw [← htag, ← htag']
  rcases htypes with ⟨rfl, rfl⟩ | ⟨rfl, rfl⟩
  · exact .inl ⟨rfl, rfl⟩
  · exact .inr ⟨rfl, rfl⟩

/-- What a definition with settings of its own type only says is such a setting. -/
theorem Effect.HasKeys.mem_keys {e : Effect} {d : Definition} (h : e.HasKeys d) {key : String}
    (hcontext : key ∉ Key.context) {value : Json} (hvalue : d.params.get? key = some value) :
    key ∈ e.keys :=
  (h key (d.params.mem_keys_of_get? hvalue)).resolve_right hcontext

/-- The settings of a type are not of the context. -/
theorem Effect.not_mem_context_of_mem_keys {e : Effect} {key : String} (h : key ∈ e.keys) :
    key ∉ Key.context := by
  have hall : ∀ e ∈ Effect.all, ∀ key ∈ e.keys, key ∉ Key.context := by decide +kernel
  exact hall e e.mem_all key h

section Own

variable {ds before after : List Definition} {c : Definition}
  (hown : ∀ d ∈ ds, ∃ e, Registry.builtin.create d.tag = .ok e ∧ e.HasKeys d)
  (htypes : (ds.map Definition.tag).Nodup) (hsplit : ds = before ++ c :: after)
  {key : String} {value : Json}

include hown htypes hsplit

/-- A sibling before another one has a setting of its type only if they are the two triggers. -/
theorem sharesKey_of_before {e : Effect} (he : Registry.builtin.create c.tag = .ok e)
    (hkey : key ∈ e.keys) {b : Definition} (hb : b ∈ before) {other : Json}
    (hother : b.params.get? key = some other) : b.SharesKey c key := by
  have hne : b.tag ≠ c.tag := by
    rw [hsplit, List.map_append, List.map_cons] at htypes
    exact (List.nodup_append.mp htypes).2.2 _ (List.mem_map_of_mem hb) _ List.mem_cons_self
  obtain ⟨e', he', hkeys'⟩ := hown b (by rw [hsplit]; exact List.mem_append_left _ hb)
  exact sharesKey_of_mem_keys he' he hne
    (hkeys'.mem_keys (Effect.not_mem_context_of_mem_keys hkey) hother) hkey

/-- The siblings up to one of them say first of a setting of its type what that one says, unless it
is a trigger and the trigger of the other type before it says something else. -/
theorem firstSetting_own {e : Effect} (he : Registry.builtin.create c.tag = .ok e)
    (hkey : key ∈ e.keys) (hsame : ∀ b ∈ before, b.SharesKey c key →
      ∀ other, b.params.get? key = some other → c.params.get? key = some other) :
    firstSetting (before ++ [c]) key = c.params.get? key := by
  have hagrees (b : Definition) (hb : b ∈ before) (other : Json)
      (hother : b.params.get? key = some other) : c.params.get? key = some other :=
    hsame b hb (sharesKey_of_before hown htypes hsplit he hkey hb hother) other hother
  rcases hvalue : c.params.get? key with _ | value
  · refine List.findSome?_eq_none_iff.mpr fun b hb => ?_
    rcases List.mem_append.mp hb with hb | hb
    · rcases hother : b.params.get? key with _ | other
      · rfl
      · rw [hagrees b hb other hother] at hvalue
        cases hvalue
    · rw [List.mem_singleton.mp hb, hvalue]
  · refine firstSetting_eq (List.mem_append_right _ List.mem_cons_self) hvalue ?_
    intro b hb other hother
    rcases List.mem_append.mp hb with hb | hb
    · exact Option.some.inj ((hagrees b hb other hother).symm.trans hvalue)
    · rw [List.mem_singleton.mp hb, hvalue] at hother
      exact (Option.some.inj hother).symm

variable (hvalue : c.params.get? key = some value) (hcontext : key ∉ Key.context)
include hvalue hcontext

/-- The siblings up to one of them that has a key say first what that one says, unless it is a
trigger and the trigger of the other type before it says something else. -/
theorem firstSetting_own_iff : firstSetting (before ++ [c]) key = some value ↔
    ∀ b ∈ before, b.SharesKey c key → ∀ other, b.params.get? key = some other → other = value := by
  obtain ⟨e, he, hkeys⟩ := hown c
    (by rw [hsplit]; exact List.mem_append_right _ List.mem_cons_self)
  have hkey : key ∈ e.keys := hkeys.mem_keys hcontext hvalue
  have hshares {b : Definition} (hb : b ∈ before) {other : Json}
      (hother : b.params.get? key = some other) : b.SharesKey c key :=
    sharesKey_of_before hown htypes hsplit he hkey hb hother
  have hmem : ∀ b ∈ before, b ∈ ds := fun b hb => by
    rw [hsplit]
    exact List.mem_append_left _ hb
  constructor
  · intro hfirst b hb hshared other hother
    -- No other sibling before has the key, since it would be the same trigger once more.
    have honly : ∀ b' ∈ before, ∀ other', b'.params.get? key = some other' → other' = other := by
      intro b' hb' other' hother'
      have htag : b'.tag = b.tag := by
        rcases (hshares hb' hother').2 with ⟨h', hc'⟩ | ⟨h', hc'⟩ <;>
          rcases hshared.2 with ⟨h, hc⟩ | ⟨h, hc⟩
        · exact h'.trans h.symm
        · exact absurd (hc'.symm.trans hc) (by decide)
        · exact absurd (hc'.symm.trans hc) (by decide)
        · exact h'.trans h.symm
      obtain rfl := List.inj_on_of_nodup_map htypes (hmem b' hb') (hmem b hb) htag
      exact Option.some.inj (hother'.symm.trans hother)
    have hfound := firstSetting_eq hb hother honly
    rw [firstSetting] at hfound hfirst
    rw [List.findSome?_append, hfound] at hfirst
    exact Option.some.inj hfirst
  · intro hsame
    rw [firstSetting_own hown htypes hsplit he hkey fun b hb hshared other hother => by
      rw [hvalue, hsame b hb hshared other hother], hvalue]

end Own

/-- The feature of a visit without children does what it would do with the settings of its
definition alone, apart from the bag that it leaves. -/
def Visit.WorksAlone (σ : Type) [RandomSource σ] (v : Visit) (e : Effect) : Prop :=
  ∀ (own : Bag) (q : Pass σ), own.Agree e.keys v.node.params → own.Agree Key.context v.bag →
    SameButBag (e.run v.node [] { q with bag := v.bag }) (e.run v.node [] { q with bag := own })

/-- Siblings of different types keep their own settings. Each one that is triggered, whether the
pass succeeds or fails, finds under a key of its definition what its definition says, if the key is
not of the context, the caller does not have it, and no counter raises it as a flag. There is one
exception: a trigger with a trigger of the other type before it finds what that one says. As it
reads no other keys, a sibling does what it would do alone. -/
theorem trigger_settings {σ : Type} [RandomSource σ] {root : Definition} {source : σ}
    {s : RoundState} {bag : Bag} {r : Except FeatureError Unit} {p : Pass σ}
    (hrun : trigger .builtin root source s bag = (r, p)) (hroot : root.tag = "Activator")
    (hbag : (root.params.overlay bag).Collates)
    (hchildren : ∀ c ∈ root.features, c.features = [] ∧ c.tag ≠ "SetParams" ∧
      ∃ e, Registry.builtin.create c.tag = .ok e ∧ e.HasKeys c)
    (htypes : (root.features.map Definition.tag).Nodup) :
    ∀ v ∈ p.visits, v.above ≠ [] → v.above = [root] ∧
      ∃ before after, root.features = before ++ v.node :: after ∧
        (∀ key value, v.node.params.get? key = some value → key ∉ Key.context →
          (root.params.overlay bag).get? key = none → ¬MayBeRaised p.visits key →
            (v.bag.get? key = some value ↔ ∀ b ∈ before, b.SharesKey v.node key →
              ∀ other, b.params.get? key = some other → other = value)) ∧
        ∀ e, Registry.builtin.create v.node.tag = .ok e →
          (∀ key ∈ e.keys, (root.params.overlay bag).get? key = none ∧
            ¬MayBeRaised p.visits key ∧ ∀ b ∈ before, b.SharesKey v.node key →
              ∀ other, b.params.get? key = some other → v.node.params.get? key = some other) →
          v.WorksAlone σ e := by
  intro v hv hbelow
  have hcreate : Registry.builtin.create root.tag = .ok .activator := by rw [hroot]; rfl
  rw [trigger, Definition.trigger_eq] at hrun
  rcases hcollate : (Pass.start source s bag).bag.isCollate with error | collate
  · rw [Definition.enter_run_unread hcreate hcollate] at hrun
    cases hrun
    cases hv
  rcases hwork : Effect.activator.run root
    (root.features.map fun c => ⟨c, c.trigger .builtin ([] ++ [root])⟩)
    (root.entered [] (Pass.start source s bag)) with ⟨r', q⟩
  rw [Definition.enter_run hcreate hcollate hwork] at hrun
  cases hrun
  obtain ⟨new, hnew, hsettings⟩ := fireAll_settings
    (fun d hd => ⟨(hchildren d hd).1, (hchildren d hd).2.1⟩) hbag hwork
  have hmem : v ∈ new := by
    rw [hnew] at hv
    rcases List.mem_append.mp hv with hv | hv
    · exact hv
    · rw [List.mem_singleton.mp hv] at hbelow
      exact absurd rfl hbelow
  obtain ⟨habove, before, after, hsplit, hkeys⟩ := hsettings v hmem
  have hown : ∀ c ∈ root.features, ∃ e, Registry.builtin.create c.tag = .ok e ∧ e.HasKeys c :=
    fun c hc => (hchildren c hc).2.2
  have hfound {key : String} (hcontext : key ∉ Key.context)
      (hcaller : (root.params.overlay bag).get? key = none) (hraised : ¬MayBeRaised q.visits key) :
      v.bag.get? key = firstSetting (before ++ [v.node]) key := by
    rw [hkeys key hcontext hraised]
    change ((root.params.overlay bag).get? key).or _ = _
    rw [hcaller, Option.none_or]
  refine ⟨habove, before, after, hsplit, fun key value hvalue hcontext hcaller hraised => ?_,
    fun e he halone own q hsettings hagrees => ?_⟩
  · rw [hfound hcontext hcaller hraised]
    exact firstSetting_own_iff hown htypes hsplit hvalue hcontext
  · refine Effect.run_reads (p := { q with bag := v.bag }) fun key hkey => ?_
    rcases List.mem_append.mp hkey with hkey | hkey
    · obtain ⟨hcaller, hraised, hsame⟩ := halone key hkey
      rw [hfound (Effect.not_mem_context_of_mem_keys hkey) hcaller hraised,
        firstSetting_own hown htypes hsplit he hkey hsame]
      exact (hsettings key hkey).symm
    · exact (hagrees key hkey).symm

/-- Covers the single cell, and then replaces the symbol on it. -/
def twoPainters : Definition := ⟨1, "Activator", Bag.empty.insert Key.collate (.bool true), [
  ⟨2, "TileExpansion", ((((Bag.empty.insert "X" (.ofNat 0)).insert "Y" (.ofNat 0)).insert "W"
    (.ofNat 1)).insert "H" (.ofNat 1)).insert "TileId" (.ofInt 7), []⟩,
  ⟨3, "ReplaceTile",
    (Bag.empty.insert "ReplaceFrom" (.ofInt 7)).insert "ReplaceTo" (.ofInt 8), []⟩]⟩

/-- The second painter finds its own symbol and works as it would alone. -/
theorem trigger_settings_twoPainters :
    ∃ p, trigger .builtin twoPainters (Script.ofDraws []) (.fresh 1 1) .empty = (.ok (), p) ∧
      p.visits.map (·.node.tag) = ["ReplaceTile", "TileExpansion", "Activator"] ∧
      ∀ v ∈ p.visits, v.node.tag = "ReplaceTile" →
        v.bag.get? "ReplaceTo" = some (.ofInt 8) ∧ v.WorksAlone Script .replaceTile := by
  rcases hrun : trigger .builtin twoPainters (Script.ofDraws []) (.fresh 1 1) .empty with ⟨r, p⟩
  have hr : (trigger .builtin twoPainters (Script.ofDraws []) (.fresh 1 1) .empty).1 =
    .ok () := by decide +kernel
  have htags : (trigger .builtin twoPainters (Script.ofDraws []) (.fresh 1 1)
    .empty).2.visits.map (·.node.tag) = ["ReplaceTile", "TileExpansion", "Activator"] := by
      decide +kernel
  have hbelow : ∀ v ∈ (trigger .builtin twoPainters (Script.ofDraws []) (.fresh 1 1)
    .empty).2.visits, v.node.tag = "ReplaceTile" → v.above.isEmpty = false := by decide +kernel
  rw [hrun] at hr htags hbelow
  obtain rfl : r = .ok () := hr
  have hchildren : ∀ c ∈ twoPainters.features, c.features = [] ∧ c.tag ≠ "SetParams" ∧
      ∃ e, Registry.builtin.create c.tag = .ok e ∧ e.HasKeys c := by
    intro c hc
    rcases List.mem_pair.mp hc with rfl | rfl
    · exact ⟨rfl, by decide, .tileExpansion, rfl, by decide⟩
    · exact ⟨rfl, by decide, .replaceTile, rfl, by decide⟩
  have hraised (key : String) : ¬MayBeRaised p.visits key := by
    rintro ⟨v, hv, htag, -⟩
    have hmem : v.node.tag ∈ p.visits.map (·.node.tag) := List.mem_map_of_mem hv
    rw [htags, htag] at hmem
    exact absurd hmem (by decide)
  refine ⟨p, rfl, htags, fun v hv htag => ?_⟩
  have habove : v.above ≠ [] := List.isEmpty_eq_false_iff.mp (hbelow v hv htag)
  obtain ⟨-, before, after, hsplit, hown, halone⟩ :=
    trigger_settings hrun rfl rfl hchildren (by decide) v hv habove
  have hnode : v.node ∈ twoPainters.features := by
    rw [hsplit]
    exact List.mem_append_right _ List.mem_cons_self
  have hshares (b : Definition) (key : String) : ¬b.SharesKey v.node key := by
    rintro ⟨-, ⟨-, h⟩ | ⟨-, h⟩⟩ <;> rw [htag] at h <;> exact absurd h (by decide)
  have hcaller : ∀ key ∈ Effect.replaceTile.keys,
      (twoPainters.params.overlay .empty).get? key = none := by decide
  refine ⟨(hown "ReplaceTo" (.ofInt 8) ?_ (by decide) rfl (hraised _)).mpr fun b _ h => ?_, ?_⟩
  · rcases List.mem_pair.mp hnode with hnode | hnode
    · rw [hnode] at htag
      exact absurd htag (by decide)
    · rw [hnode]
      rfl
  · exact absurd h (hshares b _)
  · refine halone .replaceTile (by rw [htag]; rfl) fun key hkey => ?_
    exact ⟨hcaller key hkey, hraised key, fun b _ h => absurd h (hshares b key)⟩

/-- Two triggers, the second of which looks for the symbol of blank cells. -/
def twoTriggers : Definition := ⟨1, "Activator", Bag.empty.insert Key.collate (.bool true), [
  ⟨2, "CountTrigger", (Bag.empty.insert "TriggerId" (.ofInt 5)).insert "MinCount" (.ofNat 1), []⟩,
  ⟨3, "SymbolTrigger", Bag.empty.insert "TriggerId" (.ofInt (-1)), []⟩]⟩

/-- The second trigger looks for the symbol of the first one, so on a blank grid it notes
nothing. -/
theorem second_trigger_overridden :
    Bag.Collates (twoTriggers.params.overlay .empty) ∧
    (twoTriggers.params.overlay .empty).contains "TriggerId" = false ∧
    (∀ c ∈ twoTriggers.features, c.features = [] ∧
      ∃ e, Registry.builtin.create c.tag = .ok e ∧ e.HasKeys c) ∧
    (twoTriggers.features.map Definition.tag).Nodup ∧ "TriggerId" ∉ Key.context ∧
    ∃ p, trigger .builtin twoTriggers (Script.ofDraws []) (.fresh 1 1) .empty = (.ok (), p) ∧
      p.state.outcome.ledger.length = 0 ∧ ∃ v ∈ p.visits, v.node.tag = "SymbolTrigger" ∧
        v.node.params.find .symbol "TriggerId" = .ok (some (-1)) ∧
        v.bag.find .symbol "TriggerId" = .ok (some 5) := by
  have hchildren : ∀ c ∈ twoTriggers.features, c.features = [] ∧
      ∃ e, Registry.builtin.create c.tag = .ok e ∧ e.HasKeys c := by
    intro c hc
    rcases List.mem_pair.mp hc with rfl | rfl
    · exact ⟨rfl, .countTrigger, rfl, by decide⟩
    · exact ⟨rfl, .symbolTrigger, rfl, by decide⟩
  rcases hrun : trigger .builtin twoTriggers (Script.ofDraws []) (.fresh 1 1) .empty with ⟨r, p⟩
  have hr : (trigger .builtin twoTriggers (Script.ofDraws []) (.fresh 1 1) .empty).1 =
    .ok () := by decide +kernel
  have hledger : (trigger .builtin twoTriggers (Script.ofDraws []) (.fresh 1 1)
    .empty).2.state.outcome.ledger.length = 0 := by decide +kernel
  have hvisit : ∃ v ∈ (trigger .builtin twoTriggers (Script.ofDraws []) (.fresh 1 1)
    .empty).2.visits, v.node.tag = "SymbolTrigger" ∧
      v.node.params.find .symbol "TriggerId" = .ok (some (-1)) ∧
      v.bag.find .symbol "TriggerId" = .ok (some 5) := by decide +kernel
  rw [hrun] at hr hledger hvisit
  obtain rfl : r = .ok () := hr
  exact ⟨rfl, rfl, hchildren, by decide, by decide, p, rfl, hledger, hvisit⟩

end SlotOutcome

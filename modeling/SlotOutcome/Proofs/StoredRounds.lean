import SlotOutcome.Proofs.LedgerTexts
import SlotOutcome.Proofs.OutcomeLaws

/-!
# Rounds that can be stored

A round is stored as the text of its ledger. Whatever the features note has the shape of their
types, but for two things. A product of multipliers or a sum of wins may leave the doubles; then the
total in the payload is no number, and the ledger cannot be written. And memory may nest so deep
that the ledger is written, but not read again.

```text
                       written   read back
  a total is lost        no
  memory too deep        yes        no
  neither                yes        yes, as it was
```

## Main definitions

* `Entry.TotalLost`, `Entry.MemoryTooDeep`: what keeps an entry from being stored.

## Main results

* `Effect.Makes.filled`: what a feature notes has the shape of its type, if the total is kept.
* `Registry.encodeLedger_ne_ok`: with a total that is lost a ledger is not written.
* `trigger_stored_iff`: which rounds can be stored.
-/

namespace SlotOutcome

/-- The field for a total holds no number. -/
def Json.lacksTotal : Json → Bool
  | .obj m =>
    match m.get? "Total" with
    | some .null => true
    | _ => false
  | _ => false

namespace Entry

variable (e : Entry)

/-- The total of a multiplication or of an evaluation left the doubles. -/
def TotalLost : Prop :=
  (e.tag = Effect.multiplier.tag ∨ e.tag = Effect.evaluateWins.tag) ∧ e.data.lacksTotal = true

instance : Decidable e.TotalLost := inferInstanceAs (Decidable (_ ∧ _))

/-- The memory of an entry nests deeper than the record around it leaves room for. -/
def MemoryTooDeep : Prop :=
  (e.tag = Effect.statefulMap.tag ∨ e.tag = Effect.statelessMap.tag) ∧
    containerLimit < e.data.nesting + 2

instance : Decidable e.MemoryTooDeep := inferInstanceAs (Decidable (_ ∧ _))

/-- The payload of an entry fills the shape of its tag. -/
def IsFilled : Prop := ∃ effect : Effect, e.tag = effect.tag ∧ effect.shape.Filled e.data

end Entry

/-! ### What is noted -/

theorem Json.lacksTotal_iff {data : Json} :
    data.lacksTotal = true ↔ ∃ m, data = .obj m ∧ m.get? "Total" = some .null := by
  constructor
  · intro h
    unfold lacksTotal at h
    split at h
    · next m =>
      split at h
      · next hget => exact ⟨m, rfl, hget⟩
      · cases h
    · cases h
  · rintro ⟨m, rfl, hget⟩
    simp only [lacksTotal, hget]

theorem Json.ofFloat_eq_null {x : Float} (h : ¬x.isFinite = true) : ofFloat x = null := by
  rw [ofFloat, FiniteFloat.ofFloat?, dif_neg h]

/-- A total that is noted is finite, unless it is lost. -/
theorem isFinite_of_kept (fields : List (String × FieldType × Json)) {total : Float}
    (hnodup : (fields.map Prod.fst).Nodup) (h : ("Total", .float, .ofFloat total) ∈ fields)
    (hkept : ¬(Json.obj (recordOf fields)).lacksTotal = true) : total.isFinite = true := by
  by_contra hlost
  refine hkept (Json.lacksTotal_iff.mpr ⟨_, rfl, ?_⟩)
  rw [← Json.ofFloat_eq_null hlost]
  exact get?_recordOf hnodup h

theorem Payload.isFinite_of_evaluated {count : ℕ} {total : Float}
    (hkept : ¬(Payload.evaluated count total).lacksTotal = true) : total.isFinite = true :=
  isFinite_of_kept [("Count", .nat, .ofNat count), ("Total", .float, .ofFloat total)] (by simp)
    (by simp) hkept

theorem Payload.isFinite_of_multiplied {factor total : Float}
    (hkept : ¬(Payload.multiplied factor total).lacksTotal = true) : total.isFinite = true :=
  isFinite_of_kept [("Multiplier", .float, .ofFloat factor), ("Total", .float, .ofFloat total)]
    (by simp) (by simp) hkept

/-- What a feature notes has the shape of its type, unless the total is lost. -/
theorem Effect.Makes.filled {s : RoundState} {e : Effect} {c : Change} (h : e.Makes s c)
    (hfinite : s.outcome.multiplier.isFinite = true) {id : UInt32}
    (hkept : ¬(⟨id, e.tag, c.payload⟩ : Entry).TotalLost) :
    c.outcome.multiplier.isFinite = true ∧ e.shape.Filled c.payload := by
  cases h with
  | choice index =>
    exact ⟨hfinite, .record [("Index", .nat, .ofNat index)] (by simp) (by simp)⟩
  | repeats count =>
    exact ⟨hfinite, .record [("Count", .nat, .ofNat count)] (by simp) (by simp)⟩
  | @stops _ stops =>
    exact ⟨hfinite, .record [("Stops", .nats, .ofNats stops)] (by simp) (by simp)⟩
  | reelset name index =>
    exact ⟨hfinite, .record [("Name", .text, .str name), ("Index", .nat, .ofNat index)] (by simp)
      (by simp)⟩
  | @tile x y w h _ id =>
    exact ⟨hfinite, .record [("X", .nat, .ofNat x), ("Y", .nat, .ofNat y), ("W", .nat, .ofNat w),
      ("H", .nat, .ofNat h), ("TileId", .symbol, .ofInt id.toInt)] (by simp) (by simp)⟩
  | @expansion position positions id =>
    exact ⟨hfinite, .record [("Position", .nat, .ofNat position),
      ("Positions", .nats, .ofNats positions), ("TileId", .symbol, .ofInt id.toInt)] (by simp)
        (by simp)⟩
  | @expandedReels reels _ id =>
    exact ⟨hfinite, .record [("Reels", .nats, .ofNats reels),
      ("TileId", .symbol, .ofInt id.toInt)] (by simp) (by simp)⟩
  | @replaced positions id | @dropped positions id | @unveiled positions id =>
    exact ⟨hfinite, .record [("Positions", .nats, .ofNats positions),
      ("TileId", .symbol, .ofInt id.toInt)] (by simp) (by simp)⟩
  | @pattern index positions id =>
    exact ⟨hfinite, .record [("Index", .nat, .ofNat index), ("Positions", .nats, .ofNats positions),
      ("TileId", .symbol, .ofInt id.toInt)] (by simp) (by simp)⟩
  | @cascade removed =>
    have hstep := Json.hasType_counter (s.outcome.cascade.step + 1)
    exact ⟨hfinite, .record [("Step", .counter, .ofNat (s.outcome.cascade.step + 1).toNat),
      ("Removed", .nats, .ofNats removed)] (by simp) (by simpa using hstep)⟩
  | counted positions | found positions =>
    exact ⟨hfinite, .record [("Positions", .nats, .ofNats positions),
      ("Count", .nat, .ofNat positions.length)] (by simp) (by simp)⟩
  | @award spins =>
    exact ⟨hfinite, .record [("Spins", .nat, .ofNat spins), ("Total", .counter,
      .ofNat (Pay.addSpins s.outcome.freespins (UInt32.ofNat spins)).toNat)] (by simp) (by simp)⟩
  | @evaluated _ wins =>
    have htotal := Payload.isFinite_of_evaluated fun hlacks => hkept ⟨.inr rfl, hlacks⟩
    exact ⟨hfinite, .record [("Count", .nat, .ofNat wins.length),
      ("Total", .float, .ofFloat (winSum wins))] (by simp) (by simp [htotal])⟩
  | @multiplied factor hfactor =>
    have htotal := Payload.isFinite_of_multiplied fun hlacks => hkept ⟨.inl rfl, hlacks⟩
    exact ⟨htotal, .record [("Multiplier", .float, .ofFloat factor),
      ("Total", .float, .ofFloat (s.outcome.multiplier * factor))] (by simp)
        (by simp [hfactor, htotal])⟩
  | @applied _ affected =>
    exact ⟨hfinite, .record [("Multiplier", .float, .ofFloat s.outcome.multiplier),
      ("Wins", .nat, .ofNat affected)] (by simp) (by simp [hfinite])⟩
  | @prize label multiplier hmultiplier =>
    exact ⟨hfinite, .record [("Label", .text, .str label),
      ("Multiplier", .float, .ofFloat multiplier)] (by simp) (by simp [hmultiplier])⟩
  | @scatter _ positions multiplier hmultiplier =>
    exact ⟨hfinite, .record [("Count", .nat, .ofNat positions.length),
      ("Multiplier", .float, .ofFloat multiplier)] (by simp) (by simp [hmultiplier])⟩
  | @count key value reached hvalue =>
    exact ⟨hfinite, .record [("Key", .text, .str key), ("Value", .int, .ofInt value),
      ("Reached", .bool, .bool reached)] (by simp) (by simp [Json.hasType_int hvalue])⟩
  | @sticky applied id =>
    exact ⟨hfinite, .record [("Applied", .nats, .ofNats applied), ("Positions", .nats,
      .ofNats ((s.outcome.covered applied id).grid.positionsOf id)),
        ("TileId", .symbol, .ofInt id.toInt)] (by simp) (by simp)⟩
  | statefulMap memory | statelessMap memory => exact ⟨hfinite, .memory memory⟩

/-! ### Passes -/

/-- As long as no total is lost the multiplier stays finite, and the entries that are added fill the
shapes of their tags. -/
def Law.filled : Law where
  Rel o o' := ∃ new, o'.ledger = o.ledger ++ new ∧
    (o.multiplier.isFinite = true → (∀ e ∈ new, ¬e.TotalLost) →
      o'.multiplier.isFinite = true ∧ ∀ e ∈ new, e.IsFilled)
  refl o := ⟨[], (List.append_nil _).symm, fun hfinite _ => ⟨hfinite, fun _ he => nomatch he⟩⟩
  trans := by
    rintro o₁ o₂ o₃ ⟨new, hledger, h⟩ ⟨new', hledger', h'⟩
    refine ⟨new ++ new', by rw [hledger', hledger, List.append_assoc], fun hfinite hkept => ?_⟩
    obtain ⟨hnew, hnew'⟩ := List.forall_mem_append.mp hkept
    obtain ⟨hfinite, hfilled⟩ := h hfinite hnew
    obtain ⟨hfinite, hfilled'⟩ := h' hfinite hnew'
    exact ⟨hfinite, List.forall_mem_append.mpr ⟨hfilled, hfilled'⟩⟩

theorem Law.filled_perform {s : RoundState} {d : Definition} {e : Effect} {change : Option Change}
    (htag : d.tag = e.tag) (h : e.MakesOnly s change) :
    Law.filled.Rel s.outcome (s.perform d change).outcome := by
  refine ⟨_, s.ledger_perform h.keepsLedger, fun hfinite hkept => ?_⟩
  rcases change with _ | c
  · exact ⟨hfinite, fun _ he => nomatch he⟩
  · have hmakes : e.Makes s c := h c rfl
    have hkept := hkept _ (List.mem_singleton.mpr rfl)
    rw [htag] at hkept
    obtain ⟨hfinite, hfilled⟩ := hmakes.filled hfinite hkept
    refine ⟨hfinite, fun entry hentry => ?_⟩
    obtain rfl := List.mem_singleton.mp hentry
    exact ⟨e, htag, hfilled⟩

/-! ### Storing -/

theorem Effect.eq_of_shape_eq_memory {e : Effect} (h : e.shape = .memory) :
    e = .statefulMap ∨ e = .statelessMap := by
  cases e <;> first | exact .inl rfl | exact .inr rfl | cases h

namespace Registry

theorem shapeOf_builtin (e : Effect) : builtin.shapeOf e.tag = .ok e.shape := by
  cases e <;> rfl

/-- A payload whose total is lost has not the shape of its tag. -/
theorem decode_ne_ok {e : Entry} (h : e.TotalLost) (e' : Entry) :
    builtin.decode e.tag e.id e.data.text.toUTF8.toList ≠ .ok e' := by
  intro hdecode
  obtain ⟨htag, hlacks⟩ := h
  obtain ⟨shape, read, hshape, hread, -⟩ := (decode_text _ _ _ _).mp hdecode
  obtain ⟨fields, rfl, htotal⟩ : ∃ fields, shape = .record fields ∧ ("Total", .float) ∈ fields := by
    rcases htag with htag | htag <;> rw [htag, shapeOf_builtin] at hshape <;> cases hshape <;>
      exact ⟨_, rfl, by decide⟩
  obtain ⟨m, hdata, hget⟩ := Json.lacksTotal_iff.mp hlacks
  rw [hdata, show containerLimit = 126 + 1 from rfl] at hread
  obtain ⟨value, number, hvalue, hnumber⟩ := Shape.of_ofTree?_record hread _ htotal
  cases hget.symm.trans hvalue
  cases hnumber

/-- With a total that is lost a ledger is not written. -/
theorem encodeLedger_ne_ok {ledger : List Entry} {e : Entry} (he : e ∈ ledger) (h : e.TotalLost)
    (text : String) : builtin.encodeLedger ledger ≠ .ok text := by
  intro hencode
  obtain ⟨e', hdecode⟩ := (encodeLedger_eq_ok.mp hencode).2 e he
  exact decode_ne_ok h e' hdecode

/-- An entry that fills the shape of its tag is stored, unless its memory is too deep. -/
theorem stores_of_isFilled {e : Entry} (h : e.IsFilled) (hdeep : ¬e.MemoryTooDeep) :
    builtin.Stores e := by
  obtain ⟨effect, htag, hfilled⟩ := h
  have hnesting : e.data.nesting + 2 ≤ containerLimit := by
    rcases hfilled.nesting_le with hmemory | hshallow
    · by_contra hnot
      refine hdeep ⟨?_, not_le.mp hnot⟩
      rw [htag]
      exact (Effect.eq_of_shape_eq_memory hmemory).imp (congrArg Effect.tag) (congrArg Effect.tag)
    · exact (Nat.add_le_add_right hshallow 2).trans (by decide)
  have hread : effect.shape.ofTree? containerLimit e.data.toTree = some e.data :=
    hfilled.ofTree?_toTree 125 ((Nat.le_add_right _ 2).trans hnesting)
  exact ⟨⟨effect.shape, htag ▸ shapeOf_builtin effect, hread⟩, hnesting⟩

end Registry

theorem Definition.not_reveals_of_pending {s : RoundState} (h : Reveal.pending s = none)
    (d : Definition) : ¬d.Reveals s.stateful := by
  rintro ⟨-, previous, hprevious, hchain⟩
  have hprevious : s.stateful = some previous := hprevious
  unfold Reveal.pending at h
  rw [hprevious] at h
  rcases hlinks : previous.chain with _ | ⟨link, rest⟩
  · exact hchain hlinks
  · simp only [hlinks] at h
    cases h

/-- Which rounds can be stored. After a pass on an empty ledger and a finite multiplier, without a
step that waits to be revealed, the ledger is written and read back as it was exactly when no
multiplication or evaluation lost its total and no memory nests too deep. -/
theorem trigger_stored_iff {σ : Type} [RandomSource σ] {d : Definition} {source : σ}
    {s : RoundState} {bag : Bag} {r : Except FeatureError Unit} {p : Pass σ}
    (hledger : s.outcome.ledger = []) (hfinite : s.outcome.multiplier.isFinite = true)
    (hpending : Reveal.pending s = none) (hrun : trigger .builtin d source s bag = (r, p)) :
    (∃ text, Registry.builtin.encodeLedger p.state.outcome.ledger = .ok text ∧
      Registry.builtin.decodeLedger text.toUTF8.toList = .ok p.state.outcome.ledger) ↔
        ∀ e ∈ p.state.outcome.ledger, ¬e.TotalLost ∧ ¬e.MemoryTooDeep := by
  obtain ⟨-, hlaw⟩ := Law.filled.of_trigger (fun _ => False)
    (fun _ _ htag _ _ _ hmakes => Law.filled_perform htag hmakes) hrun
  obtain ⟨new, hnew, hfilled⟩ :=
    hlaw fun v _ => ⟨Definition.not_reveals_of_pending hpending v.node, id⟩
  rw [hledger, List.nil_append] at hnew
  rw [hnew]
  constructor
  · rintro ⟨text, hencode, hdecode⟩ e he
    have hstores := (Registry.stores_iff new).mp ⟨text, hencode, hdecode⟩ e he
    exact ⟨fun hlost => Registry.encodeLedger_ne_ok he hlost text hencode,
      fun hdeep => absurd hdeep.2 (not_lt.mpr hstores.2)⟩
  · intro h
    have hentries := (hfilled hfinite fun e he => (h e he).1).2
    exact (Registry.stores_iff new).mpr fun e he =>
      Registry.stores_of_isFilled (hentries e he) (h e he).2

/-- Multiplies the multiplier of the round twice. -/
def multipliedTwice (first second : Float) : Definition where
  id := 1
  tag := "Activator"
  params := .empty
  features := [⟨2, "Multiplier", Bag.empty.insert "Multiplier" (.ofFloat first), []⟩,
    ⟨3, "Multiplier", Bag.empty.insert "Multiplier" (.ofFloat second), []⟩]

/-- A product of two small factors is noted as it is, and the round is read back. -/
theorem trigger_stored_iff_small :
    ∃ p, trigger .builtin (multipliedTwice 2.0 1.5) (Script.ofDraws []) (.fresh 2 2) .empty =
      (.ok (), p) ∧ p.state.outcome.ledger.length = 2 ∧
        ∃ text, Registry.builtin.encodeLedger p.state.outcome.ledger = .ok text ∧
          Registry.builtin.decodeLedger text.toUTF8.toList = .ok p.state.outcome.ledger := by
  rcases hrun : trigger .builtin (multipliedTwice 2.0 1.5) (Script.ofDraws []) (.fresh 2 2) .empty
    with ⟨r, p⟩
  have hr : (trigger .builtin (multipliedTwice 2.0 1.5) (Script.ofDraws []) (.fresh 2 2)
    .empty).1 = .ok () := by decide +kernel
  have hlength : (trigger .builtin (multipliedTwice 2.0 1.5) (Script.ofDraws []) (.fresh 2 2)
    .empty).2.state.outcome.ledger.length = 2 := by decide +kernel
  have hentries : ∀ e ∈ (trigger .builtin (multipliedTwice 2.0 1.5) (Script.ofDraws [])
    (.fresh 2 2) .empty).2.state.outcome.ledger, ¬e.TotalLost ∧ ¬e.MemoryTooDeep := by
    decide +kernel
  rw [hrun] at hr hlength hentries
  obtain rfl : r = .ok () := hr
  exact ⟨p, rfl, hlength, (trigger_stored_iff rfl (by decide +kernel) rfl hrun).mpr hentries⟩

/-- A product that leaves the doubles. The pass succeeds, but the ledger cannot be written. -/
theorem not_written_of_overflow :
    (RoundState.fresh 2 2).outcome.ledger = [] ∧
    (RoundState.fresh 2 2).outcome.multiplier.isFinite = true ∧
    Reveal.pending (.fresh 2 2) = none ∧
    (trigger .builtin (multipliedTwice 1e308 10.0) (Script.ofDraws []) (.fresh 2 2) .empty).1 =
      .ok () ∧
    ∀ text, Registry.builtin.encodeLedger (trigger .builtin (multipliedTwice 1e308 10.0)
      (Script.ofDraws []) (.fresh 2 2) .empty).2.state.outcome.ledger ≠ .ok text := by
  refine ⟨rfl, by decide +kernel, rfl, by decide +kernel, ?_⟩
  have hlost : ∃ e ∈ (trigger .builtin (multipliedTwice 1e308 10.0) (Script.ofDraws [])
    (.fresh 2 2) .empty).2.state.outcome.ledger, e.TotalLost := by decide +kernel
  obtain ⟨e, he, hlost⟩ := hlost
  exact Registry.encodeLedger_ne_ok he hlost

end SlotOutcome

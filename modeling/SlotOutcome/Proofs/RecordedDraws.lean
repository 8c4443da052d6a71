import SlotOutcome.Engine
import SlotOutcome.Proofs.Lockstep
import SlotOutcome.Proofs.PlanLockstep

/-!
# Rounds from recorded draws

A round over a recording source leaves the list of its draws. Played again over the script of this
list, with any draws after them, the round ends in the same state and has read just the recorded
draws. A round that fails, and not for want of a draw, fails again with the same error.

A failure of the source is lost: a source may refuse, or answer outside the range, and a recording
keeps no trace of why.

## Main definitions

* `Answers`: sources that answer every request with a value in range.
* `Tape`, `Tape.Repeats`: computations that a script repeats from what was recorded.

## Main results

* `Seeded.answers`: the seeded generator answers every request.
* `playWith_recorded`: recorded draws reproduce a round.
-/

namespace SlotOutcome

/-- A source answers every request for a range of 64 bits with a value in this range. -/
def Answers (σ : Type) [RandomSource σ] : Prop :=
  ∀ n, 0 < n → n < UInt64.size → ∀ source : σ,
    ∃ value next, (draw n : DrawM σ Nat) source = (.ok value, next) ∧ value < n

/-- The high half of a word times `n` is below `n`, and below `n - 1` where the low half can
carry. -/
private theorem high_lt {w n : Nat} (hw : w < UInt64.size) (hn : 0 < n) (hsize : n < UInt64.size) :
    w * n / UInt64.size < n ∧
      (UInt64.size - n < w * n % UInt64.size → w * n / UInt64.size + 1 < n) := by
  have hsplit := Nat.div_add_mod (w * n) UInt64.size
  have hle : w * n ≤ (UInt64.size - 1) * n := Nat.mul_le_mul_right n (by omega)
  have hhigh : w * n / UInt64.size < n := by
    rw [Nat.div_lt_iff_lt_mul (by decide), Nat.mul_comm n]
    exact Nat.mul_lt_mul_of_pos_right hw hn
  refine ⟨hhigh, fun hlow => ?_⟩
  by_contra hge
  have heq : w * n / UInt64.size = n - 1 := by omega
  rw [heq, Nat.mul_sub_one] at hsplit
  rw [Nat.sub_one_mul] at hle
  have hself : UInt64.size ≤ UInt64.size * n := Nat.le_mul_of_pos_right _ hn
  omega

/-- The seeded generator answers every request. -/
theorem Seeded.answers : Answers Seeded := by
  intro n hn hsize g
  change ∃ value next, Seeded.next n g = (.ok value, next) ∧ value < n
  have hword (place : Nat) : wordAt g.seed place < UInt64.size := UInt64.toNat_lt_size _
  obtain ⟨hhigh, hcarry⟩ := high_lt (hword g.taken) hn hsize
  unfold Seeded.next
  rw [if_neg (by omega)]
  dsimp only
  split
  · next hlow =>
    refine ⟨_, _, rfl, ?_⟩
    have hnext := (high_lt (hword (g.taken + 1)) hn hsize).1
    have hmod : wordAt g.seed g.taken * n % UInt64.size < UInt64.size := Nat.mod_lt _ (by decide)
    have hcarried : (wordAt g.seed g.taken * n % UInt64.size +
        wordAt g.seed (g.taken + 1) * n / UInt64.size) / UInt64.size ≤ 1 := by
      rw [← Nat.lt_succ_iff, Nat.div_lt_iff_lt_mul (by decide)]
      omega
    have := hcarry hlow
    omega
  · exact ⟨_, _, rfl, hhigh⟩

/-! ### Repeating from a tape -/

/-- A way to keep a recording in a state, and the same state with a script in its place. -/
structure Tape (s s' : Type) where
  draws : s → List Nat
  scripted : s → Script → s'

namespace Tape

variable {s s' ε ε' α β : Type} (t : Tape s s') {lost : ε → Prop}

/-- The second computation repeats the first one from the draws that the first one recorded,
whatever comes after them on the script. Nothing is said when an error was lost. -/
def Repeats (lost : ε → Prop) (m : ExceptT ε (StateM s) α) (m' : ExceptT ε (StateM s') α) :
    Prop :=
  ∀ x r y, m x = (r, y) → ∃ drawn, t.draws y = t.draws x ++ drawn ∧
    ((∃ e, r = .error e ∧ lost e) ∨
      ∀ consumed suffix, m' (t.scripted x ⟨consumed, drawn ++ suffix⟩) =
        (r, t.scripted y ⟨consumed + drawn.length, suffix⟩))

variable {t}

/-- A computation that leaves the recording alone is repeated without draws. -/
theorem Repeats.of_run {m : ExceptT ε (StateM s) α} {m' : ExceptT ε (StateM s') α}
    (h : ∀ x, t.draws (m x).2 = t.draws x ∧
      ∀ script, m' (t.scripted x script) = ((m x).1, t.scripted (m x).2 script)) :
    t.Repeats lost m m' := by
  rintro x r y hrun
  obtain ⟨hdraws, hrest⟩ := h x
  rw [hrun] at hdraws hrest
  exact ⟨[], by rw [hdraws, List.append_nil], .inr fun _ _ => hrest _⟩

theorem Repeats.pure (a : α) : t.Repeats lost (pure a) (pure a) :=
  .of_run fun _ => ⟨rfl, fun _ => rfl⟩

theorem Repeats.throw (e : ε) : t.Repeats (α := α) lost (throw e) (throw e) :=
  .of_run fun _ => ⟨rfl, fun _ => rfl⟩

/-- Parts that are repeated one after the other are repeated together. -/
theorem Repeats.bind {m : ExceptT ε (StateM s) α} {m' : ExceptT ε (StateM s') α}
    {f : α → ExceptT ε (StateM s) β} {f' : α → ExceptT ε (StateM s') β}
    (h : t.Repeats lost m m') (hf : ∀ a, t.Repeats lost (f a) (f' a)) :
    t.Repeats lost (m >>= f) (m' >>= f') := by
  intro x r z hrun
  rw [bind_run] at hrun
  rcases hm : m x with ⟨e | a, y⟩
  · obtain ⟨drawn, hdrawn, hrest⟩ := h x _ y hm
    rw [hm] at hrun
    cases hrun
    refine ⟨drawn, hdrawn, ?_⟩
    rcases hrest with ⟨e', he, hlost⟩ | hrest
    · cases he
      exact .inl ⟨e, rfl, hlost⟩
    · exact .inr fun consumed suffix => by rw [bind_run, hrest]
  · obtain ⟨drawn, hdrawn, hrest⟩ := h x _ y hm
    rw [hm] at hrun
    obtain ⟨more, hmore, hafter⟩ := hf a y r z hrun
    refine ⟨drawn ++ more, by rw [hmore, hdrawn, List.append_assoc], ?_⟩
    rcases hrest with ⟨e', he, -⟩ | hrest
    · cases he
    refine hafter.imp id fun hafter consumed suffix => ?_
    rw [bind_run, List.append_assoc, hrest]
    dsimp only
    rw [hafter, List.length_append, Nat.add_assoc]

/-- Errors may be changed on both sides. -/
theorem Repeats.adapt {m : ExceptT ε (StateM s) α} {m' : ExceptT ε (StateM s') α}
    (h : t.Repeats lost m m') {lost' : ε' → Prop} {f : ε → ε'} (hlost : ∀ e, lost e → lost' (f e)) :
    t.Repeats lost' (ExceptT.adapt f m) (ExceptT.adapt f m') := by
  intro x r y hrun
  rw [adapt_run] at hrun
  cases hrun
  obtain ⟨drawn, hdrawn, hrest⟩ := h x _ _ rfl
  refine ⟨drawn, hdrawn, ?_⟩
  rcases hrest with ⟨e, he, hl⟩ | hrest
  · exact .inl ⟨f e, by rw [he]; rfl, hlost e hl⟩
  · exact .inr fun consumed suffix => by rw [adapt_run, hrest]

end Tape

/-! ### Draws -/

variable {σ : Type} [RandomSource σ]

/-- A recording as a state of its own. -/
def Recording.tape (σ : Type) : Tape (Recording σ) Script :=
  ⟨Recording.draws, fun _ script => script⟩

/-- The errors that the draws of a round are blamed for. -/
def FeatureError.IsRandom (e : FeatureError) : Prop := e.kind = .random

theorem Script.draw_cons {n value : Nat} (h : value < n) (consumed : Nat) (rest : List Nat) :
    (draw n : DrawM Script Nat) ⟨consumed, value :: rest⟩ = (.ok value, ⟨consumed + 1, rest⟩) := by
  change Script.next n _ = _
  rw [Script.next, if_neg (by omega)]
  exact if_pos h

theorem Recording.draw_run (n : Nat) (r : Recording σ) :
    (draw n : DrawM (Recording σ) Nat) r = match (draw n : DrawM σ Nat) r.inner with
      | (.ok value, inner) => (.ok value, ⟨inner, r.draws ++ [value]⟩)
      | (.error e, inner) => (.error e, ⟨inner, r.draws⟩) := rfl

theorem drawBelow_of_draw {n value : Nat} {x y : σ}
    (hdraw : (draw n : DrawM σ Nat) x = (.ok value, y)) (h : value < n) :
    (drawBelow n : DrawM σ (Fin n)) x = (.ok ⟨value, h⟩, y) := by
  rw [drawBelow, bind_run, hdraw]
  dsimp only
  rw [dif_pos h]
  rfl

/-- A single draw with its check is repeated unless it fails. -/
theorem drawBelow_repeats (n : Nat) :
    (Recording.tape σ).Repeats (fun _ => True) (drawBelow n) (drawBelow n) := by
  intro x r y hrun
  rw [drawBelow, bind_run, Recording.draw_run] at hrun
  rcases hdraw : (draw n : DrawM σ Nat) x.inner with ⟨e | value, inner⟩ <;> rw [hdraw] at hrun
  · cases hrun
    exact ⟨[], (List.append_nil _).symm, .inl ⟨e, rfl, trivial⟩⟩
  · dsimp only at hrun
    refine ⟨[value], ?_⟩
    split at hrun
    · next h =>
      cases hrun
      exact ⟨rfl, .inr fun _ _ => drawBelow_of_draw (Script.draw_cons h _ _) h⟩
    · cases hrun
      exact ⟨rfl, .inl ⟨_, rfl, trivial⟩⟩

/-- An answered draw is repeated. -/
theorem draw_repeats (hσ : Answers σ) {n : Nat} (hn : 0 < n) (hsize : n < UInt64.size)
    (lost : DrawError → Prop) : (Recording.tape σ).Repeats lost (draw n) (draw n) := by
  intro x r y hrun
  obtain ⟨value, inner, hdraw, h⟩ := hσ n hn hsize x.inner
  rw [Recording.draw_run, hdraw] at hrun
  cases hrun
  exact ⟨[value], rfl, .inr fun _ _ => Script.draw_cons h _ _⟩

/-- A choice by weights is repeated, also when the weights allow none. -/
theorem weightedIndex_repeats (hσ : Answers σ) (weights : List Nat) (lost : DrawError → Prop) :
    (Recording.tape σ).Repeats lost (weightedIndex weights) (weightedIndex weights) := by
  rw [weightedIndex_eq, weightedIndex_eq]
  by_cases hbig : UInt64.size ≤ weightSum weights
  · rw [if_pos hbig, if_pos hbig]
    exact .throw _
  by_cases hzero : weightSum weights = 0
  · rw [if_neg hbig, if_neg hbig, if_pos hzero, if_pos hzero]
    exact .throw _
  rw [if_neg hbig, if_neg hbig, if_neg hzero, if_neg hzero]
  refine .bind (draw_repeats hσ (by omega) (by omega) lost) fun value => ?_
  rcases indexAt weights value with _ | index
  · exact .throw _
  · exact .pure _

/-- Plans are repeated unless they fail for want of a draw. -/
def plansRepeated (hσ : Answers σ) : PlanLockstep (Recording σ) Script where
  Rel := (Recording.tape σ).Repeats FeatureError.IsRandom
  pure := .pure
  throw _ := .throw _
  bind := .bind
  below {n} _ := (drawBelow_repeats n).adapt fun _ _ => rfl
  choose weights := (weightedIndex_repeats hσ weights fun _ => False).adapt fun _ h => h.elim

/-! ### Passes -/

namespace Pass

/-- A pass over another source. -/
def withSource {τ : Type} (p : Pass σ) (source : τ) : Pass τ := ⟨source, p.visits, p.state, p.bag⟩

/-- A pass over a recording. -/
def tape (σ : Type) : Tape (Pass (Recording σ)) (Pass Script) :=
  ⟨fun p => p.source.draws, withSource⟩

end Pass

omit [RandomSource σ] in
/-- An atom of a pass is repeated if its plans are. -/
theorem atomic_repeats {α : Type} {lost : FeatureError → Prop}
    {act : RoundState → Bag → PlanM (Recording σ) (α × RoundState × Bag)}
    {act' : RoundState → Bag → PlanM Script (α × RoundState × Bag)}
    (h : ∀ s bag, (Recording.tape σ).Repeats lost (act s bag) (act' s bag)) :
    (Pass.tape σ).Repeats lost (atomic act) (atomic act') := by
  intro p r p' hrun
  rcases hact : act p.state p.bag p.source with ⟨r', source⟩
  obtain ⟨drawn, hdrawn, hrest⟩ := h _ _ _ _ _ hact
  rw [atomic, hact] at hrun
  refine ⟨drawn, ?_, ?_⟩
  · rcases r' with e | a <;> cases hrun <;> exact hdrawn
  rcases hrest with ⟨e, rfl, hlost⟩ | hrest
  · cases hrun
    exact .inl ⟨e, rfl, hlost⟩
  refine .inr fun consumed suffix => ?_
  have hagain : act' p.state p.bag ⟨consumed, drawn ++ suffix⟩ =
      (r', ⟨consumed + drawn.length, suffix⟩) := hrest consumed suffix
  rcases r' with e | a <;> cases hrun <;> simp only [atomic, Pass.tape, Pass.withSource, hagain]

/-- A part of a pass with a state and a bag of its own. What the pass goes on with and what is
answered depend on the state and the bag before and on those that the part leaves. -/
def aside {α : Type} (into : RoundState × Bag → RoundState × Bag)
    (leave : RoundState × Bag → RoundState × Bag → α × RoundState × Bag) (m : PassM σ Unit) :
    PassM σ α := fun p =>
  let (r, p') := m ⟨p.source, p.visits, (into (p.state, p.bag)).1, (into (p.state, p.bag)).2⟩
  let (a, state, bag) := leave (p.state, p.bag) (p'.state, p'.bag)
  (r.map fun _ => a, ⟨p'.source, p'.visits, state, bag⟩)

omit [RandomSource σ] in
theorem aside_repeats {α : Type} {lost : FeatureError → Prop}
    (into : RoundState × Bag → RoundState × Bag)
    (leave : RoundState × Bag → RoundState × Bag → α × RoundState × Bag)
    {m : PassM (Recording σ) Unit} {m' : PassM Script Unit}
    (h : (Pass.tape σ).Repeats lost m m') :
    (Pass.tape σ).Repeats lost (aside into leave m) (aside into leave m') := by
  intro p r p' hrun
  rcases hm : m ⟨p.source, p.visits, (into (p.state, p.bag)).1, (into (p.state, p.bag)).2⟩
    with ⟨r', q⟩
  obtain ⟨drawn, hdrawn, hrest⟩ := h _ _ _ hm
  rw [aside, hm] at hrun
  cases hrun
  refine ⟨drawn, hdrawn, ?_⟩
  rcases hrest with ⟨e, rfl, hlost⟩ | hrest
  · exact .inl ⟨e, rfl, hlost⟩
  refine .inr fun consumed suffix => ?_
  have hagain : m' ⟨⟨consumed, drawn ++ suffix⟩, p.visits, (into (p.state, p.bag)).1,
      (into (p.state, p.bag)).2⟩ = (r', q.withSource ⟨consumed + drawn.length, suffix⟩) :=
    hrest consumed suffix
  simp only [aside, Pass.tape, Pass.withSource, hagain]

/-- The mark of a feature does not change the category of an error. -/
theorem FeatureError.kind_leaving (e : FeatureError) (tag : String) (id : UInt32) :
    (e.leaving tag id).kind = e.kind := by
  cases e <;> rfl

/-- Passes are repeated unless they fail for want of a draw. -/
def passesRepeated (σ : Type) : Lockstep (Recording σ) Script where
  Rel := (Pass.tape σ).Repeats FeatureError.IsRandom
  pure := .pure
  throw _ := .throw _
  bind := .bind
  view := by
    intro α f f' h p r p' hrun
    obtain ⟨drawn, hdrawn, hrest⟩ := h p (p.withSource ⟨0, []⟩) rfl rfl p r p' hrun
    refine ⟨drawn, hdrawn, or_iff_not_imp_left.mpr fun hkept consumed suffix => ?_⟩
    -- What the pass over the script sees of it depends on what was drawn, so look again.
    obtain ⟨drawn', hdrawn', hrest'⟩ :=
      h p (p.withSource ⟨consumed, drawn ++ suffix⟩) rfl rfl p r p' hrun
    obtain rfl : drawn' = drawn := List.append_cancel_left (hdrawn'.symm.trans hdrawn)
    exact (hrest'.resolve_left hkept) consumed suffix

/-- The nodes of every tree are repeated. -/
theorem trigger_repeats (hσ : Answers σ) (registry : Registry) (d : Definition)
    (above : List Definition) :
    (passesRepeated σ).Rel (d.trigger registry above) (d.trigger registry above) := by
  have hbag (bag : Bag) {m : PassM (Recording σ) Unit} {m' : PassM Script Unit}
      (h : (passesRepeated σ).Rel m m') : (passesRepeated σ).Rel (withBag bag m) (withBag bag m') :=
    aside_repeats (fun before => (before.1, bag)) (fun before left => (left.2, left.1, before.2)) h
  refine (passesRepeated σ).trigger (fun _ => True)
    (fun above d _ children _ h => (?_ : (passesRepeated σ).Rel _
      (d.enter registry above fun e => e.run d children)))
    (Definition.trigger_eq registry) d above fun _ _ => trivial
  refine (passesRepeated σ).enter (fun _ => .throw _) (fun v => ?_) (fun f => ?_) hbag
    (fun h => ?_) fun e _ => ?_
  · exact .of_run fun _ => ⟨rfl, fun _ => rfl⟩
  · exact .of_run fun _ => ⟨rfl, fun _ => rfl⟩
  · exact h.adapt fun e he => (e.kind_leaving d.tag d.id).trans he
  · refine (passesRepeated σ).run h (fun hatom => ?_) (fun _ => hbag) fun _ previous bag _ _ h => ?_
    · exact atomic_repeats fun s bag => (plansRepeated hσ).atom hatom s bag
    · exact aside_repeats (fun _ => (_, bag)) (fun before left => (left.1, before)) h

theorem playWith_of_trigger {registry : Registry} {developerMode : Bool} {d : Definition}
    {state : RoundState} {bag : Bag} {source : σ} {r : Except FeatureError Unit} {p : Pass σ}
    (h : trigger registry d source state (prepare developerMode bag) = (r, p)) :
    playWith registry developerMode d state bag source = (r.map fun _ => p.state, p.source) := by
  simp only [playWith, playPrepared, h]

/-- Recorded draws reproduce a round. Over the script of what a recording of a source noted, with
any draws after it, the same round ends in the same state and leaves just those draws unread. If
the round fails, but not for want of a draw, it fails again with the same error. -/
theorem playWith_recorded (hσ : Answers σ) (registry : Registry) (developerMode : Bool)
    (d : Definition) (state : RoundState) (bag : Bag) (source : σ) (suffix : List Nat) :
    let first := playWith registry developerMode d state bag (Recording.start source)
    let again := playWith registry developerMode d state bag
      (Script.ofDraws (first.2.draws ++ suffix))
    (∀ final, first.1 = .ok final → again = (.ok final, ⟨first.2.draws.length, suffix⟩)) ∧
      ∀ e, first.1 = .error e → e.kind ≠ .random →
        again = (.error e, ⟨first.2.draws.length, suffix⟩) := by
  intro first again
  rcases hrun : trigger registry d (Recording.start source) state (prepare developerMode bag)
    with ⟨r, p⟩
  have hfirst : first = (r.map fun _ => p.state, p.source) := playWith_of_trigger hrun
  obtain ⟨drawn, hdrawn, hrest⟩ := trigger_repeats hσ registry d [] _ r p hrun
  have hdraws : first.2.draws = drawn := by
    rw [hfirst]
    exact hdrawn
  have hagain (h : ¬∃ e, r = .error e ∧ e.kind = .random) :
      again = (first.1, ⟨first.2.draws.length, suffix⟩) := by
    have hscript : trigger registry d (Script.ofDraws (first.2.draws ++ suffix)) state
        (prepare developerMode bag) = (r, p.withSource ⟨first.2.draws.length, suffix⟩) := by
      rw [hdraws, ← Nat.zero_add drawn.length]
      exact (hrest.resolve_left h) 0 suffix
    rw [show again = _ from playWith_of_trigger hscript, hfirst]
    rfl
  refine ⟨fun final hfinal => ?_, fun e he hkind => ?_⟩
  · rw [hagain ?_, hfinal]
    rintro ⟨e, rfl, -⟩
    rw [hfirst] at hfinal
    cases hfinal
  · rw [hagain ?_, he]
    rintro ⟨e', rfl, hrandom⟩
    rw [hfirst] at he
    cases he
    exact hkind hrandom

/-- Spins two short reels. -/
def twoReels : Definition where
  id := 1
  tag := "ReelStops"
  params := (Bag.empty.insert "Reels" (.arr [.ofNats [1, 2, 3], .ofNats [4, 5]])).insert "Rows"
    (.ofNat 1)
  features := []

/-- Spins two short reels and then calls a feature of no known type. -/
def twoReelsAndMore : Definition where
  id := 2
  tag := "Activator"
  params := .empty
  features := [twoReels, ⟨3, "Nothing", .empty, []⟩]

/-- The generator of seed 2 stops the two reels at 2 and 1. A script of these stops plays the round
again, up to the error if there is one. -/
theorem playWith_recorded_twoReels :
    (∃ final, (playWith .builtin false twoReels (.fresh 2 1) .empty
        (Recording.start (Seeded.ofSeed 2))).1 = .ok final ∧
      playWith .builtin false twoReels (.fresh 2 1) .empty (Script.ofDraws ([2, 1] ++ [9])) =
        (.ok final, ⟨2, [9]⟩)) ∧
    playWith .builtin false twoReelsAndMore (.fresh 2 1) .empty (Script.ofDraws ([2, 1] ++ [9])) =
      (.error (.inFeature "Nothing" 3 (.config (.unknownType "Nothing"))), ⟨2, [9]⟩) := by
  have hspin := playWith_recorded Seeded.answers .builtin false twoReels (.fresh 2 1) .empty
    (Seeded.ofSeed 2) [9]
  have hmore := playWith_recorded Seeded.answers .builtin false twoReelsAndMore (.fresh 2 1) .empty
    (Seeded.ofSeed 2) [9]
  have hresult : (playWith .builtin false twoReelsAndMore (.fresh 2 1) .empty
      (Recording.start (Seeded.ofSeed 2))).1.map (fun _ => ()) =
        .error (.inFeature "Nothing" 3 (.config (.unknownType "Nothing"))) := by decide +kernel
  dsimp only at hspin hmore
  rw [show (playWith .builtin false twoReels (.fresh 2 1) .empty
    (Recording.start (Seeded.ofSeed 2))).2.draws = [2, 1] by decide +kernel] at hspin
  rw [show (playWith .builtin false twoReelsAndMore (.fresh 2 1) .empty
    (Recording.start (Seeded.ofSeed 2))).2.draws = [2, 1] by decide +kernel] at hmore
  constructor
  · have hok : (playWith .builtin false twoReels (.fresh 2 1) .empty
        (Recording.start (Seeded.ofSeed 2))).1.toOption.isSome := by decide +kernel
    rcases hfirst : (playWith .builtin false twoReels (.fresh 2 1) .empty
        (Recording.start (Seeded.ofSeed 2))).1 with e | final
    · rw [hfirst] at hok
      cases hok
    · exact ⟨final, rfl, hspin.1 final hfirst⟩
  · refine hmore.2 _ ?_ (by decide)
    rcases hfirst : (playWith .builtin false twoReelsAndMore (.fresh 2 1) .empty
        (Recording.start (Seeded.ofSeed 2))).1 with e | final
    · rw [hfirst] at hresult
      cases hresult
      rfl
    · rw [hfirst] at hresult
      cases hresult

end SlotOutcome

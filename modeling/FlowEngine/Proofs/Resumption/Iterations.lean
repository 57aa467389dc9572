import FlowEngine.Proofs.Resumption.Simulates
import FlowEngine.Proofs.Walk.Iterations

/-!
# Walking iterations again

The iterations of a loop that was cut short are walked again, each from a part of its records. Those
before the one that waits are complete, so that this one is not skipped.

* `PartsOf` — parts of the records of all iterations.
* `Revisits` — an iteration that is walked again as the whole one was.
* `RevisitedAll` — what becomes of all iterations.
* `Iterated.advances` — they are completed, or the first one that pauses is the cut.
-/

namespace FlowEngine.Engine

open FlowEngine.Run FlowEngine.Flow

/-! ## Parts of all iterations -/

/-- Parts of the records of all iterations. If an action waits, it is in the iteration at the cut, and
those before it are complete. -/
structure PartsOf (asks : String → Json → Prop) (waits : Bool) (cut : Nat)
    (its wholes : List StepMap) : Prop where
  length : its.length = wholes.length
  within : waits = true → cut < its.length
  before : waits = true → ∀ (i : Nat) (m m' : StepMap), i < cut → its[i]? = some m →
    wholes[i]? = some m' → m.timeless = m'.timeless
  each : ∀ (i : Nat) (m m' : StepMap), its[i]? = some m → wholes[i]? = some m' →
    Partial asks (waits && decide (i = cut)) m m'

/-- An iteration that is walked again simulates the whole one. -/
structure Revisits (x : Rerun) (visit : StepMap → Walk) (whole : StepMap) : Prop where
  finished : whole.Finished
  rests : ∀ m : StepMap, m.timeless = whole.timeless →
    ∃ s, visit m = Walk.ended s ∧ s.verdict = .running
  gives : ∀ waits m, Partial x.asks waits m whole →
    (m = [] ∨ x.setup.payload.getD .empty = x.payload) →
    Gives x.answers (visit m) (Advances x waits [] m whole)

/-- What becomes of an iteration that is walked again, unless it is skipped. -/
structure Revisited (x : Rerun) (waits : Bool) (kids : List (Option RunState)) (i : Nat)
    (m m' whole : StepMap) : Prop where
  finished : whole.Finished
  part : Partial x.asks waits m whole
  kid : kids[i]? = some none ∨ ∃ s, kids[i]? = some (some s)
  after : MapAfter kids i m m'
  advances : ∀ s, kids[i]? = some (some s) → Advances x waits [] m whole s
  rests : m.timeless = whole.timeless → ∀ s, kids[i]? = some (some s) → s.verdict = .running

section

variable {x : Rerun} {waits : Bool} {m m' whole : StepMap} {kids : List (Option RunState)}
  {s : RunState} {i cut : Nat}

/-- What comes of a walk that has no records before it. -/
theorem Advances.inner (h : Advances x waits [] m whole s) :
    m.finishedCount + waits.toNat ≤ s.steps.finishedCount ∧
      (s.verdict = .running ∧ s.steps.timeless = whole.timeless ∨
        s.verdict.status = .paused ∧ Partial x.asks true s.steps whole) := by
  obtain ⟨kept, hs, hcount, hend⟩ := h
  rw [List.nil_append] at hs
  rw [hs]
  exact ⟨hcount, hend⟩

namespace Revisited

variable (h : Revisited x waits kids i m m' whole)

include h

/-- The map afterwards is a part again, in which no less is finished. -/
theorem progress : Partial x.asks false m' whole ∧ m.finishedCount ≤ m'.finishedCount ∧
    (kids[i]? ≠ some none → m.finishedCount + waits.toNat ≤ m'.finishedCount) := by
  rcases h.kid with hs | ⟨s, hs⟩
  · rw [h.after.skipped hs]
    exact ⟨h.part.weaken, Nat.le_refl _, fun hran => absurd hs hran⟩
  · obtain ⟨hcount, hend⟩ := (h.advances s hs).inner
    have hpart : Partial x.asks false s.steps whole := by
      rcases hend with ⟨-, halike⟩ | ⟨-, hpart⟩
      · exact .of_whole halike h.finished
      · exact hpart.weaken
    have hle : m.finishedCount ≤ s.steps.finishedCount := by omega
    by_cases hr : Repeats kids i
    · rw [h.after.repeated s hs hr, StepMap.finishedCount_withdrawPauses]
      exact ⟨hpart.withdrawn, hle, fun _ => hcount⟩
    · rw [h.after.kept s hs hr]
      exact ⟨hpart, hle, fun _ => hcount⟩

/-- An iteration that ends normally is complete. -/
theorem alike (hs : kids[i]? = some (some s)) (hv : s.verdict = .running)
    (hr : ¬ Repeats kids i) : m'.timeless = whole.timeless := by
  rw [h.after.kept s hs hr]
  obtain ⟨-, ⟨-, halike⟩ | ⟨hpaused, -⟩⟩ := (h.advances s hs).inner
  · exact halike
  · rw [hv] at hpaused
    cases hpaused

/-- An iteration that does not end normally pauses. -/
theorem paused (hs : kids[i]? = some (some s)) (hv : s.verdict ≠ .running) :
    ∃ p, s.verdict = .paused p := by
  obtain ⟨-, ⟨hrun, -⟩ | ⟨hpaused, -⟩⟩ := (h.advances s hs).inner
  · exact absurd hrun hv
  · exact status_paused_iff.mp hpaused

/-- An action waits in an iteration that pauses. -/
theorem waits_of_paused {p : Pause} (hs : kids[i]? = some (some s)) (hv : s.verdict = .paused p)
    (hr : ¬ Repeats kids i) : Partial x.asks true m' whole := by
  rw [h.after.kept s hs hr]
  obtain ⟨-, ⟨hrun, -⟩ | ⟨-, hpart⟩⟩ := (h.advances s hs).inner
  · rw [hv] at hrun
    cases hrun
  · exact hpart

end Revisited

end

section

variable {x : Rerun} {visit : Nat → Json → StepMap → Walk} {items : List Json} {t : Trace}
  {traces : Nat → Trace} {kids : List (Option RunState)} {recorded maps wholes : List StepMap}
  {decisive : Option (Nat × Verdict)} {waits : Bool} {cut : Nat}

/-- What becomes of each iteration when all of them are walked again. -/
theorem Iterated.revisited
    (hit : Iterated visit (items.zip recorded) t traces kids maps decisive)
    (ht : x.answers.Explains t) (hparts : PartsOf x.asks waits cut recorded wholes)
    (hpayload : (∀ m ∈ recorded, m = []) ∨ x.setup.payload.getD .empty = x.payload)
    (hvisit : ∀ i item whole, items[i]? = some item → wholes[i]? = some whole →
      Revisits x (visit i item) whole)
    {i : Nat} {item : Json} {m whole : StepMap} (hitem : items[i]? = some item)
    (hm : recorded[i]? = some m) (hwhole : wholes[i]? = some whole) :
    ∃ m', maps[i]? = some m' ∧ Revisited x (waits && decide (i = cut)) kids i m m' whole := by
  have hzip : (items.zip recorded)[i]? = some (item, m) :=
    List.getElem?_zip_eq_some.mpr ⟨hitem, hm⟩
  obtain ⟨m', hm', hafter⟩ := hit.maps i item m hzip
  obtain ⟨hfinished, hrests, hgives⟩ := hvisit i item whole hitem hwhole
  have hpart := hparts.each i m whole hm hwhole
  refine ⟨m', hm', hfinished, hpart, hit.kid hzip, hafter, fun s hs => ?_, fun halike s hs => ?_⟩
  · have hexplains : x.answers.Explains (traces i) := fun e he =>
      ht e ((hit.mixed.mem_iff e).mpr ⟨i, he⟩)
    have hown : m = [] ∨ x.setup.payload.getD .empty = x.payload :=
      hpayload.imp (fun h => h m (List.mem_of_getElem? hm)) id
    obtain h | ⟨s', h, hadvances⟩ :=
      hgives _ m hpart hown _ _ (hit.ran i item m s hzip hs) hexplains <;> cases h
    exact hadvances
  · obtain ⟨s', hvisit, hv⟩ := hrests m halike
    have hy := hit.ran i item m s hzip hs
    rw [hvisit] at hy
    obtain ⟨-, rfl⟩ := Yields.of_ended hy
    exact hv

/-- What becomes of all iterations when they are walked again. -/
structure RevisitedAll (x : Rerun) (waits : Bool) (cut : Nat) (kids : List (Option RunState))
    (recorded maps wholes : List StepMap) (decisive : Option (Nat × Verdict)) : Prop where
  parts : PartsOf x.asks waits cut recorded wholes
  length : recorded.length = maps.length
  ended : kids.length = recorded.length
  skipped : ∀ i, kids[i]? = some none → ∃ (k : Nat) (s : RunState), k < i ∧
    kids[k]? = some (some s) ∧ s.verdict ≠ .running
  decides : Decides kids decisive
  each : ∀ (i : Nat) (m m' whole : StepMap), recorded[i]? = some m → maps[i]? = some m' →
    wholes[i]? = some whole → Revisited x (waits && decide (i = cut)) kids i m m' whole

namespace RevisitedAll

/-- An iteration has a map before, one afterwards and a whole one. -/
theorem found (h : RevisitedAll x waits cut kids recorded maps wholes decisive) {i : Nat}
    (hi : i < recorded.length) : ∃ m m' whole, recorded[i]? = some m ∧ maps[i]? = some m' ∧
      wholes[i]? = some whole ∧ Revisited x (waits && decide (i = cut)) kids i m m' whole := by
  have hm := List.getElem?_eq_getElem hi
  have hm' := List.getElem?_eq_getElem (h.length ▸ hi)
  have hwhole := List.getElem?_eq_getElem (h.parts.length ▸ hi)
  exact ⟨_, _, _, hm, hm', hwhole, h.each i _ _ _ hm hm' hwhole⟩

theorem of_map (h : RevisitedAll x waits cut kids recorded maps wholes decisive) {i : Nat}
    {m' whole : StepMap} (hm' : maps[i]? = some m') (hwhole : wholes[i]? = some whole) :
    ∃ m, Revisited x (waits && decide (i = cut)) kids i m m' whole := by
  obtain ⟨m, hm⟩ := exists_getElem? h.length.symm hm'
  exact ⟨m, h.each i m _ _ hm hm' hwhole⟩

/-- The iteration in which an action waits is not skipped. -/
theorem ran (h : RevisitedAll x true cut kids recorded maps wholes decisive) :
    kids[cut]? ≠ some none := by
  intro hs
  obtain ⟨k, s, hk, hs, hv⟩ := h.skipped cut hs
  obtain ⟨m, m', whole, hm, -, hwhole, hrevisited⟩ := h.found (Nat.lt_trans hk (h.parts.within rfl))
  exact hv (hrevisited.rests (h.parts.before rfl k m whole hk hm hwhole) s hs)

/-- No fewer records are finished, and more if an action waited. -/
theorem count (h : RevisitedAll x waits cut kids recorded maps wholes decisive) :
    StepRecord.finishedAll recorded + waits.toNat ≤ StepRecord.finishedAll maps := by
  have count (i : Nat) (m m' : StepMap) (hm : recorded[i]? = some m) (hm' : maps[i]? = some m') :
      m.finishedCount ≤ m'.finishedCount := by
    obtain ⟨whole, hwhole⟩ := exists_getElem? h.parts.length hm
    exact (h.each i m m' whole hm hm' hwhole).progress.2.1
  cases waits with
  | false => exact StepRecord.finishedAll_le h.length count
  | true =>
    obtain ⟨m, m', whole, hm, hm', -, hrevisited⟩ := h.found (h.parts.within rfl)
    have hmore := hrevisited.progress.2.2 h.ran
    rw [decide_eq_true rfl] at hmore
    exact StepRecord.finishedAll_lt h.length count hm hm' hmore

/-- An iteration is complete if it and those before it end normally. -/
theorem alike (h : RevisitedAll x waits cut kids recorded maps wholes decisive) {i : Nat}
    {m' whole : StepMap} (hm' : maps[i]? = some m') (hwhole : wholes[i]? = some whole)
    (hrun : ∀ k s, k ≤ i → kids[k]? = some (some s) → s.verdict = .running)
    (hr : ¬ Repeats kids i) : m'.timeless = whole.timeless := by
  obtain ⟨m, hrevisited⟩ := h.of_map hm' hwhole
  rcases hrevisited.kid with hs | ⟨s, hs⟩
  · obtain ⟨k, s, hk, hs, hv⟩ := h.skipped i hs
    exact absurd (hrun k s (Nat.le_of_lt hk) hs) hv
  · exact hrevisited.alike hs (hrun i s (Nat.le_refl i) hs) hr

/-- If no iteration decides, all of them are complete. -/
theorem complete (h : RevisitedAll x waits cut kids recorded maps wholes none) :
    StepRecord.timelessAll maps = StepRecord.timelessAll wholes := by
  rw [StepRecord.timelessAll_eq_map, StepRecord.timelessAll_eq_map]
  refine List.ext_getElem (by simp [← h.length, h.parts.length]) fun i hi hi' => ?_
  rw [List.length_map] at hi hi'
  rw [List.getElem_map, List.getElem_map]
  exact h.alike (List.getElem?_eq_getElem hi) (List.getElem?_eq_getElem hi')
    (fun k s _ hs => h.decides k s hs) h.decides.not_repeats

/-- An iteration that decides pauses, and is the cut from then on. -/
theorem cut_of_decides {i : Nat} {v : Verdict}
    (h : RevisitedAll x waits cut kids recorded maps wholes (some (i, v))) :
    ∃ p, v = .paused p ∧ PartsOf x.asks true i maps wholes := by
  have hdecides := h.decides
  obtain ⟨hne, ⟨s, hs, hv⟩, -⟩ := id hdecides
  have hi : i < recorded.length := h.ended ▸ (List.getElem?_eq_some_iff.mp hs).1
  obtain ⟨m₀, m₁, whole₀, -, -, -, hdeciding⟩ := h.found hi
  obtain ⟨p, hp⟩ := hdeciding.paused hs (hv ▸ hne)
  obtain rfl : v = .paused p := hv.symm.trans hp
  refine ⟨p, rfl, h.length ▸ h.parts.length, fun _ => h.length ▸ hi,
    fun _ k m' whole hk hm' hwhole => ?_, fun k m' whole hm' hwhole => ?_⟩
  · exact h.alike hm' hwhole (fun l s hl hs => hdecides.before (Nat.lt_of_le_of_lt hl hk) hs)
      fun hr => Nat.lt_asymm hk (hdecides.lt_of_repeats hr)
  · obtain ⟨m, hrevisited⟩ := h.of_map hm' hwhole
    rw [Bool.true_and]
    by_cases hk : k = i
    · subst hk
      rw [decide_eq_true rfl]
      exact hrevisited.waits_of_paused hs hp hdecides.not_repeats_self
    · rw [decide_eq_false hk]
      exact hrevisited.progress.1

end RevisitedAll

/-- Iterations that are walked again are completed, or the first one that pauses is the cut; if an
action waited, more records are finished then. -/
theorem Iterated.advances
    (hit : Iterated visit (items.zip recorded) t traces kids maps decisive)
    (ht : x.answers.Explains t) (hlength : recorded.length = items.length)
    (hparts : PartsOf x.asks waits cut recorded wholes)
    (hpayload : (∀ m ∈ recorded, m = []) ∨ x.setup.payload.getD .empty = x.payload)
    (hvisit : ∀ i item whole, items[i]? = some item → wholes[i]? = some whole →
      Revisits x (visit i item) whole) :
    StepRecord.finishedAll recorded + waits.toNat ≤ StepRecord.finishedAll maps ∧
      (decisive = none ∧ StepRecord.timelessAll maps = StepRecord.timelessAll wholes ∨
        ∃ i p, decisive = some (i, .paused p) ∧ PartsOf x.asks true i maps wholes) := by
  have hzip : (items.zip recorded).length = recorded.length := by
    rw [List.length_zip, hlength, Nat.min_self]
  have hall : RevisitedAll x waits cut kids recorded maps wholes decisive := by
    refine ⟨hparts, (hit.mapsLength.trans hzip).symm, hit.length.trans hzip, hit.skipped, hit.decides,
      fun i m m' whole hm hm' hwhole => ?_⟩
    obtain ⟨item, hitem⟩ := exists_getElem? hlength hm
    obtain ⟨m'', hm'', h⟩ := hit.revisited ht hparts hpayload hvisit hitem hm hwhole
    obtain rfl := Option.some.inj (hm'.symm.trans hm'')
    exact h
  refine ⟨hall.count, ?_⟩
  rcases decisive with _ | ⟨i, v⟩
  · exact .inl ⟨rfl, hall.complete⟩
  · obtain ⟨p, rfl, hcut⟩ := hall.cut_of_decides
    exact .inr ⟨i, p, rfl, hcut⟩

end

end FlowEngine.Engine

import FlowEngine.Proofs.Schedule.Pool
import FlowEngine.Proofs.Walk.Iterations

/-!
# Halting a loop side by side

Workers walk the iterations of a loop side by side. The flag that keeps them from more iterations is
set when an iteration ends, while others are under way, and is read when one is claimed.

* `loopCrew` — the fan-out of the iterations.
* `Halting` — what holds of the iterations at every moment.
* `Gathered` — what the loop makes of the iterations at their end.
* `sideBySide_halts` — both, for every loop and every schedule.
-/

namespace FlowEngine.Engine

open FlowEngine.Run FlowEngine.Flow

/-- The fan-out of the iterations of a loop. -/
def loopCrew (l : Looping) (workers : Nat) (next : AfterLoop) (all : List (Json × StepMap)) :
    Crew Time.Instant Block.Call Block.Reply Result :=
  .of workers haltsLoop all.length
    (fun index => match all[index]? with
      | some (item, recorded) => l.visit index item recorded
      | none => Walk.ended l.state)
    fun results =>
      match gatherIterations 0 Halts.none (all.map Prod.snd) results with
      | .error e => .done (.error e)
      | .ok (maps, halts) => next maps halts.decisive?

/-- What holds of iterations side by side at every moment: those that are begun are the first ones, an
iteration is passed over only after an earlier one that did not end normally, and each ends as its
walk does. -/
structure Halting (l : Looping) (all : List (Json × StepMap)) (log : Log Result) : Prop where
  begun : ∃ k, log.begun = List.range k
  skipped : ∀ i ∈ log.skipped, ∃ j s, j < i ∧ .ended j (.ok s) ∈ log ∧ s.verdict ≠ .running
  own : ∀ i s, .ended i (.ok s) ∈ log → ∃ item m t, all[i]? = some (item, m) ∧
    (l.visit i item m).Runs t (.result (.ok s))

/-- What a loop makes of its iterations at their end. An iteration that was begun has the map of its
walk, without pauses if it paused and an earlier one did, too; one that was not has the map that it
had. The first iteration that failed decides, or else the first one that stopped the run, or else the
first one that paused. -/
structure Gathered (all : List (Json × StepMap)) (log : Log Result) (kids : List (Option RunState))
    (maps : List StepMap) (decisive : Option (Nat × Verdict)) : Prop where
  walked : ∀ (i : Nat) (s : RunState), kids[i]? = some (some s) ↔ .ended i (.ok s) ∈ log
  begun : ∀ i ∈ log.begun, ∃ s, kids[i]? = some (some s)
  others : ∀ i < all.length, i ∉ log.begun → kids[i]? = some none ∧ i ∈ log.skipped
  length : maps.length = all.length
  after : ∀ (i : Nat) (item : Json) (m : StepMap), all[i]? = some (item, m) →
    ∃ m', maps[i]? = some m' ∧ MapAfter kids i m m'
  decides : ∃ failed stopped paused, First .failed kids failed ∧ First .succeeded kids stopped ∧
    First .paused kids paused ∧ decisive = (failed.or stopped).or paused

variable {l : Looping} {workers : Nat} {next : AfterLoop} {all : List (Json × StepMap)}
  {log : Log Result} {t : Trace} {active : List (Nat × Process Time.Instant Block.Call Block.Reply Result)}
  {tally : Tally Result}

theorem halting (h : (loopCrew l workers next all).Course log t active tally) :
    Halting l all log where
  begun := by
    obtain ⟨k, -, -, hk, -⟩ := h.begins
    exact ⟨k, hk⟩
  skipped i hi := by
    obtain ⟨j, r, hj, hr, hs⟩ := h.skipped_after hi
    obtain ⟨s, rfl, hv⟩ := haltsLoop_iff.mp hs
    exact ⟨j, s, hj, hr, hv⟩
  own i s hs := by
    obtain ⟨u, run⟩ := h.own hs
    have hlt : i < all.length := h.lt_of_ended hs
    have hi : all[i]? = some all[i] := List.getElem?_eq_getElem hlt
    simp only [loopCrew, Crew.of, hi] at run
    exact ⟨_, _, u, hi, run⟩

theorem gathered (h : (loopCrew l workers next all).Course log t [] tally)
    (claimed : all.length ≤ tally.claimed) (noError : ∀ i e, .ended i (.error e) ∉ log) :
    ∃ kids maps decisive, Gathered all log kids maps decisive ∧
      (loopCrew l workers next all).next tally.results = next maps decisive := by
  have complete := h.complete claimed
  cases hg : gatherIterations 0 Halts.none (all.map Prod.snd) tally.results with
  | error e =>
    obtain ⟨i, hi⟩ := gatherIterations_error hg
    exact absurd ((h.recorded i _).mp hi) (noError i e)
  | ok gathered =>
    obtain ⟨maps, halts⟩ := gathered
    obtain ⟨kids, hkids, hsees, hlength, hmaps⟩ :=
      gatherIterations_ok .nil (by rw [complete.length, List.length_map]; rfl) hg
    have walked (i : Nat) (s : RunState) :
        kids[i]? = some (some s) ↔ .ended i (.ok s) ∈ log := by
      rw [← h.recorded, hkids]
      simp [Option.map_eq_some_iff]
    refine ⟨kids, maps, halts.decisive?, ⟨walked, fun i hi => ?_, fun i hi hn => ?_, ?_, ?_, ?_⟩, ?_⟩
    · obtain ⟨e | s, hr⟩ := Log.mem_ended.mp (h.ended_of_begun hi)
      · exact absurd hr (noError i e)
      · exact ⟨s, (walked i s).mpr hr⟩
    · rcases complete.entries i hi with ⟨r, -, hr⟩ | ⟨hr, hs⟩
      · exact absurd (h.begun_of_ended (Log.mem_ended.mpr ⟨r, hr⟩)) hn
      · rw [hkids] at hr
        exact ⟨by simpa [Option.map_eq_some_iff] using hr, hs⟩
    · simpa using hlength
    · intro i item m hi
      simpa using hmaps i m (by rw [List.getElem?_map, hi]; rfl)
    · exact ⟨_, _, _, hsees.failed, hsees.stopped, hsees.paused, rfl⟩
    · simp only [loopCrew, Crew.of, hg]

/-- A loop that walks its iterations side by side, with any body, any maps, any number of workers and
any schedule: it halts in order at every moment. When no more can be claimed and none is active, each
iteration was begun or passed over, and unless one had an error, the loop goes on with what it has
gathered. -/
theorem sideBySide_halts (l : Looping) (workers : Nat) (next : AfterLoop)
    (all : List (Json × StepMap)) :
    let loop := sideBySide l workers next all
    let c := loopCrew l workers next all
    (∀ t q, Process.Steps (.ready loop) t q → t = [] ∧ q = .ready loop ∨ ∃ log, c.Stage log t q) ∧
    (∀ log t active tally, c.Course log t active tally → Halting l all log) ∧
    ∀ log t tally, c.Course log t [] tally → all.length ≤ tally.claimed →
      (∀ i < all.length, i ∈ log.begun ∨ i ∈ log.skipped) ∧
      ((∀ i e, .ended i (.error e) ∉ log) →
        ∃ kids maps decisive, Gathered all log kids maps decisive ∧
          c.next tally.results = next maps decisive) := by
  refine ⟨fun _ _ => Crew.stage_of_steps, fun _ _ _ _ => halting,
    fun log t tally h claimed => ⟨fun i hi => ?_, gathered h claimed⟩⟩
  rw [← Log.mem_claimed, h.claims.1, List.mem_range]
  exact Nat.lt_of_lt_of_le hi claimed

/-! ## An example

Each item waits for a reply. -/

/-- The record of a step that waits. -/
def holdRecord : StepRecord := .action ⟨.paused, .null, none, none⟩ .null

/-- What a body makes of a run that waits. -/
def hold (s : RunState) : RunState :=
  (s.upsert "hold" holdRecord).withVerdict (.paused (.webhook "reply" .null))

/-- The loop, whose body waits. -/
def holdEach : Looping where
  name := "each"
  input := .null
  place := .top
  state := .empty "run"
  body := fun _ s => Walk.ended (hold s)

/-- The items and their maps. -/
def heldItems : List (Json × StepMap) :=
  [(.str "a", []), (.str "b", []), (.str "c", [("note", holdRecord)])]

/-- The loop at its end. -/
def holdEnd : AfterLoop := fun maps decisive =>
  Walk.ended (closeLoop holdEach (heldItems.map Prod.fst) 0 maps decisive)

/-- Two workers walk the three items. The second item is the first to wait, so the third one is not
begun and keeps its map; the first item decides, and the pause of the second one is withdrawn. -/
theorem holdEach_halts :
    let held := hold (.empty "run")
    let c := loopCrew holdEach 2 holdEnd heldItems
    let log : Log Result := [.begun 0, .begun 1, .ended 1 (.ok held), .skipped 2, .ended 0 (.ok held)]
    ∃ t tally, c.Course log t [] tally ∧
      c.next tally.results = holdEnd [held.steps, [], [("note", holdRecord)]]
        (some (0, held.verdict)) ∧
      Halting holdEach heldItems log ∧ ∃ kids maps decisive, Gathered heldItems log kids maps decisive := by
  let held := hold (.empty "run")
  let c := loopCrew holdEach 2 holdEnd heldItems
  have begun : c.Course [.begun 0, .begun 1] []
      ([(0, .ready (Walk.ended held))] ++ (1, .ready (Walk.ended held)) :: []) _ :=
    (Crew.Course.opened.claim (by decide) (by decide) rfl).claim (by decide) (by decide) rfl
  have second : c.Course _ [] ([] ++ (0, .ready (Walk.ended held)) :: []) _ :=
    (begun.work (.done _)).settle.skip (by decide) (by decide) rfl
  have first := (second.work (.done _)).settle
  have noError (i : Nat) (e : Fault) : .ended i (.error e) ∉ ([.begun 0, .begun 1,
      .ended 1 (.ok held), .skipped 2, .ended 0 (.ok held)] : Log Result) := by simp
  obtain ⟨-, halting, gathered⟩ := sideBySide_halts holdEach 2 holdEnd heldItems
  obtain ⟨kids, maps, decisive, h, -⟩ := (gathered _ _ _ first (by decide)).2 noError
  exact ⟨_, _, first, rfl, halting _ _ _ _ first, kids, maps, decisive, h⟩

end FlowEngine.Engine

import FlowEngine.Proofs.Schedule.Course

/-!
# Pools of workers

A fan-out is a pool: workers claim its tasks one after the other. Whatever they do in between and in
whatever order, the tasks are begun in order and once each, the pool is never exceeded, and the
results are handed on in the order of the tasks.

* `Orderly` — what holds of a pool at every moment.
* `Complete` — what holds of the results that are handed on.
* `Process.Leads` — however a process goes on, it comes to some kind of process.
* `Crew.Course.leads` — a pool hands on its results if all tasks end.
* `pool_orderly` — all of this, for every pool and every schedule.
-/

namespace FlowEngine.Engine

variable {τ κ ρ ω : Type}

namespace Process

/-- However a process goes on with events of some kind, it comes to a process of some kind. -/
inductive Leads (A : Event κ ρ → Prop) (G : Process τ κ ρ ω → Prop) : Process τ κ ρ ω → Prop
  | here {p} (holds : G p) : Leads A G p
  | step {p} (going : ∃ es q, Step p es q ∧ ∀ e ∈ es, A e)
    (leads : ∀ es q, Step p es q → (∀ e ∈ es, A e) → Leads A G q) : Leads A G p

variable {A : Event κ ρ → Prop} {Q : ω → Prop} {p q : Process τ κ ρ ω} {es : List (Event κ ρ)}

/-- A process that ends with a result does not crash. -/
theorem Ends.not_crashed : ¬ Ends A Q (crashed : Process τ κ ρ ω) := fun h => by
  cases h with
  | step going =>
    obtain ⟨es, q, step, -⟩ := going
    cases step

/-- A process that has a result has one of the kind that it ends with. -/
theorem Ends.holds {r : ω} (h : Ends A Q (ended r : Process τ κ ρ ω)) : Q r := by
  cases h with
  | result holds => exact holds
  | step going =>
    obtain ⟨es, q, step, -⟩ := going
    cases step

theorem Ends.after (h : Ends A Q p) (step : Step p es q) (hes : ∀ e ∈ es, A e) : Ends A Q q := by
  cases h with
  | result => cases step
  | step _ ends => exact ends es q step hes

end Process

namespace Crew

variable {c : Crew τ κ ρ ω} {log : Log ω} {t es : List (Event κ ρ)}
  {active : List (Nat × Process τ κ ρ ω)} {tally : Tally ω}

/-! ## Moments -/

/-- What holds of a pool at every moment: the tasks are claimed in order, each is begun at most once
and then ends at most once, there are never more active tasks than workers, and the results are those
of the tasks. -/
structure Orderly (c : Crew τ κ ρ ω) (workers : Nat) (log : Log ω)
    (active : List (Nat × Process τ κ ρ ω)) (tally : Tally ω) : Prop where
  claims : log.claimed = List.range tally.claimed
  within : tally.claimed ≤ c.count
  order : ∀ (before after : Log ω) i, log = before ++ .begun i :: after → before.claimed = List.range i
  begins : ∃ k, log.begun = List.range k
  ends : log.ended.Nodup
  inFlight : ∀ i, i ∈ active.map Prod.fst ↔ i ∈ log.begun ∧ i ∉ log.ended
  distinct : (active.map Prod.fst).Nodup
  bounded : active.length ≤ max 1 (min workers c.count)
  own : ∀ i r, .ended i r ∈ log → ∃ u, (c.task i).Runs u (.result r)
  length : tally.results.length = c.count
  recorded : ∀ i r, tally.results[i]? = some (some r) ↔ .ended i r ∈ log
  skipped : ∀ i ∈ log.skipped, ∃ j r, j < i ∧ .ended j r ∈ log ∧ c.stops r = true

theorem Course.orderly {workers : Nat} (h : Course c log t active tally)
    (hlimit : c.limit ≤ max 1 (min workers c.count)) : c.Orderly workers log active tally where
  claims := h.claims.1
  within := h.claims.2
  order _ _ _ := h.claims_before rfl
  begins := by
    obtain ⟨k, -, -, hk, -⟩ := h.begins
    exact ⟨k, hk⟩
  ends := h.ended_nodup
  inFlight := h.inFlight
  distinct := h.tallied.distinct
  bounded := Nat.le_trans h.bounded hlimit
  own _ _ := h.own
  length := h.tallied.length
  recorded := h.recorded
  skipped _ := h.skipped_after

/-! ## Results -/

/-- What holds of the results that a pool hands on: there is one for every task, at its place, and
none is missing but those of the tasks that were passed over. Unless a result stops, all tasks are
begun, and all results are there. -/
structure Complete (c : Crew τ κ ρ ω) (log : Log ω) (results : List (Option ω)) : Prop where
  length : results.length = c.count
  entries : ∀ i < c.count, (∃ r, results[i]? = some (some r) ∧ .ended i r ∈ log) ∨
    results[i]? = some none ∧ i ∈ log.skipped
  full : (∀ i r, .ended i r ∈ log → c.stops r = false) → log.begun = List.range c.count ∧
    ∀ i < c.count, ∃ r u, results[i]? = some (some r) ∧ (c.task i).Runs u (.result r)

theorem Course.complete (h : Course c log t [] tally) (all : c.count ≤ tally.claimed) :
    c.Complete log tally.results := by
  have entries : ∀ i < c.count, (∃ r, tally.results[i]? = some (some r) ∧ .ended i r ∈ log) ∨
      tally.results[i]? = some none ∧ i ∈ log.skipped := by
    intro i hi
    have hclaimed : i ∈ log.claimed := by
      rw [h.claims.1, List.mem_range]
      omega
    have hlt : i < tally.results.length := by rwa [h.tallied.length]
    cases hr : tally.results[i] with
    | some r =>
      have hr : tally.results[i]? = some (some r) := by rw [List.getElem?_eq_getElem hlt, hr]
      exact .inl ⟨r, hr, (h.recorded i r).mp hr⟩
    | none =>
      have hr : tally.results[i]? = some none := by rw [List.getElem?_eq_getElem hlt, hr]
      refine .inr ⟨hr, (Log.mem_claimed.mp hclaimed).resolve_left fun hb => ?_⟩
      obtain ⟨r, hend⟩ := Log.mem_ended.mp (h.ended_of_begun hb)
      rw [(h.recorded i r).mpr hend] at hr
      cases hr
  refine ⟨h.tallied.length, entries, fun going => ?_⟩
  have none_skipped (i : Nat) : i ∉ log.skipped := fun hi => by
    obtain ⟨j, r, -, hr, hs⟩ := h.skipped_after hi
    rw [going j r hr] at hs
    cases hs
  constructor
  · obtain ⟨k, n, hk, hb, hs, -⟩ := h.begins
    have hn : n = 0 := by
      by_contra hn
      refine none_skipped k ?_
      rw [hs, List.mem_range']
      exact ⟨0, by omega, by omega⟩
    have hcount : k = c.count := by
      have := h.claims.2
      omega
    rw [hb, hcount]
  · intro i hi
    obtain ⟨r, hr, hend⟩ := (entries i hi).resolve_right fun hs => none_skipped i hs.2
    obtain ⟨u, hu⟩ := h.own hend
    exact ⟨r, u, hr, hu⟩

/-! ## Progress -/

variable {A : Event κ ρ → Prop} {Q : Nat → ω → Prop}

/-- The active tasks will end with results of some kind, and those that have ended have. -/
structure Hopeful (A : Event κ ρ → Prop) (Q : Nat → ω → Prop) (log : Log ω)
    (active : List (Nat × Process τ κ ρ ω)) : Prop where
  active : ∀ i p, (i, p) ∈ active → Process.Ends A (Q i) p
  ended : ∀ i r, .ended i r ∈ log → Q i r

/-- A pool is never stuck before its results are handed on. -/
theorem Course.goes_on (hworkers : 0 < c.count → 0 < c.limit) (h : Course c log t active tally)
    (hope : Hopeful A Q log active) :
    ∃ es q, Process.Step (c.process active tally) es q ∧ ∀ e ∈ es, A e := by
  rcases active with _ | ⟨⟨i, p⟩, active⟩
  · by_cases hall : c.count ≤ tally.claimed
    · exact ⟨[], _, .join hall, by simp⟩
    have hroom : ([] : List (Nat × Process τ κ ρ ω)).length < c.limit := hworkers (by omega)
    cases hhalted : tally.halted with
    | true => exact ⟨[], _, .skip hroom (by omega) hhalted, by simp⟩
    | false => exact ⟨[], _, .claim hroom (by omega) hhalted, by simp⟩
  · rw [← List.nil_append ((i, p) :: active)]
    cases hope.active i p List.mem_cons_self with
    | result => exact ⟨[], _, .settle, by simp⟩
    | step going =>
      obtain ⟨es, q, step, hes⟩ := going
      exact ⟨es, _, .work step, hes⟩

/-- What a pool comes to when all tasks are claimed and have ended. -/
def HandsOn (c : Crew τ κ ρ ω) (Q : Nat → ω → Prop) (q : Process τ κ ρ ω) : Prop :=
  ∃ log t tally, Course c log t [] tally ∧ c.count ≤ tally.claimed ∧
    (∀ i r, .ended i r ∈ log → Q i r) ∧ q = .ready (c.next tally.results)

/-- If all tasks end, a pool comes to hand on its results, whatever the schedule. -/
theorem Course.leads (hworkers : 0 < c.count → 0 < c.limit)
    (tasks : ∀ i < c.count, Process.Ends A (Q i) (.ready (c.task i)))
    (h : Course c log t active tally) (hope : Hopeful A Q log active)
    (hacc : Acc Process.After (c.process active tally)) :
    Process.Leads A (c.HandsOn Q) (c.process active tally) := by
  generalize hp : c.process active tally = p at hacc
  induction hacc generalizing log t active tally with
  | intro p _ ih =>
    subst hp
    refine .step (h.goes_on hworkers hope) fun es q step hes => ?_
    have go {log' t' active' tally'} (h' : Course c log' t' active' tally')
        (hq : q = c.process active' tally') (hope' : Hopeful A Q log' active') :
        Process.Leads A (c.HandsOn Q) q := by
      subst hq
      exact ih _ ⟨es, step⟩ h' hope' rfl
    have step' := step
    unfold process at step'
    cases step' with
    | claim room left going =>
      refine go (h.claim room left going) rfl ⟨fun i p hp => ?_, fun i r hr => ?_⟩
      · rcases List.mem_append.mp hp with hp | hp
        · exact hope.active i p hp
        · cases List.mem_singleton.mp hp
          exact tasks _ left
      · exact hope.ended i r (by simpa using hr)
    | skip room left halted =>
      exact go (h.skip room left halted) rfl
        ⟨hope.active, fun i r hr => hope.ended i r (by simpa using hr)⟩
    | @work _ _ _ _ _ _ _ _ i p _ _ step' =>
      refine go (h.work step') rfl ⟨fun j q hq => ?_, hope.ended⟩
      rcases mem_middle.mp hq with hq | hq
      · cases hq
        exact (hope.active i p (mem_middle.mpr (.inl rfl))).after step' hes
      · exact hope.active j q (mem_middle.mpr (.inr hq))
    | @settle _ _ _ _ _ _ _ _ i =>
      refine go h.settle rfl ⟨fun j q hq => hope.active j q (mem_middle.mpr (.inr hq)),
        fun j r' hr => ?_⟩
      rcases List.mem_append.mp hr with hr | hr
      · exact hope.ended j r' hr
      · cases List.mem_singleton.mp hr
        exact (hope.active i _ (mem_middle.mpr (.inl rfl))).holds
    | fail =>
      exact absurd (hope.active _ _ (mem_middle.mpr (.inl rfl))) Process.Ends.not_crashed
    | join all => exact .here ⟨log, t, tally, h, all, hope.ended, rfl⟩

end Crew

/-! ## Pools -/

/-- Every pool, with any number of workers and any schedule, as the scheduler is one.

Once it has begun it is at one of its stages; at every moment it is orderly; the results that it
hands on are complete; and if all tasks end, it comes to hand them on. -/
theorem pool_orderly (workers count : Nat) (stops : ω → Bool) (task : Nat → Job τ κ ρ ω)
    (next : List (Option ω) → Job τ κ ρ ω) :
    let pool : Job τ κ ρ ω := .fan workers stops count task next
    let c := Crew.of workers stops count task next
    (∀ (σ : Type) (world : World σ τ κ ρ) a s, Scheduled world pool a s →
      ∃ t q, Process.Steps (.ready pool) t q ∧ Stands a q) ∧
    (∀ t q, Process.Steps (.ready pool) t q → t = [] ∧ q = .ready pool ∨ ∃ log, c.Stage log t q) ∧
    (∀ log t active tally, c.Course log t active tally → c.Orderly workers log active tally) ∧
    (∀ log t tally, c.Course log t [] tally → count ≤ tally.claimed →
      c.Complete log tally.results) ∧
    ∀ (A : Event κ ρ → Prop) (Q : Nat → ω → Prop),
      (∀ i < count, Process.Ends A (Q i) (.ready (task i))) →
        Process.Leads A (c.HandsOn Q) (.ready pool) := by
  refine ⟨fun σ world a s h => ?_, fun t q => Crew.stage_of_steps,
    fun log t active tally h => h.orderly ?_, fun log t tally h all => h.complete all,
    fun A Q tasks => ?_⟩
  · have htells : world.Tells fun _ => True := fun _ _ _ _ => trivial
    obtain ⟨t, q, steps, -, hq⟩ := h.makes htells
    exact ⟨t, q, steps, hq⟩
  · simp only [Crew.of]
    omega
  · refine .step ⟨[], _, .fan _ _ _ _ _, by simp⟩ fun es q step _ => ?_
    have hacc := (Process.acc_ready (.fan workers stops count task next)).inv ⟨es, step⟩
    cases step
    exact Crew.Course.leads (c := Crew.of workers stops count task next)
      (fun _ => by simp only [Crew.of] at *; omega) tasks .opened ⟨by simp, by simp⟩ hacc

/-- Three chores, the first of which takes some time and fails. -/
def chores : Nat → Job Unit Unit Unit (Except String Nat)
  | 0 => .sleep 5000000 false (.done (.error "closed"))
  | i + 1 => .done (.ok i)

/-- Two workers run three chores. The first one is the last to end, and its failure keeps no other
from its place. -/
theorem chores_orderly :
    let c := Crew.of 2 (fun _ => false) 3 chores fun _ => .crash
    ∃ log t tally, c.Course log t [] tally ∧
      log = [.begun 0, .begun 1, .ended 1 (.ok 0), .begun 2, .ended 2 (.ok 1),
        .ended 0 (.error "closed")] ∧
      tally.results = [some (.error "closed"), some (.ok 0), some (.ok 1)] ∧
      c.Complete log tally.results := by
  let c := Crew.of 2 (fun _ => false) 3 chores fun _ => .crash
  have begun : c.Course [.begun 0, .begun 1] []
      ([(0, .ready (chores 0))] ++ (1, .ready (chores 1)) :: []) _ :=
    (Crew.Course.opened.claim (by decide) (by decide) rfl).claim (by decide) (by decide) rfl
  have second : c.Course _ [] ([(0, .ready (chores 0))] ++ (2, .ready (chores 2)) :: []) _ :=
    (begun.work (.done _)).settle.claim (by decide) (by decide) rfl
  have third : c.Course _ [] ([] ++ (0, .ready (chores 0)) :: []) _ :=
    (second.work (.done _)).settle
  have first := ((third.work (.sleep _ _ _)).work (.done _)).settle
  exact ⟨_, _, _, first, rfl, rfl, (pool_orderly 2 3 _ chores _).2.2.2.1 _ _ _ first (by decide)⟩

end FlowEngine.Engine

import FlowEngine.Proofs.Schedule.Process
import Mathlib.Data.List.Perm.Basic

/-!
# The scheduler

The scheduler of `Engine.Activity` starts a job and polls it. What it does is one of the schedules
of the job: every activity stands for a process, and polling it makes steps of this process.

* `Stands` — an activity stands for a process.
* `World.Tells` — what can be said of every call and the reply that the world gives.
* `Scheduled` — the activities that come of a job.
* `Scheduled.runs` — what comes of a job is one of the ways to carry it out.
-/

namespace FlowEngine.Engine

variable {σ τ κ ρ ω : Type}

/-! ## Activities as processes -/

mutual

/-- An activity stands for a process. The workers of a fan-out stand for those of the process, which
may have another order; when there are none, all tasks are claimed. -/
inductive Stands : Activity τ κ ρ ω → Process τ κ ρ ω → Prop
  | finished (result) : Stands (.finished result) (.ended result)
  | crashed : Stands .crashed .crashed
  | waiting (deadline next) : Stands (.waiting deadline next) (.ready next)
  | fanned {limit workers active processes tally stops count task next}
    (under : StandAll workers processes) (order : active.Perm processes)
    (room : active.length ≤ limit) (busy : workers = [] → count ≤ tally.claimed) :
    Stands (.fanned workers tally stops count task next)
      (.fanned limit active tally stops count task next)

/-- Workers stand for processes of the same tasks. -/
inductive StandAll : List (Nat × Activity τ κ ρ ω) → List (Nat × Process τ κ ρ ω) → Prop
  | nil : StandAll [] []
  | cons {i a p workers processes} (first : Stands a p) (rest : StandAll workers processes) :
    StandAll ((i, a) :: workers) ((i, p) :: processes)

end

theorem StandAll.append {workers workers' : List (Nat × Activity τ κ ρ ω)}
    {processes processes' : List (Nat × Process τ κ ρ ω)} (h : StandAll workers processes)
    (h' : StandAll workers' processes') :
    StandAll (workers ++ workers') (processes ++ processes') := by
  induction workers generalizing processes with
  | nil => cases h; exact h'
  | cons w workers ih =>
    cases h with
    | cons first rest => exact .cons first (ih rest)

/-- A worker that has crashed stands for a crashed process. -/
theorem StandAll.crashed {workers : List (Nat × Activity τ κ ρ ω)}
    {processes : List (Nat × Process τ κ ρ ω)} (h : StandAll workers processes)
    (hc : workers.any (fun a => a.2.isCrashed) = true) : ∃ i, (i, .crashed) ∈ processes := by
  induction workers generalizing processes with
  | nil => cases hc
  | cons w workers ih =>
    cases h with
    | @cons i a p _ _ first rest =>
      rw [List.any_cons, Bool.or_eq_true] at hc
      rcases hc with hc | hc
      · cases first with
        | crashed => exact ⟨i, List.mem_cons_self⟩
        | _ => cases hc
      · obtain ⟨j, hj⟩ := ih rest hc
        exact ⟨j, List.mem_cons_of_mem _ hj⟩

/-- What can be said of every call and the reply that the world gives. -/
def World.Tells (world : World σ τ κ ρ) (P : Event κ ρ → Prop) : Prop :=
  ∀ s now call limit, P ⟨call,
    (withinLimit limit (world.reply s now call).2.1 (world.reply s now call).2.2).2⟩

/-- A process makes steps to one that an activity stands for, with calls of some kind. -/
def Makes (P : Event κ ρ → Prop) (p : Process τ κ ρ ω) (a : Activity τ κ ρ ω) : Prop :=
  ∃ t q, Process.Steps p t q ∧ (∀ e ∈ t, P e) ∧ Stands a q

variable {P : Event κ ρ → Prop}

theorem Makes.refl {p : Process τ κ ρ ω} {a : Activity τ κ ρ ω} (h : Stands a p) : Makes P p a :=
  ⟨[], p, .refl, by rintro e ⟨⟩, h⟩

theorem Makes.of_steps {p q : Process τ κ ρ ω} {a : Activity τ κ ρ ω} {t : List (Event κ ρ)}
    (steps : Process.Steps p t q) (ht : ∀ e ∈ t, P e) (h : Makes P q a) : Makes P p a := by
  obtain ⟨u, r, steps', hu, hr⟩ := h
  exact ⟨t ++ u, r, steps.trans steps', fun e he => (List.mem_append.mp he).elim (ht e) (hu e), hr⟩

theorem Makes.of_step {p q : Process τ κ ρ ω} {a : Activity τ κ ρ ω}
    (step : Process.Step p [] q) (h : Makes P q a) : Makes P p a :=
  .of_steps (.single step) (by rintro e ⟨⟩) h

/-! ## Workers -/

/-- A fan-out, apart from where its tasks stand. -/
structure Crew (τ κ ρ ω : Type) where
  limit : Nat
  stops : ω → Bool
  count : Nat
  task : Nat → Job τ κ ρ ω
  next : List (Option ω) → Job τ κ ρ ω

/-- The process of a fan-out with some active tasks. -/
def Crew.process (c : Crew τ κ ρ ω) (active : List (Nat × Process τ κ ρ ω)) (tally : Tally ω) :
    Process τ κ ρ ω :=
  .fanned c.limit active tally c.stops c.count c.task c.next

/-- The workers of a fan-out go on, with calls of some kind. -/
def Manages (P : Event κ ρ → Prop) (c : Crew τ κ ρ ω) (active : List (Nat × Process τ κ ρ ω))
    (tally : Tally ω) (active' : List (Nat × Process τ κ ρ ω)) (tally' : Tally ω) : Prop :=
  tally.claimed ≤ tally'.claimed ∧
    ∃ t, (∀ e ∈ t, P e) ∧ Process.Steps (c.process active tally) t (c.process active' tally')

section Workers

variable {active active' active'' rest : List (Nat × Process τ κ ρ ω)}
  {tally tally' tally'' : Tally ω} (c : Crew τ κ ρ ω)

namespace Manages

theorem refl : Manages P c active tally active tally :=
  ⟨Nat.le_refl _, [], by rintro e ⟨⟩, .refl⟩

variable {c} in
theorem trans (h : Manages P c active tally active' tally')
    (h' : Manages P c active' tally' active'' tally'') :
    Manages P c active tally active'' tally'' := by
  obtain ⟨hle, t, ht, steps⟩ := h
  obtain ⟨hle', u, hu, steps'⟩ := h'
  exact ⟨Nat.le_trans hle hle', t ++ u, fun e he => (List.mem_append.mp he).elim (ht e) (hu e),
    steps.trans steps'⟩

/-- A worker skips the next task. -/
theorem skip (room : active.length < c.limit) (left : tally.claimed < c.count)
    (halted : tally.halted = true) : Manages P c active tally active tally.claim :=
  ⟨Nat.le_succ _, [], by rintro e ⟨⟩, .single (.skip room left halted)⟩

/-- A worker goes on with its task. -/
theorem work {i : Nat} {p : Process τ κ ρ ω} {a : Activity τ κ ρ ω} (tally : Tally ω)
    (order : active.Perm ((i, p) :: rest)) (h : Makes P p a) :
    ∃ q active', Stands a q ∧ active'.Perm ((i, q) :: rest) ∧
      Manages P c active tally active' tally := by
  obtain ⟨before, after, rfl⟩ := List.append_of_mem (order.mem_iff.mpr List.mem_cons_self)
  obtain ⟨t, q, steps, ht, hq⟩ := h
  have hrest : (before ++ after).Perm rest := (List.perm_middle.symm.trans order).cons_inv
  exact ⟨q, before ++ (i, q) :: after, hq, List.perm_middle.trans (hrest.cons _), Nat.le_refl _, t,
    ht, steps.work⟩

/-- A worker claims the next task and begins it. -/
theorem claim {a : Activity τ κ ρ ω} (room : active.length < c.limit)
    (left : tally.claimed < c.count) (going : tally.halted = false)
    (h : Makes P (.ready (c.task tally.claimed)) a) :
    ∃ q active', Stands a q ∧ active'.Perm ((tally.claimed, q) :: active) ∧
      Manages P c active tally active' tally.claim := by
  obtain ⟨q, active', hq, order, hm⟩ := work c tally.claim (List.perm_append_singleton _ active) h
  have hclaim : Manages P c active tally
      (active ++ [(tally.claimed, .ready (c.task tally.claimed))]) tally.claim :=
    ⟨Nat.le_succ _, [], by rintro e ⟨⟩, .single (.claim room left going)⟩
  exact ⟨q, active', hq, order, hclaim.trans hm⟩

/-- A worker is done with its task. -/
theorem settle {i : Nat} {result : ω} (tally : Tally ω)
    (order : active.Perm ((i, .ended result) :: rest)) :
    ∃ active', active'.Perm rest ∧
      Manages P c active tally active' (tally.record c.stops i result) := by
  obtain ⟨before, after, rfl⟩ := List.append_of_mem (order.mem_iff.mpr List.mem_cons_self)
  exact ⟨before ++ after, (List.perm_middle.symm.trans order).cons_inv, Nat.le_refl _, [],
    by rintro e ⟨⟩, .single .settle⟩

end Manages

variable {run : Nat → σ → Activity τ κ ρ ω × σ}

/-- A worker claims tasks until it has to wait or none is left. -/
theorem work_manages (hrun : ∀ i s, Makes P (.ready (c.task i)) (run i s).1) (left : Nat)
    (tally : Tally ω) (s : σ) (room : active.length < c.limit)
    (enough : c.count ≤ tally.claimed + left) :
    ∃ active' new, Manages P c active tally active' (work run c.stops c.count left tally s).2.1 ∧
      StandAll (work run c.stops c.count left tally s).1.toList new ∧
      active'.Perm (new ++ active) ∧ active'.length ≤ active.length + 1 ∧
      ((work run c.stops c.count left tally s).1 = none →
        c.count ≤ (work run c.stops c.count left tally s).2.1.claimed) := by
  induction left generalizing active tally s with
  | zero => exact ⟨active, [], .refl c, .nil, .refl _, Nat.le_succ _, fun _ => enough⟩
  | succ left ih =>
    unfold work
    split_ifs with hall hhalted
    · exact ⟨active, [], .refl c, .nil, .refl _, Nat.le_succ _, fun _ => hall⟩
    · obtain ⟨active', new, hm, hnew⟩ := ih tally.claim s room
        (show c.count ≤ tally.claimed + 1 + left by omega)
      exact ⟨active', new, .trans (.skip c room (Nat.lt_of_not_le hall) hhalted) hm, hnew⟩
    · obtain ⟨q, active₁, hq, horder, hm₁⟩ := Manages.claim c room (Nat.lt_of_not_le hall)
        (by simpa using hhalted) (hrun tally.claimed s)
      split
      · next result s' heq =>
        rw [heq] at hq
        cases hq
        obtain ⟨active₂, horder', hm₂⟩ := Manages.settle (P := P) c tally.claim horder
        obtain ⟨active', new, hm, hs, ho, hle, hn⟩ := ih
          (tally.claim.record c.stops tally.claimed result) s' (by rwa [horder'.length_eq])
          (show c.count ≤ tally.claimed + 1 + left by omega)
        exact ⟨active', new, (hm₁.trans hm₂).trans hm, hs, ho.trans (.append_left new horder'),
          by rwa [horder'.length_eq] at hle, hn⟩
      · next a s' _ heq =>
        rw [heq] at hq
        exact ⟨active₁, [(tally.claimed, q)], hm₁, .cons hq .nil, horder,
          Nat.le_of_eq horder.length_eq, by simp⟩

open List in
/-- Workers begin. -/
theorem openWorkers_manages (hrun : ∀ i s, Makes P (.ready (c.task i)) (run i s).1) (workers : Nat)
    (tally : Tally ω) (s : σ) (room : active.length + workers ≤ c.limit) :
    ∃ active' new,
      Manages P c active tally active' (openWorkers run c.stops c.count workers tally s).2.1 ∧
      StandAll (openWorkers run c.stops c.count workers tally s).1 new ∧
      active'.Perm (new ++ active) ∧ active'.length ≤ active.length + workers ∧
      (0 < workers → (openWorkers run c.stops c.count workers tally s).1 = [] →
        c.count ≤ (openWorkers run c.stops c.count workers tally s).2.1.claimed) := by
  induction workers generalizing active tally s with
  | zero => exact ⟨active, [], .refl c, .nil, .refl _, Nat.le_refl _, by omega⟩
  | succ workers ih =>
    obtain ⟨active₁, first, hm, hs, ho, hlen, hn⟩ := work_manages c hrun c.count tally s
      (show active.length < c.limit by omega) (by omega)
    obtain ⟨active₂, new, hm', hs', ho', hle, -⟩ := ih (work run c.stops c.count c.count tally s).2.1
      (work run c.stops c.count c.count tally s).2.2 (show active₁.length + workers ≤ c.limit by omega)
    refine ⟨active₂, first ++ new, hm.trans hm', hs.append hs', ?_, by omega, fun _ hnil => ?_⟩
    · calc active₂
        _ ~ new ++ active₁ := ho'
        _ ~ new ++ (first ++ active) := ho.append_left new
        _ ~ first ++ new ++ active := by
          rw [← List.append_assoc]; exact List.perm_append_comm.append_right active
    · have hfirst := (List.append_eq_nil_iff.mp hnil).1
      exact Nat.le_trans (hn (Option.toList_eq_nil_iff.mp hfirst)) hm'.1

end Workers

/-! ## Jobs -/

section Jobs

variable {c : Crew τ κ ρ ω} {active processes : List (Nat × Process τ κ ρ ω)}
  {workers : List (Nat × Activity τ κ ρ ω)} {tally : Tally ω}

/-- A fan-out after its workers went on: it has crashed, its results are handed on, or it goes on. -/
theorem makes_fanned {joined : Activity τ κ ρ ω × σ} {s : σ} (under : StandAll workers processes)
    (order : active.Perm processes) (room : active.length ≤ c.limit)
    (busy : workers = [] → c.count ≤ tally.claimed)
    (hjoined : Makes P (.ready (c.next tally.results)) joined.1) :
    Makes P (c.process active tally)
      (if workers.any fun w => w.2.isCrashed then (.crashed, s)
        else if workers.isEmpty then joined
        else (.fanned workers tally c.stops c.count c.task c.next, s)).1 := by
  split_ifs with hcrashed hempty
  · obtain ⟨i, hi⟩ := under.crashed hcrashed
    obtain ⟨before, after, rfl⟩ := List.append_of_mem (order.mem_iff.mpr hi)
    exact .of_step .fail (.refl .crashed)
  · rw [List.isEmpty_iff] at hempty
    subst hempty
    cases under
    cases order.eq_nil
    exact .of_step (.join (busy rfl)) hjoined
  · exact .refl (.fanned under order room busy)

variable {world : World σ τ κ ρ}

/-- A reply is missing only if there is a limit. -/
theorem isSome_of_withinLimit {limit : Option Nat} {latency : Nat} {reply : ρ}
    (h : (withinLimit limit latency reply).2 = none) : limit.isSome := by
  cases limit with
  | none => cases h
  | some nanos => rfl

/-- Starting a job makes steps of it. -/
theorem start_makes (hP : world.Tells P) (now : Nat) (j : Job τ κ ρ ω) (s : σ) :
    Makes P (.ready j) (start world now j s).1 := by
  induction j generalizing s with
  | done result => exact .of_step (.done result) (.refl (.finished result))
  | crash => exact .of_step .crash (.refl .crashed)
  | clock next ih => exact .of_step (.clock next _) (ih _ s)
  | call call limit next ih =>
    refine .of_steps (.single (.call call limit next _ isSome_of_withinLimit))
      (fun e he => List.mem_singleton.mp he ▸ hP s now call limit) ?_
    simp only [start]
    split_ifs
    · exact ih _ _
    · exact .refl (.waiting _ _)
  | sleep nanos jitter next ih =>
    have key (s : σ) (nanos : Nat) : Makes P (.ready next) (if nanos = 0 then start world now next s
        else (.waiting (now + wholeMilliseconds nanos) next, s)).1 := by
      split_ifs
      · exact ih s
      · exact .refl (.waiting _ _)
    exact .of_step (.sleep nanos jitter next) (key _ _)
  | fan workers stops count task next ihtask ihnext =>
    let c : Crew τ κ ρ ω := ⟨min (max workers 1) count, stops, count, task, next⟩
    obtain ⟨active, new, hm, hs, ho, hle, hn⟩ := openWorkers_manages c (fun i s => ihtask i s)
      c.limit (Tally.fresh count) s (Nat.le_of_eq (by rw [List.length_nil, Nat.zero_add]))
    obtain ⟨t, ht, steps⟩ := hm.2
    refine .of_step (.fan workers stops count task next) (.of_steps steps ht ?_)
    refine makes_fanned (c := c) hs (ho.trans (by rw [List.append_nil])) (by simpa using hle)
      (fun hnil => ?_) (ihnext _ _)
    rcases Nat.eq_zero_or_pos c.limit with hzero | hpos
    · have hcount : count = 0 := by simp only [c] at hzero; omega
      exact Nat.le_trans (Nat.le_of_eq hcount) (Nat.zero_le _)
    · exact hn hpos hnil

open List in
mutual

/-- Polling an activity makes steps of its process. -/
theorem poll_makes (hP : world.Tells P) (now : Nat) (a : Activity τ κ ρ ω) (p : Process τ κ ρ ω)
    (s : σ) (h : Stands a p) : Makes P p (a.poll world now s).1 :=
  match a, h with
  | .finished _, h => .refl h
  | .crashed, h => .refl h
  | .waiting deadline next, .waiting _ _ => by
    simp only [Activity.poll]
    split_ifs
    · exact start_makes hP now next s
    · exact .refl (.waiting deadline next)
  | .fanned workers tally stops count task next, h => by
    cases h with
    | @fanned limit _ active processes _ _ _ _ _ under order room busy =>
      let c : Crew τ κ ρ ω := ⟨limit, stops, count, task, next⟩
      obtain ⟨active', new, hm, hs, ho, hle, hn⟩ := pollWorkers_manages hP now workers processes c
        [] active tally s under (by rwa [List.append_nil]) room
      obtain ⟨t, ht, steps⟩ := hm.2
      refine .of_steps steps ht ?_
      simp only [Activity.poll]
      exact makes_fanned (c := c) hs (by rwa [List.append_nil] at ho) hle
        (fun hnil => hn hnil busy) (start_makes hP now _ _)

/-- Polling workers makes steps of theirs. -/
theorem pollWorkers_manages (hP : world.Tells P) (now : Nat)
    (workers : List (Nat × Activity τ κ ρ ω)) (processes : List (Nat × Process τ κ ρ ω))
    (c : Crew τ κ ρ ω) (others active : List (Nat × Process τ κ ρ ω)) (tally : Tally ω) (s : σ)
    (h : StandAll workers processes) (order : active ~ processes ++ others)
    (room : active.length ≤ c.limit) :
    let run := fun i s => start world now (c.task i) s
    let after := Activity.pollWorkers world now run c.stops c.count workers tally s
    ∃ active' new, Manages P c active tally active' after.2.1 ∧ StandAll after.1 new ∧
      active' ~ new ++ others ∧ active'.length ≤ c.limit ∧
      (after.1 = [] → (workers = [] → c.count ≤ tally.claimed) → c.count ≤ after.2.1.claimed) :=
  match workers, h with
  | [], .nil => ⟨active, [], .refl c, .nil, order, room, fun _ h => h rfl⟩
  | (index, a) :: rest, h => by
    cases h with
    | @cons _ _ p _ processes first hrest =>
      obtain ⟨q, active₁, hq, ho₁, hm₁⟩ := Manages.work c tally order (poll_makes hP now a p s first)
      have hlen : active₁.length = active.length := by
        rw [ho₁.length_eq, order.length_eq]
        rfl
      simp only [Activity.pollWorkers]
      split
      · next result s₁ heq =>
        rw [heq] at hq
        cases hq
        obtain ⟨active₂, ho₂, hm₂⟩ := Manages.settle (P := P) c tally ho₁
        have hroom : active₂.length < c.limit := by
          have := ho₁.length_eq
          rw [List.length_cons, ← ho₂.length_eq] at this
          omega
        obtain ⟨active₃, new, hm₃, hs₃, ho₃, hle₃, hn₃⟩ := work_manages c
          (fun i s => start_makes hP now (c.task i) s) c.count (tally.record c.stops index result) s₁
          hroom (by omega)
        have order₃ : active₃ ~ processes ++ (new ++ others) := calc active₃
          _ ~ new ++ (processes ++ others) := ho₃.trans (ho₂.append_left new)
          _ ~ processes ++ (new ++ others) := by
            simp only [← List.append_assoc]
            exact List.perm_append_comm.append_right others
        obtain ⟨active', new', hm, hs, ho, hle, -⟩ := pollWorkers_manages hP now rest processes c
          (new ++ others) active₃ _ _ hrest order₃ (Nat.le_trans hle₃ hroom)
        refine ⟨active', new ++ new', ((hm₁.trans hm₂).trans hm₃).trans hm, hs₃.append hs, ?_, hle,
          fun hnil _ => ?_⟩
        · rw [← List.append_assoc] at ho
          exact ho.trans (List.perm_append_comm.append_right others)
        · have hfirst := (List.append_eq_nil_iff.mp hnil).1
          exact Nat.le_trans (hn₃ (Option.toList_eq_nil_iff.mp hfirst)) hm.1
      · next a' s₁ _ heq =>
        rw [heq] at hq
        obtain ⟨active', new, hm, hs, ho, hle, -⟩ := pollWorkers_manages hP now rest processes c
          ((index, q) :: others) active₁ tally s₁ hrest (ho₁.trans List.perm_middle.symm)
          (Nat.le_trans (Nat.le_of_eq hlen) room)
        exact ⟨active', (index, q) :: new, hm₁.trans hm, .cons hq hs, ho.trans List.perm_middle, hle,
          by rintro ⟨⟩⟩

end

end Jobs

/-! ## The scheduler -/

/-- The activities that come of a job: it is started, and polled any number of times. -/
inductive Scheduled (world : World σ τ κ ρ) (j : Job τ κ ρ ω) : Activity τ κ ρ ω → σ → Prop
  | start (now s) : Scheduled world j (start world now j s).1 (start world now j s).2
  | poll {a s} (now) (prior : Scheduled world j a s) :
    Scheduled world j (a.poll world now s).1 (a.poll world now s).2

variable {world : World σ τ κ ρ} {j : Job τ κ ρ ω} {s : σ}

theorem Scheduled.makes (hP : world.Tells P) {a : Activity τ κ ρ ω} (h : Scheduled world j a s) :
    Makes P (.ready j) a := by
  induction h with
  | start now s => exact start_makes hP now j s
  | @poll a s now _ ih =>
    obtain ⟨t, p, steps, ht, hp⟩ := ih
    exact .of_steps steps ht (poll_makes hP now a p s hp)

/-- What comes of a job under the scheduler comes of it in one of the ways to carry it out, with
calls and replies of the world. -/
theorem Scheduled.runs (hP : world.Tells P) {result : ω}
    (h : Scheduled world j (.finished result) s) :
    ∃ t, (∀ e ∈ t, P e) ∧ j.Runs t (.result result) := by
  obtain ⟨t, p, steps, ht, hp⟩ := h.makes hP
  cases hp
  exact ⟨t, ht, _, steps, rfl⟩

/-- If the program has ended under the scheduler, then a way to carry out the job crashes. -/
theorem Scheduled.crashes (hP : world.Tells P) {a : Activity τ κ ρ ω} (h : Scheduled world j a s)
    (hcrash : a.isCrashed = true) : ∃ t, (∀ e ∈ t, P e) ∧ j.Runs t .crash := by
  obtain ⟨t, p, steps, ht, hp⟩ := h.makes hP
  cases hp with
  | crashed => exact ⟨t, ht, _, steps, rfl⟩
  | _ => cases hcrash

/-- The result of an activity that has one. -/
def Activity.result? : Activity τ κ ρ ω → Option ω
  | finished result => some result
  | _ => none

/-- A job that is finished as soon as it is started. -/
theorem runs_of_start (hP : world.Tells P) (now : Nat) (j : Job τ κ ρ ω) (s : σ) {result : ω}
    (h : (start world now j s).1.result? = some result) :
    ∃ t, (∀ e ∈ t, P e) ∧ j.Runs t (.result result) := by
  have hscheduled : Scheduled world j _ _ := .start now s
  cases hstart : (start world now j s).1 with
  | finished r =>
    rw [hstart] at h hscheduled
    cases h
    exact hscheduled.runs hP
  | _ => rw [hstart] at h; cases h

theorem exists_runs_of_start (now : Nat) (j : Job τ κ ρ ω) (s : σ) {result : ω}
    (h : (start world now j s).1.result? = some result) : ∃ t, j.Runs t (.result result) := by
  have htells : world.Tells fun _ => True := fun _ _ _ _ => trivial
  obtain ⟨t, -, run⟩ := runs_of_start htells now j s h
  exact ⟨t, run⟩

end FlowEngine.Engine

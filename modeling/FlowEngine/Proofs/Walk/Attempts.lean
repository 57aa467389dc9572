import FlowEngine.Block.Core
import FlowEngine.Proofs.Config.Delays
import FlowEngine.Proofs.Schedule.Ends
import FlowEngine.Proofs.Walk.Action
import FlowEngine.Proofs.Walk.Limits
import Mathlib.Order.Bounds.Basic
import Mathlib.Order.Nat

/-!
# Accounting for attempts

How an action goes when every one of its attempts is known beforehand: it is called up to the first
attempt that ends it, always in the same way, and this attempt alone decides.

* `Attempt` — how an attempt goes; `Attempt.endState` the state after it if it is the last one.
* `EndsAt` — no other attempt follows an attempt.
* `attempts_account` — the calls of an action that is retried, and its end.
* `action_attempts` — how often an action is called, and what is recorded.
-/

namespace FlowEngine.Engine

open FlowEngine.Run FlowEngine.Flow

/-! ## Attempts -/

/-- How an attempt goes: the action succeeds or fails, and may have asked something of the run before
that, or it takes longer than it may. -/
inductive Attempt where
  | succeeds (output : Json) (hook : Option Block.Hook)
  | fails (failure : Block.Failure) (hook : Option Block.Hook)
  | overruns
  deriving Inhabited

namespace Attempt

/-- The reply to the call, which is missing if the time ran out. -/
def reply : Attempt → Option Block.Reply
  | succeeds output hook => some (.ended (.ok output) hook)
  | fails failure hook => some (.ended (.error failure) hook)
  | overruns => none

/-- The failure of an attempt that does not succeed. -/
def failure? (limit : Option Nat) : Attempt → Option Block.Failure
  | succeeds _ _ => none
  | fails failure _ => some failure
  | overruns => some (.timeout (limit.getD 0))

/-- The state after an attempt that is the last one. What a failed attempt asked for does not count. -/
def endState (limit : Option Nat) (s : RunState) (i : Invocation) (duration : Nat) :
    Attempt → RunState
  | succeeds output hook => endedState s i output duration hook
  | fails failure _ => failedState s i.name i.errorHandling i.input failure duration
  | overruns => failedState s i.name i.errorHandling i.input (.timeout (limit.getD 0)) duration

end Attempt

variable {setup : Setup} {s s' : RunState} {i : Invocation} {r : Nat → Attempt} {t : Trace}
  {o : Outcome Result} {limit : Option Nat} {a : Attempt}

/-- No other attempt follows this one: it succeeds, attempts are not repeated, its failure is not of
the kind that may pass, or there are no attempts left. -/
def EndsAt (settings : Config.Settings) (e : ErrorHandling) (r : Nat → Attempt) (n : Nat) : Prop :=
  (r n).failure? (limitOf settings) = none ∨ e.retries = false ∨
    (∃ failure, (r n).failure? (limitOf settings) = some failure ∧ failure.isRetryable = false) ∨
    n = settings.retry.maxRetries

/-- Attempts are only too long if there is a limit. -/
def Possible (settings : Config.Settings) (r : Nat → Attempt) : Prop :=
  ∀ n, (r n).reply = none → settings.stepTimeout.isSome

/-- Only the step's own record changes. -/
theorem Attempt.endState_get?_of_ne (duration : Nat) {n : String} (h : n ≠ i.name) :
    (a.endState limit s i duration).steps.get? n = s.steps.get? n := by
  have hfailed (failure : Block.Failure) :
      (failedState s i.name i.errorHandling i.input failure duration).steps.get? n =
        s.steps.get? n := by
    rw [failedState_steps]
    exact StepMap.get?_insert_of_ne _ _ h.symm
  cases a with
  | succeeds output hook =>
    rcases hook with _ | pause | response <;> exact StepMap.get?_insert_of_ne _ _ h.symm
  | fails failure hook => exact hfailed failure
  | overruns => exact hfailed _

/-! ## One attempt -/

theorem onReply_failed {failure : Block.Failure} {failed : Block.Failure → Walk}
    {succeeded : Json → Option Block.Hook → Walk} (h : a.failure? limit = some failure) :
    onReply limit a.reply failed succeeded = failed failure := by
  cases a with
  | succeeds output hook => cases h
  | fails failure hook => cases h; rfl
  | overruns => cases h; rfl

theorem Attempt.endState_failed {failure : Block.Failure} (h : a.failure? limit = some failure)
    (duration : Nat) : a.endState limit s i duration =
      failedState s i.name i.errorHandling i.input failure duration := by
  cases a with
  | succeeds output hook => cases h
  | fails failure hook => cases h; rfl
  | overruns => cases h; rfl

/-- After the last attempt there are no more calls, and its state is the one at the end. -/
theorem lastAttempt_yields {failed : Block.Failure → Walk}
    (hfailed : ∀ failure, a.failure? limit = some failure →
      failed failure = failStep s i.name i.errorHandling i.started i.input failure)
    (h : Job.Yields (onReply limit a.reply failed (completeStep s i)) t o) :
    t = [] ∧ (o = .pending ∨ ∃ duration, o = .result (.ok (a.endState limit s i duration))) := by
  cases hf : a.failure? limit with
  | some failure =>
    rw [onReply_failed hf, hfailed failure hf] at h
    simp only [Attempt.endState_failed hf]
    exact failStep_yields h
  | none =>
    cases a with
    | succeeds output hook => exact completeStep_yields h
    | fails failure hook => cases hf
    | overruns => cases hf

/-- An attempt that is followed by another one fails. -/
theorem exists_failure {settings : Config.Settings} {e : ErrorHandling} {n : Nat}
    (h : ¬ EndsAt settings e r n) : ∃ failure, (r n).failure? (limitOf settings) = some failure := by
  simp only [EndsAt, not_or] at h
  exact Option.ne_none_iff_exists'.mp h.1

/-- The reaction to a failure after which there is another attempt. -/
theorem reactionTo_retry {settings : Config.Settings} {e : ErrorHandling} {failure : Block.Failure}
    {n : Nat} (h : ¬ EndsAt settings e r n) (hf : (r n).failure? (limitOf settings) = some failure)
    (hn : n < settings.retry.maxRetries) :
    reactionTo settings.retry e failure n = .retry (settings.retry.delay? n) := by
  simp only [EndsAt, not_or] at h
  obtain ⟨-, hretries, hkind, -⟩ := h
  have hretryable : failure.isRetryable = true := by
    by_contra hnot
    exact hkind ⟨failure, hf, by simpa using hnot⟩
  rw [reactionTo, if_pos ⟨by simpa using hretries, hretryable, hn⟩]

/-- The reaction to a failure after which there is none. -/
theorem reactionTo_last {settings : Config.Settings} {e : ErrorHandling} {failure : Block.Failure}
    {n : Nat} (h : EndsAt settings e r n) (hf : (r n).failure? (limitOf settings) = some failure)
    (delay : Option Nat) : reactionTo settings.retry e failure n ≠ .retry delay := by
  unfold reactionTo
  split_ifs with hretry
  · obtain ⟨hretries, hkind, hn⟩ := hretry
    obtain h | h | ⟨failure', hf', h⟩ | h := h
    · rw [hf] at h; cases h
    · rw [hretries] at h; cases h
    · obtain rfl := Option.some.inj (hf.symm.trans hf')
      rw [hkind] at h
      cases h
    · omega
  · simp
  · simp

/-! ## All attempts -/

/-- The last attempt ends the action, or the time until the next one has no value. -/
def Terminal (settings : Config.Settings) (e : ErrorHandling) (r : Nat → Attempt) (n : Nat) : Prop :=
  EndsAt settings e r n ∨ settings.retry.delay? n = none

/-- How attempts come to an end: there is a result if the last one ends the action. -/
def LastGives (setup : Setup) (s : RunState) (i : Invocation) (r : Nat → Attempt) (last : Nat)
    (o : Outcome Result) : Prop :=
  (EndsAt setup.settings i.errorHandling r last ∧
    ∃ duration, o = .result (.ok ((r last).endState (limitOf setup.settings) s i duration))) ∨
  (¬ EndsAt setup.settings i.errorHandling r last ∧ o = .crash)

/-- From attempt `n` on, the action is called up to the last attempt, always in the same way. -/
def Accounts (setup : Setup) (s : RunState) (i : Invocation) (r : Nat → Attempt) (n last : Nat)
    (t : Trace) (o : Outcome Result) : Prop :=
  (∀ e ∈ t, e.call = i.call) ∧ ((o = .pending ∧ n + t.length ≤ last + 1) ∨
    (n + t.length = last + 1 ∧ LastGives setup s i r last o))

variable {n k left : Nat}

theorem Accounts.pending (h : n ≤ k) : Accounts setup s i r n k [] .pending :=
  ⟨by simp, .inl ⟨rfl, by simp; omega⟩⟩

/-- One more attempt before others. -/
theorem Accounts.cons {reply : Option Block.Reply} (h : Accounts setup s i r (n + 1) k t o) :
    Accounts setup s i r n k (⟨i.call, reply⟩ :: t) o := by
  obtain ⟨hcalls, hend⟩ := h
  refine ⟨?_, ?_⟩
  · intro e he
    rcases List.mem_cons.mp he with rfl | he
    · rfl
    · exact hcalls e he
  · simp only [List.length_cons]
    rcases hend with ⟨ho, hlen⟩ | ⟨hlen, hlast⟩
    · exact .inl ⟨ho, by omega⟩
    · exact .inr ⟨by omega, hlast⟩

/-- The last attempt ends the action. -/
theorem Accounts.last {failed : Block.Failure → Walk}
    (hends : EndsAt setup.settings i.errorHandling r k)
    (hfailed : ∀ failure, (r k).failure? (limitOf setup.settings) = some failure →
      failed failure = failStep s i.name i.errorHandling i.started i.input failure)
    (h : Job.Yields (onReply (limitOf setup.settings) (r k).reply failed (completeStep s i)) t o) :
    Accounts setup s i r k k (⟨i.call, (r k).reply⟩ :: t) o := by
  obtain ⟨rfl, ho⟩ := lastAttempt_yields hfailed h
  refine ⟨by simp, ?_⟩
  rcases ho with rfl | ho
  · exact .inl ⟨rfl, by simp⟩
  · exact .inr ⟨by simp, .inl ⟨hends, ho⟩⟩

/-- The time until the next attempt has no value. -/
theorem Accounts.broken {reply : Option Block.Reply}
    (hends : ¬ EndsAt setup.settings i.errorHandling r k) (ho : o = .pending ∨ o = .crash) :
    Accounts setup s i r k k [⟨i.call, reply⟩] o := by
  refine ⟨by simp, ?_⟩
  rcases ho with rfl | rfl
  · exact .inl ⟨rfl, by simp⟩
  · exact .inr ⟨by simp, .inr ⟨hends, rfl⟩⟩

/-- The attempts from one on that have so many others to follow. -/
theorem attempts_account
    (hbudget : i.errorHandling.retries = true → n + left = setup.settings.retry.maxRetries)
    (hnone : i.errorHandling.retries = false → left = 0)
    (hlast : IsLeast {m | Terminal setup.settings i.errorHandling r m} k) (hn : n ≤ k)
    (h : Job.Yields (attempts setup s i left) t o)
    (ht : RepliesInOrder (fun m => (r (n + m)).reply) t) : Accounts setup s i r n k t o := by
  induction left generalizing n t with
  | zero =>
    have hends : EndsAt setup.settings i.errorHandling r n := by
      cases hretries : i.errorHandling.retries with
      | false => exact .inr (.inl hretries)
      | true => exact .inr (.inr (.inr (hbudget hretries)))
    obtain rfl : n = k := Nat.le_antisymm hn (hlast.2 (.inl hends))
    cases h with
    | pending => exact .pending le_rfl
    | call reply late rest =>
      obtain ⟨rfl, -⟩ := RepliesInOrder.cons_iff.mp ht
      exact .last hends (fun _ _ => rfl) rest
  | succ left ih =>
    have hretries : i.errorHandling.retries = true := by
      by_contra hno
      have := hnone (by simpa using hno)
      omega
    have hsum := hbudget hretries
    have hattempt : setup.settings.retry.maxRetries - (left + 1) = n := by omega
    cases h with
    | pending => exact .pending hn
    | call reply late rest =>
      obtain ⟨rfl, hrest⟩ := RepliesInOrder.cons_iff.mp ht
      simp only [hattempt, Nat.add_zero] at rest
      by_cases hends : EndsAt setup.settings i.errorHandling r n
      · obtain rfl : n = k := Nat.le_antisymm hn (hlast.2 (.inl hends))
        refine .last hends (fun failure hf => ?_) rest
        have hreaction := reactionTo_last hends hf
        split
        · rename_i h; exact absurd h (hreaction _)
        · rename_i h; exact absurd h (hreaction _)
        · rfl
      · obtain ⟨failure, hf⟩ := exists_failure hends
        rw [onReply_failed hf, reactionTo_retry hends hf (by omega)] at rest
        cases hd : setup.settings.retry.delay? n with
        | none =>
          obtain rfl : n = k := Nat.le_antisymm hn (hlast.2 (.inr hd))
          rw [hd] at rest
          obtain ⟨rfl, ho⟩ := Job.Yields.crash_iff.mp rest
          exact .broken hends ho
        | some nanos =>
          rw [hd] at rest
          have hgoes : ¬ Terminal setup.settings i.errorHandling r n := by
            simp [Terminal, hends, hd]
          have hlt : n < k := Nat.lt_of_le_of_ne hn fun heq => hgoes (heq ▸ hlast.1)
          refine Accounts.cons ?_
          cases rest with
          | pending => exact .pending hlt
          | sleep rest =>
            refine ih (by omega) (fun h => absurd h (by simp [hretries])) hlt rest ?_
            intro m e he
            rw [hrest m e he]
            simp only [show n + (m + 1) = n + 1 + m by omega]

/-! ## The walk of an action -/

/-- The action of a step as it is called with an input. -/
def invocationOf (setup : Setup) (place : Place) (name : String) (a : Flow.Action) (s : RunState)
    (input : Json) (started : Reading Time.Instant) : Invocation :=
  ⟨name, ⟨targetOf a.work, requestOf setup place.path s name a.work input⟩, a.errorHandling, started⟩

/-- The action is called up to attempt `k`, always in the same way. This attempt decides, and no other
record changes. -/
def Counts (setup : Setup) (s : RunState) (i : Invocation) (r : Nat → Attempt) (k : Nat) (t : Trace)
    (o : Outcome Result) : Prop :=
  (∀ e ∈ t, e.call = i.call) ∧ ((o = .pending ∧ t.length ≤ k + 1) ∨
    (t.length = k + 1 ∧ ∃ s' duration, o = .result (.ok s') ∧
      s' = (r k).endState (limitOf setup.settings) s i duration ∧
      ∀ n, n ≠ i.name → s'.steps.get? n = s.steps.get? n))

variable {place : Place} {name : String} {action : Flow.Action} {input : Json}
  {started : Reading Time.Instant}

/-- Some attempt ends the action. -/
theorem exists_endsAt (settings : Config.Settings) (e : ErrorHandling) (r : Nat → Attempt) :
    ∃ k, k ≤ settings.retry.maxRetries ∧ IsLeast {n | EndsAt settings e r n} k := by
  classical
  have h : ∃ n, EndsAt settings e r n := ⟨_, .inr (.inr (.inr rfl))⟩
  exact ⟨Nat.find h, Nat.find_min' h (.inr (.inr (.inr rfl))), Nat.find_spec h,
    fun n hn => Nat.find_min' h hn⟩

/-- An action that is not finished and whose target is known reads the clock and then resolves its
input. -/
theorem runAction_eq (hn : ∀ r, s.steps.get? name = some r → r.status.isFinished = false)
    (hserved : setup.registry.serves (targetOf action.work) = true) :
    runAction setup place name action s = .clock fun started =>
      Walk.onTemplate (Template.resolve (place.names s started.now) action.input) fun
        | .error e => failStep s name action.errorHandling started action.input (.invalidInput e.message)
        | .ok input => attempts setup s (invocationOf setup place name action s input started)
            (retryBudget setup.settings action.errorHandling) := by
  unfold runAction
  rw [if_neg (by
    rw [Option.any_eq_true]
    rintro ⟨r, hr, hf⟩
    rw [hn r hr] at hf
    cases hf), if_neg (by simp [hserved])]
  rfl

/-- All attempts of an action, up to the last one. -/
theorem allAttempts_account
    (hlast : IsLeast {n | Terminal setup.settings action.errorHandling r n} k)
    (h : Job.Yields (attempts setup s (invocationOf setup place name action s input started)
      (retryBudget setup.settings action.errorHandling)) t o)
    (ht : RepliesInOrder (fun n => (r n).reply) t) :
    Accounts setup s (invocationOf setup place name action s input started) r 0 k t o := by
  refine attempts_account (fun hretries => ?_) (fun hretries => ?_) hlast (Nat.zero_le k) h ?_
  · have hretries : action.errorHandling.retries = true := hretries
    rw [retryBudget, if_pos hretries, Nat.zero_add]
  · have hretries : action.errorHandling.retries = false := hretries
    rw [retryBudget, hretries, if_neg Bool.false_ne_true]
  · simpa only [Nat.zero_add] using ht

/-- With delays that all have a value, the last attempt is the one that ends the action. -/
theorem isLeast_terminal {settings : Config.Settings} {e : ErrorHandling}
    (hk : IsLeast {n | EndsAt settings e r n} k) (hd : ∀ n < k, settings.retry.delay? n ≠ none) :
    IsLeast {n | Terminal settings e r n} k := by
  refine ⟨.inl hk.1, fun n hn => ?_⟩
  rcases hn with hn | hn
  · exact hk.2 hn
  · by_contra hlt
    exact hd n (by omega) hn

/-- Otherwise it is the one before the first delay that has none. -/
theorem isLeast_terminal_of_none {settings : Config.Settings} {e : ErrorHandling} {l : Nat}
    (hk : IsLeast {n | EndsAt settings e r n} k)
    (hl : IsLeast {n | n < k ∧ settings.retry.delay? n = none} l) :
    IsLeast {n | Terminal settings e r n} l ∧ ¬ EndsAt settings e r l := by
  obtain ⟨hlt, hnone⟩ := hl.1
  refine ⟨⟨.inr hnone, fun n hn => ?_⟩, fun h => ?_⟩
  · rcases hn with hn | hn
    · exact hlt.le.trans (hk.2 hn)
    · by_contra hno
      have := hl.2 ⟨by omega, hn⟩
      omega
  · have := hk.2 h
    omega

theorem Accounts.counts (h : Accounts setup s i r 0 k t o)
    (hends : EndsAt setup.settings i.errorHandling r k) : Counts setup s i r k t o := by
  obtain ⟨hcalls, ⟨rfl, hlen⟩ | ⟨hlen, hlast⟩⟩ := h
  · exact ⟨hcalls, .inl ⟨rfl, by omega⟩⟩
  · refine ⟨hcalls, .inr ⟨by omega, ?_⟩⟩
    rcases hlast with ⟨-, duration, rfl⟩ | ⟨hno, -⟩
    · exact ⟨_, duration, rfl, rfl, fun n hn => Attempt.endState_get?_of_ne duration hn⟩
    · exact absurd hends hno

theorem Accounts.crash (h : Accounts setup s i r 0 k t o)
    (hends : ¬ EndsAt setup.settings i.errorHandling r k) :
    (o = .pending ∧ t.length ≤ k + 1) ∨ (t.length = k + 1 ∧ o = .crash) := by
  obtain ⟨-, ⟨rfl, hlen⟩ | ⟨hlen, hlast⟩⟩ := h
  · exact .inl ⟨rfl, by omega⟩
  · rcases hlast with ⟨hyes, -⟩ | ⟨-, rfl⟩
    · exact absurd hyes hends
    · exact .inr ⟨by omega, rfl⟩

/-- An action reads the clock and resolves its input. If this fails it is not called, and has failed
with the template as input. Otherwise it is called up to the first attempt that succeeds, or may not be
followed by another one: so often, always in the same way, and this attempt alone decides what is
recorded. The only thing that can be in the way is a delay without a value. Then the multiplier is
negative, and the program crashes after an odd attempt. -/
theorem action_attempts (hmax : setup.settings.retry.maxDelay < 0x10000000000000000)
    (hn : ∀ r, s.steps.get? name = some r → r.status.isFinished = false)
    (hserved : setup.registry.serves (targetOf action.work) = true) :
    ∃ next, runAction setup place name action s = .clock next ∧ ∀ started,
      (∀ r, Possible setup.settings r → ∀ t p, Process.Steps (.ready (next started)) t p →
        RepliesInOrder (fun n => (r n).reply) t → ∃ u o, (next started).Runs (t ++ u) o ∧
          RepliesInOrder (fun n => (r n).reply) (t ++ u) ∧ o ≠ .pending) ∧
      (∀ e, Template.resolve (place.names s started.now) action.input = .error (.error e) →
        ∀ t o, (next started).Runs t o → t = [] ∧ (o = .pending ∨ ∃ duration,
          o = .result (.ok (failedState s name action.errorHandling action.input
            (.invalidInput e.message) duration)))) ∧
      (Template.resolve (place.names s started.now) action.input = .error .crash →
        ∀ t o, (next started).Runs t o → t = [] ∧ (o = .pending ∨ o = .crash)) ∧
      ∀ input, Template.resolve (place.names s started.now) action.input = .ok input → ∀ r,
        ∃ k, k ≤ setup.settings.retry.maxRetries ∧
          IsLeast {n | EndsAt setup.settings action.errorHandling r n} k ∧
          ((∀ n < k, setup.settings.retry.delay? n ≠ none) → ∀ t o, (next started).Runs t o →
            RepliesInOrder (fun n => (r n).reply) t →
              Counts setup s (invocationOf setup place name action s input started) r k t o) ∧
          ∀ l, IsLeast {n | n < k ∧ setup.settings.retry.delay? n = none} l →
            (setup.settings.retry.multiplier.sign? = some true ∧ l % 2 = 1) ∧
            ∀ t o, (next started).Runs t o → RepliesInOrder (fun n => (r n).reply) t →
              (o = .pending ∧ t.length ≤ l + 1) ∨ (t.length = l + 1 ∧ o = .crash) := by
  refine ⟨_, runAction_eq hn hserved, fun started => ⟨?_, ?_, ?_, ?_⟩⟩
  · intro r hr t p hp ht
    refine Job.completes (C := fun _ limit => limit = limitOf setup.settings) ?_ ?_ hp ht
    · refine asks_onTemplate fun input => ?_
      cases input with
      | error e => exact asks_failStep ..
      | ok input => exact attempts_asks _ _
    · rintro c limit rfl n hlate
      rw [limitOf, Option.isSome_map]
      exact hr n hlate
  · intro e he t o h
    have h := h.yields
    rw [he] at h
    exact failStep_yields h
  · intro hcrash t o h
    have h := h.yields
    rw [hcrash] at h
    exact Job.Yields.crash_iff.mp h
  · intro input hinput r
    obtain ⟨k, hle, hk⟩ := exists_endsAt setup.settings action.errorHandling r
    refine ⟨k, hle, hk, fun hd t o h ht => ?_, fun l hl => ⟨?_, fun t o h ht => ?_⟩⟩
    · rw [hinput] at h
      exact (allAttempts_account (isLeast_terminal hk hd) h.yields ht).counts hk.1
    · exact Config.Retry.negative_of_growth ((Config.Retry.delay?_eq_none_iff hmax l).mp hl.1.2)
    · rw [hinput] at h
      obtain ⟨hlast, hends⟩ := isLeast_terminal_of_none hk hl
      exact (allAttempts_account hlast h.yields ht).crash hends

/-! ## Examples -/

/-- An action that may be tried again. -/
def greeting : Flow.Action :=
  ⟨.block Block.coreName "echo", .str "hello", ⟨none, some ⟨true, false⟩⟩⟩

/-- The core block, with a multiplier for the delays between attempts. -/
def retrying (multiplier : Binary64) : Setup :=
  ⟨Block.coreRegistry, { retry := { maxRetries := 2, multiplier := multiplier, jitter := false } }, none⟩

/-- The first attempts ask the run to stop, and then fail; the next one succeeds. -/
def failsFirst (times n : Nat) : Attempt :=
  if n < times then .fails (.failed "busy") (some (.stop .null)) else .succeeds (.str "sent") none

theorem endsAt_failsFirst (m : Binary64) (times : Nat) (h : times ≤ 2) :
    IsLeast {n | EndsAt (retrying m).settings greeting.errorHandling (failsFirst times) n} times := by
  refine ⟨.inl ?_, fun n hn => ?_⟩
  · rw [failsFirst, if_neg (Nat.lt_irrefl _)]
    rfl
  · by_contra hlt
    have hfails : failsFirst times n = .fails (.failed "busy") (some (.stop .null)) := by
      rw [failsFirst, if_pos (by omega)]
    obtain hn | hn | ⟨failure, hn, hkind⟩ | hn := hn
    · rw [hfails] at hn; cases hn
    · cases hn
    · rw [hfails] at hn; cases hn; cases hkind
    · have hn : n = 2 := hn
      omega

theorem possible_failsFirst (settings : Config.Settings) (times : Nat) :
    Possible settings (failsFirst times) := by
  intro n hn
  unfold failsFirst at hn
  split_ifs at hn <;> cases hn

/-- An action that fails once is called twice, and what its first attempt asked for does not count. -/
theorem greeting_twice :
    (retrying (.ofNat 2)).settings.retry.maxDelay < 0x10000000000000000 ∧
    (∀ r, (RunState.empty "run").steps.get? "send" = some r → r.status.isFinished = false) ∧
    (retrying (.ofNat 2)).registry.serves (targetOf greeting.work) = true ∧
    ∃ next, runAction (retrying (.ofNat 2)) .top "send" greeting (.empty "run") = .clock next ∧
      ∃ t s', (next ⟨⟨0, 0⟩, 0⟩).Runs t (.result (.ok s')) ∧ t.length = 2 ∧ s'.verdict = .running := by
  have hmax : (retrying (.ofNat 2)).settings.retry.maxDelay < 0x10000000000000000 := by decide
  have hn : ∀ r, (RunState.empty "run").steps.get? "send" = some r → r.status.isFinished = false :=
    fun r hr => by cases hr
  have hserved : (retrying (.ofNat 2)).registry.serves (targetOf greeting.work) = true := by decide
  have hinput : Template.resolve (Place.top.names (.empty "run") ⟨0, 0⟩) greeting.input =
      .ok (.str "hello") := by decide +kernel
  have hdelay : (retrying (.ofNat 2)).settings.retry.delay? 0 ≠ none := by decide +kernel
  refine ⟨hmax, hn, hserved, ?_⟩
  obtain ⟨next, hnext, hstarted⟩ :=
    @action_attempts (retrying (.ofNat 2)) (.empty "run") .top "send" greeting hmax hn hserved
  obtain ⟨hcompletes, -, -, hresolved⟩ := hstarted ⟨⟨0, 0⟩, 0⟩
  obtain ⟨k, -, hk, hcounts, -⟩ := hresolved _ hinput (failsFirst 1)
  obtain rfl := hk.unique (endsAt_failsFirst _ 1 (by omega))
  obtain ⟨t, o, hruns, horder, hend⟩ := hcompletes (failsFirst 1) (possible_failsFirst _ 1) [] _ .refl .nil
  rw [List.nil_append] at hruns horder
  have hdelays : ∀ n < 1, (retrying (.ofNat 2)).settings.retry.delay? n ≠ none := by
    intro n hlt
    obtain rfl := Nat.lt_one_iff.mp hlt
    exact hdelay
  obtain ⟨-, ⟨ho, -⟩ | ⟨hlen, s', duration, rfl, rfl, -⟩⟩ := hcounts hdelays t o hruns horder
  · exact absurd ho hend
  · exact ⟨next, hnext, t, _, hruns, hlen, rfl⟩

/-- With a negative multiplier an action that fails is not called as often as it may be. -/
theorem attempts_break_off : ¬ ∀ (setup : Setup) (place : Place) (name : String) (action : Flow.Action)
    (s : RunState) (r : Nat → Attempt) (k : Nat),
    (∀ r, s.steps.get? name = some r → r.status.isFinished = false) →
    setup.registry.serves (targetOf action.work) = true →
    (∀ now, ∃ input, Template.resolve (place.names s now) action.input = .ok input) →
    Possible setup.settings r → IsLeast {n | EndsAt setup.settings action.errorHandling r n} k →
    ∀ t o, (runAction setup place name action s).Runs t o → RepliesInOrder (fun n => (r n).reply) t →
      o ≠ .pending → t.length = k + 1 := by
  intro h
  have hn : ∀ r, (RunState.empty "run").steps.get? "send" = some r → r.status.isFinished = false :=
    fun r hr => by cases hr
  have hserved : (retrying (Binary64.ofNat 1).neg).registry.serves (targetOf greeting.work) = true := by
    decide
  have hinput (now : Time.Instant) :
      Template.resolve (Place.top.names (.empty "run") now) greeting.input = .ok (.str "hello") := rfl
  have hk := endsAt_failsFirst (Binary64.ofNat 1).neg 2 (by omega)
  -- the delay before the third attempt is the first one without a value
  have hdelay : (retrying (Binary64.ofNat 1).neg).settings.retry.delay? 0 ≠ none ∧
      (retrying (Binary64.ofNat 1).neg).settings.retry.delay? 1 = none := by decide +kernel
  have hl : IsLeast {n | n < 2 ∧ (retrying (Binary64.ofNat 1).neg).settings.retry.delay? n = none} 1 := by
    refine ⟨⟨by omega, hdelay.2⟩, fun n hnone => ?_⟩
    by_contra hlt
    obtain rfl : n = 0 := by omega
    exact hdelay.1 hnone.2
  obtain ⟨hlast, hends⟩ := isLeast_terminal_of_none hk hl
  have hpossible := possible_failsFirst (retrying (Binary64.ofNat 1).neg).settings 2
  obtain ⟨t, o, hruns, horder, hend⟩ : ∃ t o,
      (runAction (retrying (Binary64.ofNat 1).neg) .top "send" greeting (.empty "run")).Runs ([] ++ t) o ∧
        RepliesInOrder (fun n => (failsFirst 2 n).reply) ([] ++ t) ∧ o ≠ .pending := by
    refine Job.completes (runAction_asks .top "send" greeting) (fun c limit hlimit n hlate => ?_)
      .refl .nil
    rw [hlimit, limitOf, Option.isSome_map]
    exact hpossible n hlate
  rw [List.nil_append] at hruns horder
  have hthree := h _ _ _ _ _ _ _ hn hserved (fun now => ⟨_, hinput now⟩) hpossible hk t o hruns horder hend
  rw [runAction_eq hn hserved] at hruns
  rcases Job.Yields.of_clock hruns.yields with ⟨-, ho⟩ | ⟨started, hyields⟩
  · exact hend ho
  rw [hinput] at hyields
  rcases (allAttempts_account hlast hyields horder).crash hends with ⟨ho, -⟩ | ⟨htwo, -⟩
  · exact hend ho
  · rw [htwo] at hthree
    cases hthree

end FlowEngine.Engine

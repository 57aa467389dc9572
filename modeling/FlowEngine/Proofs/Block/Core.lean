import FlowEngine.Block.Core
import Mathlib.Tactic.SplitIfs

/-!
# Crashes of the core block

Of the actions of the core block only a delay can end the program: its input is checked for whether the
seconds are a number that is not negative, but not for whether a date comes of them.

* `Undatable` — seconds of which no date comes.
* `delay_crash_iff` — when a delay ends the program.
* `coreAnswer_crashes` — a call that is answered by the core block ends the program only if it is a delay
  that does.
-/

namespace FlowEngine.Block

variable {s : Surroundings} {r : Request} {c : Call}

/-- Seconds after which there is no date, at some time of the clock. -/
def Undatable (now n : Int) : Prop :=
  0 ≤ n ∧ n < 0x8000000000000000 ∧ (maxSeconds < n ∨ Time.Instant.maxSeconds < now + n)

theorem Undatable.mono {now later n : Int} (h : Undatable now n) (hle : now ≤ later) :
    Undatable later n := by
  obtain ⟨hpos, hlt, hlong⟩ := h
  refine ⟨hpos, hlt, hlong.imp_right fun h => ?_⟩
  omega

theorem delayFor_crash_iff {now : Time.Instant} {j : Json} :
    delayFor now j = .crash ↔ ∃ n, j = .int n ∧ Undatable now.seconds n := by
  cases j with
  | int n =>
    simp only [Json.int.injEq, exists_eq_left', delayFor]
    split_ifs with hrange hlong
    · refine iff_of_false (fun h => by cases h) fun ⟨hpos, hlt, _⟩ => ?_
      omega
    · exact iff_of_true rfl ⟨by omega, by omega, hlong⟩
    · exact iff_of_false (fun h => by cases h) fun ⟨_, _, h⟩ => hlong h
  | _ => exact iff_of_false (fun h => by cases h) fun ⟨_, h, _⟩ => by cases h

/-- A delay ends the program just if it begins, there is no date to wait for, and none comes of the
seconds. -/
theorem delay_crash_iff : delay s r = .crash ↔ r.isResuming = false ∧ r.prop? "until" = none ∧
    ∃ n, r.prop? "seconds" = some (.int n) ∧ Undatable s.now.seconds n := by
  unfold delay
  split_ifs with hresuming
  · exact iff_of_false (fun h => by cases h) fun ⟨h, _⟩ => by rw [hresuming] at h; cases h
  have hbegin : r.isResuming = false := by simpa using hresuming
  split
  next date _ hdate =>
    refine iff_of_false (fun h => ?_) fun ⟨_, h, _⟩ => by rw [hdate] at h; cases h
    split at h <;> cases h
  next seconds hdate hseconds =>
    rw [delayFor_crash_iff]
    simp [hbegin, hdate, hseconds]
  next hdate hseconds =>
    exact iff_of_false (fun h => by cases h) fun ⟨_, _, n, h, _⟩ => by rw [hseconds] at h; cases h

/-- No other action of the core block ends the program. -/
theorem coreReply_crashes {name : String} (h : coreReply s name r = some .crash) :
    name = "delay" ∧ delay s r = .crash := by
  unfold coreReply at h
  split at h
  case h_4 => exact ⟨rfl, Option.some.inj h⟩
  case h_2 => unfold approval at h; split at h <;> cases h
  case h_3 => unfold waitForWebhook at h; split at h <;> cases h
  all_goals cases h

theorem blockName_of_knows {blockName actionName : String}
    (h : coreRegistry.knows blockName actionName = true) : blockName = coreName := by
  have hoffers : ∀ offer ∈ coreOffers, offer.blockName = coreName := by decide
  obtain ⟨offer, hoffer, heq⟩ := List.any_eq_true.mp h
  rw [Bool.and_eq_true, beq_iff_eq, beq_iff_eq] at heq
  rw [← heq.1, hoffers offer hoffer]

theorem coreReply_isSome {name : String} (h : coreRegistry.knows coreName name = true) :
    (coreReply s name r).isSome = true := by
  simp only [Registry.knows, coreRegistry, coreOffers, List.any_cons, List.any_nil, beq_self_eq_true,
    Bool.true_and, Bool.or_false, Bool.or_eq_true, beq_iff_eq] at h
  rcases h with rfl | rfl | rfl | rfl | rfl | rfl <;> rfl

/-- How a call of the core block is answered. -/
def coreAnswer (s : Surroundings) (c : Call) : Reply :=
  (match c.target with
    | .block _ actionName => coreReply s actionName c.request
    | .code => none).getD .crash

theorem coreAnswer_crashes (served : coreRegistry.serves c.target = true)
    (h : coreAnswer s c = .crash) :
    c.target = .block coreName "delay" ∧ delay s c.request = .crash := by
  unfold coreAnswer at h
  cases htarget : c.target with
  | code => rw [htarget] at served; cases served
  | block blockName actionName =>
    rw [htarget] at h served
    obtain rfl := blockName_of_knows served
    obtain ⟨reply, hreply⟩ := Option.isSome_iff_exists.mp (coreReply_isSome (s := s)
      (r := c.request) served)
    simp only [hreply, Option.getD_some] at h
    rw [h] at hreply
    obtain ⟨rfl, hcrash⟩ := coreReply_crashes hreply
    exact ⟨rfl, hcrash⟩

end FlowEngine.Block

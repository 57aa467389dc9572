import FlowEngine.Engine.Loop
import FlowEngine.Engine.Split
import Mathlib.Data.List.Basic

/-!
# What the parts of a fan-out decide

The parts of a fan-out end with states, except for those that were skipped. A fan-out is paused only
if no part failed or stopped, and then the first part that paused decides.

* `First` — the first part whose verdict has some status.
* `Halts.Sees` — what is noted of the parts so far.
* `Decides` — the part that decides for the fan-out; `Repeats` — a pause that is not the first one.
* `Halts.Sees.decides`, `Halts.Sees.repeats_iff` — the notes tell these.
-/

namespace FlowEngine.Engine

open FlowEngine.Run

theorem status_paused_iff {v : Verdict} : v.status = .paused ↔ ∃ pause, v = .paused pause := by
  cases v <;> simp [Verdict.status]

/-- The first part whose verdict has a status, if there is one. -/
def First (status : RunStatus) (kids : List (Option RunState)) : Option (Nat × Verdict) → Prop
  | none => ∀ (i : Nat) (s : RunState), kids[i]? = some (some s) → s.verdict.status ≠ status
  | some (i, v) => (∃ s, kids[i]? = some (some s) ∧ s.verdict = v) ∧ v.status = status ∧
    ∀ (k : Nat) (s : RunState), k < i → kids[k]? = some (some s) → s.verdict.status ≠ status

namespace First

variable {status : RunStatus} {kids : List (Option RunState)} {x : Option (Nat × Verdict)}
  {s : RunState}

theorem nil (status : RunStatus) : First status [] none := fun _ _ h => by simp at h

/-- A part that was skipped, or has another status, changes nothing. -/
theorem append_other (h : First status kids x) (kid : Option RunState)
    (hk : ∀ s, kid = some s → s.verdict.status ≠ status) : First status (kids ++ [kid]) x := by
  cases x with
  | none =>
    intro i s hi
    rw [List.getElem?_append] at hi
    split_ifs at hi
    · exact h i s hi
    · exact hk s (List.mem_singleton.mp (List.mem_of_getElem? hi)).symm
  | some x =>
    obtain ⟨i, v⟩ := x
    obtain ⟨⟨s₀, hs₀, hv⟩, hstatus, hfirst⟩ := h
    have hlt := (List.getElem?_eq_some_iff.mp hs₀).1
    refine ⟨⟨s₀, by rw [List.getElem?_append_left hlt, hs₀], hv⟩, hstatus, fun k s hk hs => ?_⟩
    rw [List.getElem?_append_left (by omega)] at hs
    exact hfirst k s hk hs

/-- A part with the status counts if there was none before. -/
theorem append_same (h : First status kids x) (hs : s.verdict.status = status) :
    First status (kids ++ [some s]) (x.or (some (kids.length, s.verdict))) := by
  cases x with
  | none =>
    refine ⟨⟨s, by simp, rfl⟩, hs, fun k s' hk hs' => ?_⟩
    rw [List.getElem?_append_left hk] at hs'
    exact h k s' hs'
  | some x =>
    obtain ⟨i, v⟩ := x
    obtain ⟨⟨s₀, hs₀, hv⟩, hstatus, hfirst⟩ := h
    have hlt := (List.getElem?_eq_some_iff.mp hs₀).1
    refine ⟨⟨s₀, by rw [List.getElem?_append_left hlt, hs₀], hv⟩, hstatus, fun k s' hk hs' => ?_⟩
    rw [List.getElem?_append_left (by omega)] at hs'
    exact hfirst k s' hk hs'

end First

/-- The part that decides, if any of them does: it has not ended normally, and if it paused, then it
is the first one that did not end normally. -/
def Decides (kids : List (Option RunState)) : Option (Nat × Verdict) → Prop
  | none => ∀ (i : Nat) (s : RunState), kids[i]? = some (some s) → s.verdict = .running
  | some (i, v) => v ≠ .running ∧ (∃ s, kids[i]? = some (some s) ∧ s.verdict = v) ∧
    ∀ p, v = .paused p → ∀ (k : Nat) (s : RunState), kids[k]? = some (some s) →
      s.verdict = .running ∨ s.verdict.status = .paused ∧ i ≤ k

/-- A part paused after another one did. -/
def Repeats (kids : List (Option RunState)) (i : Nat) : Prop :=
  (∃ s, kids[i]? = some (some s) ∧ s.verdict.status = .paused) ∧
    ∃ k s, k < i ∧ kids[k]? = some (some s) ∧ s.verdict.status = .paused

theorem Repeats.paused {kids : List (Option RunState)} {i : Nat} {s : RunState} (h : Repeats kids i)
    (hs : kids[i]? = some (some s)) : ∃ p, s.verdict = .paused p := by
  obtain ⟨⟨s', hs', hpaused⟩, -⟩ := h
  obtain rfl : s = s' := by simpa using hs.symm.trans hs'
  exact status_paused_iff.mp hpaused

namespace Decides

variable {kids : List (Option RunState)} {i k : Nat} {v : Verdict} {p : Pause} {s : RunState}

/-- The parts before the one that decides, if it paused, ended normally. -/
theorem before (h : Decides kids (some (i, .paused p))) (hk : k < i)
    (hs : kids[k]? = some (some s)) : s.verdict = .running :=
  (h.2.2 p rfl k s hs).resolve_right fun ⟨_, hle⟩ => Nat.not_lt.mpr hle hk

/-- A pause that is not the first one is after the one that decides. -/
theorem lt_of_repeats (h : Decides kids (some (i, .paused p))) (hk : Repeats kids k) : i < k := by
  obtain ⟨-, l, s, hl, hs, hv⟩ := hk
  rcases h.2.2 p rfl l s hs with hrun | ⟨-, hle⟩
  · rw [hrun] at hv
    cases hv
  · omega

/-- If no part decides, there is no pause. -/
theorem not_repeats (h : Decides kids none) : ¬ Repeats kids k := by
  rintro ⟨⟨s, hs, hv⟩, -⟩
  rw [h k s hs] at hv
  cases hv

/-- The part that decides did not pause after another one. -/
theorem not_repeats_self (h : Decides kids (some (i, v))) : ¬ Repeats kids i := by
  intro hr
  obtain ⟨s, hs, rfl⟩ := h.2.1
  obtain ⟨p, hp⟩ := hr.paused hs
  rw [hp] at h
  exact Nat.lt_irrefl i (h.lt_of_repeats hr)

end Decides

namespace Halts

/-- What is noted of some parts is right. -/
structure Sees (h : Halts) (kids : List (Option RunState)) : Prop where
  failed : First .failed kids h.failed
  stopped : First .succeeded kids h.stopped
  paused : First .paused kids h.paused

namespace Sees

variable {h : Halts} {kids : List (Option RunState)} {s : RunState}

theorem nil : Sees Halts.none [] := ⟨.nil _, .nil _, .nil _⟩

theorem skip (hs : Sees h kids) : Sees h (kids ++ [Option.none]) :=
  ⟨hs.failed.append_other _ (by simp), hs.stopped.append_other _ (by simp),
    hs.paused.append_other _ (by simp)⟩

theorem note (hs : Sees h kids) (s : RunState) :
    Sees (h.note kids.length s.verdict) (kids ++ [some s]) := by
  have other {status : RunStatus} {x : Option (Nat × Verdict)} (hx : First status kids x)
      (hne : s.verdict.status ≠ status) : First status (kids ++ [some s]) x :=
    hx.append_other _ (by rintro s' ⟨⟩; exact hne)
  have same {status : RunStatus} {x : Option (Nat × Verdict)} (hx : First status kids x)
      (heq : s.verdict.status = status) := hx.append_same heq
  cases hv : s.verdict <;> simp only [hv, Verdict.status] at other same <;>
    simp only [Halts.note]
  · exact ⟨other hs.failed (by simp), other hs.stopped (by simp), other hs.paused (by simp)⟩
  · exact ⟨other hs.failed (by simp), same hs.stopped rfl, other hs.paused (by simp)⟩
  · exact ⟨other hs.failed (by simp), other hs.stopped (by simp), same hs.paused rfl⟩
  · exact ⟨same hs.failed rfl, other hs.stopped (by simp), other hs.paused (by simp)⟩

/-- The notes tell which part decides. -/
theorem decides (hs : Sees h kids) : Decides kids h.decisive? := by
  obtain ⟨failed, stopped, paused⟩ := h
  obtain ⟨hf, hst, hp⟩ := hs
  dsimp only at hf hst hp
  unfold Halts.decisive?
  rcases failed with _ | ⟨i, v⟩
  · rcases stopped with _ | ⟨i, v⟩
    · rcases paused with _ | ⟨i, v⟩
      · intro i s hi
        have h₁ := hf i s hi
        have h₂ := hst i s hi
        have h₃ := hp i s hi
        cases hv : s.verdict <;> simp [hv, Verdict.status] at h₁ h₂ h₃ ⊢
      · obtain ⟨hi, hv, hfirst⟩ := hp
        refine ⟨(by rintro rfl; cases hv), hi, fun p _ k s hk => ?_⟩
        have h₁ := hf k s hk
        have h₂ := hst k s hk
        have h₃ : k < i → s.verdict.status ≠ .paused := fun hlt => hfirst k s hlt hk
        cases hs : s.verdict with
        | running => exact .inl rfl
        | succeeded => exact absurd (by rw [hs]; rfl) h₂
        | failed => exact absurd (by rw [hs]; rfl) h₁
        | paused =>
          refine .inr ⟨rfl, Nat.le_of_not_lt fun hlt => h₃ hlt (by rw [hs]; rfl)⟩
    · obtain ⟨hi, hv, -⟩ := hst
      exact ⟨(by rintro rfl; cases hv), hi, (by rintro p rfl; cases hv)⟩
  · obtain ⟨hi, hv, -⟩ := hf
    exact ⟨(by rintro rfl; cases hv), hi, (by rintro p rfl; cases hv)⟩

/-- The notes tell which pauses are not the first one. -/
theorem repeats_iff (hs : Sees h kids) (s : RunState) (rest : List (Option RunState)) :
    h.repeatsPause s.verdict = true ↔ Repeats (kids ++ some s :: rest) kids.length := by
  have hself : (kids ++ some s :: rest)[kids.length]? = some (some s) := by simp
  have hpaused := hs.paused
  unfold Halts.repeatsPause Repeats
  rw [hself, Bool.and_eq_true]
  constructor
  · rintro ⟨hsome, hv⟩
    obtain ⟨⟨k, v⟩, hk⟩ := Option.isSome_iff_exists.mp hsome
    rw [hk] at hpaused
    obtain ⟨⟨s', hs', rfl⟩, hv', -⟩ := hpaused
    have hlt := (List.getElem?_eq_some_iff.mp hs').1
    exact ⟨⟨s, rfl, by simpa using hv⟩, k, s', hlt,
      by rw [List.getElem?_append_left hlt, hs'], hv'⟩
  · rintro ⟨⟨s₀, hs₀, hv⟩, k, s', hlt, hk, hv'⟩
    obtain rfl : s = s₀ := by simpa using hs₀
    rw [List.getElem?_append_left hlt] at hk
    refine ⟨?_, by simpa using hv⟩
    cases hp : h.paused with
    | none => rw [hp] at hpaused; exact absurd hv' (hpaused k s' hk)
    | some x => rfl

end Sees

end Halts

end FlowEngine.Engine

import FlowEngine.Proofs.Walk.Follows
import FlowEngine.Proofs.Walk.Verdicts

/-!
# Walking the parts of a fan-out

What holds of the iterations of a loop and of the branches of a split alike, whatever their order.
The part that waited is never skipped, and its pause is never withdrawn: the parts before it are
complete.

* `FanOut` — parts that were walked as regions, with their traces and the states at their ends.
* `FanOut.reached` — the action that waited was reached.
* `FanOut.completes`, `FanOut.waits` — how far the run is in the parts afterwards.
-/

namespace FlowEngine.Engine

open FlowEngine.Run FlowEngine.Flow

/-- Parts that were walked, each as a region from a place of its own. A part that was skipped has no
state, and is after one that did not end normally. -/
structure FanOut (parts : List (Region × StepMap)) (around : Nat → List (String × Nat))
    (q : Option Position) (index : Nat) (traces : Nat → Trace) (kids : List (Option RunState)) :
    Prop where
  spread : Spread parts q index
  length : kids.length = parts.length
  lands : ∀ (i : Nat) (R : Region) (m : StepMap) (s : RunState), parts[i]? = some (R, m) →
    kids[i]? = some (some s) → Lands R (around i) (if i = index then q else none) m (traces i) s
  rests : ∀ (i : Nat) (R : Region) (m : StepMap) (s : RunState), parts[i]? = some (R, m) →
    kids[i]? = some (some s) → R.complete m → s.verdict = .running
  skipped : ∀ i, kids[i]? = some none → ∃ (k : Nat) (s : RunState), k < i ∧
    kids[k]? = some (some s) ∧ s.verdict ≠ .running

/-- The records of a part when all parts are put together. -/
structure Settled (R : Region) (kids : List (Option RunState)) (i : Nat) (m m' : StepMap) :
    Prop where
  skipped : kids[i]? = some none → m' = m
  repeated : ∀ s, kids[i]? = some (some s) → Repeats kids i → Withdrawn R.names s.steps m'
  kept : ∀ s, kids[i]? = some (some s) → ¬ Repeats kids i → Agree R.names s.steps m'

theorem Settled.agree {R : Region} {kids : List (Option RunState)} {i : Nat} {m m' m'' : StepMap}
    (h : Settled R kids i m m') (ha : Agree R.names m' m'') (hk : kids[i]? ≠ some none) :
    Settled R kids i m m'' where
  skipped hs := absurd hs hk
  repeated s hs hr n hn := (ha n hn).trans (h.repeated s hs hr n hn)
  kept s hs hr n hn := (ha n hn).trans (h.kept s hs hr n hn)

/-- The map of a part that has one of its own, after all parts. -/
structure MapAfter (kids : List (Option RunState)) (i : Nat) (m m' : StepMap) : Prop where
  skipped : kids[i]? = some none → m' = m
  repeated : ∀ s, kids[i]? = some (some s) → Repeats kids i → m' = s.steps.withdrawPauses
  kept : ∀ s, kids[i]? = some (some s) → ¬ Repeats kids i → m' = s.steps

theorem MapAfter.settled {R : Region} {kids : List (Option RunState)} {i : Nat} {m m' : StepMap}
    (h : MapAfter kids i m m')
    (ht : ∀ s, kids[i]? = some (some s) → s.steps.names.Nodup) : Settled R kids i m m' where
  skipped := h.skipped
  repeated s hs hr n _ := by
    rw [h.repeated s hs hr]
    exact StepMap.get?_withdrawPauses (ht s hs) n
  kept s hs hr n _ := by rw [h.kept s hs hr]

namespace FanOut

variable {parts parts' : List (Region × StepMap)} {around : Nat → List (String × Nat)}
  {q : Option Position} {index : Nat} {traces : Nat → Trace} {kids : List (Option RunState)}

/-- A part ended with a state or was skipped. -/
theorem kid (h : FanOut parts around q index traces kids) {i : Nat} {R : Region} {m : StepMap}
    (hp : parts[i]? = some (R, m)) : kids[i]? = some none ∨ ∃ s, kids[i]? = some (some s) := by
  obtain ⟨k, hk⟩ := exists_getElem? h.length.symm hp
  rw [hk]
  cases k with
  | none => exact .inl rfl
  | some s => exact .inr ⟨s, rfl⟩

/-- The parts before the one that waits end normally. -/
theorem before (h : FanOut parts around q index traces kids) (hq : q ≠ none) {k : Nat}
    (hk : k < index) {s : RunState} (hs : kids[k]? = some (some s)) : s.verdict = .running := by
  have hlt : k < parts.length := by
    have := h.spread.within hq
    omega
  have hp : parts[k]? = some (parts[k].1, parts[k].2) := List.getElem?_eq_getElem hlt
  exact h.rests k _ _ s hp hs (h.spread.before hq k _ _ hk hp)

/-- The part that waits is not skipped. -/
theorem ran (h : FanOut parts around q index traces kids) (hq : q ≠ none) :
    ∃ s, kids[index]? = some (some s) := by
  have hlt := h.spread.within hq
  have hp : parts[index]? = some (parts[index].1, parts[index].2) := List.getElem?_eq_getElem hlt
  refine (h.kid hp).resolve_left fun hs => ?_
  obtain ⟨k, s, hk, hs, hv⟩ := h.skipped index hs
  exact hv (h.before hq hk hs)

/-- The part that waits does not pause after another one. -/
theorem not_repeats (h : FanOut parts around q index traces kids) (hq : q ≠ none) :
    ¬ Repeats kids index := by
  rintro ⟨-, k, s, hk, hs, hv⟩
  rw [h.before hq hk hs] at hv
  cases hv

/-- A part that is withdrawn or skipped did not wait. -/
theorem stage_none (h : FanOut parts around q index traces kids) {i : Nat} {R : Region}
    {m : StepMap} (hp : parts[i]? = some (R, m)) (hi : kids[i]? = some none ∨ Repeats kids i) :
    R.stage none m := by
  by_cases hq : q = none
  · subst hq
    exact h.spread.none_stage hp
  · refine h.spread.others ?_ hp
    rintro rfl
    rcases hi with hi | hi
    · obtain ⟨s, hs⟩ := h.ran hq
      rw [hi] at hs
      cases hs
    · exact h.not_repeats hq hi

/-- The action that waited was called or its input could not be resolved. -/
theorem reached {p : Position} (h : FanOut parts around (some p) index traces kids) :
    ∃ R m s, parts[index]? = some (R, m) ∧ kids[index]? = some (some s) ∧ ¬ Repeats kids index ∧
      ((∃ e ∈ traces index, e.place = p.under (around index)) ∨
        Unresolved R.steps p s.steps) := by
  obtain ⟨s, hs⟩ := h.ran (by simp)
  obtain ⟨R, m, hp, -⟩ := h.spread.waits
  exact ⟨R, m, s, hp, hs, h.not_repeats (by simp), (h.lands index R m s hp hs).reached p (by simp)⟩

/-- If no part decides, nothing is left to do in any of them. -/
theorem completes (h : FanOut parts around q index traces kids) (hd : Decides kids none) {i : Nat}
    {R : Region} {m m' : StepMap} (hp : parts[i]? = some (R, m)) (hm : Settled R kids i m m') :
    R.complete m' := by
  rcases h.kid hp with hs | ⟨s, hs⟩
  · obtain ⟨k, s, -, hs, hv⟩ := h.skipped i hs
    exact absurd (hd k s hs) hv
  · have hv := hd i s hs
    exact R.complete_agree (hm.kept s hs hd.not_repeats) ((h.lands i R m s hp hs).complete hv)

/-- If a part decides that paused, an action waits in this one only. -/
theorem waits (h : FanOut parts around q index traces kids) {i : Nat} {pause : Pause}
    (hd : Decides kids (some (i, .paused pause)))
    (length : parts'.length = parts.length)
    (settled : ∀ (k : Nat) (R : Region) (m' : StepMap), parts'[k]? = some (R, m') →
      ∃ m, parts[k]? = some (R, m) ∧ Settled R kids k m m') :
    ∃ R m s p, parts[i]? = some (R, m) ∧ kids[i]? = some (some s) ∧ ¬ Repeats kids i ∧
      Asked (around i) p pause (traces i) s.steps ∧ Spread parts' (some p) i := by
  obtain ⟨-, ⟨s, hs, hv⟩, hfirst⟩ := id hd
  have hfirst := hfirst pause rfl
  obtain ⟨⟨R, m⟩, hp⟩ := exists_getElem? h.length hs
  have hnr := hd.not_repeats_self
  obtain ⟨p, hstage, hasked⟩ := (h.lands i R m s hp hs).paused pause hv
  refine ⟨R, m, s, p, hp, hs, hnr, hasked, ?_,
    fun _ => length ▸ (List.getElem?_eq_some_iff.mp hp).1, ?_⟩
  · intro k R m' hk
    obtain ⟨m, hpk, hm⟩ := settled k R m' hk
    split_ifs with hki
    · subst hki
      obtain ⟨hR, -⟩ := Prod.mk.inj (Option.some.inj (hpk.symm.trans hp))
      rw [← hR] at hstage
      exact R.stage_agree (hm.kept s hs hnr) hstage
    · rcases h.kid hpk with hsk | ⟨sk, hsk⟩
      · rw [hm.skipped hsk]
        exact h.stage_none hpk (.inl hsk)
      · have hl := h.lands k R m sk hpk hsk
        by_cases hr : Repeats kids k
        · obtain ⟨pause', hv'⟩ := hr.paused hsk
          obtain ⟨p', hp', -⟩ := hl.paused pause' hv'
          exact R.withdrawn_stage hl.tidy hp' (hm.repeated sk hsk hr)
        · refine R.stage_agree (hm.kept sk hsk hr) (R.stage_complete (hl.complete ?_))
          refine (hfirst k sk hsk).resolve_right fun hlate =>
            hr ⟨⟨sk, hsk, hlate.1⟩, i, s, ?_, hs, ?_⟩
          · have hle := hlate.2
            omega
          · rw [hv]; rfl
  · intro _ k R m' hlt hk
    obtain ⟨m, hpk, hm⟩ := settled k R m' hk
    rcases h.kid hpk with hsk | ⟨sk, hsk⟩
    · obtain ⟨l, s', hl, hs', hv'⟩ := h.skipped k hsk
      exact absurd (hd.before (by omega) hs') hv'
    · have hr : ¬ Repeats kids k := fun hr => Nat.lt_asymm hlt (hd.lt_of_repeats hr)
      exact R.complete_agree (hm.kept sk hsk hr) ((h.lands k R m sk hpk hsk).complete (hd.before hlt hsk))

/-- All records of a part that has a map of its own are still there after all parts. -/
theorem keeps (h : FanOut parts around q index traces kids) {i : Nat} {R : Region} {m m' : StepMap}
    (hp : parts[i]? = some (R, m)) (hm : m.Tidy) (hk : ∀ n ∈ m.names, n ∈ R.names)
    (after : MapAfter kids i m m') : Keeps m m' := by
  rcases h.kid hp with hs | ⟨s, hs⟩
  · rw [after.skipped hs]
    exact .refl m
  · have hl := h.lands i R m s hp hs
    by_cases hr : Repeats kids i
    · rw [after.repeated s hs hr]
      exact hl.keeps.withdrawn (R.quiet_map hm hk (h.stage_none hp (.inr hr))) hl.tidy fun n =>
        .inr (StepMap.get?_withdrawPauses hl.tidy.nodup n)
    · rw [after.kept s hs hr]
      exact hl.keeps

end FanOut

end FlowEngine.Engine

import FlowEngine.Proofs.Records.Alike
import FlowEngine.Proofs.Schedule.InTurn
import FlowEngine.Proofs.Walk.Follows

/-!
# Walks that agree

Two walks agree if they end alike, apart from durations, as long as calls are answered by what they
show. Walks that agree only while they go on may end differently if they do not end normally.

* `Answered` — the calls of a trace are answered by what they show.
* `Outcome.Alike` — ends of walks that differ in durations only.
* `Agrees` — walks that agree; `Agrees.andThen`, `Agrees.fan` — so do walks made of such walks.
-/

namespace FlowEngine.Engine

open FlowEngine.Run FlowEngine.Flow

/-- How actions answer: by what a call shows of the step and of the run. The reply is missing if the
time runs out. -/
abbrev Answering := Block.Call → Option Block.Reply

/-- All calls were answered by what they show. -/
def Answered (answer : Answering) (t : Trace) : Prop := ∀ e ∈ t, e.reply = answer e.call

theorem answered_append {answer : Answering} {t t' : Trace} :
    Answered answer (t ++ t') ↔ Answered answer t ∧ Answered answer t' := List.forall_mem_append

theorem Answered.part {answer : Answering} {t : Trace} (h : Answered answer t)
    {parts : Nat → Trace} (hi : Interleaves parts t) (i : Nat) : Answered answer (parts i) :=
  fun e he => h e ((hi.mem_iff e).mpr ⟨i, he⟩)

/-! ## Ends that are alike -/

/-- A place around which records have no durations. -/
def Place.timeless (p : Place) : Place := { p with around := p.around.timeless }

/-- A result whose records have no durations. -/
def Result.timeless (r : Result) : Result := r.map RunState.timeless

/-- Ends of walks that differ in durations only. -/
def Outcome.Alike : Outcome Result → Outcome Result → Prop
  | .result r, .result r' => Result.timeless r = Result.timeless r'
  | .crash, .crash => True
  | .pending, .pending => True
  | _, _ => False

/-- A walk ended normally, so that the chain goes on. -/
def Outcome.GoesOn (o : Outcome Result) : Prop := ∃ s, o = .result (.ok s) ∧ s.verdict = .running

theorem Outcome.Alike.ok {s s' : RunState} (h : s.timeless = s'.timeless) :
    Outcome.Alike (.result (.ok s)) (.result (.ok s')) := congrArg Except.ok h

theorem Outcome.Alike.of_ok {s : RunState} {o : Outcome Result}
    (h : Outcome.Alike (.result (.ok s)) o) :
    ∃ s', o = .result (.ok s') ∧ s.timeless = s'.timeless := by
  rcases o with (e | s') | _ | _
  · cases h
  · exact ⟨s', rfl, Except.ok.inj h⟩
  · cases h
  · cases h

theorem Outcome.Alike.symm {o o' : Outcome Result} (h : o.Alike o') : o'.Alike o := by
  cases o <;> cases o' <;> first | exact Eq.symm h | exact h

theorem Outcome.GoesOn.of_alike {o o' : Outcome Result} (h : o.GoesOn) (halike : o.Alike o') :
    o'.GoesOn := by
  obtain ⟨s, rfl, hv⟩ := h
  obtain ⟨s', rfl, hs⟩ := halike.of_ok
  exact ⟨s', rfl, (RunState.verdict_alike hs).symm.trans hv⟩

/-! ## Walks that agree -/

/-- Two walks end alike with the same answers. If they do not agree on the `whole`, this is so only
when the first one ends normally. -/
def Agrees (answer : Answering) (whole : Prop) (w w' : Walk) : Prop :=
  ∀ t o t' o', Job.Yields w t o → Job.Yields w' t' o' → Answered answer t → Answered answer t' →
    o ≠ .pending → o' ≠ .pending → whole ∨ o.GoesOn → o.Alike o'

namespace Agrees

variable {answer : Answering} {whole : Prop} {w w' : Walk} {s s' : RunState}

theorem done {r r' : Result} (h : Result.timeless r = Result.timeless r') :
    Agrees answer whole (.done r) (.done r') := by
  intro t o t' o' hy hy' _ _ ho ho' _
  obtain rfl := (Job.Yields.done_iff.mp hy).2.resolve_left ho
  obtain rfl := (Job.Yields.done_iff.mp hy').2.resolve_left ho'
  exact h

theorem ended (h : s.timeless = s'.timeless) :
    Agrees answer whole (Walk.ended s) (Walk.ended s') := done (congrArg Except.ok h)

theorem crash : Agrees answer whole .crash .crash := by
  intro t o t' o' hy hy' _ _ ho ho' _
  obtain rfl := (Job.Yields.crash_iff.mp hy).2.resolve_left ho
  obtain rfl := (Job.Yields.crash_iff.mp hy').2.resolve_left ho'
  trivial

/-- What is read from the clock makes no difference. -/
theorem clock {next next' : Reading Time.Instant → Walk}
    (h : ∀ reading reading', Agrees answer whole (next reading) (next' reading')) :
    Agrees answer whole (.clock next) (.clock next') := by
  intro t o t' o' hy hy' ht ht' ho ho' hw
  obtain ⟨-, hp⟩ | ⟨reading, hy⟩ := Job.Yields.of_clock hy
  · exact absurd hp ho
  obtain ⟨-, hp⟩ | ⟨reading', hy'⟩ := Job.Yields.of_clock hy'
  · exact absurd hp ho'
  exact h reading reading' t o t' o' hy hy' ht ht' ho ho' hw

/-- The same call gets the same reply. -/
theorem call {c : Block.Call} {limit limit' : Option Nat} {next next' : Option Block.Reply → Walk}
    (h : Agrees answer whole (next (answer c)) (next' (answer c))) :
    Agrees answer whole (.call c limit next) (.call c limit' next') := by
  intro t o t' o' hy hy' ht ht' ho ho' hw
  cases hy with
  | pending => exact absurd rfl ho
  | call reply _ rest =>
    cases hy' with
    | pending => exact absurd rfl ho'
    | call reply' _ rest' =>
      obtain ⟨hreply, hu⟩ := List.forall_mem_cons.mp ht
      obtain ⟨hreply', hu'⟩ := List.forall_mem_cons.mp ht'
      dsimp only at hreply hreply'
      subst hreply hreply'
      exact h _ o _ o' rest rest' hu hu' ho ho' hw

theorem sleep {nanos nanos' : Nat} {jitter jitter' : Bool} (h : Agrees answer whole w w') :
    Agrees answer whole (.sleep nanos jitter w) (.sleep nanos' jitter' w') := by
  intro t o t' o' hy hy' ht ht' ho ho' hw
  cases hy with
  | pending => exact absurd rfl ho
  | sleep rest =>
    cases hy' with
    | pending => exact absurd rfl ho'
    | sleep rest' => exact h t o t' o' rest rest' ht ht' ho ho' hw

/-- A template that gives the same is followed by walks that agree. -/
theorem onTemplate {α : Type} {e e' : Except Template.Failure α} (he : e = e')
    {next next' : Except Template.TemplateError α → Walk}
    (h : ∀ r, Agrees answer whole (next r) (next' r)) :
    Agrees answer whole (Walk.onTemplate e next) (Walk.onTemplate e' next') := by
  subst he
  rcases e with (e | _) | a
  · exact h _
  · exact crash
  · exact h _

theorem mono {whole' : Prop} (h : Agrees answer whole w w') (hw : whole' → whole) :
    Agrees answer whole' w w' := fun t o t' o' hy hy' ht ht' ho ho' h' =>
  h t o t' o' hy hy' ht ht' ho ho' (h'.imp hw id)

end Agrees

/-! ## One walk after another -/

/-- Walks agree that go on with alike states of walks that agree. -/
theorem Agrees.andThen {answer : Answering} {whole : Prop} {w w' : Walk} {f f' : RunState → Walk}
    (h : Agrees answer whole w w')
    (hf : ∀ t s t' s', Job.Yields w t (.result (.ok s)) → Job.Yields w' t' (.result (.ok s')) →
      s.timeless = s'.timeless → Agrees answer whole (f s) (f' s'))
    (hv : whole ∨ ∀ s t o, Job.Yields (f s) t o → o.GoesOn → s.verdict = .running) :
    Agrees answer whole (w.andThen f) (w'.andThen f') := by
  intro t o t' o' hy hy' ht ht' ho ho' hw
  rcases Yields.andThen_ends hy with ⟨s, t₁, t₂, rfl, hy₁, hy₂⟩ | hp | ⟨hy, hnone⟩
  · obtain ⟨ht₁, ht₂⟩ := answered_append.mp ht
    have hw₁ : whole ∨ Outcome.GoesOn (.result (.ok s)) :=
      hw.elim .inl fun hgo => hv.imp id fun hv => ⟨s, rfl, hv s t₂ o hy₂ hgo⟩
    rcases Yields.andThen_ends hy' with ⟨s', t₁', t₂', rfl, hy₁', hy₂'⟩ | hp' | ⟨hy', hnone'⟩
    · obtain ⟨ht₁', ht₂'⟩ := answered_append.mp ht'
      have halike := h _ _ _ _ hy₁ hy₁' ht₁ ht₁' (by simp) (by simp) hw₁
      exact hf _ s _ s' hy₁ hy₁' (Except.ok.inj halike) t₂ o t₂' o' hy₂ hy₂' ht₂ ht₂' ho ho' hw
    · exact absurd hp' ho'
    · obtain ⟨s', rfl, -⟩ := (h _ _ _ _ hy₁ hy' ht₁ ht' (by simp) ho' hw₁).of_ok
      exact absurd rfl (hnone' s')
  · exact absurd hp ho
  · have hw : whole := hw.resolve_right fun ⟨s, hs, _⟩ => hnone s hs
    rcases Yields.andThen_ends hy' with ⟨s', t₁', t₂', rfl, hy₁', hy₂'⟩ | hp' | ⟨hy', -⟩
    · have halike := h _ _ _ _ hy hy₁' ht (answered_append.mp ht').1 ho (by simp) (.inl hw)
      obtain ⟨s, rfl, -⟩ := halike.symm.of_ok
      exact absurd rfl (hnone s)
    · exact absurd hp' ho'
    · exact h _ _ _ _ hy hy' ht ht' ho ho' (.inl hw)

/-! ## Side by side -/

/-- Fan-outs agree that claim all of their tasks, when these agree and so does what follows their
results. -/
theorem Agrees.fan {answer : Answering} {whole : Prop} {workers workers' count : Nat}
    {stops stops' : Result → Bool} {task task' : Nat → Walk}
    {next next' : List (Option Result) → Walk} (never : ∀ r, stops r = false)
    (never' : ∀ r, stops' r = false) (htask : ∀ i, Agrees answer whole (task i) (task' i))
    (idle : ∀ i, count ≤ i → ∃ s, task i = Walk.ended s)
    (idle' : ∀ i, count ≤ i → ∃ s, task' i = Walk.ended s)
    (hnext : ∀ results results' : List Result, results.length = count →
      results.map Result.timeless = results'.map Result.timeless →
      (∀ i r, results[i]? = some r → ∃ t, Job.Yields (task i) t (.result r)) →
      (∀ i r, results'[i]? = some r → ∃ t, Job.Yields (task' i) t (.result r)) →
      Agrees answer whole (next (results.map some)) (next' (results'.map some)))
    (hv : ∀ (results : List Result) t o, results.length = count →
      Job.Yields (next (results.map some)) t o → o.GoesOn →
        ∀ r ∈ results, Outcome.GoesOn (.result r)) :
    Agrees answer whole (.fan workers stops count task next)
      (.fan workers' stops' count task' next') := by
  intro t o t' o' hy hy' ht ht' ho ho' hw
  -- only a task that is claimed ends the program
  have claimed {i : Nat} {t : Trace} {task : Nat → Walk}
      (idle : ∀ i, count ≤ i → ∃ s, task i = Walk.ended s) (hy : Job.Yields (task i) t .crash) :
      i < count := by
    by_contra hlt
    obtain ⟨s, hs⟩ := idle i (by omega)
    rw [hs] at hy
    cases hy
  rcases Job.Yields.of_fan never hy ho with ⟨results, t₁, t₂, rfl, hlen, ⟨parts, mixed, ran, -⟩, hrest⟩ |
    ⟨rfl, i, u, hcrash, hsub⟩
  · obtain ⟨ht₁, ht₂⟩ := answered_append.mp ht
    have hw' {i : Nat} {r : Result} (hr : results[i]? = some r) :
        whole ∨ Outcome.GoesOn (.result r) :=
      hw.imp id fun h => hv results t₂ o hlen hrest h r (List.mem_of_getElem? hr)
    rcases Job.Yields.of_fan never' hy' ho' with
      ⟨results', t₁', t₂', rfl, hlen', ⟨parts', mixed', ran', -⟩, hrest'⟩ | ⟨rfl, i, u, hcrash, hsub⟩
    · obtain ⟨ht₁', ht₂'⟩ := answered_append.mp ht'
      have halike : results.map Result.timeless = results'.map Result.timeless := by
        refine List.ext_getElem (by simp [hlen, hlen']) fun i hi hi' => ?_
        rw [List.length_map] at hi hi'
        rw [List.getElem_map, List.getElem_map]
        exact htask i _ _ _ _ (ran i _ (List.getElem?_eq_getElem hi))
          (ran' i _ (List.getElem?_eq_getElem hi')) (ht₁.part mixed i) (ht₁'.part mixed' i)
          (by simp) (by simp) (hw' (List.getElem?_eq_getElem hi))
      exact hnext results results' hlen halike (fun i r hr => ⟨_, ran i r hr⟩)
        (fun i r hr => ⟨_, ran' i r hr⟩) t₂ o t₂' o' hrest hrest' ht₂ ht₂' ho ho' hw
    · have hlt : i < results.length := by
        rw [hlen]
        exact claimed idle' hcrash
      exact (htask i _ _ _ _ (ran i _ (List.getElem?_eq_getElem hlt)) hcrash (ht₁.part mixed i)
        (fun e he => ht' e (hsub e he)) (by simp) (by simp)
        (hw' (List.getElem?_eq_getElem hlt))).elim
  · have hw : whole := hw.resolve_right fun ⟨s, hs, _⟩ => by cases hs
    rcases Job.Yields.of_fan never' hy' ho' with
      ⟨results', t₁', t₂', rfl, hlen', ⟨parts', mixed', ran', -⟩, -⟩ | ⟨rfl, -⟩
    · have hlt : i < results'.length := by
        rw [hlen']
        exact claimed idle hcrash
      exact (htask i _ _ _ _ hcrash (ran' i _ (List.getElem?_eq_getElem hlt))
        (fun e he => ht e (hsub e he)) ((answered_append.mp ht').1.part mixed' i) (by simp) (by simp)
        (.inl hw)).elim
    · trivial

end FlowEngine.Engine

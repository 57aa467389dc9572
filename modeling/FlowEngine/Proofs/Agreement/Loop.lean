import FlowEngine.Proofs.Agreement.Steps
import FlowEngine.Proofs.Walk.Loop

/-!
# Loops agree

Iterations that all end normally leave the same records whether they are walked one after the other or
side by side. If they do not, the result of a loop depends on the schedule only where its iterations
are walked side by side.

* `VisitsAgree.maps_alike` — iterations that all end normally.
* `inSequence_agrees` — iterations one after the other.
* `walkItems_agrees` — the iterations of a loop, in either way.
* `runLoop_agrees` — walks of loops from alike records at alike places.
-/

namespace FlowEngine.Engine

open FlowEngine.Run FlowEngine.Flow

variable {answer : Answering} {whole : Prop} {setup : Setup} {place place' : Place}
  {s s' : RunState} {name : String} {body : Body} {items : List Json} {its its' : List StepMap}

/-! ## The end of a loop -/

/-- Loops that end with alike maps end alike. -/
theorem closeLoop_alike (hs : s.timeless = s'.timeless) {maps maps' : List StepMap}
    (hmaps : maps.map StepMap.timeless = maps'.map StepMap.timeless) (duration duration' : Nat)
    (decisive : Option (Nat × Verdict)) :
    (closeLoop (looping name items place s body) items duration maps decisive).timeless =
      (closeLoop (looping name items place' s' body) items duration' maps' decisive).timeless := by
  have hr (status : StepStatus) (input : Json) (error : Option String) (item : Json) (index : Nat) :
      (loopRecord status input error (some duration) item index maps).timeless =
        (loopRecord status input error (some duration') item index maps').timeless := by
    unfold loopRecord
    rw [StepRecord.timeless, StepRecord.timeless, StepRecord.timelessAll_eq_map,
      StepRecord.timelessAll_eq_map, hmaps]
  unfold closeLoop
  generalize decisive.getD (items.length - 1, .running) = d
  obtain ⟨index, verdict⟩ := d
  refine RunState.withVerdict_alike (RunState.upsert_alike hs name ?_) verdict
  cases verdict <;> exact hr ..

theorem fit_alike (count : Nat) (h : its.map StepMap.timeless = its'.map StepMap.timeless) :
    (fit count its).map StepMap.timeless = (fit count its').map StepMap.timeless := by
  have hlen : its.length = its'.length := by simpa using congrArg List.length h
  unfold fit
  rw [List.map_append, List.map_append, List.map_take, List.map_take, h, hlen]

theorem zip_snd_alike (h : its.map StepMap.timeless = its'.map StepMap.timeless) :
    ((items.zip its).map Prod.snd).map StepMap.timeless =
      ((items.zip its').map Prod.snd).map StepMap.timeless := by
  have key (its : List StepMap) : ((items.zip its).map Prod.snd).map StepMap.timeless =
      (items.zip (its.map StepMap.timeless)).map Prod.snd := by
    rw [List.zip_map_right, List.map_map, List.map_map]
    rfl
  rw [key, key, h]

/-! ## Iterations -/

/-- The iterations of two loops at each index agree, when they are entered with alike maps. -/
def VisitsAgree (answer : Answering) (whole : Prop) (l l' : Looping) (items : List Json)
    (its its' : List StepMap) : Prop :=
  ∀ (i : Nat) (item : Json) (m m' : StepMap), items[i]? = some item → its[i]? = some m →
    its'[i]? = some m' → Agrees answer whole (l.visit i item m) (l'.visit i item m')

section

variable {l l' : Looping} {t t' : Trace} {traces traces' : Nat → Trace}
  {kids kids' : List (Option RunState)} {maps maps' : List StepMap}
  {decisive : Option (Nat × Verdict)}

/-- If the iterations of one loop end normally, one of the other loop ends as the first one did. -/
theorem VisitsAgree.ends (h : VisitsAgree answer whole l l' items its its')
    (hlen : its.length = its'.length)
    (hit : Iterated l.visit (items.zip its) t traces kids maps none) (ht : Answered answer t)
    {i : Nat} {item : Json} {m' : StepMap} {t₁ : Trace} {o₁ : Outcome Result}
    (hx : (items.zip its')[i]? = some (item, m')) (hy : Job.Yields (l'.visit i item m') t₁ o₁)
    (ht₁ : Answered answer t₁) (ho : o₁ ≠ .pending) :
    ∃ k k', kids[i]? = some (some k) ∧ o₁ = .result (.ok k') ∧ k.timeless = k'.timeless := by
  obtain ⟨hitem, hm'⟩ := List.getElem?_zip_eq_some.mp hx
  obtain ⟨m, hm⟩ := exists_getElem? hlen.symm hm'
  have hx₀ : (items.zip its)[i]? = some (item, m) := List.getElem?_zip_eq_some.mpr ⟨hitem, hm⟩
  obtain ⟨k, hk⟩ := hit.ran_of_decides hx₀
  have halike := h i item m m' hitem hm hm' _ _ _ _ (hit.ran i item m k hx₀ hk) hy
    (ht.part hit.mixed i) ht₁ (by simp) ho (.inr ⟨k, rfl, hit.decides i k hk⟩)
  obtain ⟨k', rfl, hkk⟩ := halike.of_ok
  exact ⟨k, k', hk, rfl, hkk⟩

/-- If the iterations of one loop end normally, those of the other loop do so with alike records. -/
theorem VisitsAgree.maps_alike (h : VisitsAgree answer whole l l' items its its')
    (hlen : its.length = its'.length)
    (hit : Iterated l.visit (items.zip its) t traces kids maps none) (ht : Answered answer t)
    (hit' : Iterated l'.visit (items.zip its') t' traces' kids' maps' decisive)
    (ht' : Answered answer t') :
    decisive = none ∧ maps.map StepMap.timeless = maps'.map StepMap.timeless := by
  have kid {i : Nat} {k' : RunState} (hk' : kids'[i]? = some (some k')) :
      ∃ k, kids[i]? = some (some k) ∧ k.timeless = k'.timeless := by
    obtain ⟨item, m', hx, hran⟩ := hit'.entered hk'
    obtain ⟨k, k'', hk, heq, hkk⟩ := h.ends hlen hit ht hx hran (ht'.part hit'.mixed i) (by simp)
    cases heq
    exact ⟨k, hk, hkk⟩
  obtain rfl : decisive = none := by
    have hdecides := hit'.decides
    rcases decisive with _ | ⟨i, v⟩
    · rfl
    · obtain ⟨hne, ⟨k', hk', rfl⟩, -⟩ := hdecides
      obtain ⟨k, hk, hkk⟩ := kid hk'
      exact absurd ((RunState.verdict_alike hkk).symm.trans (hit.decides i k hk)) hne
  have hmaps : maps.length = maps'.length := by
    rw [hit.mapsLength, hit'.mapsLength, List.length_zip, List.length_zip, hlen]
  refine ⟨rfl, List.ext_getElem (by simpa using hmaps) fun i hi hi' => ?_⟩
  rw [List.length_map] at hi hi'
  have hx := List.getElem?_eq_getElem (hit.mapsLength ▸ hi)
  have hx' := List.getElem?_eq_getElem (hit'.mapsLength ▸ hi')
  obtain ⟨k', hk'⟩ := hit'.ran_of_decides hx'
  obtain ⟨k, hk, hkk⟩ := kid hk'
  obtain ⟨m, hm, hafter⟩ := hit.maps i _ _ hx
  obtain ⟨m', hm', hafter'⟩ := hit'.maps i _ _ hx'
  rw [List.getElem?_eq_getElem hi] at hm
  rw [List.getElem?_eq_getElem hi'] at hm'
  rw [List.getElem_map, List.getElem_map, Option.some.inj hm, Option.some.inj hm',
    hafter.kept k hk hit.decides.not_repeats, hafter'.kept k' hk' hit'.decides.not_repeats]
  exact RunState.steps_alike hkk

end

/-- Iterations one after the other agree as a whole if all of them do. -/
theorem inSequence_agrees {l l' : Looping} {next next' : AfterLoop} {index : Nat}
    {before before' : List StepMap} (hits : its.map StepMap.timeless = its'.map StepMap.timeless)
    (hbefore : before.map StepMap.timeless = before'.map StepMap.timeless)
    (hvisit : ∀ (i : Nat) (item : Json) (m m' : StepMap), items[i]? = some item → its[i]? = some m →
      its'[i]? = some m' → Agrees answer True (l.visit (index + i) item m) (l'.visit (index + i) item m'))
    (hnext : ∀ maps maps' decisive, maps.map StepMap.timeless = maps'.map StepMap.timeless →
      Agrees answer True (next maps decisive) (next' maps' decisive)) :
    Agrees answer True (inSequence l next index before (items.zip its))
      (inSequence l' next' index before' (items.zip its')) := by
  induction items generalizing index its its' before before' with
  | nil =>
    rw [List.zip_nil_left, List.zip_nil_left]
    exact hnext _ _ _ (by rw [List.map_reverse, hbefore, ← List.map_reverse])
  | cons item items ih =>
    rcases its with _ | ⟨m, its⟩ <;> rcases its' with _ | ⟨m', its'⟩
    · exact hnext _ _ _ (by rw [List.map_reverse, hbefore, ← List.map_reverse])
    · cases hits
    · cases hits
    obtain ⟨hm, hits⟩ := List.cons_eq_cons.mp hits
    rw [List.zip_cons_cons, List.zip_cons_cons, inSequence, inSequence]
    refine Agrees.andThen (hvisit 0 item m m' rfl rfl rfl) (fun _ kid _ kid' _ _ hkid => ?_)
      (.inl trivial)
    have hkids : (kid.steps :: before).map StepMap.timeless =
        (kid'.steps :: before').map StepMap.timeless := by
      rw [List.map_cons, List.map_cons, hbefore, RunState.steps_alike hkid]
    dsimp only
    rw [RunState.verdict_alike hkid]
    split_ifs
    · refine ih hits hkids fun i item m m' hi hm hm' => ?_
      have := hvisit (i + 1) item m m' (by simpa using hi) (by simpa using hm) (by simpa using hm')
      rwa [Nat.add_assoc, Nat.add_comm 1 i]
    · refine hnext _ _ _ ?_
      rw [List.map_append, List.map_append, List.map_reverse, List.map_reverse, hkids,
        zip_snd_alike hits]

/-- The iterations of loops agree if all of them do. They agree as a whole only if they are walked one
after the other. -/
theorem walkItems_agrees {settings settings' : LoopSettings} {started started' : Reading Time.Instant}
    (hseq : whole → settings.parallel = false ∧ settings'.parallel = false)
    (hs : s.timeless = s'.timeless) (hits : its.map StepMap.timeless = its'.map StepMap.timeless)
    (hvisit : VisitsAgree answer whole (looping name items place s body)
      (looping name items place' s' body) items (fit items.length its) (fit items.length its')) :
    Agrees answer whole (walkItems setup place name settings body started items its s)
      (walkItems setup place' name settings' body started' items its' s') := by
  have hfit := fit_alike items.length hits
  have hlen : (fit items.length its).length = (fit items.length its').length := by
    simpa using congrArg List.length hfit
  intro t o t' o' hy hy' ht ht' ho ho' hw
  by_cases hgo : o.GoesOn
  · obtain ⟨s₁, rfl, hv⟩ := hgo
    obtain ⟨traces, kids, maps, decisive, duration, hit, rfl⟩ := (walkItems_yields rfl hy).2 s₁ rfl
    obtain rfl := closeLoop_running hit.decides hv
    have hok : ∃ s₂, o' = .result (.ok s₂) := by
      by_contra hnone
      obtain ⟨i, item, m', t₁, hx, hy₁, hsub⟩ :=
        walkItems_fails rfl hy' ho' fun s₂ hs₂ => hnone ⟨s₂, hs₂⟩
      obtain ⟨-, k', -, rfl, -⟩ :=
        hvisit.ends hlen hit ht hx hy₁ (fun e he => ht' e (hsub e he)) ho'
      exact hnone ⟨k', rfl⟩
    obtain ⟨s₂, rfl⟩ := hok
    obtain ⟨traces', kids', maps', decisive', duration', hit', rfl⟩ :=
      (walkItems_yields rfl hy').2 s₂ rfl
    obtain ⟨rfl, hmaps⟩ := hvisit.maps_alike hlen hit ht hit' ht'
    exact .ok (closeLoop_alike hs hmaps duration duration' none)
  · -- the loop does not end normally, so that its iterations are walked one after the other
    have hwhole : whole := hw.resolve_right hgo
    obtain ⟨hseq, hseq'⟩ := hseq hwhole
    unfold walkItems at hy hy'
    dsimp only at hy hy'
    rw [if_neg (by simp [hseq])] at hy
    rw [if_neg (by simp [hseq'])] at hy'
    refine inSequence_agrees hfit rfl (fun i item m m' hi hm hm' => ?_)
      (fun maps maps' decisive hmaps => .clock fun stopped stopped' =>
        .ended (closeLoop_alike hs hmaps _ _ decisive)) t o t' o' hy hy' ht ht' ho ho' (.inl trivial)
    rw [Nat.zero_add]
    exact (hvisit i item m m' hi hm hm').mono fun _ => hwhole

/-! ## The walk -/

/-- An iteration is entered at alike places with alike records. -/
theorem visitsAgree_of_body (hp : place.timeless = place'.timeless) (hs : s.timeless = s'.timeless)
    (hits : its.map StepMap.timeless = its'.map StepMap.timeless) (ht : ∀ m ∈ its, m.Tidy)
    (ht' : ∀ m ∈ its', m.Tidy)
    (hbody : ∀ place place' s s', place.timeless = place'.timeless → s.timeless = s'.timeless →
      s.steps.Tidy → s'.steps.Tidy → Agrees answer whole (body place s) (body place' s')) :
    VisitsAgree answer whole (looping name items place s body) (looping name items place' s' body)
      items its its' := by
  intro i item m m' _ hm hm'
  have halike : m.timeless = m'.timeless := by
    have := congrArg (fun l : List StepMap => l[i]?) hits
    rw [List.getElem?_map, List.getElem?_map, hm, hm'] at this
    exact Option.some.inj this
  refine hbody _ _ _ _ ?_ ?_ (ht m (List.mem_of_getElem? hm)) (ht' m' (List.mem_of_getElem? hm'))
  · exact enter_alike hp (RunState.upsert_alike hs name rfl) name ⟨item, i⟩
  · change (s.nested m).timeless = (s'.nested m').timeless
    rw [RunState.timeless_nested, RunState.timeless_nested, hs, halike]

theorem recordedLoop?_timeless (prior : Option StepRecord) :
    recordedLoop? (prior.map StepRecord.timeless) =
      (recordedLoop? prior).map fun x => (x.1, x.2.map StepMap.timeless) := by
  have hinput (r : StepRecord) : r.timeless.summary.input = r.summary.input := by cases r <;> rfl
  cases prior with
  | none => rfl
  | some r =>
    simp only [recordedLoop?, Option.map_some, Option.bind_eq_bind, Option.bind_some, hinput,
      StepRecord.iterations?_timeless]
    cases r.summary.input.member? "items" with
    | none => rfl
    | some j => cases j <;> cases r.iterations? <;> rfl

/-- Loops agree that are walked from alike records, if their bodies do. They agree as a whole only if
their iterations are walked one after the other. -/
theorem runLoop_agrees {settings settings' : LoopSettings} (hitems : settings.items = settings'.items)
    (huntimed : Untimed fun names => Template.resolve names settings.items)
    (hseq : whole → settings.parallel = false ∧ settings'.parallel = false)
    (hp : place.timeless = place'.timeless) (hs : s.timeless = s'.timeless)
    (ht : s.steps.Tidy) (ht' : s'.steps.Tidy)
    (hbody : ∀ place place' s s', place.timeless = place'.timeless → s.timeless = s'.timeless →
      s.steps.Tidy → s'.steps.Tidy → Agrees answer whole (body place s) (body place' s')) :
    Agrees answer whole (runLoop setup place name settings body s)
      (runLoop setup place' name settings' body s') := by
  have walked {items : List Json} {its its' : List StepMap} (started started' : Reading Time.Instant)
      (hits : its.map StepMap.timeless = its'.map StepMap.timeless) (htidy : ∀ m ∈ its, m.Tidy)
      (htidy' : ∀ m ∈ its', m.Tidy) :
      Agrees answer whole (walkItems setup place name settings body started items its s)
        (walkItems setup place' name settings' body started' items its' s') :=
    walkItems_agrees hseq hs hits <| visitsAgree_of_body hp hs (fit_alike _ hits)
      (tidy_fit htidy _) (tidy_fit htidy' _) hbody
  have hrecorded := congrArg recordedLoop? (RunState.get?_alike hs name)
  rw [recordedLoop?_timeless, recordedLoop?_timeless] at hrecorded
  unfold runLoop
  dsimp only
  rw [any_status_alike hs StepStatus.isFinished name]
  split_ifs
  · exact .ended hs
  refine .clock fun started started' => ?_
  cases hr : recordedLoop? (s.steps.get? name) with
  | some x =>
    obtain ⟨items, its⟩ := x
    rw [hr] at hrecorded
    obtain ⟨⟨items', its'⟩, hr', heq⟩ := Option.map_eq_some_iff.mp hrecorded.symm
    obtain ⟨rfl, hits⟩ := Prod.mk.inj heq
    rw [hr']
    obtain ⟨r, hget, hr⟩ := recordedLoop?_eq_some hr
    obtain ⟨r', hget', hr'⟩ := recordedLoop?_eq_some hr'
    exact walked started started' hits.symm (fun m hm => ht.inner hget hr hm)
      fun m hm => ht'.inner hget' hr' hm
  | none =>
    rw [hr] at hrecorded
    rw [Option.map_eq_none_iff.mp hrecorded.symm, ← hitems]
    refine .onTemplate (huntimed.eq hp hs _ _) fun resolved => ?_
    cases itemsOf resolved with
    | ok items => exact walked started started' rfl (by simp) (by simp)
    | error message => exact .failed hs message rfl

end FlowEngine.Engine

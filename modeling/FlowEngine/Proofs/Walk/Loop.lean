import FlowEngine.Proofs.Walk.Iterations

/-!
# Walking a loop

* `LoopEntry` — what the iterations of a loop are entered with, the first time or again.
* `Follows.loop` — the walk of a loop, given that of its body.
-/

namespace FlowEngine.Engine

open FlowEngine.Run FlowEngine.Flow

variable {setup : Setup} {B : Region} {wB : Body} {s s' : RunState} {t : Trace}
  {q : Option Position} {name : String}

/-! ## The record of a loop -/

/-- What the end of a loop puts into the records. -/
theorem closeLoop_eq (l : Looping) (items : List Json) (duration : Nat) (maps : List StepMap)
    (decisive : Option (Nat × Verdict)) : ∃ summary item index,
      (closeLoop l items duration maps decisive).steps =
        l.state.steps.insert l.name (.loop summary item index maps) ∧
      summary.input = l.input ∧
      (decisive = none → summary.status = .succeeded) ∧
      (∀ i v, decisive = some (i, v) →
        (closeLoop l items duration maps decisive).verdict = v ∧ index = i) ∧
      ∀ i p, decisive = some (i, .paused p) → summary.status = .paused := by
  rcases decisive with _ | ⟨i, v⟩
  · exact ⟨_, _, _, rfl, rfl, fun _ => rfl, by simp, by simp⟩
  · cases v
    case paused p => exact ⟨_, _, _, rfl, rfl, by simp, by rintro _ _ ⟨⟩; exact ⟨rfl, rfl⟩, fun _ _ _ => rfl⟩
    all_goals exact ⟨_, _, _, rfl, rfl, by simp, by rintro _ _ ⟨⟩; exact ⟨rfl, rfl⟩, by rintro _ _ ⟨⟩⟩

theorem closeLoop_running {l : Looping} {items : List Json} {duration : Nat} {maps : List StepMap}
    {kids : List (Option RunState)} {decisive : Option (Nat × Verdict)}
    (hd : Decides kids decisive)
    (hv : (closeLoop l items duration maps decisive).verdict = .running) : decisive = none := by
  cases decisive with
  | none => rfl
  | some d =>
    obtain ⟨_, _, _, -, -, -, hverdict, -⟩ := closeLoop_eq l items duration maps (some d)
    exact absurd ((hverdict d.1 d.2 rfl).1.symm.trans hv) hd.1

theorem closeLoop_paused {l : Looping} {items : List Json} {duration : Nat} {maps : List StepMap}
    {decisive : Option (Nat × Verdict)} {p : Pause}
    (hv : (closeLoop l items duration maps decisive).verdict = .paused p) :
    ∃ i, decisive = some (i, .paused p) := by
  rcases decisive with _ | ⟨i, v⟩
  · cases hv
  · obtain ⟨_, _, _, -, -, -, hverdict, -⟩ := closeLoop_eq l items duration maps (some (i, v))
    exact ⟨i, by rw [← (hverdict i v rfl).1, hv]⟩

/-! ## Entering a loop -/

theorem fit_of_length {count : Nat} {its : List StepMap} (h : its.length = count) :
    fit count its = its := by
  unfold fit
  rw [h, Nat.sub_self, List.replicate_zero, List.append_nil, ← h, List.take_length]

theorem fit_nil (count : Nat) : fit count [] = List.replicate count [] := by simp [fit]

theorem tidy_fit {its : List StepMap} (h : ∀ m ∈ its, m.Tidy) (count : Nat) :
    ∀ m ∈ fit count its, m.Tidy := by
  intro m hm
  rcases List.mem_append.mp hm with hm | hm
  · exact h m (List.mem_of_mem_take hm)
  · rw [List.eq_of_mem_replicate hm]
    exact StepMap.tidy_nil

/-- The items and maps that are recorded of a loop that was entered before. -/
theorem recordedLoop?_eq_some {prior : Option StepRecord} {items : List Json} {its : List StepMap}
    (h : recordedLoop? prior = some (items, its)) :
    ∃ r, prior = some r ∧ r.iterations? = some its := by
  simp only [recordedLoop?, Option.bind_eq_bind, Option.bind_eq_some_iff] at h
  obtain ⟨r, hr, j, -, hj⟩ := h
  split at hj
  · rw [Option.bind_eq_some_iff] at hj
    obtain ⟨its', hits, heq⟩ := hj
    cases heq
    exact ⟨r, hr, hits⟩
  · cases hj

/-- The items and maps that a loop of some name is entered with. An iteration may be entered as the
body of the loop; steps of it that have records are those of the record of the loop. -/
structure LoopEntry (B : Region) (name : String) (q : Option Position) (m : StepMap)
    (items : List Json) (recorded : List StepMap) (q' : Option Position) (index : Nat) : Prop where
  length : recorded.length = items.length
  position : q = q'.map (Position.inside name index)
  spread : Spread (recorded.map fun k => (B, k)) q' index
  keyed : ∀ k ∈ recorded, ∀ n ∈ k.names, n ∈ B.names
  tidy : ∀ k ∈ recorded, k.Tidy
  prior : (m.get? name = none ∧ ∀ k ∈ recorded, k = []) ∨
    ∃ summary item i, m.get? name = some (.loop summary item i recorded) ∧
      summary.input = .obj [("items", .arr items)] ∧ summary.status.isFinished = false

theorem LoopEntry.part {m : StepMap} {items : List Json} {recorded : List StepMap}
    {q' : Option Position} {index : Nat} (_ : LoopEntry B name q m items recorded q' index) {i : Nat}
    {item : Json} {k : StepMap} (hi : (items.zip recorded)[i]? = some (item, k)) :
    (recorded.map fun k => (B, k))[i]? = some (B, k) ∧ recorded[i]? = some k ∧ k ∈ recorded := by
  rw [List.getElem?_zip_eq_some] at hi
  exact ⟨by rw [List.getElem?_map, hi.2]; rfl, hi.2, List.mem_of_getElem? hi.2⟩

/-- Every map has its item. -/
theorem LoopEntry.item {m : StepMap} {items : List Json} {recorded : List StepMap}
    {q' : Option Position} {index : Nat} (he : LoopEntry B name q m items recorded q' index) {i : Nat}
    {k : StepMap} (hk : recorded[i]? = some k) :
    ∃ item, (items.zip recorded)[i]? = some (item, k) := by
  obtain ⟨item, hitem⟩ := exists_getElem? he.length hk
  exact ⟨item, List.getElem?_zip_eq_some.mpr ⟨hitem, hk⟩⟩

/-- A loop without a record: there is no state at the end, it has no items, or its iterations are
walked from the beginning. -/
theorem runLoop_first {settings : LoopSettings} {place : Place} {o : Outcome Result}
    (hn : s.steps.get? name = none)
    (h : Job.Yields (runLoop setup place name settings wB s) t o) :
    (t = [] ∧ ∀ s', o ≠ .result (.ok s')) ∨
      (t = [] ∧ ∃ input message, o = .result (.ok
        ((s.upsert name (failedRecord input message)).withVerdict (.failed name message)))) ∨
      ∃ items started,
        Job.Yields (walkItems setup place name settings wB started items [] s) t o := by
  unfold runLoop at h
  rw [hn] at h
  rcases Job.Yields.of_clock h with ⟨rfl, rfl⟩ | ⟨started, h⟩
  · exact .inl ⟨rfl, by simp⟩
  rcases Yields.of_onTemplate h with h | ⟨r, -, h⟩
  · exact .inl h
  · split at h
    · exact .inr (.inr ⟨_, started, h⟩)
    · obtain ⟨rfl, rfl | rfl⟩ := Job.Yields.done_iff.mp h
      · exact .inl ⟨rfl, by simp⟩
      · exact .inr (.inl ⟨rfl, _, _, rfl⟩)

/-- A loop that was entered before is entered with the recorded items and maps. -/
theorem runLoop_again {settings : LoopSettings} {place : Place} {o : Outcome Result}
    {summary : Summary} {item : Json} {index : Nat} {items : List Json} {its : List StepMap}
    (hr : s.steps.get? name = some (.loop summary item index its))
    (hs : summary.status.isFinished = false) (hinput : summary.input = .obj [("items", .arr items)])
    (h : Job.Yields (runLoop setup place name settings wB s) t o) :
    (t = [] ∧ ∀ s', o ≠ .result (.ok s')) ∨
      ∃ started, Job.Yields (walkItems setup place name settings wB started items its s) t o := by
  unfold runLoop at h
  rw [hr, if_neg (by
    change ¬ summary.status.isFinished = true
    simp [hs])] at h
  rcases Job.Yields.of_clock h with ⟨rfl, rfl⟩ | ⟨started, h⟩
  · exact .inl ⟨rfl, by simp⟩
  · have hrec : recordedLoop? (some (.loop summary item index its)) = some (items, its) := by
      simp [recordedLoop?, StepRecord.summary, hinput, Json.member?, StepRecord.iterations?]
    rw [hrec] at h
    exact .inr ⟨started, h⟩

/-- A loop that is finished is not walked. -/
theorem runLoop_rests {settings : LoopSettings} {place : Place} {r : StepRecord}
    (hr : s.steps.get? name = some r) (hf : r.status.isFinished = true) :
    runLoop setup place name settings wB s = Walk.ended s := by
  unfold runLoop
  rw [hr]
  exact if_pos hf

theorem runLoop_done {settings : LoopSettings} {place : Place}
    (h : Region.LoopDone name s.steps) :
    runLoop setup place name settings wB s = Walk.ended s := by
  obtain ⟨r, hr, hf, -⟩ := h
  exact runLoop_rests hr hf

/-- The ways in which a walk that enters a loop goes: it is finished, it makes no calls and has no
state at the end, it has no items, or the iterations are walked. -/
theorem runLoop_yields {label : Label} {settings : LoopSettings} {body : List Step} {place : Place}
    {o : Outcome Result} (ht : s.steps.Tidy)
    (hstage : (Region.loop (.loop label settings body) B).stage q s.steps)
    (h : Job.Yields (runLoop setup place label.name settings wB s) t o) :
    (t = [] ∧ q = none ∧ Region.LoopDone label.name s.steps ∧ ∀ s', o = .result (.ok s') → s' = s) ∨
      (t = [] ∧ ∀ s', o ≠ .result (.ok s')) ∨
      (t = [] ∧ q = none ∧ s.steps.get? label.name = none ∧ ∃ input message, o = .result (.ok
        ((s.upsert label.name (failedRecord input message)).withVerdict
          (.failed label.name message)))) ∨
      ∃ items its recorded q' index started, fit items.length its = recorded ∧
        LoopEntry B label.name q s.steps items recorded q' index ∧
        Job.Yields (walkItems setup place label.name settings wB started items its s) t o := by
  rcases hstage.2 with ⟨rfl, hnone | hdone⟩ | ⟨q', index, hq, hentered⟩
  · have hnone : s.steps.get? label.name = none := hnone
    rcases runLoop_first hnone h with h | ⟨rfl, hfail⟩ | ⟨items, started, h⟩
    · exact .inr (.inl h)
    · exact .inr (.inr (.inl ⟨rfl, rfl, hnone, hfail⟩))
    · refine .inr (.inr (.inr ⟨items, [], _, none, 0, started, fit_nil _,
        ⟨by simp, rfl, ?_, ?_, ?_, .inl ⟨hnone, fun k hk => List.eq_of_mem_replicate hk⟩⟩, h⟩))
      · refine .of_mem 0 fun x hx => ?_
        obtain ⟨k, hk, rfl⟩ := List.mem_map.mp hx
        rw [List.eq_of_mem_replicate hk]
        exact B.stage_fresh fun _ _ => rfl
      · intro k hk n hn
        rw [List.eq_of_mem_replicate hk] at hn
        cases hn
      · intro k hk
        rw [List.eq_of_mem_replicate hk]
        exact StepMap.tidy_nil
  · have hdone : Region.LoopDone label.name s.steps := hdone
    rw [runLoop_done hdone] at h
    obtain ⟨rfl, ho⟩ := Job.Yields.done_iff.mp h
    refine .inl ⟨rfl, rfl, hdone, fun s' hs' => ?_⟩
    subst hs'
    rcases ho with ho | ho <;> cases ho
    rfl
  · obtain ⟨summary, item, items, its, hr, hs, hinput, hlen, hkeyed, hspread⟩ := hentered
    have hr : s.steps.get? label.name = some (.loop summary item index its) := hr
    have hs : summary.status.isFinished = false := by rw [hs]; split_ifs <;> rfl
    rcases runLoop_again hr hs hinput h with h | ⟨started, h⟩
    · exact .inr (.inl h)
    · exact .inr (.inr (.inr ⟨items, its, its, q', index, started, fit_of_length hlen,
        ⟨hlen, hq, hspread, hkeyed, fun k hk => ht.inner hr rfl hk,
          .inr ⟨summary, item, index, hr, hinput, hs⟩⟩, h⟩))

/-! ## Walking the iterations -/

/-- A loop that is walked. -/
def looping (name : String) (items : List Json) (place : Place) (s : RunState) (body : Body) :
    Looping := ⟨name, .obj [("items", .arr items)], place, s, body⟩

/-- The iterations are walked, one after the other unless they may be walked side by side, and what
they decide is recorded. -/
theorem walkItems_ends {settings : LoopSettings} {place : Place}
    {started : Reading Time.Instant} {items : List Json} {its recorded : List StepMap}
    {o : Outcome Result} (hfit : fit items.length its = recorded)
    (h : Job.Yields (walkItems setup place name settings wB started items its s) t o) :
    CallsOf (looping name items place s wB).visit (items.zip recorded) t ∧
      ∀ s', o = .result (.ok s') → ∃ traces kids maps decisive duration,
        Iterated (looping name items place s wB).visit (items.zip recorded) t traces kids maps
          decisive ∧
        (settings.parallel = false → Successive kids decisive) ∧
        s' = closeLoop (looping name items place s wB) items duration maps decisive := by
  subst hfit
  have silent (maps : List StepMap) (decisive : Option (Nat × Verdict)) {t : Trace}
      {o : Outcome Result} (h : Job.Yields (.clock fun stopped =>
        Walk.ended (closeLoop (looping name items place s wB) items (elapsed started stopped) maps
          decisive) : Walk) t o) :
      t = [] ∧ ∀ s', o = .result (.ok s') → ∃ duration,
        s' = closeLoop (looping name items place s wB) items duration maps decisive := by
    rcases Job.Yields.of_clock h with ⟨rfl, rfl⟩ | ⟨stopped, h⟩
    · exact ⟨rfl, by simp⟩
    · obtain ⟨rfl, ho⟩ := Job.Yields.done_iff.mp h
      refine ⟨rfl, fun s' hs' => ?_⟩
      subst hs'
      rcases ho with ho | ho <;> cases ho
      exact ⟨_, rfl⟩
  unfold walkItems at h
  dsimp only at h
  split_ifs at h with hparallel
  · obtain ⟨hcalls, hends⟩ := sideBySide_yields (fun maps d t o h => (silent maps d h).1) h
    refine ⟨hcalls, fun s' hs' => ?_⟩
    obtain ⟨traces, kids, maps, decisive, hit, hnext⟩ := hends s' hs'
    obtain ⟨duration, hs'⟩ := (silent maps decisive hnext).2 s' rfl
    exact ⟨traces, kids, maps, decisive, duration, hit, by simp [hparallel], hs'⟩
  · obtain ⟨hcalls, hends⟩ := inSequence_yields (fun maps d t o h => (silent maps d h).1) h
    have hzero : (fun i => (looping name items place s wB).visit (0 + i)) =
        (looping name items place s wB).visit := funext fun i => by rw [Nat.zero_add]
    rw [← hzero]
    refine ⟨hcalls, fun s' hs' => ?_⟩
    obtain ⟨traces, kids, maps, decisive, hit, hone, hnext⟩ := hends s' hs'
    obtain ⟨duration, hs'⟩ := (silent _ _ hnext).2 s' rfl
    exact ⟨traces, kids, maps, decisive, duration, hit, fun _ => hone, by simpa using hs'⟩

/-- The iterations are walked, and what they decide is recorded. -/
theorem walkItems_yields {settings : LoopSettings} {place : Place}
    {started : Reading Time.Instant} {items : List Json} {its recorded : List StepMap}
    {o : Outcome Result} (hfit : fit items.length its = recorded)
    (h : Job.Yields (walkItems setup place name settings wB started items its s) t o) :
    CallsOf (looping name items place s wB).visit (items.zip recorded) t ∧
      ∀ s', o = .result (.ok s') → ∃ traces kids maps decisive duration,
        Iterated (looping name items place s wB).visit (items.zip recorded) t traces kids maps
          decisive ∧
        s' = closeLoop (looping name items place s wB) items duration maps decisive := by
  obtain ⟨hcalls, hends⟩ := walkItems_ends hfit h
  refine ⟨hcalls, fun s' hs' => ?_⟩
  obtain ⟨traces, kids, maps, decisive, duration, hit, -, hclose⟩ := hends s' hs'
  exact ⟨traces, kids, maps, decisive, duration, hit, hclose⟩

/-- The iterations end without a state only if one of them does, and as it does. -/
theorem walkItems_fails {settings : LoopSettings} {place : Place} {started : Reading Time.Instant}
    {items : List Json} {its recorded : List StepMap} {o : Outcome Result}
    (hfit : fit items.length its = recorded)
    (h : Job.Yields (walkItems setup place name settings wB started items its s) t o)
    (ho : o ≠ .pending) (hnone : ∀ s, o ≠ .result (.ok s)) :
    FailsIn (looping name items place s wB).visit (items.zip recorded) t o := by
  subst hfit
  have closes (maps : List StepMap) (decisive : Option (Nat × Verdict)) (t : Trace)
      (o : Outcome Result) (h : Job.Yields (.clock fun stopped =>
        Walk.ended (closeLoop (looping name items place s wB) items (elapsed started stopped) maps
          decisive) : Walk) t o) : o = .pending ∨ ∃ s, o = .result (.ok s) := by
    rcases Job.Yields.of_clock h with ⟨-, hp⟩ | ⟨stopped, h⟩
    · exact .inl hp
    · exact (Job.Yields.done_iff.mp h).2.imp id fun hs => ⟨_, hs⟩
  unfold walkItems at h
  dsimp only at h
  split_ifs at h
  · exact sideBySide_fails closes h ho hnone
  · have hzero : (fun i => (looping name items place s wB).visit (0 + i)) =
        (looping name items place s wB).visit := funext fun i => by rw [Nat.zero_add]
    rw [← hzero]
    exact inSequence_fails closes h ho hnone

theorem visit_path (name : String) (items : List Json) (place : Place) (s : RunState) (wB : Body) (i : Nat)
    (item : Json) (k : StepMap) : ∃ place', place'.path = place.path ++ [(name, i)] ∧
      (looping name items place s wB).visit i item k = wB place' (s.nested k) :=
  ⟨_, rfl, rfl⟩

/-- The iterations of a loop are parts of a fan-out. -/
theorem LoopEntry.fanOut (hB : Follows setup B wB) {place : Place} {items : List Json}
    {recorded maps : List StepMap} {q' : Option Position} {index : Nat} {traces : Nat → Trace}
    {kids : List (Option RunState)} {decisive : Option (Nat × Verdict)}
    (he : LoopEntry B name q s.steps items recorded q' index)
    (hit : Iterated (looping name items place s wB).visit (items.zip recorded) t traces kids maps
      decisive) :
    FanOut (recorded.map fun k => (B, k)) (fun i => place.path ++ [(name, i)]) q' index traces
      kids := by
  have part {i : Nat} {R : Region} {k : StepMap}
      (hi : (recorded.map fun k => (B, k))[i]? = some (R, k)) :
      R = B ∧ k ∈ recorded ∧ ∃ item, (items.zip recorded)[i]? = some (item, k) := by
    rw [List.getElem?_map, Option.map_eq_some_iff] at hi
    obtain ⟨k', hi, heq⟩ := hi
    obtain ⟨rfl, rfl⟩ := Prod.mk.inj heq
    exact ⟨rfl, List.mem_of_getElem? hi, he.item hi⟩
  refine ⟨he.spread, ?_, ?_, ?_, hit.skipped⟩
  · rw [hit.length, List.length_zip, List.length_map, he.length, Nat.min_self]
  · intro i R k kid hi hkid
    obtain ⟨rfl, hk, item, hz⟩ := part hi
    obtain ⟨place', hpath, hvisit⟩ := visit_path name items place s wB i item k
    have hy := hit.ran i item k kid hz hkid
    rw [hvisit] at hy
    rw [← hpath]
    exact hB.lands place' _ (s.nested k) _ kid rfl (he.tidy k hk) (he.spread.stage i R k hi) hy
  · intro i R k kid hi hkid hc
    obtain ⟨rfl, hk, item, hz⟩ := part hi
    obtain ⟨place', hpath, hvisit⟩ := visit_path name items place s wB i item k
    have hy := hit.ran i item k kid hz hkid
    rw [hvisit, hB.rests place' (s.nested k) rfl hc] at hy
    obtain ⟨-, rfl⟩ := Yields.of_ended hy
    rfl

section

variable {place : Place} {items : List Json} {recorded maps : List StepMap}
  {q' : Option Position} {index : Nat} {traces : Nat → Trace} {kids : List (Option RunState)}
  {decisive : Option (Nat × Verdict)}

/-- The maps after the iterations are those of parts of a fan-out. -/
theorem LoopEntry.after (hB : Follows setup B wB)
    (he : LoopEntry B name q s.steps items recorded q' index)
    (hit : Iterated (looping name items place s wB).visit (items.zip recorded) t traces kids maps
      decisive) {i : Nat} {m : StepMap} (hm : recorded[i]? = some m) : ∃ m', maps[i]? = some m' ∧
      MapAfter kids i m m' ∧ Settled B kids i m m' ∧ Keeps m m' ∧ m'.Tidy ∧
        ∀ n ∈ m'.names, n ∈ B.names := by
  have hf := he.fanOut hB hit
  have hp : (recorded.map fun k => (B, k))[i]? = some (B, m) := by
    rw [List.getElem?_map, hm]; rfl
  obtain ⟨item, hz⟩ := he.item hm
  obtain ⟨m', hm', ha⟩ := hit.maps i item m hz
  have hmem := List.mem_of_getElem? hm
  have hl {k : RunState} (hk : kids[i]? = some (some k)) := hf.lands i B m k hp hk
  refine ⟨m', hm', ha, ha.settled fun k hk => (hl hk).tidy.nodup,
    hf.keeps hp (he.tidy m hmem) (he.keyed m hmem) ha, ?_⟩
  have names {k : RunState} (hk : kids[i]? = some (some k)) {n : String} (hn : n ∈ k.steps.names) :
      n ∈ B.names := by
    by_contra hnB
    obtain ⟨r, hr⟩ := StepMap.mem_names_iff.mp hn
    rw [(hl hk).frame n hnB] at hr
    exact hnB (he.keyed m hmem n (StepMap.mem_names_iff.mpr ⟨r, hr⟩))
  rcases hf.kid hp with hk | ⟨k, hk⟩
  · rw [ha.skipped hk]
    exact ⟨he.tidy m hmem, he.keyed m hmem⟩
  · by_cases hr : Repeats kids i
    · rw [ha.repeated k hk hr]
      exact ⟨(hl hk).tidy.withdrawPauses,
        fun n hn => names hk (StepMap.names_withdrawPauses_subset _ n hn)⟩
    · rw [ha.kept k hk hr]
      exact ⟨(hl hk).tidy, fun n hn => names hk hn⟩

/-- The calls of different iterations are at different positions. -/
theorem LoopEntry.lastAt?_eq (hB : Follows setup B wB)
    (he : LoopEntry B name q s.steps items recorded q' index)
    (hit : Iterated (looping name items place s wB).visit (items.zip recorded) t traces kids maps
      decisive) (i : Nat) (p : Position) :
    lastAt? ((p.inside name i).under place.path) t =
      lastAt? (p.under (place.path ++ [(name, i)])) (traces i) := by
  unfold lastAt?
  rw [Position.under_inside, hit.mixed.filter_eq fun j hj e hmem => ?_]
  have hran : ∃ k, kids[j]? = some (some k) := by
    by_contra hn
    rw [hit.idle j (by simpa using hn)] at hmem
    cases hmem
  obtain ⟨k, hk⟩ := hran
  obtain ⟨item, m, hz, hy⟩ := hit.entered hk
  obtain ⟨hpart, -, hm⟩ := he.part hz
  obtain ⟨place', hpath, hvisit⟩ := visit_path name items place s wB j item m
  rw [hvisit] at hy
  obtain ⟨p', hp'⟩ := hB.calls place' _ (s.nested m) _ _ rfl (he.tidy m hm)
    (he.spread.stage j B m hpart) hy e hmem
  rw [hp'.place, hpath, decide_eq_false_iff_not, ← Position.under_inside, ← Position.under_inside]
  intro heq
  exact hj (Position.inside_injective (Position.under_injective _ heq)).2.1

/-- The calls of an iteration are calls in the loop. -/
theorem LoopEntry.fits {label : Label} {settings : LoopSettings} {body : List Step}
    (hB : Follows setup B wB)
    (he : LoopEntry B label.name q s.steps items recorded q' index) {i : Nat} {item : Json}
    {m : StepMap} {t : Trace} {o : Outcome Result}
    (hz : (items.zip recorded)[i]? = some (item, m))
    (hy : Job.Yields ((looping label.name items place s wB).visit i item m) t o)
    {e : Event Block.Call Block.Reply} (hmem : e ∈ t) :
    ∃ p, Fits setup (Region.loop (.loop label settings body) B) place.path q s.steps p e := by
  obtain ⟨hpart, hm, hmm⟩ := he.part hz
  obtain ⟨place', hpath, hvisit⟩ := visit_path label.name items place s wB i item m
  rw [hvisit] at hy
  obtain ⟨p, hp⟩ := hB.calls place' _ (s.nested m) t o rfl (he.tidy m hmm)
    (he.spread.stage i B m hpart) hy e hmem
  refine ⟨p.inside label.name i, ?_, ?_, by simp [Region.names, Region.loop, Step.name, Step.label],
    fun r hr => ?_, fun hq => ?_, fun hq => ?_⟩
  · rw [hp.place, hpath, Position.under_inside]
  · obtain ⟨l, a, hstep, hrest⟩ := hp.action
    exact ⟨l, a, List.mem_cons_of_mem _ hstep, hrest⟩
  · obtain ⟨rl, its', k, hl, hits, hk, hr⟩ := StepMap.at?_inside_eq_some.mp hr
    rcases he.prior with ⟨hnone, -⟩ | ⟨summary, item', i', hrec, -⟩
    · rw [hnone] at hl; cases hl
    · rw [hrec] at hl
      cases hl
      cases hits
      obtain rfl := Option.some.inj (hk.symm.trans hm)
      exact hp.unfinished r hr
  · rw [he.position, Option.map_eq_some_iff] at hq
    obtain ⟨p', rfl, hpp⟩ := hq
    obtain ⟨-, rfl, rfl⟩ := Position.inside_injective hpp
    exact hp.resumed (by simp)
  · refine hp.begun fun hq' => hq ?_
    split_ifs at hq' with hi
    rw [he.position, hq', hi]
    rfl

/-! ## The records at the end -/

theorem LoopEntry.maps_length (he : LoopEntry B name q s.steps items recorded q' index)
    (hit : Iterated (looping name items place s wB).visit (items.zip recorded) t traces kids maps
      decisive) : maps.length = recorded.length := by
  rw [hit.mapsLength, List.length_zip, he.length, Nat.min_self]

/-- A map at the end is that of an iteration after what its recorded one was. -/
theorem LoopEntry.of_map (hB : Follows setup B wB)
    (he : LoopEntry B name q s.steps items recorded q' index)
    (hit : Iterated (looping name items place s wB).visit (items.zip recorded) t traces kids maps
      decisive) {i : Nat} {m' : StepMap} (hm' : maps[i]? = some m') :
    ∃ m, recorded[i]? = some m ∧ MapAfter kids i m m' ∧ Settled B kids i m m' ∧ Keeps m m' ∧
      m'.Tidy ∧ ∀ n ∈ m'.names, n ∈ B.names := by
  obtain ⟨m, hm⟩ := exists_getElem? (he.maps_length hit) hm'
  obtain ⟨m'', hm'', hafter⟩ := he.after hB hit hm
  obtain rfl := Option.some.inj (hm'.symm.trans hm'')
  exact ⟨m, hm, hafter⟩

/-- A map at the end is that of a part of the fan-out. -/
theorem LoopEntry.settled (hB : Follows setup B wB)
    (he : LoopEntry B name q s.steps items recorded q' index)
    (hit : Iterated (looping name items place s wB).visit (items.zip recorded) t traces kids maps
      decisive) {i : Nat} {R : Region} {m' : StepMap}
    (hm' : (maps.map fun k => (B, k))[i]? = some (R, m')) :
    ∃ m, (recorded.map fun k => (B, k))[i]? = some (R, m) ∧ Settled R kids i m m' ∧ m'.Tidy ∧
      ∀ n ∈ m'.names, n ∈ R.names := by
  rw [List.getElem?_map, Option.map_eq_some_iff] at hm'
  obtain ⟨_, hm', ⟨⟩⟩ := hm'
  obtain ⟨m, hm, -, hset, -, hrest⟩ := he.of_map hB hit hm'
  exact ⟨m, by rw [List.getElem?_map, hm]; rfl, hset, hrest⟩

theorem LoopEntry.maps_tidy (hB : Follows setup B wB)
    (he : LoopEntry B name q s.steps items recorded q' index)
    (hit : Iterated (looping name items place s wB).visit (items.zip recorded) t traces kids maps
      decisive) {m : StepMap} (hm : m ∈ maps) : m.Tidy ∧ ∀ n ∈ m.names, n ∈ B.names := by
  obtain ⟨i, hi⟩ := List.getElem?_of_mem hm
  have hpart : (maps.map fun k => (B, k))[i]? = some (B, m) := by rw [List.getElem?_map, hi]; rfl
  obtain ⟨-, -, -, hrest⟩ := he.settled hB hit hpart
  exact hrest

/-- The records that there were are still there. -/
theorem LoopEntry.keeps (hB : Follows setup B wB)
    (he : LoopEntry B name q s.steps items recorded q' index)
    (hit : Iterated (looping name items place s wB).visit (items.zip recorded) t traces kids maps
      decisive) {summary : Summary} (hi : summary.input = .obj [("items", .arr items)])
    (item : Json) (j : Nat) : Keeps s.steps (s.steps.insert name (.loop summary item j maps)) := by
  refine .insert _ _ fun r hr => ?_
  rcases he.prior with ⟨h, -⟩ | ⟨sm, it, i, h, hin, hfin⟩
  · rw [h] at hr; cases hr
  · rw [h] at hr
    cases hr
    refine ⟨⟨fun hf => ?_, fun _ h => (by cases h), ?_, fun _ => ?_⟩, ?_⟩
    · exact absurd (show sm.status.isFinished = true from hf) (by simp [hfin])
    · rintro _ ⟨⟩
      exact ⟨hi.trans hin.symm, maps, rfl, he.maps_length hit⟩
    · rw [StepRecord.withoutPause, StepRecord.withoutPauseBy]
      split_ifs <;> simp
    · rintro _ i k ⟨⟩ hk
      obtain ⟨m', hm', -, -, hkeeps, -⟩ := he.after hB hit hk
      exact ⟨maps, m', rfl, hm', hkeeps⟩

/-- If no iteration decides, the loop is finished, and no record in it waits. -/
theorem LoopEntry.done (hB : Follows setup B wB)
    (he : LoopEntry B name q s.steps items recorded q' index)
    (hit : Iterated (looping name items place s wB).visit (items.zip recorded) t traces kids maps
      none) {summary : Summary} (hs : summary.status = .succeeded) (item : Json) (j : Nat) :
    Region.LoopDone name (s.steps.insert name (.loop summary item j maps)) := by
  refine ⟨_, StepMap.get?_insert_self _ _ _, ?_,
    StepRecord.quiet_loop_iff.mpr ⟨by simp [hs], fun k hk => ?_⟩⟩
  · change summary.status.isFinished = true
    rw [hs]
    rfl
  · obtain ⟨i, hi⟩ := List.getElem?_of_mem hk
    have hpart : (maps.map fun k => (B, k))[i]? = some (B, k) := by rw [List.getElem?_map, hi]; rfl
    obtain ⟨m, hm, hset, htidy, hnames⟩ := he.settled hB hit hpart
    exact B.quiet_map htidy hnames (B.stage_complete ((he.fanOut hB hit).completes hit.decides hm hset))

/-- If an iteration decides that paused, an action waits in this one. -/
theorem LoopEntry.waits {i : Nat} {pause : Pause} (hB : Follows setup B wB)
    (he : LoopEntry B name q s.steps items recorded q' index)
    (hit : Iterated (looping name items place s wB).visit (items.zip recorded) t traces kids maps
      (some (i, .paused pause))) {summary : Summary} (hs : summary.status = .paused)
    (hi : summary.input = .obj [("items", .arr items)]) (item : Json) :
    ∃ p, Region.LoopEntered B name (some p) i (s.steps.insert name (.loop summary item i maps)) ∧
      Asked place.path (p.inside name i) pause t (s.steps.insert name (.loop summary item i maps)) := by
  have hlen := he.maps_length hit
  have hget : (s.steps.insert name (.loop summary item i maps)).get? name =
      some (.loop summary item i maps) := StepMap.get?_insert_self _ _ _
  have settled (i : Nat) (R : Region) (m' : StepMap)
      (hm' : (maps.map fun k => (B, k))[i]? = some (R, m')) :
      ∃ m, (recorded.map fun k => (B, k))[i]? = some (R, m) ∧ Settled R kids i m m' := by
    obtain ⟨m, hm, hset, -⟩ := he.settled hB hit hm'
    exact ⟨m, hm, hset⟩
  obtain ⟨R, m, k, p, hm, hk, hrep, hasked, hspread⟩ := (he.fanOut hB hit).waits hit.decides
    (by rw [List.length_map, List.length_map, hlen]) settled
  refine ⟨p, ⟨summary, item, items, maps, hget, hs, hi, hlen.trans he.length,
    fun k hk => (he.maps_tidy hB hit hk).2, hspread⟩, ?_⟩
  obtain ⟨sm, output, e, hat, hlast, hrest⟩ := hasked
  refine ⟨sm, output, e, StepMap.at?_inside_eq_some.mpr ⟨_, maps, k.steps, hget, rfl, ?_, hat⟩,
    (he.lastAt?_eq hB hit i p).trans hlast, hrest⟩
  rw [List.getElem?_map, Option.map_eq_some_iff] at hm
  obtain ⟨m₀, hm, -⟩ := hm
  obtain ⟨m', hm', ha, -⟩ := he.after hB hit hm
  rw [hm', ha.kept k hk hrep]

/-- The action that waited was called or its input could not be resolved. -/
theorem LoopEntry.reached {p : Position} {step : Step} (hB : Follows setup B wB)
    (he : LoopEntry B name q s.steps items recorded (some p) index)
    (hit : Iterated (looping name items place s wB).visit (items.zip recorded) t traces kids maps
      decisive) (summary : Summary) (item : Json) (j : Nat) :
    (∃ e ∈ t, e.place = (p.inside name index).under place.path) ∨
      Unresolved (Region.loop step B).steps (p.inside name index)
        (s.steps.insert name (.loop summary item j maps)) := by
  obtain ⟨R, m, k, hm, hk, hrep, hreached⟩ := (he.fanOut hB hit).reached
  rw [List.getElem?_map, Option.map_eq_some_iff] at hm
  obtain ⟨m₀, hm, ⟨⟩⟩ := hm
  refine hreached.imp ?_ ?_
  · rintro ⟨e, hmem, hplace⟩
    exact ⟨e, (hit.mixed.mem_iff e).mpr ⟨index, hmem⟩, by rw [hplace, Position.under_inside]⟩
  · rintro ⟨l, a, e, d, hmem, hl, hresolve, hat⟩
    obtain ⟨m', hm', ha, -⟩ := he.after hB hit hm
    rw [ha.kept k hk hrep] at hm'
    exact ⟨l, a, e, d, List.mem_cons_of_mem _ hmem, hl, hresolve, StepMap.at?_inside_eq_some.mpr
      ⟨_, maps, k.steps, StepMap.get?_insert_self _ _ _, rfl, hm', hat⟩⟩

end

/-- A loop is walked as a region when its body is. -/
theorem Follows.loop (label : Label) (settings : LoopSettings) (body : List Step)
    (hB : Follows setup B wB) (hname : label.name ∉ B.names) :
    Follows setup (Region.loop (.loop label settings body) B) fun place s =>
      runLoop setup place label.name settings wB s where
  rests place s hv hc := runLoop_done hc.2
  calls place q s t o hv ht hstage h e hmem := by
    rcases runLoop_yields ht hstage h with ⟨rfl, -⟩ | ⟨rfl, -⟩ | ⟨rfl, -⟩ |
      ⟨items, its, recorded, q', index, started, hfit, he, h⟩
    · cases hmem
    · cases hmem
    · cases hmem
    · obtain ⟨i, item, m, t', o', hz, hy, hmem⟩ := (walkItems_yields hfit h).1 e hmem
      exact he.fits hB hz hy hmem
  lands place q s t s' hv ht hstage h := by
    have hfresh (r : StepRecord) : Fresh B.names (s.steps.insert label.name r) := fun n hn => by
      rw [StepMap.get?_insert_of_ne _ r (by rintro rfl; exact hname hn)]
      exact hstage.1 n hn
    rcases runLoop_yields ht hstage h with ⟨rfl, rfl, hdone, hs'⟩ | ⟨-, ho⟩ |
      ⟨rfl, rfl, hnone, input, message, ho⟩ | ⟨items, its, recorded, q', index, started, hfit, he, h⟩
    · obtain rfl := hs' s' rfl
      exact .rest hv ht ⟨hstage.1, hdone⟩
    · exact absurd rfl (ho s')
    · obtain rfl : s' = _ := by simpa using ho
      exact .failed List.mem_cons_self hnone ht input message
    obtain ⟨traces, kids, maps, decisive, duration, hit, rfl⟩ := (walkItems_yields hfit h).2 s' rfl
    obtain ⟨summary, item, j, hsteps, hinput, hnone, hsome, hpaused⟩ :=
      closeLoop_eq (looping label.name items place s wB) items duration maps decisive
    have hsteps : (closeLoop (looping label.name items place s wB) items duration maps
        decisive).steps = s.steps.insert label.name (.loop summary item j maps) := hsteps
    refine ⟨fun n hn => ?_, ?_, ?_, fun hrun => ?_, fun pause hp => ?_, fun p hp => ?_⟩ <;> rw [hsteps]
    · exact StepMap.get?_insert_of_ne _ _ (by rintro rfl; exact hn List.mem_cons_self)
    · exact ht.insert _ (by rintro _ k ⟨⟩ hk; exact (he.maps_tidy hB hit hk).1)
    · exact he.keeps hB hit hinput item j
    · obtain rfl := closeLoop_running hit.decides hrun
      exact ⟨hfresh _, he.done hB hit (hnone rfl) item j⟩
    · obtain ⟨i, rfl⟩ := closeLoop_paused hp
      obtain rfl : j = i := (hsome i _ rfl).2
      obtain ⟨p, hentered, hasked⟩ := he.waits hB hit (hpaused j pause rfl) hinput item
      exact ⟨p.inside label.name j, ⟨hfresh _, .inr ⟨some p, j, rfl, hentered⟩⟩, hasked⟩
    · rw [he.position, Option.map_eq_some_iff] at hp
      obtain ⟨p', rfl, rfl⟩ := hp
      exact he.reached hB hit summary item j

end FlowEngine.Engine

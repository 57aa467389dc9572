import FlowEngine.Proofs.Records.Pauses

/-!
# Positions of records

Where in a run a record stands: the loops around it with their iterations, and its name.

* `StepMap.at?` — the record at a position.
* `StepMap.Tidy` — no map has two records of one name.
* `Keeps` — every record is still there; finished ones are the same, and what splits and loops
  decided when they were entered is, too.
* `Keeps.withdrawn` — this is so after pauses were withdrawn from what was not paused before.
-/

namespace FlowEngine.Run

/-- A position in the records of a run: the loops around it, the outermost first, each with the
index of its iteration, and the name of the step. -/
structure Position where
  loops : List (String × Nat)
  name : String
  deriving DecidableEq

namespace Position

/-- The name of the record of the top level that the position is in. -/
def root (p : Position) : String :=
  match p.loops with
  | [] => p.name
  | (l, _) :: _ => l

/-- A position as it is seen from outside of some loops. -/
def under (around : List (String × Nat)) (p : Position) : Position := ⟨around ++ p.loops, p.name⟩

/-- A position in an iteration of a loop, seen from the level of the loop. -/
def inside (l : String) (i : Nat) (p : Position) : Position := ⟨(l, i) :: p.loops, p.name⟩

@[simp] theorem root_nil (n : String) : root ⟨[], n⟩ = n := rfl

@[simp] theorem root_inside (l : String) (i : Nat) (p : Position) : (p.inside l i).root = l := rfl

theorem under_inside (around : List (String × Nat)) (l : String) (i : Nat) (p : Position) :
    (p.inside l i).under around = p.under (around ++ [(l, i)]) := by
  simp [under, inside]

theorem under_injective (around : List (String × Nat)) {p q : Position}
    (h : p.under around = q.under around) : p = q := by
  obtain ⟨l, n⟩ := p
  obtain ⟨l', n'⟩ := q
  simpa [under] using h

theorem inside_injective {l l' : String} {i j : Nat} {p q : Position}
    (h : p.inside l i = q.inside l' j) : l = l' ∧ i = j ∧ p = q := by
  obtain ⟨a, n⟩ := p
  obtain ⟨b, n'⟩ := q
  simp only [inside, mk.injEq, List.cons.injEq, Prod.mk.injEq] at h
  obtain ⟨⟨⟨rfl, rfl⟩, rfl⟩, rfl⟩ := h
  exact ⟨rfl, rfl, rfl⟩

/-- A position is at the top level or in an iteration of a loop. -/
theorem cases_inside (p : Position) :
    p = ⟨[], p.name⟩ ∨ ∃ (l : String) (i : Nat) (q : Position), p = q.inside l i := by
  obtain ⟨_ | ⟨⟨l, i⟩, loops⟩, n⟩ := p
  · exact .inl rfl
  · exact .inr ⟨l, i, ⟨loops, n⟩, rfl⟩

end Position

namespace StepMap

/-- The map of an iteration of nested loops. -/
def mapAt? (m : StepMap) : List (String × Nat) → Option StepMap
  | [] => some m
  | (l, i) :: rest => do
    let r ← m.get? l
    let its ← r.iterations?
    let k ← its[i]?
    mapAt? k rest

/-- The record at a position. -/
def at? (m : StepMap) (p : Position) : Option StepRecord := do (← m.mapAt? p.loops).get? p.name

@[simp] theorem at?_nil (m : StepMap) (n : String) : m.at? ⟨[], n⟩ = m.get? n := rfl

theorem at?_inside (m : StepMap) (l : String) (i : Nat) (p : Position) :
    m.at? (p.inside l i) =
      ((m.get? l).bind StepRecord.iterations?).bind fun its => its[i]?.bind fun k => k.at? p := by
  unfold at? Position.inside
  rw [mapAt?]
  cases m.get? l with
  | none => rfl
  | some r =>
    cases hits : r.iterations? with
    | none => simp [hits]
    | some its => cases h : its[i]? <;> simp [hits, h]

theorem at?_inside_eq_some {m : StepMap} {l : String} {i : Nat} {p : Position} {r : StepRecord} :
    m.at? (p.inside l i) = some r ↔ ∃ rl its k, m.get? l = some rl ∧ rl.iterations? = some its ∧
      its[i]? = some k ∧ k.at? p = some r := by
  simp only [at?_inside, Option.bind_eq_some_iff]
  constructor
  · rintro ⟨its, ⟨rl, h, hits⟩, k, hk, hr⟩
    exact ⟨rl, its, k, h, hits, hk, hr⟩
  · rintro ⟨rl, its, k, h, hits, hk, hr⟩
    exact ⟨its, ⟨rl, h, hits⟩, k, hk, hr⟩

/-- What stands at a position depends on the record of the top level that it is in. -/
theorem at?_congr {m m' : StepMap} {p : Position} (h : m.get? p.root = m'.get? p.root) :
    m.at? p = m'.at? p := by
  rcases p.cases_inside with hp | ⟨l, i, q, rfl⟩
  · rw [hp, at?_nil, at?_nil]
    rw [hp] at h
    exact h
  · rw [Position.root_inside] at h
    rw [at?_inside, at?_inside, h]

/-- A position that has a record leads through a record of the top level. -/
theorem root_of_at? {m : StepMap} {p : Position} {r : StepRecord} (h : m.at? p = some r) :
    (p = ⟨[], p.name⟩ ∧ m.get? p.root = some r) ∨ ∃ (l : String) (i : Nat) (q : Position)
      (rl : StepRecord) (its : List StepMap) (k : StepMap), p = q.inside l i ∧ m.get? l = some rl ∧
        rl.iterations? = some its ∧ its[i]? = some k ∧ k.at? q = some r := by
  rcases p.cases_inside with hp | ⟨l, i, q, rfl⟩
  · rw [hp] at h ⊢
    exact .inl ⟨rfl, h⟩
  · obtain ⟨rl, its, k, hl, hits, hk, hr⟩ := at?_inside_eq_some.mp h
    exact .inr ⟨l, i, q, rl, its, k, rfl, hl, hits, hk, hr⟩

theorem root_mem_of_at? {m : StepMap} {p : Position} {r : StepRecord} (h : m.at? p = some r) :
    p.root ∈ m.names := by
  rcases root_of_at? h with ⟨-, hr⟩ | ⟨l, i, q, rl, its, k, rfl, hl, -⟩
  · exact mem_names_iff.mpr ⟨r, hr⟩
  · exact mem_names_iff.mpr ⟨rl, hl⟩

theorem Quiet.at? {m : StepMap} (h : m.Quiet) {p : Position} {r : StepRecord}
    (hr : m.at? p = some r) : r.Quiet := by
  obtain ⟨loops, n⟩ := p
  induction loops generalizing m with
  | nil => exact h.get? hr
  | cons e loops ih =>
    obtain ⟨rl, its, k, hl, hits, hk, hr⟩ := (at?_inside_eq_some (p := ⟨loops, n⟩)).mp hr
    exact ih ((h.get? hl).iteration hits (List.mem_of_getElem? hk)) hr

/-- Where a record of the top level is quiet, all records in it are. -/
theorem quiet_of_root {m : StepMap} {p : Position} (h : ∀ r, m.get? p.root = some r → r.Quiet)
    {r : StepRecord} (hr : m.at? p = some r) : r.Quiet := by
  rcases p.cases_inside with hp | ⟨l, i, q, rfl⟩
  · rw [hp] at h hr
    exact h r hr
  · obtain ⟨rl, its, k, hl, hits, hk, hr⟩ := at?_inside_eq_some.mp hr
    exact ((h rl hl).iteration hits (List.mem_of_getElem? hk)).at? hr

/-! ## Tidy maps -/

/-- No map has two records of one name, neither this one nor those of iterations in it. -/
inductive Tidy : StepMap → Prop
  | intro {m : StepMap} (nodup : m.names.Nodup)
    (inner : ∀ n r its k, m.get? n = some r → r.iterations? = some its → k ∈ its → Tidy k) : Tidy m

theorem Tidy.nodup {m : StepMap} (h : m.Tidy) : m.names.Nodup := by
  cases h with
  | intro nodup _ => exact nodup

theorem Tidy.inner {m : StepMap} (h : m.Tidy) {n : String} {r : StepRecord} {its : List StepMap}
    {k : StepMap} (hr : m.get? n = some r) (hits : r.iterations? = some its) (hk : k ∈ its) :
    k.Tidy := by
  cases h with
  | intro _ inner => exact inner n r its k hr hits hk

theorem tidy_nil : Tidy [] := .intro List.nodup_nil (by simp)

/-- The action that waits is found at its position. -/
theorem Tidy.at?_pauseChain {m : StepMap} (hm : m.Tidy) {path : List (String × Nat)} {name : String}
    {summary : Summary} {output : Json} (h : PauseChain m path name summary output) :
    m.at? ⟨path, name⟩ = some (.action summary output) := by
  induction h with
  | action => exact get?_of_mem hm.nodup (by simp)
  | @loop before after l name s summary item output index its path m _ _ _ shown _ _ ih =>
    have hl : get? (before ++ (l, .loop s item index its) :: after) l =
        some (.loop s item index its) := get?_of_mem hm.nodup (by simp)
    exact (at?_inside_eq_some (p := ⟨path, name⟩)).mpr ⟨_, its, m, hl, rfl, shown,
      ih (hm.inner hl rfl (List.mem_of_getElem? shown))⟩

theorem Tidy.insert {m : StepMap} (h : m.Tidy) (n : String) {r : StepRecord}
    (hr : ∀ its k, r.iterations? = some its → k ∈ its → Tidy k) : (m.insert n r).Tidy := by
  refine .intro (nodup_insert h.nodup n r) fun k r' its x hk hits hx => ?_
  rw [get?_insert] at hk
  split_ifs at hk
  · cases hk; exact hr its x hits hx
  · exact h.inner hk hits hx

end StepMap

namespace StepRecord

/-- What is left of a record without its pause has the same input and the same branches. -/
theorem withoutPause_kept {r r' : StepRecord} (h : r.withoutPause = some r') :
    r'.summary.input = r.summary.input ∧ r'.taken? = r.taken? ∧
      (r.status ≠ .paused → r' = r) ∧
      (r' = r ∨ ∃ its, r.iterations? = some its ∧
        r'.iterations? = some (its.map StepMap.withdrawPauses)) := by
  by_cases hs : r.status = .paused
  · cases r with
    | loop s item i its =>
      rw [withoutPause_loop (s := s) hs] at h
      cases h
      exact ⟨rfl, rfl, fun hn => absurd hs hn, .inr ⟨its, rfl, rfl⟩⟩
    | _ => cases (withoutPause_eq_none hs rfl).symm.trans h
  · rw [withoutPause_of_status_ne hs] at h
    cases h
    exact ⟨rfl, rfl, fun _ => rfl, .inl rfl⟩

/-- The withdrawal of a pause leaves nothing that is finished. -/
theorem withoutPause_finished {r r' : StepRecord} (h : r.withoutPause = some r')
    (hf : r'.status.isFinished = true) : r' = r := by
  by_cases hs : r.status = .paused
  · cases r with
    | loop summary item index its =>
      rw [withoutPause_loop (s := summary) hs] at h
      cases h
      cases hf
    | _ => cases (withoutPause_eq_none hs rfl).symm.trans h
  · exact (withoutPause_kept h).2.2.1 hs

end StepRecord

namespace StepMap

theorem Tidy.withdrawn {m m' : StepMap} (h : m.Tidy) (hm' : m'.names.Nodup)
    (hget : ∀ n, m'.get? n = m.get? n ∨ m'.get? n = (m.get? n).bind StepRecord.withoutPause) :
    m'.Tidy := by
  induction h generalizing m' with
  | @intro m nodup inner ih =>
    refine .intro hm' fun n r its k hr hits hk => ?_
    rcases hget n with hn | hn
    · exact inner n r its k (hn ▸ hr) hits hk
    rw [hn, Option.bind_eq_some_iff] at hr
    obtain ⟨r₀, hr₀, hr⟩ := hr
    obtain ⟨-, -, -, rfl | ⟨its₀, hits₀, hits'⟩⟩ := StepRecord.withoutPause_kept hr
    · exact inner n r its k hr₀ hits hk
    · obtain rfl := Option.some.inj (hits.symm.trans hits')
      obtain ⟨k₀, hk₀, rfl⟩ := List.mem_map.mp hk
      have hnd := (inner n r₀ its₀ k₀ hr₀ hits₀ hk₀).nodup
      exact ih n r₀ its₀ k₀ hr₀ hits₀ hk₀ (nodup_withdrawPauses hnd) fun x =>
        .inr (get?_withdrawPauses hnd x)

theorem Tidy.withdrawPauses {m : StepMap} (h : m.Tidy) : m.withdrawPauses.Tidy :=
  h.withdrawn (nodup_withdrawPauses h.nodup) fun n => .inr (get?_withdrawPauses h.nodup n)

/-- What stands at a position after pauses were withdrawn there. -/
theorem Tidy.at?_withdrawn {m m' : StepMap} (hm : m.Tidy) {p : Position} {r : StepRecord}
    (h : m'.get? p.root = (m.get? p.root).bind StepRecord.withoutPause) (hr : m.at? p = some r) :
    m'.at? p = some r ∨ m'.at? p = r.withoutPause := by
  obtain ⟨loops, n⟩ := p
  induction loops generalizing m m' with
  | nil =>
    right
    rw [at?_nil] at hr ⊢
    rw [Position.root_nil] at h
    rw [h, hr, Option.bind_some]
  | cons e loops ih =>
    obtain ⟨l, i⟩ := e
    obtain ⟨rl, its, k, hl, hits, hk, hr⟩ := (at?_inside_eq_some (p := ⟨loops, n⟩)).mp hr
    have h : m'.get? l = (m.get? l).bind StepRecord.withoutPause := h
    rw [hl, Option.bind_some] at h
    have hat := at?_inside m' l i ⟨loops, n⟩
    rw [h] at hat
    change m'.at? _ = _ at hat
    simp only [Position.inside] at hat
    rw [hat]
    by_cases hs : rl.status = .paused
    · cases rl with
      | loop s item index its' =>
        cases hits
        have hkt := hm.inner hl rfl (List.mem_of_getElem? hk)
        rw [StepRecord.withoutPause_loop (s := s) hs]
        simpa [StepRecord.iterations?, hk] using
          ih hkt (get?_withdrawPauses hkt.nodup _) hr
      | _ => cases hits
    · left
      rw [StepRecord.withoutPause_of_status_ne hs]
      simp [hits, hk, hr]

end StepMap

/-! ## Records that stay -/

/-- What stays of a record: all of it when the step is finished, the input and the branches of a
split, and the input and the number of iterations of a loop. -/
structure Kept (r r' : StepRecord) : Prop where
  finished : r.status.isFinished = true → r' = r
  taken : ∀ taken, r.taken? = some taken →
    r'.taken? = some taken ∧ r'.summary.input = r.summary.input
  iterations : ∀ its, r.iterations? = some its →
    r'.summary.input = r.summary.input ∧ ∃ its', r'.iterations? = some its' ∧
      its'.length = its.length
  stays : r.withoutPause ≠ none → r'.withoutPause ≠ none

namespace Kept

variable {r r' r'' : StepRecord}

theorem refl (r : StepRecord) : Kept r r :=
  ⟨fun _ => rfl, fun _ h => ⟨h, rfl⟩, fun its h => ⟨rfl, its, h, rfl⟩, id⟩

theorem trans (h : Kept r r') (h' : Kept r' r'') : Kept r r'' where
  finished hf := by
    obtain rfl := h.finished hf
    exact h'.finished hf
  taken taken ht := by
    obtain ⟨ht, hi⟩ := h.taken taken ht
    obtain ⟨ht, hi'⟩ := h'.taken taken ht
    exact ⟨ht, hi'.trans hi⟩
  iterations its hits := by
    obtain ⟨hi, its', hits', hlen⟩ := h.iterations its hits
    obtain ⟨hi', its'', hits'', hlen'⟩ := h'.iterations its' hits'
    exact ⟨hi'.trans hi, its'', hits'', hlen'.trans hlen⟩
  stays hs := h'.stays (h.stays hs)

/-- A pause that is withdrawn is not one of a record that was there before. -/
theorem withdrawn (h : Kept r r') (hr : r.withoutPause ≠ none) :
    ∃ r'', r'.withoutPause = some r'' ∧ Kept r r'' := by
  obtain ⟨r'', h''⟩ := Option.ne_none_iff_exists'.mp (h.stays hr)
  obtain ⟨hinput, htaken, heq, hits⟩ := StepRecord.withoutPause_kept h''
  refine ⟨r'', h'', fun hf => ?_, fun taken ht => ?_, fun its hit => ?_, fun _ => ?_⟩
  · obtain rfl := h.finished hf
    refine heq fun hs => ?_
    rw [hs] at hf
    cases hf
  · obtain ⟨ht, hi⟩ := h.taken taken ht
    exact ⟨htaken.trans ht, hinput.trans hi⟩
  · obtain ⟨hi, its', hits', hlen⟩ := h.iterations its hit
    refine ⟨hinput.trans hi, ?_⟩
    rcases hits with rfl | ⟨its₀, h₀, h₁⟩
    · exact ⟨its', hits', hlen⟩
    · obtain rfl := Option.some.inj (h₀.symm.trans hits')
      exact ⟨_, h₁, by rw [List.length_map, hlen]⟩
  · have := StepMap.bind_withoutPause (some r')
    rw [Option.bind_some, h'', Option.bind_some] at this
    rw [this]
    simp

end Kept

/-- Every record of a map is still there in another one. -/
def Keeps (m m' : StepMap) : Prop :=
  ∀ p r, m.at? p = some r → ∃ r', m'.at? p = some r' ∧ Kept r r'

/-- A record stays, and all records in its iterations do. -/
structure KeepsRecord (r r' : StepRecord) : Prop where
  kept : Kept r r'
  inner : ∀ (its : List StepMap) (i : Nat) (k : StepMap), r.iterations? = some its →
    its[i]? = some k → ∃ (its' : List StepMap) (k' : StepMap),
      r'.iterations? = some its' ∧ its'[i]? = some k' ∧ Keeps k k'

namespace Keeps

variable {m m' m'' : StepMap}

theorem refl (m : StepMap) : Keeps m m := fun _ r hr => ⟨r, hr, .refl r⟩

theorem trans (h : Keeps m m') (h' : Keeps m' m'') : Keeps m m'' := fun p r hr => by
  obtain ⟨r', hr', hk⟩ := h p r hr
  obtain ⟨r'', hr'', hk'⟩ := h' p r' hr'
  exact ⟨r'', hr'', hk.trans hk'⟩

/-- A finished record is the same as before. -/
theorem finished (h : Keeps m m') {p : Position} {r : StepRecord} (hr : m.at? p = some r)
    (hf : r.status.isFinished = true) : m'.at? p = some r := by
  obtain ⟨r', hr', hk⟩ := h p r hr
  rw [hr', hk.finished hf]

theorem present (h : Keeps m m') {n : String} {r : StepRecord} (hr : m.get? n = some r) :
    ∃ r', m'.get? n = some r' := by
  obtain ⟨r', hr', -⟩ := h ⟨[], n⟩ r hr
  exact ⟨r', hr'⟩

theorem of_get? (h : ∀ n r, m.get? n = some r → ∃ r', m'.get? n = some r' ∧ KeepsRecord r r') :
    Keeps m m' := fun p r hr => by
  rcases p.cases_inside with hp | ⟨l, i, q, rfl⟩
  · rw [hp] at hr ⊢
    obtain ⟨r', hr', hk⟩ := h _ r hr
    exact ⟨r', hr', hk.kept⟩
  · obtain ⟨rl, its, k, hl, hits, hk, hr⟩ := StepMap.at?_inside_eq_some.mp hr
    obtain ⟨rl', hl', hkr⟩ := h l rl hl
    obtain ⟨its', k', hits', hk', hkeeps⟩ := hkr.inner its i k hits hk
    obtain ⟨r', hr', hkept⟩ := hkeeps q r hr
    exact ⟨r', StepMap.at?_inside_eq_some.mpr ⟨rl', its', k', hl', hits', hk', hr'⟩, hkept⟩

theorem record_refl (r : StepRecord) : KeepsRecord r r :=
  ⟨.refl r, fun its _ k hits hk => ⟨its, k, hits, hk, refl k⟩⟩

theorem insert (m : StepMap) (n : String) {r : StepRecord}
    (h : ∀ r₀, m.get? n = some r₀ → KeepsRecord r₀ r) : Keeps m (m.insert n r) :=
  of_get? fun k r₀ hk => by
    rw [StepMap.get?_insert]
    by_cases hn : n = k
    · subst hn
      exact ⟨r, if_pos rfl, h r₀ hk⟩
    · exact ⟨r₀, by rw [if_neg hn, hk], record_refl r₀⟩

/-- A record that was not paused before is still there when pauses are withdrawn. -/
theorem at_withdrawn (h : Keeps m m') (ht : m'.Tidy) {p : Position} {r : StepRecord}
    (hr : m.at? p = some r) (hq : r.Quiet)
    (hget : m''.get? p.root = m'.get? p.root ∨
      m''.get? p.root = (m'.get? p.root).bind StepRecord.withoutPause) :
    ∃ r', m''.at? p = some r' ∧ Kept r r' := by
  obtain ⟨r', hr', hk⟩ := h p r hr
  rcases hget with hroot | hroot
  · exact ⟨r', (StepMap.at?_congr hroot).trans hr', hk⟩
  rcases ht.at?_withdrawn hroot hr' with hat | hat
  · exact ⟨r', hat, hk⟩
  · obtain ⟨r'', h'', hk''⟩ := hk.withdrawn (by rw [hq.withoutPause]; simp)
    exact ⟨r'', hat.trans h'', hk''⟩

/-- Records that were not paused before are still there when pauses are withdrawn. -/
theorem withdrawn (h : Keeps m m') (hm : m.Quiet) (ht : m'.Tidy)
    (hget : ∀ n, m''.get? n = m'.get? n ∨
      m''.get? n = (m'.get? n).bind StepRecord.withoutPause) : Keeps m m'' :=
  fun p _ hr => h.at_withdrawn ht hr (hm.at? hr) (hget p.root)

end Keeps

end FlowEngine.Run

import FlowEngine.Flow.Basic
import Mathlib.Data.List.Basic

/-!
# The order in which steps are visited

A place is a step with the steps after it. Every place below another one has an address: which way
to take at each place on the way there. The stack leads to all of them.

* `Enumerates` — a list of what stands at addresses, each once, in the order of the addresses.
* `placeAt?` — the place at an address.
* `descendants_in_order` — places are visited in the order of their addresses, which is that of the
  recursion; a chain with another one after it is visited like the two one after the other.
-/

namespace FlowEngine.Flow

/-! ## Enumerations -/

/-- A list of all that stands at some address, each address once, in lexicographic order. -/
def Enumerates {α : Type} (At : List Nat → α → Prop) (found : List α) : Prop :=
  ∃ marked : List (List Nat × α), marked.Pairwise (fun x y => x.1 < y.1) ∧
    (∀ a x, (a, x) ∈ marked ↔ At a x) ∧ marked.map Prod.snd = found

/-- What stands at addresses that begin with a number or a greater one. -/
def From {α : Type} (At : List Nat → α → Prop) (k : Nat) (a : List Nat) (x : α) : Prop :=
  At a x ∧ ∃ i b, a = i :: b ∧ k ≤ i

namespace Enumerates

variable {α : Type} {At At' : List Nat → α → Prop} {xs ys : List α} {k : Nat}

theorem congr (h : Enumerates At xs) (hat : ∀ a x, At a x ↔ At' a x) : Enumerates At' xs := by
  obtain ⟨marked, hsorted, hmem, hxs⟩ := h
  exact ⟨marked, hsorted, fun a x => (hmem a x).trans (hat a x), hxs⟩

theorem nil (h : ∀ a x, ¬ At a x) : Enumerates At [] :=
  ⟨[], .nil, fun a x => ⟨nofun, fun hx => absurd hx (h a x)⟩, rfl⟩

theorem singleton (a : List Nat) (x : α) : Enumerates (fun b y => b = a ∧ y = x) [x] :=
  ⟨[(a, x)], List.pairwise_singleton _ _, fun b y => by simp, rfl⟩

/-- What stands at addresses before those of something else. -/
theorem append (h : Enumerates At xs) (h' : Enumerates At' ys)
    (hlt : ∀ a x b y, At a x → At' b y → a < b) :
    Enumerates (fun a x => At a x ∨ At' a x) (xs ++ ys) := by
  obtain ⟨first, hsorted, hmem, rfl⟩ := h
  obtain ⟨last, hsorted', hmem', rfl⟩ := h'
  refine ⟨first ++ last, List.pairwise_append.mpr ⟨hsorted, hsorted', fun x hx y hy => ?_⟩,
    fun a x => ?_, List.map_append⟩
  · exact hlt x.1 x.2 y.1 y.2 ((hmem _ _).mp hx) ((hmem' _ _).mp hy)
  · rw [List.mem_append, hmem, hmem']

/-- One number more at the beginning of every address. -/
theorem under (k : Nat) (h : Enumerates At xs) :
    Enumerates (fun a x => ∃ b, a = k :: b ∧ At b x) xs := by
  obtain ⟨marked, hsorted, hmem, rfl⟩ := h
  refine ⟨marked.map fun x => (k :: x.1, x.2), ?_, fun a x => ?_, ?_⟩
  · exact hsorted.map _ fun x y hxy => List.cons_lt_cons_iff.mpr (.inr ⟨rfl, hxy⟩)
  · rw [List.mem_map]
    constructor
    · rintro ⟨⟨b, y⟩, hy, h⟩
      cases h
      exact ⟨b, rfl, (hmem b y).mp hy⟩
    · rintro ⟨b, rfl, hx⟩
      exact ⟨(b, x), (hmem b x).mpr hx, rfl⟩
  · rw [List.map_map]
    rfl

/-- What stands at addresses that begin with a number, and at those that begin with a greater one. -/
theorem next (h : Enumerates (fun b x => At (k :: b) x) xs)
    (hrest : Enumerates (From At (k + 1)) ys) : Enumerates (From At k) (xs ++ ys) := by
  refine ((h.under k).append hrest ?_).congr fun a x => ?_
  · rintro _ x _ y ⟨a, rfl, -⟩ ⟨-, i, b, rfl, hi⟩
    exact List.cons_lt_cons_iff.mpr (.inl hi)
  · constructor
    · rintro (⟨b, rfl, hx⟩ | ⟨hx, i, b, rfl, hi⟩)
      · exact ⟨hx, k, b, rfl, Nat.le_refl k⟩
      · exact ⟨hx, i, b, rfl, Nat.le_of_succ_le hi⟩
    · rintro ⟨hx, i, b, rfl, hi⟩
      rcases Nat.eq_or_lt_of_le hi with rfl | hi
      · exact .inl ⟨b, rfl, hx⟩
      · exact .inr ⟨hx, i, b, rfl, hi⟩

theorem of_from (h : Enumerates (From At 0) xs) (hnil : ∀ x, ¬ At [] x) : Enumerates At xs := by
  refine h.congr fun a x => ⟨And.left, fun hx => ⟨hx, ?_⟩⟩
  cases a with
  | nil => exact absurd hx (hnil x)
  | cons i b => exact ⟨i, b, rfl, Nat.zero_le i⟩

end Enumerates

/-! ## Addresses -/

/-- The place at an address. The address says at each place on the way which of the places that it
leads to comes next. -/
def placeAt? (p : Step × List Step) : List Nat → Option (Step × List Step)
  | [] => some p
  | i :: address => (nextPlaces p)[i]?.bind fun q => placeAt? q address

/-- The place at an address that begins with the number of one of several places. -/
def placeBelow? (ps : List (Step × List Step)) : List Nat → Option (Step × List Step)
  | [] => none
  | i :: address => ps[i]?.bind fun q => placeAt? q address

theorem enumerates_below_from (before : List (Step × List Step)) {after : List (Step × List Step)}
    (h : ∀ p ∈ after, Enumerates (fun a x => placeAt? p a = some x) (placesFrom p)) :
    Enumerates (From (fun a x => placeBelow? (before ++ after) a = some x) before.length)
      (after.flatMap placesFrom) := by
  -- from the number of a place on there are those below it and below the places after it
  induction after generalizing before with
  | nil =>
    refine .nil ?_
    rintro _ x ⟨hx, i, b, rfl, hi⟩
    simp [placeBelow?, List.getElem?_eq_none hi] at hx
  | cons p after ih =>
    rw [List.flatMap_cons]
    refine .next ((h p List.mem_cons_self).congr fun a x => ?_) ?_
    · simp [placeBelow?]
    · have hrest := ih (before ++ [p]) fun q hq => h q (List.mem_cons_of_mem _ hq)
      simpa using hrest

/-- There are fewer places from one on that a place leads to than from the place itself on. -/
theorem length_placesFrom_lt {p q : Step × List Step} (h : q ∈ nextPlaces p) :
    (placesFrom q).length < (placesFrom p).length := by
  have hsub : (placesFrom q).Sublist ((nextPlaces p).flatMap placesFrom) :=
    List.sublist_flatten_of_mem (List.mem_map_of_mem h)
  rw [placesFrom_eq p, List.length_cons]
  exact Nat.lt_succ_of_le hsub.length_le

/-- The address of a place is shorter than those of the places below it, and so comes first. -/
theorem enumerates_placesFrom (p : Step × List Step) :
    Enumerates (fun a x => placeAt? p a = some x) (placesFrom p) := by
  induction hn : (placesFrom p).length using Nat.strongRecOn generalizing p with
  | ind n ih =>
    have hbelow := (enumerates_below_from [] fun q hq =>
      ih _ (hn ▸ length_placesFrom_lt hq) q rfl).of_from (by simp [placeBelow?])
    rw [placesFrom_eq]
    refine ((Enumerates.singleton [] p).append hbelow ?_).congr fun a x => ?_
    · rintro _ x b y ⟨rfl, -⟩ hy
      cases b with
      | nil => cases hy
      | cons i b => exact List.nil_lt_cons i b
    · cases a <;> simp [placeAt?, placeBelow?, eq_comm]

/-! ## One chain after another -/

theorem descendants_append (chain chain' : List Step) :
    descendants (chain ++ chain') = descendants chain ++ descendants chain' := by
  induction chain with
  | nil => rfl
  | cons s rest ih =>
    rw [List.cons_append, descendants_cons, descendants_cons, ih, List.cons_append,
      List.append_assoc]

theorem chainFrom_andThen (p next : Step × List Step) :
    chainFrom (andThen p next) = chainFrom p ++ chainFrom next := by
  obtain ⟨s, rest⟩ := p
  induction rest generalizing s with
  | nil => rfl
  | cons t rest ih =>
    have h := ih t
    rw [andThen, chainFrom, h]
    rfl

theorem chainFrom_injective {p q : Step × List Step} (h : chainFrom p = chainFrom q) : p = q := by
  obtain ⟨s, rest⟩ := p
  obtain ⟨t, after⟩ := q
  cases h
  rfl

/-- The stack leads to a place and to everything inside and after it, in the order of the recursion:
the place, then what the places lead to that it leads to, those inside its step first. This is what
stands at every address below the place, each address once and in order. The steps of a chain with
another chain after its last step are those of the one followed by those of the other, and it does
not matter which of several chains are joined first. -/
theorem descendants_in_order :
    (∀ p : Step × List Step, visitAll [p] = placesFrom p ∧
      placesFrom p = p :: (nextPlaces p).flatMap placesFrom ∧
      descendants (chainFrom p) = (placesFrom p).map Prod.fst ∧
      Enumerates (fun a x => placeAt? p a = some x) (visitAll [p])) ∧
    (∀ p next : Step × List Step, descendants (chainFrom (andThen p next)) =
      descendants (chainFrom p) ++ descendants (chainFrom next)) ∧
    ∀ p q r : Step × List Step, andThen (andThen p q) r = andThen p (andThen q r) := by
  have hvisit (p : Step × List Step) : visitAll [p] = placesFrom p := by
    rw [visitAll_eq]
    exact List.append_nil _
  refine ⟨fun p => ⟨hvisit p, placesFrom_eq p, descendants_eq _, ?_⟩, fun p next => ?_,
    fun p q r => ?_⟩
  · rw [hvisit]
    exact enumerates_placesFrom p
  · rw [chainFrom_andThen, descendants_append]
  · apply chainFrom_injective
    rw [chainFrom_andThen, chainFrom_andThen, chainFrom_andThen, chainFrom_andThen,
      List.append_assoc]

end FlowEngine.Flow

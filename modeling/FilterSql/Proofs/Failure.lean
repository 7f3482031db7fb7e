import Mathlib.Data.List.Forall2
import Mathlib.Tactic.Common

/-!
# Computations that may fail

How a computation made of several has come to its outcome: the parts before the first
failure have succeeded, and nothing behind it has been looked at.

Results:
* `bind_eq_ok_iff`, `bind_eq_error_iff`: one computation after another.
* `foldlM_induct`: a computation along a list.
* `mapM_eq_ok_iff`, `mapM_eq_error_iff`: one computation for each element of a list.
* `failure?_bind`, `failure?_mapM`: the error of one computation after another, and of one
  for each element of a list.
-/

namespace FilterSql

theorem bind_eq_ok_iff {ε α β : Type} {first : Except ε α} {next : α → Except ε β} {b : β} :
    first >>= next = .ok b ↔ ∃ a, first = .ok a ∧ next a = .ok b := by
  constructor
  · intro h
    cases first with
    | error e => cases h
    | ok a => exact ⟨a, rfl, h⟩
  · rintro ⟨a, rfl, h⟩
    exact h

theorem map_eq_ok_iff {ε α β : Type} {f : α → β} {computation : Except ε α} {b : β} :
    f <$> computation = .ok b ↔ ∃ a, computation = .ok a ∧ f a = b := by
  constructor
  · intro h
    cases computation with
    | error e => cases h
    | ok a => cases h; exact ⟨a, rfl, rfl⟩
  · rintro ⟨a, rfl, rfl⟩
    rfl

theorem bind_eq_error_iff {ε α β : Type} {first : Except ε α} {next : α → Except ε β} {e : ε} :
    first >>= next = .error e ↔ first = .error e ∨ ∃ a, first = .ok a ∧ next a = .error e := by
  constructor
  · intro h
    cases first with
    | error other => cases h; exact .inl rfl
    | ok a => exact .inr ⟨a, rfl, h⟩
  · rintro (rfl | ⟨a, rfl, h⟩)
    · rfl
    · exact h

/-- What every step of a computation along a list preserves holds of its result. -/
theorem foldlM_induct {ε α σ : Type} {f : σ → α → Except ε σ} {P : σ → Prop} {list : List α}
    {start result : σ}
    (step : ∀ state a next, a ∈ list → f state a = .ok next → P state → P next)
    (h : list.foldlM f start = .ok result) (hstart : P start) : P result := by
  induction list generalizing start with
  | nil =>
    cases h
    exact hstart
  | cons first rest ih =>
    rw [List.foldlM_cons] at h
    obtain ⟨next, hnext, h⟩ := bind_eq_ok_iff.mp h
    refine ih (fun state a next member => step state a next (List.mem_cons_of_mem _ member)) h ?_
    exact step start first next List.mem_cons_self hnext hstart

/-- A computation on every element of a list succeeds when it succeeds on each. -/
theorem mapM_eq_ok_iff {ε α β : Type} {f : α → Except ε β} {list : List α} {results : List β} :
    list.mapM f = .ok results ↔ List.Forall₂ (fun a b => f a = .ok b) list results := by
  induction list generalizing results with
  | nil =>
    rw [List.mapM_nil, List.forall₂_nil_left_iff]
    constructor
    · intro h
      cases h
      rfl
    · rintro rfl
      rfl
  | cons first rest ih =>
    rw [List.mapM_cons, bind_eq_ok_iff, List.forall₂_cons_left_iff]
    constructor
    · rintro ⟨b, hfirst, h⟩
      obtain ⟨others, hothers, h⟩ := bind_eq_ok_iff.mp h
      cases h
      exact ⟨b, others, hfirst, ih.mp hothers, rfl⟩
    · rintro ⟨b, others, hfirst, hothers, rfl⟩
      refine ⟨b, hfirst, ?_⟩
      rw [ih.mpr hothers]
      rfl

/-- A computation on every element of a list fails as it fails on the first element on
which it does. -/
theorem mapM_eq_error_iff {ε α β : Type} {f : α → Except ε β} {list : List α} {e : ε} :
    list.mapM f = .error e ↔
      ∃ before a after, list = before ++ a :: after ∧ (∀ b ∈ before, ∃ c, f b = .ok c) ∧
        f a = .error e := by
  induction list with
  | nil =>
    constructor
    · intro h
      cases h
    · rintro ⟨before, a, after, h, _⟩
      simp at h
  | cons first rest ih =>
    rw [List.mapM_cons, bind_eq_error_iff]
    constructor
    · rintro (hfirst | ⟨c, hfirst, h⟩)
      · exact ⟨[], first, rest, rfl, by simp, hfirst⟩
      · have hrest : rest.mapM f = .error e := by
          rcases bind_eq_error_iff.mp h with hrest | ⟨_, _, hrest⟩
          · exact hrest
          · cases hrest
        obtain ⟨before, a, after, rfl, hbefore, ha⟩ := ih.mp hrest
        refine ⟨first :: before, a, after, rfl, ?_, ha⟩
        intro b member
        rcases List.mem_cons.mp member with rfl | member
        · exact ⟨c, hfirst⟩
        · exact hbefore b member
    · rintro ⟨before, a, after, hlist, hbefore, ha⟩
      cases before with
      | nil =>
        cases hlist
        exact .inl ha
      | cons b others =>
        rw [List.cons_append, List.cons.injEq] at hlist
        obtain ⟨rfl, rfl⟩ := hlist
        obtain ⟨c, hfirst⟩ := hbefore first List.mem_cons_self
        have hrest : (others ++ a :: after).mapM f = .error e :=
          ih.mpr ⟨others, a, after, rfl,
            fun b member => hbefore b (List.mem_cons_of_mem _ member), ha⟩
        exact .inr ⟨c, hfirst, bind_eq_error_iff.mpr (.inl hrest)⟩

/-! ## The error alone -/

/-- The error of a computation that has failed. -/
def failure? {ε α : Type} : Except ε α → Option ε
  | .error e => some e
  | .ok _ => none

@[simp] theorem failure?_ok {ε α : Type} (a : α) : failure? (.ok a : Except ε α) = none := rfl

@[simp] theorem failure?_error {ε α : Type} (e : ε) :
    failure? (.error e : Except ε α) = some e := rfl

theorem failure?_eq_none_iff {ε α : Type} {result : Except ε α} :
    failure? result = none ↔ ∃ a, result = .ok a := by
  cases result <;> simp

theorem failure?_eq_some_iff {ε α : Type} {result : Except ε α} {e : ε} :
    failure? result = some e ↔ result = .error e := by
  cases result <;> simp

@[simp] theorem failure?_map {ε α β : Type} (f : α → β) (result : Except ε α) :
    failure? (f <$> result) = failure? result := by
  cases result <;> rfl

/-- The error of one computation after another, when that of the second does not depend on
what the first gives. -/
theorem failure?_bind {ε α β : Type} {first : Except ε α} {next : α → Except ε β}
    (later : Option ε) (h : ∀ a, first = .ok a → failure? (next a) = later) :
    failure? (first >>= next) = (failure? first).or later := by
  cases hfirst : first with
  | error e => rfl
  | ok a => exact h a hfirst

/-- The error of a computation on every element of a list is that on the first element on
which it fails. -/
theorem failure?_mapM {ε α β : Type} (f : α → Except ε β) (list : List α) :
    failure? (list.mapM f) = list.findSome? fun a => failure? (f a) := by
  induction list with
  | nil => rfl
  | cons first rest ih =>
    rw [List.mapM_cons, List.findSome?_cons,
      failure?_bind (rest.findSome? fun a => failure? (f a))]
    · cases failure? (f first) <;> rfl
    · intro b _
      rw [failure?_bind none (fun _ _ => rfl), ih, Option.or_none]

end FilterSql

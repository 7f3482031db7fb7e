import FilterSql.Proofs.Failure
import FilterSql.Proofs.Parameters

/-!
# Parameters that are changed step by step

Parameters are bound one by one, made anew from a list, or merged with others. Whatever
has been done to them, they hold what a log of the writes says, and a merge that fails
has not begun to write.

Results:
* `ParameterStep.behind_ofList`: what one step does to the log it does to the parameters.
* `ParameterStep.run_eq_ofList`: parameters after a run are those of the log of the run.
* `runOn_absorb_eq_merge`: merging in place, entry by entry, is `merge`.
* `foldlM_merge_eq_ok_iff`: many parameters are merged into one exactly when no two of
  them share a name, and then the result has the values of all.
* `parameters_form_finite_map`: what holds after every run.
-/

namespace FilterSql

/-! ## Specification -/

namespace Parameters

/-- A computation that changes parameters in place and may fail. -/
abbrev Change (α : Type) := ExceptT OperationError (StateM Parameters) α

/-- The outcome of a change, and the parameters behind it. -/
def runOn {α : Type} (change : Change α) (parameters : Parameters) :
    Except OperationError α × Parameters :=
  change.run.run parameters

/-- Writes the entries of a list. -/
def writeAll (entries : List (String × Json)) : Change Unit :=
  entries.forM fun entry => modify fun parameters => parameters.insert entry.1 entry.2

/-- Merges in place: the names are looked at first, then entry after entry is written. -/
def absorb (other : Parameters) : Change Unit := do
  match other.names.find? (← get).contains with
  | some name => throw (.nameBoundTwice name)
  | none => writeAll other.toList

/-- Some name is bound on both sides. -/
def Shares (left right : Parameters) : Prop :=
  ∃ name, left.contains name = true ∧ right.contains name = true

end Parameters

/-- The value that is written last under a name. -/
def lastWritten? (log : List (String × Json)) (name : String) : Option Json :=
  (log.reverse.find? fun entry => entry.1 = name).map Prod.snd

/-- A step that changes parameters. -/
inductive ParameterStep where
  /-- Binds a name. -/
  | insert (name : String) (value : Json)
  /-- Begins again with the entries of a list. -/
  | replace (list : List (String × Json))
  /-- Merges others in. -/
  | merge (other : Parameters)

namespace ParameterStep

/-- What a step does. -/
def change : ParameterStep → Parameters.Change Unit
  | .insert name value => modify fun parameters => parameters.insert name value
  | .replace list => set (Parameters.ofList list)
  | .merge other => Parameters.absorb other

/-- The parameters behind a step, whether it succeeds or fails. -/
def behind (step : ParameterStep) (parameters : Parameters) : Parameters :=
  (Parameters.runOn step.change parameters).2

/-- The parameters behind some steps, which begin with none. -/
def run (steps : List ParameterStep) : Parameters :=
  steps.foldl (fun parameters step => step.behind parameters) .empty

/-- The log of the writes behind one more step. A list puts an end to all that has been
written before it, and others write nothing when one of their names is in the log. -/
def record : ParameterStep → List (String × Json) → List (String × Json)
  | .insert name value, log => log ++ [(name, value)]
  | .replace list, _ => list
  | .merge other, log =>
    if (log.map Prod.fst).any other.contains then log else log ++ other.toList

/-- The log of the writes of some steps. -/
def written (steps : List ParameterStep) : List (String × Json) :=
  steps.foldl (fun log step => step.record log) []

end ParameterStep

/-! ## Merging in place -/

namespace Parameters

variable {left right merged : Parameters}

theorem ofList_append (first second : List (String × Json)) :
    ofList (first ++ second) =
      second.foldl (fun parameters entry => parameters.insert entry.1 entry.2) (ofList first) :=
  List.foldl_append

/-- Writing all entries of one side over the other gives the union of both. -/
theorem foldl_insert_toList (left right : Parameters) :
    right.toList.foldl (fun parameters entry => parameters.insert entry.1 entry.2) left =
      ⟨left.entries ∪ right.entries⟩ := by
  apply ext
  intro name
  rw [get?_foldl_insert, ← get?_ofList, ofList_toList, get?_union]

theorem runOn_writeAll (entries : List (String × Json)) (parameters : Parameters) :
    runOn (writeAll entries) parameters =
      (.ok (), entries.foldl (fun parameters entry => parameters.insert entry.1 entry.2)
        parameters) := by
  induction entries generalizing parameters with
  | nil => rfl
  | cons entry rest ih => exact ih (parameters.insert entry.1 entry.2)

theorem runOn_absorb (left right : Parameters) :
    runOn (absorb right) left =
      match right.names.find? left.contains with
      | some name => (.error (.nameBoundTwice name), left)
      | none => (.ok (), ⟨left.entries ∪ right.entries⟩) := by
  have hrun : runOn (absorb right) left =
      runOn (match right.names.find? left.contains with
        | some name => throw (.nameBoundTwice name)
        | none => writeAll right.toList) left := rfl
  rw [hrun]
  cases right.names.find? left.contains with
  | some name => rfl
  | none => exact (runOn_writeAll _ _).trans (by rw [foldl_insert_toList])

/-- Merging in place succeeds with the merged parameters, and leaves the parameters as
they are when it fails. -/
theorem runOn_absorb_eq_merge (left right : Parameters) :
    runOn (absorb right) left =
      match left.merge right with
      | .ok merged => (.ok (), merged)
      | .error e => (.error e, left) := by
  rw [runOn_absorb, merge]
  cases right.names.find? left.contains <;> rfl

theorem merge_of_not_shares (h : ¬left.Shares right) :
    left.merge right = .ok ⟨left.entries ∪ right.entries⟩ :=
  merge_of_disjoint fun name hleft => by
    rw [Bool.eq_false_iff]
    exact fun hright => h ⟨name, hleft, hright⟩

/-! ## Merging many -/

theorem Shares.symm (h : left.Shares right) : right.Shares left := by
  obtain ⟨name, hleft, hright⟩ := h
  exact ⟨name, hright, hleft⟩

theorem merge_eq_ok_iff_not_shares :
    left.merge right = .ok merged ↔
      ¬left.Shares right ∧ ∀ name value, merged.get? name = some value ↔
        left.get? name = some value ∨ right.get? name = some value := by
  constructor
  · intro h
    refine ⟨?_, get?_of_merge_eq_some_iff h⟩
    rintro ⟨name, hleft, hright⟩
    rw [(merge_eq_ok_iff.mp h).1 name hleft] at hright
    cases hright
  · rintro ⟨disjoint, hvalues⟩
    have hmerge := merge_of_not_shares disjoint
    rw [hmerge]
    congr 1
    apply ext
    intro name
    apply Option.ext
    intro value
    rw [get?_of_merge_eq_some_iff hmerge, hvalues]

theorem shares_of_merge_iff (h : left.merge right = .ok merged) (other : Parameters) :
    merged.Shares other ↔ left.Shares other ∨ right.Shares other := by
  have hcontains : ∀ name, merged.contains name = true ↔
      left.contains name = true ∨ right.contains name = true := by
    intro name
    simp only [contains_eq_true_iff, get?_of_merge_eq_some_iff h, exists_or]
  simp only [Shares, hcontains, or_and_right, exists_or]

/-- Many parameters are merged into one exactly when no two of them share a name, and then
the result has the values of all. -/
theorem foldlM_merge_eq_ok_iff (first : Parameters) (rest : List Parameters)
    (merged : Parameters) :
    rest.foldlM merge first = .ok merged ↔
      (first :: rest).Pairwise (fun left right => ¬left.Shares right) ∧
        ∀ name value, merged.get? name = some value ↔
          ∃ parameters ∈ first :: rest, parameters.get? name = some value := by
  induction rest generalizing first with
  | nil =>
    simp only [List.pairwise_singleton, true_and, List.mem_singleton, exists_eq_left]
    constructor
    · intro h
      cases h
      exact fun _ _ => Iff.rfl
    · intro h
      exact congrArg _ (ext fun name => Option.ext fun value => (h name value).symm)
  | cons second rest ih =>
    rw [List.foldlM_cons]
    by_cases common : first.Shares second
    · constructor
      · intro h
        obtain ⟨joined, hjoined, _⟩ := bind_eq_ok_iff.mp h
        exact absurd common (merge_eq_ok_iff_not_shares.mp hjoined).1
      · rintro ⟨disjoint, _⟩
        exact absurd common ((List.pairwise_cons.mp disjoint).1 second List.mem_cons_self)
    · -- What the first two share with one of the rest, one of them shares with it.
      have hjoined := merge_of_not_shares common
      have hvalues := (merge_eq_ok_iff_not_shares.mp hjoined).2
      rw [hjoined]
      refine (ih _).trans (and_congr ?_ ?_)
      · simp only [List.pairwise_cons, List.forall_mem_cons, shares_of_merge_iff hjoined, not_or,
          common, not_false_iff, true_and, forall_and, and_assoc]
      · simp only [List.exists_mem_cons_iff, hvalues, or_assoc]

end Parameters

/-! ## Steps and runs -/

namespace ParameterStep

open Parameters (ofList)

theorem any_contains_iff (log : List (String × Json)) (other : Parameters) :
    (log.map Prod.fst).any other.contains = true ↔ (ofList log).Shares other := by
  simp only [List.any_eq_true, Parameters.Shares, Parameters.contains_ofList]

/-- What one step does to the log it does to the parameters. -/
theorem behind_ofList (step : ParameterStep) (log : List (String × Json)) :
    step.behind (ofList log) = ofList (step.record log) := by
  cases step with
  | insert name value => exact (Parameters.ofList_append log [(name, value)]).symm
  | replace list => rfl
  | merge other =>
    rw [behind, change, record, Parameters.runOn_absorb_eq_merge]
    split_ifs with common
    · rw [any_contains_iff] at common
      obtain ⟨name, hleft, hright⟩ := common
      obtain ⟨first, -, hmerge⟩ := Parameters.exists_first_common hleft hright
      rw [hmerge]
    · rw [any_contains_iff] at common
      rw [Parameters.merge_of_not_shares common, ← Parameters.foldl_insert_toList,
        Parameters.ofList_append]

/-- Parameters after a run are those of the log of the run. -/
theorem run_eq_ofList (steps : List ParameterStep) : run steps = ofList (written steps) := by
  have hsteps : ∀ log, steps.foldl (fun parameters step => step.behind parameters) (ofList log) =
      ofList (steps.foldl (fun log step => step.record log) log) := by
    induction steps with
    | nil => exact fun _ => rfl
    | cons step rest ih =>
      intro log
      rw [List.foldl_cons, behind_ofList, ih, List.foldl_cons]
  exact hsteps []

end ParameterStep

open Parameters (Shares IsFirstCommon absorb runOn) in
/-- **Parameters form a finite map.**
* After every run of steps the names are listed in strict order and are those of the log,
  the size is their number, and every name has the value that has been written last.
* Merging fails exactly when a name is on both sides. It reports the smallest of these and
  leaves the parameters as they are, and otherwise gives each name its value of either
  side.
* Whether many parameters can be merged into one, and what that gives, does not depend on
  the order. -/
theorem parameters_form_finite_map :
    (∀ steps : List ParameterStep,
      (ParameterStep.run steps).names.Pairwise (· < ·) ∧
      (∀ name, name ∈ (ParameterStep.run steps).names ↔
        name ∈ (ParameterStep.written steps).map Prod.fst) ∧
      (ParameterStep.run steps).size = (ParameterStep.run steps).names.length ∧
      ∀ name, (ParameterStep.run steps).get? name =
        lastWritten? (ParameterStep.written steps) name) ∧
    (∀ left right : Parameters,
      (left.Shares right → ∃ first, IsFirstCommon left right first ∧
        left.merge right = .error (.nameBoundTwice first) ∧
        runOn (absorb right) left = (.error (.nameBoundTwice first), left)) ∧
      (¬left.Shares right → ∃ merged, left.merge right = .ok merged ∧
        runOn (absorb right) left = (.ok (), merged) ∧
        ∀ name value, merged.get? name = some value ↔
          left.get? name = some value ∨ right.get? name = some value)) ∧
    ∀ (first second : Parameters) (rest others : List Parameters),
      (first :: rest).Perm (second :: others) → ∀ merged,
        rest.foldlM Parameters.merge first = .ok merged ↔
          others.foldlM Parameters.merge second = .ok merged := by
  refine ⟨fun steps => ⟨Parameters.names_sorted _, fun name => ?_, ?_, fun name => ?_⟩,
    fun left right => ⟨?_, fun disjoint => ?_⟩,
    fun first second rest others hperm merged => ?_⟩
  · rw [ParameterStep.run_eq_ofList, Parameters.mem_names_iff, Parameters.contains_ofList]
  · exact Std.ExtTreeMap.length_keys.symm
  · rw [ParameterStep.run_eq_ofList, Parameters.get?_ofList, lastWritten?]
  · rintro ⟨name, hleft, hright⟩
    obtain ⟨first, hfirst, hmerge⟩ := Parameters.exists_first_common hleft hright
    exact ⟨first, hfirst, hmerge, by rw [Parameters.runOn_absorb_eq_merge, hmerge]⟩
  · have hmerge := Parameters.merge_of_not_shares disjoint
    exact ⟨_, hmerge, by rw [Parameters.runOn_absorb_eq_merge, hmerge],
      (Parameters.merge_eq_ok_iff_not_shares.mp hmerge).2⟩
  · have hpairwise : (first :: rest).Pairwise (fun left right => ¬left.Shares right) ↔
        (second :: others).Pairwise (fun left right => ¬left.Shares right) :=
      hperm.pairwise_iff fun apart common => apart common.symm
    rw [Parameters.foldlM_merge_eq_ok_iff, Parameters.foldlM_merge_eq_ok_iff, hpairwise]
    simp only [hperm.mem_iff]

namespace Example

/-- One name. -/
def oneName : Parameters := .ofList [("p__0", .bool true)]

/-- The same name, and another one. -/
def twoNames : Parameters := .ofList [("p__0", .bool false), ("q", .null)]

/-- The other name alone. -/
def otherName : Parameters := .ofList [("q", .null)]

end Example

open Parameters (absorb runOn) in
/-- A merge that fails behind another one that succeeds, and a merge in both orders. -/
theorem merges_of_two_names :
    (ParameterStep.run [.replace [("p__0", .bool true)], .merge Example.otherName,
      .insert "q" (.string "x"), .merge Example.twoNames]).get? "q" = some (.string "x") ∧
    runOn (absorb Example.twoNames) Example.oneName =
      (.error (.nameBoundTwice "p__0"), Example.oneName) ∧
    ∃ merged, [Example.otherName].foldlM Parameters.merge Example.oneName = .ok merged ∧
      [Example.oneName].foldlM Parameters.merge Example.otherName = .ok merged ∧
      merged.get? "p__0" = some (.bool true) := by
  obtain ⟨hrun, hmerge, horder⟩ := parameters_form_finite_map
  have hcommon : Example.oneName.Shares Example.twoNames := ⟨"p__0", rfl, rfl⟩
  have hdisjoint : ¬Example.oneName.Shares Example.otherName := by
    rintro ⟨name, hleft, hright⟩
    rw [Example.oneName, Parameters.contains_ofList] at hleft
    rw [List.mem_singleton.mp hleft] at hright
    cases hright
  obtain ⟨first, hfirst, -, hfailed⟩ := (hmerge _ _).1 hcommon
  have hname : first = "p__0" :=
    List.mem_singleton.mp (Parameters.contains_ofList.mp hfirst.left)
  obtain ⟨merged, hmerged, -, hvalues⟩ := (hmerge _ _).2 hdisjoint
  have hforward : [Example.otherName].foldlM Parameters.merge Example.oneName = .ok merged := by
    rw [List.foldlM_cons, hmerged]
    rfl
  refine ⟨(hrun _).2.2.2 "q", by rw [← hname]; exact hfailed, merged, hforward, ?_,
    (hvalues _ _).mpr (.inl rfl)⟩
  exact (horder _ _ _ _ (.swap _ _ _) merged).mp hforward

end FilterSql

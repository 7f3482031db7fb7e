import Mathlib.Tactic.Common
import FilterSql.Proofs.Failure
import FilterSql.Proofs.Parameters
import FilterSql.Statement.Bind
import FilterSql.Proofs.Statement.Pieces

/-!
# Filling and rendering in parts

Binding fills the slots of a template and then writes the pieces out, numbering the
placeholders through. Both go piece by piece, so both can be done on the parts of a
template, the numbers of the second part going on from those of the first.

Results:
* `Fills.append`, `Fills.verbatim`, `Fills.slot`: filling in parts.
* `mapM_fill_congr`, `Fills.mono`: filling reads the parameters that are named.
* `exists_fills`, `exists_unbound`: it fails exactly when one of them is missing;
  `exists_unbound_of_error`: it fails in no other way.
* `render_append`, `ofFilled_append`: rendering in parts.
* `bind_of_fills`: a statement is bound as soon as its pieces are filled;
  `exists_fills_around`: what that is around a reference to a single value.
* `bind_enclosed`: binding a text between inert text and text without a colon binds the
  text in the middle; `bind_placeholder_enclosed`: what that is for one placeholder.
* `sql_ofFilled`: values that come before raise the numbers of the placeholders.
-/

namespace FilterSql

theorem BoundValue.listOfJson_of_not_isArray {value : Json} (h : value.isArray = false) :
    listOfJson value = [ofJson value] := by
  cases value with
  | array items => cases h
  | _ => rfl

namespace Statement

/-! ## Filling -/

/-- Pieces become filled pieces under some parameters. -/
def Fills (parameters : Parameters) (pieces : List (Piece String))
    (filled : List (Piece (List BoundValue))) : Prop :=
  pieces.mapM (fill parameters) = .ok filled

variable {parameters : Parameters}

theorem Fills.append {first second : List (Piece String)}
    {filled others : List (Piece (List BoundValue))} (h : Fills parameters first filled)
    (h' : Fills parameters second others) :
    Fills parameters (first ++ second) (filled ++ others) := by
  rw [Fills, List.mapM_append, h, h']
  rfl

theorem Fills.verbatim (text : String) : Fills parameters (verbatim text) (verbatim text) := by
  rw [Fills, FilterSql.verbatim, FilterSql.verbatim]
  induction text.toList with
  | nil => rfl
  | cons c rest ih =>
    rw [List.map_cons, List.mapM_cons, ih]
    rfl

theorem Fills.slot {name : String} {value : Json} (h : parameters.get? name = some value) :
    Fills parameters [.slot name] [.slot (BoundValue.listOfJson value)] := by
  rw [Fills, List.mapM_cons, fill, h]
  rfl

/-- Filling reads the parameters that are named and no others. -/
theorem mapM_fill_congr {left right : Parameters} {pieces : List (Piece String)}
    (h : ∀ name, .slot name ∈ pieces → left.get? name = right.get? name) :
    pieces.mapM (fill left) = pieces.mapM (fill right) := by
  induction pieces with
  | nil => rfl
  | cons piece rest ih =>
    have hpiece : fill left piece = fill right piece := by
      cases piece with
      | verbatim c => rfl
      | slot name => rw [fill, fill, h name List.mem_cons_self]
    rw [List.mapM_cons, List.mapM_cons, hpiece,
      ih fun name member => h name (List.mem_cons_of_mem _ member)]

/-- When pieces are filled, every name has a value. -/
theorem exists_value_of_fills {pieces : List (Piece String)}
    {filled : List (Piece (List BoundValue))} (h : Fills parameters pieces filled) {name : String}
    (member : .slot name ∈ pieces) : ∃ value, parameters.get? name = some value := by
  induction pieces generalizing filled with
  | nil => cases member
  | cons piece rest ih =>
    rw [Fills, List.mapM_cons] at h
    obtain ⟨first, hpiece, h⟩ := bind_eq_ok_iff.mp h
    obtain ⟨others, hrest, _⟩ := bind_eq_ok_iff.mp h
    rcases List.mem_cons.mp member with rfl | member
    · cases hvalue : parameters.get? name with
      | none => rw [fill, hvalue] at hpiece; cases hpiece
      | some value => exact ⟨value, rfl⟩
    · exact ih hrest member

/-- Parameters that have the same values, and perhaps others, fill in the same way. -/
theorem Fills.mono {left right : Parameters} {pieces : List (Piece String)}
    {filled : List (Piece (List BoundValue))} (hfills : Fills left pieces filled)
    (h : ∀ name value, left.get? name = some value → right.get? name = some value) :
    Fills right pieces filled := by
  rw [Fills, ← hfills]
  refine mapM_fill_congr fun name member => ?_
  obtain ⟨value, hvalue⟩ := exists_value_of_fills hfills member
  rw [hvalue, h name value hvalue]

theorem fill_eq_error_iff {piece : Piece String} {e : StoreError} :
    fill parameters piece = .error e ↔
      ∃ name, piece = .slot name ∧ parameters.get? name = none ∧ e = .unboundParameter name := by
  cases piece with
  | verbatim c => simp [fill]
  | slot name => cases hvalue : parameters.get? name <;> simp [fill, hvalue, eq_comm]

/-- Filling fails for a name without a value only, and reports it. -/
theorem exists_unbound_of_error {pieces : List (Piece String)} {e : StoreError}
    (h : pieces.mapM (fill parameters) = .error e) :
    ∃ name, .slot name ∈ pieces ∧ parameters.get? name = none ∧ e = .unboundParameter name := by
  obtain ⟨before, piece, after, rfl, _, hpiece⟩ := mapM_eq_error_iff.mp h
  obtain ⟨name, rfl, hnone, rfl⟩ := fill_eq_error_iff.mp hpiece
  exact ⟨name, by simp, hnone, rfl⟩

/-- Pieces can be filled when every name has a value. -/
theorem exists_fills {pieces : List (Piece String)}
    (h : ∀ name, .slot name ∈ pieces → ∃ value, parameters.get? name = some value) :
    ∃ filled, Fills parameters pieces filled := by
  cases hfill : pieces.mapM (fill parameters) with
  | ok filled => exact ⟨filled, hfill⟩
  | error e =>
    obtain ⟨name, member, hnone, _⟩ := exists_unbound_of_error hfill
    obtain ⟨value, hvalue⟩ := h name member
    rw [hnone] at hvalue
    cases hvalue

/-- When a name has no value, a name without a value is reported. -/
theorem exists_unbound {pieces : List (Piece String)} {name : String}
    (member : .slot name ∈ pieces) (h : parameters.get? name = none) :
    ∃ other, .slot other ∈ pieces ∧ parameters.get? other = none ∧
      pieces.mapM (fill parameters) = .error (.unboundParameter other) := by
  cases hfill : pieces.mapM (fill parameters) with
  | error e =>
    obtain ⟨other, hother, hnone, rfl⟩ := exists_unbound_of_error hfill
    exact ⟨other, hother, hnone, rfl⟩
  | ok filled =>
    obtain ⟨value, hvalue⟩ := exists_value_of_fills hfill member
    rw [h] at hvalue
    cases hvalue

/-- The statement of filled pieces when a number of values comes before them. -/
def ofFilled (dialect : Dialect) (before : ℕ) (filled : List (Piece (List BoundValue))) :
    Statement :=
  ⟨String.ofList (render dialect before filled), valuesOf filled⟩

/-- A statement is bound as soon as its pieces are filled. -/
theorem bind_of_fills {template : String} {filled : List (Piece (List BoundValue))}
    (h : Fills parameters (Template.pieces template) filled) (dialect : Dialect) :
    bind dialect template parameters =
      .ok (ofFilled dialect 0 filled) := by
  rw [bind, h]
  rfl

/-- Parameters that have the same values, and perhaps others, bind in the same way. -/
theorem bind_mono {left right : Parameters} {dialect : Dialect} {template : String}
    {statement : Statement} (hbind : bind dialect template left = .ok statement)
    (h : ∀ name value, left.get? name = some value → right.get? name = some value) :
    bind dialect template right = .ok statement := by
  obtain ⟨filled, hfills, hstatement⟩ := bind_eq_ok_iff.mp hbind
  rw [bind_of_fills (Fills.mono hfills h) dialect]
  exact hstatement

/-- A statement that cannot be bound names a parameter without a value. -/
theorem exists_unbound_of_bind {dialect : Dialect} {template : String} {e : StoreError}
    (h : bind dialect template parameters = .error e) :
    ∃ name, .slot name ∈ Template.pieces template ∧ parameters.get? name = none ∧
      e = .unboundParameter name := by
  rcases bind_eq_error_iff.mp h with hfill | ⟨_, _, h⟩
  · exact exists_unbound_of_error hfill
  · cases h

/-! ## Rendering -/

@[simp] theorem valuesOf_append (first second : List (Piece (List BoundValue))) :
    valuesOf (first ++ second) = valuesOf first ++ valuesOf second := by
  induction first with
  | nil => rfl
  | cons piece rest ih => cases piece <;> simp [valuesOf, ih]

@[simp] theorem valuesOf_verbatim (text : String) : valuesOf (FilterSql.verbatim text) = [] := by
  rw [FilterSql.verbatim]
  induction text.toList with
  | nil => rfl
  | cons c rest ih => exact ih

@[simp] theorem valuesOf_slot (values : List BoundValue) : valuesOf [.slot values] = values :=
  List.append_nil values

/-- The placeholders of the second part are numbered on from those of the first. -/
theorem render_append (dialect : Dialect) (before : ℕ)
    (first second : List (Piece (List BoundValue))) :
    render dialect before (first ++ second) =
      render dialect before first ++ render dialect (before + (valuesOf first).length) second := by
  induction first generalizing before with
  | nil => rfl
  | cons piece rest ih =>
    cases piece with
    | verbatim c => simp [render, valuesOf, ih]
    | slot values =>
      rw [List.cons_append, render, ih, render, valuesOf, List.length_append, Nat.add_assoc,
        List.append_assoc]

@[simp] theorem render_verbatim (dialect : Dialect) (before : ℕ) (text : String) :
    render dialect before (FilterSql.verbatim text) = text.toList := by
  rw [FilterSql.verbatim]
  induction text.toList with
  | nil => rfl
  | cons c rest ih => rw [List.map_cons, render, ih]

@[simp] theorem render_slot (dialect : Dialect) (before : ℕ) (values : List BoundValue) :
    render dialect before [.slot values] = (marks dialect before values).toList :=
  List.append_nil _

theorem marks_eq (dialect : Dialect) (before : ℕ) (values : List BoundValue) :
    marks dialect before values = if values = [] then "NULL"
      else ", ".intercalate ((List.range' (before + 1) values.length).map dialect.mark) := by
  have hpositions :
      (List.range values.length).map (fun index => dialect.mark (before + index + 1)) =
        (List.range' (before + 1) values.length).map dialect.mark := by
    rw [List.range'_eq_map_range, List.map_map]
    refine List.map_congr_left fun index _ => ?_
    rw [Function.comp_apply, Nat.add_right_comm]
  rw [marks, hpositions]
  cases values <;> rfl

/-- One value is written as one placeholder. -/
theorem marks_singleton (dialect : Dialect) (before : ℕ) (value : BoundValue) :
    marks dialect before [value] = dialect.mark (before + 1) := by
  simp [marks]

theorem all_isInert_mark (dialect : Dialect) (position : ℕ) :
    (dialect.mark position).toList.all Template.isInert = true := by
  cases dialect with
  | postgres =>
    rw [Dialect.mark, String.toList_append, List.all_append,
      all_toString (fun _ => Template.isInert_of_isDigit)]
    rfl
  | sqlite => exact show "?".toList.all Template.isInert = true by decide
  | mysql => exact show "?".toList.all Template.isInert = true by decide

/-- The placeholders of values are inert text. -/
theorem all_isInert_marks (dialect : Dialect) (before : ℕ) (values : List BoundValue) :
    (marks dialect before values).toList.all Template.isInert = true := by
  rw [marks_eq]
  split_ifs
  · decide
  · refine all_intercalate (by decide) fun mark member => ?_
    obtain ⟨position, _, rfl⟩ := List.mem_map.mp member
    exact all_isInert_mark dialect position

theorem ofFilled_append (dialect : Dialect) (before : ℕ)
    (first second : List (Piece (List BoundValue))) :
    ofFilled dialect before (first ++ second) =
      ⟨(ofFilled dialect before first).sql ++
          (ofFilled dialect (before + (valuesOf first).length) second).sql,
        valuesOf first ++ valuesOf second⟩ := by
  rw [ofFilled, render_append, String.ofList_append, valuesOf_append]
  rfl

theorem ofFilled_verbatim (dialect : Dialect) (before : ℕ) (text : String) :
    ofFilled dialect before (FilterSql.verbatim text) = ⟨text, []⟩ := by
  rw [ofFilled, render_verbatim, valuesOf_verbatim, String.ofList_toList]

theorem ofFilled_slot (dialect : Dialect) (before : ℕ) (values : List BoundValue) :
    ofFilled dialect before [.slot values] = ⟨marks dialect before values, values⟩ := by
  rw [ofFilled, render_slot, valuesOf_slot, String.ofList_toList]

/-- A reference to a single value becomes one placeholder, which has the next number behind
those before it, and the value comes behind the values before it. -/
theorem exists_fills_around {template name : String} {before after : List (Piece String)}
    {value : Json} (hpieces : Template.pieces template = before ++ .slot name :: after)
    (bound : ∀ other, .slot other ∈ Template.pieces template →
      ∃ value, parameters.get? other = some value)
    (hvalue : parameters.get? name = some value) (single : value.isArray = false) :
    ∃ first rest, Fills parameters before first ∧ Fills parameters after rest ∧
      ∀ dialect, bind dialect template parameters =
        .ok ⟨(ofFilled dialect 0 first).sql ++ dialect.mark ((valuesOf first).length + 1) ++
            (ofFilled dialect ((valuesOf first).length + 1) rest).sql,
          valuesOf first ++ .ofJson value :: valuesOf rest⟩ := by
  rw [hpieces] at bound
  obtain ⟨first, hfirst⟩ := exists_fills fun other member =>
    bound other (List.mem_append_left _ member)
  obtain ⟨rest, hrest⟩ := exists_fills fun other member =>
    bound other (List.mem_append_right _ (List.mem_cons_of_mem _ member))
  have hslot := Fills.slot hvalue
  rw [BoundValue.listOfJson_of_not_isArray single] at hslot
  have hfills := hfirst.append (hslot.append hrest)
  rw [List.singleton_append, ← hpieces] at hfills
  refine ⟨first, rest, hfirst, hrest, fun dialect => ?_⟩
  rw [bind_of_fills hfills, ofFilled_append, ofFilled_append, ofFilled_slot, marks_singleton,
    valuesOf_slot, Nat.zero_add, String.append_assoc]
  rfl

/-! ## Binding a part of a text -/

/-- Text around a template stays as it is: inert text before it, and text without a
colon behind it. -/
theorem bind_enclosed {head tail : String} (hhead : head.toList.all Template.isInert = true)
    (middle : String) (hsep : Template.Separated tail.toList) (htail : ':' ∉ tail.toList)
    (dialect : Dialect) (parameters : Parameters) :
    bind dialect (head ++ middle ++ tail) parameters =
      (bind dialect middle parameters).map fun statement =>
        ⟨head ++ statement.sql ++ tail, statement.values⟩ := by
  rw [bind, bind, Template.pieces_enclosed hhead middle hsep htail, List.mapM_append,
    List.mapM_append, Fills.verbatim head, Fills.verbatim tail]
  cases (Template.pieces middle).mapM (fill parameters) with
  | error e => rfl
  | ok filled =>
    have hstatement :
        ofFilled dialect 0 (FilterSql.verbatim head ++ (filled ++ FilterSql.verbatim tail)) =
          ⟨head ++ (ofFilled dialect 0 filled).sql ++ tail, valuesOf filled⟩ := by
      rw [ofFilled_append, ofFilled_append, ofFilled_verbatim, ofFilled_verbatim]
      simp [String.append_assoc]
    exact congrArg Except.ok hstatement

/-- One placeholder between inert text and text without a colon: its value is written out,
and the text around it stays as it is. -/
theorem bind_placeholder_enclosed {head tail name : String}
    (hhead : head.toList.all Template.isInert = true) (hname : Text.isIdentifier name = true)
    (hsep : Template.Separated tail.toList) (htail : ':' ∉ tail.toList) (dialect : Dialect)
    (value : Json) :
    bind dialect (head ++ (":" ++ name) ++ tail) (.ofList [(name, value)]) =
      .ok ⟨head ++ marks dialect 0 (BoundValue.listOfJson value) ++ tail,
        BoundValue.listOfJson value⟩ := by
  have hvalue : (Parameters.ofList [(name, value)]).get? name = some value := by
    rw [Parameters.get?_ofList]
    simp
  have hfills : Fills (.ofList [(name, value)]) (Template.pieces (":" ++ name))
      [.slot (BoundValue.listOfJson value)] := by
    rw [Template.pieces_eq, (Template.Spells.placeholder hname).pieces_eq]
    exact Fills.slot hvalue
  rw [bind_enclosed hhead _ hsep htail, bind_of_fills hfills, ofFilled_slot]
  rfl

/-! ## Numbers of placeholders -/

/-- The placeholders of a number of values, which are counted from one. -/
def marksWith (mark : ℕ → String) (count : ℕ) : String :=
  if count = 0 then "NULL" else ", ".intercalate ((List.range' 1 count).map mark)

/-- The text of filled pieces in which the first placeholder is `mark 1`, the second one
`mark 2`, and so on. -/
def textWith (mark : ℕ → String) : List (Piece (List BoundValue)) → String
  | [] => ""
  | .verbatim c :: rest => String.singleton c ++ textWith mark rest
  | .slot values :: rest =>
    marksWith mark values.length ++ textWith (fun number => mark (values.length + number)) rest

theorem marks_eq_marksWith (dialect : Dialect) (before : ℕ) (values : List BoundValue) :
    marks dialect before values =
      marksWith (fun number => dialect.mark (before + number)) values.length := by
  have hpositions : List.range' (before + 1) values.length =
      (List.range' 1 values.length).map (before + ·) := by
    rw [List.map_add_range']
  rw [marks_eq, marksWith, hpositions, List.map_map]
  simp only [List.length_eq_zero_iff]
  rfl

/-- Values that come before raise the number of every placeholder. -/
theorem sql_ofFilled (dialect : Dialect) (before : ℕ) (filled : List (Piece (List BoundValue))) :
    (ofFilled dialect before filled).sql =
      textWith (fun number => dialect.mark (before + number)) filled := by
  induction filled generalizing before with
  | nil => rfl
  | cons piece rest ih =>
    cases piece with
    | verbatim c =>
      rw [textWith, ← ih before, ofFilled, render]
      exact String.ofList_cons
    | slot values =>
      have hrest := ih (before + values.length)
      simp only [Nat.add_assoc] at hrest
      rw [textWith, ← hrest, ← marks_eq_marksWith, ofFilled, render, String.ofList_append,
        String.ofList_toList]
      rfl

end Statement

end FilterSql

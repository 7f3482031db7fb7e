import FilterSql.Proofs.Statement.Filling

/-!
# One statement in all dialects

What a template is bound to, apart from how a dialect writes its placeholders: a layout of
characters and of open places, and the values. The placeholders of a dialect are then put
into the places one after the other, so dialects that number them count the places.

Results:
* `count_layout`: there is one place for each value, however the values are divided among
  names, lists and empty lists.
* `render_eq_putInto`: a rendered text is the layout with the placeholders of the dialect.
* `bind_in_all_dialects`: binding fails for the same name in all dialects, or it gives the
  same values and texts of the same layout.
-/

namespace FilterSql

namespace Statement

/-! ## Specification -/

/-- The places of a number of values: divided by commas, or the word `NULL` for none. -/
def places : ℕ → List (Piece Unit)
  | 0 => verbatim "NULL"
  | 1 => [.slot ()]
  | count + 2 => .slot () :: (verbatim ", " ++ places (count + 1))

/-- What a piece of a template becomes: the places of the values of its parameter. -/
def layoutPiece (parameters : Parameters) : Piece String → List (Piece Unit)
  | .verbatim c => [.verbatim c]
  | .slot name => places (((parameters.get? name).map BoundValue.listOfJson).getD []).length

/-- What a template becomes, with open places for the placeholders of a dialect. -/
def layout (parameters : Parameters) (template : String) : List (Piece Unit) :=
  (Template.pieces template).flatMap (layoutPiece parameters)

/-- The text of a layout in which some placeholders take the places from left to right. -/
def putInto (marks : List String) : List (Piece Unit) → List Char
  | [] => []
  | .verbatim c :: rest => c :: putInto marks rest
  | .slot () :: rest => (marks.headD "").toList ++ putInto marks.tail rest

/-! ## Places -/

theorem count_verbatim (text : String) : (verbatim text).count (Piece.slot ()) = 0 := by
  rw [verbatim, List.count_eq_zero]
  simp

theorem count_places (count : ℕ) : (places count).count (Piece.slot ()) = count := by
  induction count using places.induct with
  | case1 => exact count_verbatim "NULL"
  | case2 => rfl
  | case3 count ih => rw [places, List.count_cons_self, List.count_append, count_verbatim, ih]; omega

theorem putInto_verbatim_append (marks : List String) (text : String) (rest : List (Piece Unit)) :
    putInto marks (verbatim text ++ rest) = text.toList ++ putInto marks rest := by
  rw [verbatim]
  induction text.toList with
  | nil => rfl
  | cons c chars ih => rw [List.map_cons, List.cons_append, putInto, ih, List.cons_append]

/-- The first part of a layout takes as many placeholders as it has places. -/
theorem putInto_append (marks others : List String) {first : List (Piece Unit)}
    (h : first.count (.slot ()) = marks.length) (second : List (Piece Unit)) :
    putInto (marks ++ others) (first ++ second) =
      putInto marks first ++ putInto others second := by
  induction first generalizing marks with
  | nil =>
    obtain rfl := List.length_eq_zero_iff.mp h.symm
    rfl
  | cons piece first ih =>
    cases piece with
    | verbatim c =>
      have hfirst : first.count (.slot ()) = marks.length := by simpa using h
      rw [List.cons_append, putInto, ih marks hfirst, putInto, List.cons_append]
    | slot content =>
      obtain rfl : content = () := rfl
      cases marks with
      | nil => simp at h
      | cons mark marks =>
        have hfirst : first.count (.slot ()) = marks.length := by simpa using h
        simp only [List.cons_append, putInto, List.headD_cons, List.tail_cons, ih marks hfirst,
          List.append_assoc]

theorem putInto_places (marks : List String) :
    putInto marks (places marks.length) =
      (if marks = [] then "NULL" else ", ".intercalate marks).toList := by
  match marks with
  | [] => rfl
  | [mark] => simp [places, putInto]
  | first :: second :: rest =>
    have hrest := putInto_places (second :: rest)
    rw [if_neg (List.cons_ne_nil _ _)] at hrest ⊢
    rw [String.intercalate_cons_cons, String.toList_append, String.toList_append, ← hrest]
    simp only [List.length_cons, places, putInto, List.headD_cons, List.tail_cons,
      putInto_verbatim_append, List.append_assoc]

/-! ## Rendering -/

variable {parameters : Parameters} {pieces : List (Piece String)}
variable {filled : List (Piece (List BoundValue))}

theorem layoutPiece_of_fill {piece : Piece String} {content : Piece (List BoundValue)}
    (h : fill parameters piece = .ok content) :
    layoutPiece parameters piece =
      match content with
      | .verbatim c => [.verbatim c]
      | .slot values => places values.length := by
  cases piece with
  | verbatim c => cases h; rfl
  | slot name =>
    rw [fill] at h
    cases hvalue : parameters.get? name with
    | none => rw [hvalue] at h; cases h
    | some value =>
      rw [hvalue] at h
      cases h
      rw [layoutPiece, hvalue]
      rfl

/-- There is one place for each value. -/
theorem count_layout (h : Fills parameters pieces filled) :
    (pieces.flatMap (layoutPiece parameters)).count (.slot ()) = (valuesOf filled).length := by
  have hpieces := mapM_eq_ok_iff.mp h
  clear h
  induction hpieces with
  | nil => rfl
  | @cons piece content pieces filled hfill _ ih =>
    rw [List.flatMap_cons, List.count_append, ih, layoutPiece_of_fill hfill]
    cases content with
    | verbatim c => rw [valuesOf]; simp
    | slot values => rw [count_places, valuesOf, List.length_append]

/-- A rendered text is the layout with the placeholders of the dialect in order. -/
theorem render_eq_putInto (dialect : Dialect) (h : Fills parameters pieces filled) (before : ℕ) :
    render dialect before filled =
      putInto ((List.range' (before + 1) (valuesOf filled).length).map dialect.mark)
        (pieces.flatMap (layoutPiece parameters)) := by
  have hpieces := mapM_eq_ok_iff.mp h
  clear h
  induction hpieces generalizing before with
  | nil => rfl
  | @cons piece content pieces filled hfill _ ih =>
    rw [List.flatMap_cons, layoutPiece_of_fill hfill]
    cases content with
    | verbatim c => rw [render, ih before, valuesOf, List.singleton_append, putInto]
    | slot values =>
      have hlength : ((List.range' (before + 1) values.length).map dialect.mark).length =
          values.length := by
        rw [List.length_map, List.length_range']
      have hmarks := putInto_places ((List.range' (before + 1) values.length).map dialect.mark)
      rw [hlength] at hmarks
      have hnumbers : List.range' (before + 1) (values ++ valuesOf filled).length =
          List.range' (before + 1) values.length ++
            List.range' (before + values.length + 1) (valuesOf filled).length := by
        rw [List.length_append, ← List.range'_append_1, Nat.add_right_comm]
      rw [render, ih, valuesOf, hnumbers, List.map_append,
        putInto_append _ _ (by rw [count_places, hlength]), hmarks, marks_eq]
      cases values <;> rfl

/-! ## Dialects -/

theorem bind_of_layout (dialect : Dialect) {template : String}
    (h : Fills parameters (Template.pieces template) filled) :
    bind dialect template parameters =
      .ok ⟨String.ofList (putInto ((List.range' 1 (valuesOf filled).length).map dialect.mark)
        (layout parameters template)), valuesOf filled⟩ := by
  rw [bind_of_fills h, ofFilled, render_eq_putInto dialect h 0, layout]

/-- **All dialects see the same statement.** Every template and all parameters are bound
alike in MySQL and SQLite. Either binding fails in all dialects with the same error, or the
values are the same in all dialects, one for each place of the layout; then the text has a
question mark in every place in MySQL and SQLite, and in Postgres the numbers from one up to
the number of values, each once and in order. -/
theorem bind_in_all_dialects (template : String) (parameters : Parameters) :
    bind .mysql template parameters = bind .sqlite template parameters ∧
    ((∃ e, ∀ dialect, bind dialect template parameters = .error e) ∨
      ∃ values, (layout parameters template).count (.slot ()) = values.length ∧
        bind .sqlite template parameters =
          .ok ⟨String.ofList (putInto (List.replicate values.length "?")
            (layout parameters template)), values⟩ ∧
        bind .postgres template parameters =
          .ok ⟨String.ofList (putInto ((List.range' 1 values.length).map fun number =>
            "$" ++ toString number) (layout parameters template)), values⟩) := by
  cases hfill : (Template.pieces template).mapM (fill parameters) with
  | error e =>
    have herror : ∀ dialect, bind dialect template parameters = .error e := by
      intro dialect
      rw [bind, hfill]
      rfl
    exact ⟨by rw [herror, herror], .inl ⟨e, herror⟩⟩
  | ok filled =>
    have hfills : Fills parameters (Template.pieces template) filled := hfill
    have hquestion : ∀ dialect : Dialect, dialect ≠ .postgres →
        (List.range' 1 (valuesOf filled).length).map dialect.mark =
          List.replicate (valuesOf filled).length "?" := by
      intro dialect hdialect
      rw [List.map_eq_replicate_iff.mpr, List.length_range']
      intro number _
      cases dialect with
      | postgres => exact absurd rfl hdialect
      | sqlite => rfl
      | mysql => rfl
    refine ⟨?_, .inr ⟨valuesOf filled, count_layout hfills, ?_, bind_of_layout .postgres hfills⟩⟩
    · rw [bind_of_layout .mysql hfills, bind_of_layout .sqlite hfills, hquestion .mysql (by decide),
        hquestion .sqlite (by decide)]
    · rw [bind_of_layout .sqlite hfills, hquestion .sqlite (by decide)]

/-- A name that is used twice takes two numbers, and an empty list takes none. -/
example :
    bind .postgres "A IN (:a, :none) AND B = :b AND C IN (:a)"
        (.ofList [("a", .array [.null, .null]), ("b", .null), ("none", .array [])]) =
      .ok ⟨"A IN ($1, $2, NULL) AND B = $3 AND C IN ($4, $5)",
        List.replicate 5 (.string none)⟩ := rfl

end Statement

end FilterSql

import FilterSql.Proofs.Statement.Binding

/-!
# Bound statements as templates

A bound statement is a text again, and it may be taken for a template. What is written for
a placeholder stands between the tokens around it, some of which are told apart by the
character behind them. A placeholder starts with a colon, and what is written for it
starts with a character that goes on with less than a colon does, so every other token is
read again as it was, and no placeholder comes about.

Results:
* `StartsLike`, `Token.Leads.of_startsLike`: the tokens that are copied stand before the
  bound text as they did before the template.
* `exists_replaces`: a bound statement is split into tokens without a placeholder.
* `bind_bound_statement`: binding it again changes nothing.
-/

namespace FilterSql

namespace Template

/-! ## The character behind a token -/

/-- What a text starts with when it has been written in place of a template: the same
character, or a mark where the template has a placeholder. -/
inductive StartsLike : (template text : List Char) → Prop where
  | nil : StartsLike [] []
  | same (c : Char) (template text : List Char) : StartsLike (c :: template) (c :: text)
  | mark {c : Char} (inert : isInert c = true) (star : c ≠ '*') (template text : List Char) :
      StartsLike (':' :: template) (c :: text)

/-- A character is plain when it is no quote and the next one does not go on with it. -/
theorem isPlain_cons_iff {c : Char} {rest : List Char} :
    IsPlain (c :: rest) ↔
      isQuote c = false ∧ ∀ d ∈ rest.head?, ¬ (stepPlain c).2.Continues d := by
  constructor
  · intro h
    refine ⟨h.not_isQuote, fun d hd => ?_⟩
    cases rest with
    | nil => cases hd
    | cons e rest =>
      cases hd
      exact not_continues_of_isPlain h
  · rintro ⟨hquote, hnext⟩
    have hpair : ∀ d, [c, d] <+: c :: rest → ¬ (stepPlain c).2.Continues d := by
      rintro d ⟨after, hafter⟩
      obtain rfl : d :: after = rest := (List.cons.inj hafter).2
      exact hnext d rfl
    refine ⟨?_, ?_, ?_⟩
    · rintro (quote | _ | _) hrun
      · obtain rfl : quote.char = c := (List.cons_prefix_cons.mp hrun).1
        cases quote <;> cases hquote
      · obtain rfl : '-' = c := (List.cons_prefix_cons.mp hrun).1
        exact hpair '-' hrun rfl
      · obtain rfl : '/' = c := (List.cons_prefix_cons.mp hrun).1
        exact hpair '*' hrun rfl
    · intro hcast
      obtain rfl : ':' = c := (List.cons_prefix_cons.mp hcast).1
      exact hpair ':' hcast (.inl rfl)
    · intro d hd hname
      obtain rfl : ':' = c := (List.cons_prefix_cons.mp hname).1
      exact hpair d hname (.inr hd)

/-- A mark goes on with nothing that a plain character has started, unless a colon does so,
too. -/
theorem continues_colon_of_mark {c d : Char} (hquote : isQuote c = false)
    (inert : isInert d = true) (star : d ≠ '*') (h : (stepPlain c).2.Continues d) :
    (stepPlain c).2.Continues ':' := by
  by_cases hcolon : c = ':'
  · subst hcolon
    exact .inl rfl
  by_cases hhyphen : c = '-'
  · subst hhyphen
    obtain rfl : d = '-' := h
    cases inert
  by_cases hslash : c = '/'
  · subst hslash
    exact absurd h star
  · simp [stepPlain, behind, hcolon, hhyphen, hslash, hquote, Place.Continues] at h

theorem IsPlain.of_startsLike {c : Char} {template text : List Char}
    (h : IsPlain (c :: template)) (starts : StartsLike template text) : IsPlain (c :: text) := by
  obtain ⟨hquote, hnext⟩ := isPlain_cons_iff.mp h
  refine isPlain_cons_iff.mpr ⟨hquote, fun d hd hcontinues => ?_⟩
  cases starts with
  | nil => cases hd
  | same e template text =>
    cases hd
    exact hnext d rfl hcontinues
  | mark inert star template text =>
    cases hd
    exact hnext ':' rfl (continues_colon_of_mark hquote inert star hcontinues)

/-- A token that is no placeholder stands before the bound text as before the template. -/
theorem Token.Leads.of_startsLike {token : Token} {template text : List Char}
    (leads : token.Leads template) (copied : ∀ name, token ≠ .placeholder name)
    (starts : StartsLike template text) : token.Leads text := by
  cases token with
  | enclosed run body closed =>
    refine ⟨leads.1, fun hopen => ?_⟩
    obtain rfl := leads.2 hopen
    cases starts
    rfl
  | cast => trivial
  | placeholder name => exact absurd rfl (copied name)
  | other c => exact IsPlain.of_startsLike leads starts

/-- Where a token is copied, the text starts as the template does. -/
theorem Token.startsLike_append (token : Token) (template text : List Char) :
    StartsLike (token.text ++ template) (token.text ++ text) := by
  cases htext : token.text with
  | nil => exact absurd htext token.text_ne_nil
  | cons c rest => exact .same c _ _

/-! ## Marks as tokens -/

/-- Inert text is split into its characters. -/
theorem Splits.inert_append {inserted text : List Char} {tokens : List Token}
    (inert : ∀ c ∈ inserted, isInert c = true) (h : Splits text tokens) :
    Splits (inserted ++ text) (inserted.map .other ++ tokens) := by
  induction inserted with
  | nil => exact h
  | cons c inserted ih =>
    have hstep := step_plain_of_inert (inert c List.mem_cons_self)
    have hplain : IsPlain (c :: (inserted ++ text)) := by
      refine isPlain_cons_iff.mpr ⟨?_, fun d _ => ?_⟩
      · have hc := inert c List.mem_cons_self
        simp only [isInert, Bool.and_eq_true, Bool.not_eq_true'] at hc
        exact hc.1.1.1
      · rw [show (stepPlain c).2 = .plain from congrArg Prod.snd hstep]
        exact not_false
    have hleads : (Token.other c).Leads (inserted ++ text) := hplain
    exact .cons rfl hleads (ih fun d member => inert d (List.mem_cons_of_mem _ member))

end Template

namespace Statement

open Template

variable {dialect : Dialect} {parameters : Parameters}

/-- What is written for a placeholder starts with a mark. -/
theorem exists_marks_eq_cons (dialect : Dialect) (before : ℕ) (values : List BoundValue) :
    ∃ c rest, (marks dialect before values).toList = c :: rest ∧ c ≠ '*' := by
  have hmark : ∀ position, ∃ c rest, (dialect.mark position).toList = c :: rest ∧ c ≠ '*' := by
    intro position
    cases dialect with
    | postgres => exact ⟨'$', (toString position).toList, String.toList_append, by decide⟩
    | sqlite => exact ⟨'?', [], by rw [Dialect.mark]; rfl, by decide⟩
    | mysql => exact ⟨'?', [], by rw [Dialect.mark]; rfl, by decide⟩
  rw [marks_eq]
  cases values with
  | nil => exact ⟨'N', ['U', 'L', 'L'], by rw [if_pos rfl]; rfl, by decide⟩
  | cons value values =>
    obtain ⟨c, rest, hfirst, hc⟩ := hmark (before + 1)
    rw [if_neg (List.cons_ne_nil _ _), List.length_cons, List.range'_succ, List.map_cons]
    cases hothers : (List.range' (before + 1 + 1) values.length).map dialect.mark with
    | nil => exact ⟨c, rest, by simpa using hfirst, hc⟩
    | cons second others =>
      refine ⟨c, rest ++ (", " ++ ", ".intercalate (second :: others)).toList, ?_, hc⟩
      simp [String.intercalate_cons_cons, hfirst]

/-- Where a placeholder is replaced, the text starts with a mark. -/
theorem startsLike_marks_append (dialect : Dialect) (before : ℕ) (values : List BoundValue)
    (name : String) (template text : List Char) :
    StartsLike ((Token.placeholder name).text ++ template)
      ((marks dialect before values).toList ++ text) := by
  obtain ⟨c, rest, hmarks, hstar⟩ := exists_marks_eq_cons dialect before values
  have hinert := List.all_eq_true.mp (all_isInert_marks dialect before values) c
  rw [hmarks] at hinert ⊢
  exact .mark (hinert List.mem_cons_self) hstar _ _

/-! ## Bound texts -/

/-- A text without placeholders that starts like a template. -/
structure Replaces (template text : List Char) : Prop where
  starts : StartsLike template text
  splits : ∃ tokens, Splits text tokens ∧ ∀ name, .placeholder name ∉ tokens

/-- Where every placeholder has a value, the text that is written has no placeholder. -/
theorem exists_replaces (dialect : Dialect) {template : List Char} {tokens : List Token}
    (hsplits : Splits template tokens)
    (h : ∀ name, .placeholder name ∈ tokens → ∃ value, parameters.get? name = some value) :
    ∃ filled, Fills parameters (tokens.flatMap Token.pieces) filled ∧
      ∀ before, Replaces template (render dialect before filled) := by
  induction hsplits with
  | nil => exact ⟨[], rfl, fun _ => ⟨.nil, [], .nil, by simp⟩⟩
  | @cons template rest token tokens text_eq leads _ ih =>
    obtain ⟨others, hfills, hothers⟩ := ih fun name member => h name (List.mem_cons_of_mem _ member)
    subst text_eq
    by_cases hname : ∃ name, token = .placeholder name
    · obtain ⟨name, rfl⟩ := hname
      obtain ⟨value, hvalue⟩ := h name List.mem_cons_self
      refine ⟨_, (Fills.slot hvalue).append hfills, fun before => ?_⟩
      rw [render_append, render_slot]
      obtain ⟨-, tokens', hsplits, hnone⟩ :=
        hothers (before + (valuesOf [.slot (BoundValue.listOfJson value)]).length)
      have hinert :=
        List.all_eq_true.mp (all_isInert_marks dialect before (BoundValue.listOfJson value))
      exact ⟨startsLike_marks_append dialect before _ name rest _, _,
        hsplits.inert_append hinert, by simpa using hnone⟩
    · rw [not_exists] at hname
      refine ⟨verbatim (String.ofList token.text) ++ others, ?_, fun before => ?_⟩
      · rw [List.flatMap_cons, pieces_of_copied hname]
        exact (Fills.verbatim _).append hfills
      · rw [render_append, render_verbatim, valuesOf_verbatim, String.toList_ofList]
        obtain ⟨hstarts, tokens', hsplits, hnone⟩ := hothers before
        refine ⟨token.startsLike_append rest _, token :: tokens', ?_, fun name member => ?_⟩
        · exact .cons rfl (leads.of_startsLike hname hstarts) hsplits
        · rcases List.mem_cons.mp member with heq | member
          · exact hname name heq.symm
          · exact hnone name member

/-- A text without placeholders has no slots. -/
theorem pieces_of_no_placeholder {text : List Char} {tokens : List Token}
    (hsplits : Splits text tokens) (h : ∀ name, .placeholder name ∉ tokens) :
    tokens.flatMap Token.pieces = text.map .verbatim := by
  induction hsplits with
  | nil => rfl
  | @cons text rest token tokens text_eq _ _ ih =>
    have htoken : ∀ name, token ≠ .placeholder name := by
      rintro name rfl
      exact h name List.mem_cons_self
    rw [List.flatMap_cons, pieces_of_copied htoken,
      ih fun name member => h name (List.mem_cons_of_mem _ member), text_eq, List.map_append,
      verbatim, String.toList_ofList]

/-- A text without placeholders is bound as it is. -/
theorem bind_of_no_placeholder (dialect : Dialect) {template : String} {tokens : List Token}
    (hsplits : Splits template.toList tokens) (h : ∀ name, .placeholder name ∉ tokens)
    (parameters : Parameters) : bind dialect template parameters = .ok ⟨template, []⟩ := by
  have hpieces : Template.pieces template = verbatim template := by
    rw [pieces_eq, pieces_of_splits hsplits, pieces_of_no_placeholder hsplits h, verbatim]
  have hfills : Fills parameters (Template.pieces template) (verbatim template) := by
    rw [hpieces]
    exact Fills.verbatim template
  rw [bind_of_fills hfills, ofFilled_verbatim]

/-- **A bound statement needs no further binding.** Whenever a template has been bound, its
text can be bound again in every dialect and to all parameters, and then it stays as it is
and has no values. -/
theorem bind_bound_statement {dialect : Dialect} {template : String} {parameters : Parameters}
    {statement : Statement} (h : bind dialect template parameters = .ok statement)
    (other : Dialect) (others : Parameters) :
    bind other statement.sql others = .ok ⟨statement.sql, []⟩ := by
  obtain ⟨tokens, hsplits⟩ := exists_splits template.toList
  rcases bound_or_first_unbound parameters tokens with
    hbound | ⟨before, name, after, rfl, hbefore, hname⟩
  · obtain ⟨filled, hfills, hreplaces⟩ := exists_replaces dialect hsplits
      fun name member => Parameters.contains_eq_true_iff.mp (hbound name member)
    rw [← pieces_of_splits hsplits] at hfills
    rw [bind_of_fills hfills dialect] at h
    cases h
    obtain ⟨-, tokens', hsplits', hnone⟩ := hreplaces 0
    have hbound : Splits (ofFilled dialect 0 filled).sql.toList tokens' := by
      rwa [ofFilled, String.toList_ofList]
    exact bind_of_no_placeholder other hbound hnone others
  · rw [bind_of_first_unbound hsplits hbefore hname] at h
    cases h

/-- Placeholders next to signs, casts and comments. -/
theorem bind_crowded_statement :
    bind .postgres "x:1:::a-:none/:b*/ ':a' ::b--:c"
        (.ofList [("a", .null), ("b", .array [.bool true, .null]), ("none", .array [])]) =
      .ok ⟨"x:1::$1-NULL/$2, $3*/ ':a' ::b--:c", [.string none, .bool true, .string none]⟩ ∧
    bind .mysql "x:1::$1-NULL/$2, $3*/ ':a' ::b--:c" .empty =
      .ok ⟨"x:1::$1-NULL/$2, $3*/ ':a' ::b--:c", []⟩ := by
  have h : bind .postgres "x:1:::a-:none/:b*/ ':a' ::b--:c"
      (.ofList [("a", .null), ("b", .array [.bool true, .null]), ("none", .array [])]) =
        .ok ⟨"x:1::$1-NULL/$2, $3*/ ':a' ::b--:c", [.string none, .bool true, .string none]⟩ := rfl
  exact ⟨h, bind_bound_statement h .mysql .empty⟩

end Statement

end FilterSql

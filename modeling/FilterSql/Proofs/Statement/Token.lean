import Mathlib.Data.List.Infix
import Mathlib.Data.List.TakeWhile
import Mathlib.Data.Nat.Init
import Mathlib.Tactic.Common
import FilterSql.Proofs.Statement.Pieces

/-!
# The tokens of a template

What a statement with named placeholders looks like to its reader: runs in which a colon
means nothing, casts, placeholders, and single characters. The automaton that reads a
template takes one character at a time and does not know these tokens; it tells them
apart all the same.

Results:
* `exists_splits`, `Splits.unique`: a text is split into tokens in one way.
* `pieces_of_splits`: its pieces are those of its tokens.
-/

namespace FilterSql

namespace Template

/-! ## Specification -/

/-- The quotes. -/
inductive Quote where
  | single
  | double
  | back
deriving DecidableEq, Repr

def Quote.char : Quote → Char
  | .single => '\x27'
  | .double => '\x22'
  | .back => '\x60'

/-- The runs of a text in which a colon means nothing. -/
inductive Run where
  | quoted (quote : Quote)
  | lineComment
  | blockComment
deriving DecidableEq, Repr

/-- The sign that starts a run. -/
def Run.opening : Run → List Char
  | .quoted quote => [quote.char]
  | .lineComment => ['-', '-']
  | .blockComment => ['/', '*']

/-- The sign that ends a run. -/
def Run.ending : Run → List Char
  | .quoted quote => [quote.char]
  | .lineComment => ['\n']
  | .blockComment => ['*', '/']

inductive Token where
  /-- A run with what stands between its signs. If it is not closed, the second sign is
  missing. -/
  | enclosed (run : Run) (body : List Char) (closed : Bool)
  | cast
  | placeholder (name : String)
  /-- Any other character. -/
  | other (c : Char)
deriving DecidableEq, Repr

def Token.text : Token → List Char
  | .enclosed run body closed => run.opening ++ (body ++ if closed then run.ending else [])
  | .cast => [':', ':']
  | .placeholder name => ':' :: name.toList
  | .other c => [c]

/-- A text starts with no run, no cast and no placeholder. -/
structure IsPlain (text : List Char) : Prop where
  run : ∀ run : Run, ¬ run.opening <+: text
  cast : ¬ [':', ':'] <+: text
  placeholder : ∀ c, Text.isNameStart c = true → ¬ [':', c] <+: text

/-- A token stands before the rest of a text. A run ends with the first sign that ends
it, or else with the text, and a name is as long as possible. -/
def Token.Leads : Token → List Char → Prop
  | .enclosed run body closed, rest => ¬ run.ending <:+: body ∧ (closed = false → rest = [])
  | .cast, _ => True
  | .placeholder name, rest =>
    Text.isIdentifier name = true ∧ ∀ c ∈ rest.head?, Text.isNameChar c = false
  | .other c, rest => IsPlain (c :: rest)

/-- A text is split into tokens from left to right. -/
inductive Splits : List Char → List Token → Prop where
  | nil : Splits [] []
  | cons {text rest : List Char} {token : Token} {tokens : List Token}
      (text_eq : text = token.text ++ rest) (leads : token.Leads rest)
      (others : Splits rest tokens) : Splits text (token :: tokens)

/-! ## Every text can be split -/

/-- A nonempty sign is missing in a text, or occurs in it for the first time. -/
theorem exists_before_first {sign : List Char} (nonempty : sign ≠ []) (text : List Char) :
    ∃ body closed rest, text = body ++ (if closed then sign else []) ++ rest ∧
      ¬ sign <:+: body ∧ (closed = false → rest = []) := by
  induction text with
  | nil => exact ⟨[], false, [], rfl, by simpa using nonempty, fun _ => rfl⟩
  | cons c text ih =>
    by_cases hstarts : sign <+: c :: text
    · obtain ⟨rest, hrest⟩ := hstarts
      exact ⟨[], true, rest, by simp [hrest], by simpa using nonempty, by simp⟩
    · obtain ⟨body, closed, rest, rfl, hbody, hclosed⟩ := ih
      refine ⟨c :: body, closed, rest, rfl, ?_, hclosed⟩
      rw [List.infix_cons_iff, not_or]
      refine ⟨fun h => hstarts (h.trans ?_), hbody⟩
      rw [List.append_assoc]
      exact ⟨_, rfl⟩

theorem Run.opening_ne_nil (run : Run) : run.opening ≠ [] := by
  cases run <;> simp [Run.opening]

theorem Run.ending_ne_nil (run : Run) : run.ending ≠ [] := by
  cases run <;> simp [Run.ending]

theorem Token.text_ne_nil (token : Token) : token.text ≠ [] := by
  cases token <;> simp [Token.text, Run.opening_ne_nil]

theorem isIdentifier_ofList {c : Char} {chars : List Char} (hc : Text.isNameStart c = true)
    (hchars : ∀ d ∈ chars, Text.isNameChar d = true) :
    Text.isIdentifier (String.ofList (c :: chars)) = true :=
  Text.isIdentifier_iff.mpr ⟨c, chars, String.toList_ofList, hc, hchars⟩

/-- Some token stands at the start of every text. -/
theorem exists_leads {text : List Char} (nonempty : text ≠ []) :
    ∃ (token : Token) (rest : List Char), text = token.text ++ rest ∧ token.Leads rest := by
  by_cases hrun : ∃ run : Run, run.opening <+: text
  · obtain ⟨run, after, rfl⟩ := hrun
    obtain ⟨body, closed, rest, rfl, hbody, hclosed⟩ :=
      exists_before_first run.ending_ne_nil after
    exact ⟨.enclosed run body closed, rest, by simp [Token.text], hbody, hclosed⟩
  by_cases hcast : [':', ':'] <+: text
  · obtain ⟨rest, rfl⟩ := hcast
    exact ⟨.cast, rest, rfl, trivial⟩
  by_cases hname : ∃ c, Text.isNameStart c = true ∧ [':', c] <+: text
  · obtain ⟨c, hc, after, rfl⟩ := hname
    have hsplit := @List.takeWhile_append_dropWhile Char Text.isNameChar after
    refine ⟨.placeholder (String.ofList (c :: after.takeWhile Text.isNameChar)),
      after.dropWhile Text.isNameChar, ?_, isIdentifier_ofList hc ?_, ?_⟩
    · simp [Token.text, hsplit]
    · intro d hd
      exact List.mem_takeWhile_imp hd
    · intro d hd
      have hfirst := List.head?_dropWhile_not Text.isNameChar after
      rw [Option.mem_def.mp hd] at hfirst
      exact hfirst
  · cases text with
    | nil => exact absurd rfl nonempty
    | cons c rest =>
      push Not at hrun hname
      exact ⟨.other c, rest, rfl, hrun, hcast, hname⟩

theorem exists_splits (text : List Char) : ∃ tokens, Splits text tokens := by
  induction hlength : text.length using Nat.strong_induction_on generalizing text with
  | _ length ih =>
    by_cases hempty : text = []
    · exact ⟨[], hempty ▸ .nil⟩
    · obtain ⟨token, rest, htext, hleads⟩ := exists_leads hempty
      have hshorter : rest.length < length := by
        have := List.length_pos_iff.mpr token.text_ne_nil
        rw [← hlength, htext, List.length_append]
        omega
      obtain ⟨tokens, htokens⟩ := ih _ hshorter rest rfl
      exact ⟨token :: tokens, .cons htext hleads htokens⟩

/-! ## In one way only -/

variable {token other : Token} {rest others : List Char}

/-- The sign that ends a run does not overlap with itself. -/
theorem Run.ending_infix_of_append (run : Run) {body : List Char}
    (h : run.ending <:+: body ++ run.ending.dropLast) : run.ending <:+: body := by
  cases run with
  | quoted quote => simpa [Run.ending] using h
  | lineComment => simpa [Run.ending] using h
  | blockComment =>
    rcases List.infix_concat_iff.mp h with ⟨front, hfront⟩ | h
    · simpa [Run.ending] using congrArg List.getLast? hfront
    · exact h

/-- The first sign that ends a run is not behind another one. -/
theorem Run.length_le_of_first (run : Run) {body later : List Char}
    (heq : body ++ run.ending ++ rest = later ++ run.ending ++ others)
    (hlater : ¬ run.ending <:+: later) : later.length ≤ body.length := by
  by_contra hshorter
  -- The first sign would end before the other one does, so it would be in the text before
  -- that one, of which it may take all characters but the last.
  have hpositive := List.length_pos_iff.mpr run.ending_ne_nil
  have hending : run.ending.dropLast <+: run.ending := List.dropLast_prefix _
  have hstarts : body ++ run.ending <+: later ++ run.ending.dropLast := by
    refine List.prefix_of_prefix_length_le ⟨rest, rfl⟩ ?_ ?_
    · rw [heq]
      exact ((List.prefix_append_right_inj later).mpr hending).trans ⟨others, rfl⟩
    · simp only [List.length_append, List.length_dropLast]
      omega
  have hoccurs : run.ending <:+: later ++ run.ending.dropLast :=
    (List.suffix_append body run.ending).isInfix.trans hstarts.isInfix
  exact hlater (run.ending_infix_of_append hoccurs)

theorem Run.body_unique (run : Run) {body body' : List Char} {closed closed' : Bool}
    (heq : body ++ (if closed then run.ending else []) ++ rest =
      body' ++ (if closed' then run.ending else []) ++ others)
    (hbody : ¬ run.ending <:+: body) (hbody' : ¬ run.ending <:+: body')
    (hclosed : closed = false → rest = []) (hclosed' : closed' = false → others = []) :
    body = body' ∧ closed = closed' := by
  cases closed with
  | true =>
    cases closed' with
    | true =>
      have hlength : body.length = body'.length :=
        Nat.le_antisymm (run.length_le_of_first heq.symm hbody)
          (run.length_le_of_first heq hbody')
      simp only [if_true, List.append_assoc] at heq
      exact ⟨(List.append_inj heq hlength).1, rfl⟩
    | false =>
      simp only [hclosed' rfl, if_true, Bool.false_eq_true, if_false, List.append_nil] at heq
      exact absurd ⟨body, rest, heq⟩ hbody'
  | false =>
    cases closed' with
    | true =>
      simp only [hclosed rfl, if_true, Bool.false_eq_true, if_false, List.append_nil] at heq
      exact absurd ⟨body', others, heq.symm⟩ hbody
    | false =>
      simp only [hclosed rfl, hclosed' rfl, Bool.false_eq_true, if_false, List.append_nil] at heq
      exact ⟨heq, rfl⟩

theorem head?_of_start {sign text : List Char} (nonempty : sign ≠ []) (h : sign <+: text) :
    text.head? = sign.head? := by
  obtain ⟨after, rfl⟩ := h
  cases sign with
  | nil => exact absurd rfl nonempty
  | cons c sign => rfl

theorem Run.head?_opening_injective {run other : Run}
    (h : run.opening.head? = other.opening.head?) : run = other := by
  rcases run with ⟨_ | _ | _⟩ | _ | _ <;> rcases other with ⟨_ | _ | _⟩ | _ | _ <;>
    first | rfl | (revert h; decide)

theorem Run.head?_opening_ne_colon (run : Run) : run.opening.head? ≠ some ':' := by
  rcases run with ⟨_ | _ | _⟩ | _ | _ <;> decide

theorem Token.starts_with_opening (run : Run) (body : List Char) (closed : Bool)
    (rest : List Char) :
    run.opening <+: (Token.enclosed run body closed).text ++ rest := by
  rw [Token.text, List.append_assoc]
  exact ⟨_, rfl⟩

theorem Token.head?_enclosed (run : Run) (body : List Char) (closed : Bool) (rest : List Char) :
    ((Token.enclosed run body closed).text ++ rest).head? = run.opening.head? :=
  head?_of_start run.opening_ne_nil (starts_with_opening run body closed rest)

/-- Where a run starts, the token is such a run. -/
theorem Token.Leads.eq_enclosed (leads : token.Leads rest) {run : Run}
    (h : run.opening <+: token.text ++ rest) :
    ∃ body closed, token = .enclosed run body closed := by
  have hhead := head?_of_start run.opening_ne_nil h
  cases token with
  | enclosed other body closed =>
    rw [head?_enclosed] at hhead
    rw [Run.head?_opening_injective hhead]
    exact ⟨body, closed, rfl⟩
  | cast => exact absurd hhead.symm run.head?_opening_ne_colon
  | placeholder name => exact absurd hhead.symm run.head?_opening_ne_colon
  | other c => exact absurd h (leads.run run)

/-- A run does not start with a colon. -/
theorem Token.not_starts_with_colon (run : Run) (body : List Char) (closed : Bool)
    (rest sign : List Char) : ¬ ':' :: sign <+: (Token.enclosed run body closed).text ++ rest := by
  intro h
  have hhead := head?_of_start (List.cons_ne_nil _ _) h
  rw [head?_enclosed] at hhead
  exact run.head?_opening_ne_colon hhead

/-- Where a cast stands, the token is one. -/
theorem Token.Leads.eq_cast (leads : token.Leads rest) (h : [':', ':'] <+: token.text ++ rest) :
    token = .cast := by
  cases token with
  | enclosed run body closed => exact absurd h (not_starts_with_colon run body closed rest _)
  | cast => rfl
  | placeholder name =>
    obtain ⟨first, _, hname, hfirst, _⟩ := Text.isIdentifier_iff.mp leads.1
    simp only [Token.text, hname, List.cons_append, List.cons_prefix_cons] at h
    exact absurd h.2.1.symm (ne_colon_of_isNameStart hfirst)
  | other c => exact absurd h leads.cast

/-- Where a colon stands before a name, the token is a placeholder. -/
theorem Token.Leads.eq_placeholder (leads : token.Leads rest) {c : Char}
    (hc : Text.isNameStart c = true) (h : [':', c] <+: token.text ++ rest) :
    ∃ name, token = .placeholder name := by
  cases token with
  | enclosed run body closed => exact absurd h (not_starts_with_colon run body closed rest _)
  | cast =>
    simp only [Token.text, List.cons_append, List.cons_prefix_cons] at h
    exact absurd h.2.1 (ne_colon_of_isNameStart hc)
  | placeholder name => exact ⟨name, rfl⟩
  | other d => exact absurd h (leads.placeholder c hc)

theorem takeWhile_name {name : String} (hname : Text.isIdentifier name = true)
    (hrest : ∀ c ∈ rest.head?, Text.isNameChar c = false) :
    (name.toList ++ rest).takeWhile Text.isNameChar = name.toList := by
  have hends : rest.takeWhile Text.isNameChar = [] := by
    cases rest with
    | nil => rfl
    | cons c rest => simp [hrest c rfl]
  rw [List.takeWhile_append_of_pos (Text.isNameChar_of_isIdentifier hname), hends, List.append_nil]

/-- One token only stands at the start of a text. -/
theorem Token.Leads.unique (leads : token.Leads rest) (leads' : other.Leads others)
    (heq : token.text ++ rest = other.text ++ others) : token = other := by
  cases token with
  | enclosed run body closed =>
    have hopening := starts_with_opening run body closed rest
    rw [heq] at hopening
    obtain ⟨body', closed', rfl⟩ := leads'.eq_enclosed hopening
    simp only [Token.text, List.append_assoc] at heq
    have hbodies := List.append_cancel_left heq
    rw [← List.append_assoc, ← List.append_assoc] at hbodies
    obtain ⟨rfl, rfl⟩ := run.body_unique hbodies leads.1 leads'.1 leads.2 leads'.2
    rfl
  | cast => exact (leads'.eq_cast (heq ▸ ⟨rest, rfl⟩)).symm
  | placeholder name =>
    obtain ⟨first, chars, htext, hfirst, _⟩ := Text.isIdentifier_iff.mp leads.1
    have hstart : [':', first] <+: other.text ++ others := by
      rw [← heq, Token.text, htext]
      exact ⟨chars ++ rest, rfl⟩
    obtain ⟨name', rfl⟩ := leads'.eq_placeholder hfirst hstart
    have hnames : name.toList = name'.toList := by
      rw [← takeWhile_name leads.1 leads.2, ← takeWhile_name leads'.1 leads'.2]
      exact congrArg (List.takeWhile Text.isNameChar) (List.cons.inj heq).2
    rw [String.toList_inj.mp hnames]
  | other c =>
    -- The other token has several characters only where a single one does not stand.
    cases other with
    | enclosed run body closed =>
      refine absurd ?_ (leads.run run)
      rw [show c :: rest = _ from heq]
      exact starts_with_opening run body closed others
    | cast => exact absurd ⟨others, heq.symm⟩ leads.cast
    | placeholder name =>
      obtain ⟨first, chars, htext, hfirst, _⟩ := Text.isIdentifier_iff.mp leads'.1
      refine absurd ?_ (leads.placeholder first hfirst)
      rw [show c :: rest = _ from heq, Token.text, htext]
      exact ⟨chars ++ others, rfl⟩
    | other d => rw [(List.cons.inj heq).1]

/-- **A text is split into tokens in one way.** -/
theorem Splits.unique {text : List Char} {tokens tokens' : List Token} (h : Splits text tokens)
    (h' : Splits text tokens') : tokens = tokens' := by
  induction h generalizing tokens' with
  | nil =>
    cases h' with
    | nil => rfl
    | cons text_eq => simp [Token.text_ne_nil] at text_eq
  | cons text_eq leads _ ih =>
    cases h' with
    | nil => simp [Token.text_ne_nil] at text_eq
    | cons text_eq' leads' others' =>
      obtain rfl := leads.unique leads' (text_eq.symm.trans text_eq')
      obtain rfl := List.append_cancel_left (text_eq.symm.trans text_eq')
      rw [ih others']

/-! ## The automaton reads tokens -/

/-- The pieces of a token: a slot for a placeholder, and every other token as it is. -/
def Token.pieces : Token → List (Piece String)
  | .placeholder name => [.slot name]
  | token => token.text.map .verbatim

/-- The place behind the sign that starts a run. -/
def Run.start : Run → Place
  | .quoted quote => .quoted quote.char
  | .lineComment => .lineComment
  | .blockComment => .blockComment false

/-- The places within a run. -/
def Run.Within : Run → Place → Prop
  | .blockComment, place => ∃ star, place = .blockComment star
  | run, place => place = run.start

theorem exists_quote {c : Char} (h : isQuote c = true) : ∃ quote : Quote, quote.char = c := by
  simp only [isQuote, Bool.or_eq_true, decide_eq_true_eq] at h
  rcases h with (rfl | rfl) | rfl
  · exact ⟨.single, rfl⟩
  · exact ⟨.double, rfl⟩
  · exact ⟨.back, rfl⟩

theorem scan_opening (run : Run) :
    scan .plain run.opening = (run.opening.map .verbatim, run.start) := by
  rcases run with ⟨_ | _ | _⟩ | _ | _ <;> rfl

theorem scan_of_stays {place : Place} {text : List Char}
    (h : ∀ c ∈ text, step place c = ([.verbatim c], place)) :
    scan place text = (text.map .verbatim, place) := by
  induction text with
  | nil => rfl
  | cons c text ih =>
    rw [scan, h c List.mem_cons_self, ih fun d hd => h d (List.mem_cons_of_mem _ hd)]
    rfl

/-- A block comment goes on until its sign, of which the star may already have been read. -/
theorem scan_blockComment (star : Bool) {body : List Char}
    (h : ¬ ['*', '/'] <:+: (if star then ['*'] else []) ++ body) :
    ∃ last, scan (.blockComment star) body = (body.map .verbatim, .blockComment last) := by
  -- A star that has been read is put back in front of what is still to be read.
  induction body generalizing star with
  | nil => exact ⟨star, rfl⟩
  | cons c body ih =>
    have hopen : ¬ (star = true ∧ c = '/') := by
      rintro ⟨rfl, rfl⟩
      exact h ⟨[], body, rfl⟩
    have hbehind : (if decide (c = '*') then ['*'] else []) ++ body <:+ c :: body := by
      by_cases hc : c = '*'
      · simp [hc]
      · simp [hc]
    have hnext : ¬ ['*', '/'] <:+: (if decide (c = '*') then ['*'] else []) ++ body :=
      fun hoccurs => h (hoccurs.trans (hbehind.trans (List.suffix_append _ _)).isInfix)
    obtain ⟨last, hlast⟩ := ih _ hnext
    refine ⟨last, ?_⟩
    rw [scan, step, if_neg hopen, hlast]
    rfl

/-- The text of a run stays as it is up to the sign that ends it. -/
theorem scan_body (run : Run) {body : List Char} (h : ¬ run.ending <:+: body) :
    ∃ place, run.Within place ∧ scan run.start body = (body.map .verbatim, place) := by
  cases run with
  | quoted quote =>
    refine ⟨_, rfl, scan_of_stays fun c hc => ?_⟩
    have hne : c ≠ quote.char := by
      rintro rfl
      exact h ((List.singleton_infix_iff _ _).mpr hc)
    simp [Run.start, step, hne]
  | lineComment =>
    refine ⟨_, rfl, scan_of_stays fun c hc => ?_⟩
    have hne : c ≠ '\n' := by
      rintro rfl
      exact h ((List.singleton_infix_iff _ _).mpr hc)
    simp [Run.start, step, hne]
  | blockComment =>
    obtain ⟨last, hlast⟩ := scan_blockComment false h
    exact ⟨_, ⟨last, rfl⟩, hlast⟩

theorem scan_ending {run : Run} {place : Place} (within : run.Within place) :
    scan place run.ending = (run.ending.map .verbatim, .plain) := by
  cases run with
  | quoted quote =>
    obtain rfl := within
    simp [Run.start, Run.ending, scan, step]
  | lineComment =>
    obtain rfl := within
    rfl
  | blockComment =>
    obtain ⟨star, rfl⟩ := within
    simp [Run.ending, scan, step]

theorem flush_of_within {run : Run} {place : Place} (within : run.Within place) :
    flush place = [] := by
  cases run with
  | quoted quote => rw [show place = _ from within]; rfl
  | lineComment => rw [show place = _ from within]; rfl
  | blockComment =>
    obtain ⟨star, rfl⟩ := within
    rfl

theorem piecesFrom_enclosed (run : Run) {body : List Char} (h : ¬ run.ending <:+: body)
    {closed : Bool} (hclosed : closed = false → rest = []) :
    piecesFrom .plain ((Token.enclosed run body closed).text ++ rest) =
      (Token.enclosed run body closed).pieces ++ piecesFrom .plain rest := by
  obtain ⟨place, within, hbody⟩ := scan_body run h
  have hstart : scan .plain (run.opening ++ body) =
      ((run.opening ++ body).map .verbatim, place) := by
    rw [scan_append, scan_opening, hbody, List.map_append]
  cases closed with
  | true =>
    have hrests : Rests (run.opening ++ body ++ run.ending)
        ((run.opening ++ body ++ run.ending).map .verbatim) := by
      rw [Rests, scan_append, hstart, scan_ending within, ← List.map_append]
    simpa [Token.text, Token.pieces] using hrests.piecesFrom_append rest
  | false =>
    obtain rfl := hclosed rfl
    have hends : piecesFrom .plain (run.opening ++ body) = (run.opening ++ body).map .verbatim := by
      rw [piecesFrom, hstart, flush_of_within within, List.append_nil]
    simpa [Token.text, Token.pieces, piecesFrom, scan, flush] using hends

/-- What is read of a character that starts no run: itself, perhaps after the next one. -/
theorem stepPlain_of_not_quote {c : Char} (h : isQuote c = false) :
    (stepPlain c).1 ++ flush (stepPlain c).2 = [.verbatim c] := by
  by_cases hcolon : c = ':'
  · subst hcolon
    rfl
  · simp only [stepPlain, hcolon, behind, h, Bool.false_eq_true, if_false]
    split_ifs <;> rfl

theorem IsPlain.not_isQuote {c : Char} (h : IsPlain (c :: rest)) : isQuote c = false := by
  rw [Bool.eq_false_iff]
  intro hc
  obtain ⟨quote, rfl⟩ := exists_quote hc
  exact h.run (.quoted quote) ⟨rest, rfl⟩

/-- A character that starts no token of several characters is not gone on with. -/
theorem not_continues_of_isPlain {c d : Char} (h : IsPlain (c :: d :: rest)) :
    ¬ (stepPlain c).2.Continues d := by
  by_cases hcolon : c = ':'
  · subst hcolon
    rintro (rfl | hstart)
    · exact h.cast ⟨rest, rfl⟩
    · exact h.placeholder d hstart ⟨rest, rfl⟩
  by_cases hhyphen : c = '-'
  · subst hhyphen
    rintro rfl
    exact h.run .lineComment ⟨rest, rfl⟩
  by_cases hslash : c = '/'
  · subst hslash
    rintro rfl
    exact h.run .blockComment ⟨rest, rfl⟩
  · simp [stepPlain, behind, hcolon, hhyphen, hslash, h.not_isQuote, Place.Continues]

theorem piecesFrom_other {c : Char} (h : IsPlain (c :: rest)) :
    piecesFrom .plain (c :: rest) = .verbatim c :: piecesFrom .plain rest := by
  have hnext : ∀ d ∈ rest.head?, ¬ (stepPlain c).2.Continues d := by
    intro d hd
    cases rest with
    | nil => cases hd
    | cons e rest =>
      cases hd
      exact not_continues_of_isPlain h
  have hread : piecesFrom .plain ([c] ++ rest) =
      (stepPlain c).1 ++ piecesFrom (stepPlain c).2 rest := by
    rw [piecesFrom_append_scan, scan, step, scan, List.append_nil]
  rw [show c :: rest = [c] ++ rest from rfl, hread, piecesFrom_of_not_continues hnext,
    ← List.append_assoc, stepPlain_of_not_quote h.not_isQuote]
  rfl

/-- The pieces of a text are those of the token at its start, and those of the rest. -/
theorem piecesFrom_of_leads (leads : token.Leads rest) :
    piecesFrom .plain (token.text ++ rest) = token.pieces ++ piecesFrom .plain rest := by
  cases token with
  | enclosed run body closed => exact piecesFrom_enclosed run leads.1 leads.2
  | cast =>
    have hrests : Rests [':', ':'] [.verbatim ':', .verbatim ':'] := rfl
    exact hrests.piecesFrom_append rest
  | placeholder name =>
    have hname : Token.text (.placeholder name) = ':' :: name.toList := rfl
    rw [hname, piecesFrom_append_scan, scan_placeholder leads.1,
      piecesFrom_of_not_continues (fun c hc => by simp [Place.Continues, leads.2 c hc])]
    simp [flush, Template.placeholder, Token.pieces]
  | other c => exact piecesFrom_other leads

/-- **The pieces of a text are those of its tokens.** -/
theorem pieces_of_splits {text : List Char} {tokens : List Token} (h : Splits text tokens) :
    piecesFrom .plain text = tokens.flatMap Token.pieces := by
  induction h with
  | nil => rfl
  | cons text_eq leads _ ih => rw [text_eq, piecesFrom_of_leads leads, ih, List.flatMap_cons]

/-- Two of three colons are a cast, and a slash does not end the comment it starts. -/
example : pieces ":::a/*/:b" =
    verbatim "::" ++ [.slot "a"] ++ verbatim "/*/:b" := by
  decide

end Template

end FilterSql

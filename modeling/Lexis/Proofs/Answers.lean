import Lexis.Proofs.Restart

/-!
# The answers of a run

`Cursor.run` is two loops, one inside the other, and records a cursor with each answer.  Theorems
about whole runs want the answers, and want them from what has been read.  Here the run is followed
along `Reads`, which says what its turns have found.

* `Cursor.answers`, `Cursor.tokens` — what a run answers, and the tokens among the answers.
* `run_eq` — the equation of `Cursor.run`, without the proofs that it carries for its termination.
* `run_of_end`, `run_of_blank`, `run_of_nextToken` — one turn of it, at any cursor.
* **`Between.exists_run_of_reads`** — a run goes over what can be read, records its tokens, and
  continues behind it.
* `Between.run_of_nil`, `Between.run_of_breaks` — it stops at the end and at a start that breaks.
* `answers_of_reads`, `answers_of_breaks` — the two kinds of runs, from the front of a text on.
* `exists_answers` — there are no others.
* `answers_of_lex_eq_ok`, `exists_answers_of_lex_eq_error` — the same, by what `lex` answers.
-/

namespace Lexis

open CodeUnit

namespace Cursor

/-- What a run answers, in order. -/
def answers (c : Cursor) : List (Except Failure Token) := c.run.1.map Step.outcome

/-- The tokens that a run records. -/
def tokens (c : Cursor) : List Token := c.answers.filterMap Except.toOption

variable {c c' : Cursor} {base : Location} {pre mid rest start : Text} {tokens : List Token}
  {cause : Fault}

/-! ## One turn at a time -/

theorem run_eq (c : Cursor) :
    c.run =
      if c.skipWhitespace.reaches 0 then
        match c.skipWhitespace.nextToken with
        | (.ok token, c') => (⟨.ok token, c'⟩ :: c'.run.1, c'.run.2)
        | (.error failure, c') => ([⟨.error failure, c'⟩], c')
      else ([], c.skipWhitespace) := by
  rw [run]
  split
  · split <;> next h => rw [h]
  · rfl

/-- At the end of the text a run has nothing to answer. -/
lemma run_of_end (hend : c.reaches 0 = false) : c.run = ([], c) := by
  have hblank : (c.consume blank).1 = false := by
    rw [consume_blank, hend]
    rfl
  rw [run_eq, skipWhitespace_of_not_blank hblank, hend, if_neg Bool.false_ne_true]

/-- A unit of whitespace is skipped, and the run is that of the cursor behind it. -/
lemma run_of_blank (h : c.consume blank = (true, c')) : c.run = c'.setMark.run := by
  rw [run_eq c, run_eq c'.setMark, skipWhitespace_of_blank h]

/-- Where a token can be read at once, it is the first answer. -/
lemma run_of_nextToken {token : Token} (h : c.nextToken = (.ok token, c')) :
    c.run = (⟨.ok token, c'⟩ :: c'.run.1, c'.run.2) := by
  have hblank : (c.consume blank).1 = false := by
    rw [consume_blank, atWhitespace_of_nextToken h, Bool.and_false]
    rfl
  rw [run_eq, skipWhitespace_of_not_blank hblank, if_pos (reaches_of_nextToken h), h]

namespace Between

lemma run_of_whitespace {u : CodeUnit} (h : Between base pre (u :: rest) c)
    (hu : u.isWhitespace = true) :
    Between base (pre ++ [u]) rest c.advance.setMark ∧ c.run = c.advance.setMark.run := by
  have hfront : Between base pre ([u] ++ rest) c := h
  have hblank : c.consume blank = (true, c.advance) := by
    rw [consume_blank_of_ahead h.ahead_eq, if_pos hu]
  exact ⟨hfront.advanceBy, run_of_blank hblank⟩

/-- In front of anything else, the run asks for a token at once. -/
lemma run_of_not_whitespace {u : CodeUnit} (h : Between base pre (u :: rest) c)
    (hu : u.isWhitespace = false) :
    c.run =
      match c.nextToken with
      | (.ok token, c') => (⟨.ok token, c'⟩ :: c'.run.1, c'.run.2)
      | (.error failure, c') => ([⟨.error failure, c'⟩], c') := by
  have hskip : c.skipWhitespace = c := by
    apply skipWhitespace_of_not_blank
    simp [consume_blank_of_ahead h.ahead_eq, hu]
  rw [run_eq, hskip, if_pos (reaches_zero_of_ahead h.ahead_eq)]

lemma run_of_lexeme {kind : TokenKind} {l : Text} (h : Between base pre (l ++ rest) c)
    (hl : l ∈ kind.language) (hend : Ends kind l rest) :
    ∃ c', Between base (pre ++ l) rest c' ∧
      c.run = (⟨.ok ⟨kind, l, (base.after pre).offset⟩, c'⟩ :: c'.run.1, c'.run.2) :=
  ⟨_, h.advanceBy, run_of_nextToken (h.nextToken_of_lexeme hl hend)⟩

/-! ## Along what can be read -/

/-- **A run follows `Reads`.**  In front of what can be read it records the tokens of that, and from
there on it is the run of a cursor between turns. -/
theorem exists_run_of_reads (h : Between base pre (mid ++ rest) c)
    (hreads : Reads (base.after pre) mid rest tokens) :
    ∃ steps c', Between base (pre ++ mid) rest c' ∧
      steps.map Step.outcome = tokens.map .ok ∧ c.run = (steps ++ c'.run.1, c'.run.2) := by
  generalize hloc : base.after pre = loc at hreads
  induction hreads generalizing c pre with
  | done loc rest => exact ⟨[], c, by rwa [List.append_nil], rfl, rfl⟩
  | @gap loc u mid rest tokens hu _ ih =>
      obtain ⟨hnext, hrun⟩ := h.run_of_whitespace hu
      have hloc' : base.after (pre ++ [u]) = loc.step u := by
        rw [Location.after_append, hloc, Location.after_cons, Location.after_nil]
      obtain ⟨steps, c', hbetween, houtcomes, hrest⟩ := ih hnext hloc'
      rw [List.append_assoc, List.singleton_append] at hbetween
      exact ⟨steps, c', hbetween, houtcomes, hrun.trans hrest⟩
  | @token loc kind l mid rest tokens hl hend _ ih =>
      rw [List.append_assoc] at h
      obtain ⟨c₁, hnext, hrun⟩ := h.run_of_lexeme hl hend
      have hloc' : base.after (pre ++ l) = loc.after l := by
        rw [Location.after_append, hloc]
      obtain ⟨steps, c', hbetween, houtcomes, hrest⟩ := ih hnext hloc'
      rw [List.append_assoc] at hbetween
      refine ⟨⟨.ok ⟨kind, l, loc.offset⟩, c₁⟩ :: steps, c', hbetween, ?_, ?_⟩
      · rw [List.map_cons, houtcomes, List.map_cons]
      · rw [hrun, hrest, hloc, List.cons_append]

lemma run_of_nil (h : Between base pre [] c) : c.run = ([], c) := by
  refine run_of_end ?_
  simp [reaches, h.index_eq, h.source_eq]

/-- At a start that breaks, the failure is the only answer, and the cursor stays where the reader
has stopped. -/
lemma run_of_breaks (h : Between base pre (start ++ rest) c)
    (hbreaks : Breaks start rest.head? cause) :
    c.run =
      ([⟨.error ⟨cause, start, base.after (pre ++ start)⟩, c.advanceBy start.length⟩],
        c.advanceBy start.length) := by
  have hfailure := h.nextToken_of_breaks hbreaks
  obtain ⟨u, t, rfl, hu⟩ := hbreaks.exists_cons
  have hfront : Between base pre (u :: (t ++ rest)) c := h
  rw [hfront.run_of_not_whitespace hu, hfailure]

end Between

/-! ## Runs from the front of a text -/

/-- What has been read stands first among the answers. -/
lemma exists_answers_of_reads (h : Reads base pre rest tokens) :
    ∃ c', Between base pre rest c' ∧
      (Cursor.start (pre ++ rest) base).answers = tokens.map .ok ++ c'.answers := by
  obtain ⟨steps, c', hbetween, houtcomes, hrun⟩ :=
    (between_start (pre ++ rest) base).exists_run_of_reads h
  refine ⟨c', hbetween, ?_⟩
  rw [answers, hrun, List.map_append, houtcomes, answers]

theorem answers_of_reads {t : Text} (h : Reads base t [] tokens) :
    (Cursor.start t base).answers = tokens.map .ok := by
  obtain ⟨c', hbetween, hanswers⟩ := exists_answers_of_reads h
  rw [List.append_nil] at hanswers
  rw [hanswers, answers, hbetween.run_of_nil, List.map_nil, List.append_nil]

theorem answers_of_breaks (h : Reads base pre (start ++ rest) tokens)
    (hbreaks : Breaks start rest.head? cause) :
    (Cursor.start (pre ++ (start ++ rest)) base).answers =
      tokens.map .ok ++ [.error ⟨cause, start, base.after (pre ++ start)⟩] := by
  obtain ⟨c', hbetween, hanswers⟩ := exists_answers_of_reads h
  rw [hanswers, answers, hbetween.run_of_breaks hbreaks, List.map_singleton]

/-- The answers of a run are tokens that have been read, and a failure may come last. -/
lemma exists_answers (base : Location) (t : Text) :
    ∃ pre rest tokens, ∃ failure? : Option Failure, t = pre ++ rest ∧ Reads base pre rest tokens ∧
      (Cursor.start t base).answers = tokens.map .ok ++ failure?.toList.map .error := by
  rcases exists_reads base t with ⟨tokens, h⟩ | ⟨pre, start, rest, tokens, cause, rfl, h, hbreaks⟩
  · refine ⟨t, [], tokens, none, (List.append_nil t).symm, h, ?_⟩
    rw [answers_of_reads h, Option.toList_none, List.map_nil, List.append_nil]
  · exact ⟨pre, start ++ rest, tokens, some _, rfl, h, answers_of_breaks h hbreaks⟩

/-! ## Runs and `lex` -/

theorem answers_of_lex_eq_ok {t : Text} (h : lex base t = .ok tokens) :
    (Cursor.start t base).answers = tokens.map .ok :=
  answers_of_reads (lex_eq_ok_iff.1 h)

theorem exists_answers_of_lex_eq_error {t : Text} {failure : Failure}
    (h : lex base t = .error failure) :
    ∃ tokens : List Token, (Cursor.start t base).answers = tokens.map .ok ++ [.error failure] := by
  obtain ⟨pre, start, rest, tokens, cause, rfl, hreads, hbreaks, rfl⟩ := lex_eq_error_iff.1 h
  exact ⟨tokens, answers_of_breaks hreads hbreaks⟩

end Cursor

end Lexis

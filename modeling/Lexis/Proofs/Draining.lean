import Lexis.Cursor.Drain
import Lexis.Proofs.Agreement

/-!
# Emptying a cursor

`Cursor.drain` is the loop that empties a cursor and keeps nothing of what it has if a token cannot be
read.  `lex` does the same without a cursor, and a run does it turn by turn and keeps everything.  Here
the three are the same computation.

**At any cursor.**  The loop answers the tokens of the run from there, or its failure, and leaves the
cursor where the run leaves it (`drain_eq`).  This needs nothing of the cursor, whose index and mark may
be anywhere.

**Between turns.**  The loop goes through the cursors of `Cursor.Turn`.  What it does at one of them is what
it does behind the turn, with the token of the turn in front (`Turn.exists_drain`, `drain_of_turns`), and
it takes turns up to a cursor at which it stops (`exists_stop_drain`).

**From the front of a text.**  The loop answers what `lex` answers (`drain_start`), so that what is said of
`lex` is said of it.
-/

namespace Lexis

namespace Cursor

variable {c c' : Cursor}

/-! ## All answers of a run as one -/

lemma map_nil_append (answer : Except Failure (List Token)) : answer.map ([] ++ ·) = answer :=
  congrFun Except.map_id answer

lemma map_append_append (first rest : List Token) (answer : Except Failure (List Token)) :
    answer.map (first ++ rest ++ ·) = (answer.map (rest ++ ·)).map (first ++ ·) := by
  cases answer with
  | ok tokens => exact congrArg Except.ok (List.append_assoc first rest tokens)
  | error failure => rfl

/-- Tokens in front of other answers are in front of what these come to. -/
lemma mapM_id_append (tokens : List Token) (answers : List (Except Failure Token)) :
    (tokens.map Except.ok ++ answers).mapM id = (answers.mapM id).map (tokens ++ ·) := by
  induction tokens with
  | nil => exact (map_nil_append (answers.mapM id)).symm
  | cons token tokens ih =>
      rw [List.map_cons, List.cons_append, List.mapM_cons, ih]
      cases answers.mapM id <;> rfl

/-- `lex` answers what the answers of a run come to. -/
lemma mapM_answers_start (base : Location) (t : Text) :
    (start t base).answers.mapM id = lex base t := by
  cases hlex : lex base t with
  | ok tokens =>
      have hgather := mapM_id_append tokens []
      rw [List.append_nil] at hgather
      rw [answers_of_lex_eq_ok hlex, hgather]
      exact congrArg Except.ok (List.append_nil tokens)
  | error failure =>
      obtain ⟨tokens, hanswers⟩ := exists_answers_of_lex_eq_error hlex
      rw [hanswers, mapM_id_append]
      rfl

/-! ## The loop and a run -/

/-- Skipping whitespace first makes no difference to a run. -/
lemma run_skipBlanks (c : Cursor) : c.skipBlanks.run = c.run := by
  rw [skipBlanks_eq]
  fun_induction skipWhitespace c with
  | case1 c c' hblank ih => rw [ih, ← run_of_blank hblank]
  | case2 => rfl

lemma answers_skipBlanks (c : Cursor) : c.skipBlanks.answers = c.answers := by
  rw [answers, run_skipBlanks, answers]

lemma mapM_answers_of_nextToken {token : Token} (h : c.nextToken = (.ok token, c')) :
    c.answers.mapM id = (c'.answers.mapM id).map (token :: ·) := by
  have hanswers : c.answers = [token].map Except.ok ++ c'.answers := by
    rw [answers, run_of_nextToken h]
    rfl
  rw [hanswers, mapM_id_append]
  rfl

/-- **The loop comes to what a run comes to**, wherever the cursor is. -/
theorem drain_eq (c : Cursor) : c.drain = (c.answers.mapM id, c.run.2) := by
  fun_induction drain c with
  | case1 c _ _ _ token c' htoken answer last hdrain ih =>
      have htoken : c.skipBlanks.nextToken = (.ok token, c') := htoken
      obtain ⟨rfl, rfl⟩ := Prod.mk.inj (hdrain.symm.trans ih)
      rw [← answers_skipBlanks c, ← run_skipBlanks c, mapM_answers_of_nextToken htoken,
        run_of_nextToken htoken]
  | case2 c _ _ hreach failure c' hfailure =>
      have hrun : c.run = ([⟨.error failure, c'⟩], c') := by
        rw [run_eq, ← skipBlanks_eq, if_pos hreach, hfailure]
      rw [answers, hrun]
      rfl
  | case3 c _ _ _ ih => rw [ih, answers_skipBlanks, run_skipBlanks]
  | case4 c hend =>
      rw [answers, run_of_end (by simpa using hend)]
      rfl

/-! ## Between turns -/

lemma drain_of_blank (h : c.consume blank = (true, c')) : c.drain = c'.setMark.drain := by
  rw [drain_eq, drain_eq, answers, answers, run_of_blank h]

lemma drain_of_nextToken {token : Token} (h : c.nextToken = (.ok token, c')) :
    c.drain = (c'.drain.1.map (token :: ·), c'.drain.2) := by
  rw [drain_eq, drain_eq, mapM_answers_of_nextToken h, run_of_nextToken h]

/-- A turn leaves what there is to drain, except for the token that it reads. -/
lemma Turn.exists_drain (h : Turn c c') :
    ∃ tokens : List Token, c.drain = (c'.drain.1.map (tokens ++ ·), c'.drain.2) := by
  cases h with
  | skip hblank =>
      refine ⟨[], (drain_of_blank hblank).trans ?_⟩
      rw [map_nil_append]
  | token htoken => exact ⟨[_], drain_of_nextToken htoken⟩

/-- **Turns leave what there is to drain**, except for the tokens that they read. -/
theorem drain_of_turns (h : Relation.ReflTransGen Turn c c') :
    ∃ tokens : List Token, c.drain = (c'.drain.1.map (tokens ++ ·), c'.drain.2) := by
  induction h using Relation.ReflTransGen.head_induction_on with
  | refl => exact ⟨[], by rw [map_nil_append]⟩
  | head hturn _ ih =>
      obtain ⟨first, hfirst⟩ := hturn.exists_drain
      obtain ⟨rest, hrest⟩ := ih
      exact ⟨first ++ rest, by rw [hfirst, hrest, map_append_append]⟩

/-- **The loop takes turns** up to a cursor at which it stops, since nothing is left there or since
reading a token fails. -/
theorem exists_stop_drain (c : Cursor) :
    ∃ d, Relation.ReflTransGen Turn c d ∧
      ((d.reaches 0 = false ∧ ∃ tokens, c.drain = (.ok tokens, d)) ∨
        ∃ failure c', d.nextToken = (.error failure, c') ∧ c.drain = (.error failure, c')) := by
  have hskip (c : Cursor) : Relation.ReflTransGen Turn c c.skipBlanks := by
    rw [skipBlanks_eq]
    exact turns_skipWhitespace c
  fun_induction drain c with
  | case1 c _ _ _ token c' htoken answer last hdrain ih =>
      obtain ⟨d, hturns, hstop⟩ := ih
      refine ⟨d, ((hskip c).tail (Turn.token htoken)).trans hturns, ?_⟩
      rw [hdrain] at hstop
      rcases hstop with ⟨hend, tokens, heq⟩ | ⟨failure, c'', hfailure, heq⟩
      · cases heq
        exact Or.inl ⟨hend, token :: tokens, rfl⟩
      · cases heq
        exact Or.inr ⟨failure, last, hfailure, rfl⟩
  | case2 c _ _ _ failure c' hfailure =>
      exact ⟨c.skipBlanks, hskip c, Or.inr ⟨failure, c', hfailure, rfl⟩⟩
  | case3 c _ _ _ ih =>
      obtain ⟨d, hturns, hstop⟩ := ih
      exact ⟨d, (hskip c).trans hturns, hstop⟩
  | case4 c hend =>
      exact ⟨c, Relation.ReflTransGen.refl, Or.inl ⟨by simpa using hend, _, rfl⟩⟩

/-! ## From the front of a text -/

/-- A failure stands where reading has left the cursor. -/
lemma eq_failure_of_nextToken {failure : Failure} (h : c.nextToken = (.error failure, c')) :
    failure = c'.failure failure.fault := by
  rw [nextToken] at h
  split_ifs at h
  · cases h
    rfl
  · cases h
    rfl
  · rw [read] at h
    split at h
    · cases h
    · cases h
      rfl

/-- **The loop answers what `lex` answers.**  If the text lexes, the loop ends at the end of the text
with nothing pending.  If it fails, the loop leaves the cursor where the failure is. -/
theorem drain_start (base : Location) (t : Text) :
    (start t base).drain.1 = lex base t ∧
    (∀ tokens, lex base t = .ok tokens →
      (start t base).drain.2.index = t.length ∧ (start t base).drain.2.mark = t.length) ∧
    ∀ failure, lex base t = .error failure →
      failure = (start t base).drain.2.failure failure.fault := by
  have hlex : (start t base).drain.1 = lex base t := by
    rw [drain_eq]
    exact mapM_answers_start base t
  refine ⟨hlex, ?_, ?_⟩
  · intro tokens htokens
    rw [drain_eq]
    exact run_of_reads (lex_eq_ok_iff.1 htokens)
  · intro failure hfailure
    obtain ⟨d, -, ⟨-, tokens, hdrain⟩ | ⟨failure', c', hnext, hdrain⟩⟩ :=
      exists_stop_drain (start t base)
    · rw [hdrain, hfailure] at hlex
      cases hlex
    · rw [hdrain, hfailure] at hlex
      cases hlex
      rw [hdrain]
      exact eq_failure_of_nextToken hnext

end Cursor

end Lexis

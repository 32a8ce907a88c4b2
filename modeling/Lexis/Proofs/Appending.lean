import Lexis.Diagnostic
import Lexis.Proofs.Answers

/-!
# Appending text

A caller may have only the front of a text.  What a run on the front answers is in part what it
answers on the whole: a token that ends before the front does, and a failure before its end, are
settled, whatever is appended.  The last unit of the front is left out because a reader looks at the
unit behind a token, and at no other.

* `Reads.exists_cut` — what has been read can be cut behind each of its tokens.
* `answers_append_of_token`, `answers_append_of_failure` — the two kinds of answers.
* **`answers_append`** — both, for all texts.
-/

namespace Lexis

open CodeUnit

/-- Behind each of its tokens, what has been read can be cut. -/
lemma Reads.exists_cut {loc : Location} {pre rest : Text} {tokens : List Token}
    (h : Reads loc pre rest tokens) {i : Nat} {token : Token} (htoken : tokens[i]? = some token) :
    ∃ front back, pre = front ++ back ∧ Reads loc front (back ++ rest) (tokens.take (i + 1)) ∧
      token.offset + token.lexeme.length = loc.offset + front.length := by
  induction h generalizing i with
  | done loc rest => cases htoken
  | @gap loc u pre rest tokens hu _ ih =>
      obtain ⟨front, back, rfl, hfront, hend⟩ := ih htoken
      refine ⟨u :: front, back, rfl, Reads.gap hu hfront, ?_⟩
      rw [hend, Location.offset_step, List.length_cons]
      omega
  | @token loc kind l pre rest tokens hl hend _ ih =>
      cases i with
      | zero =>
          obtain rfl := Option.some.inj htoken
          exact ⟨l, pre, rfl, Reads.lexeme hl hend loc, rfl⟩
      | succ i =>
          obtain ⟨front, back, rfl, hfront, hoffset⟩ := ih htoken
          rw [List.append_assoc] at hend
          refine ⟨l ++ front, back, (List.append_assoc ..).symm, Reads.token hl hend hfront, ?_⟩
          rw [hoffset, Location.offset_after, List.length_append]
          omega

namespace Cursor

variable {base : Location} {u : Text}

/-- A token that ends before `u` does is settled. -/
lemma answers_append_of_token (v : Text) {i : Nat} {token : Token}
    (htoken : (Cursor.start u base).answers[i]? = some (.ok token))
    (hend : token.offset + token.lexeme.length < base.offset + u.length) :
    (Cursor.start (u ++ v) base).answers[i]? = some (.ok token) := by
  obtain ⟨pre, rest, tokens, failure?, rfl, hreads, hanswers⟩ := exists_answers base u
  have hi : tokens[i]? = some token := by
    rw [hanswers, List.getElem?_append, List.length_map] at htoken
    split_ifs at htoken
    · simpa using htoken
    · simp at htoken
  obtain ⟨front, back, rfl, hfront, hoffset⟩ := hreads.exists_cut hi
  -- something stands behind the token, and it is not the end of `u` that the reader saw
  have hne : back ++ rest ≠ [] := by
    intro hnil
    rw [List.append_assoc, hnil, hoffset, List.append_nil] at hend
    omega
  obtain ⟨w, t, hbehind⟩ := List.exists_cons_of_ne_nil hne
  rw [hbehind] at hfront
  have hsettled : Reads base front (w :: t ++ v) (tokens.take (i + 1)) := hfront.congr_head rfl
  obtain ⟨c', -, hanswers'⟩ := exists_answers_of_reads hsettled
  have hlt : i < (tokens.take (i + 1)).length := by
    have hlength := (List.getElem?_eq_some_iff.1 hi).1
    rw [List.length_take]
    omega
  rw [List.append_assoc front, hbehind, List.append_assoc, hanswers',
    List.getElem?_append_left (by rwa [List.length_map]), List.getElem?_map,
    List.getElem?_take_of_lt (Nat.lt_succ_self i), hi, Option.map_some]

/-- A failure before the end of `u` is settled, and so is everything before it. -/
lemma answers_append_of_failure (v : Text) {failure : Failure}
    (hfailure : .error failure ∈ (Cursor.start u base).answers)
    (hoffset : failure.location.offset < base.offset + u.length) :
    (Cursor.start (u ++ v) base).answers = (Cursor.start u base).answers := by
  rcases exists_reads base u with ⟨tokens, h⟩ | ⟨pre, start, rest, tokens, cause, rfl, h, hbreaks⟩
  · rw [answers_of_reads h] at hfailure
    simp at hfailure
  · rw [answers_of_breaks h hbreaks] at hfailure ⊢
    obtain rfl : failure = ⟨cause, start, base.after (pre ++ start)⟩ := by simpa using hfailure
    have hne : rest ≠ [] := by
      rintro rfl
      simp [Location.offset_after] at hoffset
    obtain ⟨w, rest, rfl⟩ := List.exists_cons_of_ne_nil hne
    obtain ⟨w', t, rfl, -⟩ := hbreaks.exists_cons
    have hreads : Reads base pre (w' :: t ++ (w :: rest ++ v)) tokens := h.congr_head rfl
    rw [List.append_assoc, List.append_assoc]
    exact answers_of_breaks hreads hbreaks

/-- **Appending text leaves alone what is settled.**  A run on `u` answers tokens, and then perhaps one
failure.  A token that ends before `u` does is answered in the same place by the run on `u ++ v`.  If
the run on `u` fails before the end of `u`, then the run on `u ++ v` has the same answers: the same
tokens, and then the same failure with the same diagnostic. -/
theorem answers_append (base : Location) (u v : Text) :
    (∃ (tokens : List Token) (failure? : Option Failure),
      (Cursor.start u base).answers = tokens.map .ok ++ failure?.toList.map .error) ∧
    (∀ (i : Nat) (token : Token), (Cursor.start u base).answers[i]? = some (.ok token) →
      token.offset - base.offset + token.lexeme.length < u.length →
        (Cursor.start (u ++ v) base).answers[i]? = some (.ok token)) ∧
    ∀ failure : Failure, .error failure ∈ (Cursor.start u base).answers →
      failure.diagnostic.offset - base.offset < u.length →
        (Cursor.start (u ++ v) base).answers = (Cursor.start u base).answers := by
  refine ⟨?_, ?_, ?_⟩
  · obtain ⟨_, _, tokens, failure?, -, -, hanswers⟩ := exists_answers base u
    exact ⟨tokens, failure?, hanswers⟩
  · intro i token htoken hend
    exact answers_append_of_token v htoken (by omega)
  · intro failure hfailure hoffset
    have hlocation : failure.diagnostic.offset = failure.location.offset :=
      failure.offset_diagnostic
    exact answers_append_of_failure v hfailure (by omega)

/-- A `5` is appended to a name and a number.  Behind `a 1` it goes on with the number, but the name is
settled.  Behind `a 1.x` the failure at `x` is settled too. -/
theorem answers_append_digit :
    (Cursor.start ([lowerA, space, 0x31] ++ [0x35]) Location.start).answers[0]? =
        some (.ok ⟨.identifier, [lowerA], 0⟩) ∧
      .error ⟨.missingFraction, [0x31, dot], ⟨1, 5, 4⟩⟩ ∈
        (Cursor.start ([lowerA, space, 0x31, dot, 0x78] ++ [0x35]) Location.start).answers := by
  have hopen : lex Location.start [lowerA, space, 0x31] =
      .ok [⟨.identifier, [lowerA], 0⟩, ⟨.integer, [0x31], 2⟩] := by cbv
  have hbroken : lex Location.start [lowerA, space, 0x31, dot, 0x78] =
      .error ⟨.missingFraction, [0x31, dot], ⟨1, 5, 4⟩⟩ := by cbv
  constructor
  · refine (answers_append Location.start _ [0x35]).2.1 0 _ ?_ (by decide)
    rw [answers_of_lex_eq_ok hopen]
    rfl
  · obtain ⟨tokens, hanswers⟩ := exists_answers_of_lex_eq_error hbroken
    have hfailure : .error ⟨.missingFraction, [0x31, dot], ⟨1, 5, 4⟩⟩ ∈
        (Cursor.start [lowerA, space, 0x31, dot, 0x78] Location.start).answers := by
      simp [hanswers]
    rwa [(answers_append Location.start _ [0x35]).2.2 _ hfailure (by decide)]

end Cursor

end Lexis

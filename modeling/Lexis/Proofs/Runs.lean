import Lexis.Lexer
import Lexis.Proofs.Boundary

/-!
# Runs of the lexer

`lex` gives its answer for a whole text.  Statements about parts of a text need to say what it had
read before it came to some point, and that is a relation: `Reads loc pre rest tokens` says that in
front of `rest` the text `pre` is whitespace and lexemes, each lexeme ending where it should.

* `Reads` — what has been read in front of a rest.
* **`Reads.lex_append`** — from there on `lex` continues as if it started at the rest.
* **`exists_reads`** — every text is read to its end, or up to a start that breaks.
* **`lex_eq_ok_iff`**, **`lex_eq_error_iff`** — hence what `lex` answers, without running it.
* `Reads.of_ends` — the rest may be exchanged, as long as the last lexeme still ends.
-/

namespace Lexis

/-- In front of `rest`, and beginning at `loc`, the text `pre` consists of whitespace and of lexemes
with these tokens, and no lexeme is continued by what stands behind it. -/
inductive Reads : Location → Text → Text → List Token → Prop
  | done (loc : Location) (rest : Text) : Reads loc [] rest []
  | gap {loc : Location} {u : CodeUnit} {pre rest : Text} {tokens : List Token}
      (hu : u.isWhitespace = true) (h : Reads (loc.step u) pre rest tokens) :
      Reads loc (u :: pre) rest tokens
  | token {loc : Location} {kind : TokenKind} {l pre rest : Text} {tokens : List Token}
      (hl : l ∈ kind.language) (hend : Ends kind l (pre ++ rest))
      (h : Reads (loc.after l) pre rest tokens) :
      Reads loc (l ++ pre) rest (⟨kind, l, loc.offset⟩ :: tokens)

/-! ## One step -/

lemma lex_append_lexeme {kind : TokenKind} {l rest : Text} (hl : l ∈ kind.language)
    (hend : Ends kind l rest) (loc : Location) :
    lex loc (l ++ rest) = (lex (loc.after l) rest).map (⟨kind, l, loc.offset⟩ :: ·) := by
  have hscan := scan_of_mem_language hl hend
  obtain ⟨u, t, rfl, hu⟩ := exists_cons_of_mem_language hl
  rw [List.cons_append] at hscan ⊢
  rw [lex_token hu hscan, ← List.cons_append, List.take_left, List.drop_left]

lemma lex_of_breaks {cause : Fault} {start rest : Text} (h : Breaks start rest.head? cause)
    (loc : Location) :
    lex loc (start ++ rest) = .error ⟨cause, start, loc.after start⟩ := by
  have hscan := scan_of_breaks h
  obtain ⟨u, t, rfl, hu⟩ := h.exists_cons
  rw [List.cons_append] at hscan ⊢
  rw [lex_fault hu hscan, ← List.cons_append, List.take_left]

/-! ## Whole runs -/

/-- **What has been read is settled.**  The answer for the whole is what has been read, followed by
the answer for the rest. -/
theorem Reads.lex_append {loc : Location} {pre rest : Text} {tokens : List Token}
    (h : Reads loc pre rest tokens) :
    lex loc (pre ++ rest) = (lex (loc.after pre) rest).map (tokens ++ ·) := by
  induction h with
  | done loc rest =>
      rw [List.nil_append, Location.after_nil]
      cases lex loc rest <;> rfl
  | gap hu _ ih => rw [List.cons_append, lex_whitespace hu, ih, Location.after_cons]
  | token hl hend _ ih =>
      rw [List.append_assoc, lex_append_lexeme hl hend, ih, Location.after_append]
      cases lex _ _ <;> rfl

theorem Reads.lex_eq_ok {loc : Location} {t : Text} {tokens : List Token}
    (h : Reads loc t [] tokens) : lex loc t = .ok tokens := by
  have hlex := h.lex_append
  rw [List.append_nil, lex_nil] at hlex
  rw [hlex, Except.map, List.append_nil]

theorem Reads.lex_eq_error {loc : Location} {pre start rest : Text} {tokens : List Token}
    {cause : Fault} (h : Reads loc pre (start ++ rest) tokens)
    (hbreaks : Breaks start rest.head? cause) :
    lex loc (pre ++ (start ++ rest)) = .error ⟨cause, start, loc.after (pre ++ start)⟩ := by
  rw [h.lex_append, lex_of_breaks hbreaks, Location.after_append]
  rfl

/-- **Nothing is in between.**  Every text is read to its end, or up to a start that breaks. -/
theorem exists_reads (loc : Location) (t : Text) :
    (∃ tokens, Reads loc t [] tokens) ∨
      ∃ pre start rest tokens cause, t = pre ++ (start ++ rest) ∧
        Reads loc pre (start ++ rest) tokens ∧ Breaks start rest.head? cause := by
  -- on the length, since a turn takes a whole lexeme off
  induction hlength : t.length using Nat.strong_induction_on generalizing loc t with
  | _ n ih =>
      subst hlength
      cases t with
      | nil => exact Or.inl ⟨[], Reads.done loc []⟩
      | cons u t =>
          cases hu : u.isWhitespace with
          | true =>
              rcases ih t.length (Nat.lt_succ_self _) (loc.step u) t rfl with
                ⟨tokens, h⟩ | ⟨pre, start, rest, tokens, cause, rfl, h, hbreaks⟩
              · exact Or.inl ⟨tokens, Reads.gap hu h⟩
              · exact Or.inr ⟨u :: pre, start, rest, tokens, cause, rfl, Reads.gap hu h, hbreaks⟩
          | false =>
              have hfinds := finds_scan_dispatch hu t
              cases hscan : (Reader.dispatch (u :: t)).scan (u :: t) with
              | token kind n =>
                  rw [hscan] at hfinds
                  obtain ⟨l, behind, heq, -, hl, hend⟩ := finds_token_iff.1 hfinds
                  have hlt : behind.length < (u :: t).length := by
                    have hpos := List.length_pos_iff.2 (ne_nil_of_mem_language hl)
                    rw [heq, List.length_append]
                    omega
                  rw [heq]
                  rcases ih behind.length hlt (loc.after l) behind rfl with
                    ⟨tokens, h⟩ | ⟨pre, start, rest, tokens, cause, rfl, h, hbreaks⟩
                  · exact Or.inl ⟨_, Reads.token hl (by rwa [List.append_nil]) h⟩
                  · exact Or.inr ⟨l ++ pre, start, rest, _, cause, by rw [List.append_assoc],
                      Reads.token hl hend h, hbreaks⟩
              | fault cause n =>
                  rw [hscan] at hfinds
                  obtain ⟨start, rest, heq, -, hbreaks⟩ := finds_fault_iff.1 hfinds
                  exact Or.inr ⟨[], start, rest, [], cause, heq, Reads.done loc _, hbreaks⟩

/-- A text lexes exactly if it is read to its end. -/
theorem lex_eq_ok_iff {loc : Location} {t : Text} {tokens : List Token} :
    lex loc t = .ok tokens ↔ Reads loc t [] tokens := by
  constructor
  · intro h
    rcases exists_reads loc t with
      ⟨tokens', hreads⟩ | ⟨pre, start, rest, _, cause, rfl, hreads, hbreaks⟩
    · rw [hreads.lex_eq_ok] at h
      rwa [← Except.ok.inj h]
    · rw [hreads.lex_eq_error hbreaks] at h
      cases h
  · exact Reads.lex_eq_ok

/-- A text fails exactly if it is read up to a start that breaks. -/
theorem lex_eq_error_iff {loc : Location} {t : Text} {failure : Failure} :
    lex loc t = .error failure ↔
      ∃ pre start rest tokens cause, t = pre ++ (start ++ rest) ∧
        Reads loc pre (start ++ rest) tokens ∧ Breaks start rest.head? cause ∧
          failure = ⟨cause, start, loc.after (pre ++ start)⟩ := by
  constructor
  · intro h
    rcases exists_reads loc t with
      ⟨tokens, hreads⟩ | ⟨pre, start, rest, tokens, cause, rfl, hreads, hbreaks⟩
    · rw [hreads.lex_eq_ok] at h
      cases h
    · rw [hreads.lex_eq_error hbreaks] at h
      exact ⟨pre, start, rest, tokens, cause, rfl, hreads, hbreaks, (Except.error.inj h).symm⟩
  · rintro ⟨pre, start, rest, tokens, cause, rfl, hreads, hbreaks, rfl⟩
    exact hreads.lex_eq_error hbreaks

/-! ## Joining runs and exchanging what follows -/

lemma Reads.gaps {loc : Location} {gap pre rest : Text} {tokens : List Token}
    (h : Reads (loc.after gap) pre rest tokens) (hgap : ∀ u ∈ gap, u.isWhitespace = true) :
    Reads loc (gap ++ pre) rest tokens := by
  induction gap generalizing loc with
  | nil => exact h
  | cons u gap ih =>
      obtain ⟨hu, hgap⟩ := List.forall_mem_cons.1 hgap
      exact Reads.gap hu (ih h hgap)

lemma Reads.lexeme {kind : TokenKind} {l rest : Text} (hl : l ∈ kind.language)
    (hend : Ends kind l rest) (loc : Location) :
    Reads loc l rest [⟨kind, l, loc.offset⟩] := by
  have htoken : Reads loc (l ++ []) rest [⟨kind, l, loc.offset⟩] :=
    Reads.token hl hend (Reads.done (loc.after l) rest)
  rwa [List.append_nil] at htoken

theorem Reads.trans {loc : Location} {pre mid rest : Text} {tokens tokens' : List Token}
    (h : Reads loc pre (mid ++ rest) tokens) (h' : Reads (loc.after pre) mid rest tokens') :
    Reads loc (pre ++ mid) rest (tokens ++ tokens') := by
  generalize hbehind : mid ++ rest = behind at h
  induction h with
  | done loc _ => exact h'
  | gap hu _ ih => exact Reads.gap hu (ih h' hbehind)
  | @token loc kind l pre _ tokens hl hend _ ih =>
      subst hbehind
      rw [Location.after_append] at h'
      rw [List.append_assoc, List.cons_append]
      exact Reads.token hl (by rwa [List.append_assoc]) (ih h' rfl)

lemma Ends.congr_head {kind : TokenKind} {l rest rest' : Text} (h : Ends kind l rest)
    (hhead : rest'.head? = rest.head?) : Ends kind l rest' := by
  rwa [Ends, hhead]

/-- Behind what has been read, the rest may be exchanged for any other in front of which the last
lexeme still ends. -/
theorem Reads.of_ends {loc : Location} {pre rest rest' : Text} {tokens : List Token}
    (h : Reads loc pre rest tokens)
    (hends : ∀ (kind : TokenKind) (l : Text), l ∈ kind.language → l <:+ pre → Ends kind l rest →
      Ends kind l rest') : Reads loc pre rest' tokens := by
  induction h with
  | done loc _ => exact Reads.done loc rest'
  | gap hu _ ih =>
      refine Reads.gap hu (ih ?_)
      intro kind l hl hsuffix
      exact hends kind l hl (hsuffix.trans (List.suffix_cons _ _))
  | @token loc kind l pre rest tokens hl hend _ ih =>
      refine Reads.token hl ?_ (ih ?_)
      · -- only the last lexeme borders on the rest
        cases pre with
        | nil => exact hends kind l hl (by rw [List.append_nil]) hend
        | cons u pre => exact hend.congr_head rfl
      · intro kind l' hl' hsuffix
        exact hends kind l' hl' (hsuffix.trans (List.suffix_append l pre))

/-- A rest that begins with the same unit will do. -/
theorem Reads.congr_head {loc : Location} {pre rest rest' : Text} {tokens : List Token}
    (h : Reads loc pre rest tokens) (hhead : rest'.head? = rest.head?) :
    Reads loc pre rest' tokens := by
  refine h.of_ends ?_
  intro kind l _ _ hend
  exact hend.congr_head hhead

end Lexis

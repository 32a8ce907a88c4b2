import Lexis.Proofs.Lines
import Lexis.Proofs.Munch
import Lexis.Proofs.Runs
import Lexis.Run
import Mathlib.Logic.Relation

/-!
# Cutting a text and lexing on

A text may be cut wherever a run has come between two turns of its loops.  What stands before the
cut lexes on its own, and what stands behind it lexes on its own when it is told where it begins.
Texts may be joined again where whitespace keeps the lexemes at the seam apart.

* `Cursor.Turn` — one turn of the loops of a run: a unit of whitespace or a token.
* `Cursor.turns_run` — these are the turns that `Cursor.run` takes.  Those of `Cursor.drain` are the same
  (`Lexis.Proofs.Draining`).
* `Cursor.Between` — the invariant of the cursor between two turns.
* **`Cursor.Between.turn`**, **`Cursor.exists_between`** — a turn keeps it, and so does a run.
* `Cursor.Between.exists_turns_of_reads` — conversely, what can be read is crossed by turns.
* `Separated` — two texts whose seam is at whitespace or at an end.
* **`Cursor.lex_split_join`** — lexing from a cut on, and across a seam.

Three runs on three texts are compared: on the whole, on what is in front of the cut, and on what is
behind it.  `Reads` describes the first at the cut.  The other two follow from it, because a lexeme
may always end at the end of a text and the rest is read as if it stood alone.
-/

namespace Lexis

open CodeUnit

/-! ## In front of a cut -/

/-- What has been read stands alone. -/
lemma Reads.truncate {base : Location} {pre rest : Text} {tokens : List Token}
    (h : Reads base pre rest tokens) : Reads base pre [] tokens := by
  refine h.of_ends ?_
  intro kind l _ _ _
  exact ends_nil kind l

/-! ## Across a seam -/

/-- One of the texts is empty, or there is whitespace on one side of the seam. -/
def Separated (u v : Text) : Prop :=
  u = [] ∨ v = [] ∨ (∃ w ∈ u.getLast?, w.isWhitespace = true) ∨
    ∃ w ∈ v.head?, w.isWhitespace = true

/-- No lexeme reaches across a seam. -/
lemma Separated.ends {u v : Text} (h : Separated u v) {kind : TokenKind} {l : Text}
    (hl : l ∈ kind.language) (hsuffix : l <:+ u) : Ends kind l v := by
  have hne := ne_nil_of_mem_language hl
  rcases h with rfl | rfl | ⟨w, hw, hblank⟩ | ⟨w, hw, hblank⟩
  · exact absurd (List.suffix_nil.1 hsuffix) hne
  · exact ends_nil kind l
  · -- the last unit of `u` would be the last one of a lexeme
    obtain ⟨front, rfl⟩ := hsuffix
    rw [List.getLast?_append_of_ne_nil front hne] at hw
    rw [isWhitespace_getLast hl w hw] at hblank
    exact Bool.noConfusion hblank
  · obtain ⟨t, rfl⟩ := List.head?_eq_some_iff.1 hw
    exact ends_of_isWhitespace hblank kind l t

lemma Reads.extend {base : Location} {u v : Text} {tokens : List Token}
    (h : Reads base u [] tokens) (hseam : Separated u v) : Reads base u v tokens := by
  refine h.of_ends ?_
  intro kind l hl hsuffix _
  exact hseam.ends hl hsuffix

namespace Cursor

variable {c c' : Cursor}

/-! ## Turns of a run -/

/-- One turn of the loops of a run: past a unit of whitespace, which is dropped, or past a token. -/
inductive Turn : Cursor → Cursor → Prop
  | skip {c c' : Cursor} (h : c.consume blank = (true, c')) : Turn c c'.setMark
  | token {c c' : Cursor} {token : Token} (h : c.nextToken = (.ok token, c')) : Turn c c'

lemma turns_skipWhitespace (c : Cursor) : Relation.ReflTransGen Turn c c.skipWhitespace := by
  fun_induction skipWhitespace c with
  | case1 c c' h ih => exact Relation.ReflTransGen.head (Turn.skip h) ih
  | case2 c c' h => exact Relation.ReflTransGen.refl

/-- `run` takes such turns, as long as its answers are tokens. -/
theorem turns_run (c : Cursor) :
    ∀ step ∈ c.run.1, ∀ token, step.outcome = .ok token →
      Relation.ReflTransGen Turn c step.cursor := by
  fun_induction run c with
  | case1 c _ _ token c' htoken steps last hrun ih =>
      have hturns : Relation.ReflTransGen Turn c c' :=
        Relation.ReflTransGen.tail (turns_skipWhitespace c) (Turn.token htoken)
      rw [hrun] at ih
      intro step hstep token' houtcome
      rcases List.mem_cons.1 hstep with rfl | hstep
      · exact hturns
      · exact hturns.trans (ih step hstep token' houtcome)
  | case2 c _ _ failure c' hfailure =>
      intro step hstep token houtcome
      rw [List.mem_singleton.1 hstep] at houtcome
      cases houtcome
  | case3 c =>
      intro step hstep
      cases hstep

/-! ## Between turns -/

/-- Between two turns: what is before the cursor has been dealt with, and nothing is pending. -/
structure Between (base : Location) (pre rest : Text) (c : Cursor) : Prop where
  source_eq : c.source = pre ++ rest
  index_eq : c.index = pre.length
  mark_eq : c.mark = pre.length
  location_eq : c.location = base.after pre

lemma between_start (source : Text) (base : Location) :
    Between base [] source (Cursor.start source base) where
  source_eq := rfl
  index_eq := rfl
  mark_eq := rfl
  location_eq := by simp [location, start]

namespace Between

variable {base : Location} {pre rest : Text}

lemma settled (h : Between base pre rest c) : c.Settled where
  mark_eq := h.mark_eq.trans h.index_eq.symm
  nonneg := by
    rw [h.index_eq]
    exact Int.natCast_nonneg _
  le_length := by
    rw [h.index_eq, h.source_eq, List.length_append]
    omega

lemma ahead_eq (h : Between base pre rest c) : c.ahead = rest := by
  rw [ahead_of_nonneg h.settled.nonneg, h.index_eq, h.source_eq, Int.toNat_natCast, List.drop_left]

/-- Past any front of the rest, with the mark moved along, the cursor is between turns again. -/
lemma advanceBy {mid : Text} (h : Between base pre (mid ++ rest) c) :
    Between base (pre ++ mid) rest (c.advanceBy mid.length).setMark where
  source_eq := by
    rw [source_setMark, source_advanceBy, h.source_eq, List.append_assoc]
  index_eq := by
    rw [index_setMark, index_advanceBy, h.index_eq, List.length_append]
    omega
  mark_eq := by
    have hmark : (c.advanceBy mid.length).setMark.mark = (c.advanceBy mid.length).index := rfl
    rw [hmark, index_advanceBy, h.index_eq, List.length_append]
    omega
  location_eq := by
    have hlocation :
        (c.advanceBy mid.length).setMark.location = (c.advanceBy mid.length).location := rfl
    rw [hlocation, location_advanceBy h.settled.nonneg (by simp [h.ahead_eq]), h.ahead_eq,
      List.take_left, h.location_eq, Location.after_append]

/-- A turn that skips goes past whitespace. -/
lemma exists_of_consume_blank (h : Between base pre rest c)
    (hblank : c.consume blank = (true, c')) :
    ∃ u rest', rest = u :: rest' ∧ u.isWhitespace = true ∧ c' = c.advance := by
  obtain ⟨hreach, rfl⟩ := reaches_of_consume_blank hblank
  obtain ⟨u, rest', hahead⟩ := exists_ahead_of_reaches h.settled.nonneg hreach
  refine ⟨u, rest', h.ahead_eq.symm.trans hahead, ?_, rfl⟩
  rw [consume_blank_of_ahead hahead] at hblank
  by_contra hu
  rw [if_neg hu] at hblank
  cases hblank

/-- **A turn keeps the invariant.**  The cursor goes past a front of the rest, and `Reads` grows by
what the turn has read. -/
theorem turn (h : Between base pre rest c) {tokens : List Token}
    (hreads : Reads base pre rest tokens) (hturn : Turn c c') :
    ∃ mid rest' tokens', rest = mid ++ rest' ∧ Between base (pre ++ mid) rest' c' ∧
      Reads base (pre ++ mid) rest' tokens' := by
  cases hturn with
  | skip hblank =>
      obtain ⟨u, rest', rfl, hu, rfl⟩ := h.exists_of_consume_blank hblank
      have hmid : Reads (base.after pre) [u] rest' [] := Reads.gap hu (Reads.done _ rest')
      have hfront : Between base pre ([u] ++ rest') c := h
      exact ⟨[u], rest', _, rfl, hfront.advanceBy, hreads.trans hmid⟩
  | token htoken =>
      obtain ⟨u, rest', hahead, hu⟩ := exists_ahead_of_nextToken h.settled.nonneg htoken
      obtain ⟨hmunch, -, rfl⟩ := (nextToken_eq_ok_iff h.settled hahead hu).1 htoken
      obtain ⟨behind, hbehind, hmem, hend⟩ := munches_iff.1 hmunch
      obtain rfl := h.ahead_eq.symm.trans hbehind
      exact ⟨_, behind, _, rfl, h.advanceBy, hreads.trans (Reads.lexeme hmem hend (base.after pre))⟩

/-- In front of a lexeme that ends, the next token is that lexeme. -/
lemma nextToken_of_lexeme {kind : TokenKind} {l : Text} (h : Between base pre (l ++ rest) c)
    (hl : l ∈ kind.language) (hend : Ends kind l rest) :
    c.nextToken =
      (.ok ⟨kind, l, (base.after pre).offset⟩, (c.advanceBy l.length).setMark) := by
  obtain ⟨u, t, rfl, hu⟩ := exists_cons_of_mem_language hl
  have hahead : c.ahead = u :: (t ++ rest) := h.ahead_eq
  have hmunch : Munches c.ahead kind (u :: t) := munches_iff.2 ⟨rest, hahead, hl, hend⟩
  rw [← h.location_eq]
  exact (nextToken_eq_ok_iff h.settled hahead hu).2 ⟨hmunch, rfl, rfl⟩

/-- In front of a start that breaks, the next token fails, and the cursor stays where the reader has
stopped. -/
lemma nextToken_of_breaks {start : Text} {cause : Fault} (h : Between base pre (start ++ rest) c)
    (hbreaks : Breaks start rest.head? cause) :
    c.nextToken =
      (.error ⟨cause, start, base.after (pre ++ start)⟩, c.advanceBy start.length) := by
  have hscan := scan_of_breaks hbreaks
  obtain ⟨u, t, rfl, hu⟩ := hbreaks.exists_cons
  have hahead : c.ahead = u :: (t ++ rest) := h.ahead_eq
  rw [← h.ahead_eq] at hscan
  rw [nextToken_eq_read hahead hu, read_of_fault h.settled hahead hscan, h.ahead_eq,
    List.take_left, h.location_eq, Location.after_append]

/-- **What can be read is crossed by turns.** -/
theorem exists_turns_of_reads {mid : Text} {tokens : List Token}
    (h : Between base pre (mid ++ rest) c) (hreads : Reads (base.after pre) mid rest tokens) :
    ∃ c', Relation.ReflTransGen Turn c c' ∧ Between base (pre ++ mid) rest c' := by
  generalize hloc : base.after pre = loc at hreads
  induction hreads generalizing c pre with
  | done loc rest => exact ⟨c, Relation.ReflTransGen.refl, by rwa [List.append_nil]⟩
  | @gap loc u mid rest tokens hu _ ih =>
      have hblank : c.consume blank = (true, c.advance) := by
        rw [consume_blank_of_ahead h.ahead_eq, if_pos hu]
      have hfront : Between base pre ([u] ++ (mid ++ rest)) c := h
      have hnext : Between base (pre ++ [u]) (mid ++ rest) c.advance.setMark := hfront.advanceBy
      obtain ⟨c', hturns, hbetween⟩ := ih hnext (by rw [Location.after_append, hloc]; rfl)
      rw [List.append_assoc] at hbetween
      exact ⟨c', Relation.ReflTransGen.head (Turn.skip hblank) hturns, hbetween⟩
  | @token loc kind l mid rest tokens hl hend _ ih =>
      rw [List.append_assoc] at h
      have htoken := h.nextToken_of_lexeme hl hend
      obtain ⟨c', hturns, hbetween⟩ := ih h.advanceBy (by rw [Location.after_append, hloc])
      rw [List.append_assoc] at hbetween
      exact ⟨c', Relation.ReflTransGen.head (Turn.token htoken) hturns, hbetween⟩

end Between

/-- **Between any two turns the invariant holds**, and what is before the cursor has been read. -/
theorem exists_between {source : Text} {base : Location} {c : Cursor}
    (h : Relation.ReflTransGen Turn (Cursor.start source base) c) :
    ∃ pre rest tokens, source = pre ++ rest ∧ Between base pre rest c ∧
      Reads base pre rest tokens := by
  induction h with
  | refl => exact ⟨[], source, [], rfl, between_start source base, Reads.done base source⟩
  | tail _ hturn ih =>
      obtain ⟨pre, rest, tokens, rfl, hbetween, hreads⟩ := ih
      obtain ⟨mid, rest', tokens', rfl, hbetween', hreads'⟩ := hbetween.turn hreads hturn
      exact ⟨pre ++ mid, rest', tokens', (List.append_assoc ..).symm, hbetween', hreads'⟩

/-! ## Cutting and joining -/

/-- **Lexing from a cut on, and across a seam.**  Cut a text where a run of the lexer is between two
turns.  The part in front lexes, and the answer for the whole text is its tokens followed by the
answer for the part behind, which begins at the location past the part in front.  Join two texts
where they are separated.  If the first lexes, the answer for the whole is again its tokens followed
by the answer for the second. -/
theorem lex_split_join (base : Location) :
    (∀ source c, Relation.ReflTransGen Turn (Cursor.start source base) c →
      ∃ k : Nat, c.index = k ∧ c.mark = k ∧ k ≤ source.length ∧
        ∃ tokens, lex base (source.take k) = .ok tokens ∧
          lex base source =
            (lex (base.past (source.take k)) (source.drop k)).map (tokens ++ ·)) ∧
    (∀ u v tokens, lex base u = .ok tokens → Separated u v →
      lex base (u ++ v) = (lex (base.past u) v).map (tokens ++ ·)) := by
  constructor
  · intro source c hturns
    obtain ⟨pre, rest, tokens, rfl, hbetween, hreads⟩ := exists_between hturns
    refine ⟨pre.length, hbetween.index_eq, hbetween.mark_eq, by simp, tokens, ?_, ?_⟩
    · rw [List.take_left]
      exact hreads.truncate.lex_eq_ok
    · rw [List.take_left, List.drop_left, ← Location.after_eq_past]
      exact hreads.lex_append
  · intro u v tokens hlex hseam
    rw [← Location.after_eq_past]
    exact ((lex_eq_ok_iff.1 hlex).extend hseam).lex_append

/-- A name, a line feed, and a string that is never closed.  The run is between two turns behind the
line feed, and the failure of the whole is the failure of the second line. -/
theorem lex_split_join_unclosed_line :
    (∃ c, Relation.ReflTransGen Turn
        (Cursor.start [lowerA, lineFeed, doubleQuote] Location.start) c ∧ c.index = 2 ∧
      lex Location.start [lowerA, lineFeed, doubleQuote] =
        (lex ⟨2, 1, 2⟩ [doubleQuote]).map ([⟨.identifier, [lowerA], 0⟩] ++ ·)) ∧
    Separated [lowerA] [lineFeed, doubleQuote] ∧
      lex Location.start ([lowerA] ++ [lineFeed, doubleQuote]) =
        (lex ⟨1, 2, 1⟩ [lineFeed, doubleQuote]).map ([⟨.identifier, [lowerA], 0⟩] ++ ·) := by
  have hname : lex Location.start [lowerA] = .ok [⟨.identifier, [lowerA], 0⟩] := by cbv
  have hline : lex Location.start [lowerA, lineFeed] = .ok [⟨.identifier, [lowerA], 0⟩] := by cbv
  have hseam : Separated [lowerA] [lineFeed, doubleQuote] :=
    Or.inr (Or.inr (Or.inr ⟨lineFeed, rfl, by decide⟩))
  refine ⟨?_, hseam, (lex_split_join Location.start).2 _ _ _ hname hseam⟩
  let source := [lowerA, lineFeed, doubleQuote]
  have hread : (Cursor.start source Location.start).nextToken =
      (.ok ⟨.identifier, [lowerA], 0⟩, ⟨source, 0, 1, 1, 1, 2⟩) := by decide
  have hblank : (⟨source, 0, 1, 1, 1, 2⟩ : Cursor).consume blank =
      (true, ⟨source, 0, 2, 1, 2, 1⟩) := by decide
  have hturns := (Relation.ReflTransGen.single (Turn.token hread)).tail (Turn.skip hblank)
  obtain ⟨k, hk, -, -, tokens, hfront, hwhole⟩ := (lex_split_join Location.start).1 source _ hturns
  obtain rfl : k = 2 := by
    have hk : (2 : Int) = k := hk
    omega
  obtain rfl : _ = tokens := Except.ok.inj (hline.symm.trans hfront)
  exact ⟨_, hturns, rfl, hwhole⟩

end Cursor

end Lexis

import Lexis.Diagnostic
import Lexis.Proofs.Answers
import Lexis.Proofs.Writing
import Mathlib.Algebra.Ring.Int.Defs

/-!
# Changing the whitespace of a text

Whitespace separates tokens and means nothing else.  So the gaps that a run crosses may be exchanged
for others, all at once, and the run finds the same lexemes and stops at the same fault.  Only the
offsets move, each by what the gaps before it have grown.  A gap that keeps a lexeme apart from what
follows must not be closed, but where there was none, one may be opened.

* `Spacing` — a text with its gaps marked, up to where reading stops.
* `Spacing.Marks` — these are the gaps that a run crosses.  It refers to the run alone.
* `Spacing.Proper` — the same said without a run: each lexeme ends, and the stop breaks.
* **`Spacing.existsUnique_marks`** — every text has its gaps marked in exactly one way.
* `Spacing.Respaces`, `Spacing.growth` — another spacing with other gaps, and what they add.
* **`Spacing.lex_respace`** — what `lex` and a run make of it.

The two descriptions of a spacing are played against each other.  `Marks` determines the spacing, since
tokens have offsets.  `Proper` does not mention where the text begins or what has been read, and so
it passes to other gaps.
-/

namespace Lexis

open CodeUnit Grammar

/-! ## Spacings -/

/-- A text with its gaps marked: a gap, lexemes with a gap behind each, and what is left where
reading stops. -/
@[ext]
structure Spacing where
  /-- The gap in front of the first lexeme. -/
  lead : Text
  pieces : List Piece
  /-- The construct that fails and all that stands behind it, or nothing. -/
  stop : Text
  blank : ∀ u ∈ lead, u.isWhitespace = true

namespace Spacing

/-- Everything in front of the stop. -/
def front (S : Spacing) : Text := S.lead ++ Piece.text S.pieces

def text (S : Spacing) : Text := S.front ++ S.stop

/-- The tokens of the lexemes, when the text begins at an offset. -/
def tokens (S : Spacing) (offset : Int) : List Token :=
  Piece.tokens (offset + S.lead.length) S.pieces

/-- The gaps in order.  There is one more of them than there are lexemes. -/
def gaps (S : Spacing) : List Text := S.lead :: S.pieces.map Piece.gap

/-- The spacing marks the gaps that a run on `t` crosses: its lexemes are the tokens of the run, and
its stop is the end of `t` or the place where the construct that fails begins. -/
structure Marks (S : Spacing) (base : Location) (t : Text) : Prop where
  text_eq : S.text = t
  tokens_eq : (Cursor.start t base).tokens = S.tokens base.offset
  stop_eq_nil : ∀ tokens, lex base t = .ok tokens → S.stop = []
  stop_begins : ∀ failure, lex base t = .error failure →
    failure.diagnostic.offset = base.offset + S.front.length + failure.pending.length

/-- Each lexeme ends, and the stop is a start that breaks, if it is anything. -/
structure Proper (S : Spacing) : Prop where
  ended : Piece.Ended S.stop S.pieces
  stops : S.stop = [] ∨
    ∃ start rest cause, S.stop = start ++ rest ∧ Breaks start rest.head? cause

/-! ## A text has one spacing -/

lemma reads (S : Spacing) (hended : Piece.Ended S.stop S.pieces) (base : Location) :
    Reads base S.front S.stop (S.tokens base.offset) := by
  have hpieces := hended.reads (base.after S.lead)
  rw [Location.offset_after] at hpieces
  exact hpieces.gaps S.blank

theorem exists_proper (t : Text) : ∃ S : Spacing, S.Proper ∧ S.text = t := by
  rcases exists_reads Location.start t with
    ⟨tokens, h⟩ | ⟨pre, start, rest, tokens, cause, rfl, h, hbreaks⟩
  · obtain ⟨lead, pieces, hlead, hended, rfl, -⟩ := h.exists_pieces
    exact ⟨⟨lead, pieces, [], hlead⟩, ⟨hended, Or.inl rfl⟩, List.append_nil _⟩
  · obtain ⟨lead, pieces, hlead, hended, rfl, -⟩ := h.exists_pieces
    exact ⟨⟨lead, pieces, start ++ rest, hlead⟩,
      ⟨hended, Or.inr ⟨start, rest, cause, rfl, hbreaks⟩⟩, rfl⟩

namespace Proper

variable {S : Spacing}

theorem lex_of_stop_eq_nil (h : S.Proper) (hstop : S.stop = []) (base : Location) :
    lex base S.text = .ok (S.tokens base.offset) := by
  have hreads := S.reads h.ended base
  rw [hstop] at hreads
  rw [text, hstop, List.append_nil]
  exact hreads.lex_eq_ok

/-- What `lex` answers can be read off a proper spacing. -/
theorem lex_text (h : S.Proper) (base : Location) :
    (S.stop = [] ∧ lex base S.text = .ok (S.tokens base.offset)) ∨
      ∃ start rest cause, S.stop = start ++ rest ∧ Breaks start rest.head? cause ∧
        lex base S.text = .error ⟨cause, start, base.after (S.front ++ start)⟩ := by
  rcases h.stops with hstop | ⟨start, rest, cause, hstop, hbreaks⟩
  · exact Or.inl ⟨hstop, h.lex_of_stop_eq_nil hstop base⟩
  · have hreads := S.reads h.ended base
    rw [hstop] at hreads
    rw [text, hstop]
    exact Or.inr ⟨start, rest, cause, rfl, hbreaks, hreads.lex_eq_error hbreaks⟩

/-- And so can what a run records. -/
theorem tokens_text (h : S.Proper) (base : Location) :
    (Cursor.start S.text base).tokens = S.tokens base.offset := by
  rw [Cursor.tokens]
  rcases h.stops with hstop | ⟨start, rest, cause, hstop, hbreaks⟩
  · rw [Cursor.answers_of_lex_eq_ok (h.lex_of_stop_eq_nil hstop base), List.filterMap_map]
    exact List.filterMap_some
  · have hreads := S.reads h.ended base
    rw [hstop] at hreads
    rw [text, hstop, Cursor.answers_of_breaks hreads hbreaks, List.filterMap_append,
      List.filterMap_map]
    exact (List.append_nil _).trans List.filterMap_some

theorem marks (h : S.Proper) (base : Location) : S.Marks base S.text := by
  refine ⟨rfl, h.tokens_text base, ?_, ?_⟩
  · intro tokens hok
    rcases h.lex_text base with ⟨hstop, -⟩ | ⟨start, rest, cause, -, -, herror⟩
    · exact hstop
    · rw [hok] at herror
      cases herror
  · intro failure herror
    rcases h.lex_text base with ⟨-, hok⟩ | ⟨start, rest, cause, -, -, herror'⟩
    · rw [hok] at herror
      cases herror
    · obtain rfl := Except.error.inj (herror'.symm.trans herror)
      rw [Failure.offset_diagnostic]
      show (base.after (S.front ++ start)).offset = base.offset + S.front.length + start.length
      rw [Location.offset_after, List.length_append]
      omega

end Proper

/-- A text is marked in one way at most. -/
theorem Marks.eq {S S' : Spacing} {base : Location} {t : Text} (h : S.Marks base t)
    (h' : S'.Marks base t) : S = S' := by
  have htext : S.front ++ S.stop = S'.front ++ S'.stop := h.text_eq.trans h'.text_eq.symm
  have hlength : S.front.length + S.stop.length = S'.front.length + S'.stop.length := by
    rw [← List.length_append, htext, List.length_append]
  have hfront : S.front.length = S'.front.length := by
    cases hlex : lex base t with
    | ok tokens =>
        rw [h.stop_eq_nil tokens hlex, h'.stop_eq_nil tokens hlex] at hlength
        exact hlength
    | error failure =>
        have hbegins := h.stop_begins failure hlex
        have hbegins' := h'.stop_begins failure hlex
        omega
  obtain ⟨hfront, hstop⟩ := List.append_inj htext hfront
  obtain ⟨hlead, hpieces⟩ :=
    Piece.eq_of_tokens_eq hfront (h.tokens_eq.symm.trans h'.tokens_eq)
  exact Spacing.ext hlead hpieces hstop

/-- **Every text has its gaps marked in exactly one way.** -/
theorem existsUnique_marks (base : Location) (t : Text) : ∃! S : Spacing, S.Marks base t := by
  obtain ⟨S, hproper, rfl⟩ := exists_proper t
  exact ⟨S, hproper.marks base, fun S' h' => h'.eq (hproper.marks base)⟩

theorem Marks.proper {S : Spacing} {base : Location} {t : Text} (h : S.Marks base t) :
    S.Proper := by
  obtain ⟨S', hproper, rfl⟩ := exists_proper t
  rwa [h.eq (hproper.marks base)]

end Spacing

/-! ## Other gaps -/

/-- The token, `d` units further on. -/
def Token.moveBy (token : Token) (d : Int) : Token := { token with offset := token.offset + d }

/-- By how much gaps have grown, one by one. -/
def gapGrowth (gaps gaps' : List Text) : List Int :=
  List.zipWith (fun gap gap' => (gap'.length : Int) - gap.length) gaps gaps'

/-- The same lexemes with other gaps.  A gap is not closed if a lexeme or the stop follows it. -/
inductive Piece.Respaces (stop : Text) : List Piece → List Piece → Prop
  | nil : Respaces stop [] []
  | cons {x y : Piece} {pieces pieces' : List Piece} (hkind : y.kind = x.kind)
      (hlexeme : y.lexeme = x.lexeme) (hgap : pieces ≠ [] ∨ stop ≠ [] → x.gap ≠ [] → y.gap ≠ [])
      (h : Respaces stop pieces pieces') : Respaces stop (x :: pieces) (y :: pieces')

namespace Piece.Respaces

variable {stop : Text} {pieces pieces' : List Piece}

/-- Other gaps do not change the first unit. -/
lemma head?_eq (h : Respaces stop pieces pieces') :
    (text pieces' ++ stop).head? = (text pieces ++ stop).head? := by
  cases h with
  | nil => rfl
  | @cons x y _ _ _ hlexeme _ _ =>
      obtain ⟨u, t, hx, -⟩ := exists_cons_of_mem_language x.mem
      rw [text_cons, text_cons, hlexeme, hx]
      rfl

/-- **Other gaps end the lexemes too.**  A gap ends every lexeme, and where there is none, the same
unit follows as before. -/
theorem ended (h : Respaces stop pieces pieces') (hended : Ended stop pieces) :
    Ended stop pieces' := by
  induction h with
  | nil => trivial
  | @cons x y pieces pieces' hkind hlexeme hgap h ih =>
      obtain ⟨hend, hrest⟩ := hended
      refine ⟨?_, ih hrest⟩
      cases hy : y.gap with
      | cons u gap =>
          have hblank := y.blank
          rw [hy] at hblank
          exact ends_of_isWhitespace (List.forall_mem_cons.1 hblank).1 _ _ _
      | nil =>
          by_cases hlast : pieces = [] ∧ stop = []
          · obtain ⟨rfl, rfl⟩ := hlast
            cases h
            exact ends_nil _ _
          · -- this gap has been kept, so there was none before
            have hx : x.gap = [] := by
              by_contra hne
              exact hgap (by tauto) hne hy
            rw [hx] at hend
            rw [hkind, hlexeme]
            exact hend.congr_head h.head?_eq

lemma length_text (h : Respaces stop pieces pieces') :
    ((text pieces').length : Int) =
      (text pieces).length + (gapGrowth (pieces.map gap) (pieces'.map gap)).sum := by
  induction h with
  | nil => rfl
  | @cons x y pieces pieces' hkind hlexeme hgap h ih =>
      simp only [text_cons, List.length_append, List.map_cons, gapGrowth, List.zipWith_cons_cons,
        List.sum_cons, hlexeme] at ih ⊢
      omega

/-- Each token moves by what the gaps before it have grown. -/
theorem tokens_eq (h : Respaces stop pieces pieces') (offset offset' : Int) :
    tokens offset' pieces' = (tokens offset pieces).mapIdx fun i token =>
      token.moveBy (offset' - offset +
        ((gapGrowth (pieces.map gap) (pieces'.map gap)).take i).sum) := by
  induction h generalizing offset offset' with
  | nil => rfl
  | @cons x y pieces pieces' hkind hlexeme hgap h ih =>
      rw [tokens, tokens, List.mapIdx_cons, hkind, hlexeme,
        ih (offset + x.lexeme.length + x.gap.length)]
      simp only [List.map_cons, gapGrowth, List.zipWith_cons_cons, List.take_succ_cons,
        List.sum_cons, List.take_zero, List.sum_nil]
      refine congrArg₂ List.cons ?first (congrArg (List.mapIdx · _) (funext₂ fun i token => ?rest))
      case first =>
        have hoffset : offset' = offset + (offset' - offset + 0) := by omega
        exact congrArg (Token.mk x.kind x.lexeme) hoffset
      case rest =>
        congr 1
        omega

end Piece.Respaces

namespace Spacing

/-- The same lexemes and the same stop with other gaps.  The first gap may become empty, and so may
one with nothing behind it. -/
structure Respaces (S S' : Spacing) : Prop where
  pieces : Piece.Respaces S.stop S.pieces S'.pieces
  stop_eq : S'.stop = S.stop

/-- By how much the first `n` gaps have grown together. -/
def growth (S S' : Spacing) (n : Nat) : Int := ((gapGrowth S.gaps S'.gaps).take n).sum

lemma growth_succ (S S' : Spacing) (n : Nat) :
    S.growth S' (n + 1) = (S'.lead.length : Int) - S.lead.length +
      ((gapGrowth (S.pieces.map Piece.gap) (S'.pieces.map Piece.gap)).take n).sum := by
  rw [growth, gaps, gaps, gapGrowth, List.zipWith_cons_cons, List.take_succ_cons, List.sum_cons]
  rfl

namespace Respaces

variable {S S' : Spacing}

theorem proper (h : S.Respaces S') (hproper : S.Proper) : S'.Proper := by
  refine ⟨?_, ?_⟩
  · rw [h.stop_eq]
    exact h.pieces.ended hproper.ended
  · rw [h.stop_eq]
    exact hproper.stops

lemma tokens_eq (h : S.Respaces S') (offset : Int) :
    S'.tokens offset =
      (S.tokens offset).mapIdx fun i token => token.moveBy (S.growth S' (i + 1)) := by
  rw [tokens, tokens, h.pieces.tokens_eq (offset + S.lead.length)]
  refine congrArg (List.mapIdx · _) (funext₂ fun i token => ?_)
  rw [growth_succ]
  congr 1
  omega

lemma length_front (h : S.Respaces S') :
    (S'.front.length : Int) = S.front.length + S.growth S' S.gaps.length := by
  have hall : (gapGrowth (S.pieces.map Piece.gap) (S'.pieces.map Piece.gap)).length ≤
      (S.pieces.map Piece.gap).length := by
    rw [gapGrowth, List.length_zipWith]
    exact Nat.min_le_left _ _
  have hpieces := h.pieces.length_text
  rw [gaps, List.length_cons, growth_succ, List.take_of_length_le hall, front, front,
    List.length_append, List.length_append]
  omega

/-- **The same tokens.**  If the text lexes, so does the other one. -/
theorem lex_eq_ok (h : S.Respaces S') (hproper : S.Proper) {base : Location} {tokens : List Token}
    (hok : lex base S.text = .ok tokens) :
    lex base S'.text = .ok (tokens.mapIdx fun i token => token.moveBy (S.growth S' (i + 1))) := by
  have hstop := (hproper.marks base).stop_eq_nil tokens hok
  rw [hproper.lex_of_stop_eq_nil hstop] at hok
  obtain rfl := Except.ok.inj hok
  rw [(h.proper hproper).lex_of_stop_eq_nil (h.stop_eq.trans hstop), h.tokens_eq]

/-- **The same fault.**  What has been read of the construct that fails does not change. -/
theorem lex_eq_error (h : S.Respaces S') (hproper : S.Proper) {base : Location} {failure : Failure}
    (herror : lex base S.text = .error failure) :
    ∃ failure', lex base S'.text = .error failure' ∧ failure'.fault = failure.fault ∧
      failure'.pending = failure.pending ∧
        failure'.location.offset = failure.location.offset + S.growth S' S.gaps.length := by
  rcases hproper.lex_text base with ⟨-, hok⟩ | ⟨start, rest, cause, hstop, hbreaks, herror'⟩
  · rw [hok] at herror
    cases herror
  · obtain rfl := Except.error.inj (herror'.symm.trans herror)
    have hreads := S'.reads (h.proper hproper).ended base
    rw [h.stop_eq, hstop] at hreads
    have hlex := hreads.lex_eq_error hbreaks
    rw [← hstop, ← h.stop_eq] at hlex
    refine ⟨_, hlex, rfl, rfl, ?_⟩
    have hlength := h.length_front
    simp only [Location.offset_after, List.length_append]
    omega

end Respaces

/-- **Only the offsets notice whitespace.**  Every text has the gaps that a run crosses marked in
exactly one way.  Exchange these gaps for others, where a gap between a token and what follows it
must not be closed.  Then the run records the same kinds and lexemes in the same order, and each
offset changes by what the gaps before it have grown together.  If the text lexes, so does the other
one, to these tokens.  If it fails, so does the other one, under the same code, with the same context,
and with an offset that changes by what all gaps have grown. -/
theorem lex_respace (base : Location) :
    (∀ t, ∃! S : Spacing, S.Marks base t) ∧
    ∀ (t : Text) (S S' : Spacing), S.Marks base t → S.Respaces S' →
      S'.Marks base S'.text ∧
      (Cursor.start S'.text base).tokens = (Cursor.start t base).tokens.mapIdx
        (fun i token => token.moveBy (S.growth S' (i + 1))) ∧
      (∀ tokens, lex base t = .ok tokens → lex base S'.text = .ok (tokens.mapIdx
        fun i token => token.moveBy (S.growth S' (i + 1)))) ∧
      ∀ failure, lex base t = .error failure → ∃ failure', lex base S'.text = .error failure' ∧
        failure'.diagnostic.code = failure.diagnostic.code ∧
        failure'.diagnostic.context = failure.diagnostic.context ∧
        failure'.diagnostic.offset = failure.diagnostic.offset + S.growth S' S.gaps.length := by
  refine ⟨existsUnique_marks base, ?_⟩
  intro t S S' hmarks h
  have hproper := hmarks.proper
  have hmarks' := (h.proper hproper).marks base
  obtain rfl := hmarks.text_eq
  refine ⟨hmarks', ?_, ?_, ?_⟩
  · rw [hmarks'.tokens_eq, hmarks.tokens_eq, h.tokens_eq]
  · intro tokens hok
    exact h.lex_eq_ok hproper hok
  · intro failure herror
    obtain ⟨failure', herror', hfault, hpending, hoffset⟩ := h.lex_eq_error hproper herror
    obtain ⟨hcode, hcontext⟩ := Failure.diagnostic_congr hfault hpending
    refine ⟨failure', herror', hcode, hcontext, ?_⟩
    rw [Failure.offset_diagnostic, Failure.offset_diagnostic, hoffset]

/-- In `!== "` two operators touch, and a string is never closed.  With a line feed in front, a tab
between the operators and a longer gap before the quote, the operators are the same and the failure
is three units further on. -/
theorem lex_respace_operators :
    ∃ S S' : Spacing, S.text = [exclamation, equals, equals, space, doubleQuote] ∧
      S'.text = [lineFeed, exclamation, equals, tab, equals, tab, lineFeed, doubleQuote] ∧
      S.Marks Location.start S.text ∧ S.Respaces S' ∧
      (Cursor.start S'.text Location.start).tokens =
        [⟨.operator, [exclamation, equals], 1⟩, ⟨.operator, [equals], 4⟩] ∧
      ∃ failure, lex Location.start S'.text = .error failure ∧
        failure.diagnostic.code = .unterminatedString ∧ failure.diagnostic.offset = 8 := by
  have hpair : [exclamation, equals] ∈ TokenKind.operator.language :=
    mem_operator.2 (Or.inl ⟨_, _, rfl, by decide⟩)
  have hsingle : [equals] ∈ TokenKind.operator.language :=
    mem_operator.2 (Or.inr ⟨_, rfl, by decide⟩)
  let x : Piece := ⟨.operator, _, [], hpair, by simp⟩
  let y : Piece := ⟨.operator, _, [space], hsingle, List.forall_mem_singleton.2 rfl⟩
  let x' : Piece := ⟨.operator, _, [tab], hpair, List.forall_mem_singleton.2 rfl⟩
  let y' : Piece := ⟨.operator, _, [tab, lineFeed], hsingle,
    List.forall_mem_cons.2 ⟨rfl, List.forall_mem_singleton.2 rfl⟩⟩
  let S : Spacing := ⟨[], [x, y], [doubleQuote], by simp⟩
  let S' : Spacing := ⟨[lineFeed], [x', y'], [doubleQuote], List.forall_mem_singleton.2 rfl⟩
  have hproper : S.Proper := by
    refine ⟨⟨fun _ _ => rfl, ends_of_isWhitespace (by decide) _ _ _, trivial⟩, ?_⟩
    exact Or.inr ⟨[doubleQuote], [], .unclosedString, rfl,
      Breaks.stringClose nil_mem_stringContent (by simp)⟩
  have hmarks := hproper.marks Location.start
  have hrespaces : S.Respaces S' := by
    refine ⟨.cons rfl rfl ?_ (.cons rfl rfl ?_ .nil), rfl⟩
    · exact fun _ _ => List.cons_ne_nil _ _
    · exact fun _ _ => List.cons_ne_nil _ _
  obtain ⟨-, htokens, -, herror⟩ := (lex_respace Location.start).2 _ S S' hmarks hrespaces
  have hlex : lex Location.start S.text =
      .error ⟨.unclosedString, [doubleQuote], ⟨1, 6, 5⟩⟩ := by cbv
  obtain ⟨failure, hfailure, hcode, -, hoffset⟩ := herror _ hlex
  refine ⟨S, S', rfl, rfl, hmarks, hrespaces, ?_, failure, hfailure, hcode, hoffset⟩
  rw [htokens, hmarks.tokens_eq]
  rfl

end Spacing

end Lexis

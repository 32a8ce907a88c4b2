import Lexis.Proofs.Runs
import Mathlib.Data.List.Chain

/-!
# Writings

A text that lexes consists of lexemes with gaps between them.  A `Writing` is such a text, taken
apart: the gap in front, and then each lexeme with the gap behind it.  Its fields carry the two
rules that make it one: gaps are whitespace, and lexemes without a gap between them must not glue.

* `Glues` — two lexemes which cannot stand side by side, by kind and by what the second begins with.
* `Writing.text`, `Writing.tokens` — the text of a writing, and the tokens it stands for.
* `Piece.Ended`, `Reads.exists_pieces` — what a run has read in front of any rest, as pieces.
* **`lex_characterization`** — `lex` undoes `Writing.text`: the texts that lex are those of
  writings, each text has at most one writing, and its tokens are the answer.

`Glues` is stated without reference to the readers, in terms of whole lexemes.  That it is the
condition the readers enforce, neither more nor less, is `ends_append_iff`.
-/

namespace Lexis

open CodeUnit Grammar

/-! ## Pieces and writings -/

/-- A lexeme and the gap behind it. -/
@[ext]
structure Piece where
  kind : TokenKind
  lexeme : Text
  gap : Text
  mem : lexeme ∈ kind.language
  blank : ∀ u ∈ gap, u.isWhitespace = true

/-- The text begins with a unit of the class. -/
def BeginsWith (p : CodeUnit → Bool) (t : Text) : Prop := ∃ u ∈ t.head?, p u = true

/-- Two lexemes that glue are read as something else when they stand side by side. -/
def Glues (x y : Piece) : Prop :=
  match x.kind with
  | .identifier =>
      BeginsWith (fun u => u.isLetter || u.isDigit || u == underscore || u == hyphen) y.lexeme
  | .integer =>
      (unsigned x.lexeme ≠ [zero] ∧ BeginsWith isDigit y.lexeme) ∨
        (y.kind = .operator ∧ y.lexeme = [dot])
  | .decimal => BeginsWith isDigit y.lexeme
  | .character => False
  | .string => False
  | .operator =>
      ((x.lexeme = [plus] ∨ x.lexeme = [hyphen]) ∧ BeginsWith isDigit y.lexeme) ∨
        (x.lexeme = [ampersand] ∧ BeginsWith (· == ampersand) y.lexeme) ∨
        (x.lexeme = [bar] ∧ BeginsWith (· == bar) y.lexeme) ∨
        ((x.lexeme = [exclamation] ∨ x.lexeme = [equals] ∨ x.lexeme = [less] ∨
          x.lexeme = [greater]) ∧ BeginsWith (· == equals) y.lexeme)

/-- A way to write tokens down. -/
@[ext]
structure Writing where
  /-- The gap in front of the first lexeme. -/
  lead : Text
  pieces : List Piece
  blank : ∀ u ∈ lead, u.isWhitespace = true
  apart : pieces.IsChain fun x y => x.gap = [] → ¬ Glues x y

namespace Piece

/-- What pieces write, one after the other. -/
def text (pieces : List Piece) : Text := pieces.flatMap fun x => x.lexeme ++ x.gap

/-- The tokens of pieces that are written from an offset on. -/
def tokens : Int → List Piece → List Token
  | _, [] => []
  | offset, x :: pieces =>
      ⟨x.kind, x.lexeme, offset⟩ :: tokens (offset + x.lexeme.length + x.gap.length) pieces

@[simp] lemma text_nil : text [] = [] := rfl

lemma text_cons (x : Piece) (pieces : List Piece) :
    text (x :: pieces) = x.lexeme ++ (x.gap ++ text pieces) := by
  rw [text, List.flatMap_cons, List.append_assoc, text]

end Piece

namespace Writing

def text (W : Writing) : Text := W.lead ++ Piece.text W.pieces

/-- The tokens of a writing whose text begins at an offset. -/
def tokens (W : Writing) (offset : Int) : List Token :=
  Piece.tokens (offset + W.lead.length) W.pieces

end Writing

/-! ## Gluing and ending -/

/-- A dot opens one lexeme only, the operator. -/
lemma eq_operator_of_dot_cons {kind : TokenKind} {t : Text} (h : dot :: t ∈ kind.language) :
    kind = .operator ∧ dot :: t = [dot] := by
  have hoperator : [dot] ∈ TokenKind.operator.language :=
    mem_operator.2 (Or.inr ⟨dot, rfl, by decide⟩)
  cases t with
  | nil => exact ⟨TokenKind.eq_of_mem_language h hoperator, rfl⟩
  | cons u t =>
      -- were there more, the dot would be continued by it
      have hcontinues : TokenKind.operator.continues [dot] u = true :=
        continues_of_append_mem hoperator h
      have hsign : isSign dot = false := by decide
      have hpair : isOperatorPair dot u = false := by grind [isOperatorPair]
      simp [TokenKind.continues, hsign, hpair] at hcontinues

/-- What an operator of one unit is continued by. -/
lemma continues_operator_iff {x : Piece} (hkind : x.kind = .operator) (u : CodeUnit) :
    TokenKind.operator.continues x.lexeme u = true ↔
      ((x.lexeme = [plus] ∨ x.lexeme = [hyphen]) ∧ u.isDigit = true) ∨
        (x.lexeme = [ampersand] ∧ u = ampersand) ∨ (x.lexeme = [bar] ∧ u = bar) ∨
        ((x.lexeme = [exclamation] ∨ x.lexeme = [equals] ∨ x.lexeme = [less] ∨
          x.lexeme = [greater]) ∧ u = equals) := by
  have hmem := x.mem
  rw [hkind] at hmem
  rcases mem_operator.1 hmem with ⟨v, w, hl, -⟩ | ⟨v, hl, -⟩
  · simp [hl, TokenKind.continues]
  · simp [hl, TokenKind.continues, isSign, isOperatorPair, or_assoc]

/-- **Lexemes glue exactly if the first does not end in front of the second.** -/
lemma ends_append_iff (x y : Piece) (rest : Text) :
    Ends x.kind x.lexeme (y.lexeme ++ rest) ↔ ¬ Glues x y := by
  obtain ⟨u, t, hy, -⟩ := exists_cons_of_mem_language y.mem
  have hends : Ends x.kind x.lexeme (y.lexeme ++ rest) ↔ x.kind.continues x.lexeme u = false := by
    simp [Ends, hy]
  have hbegins : ∀ p, BeginsWith p y.lexeme ↔ p u = true := by
    simp [BeginsWith, hy]
  rw [hends, ← Bool.not_eq_true, not_iff_not, Glues]
  simp only [hbegins]
  cases hkind : x.kind with
  | identifier =>
      simp only [TokenKind.continues, isIdentifierChar, isIdentifierStart, Bool.or_eq_true]
      tauto
  | integer =>
      have hdot : u = dot ↔ y.kind = .operator ∧ y.lexeme = [dot] := by
        constructor
        · rintro rfl
          have hmem := y.mem
          rw [hy] at hmem ⊢
          exact eq_operator_of_dot_cons hmem
        · rintro ⟨-, hl⟩
          rw [hy] at hl
          exact (List.cons.inj hl).1
      simp only [TokenKind.continues, Bool.or_eq_true, beq_iff_eq, Bool.and_eq_true, bne_iff_ne,
        ← hdot]
      tauto
  | decimal => rfl
  | character => simp [TokenKind.continues]
  | string => simp [TokenKind.continues]
  | operator =>
      simp only [beq_iff_eq]
      exact continues_operator_iff hkind u

/-! ## Pieces in front of a rest

A run that has come to some point has read pieces, and a gap in front of them.  What it needs of the
pieces is that each lexeme ends, the last one in front of the rest.
-/

namespace Piece

/-- Each lexeme ends where its gap begins, with the other pieces and `rest` behind it. -/
def Ended (rest : Text) : List Piece → Prop
  | [] => True
  | x :: pieces => Ends x.kind x.lexeme (x.gap ++ (text pieces ++ rest)) ∧ Ended rest pieces

/-- **Pieces that end are read.** -/
theorem Ended.reads {rest : Text} {pieces : List Piece} (h : Ended rest pieces) (loc : Location) :
    Reads loc (text pieces) rest (tokens loc.offset pieces) := by
  induction pieces generalizing loc with
  | nil => exact Reads.done loc rest
  | cons x pieces ih =>
      obtain ⟨hend, hrest⟩ := h
      have hpieces := ih hrest ((loc.after x.lexeme).after x.gap)
      rw [Location.offset_after, Location.offset_after] at hpieces
      rw [text_cons]
      exact Reads.token x.mem (by rwa [List.append_assoc]) (hpieces.gaps x.blank)

end Piece

/-- **What is read is a gap and pieces that end.** -/
theorem Reads.exists_pieces {loc : Location} {pre rest : Text} {tokens : List Token}
    (h : Reads loc pre rest tokens) :
    ∃ lead pieces, (∀ u ∈ lead, u.isWhitespace = true) ∧ Piece.Ended rest pieces ∧
      pre = lead ++ Piece.text pieces ∧
        tokens = Piece.tokens (loc.offset + lead.length) pieces := by
  induction h with
  | done loc rest => exact ⟨[], [], by simp, trivial, rfl, rfl⟩
  | @gap loc u pre rest tokens hu _ ih =>
      obtain ⟨lead, pieces, hlead, hended, rfl, rfl⟩ := ih
      refine ⟨u :: lead, pieces, List.forall_mem_cons.2 ⟨hu, hlead⟩, hended, rfl, ?_⟩
      rw [Location.offset_step, List.length_cons]
      congr 1
      omega
  | @token loc kind l pre rest tokens hl hend _ ih =>
      obtain ⟨lead, pieces, hlead, hended, rfl, rfl⟩ := ih
      -- the gap in front of the other pieces is now the gap behind this lexeme
      let x : Piece := ⟨kind, l, lead, hl, hlead⟩
      rw [List.append_assoc] at hend
      refine ⟨[], x :: pieces, by simp, ⟨hend, hended⟩, (Piece.text_cons x pieces).symm, ?_⟩
      simp [Piece.tokens, Location.offset_after, x]

/-! ## Writings and runs -/

lemma ends_gap_append {x : Piece} {pieces : List Piece}
    (hapart : ∀ y ∈ pieces.head?, x.gap = [] → ¬ Glues x y) :
    Ends x.kind x.lexeme (x.gap ++ Piece.text pieces) := by
  have hblank := x.blank
  cases hgap : x.gap with
  | cons u gap =>
      rw [hgap] at hblank
      exact ends_of_isWhitespace (List.forall_mem_cons.1 hblank).1 _ _ _
  | nil =>
      cases pieces with
      | nil => exact ends_nil _ _
      | cons y pieces =>
          rw [List.nil_append, Piece.text_cons]
          exact (ends_append_iff x y _).2 (hapart y rfl hgap)

/-- At the end of a text, pieces end exactly if those without a gap between them do not glue. -/
lemma Piece.ended_nil_iff {pieces : List Piece} :
    Ended [] pieces ↔ pieces.IsChain fun x y => x.gap = [] → ¬ Glues x y := by
  induction pieces with
  | nil => exact iff_of_true trivial List.isChain_nil
  | cons x pieces ih =>
      rw [Ended, List.append_nil, List.isChain_cons, ih]
      refine and_congr_left fun _ => ⟨?_, ends_gap_append⟩
      intro hend y hy hgap
      obtain ⟨pieces, rfl⟩ := List.head?_eq_some_iff.1 hy
      rw [hgap, Piece.text_cons, List.nil_append] at hend
      exact (ends_append_iff x y _).1 hend

/-- **What is read to its end has a writing.** -/
theorem Reads.exists_writing {loc : Location} {t : Text} {tokens : List Token}
    (h : Reads loc t [] tokens) : ∃ W : Writing, W.text = t ∧ W.tokens loc.offset = tokens := by
  obtain ⟨lead, pieces, hlead, hended, rfl, rfl⟩ := h.exists_pieces
  exact ⟨⟨lead, pieces, hlead, Piece.ended_nil_iff.1 hended⟩, rfl, rfl⟩

/-- **A writing is read to its end.** -/
theorem Writing.reads (W : Writing) (loc : Location) :
    Reads loc W.text [] (W.tokens loc.offset) := by
  have hpieces := (Piece.ended_nil_iff.2 W.apart).reads (loc.after W.lead)
  rw [Location.offset_after] at hpieces
  exact hpieces.gaps W.blank

/-! ## Uniqueness -/

/-- Tokens say where their lexemes stand, so pieces that write the same text with the same tokens
are the same. -/
lemma Piece.eq_of_tokens_eq {pieces pieces' : List Piece} {gap gap' : Text} {offset : Int}
    (htext : gap ++ text pieces = gap' ++ text pieces')
    (htokens : tokens (offset + gap.length) pieces = tokens (offset + gap'.length) pieces') :
    gap = gap' ∧ pieces = pieces' := by
  induction pieces generalizing pieces' gap gap' offset with
  | nil =>
      cases pieces' with
      | nil => simpa using htext
      | cons x' pieces' => cases htokens
  | cons x pieces ih =>
      cases pieces' with
      | nil => cases htokens
      | cons x' pieces' =>
          simp only [tokens, List.cons.injEq, Token.mk.injEq] at htokens
          obtain ⟨⟨hkind, hlexeme, hoffset⟩, htokens⟩ := htokens
          obtain ⟨hgap, htext⟩ := List.append_inj htext (by omega)
          rw [text_cons, text_cons, hlexeme, List.append_cancel_left_eq] at htext
          rw [hoffset, hlexeme] at htokens
          obtain ⟨hbehind, rfl⟩ := ih htext htokens
          exact ⟨hgap, by rw [Piece.ext hkind hlexeme hbehind]⟩

theorem Writing.text_injective : Function.Injective Writing.text := by
  intro W W' htext
  have hreads := (W.reads Location.start).lex_eq_ok
  rw [htext, (W'.reads Location.start).lex_eq_ok] at hreads
  obtain ⟨hlead, hpieces⟩ := Piece.eq_of_tokens_eq htext (Except.ok.inj hreads).symm
  exact Writing.ext hlead hpieces

/-! ## The characterisation -/

/-- **`lex` undoes writing.**  A text lexes to tokens exactly if it has a writing that stands for
these tokens.  A text fails exactly if it has no writing.  And no text has two writings. -/
theorem lex_characterization (base : Location) (t : Text) :
    (∀ tokens, lex base t = .ok tokens ↔
      ∃ W : Writing, W.text = t ∧ W.tokens base.offset = tokens) ∧
    ((∃ failure, lex base t = .error failure) ↔ ¬ ∃ W : Writing, W.text = t) ∧
    Function.Injective Writing.text := by
  have hok : ∀ tokens, lex base t = .ok tokens ↔
      ∃ W : Writing, W.text = t ∧ W.tokens base.offset = tokens := by
    intro tokens
    rw [lex_eq_ok_iff]
    constructor
    · exact Reads.exists_writing
    · rintro ⟨W, rfl, rfl⟩
      exact W.reads base
  refine ⟨hok, ?_, Writing.text_injective⟩
  constructor
  · rintro ⟨failure, herror⟩ ⟨W, rfl⟩
    rw [(W.reads base).lex_eq_ok] at herror
    cases herror
  · intro hnone
    cases hlex : lex base t with
    | ok tokens =>
        obtain ⟨W, htext, -⟩ := (hok tokens).1 hlex
        exact absurd ⟨W, htext⟩ hnone
    | error failure => exact ⟨failure, rfl⟩

end Lexis

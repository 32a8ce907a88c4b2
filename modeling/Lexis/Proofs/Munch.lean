import Lexis.Proofs.Boundary
import Lexis.Proofs.CursorFront

/-!
# Maximal munch

No reader looks for a longest match: each goes on while it can and never backs up.  This file shows
that what they find is the longest lexeme of any kind all the same, with one exception: an integer
that a dot follows is never a token, whatever stands behind the dot.

* `IsLongest`, `Munches` — the longest lexeme at the front of a text, and when it is the next token.
* **`munches_iff`** — looking at one unit decides `Munches`.
* **`nextToken_maximal_munch`** — `Cursor.nextToken` returns exactly the token of `Munches`.

A longer lexeme would show itself in the unit behind the shorter one (`continues_of_append_mem`),
and a unit that continues a lexeme does make a longer one of it (`append_mem_of_continues`), except
for the dot behind an integer.  That is all the argument there is.
-/

namespace Lexis

open CodeUnit Grammar

/-! ## The longest lexeme -/

/-- Of the lexemes that `t` begins with, `l` is the longest, whatever kinds they belong to. -/
structure IsLongest (l t : Text) : Prop where
  front : l <+: t
  mem : l ∈ lexeme
  longest : ∀ l', l' <+: t → l' ∈ lexeme → l'.length ≤ l.length

/-- The token in front of `t`: the longest lexeme, if it is no integer that a dot follows. -/
structure Munches (t : Text) (kind : TokenKind) (l : Text) : Prop where
  isLongest : IsLongest l t
  mem : l ∈ kind.language
  unique : ∀ kind' : TokenKind, l ∈ kind'.language → kind' = kind
  no_dot : ¬ (kind = .integer ∧ (t.drop l.length).head? = some dot)

/-- **Looking at one unit decides.** -/
theorem munches_iff {t : Text} {kind : TokenKind} {l : Text} :
    Munches t kind l ↔ ∃ rest, t = l ++ rest ∧ l ∈ kind.language ∧ Ends kind l rest := by
  constructor
  · rintro ⟨⟨⟨rest, rfl⟩, -, hlongest⟩, hmem, -, hdot⟩
    refine ⟨rest, rfl, hmem, ?_⟩
    intro u hu
    by_contra hcontinues
    rw [Bool.not_eq_false] at hcontinues
    rw [List.drop_left, Option.mem_def.1 hu, Option.some.injEq] at hdot
    -- the unit behind `l` continues it, and so there is a longer lexeme
    obtain ⟨kind', hmem'⟩ := append_mem_of_continues hmem hcontinues hdot
    obtain ⟨rest, rfl⟩ := List.head?_eq_some_iff.1 hu
    have hlength := hlongest (l ++ [u]) ⟨rest, by simp⟩ (mem_lexeme.2 ⟨kind', hmem'⟩)
    rw [List.length_append, List.length_singleton] at hlength
    omega
  · rintro ⟨rest, rfl, hmem, hend⟩
    refine ⟨⟨⟨rest, rfl⟩, mem_lexeme.2 ⟨kind, hmem⟩, ?_⟩, hmem, ?_, ?_⟩
    · intro l' hfront hmem'
      obtain ⟨kind', hmem'⟩ := mem_lexeme.1 hmem'
      by_contra hlength
      rw [Nat.not_le] at hlength
      obtain ⟨more, rfl⟩ : l <+: l' :=
        List.prefix_of_prefix_length_le ⟨rest, rfl⟩ hfront hlength.le
      rw [List.length_append] at hlength
      obtain ⟨u, more, rfl⟩ := List.exists_cons_of_ne_nil (List.ne_nil_of_length_pos
        (Nat.pos_of_lt_add_right hlength))
      obtain ⟨rest, rfl⟩ := (List.prefix_append_right_inj l).1 hfront
      have hstop : kind.continues l u = false := hend u rfl
      rw [continues_of_append_mem hmem hmem'] at hstop
      exact Bool.noConfusion hstop
    · intro kind' hmem'
      exact TokenKind.eq_of_mem_language hmem' hmem
    · rintro ⟨rfl, hdot⟩
      rw [List.drop_left] at hdot
      exact Bool.noConfusion (hend dot hdot)

/-! ## The next token of a cursor -/

namespace Cursor

variable {c : Cursor} {u : CodeUnit} {rest : Text}

lemma finds_scan_ahead (hahead : c.ahead = u :: rest) (hu : u.isWhitespace = false) :
    Finds c.ahead ((Reader.dispatch c.ahead).scan c.ahead) := by
  rw [hahead]
  exact finds_scan_dispatch hu rest

/-- The token is `Munches` of the text ahead, and the cursor goes past it. -/
theorem nextToken_eq_ok_iff (hc : c.Settled) (hahead : c.ahead = u :: rest)
    (hu : u.isWhitespace = false) {token : Token} {c' : Cursor} :
    c.nextToken = (.ok token, c') ↔
      Munches c.ahead token.kind token.lexeme ∧ token.offset = c.location.offset ∧
        c' = (c.advanceBy token.lexeme.length).setMark := by
  rw [nextToken_eq_read hahead hu, munches_iff]
  constructor
  · intro h
    have hfinds := finds_scan_ahead hahead hu
    cases hscan : (Reader.dispatch c.ahead).scan c.ahead with
    | token kind n =>
        rw [hscan] at hfinds
        rw [read_of_token hc hscan] at h
        obtain ⟨l, rest', heq, rfl, hmem, hend⟩ := finds_token_iff.1 hfinds
        rw [heq, List.take_left] at h
        cases h
        exact ⟨⟨rest', heq, hmem, hend⟩, rfl, rfl⟩
    | fault cause n =>
        rw [read_of_fault hc hahead hscan] at h
        cases h
  · rintro ⟨⟨rest', heq, hmem, hend⟩, hoffset, rfl⟩
    have hscan := scan_of_mem_language hmem hend
    rw [← heq] at hscan
    rw [read_of_token hc hscan, heq, List.take_left, ← hoffset]

/-- Where nothing munches, the reader stops at a fault.  The mark stays, and the failure is where
the cursor is. -/
theorem nextToken_of_not_munches (hc : c.Settled) (hahead : c.ahead = u :: rest)
    (hu : u.isWhitespace = false) (hnone : ¬ ∃ kind l, Munches c.ahead kind l) :
    ∃ failure c', c.nextToken = (.error failure, c') ∧ c'.mark = c.mark ∧
      failure.location = c'.location := by
  have hfinds := finds_scan_ahead hahead hu
  cases hscan : (Reader.dispatch c.ahead).scan c.ahead with
  | token kind n =>
      rw [hscan] at hfinds
      obtain ⟨l, rest', heq, -, hmem, hend⟩ := finds_token_iff.1 hfinds
      exact absurd ⟨kind, l, munches_iff.2 ⟨rest', heq, hmem, hend⟩⟩ hnone
  | fault cause n =>
      have hn : n ≤ c.ahead.length := by
        have hlength : ((Reader.dispatch c.ahead).scan c.ahead).length ≤ c.ahead.length :=
          length_scan_le_ahead hahead
        rwa [hscan] at hlength
      rw [nextToken_eq_read hahead hu, read_of_fault hc hahead hscan]
      exact ⟨_, _, rfl, mark_advanceBy n c, (location_advanceBy hc.nonneg hn).symm⟩

/-- The dot behind a longest integer is taken, and then the fraction is missing. -/
theorem nextToken_of_integer_dot (hc : c.Settled) (hahead : c.ahead = u :: rest)
    (hu : u.isWhitespace = false) {l : Text} (hlongest : IsLongest l c.ahead)
    (hinteger : l ∈ integer) (hdot : (c.ahead.drop l.length).head? = some dot) :
    ∃ failure c', c.nextToken = (.error failure, c') ∧ failure.fault = .missingFraction ∧
      c'.index = c.index + l.length + 1 := by
  obtain ⟨behind, hbehind⟩ := hlongest.front
  rw [← hbehind, List.drop_left] at hdot
  obtain ⟨rest', rfl⟩ := List.head?_eq_some_iff.1 hdot
  have hdigit : ∀ v ∈ rest'.head?, v.isDigit = false := by
    intro v hv
    by_contra hdigit
    obtain ⟨rest', rfl⟩ := List.head?_eq_some_iff.1 hv
    have hmem : l ++ dot :: [v] ∈ decimal :=
      mem_decimal.2 ⟨l, hinteger, [v], List.cons_ne_nil v [], by simpa using hdigit, rfl⟩
    have hlength := hlongest.longest (l ++ dot :: [v]) ⟨rest', by simpa using hbehind⟩
      (mem_lexeme.2 ⟨.decimal, hmem⟩)
    rw [List.length_append, List.length_cons] at hlength
    omega
  have hscan := scan_of_breaks (Breaks.fraction hinteger hdigit)
  rw [List.append_assoc, List.singleton_append, hbehind, List.length_append,
    List.length_singleton] at hscan
  rw [nextToken_eq_read hahead hu, read_of_fault hc hahead hscan]
  refine ⟨_, _, rfl, rfl, ?_⟩
  rw [index_advanceBy]
  omega

/-- **The next token is the longest lexeme.**  A cursor that stands on something other than
whitespace, with nothing pending, returns a token of a kind and lexeme exactly if the lexeme is the
longest at the front of the text ahead, belongs to that kind and no other, and is no integer that a
dot follows.  The token then has the offset at which the cursor stood, and the cursor stands right
behind it.  In all other cases there is a failure, and the mark stays.

The last clause is the exception at work: a dot behind a longest integer is never left for an
operator, and it is the unit behind the dot that is at fault. -/
theorem nextToken_maximal_munch (hmark : c.mark = c.index) (hstart : 0 ≤ c.index)
    (hend : c.index < c.source.length) (hgap : c.atWhitespace = false) :
    (∀ kind l, (∃ token c', c.nextToken = (.ok token, c') ∧ token.kind = kind ∧ token.lexeme = l) ↔
      Munches c.ahead kind l) ∧
    (∀ token c', c.nextToken = (.ok token, c') →
      token.offset = c.index + c.baseOffset ∧ c'.index = c.index + token.lexeme.length ∧
        c'.mark = c'.index) ∧
    ((¬ ∃ kind l, Munches c.ahead kind l) ↔
      ∃ failure c', c.nextToken = (.error failure, c') ∧ c'.mark = c.mark ∧
        failure.location = c'.location) ∧
    (∀ l, IsLongest l c.ahead → l ∈ integer → (c.ahead.drop l.length).head? = some dot →
      ∃ failure c', c.nextToken = (.error failure, c') ∧ failure.fault = .missingFraction ∧
        c'.index = c.index + l.length + 1) := by
  have hc : c.Settled := ⟨hmark, hstart, hend.le⟩
  obtain ⟨u, rest, hahead⟩ := exists_ahead hstart hend
  have hu : u.isWhitespace = false := by
    rwa [atWhitespace_of_ahead hahead] at hgap
  refine ⟨?_, ?_, ?_, ?_⟩
  · intro kind l
    constructor
    · rintro ⟨token, c', h, rfl, rfl⟩
      exact ((nextToken_eq_ok_iff hc hahead hu).1 h).1
    · intro h
      exact ⟨⟨kind, l, c.location.offset⟩, _,
        (nextToken_eq_ok_iff hc hahead hu).2 ⟨h, rfl, rfl⟩, rfl, rfl⟩
  · intro token c' h
    obtain ⟨-, hoffset, rfl⟩ := (nextToken_eq_ok_iff hc hahead hu).1 h
    exact ⟨hoffset, index_advanceBy _ c, rfl⟩
  · constructor
    · exact nextToken_of_not_munches hc hahead hu
    · rintro ⟨failure, c', h, -⟩ ⟨kind, l, hmunch⟩
      have htoken : c.nextToken = (.ok ⟨kind, l, c.location.offset⟩, _) :=
        (nextToken_eq_ok_iff hc hahead hu).2 ⟨hmunch, rfl, rfl⟩
      rw [h] at htoken
      cases htoken
  · intro l hlongest hinteger hdot
    exact nextToken_of_integer_dot hc hahead hu hlongest hinteger hdot

/-- In front of `12.` stands no token, although `12` is the longest lexeme there. -/
theorem nextToken_maximal_munch_trailing_dot :
    let c := Cursor.start [0x31, 0x32, dot] Location.start
    c.mark = c.index ∧ 0 ≤ c.index ∧ c.index < c.source.length ∧ c.atWhitespace = false ∧
      ¬ ∃ kind l, Munches c.ahead kind l := by
  intro c
  refine ⟨rfl, by decide, by decide, by decide, ?_⟩
  have hread : c.nextToken.1 = .error ⟨.missingFraction, [0x31, 0x32, dot], ⟨1, 4, 3⟩⟩ := by decide
  exact (nextToken_maximal_munch rfl (by decide) (by decide) (by decide)).2.2.1.2
    ⟨_, c.nextToken.2, Prod.ext hread rfl, rfl, rfl⟩

end Cursor

end Lexis

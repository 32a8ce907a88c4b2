import Lexis.Diagnostic
import Lexis.Proofs.Restart
import Mathlib.Algebra.Ring.Int.Defs

/-!
# Lexing line by line

No token reaches across a line feed, and to a reader the end of a line is as good as the end of the
text.  So a text may be cut at its line feeds and lexed one line at a time, by a caller who keeps
count of where the lines begin.  Only the fault at the end of a line may be another one: at a line
feed a literal breaks for a different reason than where nothing is left.

* `Text.lines`, `Location.ofLine` — the lines of a text, and where they begin.
* `Breaks.exists_lineFeed` — what breaks at the end breaks at a line feed as well.
* `lex_append_line`, `lex_append_line_error` — one line, and what a line feed behind it changes.
* `lexLines` — the answers of `lex` for the lines of a text.
* **`lex_line_by_line`** — they are as good as the answer for the text.
-/

namespace Lexis

open CodeUnit

/-! ## Lines -/

namespace Text

/-- The lines of a text: what its line feeds cut it into. -/
def lines (t : Text) : List Text := t.splitOn lineFeed

lemma lines_of_not_mem {line : Text} (h : lineFeed ∉ line) : line.lines = [line] :=
  List.splitOn_eq_singleton h

lemma lines_append {line : Text} (h : lineFeed ∉ line) (rest : Text) :
    (line ++ lineFeed :: rest).lines = line :: rest.lines :=
  List.splitOn_append_cons_self_of_not_mem h rest

/-- Every text is one line, or a line with a line feed and a text behind it. -/
theorem line_induction {motive : Text → Prop} (last : ∀ line, lineFeed ∉ line → motive line)
    (more : ∀ line rest, lineFeed ∉ line → motive rest → motive (line ++ lineFeed :: rest))
    (t : Text) : motive t := by
  induction hlength : t.length using Nat.strong_induction_on generalizing t with
  | _ n ih =>
      subst hlength
      by_cases h : lineFeed ∈ t
      · obtain ⟨line, rest, rfl, hline⟩ := List.eq_append_cons_of_mem h
        refine more line rest hline (ih rest.length ?_ rest rfl)
        rw [List.length_append, List.length_cons]
        omega
      · exact last t h

end Text

namespace Location

/-- Where line `i` of a text begins.  The units before it are those of the lines before it, and one
line feed for each of these lines. -/
def ofLine (base : Location) (t : Text) (i : Nat) : Location where
  line := base.line + i
  column := if i = 0 then base.column else 1
  offset := base.offset + ((t.lines.take i).map fun line => (line.length : Int) + 1).sum

@[simp] lemma ofLine_zero (base : Location) (t : Text) : base.ofLine t 0 = base := by
  simp [ofLine]

lemma after_line {line : Text} (h : lineFeed ∉ line) (base : Location) :
    base.after (line ++ [lineFeed]) = ⟨base.line + 1, 1, base.offset + line.length + 1⟩ := by
  rw [after_eq_past, past]
  simp [Text.sinceLineFeed_concat, List.count_eq_zero_of_not_mem h]
  omega

/-- The lines behind the first are the lines of the text behind the first. -/
lemma ofLine_succ {line : Text} (h : lineFeed ∉ line) (base : Location) (rest : Text) (i : Nat) :
    base.ofLine (line ++ lineFeed :: rest) (i + 1) =
      (base.after (line ++ [lineFeed])).ofLine rest i := by
  rw [after_line h, ofLine, ofLine, Text.lines_append h]
  simp
  omega

end Location

/-! ## One line -/

/-- A start that breaks at the end of a text breaks at a line feed, if perhaps for another reason. -/
lemma Breaks.exists_lineFeed {start : Text} {cause : Fault} (h : Breaks start none cause) :
    ∃ cause', Breaks start (some lineFeed) cause' := by
  generalize hnext : none = next at h
  cases h with
  | fraction hi _ =>
      exact ⟨_, Breaks.fraction hi fun u hu => by
        obtain rfl : lineFeed = u := Option.some.inj hu
        decide⟩
  | characterEnd => exact ⟨_, Breaks.characterLineBreak (by decide)⟩
  | characterEmpty => cases hnext
  | characterLineBreak hu => cases hnext
  | characterEscapeEnd => exact ⟨_, Breaks.characterEscape (by decide)⟩
  | characterEscape hu => cases hnext
  | characterClose hcontent _ => exact ⟨_, Breaks.characterClose hcontent (by decide)⟩
  | stringClose hcontent _ =>
      exact ⟨_, Breaks.stringClose hcontent fun u hu => by
        obtain rfl : lineFeed = u := Option.some.inj hu
        decide⟩
  | stringEscapeEnd hcontent => exact ⟨_, Breaks.stringEscape hcontent (by decide)⟩
  | stringEscape hcontent hu => cases hnext

/-- Behind a line that lexes, the answer is that of the text behind its line feed. -/
lemma lex_append_line {base : Location} {line : Text} {part : List Token}
    (h : lex base line = .ok part) (rest : Text) :
    lex base (line ++ lineFeed :: rest) =
      (lex (base.after (line ++ [lineFeed])) rest).map (part ++ ·) := by
  have hseam : Separated line (lineFeed :: rest) :=
    Or.inr (Or.inr (Or.inr ⟨lineFeed, rfl, by decide⟩))
  have hreads := (lex_eq_ok_iff.1 h).extend hseam
  rw [hreads.lex_append, lex_whitespace (by decide), Location.after_append, Location.after_cons,
    Location.after_nil]

/-- A line that fails does so in front of a line feed too, at the same place.  The fault is the same,
unless that place is the end of the line. -/
lemma lex_append_line_error {base : Location} {line : Text} {failure : Failure}
    (h : lex base line = .error failure) (rest : Text) :
    ∃ failure', lex base (line ++ lineFeed :: rest) = .error failure' ∧
      failure'.location = failure.location ∧ failure'.pending = failure.pending ∧
        (failure'.fault = failure.fault ∨
          failure.location.offset = base.offset + line.length) := by
  obtain ⟨pre, start, behind, tokens, cause, rfl, hreads, hbreaks, rfl⟩ := lex_eq_error_iff.1 h
  obtain ⟨w, t, rfl, -⟩ := hbreaks.exists_cons
  have hreads' : Reads base pre (w :: t ++ (behind ++ lineFeed :: rest)) tokens :=
    hreads.congr_head rfl
  rw [List.append_assoc, List.append_assoc]
  cases behind with
  | nil =>
      obtain ⟨cause', hbreaks'⟩ := hbreaks.exists_lineFeed
      refine ⟨_, hreads'.lex_eq_error hbreaks', rfl, rfl, Or.inr ?_⟩
      rw [List.append_nil]
      exact Location.offset_after base _
  | cons u behind => exact ⟨_, hreads'.lex_eq_error hbreaks, rfl, rfl, Or.inl rfl⟩

/-! ## All lines -/

/-- The answers of `lex` for the lines of a text, each of them lexed where it begins. -/
def lexLines (base : Location) (t : Text) : List (Except Failure (List Token)) :=
  t.lines.mapIdx fun i line => lex (base.ofLine t i) line

lemma lexLines_of_not_mem {line : Text} (h : lineFeed ∉ line) (base : Location) :
    lexLines base line = [lex base line] := by
  rw [lexLines, Text.lines_of_not_mem h, List.mapIdx_singleton, Location.ofLine_zero]

lemma lexLines_append {line : Text} (h : lineFeed ∉ line) (base : Location) (rest : Text) :
    lexLines base (line ++ lineFeed :: rest) =
      lex base line :: lexLines (base.after (line ++ [lineFeed])) rest := by
  rw [lexLines, Text.lines_append h, List.mapIdx_cons, Location.ofLine_zero]
  simp only [Location.ofLine_succ h, lexLines]

/-- If all lines lex, so does the text, to the tokens of all lines. -/
lemma lex_of_lexLines_ok {base : Location} {t : Text} {parts : List (List Token)}
    (h : lexLines base t = parts.map .ok) : lex base t = .ok parts.flatten := by
  induction t using Text.line_induction generalizing base parts with
  | last line hline =>
      rw [lexLines_of_not_mem hline] at h
      obtain ⟨part, rfl, hpart⟩ := List.map_eq_singleton_iff.1 h.symm
      rw [← hpart, List.flatten_singleton]
  | more line rest hline ih =>
      rw [lexLines_append hline] at h
      obtain ⟨part, parts, rfl, hpart, hrest⟩ := List.map_eq_cons_iff.1 h.symm
      rw [lex_append_line hpart.symm, ih hrest.symm, List.flatten_cons]
      rfl

/-- The failure is at the line feed that ends line `i`. -/
def Failure.AtLineFeed (failure : Failure) (base : Location) (t : Text) (i : Nat) : Prop :=
  ∃ (line : Text) (p : Nat), t.lines[i]? = some line ∧ t[p]? = some lineFeed ∧
    failure.location.offset = base.offset + p ∧
      failure.location.offset = (base.ofLine t i).offset + line.length

/-- If a line fails and all lines before it lex, the text fails at the same place. -/
lemma lex_of_lexLines_error {base : Location} {t : Text} {parts : List (List Token)}
    {failure : Failure} {more : List (Except Failure (List Token))}
    (h : lexLines base t = parts.map .ok ++ .error failure :: more) :
    ∃ failure', lex base t = .error failure' ∧ failure'.location = failure.location ∧
      failure'.pending = failure.pending ∧
        (failure'.fault = failure.fault ∨ failure'.AtLineFeed base t parts.length) := by
  induction t using Text.line_induction generalizing base parts with
  | last line hline =>
      rw [lexLines_of_not_mem hline] at h
      cases parts with
      | nil => exact ⟨failure, (List.cons.inj h).1, rfl, rfl, Or.inl rfl⟩
      | cons part parts => simp at h
  | more line rest hline ih =>
      rw [lexLines_append hline] at h
      cases parts with
      | nil =>
          obtain ⟨hfirst, -⟩ := List.cons.inj h
          obtain ⟨failure', hlex, hlocation, hpending, hfault⟩ := lex_append_line_error hfirst rest
          refine ⟨failure', hlex, hlocation, hpending, hfault.imp_right fun hend => ?_⟩
          refine ⟨line, line.length, ?_, ?_, ?_, ?_⟩
          · rw [Text.lines_append hline]
            rfl
          · rw [List.getElem?_append_right (Nat.le_refl _), Nat.sub_self]
            rfl
          · rw [hlocation, hend]
          · rw [hlocation, hend, List.length_nil, Location.ofLine_zero]
      | cons part parts =>
          obtain ⟨hpart, hrest⟩ := List.cons.inj h
          obtain ⟨failure', hlex, hlocation, hpending, hfault⟩ := ih hrest
          refine ⟨failure', ?_, hlocation, hpending, hfault.imp_right ?_⟩
          · rw [lex_append_line hpart, hlex]
            rfl
          · rintro ⟨line', p, hline', hp, hoffset, hend⟩
            refine ⟨line', line.length + 1 + p, ?_, ?_, ?_, ?_⟩
            · rw [Text.lines_append hline]
              exact hline'
            · have hindex : line.length + 1 + p - line.length = p + 1 := by omega
              rw [List.getElem?_append_right (by omega), hindex, List.getElem?_cons_succ, hp]
            · rw [hoffset, Location.after_line hline]
              simp only
              omega
            · rw [hend, List.length_cons, Location.ofLine_succ hline]

/-- The answers of several calls are all of them good, or there is a first that fails. -/
lemma exists_map_ok_or_error {ε α : Type} (results : List (Except ε α)) :
    (∃ parts : List α, results = parts.map .ok) ∨
      ∃ (parts : List α) (e : ε) (more : List (Except ε α)),
        results = parts.map .ok ++ .error e :: more := by
  induction results with
  | nil => exact Or.inl ⟨[], rfl⟩
  | cons result results ih =>
      cases result with
      | error e => exact Or.inr ⟨[], e, results, rfl⟩
      | ok part =>
          rcases ih with ⟨parts, rfl⟩ | ⟨parts, e, more, rfl⟩
          · exact Or.inl ⟨part :: parts, rfl⟩
          · exact Or.inr ⟨part :: parts, e, more, rfl⟩

/-- **Lexing is local to lines.**  A text lexes exactly if all its lines lex, each from where it
begins, and its tokens are those of its lines in order.  If a text fails, then the first line that
fails does so at the same location.  Unless the failure is at the line feed that ends this line, code
and context are also the same. -/
theorem lex_line_by_line (base : Location) (t : Text) :
    (∀ tokens, lex base t = .ok tokens ↔
      ∃ parts : List (List Token), lexLines base t = parts.map .ok ∧ tokens = parts.flatten) ∧
    ∀ failure, lex base t = .error failure →
      ∃ (parts : List (List Token)) (failure' : Failure) (more : List (Except Failure (List Token))),
        lexLines base t = parts.map .ok ++ .error failure' :: more ∧
        failure.diagnostic.location = failure'.diagnostic.location ∧
        (¬ failure.AtLineFeed base t parts.length →
          failure.diagnostic.code = failure'.diagnostic.code ∧
            failure.diagnostic.context = failure'.diagnostic.context) := by
  rcases exists_map_ok_or_error (lexLines base t) with ⟨parts, h⟩ | ⟨parts, failure', more, h⟩
  · have hlex := lex_of_lexLines_ok h
    refine ⟨?_, ?_⟩
    · intro tokens
      constructor
      · intro hok
        exact ⟨parts, h, Except.ok.inj (hok.symm.trans hlex)⟩
      · rintro ⟨parts', h', rfl⟩
        exact lex_of_lexLines_ok h'
    · intro failure herror
      rw [hlex] at herror
      cases herror
  · obtain ⟨failure, hlex, hlocation, hpending, hfault⟩ := lex_of_lexLines_error h
    refine ⟨?_, ?_⟩
    · intro tokens
      constructor
      · intro hok
        rw [hlex] at hok
        cases hok
      · rintro ⟨parts', h', rfl⟩
        exact lex_of_lexLines_ok h'
    · intro failure₀ herror
      obtain rfl := Except.error.inj (hlex.symm.trans herror)
      refine ⟨parts, failure', more, h, ?_, fun hinside => ?_⟩
      · rw [Failure.location_diagnostic, Failure.location_diagnostic, hlocation]
      · exact Failure.diagnostic_congr (hfault.resolve_right hinside) hpending

/-- The second line of `a`, `"\q` and an empty line fails at the unit `q`, and so does the text. -/
theorem lex_line_by_line_unknown_escape :
    let t := [lowerA, lineFeed, doubleQuote, backslash, 0x71, lineFeed]
    let failure : Failure := ⟨.unknownEscape 0x71, [doubleQuote, backslash], ⟨2, 3, 4⟩⟩
    lex Location.start t = .error failure ∧
      ∃ (parts : List (List Token)) (failure' : Failure) (more : List (Except Failure (List Token))),
        lexLines Location.start t = parts.map .ok ++ .error failure' :: more ∧
        failure'.diagnostic.location = ⟨2, 3, 4⟩ ∧
        failure'.diagnostic.code = .invalidEscape := by
  intro t failure
  have hlex : lex Location.start t = .error failure := by cbv
  obtain ⟨parts, failure', more, hlines, hlocation, hsame⟩ :=
    (lex_line_by_line Location.start t).2 failure hlex
  have hinside : ¬ failure.AtLineFeed Location.start t parts.length := by
    rintro ⟨line, p, -, hp, hoffset, -⟩
    obtain rfl : p = 4 := by
      have hoffset : (4 : Int) = 0 + p := hoffset
      omega
    exact absurd hp (by decide)
  exact ⟨hlex, parts, failure', more, hlines, hlocation.symm.trans failure.location_diagnostic,
    (hsame hinside).1.symm.trans failure.code_diagnostic⟩

end Lexis

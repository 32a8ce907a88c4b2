import Lexis.Diagnostic
import Lexis.Proofs.Lines
import Lexis.Proofs.Runs

/-!
# Putting a position behind a message and taking it off again

The message of a diagnostic with a location ends in a position, and its summary has the message without
it.  What is taken off is the first ending of the text that looks like a position.  A body may itself
end like one, and may do so several times, so it has to be seen that the search never begins inside the
body.

* `isPosition_iff` — what counts as a position.
* `count_space_of_isPosition` — a position has two spaces, and begins with one of them.
* **`stripPosition_append`** — so nothing that is longer than a position ends in it and is one.
* `stripPosition_eq_self_iff` — and a text without such an ending keeps what it has.
* `Location.isPosition_suffix` — the ending of a message is a position, if line and column are not
  negative.
* **`summary_message_exact`** — the summary of a diagnostic has the message that it was built from.
* **`unlocated_summary_message_iff`** — without a location it has so too, unless the message ends in a
  position of its own.
-/

namespace Lexis

open CodeUnit

/-! ## Positions -/

variable {t l c : Text}

lemma isNumeral_iff : isNumeral t = true ↔ t ≠ [] ∧ ∀ u ∈ t, u.isDigit = true := by
  simp [isNumeral]

/-- A colon ends the numeral in front of it. -/
lemma isLineAndColumn_append (hl : ∀ u ∈ l, u.isDigit = true) :
    isLineAndColumn (l ++ colon :: c) = (isNumeral l && isNumeral c) := by
  have htake : (l ++ colon :: c).takeWhile isDigit = l := by
    rw [List.takeWhile_append_of_pos hl, List.takeWhile_cons_of_neg (by decide), List.append_nil]
  have hdrop : (l ++ colon :: c).dropWhile isDigit = colon :: c := by
    rw [List.dropWhile_append_of_pos hl, List.dropWhile_cons_of_neg (by decide)]
  rw [isLineAndColumn, htake, hdrop]
  simp

theorem isPosition_iff :
    isPosition t = true ↔
      ∃ l c, t = positionMark ++ (l ++ colon :: c) ∧ isNumeral l = true ∧ isNumeral c = true := by
  constructor
  · intro h
    rw [isPosition, Bool.and_eq_true, beq_iff_eq] at h
    obtain ⟨hmark, hrest⟩ := h
    rw [isLineAndColumn, Bool.and_eq_true] at hrest
    obtain ⟨hline, hcolumn⟩ := hrest
    cases hdrop : (t.drop positionMark.length).dropWhile isDigit with
    | nil => simp [hdrop] at hcolumn
    | cons u c =>
        rw [hdrop] at hcolumn
        simp only [Bool.and_eq_true, beq_iff_eq] at hcolumn
        obtain ⟨rfl, hcolumn⟩ := hcolumn
        refine ⟨_, c, ?_, hline, hcolumn⟩
        rw [← hdrop, List.takeWhile_append_dropWhile]
        nth_rewrite 1 [← hmark]
        exact (List.take_append_drop _ t).symm
  · rintro ⟨l, c, rfl, hl, hc⟩
    rw [isPosition, List.take_left, List.drop_left, isLineAndColumn_append (isNumeral_iff.1 hl).2]
    simp [hl, hc]

/-- A position as it is written. -/
lemma written_position (l c : Text) :
    Text.ofString " at " ++ l ++ Text.ofString ":" ++ c = positionMark ++ (l ++ colon :: c) := by
  have hmark : Text.ofString " at " = positionMark := by decide +kernel
  have hcolon : Text.ofString ":" = [colon] := by decide +kernel
  rw [hmark, hcolon, List.append_assoc _ [colon], List.singleton_append, List.append_assoc]

lemma space_not_mem_of_isNumeral (h : isNumeral t = true) : space ∉ t := by
  intro hspace
  exact absurd ((isNumeral_iff.1 h).2 space hspace) (by decide)

lemma count_space_of_isPosition (h : isPosition t = true) :
    t.head? = some space ∧ t.count space = 2 := by
  obtain ⟨l, c, rfl, hl, hc⟩ := isPosition_iff.1 h
  have hcount : (l ++ colon :: c).count space = 0 := by
    refine List.count_eq_zero_of_not_mem fun hspace => ?_
    rcases List.mem_append.1 hspace with hspace | hspace
    · exact space_not_mem_of_isNumeral hl hspace
    · rcases List.mem_cons.1 hspace with heq | hspace
      · exact absurd heq (by decide)
      · exact space_not_mem_of_isNumeral hc hspace
  refine ⟨rfl, ?_⟩
  rw [List.count_append, hcount]
  rfl

/-- **What ends in a position is stripped of it and of nothing else.**  If an ending that begins
further to the front were a position as well, it would have at least three spaces. -/
theorem stripPosition_append (h : isPosition t = true) (m : Text) :
    stripPosition (m ++ t) = m := by
  induction m with
  | nil =>
      cases t with
      | nil => cases h
      | cons u t => rw [List.nil_append, stripPosition, if_pos h]
  | cons u m ih =>
      have hlonger : ¬ isPosition (u :: (m ++ t)) = true := by
        intro hposition
        obtain ⟨hhead, hcount⟩ := count_space_of_isPosition hposition
        obtain rfl : u = space := Option.some.inj hhead
        rw [List.count_cons_self, List.count_append, (count_space_of_isPosition h).2] at hcount
        omega
      rw [List.cons_append, stripPosition, if_neg hlonger, ih]

/-- And what does not end in a position is left as it is. -/
theorem stripPosition_eq_self_iff :
    stripPosition t = t ↔ ∀ tail, tail <:+ t → isPosition tail = false := by
  induction t with
  | nil =>
      refine iff_of_true rfl fun tail htail => ?_
      rw [List.suffix_nil.1 htail]
      decide
  | cons u t ih =>
      by_cases hposition : isPosition (u :: t) = true
      · rw [stripPosition, if_pos hposition]
        refine iff_of_false (List.cons_ne_nil u t).symm fun h => ?_
        rw [h _ List.suffix_rfl] at hposition
        cases hposition
      · rw [stripPosition, if_neg hposition]
        simp [ih, List.suffix_cons_iff, hposition]

namespace Location

lemma isNumeral_ofInt {n : Int} (hn : 0 ≤ n) : isNumeral (Text.ofInt n) = true := by
  obtain ⟨k, rfl⟩ := Int.eq_ofNat_of_zero_le hn
  exact isNumeral_iff.2 ⟨Text.ofNat_ne_nil k, fun u hu => Text.isDigit_of_mem_ofNat hu⟩

lemma isPosition_suffix {loc : Location} (hline : 0 ≤ loc.line) (hcolumn : 0 ≤ loc.column) :
    isPosition loc.suffix = true :=
  isPosition_iff.2 ⟨Text.ofInt loc.line, Text.ofInt loc.column, List.append_assoc ..,
    isNumeral_ofInt hline, isNumeral_ofInt hcolumn⟩

lemma suffix_eq (loc : Location) :
    loc.suffix = Text.ofString " at " ++ Text.ofInt loc.line ++ Text.ofString ":" ++
      Text.ofInt loc.column := by
  rw [written_position]
  exact List.append_assoc ..

/-- Reading on keeps line and column from becoming negative. -/
lemma nonneg_after {loc : Location} (hline : 0 ≤ loc.line) (hcolumn : 0 ≤ loc.column) (t : Text) :
    0 ≤ (loc.after t).line ∧ 0 ≤ (loc.after t).column := by
  rw [after_eq_past, past]
  constructor
  · simp only
    omega
  · simp only
    split <;> omega

end Location

/-! ## Diagnostics -/

variable {loc : Location}

lemma stripPosition_suffix (hline : 0 ≤ loc.line) (hcolumn : 0 ≤ loc.column) (m : Text) :
    stripPosition (m ++ loc.suffix) = m :=
  stripPosition_append (Location.isPosition_suffix hline hcolumn) m

lemma Diagnostic.summary_of_nonneg (code : ErrorCode) (m : Text) (context : Option Context)
    (hline : 0 ≤ loc.line) (hcolumn : 0 ≤ loc.column) :
    Diagnostic.summary ⟨code, m, some loc, context⟩ = ⟨code, m, some loc, context⟩ := by
  simp only [summary, message, stripPosition_suffix hline hcolumn]

lemma LexicalDiagnostic.summary_of_nonneg (code : ErrorCode) (m : Text) (context : Option Context)
    (hline : 0 ≤ loc.line) (hcolumn : 0 ≤ loc.column) :
    LexicalDiagnostic.summary ⟨code, m, loc, context⟩ =
      ⟨code, m, loc, context, loc.offset⟩ := by
  simp only [summary, toDiagnostic, Diagnostic.summary_of_nonneg code m context hline hcolumn,
    offset]

/-- **The summary has the message that a diagnostic was built from.**  For every identifier of the
catalogue, every message, every location with a line and a column that are not negative, and any
context, a diagnostic can be built.  Its message is the given one with ` at line:column` behind it,
whatever that ends in.  Its summary has the given message and all else that it was built from, and
this is what a host gets to format.  A text that is lexed from such a location and fails does so at
such a location, and the summary of the failure has the template of its code, filled in from its
context. -/
theorem summary_message_exact :
    (∀ (id : Text) (code : ErrorCode) (m : Text) (loc : Location) (context : Option Context),
      ErrorCode.ofId? id = some code → 0 ≤ loc.line → 0 ≤ loc.column →
        code.id = id ∧
        (∃ d, Diagnostic.ofId (some id) m (some loc) context = .ok d ∧
          d.message = m ++ (Text.ofString " at " ++ Text.ofInt loc.line ++ Text.ofString ":" ++
            Text.ofInt loc.column) ∧
          d.summary = ⟨code, m, some loc, context⟩ ∧
          ∀ host, d.format (some host) = host ⟨code, m, some loc, context⟩) ∧
        ∃ d, LexicalDiagnostic.ofId (some id) m loc context = .ok d ∧
          d.message = m ++ (Text.ofString " at " ++ Text.ofInt loc.line ++ Text.ofString ":" ++
            Text.ofInt loc.column) ∧
          d.summary = ⟨code, m, loc, context, loc.offset⟩ ∧
          ∀ host, d.format (some host) = host ⟨code, m, loc, context, loc.offset⟩) ∧
    ∀ (base : Location) (input : Text) (failure : Failure), 0 ≤ base.line → 0 ≤ base.column →
      lex base input = .error failure →
        ∃ context, failure.diagnostic.context = some context ∧
          failure.diagnostic.summary.message =
            Template.render failure.diagnostic.code.messageTemplate context := by
  constructor
  · intro id code m loc context hid hline hcolumn
    have hrequire := ErrorCode.require_of_ofId? hid
    have hsummary := Diagnostic.summary_of_nonneg code m context hline hcolumn
    have hlexical := LexicalDiagnostic.summary_of_nonneg code m context hline hcolumn
    refine ⟨ErrorCode.id_of_ofId? hid, ?_, ?_⟩
    · refine ⟨⟨code, m, some loc, context⟩, ?_, ?_, hsummary, ?_⟩
      · rw [Diagnostic.ofId, hrequire]
      · rw [← Location.suffix_eq]
        rfl
      · intro host
        rw [Diagnostic.format, hsummary]
    · refine ⟨⟨code, m, loc, context⟩, ?_, ?_, hlexical, ?_⟩
      · rw [LexicalDiagnostic.ofId, hrequire]
      · rw [← Location.suffix_eq]
        rfl
      · intro host
        rw [LexicalDiagnostic.format, hlexical]
  · intro base input failure hline hcolumn herror
    obtain ⟨pre, start, rest, tokens, cause, rfl, -, -, rfl⟩ := lex_eq_error_iff.1 herror
    obtain ⟨hline', hcolumn'⟩ := Location.nonneg_after hline hcolumn (pre ++ start)
    refine ⟨_, Failure.context_diagnostic _, ?_⟩
    rw [Failure.diagnostic_eq, LexicalDiagnostic.ofCode,
      LexicalDiagnostic.summary_of_nonneg _ _ _ hline' hcolumn']

/-- A message that ends like a position itself, and a string in which `4:2` stands behind a
backslash that escapes nothing. -/
theorem summary_message_exact_twice :
    let m := Text.ofString "see  at 3:4"
    (∃ d, Diagnostic.ofId (some (Text.ofString "IMP-L005")) m (some ⟨0, 12, 7⟩) none = .ok d ∧
      d.message = m ++ Text.ofString " at 0:12" ∧ d.summary.message = m) ∧
    ∃ failure, lex Location.start [doubleQuote, backslash, 0x34, colon, 0x32] = .error failure ∧
      failure.diagnostic.summary.message = Text.ofString "Invalid escape sequence: \\4" := by
  intro m
  obtain ⟨hbuilt, hlexed⟩ := summary_message_exact
  constructor
  · obtain ⟨-, ⟨d, hd, hmessage, hsummary, -⟩, -⟩ :=
      hbuilt (Text.ofString "IMP-L005") .unterminatedString m ⟨0, 12, 7⟩ none (by decide +kernel)
        (by decide) (by decide)
    refine ⟨d, hd, hmessage.trans ?_, by rw [hsummary]⟩
    decide +kernel
  · have hlex : lex Location.start [doubleQuote, backslash, 0x34, colon, 0x32] =
        .error ⟨.unknownEscape 0x34, [doubleQuote, backslash], ⟨1, 3, 2⟩⟩ := by cbv
    obtain ⟨context, hcontext, hmessage⟩ :=
      hlexed Location.start _ _ (by decide) (by decide) hlex
    refine ⟨_, hlex, hmessage.trans ?_⟩
    rw [Failure.context_diagnostic] at hcontext
    rw [Failure.code_diagnostic]
    obtain rfl := Option.some.inj hcontext
    decide +kernel

/-! ## Diagnostics without a location

Nothing is put behind the message of such a diagnostic.  The summary does not ask whether anything has
been, and takes an ending off that looks like a position.
-/

/-- The text is `body` with a position behind it, whoever has put it there. -/
def EndsInPosition (body t : Text) : Prop :=
  ∃ line column : Text, line ≠ [] ∧ (∀ u ∈ line, u.isDigit = true) ∧
    column ≠ [] ∧ (∀ u ∈ column, u.isDigit = true) ∧
    t = body ++ (Text.ofString " at " ++ line ++ Text.ofString ":" ++ column)

lemma endsInPosition_iff {body : Text} :
    EndsInPosition body t ↔ ∃ tail, isPosition tail = true ∧ t = body ++ tail := by
  constructor
  · rintro ⟨line, column, hline, hlines, hcolumn, hcolumns, rfl⟩
    refine ⟨_, isPosition_iff.2 ⟨line, column, written_position line column, ?_, ?_⟩, rfl⟩
    · exact isNumeral_iff.2 ⟨hline, hlines⟩
    · exact isNumeral_iff.2 ⟨hcolumn, hcolumns⟩
  · rintro ⟨tail, htail, rfl⟩
    obtain ⟨line, column, rfl, hline, hcolumn⟩ := isPosition_iff.1 htail
    obtain ⟨hline, hlines⟩ := isNumeral_iff.1 hline
    obtain ⟨hcolumn, hcolumns⟩ := isNumeral_iff.1 hcolumn
    exact ⟨line, column, hline, hlines, hcolumn, hcolumns, by rw [written_position]⟩

lemma stripPosition_of_endsInPosition {body : Text} (h : EndsInPosition body t) :
    stripPosition t = body := by
  obtain ⟨tail, htail, rfl⟩ := endsInPosition_iff.1 h
  exact stripPosition_append htail body

lemma stripPosition_eq_self_iff_not_endsInPosition :
    stripPosition t = t ↔ ¬ ∃ body, EndsInPosition body t := by
  rw [stripPosition_eq_self_iff]
  constructor
  · rintro h ⟨body, hends⟩
    obtain ⟨tail, htail, rfl⟩ := endsInPosition_iff.1 hends
    rw [h tail (List.suffix_append body tail)] at htail
    cases htail
  · rintro h tail ⟨body, rfl⟩
    by_contra htail
    exact h ⟨body, endsInPosition_iff.2 ⟨tail, by simpa using htail, rfl⟩⟩

lemma Diagnostic.ofId_eq_ok {id : Text} {code : ErrorCode} (hid : ErrorCode.ofId? id = some code)
    (m : Text) (location : Option Location) (context : Option Context) :
    Diagnostic.ofId (some id) m location context = .ok ⟨code, m, location, context⟩ := by
  rw [Diagnostic.ofId, ErrorCode.require_of_ofId? hid]

/-- **Without a location the summary has the message up to a position in it.**  For every identifier of
the catalogue, every message and any context, a diagnostic without a location can be built.  Its message
is the given one, and so is the text to show.  Its summary has no location either, and the rest that it
was built from.  The summary has the given message exactly if that does not end in a position.  If it
does, the summary lacks this position, and no more than this. -/
theorem unlocated_summary_message_iff {id : Text} {code : ErrorCode}
    (hid : ErrorCode.ofId? id = some code) (m : Text) (context : Option Context) :
    ∃ d, Diagnostic.ofId (some id) m none context = .ok d ∧ d.message = m ∧ d.format none = m ∧
      code.id = id ∧ d.summary.code = code ∧ d.summary.location = none ∧
      d.summary.context = context ∧
      (d.summary.message = m ↔ ¬ ∃ body, EndsInPosition body m) ∧
      ∀ body, EndsInPosition body m → d.summary.message = body := by
  have hbuilt := Diagnostic.ofId_eq_ok hid m none context
  refine ⟨⟨code, m, none, context⟩, hbuilt, rfl, rfl, ErrorCode.id_of_ofId? hid, rfl, rfl, rfl,
    stripPosition_eq_self_iff_not_endsInPosition, ?_⟩
  intro body hends
  exact stripPosition_of_endsInPosition hends

/-- Of two positions at the end of a message, one is lost. -/
theorem unlocated_summary_message_iff_twice :
    let id := Text.ofString "IMP-L005"
    let m := Text.ofString "see at 3:4 at 5:6"
    ErrorCode.ofId? id = some .unterminatedString ∧
      EndsInPosition (Text.ofString "see at 3:4") m ∧
      ∃ d, Diagnostic.ofId (some id) m none none = .ok d ∧ d.message = m ∧
        d.summary.message = Text.ofString "see at 3:4" := by
  intro id m
  have hid : ErrorCode.ofId? id = some .unterminatedString := by decide +kernel
  have hends : EndsInPosition (Text.ofString "see at 3:4") m :=
    ⟨[0x35], [0x36], List.cons_ne_nil _ _, List.forall_mem_singleton.2 rfl, List.cons_ne_nil _ _,
      List.forall_mem_singleton.2 rfl, by decide +kernel⟩
  obtain ⟨d, hd, hmessage, -, -, -, -, -, -, hsummary⟩ := unlocated_summary_message_iff hid m none
  exact ⟨hid, hends, d, hd, hmessage, hsummary _ hends⟩

/-- A diagnostic without a location does not always keep its message: ` at 1:2` is taken off the end of
a message that nothing has been put behind. -/
theorem not_forall_unlocated_summary_message :
    ¬ ∀ (id : Text) (code : ErrorCode) (m : Text) (context : Option Context),
      ErrorCode.ofId? id = some code →
        ∃ d, Diagnostic.ofId (some id) m none context = .ok d ∧ d.message = m ∧
          d.summary.message = m := by
  intro h
  have hid : ErrorCode.ofId? (Text.ofString "IMP-L001") = some .unterminatedCharacter := by
    decide +kernel
  obtain ⟨d, hd, -, hsummary⟩ := h _ _ (Text.ofString "see at 1:2") none hid
  rw [Diagnostic.ofId_eq_ok hid] at hd
  obtain rfl := Except.ok.inj hd
  have hstripped : stripPosition (Text.ofString "see at 1:2") = Text.ofString "see" := by
    decide +kernel
  have hlost : Text.ofString "see" = Text.ofString "see at 1:2" := hstripped.symm.trans hsummary
  exact absurd hlost (by decide +kernel)

end Lexis

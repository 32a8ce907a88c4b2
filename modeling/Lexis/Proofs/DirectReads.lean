import Lexis.Proofs.Diagnosis
import Lexis.Proofs.Histories

/-!
# Readers called directly

A caller may ask for the next token and leave the choice of the reader to the cursor, or may call a
reader directly.  The choice looks at one unit or two, and each reader looks at its first units once
more.  The two must agree: whoever calls the reader that would have been picked gets the same answer, and
whoever calls another one gets none.

* `Reader.opens` — the units that a reader is picked for.  `Reader.dispatch_eq_iff` says that for each
  unit other than whitespace they are those of one reader.
* `Cursor.picked?` — the reader that is picked at a cursor, if a token is read there at all.
* `Reader.Refusal` — all that a reader finds where it is not the one picked.  The number reader alone has
  taken a unit by then, which is a sign.
* **`Cursor.read_agrees_with_dispatch`** — reading directly and asking for the next token, wherever the
  cursor stands.
* `Cursor.Within` — the order in which the positions of a cursor should be.
* **`Cursor.read_within_iff`** — which direct reads keep that order and have a token that is not empty.

The first result leaves the operator reader out.  It takes whatever is there, and so it also reads where
it is not picked.  The second one is about this reader above all, since it does not look whether anything
is there.
-/

namespace Lexis

open CodeUnit Grammar

/-! ## Which reader is picked -/

namespace Reader

/-- Whether a reader is picked for the unit `u` in front of `next`. -/
def opens : Reader → CodeUnit → Option CodeUnit → Bool
  | identifier, u, _ => u.isLetter || u == underscore
  | number, u, next => u.isDigit || (u.isSign && next.any isDigit)
  | character, u, _ => u == singleQuote
  | string, u, _ => u == doubleQuote
  | operator, u, next => isOperatorUnit u && !(u.isSign && next.any isDigit)

variable {r : Reader} {u : CodeUnit} {next : Option CodeUnit}

lemma startsWithDigit_eq (t : Text) : startsWithDigit t = t.head?.any isDigit := by
  cases t <;> rfl

lemma isWhitespace_eq_false_of_opens (h : r.opens u next = true) : u.isWhitespace = false := by
  cases r <;> grind [opens, isLetter, isDigit, isSign, isOperatorUnit, isWhitespace]

/-- No unit opens two tokens. -/
lemma eq_of_opens {r' : Reader} (h : r.opens u next = true) (h' : r'.opens u next = true) :
    r = r' := by
  cases r <;> cases r' <;> grind [opens, isLetter, isDigit, isSign, isOperatorUnit]

lemma opens_dispatch (hu : u.isWhitespace = false) (rest : Text) :
    (dispatch (u :: rest)).opens u rest.head? = true := by
  rw [dispatch, startsWithDigit_eq]
  grind [opens, isIdentifierStart, isOperatorUnit]

/-- **The choice looks at two units**, and there is always one reader to choose. -/
theorem dispatch_eq_iff (hu : u.isWhitespace = false) (rest : Text) :
    dispatch (u :: rest) = r ↔ r.opens u rest.head? = true := by
  constructor
  · rintro rfl
    exact opens_dispatch hu rest
  · intro h
    exact eq_of_opens (opens_dispatch hu rest) h

/-! ## Readers that are not picked -/

/-- What a reader other than the operator reader finds in front of a text that it is not picked for. -/
inductive Refusal : Reader → Text → Scan → Prop
  | identifier (t : Text) : Refusal .identifier t (.fault .notIdentifier 0)
  | unsigned {t : Text} (ht : ∀ u ∈ t.head?, u.isSign = false) :
      Refusal .number t (.fault (.missingDigit none) 0)
  | sign {u : CodeUnit} (hu : u.isSign = true) (rest : Text) :
      Refusal .number (u :: rest) (.fault (.missingDigit (some u)) 1)
  | character (t : Text) : Refusal .character t (.fault .notCharacter 0)
  | string (t : Text) : Refusal .string t (.fault .notString 0)

lemma Refusal.exists_fault {t : Text} {found : Scan} (h : Refusal r t found) :
    ∃ cause n, found = .fault cause n := by
  cases h <;> exact ⟨_, _, rfl⟩

lemma scanUnsigned_of_head {t : Text} (sign : Option CodeUnit) (ht : t.head?.any isDigit = false) :
    scanUnsigned sign t = .fault (.missingDigit sign) 0 := by
  cases t with
  | nil => rfl
  | cons u rest =>
      have hdigit : u.isDigit = false := ht
      have hzero : u ≠ zero := by
        rintro rfl
        exact Bool.noConfusion hdigit
      simp [scanUnsigned, integerRun, hzero, hdigit]

/-- **A reader that is not picked refuses.** -/
theorem refusal_scan {t : Text} (hr : r ≠ .operator)
    (ht : ∀ u rest, t = u :: rest → r.opens u rest.head? = false) : Refusal r t (r.scan t) := by
  cases t with
  | nil =>
      cases r with
      | identifier => exact .identifier []
      | number => exact .unsigned (by simp)
      | character => exact .character []
      | string => exact .string []
      | operator => exact absurd rfl hr
  | cons u rest =>
      have hopens := ht u rest rfl
      cases r with
      | identifier =>
          have hu : u.isIdentifierStart = false := hopens
          rw [scan, scanIdentifier, if_neg (by simp [hu])]
          exact .identifier _
      | number =>
          simp only [opens, Bool.or_eq_false_iff, Bool.and_eq_false_imp] at hopens
          obtain ⟨hdigit, hnext⟩ := hopens
          have hfirst : (u :: rest).head?.any isDigit = false := hdigit
          cases hsign : u.isSign with
          | true =>
              rw [scan, scanNumber, if_pos hsign, scanUnsigned_of_head _ (hnext hsign)]
              exact .sign hsign rest
          | false =>
              rw [scan, scanNumber, if_neg (by simp [hsign]), scanUnsigned_of_head _ hfirst]
              exact .unsigned (by simpa using hsign)
      | character =>
          have hu : (u == singleQuote) = false := hopens
          rw [scan, scanCharacter, if_neg (by simpa using hu)]
          exact .character _
      | string =>
          have hu : (u == doubleQuote) = false := hopens
          rw [scan, scanString, if_neg (by simpa using hu)]
          exact .string _
      | operator => exact absurd rfl hr

end Reader

/-! ## At a cursor -/

namespace Cursor

variable {c : Cursor} {r : Reader}

/-- The reader that `nextToken` picks, if it does not refuse to read a token at once. -/
def picked? (c : Cursor) : Option Reader :=
  if c.reaches 0 && !c.atWhitespace then some (Reader.dispatch c.ahead) else none

theorem nextToken_of_picked (h : c.picked? = some r) : c.nextToken = c.read r := by
  rw [picked?] at h
  split_ifs at h with hplace
  simp only [Bool.and_eq_true, Bool.not_eq_true'] at hplace
  obtain rfl : Reader.dispatch c.ahead = r := Option.some.inj h
  simp [nextToken, hplace]

lemma unit?_zero_eq_head? (c : Cursor) : c.unit? 0 = c.ahead.head? := by
  by_cases h : 0 ≤ c.index
  · exact unit?_zero_of_nonneg h
  · simp [unit?, ahead, Int.not_le.1 h]

lemma unit?_one_of_ahead {u : CodeUnit} {rest : Text} (hahead : c.ahead = u :: rest) :
    c.unit? 1 = rest.head? := by
  have hstart := nonneg_of_ahead hahead
  have htail : c.advance.ahead = rest := by
    have hadvance := ahead_advanceBy hstart 1
    rwa [hahead] at hadvance
  rw [← htail, ← unit?_zero_eq_head?]
  simp [unit?]

/-- The reader that is picked is told by one unit or two, also where the text does not begin or has
ended. -/
theorem picked?_eq_some_iff (hr : r ≠ .operator) :
    c.picked? = some r ↔ ∃ u, c.unit? 0 = some u ∧ r.opens u (c.unit? 1) = true := by
  cases hahead : c.ahead with
  | nil =>
      have hunit : c.unit? 0 = none := by rw [unit?_zero_eq_head?, hahead, List.head?_nil]
      refine iff_of_false ?_ (by simp [hunit])
      intro h
      rw [picked?, hahead] at h
      split_ifs at h
      exact hr (Option.some.inj h).symm
  | cons u rest =>
      rw [unit?_one_of_ahead hahead, unit?_zero_of_ahead hahead, picked?, reaches_zero_of_ahead hahead,
        atWhitespace_of_ahead hahead, hahead]
      cases hu : u.isWhitespace with
      | true =>
          refine iff_of_false (by simp) ?_
          rintro ⟨v, hv, hopens⟩
          obtain rfl : u = v := Option.some.inj hv
          rw [Reader.isWhitespace_eq_false_of_opens hopens] at hu
          exact Bool.noConfusion hu
      | false => simp [Reader.dispatch_eq_iff hu]

/-- **A reader that is not picked at a cursor refuses the text ahead.** -/
lemma refusal_of_not_picked (hr : r ≠ .operator) (h : c.picked? ≠ some r) :
    r.Refusal c.ahead (r.scan c.ahead) := by
  refine Reader.refusal_scan hr ?_
  intro u rest hahead
  rw [Ne, picked?_eq_some_iff hr, unit?_zero_of_ahead hahead, unit?_one_of_ahead hahead] at h
  by_contra hopens
  exact h ⟨u, rfl, by simpa using hopens⟩

/-- **Direct calls agree with the choice of the cursor.**  Wherever the cursor stands, let a reader other
than that of operators be called.  The cursor picks it in front of a letter or underscore, of a digit or a
sign with a digit behind it, of a single quote, or of a double quote.  Where it is picked, calling it and
asking for the next token is the same, whether there is a token or a failure.  Where it is not, it fails,
and so only the picked reader has a token.  It leaves the cursor alone, except that the number reader has
gone past a sign if there is one. -/
theorem read_agrees_with_dispatch (c : Cursor) {r : Reader} (hr : r ≠ .operator) :
    (c.picked? = some r ↔ ∃ u, c.unit? 0 = some u ∧ r.opens u (c.unit? 1) = true) ∧
    (∀ token c', c.read r = (.ok token, c') → c.nextToken = (.ok token, c')) ∧
    (c.picked? = some r → c.read r = c.nextToken) ∧
    (c.picked? ≠ some r → ∃ failure c', c.read r = (.error failure, c') ∧ c'.mark = c.mark ∧
      (r ≠ .number → failure.diagnostic.code.id = Text.ofString "IMP-L008" ∧ c' = c) ∧
      (r = .number → failure.diagnostic.code.id = Text.ofString "IMP-L006" ∧
        ((∀ u ∈ c.unit? 0, u.isSign = false) → c' = c) ∧
        ∀ u ∈ c.unit? 0, u.isSign = true → c' = c.advance ∧
          failure.diagnostic.context =
            some (Failure.naming "sign" [singleQuote, u, singleQuote]))) := by
  refine ⟨picked?_eq_some_iff hr, ?_, fun h => (nextToken_of_picked h).symm, ?_⟩
  · intro token c' h
    by_cases hpicked : c.picked? = some r
    · rw [nextToken_of_picked hpicked, h]
    · obtain ⟨cause, n, hscan⟩ := (refusal_of_not_picked hr hpicked).exists_fault
      rw [read_eq_of_fault hscan] at h
      cases h
  · intro hpicked
    have hrefusal := refusal_of_not_picked hr hpicked
    generalize hahead : c.ahead = t at hrefusal
    generalize hscan : r.scan t = found at hrefusal
    rw [unit?_zero_eq_head?, hahead]
    rw [← hahead] at hscan
    have hread : ∀ {cause : Fault} {n : Nat}, found = .fault cause n →
        c.read r = (.error ((c.advanceBy n).failure cause), c.advanceBy n) :=
      fun hfound => read_eq_of_fault (hscan.trans hfound)
    simp only [Failure.code_diagnostic, Failure.context_diagnostic]
    cases hrefusal with
    | identifier => exact ⟨_, c, hread rfl, rfl, fun _ => ⟨rfl, rfl⟩, fun h => by cases h⟩
    | character => exact ⟨_, c, hread rfl, rfl, fun _ => ⟨rfl, rfl⟩, fun h => by cases h⟩
    | string => exact ⟨_, c, hread rfl, rfl, fun _ => ⟨rfl, rfl⟩, fun h => by cases h⟩
    | unsigned ht =>
        refine ⟨_, c, hread rfl, rfl, fun h => absurd rfl h, fun _ => ⟨rfl, fun _ => rfl, ?_⟩⟩
        intro u hu hsign
        rw [ht u hu] at hsign
        exact Bool.noConfusion hsign
    | @sign u hu rest =>
        refine ⟨_, c.advance, hread rfl, mark_advance c, fun h => absurd rfl h, fun _ => ⟨rfl, ?_, ?_⟩⟩
        · intro hunsigned
          rw [hunsigned u rfl] at hu
          exact Bool.noConfusion hu
        · intro v hv _
          obtain rfl : u = v := Option.some.inj hv
          exact ⟨rfl, rfl⟩

/-- In front of `+1` the number reader is picked.  In front of `+a` it is not, and has gone past the sign
when it fails. -/
theorem read_agrees_with_dispatch_sign :
    let c := Cursor.start [plus, 0x31] Location.start
    let d := Cursor.start [plus, lowerA] Location.start
    Reader.number ≠ .operator ∧ c.picked? = some .number ∧ c.read .number = c.nextToken ∧
      d.picked? ≠ some .number ∧ ∃ failure, d.read .number = (.error failure, d.advance) ∧
        failure.diagnostic.code.id = Text.ofString "IMP-L006" ∧
        failure.diagnostic.context =
          some (Failure.naming "sign" [singleQuote, plus, singleQuote]) := by
  intro c d
  have hr : Reader.number ≠ .operator := by decide
  obtain ⟨hpicked, -, hsame, -⟩ := read_agrees_with_dispatch c hr
  obtain ⟨hiff, -, -, hrefuses⟩ := read_agrees_with_dispatch d hr
  have hc : c.picked? = some .number := hpicked.2 ⟨plus, rfl, by decide⟩
  have hd : d.picked? ≠ some .number := by
    rw [Ne, hiff]
    rintro ⟨u, hu, hopens⟩
    obtain rfl : plus = u := Option.some.inj hu
    exact absurd hopens (by decide)
  obtain ⟨failure, c', hread, -, -, hnumber⟩ := hrefuses hd
  obtain ⟨hid, -, hsign⟩ := hnumber rfl
  obtain ⟨rfl, hcontext⟩ := hsign plus rfl (by decide)
  exact ⟨hr, hc, hsame hc, hd, failure, hread, hid, hcontext⟩

/-! ## Direct reads at the end of the text -/

/-- The order of the positions of a cursor: the mark is not in front of the text and not behind the index,
which is not behind the end. -/
structure Within (c : Cursor) : Prop where
  mark_nonneg : 0 ≤ c.mark
  mark_le_index : c.mark ≤ c.index
  index_le_length : c.index ≤ c.source.length

/-- A read keeps the order of mark and index.  Only the end of the text can be missed. -/
lemma within_of_index_le (hc : c.Settled) (hend : (c.read r).2.index ≤ c.source.length) :
    (c.read r).2.Within := by
  have hmark := hc.mark_eq
  have hstart := hc.nonneg
  have hforward : (c.read r).2.mark = c.mark ∨ (c.read r).2.mark = (c.read r).2.index := by
    rw [read]
    cases r.scan c.ahead with
    | token kind n => exact Or.inr rfl
    | fault cause n => exact Or.inl (mark_advanceBy n c)
  have hindex := index_read c r
  exact ⟨by omega, by omega, by rwa [source_read]⟩

/-- What a token is read from is not empty, and so the token is not. -/
lemma lexeme_ne_nil_of_read (hc : c.Settled) (hr : r ≠ .operator ∨ c.ahead ≠ []) {token : Token}
    (h : (c.read r).1 = .ok token) : token.lexeme ≠ [] := by
  cases hscan : r.scan c.ahead with
  | token kind n =>
      have hpos := Reader.token_length_pos hscan
      have hlength := Reader.length_scan_le r c.ahead hr
      rw [hscan, Scan.length] at hlength
      rw [read_of_token hc hscan] at h
      obtain rfl := Except.ok.inj h
      refine List.ne_nil_of_length_pos ?_
      rw [List.length_take]
      omega
  | fault cause n =>
      rw [read_eq_of_fault hscan] at h
      cases h

lemma ahead_eq_nil (hc : c.Settled) (hend : c.index = c.source.length) : c.ahead = [] := by
  rw [ahead_of_nonneg hc.nonneg, hend, Int.toNat_natCast, List.drop_length]

/-- At the end, the operator reader makes a token of nothing, and goes on behind the end. -/
lemma read_operator_of_end (hc : c.Settled) (hend : c.index = c.source.length) :
    c.read .operator = (.ok ⟨.operator, [], c.location.offset⟩, c.advance.setMark) := by
  have hscan : Reader.operator.scan c.ahead = .token .operator 1 := by
    rw [ahead_eq_nil hc hend]
    rfl
  rw [read_of_token hc hscan, ahead_eq_nil hc hend]
  rfl

/-- **Direct reads keep to the text, but for the operator reader at the end.**  With nothing pending, let
any reader be called.  If it fails, the failure can be reported, under an identifier of the catalogue.
The positions stay in order and a token is not empty, exactly if this is not the operator reader at the
end of the text.  There it has a token of no units, and the index comes to stand behind the end. -/
theorem read_within_iff (hc : c.Settled) (r : Reader) :
    (∀ failure, (c.read r).1 = .error failure →
      failure.report = .ok failure.diagnostic ∧
      LexicalDiagnostic.ofId (some failure.diagnostic.code.id) failure.diagnostic.body
        failure.diagnostic.location failure.diagnostic.context = .ok failure.diagnostic) ∧
    ((c.read r).2.Within ∧ (∀ token, (c.read r).1 = .ok token → token.lexeme ≠ []) ↔
      (r = .operator → c.index < c.source.length)) ∧
    (c.index = c.source.length →
      c.read .operator = (.ok ⟨.operator, [], c.location.offset⟩, c.advance.setMark)) := by
  refine ⟨fun failure _ => ⟨failure.report_eq, LexicalDiagnostic.ofId_id _⟩, ⟨?_, ?_⟩,
    read_operator_of_end hc⟩
  · rintro ⟨-, hlexeme⟩ rfl
    by_contra hlt
    have hend : c.index = c.source.length := Int.le_antisymm hc.le_length (Int.not_lt.1 hlt)
    exact hlexeme _ (congrArg Prod.fst (read_operator_of_end hc hend)) rfl
  · intro hinside
    have hreach : r = .operator → c.reaches 0 = true := by
      intro hr
      simpa [reaches] using hinside hr
    refine ⟨within_of_index_le hc (index_read_le hc.nonneg hc.le_length hreach), ?_⟩
    intro token htoken
    exact lexeme_ne_nil_of_read hc (ne_operator_or_ahead_ne_nil hc.nonneg hreach) htoken

/-- In front of `a`, the operator reader keeps to the text.  Behind it, it does not. -/
theorem read_within_iff_letter :
    let c := Cursor.start [lowerA] Location.start
    c.Settled ∧ (c.read .operator).2.Settled ∧ (c.read .operator).2.Within ∧
      ¬ ((c.read .operator).2.read .operator).2.Within := by
  intro c
  have hc : c.Settled := ⟨rfl, by decide, by decide⟩
  have hd : (c.read .operator).2.Settled := ⟨rfl, by decide, by decide⟩
  obtain ⟨-, hkeeps, -⟩ := read_within_iff hc .operator
  obtain ⟨-, -, hbehind⟩ := read_within_iff hd .operator
  refine ⟨hc, hd, (hkeeps.2 fun _ => by decide).1, fun hwithin => ?_⟩
  rw [hbehind (by decide)] at hwithin
  exact absurd hwithin.index_le_length (by decide)

/-- Not every reader keeps to the text: with no text at all, the operator reader has an empty token and
leaves the index behind the end. -/
theorem not_forall_read_within :
    ¬ ∀ (c : Cursor) (r : Reader), c.Settled →
      (c.read r).2.Within ∧ ∀ token, (c.read r).1 = .ok token → token.lexeme ≠ [] := by
  intro h
  obtain ⟨-, hlexeme⟩ := h (Cursor.start [] Location.start) .operator ⟨rfl, by decide, by decide⟩
  exact hlexeme ⟨.operator, [], 0⟩ (by decide) rfl

end Cursor

end Lexis

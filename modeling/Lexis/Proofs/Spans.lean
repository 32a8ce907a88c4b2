import Lexis.Proofs.Histories
import Mathlib.Data.List.Basic

/-!
# No text is lost

A client of a cursor deals with the text piece by piece.  A token deals with the text between the mark
and the index, setting the mark drops that text, and nothing else moves the mark.  So the pieces are
the text in front of the mark, in order and without gap or overlap, whatever calls are made and however
they end.  What a reader has gone over before it failed is in the piece that the mark moves over next.

* `Text.slice_append_slice`, `Text.slice_add_length` — slices that border on each other, and slices
  that reach behind the end.
* `Session.Event.dealt` — the text that a call has dealt with.
* `Session.mark_perform_eq_or` — which calls move the mark.
* **`Session.dealt_eq_slice`** — a call deals with the text between the marks before and after it.
* `Session.flatMap_dealt` — hence a session deals with the text up to the mark that it leaves.
* `Session.pairwise_tokens` — tokens come in the order of the text.
* **`Session.no_text_lost`** — all of this from the front of a text.
-/

namespace Lexis

open CodeUnit

/-! ## Slices -/

namespace Text

variable {t : Text} {i j k : Int}

lemma slice_of_nonneg (hi : 0 ≤ i) (hj : 0 ≤ j) :
    t.slice i j = (t.drop i.toNat).take (j.toNat - i.toNat) := by
  obtain ⟨i, rfl⟩ := Int.eq_ofNat_of_zero_le hi
  obtain ⟨j, rfl⟩ := Int.eq_ofNat_of_zero_le hj
  rw [slice_natCast, Int.toNat_natCast, Int.toNat_natCast, List.drop_take]

lemma slice_self (hi : 0 ≤ i) : t.slice i i = [] := by
  rw [slice_of_nonneg hi hi, Nat.sub_self, List.take_zero]

/-- Where one slice ends the next may begin, also behind the end of the text. -/
lemma slice_append_slice (hi : 0 ≤ i) (hij : i ≤ j) (hjk : j ≤ k) :
    t.slice i j ++ t.slice j k = t.slice i k := by
  have hdrop : t.drop j.toNat = (t.drop i.toNat).drop (j.toNat - i.toNat) := by
    rw [List.drop_drop]
    congr 1
    omega
  have hlength : k.toNat - i.toNat = (j.toNat - i.toNat) + (k.toNat - j.toNat) := by omega
  rw [slice_of_nonneg hi (by omega), slice_of_nonneg (by omega) (by omega),
    slice_of_nonneg hi (by omega), hdrop, hlength, List.take_add]

lemma length_slice_le (hi : 0 ≤ i) (hij : i ≤ j) : (t.slice i j).length ≤ j - i := by
  have hle := List.length_take_le (j.toNat - i.toNat) (t.drop i.toNat)
  rw [slice_of_nonneg hi (by omega)]
  omega

/-- A slice that reaches behind the end is no longer than it says. -/
lemma slice_add_length (hi : 0 ≤ i) (hij : i ≤ j) :
    t.slice i (i + (t.slice i j).length) = t.slice i j := by
  rw [slice_of_nonneg hi (by omega), slice_of_nonneg (j := j) hi (by omega), List.take_eq_take_iff,
    List.length_take]
  omega

end Text

namespace Session

variable {source : Text} {base : Location} {c : Cursor} {calls : List Call}

/-! ## Which calls move the mark -/

namespace Event

/-- The text that a call has dealt with: the lexeme of its token, or what it has dropped. -/
def dealt (e : Event) : Text :=
  match e.answer, e.call with
  | .ok (.token token), _ => token.lexeme
  | _, .setMark => e.before.pending
  | _, _ => []

/-- The token that a call has answered. -/
def token? (e : Event) : Option Token :=
  match e.answer with
  | .ok (.token token) => some token
  | _ => none

lemma token?_eq_some_iff {e : Event} {token : Token} :
    e.token? = some token ↔ e.answer = .ok (.token token) := by
  rw [token?]
  split
  · next token' h => simp [h]
  · next h => exact iff_of_false (by simp) (h token)

end Event

/-- The cursor that a session leaves. -/
def final : Cursor → List Call → Cursor :=
  List.foldl fun c call => (call.perform c).2

/-- The tokens that a session has answered, in order. -/
def tokens (c : Cursor) (calls : List Call) : List Token := (events c calls).filterMap Event.token?

lemma mark_of_effect_ofRead {r : Except Failure Token × Cursor}
    (h : Call.Effect c (Call.ofRead r)) :
    (∃ token, (Call.ofRead r).1 = .ok (.token token)) ∨ (Call.ofRead r).2.mark = c.mark := by
  obtain ⟨failure | token, c'⟩ := r
  · exact Or.inr (Call.Effect.of_failure h).1
  · exact Or.inl ⟨token, rfl⟩

/-- The mark is moved by calls that answer a token, and by setting it. -/
lemma mark_perform_eq_or (c : Cursor) (call : Call) :
    (∃ token, (call.perform c).1 = .ok (.token token)) ∨ call = .setMark ∨
      (call.perform c).2.mark = c.mark := by
  cases call with
  | reaches k => exact Or.inr (Or.inr rfl)
  | look k => exact Or.inr (Or.inr rfl)
  | advance => exact Or.inr (Or.inr (Cursor.mark_advance c))
  | setMark => exact Or.inr (Or.inl rfl)
  | emit kind => exact Or.inl ⟨_, rfl⟩
  | sees pattern => exact Or.inr (Or.inr rfl)
  | consume pattern =>
      rw [Call.perform, Cursor.consume]
      split_ifs
      · exact Or.inr (Or.inr (Cursor.mark_advanceBy _ c))
      · exact Or.inr (Or.inr rfl)
  | location => exact Or.inr (Or.inr rfl)
  | nextToken => exact (mark_of_effect_ofRead (Call.effect_nextToken c)).imp_right Or.inr
  | read reader => exact (mark_of_effect_ofRead (Call.effect_read c reader)).imp_right Or.inr
  | report id context =>
      rw [Call.perform]
      cases LexicalDiagnostic.report id context c.location <;> exact Or.inr (Or.inr rfl)

/-! ## What calls deal with -/

/-- **A call deals with the text between the marks before and after it.** -/
theorem dealt_eq_slice {e : Event} (h : e.before.Ordered source base) :
    e.dealt = source.slice e.before.mark e.after.mark := by
  have heffect := e.effect
  rw [← h.source_eq, Event.dealt]
  split
  · next token htoken =>
      rw [htoken] at heffect
      exact heffect.of_token.1
  · next hset _ =>
      rw [Event.after, hset]
      rfl
  · next htoken hset =>
      have hmark : e.after.mark = e.before.mark :=
        ((mark_perform_eq_or e.before e.call).resolve_left fun ⟨token, h⟩ => htoken token h).resolve_left
          hset
      rw [hmark, Text.slice_self h.mark_nonneg]

/-- From the mark on, a session deals with the text up to the mark that it leaves. -/
theorem flatMap_dealt (h : c.Ordered source base) :
    c.mark ≤ (final c calls).mark ∧
      (events c calls).flatMap Event.dealt = source.slice c.mark (final c calls).mark := by
  induction calls generalizing c with
  | nil => exact ⟨Int.le_refl _, (Text.slice_self h.mark_nonneg).symm⟩
  | cons call calls ih =>
      let e : Event := ⟨c, call⟩
      obtain ⟨hle, hlater⟩ := ih (h.effect e.effect)
      have hfirst : e.dealt = source.slice c.mark e.after.mark := dealt_eq_slice h
      have hmark : c.mark ≤ e.after.mark := h.mark_le e.effect
      refine ⟨Int.le_trans hmark hle, ?_⟩
      calc (events c (call :: calls)).flatMap Event.dealt
          = e.dealt ++ (events e.after calls).flatMap Event.dealt := List.flatMap_cons
        _ = source.slice c.mark e.after.mark ++
              source.slice e.after.mark (final e.after calls).mark := by rw [hfirst, hlater]
        _ = source.slice c.mark (final c (call :: calls)).mark :=
            Text.slice_append_slice h.mark_nonneg hmark hle

/-! ## The order of tokens -/

lemma tokens_cons (c : Cursor) (call : Call) (calls : List Call) :
    tokens c (call :: calls) =
      (Event.token? ⟨c, call⟩).toList ++ tokens (call.perform c).2 calls := by
  rw [tokens, events, List.filterMap_cons, tokens]
  cases Event.token? _ <;> rfl

/-- A token begins at the mark and ends at the mark that is set behind it, or before it. -/
lemma offset_of_token? {e : Event} (h : e.before.Ordered source base) :
    ∀ token ∈ e.token?.toList, token.offset = e.before.mark + base.offset ∧
      token.offset + token.lexeme.length ≤ e.after.mark + base.offset := by
  intro token htoken
  have heffect := e.effect
  rw [Event.token?_eq_some_iff.1 (Option.mem_toList.1 htoken)] at heffect
  obtain ⟨hlexeme, hoffset, -⟩ := heffect.of_token
  have hlength := Text.length_slice_le (t := e.before.source) h.mark_nonneg (h.mark_le heffect)
  rw [h.baseOffset_eq] at hoffset
  rw [hlexeme]
  omega

/-- No token begins before the mark from which its session goes on. -/
lemma mark_le_offset_of_mem_tokens (h : c.Ordered source base) :
    ∀ token ∈ tokens c calls, c.mark + base.offset ≤ token.offset := by
  induction calls generalizing c with
  | nil =>
      intro token htoken
      cases htoken
  | cons call calls ih =>
      let e : Event := ⟨c, call⟩
      have hmark : c.mark ≤ e.after.mark := h.mark_le e.effect
      rw [tokens_cons, List.forall_mem_append]
      constructor
      · intro token htoken
        exact Int.le_of_eq (offset_of_token? (e := e) h token htoken).1.symm
      · intro token htoken
        have hlater : e.after.mark + base.offset ≤ token.offset := ih (h.effect e.effect) token htoken
        omega

/-- A token ends where every later token begins, or before it. -/
theorem pairwise_tokens (h : c.Ordered source base) :
    (tokens c calls).Pairwise fun (x y : Token) => x.offset + x.lexeme.length ≤ y.offset := by
  induction calls generalizing c with
  | nil => exact List.Pairwise.nil
  | cons call calls ih =>
      let e : Event := ⟨c, call⟩
      have hordered : e.after.Ordered source base := h.effect e.effect
      rw [tokens_cons, List.pairwise_append]
      refine ⟨?_, ih hordered, ?_⟩
      · cases Event.token? _ <;> simp
      · intro x hx y hy
        exact Int.le_trans (offset_of_token? (e := e) h x hx).2
          (mark_le_offset_of_mem_tokens hordered y hy)

/-- **No text is lost or dealt with twice.**  From the front of a text, let any calls be made, some of
which may fail or go behind the end.  A call deals with the text between the marks before and after it,
and only a call that answers a token, or that sets the mark, moves the mark.  What the calls have dealt
with is, one after the other, the text in front of the mark.  Each token has the lexeme that stands in
the text at its offset.  The offsets do not go back, and behind a token that is not empty they go
forward. -/
theorem no_text_lost (source : Text) (base : Location) (calls : List Call) :
    (events (Cursor.start source base) calls).flatMap Event.dealt =
      source.slice 0 (final (Cursor.start source base) calls).mark ∧
    (∀ e ∈ events (Cursor.start source base) calls,
      e.dealt = source.slice e.before.mark e.after.mark ∧
      (e.after.mark ≠ e.before.mark →
        (∃ token, e.answer = .ok (.token token)) ∨ e.call = .setMark) ∧
      ∀ token, e.answer = .ok (.token token) →
        token.lexeme = source.slice (token.offset - base.offset)
          (token.offset - base.offset + token.lexeme.length)) ∧
    (tokens (Cursor.start source base) calls).Pairwise fun x y =>
      x.offset ≤ y.offset ∧ (x.lexeme ≠ [] → x.offset < y.offset) := by
  have hstart : (Cursor.start source base).Ordered source base := .start source base
  refine ⟨(flatMap_dealt hstart).2, ?_, ?_⟩
  · intro e he
    have hordered : e.before.Ordered source base :=
      (inv_of_mem_events _ (fun _ => True) (fun e hc _ => hc.effect e.effect) hstart
        (fun _ _ => trivial) e he).1
    refine ⟨dealt_eq_slice hordered, ?_, ?_⟩
    · intro hmoved
      exact (mark_perform_eq_or e.before e.call).imp_right fun h => h.resolve_right hmoved
    · intro token htoken
      have heffect := e.effect
      rw [htoken] at heffect
      obtain ⟨hlexeme, hoffset, -⟩ := heffect.of_token
      have hmark : token.offset - base.offset = e.before.mark := by
        rw [hoffset, hordered.baseOffset_eq]
        omega
      rw [hmark, hlexeme, hordered.source_eq,
        Text.slice_add_length hordered.mark_nonneg (hordered.mark_le heffect)]
  · refine (pairwise_tokens hstart).imp ?_
    intro x y hend
    refine ⟨by omega, fun hne => ?_⟩
    have hpos := List.length_pos_iff.2 hne
    omega

/-- In `x"\q` the unit `x` is dropped, and the string breaks at `q`.  Two calls to advance go over `q` and
behind the end.  The token that is cut off there begins with the text that the reader has gone over.  A
second token is empty. -/
theorem no_text_lost_unknown_escape :
    let source : Text := [0x78, doubleQuote, backslash, 0x71]
    let calls : List Call :=
      [.advance, .setMark, .read .string, .advance, .advance, .emit .string, .emit .operator]
    let c := Cursor.start source Location.start
    (final c calls).mark = 5 ∧ (events c calls).flatMap Event.dealt = source ∧
      tokens c calls = [⟨.string, [doubleQuote, backslash, 0x71], 1⟩, ⟨.operator, [], 5⟩] ∧
      [doubleQuote, backslash, 0x71] = source.slice 1 4 ∧
      (tokens c calls).Pairwise fun x y =>
        x.offset ≤ y.offset ∧ (x.lexeme ≠ [] → x.offset < y.offset) := by
  intro source calls c
  let e : Event := ⟨⟨source, 0, 5, 1, 1, 6⟩, .emit .string⟩
  have he : (events c calls)[5]? = some e := rfl
  have hmark : (final c calls).mark = 5 := by decide +kernel
  have hall : source.slice 0 5 = source := by decide
  obtain ⟨hdealt, hevents, htokens⟩ := no_text_lost source Location.start calls
  obtain ⟨-, -, hlexeme⟩ := hevents e (List.mem_of_getElem? he)
  have htext : [doubleQuote, backslash, 0x71] = source.slice 1 4 := hlexeme _ rfl
  rw [hmark, hall] at hdealt
  exact ⟨hmark, hdealt, by decide +kernel, htext, htokens⟩

end Session

end Lexis

import Lexis.Location
import Mathlib.Data.List.Induction
import Mathlib.Algebra.Ring.Nat

/-!
# Locations in closed form

`Location.after` goes through a text unit by unit.  Where it arrives can be said of the text as a
whole: the line has gone up by the number of line feeds, the column is counted from the last of
them, and the offset has gone up by the length.

* `Text.sinceLineFeed` — the units behind the last line feed.
* `Location.past` — the location behind a text, in closed form.
* **`Location.after_eq_past`** — it is where `Location.after` arrives.
-/

namespace Lexis

open CodeUnit

namespace Text

/-- The units behind the last line feed, which are all of them if there is none. -/
def sinceLineFeed (t : Text) : Text := (t.reverse.takeWhile (· != lineFeed)).reverse

lemma sinceLineFeed_concat (t : Text) (u : CodeUnit) :
    sinceLineFeed (t ++ [u]) = if u = lineFeed then [] else sinceLineFeed t ++ [u] := by
  rw [sinceLineFeed, List.reverse_append, List.reverse_singleton, List.singleton_append,
    List.takeWhile_cons]
  by_cases hu : u = lineFeed
  · simp [hu]
  · simp [hu, sinceLineFeed]

end Text

namespace Location

/-- The location behind a text that begins at `loc`.  The first line goes on from the column of
`loc`, and every other line begins at column one. -/
def past (loc : Location) (t : Text) : Location where
  line := loc.line + t.count lineFeed
  column := (if lineFeed ∈ t then 1 else loc.column) + t.sinceLineFeed.length
  offset := loc.offset + t.length

theorem after_eq_past (loc : Location) (t : Text) : loc.after t = loc.past t := by
  induction t using List.reverseRecOn with
  | nil => simp [past, Text.sinceLineFeed]
  | append_singleton t u ih =>
      rw [after_append, ih, after_cons, after_nil, step]
      by_cases hu : u = lineFeed
      · simp [past, Text.sinceLineFeed_concat, hu]
        omega
      · have hu' : lineFeed ≠ u := Ne.symm hu
        simp [past, Text.sinceLineFeed_concat, hu, hu']
        omega

end Location

end Lexis

import Lexis.Context

/-!
# Message templates

A template is text with placeholders, names between braces.  It is read from left to right as a list
of items (`Template.items?`): two opening braces are literal and stay two; one opening brace starts
a placeholder, which reaches to the nearest closing brace; any other unit stands for itself.

`Template.render` puts the text of its value in place of each placeholder.  What has been put in is
not read again.  A template with a placeholder that is never closed has no items, and is left as it
is, down to its other placeholders.
-/

namespace Lexis

namespace Template

open CodeUnit

inductive Item
  | literal (t : Text)
  | placeholder (name : Text)
deriving DecidableEq, Repr

/-- The name up to the nearest closing brace, and what stands after that brace. -/
def closing? : Text → Option (Text × Text)
  | [] => none
  | u :: rest =>
      if u = closeBrace then some ([], rest)
      else (closing? rest).map fun (name, after) => (u :: name, after)

theorem eq_of_closing? {t name after : Text} (h : closing? t = some (name, after)) :
    t = name ++ closeBrace :: after := by
  induction t generalizing name after with
  | nil => cases h
  | cons u rest ih =>
      rw [closing?] at h
      split at h
      · next hu =>
          cases h
          rw [hu]
          rfl
      · obtain ⟨⟨name', after'⟩, h', he⟩ := Option.map_eq_some_iff.mp h
        cases he
        rw [ih h']
        rfl

theorem length_lt_of_closing? {t name after : Text} (h : closing? t = some (name, after)) :
    after.length < t.length := by
  rw [eq_of_closing? h, List.length_append, List.length_cons]
  omega

/-- The items of a template, if every placeholder in it is closed. -/
def items? : Text → Option (List Item)
  | [] => some []
  | u :: rest =>
      if u = openBrace then
        match rest with
        | [] => none
        | v :: rest' =>
            if v = openBrace then
              (items? rest').map (.literal [openBrace, openBrace] :: ·)
            else
              match _h : closing? (v :: rest') with
              | none => none
              | some (name, after) => (items? after).map (.placeholder name :: ·)
      else (items? rest).map (.literal [u] :: ·)
termination_by t => t.length
decreasing_by
  · simp only [List.length_cons]; omega
  · have hshorter := length_lt_of_closing? _h
    simp only [List.length_cons] at hshorter ⊢
    omega
  · exact Nat.lt_succ_self _

def Item.render (context : Context) : Item → Text
  | literal t => t
  | placeholder name => context.render name

/-- **A template filled in from a context.** -/
def render (template : Text) (context : Context) : Text :=
  match items? template with
  | none => template
  | some items => items.flatMap (Item.render context)

end Template

end Lexis

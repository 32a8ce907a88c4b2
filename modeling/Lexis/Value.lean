import Lexis.Decimal.Layout

/-!
# Values and their texts

A message is filled in with values of any kind.  Most have a text (`Value.text?`); a few have none, and
these are shown by a tag that names their shape (`Value.render`).  `Value.text?_list` says what the text
of a list is made of, and `Value.text?_eq_none_iff` which values are without.

* A list is written as the texts of its items with commas between them, however deep it is nested.
  In a list, nothing at all stands for `null` and for an undefined item.
* A record is written as a tag, whatever its fields, unless it has a field named `toString`: fields
  hold data, and such a field hides the only way a record has of being written.
* A bare record has no standard members, so no way of being written at all.
* A symbol is written by its description, but it has no text as an item of a list.
-/

namespace Lexis

inductive Value
  | undefined
  | null
  | boolean (b : Bool)
  | number (x : Float)
  /-- An integer of any size. -/
  | integer (n : Int)
  | symbol (description : Text)
  | text (t : Text)
  | list (items : List Value)
  | record (fields : List (Text × Value))
  /-- A record that answers to its own fields only. -/
  | bareRecord (fields : List (Text × Value))

namespace Value

/-- Numbers are written in positions up to twenty-one digits before the point and down to five
zeros after it. -/
def numberLayout : Layout where
  widest := 21
  narrowest := -5
  notANumber := "NaN"
  infinity := "Infinity"

def numberText (x : Float) : Text := numberLayout.write (BinaryFloat.ofBits x.toBits)

def recordTag : Text := Text.ofString "[object Object]"

def listTag : Text := Text.ofString "[object Array]"

/-- The field that hides a record's text. -/
def textMember : Text := Text.ofString "toString"

mutual

/-- The text of a value, if it has one. -/
def text? : Value → Option Text
  | undefined => some []
  | null => some (Text.ofString "null")
  | boolean b => some (Text.ofString (if b then "true" else "false"))
  | number x => some (numberText x)
  | integer n => some (Text.ofInt n)
  | symbol description =>
      some (Text.ofString "Symbol(" ++ description ++ Text.ofString ")")
  | text t => some t
  | list items => (itemTexts? items).map ([CodeUnit.comma].intercalate ·)
  | record fields => if fields.any (·.1 == textMember) then none else some recordTag
  | bareRecord _ => none

/-- The texts of the items of a list, if all of them have one. -/
def itemTexts? : List Value → Option (List Text)
  | [] => some []
  | v :: vs => do
      let t ← match v with
        | null => some []
        | symbol _ => none
        | _ => text? v
      let ts ← itemTexts? vs
      return t :: ts

end

/-! ## Texts of lists

In a list every item counts.  Its text is joined from theirs, and one item without a text leaves the
whole list without.
-/

/-- The text of a value as an item of a list. -/
def itemText? : Value → Option Text
  | null => some []
  | symbol _ => none
  | v => v.text?

theorem itemTexts?_eq_mapM (items : List Value) : itemTexts? items = items.mapM itemText? := by
  induction items with
  | nil => rfl
  | cons v vs ih =>
      rw [List.mapM_cons, ← ih]
      cases v <;> rfl

/-- **The text of a list is made of the texts of its items.** -/
theorem text?_list (items : List Value) :
    (list items).text? = (items.mapM itemText?).map ([CodeUnit.comma].intercalate ·) := by
  rw [text?, itemTexts?_eq_mapM]

theorem itemText?_eq_none_iff {v : Value} :
    v.itemText? = none ↔ (∃ description, v = symbol description) ∨ v.text? = none := by
  cases v with
  | null => simp [itemText?, text?]
  | symbol description => simp [itemText?]
  | _ => simp [itemText?]

theorem mapM_itemText?_eq_none_iff {items : List Value} :
    items.mapM itemText? = none ↔ ∃ v ∈ items, v.itemText? = none := by
  induction items with
  | nil => simp
  | cons v vs ih =>
      simp only [List.mapM_cons, List.mem_cons, exists_eq_or_imp, ← ih]
      cases v.itemText? with
      | none => simp
      | some t => cases vs.mapM itemText? <;> simp

/-! ## Values without a text -/

/-- A value that has no text: a bare record, a record in which a field hides the text, and a list with a
symbol or another such value in it. -/
inductive Textless : Value → Prop
  | bareRecord (fields : List (Text × Value)) : Textless (bareRecord fields)
  | record {fields : List (Text × Value)} {v : Value} (h : (textMember, v) ∈ fields) :
      Textless (record fields)
  | symbolItem {items : List Value} {description : Text} (h : symbol description ∈ items) :
      Textless (list items)
  | item {items : List Value} {v : Value} (h : v ∈ items) (hv : Textless v) :
      Textless (list items)

theorem Textless.text?_eq_none {v : Value} (h : Textless v) : v.text? = none := by
  induction h with
  | bareRecord fields => rfl
  | record h => rw [text?, if_pos (List.any_eq_true.2 ⟨_, h, beq_self_eq_true textMember⟩)]
  | symbolItem h =>
      rw [text?_list, mapM_itemText?_eq_none_iff.2 ⟨_, h, rfl⟩, Option.map_none]
  | item h _ ih =>
      rw [text?_list, mapM_itemText?_eq_none_iff.2 ⟨_, h, itemText?_eq_none_iff.2 (Or.inr ih)⟩,
        Option.map_none]

theorem textless_of_text?_eq_none (v : Value) (h : v.text? = none) : Textless v := by
  cases v with
  | bareRecord fields => exact .bareRecord fields
  | record fields =>
      rw [text?] at h
      split at h
      · next hany =>
          obtain ⟨field, hfield, hname⟩ := List.any_eq_true.1 hany
          rw [← Prod.eta field, eq_of_beq hname] at hfield
          exact .record hfield
      · cases h
  | list items =>
      rw [text?_list, Option.map_eq_none_iff, mapM_itemText?_eq_none_iff] at h
      obtain ⟨v, hv, hnone⟩ := h
      rcases itemText?_eq_none_iff.1 hnone with ⟨description, rfl⟩ | hnone
      · exact .symbolItem hv
      · exact .item hv (textless_of_text?_eq_none v hnone)
  | _ => cases h
termination_by sizeOf v
decreasing_by
  have hsize := List.sizeOf_lt_of_mem hv
  subst_vars
  rw [list.sizeOf_spec]
  omega

/-- **Which values have no text.** -/
theorem text?_eq_none_iff {v : Value} : v.text? = none ↔ Textless v :=
  ⟨textless_of_text?_eq_none v, Textless.text?_eq_none⟩

/-! ## What is shown -/

/-- The tag of a value that has no text. -/
def tag : Value → Text
  | list _ => listTag
  | _ => recordTag

/-- What is shown for a value. -/
def render (v : Value) : Text := v.text?.getD v.tag

end Value

end Lexis

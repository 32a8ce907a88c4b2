import Lexis.ErrorCode
import Lexis.Proofs.TemplateGrammar

/-!
# Names that a context does not define

A placeholder without a value is meant to vanish.  What is shown for a name is looked up in the context
first and among the standard members second, though, and the second search knows nothing of templates.
So a placeholder vanishes if nothing at all answers to its name.

* `Context.names`, `Context.undefine` — the names that have a value, and giving some the value
  `undefined`.
* `Context.standardNames` — the twelve names that every context answers to.
* **`Context.render_eq_nil_iff`** — of the missing names, exactly these twelve are shown as something.
* **`Template.Reading.render_undefine_iff`** — a missing name is as good as an undefined one, unless it
  is one of the twelve and the template asks for it.
* `Template.exists_reading_of_catalogue` — the templates of the catalogue ask for none of the twelve.
* **`Template.render_missing_iff`** — what becomes of placeholders without a value.
-/

namespace Lexis

namespace Context

variable {context : Context} {missing : List Text} {name : Text}

/-! ## Names with and without a value -/

/-- The names that a context itself gives a value to. -/
def names (context : Context) : List Text := context.map (·.1)

/-- A context that gives some names the value `undefined`, and is as before for all others. -/
def undefine (context : Context) (missing : List Text) : Context :=
  missing.map (·, Value.undefined) ++ context

lemma own?_eq_none_iff : context.own? name = none ↔ name ∉ context.names := by
  rw [own?, Option.map_eq_none_iff, List.find?_eq_none]
  simp only [names, List.mem_map, not_exists, not_and, beq_iff_eq]

lemma own?_cons (other : Text) (v : Value) (context : Context) (name : Text) :
    own? ((other, v) :: context) name = if other = name then some v else context.own? name := by
  by_cases hname : other = name <;> simp [own?, hname]

lemma own?_undefine (context : Context) (missing : List Text) (name : Text) :
    (context.undefine missing).own? name =
      if name ∈ missing then some .undefined else context.own? name := by
  induction missing with
  | nil => rfl
  | cons other missing ih =>
      have hcons : context.undefine (other :: missing) =
          (other, .undefined) :: context.undefine missing := rfl
      rw [hcons, own?_cons, ih]
      by_cases hname : other = name
      · simp [hname]
      · simp [hname, Ne.symm hname]

/-- Nothing is shown for an undefined name, and all other names are shown as before. -/
lemma render_undefine (context : Context) (missing : List Text) (name : Text) :
    (context.undefine missing).render name = if name ∈ missing then [] else context.render name := by
  rw [render, own?_undefine]
  split_ifs <;> rfl

/-! ## Standard members -/

/-- The names of the standard members. -/
def standardNames : List Text :=
  (standardProcedures ++ ["constructor", "__proto__"]).map Text.ofString

lemma standard?_eq_none_iff : standard? name = none ↔ name ∉ standardNames := by
  simp only [standard?, standardNames]
  split_ifs <;> simp_all

/-- No standard member is shown as nothing. -/
lemma ne_nil_of_standard? {t : Text} (h : standard? name = some t) : t ≠ [] := by
  have hprocedure : ∀ name, procedureText name ≠ [] := by
    intro name
    simp [procedureText, Text.ofString, CodeUnit.encode]
  rw [standard?] at h
  split_ifs at h
  · exact Option.some.inj h ▸ hprocedure _
  · exact Option.some.inj h ▸ hprocedure _
  · exact Option.some.inj h ▸ by decide +kernel

/-- **A missing name is shown as nothing, unless it is standard.** -/
theorem render_eq_nil_iff (hmissing : name ∉ context.names) :
    context.render name = [] ↔ name ∉ standardNames := by
  rw [render, own?_eq_none_iff.2 hmissing, ← standard?_eq_none_iff]
  cases hstandard : standard? name with
  | none => exact iff_of_true rfl rfl
  | some t => exact iff_of_false (ne_nil_of_standard? hstandard) (Option.some_ne_none t)

end Context

namespace Template

open CodeUnit

variable {a b t name : Text} {items : List Item} {context : Context} {missing : List Text}

/-! ## Templates with missing names -/

section Rows

variable {f g : Item → Text} (h : ∀ item, f item = g item ∨ f item = [])
include h

lemma length_flatMap_le (items : List Item) :
    (items.flatMap f).length ≤ (items.flatMap g).length := by
  induction items with
  | nil => exact Nat.le_refl 0
  | cons item items ih =>
      rcases h item with heq | hnil
      · simpa [heq] using ih
      · simp only [List.flatMap_cons, hnil, List.nil_append, List.length_append]
        omega

/-- Let some items be shown as nothing by `f`, and all others as by `g`.  This makes no difference for a
row of items exactly if it makes none for each of them. -/
lemma flatMap_eq_flatMap_iff :
    items.flatMap f = items.flatMap g ↔ ∀ item ∈ items, f item = g item := by
  induction items with
  | nil => simp
  | cons item items ih =>
      rw [List.flatMap_cons, List.flatMap_cons, List.forall_mem_cons]
      constructor
      · intro hwhole
        have hitem : f item = g item := by
          rcases h item with heq | hnil
          · exact heq
          · -- the rest is no longer with `g`, and so there is no room for the item
            have hlength := congrArg List.length hwhole
            have hrest := length_flatMap_le h items
            rw [hnil, List.length_append, List.length_append, List.length_nil] at hlength
            have hnothing : g item = [] := List.eq_nil_of_length_eq_zero (by omega)
            rw [hnil, hnothing]
        rw [hitem, List.append_cancel_left_eq] at hwhole
        exact ⟨hitem, ih.1 hwhole⟩
      · rintro ⟨hitem, hitems⟩
        rw [hitem, ih.2 hitems]

end Rows

lemma Item.render_undefine (context : Context) (missing : List Text) (item : Item) :
    item.render (context.undefine missing) = item.render context ∨
      item.render (context.undefine missing) = [] := by
  cases item with
  | literal t => exact Or.inl rfl
  | placeholder name =>
      simp only [Item.render, Context.render_undefine]
      split_ifs
      · exact Or.inr rfl
      · exact Or.inl rfl

/-- **Missing names are as good as undefined ones**, exactly if the template does not ask for a standard
name among them. -/
theorem Reading.render_undefine_iff (h : Reading t items)
    (hmissing : ∀ name ∈ missing, name ∉ context.names) :
    render t (context.undefine missing) = render t context ↔
      ∀ name ∈ missing, Item.placeholder name ∈ items → name ∉ Context.standardNames := by
  rw [h.render_eq, h.render_eq, flatMap_eq_flatMap_iff (Item.render_undefine context missing)]
  constructor
  · intro hsame name hname hitem
    have hnil := hsame _ hitem
    simp only [Item.render, Context.render_undefine, if_pos hname] at hnil
    exact (Context.render_eq_nil_iff (hmissing name hname)).1 hnil.symm
  · intro hstandard item hitem
    cases item with
    | literal t => rfl
    | placeholder name =>
        simp only [Item.render, Context.render_undefine]
        split_ifs with hname
        · have hother := hstandard name hname hitem
          exact ((Context.render_eq_nil_iff (hmissing name hname)).2 hother).symm
        · rfl

/-- A placeholder between closed texts vanishes if its name is missing and not standard. -/
lemma render_missing_placeholder_iff (ha : Closed a) (hb : Closed b)
    (hname : Item.Proper (.placeholder name)) (hmissing : name ∉ context.names) :
    render (a ++ (Item.placeholder name).source ++ b) context = render a context ++ render b context ↔
      name ∉ Context.standardNames := by
  rw [render_placeholder ha hb hname, ← Context.render_eq_nil_iff hmissing]
  simp

/-- The templates of the catalogue are closed, and no standard name stands in a placeholder there. -/
lemma exists_reading_of_catalogue (code : ErrorCode) :
    ∃ items, Reading code.messageTemplate items ∧
      ∀ name, Item.placeholder name ∈ items → name ∉ Context.standardNames := by
  have hchecked : (items? code.messageTemplate).any (fun items =>
      items.all fun item => Context.standardNames.all fun name => item != .placeholder name) =
        true := by
    cases code <;> decide +kernel
  obtain ⟨items, hitems, hnames⟩ := (Option.any_eq_true _ _).1 hchecked
  refine ⟨items, items?_eq_some_iff.1 hitems, ?_⟩
  intro name hitem hstandard
  have hother := List.all_eq_true.1 hnames _ hitem
  simpa using List.all_eq_true.1 hother name hstandard

/-- **A placeholder without a value vanishes, unless its name is standard.**  Let the context give no
value to a name.  Between closed texts, a placeholder of that name contributes nothing exactly if it is
none of the twelve standard names.  Let it give no value to any of several names.  A closed template is
rendered as if all of them were undefined in the context, exactly if no placeholder has a standard name
among them.  In the templates of the catalogue none has. -/
theorem render_missing_iff (context : Context) :
    (∀ a b name, Closed a → Closed b → Item.Proper (.placeholder name) → name ∉ context.names →
      (render (a ++ (Item.placeholder name).source ++ b) context =
          render a context ++ render b context ↔ name ∉ Context.standardNames)) ∧
    (∀ t items missing, Reading t items → (∀ name ∈ missing, name ∉ context.names) →
      (render t (context.undefine missing) = render t context ↔
        ∀ name ∈ missing, Item.placeholder name ∈ items → name ∉ Context.standardNames)) ∧
    ∀ (code : ErrorCode) missing, (∀ name ∈ missing, name ∉ context.names) →
      render code.messageTemplate (context.undefine missing) =
        render code.messageTemplate context := by
  refine ⟨fun _ _ _ => render_missing_placeholder_iff, fun _ _ _ => Reading.render_undefine_iff, ?_⟩
  intro code missing hmissing
  obtain ⟨items, hreading, hstandard⟩ := exists_reading_of_catalogue code
  exact (hreading.render_undefine_iff hmissing).2 fun name _ => hstandard name

/-- In `{valueOf}{x}{toString}` the first name has a value.  The second may as well be undefined, but not
the third. -/
theorem render_missing_iff_valueOf :
    let context : Context := [(Text.ofString "valueOf", .text [lowerA])]
    let x : Text := [0x78]
    let toString := Text.ofString "toString"
    let items : List Item :=
      [.placeholder (Text.ofString "valueOf"), .placeholder x, .placeholder toString]
    let t := Text.ofString "\x7bvalueOf\x7d\x7bx\x7d\x7btoString\x7d"
    Reading t items ∧ (∀ name ∈ [x, toString], name ∉ context.names) ∧
      render t (context.undefine [x]) = render t context ∧
      render t (context.undefine [x, toString]) ≠ render t context := by
  intro context x toString items t
  have hreading : Reading t items := items?_eq_some_iff.1 (by decide +kernel)
  have hmissing : ∀ name ∈ [x, toString], name ∉ context.names := by decide +kernel
  have hx : ∀ name ∈ [x], name ∉ context.names := by decide +kernel
  obtain ⟨-, hrender, -⟩ := render_missing_iff context
  refine ⟨hreading, hmissing, (hrender t items [x] hreading hx).2 ?_, ?_⟩
  · decide +kernel
  · rw [Ne, hrender t items _ hreading hmissing]
    decide +kernel

/-- Not every placeholder without a value vanishes: with no values at all, `{toString}` is shown as a
procedure. -/
theorem not_forall_render_missing :
    ¬ ∀ (t : Text) (context : Context) (name : Text), Closed t → name ∉ context.names →
      render t (context.undefine [name]) = render t context := by
  intro h
  have hclosed : Closed (Text.ofString "\x7btoString\x7d") :=
    ⟨[.placeholder (Text.ofString "toString")], items?_eq_some_iff.1 (by decide +kernel)⟩
  have hsame := h _ [] (Text.ofString "toString") hclosed (by simp [Context.names])
  exact absurd hsame (by decide +kernel)

end Template

end Lexis

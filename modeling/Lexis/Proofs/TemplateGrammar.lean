import Lexis.Template
import Mathlib.Data.List.Basic

/-!
# The grammar of templates

`Template.render` scans a template for braces and gives up where one is not closed.  What it goes
by is a grammar: a template is a row of items, each of which is written in one way and recognised by
its first two units.

* `Template.Item.source`, `Template.Item.Proper` — how an item is written, and which ones there are.
* `Template.Reading` — a template read from left to right, item by item.
* `Template.LeftOpen` — the reading comes to a placeholder that is never closed.
* `Template.closed_or_leftOpen` — every template has a reading or is left open.
* **`Template.items?_eq_some_iff`** — the scanner finds the items of the reading, and no others.
* **`Template.render_grammar`** — what `Template.render` makes of a template.

Where the text of a value is put in, `Value.text?_list` says what that of a list is made of, and
`Value.text?_eq_none_iff` which values have none.

An item in front says nothing about the items behind it, and nothing behind a closed item changes
what it is.  So templates can be joined as their readings are, with one condition: the first must
not be left open, since its last placeholder would then reach into the second.
-/

namespace Lexis

namespace Template

open CodeUnit

/-! ## Items and readings -/

/-- An item as it stands in a template. -/
def Item.source : Item → Text
  | literal t => t
  | placeholder name => openBrace :: (name ++ [closeBrace])

/-- The items that a template is made of: two opening braces, any other unit, and a placeholder.
The name of a placeholder may be empty and may hold opening braces, though not as its first unit. -/
inductive Item.Proper : Item → Prop
  | braces : Proper (.literal [openBrace, openBrace])
  | unit {u : CodeUnit} (hu : u ≠ openBrace) : Proper (.literal [u])
  | placeholder {name : Text} (hclose : closeBrace ∉ name) (hopen : name.head? ≠ some openBrace) :
      Proper (.placeholder name)

/-- From left to right, the template is these items. -/
inductive Reading : Text → List Item → Prop
  | nil : Reading [] []
  | cons {item : Item} {t : Text} {items : List Item} (hitem : item.Proper) (h : Reading t items) :
      Reading (item.source ++ t) (item :: items)

/-- All placeholders are closed. -/
def Closed (t : Text) : Prop := ∃ items, Reading t items

/-- Behind items, a placeholder begins and is never closed. -/
def LeftOpen (t : Text) : Prop :=
  ∃ front tail, t = front ++ openBrace :: tail ∧ Closed front ∧ closeBrace ∉ tail ∧
    tail.head? ≠ some openBrace

variable {a b t name after : Text} {item : Item} {items items' : List Item}

lemma Reading.append (h : Reading a items) (h' : Reading b items') :
    Reading (a ++ b) (items ++ items') := by
  induction h with
  | nil => exact h'
  | cons hitem _ ih =>
      rw [List.append_assoc]
      exact Reading.cons hitem ih

lemma Closed.append (h : Closed a) (h' : Closed b) : Closed (a ++ b) := by
  obtain ⟨items, h⟩ := h
  obtain ⟨items', h'⟩ := h'
  exact ⟨items ++ items', h.append h'⟩

lemma Closed.leftOpen_append (h : Closed a) (h' : LeftOpen b) : LeftOpen (a ++ b) := by
  obtain ⟨front, tail, rfl, hfront, hclose, hopen⟩ := h'
  exact ⟨a ++ front, tail, (List.append_assoc ..).symm, h.append hfront, hclose, hopen⟩

lemma Item.Proper.reading (h : item.Proper) : Reading item.source [item] := by
  have hreading := Reading.cons h Reading.nil
  rwa [List.append_nil] at hreading

lemma Item.Proper.closed (h : item.Proper) : Closed item.source := ⟨[item], h.reading⟩

lemma Item.Proper.source_ne_nil (h : item.Proper) : item.source ≠ [] := by
  cases h <;> exact List.cons_ne_nil _ _

/-! ## The nearest closing brace -/

lemma closing?_append (hclose : closeBrace ∉ name) (after : Text) :
    closing? (name ++ closeBrace :: after) = some (name, after) := by
  induction name with
  | nil => rw [List.nil_append, closing?, if_pos rfl]
  | cons u name ih =>
      obtain ⟨hu, hname⟩ := not_or.1 (List.mem_cons.not.1 hclose)
      rw [List.cons_append, closing?, if_neg (Ne.symm hu), ih hname]
      rfl

lemma not_mem_of_closing? (h : closing? t = some (name, after)) : closeBrace ∉ name := by
  induction t generalizing name after with
  | nil => cases h
  | cons u t ih =>
      rw [closing?] at h
      split at h
      · cases h
        exact List.not_mem_nil
      · next hu =>
          obtain ⟨⟨name', after'⟩, h', heq⟩ := Option.map_eq_some_iff.1 h
          cases heq
          exact List.mem_cons.not.2 (not_or.2 ⟨Ne.symm hu, ih h'⟩)

lemma closing?_eq_none_iff : closing? t = none ↔ closeBrace ∉ t := by
  induction t with
  | nil => simp [closing?]
  | cons u t ih =>
      by_cases hu : u = closeBrace
      · simp [closing?, hu]
      · simp [closing?, hu, ih, Ne.symm hu]

/-! ## One item at a time -/

lemma items?_braces (t : Text) :
    items? (openBrace :: openBrace :: t) =
      (items? t).map (.literal [openBrace, openBrace] :: ·) := by
  rw [items?, if_pos rfl, if_pos rfl]

lemma items?_unit {u : CodeUnit} (hu : u ≠ openBrace) (t : Text) :
    items? (u :: t) = (items? t).map (.literal [u] :: ·) := by
  cases t <;> conv_lhs => rw [items?, if_neg hu]

lemma items?_placeholder (hopen : t.head? ≠ some openBrace)
    (hclosing : closing? t = some (name, after)) :
    items? (openBrace :: t) = (items? after).map (.placeholder name :: ·) := by
  cases t with
  | nil => cases hclosing
  | cons u t =>
      rw [items?, if_pos rfl, if_neg fun hu => hopen (congrArg some hu)]
      split
      · next h => rw [hclosing] at h; cases h
      · next h => rw [hclosing] at h; cases h; rfl

/-- At a brace that is never closed the scanner gives up. -/
lemma items?_of_not_mem (hclose : closeBrace ∉ t) (hopen : t.head? ≠ some openBrace) :
    items? (openBrace :: t) = none := by
  have hclosing := closing?_eq_none_iff.2 hclose
  cases t with
  | nil => rw [items?, if_pos rfl]
  | cons u t =>
      rw [items?, if_pos rfl, if_neg fun hu => hopen (congrArg some hu)]
      split
      · rfl
      · next h => rw [hclosing] at h; cases h

/-- The nearest closing brace is behind the brace that opens the placeholder at once, or the unit
behind that brace is the first of the name. -/
lemma head?_append_ne {name : Text} (hopen : name.head? ≠ some openBrace) (t : Text) :
    (name ++ closeBrace :: t).head? ≠ some openBrace := by
  cases name with
  | nil => exact fun h => absurd (Option.some.inj h) (by decide)
  | cons u name => exact hopen

/-- **The scanner takes a proper item off the front**, whatever stands behind it. -/
theorem items?_source_append (h : item.Proper) (t : Text) :
    items? (item.source ++ t) = (items? t).map (item :: ·) := by
  cases h with
  | braces => exact items?_braces t
  | unit hu => exact items?_unit hu t
  | @placeholder name hclose hopen =>
      rw [Item.source, List.cons_append, List.append_assoc, List.singleton_append]
      exact items?_placeholder (head?_append_ne hopen t) (closing?_append hclose t)

/-- What is not empty begins with a proper item, or with a brace that is never closed. -/
lemma exists_source_append (u : CodeUnit) (t : Text) :
    (∃ item t', Item.Proper item ∧ u :: t = item.source ++ t') ∨
      u = openBrace ∧ closeBrace ∉ t ∧ t.head? ≠ some openBrace := by
  by_cases hu : u = openBrace
  · subst hu
    by_cases hopen : t.head? = some openBrace
    · obtain ⟨t, rfl⟩ := List.head?_eq_some_iff.1 hopen
      exact Or.inl ⟨_, t, Item.Proper.braces, rfl⟩
    · cases hclosing : closing? t with
      | none => exact Or.inr ⟨rfl, closing?_eq_none_iff.1 hclosing, hopen⟩
      | some found =>
          obtain ⟨name, after⟩ := found
          obtain rfl := eq_of_closing? hclosing
          have hname : name.head? ≠ some openBrace := by
            intro hhead
            obtain ⟨name, rfl⟩ := List.head?_eq_some_iff.1 hhead
            exact hopen rfl
          have hproper := Item.Proper.placeholder (not_mem_of_closing? hclosing) hname
          refine Or.inl ⟨.placeholder name, after, hproper, ?_⟩
          rw [Item.source, List.cons_append, List.append_assoc, List.singleton_append]
  · exact Or.inl ⟨.literal [u], t, Item.Proper.unit hu, rfl⟩

/-! ## Whole templates -/

/-- **Nothing is in between.**  A template is read to its end or left open. -/
theorem closed_or_leftOpen (t : Text) : Closed t ∨ LeftOpen t := by
  -- on the length, since an item takes several units off
  induction hlength : t.length using Nat.strongRecOn generalizing t with
  | ind n ih =>
      subst hlength
      cases t with
      | nil => exact Or.inl ⟨[], Reading.nil⟩
      | cons u t =>
          rcases exists_source_append u t with ⟨item, t', hitem, heq⟩ | ⟨rfl, hclose, hopen⟩
          · have hlt : t'.length < (u :: t).length := by
              have hpos := List.length_pos_iff.2 hitem.source_ne_nil
              rw [heq, List.length_append]
              omega
            rw [heq]
            rcases ih t'.length hlt t' rfl with hclosed | hleft
            · exact Or.inl (hitem.closed.append hclosed)
            · exact Or.inr (hitem.closed.leftOpen_append hleft)
          · exact Or.inr ⟨[], t, rfl, ⟨[], Reading.nil⟩, hclose, hopen⟩

/-- The scanner follows a reading. -/
lemma Reading.items?_append (h : Reading a items) (b : Text) :
    items? (a ++ b) = (items? b).map (items ++ ·) := by
  induction h with
  | nil => cases hb : items? b <;> simp [hb]
  | @cons item t items hitem _ ih =>
      rw [List.append_assoc, items?_source_append hitem, ih, Option.map_map]
      rfl

lemma Reading.items?_eq (h : Reading t items) : items? t = some items := by
  have hitems := h.items?_append []
  rwa [List.append_nil, items?, Option.map_some, List.append_nil] at hitems

lemma LeftOpen.items?_eq_none (h : LeftOpen t) : items? t = none := by
  obtain ⟨front, tail, rfl, ⟨items, hreading⟩, hclose, hopen⟩ := h
  rw [hreading.items?_append, items?_of_not_mem hclose hopen, Option.map_none]

/-- As the scanner is a function, a template has one reading. -/
lemma Reading.unique (h : Reading t items) (h' : Reading t items') : items = items' :=
  Option.some.inj (h.items?_eq.symm.trans h'.items?_eq)

lemma Reading.not_leftOpen (h : Reading t items) : ¬ LeftOpen t := by
  intro hleft
  have hitems := h.items?_eq
  rw [hleft.items?_eq_none] at hitems
  cases hitems

/-- **The scanner finds the reading**, if there is one. -/
theorem items?_eq_some_iff : items? t = some items ↔ Reading t items := by
  constructor
  · intro h
    rcases closed_or_leftOpen t with ⟨items', hreading⟩ | hleft
    · rw [hreading.items?_eq] at h
      rwa [← Option.some.inj h]
    · rw [hleft.items?_eq_none] at h
      cases h
  · exact Reading.items?_eq

/-- And it gives up exactly on templates that are left open. -/
theorem items?_eq_none_iff : items? t = none ↔ LeftOpen t := by
  constructor
  · intro h
    refine (closed_or_leftOpen t).resolve_left ?_
    rintro ⟨items, hreading⟩
    rw [hreading.items?_eq] at h
    cases h
  · exact LeftOpen.items?_eq_none

/-! ## Rendering -/

variable {context : Context}

lemma Reading.render_eq (h : Reading t items) :
    render t context = items.flatMap (Item.render context) := by
  rw [render, h.items?_eq]

lemma LeftOpen.render_eq (h : LeftOpen t) : render t context = t := by
  rw [render, h.items?_eq_none]

lemma Closed.render_append (h : Closed a) (h' : Closed b) :
    render (a ++ b) context = render a context ++ render b context := by
  obtain ⟨items, h⟩ := h
  obtain ⟨items', h'⟩ := h'
  rw [(h.append h').render_eq, h.render_eq, h'.render_eq, List.flatMap_append]

lemma Item.Proper.render_source (h : item.Proper) :
    Template.render item.source context = item.render context := by
  rw [h.reading.render_eq, List.flatMap_singleton]

/-- A placeholder between closed texts gives way to what is shown for its name. -/
lemma render_placeholder (ha : Closed a) (hb : Closed b) (hname : Item.Proper (.placeholder name)) :
    render (a ++ (Item.placeholder name).source ++ b) context =
      render a context ++ context.render name ++ render b context := by
  rw [(ha.append hname.closed).render_append hb, ha.render_append hname.closed, hname.render_source]
  rfl

/-- What is shown for a value that the context gives. -/
lemma render_of_own? {v : Value} (h : context.own? name = some v) :
    context.render name = v.render := by
  rw [Context.render, h]

/-- A placeholder that lacks its end is left open, and so is everything in front of it. -/
lemma leftOpen_of_cut {m n : Text} (ha : Closed a) (hname : Item.Proper (.placeholder (m ++ n))) :
    LeftOpen (a ++ openBrace :: m) := by
  cases hname with
  | placeholder hclose hopen =>
      refine ⟨a, m, rfl, ha, fun h => hclose (List.mem_append_left n h), ?_⟩
      cases m with
      | nil => simp
      | cons u m => exact hopen

/-- **A template is what its grammar says.**  Every template either has exactly one reading or is
left open.  With a reading, it is rendered as the literal items and, for each placeholder, what the
context shows for its name: the text of the value, its tag where it has no text, and nothing for an
undefined one.  A template that is left open stays as it is.  What has been put in for a placeholder
is not read again, whatever braces it holds.  Closed templates are rendered one by one when they are
joined.  Joined to one that is left open, the whole is left open.  A placeholder that is cut in two
leaves the first part open, and is one placeholder again when the parts are joined. -/
theorem render_grammar (context : Context) :
    (∀ t, (∃! items, Reading t items) ∧ ¬ LeftOpen t ∨
      (¬ ∃ items, Reading t items) ∧ LeftOpen t) ∧
    (∀ t items, Reading t items → render t context = items.flatMap (Item.render context)) ∧
    (∀ t, LeftOpen t → render t context = t) ∧
    (∀ name v, context.own? name = some v →
      (v = .undefined → context.render name = []) ∧
      (∀ s, v.text? = some s → context.render name = s) ∧
      (v.text? = none → context.render name = v.tag)) ∧
    (∀ name, context.own? name = none →
      context.render name = (Context.standard? name).getD []) ∧
    (∀ a b name s, Closed a → Closed b → Item.Proper (.placeholder name) →
      context.own? name = some (.text s) →
        render (a ++ (Item.placeholder name).source ++ b) context =
          render a context ++ s ++ render b context) ∧
    (∀ a b, Closed a → Closed b →
      render (a ++ b) context = render a context ++ render b context) ∧
    (∀ a b, Closed a → LeftOpen b → render (a ++ b) context = a ++ b) ∧
    ∀ a m n b, Closed a → Closed b → Item.Proper (.placeholder (m ++ n)) →
      render (a ++ openBrace :: m) context = a ++ openBrace :: m ∧
        render ((a ++ openBrace :: m) ++ (n ++ closeBrace :: b)) context =
          render a context ++ context.render (m ++ n) ++ render b context := by
  refine ⟨?_, fun _ _ => Reading.render_eq, fun _ => LeftOpen.render_eq, ?_, ?_, ?_,
    fun _ _ => Closed.render_append, fun _ _ ha hb => (ha.leftOpen_append hb).render_eq, ?_⟩
  · intro t
    rcases closed_or_leftOpen t with ⟨items, hreading⟩ | hleft
    · have hunique : ∃! items, Reading t items :=
        ⟨items, hreading, fun _ hreading' => hreading'.unique hreading⟩
      exact Or.inl ⟨hunique, hreading.not_leftOpen⟩
    · refine Or.inr ⟨?_, hleft⟩
      rintro ⟨items, hreading⟩
      exact hreading.not_leftOpen hleft
  · intro name v hown
    rw [render_of_own? hown, Value.render]
    refine ⟨?_, ?_, ?_⟩
    · rintro rfl
      rw [Value.text?]
      rfl
    · intro s hs
      rw [hs, Option.getD_some]
    · intro hnone
      rw [hnone, Option.getD_none]
  · intro name hown
    rw [Context.render, hown]
  · intro a b name s ha hb hname hown
    rw [render_placeholder ha hb hname, render_of_own? hown, Value.render, Value.text?]
    rfl
  · intro a m n b ha hb hname
    have hwhole : (a ++ openBrace :: m) ++ (n ++ closeBrace :: b) =
        a ++ (Item.placeholder (m ++ n)).source ++ b := by
      simp [Item.source]
    rw [hwhole]
    exact ⟨(leftOpen_of_cut ha hname).render_eq, render_placeholder ha hb hname⟩

/-- With `{y}` for `x`: in `{{{x}y` the first two braces are literal and what is put in is not read
again, while the last brace of `{x}{` keeps even `{x}` as it is. -/
theorem render_grammar_braces :
    let context : Context := [([0x78], .text [openBrace, 0x79, closeBrace])]
    let t : Text := [openBrace, openBrace, openBrace, 0x78, closeBrace, 0x79]
    let left : Text := [openBrace, 0x78, closeBrace, openBrace]
    Reading t [.literal [openBrace, openBrace], .placeholder [0x78], .literal [0x79]] ∧
      render t context = [openBrace, openBrace, openBrace, 0x79, closeBrace, 0x79] ∧
      LeftOpen left ∧ render left context = left := by
  intro context t left
  have hname : Item.Proper (.placeholder [0x78]) := Item.Proper.placeholder (by decide) (by decide)
  have hlast : Reading [0x79] [.literal [0x79]] :=
    Reading.cons (Item.Proper.unit (by decide)) Reading.nil
  have hreading : Reading t _ := Reading.cons Item.Proper.braces (Reading.cons hname hlast)
  have hleft : LeftOpen left := ⟨_, [], rfl, hname.closed, List.not_mem_nil, by simp⟩
  obtain ⟨-, hrender, hopen, -⟩ := render_grammar context
  exact ⟨hreading, hrender t _ hreading, hleft, hopen left hleft⟩

end Template

end Lexis

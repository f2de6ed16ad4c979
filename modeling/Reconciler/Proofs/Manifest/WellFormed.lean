import Mathlib.Data.List.DropRight
import Mathlib.Data.List.Nodup
import Mathlib.Data.List.TakeWhile
import Reconciler.Manifest.Validation

/-!
# Well-formed manifests

What it takes for a manifest to have no problem. Validation looks at one thing after the other and
remembers what it has seen; taken together, it asks for conditions on the manifest as a whole.
-/

namespace Reconciler

namespace Text

/-- What is left of a text once white space is trimmed from both its ends. -/
def trimmed (text : String) : List Char :=
  (trimStart text.toList).rdropWhile isBlankChar

theorem isBlank_iff {text : String} : isBlank text = true ↔ trimmed text = [] := by
  have parts := List.takeWhile_append_dropWhile (p := isBlankChar) (l := text.toList)
  rw [isBlank, trimmed, trimStart, List.rdropWhile_eq_nil_iff, List.all_eq_true]
  constructor
  · intro blank character member
    refine blank character ?_
    rw [← parts]
    exact List.mem_append_right _ member
  · intro blank character member
    rw [← parts, List.mem_append] at member
    rcases member with leading | rest
    · exact List.mem_takeWhile_imp leading
    · exact blank character rest

end Text

/-- The keys of values are distinct, and none of them has been seen before. -/
structure AreNew {α β : Type} (key : α → β) (seen : List β) (values : List α) : Prop where
  distinct : (values.map key).Nodup
  unseen : ∀ value ∈ values, key value ∉ seen

section AreNew

variable {α β : Type} {key : α → β}

theorem areNew_nil_left_iff {values : List α} :
    AreNew key [] values ↔ (values.map key).Nodup :=
  ⟨AreNew.distinct, fun distinct => ⟨distinct, fun _ _ => List.not_mem_nil⟩⟩

theorem areNew_nil (key : α → β) (seen : List β) : AreNew key seen [] :=
  ⟨.nil, fun _ none => absurd none List.not_mem_nil⟩

/-- Values are new one after the other, where each has been seen when it comes to the next. -/
theorem areNew_cons_iff {seen : List β} {value : α} {values : List α} :
    AreNew key seen (value :: values) ↔
      key value ∉ seen ∧ AreNew key (key value :: seen) values := by
  constructor
  · rintro ⟨distinct, unseen⟩
    rw [List.map_cons, List.nodup_cons] at distinct
    rcases List.forall_mem_cons.mp unseen with ⟨isUnseen, others⟩
    refine ⟨isUnseen, distinct.2, fun other member => ?_⟩
    rw [List.mem_cons, not_or]
    exact ⟨fun same => distinct.1 (List.mem_map.mpr ⟨other, member, same⟩), others other member⟩
  · rintro ⟨isUnseen, distinct, others⟩
    refine ⟨?_, List.forall_mem_cons.mpr ⟨isUnseen, fun other member isSeen => ?_⟩⟩
    · refine List.nodup_cons.mpr ⟨fun again => ?_, distinct⟩
      rcases List.mem_map.mp again with ⟨other, member, same⟩
      exact others other member (same ▸ List.mem_cons_self)
    · exact others other member (List.mem_cons_of_mem _ isSeen)

end AreNew

/-- A check that names a problem finds none if its condition is not met and there is no other. -/
theorem check_eq_none_iff {condition : Prop} [Decidable condition] {problem : ValidationError}
    {others : Option ValidationError} :
    (if condition then some problem else others) = none ↔ ¬condition ∧ others = none := by
  split
  · rename_i met
    simp [met]
  · rename_i unmet
    simp [unmet]

namespace Component

variable {component : Component} {declared : List String}

theorem headProblem?_eq_none_iff {seen : List String} :
    component.headProblem? seen = none ↔ Text.trimmed component.name ≠ [] ∧
      component.name ∉ seen ∧ Text.trimmed component.imageRef ≠ [] := by
  simp only [headProblem?, check_eq_none_iff, Text.isBlank_iff, List.contains_iff_mem, and_true,
    ne_eq]

theorem firstHeadProblem?_eq_none_iff {seen : List String} {components : List Component} :
    firstHeadProblem? seen components = none ↔ AreNew name seen components ∧
      ∀ component ∈ components, Text.trimmed component.name ≠ [] ∧
        Text.trimmed component.imageRef ≠ [] := by
  induction components generalizing seen with
  | nil => simp [firstHeadProblem?, areNew_nil]
  | cons component rest ih =>
      rw [firstHeadProblem?, Option.or_eq_none_iff, headProblem?_eq_none_iff, ih, areNew_cons_iff,
        List.forall_mem_cons]
      constructor
      · rintro ⟨⟨named, unseen, imaged⟩, others, complete⟩
        exact ⟨⟨unseen, others⟩, ⟨named, imaged⟩, complete⟩
      · rintro ⟨⟨unseen, others⟩, ⟨named, imaged⟩, complete⟩
        exact ⟨⟨named, unseen, imaged⟩, others, complete⟩

theorem linkProblem?_cons_eq_none_iff {seen : List (String × String × String)}
    {link : LinkDefinition} {links : List LinkDefinition} :
    component.linkProblem? declared seen (link :: links) = none ↔
      (∀ target, link.target = .component target → target ∈ declared) ∧
        link.identity ∉ seen ∧ component.linkProblem? declared (link.identity :: seen) links =
          none := by
  rw [linkProblem?, Option.or_eq_none_iff, Option.or_eq_none_iff, check_eq_none_iff, and_assoc]
  cases link.target <;> simp

theorem linkProblem?_eq_none_iff {seen : List (String × String × String)}
    {links : List LinkDefinition} :
    component.linkProblem? declared seen links = none ↔
      AreNew LinkDefinition.identity seen links ∧
        ∀ link ∈ links, ∀ target, link.target = .component target → target ∈ declared := by
  induction links generalizing seen with
  | nil => simp [linkProblem?, areNew_nil]
  | cons link rest ih =>
      rw [linkProblem?_cons_eq_none_iff, ih, areNew_cons_iff, List.forall_mem_cons]
      constructor
      · rintro ⟨leads, unseen, others, lead⟩
        exact ⟨⟨unseen, others⟩, leads, lead⟩
      · rintro ⟨⟨unseen, others⟩, leads, lead⟩
        exact ⟨leads, unseen, others, lead⟩

theorem traitProblem?_eq_none_iff :
    component.traitProblem? declared = none ↔ component.scalers.length ≤ 1 ∧
      (component.links.map LinkDefinition.identity).Nodup ∧
        ∀ link ∈ component.links, ∀ target, link.target = .component target →
          target ∈ declared := by
  rw [traitProblem?, check_eq_none_iff, linkProblem?_eq_none_iff, areNew_nil_left_iff, Nat.not_lt]

end Component

namespace Manifest

/-- A manifest that says without doubt what an application is to be. -/
structure IsWellFormed (manifest : Manifest) : Prop where
  named : Text.trimmed manifest.name.text ≠ []
  /-- Components have names and images. -/
  complete : ∀ component ∈ manifest.components,
    Text.trimmed component.name ≠ [] ∧ Text.trimmed component.imageRef ≠ []
  distinct : (manifest.components.map Component.name).Nodup
  /-- The number of instances of a component is said at most once. -/
  scaled : ∀ component ∈ manifest.components, component.scalers.length ≤ 1
  /-- Links to components lead to declared ones. -/
  closed : ∀ component ∈ manifest.components, ∀ link ∈ component.links, ∀ target,
    link.target = .component target → target ∈ manifest.components.map Component.name
  /-- The links of a component are told apart by their names, namespaces and packages. -/
  apart : ∀ component ∈ manifest.components,
    (component.links.map fun link => (link.name, link.nameSpace, link.package)).Nodup

/-- Validation finds no problem exactly with what is well formed. -/
theorem problem?_eq_none_iff {manifest : Manifest} :
    manifest.problem? = none ↔ manifest.IsWellFormed := by
  rw [problem?, check_eq_none_iff, Text.isBlank_iff, Option.or_eq_none_iff,
    List.findSome?_eq_none_iff, Component.firstHeadProblem?_eq_none_iff, areNew_nil_left_iff]
  simp only [Component.traitProblem?_eq_none_iff]
  constructor
  · rintro ⟨named, ⟨distinct, complete⟩, traits⟩
    exact ⟨named, complete, distinct, fun component member => (traits component member).1,
      fun component member => (traits component member).2.2,
      fun component member => (traits component member).2.1⟩
  · rintro ⟨named, complete, distinct, scaled, closed, apart⟩
    exact ⟨named, ⟨distinct, complete⟩, fun component member =>
      ⟨scaled component member, apart component member, closed component member⟩⟩

end Manifest

end Reconciler

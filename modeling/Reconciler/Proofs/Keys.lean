import Mathlib.Data.List.Nodup
import Reconciler.Action

/-!
# Where keys fall together

The key of an action is made of parts joined by separators, and a part may have the separator in
it. Where two keys are one text, either the parts agree, or a part of one key *overruns* that of the
other: it goes on over the next separator, and the other key takes up the rest in its next part.
`RequiredAction.idempotencyKey_eq_iff` says that there are no other ways.
-/

namespace Reconciler

theorem Identifier.text_inj {role : Role} {first second : Identifier role} :
    first.text = second.text ↔ first = second := by
  cases first
  cases second
  simp

namespace Text

/--
Whether the first of two texts with something after a separator goes on where the second one ends,
so that joined they are one text all the same.
-/
def Overruns (separator first afterFirst second afterSecond : String) : Prop :=
  ∃ middle, first = second ++ separator ++ middle ∧
    afterSecond = middle ++ separator ++ afterFirst

variable {separator first afterFirst second afterSecond : String}

theorem Overruns.joined_eq (overruns : Overruns separator first afterFirst second afterSecond) :
    first ++ separator ++ afterFirst = second ++ separator ++ afterSecond := by
  rcases overruns with ⟨middle, rfl, rfl⟩
  simp only [String.append_assoc]

/-- What overruns something has the separator in it. -/
theorem Overruns.mem (overruns : Overruns separator first afterFirst second afterSecond)
    {mark : Char} (isMark : mark ∈ separator.toList) : mark ∈ first.toList := by
  rcases overruns with ⟨middle, rfl, _⟩
  simp [isMark]

theorem Overruns.ne (overruns : Overruns separator first afterFirst second afterSecond)
    (nonempty : separator ≠ "") : first ≠ second := by
  rcases overruns with ⟨middle, longer, _⟩
  intro same
  rw [same] at longer
  have lengths := congrArg String.length longer
  have positive : separator.length ≠ 0 := fun none => nonempty (String.length_eq_zero_iff.mp none)
  simp only [String.length_append] at lengths
  omega

theorem eq_or_overruns_of_append {mark : Char} (isMark : separator.toList = [mark])
    {beyond : List Char} (longer : first.toList = second.toList ++ beyond)
    (after : mark :: afterSecond.toList = beyond ++ mark :: afterFirst.toList) :
    first = second ∧ afterFirst = afterSecond ∨
      Overruns separator first afterFirst second afterSecond := by
  cases beyond with
  | nil =>
      left
      simp only [List.append_nil, String.toList_inj] at longer
      simp only [List.nil_append, List.cons.injEq, String.toList_inj, true_and] at after
      exact ⟨longer, after.symm⟩
  | cons head middle =>
      right
      rcases List.cons.inj after with ⟨rfl, taken⟩
      refine ⟨String.ofList middle, ?_, ?_⟩
      · apply String.ext
        simp [longer, isMark]
      · apply String.ext
        simp [taken, isMark]

/-- Texts joined by one character are told apart by their parts unless one part overruns another. -/
theorem joined_eq_iff (single : separator.length = 1) :
    first ++ separator ++ afterFirst = second ++ separator ++ afterSecond ↔
      first = second ∧ afterFirst = afterSecond ∨
        Overruns separator first afterFirst second afterSecond ∨
        Overruns separator second afterSecond first afterFirst := by
  constructor
  · intro same
    rw [← String.length_toList, List.length_eq_one_iff] at single
    rcases single with ⟨mark, isMark⟩
    have characters := congrArg String.toList same
    simp only [String.toList_append, isMark, List.append_assoc, List.singleton_append,
      List.append_eq_append_iff] at characters
    rcases characters with ⟨beyond, longer, after⟩ | ⟨beyond, longer, after⟩
    · rcases eq_or_overruns_of_append isMark longer after with ⟨rfl, rfl⟩ | overruns
      · exact Or.inl ⟨rfl, rfl⟩
      · exact Or.inr (Or.inr overruns)
    · rcases eq_or_overruns_of_append isMark longer after with ⟨rfl, rfl⟩ | overruns
      · exact Or.inl ⟨rfl, rfl⟩
      · exact Or.inr (Or.inl overruns)
  · rintro (⟨rfl, rfl⟩ | overruns | overruns)
    · rfl
    · exact overruns.joined_eq
    · exact overruns.joined_eq.symm

end Text

/-- Whether there is no separator in the identity of a component. -/
def ComponentId.isPlain (component : ComponentId) : Bool :=
  !component.text.toList.contains '/'

namespace LinkKey

/-- The namespace of a link with its package. -/
def path (key : LinkKey) : String :=
  key.nameSpace ++ "/" ++ key.package

/-- Whether the name or the namespace of the first link overruns that of the second one. -/
def Overruns (first second : LinkKey) : Prop :=
  Text.Overruns ":" first.name first.path second.name second.path ∨
    first.name = second.name ∧
      Text.Overruns "/" first.nameSpace first.package second.nameSpace second.package

variable {first second : LinkKey}

theorem target_eq (key : LinkKey) : key.target = key.name ++ ":" ++ key.path := by
  simp only [target, path, String.append_assoc]

theorem path_eq_iff :
    first.path = second.path ↔
      first.nameSpace = second.nameSpace ∧ first.package = second.package ∨
        Text.Overruns "/" first.nameSpace first.package second.nameSpace second.package ∨
        Text.Overruns "/" second.nameSpace second.package first.nameSpace first.package :=
  Text.joined_eq_iff rfl

theorem target_eq_iff (sameSource : first.source = second.source) :
    first.target = second.target ↔
      first = second ∨ first.Overruns second ∨ second.Overruns first := by
  have sameParts : first = second ↔ first.name = second.name ∧
      first.nameSpace = second.nameSpace ∧ first.package = second.package := by
    cases first
    cases second
    simp_all
  rw [target_eq, target_eq, Text.joined_eq_iff rfl, path_eq_iff, sameParts, Overruns, Overruns,
    eq_comm (a := second.name)]
  tauto

theorem Overruns.ne (overruns : first.Overruns second) : first ≠ second := by
  rintro rfl
  rcases overruns with ofName | ⟨_, ofNameSpace⟩
  · exact ofName.ne (by decide) rfl
  · exact ofNameSpace.ne (by decide) rfl

/-- Whether there is no separator in the parts of a link's key that one comes after. -/
def isPlain (key : LinkKey) : Bool :=
  key.source.isPlain && !key.name.toList.contains ':' && !key.nameSpace.toList.contains '/'

theorem not_overruns_of_isPlain (plain : first.isPlain = true) : ¬first.Overruns second := by
  simp only [isPlain, Bool.and_eq_true, Bool.not_eq_true', List.contains_eq_mem,
    decide_eq_false_iff_not] at plain
  rintro (ofName | ⟨_, ofNameSpace⟩)
  · exact plain.1.2 (ofName.mem (by simp))
  · exact plain.2 (ofNameSpace.mem (by simp))

end LinkKey

namespace ActionKind

theorem name_injective {first second : ActionKind} (same : first.name = second.name) :
    first = second := by
  cases first <;> cases second <;> simp_all [name]

theorem slash_notMem_name (kind : ActionKind) : '/' ∉ kind.name.toList := by
  cases kind <;> decide

end ActionKind

namespace RequiredAction

/-- The link that an action adds or removes. -/
def linkKey? : RequiredAction → Option LinkKey
  | startInstances .. => none
  | stopInstances .. => none
  | addLink link => some link.key
  | removeLink key => some key

/-- What an action does to what, apart from how many instances it starts and which ones it stops. -/
def operation (action : RequiredAction) :
    ActionKind × ComponentId × Option HostId × Option LinkKey :=
  (action.kind, action.component, action.host?, action.linkKey?)

/-- The part of the key of an action that comes after its component. -/
def course (action : RequiredAction) : String :=
  action.kind.name ++ "/" ++ action.target

/-- Whether a part of the link of the first action overruns that of the second one. -/
def LinkOverruns (first second : RequiredAction) : Prop :=
  ∃ key ∈ first.linkKey?, ∃ other ∈ second.linkKey?, key.Overruns other

/-- Whether the component of the first action, or a part of its link, overruns the second one's. -/
def Overruns (first second : RequiredAction) : Prop :=
  Text.Overruns "/" first.component.text first.course second.component.text second.course ∨
    first.kind = second.kind ∧ first.component = second.component ∧ first.LinkOverruns second

variable {first second : RequiredAction}

theorem course_eq_iff :
    first.course = second.course ↔ first.kind = second.kind ∧ first.target = second.target := by
  constructor
  · intro same
    rw [course, course, Text.joined_eq_iff rfl] at same
    rcases same with ⟨sameName, sameTarget⟩ | overruns | overruns
    · exact ⟨ActionKind.name_injective sameName, sameTarget⟩
    · exact absurd (overruns.mem (by simp)) (ActionKind.slash_notMem_name _)
    · exact absurd (overruns.mem (by simp)) (ActionKind.slash_notMem_name _)
  · rintro ⟨sameKind, sameTarget⟩
    rw [course, course, sameKind, sameTarget]

theorem target_eq_iff (sameKind : first.kind = second.kind)
    (sameComponent : first.component = second.component) :
    first.target = second.target ↔
      first.host? = second.host? ∧ first.linkKey? = second.linkKey? ∨
        first.LinkOverruns second ∨ second.LinkOverruns first := by
  cases first <;> cases second <;> cases sameKind
  · simp [target, host?, linkKey?, LinkOverruns, Identifier.text_inj]
  · simp [target, host?, linkKey?, LinkOverruns, Identifier.text_inj]
  · simp [target, host?, linkKey?, LinkOverruns, LinkKey.target_eq_iff sameComponent]
  · simp [target, host?, linkKey?, LinkOverruns, LinkKey.target_eq_iff sameComponent]

theorem idempotencyKey_text (action : RequiredAction) (lattice : LatticeId) :
    (action.idempotencyKey lattice).text =
      lattice.text ++ "/" ++ (action.component.text ++ "/" ++ action.course) := by
  simp only [idempotencyKey, IdempotencyKey.derive, course, String.append_assoc]

/-- Keys fall together where two actions do the same to the same, or one overruns the other. -/
theorem idempotencyKey_eq_iff (lattice : LatticeId) :
    first.idempotencyKey lattice = second.idempotencyKey lattice ↔
      first.operation = second.operation ∨ first.Overruns second ∨ second.Overruns first := by
  rw [← Identifier.text_inj, idempotencyKey_text, idempotencyKey_text, String.append_right_inj,
    Text.joined_eq_iff rfl, Identifier.text_inj, course_eq_iff]
  simp only [operation, Overruns, Prod.mk.injEq, eq_comm (a := second.component),
    eq_comm (a := second.kind)]
  -- Only the targets of one kind of actions on one component can be read part by part.
  by_cases same : first.kind = second.kind ∧ first.component = second.component
  · rw [target_eq_iff same.1 same.2]
    tauto
  · tauto

theorem not_overruns_self (action : RequiredAction) : ¬action.Overruns action := by
  rintro (ofComponent | ⟨_, _, key, isKey, other, isOther, overruns⟩)
  · exact ofComponent.ne (by decide) rfl
  · exact overruns.ne (Option.mem_unique isKey isOther)

/-- Actions that do different things have different keys exactly if none overruns another. -/
theorem nodup_idempotencyKeys_iff {actions : List RequiredAction}
    (nodup : (actions.map operation).Nodup) (lattice : LatticeId) :
    (actions.map (·.idempotencyKey lattice)).Nodup ↔
      ∀ first ∈ actions, ∀ second ∈ actions, ¬first.Overruns second := by
  constructor
  · intro different first firstMember second secondMember overruns
    have sameKey := (idempotencyKey_eq_iff lattice).mpr (Or.inr (Or.inl overruns))
    have same := List.inj_on_of_nodup_map different firstMember secondMember sameKey
    exact not_overruns_self second (same ▸ overruns)
  · intro apart
    refine List.pairwise_map.mpr ((List.pairwise_map.mp nodup).imp_of_mem ?_)
    intro first second firstMember secondMember different sameKey
    rcases (idempotencyKey_eq_iff lattice).mp sameKey with same | overruns | overruns
    · exact different same
    · exact apart first firstMember second secondMember overruns
    · exact apart second secondMember first firstMember overruns

/-- Whether there is no separator in the component of an action and in its link. -/
def isPlain (action : RequiredAction) : Bool :=
  action.component.isPlain && action.linkKey?.all LinkKey.isPlain

theorem not_overruns_of_isPlain (plain : first.isPlain = true) : ¬first.Overruns second := by
  simp only [isPlain, ComponentId.isPlain, Bool.and_eq_true, Bool.not_eq_true',
    List.contains_eq_mem, decide_eq_false_iff_not] at plain
  rcases plain with ⟨plainComponent, plainLink⟩
  rintro (ofComponent | ⟨_, _, key, isKey, other, _, overruns⟩)
  · exact plainComponent (ofComponent.mem (by simp))
  · rw [Option.mem_def.mp isKey] at plainLink
    exact LinkKey.not_overruns_of_isPlain plainLink overruns

end RequiredAction

end Reconciler

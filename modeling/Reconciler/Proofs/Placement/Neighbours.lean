import Reconciler.Proofs.Placement.Operations

/-!
# Applications side by side

The components that an application declares have its name in front, and so have the keys of its
actions about them. Two applications can share these only if the name of one of them goes on with a
hyphen and more where the name of the other one ends, and then there are manifests that do. Stops
and removals of what hosts report for an application under another name are left aside.
-/

namespace Reconciler

/-- Whether a text is a name with a hyphen and more after it. -/
def Text.isUnder (name text : String) : Bool :=
  (name ++ "-").toList.isPrefixOf text.toList

/-- Whether the name of one of two applications is that of the other with a hyphen and more. -/
def AppName.clashes (first second : AppName) : Bool :=
  Text.isUnder first.text second.text || Text.isUnder second.text first.text

/-- Whether an action stops or removes something whose component does not have a name in front. -/
def RequiredAction.strays (app : AppName) (action : RequiredAction) : Bool :=
  action.kind.isDestructive && !Text.isUnder app.text action.component.text

namespace Text

variable {name other text : String}

theorem isUnder_iff : isUnder name text = true ↔ ∃ rest, text = name ++ "-" ++ rest := by
  rw [isUnder, List.isPrefixOf_iff_prefix]
  constructor
  · rintro ⟨rest, same⟩
    refine ⟨String.ofList rest, String.ext ?_⟩
    rw [String.toList_append, String.toList_ofList, same]
  · rintro ⟨rest, rfl⟩
    exact ⟨rest.toList, String.toList_append.symm⟩

theorem isUnder_append (under : isUnder name text = true) (more : String) :
    isUnder name (text ++ more) = true := by
  rcases isUnder_iff.mp under with ⟨rest, rfl⟩
  exact isUnder_iff.mpr ⟨rest ++ more, String.append_assoc⟩

theorem Overruns.isUnder {afterName afterOther : String}
    (overruns : Overruns "-" name afterName other afterOther) : isUnder other name = true := by
  rcases overruns with ⟨middle, longer, _⟩
  exact isUnder_iff.mpr ⟨middle, longer⟩

/-- A text has two names in front only if one of them is the other with more. -/
theorem eq_or_isUnder_of_isUnder (under : isUnder name text = true)
    (underOther : isUnder other text = true) :
    name = other ∨ isUnder name other = true ∨ isUnder other name = true := by
  rcases isUnder_iff.mp under with ⟨rest, rfl⟩
  rcases isUnder_iff.mp underOther with ⟨otherRest, same⟩
  rcases (joined_eq_iff rfl).mp same with ⟨sameName, _⟩ | overruns | overruns
  · exact Or.inl sameName
  · exact Or.inr (Or.inr overruns.isUnder)
  · exact Or.inr (Or.inl overruns.isUnder)

end Text

theorem ComponentId.isUnder_scoped (app : AppName) (name : String) :
    Text.isUnder app.text (ComponentId.scoped app name).text = true :=
  Text.isUnder_iff.mpr ⟨name, rfl⟩

namespace AppName

variable {first second : AppName}

theorem not_isUnder_of_isUnder (different : first ≠ second) (apart : first.clashes second = false)
    {text : String} (under : Text.isUnder first.text text = true) :
    Text.isUnder second.text text = false := by
  rw [clashes, Bool.or_eq_false_iff] at apart
  by_contra underSecond
  rw [Bool.not_eq_false] at underSecond
  rcases Text.eq_or_isUnder_of_isUnder under underSecond with same | below | below
  · exact different (Identifier.text_inj.mp same)
  · simp [apart.1] at below
  · simp [apart.2] at below

/-- If a name is another one with more, the two make the same identity of different components. -/
theorem exists_scoped_eq_of_clashes (clash : first.clashes second = true) :
    ∃ name other, Text.isBlank name = false ∧ Text.isBlank other = false ∧
      ComponentId.scoped first name = ComponentId.scoped second other := by
  have ofUnder : ∀ {shorter longer : AppName}, Text.isUnder shorter.text longer.text = true →
      ∃ name, Text.isBlank name = false ∧
        ComponentId.scoped shorter name = ComponentId.scoped longer "web" := by
    intro shorter longer under
    rcases Text.isUnder_iff.mp under with ⟨rest, isLonger⟩
    refine ⟨rest ++ "-web", ?_, ?_⟩
    · rw [Text.isBlank, String.toList_append, List.all_append, Bool.and_eq_false_iff]
      exact Or.inr (by decide)
    · simp [ComponentId.scoped, isLonger, String.append_assoc]
  rw [clashes, Bool.or_eq_true] at clash
  rcases clash with under | under
  · rcases ofUnder under with ⟨name, named, same⟩
    exact ⟨name, "web", named, by decide, same⟩
  · rcases ofUnder under with ⟨name, named, same⟩
    exact ⟨"web", name, by decide, named, same.symm⟩

end AppName

namespace RequiredAction

/-- Actions on components of two applications have different keys if the names do not clash. -/
theorem idempotencyKey_ne_of_isUnder {first second : AppName} (different : first ≠ second)
    (apart : first.clashes second = false) {action neighbour : RequiredAction}
    (under : Text.isUnder first.text action.component.text = true)
    (neighbourUnder : Text.isUnder second.text neighbour.component.text = true)
    (lattice : LatticeId) :
    action.idempotencyKey lattice ≠ neighbour.idempotencyKey lattice := by
  intro same
  rw [← Identifier.text_inj, idempotencyKey_text, idempotencyKey_text,
    String.append_right_inj, String.append_assoc, String.append_assoc] at same
  have underSecond := Text.isUnder_append neighbourUnder ("/" ++ neighbour.course)
  rw [← same, AppName.not_isUnder_of_isUnder different apart (Text.isUnder_append under _)]
    at underSecond
  cases underSecond

end RequiredAction

namespace Manifest

variable {manifest : Manifest} {observed : ObservedState}

theorem isUnder_of_mem_declaredIds {id : ComponentId} (member : id ∈ manifest.declaredIds) :
    Text.isUnder manifest.name.text id.text = true := by
  rcases List.mem_map.mp member with ⟨component, _, rfl⟩
  exact ComponentId.isUnder_scoped manifest.name component.name

/-- What is started, and what a link is added from, is declared. -/
theorem component_mem_declaredIds {action : RequiredAction}
    (member : action ∈ evaluate manifest observed)
    (constructive : action.kind.isDestructive = false) :
    action.component ∈ manifest.declaredIds := by
  rw [evaluate, List.mem_append, List.mem_append] at member
  rcases member with (scaled | orphaned) | linked
  · exact (of_mem_scalerActions scaled).1
  · rw [(of_mem_orphanActions orphaned).2] at constructive
    cases constructive
  · rcases of_mem_linkActions linked with ⟨link, isDeclared, rfl⟩ | ⟨_, _, rfl⟩
    · rcases (owner_of_mem_linkList isDeclared).2 with ⟨component, componentMember, source⟩
      exact List.mem_map.mpr ⟨component, componentMember, source.symm⟩
    · cases constructive

theorem isUnder_of_mem_evaluate {action : RequiredAction}
    (member : action ∈ evaluate manifest observed)
    (within : action.strays manifest.name = false) :
    Text.isUnder manifest.name.text action.component.text = true := by
  rw [RequiredAction.strays, Bool.and_eq_false_iff, Bool.not_eq_false'] at within
  rcases within with constructive | under
  · exact isUnder_of_mem_declaredIds (component_mem_declaredIds member constructive)
  · exact under

/-- An application whose only component has one link. -/
def linked (app : AppName) (name : String) : Manifest :=
  (Manifest.new app "v1").withComponent ((Component.new name .component "image").withTrait
    (.link (.new "wasi" "keyvalue" (.external "store"))))

theorem isValid_linked {app : AppName} {name : String} (named : Text.isBlank app.text = false)
    (componentNamed : Text.isBlank name = false) : (linked app name).isValid = true := by
  have image : Text.isBlank "image" = false := by decide
  simp [isValid, problem?, linked, withComponent, Manifest.new, named, componentNamed, image,
    Component.firstHeadProblem?, Component.headProblem?, Component.traitProblem?,
    Component.linkProblem?, Component.scalers, Component.links, Component.withTrait, Component.new,
    LinkDefinition.new]

theorem evaluate_linked (app : AppName) (name : String) (lattice : LatticeId) :
    evaluate (linked app name) (.empty lattice) =
      [.addLink ((LinkDefinition.new "wasi" "keyvalue" (.external "store")).resolve app
        (ComponentId.scoped app name))] :=
  rfl

end Manifest

namespace AppName

variable {first second : AppName}

/-- If names clash, two valid manifests share a component and ask for a link under one key. -/
theorem exists_shared_of_clashes (firstNamed : Text.isBlank first.text = false)
    (secondNamed : Text.isBlank second.text = false) (clash : first.clashes second = true)
    (lattice : LatticeId) :
    ∃ manifest other : Manifest, (manifest.isValid = true ∧ other.isValid = true) ∧
      (manifest.name = first ∧ other.name = second) ∧
      (∃ id ∈ manifest.declaredIds, id ∈ other.declaredIds) ∧
      ∃ action ∈ evaluate manifest (.empty lattice), ∃ neighbour ∈ evaluate other (.empty lattice),
        action.kind = .addLink ∧ neighbour.kind = .addLink ∧
          action.idempotencyKey lattice = neighbour.idempotencyKey lattice := by
  rcases exists_scoped_eq_of_clashes clash with ⟨name, otherName, named, otherNamed, same⟩
  refine ⟨.linked first name, .linked second otherName, ?_, ⟨rfl, rfl⟩, ?_, ?_⟩
  · exact ⟨Manifest.isValid_linked firstNamed named,
      Manifest.isValid_linked secondNamed otherNamed⟩
  · exact ⟨_, List.mem_singleton.mpr rfl, List.mem_singleton.mpr same⟩
  · rw [Manifest.evaluate_linked, Manifest.evaluate_linked, ← same]
    exact ⟨_, List.mem_singleton.mpr rfl, _, List.mem_singleton.mpr rfl, rfl, rfl, rfl⟩

/--
Two names do not clash exactly if valid manifests with these names never share a component, and
also exactly if actions of two such manifests never have one key unless one of them strays.
-/
theorem clashes_eq_false_iff (different : first ≠ second)
    (firstNamed : Text.isBlank first.text = false)
    (secondNamed : Text.isBlank second.text = false) :
    (first.clashes second = false ↔
      ∀ manifest other : Manifest, manifest.isValid = true → other.isValid = true →
        manifest.name = first → other.name = second →
          manifest.declaredIds.Disjoint other.declaredIds) ∧
    (first.clashes second = false ↔
      ∀ manifest other : Manifest, manifest.isValid = true → other.isValid = true →
        manifest.name = first → other.name = second →
          ∀ observed : ObservedState, observed.Reachable → ∀ lattice,
            ∀ action ∈ evaluate manifest observed, ∀ neighbour ∈ evaluate other observed,
              action.strays first = false → neighbour.strays second = false →
                action.idempotencyKey lattice ≠ neighbour.idempotencyKey lattice) := by
  refine ⟨⟨?_, ?_⟩, ?_, ?_⟩
  · rintro apart manifest other _ _ rfl rfl id declared declaredByOther
    have underOther := Manifest.isUnder_of_mem_declaredIds declaredByOther
    rw [not_isUnder_of_isUnder different apart (Manifest.isUnder_of_mem_declaredIds declared)]
      at underOther
    cases underOther
  · intro disjoint
    by_contra clash
    rw [Bool.not_eq_false] at clash
    rcases exists_shared_of_clashes firstNamed secondNamed clash ⟨"prod"⟩ with
      ⟨manifest, other, valid, named, ⟨id, declared, declaredByOther⟩, _⟩
    exact disjoint manifest other valid.1 valid.2 named.1 named.2 declared declaredByOther
  · rintro apart manifest other _ _ rfl rfl observed _ lattice action member neighbour
      neighbourMember within neighbourWithin
    exact RequiredAction.idempotencyKey_ne_of_isUnder different apart
      (Manifest.isUnder_of_mem_evaluate member within)
      (Manifest.isUnder_of_mem_evaluate neighbourMember neighbourWithin) lattice
  · intro apart
    by_contra clash
    rw [Bool.not_eq_false] at clash
    rcases exists_shared_of_clashes firstNamed secondNamed clash ⟨"prod"⟩ with
      ⟨manifest, other, valid, named, _, action, member, neighbour, neighbourMember, added,
        neighbourAdded, sameKey⟩
    apply apart manifest other valid.1 valid.2 named.1 named.2 _ (.empty ⟨"prod"⟩) ⟨"prod"⟩ action
      member neighbour neighbourMember _ _ sameKey
    · rw [RequiredAction.strays, added]
      rfl
    · rw [RequiredAction.strays, neighbourAdded]
      rfl

/-- Applications with names apart share no component and start theirs under different keys. -/
theorem clashes_eq_false_iff_of_neighbours :
    let shop : AppName := ⟨"shop"⟩
    let bank : AppName := ⟨"bank"⟩
    let manifest (app : AppName) : Manifest := (Manifest.new app "v1").withComponent
      ((Component.new "api" .component "registry/api:1").withTrait (.spreadScaler (.new 1)))
    let observed : ObservedState := .replay ⟨"prod"⟩
      [⟨⟨"prod"⟩, ⟨"host-a"⟩, 1, ⟨0, 0⟩, .hostStarted ∅ none⟩]
    (shop ≠ bank ∧ Text.isBlank shop.text = false ∧ Text.isBlank bank.text = false ∧
        (manifest shop).isValid = true ∧ (manifest bank).isValid = true ∧ observed.Reachable) ∧
      (manifest shop).declaredIds.Disjoint (manifest bank).declaredIds ∧
      (evaluate (manifest shop) observed).map (·.idempotencyKey ⟨"prod"⟩) =
        [⟨"prod/shop-api/start/host-a"⟩] ∧
      ∀ action ∈ evaluate (manifest shop) observed, ∀ neighbour ∈ evaluate (manifest bank) observed,
        action.strays shop = false → neighbour.strays bank = false →
          action.idempotencyKey ⟨"prod"⟩ ≠ neighbour.idempotencyKey ⟨"prod"⟩ := by
  intro shop bank manifest observed
  have different : shop ≠ bank := by decide
  have shopNamed : Text.isBlank shop.text = false := by decide
  have bankNamed : Text.isBlank bank.text = false := by decide
  have shopValid : (manifest shop).isValid = true := by decide +kernel
  have bankValid : (manifest bank).isValid = true := by decide +kernel
  have reachable : observed.Reachable := (ObservedState.Reachable.empty ⟨"prod"⟩).afterAll _
  have apart : shop.clashes bank = false := by decide
  have iffs := clashes_eq_false_iff different shopNamed bankNamed
  refine ⟨⟨different, shopNamed, bankNamed, shopValid, bankValid, reachable⟩, ?_, ?_, ?_⟩
  · exact iffs.1.mp apart _ _ shopValid bankValid rfl rfl
  · decide +kernel
  · exact iffs.2.mp apart _ _ shopValid bankValid rfl rfl observed reachable ⟨"prod"⟩

/--
The applications shop and shop-eu share a component and the key under which they start it; and shop
and bank stop instances under one key that were reported for them as of one component.
-/
theorem shared_component_of_clash :
    let manifest (app : AppName) (component : String) : Manifest :=
      (Manifest.new app "v1").withComponent
        ((Component.new component .component "registry/api:1").withTrait (.spreadScaler (.new 1)))
    let event (sequence : UInt64) (kind : LatticeEventKind) : LatticeEvent :=
      ⟨⟨"prod"⟩, ⟨"host-a"⟩, sequence, ⟨0, 0⟩, kind⟩
    let started (sequence : UInt64) (id : InstanceId) (app : AppName) : LatticeEvent :=
      event sequence (.instanceStarted ⟨"cache"⟩ .component "registry/cache:1" id (.forApp app))
    let observed : ObservedState := .replay ⟨"prod"⟩ [event 1 (.hostStarted ∅ none)]
    let misreported : ObservedState := observed.afterAll
      [started 2 ⟨"i-1"⟩ ⟨"shop"⟩, started 3 ⟨"i-2"⟩ ⟨"bank"⟩]
    let keys (manifest : Manifest) (observed : ObservedState) : List IdempotencyKey :=
      (evaluate manifest observed).map (·.idempotencyKey ⟨"prod"⟩)
    (∀ named ∈ [manifest ⟨"shop"⟩ "eu-api", manifest ⟨"shop-eu"⟩ "api", .new ⟨"shop"⟩ "v1",
        .new ⟨"bank"⟩ "v1"], named.isValid = true) ∧
      observed.Reachable ∧ misreported.Reachable ∧
      (manifest ⟨"shop"⟩ "eu-api").declaredIds = [⟨"shop-eu-api"⟩] ∧
      (manifest ⟨"shop-eu"⟩ "api").declaredIds = [⟨"shop-eu-api"⟩] ∧
      keys (manifest ⟨"shop"⟩ "eu-api") observed = [⟨"prod/shop-eu-api/start/host-a"⟩] ∧
      keys (manifest ⟨"shop-eu"⟩ "api") observed = [⟨"prod/shop-eu-api/start/host-a"⟩] ∧
      keys (.new ⟨"shop"⟩ "v1") misreported = [⟨"prod/cache/stop/host-a"⟩] ∧
      keys (.new ⟨"bank"⟩ "v1") misreported = [⟨"prod/cache/stop/host-a"⟩] := by
  intro manifest event started observed misreported keys
  have reachable : observed.Reachable := (ObservedState.Reachable.empty ⟨"prod"⟩).afterAll _
  refine ⟨?_, reachable, reachable.afterAll _, ?_, ?_, ?_, ?_, ?_, ?_⟩ <;> decide +kernel

end AppName

end Reconciler

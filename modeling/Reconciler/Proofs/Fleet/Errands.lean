import Reconciler.Proofs.Fleet.Answers
import Reconciler.Proofs.Fleet.Members

/-!
# Orders that wait to be delivered

An order comes first among the chores that are left of an errand. So a chore that fails never drops
an order.
-/

namespace Reconciler

namespace Session

variable {session : Session}

/-- A chore that is done leaves an order only where it stood itself. -/
theorem orderFirst_perform {chore : Chore} {more rest : List Chore}
    (performed : (session.perform chore).2 = .ok more) (orderless : Chore.orders rest = []) :
    Chore.OrderFirst (more ++ rest) := by
  cases ordered : chore.order? with
  | none =>
      have left := session.ordersLeft_perform ordered
      rw [performed] at left
      apply Chore.orderFirst_of_orders_eq_nil
      rw [Chore.orders_append, orderless, List.append_nil]
      exact left
  | some order =>
      cases chore with
      | deliver number trigger isWaiting =>
          have same : (session.deliver number trigger isWaiting).2 = more :=
            Except.ok.inj performed
          rcases session.chores_deliver number trigger isWaiting with left | left
          · rw [← same, left]
            exact Chore.orderFirst_of_orders_eq_nil orderless
          · rw [← same, left]
            exact orderless
      | _ => cases ordered

end Session

theorem Errand.member_goOn (errand : Errand) (result : Except ControlError (List Chore)) :
    (errand.goOn result).member = errand.member := by
  cases result <;> rfl

theorem Chore.OrderFirst.goOn {session : Session} {chore : Chore} {rest : List Chore}
    (first : OrderFirst (chore :: rest)) (member : Nat) :
    OrderFirst (Errand.goOn ⟨member, chore :: rest⟩
      (session.afterDeed (.perform chore)).2).chores := by
  have orderless : orders rest = [] := first
  rw [Session.afterDeed]
  split
  · rcases performed : (session.perform chore).2 with problem | more
    · rfl
    · exact Session.orderFirst_perform performed orderless
  · exact orderless

namespace World

variable {world : World} {act : Act} {index : Nat} {deed : Deed} {session : Session}
  {order : Order}

/-- In what is left of requests, orders come first. -/
def OrdersFirst (world : World) : Prop :=
  ∀ errand ∈ world.errands, Chore.OrderFirst errand.chores

/-- An order is on its way to an actor of a member. -/
def Awaits (world : World) (index : Nat) (order : Order) : Prop :=
  ∃ errand ∈ world.errands, errand.member = index ∧ order ∈ Chore.orders errand.chores

theorem errands_after (about : world.deed? act = some (index, deed))
    (found : world.fleet.session? index = some session) :
    (world.after act).errands = world.errandsAfter (session.afterDeed deed).2 act := by
  rw [after_of_deed? about found]

/-- A member goes on with the first chore that is left of an errand. -/
theorem exists_errand_of_deed? {errand : Nat}
    (about : world.deed? (.carryOn errand) = some (index, deed)) :
    ∃ chore rest, world.errands[errand]? = some ⟨index, chore :: rest⟩ ∧ deed = .perform chore := by
  rw [deed?] at about
  split at about
  · rename_i member chore rest found
    cases about
    exact ⟨chore, rest, found, rfl⟩
  · cases about

/-- The errands after a member has gone on with one of them. -/
theorem mem_errandsAfter_carryOn {errand : Nat} {former other : Errand}
    {result : Except ControlError (List Chore)} (here : world.errands[errand]? = some former) :
    other ∈ world.errandsAfter result (.carryOn errand) ↔
      other = former.goOn result ∨ ∃ position, position ≠ errand ∧
        world.errands[position]? = some other := by
  rw [errandsAfter, List.mem_iff_getElem?]
  constructor
  · rintro ⟨position, same⟩
    rw [List.getElem?_modify, Option.map_eq_map, Option.map_eq_some_iff] at same
    rcases same with ⟨before, beforeHere, rfl⟩
    split
    · rename_i isHere
      subst isHere
      obtain rfl := Option.some.inj (here.symm.trans beforeHere)
      exact Or.inl rfl
    · rename_i elsewhere
      exact Or.inr ⟨position, Ne.symm elsewhere, beforeHere⟩
  · rintro (rfl | ⟨position, elsewhere, beforeHere⟩)
    · exact ⟨errand, by simp [here]⟩
    · exact ⟨position, by simp [beforeHere, Ne.symm elsewhere]⟩

/-- An errand stays as it is, unless its member goes on with it. -/
theorem getElem?_errands_after {position : Nat} {errand : Errand}
    (here : world.errands[position]? = some errand) (act : Act) :
    (world.after act).errands[position]? = some errand ∨
      ∃ chore rest session, errand.chores = chore :: rest ∧
        world.deed? act = some (errand.member, .perform chore) ∧
        world.fleet.session? errand.member = some session ∧
        (world.after act).errands[position]? =
          some (errand.goOn (session.afterDeed (.perform chore)).2) := by
  cases about : world.deed? act with
  | none =>
      rw [World.after, about]
      exact Or.inl here
  | some doing =>
      rcases doing with ⟨member, deed⟩
      cases found : world.fleet.session? member with
      | none =>
          rw [World.after, about]
          simp only [found]
          exact Or.inl here
      | some session =>
          rw [errands_after about found]
          cases act with
          | ask other request =>
              have bound := (List.getElem?_eq_some_iff.mp here).1
              left
              rw [errandsAfter, List.getElem?_append_left bound, here]
          | carryOn number =>
              rcases exists_errand_of_deed? about with ⟨chore, rest, taken, rfl⟩
              rw [errandsAfter, List.getElem?_modify, here]
              by_cases isHere : number = position
              · subst isHere
                obtain rfl := Option.some.inj (here.symm.trans taken)
                exact Or.inr ⟨chore, rest, session, rfl, rfl, found, by simp⟩
              · exact Or.inl (by simp [isHere])
          | _ => exact Or.inl here

/-- What a member does not do itself brings it no errands. -/
theorem mem_errands_of_after (still : ∀ deed, world.deed? act ≠ some (index, deed))
    {errand : Errand} (member : errand ∈ (world.after act).errands)
    (own : errand.member = index) : errand ∈ world.errands := by
  cases about : world.deed? act with
  | none =>
      rw [World.after, about] at member
      exact member
  | some doing =>
      rcases doing with ⟨other, deed⟩
      cases found : world.fleet.session? other with
      | none =>
          rw [World.after, about] at member
          simpa only [found] using member
      | some acting =>
          rw [errands_after about found] at member
          cases act with
          | ask another request =>
              cases about
              rcases List.mem_append.mp member with former | isNew
              · exact former
              · rw [List.mem_singleton.mp isNew] at own
                subst own
                exact absurd rfl (still _)
          | carryOn number =>
              rcases exists_errand_of_deed? about with ⟨chore, rest, here, rfl⟩
              rcases (mem_errandsAfter_carryOn here).mp member with rfl | ⟨position, _, elsewhere⟩
              · rw [Errand.member_goOn] at own
                subst own
                exact absurd about (still _)
              · exact List.mem_of_getElem? elsewhere
          | _ => exact member

theorem OrdersFirst.after (first : world.OrdersFirst) (act : Act) :
    (world.after act).OrdersFirst := by
  cases about : world.deed? act with
  | none =>
      rw [World.after, about]
      exact first
  | some doing =>
      rcases doing with ⟨member, deed⟩
      cases found : world.fleet.session? member with
      | none =>
          rw [World.after, about]
          simp only [found]
          exact first
      | some session =>
          rw [OrdersFirst, errands_after about found]
          cases act with
          | ask other request =>
              cases about
              refine List.forall_mem_append.mpr ⟨first, ?_⟩
              rw [List.forall_mem_singleton]
              rcases ran : request.call.run session with ⟨problem | chores, later⟩
              · simp only [Session.afterDeed, ran]
                rfl
              · simp only [Session.afterDeed, ran]
                exact Call.answers_request Chore.ordinary_orderFirst request session chores later
                  ran
          | carryOn errand =>
              rcases exists_errand_of_deed? about with ⟨chore, rest, here, rfl⟩
              intro other isMember
              rcases (mem_errandsAfter_carryOn here).mp isMember with
                rfl | ⟨position, _, elsewhere⟩
              · exact (first _ (List.mem_of_getElem? here)).goOn member
              · exact first other (List.mem_of_getElem? elsewhere)
          | _ => exact first

/-- An order that a member delivers in an errand was on its way. -/
theorem awaits_of_perform {chore : Chore} (about : world.deed? act = some (index, .perform chore))
    (ordered : chore.order? = some order) : world.Awaits index order := by
  cases act with
  | carryOn number =>
      rcases exists_errand_of_deed? about with ⟨other, rest, here, same⟩
      cases same
      refine ⟨_, List.mem_of_getElem? here, rfl, ?_⟩
      rw [Chore.orders_cons, ordered]
      exact List.mem_cons_self
  | _ => cases about

/-- Orders on their way were there before, or are left by the deed. -/
theorem awaits_of_after (about : world.deed? act = some (index, deed))
    (found : world.fleet.session? index = some session)
    (awaits : (world.after act).Awaits index order) :
    world.Awaits index order ∨ order ∈ Session.ordersLeft (session.afterDeed deed).2 := by
  rcases awaits with ⟨errand, isErrand, own, ordered⟩
  rw [errands_after about found] at isErrand
  cases act with
  | ask member request =>
      rcases List.mem_append.mp isErrand with former | isNew
      · exact Or.inl ⟨errand, former, own, ordered⟩
      · right
        rw [List.mem_singleton.mp isNew] at ordered
        generalize (session.afterDeed deed).2 = result at ordered
        cases result with
        | ok chores => exact ordered
        | error problem => cases ordered
  | carryOn number =>
      rcases exists_errand_of_deed? about with ⟨chore, rest, here, rfl⟩
      rcases (mem_errandsAfter_carryOn here).mp isErrand with rfl | ⟨position, _, elsewhere⟩
      · generalize (session.afterDeed (.perform chore)).2 = result at ordered
        cases result with
        | ok chores =>
            have split : order ∈ Chore.orders chores ++ Chore.orders rest := by
              rw [← Chore.orders_append]
              exact ordered
            rcases List.mem_append.mp split with left | former
            · exact Or.inr left
            · refine Or.inl ⟨_, List.mem_of_getElem? here, rfl, ?_⟩
              rw [Chore.orders_cons]
              exact List.mem_append_right _ former
        | error problem => cases ordered
      · exact Or.inl ⟨errand, List.mem_of_getElem? elsewhere, own, ordered⟩
  | _ => exact Or.inl ⟨errand, isErrand, own, ordered⟩

/-- Orders that are left by a deed are on their way. -/
theorem awaits_of_ordersLeft (about : world.deed? act = some (index, deed))
    (found : world.fleet.session? index = some session)
    (left : order ∈ Session.ordersLeft (session.afterDeed deed).2) :
    (world.after act).Awaits index order := by
  rw [Awaits, errands_after about found]
  have none : ∀ {later : Session}, order ∉ Session.ordersLeft (later, Except.ok []).2 :=
    fun left => by cases left
  cases act with
  | ask member request =>
      cases about
      refine ⟨_, List.mem_append_right _ (List.mem_singleton_self _), rfl, ?_⟩
      generalize (session.afterDeed (.answer request)).2 = result at left
      cases result with
      | ok chores => exact left
      | error problem => cases left
  | carryOn number =>
      rcases exists_errand_of_deed? about with ⟨chore, rest, here, rfl⟩
      refine ⟨_, (mem_errandsAfter_carryOn here).mpr (Or.inl rfl), Errand.member_goOn _ _, ?_⟩
      generalize (session.afterDeed (.perform chore)).2 = result at left
      cases result with
      | ok chores =>
          have part : order ∈ Chore.orders chores ++ Chore.orders rest :=
            List.mem_append_left _ left
          rwa [← Chore.orders_append] at part
      | error problem => cases left
  | moveActor member number =>
      cases about
      rw [Session.afterDeed] at left
      split at left <;> exact absurd left none
  | moveLoop member number =>
      cases about
      rw [Session.afterDeed] at left
      split at left <;> exact absurd left none
  | turnSink member failure delay =>
      cases about
      exact absurd left none
  | turnStore member outage =>
      cases about
      exact absurd left none
  | wait millis wall => cases about

/-- Orders stay on their way, but for one that a chore is about. -/
theorem awaits_after (first : world.OrdersFirst) (about : world.deed? act = some (index, deed))
    (found : world.fleet.session? index = some session) (awaits : world.Awaits index order) :
    (world.after act).Awaits index order ∨
      ∃ chore, deed = .perform chore ∧ chore.order? = some order := by
  rcases awaits with ⟨errand, isErrand, own, ordered⟩
  rw [Awaits, errands_after about found]
  cases act with
  | ask member request =>
      exact Or.inl ⟨errand, List.mem_append_left _ isErrand, own, ordered⟩
  | carryOn number =>
      rcases exists_errand_of_deed? about with ⟨chore, rest, here, rfl⟩
      rcases List.mem_iff_getElem?.mp isErrand with ⟨position, same⟩
      by_cases isHere : position = number
      · subst isHere
        obtain rfl := Option.some.inj (here.symm.trans same)
        -- If the chore fails, the rest of the errand is dropped, but there is no order in it.
        have orderless : Chore.orders rest = [] := first _ isErrand
        rw [Chore.orders_cons, orderless, List.append_nil, Option.mem_toList] at ordered
        exact Or.inr ⟨chore, rfl, ordered⟩
      · exact Or.inl ⟨errand, (mem_errandsAfter_carryOn here).mpr
          (Or.inr ⟨position, isHere, same⟩), own, ordered⟩
  | _ => exact Or.inl ⟨errand, isErrand, own, ordered⟩

/-- What other members do brings no orders to a member, and takes none from it. -/
theorem awaits_after_iff_of_ne {member : Nat} (about : world.deed? act = some (member, deed))
    (found : world.fleet.session? member = some session) (different : member ≠ index) :
    (world.after act).Awaits index order ↔ world.Awaits index order := by
  rw [Awaits, Awaits, errands_after about found]
  cases act with
  | ask other request =>
      cases about
      constructor
      · rintro ⟨errand, isErrand, own, ordered⟩
        rcases List.mem_append.mp isErrand with former | isNew
        · exact ⟨errand, former, own, ordered⟩
        · rw [List.mem_singleton.mp isNew] at own
          exact absurd own different
      · rintro ⟨errand, isErrand, own, ordered⟩
        exact ⟨errand, List.mem_append_left _ isErrand, own, ordered⟩
  | carryOn number =>
      rcases exists_errand_of_deed? about with ⟨chore, rest, here, rfl⟩
      constructor
      · rintro ⟨errand, isErrand, own, ordered⟩
        rcases (mem_errandsAfter_carryOn here).mp isErrand with rfl | ⟨position, _, elsewhere⟩
        · rw [Errand.member_goOn] at own
          exact absurd own different
        · exact ⟨errand, List.mem_of_getElem? elsewhere, own, ordered⟩
      · rintro ⟨errand, isErrand, own, ordered⟩
        rcases List.mem_iff_getElem?.mp isErrand with ⟨position, same⟩
        refine ⟨errand, (mem_errandsAfter_carryOn here).mpr (Or.inr ⟨position, ?_, same⟩), own,
          ordered⟩
        rintro rfl
        obtain rfl := Option.some.inj (here.symm.trans same)
        exact different own
  | _ => exact Iff.rfl

/-- Unless a member does something itself, no orders come to it or go. -/
theorem awaits_after_iff_of_still (still : ∀ deed, world.deed? act ≠ some (index, deed)) :
    (world.after act).Awaits index order ↔ world.Awaits index order := by
  cases about : world.deed? act with
  | none => rw [after, about]; rfl
  | some doing =>
      rcases doing with ⟨member, deed⟩
      cases found : world.fleet.session? member with
      | none =>
          rw [after, about]
          simp only [found]
      | some acting =>
          refine awaits_after_iff_of_ne about found ?_
          rintro rfl
          exact still deed about

end World

end Reconciler

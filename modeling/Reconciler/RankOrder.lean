/-!
# Orders by rank

Things are often ordered by a rank that they have in a type whose order is known. Such an order is
lawful, and tells things apart as soon as different things have different ranks.
-/

namespace Reconciler

variable {α : Type} {β : Type} [Ord β]

/-- The order of things by rank. -/
@[reducible]
def rankOrd (rank : α → β) : Ord α :=
  ⟨fun first second => compare (rank first) (rank second)⟩

theorem transOrd_rankOrd [Std.TransOrd β] (rank : α → β) :
    @Std.TransOrd α (rankOrd rank) :=
  letI := rankOrd rank
  { eq_swap := fun {first second} =>
      (Std.OrientedOrd.eq_swap : compare (rank first) (rank second) = _)
    isLE_trans := fun {first second third} firstBefore secondBefore =>
      (Std.TransOrd.isLE_trans (a := rank first) (b := rank second) (c := rank third)
        firstBefore secondBefore) }

theorem lawfulEqOrd_rankOrd [Std.LawfulEqOrd β] (rank : α → β)
    (injective : ∀ first second, rank first = rank second → first = second) :
    @Std.LawfulEqOrd α (rankOrd rank) :=
  letI := rankOrd rank
  { compare_self := fun {thing} => (Std.ReflOrd.compare_self : compare (rank thing) _ = .eq)
    eq_of_compare := fun {first second} same =>
      injective first second (Std.LawfulEqOrd.eq_of_compare same) }

end Reconciler

import Mathlib.Algebra.GroupWithZero.Nat
import Mathlib.Data.List.Chain

/-! A pass along a list that deletes full items and never looks at those that move up. -/

namespace Sweep

variable {Item : Type*} (full : Item → Bool) (blank : Item)

/--
The pass: a full item is deleted, and the list is filled up with a blank at its end.

The item that moves into the place of a deleted one is gone past without a test.
-/
def pass : Nat → List Item → List Item
  | 0, items => items
  | _ + 1, [] => []
  | steps + 1, item :: rest =>
    if full item then
      match rest with
      | [] => [blank]
      | next :: others => next :: pass steps (others ++ [blank])
    else item :: pass steps rest

/-- How many items the pass deletes. -/
def removed : Nat → List Item → Nat
  | 0, _ => 0
  | _ + 1, [] => 0
  | steps + 1, item :: rest =>
    if full item then
      match rest with
      | [] => 1
      | _ :: others => removed steps (others ++ [blank]) + 1
    else removed steps rest

/-- There is nothing to keep of an empty list. -/
@[simp] theorem pass_nil (steps : Nat) : pass full blank steps [] = [] := by
  cases steps <;> rfl

/-- There is nothing to remove from an empty list. -/
@[simp] theorem removed_nil (steps : Nat) : removed full blank steps [] = 0 := by
  cases steps <;> rfl

/-- Behind a deleted item the pass goes on with the list that has moved up, less its first item. -/
theorem pass_full {full : Item → Bool} {blank item next : Item} {rest others : List Item}
    (filled : full item = true) (up : next :: others = rest ++ [blank]) (steps : Nat) :
    pass full blank (steps + 1) (item :: rest) = next :: pass full blank steps others ∧
      removed full blank (steps + 1) (item :: rest) = removed full blank steps others + 1 := by
  cases rest with
  | nil =>
    rw [List.nil_append, List.cons.injEq] at up
    obtain ⟨rfl, rfl⟩ := up
    simp [pass, removed, filled]
  | cons third later =>
    rw [List.cons_append, List.cons.injEq] at up
    obtain ⟨rfl, rfl⟩ := up
    simp [pass, removed, filled]

/-- No two items next to each other are full. -/
def Apart (items : List Item) : Prop :=
  items.IsChain fun one two => ¬ (full one = true ∧ full two = true)

/-- A blank behind the list is no full neighbour. -/
theorem Apart.snoc_iff {full : Item → Bool} {blank : Item} (blanks : full blank = false)
    (items : List Item) : Apart full (items ++ [blank]) ↔ Apart full items := by
  unfold Apart
  rw [List.isChain_append]
  simp [blanks]

/-- Where no full items touch, the pass keeps the others in order and blanks behind them. -/
theorem pass_apart {full : Item → Bool} {blank : Item} (blanks : full blank = false) (steps : Nat)
    (items : List Item) (enough : items.length ≤ steps) (apart : Apart full items) :
    pass full blank steps items =
        items.filter (fun item => !full item) ++ List.replicate (items.countP full) blank ∧
      removed full blank steps items = items.countP full := by
  -- The induction is on the steps, as the list may keep its length from one to the next.
  induction steps generalizing items with
  | zero =>
    have none_left : items = [] := List.eq_nil_of_length_eq_zero (by omega)
    subst none_left
    simp [pass, removed]
  | succ steps ih =>
    cases items with
    | nil => simp [pass, removed]
    | cons item rest =>
      cases filled : full item with
      | false =>
        -- An item that is not full is kept, and the pass goes on behind it.
        have later := ih rest (by simpa using enough) apart.tail
        simp [pass, removed, filled, later]
      | true =>
        cases rest with
        | nil => simp [pass, removed, filled]
        | cons next others =>
          -- The item behind a full one is not full, so it moves up and is kept.
          have nextFree : full next = false := by
            have pair := (List.isChain_cons_cons.mp apart).1
            simpa [filled] using pair
          have later := ih (others ++ [blank]) (by simp at enough ⊢; omega)
            ((Apart.snoc_iff blanks others).mpr apart.tail.tail)
          simp [pass, removed, filled, nextFree, later, blanks, List.replicate_succ]

/-- Where full items touch, the pass leaves a full one behind. -/
theorem exists_full_of_not_apart {full : Item → Bool} {blank : Item} (blanks : full blank = false)
    (steps : Nat) (items : List Item) (enough : items.length ≤ steps)
    (touching : ¬ Apart full items) : ∃ item ∈ pass full blank steps items, full item = true := by
  -- The induction is on the steps, as the list may keep its length from one to the next.
  induction steps generalizing items with
  | zero =>
    have none_left : items = [] := List.eq_nil_of_length_eq_zero (by omega)
    subst none_left
    exact absurd List.isChain_nil touching
  | succ steps ih =>
    cases items with
    | nil => exact absurd List.isChain_nil touching
    | cons item rest =>
      cases filled : full item with
      | false =>
        -- An item that is not full touches nothing, so the two that touch come behind it.
        have behind : ¬ Apart full rest := by
          intro apart
          cases rest with
          | nil => exact touching (List.isChain_singleton item)
          | cons next others =>
            exact touching (List.isChain_cons_cons.mpr ⟨by simp [filled], apart⟩)
        obtain ⟨found, member, isFull⟩ := ih rest (by simpa using enough) behind
        exact ⟨found, by simp [pass, filled, member], isFull⟩
      | true =>
        cases rest with
        | nil => exact absurd (List.isChain_singleton item) touching
        | cons next others =>
          cases nextFull : full next with
          -- The full item that moves up is never looked at again.
          | true => exact ⟨next, by simp [pass, filled], nextFull⟩
          | false =>
            -- The item that moves up is not full, so the two that touch come behind it.
            have behind : ¬ Apart full others := by
              intro apart
              apply touching
              refine List.isChain_cons_cons.mpr ⟨by simp [nextFull], ?_⟩
              cases others with
              | nil => exact List.isChain_singleton next
              | cons third later =>
                exact List.isChain_cons_cons.mpr ⟨by simp [nextFull], apart⟩
            obtain ⟨found, member, isFull⟩ := ih (others ++ [blank]) (by simp at enough ⊢; omega)
              (fun apart => behind ((Apart.snoc_iff blanks others).mp apart))
            exact ⟨found, by simp [pass, filled, member], isFull⟩

/-- The pass takes away the weight of the items it deletes, and no other. -/
theorem pass_weight {full : Item → Bool} {blank : Item} {weight : Item → Nat} {unit : Nat}
    (blanks : weight blank = 0) (fulls : ∀ item, full item = true → weight item = unit)
    (steps : Nat) (items : List Item) :
    ((pass full blank steps items).map weight).sum + unit * removed full blank steps items =
      (items.map weight).sum := by
  -- Every step keeps an item, or trades a full one for a blank, and counts it.
  induction steps generalizing items with
  | zero => simp [pass, removed]
  | succ steps ih =>
    cases items with
    | nil => simp [pass, removed]
    | cons item rest =>
      cases filled : full item with
      | false =>
        have later := ih rest
        simp only [pass, removed, filled, Bool.false_eq_true, if_false, List.map_cons,
          List.sum_cons]
        omega
      | true =>
        have heavy := fulls item filled
        cases rest with
        -- The full item was the last, and only the blank is left.
        | nil => simp [pass, removed, filled, blanks, heavy]
        | cons next others =>
          have later := ih (others ++ [blank])
          simp only [List.map_append, List.map_cons, List.map_nil, List.sum_append, List.sum_cons,
            List.sum_nil, blanks] at later
          simp only [pass, removed, filled, if_true, List.map_cons, List.sum_cons, Nat.mul_add]
          omega

end Sweep

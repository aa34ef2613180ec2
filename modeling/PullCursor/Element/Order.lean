import Std.Data.TreeSet.Basic
import PullCursor.Element

/-! The total order on elements. Two elements have the same place in it only if they are equal, so
an ordered set of elements tells apart whatever differs. -/
namespace PullCursor.Element

mutual

/-- Null is least, then booleans, integers, texts by code point, and lists item by item. -/
def order : Element → Element → Ordering
  | .null, .null => .eq
  | .null, _ => .lt
  | _, .null => .gt
  | .bool a, .bool b => compare a b
  | .bool _, _ => .lt
  | _, .bool _ => .gt
  | .int a, .int b => compare a.toInt b.toInt
  | .int _, _ => .lt
  | _, .int _ => .gt
  | .text a, .text b => compare a b
  | .text _, _ => .lt
  | _, .text _ => .gt
  | .list a, .list b => orderList a b

def orderList : List Element → List Element → Ordering
  | [], [] => .eq
  | [], _ :: _ => .lt
  | _ :: _, [] => .gt
  | x :: a, y :: b => (order x y).then (orderList a b)

end

mutual

theorem order_self : (a : Element) → order a a = .eq
  | .null => rfl
  | .bool a => by simp [order]
  | .int a => by simp [order]
  | .text a => by simp [order]
  | .list a => orderList_self a

theorem orderList_self : (a : List Element) → orderList a a = .eq
  | [] => rfl
  | x :: a => by rw [orderList, order_self x, orderList_self a]; rfl

end

mutual

theorem eq_of_order : {a b : Element} → order a b = .eq → a = b
  | .null, b, h => by cases b <;> simp [order] at h ⊢
  | .bool a, b, h => by cases b <;> simp [order] at h ⊢; exact h
  | .int a, b, h => by cases b <;> simp [order] at h ⊢; exact Int64.toInt_inj.1 h
  | .text a, b, h => by cases b <;> simp [order] at h ⊢; exact h
  | .list a, b, h => by
    cases b <;> simp [order] at h ⊢
    exact eq_of_orderList h

theorem eq_of_orderList : {a b : List Element} → orderList a b = .eq → a = b
  | [], b, h => by cases b <;> simp [orderList] at h ⊢
  | x :: a, [], h => by simp [orderList] at h
  | x :: a, y :: b, h => by
    rw [orderList, Ordering.then_eq_eq] at h
    rw [eq_of_order h.1, eq_of_orderList h.2]

end

mutual

theorem order_swap : (a b : Element) → order a b = (order b a).swap
  | .null, b => by cases b <;> rfl
  | .bool a, b => by cases b <;> simp [order]; exact Std.OrientedCmp.eq_swap
  | .int a, b => by cases b <;> simp [order]; exact Std.OrientedCmp.eq_swap
  | .text a, b => by cases b <;> simp [order]; exact Std.OrientedCmp.eq_swap
  | .list a, b => by cases b <;> simp [order]; exact orderList_swap a _

theorem orderList_swap : (a b : List Element) → orderList a b = (orderList b a).swap
  | [], b => by cases b <;> rfl
  | x :: a, [] => rfl
  | x :: a, y :: b => by
    rw [orderList, orderList, Ordering.swap_then, ← order_swap x y, ← orderList_swap a b]

end

mutual

theorem order_isLE_trans : {a b c : Element} →
    (order a b).isLE → (order b c).isLE → (order a c).isLE
  | .null, b, c, _, _ => by cases c <;> rfl
  | .bool a, b, c, h, h' => by
    cases b <;> cases c <;> simp only [order] at h h' ⊢ <;> try contradiction
    · exact Std.TransCmp.isLE_trans h h'
    all_goals rfl
  | .int a, b, c, h, h' => by
    cases b <;> cases c <;> simp only [order] at h h' ⊢ <;> try contradiction
    · exact Std.TransCmp.isLE_trans h h'
    all_goals rfl
  | .text a, b, c, h, h' => by
    cases b <;> cases c <;> simp only [order] at h h' ⊢ <;> try contradiction
    · exact Std.TransCmp.isLE_trans h h'
    all_goals rfl
  | .list a, b, c, h, h' => by
    cases b <;> cases c <;> simp only [order] at h h' ⊢ <;> try contradiction
    exact orderList_isLE_trans h h'

theorem orderList_isLE_trans : {a b c : List Element} →
    (orderList a b).isLE → (orderList b c).isLE → (orderList a c).isLE
  | [], _, c, _, _ => by cases c <;> rfl
  | x :: a, b, c, h, h' => by
    rcases b with _ | ⟨y, b⟩ <;> rcases c with _ | ⟨z, c⟩ <;> simp only [orderList] at h h' ⊢ <;>
      try contradiction
    rcases hxy : order x y with _ | _ | _
    · rcases hyz : order y z with _ | _ | _
      · have hxz : (order x z).isLE :=
          order_isLE_trans (b := y) (by simp [hxy]) (by simp [hyz])
        rcases e : order x z with _ | _ | _
        · rfl
        · obtain rfl := eq_of_order e
          rw [order_swap, hyz] at hxy
          contradiction
        · simp [e] at hxz
      · rw [← eq_of_order hyz, hxy]
        rfl
      · simp [hyz] at h'
    · obtain rfl := eq_of_order hxy
      rw [order_self] at h
      rcases e : order x z with _ | _ | _
      · rfl
      · rw [e] at h'
        exact orderList_isLE_trans h h'
      · simp [e] at h'
    · simp [hxy] at h

end

instance : Std.TransCmp order where
  eq_swap := order_swap _ _
  isLE_trans := order_isLE_trans

instance : Std.LawfulEqCmp order where
  compare_self := order_self _
  eq_of_compare := eq_of_order

abbrev SortedSet : Type := Std.TreeSet Element order

end PullCursor.Element

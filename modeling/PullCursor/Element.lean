import PullCursor.Text

/-! Elements: nested values with a structural equality and two kinds of text. -/
namespace PullCursor

inductive Element where
  | null
  | bool (b : Bool)
  | int (n : Int64)
  | text (s : String)
  | list (items : List Element)

namespace Element

mutual

def decEq : (a b : Element) → Decidable (a = b)
  | .null, .null => isTrue rfl
  | .bool a, .bool b => decidable_of_iff (a = b) (by simp)
  | .int a, .int b => decidable_of_iff (a = b) (by simp)
  | .text a, .text b => decidable_of_iff (a = b) (by simp)
  | .list a, .list b =>
      match decEqList a b with
      | isTrue h => isTrue (by rw [h])
      | isFalse h => isFalse (by simpa using h)
  | .null, .bool _ | .null, .int _ | .null, .text _ | .null, .list _
  | .bool _, .null | .bool _, .int _ | .bool _, .text _ | .bool _, .list _
  | .int _, .null | .int _, .bool _ | .int _, .text _ | .int _, .list _
  | .text _, .null | .text _, .bool _ | .text _, .int _ | .text _, .list _
  | .list _, .null | .list _, .bool _ | .list _, .int _ | .list _, .text _ => isFalse nofun

def decEqList : (a b : List Element) → Decidable (a = b)
  | [], [] => isTrue rfl
  | [], _ :: _ | _ :: _, [] => isFalse nofun
  | x :: a, y :: b =>
      match decEq x y, decEqList a b with
      | isTrue h, isTrue t => isTrue (by rw [h, t])
      | isFalse h, _ => isFalse fun e => h (List.cons.inj e).1
      | _, isFalse t => isFalse fun e => t (List.cons.inj e).2

end

instance : DecidableEq Element := decEq

mutual

def toText : Element → String
  | .null => "null"
  | .bool b => if b then "true" else "false"
  | .int n => toString n.toInt
  | .text s => s
  | .list items => "[" ++ ",".intercalate (toTexts items) ++ "]"

def toTexts : List Element → List String
  | [] => []
  | x :: rest => x.toText :: toTexts rest

end

mutual

def shown : Element → String
  | .text s => Text.quote s
  | .list items => Text.shownList (shownItems items)
  | .null => "null"
  | .bool b => if b then "true" else "false"
  | .int n => toString n.toInt

def shownItems : List Element → List String
  | [] => []
  | x :: rest => x.shown :: shownItems rest

end

/-- Bytes of a text, items of a list, and nothing otherwise. -/
def size : Element → Nat
  | .text s => s.utf8ByteSize
  | .list items => items.length
  | _ => 0

end Element

end PullCursor

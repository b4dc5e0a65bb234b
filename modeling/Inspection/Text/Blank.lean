/-!
# Text — blank characters

The characters with Unicode's `White_Space` property, and the removal of a run of them from both
ends of a text.  Lists of targets and the messages of programs are trimmed this way.

* `trim_of_noBlank`: a text whose ends are not blank is its own trimming.
-/

namespace Inspection.Text

/-- The `White_Space` property of Unicode. -/
def isBlank (c : Char) : Bool :=
  let n := c.toNat
  (0x09 ≤ n && n ≤ 0x0D) || n == 0x20 || n == 0x85 || n == 0xA0 || n == 0x1680 ||
    (0x2000 ≤ n && n ≤ 0x200A) || n == 0x2028 || n == 0x2029 || n == 0x202F || n == 0x205F ||
    n == 0x3000

/-- Drops the elements with a property from both ends of a list. -/
def trimWhere {α : Type} (drop : α → Bool) (xs : List α) : List α :=
  ((xs.dropWhile drop).reverse.dropWhile drop).reverse

/-- A text without the blanks at its two ends. -/
def trim (s : String) : String := String.ofList (trimWhere isBlank s.toList)

/-- Nothing is dropped where neither end has the property. -/
theorem trimWhere_eq_self {α : Type} {drop : α → Bool} {xs : List α}
    (first : ∀ x ∈ xs.head?, drop x = false) (last : ∀ x ∈ xs.getLast?, drop x = false) :
    trimWhere drop xs = xs := by
  have keep : ∀ ys : List α, (∀ y ∈ ys.head?, drop y = false) → ys.dropWhile drop = ys := by
    intro ys h
    cases ys with
    | nil => rfl
    | cons y ys => simp [List.dropWhile, h y (by simp)]
  rw [trimWhere, keep xs first, keep, List.reverse_reverse]
  rw [List.head?_reverse]
  exact last

theorem trim_of_noBlank {s : String} (first : ∀ c ∈ s.toList.head?, isBlank c = false)
    (last : ∀ c ∈ s.toList.getLast?, isBlank c = false) : trim s = s := by
  rw [trim, trimWhere_eq_self first last, String.ofList_toList]

end Inspection.Text

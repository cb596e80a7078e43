/-
**Repeatable reads: the view of a transaction.**

At REPEATABLE READ a transaction's plain reads all see the committed data as it was at the first of
them; a locking read sees the latest committed row instead. A view is that moment's data, once there
is one.

* `ReadView.read` — a plain read: it opens the view, or leaves it.
* `read_opened` — a view that is open does not change; `read_eq_opened` — a read leaves the view of what it
  saw.
-/

import Mathlib.Tactic.Common

namespace SuiteCloud.Library

variable {V : Type*}

/-- What a transaction's plain reads see: nothing yet, or the data at the first of them. -/
inductive ReadView (V : Type*)
  | unopened
  | opened (data : V)

namespace ReadView

/-- A plain read while `latest` is committed. -/
def read (view : ReadView V) (latest : V) : ReadView V :=
  match view with
  | .unopened => .opened latest
  | .opened data => .opened data

/-- What a plain read sees while `latest` is committed. -/
def sees (view : ReadView V) (latest : V) : V :=
  match view with
  | .unopened => latest
  | .opened data => data

/-- There has been a plain read. -/
def isOpened : ReadView V → Bool
  | .unopened => false
  | .opened _ => true

@[simp] theorem read_opened (data latest : V) : (opened data).read latest = opened data := rfl

@[simp] theorem sees_opened (data latest : V) : (opened data).sees latest = data := rfl

/-- After a plain read the view holds what the read has seen. -/
theorem read_eq_opened (view : ReadView V) (latest : V) :
    view.read latest = opened (view.sees latest) := by
  cases view with
  | unopened => rfl
  | opened data => rfl

end ReadView

end SuiteCloud.Library

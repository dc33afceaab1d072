/-!
# Threads

Threads are numbered. A `Table` gives a value to every thread; all but finitely many have the
default, so a thread needs no introduction before its first step.

* `Table.get_set_self`, `Table.get_set_of_ne`: writing one entry changes that entry alone.
-/

namespace ReaderWriter

/-- The number of a thread. -/
abbrev ThreadId := Nat

/-- A value for every thread, held as the values of the first few. -/
structure Table (α : Type) where
  entries : List α := []

namespace Table

variable {α : Type} [Inhabited α]

/-- The value of a thread. -/
def get (table : Table α) (t : ThreadId) : α := (table.entries[t]?).getD default

/-- A list with one place overwritten, extended by defaults up to it if it is too short. -/
def overwrite (value : α) : List α → Nat → List α
  | [], 0 => [value]
  | [], t + 1 => default :: overwrite value [] t
  | _ :: rest, 0 => value :: rest
  | first :: rest, t + 1 => first :: overwrite value rest t

/-- The table with a new value for one thread. -/
def set (table : Table α) (t : ThreadId) (value : α) : Table α :=
  ⟨overwrite value table.entries t⟩

theorem getElem?_overwrite_self (value : α) (entries : List α) (t : Nat) :
    (overwrite value entries t)[t]? = some value := by
  fun_induction overwrite value entries t <;> simp_all

theorem getD_overwrite_of_ne (value : α) (entries : List α) {t u : Nat} (h : u ≠ t) :
    ((overwrite value entries t)[u]?).getD default = (entries[u]?).getD default := by
  induction entries, t using overwrite.induct generalizing u with
  | case1 => cases u <;> simp_all [overwrite]
  | case2 t ih => cases u <;> simp_all [overwrite]
  | case3 => cases u <;> simp_all [overwrite]
  | case4 first rest t ih => cases u <;> simp_all [overwrite]

@[simp]
theorem get_set_self (table : Table α) (t : ThreadId) (value : α) :
    (table.set t value).get t = value := by
  simp [get, set, getElem?_overwrite_self]

theorem get_set_of_ne (table : Table α) {t u : ThreadId} (value : α) (h : u ≠ t) :
    (table.set t value).get u = table.get u := by
  simp [get, set, getD_overwrite_of_ne value table.entries h]

end Table

end ReaderWriter

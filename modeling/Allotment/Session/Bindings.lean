set_option autoImplicit false

/-!
# Bindings

The names of one kind of thing in a session. A name stands for at most one
thing: binding it again takes it away from the old one.
-/

namespace Allotment.Session

/-- What each name stands for. -/
structure Bindings (α : Type) where
  /-- The bound names, each once. -/
  entries : List (String × α) := []

namespace Bindings

variable {α : Type}

/-- What a name stands for. -/
def find? (bindings : Bindings α) (name : String) : Option α :=
  bindings.entries.lookup name

/-- The bindings without a name. -/
def erase (bindings : Bindings α) (name : String) : Bindings α :=
  { entries := bindings.entries.filter fun entry => entry.1 != name }

/-- The bindings in which a name stands for a thing. -/
def insert (bindings : Bindings α) (name : String) (thing : α) : Bindings α :=
  { entries := (name, thing) :: (bindings.erase name).entries }

/-- A name that was just bound stands for what it was bound to. -/
@[simp]
theorem find?_insert_self (bindings : Bindings α) (name : String) (thing : α) :
    (bindings.insert name thing).find? name = some thing := by
  simp [find?, insert]

/-- A name that was erased stands for nothing. -/
@[simp]
theorem find?_erase_self (bindings : Bindings α) (name : String) :
    (bindings.erase name).find? name = none := by
  simp only [find?, erase, List.lookup_eq_none_iff, List.mem_filter]
  intro entry hentry
  have hother : entry.1 ≠ name := by simpa using hentry.2
  simpa using hother.symm

end Bindings

end Allotment.Session

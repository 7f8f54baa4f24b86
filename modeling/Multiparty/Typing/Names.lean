/-! Finite maps from names, in the order in which the names were added. -/

namespace Multiparty

def Names (α : Type) : Type :=
  List (String × α)

namespace Names
variable {α : Type}

def empty : Names α :=
  []

def find? (name : String) : Names α → Option α
  | [] => none
  | entry :: rest => if entry.1 = name then some entry.2 else find? name rest

def contains (name : String) (names : Names α) : Bool :=
  (names.find? name).isSome

/-- A known name keeps its place, a new one comes last. -/
def set (name : String) (value : α) : Names α → Names α
  | [] => [(name, value)]
  | entry :: rest => if entry.1 = name then (name, value) :: rest else entry :: set name value rest

/-- Does nothing to a name that is not there. -/
def update (name : String) (change : α → α) : Names α → Names α
  | [] => []
  | entry :: rest =>
    if entry.1 = name then (entry.1, change entry.2) :: rest else entry :: update name change rest

def erase (name : String) : Names α → Names α
  | [] => []
  | entry :: rest => if entry.1 = name then erase name rest else entry :: erase name rest

@[simp] theorem find?_empty (name : String) : (empty : Names α).find? name = none := rfl

theorem find?_set (names : Names α) (name other : String) (value : α) :
    (names.set name value).find? other = if name = other then some value else names.find? other := by
  induction names with
  | nil => simp [set, find?]
  | cons entry rest ih => grind [set, find?]

theorem find?_erase (names : Names α) (name other : String) :
    (names.erase name).find? other = if name = other then none else names.find? other := by
  induction names with
  | nil => simp [erase, find?]
  | cons entry rest ih => grind [erase, find?]

end Names
end Multiparty

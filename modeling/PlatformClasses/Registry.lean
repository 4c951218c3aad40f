/-!
# Registries

Names with values, in the order in which the names were first given.  Giving a name again replaces its
value and leaves it in its place.
-/

namespace PlatformClasses

/-- Names with values, each name at most once if built by `insert`. -/
structure Registry (α : Type) where
  entries : List (String × α)
deriving Repr, DecidableEq, Inhabited

namespace Registry

variable {α : Type}

/-- The registry without names. -/
def empty : Registry α := ⟨[]⟩

/-- The value of a name in a list of entries. -/
def find (name : String) : List (String × α) → Option α
  | [] => none
  | e :: rest => if e.1 = name then some e.2 else find name rest

/-- The entries with a name's value replaced, or with the name added at the end. -/
def set (name : String) (value : α) : List (String × α) → List (String × α)
  | [] => [(name, value)]
  | e :: rest => if e.1 = name then (name, value) :: rest else e :: set name value rest

/-- The value of a name. -/
def get? (r : Registry α) (name : String) : Option α := find name r.entries

/-- Whether a name has a value. -/
def contains (r : Registry α) (name : String) : Bool := (r.get? name).isSome

/-- The registry with a value given to a name. -/
def insert (r : Registry α) (name : String) (value : α) : Registry α :=
  ⟨set name value r.entries⟩

/-- The registry of entries given one after the other. -/
def ofList (entries : List (String × α)) : Registry α :=
  entries.foldl (fun r e => r.insert e.1 e.2) empty

/-- The names in order. -/
def names (r : Registry α) : List String := r.entries.map (·.1)

@[simp] theorem get?_empty (name : String) : (empty : Registry α).get? name = none := rfl

@[simp] theorem get?_insert_self (r : Registry α) (name : String) (value : α) :
    (r.insert name value).get? name = some value := by
  obtain ⟨entries⟩ := r
  simp only [insert, get?]
  induction entries with
  | nil => simp [set, find]
  | cons e rest ih => by_cases h : e.1 = name <;> simp [set, find, h, ih]

theorem get?_insert_of_ne (r : Registry α) {name other : String} (h : other ≠ name) (value : α) :
    (r.insert name value).get? other = r.get? other := by
  obtain ⟨entries⟩ := r
  simp only [insert, get?]
  induction entries with
  | nil => simp [set, find, Ne.symm h]
  | cons e rest ih =>
    by_cases he : e.1 = name
    · simp [set, find, he, Ne.symm h]
    · simp [set, find, he, ih]

/-- A name keeps its place when it is given again, and comes last when it is new. -/
theorem names_insert (r : Registry α) (name : String) (value : α) :
    (r.insert name value).names = if name ∈ r.names then r.names else r.names ++ [name] := by
  obtain ⟨entries⟩ := r
  simp only [insert, names]
  induction entries with
  | nil => simp [set]
  | cons e rest ih =>
    by_cases h : e.1 = name
    · simp [set, h]
    · have hne : ¬ name = e.1 := fun heq => h heq.symm
      simp only [set, h, if_false, List.map_cons, ih, List.mem_cons, hne, false_or]
      split <;> simp [*]

end Registry

end PlatformClasses
